import EpollGateway.Upstream.ChunkScan

/-! # What a completed scan has read

`ChunkedBody enc payload` is the grammar of a chunked body, with the payload it
carries. A completed scan has read exactly such a body, if no chunk size is so
large that the end of its chunk wraps around (`scan_complete_iff`). A wrapping
size is accepted as well, and then the scanner reports data that no chunk holds
(`scan_amplifies`).
-/

namespace EpollGateway.Upstream

open Bytes Loop

/-- The chunks, the zero-size line, the trailer lines and the empty line. -/
inductive ChunkedBody : Bytes → Bytes → Prop where
  | last {line : Bytes} {trailers : List Bytes} :
      SizeText line 0 → OneLine line → (∀ t ∈ trailers, t ≠ [] ∧ OneLine t) →
      ChunkedBody (line ++ (crlf ++ (trailers.flatMap (· ++ crlf) ++ crlf))) []
  | chunk {line data rest payload : Bytes} :
      SizeText line data.length → OneLine line → data ≠ [] → ChunkedBody rest payload →
      ChunkedBody (line ++ (crlf ++ (data ++ (crlf ++ rest)))) (data ++ payload)

variable {buf d decoded payload : Bytes} {bodyEnd fuel p start : Nat}

/-- The framing costs bytes: a body is longer than its payload. -/
lemma ChunkedBody.length_lt {enc : Bytes} (h : ChunkedBody enc payload) :
    payload.length < enc.length := by
  induction h with
  | last _ _ _ =>
    simp only [List.length_append, List.length_nil, length_crlf]
    omega
  | chunk _ _ _ _ ih =>
    simp only [List.length_append]
    omega

/-- What `scan_chunked_body` promises with `Complete`. -/
structure Dechunked (buf : Bytes) (bodyStart bodyEnd : Nat) (decoded : Bytes) : Prop where
  end_le : bodyEnd ≤ buf.length
  body : ChunkedBody (slice buf bodyStart bodyEnd) decoded
  shorter : decoded.length < bodyEnd - bodyStart

/-- No chunk size, at any chunk boundary, wraps the end of its chunk. -/
def SizesFit (buf : Bytes) (start : Nat) : Prop :=
  ∀ p e s, Boundary buf start p → SizeLineAt buf p e s → e + 4 + s < 2 ^ 64

/-! ## Completed scans of fitting sizes -/

lemma slice_line {e q : Nat} (hfind : findCrlf buf p = some e) (hq : e + 2 ≤ q) :
    slice buf p q = slice buf p e ++ (crlf ++ slice buf (e + 2) q) := by
  obtain ⟨hpe, hat, -⟩ := findCrlf_eq_some.mp hfind
  rw [← slice_of_crlfAt hat, slice_append_slice buf (by omega) hq,
    slice_append_slice buf hpe (by omega)]

lemma complete_of_trailer (hbuf : buf.length < 2 ^ 63) {t : Nat}
    (h : loop (scanTurn buf) fuel (.trailer t d) = some (.complete bodyEnd decoded)) :
    decoded = d ∧ t ≤ bodyEnd ∧ bodyEnd ≤ buf.length ∧
      ∃ trailers : List Bytes, (∀ x ∈ trailers, x ≠ [] ∧ OneLine x) ∧
        slice buf t bodyEnd = trailers.flatMap (· ++ crlf) ++ crlf := by
  induction fuel generalizing t with
  | zero => simp [loop] at h
  | succ fuel ih =>
    cases hturn : scanTurn buf (.trailer t d) with
    | done r =>
      rw [loop_done hturn] at h
      obtain rfl := Option.some.inj h
      obtain ⟨u, hu, hat, rfl⟩ := scanTurn_complete hbuf hturn
      cases hu
      exact ⟨rfl, by omega, hat.lt, [], by simp, slice_of_crlfAt hat⟩
    | again v =>
      obtain ⟨e, hfind, hne, rfl⟩ := (scanTurn_trailer hbuf).mp hturn
      rw [loop_again hturn] at h
      obtain ⟨hd, hle, hend, trailers, htrailers, hslice⟩ := ih h
      obtain ⟨hte, hat, -⟩ := findCrlf_eq_some.mp hfind
      refine ⟨hd, by omega, hend, slice buf t e :: trailers, ?_, ?_⟩
      · intro x hx
        rcases List.mem_cons.mp hx with rfl | hx
        · refine ⟨?_, oneLine_of_findCrlf hfind⟩
          have helt := hat.lt
          have hlen : (slice buf t e).length = e - t := length_slice (by omega)
          exact List.ne_nil_of_length_pos (by omega)
        · exact htrailers x hx
      · rw [slice_line hfind hle, hslice]
        simp

lemma complete_of_line (hbuf : buf.length < 2 ^ 63) (hfit : SizesFit buf start)
    (hp : Boundary buf start p)
    (h : loop (scanTurn buf) fuel (.line p d) = some (.complete bodyEnd decoded)) :
    p ≤ bodyEnd ∧ bodyEnd ≤ buf.length ∧
      ∃ payload, decoded = d ++ payload ∧ ChunkedBody (slice buf p bodyEnd) payload := by
  induction fuel generalizing p d with
  | zero => simp [loop] at h
  | succ fuel ih =>
    cases hturn : scanTurn buf (.line p d) with
    | done r =>
      rw [loop_done hturn] at h
      obtain rfl := Option.some.inj h
      obtain ⟨t, ht, -⟩ := scanTurn_complete hbuf hturn
      cases ht
    | again v =>
      rw [loop_again hturn] at h
      rcases (scanTurn_line hbuf).mp hturn with ⟨e, hline, rfl⟩ | ⟨e, s, q, hline, hend, rfl⟩
      · obtain ⟨hd, hle, hlen, trailers, htrailers, hslice⟩ := complete_of_trailer hbuf h
        have hpe := hline.le
        refine ⟨by omega, hlen, [], by simp [hd], ?_⟩
        rw [slice_line hline.first hle, hslice]
        exact .last hline.text (oneLine_of_findCrlf hline.first) htrailers
      · -- the size fits, so the chunk ends behind its data
        have hsum := hend.sum
        have hq : q = e + 4 + s := by
          have := hfit p e s hp hline
          omega
        subst hq
        have hqle := hend.le
        have hat : CrlfAt buf (e + 2 + s) := by
          have := hend.crlfAt
          rwa [show e + 4 + s - 2 = e + 2 + s by omega] at this
        obtain ⟨hle, hlen, payload, hdec, hbody⟩ :=
          ih (.chunk hp hline hend.size_ne hend.le hat) h
        have hpe := hline.le
        refine ⟨by omega, hlen, slice buf (e + 2) (e + 2 + s) ++ payload, ?_, ?_⟩
        · rw [hdec, List.append_assoc]
          simp [slice]
        · have hdata : slice buf (e + 2) bodyEnd =
              slice buf (e + 2) (e + 2 + s) ++ (crlf ++ slice buf (e + 4 + s) bodyEnd) := by
            rw [← slice_of_crlfAt hat, show e + 2 + s + 2 = e + 4 + s by omega,
              slice_append_slice buf (by omega) hle, slice_append_slice buf (by omega) (by omega)]
          have hdlen : (slice buf (e + 2) (e + 2 + s)).length = s := by
            rw [length_slice (by omega)]
            omega
          rw [slice_line hline.first (by omega), hdata]
          refine .chunk (by rw [hdlen]; exact hline.text) (oneLine_of_findCrlf hline.first) ?_ hbody
          exact List.ne_nil_of_length_pos (by have := hend.size_ne; omega)

/-! ## Bodies of the grammar -/

/-- The first line of a chunked body, found in the buffer. -/
lemma ChunkedBody.first (h : ChunkedBody (slice buf p bodyEnd) payload) :
    ∃ e s, SizeLineAt buf p e s ∧ e + 4 + s ≤ bodyEnd ∧
      (s ≠ 0 → ∃ payload', ChunkedBody (slice buf (e + 4 + s) bodyEnd) payload') := by
  generalize henc : slice buf p bodyEnd = enc at h
  cases h with
  | @last line trailers htext hone htrailers =>
    obtain ⟨hfind, hslice, hrest, hle⟩ := findCrlf_of_slice henc hone
    refine ⟨p + line.length, 0, ⟨hfind, by rwa [hslice]⟩, ?_, fun hne => absurd rfl hne⟩
    have hlen := length_slice_le buf (p + line.length + 2) bodyEnd
    rw [hrest] at hlen
    simp only [List.length_append, length_crlf] at hlen
    omega
  | @chunk line data rest payload' htext hone hne hbody =>
    obtain ⟨hfind, hslice, hrest, hle⟩ := findCrlf_of_slice henc hone
    refine ⟨p + line.length, data.length, ⟨hfind, by rwa [hslice]⟩, ?_, fun _ => ⟨payload', ?_⟩⟩
    · have hlen := length_slice_le buf (p + line.length + 2) bodyEnd
      rw [hrest] at hlen
      simp only [List.length_append, length_crlf] at hlen
      omega
    · have hdrop := congrArg (List.drop (data.length + 2)) hrest
      have hnil : data.drop (data.length + 2) = [] := List.drop_of_length_le (by omega)
      have htail : slice buf (p + line.length + 4 + data.length) bodyEnd = rest := by
        rw [show p + line.length + 4 + data.length = p + line.length + 2 + (data.length + 2) by omega]
        simpa [slice, List.drop_take, List.drop_append, crlf, Nat.add_assoc, Nat.sub_sub, hnil]
          using hdrop
      rwa [htail]

/-- Every boundary of a buffer that holds a chunked body starts a chunked body. -/
lemma ChunkedBody.boundary (hbuf : buf.length < 2 ^ 63) (hend : bodyEnd ≤ buf.length)
    (h : ChunkedBody (slice buf start bodyEnd) payload) (hp : Boundary buf start p) :
    ∃ payload', ChunkedBody (slice buf p bodyEnd) payload' := by
  induction hp with
  | start => exact ⟨payload, h⟩
  | chunk _ hline hne _ _ ih =>
    obtain ⟨payload', hbody⟩ := ih
    obtain ⟨e, s, hline', -, hnext⟩ := hbody.first
    obtain ⟨rfl, rfl⟩ := hline.unique hline'
    exact hnext hne
  | minusTwo _ hline ih =>
    obtain ⟨payload', hbody⟩ := ih
    obtain ⟨e, s, hline', hle, -⟩ := hbody.first
    obtain ⟨rfl, rfl⟩ := hline.unique hline'
    omega

/-- A completed scan has read a chunked body and its payload, exactly when no
chunk size wraps. -/
theorem scan_complete_iff (buf : Bytes) (bodyStart fuel bodyEnd : Nat) (decoded : Bytes)
    (hbuf : buf.length < 2 ^ 63)
    (h : scanChunkedBody fuel buf bodyStart = some (.complete bodyEnd decoded)) :
    Dechunked buf bodyStart bodyEnd decoded ↔ SizesFit buf bodyStart := by
  constructor
  · rintro ⟨hend, hbody, -⟩ p e s hp hline
    obtain ⟨payload, hp'⟩ := hbody.boundary hbuf hend hp
    obtain ⟨e', s', hline', hle, -⟩ := hp'.first
    obtain ⟨rfl, rfl⟩ := hline.unique hline'
    omega
  · intro hfit
    obtain ⟨hle, hend, payload, hdec, hbody⟩ := complete_of_line hbuf hfit .start h
    rw [List.nil_append] at hdec
    subst hdec
    have hlt := hbody.length_lt
    rw [length_slice hend] at hlt
    exact ⟨hend, hbody, hlt⟩

/-- The scan of a body with one chunk. -/
theorem scan_complete_plainResponse :
    scanChunkedBody 3 plainResponse 0 = some (.complete 13 (ascii "abc")) ∧
      Dechunked plainResponse 0 13 (ascii "abc") := by
  have hscan : scanChunkedBody 3 plainResponse 0 = some (.complete 13 (ascii "abc")) := by
    decide +kernel
  refine ⟨hscan, (scan_complete_iff plainResponse 0 3 13 (ascii "abc") (by decide) hscan).mpr ?_⟩
  intro p e s hp hline
  obtain ⟨h0, h8⟩ := plainResponse_lines
  rcases plainResponse_boundary hp with rfl | rfl
  · obtain ⟨rfl, rfl⟩ := hline.unique h0
    omega
  · obtain ⟨rfl, rfl⟩ := hline.unique h8
    omega

/-- Three size lines for chunks of minus two bytes, then the end of the body. -/
def amplifyingBody : Bytes :=
  ascii "fffffffffffffffe\r\nfffffffffffffffe\r\nfffffffffffffffe\r\n0\r\n\r\n"

/-- The scanner completes a body of 59 bytes that holds no chunk, and decodes 69
bytes from it: after each of the lines the rest of the buffer is appended. -/
theorem scan_amplifies :
    ∃ decoded, scanChunkedBody 5 amplifyingBody 0 = some (.complete 59 decoded) ∧
      amplifyingBody.length < 2 ^ 63 ∧ ¬ Dechunked amplifyingBody 0 59 decoded := by
  refine ⟨amplifyingBody.drop 18 ++ amplifyingBody.drop 36 ++ amplifyingBody.drop 54,
    by decide +kernel, by decide, fun h => absurd h.shorter (by decide)⟩

end EpollGateway.Upstream
