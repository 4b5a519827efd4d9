import EpollGateway.Http.ChunkLines
import EpollGateway.Upstream.HeaderLines
import EpollGateway.Upstream.Segmentation

/-! # Where a chunked body ends

The scan of `try_frame` finds the end of a chunked body, as soon as the body is there
(`scanBody_chunks`) and not before (`scanBody_part`).
-/

namespace EpollGateway.Upstream

open Bytes Loop Handler

/-! ## Chunked bodies -/

/-- The scanner reads trailers to their end. -/
lemma scan_trailers {buf : Bytes} (hbuf : buf.length < 2 ^ 63) {trailers : List Bytes}
    (htrailers : ∀ l ∈ trailers, l ≠ [] ∧ OneLine l) {t bodyEnd : Nat} (hend : bodyEnd ≤ buf.length)
    (h : slice buf t bodyEnd = trailers.flatMap (· ++ crlf) ++ crlf) (d : Bytes) :
    ∃ fuel, loop (scanTurn buf) fuel (.trailer t d) = some (.complete bodyEnd d) := by
  induction trailers generalizing t with
  | nil =>
    have hempty : OneLine [] := by
      intro j hj
      exact absurd hj.lt (by simp)
    have hslice : slice buf t bodyEnd = [] ++ (crlf ++ []) := by simpa using h
    rcases findCrlf_of_slice hslice hempty with ⟨hfind, -, hrest, hle⟩
    have hbodyEnd : bodyEnd = t + 2 := by
      have hlen := length_slice (b := buf) (i := t + 0 + 2) (j := bodyEnd) hend
      rw [List.length_nil] at hrest
      rw [hrest] at hlen
      simp at hlen hle
      omega
    refine ⟨1, loop_done ?_⟩
    rw [List.length_nil, Nat.add_zero] at hfind
    simp only [scanTurn, hfind, if_true]
    rw [SizeT.add_eq (by omega), hbodyEnd]
  | cons l ls ih =>
    rcases htrailers l List.mem_cons_self with ⟨hne, hl⟩
    have hslice : slice buf t bodyEnd = l ++ (crlf ++ (ls.flatMap (· ++ crlf) ++ crlf)) := by
      rw [h]
      simp
    rcases findCrlf_of_slice hslice hl with ⟨hfind, -, hrest, -⟩
    rcases ih (fun x hx => htrailers x (List.mem_cons_of_mem _ hx)) hrest with ⟨fuel, hfuel⟩
    have hlen := List.length_pos_iff.mpr hne
    have hturn : scanTurn buf (.trailer t d) = .again (.trailer (t + l.length + 2) d) :=
      (scanTurn_trailer hbuf).mpr ⟨t + l.length, hfind, by omega, rfl⟩
    exact ⟨fuel + 1, by rw [loop_again hturn, hfuel]⟩

variable {enc payload pre : Bytes}

/-- The scanner reads a chunked body to its end. -/
lemma scan_chunks {buf : Bytes} (hbuf : buf.length < 2 ^ 63) (hbody : ChunkedBody enc payload)
    {p bodyEnd : Nat} (hend : bodyEnd ≤ buf.length) (h : slice buf p bodyEnd = enc) (d : Bytes) :
    ∃ fuel, loop (scanTurn buf) fuel (.line p d) = some (.complete bodyEnd (d ++ payload)) := by
  induction hbody generalizing p d with
  | @last line trailers htext hline htrailers =>
    rcases findCrlf_of_slice h hline with ⟨hfind, hslice, hrest, -⟩
    rcases scan_trailers hbuf htrailers hend hrest d with ⟨fuel, hfuel⟩
    have hturn : scanTurn buf (.line p d) = .again (.trailer (p + line.length + 2) d) :=
      (scanTurn_line hbuf).mpr (.inl ⟨p + line.length, ⟨hfind, by rwa [hslice]⟩, rfl⟩)
    exact ⟨fuel + 1, by rw [loop_again hturn, hfuel, List.append_nil]⟩
  | @chunk line data rest payload htext hline hne _ ih =>
    rcases findCrlf_of_slice h hline with ⟨hfind, hslice, hrest, hle⟩
    set e := p + line.length
    -- the data, the line end behind it and what follows
    have hcrlf : CrlfAt (slice buf (e + 2) bodyEnd) data.length := by
      rw [hrest]
      constructor
      · simp [crlf]
      · simp [crlf]
    rcases crlfAt_slice hcrlf with ⟨hat, hq⟩
    have hdata : (buf.drop (e + 2)).take data.length = data := by
      have htake := congrArg (List.take data.length) hrest
      simpa [slice, List.take_take, show min data.length (bodyEnd - (e + 2)) = data.length by omega]
        using htake
    have htail : slice buf (e + 4 + data.length) bodyEnd = rest := by
      have hdrop := congrArg (List.drop (data.length + 2)) hrest
      have hnil : data.drop (data.length + 2) = [] := List.drop_of_length_le (by omega)
      rw [show e + 4 + data.length = e + 2 + (data.length + 2) by omega]
      simpa [slice, List.drop_take, List.drop_append, crlf, Nat.add_assoc, Nat.sub_sub, hnil]
        using hdrop
    have hpos := List.length_pos_iff.mpr hne
    have hchunk : ChunkEnd buf e data.length (e + 4 + data.length) := by
      refine ⟨by omega, by omega, Nat.mod_eq_of_lt (by omega), by omega, by omega, ?_⟩
      rwa [show e + 4 + data.length - 2 = e + 2 + data.length by omega]
    rcases ih htail (d ++ data) with ⟨fuel, hfuel⟩
    have hturn : scanTurn buf (.line p d) = .again (.line (e + 4 + data.length) (d ++ data)) := by
      refine (scanTurn_line hbuf).mpr
        (.inr ⟨e, data.length, _, ⟨hfind, by rwa [hslice]⟩, hchunk, ?_⟩)
      rw [hdata]
    exact ⟨fuel + 1, by rw [loop_again hturn, hfuel, List.append_assoc]⟩

/-- A chunked body at the end of a buffer. -/
lemma scanBody_end (hbuf : (pre ++ enc).length < 2 ^ 63) (hbody : ChunkedBody enc payload) :
    scanBody (pre ++ enc) pre.length = some (.complete (pre ++ enc).length payload) := by
  have hslice : slice (pre ++ enc) pre.length (pre ++ enc).length = enc := by simp [slice]
  rcases scan_chunks hbuf hbody (Nat.le_refl _) hslice [] with ⟨fuel, hfuel⟩
  exact scanBody_eq_some hfuel

lemma sizesFit_chunks (hbuf : (pre ++ enc).length < 2 ^ 63) (hbody : ChunkedBody enc payload) :
    SizesFit (pre ++ enc) pre.length := by
  have hslice : slice (pre ++ enc) pre.length (pre ++ enc).length = enc := by simp [slice]
  have hscan := scanBody_end hbuf hbody
  refine (scan_complete_iff _ _ _ _ _ hbuf hscan).mp ⟨Nat.le_refl _, by rwa [hslice], ?_⟩
  have hlt := hbody.length_lt
  rw [List.length_append]
  omega

/-- A chunked body in a buffer, between a header block and anything else. -/
lemma scanBody_chunks (hbuf : (pre ++ enc).length < 2 ^ 63) (hbody : ChunkedBody enc payload)
    (more : Bytes) :
    scanBody (pre ++ enc ++ more) pre.length =
      some (.complete (pre ++ enc).length payload) := by
  have hend := scanBody_end hbuf hbody
  rw [← hend]
  apply scanBody_append hbuf (by simp) (sizesFit_chunks hbuf hbody)
  rw [hend]
  nofun

/-- A part of a chunked body is not complete. -/
lemma scanBody_part (hbuf : (pre ++ enc).length < 2 ^ 63) (hbody : ChunkedBody enc payload)
    {k : Nat} (hk : k < enc.length) :
    scanBody (pre ++ enc.take k) pre.length = some .incomplete := by
  by_contra hne
  have hsplit : pre ++ enc.take k ++ enc.drop k = pre ++ enc := by
    rw [List.append_assoc, List.take_append_drop]
  have hwhole := scanBody_end hbuf hbody
  have hfit := sizesFit_chunks hbuf hbody
  rw [← hsplit] at hfit
  have hshort : (pre ++ enc.take k).length < 2 ^ 63 := by
    rw [List.length_append] at hbuf ⊢
    rw [List.length_take]
    omega
  have happend := scanBody_append hshort (by simp) hfit.of_append hne (enc.drop k)
  rw [hsplit, hwhole] at happend
  have hle := ((scan_complete_iff _ _ _ _ _ hshort happend.symm).mpr hfit.of_append).end_le
  rw [List.length_append, List.length_append, List.length_take] at hle
  omega

end EpollGateway.Upstream
