import EpollGateway.Lib.Bytes
import EpollGateway.Lib.Loop
import EpollGateway.Lib.SizeT

/-! # The scanner for chunked backend responses

`scan_chunked_body` walks over a response buffer chunk by chunk. Its positions
are `size_t` and the chunk size comes from the backend, so the end of a chunk is
a sum modulo `2 ^ 64`. `scanTurn` is one pass of the outer loop, or of the
trailer loop inside it; `scanTurn_line` and `scanTurn_trailer` say what a pass
can do.
-/

namespace EpollGateway.Upstream

open Bytes Loop

/-- `ChunkScan`, with the values left in `body_end` and `decoded`. `outOfRange`
is the exception of `std::string::compare` for a position behind the end. -/
inductive ChunkScan where
  | incomplete
  | complete (bodyEnd : Nat) (decoded : Bytes)
  | error
  | outOfRange
deriving DecidableEq, Repr

/-- The scanner in front of a size line, or of a trailer line. -/
inductive ScanState where
  | line (pos : Nat) (decoded : Bytes)
  | trailer (t : Nat) (decoded : Bytes)
deriving DecidableEq, Repr

/-- The digit loop; the guard stands before the multiplication. -/
def scanSizeLoop : Nat → Bytes → Option Nat
  | size, [] => some size
  | size, c :: cs =>
    match hexVal? c with
    | none => none
    | some d =>
      if size > SizeT.max >>> 4 then none
      else scanSizeLoop (SizeT.add (SizeT.mul size 16) d) cs

/-- One pass of the loop. -/
def scanTurn (buf : Bytes) : ScanState → Turn ScanState ChunkScan
  | .line pos decoded =>
    match findCrlf buf pos with
    | none => .done .incomplete
    | some lineEnd =>
      let hex := (slice buf pos lineEnd).takeWhile (· ≠ 59)
      if hex = [] then .done .error
      else
        match scanSizeLoop 0 hex with
        | none => .done .error
        | some size =>
          let pos := SizeT.add lineEnd 2
          if size = 0 then .again (.trailer pos decoded)
          else if buf.length < SizeT.add (SizeT.add pos size) 2 then .done .incomplete
          else if buf.length < SizeT.add pos size then .done .outOfRange
          else if (buf.drop (SizeT.add pos size)).take 2 ≠ crlf then .done .error
          else
            -- `append` clamps the length to what the buffer holds
            .again (.line (SizeT.add pos (SizeT.add size 2)) (decoded ++ (buf.drop pos).take size))
  | .trailer t decoded =>
    match findCrlf buf t with
    | none => .done .incomplete
    | some e =>
      if e = t then .done (.complete (SizeT.add e 2) decoded)
      else .again (.trailer (SizeT.add e 2) decoded)

/-- `scan_chunked_body`, for at most `fuel` passes. -/
def scanChunkedBody (fuel : Nat) (buf : Bytes) (bodyStart : Nat) : Option ChunkScan :=
  loop (scanTurn buf) fuel (.line bodyStart [])

/-! ## Size lines -/

/-- Hexadecimal digits for `n`, then nothing or an extension behind a `;`. -/
def SizeText (text : Bytes) (n : Nat) : Prop :=
  ∃ digits ext, text = digits ++ ext ∧ digits ≠ [] ∧ numeral 16 hexVal? digits = some n ∧
    (ext = [] ∨ ext.head? = some 59)

lemma hexVal?_ne_semicolon : ∀ c, (hexVal? c).isSome → c ≠ 59 := forall_byte (by decide +kernel)

lemma hexVal?_ne_lf : ∀ c, (hexVal? c).isSome → c ≠ lf := forall_byte (by decide +kernel)

variable {e n p s : Nat}

lemma sizeText_iff {text : Bytes} :
    SizeText text n ↔
      text.takeWhile (· ≠ 59) ≠ [] ∧ numeral 16 hexVal? (text.takeWhile (· ≠ 59)) = some n := by
  constructor
  · rintro ⟨digits, ext, rfl, hne, hval, hext⟩
    have hdigits : ∀ c ∈ digits, decide (c ≠ 59) = true := by
      intro c hc
      simpa using hexVal?_ne_semicolon c (digit_of_numeralFrom hval c hc)
    have hend : ext.takeWhile (· ≠ 59) = [] := by
      rcases hext with rfl | hext
      · rfl
      · cases ext with
        | nil => rfl
        | cons c cs =>
          have hc : c = 59 := by simpa using hext
          simp [hc]
    rw [List.takeWhile_append_of_pos hdigits, hend, List.append_nil]
    exact ⟨hne, hval⟩
  · rintro ⟨hne, hval⟩
    refine ⟨_, text.dropWhile (· ≠ 59), List.takeWhile_append_dropWhile.symm, hne, hval, ?_⟩
    by_cases hrest : text.dropWhile (· ≠ 59) = []
    · exact .inl hrest
    · right
      have hhead := List.head_dropWhile_not (fun c : UInt8 => decide (c ≠ 59)) hrest
      rw [List.head?_eq_some_head hrest]
      simpa using hhead

/-- The guard in front of the multiplication keeps the size exact: a numeral that
does not fit is refused. -/
lemma scanSizeLoop_eq_some {size : Nat} {text : Bytes} (hsize : size < 2 ^ 64) :
    scanSizeLoop size text = some n ↔ numeralFrom 16 hexVal? size text = some n ∧ n < 2 ^ 64 := by
  have hguard : SizeT.max >>> 4 = 2 ^ 60 - 1 := by decide
  induction text generalizing size with
  | nil =>
    simp only [scanSizeLoop, numeralFrom, Option.some.injEq]
    omega
  | cons c cs ih =>
    cases hd : hexVal? c with
    | none => simp [scanSizeLoop, numeralFrom, hd]
    | some d =>
      have hlt := hexVal?_lt c d hd
      by_cases hbig : size > SizeT.max >>> 4
      · simp only [scanSizeLoop, hd, if_pos hbig, numeralFrom, Option.bind_some, reduceCtorEq,
          false_iff, not_and]
        intro hval
        have hle := le_of_numeralFrom (by decide) hval
        omega
      · have hmul : SizeT.mul size 16 = size * 16 := SizeT.mul_eq (by omega)
        have hadd : SizeT.add (SizeT.mul size 16) d = size * 16 + d := by
          rw [hmul, SizeT.add_eq (by omega)]
        simp only [scanSizeLoop, hd, if_neg hbig, hadd, numeralFrom, Option.bind_some]
        exact ih (by omega)

/-- A size line of value `s` starts at `p`, and its line end stands at `e`. -/
structure SizeLineAt (buf : Bytes) (p e s : Nat) : Prop where
  first : findCrlf buf p = some e
  text : SizeText (slice buf p e) s

variable {buf decoded : Bytes}

lemma SizeLineAt.le (h : SizeLineAt buf p e s) : p ≤ e :=
  (findCrlf_eq_some.mp h.first).1

lemma SizeLineAt.crlfAt (h : SizeLineAt buf p e s) : CrlfAt buf e :=
  (findCrlf_eq_some.mp h.first).2.1

lemma SizeLineAt.unique {e' s' : Nat} (h : SizeLineAt buf p e s) (h' : SizeLineAt buf p e' s') :
    e = e' ∧ s = s' := by
  have he : e = e' := Option.some.inj (h.first.symm.trans h'.first)
  subst he
  refine ⟨rfl, ?_⟩
  exact Option.some.inj ((sizeText_iff.mp h.text).2.symm.trans (sizeText_iff.mp h'.text).2)

/-- The line starts with a digit. -/
lemma SizeLineAt.head (h : SizeLineAt buf p e s) :
    p < e ∧ ∃ c, buf[p]? = some c ∧ (hexVal? c).isSome := by
  obtain ⟨digits, ext, htext, hne, hval, -⟩ := h.text
  cases digits with
  | nil => exact absurd rfl hne
  | cons c cs =>
    have hdigit := digit_of_numeralFrom hval c (by simp)
    have hlen : 0 < (slice buf p e).length := by simp [htext]
    have hpe : p < e := by
      by_contra hge
      simp [slice, show e - p = 0 by omega] at hlen
    refine ⟨hpe, c, ?_, hdigit⟩
    have hget := congrArg (fun l : Bytes => l[0]?) htext
    simpa [slice, List.getElem?_take, List.getElem?_drop, show 0 < e - p by omega] using hget

/-! ## What a pass can do -/

/-- A chunk of size `s` whose size line ends at `e` ends at `q`: the sum is taken
modulo `2 ^ 64`, lies in the buffer, and a line end stands in front of it. -/
structure ChunkEnd (buf : Bytes) (e s q : Nat) : Prop where
  size_ne : s ≠ 0
  size_lt : s < 2 ^ 64
  sum : (e + 4 + s) % 2 ^ 64 = q
  two_le : 2 ≤ q
  le : q ≤ buf.length
  crlfAt : CrlfAt buf (q - 2)

lemma scanTurn_line (hbuf : buf.length < 2 ^ 63) {v : ScanState} :
    scanTurn buf (.line p decoded) = .again v ↔
      (∃ e, SizeLineAt buf p e 0 ∧ v = .trailer (e + 2) decoded) ∨
      ∃ e s q, SizeLineAt buf p e s ∧ ChunkEnd buf e s q ∧
        v = .line q (decoded ++ (buf.drop (e + 2)).take s) := by
  constructor
  · intro h
    simp only [scanTurn] at h
    split at h
    · cases h
    · rename_i e he
      have helt := (findCrlf_eq_some.mp he).2.1.lt
      split at h
      · cases h
      · rename_i hne
        split at h
        · cases h
        · rename_i s hs
          obtain ⟨hval, hlt⟩ := (scanSizeLoop_eq_some (by decide)).mp hs
          have hline : SizeLineAt buf p e s := ⟨he, sizeText_iff.mpr ⟨hne, hval⟩⟩
          have hpos : SizeT.add e 2 = e + 2 := SizeT.add_eq (by omega)
          rw [hpos] at h
          split at h
          · rename_i hz
            cases h
            exact .inl ⟨e, hz ▸ hline, rfl⟩
          · rename_i hz
            split at h
            · cases h
            · split at h
              · cases h
              · split at h
                · cases h
                · rename_i hfit hrange hcrlf
                  cases h
                  have hat : CrlfAt buf (SizeT.add (e + 2) s) :=
                    crlfAt_of_take (by simpa using hcrlf)
                  have hq : SizeT.add (e + 2) (SizeT.add s 2) = SizeT.add (e + 2) s + 2 := by
                    simp only [SizeT.add] at hrange ⊢
                    omega
                  have hsum : (e + 4 + s) % 2 ^ 64 = SizeT.add (e + 2) s + 2 := by
                    simp only [SizeT.add] at hrange ⊢
                    omega
                  rw [hq]
                  exact .inr ⟨e, s, _, hline, ⟨hz, hlt, hsum, by omega, hat.lt, hat⟩, rfl⟩
  · -- the same tests, read forwards
    intro h
    have hsum : ∀ e s, e + 2 ≤ buf.length → SizeLineAt buf p e s → s < 2 ^ 64 →
        findCrlf buf p = some e ∧ (slice buf p e).takeWhile (· ≠ 59) ≠ [] ∧
        scanSizeLoop 0 ((slice buf p e).takeWhile (· ≠ 59)) = some s ∧
        SizeT.add e 2 = e + 2 := by
      intro e s he hline hs
      obtain ⟨hne, hval⟩ := sizeText_iff.mp hline.text
      exact ⟨hline.first, hne, (scanSizeLoop_eq_some (by decide)).mpr ⟨hval, hs⟩,
        SizeT.add_eq (by omega)⟩
    rcases h with ⟨e, hline, rfl⟩ | ⟨e, s, q, hline, hend, rfl⟩
    · obtain ⟨hfind, hne, hloop, hpos⟩ := hsum e 0 hline.crlfAt.lt hline (by decide)
      simp only [scanTurn, hfind, if_neg hne, hloop, hpos, if_true]
    · obtain ⟨hfind, hne, hloop, hpos⟩ := hsum e s hline.crlfAt.lt hline hend.size_lt
      have htwo := hend.two_le
      have hle := hend.le
      have hq := hend.sum
      have hat : SizeT.add (e + 2) s = q - 2 := by
        simp only [SizeT.add]
        omega
      have hback : SizeT.add (q - 2) 2 = q := by
        simp only [SizeT.add]
        omega
      have hnext : SizeT.add (e + 2) (SizeT.add s 2) = q := by
        simp only [SizeT.add]
        omega
      have htake : (buf.drop (q - 2)).take 2 = crlf := by
        have hslice := slice_of_crlfAt hend.crlfAt
        simpa [slice, show q - 2 + 2 - (q - 2) = 2 by omega] using hslice
      simp only [scanTurn, hfind, if_neg hne, hloop, hpos, if_neg hend.size_ne, hat, hback, hnext]
      rw [if_neg (by omega), if_neg (by omega), if_neg (by simp [htake])]

lemma scanTurn_trailer (hbuf : buf.length < 2 ^ 63) {t : Nat} {v : ScanState} :
    scanTurn buf (.trailer t decoded) = .again v ↔
      ∃ e, findCrlf buf t = some e ∧ e ≠ t ∧ v = .trailer (e + 2) decoded := by
  simp only [scanTurn]
  cases he : findCrlf buf t with
  | none => simp
  | some e =>
    have helt := (findCrlf_eq_some.mp he).2.1.lt
    have hadd : SizeT.add e 2 = e + 2 := SizeT.add_eq (by omega)
    by_cases het : e = t
    · simp [het]
    · simp [het, hadd, eq_comm (a := v)]

/-- The scan is complete at the empty line behind the trailers, and only there. -/
lemma scanTurn_complete (hbuf : buf.length < 2 ^ 63) {s : ScanState} {bodyEnd : Nat}
    (h : scanTurn buf s = .done (.complete bodyEnd decoded)) :
    ∃ t, s = .trailer t decoded ∧ CrlfAt buf t ∧ bodyEnd = t + 2 := by
  cases s with
  | line p d =>
    simp only [scanTurn] at h
    split at h
    · cases h
    · split at h
      · cases h
      · split at h
        · cases h
        · repeat' split at h
          all_goals cases h
  | trailer t d =>
    simp only [scanTurn] at h
    split at h
    · cases h
    · rename_i e he
      have hat := (findCrlf_eq_some.mp he).2.1
      have helt := hat.lt
      split at h
      · rename_i het
        subst het
        cases h
        exact ⟨e, rfl, hat, SizeT.add_eq (by omega)⟩
      · cases h

/-! ## Chunk boundaries

The positions of a buffer where a size line is expected. A chunk leads from one
boundary to the next; so does a size line for `2 ^ 64 - 2`, a chunk of minus two
bytes whose data end is the line end of the size line itself.
-/

inductive Boundary (buf : Bytes) (start : Nat) : Nat → Prop where
  | start : Boundary buf start start
  | chunk {p e s : Nat} : Boundary buf start p → SizeLineAt buf p e s → s ≠ 0 →
      e + 4 + s ≤ buf.length → CrlfAt buf (e + 2 + s) → Boundary buf start (e + 4 + s)
  | minusTwo {p e : Nat} : Boundary buf start p → SizeLineAt buf p e (2 ^ 64 - 2) →
      Boundary buf start (e + 2)

/-- Where a chunk that the scanner accepts can end: behind its data, or, when the
sum wraps, behind its own size line or at an earlier position. -/
lemma ChunkEnd.cases (hbuf : buf.length < 2 ^ 63) {q : Nat} (hline : SizeLineAt buf p e s)
    (hend : ChunkEnd buf e s q) :
    e + 4 + s = q ∨ (s = 2 ^ 64 - 2 ∧ q = e + 2) ∨ (e + 4 + s = 2 ^ 64 + q ∧ q ≤ p) := by
  obtain ⟨-, hslt, hsum, htwo, hle, hat⟩ := hend
  obtain ⟨hecr, helf⟩ := hline.crlfAt
  have helt := hline.crlfAt.lt
  by_cases hwrap : e + 4 + s < 2 ^ 64
  · left
    omega
  right
  have heq : e + 4 + s = 2 ^ 64 + q := by omega
  by_cases hminus : q = e + 2
  · left
    omega
  refine .inr ⟨heq, ?_⟩
  -- one byte more or less would make the line end at `e` overlap another
  have hplus : q ≠ e + 3 := by
    intro hq
    have hcr : buf[e + 1]? = some cr := by simpa [hq] using hat.1
    rw [helf] at hcr
    exact absurd hcr (by decide)
  have hminus1 : q ≠ e + 1 := by
    intro hq
    have hlf := hat.2
    rw [show q - 2 + 1 = e by omega, hecr] at hlf
    exact absurd hlf (by decide)
  -- the line end in front of `q` is no line end of this size line
  have hbefore : q - 2 < p := by
    by_contra hge
    exact (findCrlf_eq_some.mp hline.first).2.2 (q - 2) (by omega) (by omega) hat
  have hdigit : q ≠ p + 1 := by
    intro hq
    obtain ⟨-, c, hc, hhex⟩ := hline.head
    have hlf := hat.2
    rw [show q - 2 + 1 = p by omega, hc] at hlf
    exact hexVal?_ne_lf c hhex (Option.some.inj hlf)
  omega

/-- A body with a single chunk, and its boundaries. -/
def plainResponse : Bytes := ascii "3\r\nabc\r\n0\r\n\r\n"

lemma plainResponse_lines :
    SizeLineAt plainResponse 0 1 3 ∧ SizeLineAt plainResponse 8 9 0 :=
  ⟨⟨by decide, sizeText_iff.mpr (by decide)⟩, ⟨by decide, sizeText_iff.mpr (by decide)⟩⟩

lemma plainResponse_boundary (h : Boundary plainResponse 0 p) : p = 0 ∨ p = 8 := by
  obtain ⟨h0, h8⟩ := plainResponse_lines
  induction h with
  | start => exact .inl rfl
  | chunk _ hline hne _ _ ih =>
    rcases ih with rfl | rfl
    · obtain ⟨rfl, rfl⟩ := hline.unique h0
      exact .inr rfl
    · exact absurd (hline.unique h8).2 hne
  | minusTwo _ hline ih =>
    rcases ih with rfl | rfl
    · exact absurd (hline.unique h0).2 (by decide)
    · exact absurd (hline.unique h8).2 (by decide)

end EpollGateway.Upstream
