import EpollGateway.Upstream.HeaderLines
import EpollGateway.Upstream.Segmentation

/-! # Which bytes of a response are read as headers

`find_header_value` and `finish_ok` walk over the header block by positions. Both begin at
`find("\r\n") + 2`, behind the status line. A block without header lines is the status line
alone; the search finds nothing then, and `npos + 2` is 1, the second byte of the status line.

The headers of a response that `try_frame` has completed come from the lines between the first
line end and the end of the block exactly if there is such a line end, or the status line has
no colon behind its first byte (`headers_between_iff`).
-/

namespace EpollGateway.Upstream

open Bytes Handler

/-! ## The loops over positions -/

/-- `s.find(c, pos)`. -/
def findByte (b : Bytes) (c : UInt8) (pos : Nat) : Option Nat :=
  ((b.drop pos).idxOf? c).map (· + pos)

/-- Where the loops begin. -/
def firstLineStart (headersPart : Bytes) : Nat :=
  match crlfIdx headersPart with
  | none => SizeT.add SizeT.max 2
  | some i => i + 2

/-- The loop of `find_header_value`. -/
def findHeaderLoop (headersPart name : Bytes) : Nat → Nat → Bytes
  | 0, _ => []
  | fuel + 1, lineStart =>
    if lineStart < headersPart.length then
      let lineEnd := findCrlf headersPart lineStart
      let fieldEnd := lineEnd.getD headersPart.length
      let found := (findByte headersPart 58 lineStart).filter fun colon =>
        colon < fieldEnd ∧ colon - lineStart = name.length ∧
          lower (slice headersPart lineStart (lineStart + name.length)) = name
      match found with
      | some colon => lower (trim (slice headersPart (colon + 1) fieldEnd))
      | none =>
        match lineEnd with
        | none => []
        | some lineEnd => findHeaderLoop headersPart name fuel (lineEnd + 2)
    else []

def findHeaderAt (headersPart name : Bytes) : Bytes :=
  findHeaderLoop headersPart name headersPart.length (firstLineStart headersPart)

/-- The loop of `finish_ok`. -/
def headerMapLoop (headersPart : Bytes) :
    Nat → Nat → List (Bytes × Bytes) → List (Bytes × Bytes)
  | 0, _, headers => headers
  | fuel + 1, lineStart, headers =>
    if lineStart < headersPart.length then
      let lineEnd := findCrlf headersPart lineStart
      let line := slice headersPart lineStart (lineEnd.getD headersPart.length)
      let headers :=
        match findByte line 58 0 with
        | none => headers
        | some colon => Fields.assign (line.take colon) (trim (line.drop (colon + 1))) headers
      match lineEnd with
      | none => headers
      | some lineEnd => headerMapLoop headersPart fuel (lineEnd + 2) headers
    else headers

def headerMapAt (headersPart : Bytes) : List (Bytes × Bytes) :=
  headerMapLoop headersPart headersPart.length (firstLineStart headersPart) []

/-! ## Lines by positions -/

lemma crlfLines_eq (line b : Bytes) :
    crlfLines line b =
      match crlfIdx b with
      | none => if line ++ b = [] then [] else [line ++ b]
      | some e => (line ++ b.take e) :: crlfLines [] (b.drop (e + 2)) := by
  induction b generalizing line with
  | nil => simp [crlfLines, crlfIdx]
  | cons c rest ih =>
    rcases rest with _ | ⟨d, rest⟩
    · simp [crlfLines, crlfIdx]
    · rw [crlfLines, crlfIdx]
      by_cases hcrlf : c = cr ∧ d = lf
      · rw [if_pos hcrlf, if_pos hcrlf]
        simp
      · rw [if_neg hcrlf, if_neg hcrlf, ih]
        rcases crlfIdx (d :: rest) with _ | e
        · simp
        · simp

variable {headerEnd i p : Nat} {b buf name : Bytes}

/-- The lines from a position on: the one at this position, and those behind its end. -/
lemma crlfLines_drop (hp : p < b.length) :
    crlfLines [] (b.drop p) =
      slice b p ((findCrlf b p).getD b.length) ::
        match findCrlf b p with
        | none => []
        | some e => crlfLines [] (b.drop (e + 2)) := by
  rw [crlfLines_eq]
  unfold findCrlf
  rcases crlfIdx (b.drop p) with _ | e
  · have hne : b.drop p ≠ [] := by
      rw [Ne, List.drop_eq_nil_iff]
      omega
    have hslice : slice b p b.length = b.drop p := by
      unfold slice
      rw [← List.length_drop, List.take_length]
    simp only [Option.map_none, Option.getD_none, hslice, List.nil_append, if_neg hne]
  · have hslice : slice b p (e + p) = (b.drop p).take e := by
      unfold slice
      rw [Nat.add_sub_cancel]
    have hdrop : (b.drop p).drop (e + 2) = b.drop (e + p + 2) := by
      rw [List.drop_drop]
      congr 1
      omega
    simp only [Option.map_some, Option.getD_some, hslice, hdrop, List.nil_append]

lemma splitColon_of_not_mem {line : Bytes} (h : 58 ∉ line) : splitColon line = none := by
  have hdrop : line.dropWhile (· ≠ 58) = [] := by
    rw [List.dropWhile_eq_nil_iff]
    intro c hc
    simpa using fun heq : c = 58 => h (heq ▸ hc)
  unfold splitColon HttpReader.cut
  rw [hdrop]

/-- The first colon of a line, found in the whole text. -/
lemma splitColon_slice (b : Bytes) (p q : Nat) :
    splitColon (slice b p q) =
      ((findByte b 58 p).filter (· < q)).map fun colon =>
        (slice b p colon, slice b (colon + 1) q) := by
  unfold findByte
  rcases split_first 58 (b.drop p) with hno | ⟨before, after, heq, hbefore⟩
  · rw [List.idxOf?_eq_none_iff.mpr hno]
    exact splitColon_of_not_mem fun hmem => hno (List.mem_of_mem_take hmem)
  · have hafter : b.drop (before.length + p + 1) = after := by
      have hdrop := congrArg (List.drop (before.length + 1)) heq
      rw [drop_length_succ, List.drop_drop] at hdrop
      rw [← hdrop]
      congr 1
      omega
    rw [heq, idxOf?_append_cons hbefore, Option.map_some]
    unfold slice
    rw [heq]
    by_cases hlt : before.length + p < q
    · have htake : (before ++ 58 :: after).take (q - p) =
          before ++ 58 :: after.take (q - (before.length + p + 1)) := by
        rw [List.take_append, List.take_of_length_le (by omega)]
        obtain ⟨k, hk⟩ : ∃ k, q - p - before.length = k + 1 := ⟨q - p - before.length - 1, by omega⟩
        have hk' : q - (before.length + p + 1) = k := by omega
        rw [hk, hk', List.take_succ_cons]
      rw [htake, splitColon_append hbefore, Option.filter_some, if_pos (by simpa using hlt),
        Option.map_some, hafter, Nat.add_sub_cancel, List.take_left]
    · have htake : (before ++ 58 :: after).take (q - p) = before.take (q - p) :=
        List.take_append_of_le_length (by omega)
      rw [htake, Option.filter_some, if_neg (by simpa using hlt)]
      exact splitColon_of_not_mem fun hmem => hbefore (List.mem_of_mem_take hmem)

lemma le_of_findByte {c : UInt8} (h : findByte b c p = some i) : p ≤ i ∧ i < b.length := by
  rcases Option.map_eq_some_iff.mp h with ⟨k, hk, rfl⟩
  have hlt := (List.idxOf?_eq_some_iff.mp hk).1
  rw [List.length_drop] at hlt
  omega

/-! ## What the loops compute -/

/-- Name and value of the lines with a colon. -/
def lineFields (lines : List Bytes) : List (Bytes × Bytes) :=
  lines.filterMap fun line => (splitColon line).map fun h => (h.1, trim h.2)

/-- The value of the first field with this name, in lower case. -/
def firstValue (fields : List (Bytes × Bytes)) (name : Bytes) : Bytes :=
  match fields.find? fun f => lower f.1 = name with
  | none => []
  | some f => lower f.2

lemma lineFields_cons (line : Bytes) (lines : List Bytes) :
    lineFields (line :: lines) =
      ((splitColon line).map fun h => (h.1, trim h.2)).toList ++ lineFields lines := by
  unfold lineFields
  rw [List.filterMap_cons]
  rcases splitColon line with _ | h <;> rfl

lemma lineFields_of_length_le (h : b.length ≤ p) : lineFields (crlfLines [] (b.drop p)) = [] := by
  rw [List.drop_of_length_le h]
  rfl

lemma firstValue_append_of_ne {fields : List (Bytes × Bytes)}
    (h : ∀ f ∈ fields, lower f.1 ≠ name) (more : List (Bytes × Bytes)) :
    firstValue (fields ++ more) name = firstValue more name := by
  have hnone : (fields.find? fun f => lower f.1 = name) = none := by
    rw [List.find?_eq_none]
    intro f hf
    simpa using h f hf
  unfold firstValue
  rw [List.find?_append, hnone, Option.none_or]

/-- What the test of the loop finds in one line. -/
def foundColon (b name : Bytes) (p q : Nat) : Option Nat :=
  (findByte b 58 p).filter fun colon =>
    colon < q ∧ colon - p = name.length ∧ lower (slice b p (p + name.length)) = name

lemma foundColon_some {q colon : Nat} (h : foundColon b name p q = some colon) :
    lower (slice b p colon) = name ∧
      splitColon (slice b p q) = some (slice b p colon, slice b (colon + 1) q) := by
  rcases Option.filter_eq_some_iff.mp h with ⟨hfound, hcond⟩
  rw [decide_eq_true_eq] at hcond
  rcases hcond with ⟨hlt, hlen, hname⟩
  have hcolon : p + name.length = colon := by
    have hle := (le_of_findByte hfound).1
    omega
  rw [hcolon] at hname
  refine ⟨hname, ?_⟩
  rw [splitColon_slice, hfound, Option.filter_some, if_pos (by simpa using hlt)]
  rfl

lemma foundColon_none {q : Nat} (h : foundColon b name p q = none) {f : Bytes × Bytes}
    (hf : splitColon (slice b p q) = some f) : lower f.1 ≠ name := by
  intro hname
  rw [splitColon_slice] at hf
  rcases Option.map_eq_some_iff.mp hf with ⟨colon, hcolon, rfl⟩
  rcases Option.filter_eq_some_iff.mp hcolon with ⟨hfound, hlt⟩
  have hle := le_of_findByte hfound
  have hlen : colon - p = name.length := by
    have hlength := congrArg List.length hname
    rwa [length_lower, length_slice (Nat.le_of_lt hle.2)] at hlength
  have hsum : p + name.length = colon := by omega
  unfold foundColon at h
  rw [hfound, Option.filter_some, if_pos] at h
  · cases h
  · rw [hsum]
    simpa [hlen] using ⟨by simpa using hlt, hname⟩

lemma findHeaderLoop_eq (b name : Bytes) {fuel : Nat} (hfuel : b.length ≤ p + fuel) :
    findHeaderLoop b name fuel p = firstValue (lineFields (crlfLines [] (b.drop p))) name := by
  induction fuel generalizing p with
  | zero =>
    rw [Nat.add_zero] at hfuel
    rw [lineFields_of_length_le hfuel]
    rfl
  | succ fuel ih =>
    rw [findHeaderLoop]
    split
    · rename_i hp
      rw [crlfLines_drop hp, lineFields_cons]
      show (match foundColon b name p ((findCrlf b p).getD b.length) with
        | some colon => lower (trim (slice b (colon + 1) ((findCrlf b p).getD b.length)))
        | none => match findCrlf b p with
          | none => []
          | some lineEnd => findHeaderLoop b name fuel (lineEnd + 2)) = _
      rcases hfound : foundColon b name p ((findCrlf b p).getD b.length) with _ | colon
      · -- the line has another name, or none
        rw [firstValue_append_of_ne]
        · rcases hend : findCrlf b p with _ | e
          · rfl
          · have hle := (findCrlf_eq_some.mp hend).1
            exact ih (by omega)
        · intro f hf
          rcases Option.map_eq_some_iff.mp (Option.mem_toList.mp hf) with ⟨g, hg, rfl⟩
          have hne := foundColon_none hfound hg
          exact hne
      · rcases foundColon_some hfound with ⟨hname, hsplit⟩
        rw [hsplit]
        unfold firstValue
        rw [Option.map_some, Option.toList_some, List.cons_append,
          List.find?_cons_of_pos (by simpa using hname)]
    · rename_i hp
      rw [lineFields_of_length_le (Nat.le_of_not_lt hp)]
      rfl

/-- The first colon of a line, found in the line. -/
lemma splitColon_eq (line : Bytes) :
    splitColon line =
      (findByte line 58 0).map fun colon => (line.take colon, line.drop (colon + 1)) := by
  have hzero : findByte line 58 0 = line.idxOf? 58 := by
    unfold findByte
    rw [List.drop_zero]
    exact Option.map_id'
  rw [hzero]
  rcases split_first 58 line with hno | ⟨before, after, rfl, hbefore⟩
  · rw [splitColon_of_not_mem hno, List.idxOf?_eq_none_iff.mpr hno]
    rfl
  · rw [splitColon_append hbefore, idxOf?_append_cons hbefore, Option.map_some, List.take_left,
      drop_length_succ]

lemma headerMapLoop_eq (b : Bytes) {fuel : Nat} (hfuel : b.length ≤ p + fuel)
    (headers : List (Bytes × Bytes)) :
    headerMapLoop b fuel p headers =
      (lineFields (crlfLines [] (b.drop p))).foldl (fun h f => Fields.assign f.1 f.2 h) headers := by
  induction fuel generalizing p headers with
  | zero =>
    rw [Nat.add_zero] at hfuel
    rw [lineFields_of_length_le hfuel]
    rfl
  | succ fuel ih =>
    rw [headerMapLoop]
    split
    · rename_i hp
      have hline : ∀ line : Bytes,
          (match findByte line 58 0 with
            | none => headers
            | some colon => Fields.assign (line.take colon) (trim (line.drop (colon + 1))) headers) =
          ((splitColon line).map fun h => (h.1, trim h.2)).toList.foldl
            (fun h f => Fields.assign f.1 f.2 h) headers := by
        intro line
        rw [splitColon_eq]
        rcases findByte line 58 0 with _ | colon <;> rfl
      rw [crlfLines_drop hp, lineFields_cons, List.foldl_append, ← hline]
      dsimp only
      rcases hend : findCrlf b p with _ | e
      · rfl
      · have hle := (findCrlf_eq_some.mp hend).1
        exact ih (by omega) _
    · rename_i hp
      rw [lineFields_of_length_le (Nat.le_of_not_lt hp)]
      rfl

lemma headLines_eq (headersPart : Bytes) :
    headLines headersPart = crlfLines [] (headersPart.drop (firstLineStart headersPart)) := by
  unfold headLines firstLineStart
  rcases crlfIdx headersPart with _ | i
  · have hwrap : SizeT.add SizeT.max 2 = 1 := by decide
    rw [hwrap]
  · rfl

lemma findHeaderValue_eq (headersPart name : Bytes) :
    findHeaderValue headersPart name = firstValue (headFields headersPart) name := by
  unfold findHeaderValue headFields
  show _ = firstValue (lineFields (headLines headersPart)) name
  induction headLines headersPart with
  | nil => rfl
  | cons line lines ih =>
    rw [lineFields_cons, List.findSome?_cons]
    rcases splitColon line with _ | h
    · exact ih
    · by_cases hname : lower h.1 = name
      · unfold firstValue
        rw [Option.filter_some, if_pos (by simpa using hname), Option.map_some, Option.toList_some,
          List.cons_append, List.find?_cons_of_pos (by simpa using hname)]
      · rw [Option.filter_some, if_neg (by simpa using hname), firstValue_append_of_ne]
        · exact ih
        · intro f hf
          rw [Option.map_some, Option.toList_some, List.mem_singleton] at hf
          rw [hf]
          exact hname

/-- `find_header_value`, by positions. -/
lemma findHeaderAt_eq (headersPart name : Bytes) :
    findHeaderAt headersPart name = findHeaderValue headersPart name := by
  rw [findHeaderValue_eq]
  unfold headFields
  rw [headLines_eq]
  exact findHeaderLoop_eq headersPart name (Nat.le_add_left _ _)

/-- The header map of `finish_ok`, by positions. -/
lemma headerMapAt_eq (headersPart : Bytes) :
    headerMapAt headersPart = parseHeaders headersPart := by
  rw [parseHeaders_eq]
  unfold headFields headerMapAt Fields.ofFields
  rw [headLines_eq, headerMapLoop_eq headersPart (Nat.le_add_left _ _)]
  rfl

/-! ## The lines between -/

/-- The lines strictly between the first line end and the end of the header block. -/
def linesBetween (buf : Bytes) : List Bytes :=
  match crlfIdx buf, headEnd buf with
  | some i, some headerEnd => crlfLines [] (slice buf (i + 2) headerEnd)
  | _, _ => []

/-- Every header of a complete response comes from the lines between: the map that `finish_ok`
builds, the headers of its result, and every value that `find_header_value` returns. -/
structure HeadersBetween (x : Exchange) (headerEnd : Nat) : Prop where
  map : headerMapAt (x.responseBytes.take headerEnd) =
    Fields.ofFields (lineFields (linesBetween x.responseBytes))
  result : (parseStatus x.responseBytes).isSome →
    x.tryFrame.1.finishOk.result.headers =
      Fields.ofFields (lineFields (linesBetween x.responseBytes))
  value : ∀ name, findHeaderAt (x.responseBytes.take headerEnd) name =
    firstValue (lineFields (linesBetween x.responseBytes)) name

lemma crlfIdx_of_take (h : crlfIdx (buf.take headerEnd) = some i) : crlfIdx buf = some i := by
  have hzero : ∀ b, findCrlf b 0 = crlfIdx b := by
    intro b
    unfold findCrlf
    rw [List.drop_zero]
    exact Option.map_id'
  rw [← hzero] at h ⊢
  have happend := findCrlf_append h (buf.drop headerEnd)
  rwa [List.take_append_drop] at happend

/-- Behind a line end the loops see the lines between. -/
lemma headLines_of_crlf (hhead : headEnd buf = some headerEnd)
    (h : crlfIdx (buf.take headerEnd) = some i) :
    headLines (buf.take headerEnd) = linesBetween buf := by
  unfold headLines linesBetween
  rw [h, crlfIdx_of_take h, hhead]
  dsimp only
  rw [List.drop_take]
  rfl

/-- Without a line end in the block there is no line between. -/
lemma linesBetween_of_none (hhead : headEnd buf = some headerEnd)
    (h : crlfIdx (buf.take headerEnd) = none) : linesBetween buf = [] := by
  unfold linesBetween
  rw [hhead]
  rcases hidx : crlfIdx buf with _ | i
  · rfl
  · have hnone : slice buf (i + 2) headerEnd = [] := by
      have hge : headerEnd ≤ i + 2 := by
        by_contra hlt
        apply crlfIdx_eq_none h i
        have hat := (crlfIdx_eq_some hidx).1
        have hsplit := List.take_append_drop headerEnd buf
        rw [← hsplit] at hat
        have hle := headEnd_le hhead
        exact (crlfAt_append (by rw [List.length_take]; omega) _).mp hat
      unfold slice
      rw [Nat.sub_eq_zero_of_le hge, List.take_zero]
    dsimp only
    rw [hnone]
    rfl

/-- Then the loops see the status line, from its second byte on. -/
lemma headFields_of_none {head : Bytes} (h : crlfIdx head = none) :
    headFields head = [] ↔ 58 ∉ head.drop 1 := by
  have hdrop : crlfIdx (head.drop 1) = none := by
    rcases hidx : crlfIdx (head.drop 1) with _ | i
    · rfl
    · exact absurd (crlfAt_drop.mp (crlfIdx_eq_some hidx).1) (crlfIdx_eq_none h _)
  have hlines : headLines head = if head.drop 1 = [] then [] else [head.drop 1] := by
    unfold headLines
    rw [h]
    dsimp only
    rw [crlfLines_eq, hdrop]
    rfl
  show lineFields (headLines head) = [] ↔ _
  rw [hlines]
  split
  · rename_i hnil
    rw [hnil]
    exact ⟨fun _ => List.not_mem_nil, fun _ => rfl⟩
  · rw [lineFields_cons]
    rcases split_first 58 (head.drop 1) with hno | ⟨before, after, heq, hbefore⟩
    · rw [splitColon_of_not_mem hno]
      exact ⟨fun _ => hno, fun _ => rfl⟩
    · rw [heq, splitColon_append hbefore]
      simp

/-! ## Result -/

lemma headers_finishOk {x : Exchange} (hhead : headEnd x.responseBytes = some headerEnd)
    (hstatus : (parseStatus x.responseBytes).isSome) :
    x.tryFrame.1.finishOk.result.headers = parseHeaders (x.responseBytes.take headerEnd) := by
  rcases Exchange.tryFrame_marks x with ⟨keepalive, chunked, decoded, bodyEnd, hmarks⟩
  rcases Option.isSome_iff_exists.mp hstatus with ⟨code, hcode⟩
  rw [hmarks]
  unfold Exchange.finishOk parseResponse
  dsimp only
  rw [hhead, hcode]
  rfl

/-- All three agree as soon as the lines with a colon do. -/
lemma headersBetween_of_headFields {x : Exchange} (hhead : headEnd x.responseBytes = some headerEnd)
    (h : headFields (x.responseBytes.take headerEnd) = lineFields (linesBetween x.responseBytes)) :
    HeadersBetween x headerEnd := by
  refine ⟨?_, ?_, ?_⟩
  · rw [headerMapAt_eq, parseHeaders_eq, h]
  · intro hstatus
    rw [headers_finishOk hhead hstatus, parseHeaders_eq, h]
  · intro name
    rw [findHeaderAt_eq, findHeaderValue_eq, h]

lemma exists_headEnd {x : Exchange} (h : x.tryFrame.2 = .complete) :
    ∃ headerEnd, headEnd x.responseBytes = some headerEnd := by
  rcases hhead : headEnd x.responseBytes with _ | headerEnd
  · unfold Exchange.tryFrame at h
    rw [hhead] at h
    dsimp only at h
    split at h <;> cases h
  · exact ⟨headerEnd, rfl⟩

/-- The headers of a complete response come from the lines between the first line end and the
end of the header block, exactly if the block has a line end or its only line has no colon
behind its first byte. -/
theorem headers_between_iff {x : Exchange} (h : x.tryFrame.2 = .complete) :
    ∃ headerEnd, headEnd x.responseBytes = some headerEnd ∧
      (HeadersBetween x headerEnd ↔
        (∃ i, CrlfAt (x.responseBytes.take headerEnd) i) ∨
          58 ∉ (x.responseBytes.take headerEnd).drop 1) := by
  rcases exists_headEnd h with ⟨headerEnd, hhead⟩
  refine ⟨headerEnd, hhead, ?_⟩
  rcases hidx : crlfIdx (x.responseBytes.take headerEnd) with _ | i
  · have hbetween := linesBetween_of_none hhead hidx
    constructor
    · intro hprop
      right
      rw [← headFields_of_none hidx]
      have hmap := hprop.map
      rw [headerMapAt_eq, parseHeaders_eq, hbetween] at hmap
      -- an empty map has been filled from no field
      by_contra hne
      rcases List.exists_mem_of_ne_nil _ hne with ⟨f, hf⟩
      rcases Fields.lastValue_isSome hf with ⟨v, hv⟩
      have hmem := Fields.mem_ofFields.mpr hv
      rw [hmap] at hmem
      cases hmem
    · rintro (⟨i, hi⟩ | hcolon)
      · exact absurd hi (crlfIdx_eq_none hidx i)
      · apply headersBetween_of_headFields hhead
        rw [(headFields_of_none hidx).mpr hcolon, hbetween]
        rfl
  · constructor
    · intro _
      exact .inl ⟨i, (crlfIdx_eq_some hidx).1⟩
    · intro _
      apply headersBetween_of_headFields hhead
      show lineFields (headLines _) = _
      rw [headLines_of_crlf hhead hidx]

theorem headers_between_okResponse :
    ∃ headerEnd, headEnd okResponse = some headerEnd ∧
      HeadersBetween ((sentOnFresh backendParams).2.withBuffer okResponse) headerEnd := by
  have hcomplete :
      ((sentOnFresh backendParams).2.withBuffer okResponse).tryFrame.2 = .complete := by
    decide +kernel
  rcases headers_between_iff hcomplete with ⟨headerEnd, hhead, hiff⟩
  refine ⟨headerEnd, hhead, hiff.mpr (.inl ⟨15, ?_⟩)⟩
  cases hhead
  decide +kernel

/-- A response of HTTP/1.0 without header lines. -/
def bareResponse : Bytes := ascii "HTTP/1.0 200 OK: fine\r\n\r\nhello"

/-- It has no header line, and its status line is taken for one. -/
theorem status_line_read_as_header :
    linesBetween bareResponse = [] ∧ headEnd bareResponse = some 21 ∧
      (∀ x : Exchange, x.responseBytes = bareResponse → ¬ HeadersBetween x 21) ∧
      ((sentOnFresh backendParams).2.run (sentOnFresh backendParams).1
        (Exchange.reads [bareResponse] true)).2.ending =
          ⟨.done, true,
            { statusCode := 200
              headers := [(ascii "TTP/1.0 200 OK", ascii "fine")]
              body := ascii "hello" }⟩ ∧
      findHeaderAt (bareResponse.take 21) (ascii "ttp/1.0 200 ok") = ascii "fine" := by
  have hlines : linesBetween bareResponse = [] := by decide +kernel
  refine ⟨hlines, by decide +kernel, ?_, by decide +kernel, by decide +kernel⟩
  intro x hx h
  have hmap := h.map
  rw [hx, hlines] at hmap
  exact absurd hmap (by decide +kernel)

end EpollGateway.Upstream
