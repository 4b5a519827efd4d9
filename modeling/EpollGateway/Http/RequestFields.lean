import EpollGateway.Http.LineEndings
import EpollGateway.Lib.Fields
import EpollGateway.Lib.HttpReader

/-! # The header lines of a request

The parser ends a header line at its LF and ignores every CR, so the lines of a
request can be read off its bytes without the parser: `requestFields`. The header
map of an accepted request holds the last value of each name in these lines
(`lookup_requestFields`); what the earlier lines with that name said is lost.
-/

namespace EpollGateway.Http

open Bytes Feed

/-! ## The lines -/

/-- A line without its carriage returns. -/
def dropCr (line : Bytes) : Bytes := line.filter (· ≠ cr)

/-- The lines in front of the first empty one; `fuel` bounds their number. -/
def linesToEmpty : Nat → Bytes → List Bytes
  | 0, _ => []
  | fuel + 1, b =>
    match HttpReader.cut lf b with
    | none => []
    | some (line, rest) =>
      if dropCr line = [] then [] else dropCr line :: linesToEmpty fuel rest

/-- Name and value of every header line, in order: the name in lower case, the value
without blanks around it. -/
def requestFields (input : Bytes) : List (Bytes × Bytes) :=
  match HttpReader.cut lf input with
  | none => []
  | some (_, rest) => (linesToEmpty (rest.length + 1) rest).filterMap splitHeaderLine

/-- The header lines `lines` stand behind the first line of `seen`, and `rest` behind
them. -/
def HasLines (seen : Bytes) (lines : List Bytes) (rest : Bytes) : Prop :=
  (∀ l ∈ lines, lf ∉ l ∧ dropCr l ≠ []) ∧
    ∃ first, lf ∉ first ∧ seen = first ++ lf :: (lines.flatMap (· ++ [lf]) ++ rest)

/-- The fields of the lines. -/
def fieldsOfLines (lines : List Bytes) : List (Bytes × Bytes) :=
  lines.filterMap fun l => splitHeaderLine (dropCr l)

variable {lines : List Bytes} {seen : Bytes}

lemma linesToEmpty_lines (h : ∀ l ∈ lines, lf ∉ l ∧ dropCr l ≠ []) {last : Bytes}
    (hlast : lf ∉ last) (hempty : dropCr last = []) (rest : Bytes) {fuel : Nat}
    (hfuel : lines.length < fuel) :
    linesToEmpty fuel (lines.flatMap (· ++ [lf]) ++ (last ++ lf :: rest)) = lines.map dropCr := by
  induction lines generalizing fuel with
  | nil =>
    obtain ⟨n, rfl⟩ : ∃ n, fuel = n + 1 := ⟨fuel - 1, by simp at hfuel; omega⟩
    simp [linesToEmpty, HttpReader.cut_append hlast, hempty]
  | cons l ls ih =>
    obtain ⟨n, rfl⟩ : ∃ n, fuel = n + 1 := ⟨fuel - 1, by simp at hfuel; omega⟩
    have hl := h l (by simp)
    have htail := @ih (fun m hm => h m (by simp [hm])) n (by simpa using hfuel)
    have hcut := HttpReader.cut_append hl.1 (ls.flatMap (· ++ [lf]) ++ (last ++ lf :: rest))
    have hbytes : (l :: ls).flatMap (· ++ [lf]) ++ (last ++ lf :: rest) =
        l ++ lf :: (ls.flatMap (· ++ [lf]) ++ (last ++ lf :: rest)) := by
      simp
    rw [hbytes]
    simp only [linesToEmpty, hcut, if_neg hl.2, htail, List.map_cons]

/-- The lines can be read off the bytes. -/
lemma HasLines.requestFields {last rest : Bytes} (h : HasLines seen lines (last ++ lf :: rest))
    (hlast : lf ∉ last) (hempty : dropCr last = []) :
    Http.requestFields seen = fieldsOfLines lines := by
  obtain ⟨hlines, first, hfirst, rfl⟩ := h
  have hfuel : lines.length <
      (lines.flatMap (· ++ [lf]) ++ (last ++ lf :: rest)).length + 1 := by
    have hcount : lines.length ≤ (lines.flatMap (· ++ [lf])).length := by
      clear hlines
      induction lines with
      | nil => simp
      | cons l ls ih =>
        simp only [List.flatMap_cons, List.length_append, List.length_cons, List.length_nil] at ih ⊢
        omega
    simp only [List.length_append]
    omega
  unfold Http.requestFields fieldsOfLines
  rw [HttpReader.cut_append hfirst]
  dsimp only
  rw [linesToEmpty_lines hlines hlast hempty rest hfuel, List.filterMap_map]
  rfl

lemma HasLines.append {rest : Bytes} (h : HasLines seen lines rest) (more : Bytes) :
    HasLines (seen ++ more) lines (rest ++ more) := by
  obtain ⟨hlines, first, hfirst, rfl⟩ := h
  exact ⟨hlines, first, hfirst, by simp⟩

/-- A line that is complete joins the others. -/
lemma HasLines.complete {line : Bytes} (h : HasLines seen lines line) (hline : lf ∉ line)
    (hne : dropCr line ≠ []) : HasLines (seen ++ [lf]) (lines ++ [line]) [] := by
  obtain ⟨hlines, first, hfirst, rfl⟩ := h
  refine ⟨?_, first, hfirst, by simp⟩
  intro l hl
  rcases List.mem_append.mp hl with hl | hl
  · exact hlines l hl
  · rw [List.mem_singleton.mp hl]
    exact ⟨hline, hne⟩

/-! ## The parser -/

/-- The bytes have a complete header block, and the map is filled from its lines. -/
def BlockRead (seen : Bytes) (headers : Headers) : Prop :=
  ∃ lines last rest, HasLines seen lines (last ++ lf :: rest) ∧ lf ∉ last ∧ dropCr last = [] ∧
    headers = Fields.insertFields ∅ (fieldsOfLines lines)

/-- How the bytes read so far hang together with the parser's state. -/
def Parsing.FieldShape (seen : Bytes) (p : HttpParser) (r : HttpRequest) : Prop :=
  match p.state with
  | .method | .path | .query | .version => lf ∉ seen ∧ r.headers = ∅
  | .header =>
    ∃ lines line, HasLines seen lines line ∧ lf ∉ line ∧ p.buffer = dropCr line ∧
      r.headers = Fields.insertFields ∅ (fieldsOfLines lines)
  | _ => BlockRead seen r.headers

/-- The invariant of a run of the parser. -/
def Parsing.Filled : Flow → Bytes × Parsing → Prop
  | .more, (seen, (p, r)) => Parsing.FieldShape seen p r
  | .accept, (seen, (_, r)) => BlockRead seen r.headers
  | _, _ => True

lemma BlockRead.append {headers : Headers} (h : BlockRead seen headers) (more : Bytes) :
    BlockRead (seen ++ more) headers := by
  obtain ⟨lines, last, rest, hlines, hlast, hempty, hheaders⟩ := h
  exact ⟨lines, last, rest ++ more, by simpa using hlines.append more, hlast, hempty, hheaders⟩

variable {p : HttpParser} {r : HttpRequest}

/-- Behind the head every state is content with a block that has been read. -/
lemma BlockRead.filled (h : BlockRead seen r.headers) (hstate : p.state.inHead = false)
    (f : Flow) : Parsing.Filled f (seen, (p, r)) := by
  cases f with
  | more =>
    rcases hs : p.state with _ | _ | _ | _ | _ | _ | _ | _ <;> rw [hs] at hstate <;>
      simp only [State.inHead, reduceCtorEq] at hstate
    all_goals simpa only [Parsing.Filled, Parsing.FieldShape, hs] using h
  | accept => exact h
  | reject => trivial
  | halt => trivial

lemma lf_notMem_snoc {c : UInt8} (h : lf ∉ seen) (hc : c ≠ lf) : lf ∉ seen ++ [c] := by
  simp [h, Ne.symm hc]

/-- A byte of the request line. -/
lemma pushRequestLine_filled {c : UInt8} (hlf : lf ∉ seen) (hempty : r.headers = ∅)
    (hstate : p.state = .method ∨ p.state = .path ∨ p.state = .query ∨ p.state = .version)
    (hc : isValidRequestLineChar c = true) :
    Parsing.Filled (pushRequestLine p r c).2 (seen ++ [c], (pushRequestLine p r c).1) := by
  rcases pushRequestLine_cases p r c with hpush | hpush
  · rw [hpush]
    trivial
  · have hne : c ≠ lf := (isValidRequestLineChar_clean c hc).2.1
    rw [hpush]
    unfold Parsing.Filled Parsing.FieldShape
    rcases hstate with hs | hs | hs | hs <;> simp only [hs] <;>
      exact ⟨lf_notMem_snoc hlf hne, hempty⟩

lemma dropCr_snoc_cr (line : Bytes) : dropCr (line ++ [cr]) = dropCr line := by
  simp [dropCr]

lemma dropCr_snoc {c : UInt8} (line : Bytes) (hc : c ≠ cr) :
    dropCr (line ++ [c]) = dropCr line ++ [c] := by
  simp [dropCr, hc]

lemma fieldsOfLines_snoc {line : Bytes} {f : Bytes × Bytes}
    (h : splitHeaderLine (dropCr line) = some f) :
    fieldsOfLines (lines ++ [line]) = fieldsOfLines lines ++ [f] := by
  simp [fieldsOfLines, h]

lemma stepVersion_filled (c : UInt8) (hs : p.state = .version) (hlf : lf ∉ seen)
    (hempty : r.headers = ∅) :
    Parsing.Filled (stepVersion p r c).2 (seen ++ [c], (stepVersion p r c).1) := by
  unfold stepVersion
  split
  · rename_i hc
    subst hc
    simp only [Parsing.Filled, Parsing.FieldShape, hs]
    exact ⟨lf_notMem_snoc hlf (by decide), hempty⟩
  · split
    · rename_i hc
      subst hc
      split
      · trivial
      · -- the first line is complete
        refine ⟨[], [], ⟨by simp, seen, hlf, by simp⟩, by simp, rfl, ?_⟩
        rw [hempty]
        rfl
    · split
      · trivial
      · exact pushRequestLine_filled hlf hempty (.inr (.inr (.inr hs))) (not_not.mp ‹_›)

lemma stepHeader_filled (c : UInt8) (hs : p.state = .header) (h : Parsing.FieldShape seen p r) :
    Parsing.Filled (stepHeader p r c).2 (seen ++ [c], (stepHeader p r c).1) := by
  simp only [Parsing.FieldShape, hs] at h
  obtain ⟨lines, line, hlines, hlf, hbuf, hheaders⟩ := h
  unfold stepHeader
  dsimp only
  split
  · trivial
  · split
    · rename_i hc
      subst hc
      simp only [Parsing.Filled, Parsing.FieldShape, hs]
      exact ⟨lines, line ++ [cr], hlines.append [cr], lf_notMem_snoc hlf (by decide),
        by rw [dropCr_snoc_cr, hbuf], hheaders⟩
    · rename_i hcr
      split
      · rename_i hc
        subst hc
        split
        · trivial
        · split
          · -- the empty line: the block is complete
            rename_i hnil
            have hblock : BlockRead (seen ++ [lf]) r.headers :=
              ⟨lines, line, [], hlines.append [lf], hlf, by rw [← hbuf, hnil], hheaders⟩
            rcases endOfHeaders_cases
                { p with headersRead := SizeT.add p.headersRead 1, crSeen := false } r with
              hend | ⟨hr, hend | ⟨hend, hstate | hstate⟩⟩
            · rw [hend]
              trivial
            · rw [hend]
              simpa only [Parsing.Filled, hr] using hblock
            · rw [hend]
              simpa only [Parsing.Filled, Parsing.FieldShape, hr, hstate] using hblock
            · rw [hend]
              simpa only [Parsing.Filled, Parsing.FieldShape, hr, hstate] using hblock
          · rename_i hne
            unfold headerLine
            rcases hline : splitHeaderLine p.buffer with _ | ⟨k, v⟩
            · trivial
            · dsimp only
              split
              · simp only [Parsing.Filled, Parsing.FieldShape, hs]
                refine ⟨lines ++ [line], [], hlines.complete hlf (hbuf ▸ hne), by simp, rfl, ?_⟩
                rw [fieldsOfLines_snoc (hbuf ▸ hline), hheaders]
                simp [Fields.insertFields]
              · trivial
      · rename_i hlf'
        split
        · trivial
        · simp only [Parsing.Filled, Parsing.FieldShape, hs]
          exact ⟨lines, line ++ [c], hlines.append [c], lf_notMem_snoc hlf hlf',
            by rw [dropCr_snoc line hcr, hbuf], hheaders⟩

/-- One byte keeps the invariant. -/
lemma step_filled (s : Bytes × Parsing) (c : UInt8) (h : Parsing.Filled .more s) :
    Parsing.Filled (track (fun seen _ c => seen ++ [c]) HttpParser.step s c).2
      (track (fun seen _ c => seen ++ [c]) HttpParser.step s c).1 := by
  obtain ⟨seen, p, r⟩ := s
  have hshape : Parsing.FieldShape seen p r := h
  clear h
  simp only [track]
  by_cases hin : p.state.inHead = false
  · by_cases hdone : p.state = .done
    · simp only [HttpParser.step, hdone]
      trivial
    · -- behind the head the headers stay as they are
      obtain ⟨-, hheaders, -, hstate⟩ := step_behindHead (s := (p, r)) c hin hdone
      have hblock : BlockRead seen r.headers := by
        rcases hs : p.state with _ | _ | _ | _ | _ | _ | _ | _ <;> rw [hs] at hin <;>
          simp only [State.inHead, reduceCtorEq] at hin
        all_goals simpa only [Parsing.FieldShape, hs] using hshape
      refine BlockRead.filled ?_ hstate _
      rw [hheaders]
      exact hblock.append [c]
  · unfold HttpParser.step
    rcases hs : p.state with _ | _ | _ | _ | _ | _ | _ | _ <;> dsimp only
    case method =>
      simp only [Parsing.FieldShape, hs] at hshape
      unfold stepMethod
      split
      · rename_i hc
        subst hc
        exact ⟨lf_notMem_snoc hshape.1 (by decide), hshape.2⟩
      · split
        · trivial
        · exact pushRequestLine_filled hshape.1 hshape.2 (.inl hs) (not_not.mp ‹_›)
    case path =>
      simp only [Parsing.FieldShape, hs] at hshape
      unfold stepPath
      split
      · rename_i hc
        subst hc
        exact ⟨lf_notMem_snoc hshape.1 (by decide), hshape.2⟩
      · split
        · rename_i hc
          subst hc
          exact ⟨lf_notMem_snoc hshape.1 (by decide), hshape.2⟩
        · split
          · trivial
          · exact pushRequestLine_filled hshape.1 hshape.2 (.inr (.inl hs)) (not_not.mp ‹_›)
    case query =>
      simp only [Parsing.FieldShape, hs] at hshape
      unfold stepQuery
      split
      · rename_i hc
        subst hc
        exact ⟨lf_notMem_snoc hshape.1 (by decide), hshape.2⟩
      · split
        · trivial
        · exact pushRequestLine_filled hshape.1 hshape.2 (.inr (.inr (.inl hs))) (not_not.mp ‹_›)
    case version =>
      simp only [Parsing.FieldShape, hs] at hshape
      exact stepVersion_filled c hs hshape.1 hshape.2
    case header => exact stepHeader_filled c hs hshape
    all_goals simp [State.inHead, hs] at hin

/-! ## The result -/

/-- The header map of an accepted request holds the last value of each name in its
header lines. -/
lemma lookup_requestFields {frags : List Bytes}
    (h : (feedFragments {} {} [] frags).outcome = .complete) (k : Bytes) :
    (feedFragments {} {} [] frags).request.headers.lookup k =
      Fields.lastValue (requestFields frags.flatten) k := by
  obtain ⟨seen, more, hsplit, hblock, -⟩ := accepted_invariant step_filled ⟨by simp, rfl⟩ h
  obtain ⟨lines, last, rest, hlines, hlast, hempty, hheaders⟩ := BlockRead.append hblock more
  rw [← hsplit] at hlines
  rw [hheaders, Fields.lookup_insertFields, hlines.requestFields hlast hempty]
  simp

/-- Of two lines with one name the second is kept. -/
example :
    requestFields (ascii "GET / HTTP/1.1\r\nA: 1\r\nB: 2\r\nA: 3\r\n\r\n") =
      [(ascii "a", ascii "1"), (ascii "b", ascii "2"), (ascii "a", ascii "3")] := by
  decide +kernel

end EpollGateway.Http
