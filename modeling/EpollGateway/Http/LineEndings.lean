import EpollGateway.Http.Accepted
import EpollGateway.Http.RoundTrip

/-! # Line endings in the request head

In the states `VERSION` and `HEADER` the parser marks a CR in `cr_seen_` and
requires the mark when it reads a LF. It does not require the LF when the mark is
set: any other byte clears the mark, and the CR is gone. This file says for which
inputs the accepted head is nevertheless made of lines that end in CRLF.

The bytes of the head are a ghost of the run (`keepHead`); `CrHeld` is the test
that the parser leaves out.
-/

namespace EpollGateway.Http

open Bytes Feed HttpParser

/-! ## The head of a request -/

/-- The states in which the request line and the header block are read. -/
def State.inHead : State → Bool
  | .method | .path | .query | .version | .header => true
  | .chunkedBody | .body | .done => false

/-- Record the bytes read in the head. -/
def keepHead (head : Bytes) (s : Parsing) (c : UInt8) : Bytes :=
  if s.1.state.inHead then head ++ [c] else head

/-- The bytes of the request line and the header block. -/
def headBytes (data : Bytes) : Bytes :=
  (feed (track keepHead step) ([], ({}, {})) data).state.1

/-- Every LF stands behind a CR, every CR in front of a LF. -/
structure StrictEnds (head : Bytes) : Prop where
  lf_after_cr : ∀ pre post, head = pre ++ lf :: post → pre.getLast? = some cr
  cr_before_lf : ∀ pre post, head = pre ++ cr :: post → post.head? = some lf

/-- A stored header is spelled in one of the lines: the name up to its case, the
value as it is. -/
def Spelled (lines : List Bytes) (headers : Headers) : Prop :=
  ∀ k v, headers.lookup k = some v →
    ∃ l ∈ lines, (∃ name, name <+: l ∧ lower name = k) ∧ v <:+: l

/-- The head is a request line and header lines, each ended by CRLF, and an empty
line; the version and the stored headers are spelled in these lines. -/
def LiteralHead (head : Bytes) (r : HttpRequest) : Prop :=
  ∃ (line : Bytes) (lines : List Bytes),
    head = line ++ crlf ++ lines.flatMap (· ++ crlf) ++ crlf ∧
      (∀ l ∈ line :: lines, Unbroken l) ∧ r.version <:+ line ∧ Spelled lines r.headers

/-- The missing test: with `cr_seen_` set, only a LF may come. -/
def CrHeld (s : Parsing) (c : UInt8) : Prop := s.1.crSeen = true → c = lf

instance (s : Parsing) (c : UInt8) : Decidable (CrHeld s c) :=
  inferInstanceAs (Decidable (_ → _))

/-! ## Lines -/

/-- The CR that `cr_seen_` stands for. -/
def HttpParser.pending (p : HttpParser) : Bytes := if p.crSeen then [cr] else []

variable {head k line v : Bytes} {c : UInt8} {p : HttpParser}

/-- A header that passes the checks is spelled in its line. -/
lemma splitHeaderLine_spelled (h : splitHeaderLine line = some (k, v)) :
    (∃ name, name <+: line ∧ lower name = k) ∧ v <:+: line := by
  unfold splitHeaderLine at h
  rcases hcolon : line.idxOf? 58 with _ | colon
  · simp [hcolon] at h
  · simp only [hcolon] at h
    split at h
    · cases h
    · split at h
      · cases h
      · split at h
        · cases h
        · simp only [Option.some.injEq, Prod.mk.injEq] at h
          obtain ⟨rfl, rfl⟩ := h
          constructor
          · exact ⟨line.take colon, List.take_prefix _ _, rfl⟩
          · -- trimming cuts a drop of the line on both sides
            have hright : trim (line.drop (colon + 1)) <+: (line.drop (colon + 1)).dropWhile isBlank :=
              List.rdropWhile_prefix isBlank _
            have hleft : (line.drop (colon + 1)).dropWhile isBlank <:+ line :=
              (List.dropWhile_suffix _).trans (List.drop_suffix _ _)
            exact hright.isInfix.trans hleft.isInfix

lemma Spelled.empty : Spelled [] ∅ := by
  intro k v h
  simp at h

lemma Spelled.insert {lines : List Bytes} {headers : Headers} (h : Spelled lines headers)
    (hline : splitHeaderLine line = some (k, v)) :
    Spelled (lines ++ [line]) (headers.insert k v) := by
  intro k' v' hlookup
  by_cases heq : k' = k
  · subst heq
    rw [AList.lookup_insert, Option.some.injEq] at hlookup
    subst hlookup
    exact ⟨line, by simp, splitHeaderLine_spelled hline⟩
  · rw [AList.lookup_insert_ne heq] at hlookup
    obtain ⟨l, hl, hspelled⟩ := h k' v' hlookup
    exact ⟨l, by simp [hl], hspelled⟩

/-! ## Under the missing test the head is literal -/

/-- How the head read so far hangs together with the parser's state. -/
def Parsing.HeadShape (head : Bytes) (p : HttpParser) (r : HttpRequest) : Prop :=
  match p.state with
  | .method | .path | .query => Unbroken head ∧ p.crSeen = false ∧ r.headers = ∅
  | .version =>
    r.headers = ∅ ∧
      ∃ front, head = front ++ p.buffer ++ p.pending ∧ Unbroken front ∧ Unbroken p.buffer
  | .header =>
    ∃ (line : Bytes) (lines : List Bytes),
      head = line ++ crlf ++ lines.flatMap (· ++ crlf) ++ p.buffer ++ p.pending ∧
        (∀ l ∈ line :: lines, Unbroken l) ∧ Unbroken p.buffer ∧
        r.version <:+ line ∧ Spelled lines r.headers
  | .chunkedBody | .body => LiteralHead head r
  | .done => True

/-- The invariant of a run that passes the missing test. -/
def Parsing.Literal : Flow → Bytes × Parsing → Prop
  | .more, (head, (p, r)) => Parsing.HeadShape head p r
  | .accept, (head, (_, r)) => LiteralHead head r
  | _, _ => True

lemma literal_fresh : Parsing.Literal .more ([], ({}, {})) := ⟨Unbroken.nil, rfl, rfl⟩

lemma isValidRequestLineChar_unbroken (h : isValidRequestLineChar c = true) : Unbroken [c] := by
  obtain ⟨hcr, hlf, -⟩ := isValidRequestLineChar_clean c h
  exact Unbroken.one hcr hlf

lemma pushRequestLine_cases (p : HttpParser) (r : HttpRequest) (c : UInt8) :
    (pushRequestLine p r c).2 = .reject ∨
      pushRequestLine p r c = (({ p with buffer := p.buffer ++ [c] }, r), .more) := by
  unfold pushRequestLine
  dsimp only
  split
  · exact .inl rfl
  · exact .inr rfl

/-- The end of the header block rejects, or leaves the request as it is and the
head behind. -/
lemma endOfHeaders_cases (p : HttpParser) (r : HttpRequest) :
    (endOfHeaders p r).2 = .reject ∨
      ((endOfHeaders p r).1.2 = r ∧
        ((endOfHeaders p r).2 = .accept ∨
          (endOfHeaders p r).2 = .more ∧ ((endOfHeaders p r).1.1.state = .chunkedBody ∨
            (endOfHeaders p r).1.1.state = .body))) := by
  unfold endOfHeaders
  split
  · split
    · exact .inl rfl
    · exact .inr ⟨rfl, .inr ⟨rfl, .inl rfl⟩⟩
  · split
    · dsimp only
      split
      · exact .inl rfl
      · split
        · exact .inl rfl
        · split
          · exact .inr ⟨rfl, .inr ⟨rfl, .inr rfl⟩⟩
          · exact .inr ⟨rfl, .inl rfl⟩
    · exact .inr ⟨rfl, .inl rfl⟩

/-- Behind the head a step keeps version and headers, and stays behind the head. -/
lemma step_behindHead {s : Parsing} (c : UInt8) (h : s.1.state.inHead = false)
    (hdone : s.1.state ≠ .done) :
    (step s c).1.2.version = s.2.version ∧
      (step s c).1.2.headers = s.2.headers ∧
      (step s c).1.1.crSeen = s.1.crSeen ∧
      (step s c).1.1.state.inHead = false := by
  obtain ⟨p, r⟩ := s
  dsimp only at h hdone
  rcases hs : p.state with _ | _ | _ | _ | _ | _ | _ | _ <;> rw [hs] at h hdone <;>
    simp only [State.inHead, reduceCtorEq, ne_eq, not_true_eq_false, not_false_eq_true] at h hdone
  · -- chunked body
    simp only [step, hs]
    unfold stepChunkedBody
    rcases p.chunkState
    · unfold stepChunkSize chunkSizeLine
      dsimp only
      repeat' split
      all_goals simp [fail, hs, State.inHead]
    · unfold stepChunkData
      dsimp only
      repeat' split
      all_goals simp [fail, hs, State.inHead]
    · unfold stepChunkTrailer
      dsimp only
      repeat' split
      all_goals simp [fail, hs, State.inHead]
    · simp [hs, State.inHead]
  · -- counted body
    simp only [step, hs, stepBody]
    repeat' split
    all_goals simp [fail, hs, State.inHead]

variable {r : HttpRequest}

/-- A byte other than LF that passes the test finds no pending CR. -/
lemma CrHeld.clear (h : CrHeld (p, r) c) (hc : c ≠ lf) : p.crSeen = false := by
  by_contra hset
  exact hc (h (by simpa using hset))

/-- Behind the head every state is content with a literal head. -/
lemma literal_behindHead {f : Flow} (h : LiteralHead head r) (hstate : p.state.inHead = false) :
    Parsing.Literal f (head, (p, r)) := by
  rcases f with _ | _ | _ | _
  · rcases hs : p.state with _ | _ | _ | _ | _ | _ | _ | _ <;> rw [hs] at hstate <;>
      simp only [State.inHead, reduceCtorEq] at hstate
    · simpa only [Parsing.Literal, Parsing.HeadShape, hs] using h
    · simpa only [Parsing.Literal, Parsing.HeadShape, hs] using h
    · simp only [Parsing.Literal, Parsing.HeadShape, hs]
  · exact h
  · trivial
  · trivial

lemma stepVersion_literal (hs : p.state = .version) (h : Parsing.HeadShape head p r)
    (hheld : CrHeld (p, r) c) :
    Parsing.Literal (stepVersion p r c).2 (head ++ [c], (stepVersion p r c).1) := by
  simp only [Parsing.HeadShape, hs] at h
  obtain ⟨hempty, front, rfl, hfront, hbuf⟩ := h
  unfold stepVersion
  split
  · rename_i hc
    subst hc
    have hclear := hheld.clear (by decide)
    simp only [Parsing.Literal, Parsing.HeadShape, hs]
    exact ⟨hempty, front, by simp [pending, hclear], hfront, hbuf⟩
  · split
    · rename_i hc
      subst hc
      split
      · trivial
      · rename_i hset
        refine ⟨front ++ p.buffer, [], ?_, ?_, Unbroken.nil, List.suffix_append _ _, ?_⟩
        · simp [pending, not_not.mp hset, crlf]
        · simpa using hfront.append hbuf
        · rw [hempty]
          exact Spelled.empty
    · split
      · trivial
      · rename_i hcr hlf hvalid
        have hclear := hheld.clear hlf
        rcases pushRequestLine_cases { p with crSeen := false } r c with hpush | hpush
        · rw [hpush]
          trivial
        · rw [hpush]
          simp only [Parsing.Literal, Parsing.HeadShape, hs]
          refine ⟨hempty, front, by simp [pending, hclear], hfront, ?_⟩
          exact hbuf.append (isValidRequestLineChar_unbroken (not_not.mp hvalid))

lemma stepHeader_literal (hs : p.state = .header) (h : Parsing.HeadShape head p r)
    (hheld : CrHeld (p, r) c) :
    Parsing.Literal (stepHeader p r c).2 (head ++ [c], (stepHeader p r c).1) := by
  simp only [Parsing.HeadShape, hs] at h
  obtain ⟨line, lines, rfl, hlines, hbuf, hversion, hspelled⟩ := h
  unfold stepHeader
  dsimp only
  split
  · trivial
  · split
    · rename_i hc
      subst hc
      have hclear := hheld.clear (by decide)
      simp only [Parsing.Literal, Parsing.HeadShape, hs]
      exact ⟨line, lines, by simp [pending, hclear], hlines, hbuf, hversion, hspelled⟩
    · split
      · rename_i hc
        subst hc
        split
        · trivial
        · rename_i hset
          have hset : p.crSeen = true := not_not.mp hset
          split
          · -- the empty line: the head is complete
            rename_i hnil
            have hhead : LiteralHead (line ++ crlf ++ lines.flatMap (· ++ crlf) ++ p.buffer ++
                p.pending ++ [lf]) r :=
              ⟨line, lines, by simp [hnil, pending, hset, crlf], hlines, hversion, hspelled⟩
            rcases endOfHeaders_cases
                { p with headersRead := SizeT.add p.headersRead 1, crSeen := false } r with
              hend | ⟨hr, hend | ⟨hend, hstate | hstate⟩⟩
            · rw [hend]
              trivial
            · rw [hend]
              simpa only [Parsing.Literal, hr] using hhead
            · rw [hend]
              simpa only [Parsing.Literal, Parsing.HeadShape, hr, hstate] using hhead
            · rw [hend]
              simpa only [Parsing.Literal, Parsing.HeadShape, hr, hstate] using hhead
          · -- a header line
            unfold headerLine
            rcases hline : splitHeaderLine p.buffer with _ | ⟨k, v⟩
            · trivial
            · dsimp only
              split
              · simp only [Parsing.Literal, Parsing.HeadShape, hs]
                refine ⟨line, lines ++ [p.buffer], ?_, ?_, Unbroken.nil, hversion,
                  hspelled.insert hline⟩
                · simp [pending, hset, crlf]
                · intro l hl
                  simp only [List.mem_cons, List.mem_append, List.not_mem_nil, or_false] at hl
                  rcases hl with rfl | hl | rfl
                  · exact hlines _ (by simp)
                  · exact hlines l (by simp [hl])
                  · exact hbuf
              · trivial
      · rename_i hcr hlf
        have hclear := hheld.clear hlf
        split
        · trivial
        · simp only [Parsing.Literal, Parsing.HeadShape, hs]
          exact ⟨line, lines, by simp [pending, hclear], hlines,
            hbuf.append (Unbroken.one hcr hlf), hversion, hspelled⟩

/-- One byte that passes the missing test keeps the head literal. -/
lemma step_literal (s : Bytes × Parsing) (c : UInt8) (h : Parsing.Literal .more s)
    (hheld : CrHeld s.2 c) :
    Parsing.Literal (track keepHead step s c).2
      (track keepHead step s c).1 := by
  obtain ⟨head, p, r⟩ := s
  have hshape : Parsing.HeadShape head p r := h
  -- in the three states in front of the version, a byte joins the head and no CR is pending
  have hword : ∀ q : HttpParser, p.crSeen = false → r.headers = ∅ → Unbroken head →
      isValidRequestLineChar c = true → q.crSeen = p.crSeen →
      (q.state = .method ∨ q.state = .path ∨ q.state = .query) →
      Parsing.Literal (pushRequestLine q r c).2 (head ++ [c], (pushRequestLine q r c).1) := by
    intro q hclear hempty hunbroken hvalid hq hstate
    rcases pushRequestLine_cases q r c with hpush | hpush
    · rw [hpush]
      trivial
    · rw [hpush]
      have hall := hunbroken.append (isValidRequestLineChar_unbroken hvalid)
      rcases hstate with hstate | hstate | hstate <;>
        simpa only [Parsing.Literal, Parsing.HeadShape, hstate] using ⟨hall, hq.trans hclear, hempty⟩
  have hsp : Unbroken [sp] := Unbroken.one (by decide) (by decide)
  rcases hs : p.state with _ | _ | _ | _ | _ | _ | _ | _ <;>
    simp only [track, keepHead, hs, State.inHead, if_true, step]
  case method =>
    simp only [Parsing.HeadShape, hs] at hshape
    obtain ⟨hunbroken, hclear, hempty⟩ := hshape
    unfold stepMethod
    split
    · rename_i hc
      subst hc
      exact ⟨hunbroken.append hsp, hclear, hempty⟩
    · split
      · trivial
      · exact hword p hclear hempty hunbroken (not_not.mp ‹_›) rfl (.inl hs)
  case path =>
    simp only [Parsing.HeadShape, hs] at hshape
    obtain ⟨hunbroken, hclear, hempty⟩ := hshape
    unfold stepPath
    split
    · rename_i hc
      subst hc
      refine ⟨hempty, head ++ [sp], ?_, hunbroken.append hsp, Unbroken.nil⟩
      simp [pending, hclear]
    · split
      · rename_i hc
        subst hc
        exact ⟨hunbroken.append (Unbroken.one (by decide) (by decide)), hclear, hempty⟩
      · split
        · trivial
        · exact hword p hclear hempty hunbroken (not_not.mp ‹_›) rfl (.inr (.inl hs))
  case query =>
    simp only [Parsing.HeadShape, hs] at hshape
    obtain ⟨hunbroken, hclear, hempty⟩ := hshape
    unfold stepQuery
    split
    · rename_i hc
      subst hc
      refine ⟨hempty, head ++ [sp], ?_, hunbroken.append hsp, Unbroken.nil⟩
      simp [pending, hclear]
    · split
      · trivial
      · exact hword p hclear hempty hunbroken (not_not.mp ‹_›) rfl (.inr (.inr hs))
  case version => exact stepVersion_literal hs hshape hheld
  case header => exact stepHeader_literal hs hshape hheld
  case done => trivial
  all_goals
    have hhead : LiteralHead head r := by simpa only [Parsing.HeadShape, hs] using hshape
    obtain ⟨hversion, hheaders, -, hbehind⟩ :=
      step_behindHead (s := (p, r)) c (by simp [hs, State.inHead]) (by simp [hs])
    simp only [step, hs] at hversion hheaders hbehind
    refine literal_behindHead ?_ hbehind
    obtain ⟨line, lines, hlines⟩ := hhead
    exact ⟨line, lines, by rwa [hversion, hheaders]⟩

/-! ## Literal heads have strict line endings -/

lemma strictEnds_unbroken {l : Bytes} (h : Unbroken l) : StrictEnds l := by
  constructor
  · rintro pre post rfl
    exact absurd (by simp) h.2
  · rintro pre post rfl
    exact absurd (by simp) h.1

lemma strictEnds_crlf : StrictEnds crlf := by
  constructor
  · intro pre post h
    rcases pre with _ | ⟨a, _ | ⟨b, pre⟩⟩ <;> simp_all [crlf, cr, lf]
  · intro pre post h
    rcases pre with _ | ⟨a, _ | ⟨b, pre⟩⟩
    · obtain rfl : [lf] = post := by simpa [crlf] using h
      rfl
    · simp_all [crlf, cr, lf]
    · simp_all [crlf, cr, lf]

lemma StrictEnds.append {a b : Bytes} (ha : StrictEnds a) (hb : StrictEnds b) :
    StrictEnds (a ++ b) := by
  constructor
  · intro pre post h
    rcases List.append_eq_append_iff.mp h with ⟨mid, rfl, hmid⟩ | ⟨mid, rfl, hmid⟩
    · -- the LF lies in the second part
      have hlast := hb.lf_after_cr mid post hmid
      simp [List.getLast?_append, hlast]
    · rcases mid with _ | ⟨c, mid⟩
      · have hlast := hb.lf_after_cr [] post (by simpa using hmid.symm)
        simp at hlast
      · simp only [List.cons_append, List.cons.injEq] at hmid
        obtain ⟨rfl, -⟩ := hmid
        exact ha.lf_after_cr pre mid rfl
  · intro pre post h
    rcases List.append_eq_append_iff.mp h with ⟨mid, rfl, hmid⟩ | ⟨mid, rfl, hmid⟩
    · exact hb.cr_before_lf mid post hmid
    · rcases mid with _ | ⟨c, mid⟩
      · exact hb.cr_before_lf [] post (by simpa using hmid.symm)
      · -- the CR lies in the first part, and so does its LF
        simp only [List.cons_append, List.cons.injEq] at hmid
        obtain ⟨rfl, rfl⟩ := hmid
        have hhead := ha.cr_before_lf pre mid rfl
        simp [List.head?_append, hhead]

lemma strictEnds_lines {lines : List Bytes} (h : ∀ l ∈ lines, Unbroken l) :
    StrictEnds (lines.flatMap (· ++ crlf)) := by
  induction lines with
  | nil => exact strictEnds_unbroken Unbroken.nil
  | cons l ls ih =>
    rw [List.flatMap_cons]
    have hl := (strictEnds_unbroken (h l (by simp))).append strictEnds_crlf
    exact hl.append (ih fun m hm => h m (by simp [hm]))

lemma LiteralHead.strictEnds (h : LiteralHead head r) : StrictEnds head := by
  obtain ⟨line, lines, rfl, hlines, -, -⟩ := h
  have hline := (strictEnds_unbroken (hlines line (by simp))).append strictEnds_crlf
  have hrest : StrictEnds (lines.flatMap (· ++ crlf)) :=
    strictEnds_lines fun l hl => hlines l (by simp [hl])
  exact (hline.append hrest).append strictEnds_crlf

/-! ## A strict head passes the missing test -/

/-- The mark is set behind a CR of the head only. -/
def Marked (s : Bytes × Parsing) : Prop :=
  s.2.1.crSeen = true →
    s.1.getLast? = some cr ∧ (s.2.1.state = .version ∨ s.2.1.state = .header)

lemma endOfHeaders_crSeen (p : HttpParser) (r : HttpRequest) :
    (endOfHeaders p r).1.1.crSeen = p.crSeen := by
  unfold endOfHeaders
  dsimp only
  repeat' split
  all_goals rfl

lemma headerLine_crSeen (p : HttpParser) (r : HttpRequest) :
    (headerLine p r).1.1.crSeen = p.crSeen := by
  unfold headerLine
  repeat' split
  all_goals rfl

lemma pushRequestLine_crSeen (p : HttpParser) (r : HttpRequest) (c : UInt8) :
    (pushRequestLine p r c).1.1.crSeen = p.crSeen := by
  unfold pushRequestLine
  dsimp only
  split <;> rfl

/-- Outside the version and the header block the mark is not touched. -/
lemma step_crSeen_of_ne {s : Parsing} (c : UInt8) (hversion : s.1.state ≠ .version)
    (hheader : s.1.state ≠ .header) : (step s c).1.1.crSeen = s.1.crSeen := by
  obtain ⟨p, r⟩ := s
  dsimp only at hversion hheader
  rcases hs : p.state with _ | _ | _ | _ | _ | _ | _ | _
  case method =>
    simp only [step, hs, stepMethod]
    repeat' split
    all_goals first | rfl | exact pushRequestLine_crSeen p r c
  case path =>
    simp only [step, hs, stepPath]
    repeat' split
    all_goals first | rfl | exact pushRequestLine_crSeen p r c
  case query =>
    simp only [step, hs, stepQuery]
    repeat' split
    all_goals first | rfl | exact pushRequestLine_crSeen p r c
  case version => exact absurd hs hversion
  case header => exact absurd hs hheader
  case done => simp [step, hs]
  all_goals
    exact (step_behindHead (s := (p, r)) c (by simp [hs, State.inHead]) (by simp [hs])).2.2.1

/-- In the version and the header block a step that goes on sets the mark at a
CR only. -/
lemma step_crSeen_inLine {s : Parsing} (hs : s.1.state = .version ∨ s.1.state = .header)
    (hmore : (step s c).2 = .more) (hset : (step s c).1.1.crSeen = true) :
    c = cr ∧ (step s c).1.1.state = s.1.state := by
  obtain ⟨p, r⟩ := s
  rcases hs with hs | hs <;> dsimp only at hs
  · simp only [step, hs, stepVersion] at hmore hset ⊢
    split
    · rename_i hc
      exact ⟨hc, rfl⟩
    · rename_i hc
      rw [if_neg hc] at hmore hset
      split at hset
      · split at hset
        · simp_all
        · simp at hset
      · split at hset
        · simp_all
        · rw [pushRequestLine_crSeen] at hset
          cases hset
  · simp only [step, hs, stepHeader] at hmore hset ⊢
    split
    · rename_i hlarge
      simp [hlarge] at hmore
    · rename_i hfits
      rw [if_neg hfits] at hmore hset
      split
      · rename_i hc
        exact ⟨hc, rfl⟩
      · rename_i hc
        rw [if_neg hc] at hmore hset
        split at hset
        · split at hset
          · simp_all
          · split at hset
            · rw [endOfHeaders_crSeen] at hset
              cases hset
            · rw [headerLine_crSeen] at hset
              cases hset
        · split at hset
          · cases hset
          · cases hset

lemma marked_step (s : Bytes × Parsing) (c : UInt8) (h : Marked s)
    (hmore : (track keepHead step s c).2 = .more) :
    Marked (track keepHead step s c).1 := by
  intro hset
  by_cases hline : s.2.1.state = .version ∨ s.2.1.state = .header
  · obtain ⟨rfl, hstate⟩ := step_crSeen_inLine hline hmore hset
    have hin : s.2.1.state.inHead = true := by
      rcases hline with hs | hs <;> simp [hs, State.inHead]
    constructor
    · simp [track, keepHead, hin]
    · exact hline.imp hstate.trans hstate.trans
  · -- elsewhere the mark was clear and stays so
    push Not at hline
    have hold : s.2.1.crSeen = true := (step_crSeen_of_ne c hline.1 hline.2) ▸ hset
    rcases (h hold).2 with hs | hs
    · exact absurd hs hline.1
    · exact absurd hs hline.2

lemma keepHead_extends (head : Bytes) (s : Parsing) (c : UInt8) : head <+: keepHead head s c := by
  unfold keepHead
  split
  · exact List.prefix_append _ _
  · exact List.prefix_refl _

lemma crHeld_of_strictEnds (s : Bytes × Parsing) (c : UInt8) (cs : Bytes) (h : Marked s)
    (hend : StrictEnds (feed (track keepHead step) s (c :: cs)).state.1) :
    CrHeld s.2 c := by
  intro hset
  obtain ⟨hlast, hstate⟩ := h hset
  obtain ⟨pre, hpre⟩ : ∃ pre, s.1 = pre ++ [cr] := List.getLast?_eq_some_iff.mp hlast
  have hin : s.2.1.state.inHead = true := by
    rcases hstate with hs | hs <;> simp [hs, State.inHead]
  obtain ⟨post, hpost⟩ := track_extends step keepHead_extends s.1 s.2 c cs
  have hhead : (feed (track keepHead step) s (c :: cs)).state.1 =
      pre ++ cr :: ([c] ++ post) := by
    rw [← hpost]
    simp [keepHead, hin, hpre]
  simpa using hend.cr_before_lf pre _ hhead

/-! ## The result -/

/-- For an accepted input, the line endings of the head are strict and its texts
literal exactly when no byte but a LF arrives while `cr_seen_` is set. -/
theorem strict_head_iff {data : Bytes} (h : (({} : HttpParser).parse {} data).complete = true) :
    (StrictEnds (headBytes data) ∧
        LiteralHead (headBytes data) (({} : HttpParser).parse {} data).request) ↔
      Guarded step CrHeld ({}, {}) data := by
  have hflow : (feed step ({}, {}) data).flow = .accept := by
    simpa [parse] using h
  obtain ⟨hflow', -, hstate'⟩ :=
    feed_track keepHead step [] ({}, {}) data
  constructor
  · intro hstrict
    rw [← guarded_track keepHead [] ({}, {}) data]
    refine Guarded.of_result (I := Marked) (R := fun _ t => StrictEnds t.1)
      (fun s c hs _ hmore => marked_step s c hs hmore) crHeld_of_strictEnds ?_ hstrict.1
    intro hset
    cases hset
  · intro hguard
    rw [← guarded_track keepHead [] ({}, {}) data] at hguard
    have hlit := hguard.invariant step_literal literal_fresh
    rw [hflow', hflow] at hlit
    have hhead : LiteralHead (headBytes data) (({} : HttpParser).parse {} data).request := by
      have hreq : (({} : HttpParser).parse {} data).request =
          (feed (track keepHead step) ([], ({}, {})) data).state.2.2 := by
        rw [hstate']
        rfl
      rw [hreq]
      exact hlit
    exact ⟨hhead.strictEnds, hhead⟩

/-- A request with regular line ends. -/
theorem strict_head_plain :
    StrictEnds (headBytes (ascii "GET / HTTP/1.1\r\nHost: h\r\n\r\n")) :=
  ((@strict_head_iff (ascii "GET / HTTP/1.1\r\nHost: h\r\n\r\n")
    (by decide +kernel)).mpr (by decide +kernel)).1

/-- A CR inside the version is dropped: the request is accepted with a version
that does not occur in its head. -/
theorem cr_dropped :
    (({} : HttpParser).parse {} (ascii "GET / HT\rTP/1.1\r\n\r\n")).complete = true ∧
      headBytes (ascii "GET / HT\rTP/1.1\r\n\r\n") = ascii "GET / HT\rTP/1.1\r\n\r\n" ∧
      (({} : HttpParser).parse {} (ascii "GET / HT\rTP/1.1\r\n\r\n")).request.version =
        ascii "HTTP/1.1" ∧
      ¬ ascii "HTTP/1.1" <:+: ascii "GET / HT\rTP/1.1\r\n\r\n" ∧
      ¬ StrictEnds (headBytes (ascii "GET / HT\rTP/1.1\r\n\r\n")) := by
  have hhead : headBytes (ascii "GET / HT\rTP/1.1\r\n\r\n") =
      ascii "GET / HT" ++ cr :: ascii "TP/1.1\r\n\r\n" := by decide +kernel
  refine ⟨by decide +kernel, by decide +kernel, by decide +kernel, by decide +kernel, ?_⟩
  intro hstrict
  have hlf := hstrict.cr_before_lf _ _ hhead
  revert hlf
  decide +kernel

end EpollGateway.Http
