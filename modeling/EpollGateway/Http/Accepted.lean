import EpollGateway.Http.Fragmentation

/-! # What an accepted request looks like

The parser checks a request in three places: every header line as it ends, the
framing at the end of the header block, and the length in the body states. This
file collects what the checks leave behind. `Parsing.Sound` is the invariant, one
clause for each state of the parser; a step keeps it, and the step that accepts
turns it into `Clean` and `Framed`.
-/

namespace EpollGateway.Http

open Bytes Feed

/-! ## The properties -/

/-- A part of the request line without blanks and control bytes. -/
def PlainText (t : Bytes) : Prop := ∀ c ∈ t, 0x20 < c ∧ c ≠ 0x7F

/-- A header name: a non-empty token in lower case. -/
structure CleanName (k : Bytes) : Prop where
  ne : k ≠ []
  token : ∀ c ∈ k, isTchar c
  lower_case : lower k = k

/-- A header value: trimmed, and without control bytes other than the tab. -/
structure CleanValue (v : Bytes) : Prop where
  trimmed : Trimmed v
  clean : ∀ c ∈ v, c = tab ∨ (0x20 ≤ c ∧ c ≠ 0x7F)

/-- The texts of a request carry no byte that could end a line or a word. -/
structure HttpRequest.Clean (r : HttpRequest) : Prop where
  method : PlainText r.method
  path : PlainText r.path
  query : PlainText r.query
  version : PlainText r.version
  headers : ∀ k v, r.headers.lookup k = some v → CleanName k ∧ CleanValue v

/-- At most one of the two framing headers. -/
def HttpRequest.OneFraming (r : HttpRequest) : Prop :=
  r.headers.lookup contentLengthName = none ∨ r.headers.lookup transferEncodingName = none

/-- The body is the one the framing header announces. -/
structure HttpRequest.Framed (r : HttpRequest) : Prop where
  one : r.OneFraming
  length : ∀ v, r.headers.lookup contentLengthName = some v →
    v ≠ [] ∧ numeral 10 decVal? v = some r.body.length
  coding : ∀ v, r.headers.lookup transferEncodingName = some v → lower v = ascii "chunked"
  neither : r.headers.lookup contentLengthName = none →
    r.headers.lookup transferEncodingName = none → r.body = []
  cap : r.body.length ≤ maxBodySize

/-! ## The checks -/

lemma isValidRequestLineChar_iff (c : UInt8) :
    isValidRequestLineChar c = true ↔ 0x20 < c ∧ c ≠ 0x7F := by
  simp [isValidRequestLineChar]

lemma isValidFieldValueChar_iff (c : UInt8) :
    isValidFieldValueChar c = true ↔ c = tab ∨ (0x20 ≤ c ∧ c ≠ 0x7F) := by
  simp [isValidFieldValueChar]

/-- The Content-Length loop says yes to a numeral only. -/
lemma numeral_of_contentLengthLoop {value n : Nat} {text : Bytes}
    (h : contentLengthLoop value text = (true, n)) (hn : n ≤ maxBodySize) :
    numeralFrom 10 decVal? value text = some n := by
  have hmax : maxBodySize = 1048576 := rfl
  induction text generalizing value with
  | nil => simpa [contentLengthLoop, numeralFrom] using h
  | cons c cs ih =>
    rcases hd : decVal? c with _ | d
    · simp [contentLengthLoop, hd] at h
    · have hdlt := decVal?_lt c d hd
      simp only [contentLengthLoop, hd] at h
      split at h
      · -- the early exit reports a length above the cap
        simp only [Prod.mk.injEq, true_and] at h
        omega
      · rename_i hle
        have hmul : SizeT.mul value 10 = value * 10 := SizeT.mul_eq (by omega)
        have hadd : SizeT.add (value * 10) d = value * 10 + d := SizeT.add_eq (by omega)
        rw [hmul, hadd] at h
        exact numeralFrom_cons.mpr ⟨d, hd, ih h⟩

lemma splitHeaderLine_clean {line k v : Bytes} (h : splitHeaderLine line = some (k, v)) :
    CleanName k ∧ CleanValue v := by
  unfold splitHeaderLine at h
  rcases hcolon : line.idxOf? 58 with _ | colon
  · simp [hcolon] at h
  · simp only [hcolon] at h
    split at h
    · cases h
    · split at h
      · cases h
      · split at h
        · cases h
        · rename_i hne htoken hvalue
          simp only [Option.some.injEq, Prod.mk.injEq] at h
          obtain ⟨rfl, rfl⟩ := h
          simp only [not_not, List.all_eq_true] at htoken hvalue
          constructor
          · exact ⟨hne, htoken, lower_lower _⟩
          · exact ⟨trimmed_trim _, fun c hc => (isValidFieldValueChar_iff c).mp (hvalue c hc)⟩

variable {r : HttpRequest} {p : HttpParser}

/-- A line that passes `checkFraming` leaves at most one framing header. -/
lemma oneFraming_insert {k v : Bytes} (h : r.OneFraming)
    (hcheck : checkFraming r.headers k = .none) :
    ({ r with headers := r.headers.insert k v } : HttpRequest).OneFraming := by
  have hdiff : transferEncodingName ≠ contentLengthName := by decide
  unfold HttpRequest.OneFraming at *
  unfold checkFraming at hcheck
  by_cases hcl : k = contentLengthName
  · subst hcl
    rw [if_pos rfl] at hcheck
    right
    rw [AList.lookup_insert_ne hdiff]
    by_contra hte
    have hsome := Option.isSome_iff_ne_none.mpr hte
    rw [hsome] at hcheck
    split at hcheck <;> simp at hcheck
  · rw [if_neg hcl] at hcheck
    by_cases hte : k = transferEncodingName
    · subst hte
      rw [if_pos rfl] at hcheck
      left
      rw [AList.lookup_insert_ne hdiff.symm]
      by_contra hlen
      have hsome := Option.isSome_iff_ne_none.mpr hlen
      simp [hsome] at hcheck
    · rw [AList.lookup_insert_ne (Ne.symm hcl), AList.lookup_insert_ne (Ne.symm hte)]
      exact h

lemma HttpRequest.Clean.insert {k v : Bytes} (h : r.Clean) (hk : CleanName k)
    (hv : CleanValue v) : ({ r with headers := r.headers.insert k v } : HttpRequest).Clean := by
  refine { h with headers := ?_ }
  intro k' v' hlookup
  by_cases heq : k' = k
  · subst heq
    rw [AList.lookup_insert] at hlookup
    cases hlookup
    exact ⟨hk, hv⟩
  · rw [AList.lookup_insert_ne heq] at hlookup
    exact h.headers k' v' hlookup

/-! ## The invariant -/

/-- What the parser still owes the request, state by state. -/
def HttpParser.Owes (p : HttpParser) (r : HttpRequest) : Prop :=
  match p.state with
  | .method | .path | .query | .version => PlainText p.buffer ∧ r.body = []
  | .header => r.body = []
  | .chunkedBody =>
    (∃ v, r.headers.lookup transferEncodingName = some v ∧ lower v = ascii "chunked") ∧
      r.body.length ≤ maxBodySize
  | .body =>
    r.headers.lookup transferEncodingName = none ∧
      (∃ v, r.headers.lookup contentLengthName = some v ∧ v ≠ [] ∧
        numeral 10 decVal? v = some p.contentLength) ∧
      p.contentLength ≤ maxBodySize ∧ r.body.length = p.bodyRead ∧ p.bodyRead < p.contentLength
  | .done => False

/-- The invariant while the parser asks for more, and what it leaves when it
accepts. -/
def Parsing.Sound : Flow → Parsing → Prop
  | .more, (p, r) => r.Clean ∧ r.OneFraming ∧ p.Owes r
  | .accept, (_, r) => r.Clean ∧ r.Framed
  | _, _ => True

lemma sound_fresh : Parsing.Sound .more ({}, {}) := by
  refine ⟨⟨?_, ?_, ?_, ?_, ?_⟩, .inl rfl, ?_⟩
  all_goals simp [PlainText, HttpParser.Owes]

lemma PlainText.nil : PlainText [] := by simp [PlainText]

lemma PlainText.append {t : Bytes} {c : UInt8} (h : PlainText t)
    (hc : isValidRequestLineChar c = true) : PlainText (t ++ [c]) := by
  intro d hd
  rcases List.mem_append.mp hd with hd | hd
  · exact h d hd
  · rw [List.mem_singleton.mp hd]
    exact (isValidRequestLineChar_iff c).mp hc

/-- A byte of the request line joins the buffer. -/
lemma pushRequestLine_sound {c : UInt8} (hclean : r.Clean) (hone : r.OneFraming)
    (hbody : r.body = []) (hbuf : PlainText p.buffer)
    (hstate : p.state = .method ∨ p.state = .path ∨ p.state = .query ∨ p.state = .version)
    (hc : isValidRequestLineChar c = true) :
    Parsing.Sound (pushRequestLine p r c).2 (pushRequestLine p r c).1 := by
  unfold pushRequestLine
  dsimp only
  split
  · trivial
  · have hbuf' := hbuf.append hc
    rcases hstate with hs | hs | hs | hs <;>
      exact ⟨hclean, hone, by simpa [HttpParser.Owes, hs] using ⟨hbuf', hbody⟩⟩

/-- The end of the header block: the framing header has been checked, the body
is still empty. -/
lemma endOfHeaders_sound (hclean : r.Clean) (hone : r.OneFraming) (hbody : r.body = []) :
    Parsing.Sound (endOfHeaders p r).2 (endOfHeaders p r).1 := by
  unfold endOfHeaders
  rcases hte : r.headers.lookup transferEncodingName with _ | te
  · rcases hcl : r.headers.lookup contentLengthName with _ | cl
    · -- neither header
      refine ⟨hclean, hone, ?_, ?_, fun _ _ => hbody, ?_⟩ <;> simp [hte, hcl, hbody]
    · dsimp only
      generalize hloop : contentLengthLoop 0 cl = loop
      obtain ⟨ok, value⟩ := loop
      dsimp only
      split
      · trivial
      · rename_i hcheck
        simp only [not_not] at hcheck
        obtain ⟨hne, rfl⟩ := hcheck
        split
        · trivial
        · rename_i hle
          have hnum := numeral_of_contentLengthLoop hloop (by omega)
          split
          · rename_i hpos
            exact ⟨hclean, hone, hte, ⟨cl, hcl, hne, hnum⟩, Nat.not_lt.mp hle, by simp [hbody], hpos⟩
          · -- an announced length of zero
            have hzero : value = 0 := by omega
            subst hzero
            refine ⟨hclean, hone, ?_, by simp [hte], fun _ _ => hbody, by simp [hbody]⟩
            intro v hv
            rw [hcl, Option.some.injEq] at hv
            subst hv
            simpa [hbody] using ⟨hne, hnum⟩
  · dsimp only
    split
    · trivial
    · rename_i hcoding
      exact ⟨hclean, hone, ⟨te, hte, not_not.mp hcoding⟩, by simp [hbody]⟩

/-- A header line: its name and value are clean, and it does not mix framings. -/
lemma headerLine_sound (hclean : r.Clean) (hone : r.OneFraming) (hbody : r.body = [])
    (hstate : p.state = .header) : Parsing.Sound (headerLine p r).2 (headerLine p r).1 := by
  unfold headerLine
  rcases hline : splitHeaderLine p.buffer with _ | ⟨k, v⟩
  · trivial
  · obtain ⟨hk, hv⟩ := splitHeaderLine_clean hline
    dsimp only
    split
    · rename_i hcheck
      refine ⟨hclean.insert hk hv, oneFraming_insert hone hcheck, ?_⟩
      simpa [HttpParser.Owes, hstate] using hbody
    · trivial

lemma stepHeader_sound (c : UInt8) (hclean : r.Clean) (hone : r.OneFraming)
    (hbody : r.body = []) (hstate : p.state = .header) :
    Parsing.Sound (stepHeader p r c).2 (stepHeader p r c).1 := by
  have howes : ∀ q : HttpParser, q.state = .header → Parsing.Sound .more (q, r) := by
    intro q hq
    refine ⟨hclean, hone, ?_⟩
    simpa [HttpParser.Owes, hq] using hbody
  unfold stepHeader
  dsimp only
  split
  · trivial
  · split
    · exact howes _ hstate
    · split
      · split
        · trivial
        · split
          · exact endOfHeaders_sound hclean hone hbody
          · exact headerLine_sound hclean hone hbody hstate
      · split
        · trivial
        · exact howes _ hstate

/-- The chunk states touch the body only. -/
lemma stepChunkedBody_sound (c : UInt8) (hclean : r.Clean) (hone : r.OneFraming)
    (hstate : p.state = .chunkedBody) {te : Bytes}
    (hte : r.headers.lookup transferEncodingName = some te) (hcoding : lower te = ascii "chunked")
    (hcap : r.body.length ≤ maxBodySize) :
    Parsing.Sound (stepChunkedBody p r c).2 (stepChunkedBody p r c).1 := by
  have hmore : ∀ (q : HttpParser) (b : Bytes), q.state = .chunkedBody → b.length ≤ maxBodySize →
      Parsing.Sound .more (q, { r with body := b }) := by
    intro q b hq hb
    refine ⟨{ hclean with }, hone, ?_⟩
    simpa [HttpParser.Owes, hq] using ⟨⟨te, hte, hcoding⟩, hb⟩
  have hnocl : r.headers.lookup contentLengthName = none := by
    rcases hone with hcl | hnone
    · exact hcl
    · rw [hte] at hnone
      cases hnone
  unfold stepChunkedBody
  rcases p.chunkState
  · unfold stepChunkSize
    dsimp only
    split
    · exact hmore p r.body hstate hcap
    · split
      · split
        · exact hmore p r.body hstate hcap
        · unfold chunkSizeLine
          rcases chunkSizeLoop 0 (p.chunkSizeHexBuffer.takeWhile (· ≠ 59)) with ⟨ok, size⟩
          dsimp only
          split
          · trivial
          · split
            · exact hmore _ r.body hstate hcap
            · exact hmore _ r.body hstate hcap
      · split
        · trivial
        · exact hmore _ r.body hstate hcap
  · unfold stepChunkData
    dsimp only
    split
    · trivial
    · rename_i hfits
      split
      · exact hmore _ _ hstate (Nat.not_lt.mp hfits)
      · exact hmore _ _ hstate (Nat.not_lt.mp hfits)
  · unfold stepChunkTrailer
    dsimp only
    split
    · exact hmore p r.body hstate hcap
    · split
      · split
        · -- the last line of the trailer section: the request is complete
          refine ⟨hclean, hone, by simp [hnocl], ?_, by simp [hte], hcap⟩
          intro v hv
          rw [hte, Option.some.injEq] at hv
          exact hv ▸ hcoding
        · exact hmore _ r.body hstate hcap
      · split
        · trivial
        · exact hmore _ r.body hstate hcap
  · exact hmore p r.body hstate hcap

/-- The counted body: it is complete when it has the announced length. -/
lemma stepBody_sound (c : UInt8) (hclean : r.Clean) (hone : r.OneFraming)
    (hstate : p.state = .body) (howes : p.Owes r) :
    Parsing.Sound (stepBody p r c).2 (stepBody p r c).1 := by
  have hmax : maxBodySize = 1048576 := rfl
  simp only [HttpParser.Owes, hstate] at howes
  obtain ⟨hte, ⟨v, hcl, hne, hnum⟩, hcap, hread, hlt⟩ := howes
  unfold stepBody
  split
  · trivial
  · have hadd : SizeT.add p.bodyRead 1 = p.bodyRead + 1 := SizeT.add_eq (by omega)
    have hlen : (r.body ++ [c]).length = p.bodyRead + 1 := by simp [hread]
    dsimp only
    rw [hadd]
    split
    · rename_i hfull
      have hall : p.contentLength = (r.body ++ [c]).length := by omega
      refine ⟨{ hclean with }, hone, ?_, by simp [hte], by simp [hcl], hall ▸ hcap⟩
      intro v' hv'
      have heq : v = v' := Option.some.inj (hcl.symm.trans hv')
      subst heq
      exact ⟨hne, hall ▸ hnum⟩
    · rename_i hmore
      refine ⟨{ hclean with }, hone, ?_⟩
      simp only [HttpParser.Owes, hstate]
      exact ⟨hte, ⟨v, hcl, hne, hnum⟩, hcap, hlen, by omega⟩

/-- One byte keeps the invariant. -/
lemma step_sound (s : Parsing) (c : UInt8) (h : Parsing.Sound .more s) :
    Parsing.Sound (HttpParser.step s c).2 (HttpParser.step s c).1 := by
  obtain ⟨p, r⟩ := s
  obtain ⟨hclean, hone, howes⟩ := h
  unfold HttpParser.step
  dsimp only
  rcases hs : p.state with _ | _ | _ | _ | _ | _ | _ | _ <;> dsimp only
  case method =>
    simp only [HttpParser.Owes, hs] at howes
    obtain ⟨hbuf, hbody⟩ := howes
    unfold stepMethod
    split
    · exact ⟨{ hclean with method := hbuf }, hone, PlainText.nil, hbody⟩
    · split
      · trivial
      · exact pushRequestLine_sound hclean hone hbody hbuf (.inl hs) (not_not.mp ‹_›)
  case path =>
    simp only [HttpParser.Owes, hs] at howes
    obtain ⟨hbuf, hbody⟩ := howes
    unfold stepPath
    split
    · exact ⟨{ hclean with path := hbuf }, hone, PlainText.nil, hbody⟩
    · split
      · exact ⟨{ hclean with path := hbuf }, hone, PlainText.nil, hbody⟩
      · split
        · trivial
        · exact pushRequestLine_sound hclean hone hbody hbuf (.inr (.inl hs)) (not_not.mp ‹_›)
  case query =>
    simp only [HttpParser.Owes, hs] at howes
    obtain ⟨hbuf, hbody⟩ := howes
    unfold stepQuery
    split
    · exact ⟨{ hclean with query := hbuf }, hone, PlainText.nil, hbody⟩
    · split
      · trivial
      · exact pushRequestLine_sound hclean hone hbody hbuf (.inr (.inr (.inl hs))) (not_not.mp ‹_›)
  case version =>
    simp only [HttpParser.Owes, hs] at howes
    obtain ⟨hbuf, hbody⟩ := howes
    unfold stepVersion
    split
    · refine ⟨hclean, hone, ?_⟩
      simpa [HttpParser.Owes, hs] using ⟨hbuf, hbody⟩
    · split
      · split
        · trivial
        · exact ⟨{ hclean with version := hbuf }, hone, hbody⟩
      · split
        · trivial
        · exact pushRequestLine_sound hclean hone hbody hbuf (.inr (.inr (.inr hs))) (not_not.mp ‹_›)
  case header =>
    simp only [HttpParser.Owes, hs] at howes
    exact stepHeader_sound c hclean hone howes hs
  case chunkedBody =>
    simp only [HttpParser.Owes, hs] at howes
    obtain ⟨⟨te, hte, hcoding⟩, hcap⟩ := howes
    exact stepChunkedBody_sound c hclean hone hs hte hcoding hcap
  case body => exact stepBody_sound c hclean hone hs howes
  case done => simp only [HttpParser.Owes, hs] at howes

/-! ## The fields of the handler -/

/-- The parser leaves the trace id to the handler. -/
lemma step_traceId (s : Parsing) (c : UInt8) : (HttpParser.step s c).1.2.traceId = s.2.traceId := by
  obtain ⟨p, r⟩ := s
  have hpush : ∀ q, (pushRequestLine q r c).1.2.traceId = r.traceId := by
    intro q
    unfold pushRequestLine
    dsimp only
    split <;> rfl
  unfold HttpParser.step
  rcases p.state <;> dsimp only
  case method =>
    unfold stepMethod
    repeat' split
    all_goals first | rfl | exact hpush p
  case path =>
    unfold stepPath
    repeat' split
    all_goals first | rfl | exact hpush p
  case query =>
    unfold stepQuery
    repeat' split
    all_goals first | rfl | exact hpush p
  case version =>
    unfold stepVersion
    repeat' split
    all_goals first | rfl | exact hpush _
  case header =>
    unfold stepHeader endOfHeaders headerLine
    dsimp only
    repeat' split
    all_goals rfl
  case chunkedBody =>
    unfold stepChunkedBody stepChunkSize stepChunkData stepChunkTrailer chunkSizeLine
    dsimp only
    repeat' split
    all_goals rfl
  case body =>
    unfold stepBody
    dsimp only
    repeat' split
    all_goals rfl

lemma feed_traceId (s : Parsing) (data : Bytes) :
    (feed HttpParser.step s data).state.2.traceId = s.2.traceId :=
  feed_invariant (I := fun _ (t : Parsing) => t.2.traceId = s.2.traceId)
    (fun t c ht => (step_traceId t c).trans ht) rfl data

/-! ## The result -/

/-- The invariant at the byte that completes the request. -/
lemma sound_of_complete {frags : List Bytes}
    (h : (feedFragments {} {} [] frags).outcome = .complete) :
    (feedFragments {} {} [] frags).request.Clean ∧
      (feedFragments {} {} [] frags).request.Framed := by
  rw [feedFragments_eq_parseOnce {} {} (by decide) rfl] at h ⊢
  have hflow := outcome_eq_complete.mp h
  have hsound := feed_invariant step_sound sound_fresh frags.flatten
  rw [hflow] at hsound
  exact hsound

lemma traceId_feedFragments (frags : List Bytes) :
    (feedFragments {} {} [] frags).request.traceId = [] := by
  rw [feedFragments_eq_parseOnce {} {} (by decide) rfl]
  exact feed_traceId ({}, {}) frags.flatten

/-- However the bytes arrive, a request that a fresh parser accepts is clean and
framed by at most one header, which its body agrees with. -/
theorem accepted_clean_framed (frags : List Bytes)
    (h : (feedFragments {} {} [] frags).outcome = .complete) :
    (feedFragments {} {} [] frags).request.Clean ∧
      (feedFragments {} {} [] frags).request.Framed :=
  sound_of_complete h

/-- A request in three fragments, its line end and its body cut in two. -/
theorem accepted_clean_framed_post :
    (feedFragments {} {} []
        [ascii "POST /p?q HTTP/1.1\r", ascii "\nContent-Length: 2\r\n\r\na", ascii "b"]).outcome =
      .complete ∧
    (feedFragments {} {} []
        [ascii "POST /p?q HTTP/1.1\r", ascii "\nContent-Length: 2\r\n\r\na",
          ascii "b"]).request.Framed :=
  have hdone : (feedFragments {} {} []
      [ascii "POST /p?q HTTP/1.1\r", ascii "\nContent-Length: 2\r\n\r\na", ascii "b"]).outcome =
        .complete := by decide +kernel
  ⟨hdone, (accepted_clean_framed _ hdone).2⟩

end EpollGateway.Http
