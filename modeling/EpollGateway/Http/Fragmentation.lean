import EpollGateway.Http.Parser

/-! # Fragmentation of a request

`handle_read` appends what it received to a buffer, calls the parser, erases
what the parser consumed and goes on until the request is complete or refused.
All progress of the parser lives in its fields, so the cuts between fragments
are invisible: `feedFragments_eq_parseOnce`.

The parser must be *healthy* when it is first called, which is how
`handle_read` always calls it: it resets the parser after every completed and
every refused request. A parser that is called again without a reset does see
the cuts (`feedFragments_after_done`).
-/

namespace EpollGateway.Http

open Bytes Feed HttpParser

/-- A parser in the middle of a request that is still acceptable. -/
def HttpParser.Healthy (p : HttpParser) : Prop := p.state ≠ .done ∧ p.parseError = .none

instance (p : HttpParser) : Decidable p.Healthy := inferInstanceAs (Decidable (_ ∧ _))

lemma healthy_fresh : ({} : HttpParser).Healthy := by decide

/-! ## What one byte does to the health of the parser -/

/-- The state that goes with an answer: only a refusal sets the error, and only
completion reaches `DONE`. -/
def Fits (p : HttpParser) : Flow → Prop
  | .more => p.Healthy
  | .accept => p.state = .done ∧ p.parseError = .none
  | .reject => p.parseError ≠ .none
  | .halt => False

variable {p : HttpParser}

lemma pushRequestLine_fits (h : p.Healthy) (r : HttpRequest) (c : UInt8) :
    Fits (pushRequestLine p r c).1.1 (pushRequestLine p r c).2 := by
  unfold pushRequestLine
  dsimp only
  split
  · simp [Fits, fail]
  · exact h

lemma endOfHeaders_fits (h : p.Healthy) (r : HttpRequest) :
    Fits (endOfHeaders p r).1.1 (endOfHeaders p r).2 := by
  have herr := h.2
  unfold endOfHeaders
  split
  · split
    · simp [Fits, fail]
    · simp [Fits, Healthy, herr]
  · split
    · dsimp only
      split
      · simp [Fits, fail]
      · split
        · simp [Fits, fail]
        · split
          · simp [Fits, Healthy, herr]
          · simp [Fits, herr]
    · simp [Fits, herr]

lemma headerLine_fits (h : p.Healthy) (r : HttpRequest) :
    Fits (headerLine p r).1.1 (headerLine p r).2 := by
  unfold headerLine
  split
  · simp [Fits, fail]
  · split
    · exact h
    · rename_i hne
      simpa [Fits, fail] using hne

lemma stepHeader_fits (h : p.Healthy) (r : HttpRequest) (c : UInt8) :
    Fits (stepHeader p r c).1.1 (stepHeader p r c).2 := by
  unfold stepHeader
  dsimp only
  split
  · simp [Fits, fail]
  · split
    · exact h
    · split
      · split
        · simp [Fits, fail]
        · split
          · exact endOfHeaders_fits (by exact h) r
          · exact headerLine_fits (by exact h) r
      · split
        · simp [Fits, fail]
        · exact h

lemma chunkSizeLine_fits (h : p.Healthy) (r : HttpRequest) :
    Fits (chunkSizeLine p r).1.1 (chunkSizeLine p r).2 := by
  unfold chunkSizeLine
  dsimp only
  split
  · simp [Fits, fail]
  · split <;> exact h

lemma stepChunkedBody_fits (h : p.Healthy) (r : HttpRequest) (c : UInt8) :
    Fits (stepChunkedBody p r c).1.1 (stepChunkedBody p r c).2 := by
  have herr := h.2
  unfold stepChunkedBody
  split
  · unfold stepChunkSize
    split
    · exact h
    · split
      · split
        · exact h
        · exact chunkSizeLine_fits h r
      · dsimp only
        split
        · simp [Fits, fail]
        · exact h
  · unfold stepChunkData
    dsimp only
    split
    · simp [Fits, fail]
    · split <;> exact h
  · unfold stepChunkTrailer
    split
    · exact h
    · split
      · split
        · simp [Fits, herr]
        · exact h
      · dsimp only
        split
        · simp [Fits, fail]
        · exact h
  · exact h

/-- One byte, fed to a healthy parser. -/
lemma step_fits {s : Parsing} (h : s.1.Healthy) (c : UInt8) :
    Fits (step s c).1.1 (step s c).2 := by
  have herr := h.2
  unfold step
  split
  · unfold stepMethod
    split
    · simp [Fits, Healthy, herr]
    · split
      · simp [Fits, fail]
      · exact pushRequestLine_fits h _ _
  · unfold stepPath
    split
    · simp [Fits, Healthy, herr]
    · split
      · simp [Fits, Healthy, herr]
      · split
        · simp [Fits, fail]
        · exact pushRequestLine_fits h _ _
  · unfold stepVersion
    split
    · exact h
    · split
      · split
        · simp [Fits, fail]
        · simp [Fits, Healthy, herr]
      · split
        · simp [Fits, fail]
        · exact pushRequestLine_fits (by exact h) _ _
  · unfold stepQuery
    split
    · simp [Fits, Healthy, herr]
    · split
      · simp [Fits, fail]
      · exact pushRequestLine_fits h _ _
  · exact stepHeader_fits h _ _
  · exact stepChunkedBody_fits h _ _
  · unfold stepBody
    split
    · simp [Fits, fail]
    · dsimp only
      split
      · simp [Fits, herr]
      · exact h
  · rename_i hdone
    exact absurd hdone h.1

/-- A whole buffer, fed to a healthy parser. -/
lemma feed_fits {s : Parsing} (h : s.1.Healthy) (data : Bytes) :
    Fits (feed step s data).state.1 (feed step s data).flow :=
  feed_invariant (I := fun f (s : Parsing) => Fits s.1 f) (fun _ c hs => step_fits hs c) h data

/-! ## The feed loop -/

/-- How far a request has come. -/
inductive Outcome where
  | complete
  | error (e : ParseError)
  | waiting
deriving DecidableEq, Repr

/-- The tests `handle_read` makes on a returned call: the return value first,
then `error()`. -/
def Parsed.outcome (q : Parsed) : Outcome :=
  if q.complete then .complete
  else if q.parser.parseError ≠ .none then .error q.parser.parseError
  else .waiting

/-- Outcome, parser, request and the bytes that are left. -/
structure FeedEnd where
  outcome : Outcome
  parser : HttpParser
  request : HttpRequest
  rest : Bytes

/-- A single call on the whole input. -/
def parseOnce (p : HttpParser) (r : HttpRequest) (data : Bytes) : FeedEnd :=
  let q := p.parse r data
  ⟨q.outcome, q.parser, q.request, data.drop q.consumed⟩

/-- Append, parse, erase what was consumed, stop at completion or error. The
bytes that are left are those of the buffer and of the fragments not yet
received. -/
def feedFragments (p : HttpParser) (r : HttpRequest) (readBuf : Bytes) :
    List Bytes → FeedEnd
  | [] => ⟨.waiting, p, r, readBuf⟩
  | frag :: frags =>
    let q := p.parse r (readBuf ++ frag)
    let readBuf := (readBuf ++ frag).drop q.consumed
    match q.outcome with
    | .waiting => feedFragments q.parser q.request readBuf frags
    | o => ⟨o, q.parser, q.request, readBuf ++ frags.flatten⟩

/-- A healthy parser that waits has consumed everything and is still healthy. -/
lemma outcome_of_more (h : p.Healthy) (r : HttpRequest) {data : Bytes}
    (hflow : (feed step (p, r) data).flow = .more) :
    (p.parse r data).outcome = .waiting ∧ (p.parse r data).parser.Healthy ∧
      (p.parse r data).consumed = data.length := by
  have hfits := feed_fits (s := (p, r)) h data
  rw [hflow] at hfits
  refine ⟨?_, hfits, used_of_more hflow⟩
  simp [Parsed.outcome, parse, hflow, hfits.2]

/-- A call is complete when the loop accepted. -/
lemma outcome_eq_complete {r : HttpRequest} {data : Bytes} :
    (p.parse r data).outcome = .complete ↔
      (feed step (p, r) data).flow = .accept := by
  have hcomplete : (p.parse r data).complete = true ↔
      (feed step (p, r) data).flow = .accept := by
    simp [parse]
  rw [← hcomplete]
  unfold Parsed.outcome
  constructor
  · intro h
    by_contra hne
    rw [if_neg hne] at h
    split at h <;> cases h
  · intro h
    rw [if_pos h]

/-- The append rule for whole calls. -/
lemma parse_append {r : HttpRequest} {data : Bytes} (more : Bytes)
    (hflow : (feed step (p, r) data).flow = .more) :
    p.parse r (data ++ more) =
      { (p.parse r data).parser.parse (p.parse r data).request more with
        consumed := data.length +
          ((p.parse r data).parser.parse (p.parse r data).request more).consumed } := by
  simp [parse, feed_append more hflow]

/-- A healthy parser that stops does not wait. -/
lemma outcome_of_stop (h : p.Healthy) (r : HttpRequest) {data : Bytes}
    (hflow : (feed step (p, r) data).flow ≠ .more) :
    (p.parse r data).outcome ≠ .waiting := by
  have hfits := feed_fits (s := (p, r)) h data
  cases hf : (feed step (p, r) data).flow with
  | more => exact absurd hf hflow
  | accept => simp [Parsed.outcome, parse, hf]
  | reject =>
    rw [hf] at hfits
    have hne : (feed step (p, r) data).state.1.parseError ≠ .none := hfits
    simp [Parsed.outcome, parse, hf, hne]
  | halt =>
    rw [hf] at hfits
    exact hfits.elim

/-- However the input is cut, the feed loop ends like a single call of a healthy
parser: same outcome, same parser, same request, same bytes left over. -/
theorem feedFragments_eq_parseOnce (p : HttpParser) (r : HttpRequest) (hstate : p.state ≠ .done)
    (herror : p.parseError = .none) (frags : List Bytes) :
    feedFragments p r [] frags = parseOnce p r frags.flatten := by
  induction frags generalizing p r with
  | nil => simp [feedFragments, parseOnce, parse, Parsed.outcome, herror]
  | cons frag frags ih =>
    have hp : p.Healthy := ⟨hstate, herror⟩
    by_cases hflow : (feed step (p, r) frag).flow = .more
    · -- the fragment is used up: the loop goes on with an empty buffer
      obtain ⟨hwait, hhealthy, hused⟩ := outcome_of_more hp r hflow
      have hloop : feedFragments p r [] (frag :: frags) =
          feedFragments (p.parse r frag).parser (p.parse r frag).request [] frags := by
        simp [feedFragments, hwait, hused]
      rw [hloop, ih _ _ hhealthy.1 hhealthy.2]
      simp [parseOnce, parse_append _ hflow, Parsed.outcome, List.drop_append]
    · -- the parser stopped inside the fragment
      have hstop := outcome_of_stop hp r hflow
      have hle : (p.parse r frag).consumed ≤ frag.length := used_le_length _ _
      have hwhole : p.parse r (frag ++ frags.flatten) = p.parse r frag := by
        simp [parse, feed_append_of_stop _ hflow]
      have hloop : feedFragments p r [] (frag :: frags) =
          ⟨(p.parse r frag).outcome, (p.parse r frag).parser, (p.parse r frag).request,
            frag.drop (p.parse r frag).consumed ++ frags.flatten⟩ := by
        simp only [feedFragments, List.nil_append]
      simp only [hloop, parseOnce, List.flatten_cons, hwhole, List.drop_append_of_le_length hle]

/-- The invariant rule for accepted requests, with the bytes read as a ghost: what a
fresh parser keeps at every byte holds at the one that completes the request. -/
lemma accepted_invariant {I : Flow → Bytes × Parsing → Prop}
    (hstep : ∀ s c, I .more s →
      I (track (fun seen _ c => seen ++ [c]) step s c).2
        (track (fun seen _ c => seen ++ [c]) step s c).1)
    (hinit : I .more ([], ({}, {}))) {frags : List Bytes}
    (h : (feedFragments {} {} [] frags).outcome = .complete) :
    ∃ seen more, frags.flatten = seen ++ more ∧
      I .accept (seen, ((feedFragments {} {} [] frags).parser,
        (feedFragments {} {} [] frags).request)) ∧
      (feedFragments {} {} [] frags).parser.state = .done := by
  rw [feedFragments_eq_parseOnce {} {} (by decide) rfl] at h ⊢
  have hflow := outcome_eq_complete.mp h
  have hinv := feed_invariant hstep hinit frags.flatten
  have htrack := feed_track (fun seen _ c => seen ++ [c]) step [] ({}, {}) frags.flatten
  have hused := track_used step [] ({}, {}) frags.flatten
  have hfits := feed_fits (s := ({}, {})) healthy_fresh frags.flatten
  rw [hflow] at hfits
  rw [htrack.1, hflow] at hinv
  refine ⟨_, _, (List.take_append_drop (feed step ({}, {}) frags.flatten).used _).symm,
    ?_, hfits.1⟩
  rw [← List.nil_append (frags.flatten.take _), ← hused]
  have hstate : ((parseOnce {} {} frags.flatten).parser, (parseOnce {} {} frags.flatten).request) =
      (feed (track (fun seen _ c => seen ++ [c]) step) ([], ({}, {}))
        frags.flatten).state.2 := htrack.2.2.symm
  rw [hstate]
  exact hinv

/-- The rule at a request that arrives in three pieces, cut inside a line end. -/
theorem feedFragments_from_fresh :
    feedFragments {} {} [] [ascii "GET / HTTP/1.1\r", ascii "\nHost", ascii ": h\r\n\r\nrest"] =
      parseOnce {} {} (ascii "GET / HTTP/1.1\r\nHost: h\r\n\r\nrest") :=
  feedFragments_eq_parseOnce {} {} (by decide) (by decide)
    [ascii "GET / HTTP/1.1\r", ascii "\nHost", ascii ": h\r\n\r\nrest"]

/-- Without a reset after completion the cuts show: one call takes a single byte,
two fragments take two. -/
theorem feedFragments_after_done :
    feedFragments { state := .done } {} [] [[71], [69]] ≠
      parseOnce { state := .done } {} [71, 69] := by
  intro h
  have hrest := congrArg FeedEnd.rest h
  revert hrest
  decide

end EpollGateway.Http
