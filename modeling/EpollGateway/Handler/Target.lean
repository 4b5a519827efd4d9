import EpollGateway.Handler.Forwarding
import EpollGateway.Http.RoundTrip

/-! # The target of a forwarded request

The parser splits the target of a request line at its first `?` into path and
query. `start_upstream_exchange` copies the path into the parameters of the
exchange, and `build_request` writes it as the target: the query stays behind. A
backend is asked for what the client asked for exactly if the client's target had
no `?` (`target_kept_iff`).
-/

namespace EpollGateway.Handler

open Bytes Http Upstream Feed HttpParser

/-! ## The words of a request line -/

/-- The second word of a text. -/
def secondWord (b : Bytes) : Bytes := ((b.dropWhile (· ≠ sp)).drop 1).takeWhile (· ≠ sp)

lemma secondWord_words {first second : Bytes} (h₁ : sp ∉ first) (h₂ : sp ∉ second)
    (rest : Bytes) : secondWord (first ++ sp :: (second ++ sp :: rest)) = second := by
  have hne : ∀ {w : Bytes}, sp ∉ w → ∀ c ∈ w, decide (c ≠ sp) = true := by
    intro w hw c hc
    simpa using fun heq : c = sp => hw (heq ▸ hc)
  unfold secondWord
  rw [List.dropWhile_append_of_pos (hne h₁)]
  simp only [ne_eq, not_true_eq_false, decide_false, Bool.false_eq_true, not_false_eq_true,
    List.dropWhile_cons_of_neg, List.drop_succ_cons, List.drop_zero]
  rw [List.takeWhile_append_of_pos (hne h₂)]
  simp

lemma sp_notMem_requestText {t : Bytes} (h : RequestText t) : sp ∉ t :=
  fun hm => (isValidRequestLineChar_clean sp (h.1 sp hm)).2.2 rfl

/-! ## What the parser makes of the target -/

/-- The states in which the parser still reads method, path or query. -/
def inTarget : State → Bool
  | .method | .path | .query => true
  | _ => false

/-- Method, path and query are final once the target has been read. -/
lemma step_keepsTarget (s : Parsing) (c : UInt8) (h : inTarget s.1.state = false) :
    inTarget (step s c).1.1.state = false ∧
      (step s c).1.2.method = s.2.method ∧
      (step s c).1.2.path = s.2.path ∧ (step s c).1.2.query = s.2.query := by
  obtain ⟨p, r⟩ := s
  dsimp only at h
  unfold step
  rcases hs : p.state with _ | _ | _ | _ | _ | _ | _ | _ <;> dsimp only
  case method => simp [hs, inTarget] at h
  case path => simp [hs, inTarget] at h
  case query => simp [hs, inTarget] at h
  case version =>
    unfold stepVersion pushRequestLine fail
    dsimp only
    repeat' split
    all_goals simp [hs, inTarget]
  case header =>
    unfold stepHeader endOfHeaders headerLine fail
    dsimp only
    repeat' split
    all_goals simp [hs, inTarget]
  case chunkedBody =>
    unfold stepChunkedBody stepChunkSize stepChunkData stepChunkTrailer chunkSizeLine
      fail
    dsimp only
    repeat' split
    all_goals simp [hs, inTarget]
  case body =>
    unfold stepBody fail
    dsimp only
    repeat' split
    all_goals simp [hs, inTarget]
  case done => simp [hs, inTarget]

/-- `bytes` starts with the method and the target of the request; the target is
its path, with the query behind a `?` if it has one. -/
def StartsWithTarget (bytes : Bytes) (r : HttpRequest) : Prop :=
  (r.query = [] ∧ ∃ rest, bytes = r.method ++ sp :: (r.path ++ sp :: rest)) ∨
    (RequestText r.query ∧ ∃ rest, bytes = r.method ++ sp :: ((r.path ++ 63 :: r.query) ++ sp :: rest))

/-- How the bytes read so far hang together with the parser's state. -/
def Parsing.LineShape (seen : Bytes) (p : HttpParser) (r : HttpRequest) : Prop :=
  match p.state with
  | .method => seen = p.buffer ∧ RequestText p.buffer ∧ r.query = []
  | .path =>
    seen = r.method ++ sp :: p.buffer ∧ RequestText r.method ∧ RequestText p.buffer ∧
      63 ∉ p.buffer ∧ r.query = []
  | .query =>
    seen = r.method ++ sp :: (r.path ++ 63 :: p.buffer) ∧ RequestText r.method ∧
      RequestText r.path ∧ 63 ∉ r.path ∧ RequestText p.buffer
  | _ => StartsWithTarget seen r ∧ RequestText r.method ∧ RequestText r.path ∧ 63 ∉ r.path

/-- The invariant of a run of the parser. -/
def Parsing.Worded : Flow → Bytes × Parsing → Prop
  | .more, (seen, (p, r)) | .accept, (seen, (p, r)) => Parsing.LineShape seen p r
  | _, _ => True

lemma requestText_nil : RequestText [] := by simp [RequestText]

variable {r : HttpRequest} {bytes method path seen : Bytes} {p : HttpParser}

lemma StartsWithTarget.append (h : StartsWithTarget bytes r) (more : Bytes) :
    StartsWithTarget (bytes ++ more) r := by
  rcases h with ⟨hquery, rest, rfl⟩ | ⟨hquery, rest, rfl⟩
  · exact .inl ⟨hquery, rest ++ more, by simp⟩
  · exact .inr ⟨hquery, rest ++ more, by simp⟩

/-- A byte of the request line joins the buffer, within the cap. -/
lemma pushRequestLine_text {c : UInt8} (hbuf : RequestText p.buffer)
    (hc : isValidRequestLineChar c = true) :
    (pushRequestLine p r c).2 = .reject ∨
      pushRequestLine p r c = (({ p with buffer := p.buffer ++ [c] }, r), .more) ∧
        RequestText (p.buffer ++ [c]) := by
  unfold pushRequestLine
  dsimp only
  split
  · exact .inl rfl
  · rename_i hcap
    refine .inr ⟨rfl, ?_, by omega⟩
    intro d hd
    rcases List.mem_append.mp hd with hd | hd
    · exact hbuf.1 d hd
    · rw [List.mem_singleton.mp hd]
      exact hc

lemma Parsing.LineShape.worded (h : Parsing.LineShape seen p r) (f : Flow) :
    Parsing.Worded f (seen, (p, r)) := by
  cases f with
  | more => exact h
  | accept => exact h
  | reject => trivial
  | halt => trivial

lemma lineShape_behind (h : inTarget p.state = false) :
    Parsing.LineShape seen p r ↔
      StartsWithTarget seen r ∧ RequestText r.method ∧ RequestText r.path ∧ 63 ∉ r.path := by
  unfold Parsing.LineShape
  rcases hs : p.state with _ | _ | _ | _ | _ | _ | _ | _ <;> simp_all [inTarget]

/-- Behind the target nothing changes but the bytes read. -/
lemma step_worded_behind {s : Parsing} (c : UInt8) (hin : inTarget s.1.state = false)
    (h : Parsing.LineShape seen s.1 s.2) :
    Parsing.LineShape (seen ++ [c]) (step s c).1.1 (step s c).1.2 := by
  obtain ⟨hstate, hmethod, hpath, hquery⟩ := step_keepsTarget s c hin
  obtain ⟨hstarts, htexts⟩ := (lineShape_behind hin).mp h
  refine (lineShape_behind hstate).mpr ⟨?_, ?_⟩
  · have hnext := hstarts.append [c]
    unfold StartsWithTarget at hnext ⊢
    rwa [hmethod, hpath, hquery]
  · rwa [hmethod, hpath]

/-- One byte keeps the invariant. -/
lemma step_worded (s : Bytes × Parsing) (c : UInt8) (h : Parsing.Worded .more s) :
    Parsing.Worded (track (fun seen _ c => seen ++ [c]) step s c).2
      (track (fun seen _ c => seen ++ [c]) step s c).1 := by
  obtain ⟨seen, p, r⟩ := s
  have hshape : Parsing.LineShape seen p r := h
  clear h
  simp only [track]
  by_cases hin : inTarget p.state = false
  · exact (step_worded_behind (s := (p, r)) c hin hshape).worded _
  · unfold step
    rcases hs : p.state with _ | _ | _ | _ | _ | _ | _ | _ <;> dsimp only <;>
      simp only [Parsing.LineShape, hs] at hshape
    case method =>
      obtain ⟨rfl, hbuf, hquery⟩ := hshape
      unfold stepMethod
      split
      · rename_i hc
        subst hc
        apply Parsing.LineShape.worded
        exact ⟨rfl, hbuf, requestText_nil, by simp, hquery⟩
      · split
        · trivial
        · rcases pushRequestLine_text (r := r) hbuf (not_not.mp ‹_›) with hreject | ⟨heq, htext⟩
          · rw [hreject]
            trivial
          · rw [heq]
            simp [Parsing.Worded, Parsing.LineShape, hs, htext, hquery]
    case path =>
      obtain ⟨rfl, hmethod, hbuf, hmark, hquery⟩ := hshape
      unfold stepPath
      split
      · -- the target has no query
        rename_i hc
        subst hc
        apply Parsing.LineShape.worded
        exact ⟨.inl ⟨hquery, [], by simp⟩, hmethod, hbuf, hmark⟩
      · split
        · rename_i hc
          subst hc
          apply Parsing.LineShape.worded
          exact ⟨by simp, hmethod, hbuf, hmark, requestText_nil⟩
        · rename_i hc
          split
          · trivial
          · rcases pushRequestLine_text (r := r) hbuf (not_not.mp ‹_›) with hreject | ⟨heq, htext⟩
            · rw [hreject]
              trivial
            · rw [heq]
              simp [Parsing.Worded, Parsing.LineShape, hs, htext, hquery, hmethod, hmark,
                Ne.symm hc]
    case query =>
      obtain ⟨rfl, hmethod, hpath, hmark, hbuf⟩ := hshape
      unfold stepQuery
      split
      · rename_i hc
        subst hc
        apply Parsing.LineShape.worded
        exact ⟨.inr ⟨hbuf, [], by simp⟩, hmethod, hpath, hmark⟩
      · split
        · trivial
        · rcases pushRequestLine_text (r := r) hbuf (not_not.mp ‹_›) with hreject | ⟨heq, htext⟩
          · rw [hreject]
            trivial
          · rw [heq]
            simp [Parsing.Worded, Parsing.LineShape, hs, htext, hmethod, hpath, hmark]
    all_goals simp [inTarget, hs] at hin

/-- The target of an accepted request, in the bytes it came in. -/
lemma accepted_target {frags : List Bytes}
    (h : (feedFragments {} {} [] frags).outcome = .complete) :
    StartsWithTarget frags.flatten (feedFragments {} {} [] frags).request ∧
      RequestText (feedFragments {} {} [] frags).request.method ∧
      RequestText (feedFragments {} {} [] frags).request.path ∧
      63 ∉ (feedFragments {} {} [] frags).request.path := by
  obtain ⟨seen, more, hsplit, hshape, hdone⟩ :=
    accepted_invariant step_worded ⟨rfl, requestText_nil, rfl⟩ h
  have hbehind : inTarget (feedFragments {} {} [] frags).parser.state = false := by
    rw [hdone]
    rfl
  obtain ⟨hstarts, htexts⟩ := (lineShape_behind hbehind).mp hshape
  refine ⟨?_, htexts⟩
  rw [hsplit]
  exact hstarts.append more

/-- The second word of the bytes that a request came in. -/
lemma StartsWithTarget.secondWord (h : StartsWithTarget bytes r)
    (hmethod : RequestText r.method) (hpath : RequestText r.path) :
    (r.query = [] ∧ Handler.secondWord bytes = r.path) ∨
      Handler.secondWord bytes = r.path ++ 63 :: r.query := by
  have hm := sp_notMem_requestText hmethod
  have hp := sp_notMem_requestText hpath
  rcases h with ⟨hquery, rest, rfl⟩ | ⟨hquery, rest, rfl⟩
  · exact .inl ⟨hquery, secondWord_words hm hp rest⟩
  · have hq := sp_notMem_requestText hquery
    have hne : sp ≠ 63 := by decide
    exact .inr (secondWord_words hm (by simp [hp, hq, hne]) rest)

/-! ## Reading the forwarded request back -/

/-- A request line without a query, and nothing behind it. -/
def plainLine (method path : Bytes) : WireRequest :=
  { method := method, path := path, query := none, version := ascii "HTTP/1.1"
    before := [], framing := .none, after := [] }

lemma plainLine_wellFormed (hmethod : RequestText method) (hpath : RequestText path)
    (hmark : 63 ∉ path) : (plainLine method path).WellFormed where
  method := hmethod
  path := hpath
  path_mark := hmark
  query := by simp [plainLine]
  version := (by decide +kernel : RequestText (ascii "HTTP/1.1"))
  fields := by simp [plainLine, WireRequest.fields, Framing.field]
  distinct := by simp [plainLine, WireRequest.fields, Framing.field]
  plain := by simp [plainLine]
  block_cap := by
    simp [plainLine, WireRequest.headerBlock, WireRequest.fields, Framing.field, fieldLines,
      maxHeadersSize]
  framing := trivial
  body_cap := by simp [plainLine, Framing.body]

/-- The parser reads the path of a request line back, whatever follows the line. -/
lemma parse_plainLine (hmethod : RequestText method) (hpath : RequestText path)
    (hmark : 63 ∉ path) (rest : Bytes) :
    (({} : HttpParser).parse {} ((plainLine method path).requestLine ++ rest)).request.path = path ∧
      (({} : HttpParser).parse {} ((plainLine method path).requestLine ++ rest)).request.query =
        [] := by
  have hline := leads_requestLine (plainLine_wellFormed hmethod hpath hmark)
  unfold Leads at hline
  have hrest := feed_invariant
    (I := fun _ (s : Parsing) => inTarget s.1.state = false ∧ s.2.path = path ∧ s.2.query = [])
    (s := (({ state := .header }, (plainLine method path).lineRequest) : Parsing))
    (by
      rintro s c ⟨hin, hp, hq⟩
      obtain ⟨hstate, -, hp', hq'⟩ := step_keepsTarget s c hin
      exact ⟨hstate, hp'.trans hp, hq'.trans hq⟩)
    ⟨rfl, rfl, rfl⟩ rest
  have hparse : (({} : HttpParser).parse {} ((plainLine method path).requestLine ++ rest)).request =
      (feed step ({ state := .header }, (plainLine method path).lineRequest)
        rest).state.2 := by
    unfold parse
    rw [feed_append rest (by rw [hline]), hline]
  rw [hparse]
  exact hrest.2

lemma buildRequest_plainLine (p : Params) :
    ∃ rest, buildRequest p = (plainLine p.method p.path).requestLine ++ rest := by
  refine ⟨(message p).fields.flatMap HttpReader.writeField ++ crlf ++ p.body, ?_⟩
  rw [buildRequest_eq_write]
  simp [HttpReader.Message.write, message, plainLine, WireRequest.requestLine,
    WireRequest.queryText]

/-! ## The result -/

/-- The forwarded request asks for what the client asked for: its target is the
path, with the query behind a `?` if the client's target had one, and the parser
reads path and query back from it. -/
structure TargetKept (input forwarded : Bytes) (req : HttpRequest) : Prop where
  target : secondWord forwarded =
    if 63 ∈ secondWord input then req.path ++ 63 :: req.query else req.path
  path : (({} : HttpParser).parse {} forwarded).request.path = req.path
  query : (({} : HttpParser).parse {} forwarded).request.query = req.query

/-- A request is forwarded with its target exactly if the target has no `?`. -/
theorem target_kept_iff (frags : List Bytes) (env : Env) (o : Oracle) (server : UpstreamServer)
    (traceparent : Bytes) (timeoutMs : Int) (maxResponseBytes : Nat) (tls : UpstreamTlsOptions)
    (haccepted : (feedFragments {} {} [] frags).outcome = .complete) :
    TargetKept frags.flatten
        (buildRequest (exchangeParams server
          (dispatched env o (feedFragments {} {} [] frags).request) env.clientIp traceparent
          timeoutMs maxResponseBytes tls))
        (feedFragments {} {} [] frags).request ↔
      63 ∉ secondWord frags.flatten := by
  obtain ⟨hstarts, hmethod, hpath, hmark⟩ := accepted_target haccepted
  generalize (feedFragments {} {} [] frags).request = req at *
  have hinput := hstarts.secondWord hmethod hpath
  -- the handler changes headers only
  have hkeep := dispatched_keeps env o req
  generalize hp : exchangeParams server (dispatched env o req) env.clientIp traceparent timeoutMs
    maxResponseBytes tls = p
  have hpmethod : p.method = req.method := by
    rw [← hp]
    exact hkeep.1
  have hppath : p.path = req.path := by
    rw [← hp]
    exact hkeep.2.1
  obtain ⟨rest, hbuild⟩ := buildRequest_plainLine p
  rw [hbuild, hpmethod, hppath]
  have hforwarded : secondWord ((plainLine req.method req.path).requestLine ++ rest) = req.path := by
    have hbytes : (plainLine req.method req.path).requestLine ++ rest =
        req.method ++ sp :: (req.path ++ sp :: (ascii "HTTP/1.1" ++ crlf ++ rest)) := by
      simp [plainLine, WireRequest.requestLine, WireRequest.queryText]
    rw [hbytes]
    exact secondWord_words (sp_notMem_requestText hmethod) (sp_notMem_requestText hpath) _
  obtain ⟨hback, hquery⟩ := parse_plainLine hmethod hpath hmark rest
  constructor
  · intro hkept hq
    have htarget := hkept.target
    rw [hforwarded, if_pos hq] at htarget
    exact absurd (congrArg List.length htarget) (by simp)
  · intro hq
    rcases hinput with ⟨hnil, htarget⟩ | htarget
    · exact ⟨by rw [hforwarded, if_neg hq], hback, by rw [hquery, hnil]⟩
    · rw [htarget] at hq
      exact absurd hq (by simp)

/-- A target without a query, in two fragments, comes through. -/
theorem target_kept_plain :
    TargetKept [ascii "GET /p HT", ascii "TP/1.1\r\n\r\n"].flatten
      (buildRequest (exchangeParams { host := ascii "10.0.0.1" }
        (dispatched openGateway {} (feedFragments {} {} []
          [ascii "GET /p HT", ascii "TP/1.1\r\n\r\n"]).request) openGateway.clientIp [] 0 0 {}))
      (feedFragments {} {} [] [ascii "GET /p HT", ascii "TP/1.1\r\n\r\n"]).request :=
  (target_kept_iff [ascii "GET /p HT", ascii "TP/1.1\r\n\r\n"] openGateway {}
    { host := ascii "10.0.0.1" } [] 0 0 {} (by decide +kernel)).mpr (by decide +kernel)

/-- The query of an accepted and routed request is lost on the way to the backend. -/
theorem query_dropped :
    (feedFragments {} {} [] [ascii "GET /p?a=1 HTTP/1.1\r\n\r\n"]).outcome = .complete ∧
    (resolveRoute openGateway.routes (prepareRequest {}
      (feedFragments {} {} [] [ascii "GET /p?a=1 HTTP/1.1\r\n\r\n"]).request)).route.isSome ∧
    (feedFragments {} {} [] [ascii "GET /p?a=1 HTTP/1.1\r\n\r\n"]).request.query =
      ascii "a=1" ∧
    (buildRequest (exchangeParams { host := ascii "10.0.0.1" }
      (dispatched openGateway {}
        (feedFragments {} {} [] [ascii "GET /p?a=1 HTTP/1.1\r\n\r\n"]).request)
      openGateway.clientIp [] 0 0 {})).take 17 = ascii "GET /p HTTP/1.1\r\n" ∧
    ¬ TargetKept [ascii "GET /p?a=1 HTTP/1.1\r\n\r\n"].flatten
      (buildRequest (exchangeParams { host := ascii "10.0.0.1" }
        (dispatched openGateway {}
          (feedFragments {} {} [] [ascii "GET /p?a=1 HTTP/1.1\r\n\r\n"]).request)
        openGateway.clientIp [] 0 0 {}))
      (feedFragments {} {} [] [ascii "GET /p?a=1 HTTP/1.1\r\n\r\n"]).request := by
  refine ⟨by decide +kernel, by decide +kernel, by decide +kernel, by decide +kernel, ?_⟩
  intro hkept
  have hquery := hkept.query
  revert hquery
  decide +kernel

end EpollGateway.Handler
