import EpollGateway.Handler.Intake
import EpollGateway.Http.Residue
import Mathlib.Data.List.Chain
import Mathlib.Data.List.Forall2

/-! # Isolation of the requests of a connection

`handle_read` resets the parser after each request it has dispatched, but not the
request: `requests_[sock]` keeps the headers, the query, the body and the trace id
of one request while the next one is parsed into it. So the next request is
dispatched with what it does not overwrite (`stale_key_dispatched`).

The requests of a sequence are isolated when each of them overwrites what the
one before it leaves (`Covers`): `requests_isolated`.
-/

namespace EpollGateway.Handler

open Bytes Feed Http Upstream Machine

/-! ## The property -/

/-- The gateway itself writes the header `n` of a request that arrives as `q`. -/
def GatewayAdds (env : Env) (q : HttpRequest) (n : Bytes) : Prop :=
  (n = traceparentName ∨ n = traceIdName) ∧ q.headers.lookup n = none ∨
    n = routeNameName ∧ (resolveRoute env.routes q).route.isSome = true

/-- The request `d` is dispatched for bytes that, alone, are the request `q`. -/
structure Isolated (env : Env) (q d : HttpRequest) : Prop where
  method : d.method = q.method
  path : d.path = q.path
  version : d.version = q.version
  query : d.query = q.query
  body : d.body = q.body
  headers : ∀ n, ¬ GatewayAdds env q n → d.headers.lookup n = q.headers.lookup n

/-- The request `q'` overwrites everything that `q`, dispatched before it, leaves
behind. -/
structure Covers (env : Env) (q q' : HttpRequest) : Prop where
  inert : q.Inert
  query : q.query = [] ∨ q'.query ≠ []
  headers : ∀ n, (q.headers.lookup n).isSome = true → (q'.headers.lookup n).isSome = true
  traceparent : (q'.headers.lookup traceparentName).isSome = true
  traceId : q'.headers.lookup traceIdName = q.headers.lookup traceIdName
  routeName : (resolveRoute env.routes q).route.isSome = true →
    (q'.headers.lookup routeNameName).isSome = true ∨
      (resolveRoute env.routes q').route.isSome = true

/-! ## What dispatching does to the headers -/

lemma lookup_insertIfAbsent (headers : Headers) (name value n : Bytes) :
    (insertIfAbsent headers name value).lookup n =
      if n = name then some ((headers.lookup name).getD value) else headers.lookup n := by
  unfold insertIfAbsent
  by_cases hn : n = name
  · subst hn
    split
    · rename_i hsome
      obtain ⟨v, hv⟩ := Option.isSome_iff_exists.mp hsome
      simp [hv]
    · rename_i hnone
      simp [Option.not_isSome_iff_eq_none.mp hnone]
  · rw [if_neg hn]
    split
    · rfl
    · exact AList.lookup_insert_ne hn

lemma lookup_prepareRequest (fresh : Fresh) (r : HttpRequest) (n : Bytes) :
    (prepareRequest fresh r).headers.lookup n =
      if n = traceIdName then some (prepareRequest fresh r).traceId
      else if n = traceparentName then some ((r.headers.lookup n).getD fresh.traceparent)
      else r.headers.lookup n := by
  unfold prepareRequest
  dsimp only
  by_cases hid : n = traceIdName
  · subst hid
    simp
  · rw [AList.lookup_insert_ne hid, lookup_insertIfAbsent, if_neg hid]
    by_cases htp : n = traceparentName
    · subst htp
      simp
    · simp [htp]

variable {n part : Bytes} {i : Intake}

lemma lookup_nameRoute (r : HttpRequest) (route : Option RegisteredRoute)
    (hn : n ≠ routeNameName ∨ route = none) :
    (nameRoute r route).headers.lookup n = r.headers.lookup n := by
  cases route with
  | none => rfl
  | some reg => exact AList.lookup_insert_ne (hn.resolve_right (by simp))

lemma nameRoute_frame (r : HttpRequest) (route : Option RegisteredRoute) :
    (nameRoute r route).method = r.method ∧ (nameRoute r route).path = r.path ∧
      (nameRoute r route).version = r.version ∧ (nameRoute r route).query = r.query ∧
      (nameRoute r route).body = r.body ∧ (nameRoute r route).traceId = r.traceId := by
  cases route <;> exact ⟨rfl, rfl, rfl, rfl, rfl, rfl⟩

/-- The route of a request depends on its line and on two headers. -/
lemma resolveRoute_congr (routes : List RegisteredRoute) {a b : HttpRequest}
    (hmethod : a.method = b.method) (hpath : a.path = b.path)
    (hhost : a.headers.lookup (ascii "host") = b.headers.lookup (ascii "host"))
    (htenant : a.headers.lookup (ascii "x-tenant-id") = b.headers.lookup (ascii "x-tenant-id")) :
    resolveRoute routes a = resolveRoute routes b := by
  have hloop : ∀ host tenant matched,
      resolveLoop a host tenant matched routes = resolveLoop b host tenant matched routes := by
    intro host tenant
    induction routes with
    | nil => intro matched; rfl
    | cons reg rest ih =>
      intro matched
      simp only [resolveLoop, hpath, hmethod, ih]
  simp only [resolveRoute, headerOr, hhost, htenant, hloop]

/-! ## A request over a residue -/

/-- The request `q` overwrites the residue `R`. -/
structure Covered (env : Env) (R q : HttpRequest) : Prop where
  inert : R.Inert
  query : R.query = [] ∨ q.query ≠ []
  headers : ∀ n, ¬ GatewayAdds env q n → q.headers.lookup n = none → R.headers.lookup n = none
  traceId : ∀ v, q.headers.lookup traceIdName = some v → R.traceId = [] ∨ R.traceId = v

lemma covered_fresh (env : Env) (q : HttpRequest) : Covered env {} q where
  inert := ⟨rfl, rfl, rfl⟩
  query := .inl rfl
  headers := fun _ _ _ => rfl
  traceId := fun _ _ => .inl rfl

/-- What a dispatched request leaves: the request itself, with its trace id. -/
structure Leaves (env : Env) (q R : HttpRequest) : Prop where
  isolated : Isolated env q R
  traceId : ∀ v, q.headers.lookup traceIdName = some v → R.traceId = v

variable {env : Env} {R q r : HttpRequest} {done rest : List Message}

/-- Only three names are ever written by the gateway. -/
lemma gatewayAdds_name (h : GatewayAdds env q n) :
    n = traceparentName ∨ n = traceIdName ∨ n = routeNameName := by
  rcases h with ⟨h | h, -⟩ | ⟨h, -⟩
  · exact .inl h
  · exact .inr (.inl h)
  · exact .inr (.inr h)

/-- The credentials of an isolated request are its own. -/
lemma Isolated.extractApiKey_eq {d : HttpRequest} (h : Isolated env q d) :
    extractApiKey d = extractApiKey q := by
  have hkey := h.headers (ascii "x-api-key") fun hadd => absurd (gatewayAdds_name hadd) (by decide)
  have hauth := h.headers (ascii "authorization") fun hadd =>
    absurd (gatewayAdds_name hadd) (by decide)
  simp only [extractApiKey, hkey, hauth]

/-- A request covers what its predecessor leaves. -/
lemma Covers.covered {q' : HttpRequest} (h : Covers env q q') (hR : Leaves env q R) :
    Covered env R q' where
  inert :=
    { body := hR.isolated.body.trans h.inert.body
      contentLength :=
        (hR.isolated.headers _ fun hadd => absurd (gatewayAdds_name hadd) (by decide)).trans
          h.inert.contentLength
      transferEncoding :=
        (hR.isolated.headers _ fun hadd => absurd (gatewayAdds_name hadd) (by decide)).trans
          h.inert.transferEncoding }
  query := by
    rw [hR.isolated.query]
    exact h.query
  headers := by
    intro n hadd hnone
    have hq : q.headers.lookup n = none := by
      by_contra hsome
      have := h.headers n (Option.isSome_iff_ne_none.mpr hsome)
      simp [hnone] at this
    rw [← hq]
    refine hR.isolated.headers n ?_
    -- a header that the gateway wrote for `q` is carried by `q'`, or written again
    rintro (⟨rfl | rfl, -⟩ | ⟨rfl, hroute⟩)
    · have := h.traceparent
      simp [hnone] at this
    · exact hadd (.inl ⟨.inr rfl, hnone⟩)
    · rcases h.routeName hroute with hcarried | hrouted
      · simp [hnone] at hcarried
      · exact hadd (.inr ⟨rfl, hrouted⟩)
  traceId := by
    intro v hv
    rw [h.traceId] at hv
    exact .inr (hR.traceId v hv)

/-- The headers of a request laid over a residue that it covers. -/
lemma Covered.lookup (h : Covered env R q) (hr : Overlay R r q) (hadd : ¬ GatewayAdds env q n) :
    r.headers.lookup n = q.headers.lookup n := by
  rw [hr.headers n]
  cases hq : q.headers.lookup n with
  | some v => rfl
  | none => simp [h.headers n hadd hq]

lemma Covered.traceId_eq (h : Covered env R q) (hr : Overlay R r q) (fresh : Fresh) {v : Bytes}
    (hv : q.headers.lookup traceIdName = some v) : (prepareRequest fresh r).traceId = v := by
  have hlook : r.headers.lookup traceIdName = some v := by
    rw [hr.headers, hv]
    rfl
  unfold prepareRequest
  dsimp only
  rw [hr.traceId]
  split
  · simp [chooseTraceId, hlook]
  · rename_i hne
    exact (h.traceId v hv).resolve_left hne

/-- A request that covers the residue it is laid over is dispatched as it
arrived. -/
lemma Covered.leaves (h : Covered env R q) (hr : Overlay R r q) (o : Oracle) :
    Leaves env q (dispatched env o r) := by
  have hplain : ∀ n, n ≠ traceIdName → n ≠ traceparentName → ¬ GatewayAdds env q n →
      (prepareRequest o.fresh r).headers.lookup n = q.headers.lookup n := by
    intro n hid htp hadd
    rw [lookup_prepareRequest, if_neg hid, if_neg htp, h.lookup hr hadd]
  have hnamed : ∀ n, n ∉ [traceparentName, traceIdName, routeNameName] → ¬ GatewayAdds env q n := by
    intro n hn hadd
    simp only [List.mem_cons, List.not_mem_nil, or_false] at hn
    exact hn (gatewayAdds_name hadd)
  have hroute : resolveRoute env.routes (prepareRequest o.fresh r) = resolveRoute env.routes q :=
    resolveRoute_congr env.routes hr.method hr.path
      (hplain _ (by decide) (by decide) (hnamed _ (by decide)))
      (hplain _ (by decide) (by decide) (hnamed _ (by decide)))
  have hquery : r.query = q.query := by
    rcases hr.query with heq | ⟨hres, hnil⟩
    · exact heq
    · rcases h.query with hR | hne
      · rw [hres, hR, hnil]
      · exact absurd hnil hne
  obtain ⟨hm, hp, hv, hq, hb, ht⟩ := nameRoute_frame (prepareRequest o.fresh r)
    (resolveRoute env.routes (prepareRequest o.fresh r)).route
  refine ⟨⟨hm.trans hr.method, hp.trans hr.path, hv.trans hr.version, hq.trans hquery,
    hb.trans hr.body, ?_⟩, fun v hv => ht.trans (h.traceId_eq hr o.fresh hv)⟩
  intro n hadd
  have hnr : n ≠ routeNameName ∨
      (resolveRoute env.routes (prepareRequest o.fresh r)).route = none := by
    rw [hroute]
    by_contra hcon
    simp only [not_or, not_not] at hcon
    exact hadd (.inr ⟨hcon.1, Option.isSome_iff_ne_none.mpr hcon.2⟩)
  rw [dispatched, lookup_nameRoute _ _ hnr]
  by_cases hid : n = traceIdName
  · subst hid
    cases hlook : q.headers.lookup traceIdName with
    | none => exact absurd (.inl ⟨.inr rfl, hlook⟩) hadd
    | some v => rw [lookup_prepareRequest, if_pos rfl, h.traceId_eq hr o.fresh hlook]
  · by_cases htp : n = traceparentName
    · subst htp
      cases hlook : q.headers.lookup traceparentName with
      | none => exact absurd (.inl ⟨.inl rfl, hlook⟩) hadd
      | some v =>
        rw [lookup_prepareRequest, if_neg hid, if_pos rfl, hr.headers, hlook]
        rfl
    · exact hplain n hid htp hadd

/-! ## The run -/

/-- An entry of the history that belongs to a message: its request and the key
that is checked for it. -/
def DispatchedFor (env : Env) (m : Message) (t : Taken) : Prop :=
  ∃ d, t = .request d ∧ Isolated env m.request d ∧ extractApiKey d = extractApiKey m.request

/-- The residue behind the last of the messages `done`. -/
def ResidueOf (env : Env) (done : List Message) (R : HttpRequest) : Prop :=
  match done.getLast? with
  | none => R = {}
  | some m => Leaves env m.request R

/-- The messages `done` have been dispatched; of `rest`, the parser has read
`part`, into the residue of `done`. -/
structure Reading (env : Env) (done rest : List Message) (R : HttpRequest) (part : Bytes)
    (i : Intake) : Prop where
  entries : List.Forall₂ (DispatchedFor env) done i.taken
  residue : ResidueOf env done R
  parsed : Leads HttpParser.step ({}, R) part (i.parser, i.request)
  received : i.received = (done.map Message.bytes).flatten ++ (part ++ i.readBuf)

/-- The next message covers the residue. -/
lemma ResidueOf.covered {m : Message} (h : ResidueOf env done R)
    (hchain : (done ++ m :: rest).IsChain fun a b => Covers env a.request b.request) :
    Covered env R m.request := by
  unfold ResidueOf at h
  cases hlast : done.getLast? with
  | none =>
    rw [hlast] at h
    have h' : R = {} := h
    subst h'
    exact covered_fresh env m.request
  | some a =>
    rw [hlast] at h
    have hcov := (List.isChain_append.mp hchain).2.2 a hlast m rfl
    exact hcov.covered h

lemma Reading.receive (h : Reading env done rest R part i) (b : Bytes) :
    Reading env done rest R part (i.receive b) :=
  ⟨h.entries, h.residue, h.parsed, by simp [Intake.receive, h.received]⟩

/-- `parse` over a buffer continues the run over the part already read. -/
lemma Reading.feed_buffer (h : Reading env done rest R part i) :
    feed HttpParser.step ({}, R) (part ++ i.readBuf) =
      ⟨(feed HttpParser.step (i.parser, i.request) i.readBuf).state,
        (feed HttpParser.step (i.parser, i.request) i.readBuf).flow,
        part.length + (feed HttpParser.step (i.parser, i.request) i.readBuf).used⟩ := by
  have hpart := h.parsed
  unfold Leads at hpart
  rw [feed_append i.readBuf (by rw [hpart]), hpart]

/-- The buffer completes a message. -/
lemma Reading.parse_message {o : Oracle} {m : Message} {more : Bytes}
    (h : Reading env done (m :: rest) R part i) (hcov : Covered env R m.request)
    (hbuf : part ++ i.readBuf = m.bytes ++ more) :
    ∃ R', Reading env (done ++ [m]) rest R' [] (i.parse env o) := by
  obtain ⟨hflow, hused, hover⟩ := m.feed_append hcov.inert more
  rw [← hbuf, h.feed_buffer] at hflow hused hover
  dsimp only at hflow hused hover
  have hcomplete : (i.parser.parse i.request i.readBuf).complete = true := by
    simp [HttpParser.parse, hflow]
  have hrest : i.readBuf.drop (i.parser.parse i.request i.readBuf).consumed = more := by
    have hdrop := congrArg (List.drop m.bytes.length) hbuf
    rw [List.drop_left, ← hused, List.drop_append, List.drop_eq_nil_of_le (by omega),
      List.nil_append, Nat.add_sub_cancel_left] at hdrop
    exact hdrop
  have hleaves : Leaves env m.request
      (dispatched env o (i.parser.parse i.request i.readBuf).request) := hcov.leaves hover o
  rw [Intake.parse_complete hcomplete, hrest]
  refine ⟨dispatched env o (i.parser.parse i.request i.readBuf).request, ?_, ?_, Leads.nil _, ?_⟩
  · exact List.rel_append h.entries
      (List.Forall₂.cons ⟨_, rfl, hleaves.isolated, hleaves.isolated.extractApiKey_eq⟩
        List.Forall₂.nil)
  · simpa [ResidueOf] using hleaves
  · simp [Intake.complete, h.received, hbuf]

/-- The buffer does not complete a message. -/
lemma Reading.parse_part {o : Oracle} (h : Reading env done rest R part i)
    (hmore : (feed HttpParser.step ({}, R) (part ++ i.readBuf)).flow = .more) :
    Reading env done rest R (part ++ i.readBuf) (i.parse env o) := by
  have hfits := feed_fits (s := ({}, R)) healthy_fresh (part ++ i.readBuf)
  have hused := used_of_more hmore
  have hfeed := h.feed_buffer
  rw [hmore] at hfits
  rw [hfeed] at hmore hfits hused
  dsimp only at hmore hfits hused
  rw [List.length_append] at hused
  have hcomplete : ¬ (i.parser.parse i.request i.readBuf).complete = true := by
    simp [HttpParser.parse, hmore]
  have hrest : i.readBuf.drop (i.parser.parse i.request i.readBuf).consumed = [] :=
    List.drop_eq_nil_of_le (by simp only [HttpParser.parse]; omega)
  rw [Intake.parse_wait hcomplete (not_not.mpr hfits.2), hrest]
  refine ⟨h.entries, h.residue, ?_, by simp [h.received]⟩
  unfold Leads
  rw [hfeed, hmore, hused, List.length_append]
  rfl

/-- One pass of the parser over a sequence of messages. -/
lemma Reading.parse {o : Oracle} (h : Reading env done rest R part i)
    (hchain : (done ++ rest).IsChain fun a b => Covers env a.request b.request)
    (hbuf : part ++ i.readBuf <+: (rest.map Message.bytes).flatten) :
    ∃ done' rest' R' part', done' ++ rest' = done ++ rest ∧
      Reading env done' rest' R' part' (i.parse env o) := by
  cases rest with
  | nil =>
    have hnil : part ++ i.readBuf = [] := List.prefix_nil.mp hbuf
    exact ⟨done, [], R, _, rfl, h.parse_part (by rw [hnil]; rfl)⟩
  | cons m rest =>
    have hcov := h.residue.covered hchain
    rw [List.map_cons, List.flatten_cons] at hbuf
    by_cases hwhole : m.bytes <+: part ++ i.readBuf
    · obtain ⟨more, hmore⟩ := hwhole
      obtain ⟨R', h'⟩ := h.parse_message (o := o) hcov hmore.symm
      exact ⟨done ++ [m], rest, R', [], by simp, h'⟩
    · have hpart : part ++ i.readBuf <+: m.bytes :=
        (List.prefix_or_prefix_of_prefix hbuf (List.prefix_append _ _)).resolve_right hwhole
      have hne : part ++ i.readBuf ≠ m.bytes := fun heq => hwhole (heq ▸ List.prefix_rfl)
      exact ⟨done, m :: rest, R, _, rfl, h.parse_part (m.feed_part hcov.inert hpart hne)⟩

lemma Intake.received_parse (env : Env) (o : Oracle) (i : Intake) :
    (i.parse env o).received = i.received := by
  unfold Intake.parse
  dsimp only
  split
  · rfl
  · split <;> rfl

/-- **Isolation of covered requests.** A connection receives the bytes of a
sequence of messages, in any fragments and interleaved with anything else. If
each message covers its predecessor, each one that is dispatched is dispatched as
a fresh parser reads it, and none is refused. -/
theorem requests_isolated {env : Env} {ms : List Message}
    (hchain : ms.IsChain fun a b => Covers env a.request b.request) {mgr : UpstreamManager}
    {ls : List SoloLabel} {s : Sys} (hrun : Run (soloStep env) Any ⟨mgr, {}⟩ ls s)
    (hreceived : s.conn.hist.received <+: (ms.map Message.bytes).flatten) :
    List.Forall₂ (DispatchedFor env) (ms.take s.conn.hist.taken.length) s.conn.hist.taken := by
  let I (i : Intake) : Prop := i.received <+: (ms.map Message.bytes).flatten →
    ∃ done rest R part, done ++ rest = ms ∧ Reading env done rest R part i
  refine run_intake (I := I) (P := fun received taken =>
    received <+: (ms.map Message.bytes).flatten →
      List.Forall₂ (DispatchedFor env) (ms.take taken.length) taken) ?_ hrun ?_ ?_ hreceived
  · intro i hI hrec
    obtain ⟨done, rest, R, part, rfl, h⟩ := hI hrec
    rw [← h.entries.length_eq, List.take_left]
    exact h.entries
  · intro _
    exact ⟨[], ms, {}, [], rfl, List.Forall₂.nil, rfl, Leads.nil _, rfl⟩
  · intro u l hI _
    cases l with
    | recv r =>
      cases r with
      | data b =>
        intro hrec
        obtain ⟨done, rest, R, part, hms, h⟩ := hI ((List.prefix_append _ _).trans hrec)
        exact ⟨done, rest, R, part, hms, h.receive b⟩
      | _ => exact hI
    | parse o =>
      intro hrec
      rw [Intake.next, Intake.received_parse] at hrec
      obtain ⟨done, rest, R, part, hms, h⟩ := hI hrec
      rw [h.received, ← hms, List.map_append, List.flatten_append,
        List.prefix_append_right_inj] at hrec
      rw [← hms] at hchain
      obtain ⟨done', rest', R', part', heq, h'⟩ := h.parse hchain hrec
      exact ⟨done', rest', R', part', heq.trans hms, h'⟩
    | _ => exact hI

/-! ## Two sequences -/

/-- A message, read off the parser. -/
def Message.ofBytes (b : Bytes) (hflow : (feed HttpParser.step ({}, {}) b).flow = .accept)
    (hused : (feed HttpParser.step ({}, {}) b).used = b.length) : Message where
  bytes := b
  request := (feed HttpParser.step ({}, {}) b).state.2
  yields := ⟨(feed HttpParser.step ({}, {}) b).state.1, by
    unfold Accepts
    rw [← hflow, ← hused]⟩

/-- A request with a key, and two that follow it: one that overwrites what the
first one leaves, and one that does not. -/
def keyedMessage : Message :=
  Message.ofBytes (ascii "GET /a HTTP/1.1\r\nX-Api-Key: k\r\n\r\n") (by decide +kernel)
    (by decide +kernel)

def coveringMessage : Message :=
  Message.ofBytes (ascii "GET /b HTTP/1.1\r\nX-Api-Key: l\r\nTraceparent: 00-1-2-01\r\n\r\n")
    (by decide +kernel) (by decide +kernel)

def anonymousMessage : Message :=
  Message.ofBytes (ascii "GET /b HTTP/1.1\r\n\r\n") (by decide +kernel) (by decide +kernel)

/-- One activation that reads two messages at once and parses both. -/
def readBoth (a b : Message) : List SoloLabel :=
  [.own (.event .readable), .own (.recv (.data (a.bytes ++ b.bytes))), .own (.parse {}),
    .own (.parse {})]

lemma keyed_covers : Covers bareEnv keyedMessage.request coveringMessage.request where
  inert := ⟨by decide +kernel, by decide +kernel, by decide +kernel⟩
  query := .inl (by decide +kernel)
  headers := by
    intro n hn
    have hkeys : ∀ k ∈ keyedMessage.request.headers.keys,
        (coveringMessage.request.headers.lookup k).isSome = true := by decide +kernel
    exact hkeys n (AList.mem_keys.mpr (AList.lookup_isSome.mp hn))
  traceparent := by decide +kernel
  traceId := by decide +kernel
  routeName := fun h => by simp [bareEnv, resolveRoute, resolveLoop] at h

theorem requests_isolated_keyed :
    ∃ s, Run (soloStep bareEnv) Any ⟨noUpstreams, {}⟩ (readBoth keyedMessage coveringMessage) s ∧
      List.Forall₂ (DispatchedFor bareEnv) [keyedMessage, coveringMessage] s.conn.hist.taken := by
  obtain ⟨s, hrun, heq⟩ :
      ∃ s, Run (soloStep bareEnv) Any ⟨noUpstreams, {}⟩ (readBoth keyedMessage coveringMessage) s ∧
        (s.conn.hist.received, s.conn.hist.taken.length) =
          (keyedMessage.bytes ++ coveringMessage.bytes, 2) :=
    exists_run_of_exec (by decide +kernel)
  obtain ⟨hreceived, htaken⟩ := Prod.mk.inj heq
  have hisolated := requests_isolated (List.isChain_pair.mpr keyed_covers) hrun
    (by simp [hreceived])
  rw [htaken] at hisolated
  exact ⟨s, hrun, hisolated⟩

/-- The key that is checked for an entry of the history. -/
def Taken.key : Taken → Bytes
  | .request d => extractApiKey d
  | .refusal _ => []

lemma keys_of_dispatchedFor {ms : List Message} {taken : List Taken}
    (h : List.Forall₂ (DispatchedFor env) ms taken) :
    taken.map Taken.key = ms.map fun m => extractApiKey m.request := by
  induction h with
  | nil => rfl
  | cons hd _ ih =>
    obtain ⟨d, rfl, -, hkey⟩ := hd
    simp [Taken.key, hkey, ih]

/-- The second request has no key, and is dispatched with the key of the first. -/
theorem stale_key_dispatched :
    ∃ s, Run (soloStep bareEnv) Any ⟨noUpstreams, {}⟩ (readBoth keyedMessage anonymousMessage) s ∧
      s.conn.hist.received = keyedMessage.bytes ++ anonymousMessage.bytes ∧
      extractApiKey anonymousMessage.request = [] ∧
      s.conn.hist.taken.map Taken.key = [ascii "k", ascii "k"] ∧
      ¬ List.Forall₂ (DispatchedFor bareEnv) [keyedMessage, anonymousMessage]
        s.conn.hist.taken := by
  obtain ⟨s, hrun, heq⟩ :
      ∃ s, Run (soloStep bareEnv) Any ⟨noUpstreams, {}⟩ (readBoth keyedMessage anonymousMessage) s ∧
        (s.conn.hist.received, s.conn.hist.taken.map Taken.key) =
          (keyedMessage.bytes ++ anonymousMessage.bytes, [ascii "k", ascii "k"]) :=
    exists_run_of_exec (by decide +kernel)
  obtain ⟨hreceived, hkeys⟩ := Prod.mk.inj heq
  have hown : extractApiKey anonymousMessage.request = [] := by decide +kernel
  refine ⟨s, hrun, hreceived, hown, hkeys, ?_⟩
  intro hall
  have hmap := keys_of_dispatchedFor hall
  rw [hkeys] at hmap
  simp [hown, ascii] at hmap

end EpollGateway.Handler
