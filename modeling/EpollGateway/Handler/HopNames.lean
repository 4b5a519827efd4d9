import EpollGateway.Handler.ClientHead
import EpollGateway.Http.RequestFields

/-! # Headers named in Connection

A Connection header names further headers that belong to one hop only. The gateway
reads it on both sides, and on both sides it reads it out of a map: of the client's
Connection lines the last one counts, because the parser stores the others away; of
a backend's lines the last one of the spelling that comes first in byte order,
because `std::map` tells spellings apart and the search stops at the first that fits.

A header that one of the other lines names crosses the gateway. `connection_named_iff`
says when none does.
-/

namespace EpollGateway.Handler

open Bytes Http Upstream

/-! ## From a client to a backend -/

/-- Every header of the client that one of its Connection lines names is named in
the last one. -/
def LastLineNames (fields : List (Bytes × Bytes)) : Prop :=
  ∀ f ∈ fields, isHopByHopHeader f.1 = false → f.1 ∈ connectionNames fields →
    ∃ value, Fields.lastValue fields (ascii "connection") = some value ∧ f.1 ∈ listElements value

/-- No header of the client that one of its Connection lines names is passed on. -/
def RequestNamesStay (fields forwarded : List (Bytes × Bytes)) : Prop :=
  ∀ f ∈ fields, f.1 ∈ connectionNames fields → ∀ g ∈ forwarded, lower g.1 ≠ f.1

variable {h h' headers : Headers}

lemma mem_connectionTokens {name : Bytes} :
    name ∈ connectionTokens headers ↔
      ∃ value, headers.lookup (ascii "connection") = some value ∧ name ∈ listElements value := by
  unfold connectionTokens
  split
  · rename_i hnone
    simp [hnone]
  · rename_i value hvalue
    rw [hvalue]
    constructor
    · intro hname
      exact ⟨value, rfl, hname⟩
    · rintro ⟨w, hw, hname⟩
      cases hw
      exact hname

/-- A map with at least the names of another one, and with its Connection. -/
structure Grown (h h' : Headers) : Prop where
  names : ∀ k, (h.lookup k).isSome → (h'.lookup k).isSome
  connection : h'.lookup (ascii "connection") = h.lookup (ascii "connection")

lemma Grown.refl (h : Headers) : Grown h h := ⟨fun _ hk => hk, rfl⟩

lemma Grown.insert (hg : Grown h h') {name : Bytes} (value : Bytes)
    (hname : ascii "connection" ≠ name) : Grown h (h'.insert name value) := by
  constructor
  · intro k hk
    by_cases heq : k = name
    · subst heq
      simp [AList.lookup_insert]
    · rw [AList.lookup_insert_ne heq]
      exact hg.names k hk
  · rw [AList.lookup_insert_ne hname]
    exact hg.connection

lemma Grown.insertIfAbsent (hg : Grown h h') {name : Bytes} (value : Bytes)
    (hname : ascii "connection" ≠ name) : Grown h (insertIfAbsent h' name value) := by
  unfold Handler.insertIfAbsent
  split
  · exact hg
  · exact hg.insert value hname

lemma connection_notAdded (name : Bytes) (h : name ∈ addedNames) : ascii "connection" ≠ name := by
  have hall : ∀ name ∈ addedNames, ascii "connection" ≠ name := by decide +kernel
  exact hall name h

lemma Grown.injectForwardedHeaders (hg : Grown h h') (clientIp : Bytes) :
    Grown h (injectForwardedHeaders h' clientIp) := by
  have hfor := connection_notAdded (ascii "x-forwarded-for") (by simp [addedNames])
  have hreal := connection_notAdded (ascii "x-real-ip") (by simp [addedNames])
  have hproto := connection_notAdded (ascii "x-forwarded-proto") (by simp [addedNames])
  have hhost := connection_notAdded (ascii "x-forwarded-host") (by simp [addedNames])
  have hclient : ∀ forwardedFor, Grown h (if clientIp = [] then h'
      else (h'.insert (ascii "x-forwarded-for") forwardedFor).insert
        (ascii "x-real-ip") clientIp) := by
    intro forwardedFor
    split
    · exact hg
    · exact (hg.insert _ hfor).insert _ hreal
  unfold Handler.injectForwardedHeaders
  dsimp only
  split
  · split
    · exact (hclient _).insert _ hproto
    · exact ((hclient _).insert _ hproto).insert _ hhost
  · exact (hclient _).insert _ hproto

/-- On its way to the backend a request gets headers and loses none. -/
lemma exchangeParams_grown (env : Env) (o : Oracle) (server : UpstreamServer) (req : HttpRequest)
    (clientIp traceparent : Bytes) (timeoutMs : Int) (maxResponseBytes : Nat)
    (tls : UpstreamTlsOptions) :
    Grown req.headers
      (exchangeParams server (dispatched env o req) clientIp traceparent timeoutMs maxResponseBytes
        tls).headers := by
  have hparent := connection_notAdded traceparentName (by simp [addedNames])
  have hid := connection_notAdded traceIdName (by simp [addedNames])
  have hroute := connection_notAdded routeNameName (by simp [addedNames])
  have hprepared : Grown req.headers (prepareRequest o.fresh req).headers :=
    ((Grown.refl req.headers).insertIfAbsent _ hparent).insert _ hid
  have hdispatched : Grown req.headers (dispatched env o req).headers := by
    unfold dispatched nameRoute
    split
    · exact hprepared
    · exact hprepared.insert _ hroute
  exact (hdispatched.insertIfAbsent _ hparent).injectForwardedHeaders clientIp

/-- The names of the header lines are in lower case. -/
lemma lower_requestFields {input : Bytes} {f : Bytes × Bytes} (h : f ∈ requestFields input) :
    lower f.1 = f.1 := by
  unfold requestFields at h
  split at h
  · cases h
  · obtain ⟨line, -, hline⟩ := List.mem_filterMap.mp h
    exact (splitHeaderLine_clean hline).1.lower_case

/-- The headers of a client that its Connection lines name stay behind, exactly if
the last line names them all. -/
lemma requestNamesStay_iff {input : Bytes} {forwarded : Headers}
    (hfields : ∀ k, headers.lookup k = Fields.lastValue (requestFields input) k)
    (hgrown : Grown headers forwarded) :
    RequestNamesStay (requestFields input) (forwardedEntries forwarded) ↔
      LastLineNames (requestFields input) := by
  have htokens : ∀ name, name ∈ connectionTokens forwarded ↔
      ∃ value, Fields.lastValue (requestFields input) (ascii "connection") = some value ∧
        name ∈ listElements value := by
    intro name
    rw [mem_connectionTokens, hgrown.connection, hfields]
  constructor
  · intro hstay f hf hhop hnamed
    by_contra hnot
    -- a header that the last line does not name is passed on
    obtain ⟨v, hv⟩ := Fields.lastValue_isSome hf
    have hthere : (forwarded.lookup f.1).isSome :=
      hgrown.names f.1 (by rw [hfields, hv]; rfl)
    obtain ⟨w, hw⟩ := Option.isSome_iff_exists.mp hthere
    have hlower := lower_requestFields hf
    refine hstay f hf hnamed (f.1, w) (mem_forwardedEntries.mpr ⟨hw, ?_, ?_⟩) hlower
    · rwa [hlower]
    · rw [hlower, htokens]
      exact hnot
  · intro hlast f hf hnamed g hg heq
    obtain ⟨-, hhop, htoken⟩ := mem_forwardedEntries.mp hg
    rw [heq] at hhop htoken
    exact htoken ((htokens f.1).mpr (hlast f hf hhop hnamed))

/-! ## From a backend to a client -/

/-- Every header that could go through to the client and that a Connection line of
the backend names is named in the line that counts. -/
def CountedLineNames (fields : List (Bytes × Bytes)) : Prop :=
  ∀ k v, Fields.lastValue fields k = some v → Unbroken k → Unbroken v →
    lower k ∉ responseHopByHop → lower k ∈ connectionNames fields →
    ∃ value, Counts fields value ∧ lower k ∈ listElements value

/-- No header that a Connection line of the backend names is relayed. -/
def ResponseNamesStay (fields relayed : List (Bytes × Bytes)) : Prop :=
  ∀ f ∈ relayed, lower f.1 ∉ connectionNames fields

/-- The headers of a backend that its Connection lines name stay behind, exactly if
the line that counts names them all. -/
lemma responseNamesStay_iff (headersPart : Bytes) :
    ResponseNamesStay (headFields headersPart) (relayedHeaders (parseHeaders headersPart)) ↔
      CountedLineNames (headFields headersPart) := by
  constructor
  · intro hstay k v hlast hname hvalue hhop hnamed
    by_contra hnot
    refine hstay (k, v) (mem_relayedHeaders.mpr ⟨mem_parseHeaders.mpr hlast, hname, hvalue, hhop, ?_⟩)
      hnamed
    rw [mem_responseConnectionTokens]
    exact hnot
  · intro hcounted f hf hnamed
    obtain ⟨hmem, hname, hvalue, hhop, htoken⟩ := mem_relayedHeaders.mp hf
    rw [mem_responseConnectionTokens] at htoken
    exact htoken (hcounted f.1 f.2 (mem_parseHeaders.mp hmem) hname hvalue hhop hnamed)

/-! ## Both directions -/

/-- Headers named in Connection do not cross the gateway: not those of an accepted
request, and not those of a response that an exchange has read, exactly if on both
sides the line that counts names them all. -/
theorem connection_named_iff (frags : List Bytes) (env : Env) (o : Oracle)
    (server : UpstreamServer) (traceparent : Bytes) (timeoutMs : Int) (maxResponseBytes : Nat)
    (tls : UpstreamTlsOptions) (x : Exchange)
    (haccepted : (feedFragments {} {} [] frags).outcome = .complete)
    (hok : x.finishOk.succeeded = true) :
    (RequestNamesStay (requestFields frags.flatten)
        (forwardedEntries (exchangeParams server
          (dispatched env o (feedFragments {} {} [] frags).request) env.clientIp traceparent
          timeoutMs maxResponseBytes tls).headers) ∧
      ResponseNamesStay (headFields (responseHead x)) (relayedHeaders x.finishOk.result.headers)) ↔
    LastLineNames (requestFields frags.flatten) ∧ CountedLineNames (headFields (responseHead x)) := by
  rw [finishOk_headers hok, responseNamesStay_iff,
    requestNamesStay_iff (lookup_requestFields haccepted)
      (exchangeParams_grown env o server _ _ _ _ _ _)]

/-- A header of one hop on each side, named in the only Connection line there. -/
def namingRequest : Bytes := ascii "GET /p HTTP/1.1\r\nConnection: x-a\r\nX-A: 1\r\n\r\n"

def namingResponse : Bytes :=
  ascii "HTTP/1.1 200 OK\r\nConnection: X-B\r\nX-B: 1\r\nContent-Length: 0\r\n\r\n"

theorem connection_named_single :
    RequestNamesStay (requestFields [namingRequest].flatten)
        (forwardedEntries (exchangeParams { host := ascii "10.0.0.1" }
          (dispatched openGateway {} (feedFragments {} {} [] [namingRequest]).request)
          openGateway.clientIp [] 0 0 {}).headers) ∧
      ResponseNamesStay (headFields (responseHead (received namingResponse)))
        (relayedHeaders (received namingResponse).finishOk.result.headers) := by
  have hrequest : ∀ name ∈ connectionNames (requestFields [namingRequest].flatten),
      name ∈ listElements (ascii "x-a") := by decide +kernel
  have hresponse : ∀ name ∈ connectionNames (headFields (responseHead (received namingResponse))),
      name ∈ listElements (ascii "X-B") := by decide +kernel
  have hspelling : ∀ f ∈ headFields (responseHead (received namingResponse)),
      lower f.1 = ascii "connection" → ¬ f.1 < ascii "Connection" := by decide +kernel
  have hcounts : Counts (headFields (responseHead (received namingResponse))) (ascii "X-B") :=
    ⟨ascii "Connection", by decide +kernel, by decide +kernel,
      fun name' value' hconn hlast => hspelling _ (Fields.mem_of_lastValue hlast) hconn⟩
  exact (connection_named_iff [namingRequest] openGateway {} { host := ascii "10.0.0.1" } [] 0 0 {}
    (received namingResponse) (by decide +kernel) (by decide +kernel)).mpr
    ⟨fun f _ _ hnamed => ⟨ascii "x-a", by decide +kernel, hrequest f.1 hnamed⟩,
      fun k _ _ _ _ _ hnamed => ⟨ascii "X-B", hcounts, hresponse (lower k) hnamed⟩⟩

/-- Two Connection lines, of which the gateway reads one. -/
def splitRequest : Bytes :=
  ascii "GET /p HTTP/1.1\r\nConnection: X-A\r\nConnection: keep-alive\r\nX-A: 1\r\n\r\n"

def splitResponse : Bytes :=
  ascii "HTTP/1.1 200 OK\r\nConnection: close\r\nconnection: X-B\r\nX-B: 1\r\nContent-Length: 0\r\n\r\n"

/-- Headers that the other line names cross in both directions. -/
theorem named_header_crosses :
    (feedFragments {} {} [] [splitRequest]).outcome = .complete ∧
    (ascii "x-a", ascii "1") ∈
      forwardedEntries (exchangeParams { host := ascii "10.0.0.1" }
        (dispatched openGateway {} (feedFragments {} {} [] [splitRequest]).request)
        openGateway.clientIp [] 0 0 {}).headers ∧
    (received splitResponse).tryFrame.2 = .complete ∧
    (received splitResponse).tryFrame.1.finishOk.succeeded = true ∧
    (ascii "X-B", ascii "1") ∈
      relayedHeaders (received splitResponse).tryFrame.1.finishOk.result.headers ∧
    ¬ RequestNamesStay (requestFields [splitRequest].flatten)
        (forwardedEntries (exchangeParams { host := ascii "10.0.0.1" }
          (dispatched openGateway {} (feedFragments {} {} [] [splitRequest]).request)
          openGateway.clientIp [] 0 0 {}).headers) ∧
    ¬ ResponseNamesStay (headFields (responseHead (received splitResponse)))
        (relayedHeaders (received splitResponse).tryFrame.1.finishOk.result.headers) := by
  have hforwarded : (ascii "x-a", ascii "1") ∈
      forwardedEntries (exchangeParams { host := ascii "10.0.0.1" }
        (dispatched openGateway {} (feedFragments {} {} [] [splitRequest]).request)
        openGateway.clientIp [] 0 0 {}).headers := by decide +kernel
  have hrelayed : (ascii "X-B", ascii "1") ∈
      relayedHeaders (received splitResponse).tryFrame.1.finishOk.result.headers := by
    decide +kernel
  refine ⟨by decide +kernel, hforwarded, by decide +kernel, by decide +kernel, hrelayed, ?_, ?_⟩
  · intro hstay
    exact hstay (ascii "x-a", ascii "1") (by decide +kernel) (by decide +kernel) _ hforwarded
      (by decide +kernel)
  · intro hstay
    exact hstay _ hrelayed (by decide +kernel)

end EpollGateway.Handler
