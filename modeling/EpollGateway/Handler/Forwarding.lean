import EpollGateway.Handler.Dispatch
import EpollGateway.Http.Accepted
import EpollGateway.Lib.HttpReader
import EpollGateway.Upstream.Request

/-! # The request that a backend sees

From a parsed request to the bytes on the backend connection: the handler adds the
trace and route headers, `start_upstream_exchange` adds the forwarding headers, and
`build_request` drops the headers of the client's hop and writes the rest.

The reader at the other end is `HttpReader`. What the parser lets through is clean
enough for it, and every header that the gateway adds is too, so a forwarded request
is one message; the exception is a request with an empty target.
-/

namespace EpollGateway.Handler

open Bytes Http Upstream HttpReader

/-! ## Parameters of an exchange -/

/-- `inject_forwarded_headers`. -/
def injectForwardedHeaders (headers : Headers) (clientIp : Bytes) : Headers :=
  let headers :=
    if clientIp = [] then headers
    else
      let forwardedFor :=
        match headers.lookup (ascii "x-forwarded-for") with
        | some xff => xff ++ ascii ", " ++ clientIp
        | none => clientIp
      (headers.insert (ascii "x-forwarded-for") forwardedFor).insert (ascii "x-real-ip") clientIp
  let headers := headers.insert (ascii "x-forwarded-proto") (ascii "https")
  match headers.lookup (ascii "host") with
  | some host => if host = [] then headers else headers.insert (ascii "x-forwarded-host") host
  | none => headers

/-- The parameters that `start_upstream_exchange` builds; `traceparent` is a
generated value, the limits are those of the route and of the configuration. -/
def exchangeParams (server : UpstreamServer) (req : HttpRequest) (clientIp traceparent : Bytes)
    (timeoutMs : Int) (maxResponseBytes : Nat) (tls : UpstreamTlsOptions) : Params :=
  { host := server.host
    port := server.port
    method := req.method
    path := req.path
    headers := injectForwardedHeaders (insertIfAbsent req.headers traceparentName traceparent)
      clientIp
    body := req.body
    timeoutMs := timeoutMs
    maxResponseBytes := maxResponseBytes
    tls := tls }

/-! ## Headers that may be forwarded -/

/-- A text free of control bytes. -/
def Printable (t : Bytes) : Prop := ∀ c ∈ t, 0x20 ≤ c ∧ c ≠ 0x7F

instance (t : Bytes) : Decidable (Printable t) := inferInstanceAs (Decidable (∀ c ∈ t, _ ∧ _))

/-- A host in dotted-quad form has these characters only. -/
def DottedQuad (host : Bytes) : Prop := ∀ c ∈ host, c = 46 ∨ (48 ≤ c ∧ c ≤ 57)

instance (t : Bytes) : Decidable (DottedQuad t) := inferInstanceAs (Decidable (∀ c ∈ t, _ ∨ _ ∧ _))

/-- A value that cannot end its line. -/
def OneLineValue (v : Bytes) : Prop := ∀ c ∈ v, isFieldByte c = true

/-- Every entry is a token in lower case with a value that stays on its line. -/
def Forwardable (h : Headers) : Prop :=
  ∀ k v, h.lookup k = some v → CleanName k ∧ OneLineValue v

lemma Printable.oneLine {t : Bytes} (h : Printable t) : OneLineValue t := by
  intro c hc
  have hcases := h c hc
  simp [isFieldByte, hcases.1, hcases.2]

lemma DottedQuad.oneLine {t : Bytes} (h : DottedQuad t) : OneLineValue t := by
  have hclass : ∀ c : UInt8, (c = 46 ∨ (48 ≤ c ∧ c ≤ 57)) → isFieldByte c = true :=
    forall_byte (by decide +kernel)
  exact fun c hc => hclass c (h c hc)

lemma OneLineValue.append {a b : Bytes} (ha : OneLineValue a) (hb : OneLineValue b) :
    OneLineValue (a ++ b) := by
  intro c hc
  rcases List.mem_append.mp hc with hc | hc
  · exact ha c hc
  · exact hb c hc

lemma decimal_oneLine (n : Nat) : OneLineValue (decimal n) := by
  have hclass : ∀ c, (decVal? c).isSome → isFieldByte c = true :=
    forall_byte (by decide +kernel)
  exact fun c hc => hclass c (digit_of_numeralFrom (numeral_decimal n) c hc)

/-- The names of the headers that the gateway adds. -/
def addedNames : List Bytes :=
  [ascii "x-forwarded-for", ascii "x-real-ip", ascii "x-forwarded-proto", ascii "x-forwarded-host",
    traceparentName, traceIdName, routeNameName]

lemma cleanName_added {k : Bytes} (hk : k ∈ addedNames) : CleanName k := by
  have hall : ∀ k ∈ addedNames, k ≠ [] ∧ k.all isTchar = true ∧ lower k = k := by decide +kernel
  obtain ⟨hne, htoken, hlower⟩ := hall k hk
  exact ⟨hne, List.all_eq_true.mp htoken, hlower⟩

variable {req : HttpRequest} {h : Headers}

/-- The headers of an accepted request may be forwarded. -/
lemma forwardable_of_clean (h : req.Clean) : Forwardable req.headers := by
  intro k v hlookup
  refine ⟨(h.headers k v hlookup).1, fun c hc => ?_⟩
  have hbyte := (h.headers k v hlookup).2.clean c hc
  simpa [isFieldByte] using hbyte

lemma Forwardable.insert (hh : Forwardable h) {k v : Bytes} (hk : CleanName k)
    (hv : OneLineValue v) : Forwardable (h.insert k v) := by
  intro k' v' hlookup
  by_cases heq : k' = k
  · subst heq
    rw [AList.lookup_insert] at hlookup
    cases hlookup
    exact ⟨hk, hv⟩
  · rw [AList.lookup_insert_ne heq] at hlookup
    exact hh k' v' hlookup

lemma Forwardable.insertIfAbsent (hh : Forwardable h) {k v : Bytes} (hk : CleanName k)
    (hv : OneLineValue v) : Forwardable (insertIfAbsent h k v) := by
  unfold Handler.insertIfAbsent
  split
  · exact hh
  · exact hh.insert hk hv

lemma Forwardable.injectForwardedHeaders (hh : Forwardable h) {clientIp : Bytes}
    (hip : OneLineValue clientIp) : Forwardable (injectForwardedHeaders h clientIp) := by
  have hfor : CleanName (ascii "x-forwarded-for") := cleanName_added (by simp [addedNames])
  have hreal : CleanName (ascii "x-real-ip") := cleanName_added (by simp [addedNames])
  have hproto : CleanName (ascii "x-forwarded-proto") := cleanName_added (by simp [addedNames])
  have hhost : CleanName (ascii "x-forwarded-host") := cleanName_added (by simp [addedNames])
  have hsep : OneLineValue (ascii ", ") := by simp [OneLineValue, ascii, isFieldByte]
  have hhttps : OneLineValue (ascii "https") := by
    simp [OneLineValue, ascii, isFieldByte]
  -- the two headers with the address of the client
  have hclient : Forwardable (if clientIp = [] then h
      else (h.insert (ascii "x-forwarded-for")
        (match h.lookup (ascii "x-forwarded-for") with
          | some xff => xff ++ ascii ", " ++ clientIp
          | none => clientIp)).insert (ascii "x-real-ip") clientIp) := by
    split
    · exact hh
    · refine (hh.insert hfor ?_).insert hreal hip
      split
      · rename_i xff hxff
        exact ((hh _ _ hxff).2.append hsep).append hip
      · exact hip
  have hall := hclient.insert hproto hhttps
  unfold Handler.injectForwardedHeaders
  dsimp only
  split
  · rename_i host hlookup
    split
    · exact hall
    · exact hall.insert hhost (hall _ _ hlookup).2
  · exact hall

/-! ## Headers of the handler -/

/-- The values that the gateway generates: hexadecimal digits and dashes in the
source, any printable text here. -/
structure Fresh.Generated (fresh : Fresh) : Prop where
  traceId : Printable fresh.traceId
  traceparent : Printable fresh.traceparent

lemma parseTraceIdFromTraceparent_oneLine (tp : Bytes) :
    OneLineValue (parseTraceIdFromTraceparent tp) := by
  have hclass : ∀ c, isXDigit c = true → isFieldByte c = true :=
    forall_byte (by decide +kernel)
  have hnil : OneLineValue [] := by simp [OneLineValue]
  unfold parseTraceIdFromTraceparent
  split
  · exact hnil
  · split
    · exact hnil
    · dsimp only
      split
      · rename_i hid
        exact fun c hc => hclass c (List.all_eq_true.mp hid.2.2 c hc)
      · exact hnil

lemma chooseTraceId_oneLine {fresh : Fresh} (hh : Forwardable h) (hfresh : fresh.Generated) :
    OneLineValue (chooseTraceId fresh h) := by
  unfold chooseTraceId
  split
  · rename_i id hid
    exact (hh _ _ hid).2
  · split
    · split
      · exact hfresh.traceId.oneLine
      · exact parseTraceIdFromTraceparent_oneLine _
    · exact hfresh.traceId.oneLine

lemma prepareRequest_forwardable {fresh : Fresh} (hh : Forwardable req.headers)
    (hid : req.traceId = []) (hfresh : fresh.Generated) :
    Forwardable (prepareRequest fresh req).headers := by
  have hparent : CleanName traceparentName := cleanName_added (by simp [addedNames])
  have hname : CleanName traceIdName := cleanName_added (by simp [addedNames])
  have hvalue := chooseTraceId_oneLine hh hfresh
  simp only [prepareRequest, if_pos hid]
  exact (hh.insertIfAbsent hparent hfresh.traceparent.oneLine).insert hname hvalue

lemma nameRoute_forwardable {route : Option RegisteredRoute} (hh : Forwardable req.headers)
    (hname : ∀ reg ∈ route, Printable (routeName reg.route)) :
    Forwardable (nameRoute req route).headers := by
  have hkey : CleanName routeNameName := cleanName_added (by simp [addedNames])
  rcases route with _ | reg
  · exact hh
  · exact hh.insert hkey (hname reg rfl).oneLine

/-- The handler changes headers only. -/
lemma dispatched_keeps (env : Env) (o : Oracle) (req : HttpRequest) :
    (dispatched env o req).method = req.method ∧ (dispatched env o req).path = req.path ∧
      (dispatched env o req).body = req.body := by
  unfold dispatched nameRoute
  split <;> exact ⟨rfl, rfl, rfl⟩

/-! ## The message -/

/-- What `build_request` writes, as a message. -/
def message (p : Params) : HttpReader.Message :=
  { method := p.method
    target := p.path
    fields := (ascii "Host", p.host ++ [58] ++ decimal p.port) ::
      (forwardedEntries p.headers ++
        if needsContentLength p then [(ascii "Content-Length", decimal p.body.length)] else [])
    body := p.body }

lemma buildRequest_eq_write (p : Params) : buildRequest p = (message p).write := by
  have hline : ascii " HTTP/1.1" = [sp] ++ ascii "HTTP/1.1" := by simp [ascii, sp]
  have hhost : ascii "Host: " = ascii "Host" ++ ascii ": " := by simp [ascii]
  have hlength : ascii "Content-Length: " = ascii "Content-Length" ++ ascii ": " := by simp [ascii]
  have hfields : ∀ fields : List (Bytes × Bytes),
      (fields.flatMap fun h => h.1 ++ ascii ": " ++ h.2 ++ crlf) =
        fields.flatMap writeField := fun _ => rfl
  unfold buildRequest HttpReader.Message.write message
  rw [hline, hhost, hlength, hfields]
  split <;> simp [writeField]

lemma mem_forwardedEntries {headers : Headers} {f : Bytes × Bytes} :
    f ∈ forwardedEntries headers ↔
      headers.lookup f.1 = some f.2 ∧ isHopByHopHeader (lower f.1) = false ∧
        lower f.1 ∉ connectionTokens headers := by
  simp only [forwardedEntries, List.mem_filter, List.mem_map, Bool.not_eq_true',
    Bool.or_eq_false_iff, decide_eq_false_iff_not]
  constructor
  · rintro ⟨⟨⟨k, v⟩, hentry, rfl⟩, hhop, htoken⟩
    exact ⟨AList.mem_lookup_iff.mpr hentry, hhop, htoken⟩
  · rintro ⟨hlookup, hhop, htoken⟩
    exact ⟨⟨⟨f.1, f.2⟩, AList.mem_lookup_iff.mp hlookup, rfl⟩, hhop, htoken⟩

/-- No header of the client's hop is passed on. -/
lemma valuesOf_forwarded (h : Headers) {name : Bytes} (hname : isHopByHopHeader name = true) :
    valuesOf name (trimFields (forwardedEntries h)) = [] := by
  simp only [valuesOf, trimFields, List.map_eq_nil_iff,
    List.filter_eq_nil_iff, List.mem_map, decide_eq_true_eq]
  rintro _ ⟨f, hf, rfl⟩ heq
  have hhop := (mem_forwardedEntries.mp hf).2.1
  rw [heq, hname] at hhop
  cases hhop

/-- The values of a framing header in a forwarded request: those that
`build_request` writes itself. -/
lemma valuesOf_message (p : Params) {name : Bytes} (hname : isHopByHopHeader name = true) :
    valuesOf name (trimFields (message p).fields) =
      valuesOf name [(ascii "Host", trim (p.host ++ [58] ++ decimal p.port))] ++
        if needsContentLength p then
          valuesOf name [(ascii "Content-Length", decimal p.body.length)]
        else [] := by
  have hforwarded := valuesOf_forwarded p.headers hname
  simp only [valuesOf, trimFields] at hforwarded ⊢
  simp only [message, List.map_cons, List.map_append, List.filter_cons, List.filter_append,
    List.map_append, List.filter_nil]
  split <;> split <;> simp [hforwarded, trim_decimal, List.filter_cons]

lemma lower_host : lower (ascii "Host") = ascii "host" := by simp [ascii, lower, toLower]

lemma lower_contentLength : lower (ascii "Content-Length") = ascii "content-length" := by
  simp [ascii, lower, toLower]

lemma host_message (p : Params) :
    valuesOf (ascii "host") (trimFields (message p).fields) =
      [trim (p.host ++ [58] ++ decimal p.port)] := by
  have hother : ascii "content-length" ≠ ascii "host" := by simp [ascii]
  rw [valuesOf_message p (by simp [isHopByHopHeader])]
  simp [valuesOf, lower_host, lower_contentLength, hother]

lemma length_message (p : Params) :
    valuesOf (ascii "content-length") (trimFields (message p).fields) =
      if needsContentLength p then [decimal p.body.length] else [] := by
  have hother : ascii "host" ≠ ascii "content-length" := by simp [ascii]
  rw [valuesOf_message p (by simp [isHopByHopHeader])]
  simp [valuesOf, lower_host, lower_contentLength, hother]

lemma coding_message (p : Params) :
    valuesOf (ascii "transfer-encoding") (trimFields (message p).fields) =
      [] := by
  have hhost : ascii "host" ≠ ascii "transfer-encoding" := by simp [ascii]
  have hlength : ascii "content-length" ≠ ascii "transfer-encoding" := by simp [ascii]
  rw [valuesOf_message p (by simp [isHopByHopHeader])]
  simp [valuesOf, lower_host, lower_contentLength, hhost, hlength]

lemma bodyLength_message (p : Params) :
    bodyLength (trimFields (message p).fields) = some p.body.length := by
  unfold bodyLength
  rw [coding_message, length_message]
  by_cases hneeds : needsContentLength p = true
  · simp [hneeds, decimal_ne_nil, numeral_decimal]
  · -- without a length there is no body
    have hbody : p.body = [] := by
      by_contra hne
      exact hneeds (by simp [needsContentLength, hne])
    simp [hneeds, hbody]

/-- Every header line of a clean request is clean. -/
lemma message_fields_clean {p : Params} (hhost : OneLineValue p.host)
    (hh : Forwardable p.headers) : ∀ f ∈ (message p).fields, CleanField f := by
  have htchar : ∀ c, isTchar c = true → isToken c = true := forall_byte (by decide +kernel)
  have hnames : ∀ k ∈ [ascii "Host", ascii "Content-Length"],
      k ≠ [] ∧ k.all isToken = true := by decide +kernel
  have hown : ∀ k ∈ [ascii "Host", ascii "Content-Length"], ∀ v, OneLineValue v →
      CleanField (k, v) :=
    fun k hk v hv => ⟨(hnames k hk).1, List.all_eq_true.mp (hnames k hk).2, hv⟩
  have hcolon : OneLineValue [58] := by simp [OneLineValue, isFieldByte]
  intro f hf
  simp only [message, List.mem_cons, List.mem_append] at hf
  rcases hf with rfl | hf | hf
  · exact hown _ (by simp) _ ((hhost.append hcolon).append (decimal_oneLine _))
  · have hentry := hh _ _ (mem_forwardedEntries.mp hf).1
    exact ⟨hentry.1.ne, fun c hc => htchar c (hentry.1.token c hc), hentry.2⟩
  · split at hf
    · rw [List.mem_singleton] at hf
      subst hf
      exact hown _ (by simp) _ (decimal_oneLine _)
    · cases hf

/-- A clean request makes a clean message. -/
lemma message_clean {p : Params} (hmethod : p.method ∈ allowedMethods)
    (hpath : PlainText p.path) (hhost : OneLineValue p.host) (hh : Forwardable p.headers) :
    (message p).Clean := by
  have hmethods : ∀ m ∈ allowedMethods, m ≠ [] ∧ m.all isToken = true := by
    decide +kernel
  refine ⟨(hmethods _ hmethod).1, List.all_eq_true.mp (hmethods _ hmethod).2, ?_,
    message_fields_clean hhost hh, bodyLength_message p⟩
  intro c hc
  have hplain := hpath c hc
  simp [isVisible, hplain.1, hplain.2]

/-! ## One message -/

/-- The bytes are one message to the reader, up to the last byte: the method, the
target and the body of the request, one Host, at most one Content-Length and no
transfer coding. -/
def OneMessage (bytes : Bytes) (req : HttpRequest) : Prop :=
  ∃ m, readMessage bytes = some (m, []) ∧
    m.method = req.method ∧ m.target = req.path ∧ m.body = req.body ∧
    (valuesOf (ascii "host") m.fields).length = 1 ∧
    (valuesOf (ascii "content-length") m.fields).length ≤ 1 ∧
    valuesOf (ascii "transfer-encoding") m.fields = []

lemma oneMessage_iff {p : Params} (hclean : (message p).Clean) (hmethod : p.method = req.method)
    (hpath : p.path = req.path) (hbody : p.body = req.body) :
    OneMessage (buildRequest p) req ↔ req.path ≠ [] := by
  have hread := readMessage_write hclean []
  rw [List.append_nil, ← buildRequest_eq_write] at hread
  have htarget : (message p).target = req.path := hpath
  unfold OneMessage
  constructor
  · rintro ⟨m, hm, -⟩ hnil
    rw [hread, htarget, if_pos hnil] at hm
    cases hm
  · intro hne
    rw [htarget, if_neg hne] at hread
    refine ⟨_, hread, hmethod, rfl, hbody, ?_, ?_, coding_message p⟩
    · rw [host_message]
      rfl
    · rw [length_message]
      split <;> simp

/-- An accepted request with a method that the gates let through is forwarded as
one message exactly if it has a target. -/
theorem forwarded_one_message_iff (frags : List Bytes) (env : Env) (o : Oracle)
    (server : UpstreamServer) (traceparent : Bytes) (timeoutMs : Int) (maxResponseBytes : Nat)
    (tls : UpstreamTlsOptions)
    (haccepted : (feedFragments {} {} [] frags).outcome = .complete)
    (hmethod : (feedFragments {} {} [] frags).request.method ∈ allowedMethods)
    (hip : Printable env.clientIp) (hhost : DottedQuad server.host)
    (hroute : ∀ reg ∈ (resolveRoute env.routes
      (prepareRequest o.fresh (feedFragments {} {} [] frags).request)).route,
      Printable (routeName reg.route))
    (hfresh : o.fresh.Generated) (htrace : Printable traceparent) :
    OneMessage
        (buildRequest (exchangeParams server
          (dispatched env o (feedFragments {} {} [] frags).request) env.clientIp traceparent
          timeoutMs maxResponseBytes tls))
        (feedFragments {} {} [] frags).request ↔
      (feedFragments {} {} [] frags).request.path ≠ [] := by
  have hclean : (feedFragments {} {} [] frags).request.Clean := (sound_of_complete haccepted).1
  have hid : (feedFragments {} {} [] frags).request.traceId = [] := traceId_feedFragments frags
  generalize (feedFragments {} {} [] frags).request = req at *
  have hkeep := dispatched_keeps env o req
  have hparent : CleanName traceparentName := cleanName_added (by simp [addedNames])
  have hheaders : Forwardable req.headers := forwardable_of_clean hclean
  have hdispatched : Forwardable (dispatched env o req).headers :=
    nameRoute_forwardable (prepareRequest_forwardable hheaders hid hfresh) hroute
  apply oneMessage_iff
  · apply message_clean
    · exact (congrArg (· ∈ allowedMethods) hkeep.1).mpr hmethod
    · exact (congrArg PlainText hkeep.2.1).mpr hclean.path
    · exact hhost.oneLine
    · exact (hdispatched.insertIfAbsent hparent htrace.oneLine).injectForwardedHeaders hip.oneLine
  · exact hkeep.1
  · exact hkeep.2.1
  · exact hkeep.2.2

/-- A route to a backend for the root and one for a path below it. -/
def openGateway : Env :=
  { routes := [{ route := { method := ascii "*" } },
      { route := { method := ascii "*", path := ascii "/p" } }]
    clientIp := ascii "10.0.0.9" }

/-- A body in chunks and a header named in Connection: forwarded as one message. -/
theorem forwarded_one_message_chunked :
    OneMessage
      (buildRequest (exchangeParams { host := ascii "10.0.0.1" }
        (dispatched openGateway {} (feedFragments {} {} []
          [ascii "POST /p HTTP/1.1\r\nConnection: x-a\r\nX-A: 1\r\nTransfer-Encoding: chunked\r\n",
            ascii "\r\n2\r\nab\r\n0\r\n\r\n"]).request) openGateway.clientIp [] 0 0 {}))
      (feedFragments {} {} []
          [ascii "POST /p HTTP/1.1\r\nConnection: x-a\r\nX-A: 1\r\nTransfer-Encoding: chunked\r\n",
            ascii "\r\n2\r\nab\r\n0\r\n\r\n"]).request :=
  (forwarded_one_message_iff
    [ascii "POST /p HTTP/1.1\r\nConnection: x-a\r\nX-A: 1\r\nTransfer-Encoding: chunked\r\n",
      ascii "\r\n2\r\nab\r\n0\r\n\r\n"] openGateway {} { host := ascii "10.0.0.1" } [] 0 0 {}
    (by decide +kernel) (by decide +kernel) (by decide +kernel) (by decide +kernel)
    (by decide +kernel) ⟨by decide +kernel, by decide +kernel⟩ (by decide +kernel)).mpr
    (by decide +kernel)

/-- A request line without a target is accepted, routed, and written to the backend
with two blanks in a row, which the reader refuses. -/
theorem empty_target_forwarded :
    (feedFragments {} {} [] [ascii "GET  HTTP/1.1\r\n\r\n"]).outcome = .complete ∧
    (resolveRoute openGateway.routes (prepareRequest {}
      (feedFragments {} {} [] [ascii "GET  HTTP/1.1\r\n\r\n"]).request)).route.isSome ∧
    (buildRequest (exchangeParams { host := ascii "10.0.0.1" }
      (dispatched openGateway {} (feedFragments {} {} [] [ascii "GET  HTTP/1.1\r\n\r\n"]).request)
      openGateway.clientIp [] 0 0 {})).take 15 = ascii "GET  HTTP/1.1\r\n" ∧
    ¬ OneMessage
      (buildRequest (exchangeParams { host := ascii "10.0.0.1" }
        (dispatched openGateway {} (feedFragments {} {} [] [ascii "GET  HTTP/1.1\r\n\r\n"]).request)
        openGateway.clientIp [] 0 0 {}))
      (feedFragments {} {} [] [ascii "GET  HTTP/1.1\r\n\r\n"]).request := by
  refine ⟨by decide +kernel, by decide +kernel, by decide +kernel, ?_⟩
  rintro ⟨m, hread, -⟩
  have hnone : (readMessage
      (buildRequest (exchangeParams { host := ascii "10.0.0.1" }
        (dispatched openGateway {} (feedFragments {} {} [] [ascii "GET  HTTP/1.1\r\n\r\n"]).request)
        openGateway.clientIp [] 0 0 {}))).isNone = true := by decide +kernel
  rw [hread] at hnone
  cases hnone

end EpollGateway.Handler
