import EpollGateway.Handler.Identity
import EpollGateway.Upstream.Exchange
import EpollGateway.Upstream.HeaderLines

/-! # The header block that a client gets

`finish_child` copies the headers of a backend response, except for those of the
backend's hop, and `finalize_response` adds the gateway's own. The header block that
is written has one line for each header of the map, and none of them is broken:
`headFields_clientResponse`.

Two things depend on how the names are compared. A name of the backend's hop with
blanks around it is not recognised, and goes through next to the gateway's own
framing (`own_framing_iff`). And a map keeps one value for each name, so of a
header that the backend repeats only the last line goes through
(`multiplicity_iff`).
-/

namespace EpollGateway.Handler

open Bytes Http Upstream

/-! ## The response -/

/-- The response to the client for a backend response. -/
def clientResponse (env : Env) (keepAlive : Bool) (fresh : Fresh) (req : HttpRequest)
    (be : BackendResponse) : HttpResponse :=
  frameResponse env.gzip keepAlive fresh.traceId fresh.traceparent req (relayResponse be) false

/-- The names under which the gateway stores headers of its own. -/
def ownNames : List Bytes :=
  [ascii "X-Trace-Id", ascii "Traceparent", ascii "Connection", ascii "Server",
    ascii "Content-Encoding", ascii "Content-Length"]

/-- A map with the headers of the backend and, under the gateway's names, values that
stay on their line. -/
structure OverRelay (be : BackendResponse) (headers : Headers) : Prop where
  other : ∀ k, k ∉ ownNames →
    headers.lookup k = Fields.lastValue (relayedHeaders be.headers) k
  own : ∀ k v, k ∈ ownNames → headers.lookup k = some v → Unbroken v

lemma mem_relayedHeaders {headers : List (Bytes × Bytes)} {h : Bytes × Bytes} :
    h ∈ relayedHeaders headers ↔
      h ∈ headers ∧ Unbroken h.1 ∧ Unbroken h.2 ∧ lower h.1 ∉ responseHopByHop ∧
        lower h.1 ∉ responseConnectionTokens headers := by
  simp only [relayedHeaders, List.mem_filter, Bool.and_eq_true, decide_eq_true_eq, Unbroken]
  tauto

variable {be : BackendResponse} {headersPart k v : Bytes} {req : HttpRequest}

lemma OverRelay.insert {headers : Headers} (h : OverRelay be headers) (hk : k ∈ ownNames)
    (hv : Unbroken v) : OverRelay be (headers.insert k v) := by
  constructor
  · intro k' hk'
    have hne : k' ≠ k := fun heq => hk' (heq ▸ hk)
    rw [AList.lookup_insert_ne hne]
    exact h.other k' hk'
  · intro k' v' hk' hlookup
    by_cases heq : k' = k
    · subst heq
      rw [AList.lookup_insert] at hlookup
      cases hlookup
      exact hv
    · rw [AList.lookup_insert_ne heq] at hlookup
      exact h.own k' v' hk' hlookup

lemma OverRelay.insertIfAbsent {headers : Headers} (h : OverRelay be headers)
    (hk : k ∈ ownNames) (hv : Unbroken v) : OverRelay be (insertIfAbsent headers k v) := by
  unfold Handler.insertIfAbsent
  split
  · exact h
  · exact h.insert hk hv

lemma unbroken_decimal (n : Nat) : Unbroken (decimal n) :=
  HttpReader.unbroken_of fun c hc => HttpReader.isFieldByte_clean c (decimal_oneLine n c hc)

lemma relayResponse_overRelay (be : BackendResponse) :
    OverRelay be (relayResponse be).headers := by
  have hlookup : ∀ k, ((relayedHeaders be.headers).foldl (fun hs h => hs.insert h.1 h.2)
      (∅ : Headers)).lookup k = Fields.lastValue (relayedHeaders be.headers) k := by
    intro k
    have hall := Fields.lookup_insertFields (∅ : Headers) (relayedHeaders be.headers) k
    rw [AList.lookup_empty, Option.or_none] at hall
    exact hall
  have hrelayed : OverRelay be ((relayedHeaders be.headers).foldl (fun hs h => hs.insert h.1 h.2)
      (∅ : Headers)) := by
    constructor
    · exact fun k _ => hlookup k
    · intro k v _ hkv
      rw [hlookup] at hkv
      exact (mem_relayedHeaders.mp (Fields.mem_of_lastValue hkv)).2.2.1
  exact hrelayed.insert (by simp [ownNames]) (unbroken_decimal _)

/-! ## What the gateway puts in -/

/-- The trace values of a request stay on their line. -/
structure CleanTrace (req : HttpRequest) : Prop where
  traceId : Unbroken req.traceId
  traceparent : ∀ tp, req.headers.lookup (ascii "traceparent") = some tp → Unbroken tp

lemma OneLineValue.unbroken (h : OneLineValue v) : Unbroken v :=
  HttpReader.unbroken_of fun c hc => HttpReader.isFieldByte_clean c (h c hc)

/-- The parser and the generator give clean trace values. -/
lemma dispatched_cleanTrace (env : Env) {o : Oracle} (hclean : req.Clean)
    (hid : req.traceId = []) (hfresh : o.fresh.Generated) : CleanTrace (dispatched env o req) := by
  have hheaders := forwardable_of_clean hclean
  have hnames : traceparentName ≠ traceIdName ∧ traceparentName ≠ routeNameName := by
    simp [traceparentName, traceIdName, routeNameName, ascii]
  -- the name of the route is stored under another name
  have hlookup : (dispatched env o req).headers.lookup traceparentName =
      (insertIfAbsent req.headers traceparentName o.fresh.traceparent).lookup traceparentName := by
    unfold dispatched nameRoute
    split
    · exact AList.lookup_insert_ne hnames.1
    · exact (AList.lookup_insert_ne hnames.2).trans (AList.lookup_insert_ne hnames.1)
  constructor
  · have hid' : (dispatched env o req).traceId = chooseTraceId o.fresh req.headers := by
      unfold dispatched nameRoute
      split <;> simp [prepareRequest, hid]
    rw [hid']
    exact (chooseTraceId_oneLine hheaders hfresh).unbroken
  · intro tp htp
    have hparent : CleanName traceparentName := cleanName_added (by simp [addedNames])
    have hforwardable := hheaders.insertIfAbsent hparent hfresh.traceparent.oneLine
    exact (hforwardable traceparentName tp (hlookup ▸ htp)).2.unbroken

section Framed

variable {env : Env} {keepAlive : Bool} {fresh : Fresh} {req : HttpRequest} {be : BackendResponse}

/-- The value of the gateway's Connection header. -/
def connectionText (keepAlive : Bool) : Bytes :=
  if keepAlive then ascii "keep-alive" else ascii "close"

/-- The map in front of the compressor. -/
def signedHeaders (keepAlive : Bool) (fresh : Fresh) (req : HttpRequest) (headers : Headers) :
    Headers :=
  ((insertIfAbsent (insertIfAbsent headers (ascii "X-Trace-Id") (traceIdOr req fresh.traceId))
    (ascii "Traceparent") (traceparentOr req fresh.traceparent)).insert (ascii "Connection")
    (connectionText keepAlive)).insert (ascii "Server")
    (ascii "EpollHTTP/" ++ ascii gatewayVersion)

/-- The compressor of `finalize_response`. -/
def compressBody (gzip : Bytes → Option Bytes) (req : HttpRequest) (alreadyCompressed : Bool)
    (resp : HttpResponse) : HttpResponse :=
  if req.method ≠ ascii "HEAD" ∧ ¬ alreadyCompressed ∧ shouldCompress req resp then
    match gzip resp.body with
    | some compressed =>
      { resp with
        body := compressed
        headers := (resp.headers.insert (ascii "Content-Encoding") (ascii "gzip")).insert
          (ascii "Content-Length") (decimal compressed.length) }
    | none => resp
  else resp

/-- The chunked coding of `finalize_response`. -/
def chunkBody (resp : HttpResponse) : HttpResponse :=
  if resp.chunked then
    { resp with
      headers := (resp.headers.erase (ascii "Content-Length")).insert
        (ascii "Transfer-Encoding") (ascii "chunked")
      body := chunkedText resp.body }
  else resp

lemma chunkBody_plain {resp : HttpResponse} (h : resp.chunked = false) :
    chunkBody resp = resp := by
  rw [chunkBody, h]
  rfl

variable (gzip : Bytes → Option Bytes)

/-- `finalize_response` step by step. -/
lemma frameResponse_eq (keepAlive : Bool) (fresh : Fresh) (req : HttpRequest)
    (resp : HttpResponse) (z : Bool) :
    frameResponse gzip keepAlive fresh.traceId fresh.traceparent req resp z =
      chunkBody (compressBody gzip req z
        { resp with headers := signedHeaders keepAlive fresh req resp.headers }) := rfl

/-- A body that is compressed is not empty, and its length is written anew. -/
lemma compressBody_cases (req : HttpRequest) (z : Bool) (resp : HttpResponse) :
    compressBody gzip req z resp = resp ∨
      ∃ compressed, z = false ∧ resp.body ≠ [] ∧ gzip resp.body = some compressed ∧
        compressBody gzip req z resp =
          { resp with
            body := compressed
            headers := (resp.headers.insert (ascii "Content-Encoding") (ascii "gzip")).insert
              (ascii "Content-Length") (decimal compressed.length) } := by
  unfold compressBody
  by_cases hcompress : req.method ≠ ascii "HEAD" ∧ ¬ z ∧ shouldCompress req resp
  · rw [if_pos hcompress]
    rcases hgzip : gzip resp.body with _ | compressed
    · exact .inl rfl
    · right
      have hbody : resp.body ≠ [] := by
        have hshould := hcompress.2.2
        unfold shouldCompress at hshould
        split at hshould
        · simp at hshould
        · simp only [Bool.and_eq_true, decide_eq_true_eq] at hshould
          exact hshould.2.2
      exact ⟨compressed, by simpa using hcompress.2.1, hbody, rfl, rfl⟩
  · rw [if_neg hcompress]
    exact .inl rfl

/-- A response that is not chunked gets the gateway's headers, and perhaps a compressed
body. -/
lemma frameResponse_cases (keepAlive : Bool) (fresh : Fresh) (req : HttpRequest)
    {resp : HttpResponse} (z : Bool) (hchunked : resp.chunked = false) :
    frameResponse gzip keepAlive fresh.traceId fresh.traceparent req resp z =
      { resp with headers := signedHeaders keepAlive fresh req resp.headers } ∨
    ∃ compressed, z = false ∧ gzip resp.body = some compressed ∧
      frameResponse gzip keepAlive fresh.traceId fresh.traceparent req resp z =
        { resp with
          headers := ((signedHeaders keepAlive fresh req resp.headers).insert
            (ascii "Content-Encoding") (ascii "gzip")).insert (ascii "Content-Length")
            (decimal compressed.length)
          body := compressed } := by
  rw [frameResponse_eq]
  rcases compressBody_cases gzip req z
    { resp with headers := signedHeaders keepAlive fresh req resp.headers } with
    hsame | ⟨compressed, hz, -, hgzip, hcompressed⟩
  · rw [hsame]
    exact .inl (chunkBody_plain hchunked)
  · rw [hcompressed]
    exact .inr ⟨compressed, hz, hgzip, chunkBody_plain hchunked⟩

/-- A relayed response is framed by its length, compressed or not. -/
lemma clientResponse_cases (env : Env) (keepAlive : Bool) (fresh : Fresh) (req : HttpRequest)
    (be : BackendResponse) :
    clientResponse env keepAlive fresh req be =
      { relayResponse be with
        headers := signedHeaders keepAlive fresh req (relayResponse be).headers } ∨
    ∃ compressed, clientResponse env keepAlive fresh req be =
      { relayResponse be with
        headers := ((signedHeaders keepAlive fresh req (relayResponse be).headers).insert
          (ascii "Content-Encoding") (ascii "gzip")).insert (ascii "Content-Length")
          (decimal compressed.length)
        body := compressed } := by
  rcases frameResponse_cases env.gzip keepAlive fresh req false
    (show (relayResponse be).chunked = false from rfl) with hplain | ⟨compressed, -, -, hgzip⟩
  · exact .inl hplain
  · exact .inr ⟨compressed, hgzip⟩

lemma unbroken_traceIdOr (hreq : CleanTrace req) (hfresh : fresh.Generated) :
    Unbroken (traceIdOr req fresh.traceId) := by
  unfold traceIdOr
  split
  · exact hfresh.traceId.oneLine.unbroken
  · exact hreq.traceId

lemma unbroken_traceparentOr (hreq : CleanTrace req) (hfresh : fresh.Generated) :
    Unbroken (traceparentOr req fresh.traceparent) := by
  unfold traceparentOr
  rcases htp : req.headers.lookup (ascii "traceparent") with _ | tp
  · exact hfresh.traceparent.oneLine.unbroken
  · exact hreq.traceparent tp htp

lemma unbroken_connectionText (keepAlive : Bool) : Unbroken (connectionText keepAlive) := by
  unfold connectionText
  split <;> simp [Unbroken, ascii, cr, lf]

lemma unbroken_server : Unbroken (ascii "EpollHTTP/" ++ ascii gatewayVersion) := by
  simp [Unbroken, ascii, gatewayVersion, cr, lf]

lemma signedHeaders_overRelay (keepAlive : Bool) {headers : Headers} (h : OverRelay be headers)
    (hreq : CleanTrace req) (hfresh : fresh.Generated) :
    OverRelay be (signedHeaders keepAlive fresh req headers) := by
  apply OverRelay.insert _ (by simp [ownNames]) unbroken_server
  apply OverRelay.insert _ (by simp [ownNames]) (unbroken_connectionText keepAlive)
  apply OverRelay.insertIfAbsent _ (by simp [ownNames]) (unbroken_traceparentOr hreq hfresh)
  exact h.insertIfAbsent (by simp [ownNames]) (unbroken_traceIdOr hreq hfresh)

lemma clientResponse_overRelay (env : Env) (keepAlive : Bool) (be : BackendResponse)
    (hreq : CleanTrace req) (hfresh : fresh.Generated) :
    OverRelay be (clientResponse env keepAlive fresh req be).headers := by
  have hsigned := signedHeaders_overRelay keepAlive (relayResponse_overRelay be) hreq hfresh
  rcases clientResponse_cases env keepAlive fresh req be with hresp | ⟨compressed, hresp⟩
  · rw [hresp]
    exact hsigned
  · rw [hresp]
    apply OverRelay.insert _ (by simp [ownNames]) (unbroken_decimal _)
    exact hsigned.insert (by simp [ownNames]) (by simp [Unbroken, ascii, cr, lf])

lemma unbroken_statusMessage :
    Unbroken (clientResponse env keepAlive fresh req be).statusMessage := by
  have hmessage : Unbroken (relayResponse be).statusMessage := by
    unfold relayResponse
    dsimp only
    split <;> simp [Unbroken, ascii, cr, lf]
  rcases clientResponse_cases env keepAlive fresh req be with hresp | ⟨compressed, hresp⟩
  · rw [hresp]
    exact hmessage
  · rw [hresp]
    exact hmessage

lemma lookup_insertIfAbsent_ne {headers : Headers} {k name : Bytes} (value : Bytes)
    (h : k ≠ name) : (insertIfAbsent headers name value).lookup k = headers.lookup k := by
  unfold Handler.insertIfAbsent
  split
  · rfl
  · exact AList.lookup_insert_ne h

/-- The framing of a relayed response is the gateway's own. -/
lemma lookup_contentLength :
    (clientResponse env keepAlive fresh req be).headers.lookup (ascii "Content-Length") =
      some (decimal (clientResponse env keepAlive fresh req be).body.length) := by
  have hnames : ascii "Content-Length" ≠ ascii "Server" ∧
      ascii "Content-Length" ≠ ascii "Connection" ∧
      ascii "Content-Length" ≠ ascii "Traceparent" ∧
      ascii "Content-Length" ≠ ascii "X-Trace-Id" := by simp [ascii]
  rcases clientResponse_cases env keepAlive fresh req be with hresp | ⟨compressed, hresp⟩
  · rw [hresp]
    dsimp only
    rw [signedHeaders, AList.lookup_insert_ne hnames.1,
      AList.lookup_insert_ne hnames.2.1, lookup_insertIfAbsent_ne _ hnames.2.2.1,
      lookup_insertIfAbsent_ne _ hnames.2.2.2]
    exact AList.lookup_insert _
  · rw [hresp]
    exact AList.lookup_insert _

/-- Whatever the response, `finalize_response` writes its own Connection header. -/
lemma lookup_connection_framed (traceId traceparent : Bytes) (resp : HttpResponse) (z : Bool) :
    (frameResponse gzip keepAlive traceId traceparent req resp z).headers.lookup
      (ascii "Connection") = some (connectionText keepAlive) := by
  have hnames : ascii "Connection" ≠ ascii "Server" ∧
      ascii "Connection" ≠ ascii "Content-Length" ∧
      ascii "Connection" ≠ ascii "Content-Encoding" ∧
      ascii "Connection" ≠ ascii "Transfer-Encoding" := by simp [ascii]
  have hsigned (headers : Headers) (text : Bytes) :
      ((headers.insert (ascii "Connection") text).insert (ascii "Server")
        (ascii "EpollHTTP/" ++ ascii gatewayVersion)).lookup (ascii "Connection") = some text :=
    (AList.lookup_insert_ne hnames.1).trans (AList.lookup_insert _)
  -- neither the chunked coding nor the compressor touches the header
  have hchunked (r : HttpResponse) (text : Bytes)
      (hr : r.headers.lookup (ascii "Connection") = some text) :
      (if r.chunked then
        { r with
          headers := (r.headers.erase (ascii "Content-Length")).insert
            (ascii "Transfer-Encoding") (ascii "chunked")
          body := chunkedText r.body }
        else r).headers.lookup (ascii "Connection") = some text := by
    split
    · dsimp only
      rw [AList.lookup_insert_ne hnames.2.2.2, AList.lookup_erase_ne hnames.2.1]
      exact hr
    · exact hr
  unfold frameResponse connectionText
  generalize (if keepAlive = true then ascii "keep-alive" else ascii "close") = text
  apply hchunked
  split
  · split
    · dsimp only
      rw [AList.lookup_insert_ne hnames.2.1, AList.lookup_insert_ne hnames.2.2.1]
      exact hsigned _ text
    · exact hsigned _ text
  · exact hsigned _ text

lemma lookup_connection :
    (clientResponse env keepAlive fresh req be).headers.lookup (ascii "Connection") =
      some (connectionText keepAlive) :=
  lookup_connection_framed env.gzip fresh.traceId fresh.traceparent (relayResponse be) false

end Framed

/-! ## The lines -/

/-- The first line of a header block. -/
def statusLine (resp : HttpResponse) : Bytes :=
  ascii "HTTP/1.1 " ++ intText resp.statusCode ++ [sp] ++ resp.statusMessage

/-- The line of a header. -/
def headerText (e : (_ : Bytes) × Bytes) : Bytes := e.1 ++ ascii ": " ++ e.2

/-- No header can end its own line. -/
def SafeHeaders (headers : Headers) : Prop :=
  ∀ k v, headers.lookup k = some v → 58 ∉ k ∧ Unbroken k ∧ Unbroken v

lemma unbroken_intText (n : Int) : Unbroken (intText n) := by
  have hminus : Unbroken [45] := by decide
  unfold intText
  split
  · exact hminus.append (unbroken_decimal _)
  · exact unbroken_decimal _

section Lines

variable {resp : HttpResponse}

lemma headersToString_eq (resp : HttpResponse) :
    headersToString resp =
      statusLine resp ++ crlf ++
        ((resp.headers.entries.map headerText).flatMap (· ++ crlf) ++ crlf) := by
  simp [headersToString, statusLine, headerText, List.flatMap_map]

lemma unbroken_headerText (h : SafeHeaders resp.headers) :
    ∀ l ∈ resp.headers.entries.map headerText, Unbroken l := by
  intro l hl
  obtain ⟨e, he, rfl⟩ := List.mem_map.mp hl
  obtain ⟨-, hname, hvalue⟩ := h e.1 e.2 (AList.mem_lookup_iff.mpr he)
  exact (hname.append (by decide)).append hvalue

lemma unbroken_statusLine (h : Unbroken resp.statusMessage) : Unbroken (statusLine resp) :=
  ((Unbroken.append (by decide) (unbroken_intText _)).append (by decide)).append h

/-- The header block has a line for the status and one for each header. -/
lemma crlfLines_headersToString (hmessage : Unbroken resp.statusMessage)
    (h : SafeHeaders resp.headers) :
    crlfLines [] (headersToString resp) =
      statusLine resp :: (resp.headers.entries.map headerText ++ [[]]) := by
  rw [headersToString_eq, crlfLines_line (unbroken_statusLine hmessage),
    crlfLines_lines (unbroken_headerText h)]
  simp [crlf, crlfLines]

/-- A reader of the header block gets the headers of the map. -/
lemma headFields_headersToString (hmessage : Unbroken resp.statusMessage)
    (h : SafeHeaders resp.headers) :
    headFields (headersToString resp) = resp.headers.entries.map fun e => (e.1, trim e.2) := by
  have hlines : headLines (headersToString resp) = resp.headers.entries.map headerText ++ [[]] := by
    rw [headersToString_eq, headLines_line (unbroken_statusLine hmessage),
      crlfLines_lines (unbroken_headerText h)]
    simp [crlf, crlfLines]
  have hfield : ∀ e ∈ resp.headers.entries,
      ((splitColon (headerText e)).map fun h => (h.1, trim h.2)) = some (e.1, trim e.2) := by
    intro e he
    obtain ⟨hcolon, -, -⟩ := h e.1 e.2 (AList.mem_lookup_iff.mpr he)
    have hbytes : headerText e = e.1 ++ 58 :: sp :: e.2 := by
      simp [headerText, ascii, sp]
    rw [hbytes, splitColon_append hcolon]
    simp [HttpReader.trim_sp_cons_eq]
  have hall : (resp.headers.entries.filterMap fun e =>
      (splitColon (headerText e)).map fun h => (h.1, trim h.2)) =
      resp.headers.entries.filterMap fun e => some (e.1, trim e.2) :=
    List.filterMap_congr hfield
  unfold headFields
  rw [hlines, List.filterMap_append, List.filterMap_map]
  simp only [Function.comp_def, hall]
  simp [splitColon, HttpReader.cut]

end Lines

variable {keepAlive : Bool} {fresh : Fresh} {fields : List (Bytes × Bytes)}

/-- A relayed response is safe to write. -/
lemma clientResponse_safe {env : Env} (hbe : be.headers = parseHeaders headersPart)
    (hreq : CleanTrace req) (hfresh : fresh.Generated) :
    SafeHeaders (clientResponse env keepAlive fresh req be).headers := by
  have hover := clientResponse_overRelay env keepAlive be hreq hfresh
  have hnames : ∀ k ∈ ownNames, 58 ∉ k ∧ Unbroken k := by decide +kernel
  intro k v hlookup
  by_cases hk : k ∈ ownNames
  · exact ⟨(hnames k hk).1, (hnames k hk).2, hover.own k v hk hlookup⟩
  · rw [hover.other k hk] at hlookup
    obtain ⟨hmem, hname, hvalue, -⟩ := mem_relayedHeaders.mp (Fields.mem_of_lastValue hlookup)
    rw [hbe] at hmem
    have hfield := Fields.mem_of_lastValue (mem_parseHeaders.mp hmem)
    exact ⟨(headFields_shape hfield).1, hname, hvalue⟩

/-- The header that goes through under a name that is not the gateway's. -/
lemma lookup_relayed (env : Env) (keepAlive : Bool)
    (hbe : be.headers = parseHeaders headersPart) (hreq : CleanTrace req)
    (hfresh : fresh.Generated) (hk : k ∉ ownNames) :
    (clientResponse env keepAlive fresh req be).headers.lookup k = some v ↔
      Fields.lastValue (headFields headersPart) k = some v ∧ Unbroken k ∧ Unbroken v ∧
        lower k ∉ responseHopByHop ∧
        lower k ∉ responseConnectionTokens (parseHeaders headersPart) := by
  have hover := clientResponse_overRelay env keepAlive be hreq hfresh
  have hdistinct : (relayedHeaders be.headers).Pairwise fun a b => a.1 ≠ b.1 := by
    rw [hbe, parseHeaders_eq]
    exact (Fields.ordered_ofFields _).distinct.filter _
  rw [hover.other k hk, Fields.lastValue_of_distinct hdistinct, mem_relayedHeaders, hbe,
    mem_parseHeaders]

/-! ## The gateway's own framing -/

/-- The header block of the response that an exchange has read. -/
def responseHead (x : Exchange) : Bytes :=
  x.responseBytes.take ((headEnd x.responseBytes).getD x.responseBytes.length)

lemma finishOk_headers {x : Exchange} (h : x.finishOk.succeeded = true) :
    x.finishOk.result.headers = parseHeaders (responseHead x) := by
  have hstatus : (parseStatus x.responseBytes).isSome = true := h
  obtain ⟨code, hcode⟩ := Option.isSome_iff_exists.mp hstatus
  unfold Exchange.finishOk parseResponse
  dsimp only
  rw [hcode]
  rfl

/-- The framing lines that the gateway writes itself. -/
def ownLines (keepAlive : Bool) (resp : HttpResponse) (name : Bytes) : List (Bytes × Bytes) :=
  if name = ascii "content-length" then [(ascii "Content-Length", decimal resp.body.length)]
  else if name = ascii "connection" then [(ascii "Connection", connectionText keepAlive)]
  else []

/-- The header block has one line for the status and one for each header; whatever
blanks stand around a name, the lines with a name of the backend's hop are the
gateway's own. -/
structure OwnFraming (keepAlive : Bool) (resp : HttpResponse) : Prop where
  lines : crlfLines [] (headersToString resp) =
    statusLine resp :: (resp.headers.entries.map headerText ++ [[]])
  framing : ∀ name ∈ responseHopByHop,
    ((headFields (headersToString resp)).filter fun f => lower (trim f.1) = name) =
      ownLines keepAlive resp name

/-- No header that could go through hides a name of the backend's hop behind blanks. -/
def PlainHopNames (fields : List (Bytes × Bytes)) : Prop :=
  ∀ k v, Fields.lastValue fields k = some v → Unbroken k → Unbroken v →
    lower (trim k) ∈ responseHopByHop → lower k ∈ responseHopByHop

/-- Of the gateway's names only the two of the framing are hop-by-hop. -/
lemma ownNames_hopByHop (hk : k ∈ ownNames) (hhop : lower (trim k) ∈ responseHopByHop) :
    (k = ascii "Content-Length" ∨ k = ascii "Connection") ∧ lower k ∈ responseHopByHop := by
  have hall : ∀ k ∈ ownNames, lower (trim k) ∈ responseHopByHop →
      (k = ascii "Content-Length" ∨ k = ascii "Connection") ∧ lower k ∈ responseHopByHop := by
    decide +kernel
  exact hall k hk hhop

lemma trimmed_lower {b : Bytes} : Trimmed (lower b) ↔ Trimmed b := by
  have hblank : ∀ c, isBlank (toLower c) = isBlank c := forall_byte (by decide +kernel)
  simp [Trimmed, lower, List.head?_map, List.getLast?_map, hblank]

/-- A name with blanks around it is not in a list of names. -/
lemma trimmed_of_mem_listElements {value name : Bytes} (h : name ∈ listElements value) :
    Trimmed name := by
  simp only [listElements, List.mem_filter, List.mem_map] at h
  obtain ⟨⟨t, -, rfl⟩, -⟩ := h
  exact trimmed_lower.mpr (trimmed_trim t)

/-- The lines with a name, as `read` makes it out, when only one spelling of it is in
the map. -/
lemma filter_spelled (read : Bytes → Bytes) (headers : Headers) {name : Bytes} (key : Bytes)
    (h : ∀ e ∈ headers.entries, read e.1 = name ↔ e.1 = key) :
    ((headers.entries.map fun e => (e.1, trim e.2)).filter fun f => read f.1 = name) =
      (headers.lookup key).toList.map fun v => (key, trim v) := by
  have hexact : (headers.entries.filter
      ((fun f : Bytes × Bytes => decide (read f.1 = name)) ∘ fun e => (e.1, trim e.2))) =
      headers.entries.filter fun e => e.1 = key := by
    apply List.filter_congr
    intro e he
    simp [h e he]
  rw [List.filter_map, hexact, ← filter_entries_name, List.map_map]
  apply List.map_congr_left
  intro e he
  have hname : e.1 = key := by simpa using (List.mem_filter.mp he).2
  simp [hname]

section Head

variable {env : Env} {keepAlive : Bool} {fresh : Fresh} {req : HttpRequest} {headersPart : Bytes}
  {be : BackendResponse}

/-- What a client reads off the header block. -/
lemma headFields_clientResponse (hbe : be.headers = parseHeaders headersPart)
    (hreq : CleanTrace req) (hfresh : fresh.Generated) :
    headFields (headersToString (clientResponse env keepAlive fresh req be)) =
      (clientResponse env keepAlive fresh req be).headers.entries.map fun e => (e.1, trim e.2) :=
  headFields_headersToString unbroken_statusMessage (clientResponse_safe hbe hreq hfresh)

/-- Without hidden names a line with a name of the backend's hop is one of the two
that the gateway writes. -/
lemma entry_hopByHop (hbe : be.headers = parseHeaders headersPart) (hreq : CleanTrace req)
    (hfresh : fresh.Generated) (hplain : PlainHopNames (headFields headersPart)) {k v : Bytes}
    (hlookup : (clientResponse env keepAlive fresh req be).headers.lookup k = some v)
    (hhop : lower (trim k) ∈ responseHopByHop) :
    k = ascii "Content-Length" ∨ k = ascii "Connection" := by
  by_cases hk : k ∈ ownNames
  · exact (ownNames_hopByHop hk hhop).1
  · rcases (lookup_relayed env keepAlive hbe hreq hfresh hk).mp hlookup with
      ⟨hlast, hname, hvalue, hnot, -⟩
    exact absurd (hplain k v hlast hname hvalue hhop) hnot

/-- The lines with a name of the backend's hop, when no name is hidden. -/
lemma filter_hopByHop (hbe : be.headers = parseHeaders headersPart) (hreq : CleanTrace req)
    (hfresh : fresh.Generated) (hplain : PlainHopNames (headFields headersPart)) {name : Bytes}
    (hname : name ∈ responseHopByHop) :
    ((headFields (headersToString (clientResponse env keepAlive fresh req be))).filter
        fun f => lower (trim f.1) = name) =
      ownLines keepAlive (clientResponse env keepAlive fresh req be) name := by
  rw [headFields_clientResponse hbe hreq hfresh]
  have hlength : lower (trim (ascii "Content-Length")) = ascii "content-length" := by
    decide +kernel
  have hconnection : lower (trim (ascii "Connection")) = ascii "connection" := by decide +kernel
  have hne : ascii "content-length" ≠ ascii "connection" := by simp [ascii]
  -- the entries that are left are told apart by their exact name
  have hentry : ∀ e ∈ (clientResponse env keepAlive fresh req be).headers.entries,
      lower (trim e.1) = name → e.1 = ascii "Content-Length" ∨ e.1 = ascii "Connection" := by
    intro e he heq
    exact entry_hopByHop hbe hreq hfresh hplain (AList.mem_lookup_iff.mpr he) (heq ▸ hname)
  unfold ownLines
  split
  · rename_i hcl
    subst hcl
    rw [filter_spelled (fun k => lower (trim k)) _ (ascii "Content-Length"), lookup_contentLength]
    · simp [trim_decimal]
    · intro e he
      constructor
      · intro heq
        rcases hentry e he heq with hcl | hconn
        · exact hcl
        · rw [hconn, hconnection] at heq
          exact absurd heq.symm hne
      · rintro heq
        rw [heq, hlength]
  · rename_i hcl
    split
    · rename_i hconn
      subst hconn
      rw [filter_spelled (fun k => lower (trim k)) _ (ascii "Connection"), lookup_connection]
      · have htrim : trim (connectionText keepAlive) = connectionText keepAlive := by
          cases keepAlive <;> decide +kernel
        simp [htrim]
      · intro e he
        constructor
        · intro heq
          rcases hentry e he heq with hcl' | hconn
          · rw [hcl', hlength] at heq
            exact absurd heq hne
          · exact hconn
        · intro heq
          rw [heq, hconnection]
    · rename_i hconn
      rw [List.filter_eq_nil_iff]
      intro f hf heq
      obtain ⟨e, he, rfl⟩ := List.mem_map.mp hf
      have heq' : lower (trim e.1) = name := by simpa using heq
      rcases hentry e he heq' with h | h
      · rw [h, hlength] at heq'
        exact hcl heq'.symm
      · rw [h, hconnection] at heq'
        exact hconn heq'.symm

/-- The header block is framed by the gateway alone, exactly if no header of the
backend hides a name of its hop behind blanks. -/
lemma ownFraming_iff (hbe : be.headers = parseHeaders headersPart) (hreq : CleanTrace req)
    (hfresh : fresh.Generated) :
    OwnFraming keepAlive (clientResponse env keepAlive fresh req be) ↔
      PlainHopNames (headFields headersPart) := by
  constructor
  · intro hown k v hlast hname hvalue hhop
    by_contra hnot
    have hk : k ∉ ownNames := fun hk => hnot (ownNames_hopByHop hk hhop).2
    have htoken : lower k ∉ responseConnectionTokens (parseHeaders headersPart) := by
      intro hmem
      obtain ⟨value, -, helement⟩ := mem_responseConnectionTokens.mp hmem
      -- a name in Connection has no blanks around it, and would be recognised
      have htrimmed : Trimmed k := trimmed_lower.mp (trimmed_of_mem_listElements helement)
      rw [trim_of_trimmed htrimmed] at hhop
      exact hnot hhop
    have hlookup := (lookup_relayed env keepAlive hbe hreq hfresh hk).mpr
      ⟨hlast, hname, hvalue, hnot, htoken⟩
    have hline : (k, trim v) ∈
        (headFields (headersToString (clientResponse env keepAlive fresh req be))).filter
          fun f => lower (trim f.1) = lower (trim k) := by
      rw [headFields_clientResponse hbe hreq hfresh, List.mem_filter]
      exact ⟨List.mem_map.mpr ⟨⟨k, v⟩, AList.mem_lookup_iff.mp hlookup, rfl⟩, by simp⟩
    rw [hown.framing _ hhop] at hline
    unfold ownLines at hline
    split at hline
    · rw [List.mem_singleton, Prod.mk.injEq] at hline
      exact hk (by simp [hline.1, ownNames])
    · split at hline
      · rw [List.mem_singleton, Prod.mk.injEq] at hline
        exact hk (by simp [hline.1, ownNames])
      · cases hline
  · intro hplain
    constructor
    · exact crlfLines_headersToString unbroken_statusMessage (clientResponse_safe hbe hreq hfresh)
    · intro name hname
      exact filter_hopByHop hbe hreq hfresh hplain hname

end Head

/-- A response that an exchange has read, to an accepted request: the gateway frames
what it writes to the client, exactly if no header line that could go through hides
a name of the backend's hop behind blanks. -/
theorem own_framing_iff (frags : List Bytes) (env : Env) (o : Oracle) (keepAlive : Bool)
    (fresh : Fresh) (x : Exchange)
    (haccepted : (feedFragments {} {} [] frags).outcome = .complete)
    (ho : o.fresh.Generated) (hfresh : fresh.Generated) (hok : x.finishOk.succeeded = true) :
    OwnFraming keepAlive
        (clientResponse env keepAlive fresh
          (dispatched env o (feedFragments {} {} [] frags).request) x.finishOk.result) ↔
      PlainHopNames (headFields (responseHead x)) :=
  ownFraming_iff (finishOk_headers hok)
    (dispatched_cleanTrace env (sound_of_complete haccepted).1 (traceId_feedFragments frags) ho)
    hfresh

/-- An exchange that has received these bytes. -/
def received (bytes : Bytes) : Exchange :=
  { params := backendParams, idempotent := true, phase := .read, responseBytes := bytes }

/-- A client's request. -/
def plainRequest : Bytes := ascii "GET /p HTTP/1.1\r\n\r\n"

/-- A response with a header of its hop and two for the client. -/
def taggedResponse : Bytes :=
  ascii "HTTP/1.1 200 OK\r\nKeep-Alive: 5\r\nETag: a\r\nVary: b\r\nContent-Length: 0\r\n\r\n"

theorem own_framing_tagged :
    OwnFraming true
      (clientResponse openGateway true {}
        (dispatched openGateway {} (feedFragments {} {} [] [plainRequest]).request)
        (received taggedResponse).finishOk.result) := by
  have hplain : ∀ f ∈ headFields (responseHead (received taggedResponse)),
      lower (trim f.1) ∈ responseHopByHop → lower f.1 ∈ responseHopByHop := by decide +kernel
  exact (own_framing_iff [plainRequest] openGateway {} true {} (received taggedResponse)
    (by decide +kernel) ⟨by decide +kernel, by decide +kernel⟩
    ⟨by decide +kernel, by decide +kernel⟩ (by decide +kernel)).mpr
    fun k v hlast _ _ hhop => hplain (k, v) (Fields.mem_of_lastValue hlast) hhop

/-- A blank in front of the first colon. -/
def hiddenLength : Bytes :=
  ascii "HTTP/1.1 200 OK\r\nContent-Length : 5\r\nContent-Length: 0\r\n\r\n"

/-- The blank hides a Content-Length from the gateway, and the client gets two. -/
theorem hidden_length_relayed :
    (received hiddenLength).tryFrame.2 = .complete ∧
    (received hiddenLength).tryFrame.1.finishOk.succeeded = true ∧
    ((headFields (headersToString (clientResponse openGateway true {}
        (dispatched openGateway {} (feedFragments {} {} [] [plainRequest]).request)
        (received hiddenLength).tryFrame.1.finishOk.result))).filter
        fun f => lower (trim f.1) = ascii "content-length") =
      [(ascii "Content-Length", ascii "0"), (ascii "Content-Length ", ascii "5")] ∧
    ¬ OwnFraming true
      (clientResponse openGateway true {}
        (dispatched openGateway {} (feedFragments {} {} [] [plainRequest]).request)
        (received hiddenLength).tryFrame.1.finishOk.result) := by
  have htwo : ((headFields (headersToString (clientResponse openGateway true {}
      (dispatched openGateway {} (feedFragments {} {} [] [plainRequest]).request)
      (received hiddenLength).tryFrame.1.finishOk.result))).filter
      fun f => lower (trim f.1) = ascii "content-length") =
      [(ascii "Content-Length", ascii "0"), (ascii "Content-Length ", ascii "5")] := by
    decide +kernel
  refine ⟨by decide +kernel, by decide +kernel, htwo, ?_⟩
  intro hown
  have hone := hown.framing (ascii "content-length") (by simp [responseHopByHop])
  rw [htwo, ownLines, if_pos rfl] at hone
  exact absurd (congrArg List.length hone) (by simp)

/-! ## Headers that the backend repeats -/

/-- The headers that the gateway sets itself, in lower case. -/
def gatewayNames : List Bytes :=
  [ascii "x-trace-id", ascii "traceparent", ascii "connection", ascii "server",
    ascii "content-encoding", ascii "content-length", ascii "transfer-encoding"]

/-- A line that is meant for the client: not of the backend's hop, not named in a
Connection line, without CR and LF, and not set by the gateway. -/
structure EndToEnd (fields : List (Bytes × Bytes)) (f : Bytes × Bytes) : Prop where
  hop : lower f.1 ∉ responseHopByHop
  unnamed : lower f.1 ∉ connectionNames fields
  name : Unbroken f.1
  value : Unbroken f.2
  foreign : lower f.1 ∉ gatewayNames

/-- Every line that is meant for the client is in the header block as often as the
backend sent it. -/
def SameMultiplicity (fields : List (Bytes × Bytes)) (head : Bytes) : Prop :=
  ∀ f ∈ fields, EndToEnd fields f → (headFields head).count f = fields.count f

/-- No line that is meant for the client is followed by another one with its name. -/
def SaidOnce (fields : List (Bytes × Bytes)) : Prop :=
  ∀ a f b, fields = a ++ f :: b → EndToEnd fields f → ∀ g ∈ b, g.1 ≠ f.1

lemma EndToEnd.notOwn {f : Bytes × Bytes} (h : EndToEnd fields f) : f.1 ∉ ownNames := by
  have hall : ∀ k ∈ ownNames, lower k ∈ gatewayNames := by decide +kernel
  exact fun hk => h.foreign (hall _ hk)

lemma count_pair (l : List (Bytes × Bytes)) (f : Bytes × Bytes) :
    l.count f = ((l.filter fun g => g.1 = f.1).map (·.2)).count f.2 := by
  induction l with
  | nil => rfl
  | cons g rest ih =>
    obtain ⟨k, v⟩ := f
    obtain ⟨k', v'⟩ := g
    by_cases hk : k' = k
    · subst hk
      simp [List.count_cons, ih]
    · simp [ih, hk]

/-- A line of the header block is there once or not at all. -/
lemma count_headFields {env : Env} (hbe : be.headers = parseHeaders headersPart)
    (hreq : CleanTrace req) (hfresh : fresh.Generated) {f : Bytes × Bytes}
    (hf : EndToEnd (headFields headersPart) f) :
    (headFields (headersToString (clientResponse env keepAlive fresh req be))).count f =
      if Fields.lastValue (headFields headersPart) f.1 = some f.2 then 1 else 0 := by
  have hvalues : (((clientResponse env keepAlive fresh req be).headers.entries.map
      fun e => (e.1, trim e.2)).filter fun g => g.1 = f.1).map (·.2) =
      ((clientResponse env keepAlive fresh req be).headers.lookup f.1).toList.map trim := by
    rw [← filter_entries_name, List.filter_map, List.map_map, List.map_map]
    rfl
  have htoken : lower f.1 ∉ responseConnectionTokens (parseHeaders headersPart) := by
    intro hmem
    obtain ⟨value, hcounts, helement⟩ := mem_responseConnectionTokens.mp hmem
    exact hf.unnamed (hcounts.names helement)
  have hrelayed := fun v => lookup_relayed env keepAlive (v := v) hbe hreq hfresh hf.notOwn
  rw [headFields_clientResponse hbe hreq hfresh, count_pair, hvalues]
  rcases hlookup : (clientResponse env keepAlive fresh req be).headers.lookup f.1 with _ | v
  · -- a line that is missing is not the last one of its name
    have hlast : Fields.lastValue (headFields headersPart) f.1 ≠ some f.2 := by
      intro hlast
      have hthere := (hrelayed f.2).mpr ⟨hlast, hf.name, hf.value, hf.hop, htoken⟩
      rw [hlookup] at hthere
      cases hthere
    simp [hlast]
  · have hlast := ((hrelayed v).mp hlookup).1
    have htrim : trim v = v := (headFields_shape (Fields.mem_of_lastValue hlast)).2
    by_cases hv : v = f.2
    · subst hv
      simp [hlast, htrim]
    · simp [hlast, htrim, hv]

/-- What the backend sends for the client gets there as often as it was sent, exactly
if no such line is followed by another one with its name. -/
lemma sameMultiplicity_iff {env : Env} (hbe : be.headers = parseHeaders headersPart)
    (hreq : CleanTrace req) (hfresh : fresh.Generated) :
    SameMultiplicity (headFields headersPart)
        (headersToString (clientResponse env keepAlive fresh req be)) ↔
      SaidOnce (headFields headersPart) := by
  unfold SameMultiplicity SaidOnce
  generalize hfields : headFields headersPart = fields
  have hcount : ∀ f, EndToEnd fields f →
      (headFields (headersToString (clientResponse env keepAlive fresh req be))).count f =
        if Fields.lastValue fields f.1 = some f.2 then 1 else 0 := by
    rw [← hfields]
    exact fun f hf => count_headFields hbe hreq hfresh hf
  constructor
  · intro hsame a f b hsplit hend g hg heq
    have hmem : f ∈ fields := by simp [hsplit]
    have hone := hsame f hmem hend
    rw [hcount f hend] at hone
    have hpos : 0 < fields.count f := List.count_pos_iff.mpr hmem
    -- the line is the last one of its name, so it stands behind itself once more
    have hlast : Fields.lastValue fields f.1 = some f.2 := by
      by_contra hnot
      rw [if_neg hnot] at hone
      omega
    obtain ⟨v, hv⟩ := Fields.lastValue_isSome hg
    rw [heq] at hv
    have hback : Fields.lastValue fields f.1 = some v := by
      rw [hsplit, show a ++ f :: b = (a ++ [f]) ++ b by simp]
      exact Fields.lastValue_append_right hv
    rw [hlast] at hback
    cases hback
    have hagain : f ∈ b := Fields.mem_of_lastValue hv
    rw [if_pos hlast, hsplit] at hone
    have htwice : 0 < b.count f := List.count_pos_iff.mpr hagain
    simp only [List.count_append, List.count_cons_self] at hone
    omega
  · intro honce f hmem hend
    obtain ⟨a, b, hsplit⟩ := List.append_of_mem hmem
    have hb := honce a f b hsplit hend
    have ha : f ∉ a := by
      intro hin
      obtain ⟨c, d, hcd⟩ := List.append_of_mem hin
      exact honce c f (d ++ f :: b) (by simp [hsplit, hcd]) hend f (by simp) rfl
    have hlast : Fields.lastValue fields f.1 = some f.2 := by
      rw [hsplit, show a ++ f :: b = (a ++ [f]) ++ b by simp, Fields.lastValue_append hb,
        Fields.lastValue_concat, if_pos rfl]
    have hnone : b.count f = 0 := List.count_eq_zero.mpr fun hin => hb f hin rfl
    rw [hcount f hend, if_pos hlast, hsplit]
    simp [List.count_eq_zero.mpr ha, hnone]

/-- The same for a response that an exchange has read, to an accepted request. -/
theorem multiplicity_iff (frags : List Bytes) (env : Env) (o : Oracle) (keepAlive : Bool)
    (fresh : Fresh) (x : Exchange)
    (haccepted : (feedFragments {} {} [] frags).outcome = .complete)
    (ho : o.fresh.Generated) (hfresh : fresh.Generated) (hok : x.finishOk.succeeded = true) :
    SameMultiplicity (headFields (responseHead x))
        (headersToString (clientResponse env keepAlive fresh
          (dispatched env o (feedFragments {} {} [] frags).request) x.finishOk.result)) ↔
      SaidOnce (headFields (responseHead x)) :=
  sameMultiplicity_iff (finishOk_headers hok)
    (dispatched_cleanTrace env (sound_of_complete haccepted).1 (traceId_feedFragments frags) ho)
    hfresh

/-- Lines with different names are each said once. -/
lemma saidOnce_of_nodup (h : (fields.map (·.1)).Nodup) : SaidOnce fields := by
  rintro a f b rfl - g hg heq
  rw [List.map_append, List.map_cons] at h
  have hnot := (List.nodup_cons.mp (List.nodup_append.mp h).2.1).1
  exact hnot (heq ▸ List.mem_map_of_mem hg)

/-- Two different headers go through. -/
theorem multiplicity_tagged :
    SameMultiplicity (headFields (responseHead (received taggedResponse)))
      (headersToString (clientResponse openGateway true {}
        (dispatched openGateway {} (feedFragments {} {} [] [plainRequest]).request)
        (received taggedResponse).finishOk.result)) :=
  (multiplicity_iff [plainRequest] openGateway {} true {} (received taggedResponse)
    (by decide +kernel) ⟨by decide +kernel, by decide +kernel⟩
    ⟨by decide +kernel, by decide +kernel⟩ (by decide +kernel)).mpr
      (saidOnce_of_nodup (by decide +kernel))

def twoCookies : Bytes :=
  ascii "HTTP/1.1 200 OK\r\nSet-Cookie: a=1\r\nSet-Cookie: b=2\r\nContent-Length: 0\r\n\r\n"

/-- Of two cookies the client gets the second one only. -/
theorem cookie_lost :
    (received twoCookies).tryFrame.2 = .complete ∧
    (received twoCookies).tryFrame.1.finishOk.succeeded = true ∧
    ((headFields (headersToString (clientResponse openGateway true {}
        (dispatched openGateway {} (feedFragments {} {} [] [plainRequest]).request)
        (received twoCookies).tryFrame.1.finishOk.result))).filter
        fun f => lower f.1 = ascii "set-cookie") =
      [(ascii "Set-Cookie", ascii "b=2")] ∧
    ¬ SameMultiplicity (headFields (responseHead (received twoCookies)))
      (headersToString (clientResponse openGateway true {}
        (dispatched openGateway {} (feedFragments {} {} [] [plainRequest]).request)
        (received twoCookies).tryFrame.1.finishOk.result)) := by
  refine ⟨by decide +kernel, by decide +kernel, by decide +kernel, ?_⟩
  intro hsame
  have hcount := hsame (ascii "Set-Cookie", ascii "a=1") (by decide +kernel)
    ⟨by decide +kernel, by decide +kernel, by decide +kernel, by decide +kernel, by decide +kernel⟩
  revert hcount
  decide +kernel

end EpollGateway.Handler
