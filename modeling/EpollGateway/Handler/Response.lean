import EpollGateway.Handler.Route
import Mathlib.Data.List.Infix

/-! # Building responses

The pure parts of the response path: error pages, trace correlation, the relay of
a backend response, and what `finalize_response` does to a response before it is
serialised.
-/

namespace EpollGateway.Handler

open Bytes Http

/-! ## Trace correlation -/

def isXDigit (c : UInt8) : Bool := (hexVal? c).isSome

/-- `parse_trace_id_from_traceparent`: the second field, if it is 32 hexadecimal
digits, and the empty text otherwise. -/
def parseTraceIdFromTraceparent (traceparent : Bytes) : Bytes :=
  if traceparent.length < 35 then []
  else
    match traceparent.dropWhile (· ≠ 45) with
    | [] => []
    | _ :: rest =>
      let traceId := rest.takeWhile (· ≠ 45)
      if 45 ∈ rest ∧ traceId.length = 32 ∧ traceId.all isXDigit then traceId else []

/-- `normalize_trace_id_for_traceparent`; `fresh` is what `generate_trace_id` gives for an
empty one. -/
def normalizeTraceId (fresh traceId : Bytes) : Bytes :=
  let traceId := if traceId = [] then fresh else traceId
  let digits := (traceId.filter isXDigit).take 32
  List.replicate (32 - digits.length) 48 ++ digits

/-- `generate_traceparent`; `parentId` is the hash of the dependency name and the clock. -/
def generateTraceparent (fresh traceId : Bytes) (parentId : Nat) : Bytes :=
  let parent := hexText parentId
  ascii "00-" ++ normalizeTraceId fresh (if traceId = [] then fresh else traceId) ++ ascii "-" ++
    (List.replicate (16 - parent.length) 48 ++ parent) ++ ascii "-01"

lemma normalizeTraceId_fresh (fresh traceId : Bytes) :
    normalizeTraceId fresh (if traceId = [] then fresh else traceId) =
      normalizeTraceId fresh traceId := by
  unfold normalizeTraceId
  by_cases h : traceId = [] <;> simp [h]

lemma normalizeTraceId_hex (fresh traceId : Bytes) :
    (normalizeTraceId fresh traceId).length = 32 ∧
      (normalizeTraceId fresh traceId).all isXDigit := by
  simp only [normalizeTraceId, List.length_append, List.length_replicate, List.all_append,
    Bool.and_eq_true, List.all_eq_true]
  refine ⟨?_, fun c hc => ?_, fun c hc => (List.mem_filter.mp (List.mem_of_mem_take hc)).2⟩
  · rw [List.length_take]
    omega
  · rw [List.eq_of_mem_replicate hc]
    rfl

/-- Who reads what the gateway writes finds the normalised identifier. -/
theorem traceparent_round_trip (fresh traceId : Bytes) (parentId : Nat) :
    parseTraceIdFromTraceparent (generateTraceparent fresh traceId parentId) =
      normalizeTraceId fresh traceId := by
  obtain ⟨hlen, hhex⟩ := normalizeTraceId_hex fresh traceId
  unfold generateTraceparent
  rw [normalizeTraceId_fresh]
  generalize normalizeTraceId fresh traceId = digits at *
  have hdash : ∀ c ∈ digits, decide (c ≠ 45) = true := by
    intro c hc
    have hdigit := List.all_eq_true.mp hhex c hc
    rw [decide_eq_true_eq]
    rintro rfl
    cases hdigit
  have hshape (rest : Bytes) : parseTraceIdFromTraceparent (48 :: 48 :: 45 ::
      (digits ++ 45 :: rest)) = digits := by
    have htake : (digits ++ 45 :: rest).takeWhile (· ≠ 45) = digits := by
      rw [List.takeWhile_append_of_pos hdash]
      simp
    have hlong : ¬ (digits ++ 45 :: rest).length + 3 < 35 := by
      rw [List.length_append]
      omega
    refine (if_neg hlong).trans ?_
    change ite (_ ∧ _ ∧ _) (List.takeWhile _ _) _ = _
    rw [htake, if_pos ⟨by simp, hlen, hhex⟩]
  simpa [ascii] using hshape _

/-! ## Pages -/

/-- Status, an HTML heading, and the headers that describe it. -/
def htmlResponse (code : Int) (status : String) (message : Bytes) : HttpResponse :=
  let body := ascii "<h1>" ++ intText code ++ [sp] ++ message ++ ascii "</h1>"
  { statusCode := code
    statusMessage := ascii status
    body := body
    headers := ((∅ : Headers).insert (ascii "Content-Type") (ascii "text/html")).insert
      (ascii "Content-Length") (decimal body.length) }

def makeErrorResponse (code : Int) (status : String) (message : Bytes) : HttpResponse :=
  let resp := htmlResponse code status message
  { resp with headers := resp.headers.insert (ascii "Connection") (ascii "close") }

def mimeTypes : List (String × String) :=
  [(".html", "text/html"), (".htm", "text/html"), (".css", "text/css"),
    (".js", "application/javascript"), (".json", "application/json"), (".png", "image/png"),
    (".jpg", "image/jpeg"), (".jpeg", "image/jpeg"), (".gif", "image/gif"),
    (".svg", "image/svg+xml"), (".ico", "image/x-icon"), (".txt", "text/plain"),
    (".xml", "application/xml"), (".pdf", "application/pdf"), (".zip", "application/zip"),
    (".mp3", "audio/mpeg"), (".mp4", "video/mp4")]

/-- The type for the extension behind the last dot. -/
def getContentType (path : Bytes) : Bytes :=
  let ext := 46 :: (path.reverse.takeWhile (· ≠ 46)).reverse
  if 46 ∈ path then
    match mimeTypes.find? fun m => ascii m.1 = ext with
    | some m => ascii m.2
    | none => ascii "application/octet-stream"
  else ascii "application/octet-stream"

/-! ## The relay of a backend response -/

/-- `BackendResponse::Error`. -/
inductive BackendError where
  | none | connectFailed | connectTimeout | writeFailed | writeTimeout | readFailed | readTimeout
  | invalidResponse
deriving DecidableEq, Repr

structure BackendResponse where
  statusCode : Int := 502
  headers : List (Bytes × Bytes) := []
  body : Bytes := []
  error : BackendError := .none
deriving DecidableEq

/-- The three timeout errors. -/
def BackendError.timedOut (e : BackendError) : Bool :=
  e = .connectTimeout || e = .writeTimeout || e = .readTimeout

def isTransientBackendError (e : BackendError) : Bool :=
  e = .connectFailed || e = .connectTimeout || e = .writeFailed || e = .writeTimeout ||
    e = .readFailed || e = .readTimeout

def isIdempotent (method : Bytes) : Bool :=
  method = ascii "GET" || method = ascii "HEAD" || method = ascii "OPTIONS"

/-- At most two attempts, for idempotent methods and transient errors. -/
def shouldRetryBackendRequest (method : Bytes) (error : BackendError) (attemptCount : Nat) : Bool :=
  if attemptCount ≥ 2 then false else isIdempotent method && isTransientBackendError error

def responseHopByHop : List Bytes :=
  [ascii "content-length", ascii "transfer-encoding", ascii "connection", ascii "keep-alive",
    ascii "proxy-authenticate", ascii "proxy-authorization", ascii "proxy-connection", ascii "te",
    ascii "trailer", ascii "upgrade"]

/-- The comma-separated elements of the first Connection header, trimmed and in
lower case. -/
def responseConnectionTokens (headers : List (Bytes × Bytes)) : List Bytes :=
  match headers.find? fun h => lower h.1 = ascii "connection" with
  | none => []
  | some h => ((h.2.splitOn 44).map fun t => lower (trim t)).filter (· ≠ [])

/-- The header lines that are passed on to the client. -/
def relayedHeaders (headers : List (Bytes × Bytes)) : List (Bytes × Bytes) :=
  let tokens := responseConnectionTokens headers
  headers.filter fun h =>
    cr ∉ h.1 && lf ∉ h.1 && cr ∉ h.2 && lf ∉ h.2 &&
      lower h.1 ∉ responseHopByHop && lower h.1 ∉ tokens

/-- The client response for a backend response. -/
def relayResponse (be : BackendResponse) : HttpResponse :=
  { statusCode := be.statusCode
    statusMessage :=
      if 200 ≤ be.statusCode ∧ be.statusCode < 300 then ascii "OK" else ascii "Upstream Response"
    body := be.body
    headers :=
      ((relayedHeaders be.headers).foldl (fun hs h => hs.insert h.1 h.2) (∅ : Headers)).insert
        (ascii "Content-Length") (decimal be.body.length) }

/-- The client response for a backend that failed for good. -/
def backendFailure (error : BackendError) : HttpResponse :=
  if error.timedOut then
    makeErrorResponse 504 "Gateway Timeout" (ascii "The upstream service timed out")
  else
    makeErrorResponse 502 "Bad Gateway"
      (ascii "The upstream service returned an invalid response or could not be reached")

/-! ## Framing -/

def gatewayVersion : String := "0.3.0"

/-- `has_content_encoding`. -/
def hasContentEncoding (resp : HttpResponse) : Bool :=
  resp.headers.entries.any fun h => lower h.1 = ascii "content-encoding" && h.2 ≠ []

def compressibleTypes : List Bytes :=
  [ascii "text/", ascii "application/json", ascii "application/javascript",
    ascii "application/xml", ascii "image/svg+xml"]

def acceptsGzip (req : HttpRequest) : Bool :=
  match req.headers.lookup (ascii "accept-encoding") with
  | none => false
  | some v => ascii "gzip" <:+: v

def shouldCompress (req : HttpRequest) (resp : HttpResponse) : Bool :=
  !hasContentEncoding resp && acceptsGzip req &&
    match resp.headers.lookup (ascii "Content-Type") with
    | none => false
    | some type => compressibleTypes.any (· <+: type) && resp.body ≠ []

/-- A header that is only written when it is absent. -/
def insertIfAbsent (headers : Headers) (name value : Bytes) : Headers :=
  if (headers.lookup name).isSome then headers else headers.insert name value

/-- The value for `X-Trace-Id`. -/
def traceIdOr (req : HttpRequest) (fresh : Bytes) : Bytes :=
  if req.traceId = [] then fresh else req.traceId

/-- The value for `Traceparent`. -/
def traceparentOr (req : HttpRequest) (fresh : Bytes) : Bytes :=
  (req.headers.lookup (ascii "traceparent")).getD fresh

/-- One chunk for the whole body, then the terminating chunk. -/
def chunkedText (body : Bytes) : Bytes :=
  (if body ≠ [] then hexText body.length ++ crlf ++ body ++ crlf else []) ++ ascii "0\r\n\r\n"

/-- What `finalize_response` does to the response itself. `gzip` is the
compressor, `traceId` and `traceparent` are freshly generated values. -/
def frameResponse (gzip : Bytes → Option Bytes) (keepAlive : Bool) (traceId traceparent : Bytes)
    (req : HttpRequest) (resp : HttpResponse) (alreadyCompressed : Bool) : HttpResponse :=
  let headers := insertIfAbsent resp.headers (ascii "X-Trace-Id") (traceIdOr req traceId)
  let headers := insertIfAbsent headers (ascii "Traceparent") (traceparentOr req traceparent)
  let headers := headers.insert (ascii "Connection")
    (if keepAlive then ascii "keep-alive" else ascii "close")
  let headers := headers.insert (ascii "Server") (ascii "EpollHTTP/" ++ ascii gatewayVersion)
  let resp := { resp with headers := headers }
  let resp :=
    if req.method ≠ ascii "HEAD" ∧ ¬ alreadyCompressed ∧ shouldCompress req resp then
      match gzip resp.body with
      | some compressed =>
        { resp with
          body := compressed
          headers := (resp.headers.insert (ascii "Content-Encoding") (ascii "gzip")).insert
            (ascii "Content-Length") (decimal compressed.length) }
      | none => resp
    else resp
  if resp.chunked then
    { resp with
      headers := (resp.headers.erase (ascii "Content-Length")).insert
        (ascii "Transfer-Encoding") (ascii "chunked")
      body := chunkedText resp.body }
  else resp

end EpollGateway.Handler
