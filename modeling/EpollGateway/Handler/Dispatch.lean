import EpollGateway.Handler.Conn

/-! # From a parsed request to a response

One pass of the inner loop of `handle_read`: the parser runs over the buffer, and
a complete request is routed, authorised, counted and answered. `parsePass` is
that pass.
-/

namespace EpollGateway.Handler

open Bytes Http Upstream

/-- What the file system says about a static path: outside the root, not there,
not readable, or a file of some size under its resolved path. -/
inductive StaticAnswer where
  | unsafePath
  | missing
  | unreadable
  | found (fd size : Nat) (resolved : Bytes)

/-- The values a dispatch takes from its surroundings: generated trace values, the
limiter, the answer of a local handler (`none` when it throws), the file system,
and what an exchange sees. -/
structure Oracle where
  fresh : Fresh := {}
  tryAcquire : Bytes → Bool := fun _ => true
  localAnswer : Option HttpResponse := some {}
  static : StaticAnswer := .missing
  sur : Surroundings := {}

/-! ## Preparing the request -/

def traceparentName : Bytes := ascii "traceparent"
def traceIdName : Bytes := ascii "x-trace-id"
def routeNameName : Bytes := ascii "x-route-name"

/-- The trace id that a request without one gets. -/
def chooseTraceId (fresh : Fresh) (headers : Headers) : Bytes :=
  match headers.lookup traceIdName with
  | some id => id
  | none =>
    match headers.lookup traceparentName with
    | some tp =>
      if parseTraceIdFromTraceparent tp = [] then fresh.traceId else parseTraceIdFromTraceparent tp
    | none => fresh.traceId

/-- Host, tenant and trace correlation. -/
def prepareRequest (fresh : Fresh) (req : HttpRequest) : HttpRequest :=
  let traceId := if req.traceId = [] then chooseTraceId fresh req.headers else req.traceId
  { req with
    host := (req.headers.lookup (ascii "host")).getD req.host
    tenant := (req.headers.lookup (ascii "x-tenant-id")).getD req.tenant
    traceId := traceId
    headers := (insertIfAbsent req.headers traceparentName fresh.traceparent).insert traceIdName
      traceId }

/-- The request as it is dispatched, with the name of its route. -/
def nameRoute (req : HttpRequest) : Option RegisteredRoute → HttpRequest
  | none => req
  | some reg => { req with headers := req.headers.insert routeNameName (routeName reg.route) }

/-- The request that goes to the routes. -/
def dispatched (env : Env) (o : Oracle) (req : HttpRequest) : HttpRequest :=
  nameRoute (prepareRequest o.fresh req) (resolveRoute env.routes (prepareRequest o.fresh req)).route

/-! ## Answering on the spot -/

/-- The trace headers of `send_response`. -/
def withTrace (fresh : Fresh) (req : HttpRequest) (resp : HttpResponse) : HttpResponse :=
  { resp with
    headers := insertIfAbsent (resp.headers.insert (ascii "X-Trace-Id") (traceIdOr req fresh.traceId))
      (ascii "Traceparent") (traceparentOr req fresh.traceparent) }

def notFoundPage : HttpResponse := htmlResponse 404 "Not Found" (ascii "Not Found")

def forbiddenPage : HttpResponse := htmlResponse 403 "Forbidden" (ascii "Forbidden")

/-- A response with a file as its body. -/
def fileResponse (path body : Bytes) (length : Nat) : HttpResponse :=
  { body := body
    headers := ((∅ : Headers).insert (ascii "Content-Type") (getContentType path)).insert
      (ascii "Content-Length") (decimal length) }

/-- `dispatch_route`; `none` is an exception of a local handler. -/
def dispatchRoute (env : Env) (o : Oracle) (reg : RegisteredRoute) :
    Option HttpResponse :=
  match reg.route.targetType with
  | .local => if reg.handler then o.localAnswer else some notFoundPage
  | .composite =>
    some (makeErrorResponse 500 "Internal Server Error"
      (ascii "composite route dispatched synchronously"))
  | .upstream =>
    some (makeErrorResponse 500 "Internal Server Error"
      (ascii "upstream route dispatched synchronously"))
  | .static =>
    match o.static with
    | .unsafePath => some forbiddenPage
    | .missing => some notFoundPage
    | .unreadable => some notFoundPage
    | .found fd size resolved => some (fileResponse resolved (fileBytes (env.file fd) 0 size) size)
  | .other => some notFoundPage

def maxInline : Nat := 1024 * 1024

/-- The path that the static fallback serves. -/
def staticPath (req : HttpRequest) : Bytes :=
  if req.path = [] ∨ req.path = ascii "/" then ascii "/index.html" else req.path

/-- A small file: compressed for a client that accepts it. The second component is
`already_compressed`. -/
def inlineFile (env : Env) (req : HttpRequest) (content : Bytes) : HttpResponse × Bool :=
  match if acceptsGzip req then env.gzip content else none with
  | some compressed =>
    let resp := fileResponse (staticPath req) compressed compressed.length
    ({ resp with headers := resp.headers.insert (ascii "Content-Encoding") (ascii "gzip") }, true)
  | none => (fileResponse (staticPath req) content content.length, false)

/-- The static fallback for a request without a route. -/
def staticFallback (env : Env) (o : Oracle) (id : Nat) (req : HttpRequest) (c : Conn) : Conn :=
  let answer (resp : HttpResponse) : Conn :=
    finalizeResponse env o.fresh id req (withTrace o.fresh req resp) false [] c
  if req.method ≠ ascii "GET" ∧ req.method ≠ ascii "HEAD" then
    answer (htmlResponse 405 "Method Not Allowed" (ascii "Method Not Allowed"))
  else
    match o.static with
    | .unsafePath => answer forbiddenPage
    | .missing => answer notFoundPage
    | .unreadable =>
      answer (htmlResponse 500 "Internal Server Error" (ascii "Internal Server Error"))
    | .found fd size _ =>
      if size ≤ maxInline then
        let inline := inlineFile env req (fileBytes (env.file fd) 0 size)
        finalizeResponse env o.fresh id req (withTrace o.fresh req inline.1) inline.2 [] c
      else
        -- the body is sent from the descriptor
        finalizeResponse env o.fresh id req
          (withTrace o.fresh req (fileResponse (staticPath req) [] size)) false
          (fileBytes (env.file fd) 0 size) { c with file := some ⟨fd, 0, size⟩ }

/-! ## `send_response` -/

/-- The effect of a start function; the second component says that an exception
goes on. -/
def applyStart (env : Env) (fresh : Fresh) (id : Nat) (req : HttpRequest) (c : Conn) :
    Start → Conn × Bool
  | .answer resp => (finalizeResponse env fresh id req resp false [] c, false)
  | .published d => applyDrive env fresh c d
  | .threw => (c, true)

def sendResponse (env : Env) (o : Oracle) (m : UpstreamManager) (id : Nat) (req : HttpRequest)
    (route : Option RegisteredRoute) (c : Conn) : UpstreamManager × Conn × Bool :=
  let c := { c with lastRequest := some req }
  match route with
  | none => (m, staticFallback env o id req c, false)
  | some reg =>
    match reg.route.targetType with
    | .upstream =>
      let (m, start) := startUpstreamExchange env.upstreams o.sur m id req reg.route
      (m, applyStart env o.fresh id req c start)
    | .composite =>
      let (m, start) := startCompositeExchange env.upstreams o.sur m id req reg.route
      (m, applyStart env o.fresh id req c start)
    | _ =>
      match dispatchRoute env o reg with
      | none => (m, c, true)
      | some resp =>
        (m, finalizeResponse env o.fresh id req (withTrace o.fresh req resp) false [] c, false)

/-! ## The pass -/

def allowedMethods : List Bytes :=
  [ascii "GET", ascii "HEAD", ascii "POST", ascii "PUT", ascii "DELETE"]

/-- The gates in front of a route: key, limit, method. -/
inductive Gate where
  | pass
  | stop (code : Int) (message : String)

def checkGates (env : Env) (o : Oracle) (req : HttpRequest) (route : GatewayRoute) : Gate :=
  let key := extractApiKey req
  let needsKey := route.authRequired && !route.allowAnonymous
  if needsKey ∧ (key = [] ∨ ¬ authorize env.apiKeys key route
      (headerOr req.headers (ascii "host")) (headerOr req.headers (ascii "x-tenant-id"))) then
    .stop 401 "Unauthorized"
  else if shouldRateLimit o.tryAcquire req route env.clientIp
      (if needsKey then findKey env.apiKeys key else none) then
    .stop 429 "Too Many Requests"
  else if req.method ∉ allowedMethods then .stop 405 "Method Not Allowed"
  else .pass

/-- The `Connection` header of a routed request. -/
def wantsKeepAlive (req : HttpRequest) : Bool :=
  match req.headers.lookup (ascii "connection") with
  | some conn => lower conn ≠ ascii "close"
  | none => true

/-- An error page for a parsed request; the inner loop goes on. -/
def answerError (caller : Caller) (id : Nat) (req : HttpRequest) (code : Int) (message : String)
    (allowMethods : Bytes) (c : Conn) : Conn :=
  { sendErrorResponse id code message allowMethods { c with lastRequest := some req } with
    parser := c.parser.reset
    pc := .parsing caller }

/-- The answer to a request that has been routed. -/
def answerRequest (env : Env) (o : Oracle) (caller : Caller) (m : UpstreamManager) (id : Nat)
    (req : HttpRequest) (resolved : ResolvedRoute) (c : Conn) : UpstreamManager × Conn :=
  match resolved.route with
  | none =>
    if resolved.pathMatched then
      (m, answerError caller id req 405 "Method Not Allowed" resolved.allowMethods c)
    else
      let (m, c, _) := sendResponse env o m id req none c
      (m, { c with parser := c.parser.reset, pc := .parsing caller })
  | some reg =>
    match checkGates env o req reg.route with
    | .stop code message => (m, answerError caller id req code message [] c)
    | .pass =>
      match sendResponse env o m id req (some reg) { c with keepAlive := wantsKeepAlive req } with
      | (m, c, true) => (m, cleanup c)
      | (m, c, false) =>
        (m, { c with
          parser := c.parser.reset
          pc := if c.upstream.isSome then .idle else .reading caller })

/-- A complete request is in `c.request`. -/
def dispatch (env : Env) (o : Oracle) (caller : Caller) (m : UpstreamManager) (c : Conn) :
    UpstreamManager × Conn :=
  let req := dispatched env o c.request
  answerRequest env o caller m c.nextId req
    (resolveRoute env.routes (prepareRequest o.fresh c.request))
    { c with request := req, hist := c.hist.take (.request req) }

/-- The parser has refused a byte. -/
def refuse (caller : Caller) (c : Conn) : Conn :=
  let e := c.parser.parseError
  let id := c.nextId
  let c := { c with lastRequest := some c.request, hist := c.hist.take (.refusal e) }
  let c :=
    if e = .bodyTooLarge then sendErrorResponse id 413 "Payload Too Large" [] c
    else sendErrorResponse id 400 "Bad Request" [] c
  { c with parser := c.parser.reset, request := c.request.clear, pc := .reading caller }

/-- One pass of the inner loop of `handle_read`. -/
def parsePass (env : Env) (o : Oracle) (caller : Caller) (m : UpstreamManager) (c : Conn) :
    UpstreamManager × Conn :=
  let q := c.parser.parse c.request c.readBuf
  let c := { c with
    parser := q.parser, request := q.request, readBuf := c.readBuf.drop q.consumed }
  if q.complete then dispatch env o caller m c
  else if q.parser.parseError ≠ .none then (m, refuse caller c)
  else (m, { c with pc := .reading caller })

end EpollGateway.Handler
