import EpollGateway.Handler.Exchange
import EpollGateway.Http.Parser

/-! # A client connection

`HttpHandler` keeps one map for each kind of per-connection state, all keyed by
the socket. `Conn` is one column of these maps, together with the epoll interest
of the client descriptor and the place at which the worker is in the handler.

`History` is not in the source. It records what went in and out, in order: the
bytes received, what the parser made of them, the responses framed, the bytes
written.
-/

namespace EpollGateway.Handler

open Bytes Http Upstream

/-! ## Surroundings of a connection -/

/-- What is fixed while a connection lives: the configuration, the kind of the
socket, the compressor and the contents of the files that are served. -/
structure Env where
  routes : List RegisteredRoute
  apiKeys : List ApiKeyConfig := []
  upstreams : Bytes → List UpstreamServer := fun _ => []
  isSsl : Bool := true
  clientIp : Bytes := []
  gzip : Bytes → Option Bytes := fun _ => none
  file : Nat → Nat → UInt8 := fun _ _ => 0

/-- The bytes `[offset, offset + n)` of a file. -/
def fileBytes (content : Nat → UInt8) : Nat → Nat → Bytes
  | _, 0 => []
  | offset, n + 1 => content offset :: fileBytes content (offset + 1) n

variable (content : Nat → UInt8) (offset n k : Nat) (caller : Caller)

@[simp] lemma length_fileBytes (offset n : Nat) : (fileBytes content offset n).length = n := by
  induction n generalizing offset with
  | zero => rfl
  | succ n ih => simp [fileBytes, ih]

lemma fileBytes_add :
    fileBytes content offset (n + k) =
      fileBytes content offset n ++ fileBytes content (offset + n) k := by
  induction n generalizing offset with
  | zero => simp [fileBytes]
  | succ n ih =>
    rw [Nat.add_right_comm, fileBytes, ih, fileBytes, List.cons_append]
    simp [Nat.add_assoc, Nat.add_comm 1]

lemma drop_fileBytes (h : k ≤ n) :
    (fileBytes content offset n).drop k = fileBytes content (offset + k) (n - k) := by
  obtain ⟨j, rfl⟩ := Nat.exists_eq_add_of_le h
  rw [fileBytes_add, List.drop_append_of_le_length (by simp), List.drop_eq_nil_of_le (by simp)]
  simp

lemma take_fileBytes (h : k ≤ n) :
    (fileBytes content offset n).take k = fileBytes content offset k := by
  obtain ⟨j, rfl⟩ := Nat.exists_eq_add_of_le h
  rw [fileBytes_add, List.take_append_of_le_length (by simp), List.take_of_length_le (by simp)]

/-! ## The state -/

/-- `file_fds_`, `file_offsets_` and `file_sizes_`. -/
structure FileSlot where
  fd : Nat
  offset : Nat
  size : Nat
deriving DecidableEq, Repr

/-- What is left to send of a file. -/
def FileSlot.remaining (f : FileSlot) : Nat := f.size - f.offset

/-- `SSLWant`. -/
inductive SslWant where
  | read | write
deriving DecidableEq, Repr

/-- The events a descriptor is armed for. -/
structure Interest where
  readable : Bool
  writable : Bool
deriving DecidableEq, Repr

/-- Who called `handle_read`: the worker, or `handle_write` for buffered input. -/
inductive Caller where
  | worker | writer
deriving DecidableEq, Repr

/-- Where the worker is: in the event loop, at the top of the outer or the inner
loop of `handle_read`, or in `handle_write`. `crashed` is an exception that left
`TcpWorker::run`. -/
inductive Pc where
  | idle
  | reading (caller : Caller)
  | parsing (caller : Caller)
  | writing
  | closed
  | crashed
deriving DecidableEq, Repr

/-- A complete response: header block and body. -/
structure Reply where
  head : Bytes
  body : Bytes
deriving DecidableEq, Repr

def Reply.bytes (r : Reply) : Bytes := r.head ++ r.body

/-- What the parser made of a stretch of input. -/
inductive Taken where
  | request (req : HttpRequest)
  | refusal (e : ParseError)

def Taken.isRequest : Taken → Bool
  | .request _ => true
  | .refusal _ => false

/-- The course of a connection. A request is named by its place in `taken`;
`replies` holds the responses in the order in which they were framed. -/
structure History where
  received : Bytes := []
  taken : List Taken := []
  replies : List (Nat × Reply) := []
  written : Bytes := []

/-- The per-connection maps of `HttpHandler`. -/
structure Conn where
  readBuf : Bytes := []
  sendQueue : List Bytes := []
  parser : HttpParser := {}
  request : HttpRequest := {}
  keepAlive : Bool := true
  file : Option FileSlot := none
  sslFileBuffer : Bytes := []
  pendingSslWrite : Option SslWant := none
  respStatus : Option Int := none
  lastRequest : Option HttpRequest := none
  upstream : Option ExchangeState := none
  interest : Option Interest := some ⟨true, false⟩
  pc : Pc := .idle
  hist : History := {}

/-- The number of the next request. -/
def Conn.nextId (c : Conn) : Nat := c.hist.taken.length

def History.take (h : History) (t : Taken) : History := { h with taken := h.taken ++ [t] }

def History.reply (h : History) (id : Nat) (r : Reply) : History :=
  { h with replies := h.replies ++ [(id, r)] }

def History.write (h : History) (b : Bytes) : History := { h with written := h.written ++ b }

/-! ## Enqueueing a response -/

/-- Freshly generated trace correlation values. -/
structure Fresh where
  traceId : Text := zeroTraceId
  traceparent : Text := Text.ofAscii "00-0-0-01"

def maxCoalesceBytes : Nat := 64 * 1024

/-- The chunks of a response: on TLS a small body travels with its header. -/
def queueChunks (isSsl : Bool) (header body : Bytes) : List Bytes :=
  if body = [] then [header]
  else if isSsl ∧ body.length ≤ maxCoalesceBytes then [header ++ body]
  else [header, body]

@[simp] lemma flatten_queueChunks (isSsl : Bool) (header body : Bytes) :
    (queueChunks isSsl header body).flatten = header ++ body := by
  unfold queueChunks
  split
  · simp_all
  · split <;> simp

/-- `finalize_response`. The file of a large response is already in its slot;
`fileBody` is its content, for the history. -/
def finalizeResponse (env : Env) (fresh : Fresh) (id : Nat) (req : HttpRequest)
    (resp : HttpResponse) (alreadyCompressed : Bool) (fileBody : Bytes) (c : Conn) : Conn :=
  let resp := frameResponse env.gzip c.keepAlive fresh.traceId fresh.traceparent req resp
    alreadyCompressed
  let header := headersToString resp
  let isHead : Bool := req.method = ascii "HEAD"
  { c with
    file := if isHead then none else c.file
    respStatus := some resp.statusCode
    sendQueue := c.sendQueue ++ queueChunks env.isSsl header (if isHead then [] else resp.body)
    interest := some ⟨true, true⟩
    hist := c.hist.reply id ⟨header, if isHead then [] else resp.body ++ fileBody⟩ }

/-- The response that `send_error_response` writes. -/
def errorPage (code : Int) (message : String) (allowMethods : Bytes)
    (lastRequest : Option HttpRequest) : HttpResponse :=
  let resp := makeErrorResponse code message (ascii message)
  let headers :=
    match lastRequest with
    | none => resp.headers
    | some req =>
      let headers :=
        if req.traceId ≠ [] then resp.headers.insert (ascii "X-Trace-Id") req.traceId
        else resp.headers
      match req.headers.lookup (ascii "traceparent") with
      | some tp => headers.insert (ascii "Traceparent") tp
      | none => headers
  let headers := headers.insert (ascii "Connection") (ascii "close")
  { resp with
    headers := if allowMethods ≠ [] then headers.insert (ascii "Allow") allowMethods else headers }

/-- `send_error_response`: one chunk, and the connection is to be closed. -/
def sendErrorResponse (id : Nat) (code : Int) (message : String) (allowMethods : Bytes) (c : Conn) :
    Conn :=
  let resp := errorPage code message allowMethods c.lastRequest
  let header := headersToString resp
  { c with
    keepAlive := false
    sendQueue := c.sendQueue ++ [header ++ resp.body]
    respStatus := some code
    interest := some ⟨false, true⟩
    hist := c.hist.reply id ⟨header, resp.body⟩ }

/-! ## Arming and closing -/

/-- `rearm_reads`. -/
def rearmReads (c : Conn) : Conn :=
  if c.upstream.isSome then c else { c with interest := some ⟨true, c.sendQueue ≠ []⟩ }

/-- `cleanup`: every entry of the socket is erased, an exchange in flight is
dropped. -/
def cleanup (c : Conn) : Conn := { interest := none, pc := .closed, hist := c.hist }

/-- Enter `handle_write`: leading empty chunks are dropped. -/
def startWrite (c : Conn) : Conn :=
  { c with pc := .writing, sendQueue := c.sendQueue.dropWhile (· = []) }

/-- Return from `handle_read`; a caller in `handle_write` goes on writing unless an
exchange is in flight. -/
def returnRead (caller : Caller) (c : Conn) : Conn :=
  match caller with
  | .worker => { c with pc := .idle }
  | .writer => if c.upstream.isSome then { c with pc := .idle } else startWrite c

@[simp] lemma upstream_rearmReads (c : Conn) : (rearmReads c).upstream = c.upstream := by
  unfold rearmReads
  split <;> rfl

@[simp] lemma hist_rearmReads (c : Conn) : (rearmReads c).hist = c.hist := by
  unfold rearmReads
  split <;> rfl

@[simp] lemma keepAlive_rearmReads (c : Conn) : (rearmReads c).keepAlive = c.keepAlive := by
  unfold rearmReads
  split <;> rfl

@[simp] lemma upstream_returnRead (c : Conn) : (returnRead caller c).upstream = c.upstream := by
  unfold returnRead
  split
  · rfl
  · split <;> rfl

@[simp] lemma hist_returnRead (c : Conn) : (returnRead caller c).hist = c.hist := by
  unfold returnRead
  split
  · rfl
  · split <;> rfl

/-- The effect of a driven exchange on its connection; the second component says
that an exception goes on. -/
def applyDrive (env : Env) (fresh : Fresh) (c : Conn) : Drive → Conn × Bool
  | .inFlight st => ({ c with upstream := some st }, false)
  | .respond st resp =>
    ({ finalizeResponse env fresh st.id st.req resp false [] c with upstream := none }, false)
  | .threw st => ({ c with upstream := some st }, true)

end EpollGateway.Handler
