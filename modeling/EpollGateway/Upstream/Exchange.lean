import EpollGateway.Upstream.Framing
import EpollGateway.Upstream.Request

/-! # The non-blocking backend call

`UpstreamExchange` talks to a backend over a connection of the `ConnectionPool` or
over a fresh one. Its `run` is a loop; `pass` is one pass of that loop. What the
clock and the socket say in a pass is in an `Answers` record, of which a pass reads
what its phase asks for. A pass that returns to the event loop changes nothing but
the deadline, which is not kept: whether it has passed is one of the answers.
-/

namespace EpollGateway.Upstream

open Bytes Handler

/-! ## The pool -/

/-- `ConnectionPool::PooledConnection`; `last_used` in milliseconds. -/
structure PooledConnection where
  sock : Nat
  leftover : Bytes := []
  lastUsed : Nat := 0
deriving DecidableEq, Repr

/-- `idle_`; a key without an entry has an empty queue. -/
abbrev Pool := Bytes → List PooledConnection

def maxIdlePerUpstream : Nat := 16

def idleTimeout : Nat := 60000

/-- `ConnectionPool::checkout`. -/
def Pool.checkout (pool : Pool) (key : Bytes) (now : Nat) : Option PooledConnection × Pool :=
  match (pool key).dropWhile fun c => c.lastUsed + idleTimeout < now with
  | [] => (none, assign pool key [])
  | c :: rest => (some c, assign pool key rest)

/-- `ConnectionPool::checkin`. -/
def Pool.checkin (pool : Pool) (key : Bytes) (conn : PooledConnection) (now : Nat) : Pool :=
  if (pool key).length ≥ maxIdlePerUpstream then pool
  else assign pool key (pool key ++ [{ conn with lastUsed := now }])

/-- `ConnectionPool::invalidate`. -/
def Pool.invalidate (pool : Pool) (key : Bytes) : Pool := assign pool key []

/-- `pool_scheme_`. -/
def poolScheme (tls : UpstreamTlsOptions) : Bytes :=
  if ¬ tls.enable then []
  else if tls.skipVerify then ascii "tls/insecure|"
  else ascii "tls/" ++ tls.caFile ++ ascii "|" ++ tls.serverName ++ ascii "|"

/-- `pool_key`. -/
def poolKey (p : Params) : Bytes := poolScheme p.tls ++ p.host ++ ascii ":" ++ decimal p.port

/-! ## The state -/

/-- `Phase`. An exchange that is `stuck` is not in the source: the scan of a chunked
body does not return, or an exception has left `advance`. -/
inductive Phase where
  | connect | connecting | tlsHandshake | send | read | done | stuck
deriving DecidableEq, Repr

/-- `UpstreamExchange`. A body end is `none` for `npos`. `replaying` is not in the
source: the loop runs inside the exception handler of `advance`, which does not catch
a second exception. -/
structure Exchange where
  params : Params
  idempotent : Bool
  phase : Phase := .connect
  sock : Option Nat := none
  usedPooled : Bool := false
  retried : Bool := false
  forceFresh : Bool := false
  requestBytes : Bytes := []
  sendOff : Nat := 0
  responseBytes : Bytes := []
  bodyEnd : Option Nat := none
  responseKeepalive : Bool := false
  responseIsChunked : Bool := false
  peerClosed : Bool := false
  decodedBody : Bytes := []
  succeeded : Bool := false
  result : BackendResponse := badGateway .connectFailed
  replaying : Bool := false

/-- The constructor. -/
def Exchange.start (params : Params) : Exchange :=
  let x : Exchange := { params := params, idempotent := isIdempotent params.method }
  if params.timeoutMs ≤ 0 then
    { x with phase := .done, result := gatewayTimeout .connectTimeout }
  else x

/-! ## Answers -/

/-- What the liveness probe of a pooled connection finds. -/
inductive Liveness where
  | alive | dead | threw
deriving DecidableEq, Repr

/-- How `open_fresh` gets on before TLS: no socket or no connection, a connection in
progress, a connection. -/
inductive Opening where
  | failed | inProgress | connected
deriving DecidableEq, Repr

inductive Handshake where
  | complete | failed | wants
deriving DecidableEq, Repr

/-- A send: so many bytes, try again, an error that is no exception, an exception. -/
inductive SendAnswer where
  | wrote (n : Nat)
  | again
  | failed
  | threw
deriving DecidableEq, Repr

/-- A receive; no bytes are an EOF. -/
inductive RecvAnswer where
  | bytes (data : Bytes)
  | again
  | failed
  | threw
deriving DecidableEq, Repr

/-- What a pass is told. -/
structure Answers where
  now : Nat := 0
  expired : Bool := false
  liveness : Liveness := .alive
  freshSock : Nat := 0
  opening : Opening := .connected
  events : Bool := true
  socketError : Bool := false
  tlsReady : Bool := true
  handshake : Handshake := .complete
  send : SendAnswer := .again
  recv : RecvAnswer := .again

namespace Exchange

/-! ## Failure -/

/-- `fail`: a pooled connection is dropped, and an idempotent request is replayed
once on a fresh one. -/
def fail (pool : Pool) (x : Exchange) (result : BackendResponse) : Pool × Exchange :=
  let pool := if x.usedPooled then pool.invalidate (poolKey x.params) else pool
  if x.usedPooled ∧ x.idempotent ∧ ¬ x.retried then
    (pool, { x with
      retried := true
      forceFresh := true
      usedPooled := false
      sock := none
      responseBytes := []
      decodedBody := []
      requestBytes := []
      sendOff := 0
      bodyEnd := none
      responseKeepalive := false
      responseIsChunked := false
      peerClosed := false
      phase := .connect })
  else (pool, { x with result := result, succeeded := false, phase := .done })

/-- The deadline has passed. -/
def timeoutError : Phase → BackendError
  | .send => .writeTimeout
  | .read => .readTimeout
  | _ => .connectTimeout

/-- An exception in the loop, caught by `advance` unless it is the second one. -/
def raise (pool : Pool) (x : Exchange) : Pool × Exchange :=
  if x.replaying then (pool, { x with phase := .stuck })
  else
    let error : BackendError :=
      match x.phase with
      | .send => .writeFailed
      | .read => .readFailed
      | _ => .connectFailed
    let (pool, x) := x.fail pool (badGateway error)
    (pool, { x with replaying := true })

/-! ## Connecting -/

/-- `open_fresh`. -/
def openFresh (pool : Pool) (x : Exchange) (a : Answers) : Pool × Exchange :=
  match a.opening with
  | .failed => fail pool { x with sock := none } (badGateway .connectFailed)
  | .inProgress => (pool, { x with sock := some a.freshSock, phase := .connecting })
  | .connected =>
    if ¬ x.params.tls.enable then (pool, { x with sock := some a.freshSock, phase := .send })
    else if ¬ a.tlsReady then fail pool { x with sock := none } (badGateway .connectFailed)
    else (pool, { x with sock := some a.freshSock, phase := .tlsHandshake })

/-- `open_connection`. -/
def openConnection (pool : Pool) (x : Exchange) (a : Answers) : Pool × Exchange :=
  let x := { x with usedPooled := false }
  if x.forceFresh then openFresh pool x a
  else
    match pool.checkout (poolKey x.params) a.now with
    | (none, pool) => openFresh pool x a
    | (some pooled, pool) =>
      match a.liveness with
      | .dead => openFresh pool x a
      | .threw => raise pool x
      | .alive =>
        (pool, { x with
          sock := some pooled.sock
          usedPooled := true
          responseBytes := pooled.leftover
          phase := .send })

def connectingPass (pool : Pool) (x : Exchange) (a : Answers) : Pool × Exchange :=
  if ¬ a.events then (pool, { x with replaying := false })
  else if a.socketError then fail pool x (badGateway .connectFailed)
  else if ¬ x.params.tls.enable then (pool, { x with phase := .send })
  else if ¬ a.tlsReady then fail pool x (badGateway .connectFailed)
  else (pool, { x with phase := .tlsHandshake })

def handshakePass (pool : Pool) (x : Exchange) (a : Answers) : Pool × Exchange :=
  match a.handshake with
  | .complete => (pool, { x with phase := .send })
  | .failed => fail pool x (badGateway .connectFailed)
  | .wants => (pool, { x with replaying := false })

/-! ## Sending -/

/-- The request is built when nothing is there to send. -/
def withRequest (x : Exchange) : Exchange :=
  if x.requestBytes = [] then { x with requestBytes := buildRequest x.params } else x

def sendPass (pool : Pool) (x : Exchange) (a : Answers) : Pool × Exchange :=
  let x := x.withRequest
  if x.sendOff < x.requestBytes.length then
    match a.send with
    | .wrote n =>
      (pool, { x with sendOff := x.sendOff + min n (x.requestBytes.length - x.sendOff) })
    | .again => (pool, { x with replaying := false })
    | .failed => fail pool x (badGateway .writeFailed)
    | .threw => raise pool x
  else (pool, { x with phase := .read })

/-! ## Reading -/

/-- `FrameResult`, and the two ways in which the scan of a chunked body does not
return one. -/
inductive FrameResult where
  | incomplete | complete | error | threw | hangs
deriving DecidableEq, Repr

def maxHeaderSize : Nat := 256 * 1024

/-- `try_frame`. -/
def tryFrame (x : Exchange) : Exchange × FrameResult :=
  match headEnd x.responseBytes with
  | none => (x, if x.responseBytes.length > maxHeaderSize then .error else .incomplete)
  | some headerEnd =>
    let headersPart := x.responseBytes.take headerEnd
    let x := { x with responseKeepalive := keepsAlive headersPart }
    match bodyKind headersPart with
    | .chunked =>
      let x :=
        { x with
          responseIsChunked := true
          decodedBody := decodedSoFar x.responseBytes (headerEnd + 4) }
      match scanBody x.responseBytes (headerEnd + 4) with
      | some .incomplete => (x, .incomplete)
      | some (.complete bodyEnd _) => ({ x with bodyEnd := some bodyEnd }, .complete)
      | some .error => (x, .error)
      | some .outOfRange => (x, .threw)
      | none => (x, .hangs)
    | .unsupported => (x, .error)
    | .badLength => (x, .error)
    | .length n =>
      if n > x.params.maxResponseBytes then (x, .error)
      else if x.responseBytes.length ≥ SizeT.add (headerEnd + 4) n then
        ({ x with bodyEnd := some (SizeT.add (headerEnd + 4) n) }, .complete)
      else (x, .incomplete)
    | .untilClose =>
      if x.responseKeepalive then (x, .error)
      else if x.peerClosed then ({ x with bodyEnd := some x.responseBytes.length }, .complete)
      else (x, .incomplete)

/-- `substr` from the end of the header block up to the end of the body. -/
def bodyText (buf : Bytes) (headerEnd : Nat) (bodyEnd : Option Nat) : Bytes :=
  match bodyEnd with
  | none => buf.drop (headerEnd + 4)
  | some e => (buf.drop (headerEnd + 4)).take (SizeT.sub e (headerEnd + 4))

/-- `finish_ok`, for a framed response. -/
def finishOk (x : Exchange) : Exchange :=
  let headerEnd := (headEnd x.responseBytes).getD x.responseBytes.length
  let body :=
    if x.responseIsChunked then x.decodedBody else bodyText x.responseBytes headerEnd x.bodyEnd
  { x with
    result := parseResponse x.responseBytes headerEnd body
    succeeded := (parseStatus x.responseBytes).isSome
    phase := .done }

/-- The peer has closed the connection. -/
def eofPass (pool : Pool) (x : Exchange) : Pool × Exchange :=
  let x := { x with peerClosed := true }
  if (headEnd x.responseBytes).isSome ∧ ¬ x.responseKeepalive then
    match x.tryFrame with
    | (x, .complete) => (pool, x.finishOk)
    | (x, .threw) => raise pool x
    | (x, .hangs) => (pool, { x with phase := .stuck })
    | (x, _) => fail pool x (badGateway .readFailed)
  else fail pool x (badGateway .readFailed)

def readPass (pool : Pool) (x : Exchange) (a : Answers) : Pool × Exchange :=
  match x.tryFrame with
  | (x, .complete) => (pool, x.finishOk)
  | (x, .error) => fail pool x (badGateway .invalidResponse)
  | (x, .threw) => raise pool x
  | (x, .hangs) => (pool, { x with phase := .stuck })
  | (x, .incomplete) =>
    if x.responseBytes.length > x.params.maxResponseBytes then fail pool x (badGateway .readFailed)
    else
      match a.recv with
      | .bytes [] => eofPass pool x
      | .bytes data => (pool, { x with responseBytes := x.responseBytes ++ data })
      | .again => (pool, { x with replaying := false })
      | .failed => fail pool x (badGateway .readFailed)
      | .threw => raise pool x

/-! ## The loop -/

/-- One pass of the loop of `run`. -/
def pass (pool : Pool) (x : Exchange) (a : Answers) : Pool × Exchange :=
  match x.phase with
  | .done => (pool, x)
  | .stuck => (pool, x)
  | phase =>
    if a.expired then fail pool x (gatewayTimeout (timeoutError phase))
    else
      match phase with
      | .connect => openConnection pool x a
      | .connecting => connectingPass pool x a
      | .tlsHandshake => handshakePass pool x a
      | .send => sendPass pool x a
      | _ => readPass pool x a

/-- A number of passes. -/
def run (pool : Pool) (x : Exchange) : List Answers → Pool × Exchange
  | [] => (pool, x)
  | a :: rest => run (x.pass pool a).1 (x.pass pool a).2 rest

/-- `reuse_to_pool`. -/
def reuseToPool (pool : Pool) (x : Exchange) (now : Nat) : Pool × Exchange :=
  match x.sock with
  | none => (pool, x)
  | some sock =>
    if ¬ x.succeeded ∨ ¬ x.responseKeepalive ∨ x.peerClosed then (pool, x)
    else
      let leftover :=
        match x.bodyEnd with
        | none => []
        | some e => x.responseBytes.drop e
      (pool.checkin (poolKey x.params) { sock := sock, leftover := leftover, lastUsed := now } now,
        { x with sock := none })

end Exchange

/-- A request to a backend, and a response. -/
def backendParams : Params :=
  { host := ascii "10.0.0.1", port := 80, method := ascii "GET", path := ascii "/"
    maxResponseBytes := 1000 }

def okResponse : Bytes := ascii "HTTP/1.1 200 OK\r\nContent-Length: 0\r\n\r\n"

end EpollGateway.Upstream
