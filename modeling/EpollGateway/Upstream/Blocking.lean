import EpollGateway.Upstream.Exchange

/-! # The blocking backend call

`forward_request` does in one call what an `UpstreamExchange` does pass by pass: at
most two rounds, the first over a pooled connection if there is one. It reads what
the clock and the socket say from a list of events. A wait that ends with a ready
socket is not an event; a wait that ends otherwise is one. The result is `none` when
the events end before the call returns, or are not those the call asks for.
-/

namespace EpollGateway.Upstream

open Bytes Handler

inductive Event where
  | clock (now : Nat)
  | probed (liveness : Liveness)
  | opened (opening : Opening)
  | socketError (error : Bool)
  | tlsReady (ready : Bool)
  | handshake (status : Handshake)
  | sent (answer : SendAnswer)
  | received (answer : RecvAnswer)
  | waitTimedOut
  | waitFailed
deriving DecidableEq, Repr

/-- How a call ends: `kept` has the bytes behind the response if the connection goes
back to the pool with them, `retried` is set for the second round. -/
inductive Forwarded where
  | returned (pool : Pool) (response : BackendResponse) (retried : Bool) (kept : Option Bytes)
  | threw

/-- A round of the loop over `attempt`. -/
structure Round where
  attempt : Nat
  usedPooled : Bool := false

/-- What comes after the round: the next one, or the end of the loop. -/
abbrev Continue := Pool → List Event → Option Forwarded

namespace Blocking

variable (p : Params) (round : Round) (next : Continue)

def returns (pool : Pool) (response : BackendResponse) : Option Forwarded :=
  some (.returned pool response (round.attempt ≠ 0) none)

/-- A failure that gives a pooled connection up, and an idempotent request another
round. -/
def giveUp (pool : Pool) (response : BackendResponse) (events : List Event) : Option Forwarded :=
  if round.usedPooled then
    if isIdempotent p.method then next (pool.invalidate (poolKey p)) events
    else returns round (pool.invalidate (poolKey p)) response
  else returns round pool response

/-! ## Reading -/

/-- The variables of the read loop after a look at the response. -/
structure Look where
  headerEnd : Option Nat := none
  keepalive : Bool := false
  chunked : Bool := false
  decoded : Bytes := []
  bodyEnd : Option Nat := none
  result : Exchange.FrameResult

def maxHeaderSize : Nat := 256 * 1024

def look (response : Bytes) : Look :=
  match headEnd response with
  | none => { result := if response.length > maxHeaderSize then .error else .incomplete }
  | some headerEnd =>
    let headersPart := response.take headerEnd
    let seen : Look :=
      { headerEnd := some headerEnd, keepalive := keepsAlive headersPart, result := .incomplete }
    match bodyKind headersPart with
    | .chunked =>
      let seen :=
        { seen with chunked := true, decoded := decodedSoFar response (headerEnd + 4) }
      match scanBody response (headerEnd + 4) with
      | some (.complete bodyEnd _) => { seen with bodyEnd := some bodyEnd, result := .complete }
      | some .error => { seen with result := .error }
      | some .incomplete => seen
      | some .outOfRange => { seen with result := .threw }
      | none => { seen with result := .hangs }
    | .unsupported => { seen with result := .error }
    | .badLength => { seen with result := .error }
    | .length n =>
      if n > p.maxResponseBytes then { seen with result := .error }
      else if response.length ≥ SizeT.add (headerEnd + 4) n then
        { seen with bodyEnd := some (SizeT.add (headerEnd + 4) n), result := .complete }
      else seen
    | .untilClose => if seen.keepalive then { seen with result := .error } else seen

/-- The response is complete. -/
def complete (pool : Pool) (response : Bytes) (seen : Look) (peerClosed : Bool) :
    Option Forwarded :=
  let headerEnd := seen.headerEnd.getD response.length
  let body :=
    if seen.chunked then seen.decoded else Exchange.bodyText response headerEnd seen.bodyEnd
  let kept :=
    if (parseStatus response).isSome ∧ seen.keepalive ∧ ¬ peerClosed then
      some (response.drop (seen.bodyEnd.getD response.length))
    else none
  some (.returned pool (parseResponse response headerEnd body) (round.attempt ≠ 0) kept)

/-- The response is not complete, or there was a framing error. -/
def incomplete (pool : Pool) (framingError : Bool) (events : List Event) : Option Forwarded :=
  let response := badGateway (if framingError then .invalidResponse else .readFailed)
  if round.usedPooled then
    if round.attempt = 0 ∧ isIdempotent p.method then next (pool.invalidate (poolKey p)) events
    else returns round (pool.invalidate (poolKey p)) response
  else returns round pool response

def readLoop (pool : Pool) (response : Bytes) (events : List Event) : Option Forwarded :=
  if response.length > p.maxResponseBytes then incomplete p round next pool false events
  else
    let seen := look p response
    match seen.result with
    | .complete => complete round pool response seen false
    | .error => incomplete p round next pool true events
    | .threw => some .threw
    | .hangs => none
    | .incomplete =>
      match events with
      | .waitTimedOut :: rest => giveUp p round next pool (gatewayTimeout .readTimeout) rest
      | .waitFailed :: rest => incomplete p round next pool false rest
      | .received (.bytes []) :: rest =>
        if seen.headerEnd.isSome ∧ ¬ seen.keepalive then
          complete round pool response { seen with bodyEnd := some response.length } true
        else incomplete p round next pool false rest
      | .received (.bytes data) :: rest => readLoop pool (response ++ data) rest
      | .received .again :: rest => readLoop pool response rest
      | .received .failed :: rest => incomplete p round next pool false rest
      | .received .threw :: _ => some .threw
      | _ => none

/-! ## Sending -/

/-- `send_all`, and what follows it. The request is the one an exchange builds. -/
def sendAll (pool : Pool) (leftover : Bytes) (sent : Nat) (events : List Event) :
    Option Forwarded :=
  if sent < (buildRequest p).length then
    match events with
    | .waitTimedOut :: rest => giveUp p round next pool (gatewayTimeout .writeTimeout) rest
    | .waitFailed :: rest => giveUp p round next pool (badGateway .connectFailed) rest
    | .sent (.wrote n) :: rest =>
      if n = 0 then giveUp p round next pool (badGateway .connectFailed) rest
      else sendAll pool leftover (sent + min n ((buildRequest p).length - sent)) rest
    | .sent .again :: rest => sendAll pool leftover sent rest
    | .sent .failed :: rest => giveUp p round next pool (badGateway .connectFailed) rest
    | .sent .threw :: _ => some .threw
    | _ => none
  else readLoop p round next pool leftover events

/-! ## Connecting -/

/-- The handshake; `waited` after a step that was not the last. -/
def handshakeLoop (pool : Pool) (waited : Bool) (events : List Event) : Option Forwarded :=
  match events with
  | .handshake .complete :: rest => sendAll p round next pool [] 0 rest
  | .handshake .failed :: _ => returns round pool (badGateway .connectFailed)
  | .handshake .wants :: rest => handshakeLoop pool true rest
  | .waitTimedOut :: _ =>
    if waited then returns round pool (gatewayTimeout .connectTimeout) else none
  | .waitFailed :: _ => if waited then returns round pool (badGateway .connectFailed) else none
  | _ => none

/-- A connection, with TLS or without. -/
def connected (pool : Pool) (events : List Event) : Option Forwarded :=
  if p.tls.enable then
    match events with
    | .tlsReady true :: rest => handshakeLoop p round next pool false rest
    | .tlsReady false :: _ => returns round pool (badGateway .connectFailed)
    | _ => none
  else sendAll p round next pool [] 0 events

/-- The wait for a connection in progress. -/
def connecting (pool : Pool) (events : List Event) : Option Forwarded :=
  match events with
  | .waitTimedOut :: _ => returns round pool (gatewayTimeout .connectTimeout)
  | .waitFailed :: _ => returns round pool (badGateway .connectFailed)
  | .socketError true :: _ => returns round pool (badGateway .connectFailed)
  | .socketError false :: rest => connected p round next pool rest
  | _ => none

/-- A fresh connection. -/
def openFresh (pool : Pool) (events : List Event) : Option Forwarded :=
  match events with
  | .opened .failed :: _ => returns round pool (badGateway .connectFailed)
  | .opened .inProgress :: rest => connecting p round next pool rest
  | .opened .connected :: rest => connected p round next pool rest
  | _ => none

end Blocking

open Blocking

/-- The first round asks the pool. -/
def firstRound (p : Params) (next : Continue) (pool : Pool) (events : List Event) :
    Option Forwarded :=
  match events with
  | .clock now :: rest =>
    match pool.checkout (poolKey p) now with
    | (none, pool) => openFresh p { attempt := 0 } next pool rest
    | (some pooled, pool) =>
      match rest with
      | .probed .alive :: rest =>
        sendAll p { attempt := 0, usedPooled := true } next pool pooled.leftover 0 rest
      | .probed .dead :: rest => openFresh p { attempt := 0 } next pool rest
      | .probed .threw :: _ => some .threw
      | _ => none
  | _ => none

/-- The end of the loop. -/
def afterLoop : Continue := fun pool _ =>
  some (.returned pool (badGateway .readFailed) true none)

def secondRound (p : Params) : Continue := openFresh p { attempt := 1 } afterLoop

/-- `forward_request`. -/
def forwardRequest (p : Params) (pool : Pool) (events : List Event) : Option Forwarded :=
  if p.timeoutMs ≤ 0 then some (.returned pool (gatewayTimeout .connectTimeout) false none)
  else firstRound p (secondRound p) pool events

end EpollGateway.Upstream
