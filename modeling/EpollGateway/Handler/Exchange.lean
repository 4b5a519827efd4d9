import EpollGateway.Handler.Response

/-! # Upstream exchanges

One `ExchangeState` holds the backend calls that are outstanding for one client
connection: one child for an upstream route, one child for each dependency of a
composite route. The functions of this file advance an exchange. What they do to
the client connection is in their result, a `Drive`: the exchange stays in
flight, or it is over and a response is to be framed, or an exception left the
function.

`UpstreamExchange::advance` is a parameter: each call of it answers with an
`Advance`, and a list of answers stands for the calls made in one turn.
-/

namespace EpollGateway.Handler

open Bytes Http Upstream

/-- The entries of a JSON object. -/
abbrev Item := List (Bytes × Json)

/-- `ChildExchange`. `live` says that `ex` is set. Two fields are not in the
source: `ticket` is the `allow_request` call that admitted the child as a probe,
and `answer` is the backend body that the child's item shows. -/
structure ChildExchange where
  live : Bool := false
  fd : Option Nat := none
  server : UpstreamServer := { host := [] }
  upstreamKey : Bytes
  maxRetries : Int := 0
  circuitFailureThreshold : Int := 0
  attemptCount : Nat := 0
  finished : Bool := false
  required : Bool := true
  name : Text := Text.empty
  item : Item := []
  ticket : Option Nat := none
  answer : Option Bytes := none

/-- `ExchangeState`; `id` numbers the request on its connection. -/
structure ExchangeState where
  id : Nat
  req : HttpRequest
  children : List ChildExchange
  composite : Bool := false
  routeName : Text := Text.empty
  compositeName : Text := Text.empty
  hasTotalDeadline : Bool := false

/-- What a call of `advance` answers: it waits, on a socket if it has one, or it
is done. -/
inductive Advance where
  | wants (fd : Option Nat)
  | done (succeeded : Bool) (result : BackendResponse)

/-- A trace id for runs in which its value does not matter. -/
def zeroTraceId : Text := Text.ofAscii "0000000000000000"

/-- The values that an exchange takes from its surroundings: the clock, the time
since the exchange started, hashes, a generated trace id, and the answers of
`advance` for each child. -/
structure Surroundings where
  now : Nat := 0
  elapsed : Nat := 0
  parentId : Bytes → Nat := fun _ => 0
  traceId : Text := zeroTraceId
  advances : Nat → List Advance := fun _ => []

/-- How a function that drives an exchange ends. -/
inductive Drive where
  | inFlight (st : ExchangeState)
  | respond (st : ExchangeState) (resp : HttpResponse)
  | threw (st : ExchangeState)

def ExchangeState.setChild (st : ExchangeState) (idx : Nat) (ch : ChildExchange) : ExchangeState :=
  { st with children := st.children.set idx ch }

/-- Whether every child has finished. -/
def ExchangeState.allFinished (st : ExchangeState) : Bool := st.children.all (·.finished)

/-! ## Items of a composite -/

/-- Several entries, one after the other. -/
def setFields (item : Item) (entries : Item) : Item :=
  entries.foldl (fun it e => Json.setField e.1 e.2 it) item

/-- A text value. -/
def text (s : String) : Json := .str (ascii s)

/-- What is known of a dependency before its outcome. -/
def startEntries (dep : CompositeDependency) (fresh traceId : Bytes) (parentId : Nat) : Item :=
  [(ascii "required", .bool dep.required),
    (ascii "upstream", .str dep.upstreamName),
    (ascii "method", .str dep.method),
    (ascii "path", .str dep.path),
    (ascii "trace_id", .str traceId),
    (ascii "traceparent", .str (generateTraceparent fresh traceId parentId)),
    (ascii "attempts", .num 1),
    (ascii "timed_out", .bool false)]

def startItem (dep : CompositeDependency) (fresh traceId : Bytes) (parentId : Nat) : Item :=
  setFields [] (startEntries dep fresh traceId parentId)

def unavailableEntries (required : Bool) (elapsed : Nat) : Item :=
  [(ascii "status", text "unavailable"),
    (ascii "error", if required then text "missing_upstream" else text "optional_dependency_missing"),
    (ascii "duration_ms", .num elapsed)]

def circuitOpenEntries (elapsed : Nat) : Item :=
  [(ascii "status", text "failed"), (ascii "http_status", .num 503),
    (ascii "error", text "circuit_open"), (ascii "duration_ms", .num elapsed)]

/-- A backend answered; its body is shown, as payload or as error. -/
def answeredEntries (upstreamKey : Bytes) (be : BackendResponse) (elapsed : Nat) : Item :=
  let ok : Bool := 200 ≤ be.statusCode && be.statusCode < 300
  [(ascii "duration_ms", .num elapsed),
    (ascii "status", if ok then text "ok" else text "failed"),
    (ascii "http_status", .num be.statusCode),
    (ascii "backend", .str upstreamKey),
    (ascii "error", .str (if ok then [] else be.body)),
    (ascii "timed_out", .bool (be.statusCode = 504))] ++
    (if ok then [(ascii "body", .str be.body)] else [])

/-- The call of a backend failed. -/
def failedEntries (error : BackendError) (elapsed : Nat) : Item :=
  [(ascii "duration_ms", .num elapsed),
    (ascii "status", text "failed"),
    (ascii "http_status", .num (if error.timedOut then 504 else 502)),
    (ascii "error", if error.timedOut then text "upstream_timeout" else text "upstream_unavailable"),
    (ascii "timed_out", .bool error.timedOut)]

/-- The overall deadline fired first. -/
def forcedEntries (elapsed : Nat) : Item :=
  [(ascii "status", text "failed"), (ascii "http_status", .num 504),
    (ascii "error", text "upstream_timeout"), (ascii "timed_out", .bool true),
    (ascii "duration_ms", .num elapsed)]

/-! ## The end of a composite -/

/-- `item.value("status", "")` is `failed` or `unavailable`. -/
def itemFailed (item : Item) : Bool :=
  match Json.getField (ascii "status") item with
  | some (.str s) => s = ascii "failed" || s = ascii "unavailable"
  | _ => false

/-- The object of all dependencies; a later child replaces one of the same name. -/
def dependenciesObject (children : List ChildExchange) : Item :=
  children.foldl (fun it ch => Json.setField ch.name (.obj ch.item) it) []

def requiredFailed (children : List ChildExchange) : Bool :=
  children.any fun ch => ch.required && itemFailed ch.item

def compositePayload (st : ExchangeState) : Json :=
  .obj (setFields []
    [(ascii "route", .str st.routeName),
      (ascii "aggregate", .str st.compositeName),
      (ascii "status", if requiredFailed st.children then text "partial_failure" else text "ok"),
      (ascii "dependencies", .obj (dependenciesObject st.children))])

def finalizeComposite (st : ExchangeState) : Drive :=
  match (compositePayload st).dump with
  | none => .threw st
  | some body =>
    .respond st
      { statusCode := if requiredFailed st.children then 503 else 200
        statusMessage :=
          if requiredFailed st.children then ascii "Service Unavailable" else ascii "OK"
        headers := ((∅ : Headers).insert (ascii "Content-Type") (ascii "application/json")).insert
          (ascii "Content-Length") (decimal body.length)
        body := body }

/-! ## Driving children -/

/-- The outcome of a call, recorded at its circuit breaker. -/
def recordOutcome (m : UpstreamManager) (ch : ChildExchange) (succeeded : Bool) (now : Nat) :
    UpstreamManager :=
  if succeeded then m.recordSuccess ch.upstreamKey ch.server
  else m.recordFailure ch.upstreamKey ch.server ch.circuitFailureThreshold now

/-- The child of a composite whose call is over. -/
def settledChild (ch : ChildExchange) (succeeded : Bool) (be : BackendResponse) (elapsed : Nat) :
    ChildExchange :=
  { ch with
    item := setFields ch.item
      (if succeeded then answeredEntries ch.upstreamKey be elapsed else failedEntries be.error elapsed)
    answer := if succeeded then some be.body else none
    finished := true
    live := false
    fd := none
    ticket := none }

/-- `finish_child` for a composite, after the outcome was recorded. -/
def finishDependency (st : ExchangeState) (idx : Nat) (ch : ChildExchange) (succeeded : Bool)
    (be : BackendResponse) (elapsed : Nat) : Drive :=
  let st := st.setChild idx (settledChild ch succeeded be elapsed)
  if st.allFinished then finalizeComposite st else .inFlight st

/-- The child of an upstream route, about to call its backend again. -/
def retriedChild (ch : ChildExchange) : ChildExchange :=
  { ch with attemptCount := ch.attemptCount + 1, fd := none, ticket := none }

/-- `drive_child` and `finish_child`, which call each other when a failed call is
tried again. -/
def driveChild (s : Surroundings) (idx : Nat) :
    UpstreamManager → ExchangeState → List Advance → UpstreamManager × Drive
  | m, st, [] => (m, .inFlight st)
  | m, st, answer :: rest =>
    match st.children[idx]? with
    | none => (m, .inFlight st)
    | some ch =>
      if ¬ ch.live then (m, .inFlight st)
      else
        match answer with
        | .wants fd => (m, .inFlight (st.setChild idx { ch with fd := fd }))
        | .done succeeded be =>
          let m := recordOutcome m ch succeeded s.now
          if st.composite then (m, finishDependency st idx ch succeeded be s.elapsed)
          else if succeeded then (m, .respond st (relayResponse be))
          else if ch.attemptCount < ch.maxRetries ∧
              shouldRetryBackendRequest st.req.method be.error ch.attemptCount then
            driveChild s idx m (st.setChild idx (retriedChild ch)) rest
          else (m, .respond st (backendFailure be.error))

/-- `force_finish_child`. -/
def forceFinishChild (elapsed : Nat) (ch : ChildExchange) : ChildExchange :=
  if ch.finished then ch
  else
    { ch with
      live := false
      fd := none
      item := setFields ch.item (forcedEntries elapsed)
      finished := true }

/-- The branch of `check_upstream_timeouts` for an overall deadline. -/
def expireComposite (elapsed : Nat) (st : ExchangeState) : Drive :=
  finalizeComposite { st with children := st.children.map (forceFinishChild elapsed) }

/-! ## Starting an exchange -/

/-- How a start function ends: with a response of its own and no exchange, with
an exchange in `client_upstream_` that has been driven, or with an exception
before there was one. -/
inductive Start where
  | answer (resp : HttpResponse)
  | published (d : Drive)
  | threw

/-- `start_upstream_exchange`; `upstreams` is the handler's own configuration. -/
def startUpstreamExchange (upstreams : Bytes → List UpstreamServer) (s : Surroundings)
    (m : UpstreamManager) (id : Nat) (req : HttpRequest) (route : GatewayRoute) :
    UpstreamManager × Start :=
  let upstreamKey := resolveUpstreamGroupId route
  if upstreams upstreamKey = [] then
    (m, .answer (makeErrorResponse 502 "Bad Gateway" (ascii "Bad Gateway: no upstream server")))
  else
    match m.pickServer upstreamKey with
    | none => (m, .threw)
    | some (server, m) =>
      let (admission, m) := m.allowRequest upstreamKey server
        route.upstreamTarget.circuitRecoveryTimeoutMs s.now
      let child : ChildExchange :=
        { live := true
          server := server
          upstreamKey := upstreamKey
          maxRetries := route.upstreamTarget.maxRetries
          circuitFailureThreshold := route.upstreamTarget.circuitFailureThreshold }
      let publish (ticket : Option Nat) : UpstreamManager × Start :=
        let (m, d) := driveChild s 0 m
          { id := id, req := req, children := [{ child with ticket := ticket }] } (s.advances 0)
        (m, .published d)
      match admission with
      | .refused =>
        (m, .answer (makeErrorResponse 503 "Service Unavailable" (ascii "Upstream circuit is open")))
      | .admitted => publish none
      | .probe call => publish (some call)

/-- The child for one dependency, before a server is picked. -/
def freshChild (s : Surroundings) (req : HttpRequest) (dep : CompositeDependency) : ChildExchange :=
  { name := dep.name
    required := dep.required
    upstreamKey := dep.upstreamName
    item := startItem dep s.traceId (traceIdOr req s.traceId)
      (s.parentId (if (dep.name : Bytes) = [] then dep.upstreamName else dep.name)) }

/-- The child for one dependency; `none` is the exception of `pick_server`. -/
def startDependency (upstreams : Bytes → List UpstreamServer) (s : Surroundings)
    (failureThreshold : Int) (req : HttpRequest) (m : UpstreamManager) (dep : CompositeDependency) :
    UpstreamManager × Option ChildExchange :=
  let child := freshChild s req dep
  if (dep.upstreamName : Bytes) = [] ∨ upstreams dep.upstreamName = [] then
    (m, some { child with
      item := setFields child.item (unavailableEntries dep.required s.elapsed)
      finished := true })
  else
    match m.pickServer dep.upstreamName with
    | none => (m, none)
    | some (server, m) =>
      let child :=
        { child with server := server, circuitFailureThreshold := failureThreshold }
      match m.allowRequest dep.upstreamName server dep.timeoutMs s.now with
      | (.refused, m) =>
        (m, some { child with
          item := setFields child.item (circuitOpenEntries s.elapsed)
          finished := true })
      | (.admitted, m) => (m, some { child with live := true })
      | (.probe call, m) => (m, some { child with live := true, ticket := some call })

/-- The loop over the dependencies. -/
def startDependencies (upstreams : Bytes → List UpstreamServer) (s : Surroundings)
    (failureThreshold : Int) (req : HttpRequest) :
    UpstreamManager → List CompositeDependency → UpstreamManager × Option (List ChildExchange)
  | m, [] => (m, some [])
  | m, dep :: deps =>
    match startDependency upstreams s failureThreshold req m dep with
    | (m, none) => (m, none)
    | (m, some child) =>
      let (m, children) := startDependencies upstreams s failureThreshold req m deps
      (m, children.map (child :: ·))

/-- The loop that drives each live child once; it stops when the exchange is over. -/
def driveLive (s : Surroundings) : List Nat → UpstreamManager → Drive → UpstreamManager × Drive
  | idx :: rest, m, .inFlight st =>
    let (m, d) := driveChild s idx m st (s.advances idx)
    driveLive s rest m d
  | _, m, d => (m, d)

/-- The indices of the children that have a backend to call. -/
def liveIndices (children : List ChildExchange) : List Nat :=
  (List.range children.length).filter fun i => (children[i]?).any (·.live)

/-- The exchange of a composite route. -/
def compositeExchange (id : Nat) (req : HttpRequest) (route : GatewayRoute)
    (children : List ChildExchange) : ExchangeState :=
  { id := id
    req := req
    children := children
    composite := true
    routeName := route.name
    compositeName := route.compositeTarget.name
    hasTotalDeadline := 0 < route.compositeTarget.totalTimeoutMs }

/-- `start_composite_exchange`. -/
def startCompositeExchange (upstreams : Bytes → List UpstreamServer) (s : Surroundings)
    (m : UpstreamManager) (id : Nat) (req : HttpRequest) (route : GatewayRoute) :
    UpstreamManager × Start :=
  match startDependencies upstreams s route.upstreamTarget.circuitFailureThreshold req m
      route.compositeTarget.dependencies with
  | (m, none) => (m, .threw)
  | (m, some children) =>
    let st := compositeExchange id req route children
    if liveIndices children = [] then (m, .published (finalizeComposite st))
    else
      let (m, d) := driveLive s (liveIndices children) m (.inFlight st)
      (m, .published d)

end EpollGateway.Handler
