import EpollGateway.Handler.Exchange

/-! # What a request tells its circuit breaker

A request for an upstream route is admitted once and then driven, turn by turn,
until its response is framed; between the turns other requests use the breaker.
`driveCalls` lists what the request itself does: the outcomes it records and the
calls of its backend that it repeats.

`finish_child` records an outcome before it decides on a retry, so a request whose
first failure is retried records more than one outcome.
-/

namespace EpollGateway.Handler

open Bytes Http Upstream

/-- A call of a request at the breaker, or a retry; `cooling` says that the circuit
is open at that moment and its recovery time has not passed. -/
inductive BreakerCall where
  | success (name : Bytes) (server : UpstreamServer)
  | failure (name : Bytes) (server : UpstreamServer) (failureThreshold : Int) (now : Nat)
  | retry (cooling : Bool)

/-- The call that `recordOutcome` makes. -/
def outcomeCall (ch : ChildExchange) (succeeded : Bool) (now : Nat) : BreakerCall :=
  if succeeded then .success ch.upstreamKey ch.server
  else .failure ch.upstreamKey ch.server ch.circuitFailureThreshold now

/-- The effect of a call on the manager. -/
def BreakerCall.apply (m : UpstreamManager) : BreakerCall → UpstreamManager
  | .success name server => m.recordSuccess name server
  | .failure name server threshold now => m.recordFailure name server threshold now
  | .retry _ => m

/-- The key for which a call records an outcome. -/
def BreakerCall.key? : BreakerCall → Option Bytes
  | .success name server => some (circuitKey name server)
  | .failure name server _ _ => some (circuitKey name server)
  | .retry _ => none

def ChildExchange.key (ch : ChildExchange) : Bytes := circuitKey ch.upstreamKey ch.server

/-- An open circuit in its cooldown. -/
def cooling (m : UpstreamManager) (key : Bytes) (recoveryTimeoutMs : Int) (now : Nat) : Bool :=
  (m.circuits key).isOpen && (now : Int) - (m.circuits key).openedAt < recoveryTimeoutMs

/-- A failed call is tried again. -/
def retries (ch : ChildExchange) (method : Bytes) (be : BackendResponse) : Prop :=
  ch.attemptCount < ch.maxRetries ∧ shouldRetryBackendRequest method be.error ch.attemptCount

instance (ch : ChildExchange) (method : Bytes) (be : BackendResponse) :
    Decidable (retries ch method be) := inferInstanceAs (Decidable (_ ∧ _))

/-- The calls of `driveChild`, in order. -/
def driveCalls (recovery : Int) (s : Surroundings) (idx : Nat) :
    UpstreamManager → ExchangeState → List Advance → List BreakerCall
  | _, _, [] => []
  | m, st, answer :: rest =>
    match st.children[idx]? with
    | none => []
    | some ch =>
      if ¬ ch.live then []
      else
        match answer with
        | .wants _ => []
        | .done succeeded be =>
          let m := recordOutcome m ch succeeded s.now
          outcomeCall ch succeeded s.now ::
            if st.composite ∨ succeeded ∨ ¬ retries ch st.req.method be then []
            else
              .retry (cooling m ch.key recovery s.now) ::
                driveCalls recovery s idx m (st.setChild idx (retriedChild ch)) rest

lemma apply_outcomeCall (m : UpstreamManager) (ch : ChildExchange) (succeeded : Bool) (now : Nat) :
    (outcomeCall ch succeeded now).apply m = recordOutcome m ch succeeded now := by
  cases succeeded <;> rfl

lemma key?_outcomeCall (ch : ChildExchange) (succeeded : Bool) (now : Nat) :
    (outcomeCall ch succeeded now).key? = some ch.key := by
  cases succeeded <;> rfl

/-- The listed calls are all that driving does to the manager. -/
theorem driveChild_eq_apply (recovery : Int) (s : Surroundings) (idx : Nat) (m : UpstreamManager)
    (st : ExchangeState) (answers : List Advance) :
    (driveChild s idx m st answers).1 =
      (driveCalls recovery s idx m st answers).foldl BreakerCall.apply m := by
  induction answers generalizing m st with
  | nil => rfl
  | cons answer rest ih =>
    unfold driveChild driveCalls
    rcases st.children[idx]? with _ | ch
    · rfl
    · dsimp only
      split
      · rfl
      · rcases answer with fd | ⟨succeeded, be⟩
        · rfl
        · simp only [List.foldl_cons, apply_outcomeCall]
          by_cases hcomposite : st.composite = true
          · simp [hcomposite]
          · by_cases hok : succeeded = true
            · simp [hcomposite, hok]
            · by_cases hretry : retries ch st.req.method be
              · have hretry' := hretry
                unfold retries at hretry'
                simp only [hcomposite, hok, hretry, hretry', if_true, not_true_eq_false, or_false,
                  Bool.false_eq_true, if_false, and_self, List.foldl_cons, BreakerCall.apply]
                exact ih _ _
              · have hretry' := hretry
                unfold retries at hretry'
                simp [hcomposite, hok, hretry, hretry']

/-! ## The turns of a request -/

/-- A turn of the event loop: the manager as it is found, and the surroundings. -/
structure Turn where
  mgr : UpstreamManager
  sur : Surroundings

/-- The turns of an exchange, up to its response. -/
def driveTurns (recovery : Int) : ExchangeState → List Turn → List BreakerCall × Drive
  | st, [] => ([], .inFlight st)
  | st, t :: ts =>
    let calls := driveCalls recovery t.sur 0 t.mgr st (t.sur.advances 0)
    match (driveChild t.sur 0 t.mgr st (t.sur.advances 0)).2 with
    | .inFlight st' => (calls ++ (driveTurns recovery st' ts).1, (driveTurns recovery st' ts).2)
    | d => (calls, d)

/-- The exchange that `start_upstream_exchange` publishes, if `allow_request` says
yes, and the manager at that moment. -/
def admittedExchange (upstreams : Bytes → List UpstreamServer) (s : Surroundings)
    (m : UpstreamManager) (id : Nat) (req : HttpRequest) (route : GatewayRoute) :
    Option (UpstreamManager × ExchangeState) :=
  let upstreamKey := resolveUpstreamGroupId route
  if upstreams upstreamKey = [] then none
  else
    match m.pickServer upstreamKey with
    | none => none
    | some (server, m) =>
      let exchange (ticket : Option Nat) : ExchangeState :=
        { id := id
          req := req
          children := [{
            live := true
            server := server
            upstreamKey := upstreamKey
            maxRetries := route.upstreamTarget.maxRetries
            circuitFailureThreshold := route.upstreamTarget.circuitFailureThreshold
            ticket := ticket }] }
      match m.allowRequest upstreamKey server route.upstreamTarget.circuitRecoveryTimeoutMs s.now with
      | (.refused, _) => none
      | (.admitted, m) => some (m, exchange none)
      | (.probe call, m) => some (m, exchange (some call))

variable {st st' : ExchangeState} {ch : ChildExchange}
  {upstreams : Bytes → List UpstreamServer} {resp : HttpResponse}

/-- An admitted exchange is driven at once. -/
lemma startUpstreamExchange_admitted {s : Surroundings} {m m' : UpstreamManager} {id : Nat}
    {req : HttpRequest} {route : GatewayRoute}
    (h : admittedExchange upstreams s m id req route = some (m', st)) :
    startUpstreamExchange upstreams s m id req route =
      ((driveChild s 0 m' st (s.advances 0)).1,
        .published (driveChild s 0 m' st (s.advances 0)).2) := by
  unfold admittedExchange at h
  unfold startUpstreamExchange
  dsimp only at h ⊢
  split at h
  · cases h
  · rename_i hservers
    rw [if_neg hservers]
    rcases hpick : m.pickServer (resolveUpstreamGroupId route) with _ | ⟨server, m₁⟩ <;>
      simp only [hpick] at h ⊢
    · cases h
    · rcases hallow : m₁.allowRequest (resolveUpstreamGroupId route) server
          route.upstreamTarget.circuitRecoveryTimeoutMs s.now with ⟨_ | _ | call, m₂⟩ <;>
        simp only [hallow] at h ⊢ <;> cases h <;> rfl

/-- The exchange waits for its only child. -/
structure Awaiting (st : ExchangeState) (ch : ChildExchange) : Prop where
  children : st.children = [ch]
  live : ch.live = true
  single : st.composite = false

lemma Awaiting.setChild {ch' : ChildExchange} (h : Awaiting st ch) (hlive : ch'.live = true) :
    Awaiting (st.setChild 0 ch') ch' :=
  ⟨by simp [ExchangeState.setChild, h.children], hlive, h.single⟩

lemma awaiting_of_admitted {s : Surroundings} {m m' : UpstreamManager} {id : Nat}
    {req : HttpRequest} {route : GatewayRoute}
    (h : admittedExchange upstreams s m id req route = some (m', st)) :
    ∃ ch, Awaiting st ch ∧ ch.attemptCount = 0 ∧ ch.maxRetries = route.upstreamTarget.maxRetries ∧
      st.req = req := by
  unfold admittedExchange at h
  dsimp only at h
  split at h
  · cases h
  · split at h
    · cases h
    · split at h <;> cases h <;> exact ⟨_, ⟨rfl, rfl, rfl⟩, rfl, rfl, rfl⟩

/-! ## One turn -/

section Turn

variable (recovery : Int) (s : Surroundings) (m : UpstreamManager) {st : ExchangeState}
  {ch : ChildExchange}

lemma drive_wants (h : Awaiting st ch) (fd : Option Nat) (rest : List Advance) :
    (driveChild s 0 m st (.wants fd :: rest)).2 = .inFlight (st.setChild 0 { ch with fd := fd }) ∧
      driveCalls recovery s 0 m st (.wants fd :: rest) = [] := by
  simp [driveChild, driveCalls, h.children, h.live]

/-- The end of a call that is not tried again. -/
lemma drive_last (h : Awaiting st ch) {succeeded : Bool} {be : BackendResponse}
    (hlast : succeeded = true ∨ ¬ retries ch st.req.method be) (rest : List Advance) :
    (∃ resp, (driveChild s 0 m st (.done succeeded be :: rest)).2 = .respond st resp) ∧
      driveCalls recovery s 0 m st (.done succeeded be :: rest) =
        [outcomeCall ch succeeded s.now] := by
  constructor
  · cases succeeded with
    | true => exact ⟨relayResponse be, by simp [driveChild, h.children, h.live, h.single]⟩
    | false =>
      have hno : ¬ retries ch st.req.method be := by simpa using hlast
      unfold retries at hno
      exact ⟨backendFailure be.error, by simp [driveChild, h.children, h.live, h.single, hno]⟩
  · have hstop : st.composite = true ∨ succeeded = true ∨ ¬ retries ch st.req.method be := .inr hlast
    simp [driveCalls, h.children, h.live, hstop]

/-- The end of a call that is tried again. -/
lemma drive_retry (h : Awaiting st ch) {be : BackendResponse}
    (hretry : retries ch st.req.method be) (rest : List Advance) :
    (driveChild s 0 m st (.done false be :: rest)).2 =
        (driveChild s 0 (recordOutcome m ch false s.now) (st.setChild 0 (retriedChild ch)) rest).2 ∧
      driveCalls recovery s 0 m st (.done false be :: rest) =
        outcomeCall ch false s.now ::
          .retry (cooling (recordOutcome m ch false s.now) ch.key recovery s.now) ::
            driveCalls recovery s 0 (recordOutcome m ch false s.now)
              (st.setChild 0 (retriedChild ch)) rest := by
  have hretry' := hretry
  unfold retries at hretry'
  constructor
  · simp [driveChild, h.children, h.live, h.single, hretry']
  · simp [driveCalls, h.children, h.live, h.single, hretry]

end Turn

/-! ## Counting outcomes -/

/-- The keys for which outcomes are recorded. -/
def recordedKeys (calls : List BreakerCall) : List Bytes := calls.filterMap BreakerCall.key?

@[simp] lemma recordedKeys_append (a b : List BreakerCall) :
    recordedKeys (a ++ b) = recordedKeys a ++ recordedKeys b := List.filterMap_append

@[simp] lemma recordedKeys_outcome (ch : ChildExchange) (succeeded : Bool) (now : Nat)
    (calls : List BreakerCall) :
    recordedKeys (outcomeCall ch succeeded now :: calls) = ch.key :: recordedKeys calls := by
  simp [recordedKeys, key?_outcomeCall]

@[simp] lemma recordedKeys_retry (cooling : Bool) (calls : List BreakerCall) :
    recordedKeys (.retry cooling :: calls) = recordedKeys calls := rfl

/-- One turn of a waiting exchange: it still waits, or it has recorded an outcome and
its response is framed. -/
lemma turn_cases (recovery : Int) (s : Surroundings) (m : UpstreamManager) (h : Awaiting st ch)
    (answers : List Advance) :
    (∃ st' ch', (driveChild s 0 m st answers).2 = .inFlight st' ∧ Awaiting st' ch') ∨
      (∃ st' resp, (driveChild s 0 m st answers).2 = .respond st' resp ∧
        recordedKeys (driveCalls recovery s 0 m st answers) ≠ []) := by
  induction answers generalizing m st ch with
  | nil => exact .inl ⟨st, ch, rfl, h⟩
  | cons answer rest ih =>
    rcases answer with fd | ⟨succeeded, be⟩
    · exact .inl ⟨_, _, (drive_wants recovery s m h fd rest).1, h.setChild h.live⟩
    · by_cases hlast : succeeded = true ∨ ¬ retries ch st.req.method be
      · obtain ⟨⟨resp, hresp⟩, hcalls⟩ := drive_last recovery s m h hlast rest
        refine .inr ⟨st, resp, hresp, ?_⟩
        simp [hcalls]
      · rw [not_or, not_not] at hlast
        obtain ⟨hfailed, hretry⟩ := hlast
        obtain rfl : succeeded = false := by simpa using hfailed
        obtain ⟨hdrive, hcalls⟩ := drive_retry recovery s m h hretry rest
        have hagain : Awaiting (st.setChild 0 (retriedChild ch)) (retriedChild ch) :=
          h.setChild h.live
        rw [hdrive, hcalls]
        rcases ih (recordOutcome m ch false s.now) hagain with
          ⟨st', ch', hst', hawait⟩ | ⟨st', resp, hresp, -⟩
        · exact .inl ⟨st', ch', hst', hawait⟩
        · refine .inr ⟨st', resp, hresp, ?_⟩
          simp

lemma driveTurns_inFlight (recovery : Int) {t : Turn} (ts : List Turn)
    (h : (driveChild t.sur 0 t.mgr st (t.sur.advances 0)).2 = .inFlight st') :
    driveTurns recovery st (t :: ts) =
      (driveCalls recovery t.sur 0 t.mgr st (t.sur.advances 0) ++ (driveTurns recovery st' ts).1,
        (driveTurns recovery st' ts).2) := by
  simp [driveTurns, h]

lemma driveTurns_respond (recovery : Int) {t : Turn} (ts : List Turn)
    (h : (driveChild t.sur 0 t.mgr st (t.sur.advances 0)).2 = .respond st' resp) :
    driveTurns recovery st (t :: ts) =
      (driveCalls recovery t.sur 0 t.mgr st (t.sur.advances 0), .respond st' resp) := by
  simp [driveTurns, h]

/-- By the time the response is framed an outcome has been recorded. -/
lemma recordedKeys_driveTurns {recovery : Int} (h : Awaiting st ch) {turns : List Turn}
    (hturns : (driveTurns recovery st turns).2 = .respond st' resp) :
    recordedKeys (driveTurns recovery st turns).1 ≠ [] := by
  induction turns generalizing st ch with
  | nil => cases hturns
  | cons t ts ih =>
    rcases turn_cases recovery t.sur t.mgr h (t.sur.advances 0) with
      ⟨st₁, ch₁, hst₁, hawait⟩ | ⟨st₁, resp₁, hresp, hrecorded⟩
    · rw [driveTurns_inFlight recovery ts hst₁] at hturns ⊢
      have htail := ih hawait hturns
      simp [htail]
    · rw [driveTurns_respond recovery ts hresp]
      exact hrecorded

/-- How the first call of the backend ended, from the answers of each turn. -/
def firstOutcome : List (List Advance) → Option (Bool × BackendResponse)
  | [] => none
  | (.done succeeded be :: _) :: _ => some (succeeded, be)
  | _ :: turns => firstOutcome turns

/-- The first call of the backend failed and is tried again. -/
def FirstRetried (maxRetries : Int) (method : Bytes) (turns : List Turn) : Prop :=
  ∃ be, firstOutcome (turns.map fun t => t.sur.advances 0) = some (false, be) ∧
    0 < maxRetries ∧ shouldRetryBackendRequest method be.error 0

/-- Exactly one outcome, for this key, and no retry during a cooldown. -/
def OneOutcome (key : Bytes) (calls : List BreakerCall) : Prop :=
  recordedKeys calls = [key] ∧ ∀ c ∈ calls, c ≠ .retry true

/-- A turn that leaves the first call outstanding changes neither side. -/
lemma driveTurns_waits (recovery : Int) (h : Awaiting st ch) {t : Turn} (ts : List Turn)
    (hwaits : ∀ succeeded be rest, t.sur.advances 0 ≠ .done succeeded be :: rest) :
    ∃ fd, driveTurns recovery st (t :: ts) =
        driveTurns recovery (st.setChild 0 { ch with fd := fd }) ts ∧
      firstOutcome ((t :: ts).map fun t => t.sur.advances 0) =
        firstOutcome (ts.map fun t => t.sur.advances 0) := by
  rcases hadv : t.sur.advances 0 with _ | ⟨fd | ⟨succeeded, be⟩, rest⟩
  · refine ⟨ch.fd, ?_, by simp [hadv, firstOutcome]⟩
    have hsame : st.setChild 0 { ch with fd := ch.fd } = st := by
      obtain ⟨_, _, children, _⟩ := st
      obtain rfl : children = [ch] := h.children
      rfl
    rw [hsame]
    simp [driveTurns, hadv, driveChild, driveCalls]
  · refine ⟨fd, ?_, by simp [hadv, firstOutcome]⟩
    obtain ⟨hdrive, hcalls⟩ := drive_wants recovery t.sur t.mgr h fd rest
    rw [driveTurns_inFlight recovery ts (hadv ▸ hdrive), hadv, hcalls, List.nil_append]
  · exact absurd hadv (hwaits _ _ _)

lemma oneOutcome_iff {recovery : Int} (h : Awaiting st ch) (hfirst : ch.attemptCount = 0)
    {turns : List Turn} (hturns : (driveTurns recovery st turns).2 = .respond st' resp) :
    OneOutcome ch.key (driveTurns recovery st turns).1 ↔
      ¬ FirstRetried ch.maxRetries st.req.method turns := by
  induction turns generalizing st ch with
  | nil => cases hturns
  | cons t ts ih =>
    by_cases hwaits : ∀ succeeded be rest, t.sur.advances 0 ≠ .done succeeded be :: rest
    · obtain ⟨fd, hrun, houtcome⟩ := driveTurns_waits recovery h ts hwaits
      rw [hrun] at hturns ⊢
      unfold FirstRetried
      rw [houtcome]
      -- the child has another descriptor, and the same key and limits
      obtain ⟨ch', hch'⟩ : ∃ ch', ch' = { ch with fd := fd } := ⟨_, rfl⟩
      have hawait : Awaiting (st.setChild 0 ch') ch' := h.setChild (hch' ▸ h.live)
      rw [← hch'] at hturns ⊢
      have hih := ih hawait (hch' ▸ hfirst) hturns
      rw [hch'] at hih ⊢
      exact hih
    · push Not at hwaits
      obtain ⟨succeeded, be, rest, hadv⟩ := hwaits
      have houtcome : firstOutcome ((t :: ts).map fun t => t.sur.advances 0) =
          some (succeeded, be) := by simp [hadv, firstOutcome]
      have hretries : retries ch st.req.method be ↔
          0 < ch.maxRetries ∧ shouldRetryBackendRequest st.req.method be.error 0 := by
        simp [retries, hfirst]
      by_cases hlast : succeeded = true ∨ ¬ retries ch st.req.method be
      · -- the first call is the last one
        obtain ⟨⟨resp', hresp⟩, hcalls⟩ := drive_last recovery t.sur t.mgr h hlast rest
        rw [driveTurns_respond recovery ts (hadv ▸ hresp), hadv, hcalls]
        refine iff_of_true ⟨recordedKeys_outcome _ _ _ [], ?_⟩ ?_
        · intro c hc
          rw [List.mem_singleton.mp hc]
          cases succeeded <;> nofun
        · rintro ⟨be', hbe', hmax, hshould⟩
          rw [houtcome] at hbe'
          cases hbe'
          rcases hlast with hok | hno
          · cases hok
          · exact hno (hretries.mpr ⟨hmax, hshould⟩)
      · -- the first failure is recorded, and so is what follows it
        rw [not_or, not_not] at hlast
        obtain ⟨hfailed, hretry⟩ := hlast
        obtain rfl : succeeded = false := by simpa using hfailed
        refine iff_of_false ?_ (not_not.mpr ⟨be, houtcome, hretries.mp hretry⟩)
        rintro ⟨hkeys, -⟩
        obtain ⟨hdrive, hcalls⟩ := drive_retry recovery t.sur t.mgr h hretry rest
        have hagain : Awaiting (st.setChild 0 (retriedChild ch)) (retriedChild ch) :=
          h.setChild h.live
        rcases turn_cases recovery t.sur (recordOutcome t.mgr ch false t.sur.now) hagain rest with
          ⟨st₁, ch₁, hst₁, hawait⟩ | ⟨st₁, resp₁, hresp, hrecorded⟩
        · have hflight := driveTurns_inFlight recovery ts (hadv ▸ hdrive.trans hst₁)
          rw [hflight] at hturns hkeys
          have htail := recordedKeys_driveTurns hawait hturns
          rw [hadv, hcalls] at hkeys
          simp only [recordedKeys_append, recordedKeys_outcome, recordedKeys_retry, List.cons_append,
            List.cons.injEq, true_and, List.append_eq_nil_iff] at hkeys
          exact htail hkeys.2
        · rw [driveTurns_respond recovery ts (hadv ▸ hdrive.trans hresp), hadv, hcalls] at hkeys
          simp only [recordedKeys_outcome, recordedKeys_retry, List.cons.injEq, true_and] at hkeys
          exact hrecorded hkeys

/-! ## A whole request -/

/-- An admitted request records exactly one outcome, and sends no retry into a
cooldown, exactly if its first call of the backend is not retried. -/
theorem one_outcome_iff {upstreams : Bytes → List UpstreamServer} {s : Surroundings}
    {m m' : UpstreamManager} {id : Nat} {req : HttpRequest} {route : GatewayRoute}
    {st st' : ExchangeState} {ch : ChildExchange} {turns : List Turn} {resp : HttpResponse}
    (hadmitted : admittedExchange upstreams s m id req route = some (m', st))
    (hchild : st.children = [ch])
    (hframed : (driveTurns route.upstreamTarget.circuitRecoveryTimeoutMs st
      (⟨m', s⟩ :: turns)).2 = .respond st' resp) :
    OneOutcome ch.key (driveTurns route.upstreamTarget.circuitRecoveryTimeoutMs st
        (⟨m', s⟩ :: turns)).1 ↔
      ¬ FirstRetried route.upstreamTarget.maxRetries req.method (⟨m', s⟩ :: turns) := by
  obtain ⟨ch', hawait, hfirst, hmax, rfl⟩ := awaiting_of_admitted hadmitted
  obtain rfl : ch' = ch := by simpa [hawait.children] using hchild
  rw [← hmax]
  exact oneOutcome_iff hawait hfirst hframed

/-- A manager with one backend. -/
def loneBackend : UpstreamManager := { upstreams := fun _ => [{ host := ascii "b" }] }

/-- A backend that cannot be reached, for as many calls as are made. -/
def unreachable : Surroundings :=
  { advances := fun _ => List.replicate 3 (.done false { error := .connectFailed }) }

/-- A route that opens its circuit at the second failure. -/
def retryingRoute (maxRetries : Int) : GatewayRoute :=
  { upstreamTarget := { maxRetries := maxRetries, circuitFailureThreshold := 2 } }

/-- A request for the route, and the exchange with which it is admitted. -/
def unreachableStart (maxRetries : Int) : Option (UpstreamManager × ExchangeState) :=
  admittedExchange loneBackend.upstreams unreachable loneBackend 0 { method := ascii "GET" }
    (retryingRoute maxRetries)

/-- What is seen of the first turn of an exchange: the keys of its children, the keys
of the outcomes, the retries during a cooldown, and whether a response is framed. -/
def firstTurn (a : UpstreamManager × ExchangeState) : List Bytes × List Bytes × Nat × Bool :=
  let r := driveTurns 10000 a.2 [⟨a.1, unreachable⟩]
  (a.2.children.map ChildExchange.key, recordedKeys r.1,
    r.1.countP fun c => match c with | .retry cooling => cooling | _ => false,
    match r.2 with | .respond .. => true | _ => false)

def backendKey : Bytes := circuitKey [] { host := ascii "b" }

/-- Without retries the failure is recorded once. -/
theorem one_outcome_unreachable :
    ∃ m' st ch, unreachableStart 0 = some (m', st) ∧ st.children = [ch] ∧
      OneOutcome ch.key (driveTurns 10000 st [⟨m', unreachable⟩]).1 := by
  have hseen : (unreachableStart 0).map firstTurn = some ([backendKey], [backendKey], 0, true) := by
    decide +kernel
  obtain ⟨⟨m', st⟩, hadmitted, hturn⟩ := Option.map_eq_some_iff.mp hseen
  simp only [firstTurn, Prod.mk.injEq] at hturn
  obtain ⟨hkeys, -, -, hframed⟩ := hturn
  obtain ⟨ch, hchild⟩ : ∃ ch, st.children = [ch] :=
    List.length_eq_one_iff.mp (by simpa using congrArg List.length hkeys)
  refine ⟨m', st, ch, hadmitted, hchild, ?_⟩
  split at hframed
  · rename_i st' resp hresp
    refine (one_outcome_iff hadmitted hchild hresp).mpr ?_
    rintro ⟨be, -, hmax, -⟩
    exact absurd hmax (by decide)
  · cases hframed

/-- With two retries it is recorded three times; the second failure opens the
circuit, and the second retry is sent into the cooldown. -/
theorem retries_recorded :
    ∃ m' st ch st' resp, unreachableStart 2 = some (m', st) ∧ st.children = [ch] ∧
      (driveTurns 10000 st [⟨m', unreachable⟩]).2 = .respond st' resp ∧
      recordedKeys (driveTurns 10000 st [⟨m', unreachable⟩]).1 = [ch.key, ch.key, ch.key] ∧
      (∃ c ∈ (driveTurns 10000 st [⟨m', unreachable⟩]).1, c = .retry true) ∧
      ¬ OneOutcome ch.key (driveTurns 10000 st [⟨m', unreachable⟩]).1 := by
  have hseen : (unreachableStart 2).map firstTurn =
      some ([backendKey], [backendKey, backendKey, backendKey], 1, true) := by decide +kernel
  obtain ⟨⟨m', st⟩, hadmitted, hturn⟩ := Option.map_eq_some_iff.mp hseen
  simp only [firstTurn, Prod.mk.injEq] at hturn
  obtain ⟨hkeys, hrecorded, hcooling, hframed⟩ := hturn
  obtain ⟨ch, hchild⟩ : ∃ ch, st.children = [ch] :=
    List.length_eq_one_iff.mp (by simpa using congrArg List.length hkeys)
  have hkey : ch.key = backendKey := by simpa [hchild] using hkeys
  split at hframed
  · rename_i st' resp hresp
    refine ⟨m', st, ch, st', resp, hadmitted, hchild, hresp, by rw [hrecorded, hkey], ?_, ?_⟩
    · obtain ⟨c, hc, hretry⟩ := List.countP_pos_iff.mp (hcooling ▸ Nat.one_pos)
      refine ⟨c, hc, ?_⟩
      rcases c with _ | _ | cooling
      · cases hretry
      · cases hretry
      · rw [show cooling = true from hretry]
    · rintro ⟨hone, -⟩
      rw [hrecorded, hkey] at hone
      cases hone
  · cases hframed

end EpollGateway.Handler
