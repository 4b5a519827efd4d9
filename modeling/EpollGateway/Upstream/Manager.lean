import EpollGateway.Lib.Bytes

/-! # Backend selection and circuit breakers

`UpstreamManager` picks a backend for an upstream group and keeps one circuit
breaker for each backend. An open breaker lets one *probe* request through after
its recovery time; `halfOpenProbe` says that the probe is out. Two fields are
not in the source: `calls` numbers the calls of `allow_request`, and `probeCall`
is the number of the call that set `halfOpenProbe`.
-/

namespace EpollGateway.Upstream

open Bytes

/-- `UpstreamServer`. The failure counters here and below are `int` in the source and do not
overflow: each is counted once a probe or request. -/
structure UpstreamServer where
  host : Bytes
  port : Nat := 80
  healthy : Bool := true
  consecutiveFailures : Nat := 0
deriving DecidableEq, Repr

/-- The result of a probe, written into the entry of a server. -/
def UpstreamServer.applyProbe (server : UpstreamServer) (ok : Bool) : UpstreamServer :=
  if !ok && server.healthy then
    { server with healthy := false, consecutiveFailures := server.consecutiveFailures + 1 }
  else if ok && !server.healthy then { server with healthy := true, consecutiveFailures := 0 }
  else if !ok then { server with consecutiveFailures := server.consecutiveFailures + 1 }
  else { server with consecutiveFailures := 0 }

/-- `UpstreamManager::CircuitState`. -/
structure CircuitState where
  consecutiveFailures : Nat := 0
  openedAt : Nat := 0
  isOpen : Bool := false
  halfOpenProbe : Bool := false
  probeCall : Nat := 0
deriving DecidableEq, Repr

/-- The maps of the source are total functions: `operator[]` creates what is
missing, and a group without servers is treated like a missing one. -/
structure UpstreamManager where
  upstreams : Bytes → List UpstreamServer
  roundRobin : Bytes → Nat := fun _ => 0
  circuits : Bytes → CircuitState := fun _ => {}
  calls : Nat := 0

/-- One entry of a map is replaced. -/
def assign {α : Type*} (f : Bytes → α) (k : Bytes) (v : α) : Bytes → α :=
  fun k' => if k' = k then v else f k'

@[simp] lemma assign_self {α : Type*} (f : Bytes → α) (k : Bytes) (v : α) :
    assign f k v k = v := if_pos rfl

lemma assign_ne {α : Type*} (f : Bytes → α) {k k' : Bytes} (v : α) (h : k' ≠ k) :
    assign f k v k' = f k' := if_neg h

def circuitKey (upstreamName : Bytes) (server : UpstreamServer) : Bytes :=
  upstreamName ++ ascii "|" ++ server.host ++ ascii ":" ++ decimal server.port

/-- What `allow_request` answers; a probe is admitted as well, and carries the
number of the call. -/
inductive Admission where
  | refused
  | admitted
  | probe (call : Nat)
deriving DecidableEq, Repr

namespace UpstreamManager

/-- `allow_request`, at time `now` in milliseconds. -/
def allowRequest (m : UpstreamManager) (upstreamName : Bytes) (server : UpstreamServer)
    (recoveryTimeoutMs : Int) (now : Nat) : Admission × UpstreamManager :=
  let key := circuitKey upstreamName server
  let state := m.circuits key
  let m' := { m with calls := m.calls + 1 }
  if ¬ state.isOpen then (.admitted, m')
  else if (now : Int) - state.openedAt < recoveryTimeoutMs ∨ state.halfOpenProbe then (.refused, m')
  else
    (.probe m.calls,
      { m' with
        circuits := assign m.circuits key { state with halfOpenProbe := true, probeCall := m.calls } })

def recordSuccess (m : UpstreamManager) (upstreamName : Bytes) (server : UpstreamServer) :
    UpstreamManager :=
  let key := circuitKey upstreamName server
  { m with
    circuits := assign m.circuits key
      { m.circuits key with consecutiveFailures := 0, isOpen := false, halfOpenProbe := false } }

def recordFailure (m : UpstreamManager) (upstreamName : Bytes) (server : UpstreamServer)
    (failureThreshold : Int) (now : Nat) : UpstreamManager :=
  let key := circuitKey upstreamName server
  let state := m.circuits key
  let state :=
    { state with halfOpenProbe := false, consecutiveFailures := state.consecutiveFailures + 1 }
  let state :=
    if (state.consecutiveFailures : Int) ≥ max 1 failureThreshold then
      { state with isOpen := true, openedAt := now }
    else state
  { m with circuits := assign m.circuits key state }

/-- `pick_server`: the first healthy server from the round-robin index on, or the
server at the index; `none` is the exception for a group without servers. -/
def pickServer (m : UpstreamManager) (upstreamName : Bytes) :
    Option (UpstreamServer × UpstreamManager) :=
  let servers := m.upstreams upstreamName
  let idx := m.roundRobin upstreamName % servers.length
  let m' := { m with roundRobin := assign m.roundRobin upstreamName (m.roundRobin upstreamName + 1) }
  let order := servers.drop idx ++ servers.take idx
  ((order.find? (·.healthy)).or servers[idx]?).map (·, m')

/-- `check_health`, when nothing comes between its probes and their results. -/
def checkHealth (m : UpstreamManager) (ok : Bytes → Nat → Bool) : UpstreamManager :=
  { m with upstreams := fun name => (m.upstreams name).mapIdx fun i s => s.applyProbe (ok name i) }

/-- `reload` forgets the breakers. -/
def reload (m : UpstreamManager) (upstreams : Bytes → List UpstreamServer) : UpstreamManager :=
  { m with upstreams := upstreams, roundRobin := fun _ => 0, circuits := fun _ => {} }

/-! ## The probe slot -/

/-- The call whose probe is out on a breaker. -/
def probe (m : UpstreamManager) (key : Bytes) : Option Nat :=
  if (m.circuits key).halfOpenProbe then some (m.circuits key).probeCall else none

variable {m : UpstreamManager} {server : UpstreamServer} {key name : Bytes}

/-- Only an admission as a probe takes a slot. -/
lemma probe_allowRequest {recovery : Int} {now : Nat} {call : Nat}
    (h : (m.allowRequest name server recovery now).2.probe key = some call) :
    m.probe key = some call ∨
      (key = circuitKey name server ∧ (m.allowRequest name server recovery now).1 = .probe call) := by
  unfold allowRequest at h ⊢
  dsimp only at h ⊢
  split at h
  · exact .inl h
  · rename_i hopen
    split at h
    · exact .inl h
    · rename_i hwait
      rw [if_neg hopen, if_neg hwait]
      by_cases hkey : key = circuitKey name server
      · subst hkey
        have hcall : call = m.calls := by simpa [probe, eq_comm] using h
        exact .inr ⟨rfl, by rw [hcall]⟩
      · left
        simpa [probe, assign_ne _ _ hkey] using h

/-- An outcome gives the slot back. -/
lemma probe_recordSuccess {call : Nat} (h : (m.recordSuccess name server).probe key = some call) :
    m.probe key = some call ∧ key ≠ circuitKey name server := by
  by_cases hkey : key = circuitKey name server
  · subst hkey
    simp [probe, recordSuccess] at h
  · refine ⟨?_, hkey⟩
    simpa [probe, recordSuccess, assign_ne _ _ hkey] using h

lemma probe_recordFailure {threshold : Int} {now : Nat} {call : Nat}
    (h : (m.recordFailure name server threshold now).probe key = some call) :
    m.probe key = some call ∧ key ≠ circuitKey name server := by
  by_cases hkey : key = circuitKey name server
  · subst hkey
    simp only [probe, recordFailure, assign_self] at h
    split at h <;> simp_all
  · refine ⟨?_, hkey⟩
    simpa [probe, recordFailure, assign_ne _ _ hkey] using h

lemma probe_pickServer {m' : UpstreamManager} (h : m.pickServer name = some (server, m'))
    (key : Bytes) : m'.probe key = m.probe key := by
  obtain ⟨s, -, hs⟩ := Option.map_eq_some_iff.mp h
  cases hs
  rfl

/-- A group with servers always yields one. -/
lemma pickServer_isSome (h : m.upstreams name ≠ []) : (m.pickServer name).isSome := by
  have hlt : m.roundRobin name % (m.upstreams name).length < (m.upstreams name).length :=
    Nat.mod_lt _ (List.length_pos_of_ne_nil h)
  simp [pickServer, List.getElem?_eq_getElem hlt]

end UpstreamManager

/-! ## The servers -/

lemma upstreams_pickServer {m m' : UpstreamManager} {name : Bytes} {server : UpstreamServer}
    (h : m.pickServer name = some (server, m')) : m'.upstreams = m.upstreams := by
  obtain ⟨s, -, hs⟩ := Option.map_eq_some_iff.mp h
  cases hs
  rfl

lemma upstreams_allowRequest (m : UpstreamManager) (name : Bytes) (server : UpstreamServer)
    (recovery : Int) (now : Nat) :
      (m.allowRequest name server recovery now).2.upstreams = m.upstreams := by
  unfold UpstreamManager.allowRequest
  dsimp only
  split
  · rfl
  · split <;> rfl

end EpollGateway.Upstream
