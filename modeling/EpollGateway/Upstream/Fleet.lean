import EpollGateway.Lib.Run
import EpollGateway.Upstream.Manager

/-! # Workers that share one manager

All workers use one `UpstreamManager`. Each call of it holds the lock for itself, so the
calls of the workers may come in any order. Two things take more than one call.

`check_health` takes the list of servers under the lock, probes them without it, and
writes the results under the lock again, into the entries that have the names and indices
of the list.

A request is dispatched with two configurations: the handler looks for the upstream in
its own, and `pick_server` in the one of the manager. `reload_config` replaces both, but
only for the worker that calls it; the others follow at their own time.
-/

namespace EpollGateway.Upstream

open Bytes Machine Function

/-- Host and port. -/
def UpstreamServer.address (s : UpstreamServer) : Bytes × Nat := (s.host, s.port)

@[simp] lemma address_applyProbe (s : UpstreamServer) (ok : Bool) :
    (s.applyProbe ok).address = s.address := by
  unfold UpstreamServer.applyProbe
  split
  · rfl
  · split
    · rfl
    · split <;> rfl

/-! ## `check_health` -/

structure ProbeTarget where
  upstreamName : Bytes
  serverIndex : Nat
  host : Bytes
  port : Nat
deriving DecidableEq, Repr

def ProbeTarget.address (t : ProbeTarget) : Bytes × Nat := (t.host, t.port)

/-- The list of servers; `names` are the groups in the order of the map. -/
def UpstreamManager.targets (m : UpstreamManager) (names : List Bytes) : List ProbeTarget :=
  names.flatMap fun name => (m.upstreams name).mapIdx fun i s => ⟨name, i, s.host, s.port⟩

/-- A call of `check_health` that is not over: the servers that it has yet to probe, and
its results. The source keeps of a target in the results only its name and its index. -/
structure Check where
  pending : List ProbeTarget
  results : List (ProbeTarget × Bool) := []

/-- One result is written. The index may be out of bounds, and is skipped then. -/
def UpstreamManager.applyResult (m : UpstreamManager) (r : ProbeTarget × Bool) : UpstreamManager :=
  match (m.upstreams r.1.upstreamName)[r.1.serverIndex]? with
  | none => m
  | some server =>
    { m with
      upstreams := assign m.upstreams r.1.upstreamName
        ((m.upstreams r.1.upstreamName).set r.1.serverIndex (server.applyProbe r.2)) }

/-- The manager, and the addresses whose probes have been written into each of its entries
since the entry was installed, which are not in the source. -/
structure Entries where
  mgr : UpstreamManager
  origins : Bytes → Nat → List (Bytes × Nat) := fun _ _ => []

def Entries.applyResult (e : Entries) (r : ProbeTarget × Bool) : Entries :=
  { mgr := e.mgr.applyResult r
    origins :=
      if ((e.mgr.upstreams r.1.upstreamName)[r.1.serverIndex]?).isSome then
        assign e.origins r.1.upstreamName
          (update (e.origins r.1.upstreamName) r.1.serverIndex
            (r.1.address :: e.origins r.1.upstreamName r.1.serverIndex))
      else e.origins }

/-! ## The machine -/

/-- The entries of the manager; the configuration that it was given last, as it was; and
of each worker its own configuration, its health check, and the upstream that it has
found and is about to pick a server of. -/
structure Fleet where
  entries : Entries
  installed : Bytes → List UpstreamServer
  configs : Nat → Bytes → List UpstreamServer
  checks : Nat → Option Check := fun _ => none
  finding : Nat → Option Bytes := fun _ => none

def Fleet.mgr (s : Fleet) : UpstreamManager := s.entries.mgr

/-- A call of a worker, or a step of its health check. -/
inductive FleetLabel where
  | allow (name : Bytes) (server : UpstreamServer) (recoveryTimeoutMs : Int) (now : Nat)
  | success (name : Bytes) (server : UpstreamServer)
  | failure (name : Bytes) (server : UpstreamServer) (failureThreshold : Int) (now : Nat)
  | find (w : Nat) (name : Bytes)
  | pick (w : Nat)
  | snapshot (w : Nat) (names : List Bytes)
  | probe (w : Nat) (ok : Bool)
  | apply (w : Nat)
  | reload (w : Nat) (upstreams : Bytes → List UpstreamServer)

/-- A worker that is neither in a health check nor between its two looks at an upstream. -/
def Fleet.free (s : Fleet) (w : Nat) : Bool := (s.checks w).isNone && (s.finding w).isNone

/-- Another manager with the same servers. -/
def Fleet.withMgr (s : Fleet) (m : UpstreamManager) : Fleet :=
  { s with entries.mgr := m }

def fleetStep : FleetLabel → Fleet → Option Fleet
  | .allow name server recovery now, s =>
    some (s.withMgr (s.mgr.allowRequest name server recovery now).2)
  | .success name server, s => some (s.withMgr (s.mgr.recordSuccess name server))
  | .failure name server threshold now, s =>
    some (s.withMgr (s.mgr.recordFailure name server threshold now))
  | .find w name, s =>
    if s.free w ∧ s.configs w name ≠ [] then
      some { s with finding := update s.finding w (some name) }
    else none
  | .pick w, s =>
    (s.finding w).map fun name =>
      let s' := { s with finding := update s.finding w none }
      match s.mgr.pickServer name with
      | some (_, m) => s'.withMgr m
      -- the exception
      | none => s'
  | .snapshot w names, s =>
    if s.free w then
      some { s with checks := update s.checks w (some { pending := s.mgr.targets names }) }
    else none
  | .probe w ok, s =>
    match s.checks w with
    | some ⟨target :: pending, results⟩ =>
      some { s with
        checks := update s.checks w (some ⟨pending, results ++ [(target, ok)]⟩) }
    | _ => none
  | .apply w, s =>
    match s.checks w with
    | some ⟨[], results⟩ =>
      some { s with
        entries := results.foldl Entries.applyResult s.entries
        checks := update s.checks w none }
    | _ => none
  | .reload w upstreams, s =>
    if s.free w then
      some { s with
        entries := { mgr := s.mgr.reload upstreams }
        installed := upstreams
        configs := update s.configs w upstreams }
    else none

/-- The gateway after its start. -/
def Fleet.init (upstreams : Bytes → List UpstreamServer) : Fleet :=
  { entries := { mgr := { upstreams := upstreams } }
    installed := upstreams
    configs := fun _ => upstreams }

/-! ## What the results of a check do -/

lemma upstreams_applyResult (m : UpstreamManager) (r : ProbeTarget × Bool) (name : Bytes)
    (i : Nat) :
    ((m.applyResult r).upstreams name)[i]? =
      if name = r.1.upstreamName ∧ i = r.1.serverIndex then
        ((m.upstreams name)[i]?).map (·.applyProbe r.2)
      else (m.upstreams name)[i]? := by
  unfold UpstreamManager.applyResult
  rcases hserver : (m.upstreams r.1.upstreamName)[r.1.serverIndex]? with _ | server
  · -- out of bounds: there is nothing to write to
    dsimp only
    split
    · rename_i hplace
      rw [hplace.1, hplace.2, hserver]
      rfl
    · rfl
  · dsimp only
    by_cases hname : name = r.1.upstreamName
    · subst hname
      rw [assign_self]
      by_cases hi : i = r.1.serverIndex
      · subst hi
        have hlt : r.1.serverIndex < (m.upstreams r.1.upstreamName).length :=
          (List.getElem?_eq_some_iff.mp hserver).1
        rw [if_pos ⟨rfl, rfl⟩, List.getElem?_set_self hlt, hserver]
        rfl
      · rw [if_neg (fun h => hi h.2), List.getElem?_set_ne (Ne.symm hi)]
    · rw [if_neg (fun h => hname h.1), assign_ne _ _ hname]

/-- Entries stay where they are, with their addresses. -/
lemma address_applyResults (results : List (ProbeTarget × Bool)) (e : Entries) (name : Bytes)
    (i : Nat) :
    (((results.foldl Entries.applyResult e).mgr.upstreams name)[i]?).map UpstreamServer.address =
      ((e.mgr.upstreams name)[i]?).map UpstreamServer.address := by
  induction results generalizing e with
  | nil => rfl
  | cons r results ih =>
    rw [List.foldl_cons, ih]
    unfold Entries.applyResult
    dsimp only
    rw [upstreams_applyResult]
    split
    · rw [Option.map_map]
      congr 1
      funext s
      exact address_applyProbe s r.2
    · rfl

/-- The addresses that have been written into an entry: those from before, and those of the
results for its place. -/
lemma mem_origins_applyResults (results : List (ProbeTarget × Bool)) (e : Entries) (name : Bytes)
    (i : Nat) (a : Bytes × Nat) :
    a ∈ (results.foldl Entries.applyResult e).origins name i ↔
      a ∈ e.origins name i ∨ ((e.mgr.upstreams name)[i]?).isSome ∧ ∃ r ∈ results,
        r.1.upstreamName = name ∧ r.1.serverIndex = i ∧ r.1.address = a := by
  induction results generalizing e with
  | nil => simp
  | cons r results ih =>
    rw [List.foldl_cons, ih]
    have hsome : (((e.applyResult r).mgr.upstreams name)[i]?).isSome =
        ((e.mgr.upstreams name)[i]?).isSome := by
      have haddr := address_applyResults [r] e name i
      simpa using congrArg Option.isSome haddr
    rw [hsome]
    have horigin : a ∈ (e.applyResult r).origins name i ↔
        a ∈ e.origins name i ∨ ((e.mgr.upstreams name)[i]?).isSome ∧
          r.1.upstreamName = name ∧ r.1.serverIndex = i ∧ r.1.address = a := by
      unfold Entries.applyResult
      dsimp only
      by_cases hname : name = r.1.upstreamName
      · subst hname
        by_cases hi : i = r.1.serverIndex
        · subst hi
          split
          · rename_i hin
            rw [assign_self, update_self, List.mem_cons]
            simp [hin, or_comm, eq_comm]
          · rename_i hout
            simp [hout]
        · have hne : ¬ r.1.serverIndex = i := Ne.symm hi
          split
          · rw [assign_self, update_of_ne hi]
            simp [hne]
          · simp [hne]
      · have hne : ¬ r.1.upstreamName = name := Ne.symm hname
        split
        · rw [assign_ne _ _ hname]
          simp [hne]
        · simp [hne]
    rw [horigin]
    simp only [List.mem_cons, exists_eq_or_imp, or_assoc, ← and_or_left]

end EpollGateway.Upstream
