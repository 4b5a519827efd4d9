import EpollGateway.Upstream.Health

/-! # One configuration, applied by several workers

Every worker that sees a new generation calls `reload` with the configuration it has read,
and `reload` starts the manager afresh. The second worker thereby discards what has been
recorded since the first one: open circuits, failure counts, round-robin positions and
the health of the servers.

Applying the configuration again keeps what was recorded exactly if nothing was
(`reload_keeps_iff`).
-/

namespace EpollGateway.Upstream

open Bytes Machine

/-- Circuits, failure counts, round-robin positions and health are as they were. -/
structure Keeps (m m' : UpstreamManager) : Prop where
  servers : m'.upstreams = m.upstreams
  positions : m'.roundRobin = m.roundRobin
  circuits : m'.circuits = m.circuits

/-- Nothing was recorded since the configuration was installed: each server has the health
that it was configured with, no position has moved, and every circuit is closed, without
a failure or a probe. -/
structure Unrecorded (s : Fleet) : Prop where
  servers : s.mgr.upstreams = s.installed
  positions : ∀ name, s.mgr.roundRobin name = 0
  circuits : ∀ key, s.mgr.circuits key = {}

/-- A configuration as it is read from the file: every server is taken to be healthy. -/
def Plain (upstreams : Bytes → List UpstreamServer) : Prop :=
  ∀ name, ∀ server ∈ upstreams name, server.healthy = true ∧ server.consecutiveFailures = 0

/-- Calls that record nothing in a manager that is as new: admissions, successes, probes
that are answered, and reloads. -/
def Quiet (s : Fleet) : FleetLabel → Prop
  | .allow .. => True
  | .success .. => True
  | .failure .. => False
  | .find .. => True
  | .pick _ => False
  | .snapshot .. => True
  | .probe _ ok => ok = true
  | .apply w => ∀ c, s.checks w = some c → ∀ r ∈ c.results, r.2 = true
  | .reload _ upstreams => Plain upstreams

lemma reload_keeps {w : Nat} {s s' : Fleet}
    (h : fleetStep (.reload w s.installed) s = some s') : Keeps s.mgr s'.mgr ↔ Unrecorded s := by
  simp only [fleetStep] at h
  split at h
  · cases h
    constructor
    · intro hkeeps
      constructor
      · exact hkeeps.servers.symm
      · intro name
        exact (congrFun hkeeps.positions name).symm
      · intro key
        exact (congrFun hkeeps.circuits key).symm
    · intro hun
      constructor
      · exact hun.servers.symm
      · funext name
        exact (hun.positions name).symm
      · funext key
        exact (hun.circuits key).symm
  · cases h

/-! ## Quiet runs -/

lemma applyProbe_healthy {server : UpstreamServer} (h : server.healthy = true)
    (h' : server.consecutiveFailures = 0) : server.applyProbe true = server := by
  cases server
  simp_all [UpstreamServer.applyProbe]

/-- Results of probes that were answered change nothing at healthy servers. -/
lemma upstreams_applyResults_ok {results : List (ProbeTarget × Bool)}
    (hok : ∀ r ∈ results, r.2 = true) {e : Entries} (hplain : Plain e.mgr.upstreams) :
    (results.foldl Entries.applyResult e).mgr.upstreams = e.mgr.upstreams := by
  induction results generalizing e with
  | nil => rfl
  | cons r results ih =>
    have hsame : (e.applyResult r).mgr.upstreams = e.mgr.upstreams := by
      funext name
      apply List.ext_getElem?
      intro i
      unfold Entries.applyResult
      dsimp only
      rw [upstreams_applyResult, hok r (.head _)]
      split
      · rcases hserver : (e.mgr.upstreams name)[i]? with _ | server
        · rfl
        · have hhealthy := hplain name server (List.mem_of_getElem? hserver)
          rw [Option.map_some, applyProbe_healthy hhealthy.1 hhealthy.2]
      · rfl
    rw [List.foldl_cons, ih (fun r' hr' => hok r' (.tail _ hr')) (hsame ▸ hplain), hsame]

/-- The results do not touch circuits and positions. -/
lemma circuits_applyResults (results : List (ProbeTarget × Bool)) (e : Entries) :
    (results.foldl Entries.applyResult e).mgr.circuits = e.mgr.circuits ∧
      (results.foldl Entries.applyResult e).mgr.roundRobin = e.mgr.roundRobin := by
  induction results generalizing e with
  | nil => exact ⟨rfl, rfl⟩
  | cons r results ih =>
    have hone : (e.applyResult r).mgr.circuits = e.mgr.circuits ∧
        (e.applyResult r).mgr.roundRobin = e.mgr.roundRobin := by
      unfold Entries.applyResult UpstreamManager.applyResult
      dsimp only
      split <;> exact ⟨rfl, rfl⟩
    exact ⟨(ih _).1.trans hone.1, (ih _).2.trans hone.2⟩

lemma unrecorded_step {l : FleetLabel} {s s' : Fleet} (h : fleetStep l s = some s')
    (hquiet : Quiet s l) (hun : Unrecorded s) (hplain : Plain s.installed) :
    Unrecorded s' ∧ Plain s'.installed := by
  cases l with
  | allow name server recovery now =>
    cases h
    -- a closed circuit is not written to
    have hclosed : ¬ (s.mgr.circuits (circuitKey name server)).isOpen = true := by
      rw [hun.circuits]
      simp
    have hallow : (s.mgr.allowRequest name server recovery now).2 =
        { s.mgr with calls := s.mgr.calls + 1 } := by
      unfold UpstreamManager.allowRequest
      dsimp only
      rw [if_pos hclosed]
    rw [hallow]
    exact ⟨⟨hun.servers, hun.positions, hun.circuits⟩, hplain⟩
  | success name server =>
    cases h
    refine ⟨⟨hun.servers, hun.positions, ?_⟩, hplain⟩
    intro key
    change (s.mgr.recordSuccess name server).circuits key = {}
    unfold UpstreamManager.recordSuccess
    dsimp only
    by_cases hkey : key = circuitKey name server
    · rw [hkey, assign_self, hun.circuits]
    · rw [assign_ne _ _ hkey, hun.circuits]
  | failure name server threshold now => cases hquiet
  | find w name =>
    simp only [fleetStep] at h
    split at h
    · cases h
      exact ⟨⟨hun.servers, hun.positions, hun.circuits⟩, hplain⟩
    · cases h
  | pick w => cases hquiet
  | snapshot w names =>
    simp only [fleetStep] at h
    split at h
    · cases h
      exact ⟨⟨hun.servers, hun.positions, hun.circuits⟩, hplain⟩
    · cases h
  | probe w ok =>
    simp only [fleetStep] at h
    split at h
    · cases h
      exact ⟨⟨hun.servers, hun.positions, hun.circuits⟩, hplain⟩
    · cases h
  | apply w =>
    simp only [fleetStep] at h
    split at h
    · rename_i results hcheck
      cases h
      have hservers := upstreams_applyResults_ok (hquiet _ hcheck) (e := s.entries)
        (by rw [show s.entries.mgr.upstreams = s.installed from hun.servers]; exact hplain)
      have hrest := circuits_applyResults results s.entries
      refine ⟨⟨hservers.trans hun.servers, ?_, ?_⟩, hplain⟩
      · intro name
        exact (congrFun hrest.2 name).trans (hun.positions name)
      · intro key
        exact (congrFun hrest.1 key).trans (hun.circuits key)
    · cases h
  | reload w upstreams =>
    simp only [fleetStep] at h
    split at h
    · cases h
      exact ⟨⟨rfl, fun _ => rfl, fun _ => rfl⟩, hquiet⟩
    · cases h

/-- In every state, applying the installed configuration again keeps what was recorded
exactly if nothing was. In a run that consists of calls that record nothing it does keep
it. -/
theorem reload_keeps_iff (upstreams : Bytes → List UpstreamServer) :
    (∀ s w s', fleetStep (.reload w s.installed) s = some s' →
      (Keeps s.mgr s'.mgr ↔ Unrecorded s)) ∧
    (Plain upstreams → ∀ ls s, Run fleetStep Quiet (Fleet.init upstreams) ls s → ∀ w s',
      fleetStep (.reload w s.installed) s = some s' → Keeps s.mgr s'.mgr) := by
  constructor
  · intro s w s' hstep
    exact reload_keeps hstep
  · intro hplain ls s hrun w s' hstep
    have hboth : Unrecorded s ∧ Plain s.installed := by
      apply hrun.invariant (I := fun s => Unrecorded s ∧ Plain s.installed)
      · exact ⟨⟨rfl, fun _ => rfl, fun _ => rfl⟩, hplain⟩
      · intro t l u ht hquiet hu
        exact unrecorded_step hu hquiet ht.1 ht.2
    exact (reload_keeps hstep).mpr hboth.1

/-! ## Two workers -/

lemma plain_onPorts (ports : List Nat) : Plain (onPorts ports) := by
  intro name server hserver
  unfold onPorts at hserver
  split at hserver
  · rcases List.mem_map.mp hserver with ⟨port, -, rfl⟩
    exact ⟨rfl, rfl⟩
  · cases hserver

/-- Two workers apply the same configuration one after the other. -/
theorem reload_keeps_idle : ∃ s s', Run fleetStep Quiet (Fleet.init (onPorts [1]))
    [.reload 1 (onPorts [2])] s ∧ fleetStep (.reload 2 s.installed) s = some s' ∧
    Keeps s.mgr s'.mgr := by
  have hsome : ((fleetStep (.reload 1 (onPorts [2])) (Fleet.init (onPorts [1]))).map fun s =>
      (fleetStep (.reload 2 s.installed) s).isSome) = some true := by
    decide +kernel
  rcases Option.map_eq_some_iff.mp hsome with ⟨s, hs, hnext⟩
  rcases Option.isSome_iff_exists.mp hnext with ⟨s', hs'⟩
  have hrun : Run fleetStep Quiet (Fleet.init (onPorts [1])) ([] ++ [.reload 1 (onPorts [2])]) s :=
    Run.snoc Run.nil (plain_onPorts [2]) hs
  exact ⟨s, s', hrun, hs', (reload_keeps_iff _).2 (plain_onPorts [1]) _ s hrun 2 s' hs'⟩

/-- A circuit opens between the reloads of two workers, and is closed by the second one. -/
theorem reload_discards : ∃ ls s s', Run fleetStep Any (Fleet.init (onPorts [1])) ls s ∧
    fleetStep (.reload 2 s.installed) s = some s' ∧ ¬ Keeps s.mgr s'.mgr := by
  obtain ⟨s, hrun, heq⟩ : ∃ s, Run fleetStep Any (Fleet.init (onPorts [1]))
      [.reload 1 (onPorts [2]), .failure (ascii "g") { host := ascii "h", port := 2 } 1 0] s ∧
      ((s.mgr.circuits (ascii "g|h:2")).isOpen,
        (fleetStep (.reload 2 s.installed) s).map fun s' =>
          (s'.mgr.circuits (ascii "g|h:2")).isOpen) = (true, some false) :=
    exists_run_of_exec (by decide +kernel)
  simp only [Prod.mk.injEq] at heq
  rcases Option.map_eq_some_iff.mp heq.2 with ⟨s', hs', hclosed⟩
  refine ⟨_, s, s', hrun, hs', ?_⟩
  intro hkeeps
  rw [hkeeps.circuits, heq.1] at hclosed
  cases hclosed

end EpollGateway.Upstream
