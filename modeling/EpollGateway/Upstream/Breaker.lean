import EpollGateway.Lib.Run
import EpollGateway.Upstream.Manager

/-! # Requests at a circuit breaker

Any number of requests share the breakers of an `UpstreamManager`. A request asks
for admission, records outcomes and goes away; `callStep` is one such call, for any
interleaving of them.

A breaker knows that a probe is out, but not whose it is: an outcome of any request
clears `half_open_probe`. Two probes are out at a time after an outcome that is not
the last one of the probe itself, and only then.
-/

namespace EpollGateway.Upstream

open Bytes Machine

/-- A request that `allow_request` has admitted; `probe` says that the circuit was
open. -/
structure Admitted where
  call : Nat
  name : Bytes
  server : UpstreamServer
  probe : Bool
deriving DecidableEq, Repr

def Admitted.key (r : Admitted) : Bytes := circuitKey r.name r.server

/-- The manager and the requests in flight. -/
structure Traffic where
  mgr : UpstreamManager
  inFlight : List Admitted

/-- A call at the manager. A request with `retried` failed and is sent again; one
that leaves is dropped without an outcome. -/
inductive Call where
  | allow (name : Bytes) (server : UpstreamServer) (recoveryTimeoutMs : Int) (now : Nat)
  | success (call : Nat)
  | failure (call : Nat) (failureThreshold : Int) (now : Nat) (retried : Bool)
  | leave (call : Nat)

namespace Traffic

/-- The request that was admitted by a call. -/
def find (s : Traffic) (call : Nat) : Option Admitted := s.inFlight.find? (·.call = call)

/-- The request is no longer in flight. -/
def drop (s : Traffic) (call : Nat) : Traffic :=
  { s with inFlight := s.inFlight.filter (·.call ≠ call) }

/-- `allow_request` has admitted a request. -/
def enter (s : Traffic) (mgr : UpstreamManager) (name : Bytes) (server : UpstreamServer)
    (probe : Bool) : Traffic :=
  { mgr := mgr, inFlight := s.inFlight ++ [⟨s.mgr.calls, name, server, probe⟩] }

end Traffic

/-- One call of one request. -/
def callStep : Call → Traffic → Option Traffic
  | .allow name server recovery now, s =>
    match s.mgr.allowRequest name server recovery now with
    | (.refused, mgr) => some { s with mgr := mgr }
    | (.admitted, mgr) => some (s.enter mgr name server false)
    | (.probe _, mgr) => some (s.enter mgr name server true)
  | .success call, s =>
    (s.find call).map fun r => { s.drop call with mgr := s.mgr.recordSuccess r.name r.server }
  | .failure call threshold now retried, s =>
    (s.find call).map fun r =>
      { (if retried then s else s.drop call) with
        mgr := s.mgr.recordFailure r.name r.server threshold now }
  | .leave call, s => (s.find call).map fun _ => s.drop call

/-- An outcome for a key is recorded while no other probe for the key is in flight,
and a probe that records one is over. -/
def SparesProbe (s : Traffic) : Call → Prop
  | .allow .. => True
  | .success call => ∀ r ∈ s.find call, ∀ p ∈ s.inFlight, p.probe → p.key = r.key → p.call = call
  | .failure call _ _ retried =>
    ∀ r ∈ s.find call, ∀ p ∈ s.inFlight, p.probe → p.key = r.key → p.call = call ∧ retried = false
  | .leave _ => True

instance (s : Traffic) (l : Call) : Decidable (SparesProbe s l) :=
  match l with
  | .allow .. => inferInstanceAs (Decidable True)
  | .success call =>
    inferInstanceAs (Decidable (∀ r ∈ s.find call, ∀ p ∈ s.inFlight, _ → _ → _))
  | .failure call _ _ _ =>
    inferInstanceAs (Decidable (∀ r ∈ s.find call, ∀ p ∈ s.inFlight, _ → _ → _ ∧ _))
  | .leave _ => inferInstanceAs (Decidable True)

/-- Not both were admitted while the circuit was open. -/
def NotBothProbes (r p : Admitted) : Prop := r.probe → p.probe → r.key ≠ p.key

/-- The probes in flight are those the breakers know of, one for each key. -/
structure Traffic.Sound (s : Traffic) : Prop where
  known : ∀ p ∈ s.inFlight, p.probe → (s.mgr.circuits p.key).halfOpenProbe = true
  one : s.inFlight.Pairwise NotBothProbes

/-! ## The calls -/

variable {s s' : Traffic} {name : Bytes}

lemma Traffic.Sound.drop (h : s.Sound) (call : Nat) : (s.drop call).Sound :=
  ⟨fun p hp => h.known p (List.mem_of_mem_filter hp), h.one.filter _⟩

variable {m : UpstreamManager} {server : UpstreamServer}

/-- The flag of a probe falls only with an outcome for its key. -/
lemma halfOpenProbe_recordSuccess {m : UpstreamManager} {name key : Bytes}
    {server : UpstreamServer} (hkey : key ≠ circuitKey name server) :
    ((m.recordSuccess name server).circuits key).halfOpenProbe = (m.circuits key).halfOpenProbe := by
  simp [UpstreamManager.recordSuccess, assign_ne _ _ hkey]

lemma halfOpenProbe_recordFailure {key : Bytes} {threshold : Int} {now : Nat}
    (hkey : key ≠ circuitKey name server) :
    ((m.recordFailure name server threshold now).circuits key).halfOpenProbe =
      (m.circuits key).halfOpenProbe := by
  simp [UpstreamManager.recordFailure, assign_ne _ _ hkey]

/-- What `allow_request` does: nothing to the breakers, or it raises the flag of a
breaker on which it was down. -/
lemma allowRequest_cases {m' : UpstreamManager} {recovery : Int} {now : Nat} {a : Admission}
    (h : m.allowRequest name server recovery now = (a, m')) :
    ((a = .refused ∨ a = .admitted) ∧ m'.circuits = m.circuits) ∨
    (a = .probe m.calls ∧ (m.circuits (circuitKey name server)).halfOpenProbe = false ∧
      ∀ key, (m'.circuits key).halfOpenProbe =
        (decide (key = circuitKey name server) || (m.circuits key).halfOpenProbe)) := by
  unfold UpstreamManager.allowRequest at h
  dsimp only at h
  split at h
  · cases h
    exact .inl ⟨.inr rfl, rfl⟩
  · split at h
    · cases h
      exact .inl ⟨.inl rfl, rfl⟩
    · rename_i hwait
      cases h
      refine .inr ⟨rfl, by simpa using (not_or.mp hwait).2, fun key => ?_⟩
      by_cases hkey : key = circuitKey name server
      · simp [hkey]
      · simp [hkey, assign_ne]

/-- A request that is not a probe joins those in flight. -/
lemma Traffic.Sound.enter (h : s.Sound) (hcircuits : m.circuits = s.mgr.circuits) (name : Bytes)
    (server : UpstreamServer) : (s.enter m name server false).Sound := by
  constructor
  · intro p hp hprobe
    rcases List.mem_append.mp hp with hp | hp
    · simpa [Traffic.enter, hcircuits] using h.known p hp hprobe
    · cases List.mem_singleton.mp hp
      cases hprobe
  · refine List.pairwise_append.mpr ⟨h.one, List.pairwise_singleton _ _, ?_⟩
    intro r _ p hp _ hprobe
    cases List.mem_singleton.mp hp
    cases hprobe

/-- A probe joins those in flight: the flag was down, so there is no other one. -/
lemma Traffic.Sound.admitProbe (h : s.Sound)
    (hdown : (s.mgr.circuits (circuitKey name server)).halfOpenProbe = false)
    (hflag : ∀ key, (m.circuits key).halfOpenProbe =
      (decide (key = circuitKey name server) || (s.mgr.circuits key).halfOpenProbe)) :
    (s.enter m name server true).Sound := by
  constructor
  · intro p hp hprobe
    rcases List.mem_append.mp hp with hp | hp
    · simp [Traffic.enter, hflag, h.known p hp hprobe]
    · cases List.mem_singleton.mp hp
      simp [Traffic.enter, hflag, Admitted.key]
  · refine List.pairwise_append.mpr ⟨h.one, List.pairwise_singleton _ _, ?_⟩
    intro r hr p hp hprobe _ hkey
    cases List.mem_singleton.mp hp
    have hup := h.known r hr hprobe
    rw [show r.key = circuitKey name server from hkey, hdown] at hup
    cases hup

/-- An outcome is recorded for a key: the flags of other keys stay as they are, and
the probes that stay in flight are for other keys. -/
lemma Traffic.Sound.recorded (h : s.Sound) (key : Bytes) (hsub : s'.inFlight.Sublist s.inFlight)
    (hflag : ∀ k, k ≠ key → (s'.mgr.circuits k).halfOpenProbe = (s.mgr.circuits k).halfOpenProbe)
    (hother : ∀ p ∈ s'.inFlight, p.probe → p.key ≠ key) : s'.Sound := by
  refine ⟨fun p hp hprobe => ?_, h.one.sublist hsub⟩
  rw [hflag _ (hother p hp hprobe)]
  exact h.known p (hsub.subset hp) hprobe

/-- A call that spares the probe keeps the probes apart. -/
lemma Traffic.Sound.step {l : Call} (h : s.Sound) (hspares : SparesProbe s l)
    (hstep : callStep l s = some s') : s'.Sound := by
  cases l with
  | allow name server recovery now =>
    rcases hallow : s.mgr.allowRequest name server recovery now with ⟨a, m⟩
    simp only [callStep, hallow] at hstep
    rcases allowRequest_cases hallow with ⟨rfl | rfl, hcircuits⟩ | ⟨rfl, hdown, hflag⟩
    · cases hstep
      exact ⟨fun p hp hprobe => by simpa [hcircuits] using h.known p hp hprobe, h.one⟩
    · cases hstep
      exact h.enter hcircuits name server
    · cases hstep
      exact h.admitProbe hdown hflag
  | success call =>
    obtain ⟨r, hr, rfl⟩ := Option.map_eq_some_iff.mp hstep
    refine h.recorded r.key List.filter_sublist
      (fun k hk => halfOpenProbe_recordSuccess hk) fun p hp hprobe hkey => ?_
    -- the one probe with this key was the request itself, which is gone
    have hcall := hspares r hr p (List.mem_of_mem_filter hp) hprobe hkey
    have hne := (List.mem_filter.mp hp).2
    simp [hcall] at hne
  | failure call threshold now retried =>
    obtain ⟨r, hr, rfl⟩ := Option.map_eq_some_iff.mp hstep
    have hsub : (if retried then s else s.drop call).inFlight.Sublist s.inFlight := by
      split
      · exact List.Sublist.refl _
      · exact List.filter_sublist
    refine h.recorded r.key hsub (fun k hk => halfOpenProbe_recordFailure hk)
      fun p hp hprobe hkey => ?_
    obtain ⟨hcall, rfl⟩ := hspares r hr p (hsub.subset hp) hprobe hkey
    have hne := (List.mem_filter.mp hp).2
    simp [hcall] at hne
  | leave call =>
    obtain ⟨r, -, rfl⟩ := Option.map_eq_some_iff.mp hstep
    exact h.drop call

/-! ## Runs -/

/-- In every run whose outcomes spare the probe, no two requests in flight for one
key were admitted while its circuit was open. -/
theorem one_probe_in_flight {m : UpstreamManager} {calls : List Call} {s : Traffic}
    (hrun : Run callStep SparesProbe ⟨m, []⟩ calls s) : s.inFlight.Pairwise NotBothProbes := by
  have hsound : s.Sound := hrun.invariant ⟨nofun, List.Pairwise.nil⟩
    fun _ _ _ h hspares hstep => h.step hspares hstep
  exact hsound.one

/-- A backend that opens its circuit at the first failure. -/
def fragile : UpstreamServer := { host := ascii "b" }

/-- A failure opens the circuit, and after ten milliseconds a probe is out. -/
def probeCalls : List Call :=
  [.allow [] fragile 10 0, .failure 0 1 0 false, .allow [] fragile 10 10]

theorem one_probe_in_flight_probeCalls :
    ∃ s, Run callStep SparesProbe ⟨{ upstreams := fun _ => [] }, []⟩ probeCalls s ∧
      s.inFlight.map (·.probe) = [true] ∧ s.inFlight.Pairwise NotBothProbes := by
  obtain ⟨s, hrun, hs⟩ := exists_run_of_exec (f := fun s : Traffic => s.inFlight.map (·.probe))
    (show (exec callStep SparesProbe probeCalls ⟨{ upstreams := fun _ => [] }, []⟩).map
      (fun s => s.inFlight.map (·.probe)) = some [true] by decide +kernel)
  exact ⟨s, hrun, hs, one_probe_in_flight hrun⟩

/-- A request that was admitted before the circuit opened fails while the probe is
out. -/
def lateFailure : List Call :=
  [.allow [] fragile 10 0, .allow [] fragile 10 0, .failure 1 1 0 false, .allow [] fragile 10 10,
    .failure 0 1 10 false, .allow [] fragile 10 20]

/-- The late failure clears the flag of the probe, and after another cooldown a
second probe is admitted. -/
theorem two_probes_in_flight :
    ∃ s, Run callStep Any ⟨{ upstreams := fun _ => [] }, []⟩ lateFailure s ∧
      ¬ s.inFlight.Pairwise NotBothProbes := by
  obtain ⟨s, hrun, hs⟩ := exists_run_of_exec
    (f := fun s : Traffic => s.inFlight.map fun r => (r.key, r.probe))
    (show (exec callStep Any lateFailure ⟨{ upstreams := fun _ => [] }, []⟩).map
      (fun s => s.inFlight.map fun r => (r.key, r.probe)) =
        some [(circuitKey [] fragile, true), (circuitKey [] fragile, true)] by decide +kernel)
  refine ⟨s, hrun, fun hpair => ?_⟩
  obtain ⟨r, rest, hlist, hr, hrest⟩ := List.map_eq_cons_iff.mp hs
  obtain ⟨p, rest', rfl, hp, -⟩ := List.map_eq_cons_iff.mp hrest
  rw [hlist] at hpair
  simp only [Prod.mk.injEq] at hr hp
  have hne := (List.pairwise_cons.mp hpair).1 p (by simp) hr.2 hp.2
  exact hne (hr.1.trans hp.1.symm)

end EpollGateway.Upstream
