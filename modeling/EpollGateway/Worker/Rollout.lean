import EpollGateway.Upstream.Health
import EpollGateway.Worker.Probe

/-! # Requests during a rolling reload

A handler looks for the upstream of a request in its own configuration, and then calls
`pick_server`, which looks in the configuration that some worker has installed last. A
group that this worker's configuration no longer has makes `pick_server` throw, and the
request is dropped without a response.

No request is lost in this way as long as every reload keeps the groups that other
workers still have (`picks_server`).
-/

namespace EpollGateway.Worker

open Bytes Http Upstream Handler Machine Function

/-- A worker gets a server for every group that it has in its own configuration. -/
def Found (s : Fleet) : Prop :=
  ∀ w name, s.configs w name ≠ [] → ∃ server m, s.mgr.pickServer name = some (server, m)

/-- A reload installs servers for every group that another worker has. -/
def KeepsGroups (s : Fleet) : FleetLabel → Prop
  | .reload w upstreams => ∀ w' ≠ w, ∀ name, s.configs w' name ≠ [] → upstreams name ≠ []
  | _ => True

/-! ## Picking a server -/

variable {m : UpstreamManager} {l : FleetLabel}

lemma pickServer_some_iff {name : Bytes} :
    (∃ server m', m.pickServer name = some (server, m')) ↔ m.upstreams name ≠ [] := by
  constructor
  · rintro ⟨server, m', hpick⟩ hempty
    simp [UpstreamManager.pickServer, hempty] at hpick
  · intro hne
    rcases Option.isSome_iff_exists.mp (UpstreamManager.pickServer_isSome hne) with ⟨⟨server, m'⟩, h⟩
    exact ⟨server, m', h⟩

variable {s s' : Fleet} {upstreams : Bytes → List UpstreamServer}

lemma found_iff : Found s ↔ ∀ w, Served (s.configs w) s.mgr :=
  forall_congr' fun _ => forall_congr' fun _ => imp_congr_right fun _ => pickServer_some_iff

lemma startUpstreamExchange_served (h : Served upstreams m) (sur : Surroundings) (id : Nat)
    (req : HttpRequest) (route : GatewayRoute) :
    (startUpstreamExchange upstreams sur m id req route).2 ≠ .threw := by
  unfold startUpstreamExchange
  dsimp only
  split
  · simp
  · rename_i hne
    rcases pickServer_some_iff.mpr (h _ hne) with ⟨server, m', hpick⟩
    rw [hpick]
    dsimp only
    split <;> simp

lemma startCompositeExchange_served (h : Served upstreams m) (sur : Surroundings) (id : Nat)
    (req : HttpRequest) (route : GatewayRoute) :
    (startCompositeExchange upstreams sur m id req route).2 ≠ .threw := by
  have hstart : ∃ m' children, startDependencies upstreams sur
      route.upstreamTarget.circuitFailureThreshold req m route.compositeTarget.dependencies =
        (m', some children) ∧ m'.upstreams = m.upstreams ∧
      (m'.probe [] = some 0 → m.probe [] = some 0 ∨ ∃ ch ∈ children, Probing [] 0 ch) :=
    startDependencies_probe h
  rcases hstart with ⟨m', children, hdeps, -⟩
  unfold startCompositeExchange
  rw [hdeps]
  dsimp only
  split <;> simp

/-! ## Steps -/

/-- Only a reload changes which groups the manager has servers for. -/
lemma groups_fleetStep (h : fleetStep l s = some s')
    (hl : ∀ w upstreams, l ≠ .reload w upstreams) (name : Bytes) :
    s'.mgr.upstreams name = [] ↔ s.mgr.upstreams name = [] := by
  rcases fleetStep_checks h with ⟨hup, -, -⟩ | ⟨hent, -⟩ | ⟨-, hent, -⟩ | -
  · rw [hup]
  · rw [Fleet.mgr, hent, Fleet.mgr]
  · -- the results of a check leave every entry in its place
    rename_i w results
    have hnil (servers : List UpstreamServer) :
        servers = [] ↔ (servers[0]?).map UpstreamServer.address = none := by
      cases servers <;> simp
    have hfirst := address_applyResults results s.entries name 0
    rw [← hent] at hfirst
    rw [hnil, hnil, Fleet.mgr, hfirst, Fleet.mgr]
  · exact absurd rfl (hl _ _)

/-- Only a reload changes the configuration of a worker, and only its own. -/
lemma configs_fleetStep (h : fleetStep l s = some s')
    (hl : ∀ w upstreams, l ≠ .reload w upstreams) : s'.configs = s.configs := by
  cases l with
  | allow name server recovery now | success name server | failure name server threshold now =>
    cases h
    rfl
  | find w name | snapshot w names | probe w ok | apply w =>
    simp only [fleetStep] at h
    split at h <;> cases h
    rfl
  | pick w =>
    rcases Option.map_eq_some_iff.mp h with ⟨name, -, rfl⟩
    dsimp only
    split <;> rfl
  | reload w upstreams => exact absurd rfl (hl w upstreams)

lemma fleetStep_reload {w : Nat} (h : fleetStep (.reload w upstreams) s = some s') :
    s.finding w = none ∧ s'.mgr.upstreams = upstreams ∧ s'.finding = s.finding ∧
      s'.configs = update s.configs w upstreams := by
  simp only [fleetStep] at h
  split at h
  · rename_i hfree
    cases h
    simp only [Fleet.free, Bool.and_eq_true, Option.isNone_iff_eq_none] at hfree
    exact ⟨hfree.2, rfl, rfl, rfl⟩
  · cases h

/-- After a reload every worker finds its groups exactly if the reload has kept those of
the others. -/
lemma reload_found_iff {w : Nat} (h : fleetStep (.reload w upstreams) s = some s') :
    Found s' ↔ KeepsGroups s (.reload w upstreams) := by
  rcases fleetStep_reload h with ⟨-, hmgr, -, hconfigs⟩
  rw [found_iff]
  unfold Served
  rw [hmgr, hconfigs]
  constructor
  · intro hserved w' hw name hname
    apply hserved w' name
    rwa [update_of_ne hw]
  · intro hkeeps w' name hname
    by_cases hw : w' = w
    · subst hw
      rwa [update_self] at hname
    · rw [update_of_ne hw] at hname
      exact hkeeps w' hw name hname

/-- A worker that is about to pick a server has found the group in its configuration. -/
def Looking (s : Fleet) : Prop := ∀ w name, s.finding w = some name → s.configs w name ≠ []

lemma finding_fleetStep (h : fleetStep l s = some s') (w : Nat) (name : Bytes)
    (hname : s'.finding w = some name) : s.finding w = some name ∨ s.configs w name ≠ [] := by
  cases l with
  | allow name server recovery now | success name server | failure name server threshold now =>
    cases h
    exact .inl hname
  | find w' name' =>
    simp only [fleetStep] at h
    split at h
    · rename_i hfound
      cases h
      by_cases hw : w = w'
      · subst hw
        dsimp only at hname
        rw [update_self] at hname
        cases hname
        exact .inr hfound.2
      · dsimp only at hname
        rw [update_of_ne hw] at hname
        exact .inl hname
    · cases h
  | pick w' =>
    rcases Option.map_eq_some_iff.mp h with ⟨name', -, rfl⟩
    have hother : update s.finding w' none w = some name := by
      dsimp only at hname
      split at hname <;> exact hname
    by_cases hw : w = w'
    · subst hw
      rw [update_self] at hother
      cases hother
    · rw [update_of_ne hw] at hother
      exact .inl hother
  | snapshot w' names | probe w' ok | apply w' | reload w' upstreams =>
    simp only [fleetStep] at h
    split at h <;> cases h
    exact .inl hname

lemma looking_step (h : fleetStep l s = some s') (hlook : Looking s) : Looking s' := by
  intro w name hname
  have hbefore : s.configs w name ≠ [] := by
    rcases finding_fleetStep h w name hname with hold | hnew
    · exact hlook w name hold
    · exact hnew
  by_cases hl : ∃ w' upstreams, l = .reload w' upstreams
  · -- a worker does not reload between its two looks
    rcases hl with ⟨w', upstreams, rfl⟩
    rcases fleetStep_reload h with ⟨hnone, -, hfinding, hconfigs⟩
    rw [hfinding] at hname
    have hw : w ≠ w' := by
      rintro rfl
      rw [hnone] at hname
      cases hname
    rwa [hconfigs, update_of_ne hw]
  · rwa [configs_fleetStep h fun w' upstreams heq => hl ⟨w', upstreams, heq⟩]

lemma found_step (h : fleetStep l s = some s') (hkeeps : KeepsGroups s l) (hfound : Found s) :
    Found s' := by
  by_cases hl : ∃ w upstreams, l = .reload w upstreams
  · rcases hl with ⟨w, upstreams, rfl⟩
    exact (reload_found_iff h).mpr hkeeps
  · have hne : ∀ w upstreams, l ≠ .reload w upstreams := fun w upstreams heq =>
      hl ⟨w, upstreams, heq⟩
    rw [found_iff] at hfound ⊢
    intro w name hname hempty
    rw [configs_fleetStep h hne] at hname
    exact hfound w name hname ((groups_fleetStep h hne name).mp hempty)

/-- In every run whose reloads keep the groups of the other workers, a worker that has
found an upstream in its configuration gets a server, and no start function throws. A
reload leads to such a state exactly if it keeps the groups of the others. -/
theorem picks_server (upstreams : Bytes → List UpstreamServer) :
    (∀ ls s, Run fleetStep KeepsGroups (Fleet.init upstreams) ls s →
      (∀ w name, s.finding w = some name → ∃ server m, s.mgr.pickServer name = some (server, m)) ∧
      ∀ w sur id req route,
        (startUpstreamExchange (s.configs w) sur s.mgr id req route).2 ≠ .threw ∧
        (startCompositeExchange (s.configs w) sur s.mgr id req route).2 ≠ .threw) ∧
    (∀ s w upstreams' s', fleetStep (.reload w upstreams') s = some s' →
      (Found s' ↔ KeepsGroups s (.reload w upstreams'))) := by
  constructor
  · intro ls s hrun
    have hboth : Found s ∧ Looking s := by
      apply hrun.invariant (I := fun s => Found s ∧ Looking s)
      · constructor
        · rw [found_iff]
          intro w name hname
          exact hname
        · intro w name hname
          cases hname
      · intro t l u ht hkeeps hu
        exact ⟨found_step hu hkeeps ht.1, looking_step hu ht.2⟩
    constructor
    · intro w name hname
      exact hboth.1 w name (hboth.2 w name hname)
    · intro w sur id req route
      have hserved := found_iff.mp hboth.1 w
      exact ⟨startUpstreamExchange_served hserved sur id req route,
        startCompositeExchange_served hserved sur id req route⟩
  · intro s w upstreams' s' hstep
    exact reload_found_iff hstep

/-! ## A group that goes away -/

/-- One group of one server, under any of the names. -/
def groupsNamed (names : List Bytes) : Bytes → List UpstreamServer :=
  fun name => if name ∈ names then [{ host := ascii "h" }] else []

/-- A worker adds a group while another one is about to pick a server. -/
theorem picks_server_added : ∃ s, Run fleetStep KeepsGroups (Fleet.init (groupsNamed [ascii "g"]))
    [.find 2 (ascii "g"), .reload 1 (groupsNamed [ascii "g", ascii "k"])] s ∧
    ∃ server m, s.mgr.pickServer (ascii "g") = some (server, m) := by
  have hsome : (((fleetStep (.find 2 (ascii "g")) (Fleet.init (groupsNamed [ascii "g"]))).bind
      (fleetStep (.reload 1 (groupsNamed [ascii "g", ascii "k"])))).map fun s =>
        s.finding 2) = some (some (ascii "g")) := by
    decide +kernel
  rcases Option.map_eq_some_iff.mp hsome with ⟨s, hs, hfinding⟩
  rcases Option.bind_eq_some_iff.mp hs with ⟨t, ht, hs⟩
  have hgroups (name : Bytes) (h : groupsNamed [ascii "g"] name ≠ []) :
      groupsNamed [ascii "g", ascii "k"] name ≠ [] := by
    unfold groupsNamed at h ⊢
    split at h
    · rename_i hmem
      have hmem' : name ∈ [ascii "g", ascii "k"] := List.mem_append_left [ascii "k"] hmem
      rw [if_pos hmem']
      simp
    · exact absurd rfl h
  have hrun : Run fleetStep KeepsGroups (Fleet.init (groupsNamed [ascii "g"]))
      ([] ++ [.find 2 (ascii "g")] ++ [.reload 1 (groupsNamed [ascii "g", ascii "k"])]) s := by
    apply Run.snoc (Run.snoc Run.nil trivial ht) _ hs
    intro w' _ name hname
    rw [configs_fleetStep ht (by simp)] at hname
    exact hgroups name hname
  exact ⟨s, hrun, ((picks_server _).1 _ s hrun).1 2 (ascii "g") hfinding⟩

/-- A worker installs a configuration without the group that another worker has found. -/
theorem server_not_picked : ∃ ls s, Run fleetStep Any (Fleet.init (groupsNamed [ascii "g"])) ls s ∧
    s.finding 2 = some (ascii "g") ∧ s.mgr.pickServer (ascii "g") = none ∧
    ∀ id req route, resolveUpstreamGroupId route = ascii "g" →
      (startUpstreamExchange (s.configs 2) {} s.mgr id req route).2 = .threw := by
  obtain ⟨s, hrun, heq⟩ : ∃ s, Run fleetStep Any (Fleet.init (groupsNamed [ascii "g"]))
      [.find 2 (ascii "g"), .reload 1 (groupsNamed [])] s ∧
      (s.finding 2, s.mgr.upstreams (ascii "g"), s.configs 2 (ascii "g")) =
        (some (ascii "g"), [], [{ host := ascii "h" }]) :=
    exists_run_of_exec (by decide +kernel)
  simp only [Prod.mk.injEq] at heq
  have hpick : s.mgr.pickServer (ascii "g") = none := by
    simp [UpstreamManager.pickServer, heq.2.1]
  refine ⟨_, s, hrun, heq.1, hpick, ?_⟩
  intro id req route hroute
  simp [startUpstreamExchange, hroute, heq.2.2, hpick]

end EpollGateway.Worker
