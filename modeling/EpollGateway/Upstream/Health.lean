import EpollGateway.Upstream.Fleet

/-! # Whose probe an entry shows

The results of a health check are written by name and index. When a reload in between has
put another server there, that server gets the result of a probe it has nothing to do
with.

Health is attributed to the right server in every run in which no reload puts another
address at the place of a server that is being checked, and a check that writes its
results attributes them rightly exactly if the entries still have the addresses that were
probed (`health_attributed`).
-/

namespace EpollGateway.Upstream

open Bytes Machine Function

/-- Every entry has been written to from probes of its own host and port only. -/
def Attributed (s : Fleet) : Prop :=
  ∀ name i server, (s.mgr.upstreams name)[i]? = some server →
    ∀ a ∈ s.entries.origins name i, a = server.address

/-- The servers that a check has in its list. -/
def Check.targets (c : Check) : List ProbeTarget := c.results.map Prod.fst ++ c.pending

/-- A configuration has the same server as a target at its place, or none. -/
def SameServer (upstreams : Bytes → List UpstreamServer) (t : ProbeTarget) : Prop :=
  ∀ server, (upstreams t.upstreamName)[t.serverIndex]? = some server → server.address = t.address

/-- A reload puts no other server at the place of one that is being checked. -/
def Steady (s : Fleet) : FleetLabel → Prop
  | .reload _ upstreams => ∀ w c, s.checks w = some c → ∀ t ∈ c.targets, SameServer upstreams t
  | _ => True

/-- The entries still have the addresses that a check has probed. -/
def Current (s : Fleet) (w : Nat) : Prop :=
  ∀ c, s.checks w = some c → ∀ t ∈ c.targets, SameServer s.mgr.upstreams t

/-! ## One step -/

/-- What a step does to the entries and the checks: the servers stay the same, and no
check gets another target; or a check starts, with the list of servers; or it writes its
results; or a reload comes. -/
inductive Checks (s s' : Fleet) : FleetLabel → Prop where
  | kept {l : FleetLabel} : s'.mgr.upstreams = s.mgr.upstreams →
      s'.entries.origins = s.entries.origins →
      (∀ w c', s'.checks w = some c' → ∃ c, s.checks w = some c ∧ c'.targets = c.targets) →
      Checks s s' l
  | started {w : Nat} {names : List Bytes} : s'.entries = s.entries →
      (∀ w' c', s'.checks w' = some c' → s.checks w' = some c' ∨
        c'.targets = s.mgr.targets names) → Checks s s' (.snapshot w names)
  | wrote {w : Nat} {results : List (ProbeTarget × Bool)} : s.checks w = some ⟨[], results⟩ →
      s'.entries = results.foldl Entries.applyResult s.entries →
      (∀ w' c', s'.checks w' = some c' → s.checks w' = some c') → Checks s s' (.apply w)
  | reloaded {w : Nat} {upstreams : Bytes → List UpstreamServer} :
      s'.mgr.upstreams = upstreams → s'.entries.origins = (fun _ _ => []) →
      s'.checks = s.checks → Checks s s' (.reload w upstreams)

variable {s s' : Fleet}

lemma fleetStep_apply {w : Nat} (h : fleetStep (.apply w) s = some s') :
    ∃ results, s.checks w = some ⟨[], results⟩ ∧
      s'.entries = results.foldl Entries.applyResult s.entries ∧
      ∀ w' c', s'.checks w' = some c' → s.checks w' = some c' := by
  simp only [fleetStep] at h
  split at h
  · rename_i results hcheck
    cases h
    refine ⟨results, hcheck, rfl, ?_⟩
    intro w' c' hc'
    by_cases hw : w' = w
    · subst hw
      dsimp only at hc'
      rw [update_self] at hc'
      cases hc'
    · dsimp only at hc'
      rwa [update_of_ne hw] at hc'
  · cases h

lemma fleetStep_checks {l : FleetLabel} (h : fleetStep l s = some s') : Checks s s' l := by
  have hkept {m : UpstreamManager} (hm : m.upstreams = s.mgr.upstreams) :
      Checks s (s.withMgr m) l :=
    .kept hm rfl fun w c' hc' => ⟨c', hc', rfl⟩
  cases l with
  | allow name server recovery now =>
    cases h
    exact hkept (upstreams_allowRequest s.mgr name server recovery now)
  | success name server =>
    cases h
    exact hkept rfl
  | failure name server threshold now =>
    cases h
    exact hkept rfl
  | find w name =>
    simp only [fleetStep] at h
    split at h
    · cases h
      exact .kept rfl rfl fun w c' hc' => ⟨c', hc', rfl⟩
    · cases h
  | pick w =>
    rcases Option.map_eq_some_iff.mp h with ⟨name, -, rfl⟩
    dsimp only
    rcases hpick : s.mgr.pickServer name with _ | ⟨server, m⟩
    · exact .kept rfl rfl fun w c' hc' => ⟨c', hc', rfl⟩
    · exact .kept (upstreams_pickServer hpick) rfl fun w c' hc' => ⟨c', hc', rfl⟩
  | snapshot w names =>
    simp only [fleetStep] at h
    split at h
    · cases h
      refine .started rfl ?_
      intro w' c' hc'
      by_cases hw : w' = w
      · subst hw
        dsimp only at hc'
        rw [update_self] at hc'
        cases hc'
        exact .inr rfl
      · dsimp only at hc'
        rw [update_of_ne hw] at hc'
        exact .inl hc'
    · cases h
  | probe w ok =>
    simp only [fleetStep] at h
    split at h
    · rename_i target pending results hcheck
      cases h
      refine .kept rfl rfl ?_
      intro w' c' hc'
      by_cases hw : w' = w
      · subst hw
        dsimp only at hc'
        rw [update_self] at hc'
        cases hc'
        exact ⟨_, hcheck, by simp [Check.targets]⟩
      · dsimp only at hc'
        rw [update_of_ne hw] at hc'
        exact ⟨c', hc', rfl⟩
    · cases h
  | apply w =>
    rcases fleetStep_apply h with ⟨results, hcheck, hent, hchecks⟩
    exact .wrote hcheck hent hchecks
  | reload w upstreams =>
    simp only [fleetStep] at h
    split at h
    · cases h
      exact .reloaded rfl rfl rfl
    · cases h

/-- The list of servers has the servers at their places. -/
lemma sameServer_targets {m : UpstreamManager} {names : List Bytes} {t : ProbeTarget}
    (h : t ∈ m.targets names) : SameServer m.upstreams t := by
  rcases List.mem_flatMap.mp h with ⟨name, -, ht⟩
  rcases List.mem_mapIdx.mp ht with ⟨i, hi, rfl⟩
  intro server hserver
  dsimp only at hserver
  rw [List.getElem?_eq_getElem hi] at hserver
  cases hserver
  rfl

lemma SameServer.of_address {upstreams upstreams' : Bytes → List UpstreamServer} {t : ProbeTarget}
    (h : SameServer upstreams t)
    (haddr : ∀ (name : Bytes) (i : Nat), ((upstreams' name)[i]?).map UpstreamServer.address =
      ((upstreams name)[i]?).map UpstreamServer.address) : SameServer upstreams' t := by
  intro server hserver
  have heq := haddr t.upstreamName t.serverIndex
  rw [hserver] at heq
  rcases Option.map_eq_some_iff.mp heq.symm with ⟨server₀, hserver₀, haddr₀⟩
  exact haddr₀ ▸ h server₀ hserver₀

/-- Writing the results attributes them rightly exactly if the entries still have the
addresses that were probed. -/
lemma wrote_attributed_iff {w : Nat} {results : List (ProbeTarget × Bool)}
    (hcheck : s.checks w = some ⟨[], results⟩)
    (hentries : s'.entries = results.foldl Entries.applyResult s.entries) (h : Attributed s) :
    Attributed s' ↔ Current s w := by
  have haddr (name : Bytes) (i : Nat) :
      ((s'.mgr.upstreams name)[i]?).map UpstreamServer.address =
        ((s.mgr.upstreams name)[i]?).map UpstreamServer.address := by
    unfold Fleet.mgr
    rw [hentries]
    exact address_applyResults results s.entries name i
  constructor
  · intro hattr c hc t ht server hserver
    rw [hcheck] at hc
    cases hc
    simp only [Check.targets, List.append_nil, List.mem_map] at ht
    rcases ht with ⟨r, hr, rfl⟩
    -- the entry is there, so the result is written into it
    have heq := haddr r.1.upstreamName r.1.serverIndex
    rw [hserver] at heq
    rcases Option.map_eq_some_iff.mp heq with ⟨server', hserver', haddr'⟩
    have hmem : r.1.address ∈ s'.entries.origins r.1.upstreamName r.1.serverIndex := by
      rw [hentries, mem_origins_applyResults]
      exact .inr ⟨Option.isSome_iff_exists.mpr ⟨server, hserver⟩, r, hr, rfl, rfl, rfl⟩
    rw [hattr _ _ server' hserver' _ hmem, haddr']
  · intro hcur name i server' hserver' a ha
    have heq := haddr name i
    rw [hserver'] at heq
    rcases Option.map_eq_some_iff.mp heq.symm with ⟨server, hserver, haddr'⟩
    rw [hentries, mem_origins_applyResults] at ha
    rw [← haddr']
    rcases ha with ha | ⟨-, r, hr, rfl, rfl, rfl⟩
    · exact h name i server hserver a ha
    · have ht : r.1 ∈ Check.targets ⟨[], results⟩ := by
        rw [Check.targets, List.append_nil]
        exact List.mem_map_of_mem hr
      exact (hcur _ hcheck r.1 ht server hserver).symm

/-! ## Runs -/

/-- Every check in flight has the servers at their places. -/
def Fleet.Current (s : Fleet) : Prop := ∀ w, Upstream.Current s w

lemma attributed_step {l : FleetLabel} (h : fleetStep l s = some s') (hsteady : Steady s l)
    (hattr : Attributed s) (hcur : s.Current) : Attributed s' ∧ s'.Current := by
  rcases fleetStep_checks h with ⟨hup, hor, hchecks⟩ | ⟨hent, hchecks⟩ |
    ⟨hcheck, hent, hchecks⟩ | ⟨hup, hor, hchecks⟩
  · constructor
    · intro name i server hserver a ha
      rw [hup] at hserver
      rw [hor] at ha
      exact hattr name i server hserver a ha
    · intro w c' hc' t ht
      rcases hchecks w c' hc' with ⟨c, hc, htargets⟩
      rw [hup]
      exact hcur w c hc t (htargets ▸ ht)
  · have hmgr : s'.mgr = s.mgr := congrArg Entries.mgr hent
    constructor
    · intro name i server hserver a ha
      rw [hmgr] at hserver
      rw [hent] at ha
      exact hattr name i server hserver a ha
    · intro w c' hc' t ht
      rw [hmgr]
      rcases hchecks w c' hc' with hc | htargets
      · exact hcur w c' hc t ht
      · exact sameServer_targets (htargets ▸ ht)
  · rename_i w results
    refine ⟨(wrote_attributed_iff hcheck hent hattr).mpr (hcur w), ?_⟩
    intro w' c' hc' t ht
    apply SameServer.of_address (hcur w' c' (hchecks w' c' hc') t ht)
    intro name i
    unfold Fleet.mgr
    rw [hent]
    exact address_applyResults results s.entries name i
  · constructor
    · intro name i server hserver a ha
      rw [hor] at ha
      cases ha
    · intro w c' hc' t ht
      rw [hup]
      exact hsteady w c' (hchecks ▸ hc') t ht

/-- Health is attributed to the server that was probed in every run whose reloads put no
other server at the place of one that is being checked. Whatever the reloads do, results
that are written are attributed rightly exactly if the entries have the addresses that
were probed. -/
theorem health_attributed (upstreams : Bytes → List UpstreamServer) :
    (∀ ls s, Run fleetStep Steady (Fleet.init upstreams) ls s → Attributed s) ∧
      (∀ s, Attributed s → ∀ w s', fleetStep (.apply w) s = some s' →
        (Attributed s' ↔ Current s w)) := by
  constructor
  · intro ls s hrun
    have hboth : Attributed s ∧ s.Current := by
      apply hrun.invariant (I := fun s => Attributed s ∧ s.Current)
      · constructor
        · intro name i server hserver a ha
          cases ha
        · intro w c hc
          cases hc
      · intro t l u ht hsteady hu
        exact attributed_step hu hsteady ht.1 ht.2
    exact hboth.1
  · intro s hattr w s' hstep
    rcases fleetStep_apply hstep with ⟨results, hcheck, hent, -⟩
    exact wrote_attributed_iff hcheck hent hattr

/-! ## Two servers that change places -/

/-- One group, with the servers on the given ports. -/
def onPorts (ports : List Nat) : Bytes → List UpstreamServer :=
  fun name => if name = ascii "g" then ports.map fun port =>
    { host := ascii "h", port := port } else []

/-- While a check is on its way, a reload adds a server behind the two that are checked: the
one that does not answer is marked. -/
theorem health_attributed_calm : ∃ s, Run fleetStep Steady (Fleet.init (onPorts [1, 2]))
    [.snapshot 0 [ascii "g"], .probe 0 false, .reload 1 (onPorts [1, 2, 3]), .probe 0 true,
      .apply 0] s ∧ Attributed s ∧
    (s.mgr.upstreams (ascii "g")).map UpstreamServer.healthy = [false, true, true] := by
  have hprobed : Run fleetStep Steady (Fleet.init (onPorts [1, 2]))
      [.snapshot 0 [ascii "g"], .probe 0 false] _ :=
    .snoc (.snoc .nil trivial rfl) trivial rfl
  have hreloaded := hprobed.snoc (l := FleetLabel.reload 1 (onPorts [1, 2, 3])) ?_ rfl
  · have hrun := (hreloaded.snoc (l := FleetLabel.probe 0 true) trivial rfl).snoc (l := FleetLabel.apply 0) trivial rfl
    exact ⟨_, hrun, (health_attributed _).1 _ _ hrun, by decide +kernel⟩
  · -- both servers keep their places
    have hsame : ∀ t ∈ (Fleet.init (onPorts [1, 2])).mgr.targets [ascii "g"],
        ∀ server ∈ (onPorts [1, 2, 3] t.upstreamName)[t.serverIndex]?,
          server.address = t.address := by
      decide +kernel
    intro w c hc t ht server hserver
    by_cases hw : w = 0
    · subst hw
      cases hc
      exact hsame t ht server hserver
    · simp [update_of_ne hw, Fleet.init] at hc

/-- Between the list and the results of a check another worker installs a configuration in
which the two servers have changed places: the one that answers is marked as down. -/
theorem health_misattributed : ∃ ls s, Run fleetStep Any (Fleet.init (onPorts [1, 2])) ls s ∧
    ¬ Attributed s := by
  obtain ⟨s, hrun, heq⟩ : ∃ s, Run fleetStep Any (Fleet.init (onPorts [1, 2]))
      [.snapshot 0 [ascii "g"], .probe 0 false, .probe 0 true, .reload 1 (onPorts [2, 1]),
        .apply 0] s ∧
      ((s.mgr.upstreams (ascii "g"))[0]?, s.entries.origins (ascii "g") 0) =
        (some { host := ascii "h", port := 2, healthy := false, consecutiveFailures := 1 },
          [(ascii "h", 1)]) :=
    exists_run_of_exec (by decide +kernel)
  simp only [Prod.mk.injEq] at heq
  refine ⟨_, s, hrun, ?_⟩
  intro hattr
  have hport := hattr (ascii "g") 0 _ heq.1 (ascii "h", 1) (by rw [heq.2]; exact .head _)
  exact absurd (congrArg Prod.snd hport) (by decide)

end EpollGateway.Upstream
