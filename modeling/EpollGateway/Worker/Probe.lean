import EpollGateway.Worker.World

/-! # The probe slot

`half_open_probe` is taken by `allow_request` and given back by the outcome of the
call that took it. A call has no outcome, though, when its connection is closed or
when the overall deadline of its composite fires: then the slot stays taken, and the
breaker refuses every later request (`probe_lost`).

In runs in which a connection that holds a slot is not closed, not used for another
exchange and not expired, every taken slot is held by a call in flight, whose outcome
gives it back (`probe_held`).
-/

namespace EpollGateway.Worker

open Bytes Http Upstream Handler Machine

/-! ## Who holds a slot -/

/-- A call in flight that was admitted by the `allow_request` call `call` as the probe
of the breaker `key`. -/
structure Probing (key : Bytes) (call : Nat) (ch : ChildExchange) : Prop where
  live : ch.live = true
  unfinished : ch.finished = false
  ticket : ch.ticket = some call
  key : circuitKey ch.upstreamKey ch.server = key

def Holds (key : Bytes) (call : Nat) (st : ExchangeState) : Prop :=
  ∃ ch ∈ st.children, Probing key call ch

/-- The exchange stays in flight and holds the slot. -/
def Retained (key : Bytes) (call : Nat) (d : Drive) : Prop :=
  ∃ st, d = .inFlight st ∧ Holds key call st

/-- The exchange of an upstream route makes one call. -/
def Single (st : ExchangeState) : Prop := st.composite = false → st.children.length ≤ 1

section

variable {key : Bytes} {call : Nat} {m : UpstreamManager} {st : ExchangeState} {s : Surroundings}
  {upstreams : Bytes → List UpstreamServer} {req : HttpRequest}

variable {ch ch' : ChildExchange} {id idx : Nat} {route : GatewayRoute}

lemma probe_recordOutcome {succeeded : Bool} {now : Nat}
    (h : (recordOutcome m ch succeeded now).probe key = some call) :
    m.probe key = some call ∧ key ≠ circuitKey ch.upstreamKey ch.server := by
  unfold recordOutcome at h
  split at h
  · exact UpstreamManager.probe_recordSuccess h
  · exact UpstreamManager.probe_recordFailure h

/-- A child that is replaced by one that still probes, or that did not probe. -/
lemma Holds.setChild (h : Holds key call st) (hch : st.children[idx]? = some ch)
    (hkeep : Probing key call ch → Probing key call ch') :
    Holds key call (st.setChild idx ch') := by
  obtain ⟨p, hp, hprobing⟩ := h
  obtain ⟨i, hi⟩ := List.getElem?_of_mem hp
  obtain ⟨hlt, -⟩ := List.getElem?_eq_some_iff.mp hch
  by_cases hidx : i = idx
  · subst hidx
    cases hch.symm.trans hi
    exact ⟨ch', List.mem_of_getElem? (List.getElem?_set_self hlt), hkeep hprobing⟩
  · refine ⟨p, List.mem_of_getElem? (i := i) ?_, hprobing⟩
    rw [ExchangeState.setChild, List.getElem?_set_ne (Ne.symm hidx), hi]

lemma Holds.not_allFinished (h : Holds key call st) : st.allFinished = false := by
  obtain ⟨ch, hch, hprobing⟩ := h
  refine Bool.eq_false_iff.mpr fun hdone => ?_
  have hfinished := List.all_eq_true.mp hdone ch hch
  simp [hprobing.unfinished] at hfinished

/-- The one call of an upstream route is the one that is driven. -/
lemma Single.eq (h : Single st) (hcomposite : st.composite = false)
    (hch : st.children[idx]? = some ch) (hch' : ch' ∈ st.children) : ch' = ch := by
  have hlen := h hcomposite
  match hl : st.children with
  | [] => simp [hl] at hch'
  | [a] =>
    have h1 := List.mem_of_getElem? hch
    simp only [hl, List.mem_singleton] at h1 hch'
    rw [hch', h1]
  | a :: b :: rest => simp [hl] at hlen

/-- Driving an exchange takes no slot, and it gives back the slot of the call that is
over. -/
lemma driveChild_probe {answers : List Advance} (hsingle : Single st)
    (h : (driveChild s idx m st answers).1.probe key = some call) :
    m.probe key = some call ∧
      (Holds key call st → Retained key call (driveChild s idx m st answers).2) := by
  induction answers generalizing m st with
  | nil => exact ⟨h, fun hholds => ⟨st, rfl, hholds⟩⟩
  | cons answer rest ih =>
    simp only [driveChild] at h ⊢
    split at h
    · exact ⟨h, fun hholds => ⟨st, rfl, hholds⟩⟩
    · rename_i ch hch
      split at h
      · rename_i hlive
        rw [if_pos hlive]
        exact ⟨h, fun hholds => ⟨st, rfl, hholds⟩⟩
      · rename_i hlive
        rw [if_neg hlive]
        cases answer with
        | wants fd =>
          refine ⟨h, fun hholds => ⟨_, rfl, hholds.setChild hch fun hp => ?_⟩⟩
          exact ⟨hp.live, hp.unfinished, hp.ticket, hp.key⟩
        | done succeeded be =>
          dsimp only at h ⊢
          -- the holder is not the child that is over, whose slot has been given back
          have hother : (recordOutcome m ch succeeded s.now).probe key = some call →
              m.probe key = some call ∧ ¬ Probing key call ch := fun hp =>
            ⟨(probe_recordOutcome hp).1, fun hch => (probe_recordOutcome hp).2 hch.key.symm⟩
          cases hcomposite : st.composite with
          | true =>
            rw [hcomposite] at h
            obtain ⟨hm, hnot⟩ := hother h
            refine ⟨hm, fun hholds => ?_⟩
            have hholds' : Holds key call (st.setChild idx (settledChild ch succeeded be s.elapsed)) :=
              hholds.setChild hch fun hp => absurd hp hnot
            refine ⟨_, ?_, hholds'⟩
            simp only [if_true, finishDependency, hholds'.not_allFinished, Bool.false_eq_true,
              if_false]
          | false =>
            have hnone : ¬ Probing key call ch → ¬ Holds key call st := by
              rintro hnot ⟨p, hp, hprobing⟩
              rw [hsingle.eq hcomposite hch hp] at hprobing
              exact hnot hprobing
            rw [hcomposite] at h
            simp only [Bool.false_eq_true, if_false] at h ⊢
            split at h
            · obtain ⟨hm, hnot⟩ := hother h
              exact ⟨hm, fun hholds => absurd hholds (hnone hnot)⟩
            · split at h
              · have hsingle' : Single (st.setChild idx (retriedChild ch)) := by
                  intro hc
                  simpa [ExchangeState.setChild] using hsingle hc
                obtain ⟨hm, hnot⟩ := hother (ih hsingle' h).1
                exact ⟨hm, fun hholds => absurd hholds (hnone hnot)⟩
              · obtain ⟨hm, hnot⟩ := hother h
                exact ⟨hm, fun hholds => absurd hholds (hnone hnot)⟩

/-- An outcome of the call gives its slot back. -/
lemma driveChild_frees {succeeded : Bool} {be : BackendResponse} {rest : List Advance}
    (hch : st.children[idx]? = some ch) (hprobing : Probing key call ch) (hsingle : Single st) :
    (driveChild s idx m st (.done succeeded be :: rest)).1.probe key = none := by
  by_contra hne
  obtain ⟨call', hcall'⟩ := Option.ne_none_iff_exists'.mp hne
  simp only [driveChild, hch, hprobing.live, not_true_eq_false, if_false] at hcall'
  have hkey : (recordOutcome m ch succeeded s.now).probe key ≠ some call' := fun hp =>
    (probe_recordOutcome hp).2 hprobing.key.symm
  split at hcall'
  · exact hkey hcall'
  · split at hcall'
    · exact hkey hcall'
    · split at hcall'
      · refine hkey (driveChild_probe ?_ hcall').1
        intro hc
        simpa [ExchangeState.setChild] using hsingle hc
      · exact hkey hcall'

lemma driveLive_probe {s : Surroundings} {indices : List Nat} {m : UpstreamManager} {d : Drive}
    (hcomposite : d.state.composite = true)
    (h : (driveLive s indices m d).1.probe key = some call) :
    m.probe key = some call ∧ (Retained key call d →
      Retained key call (driveLive s indices m d).2) := by
  induction indices generalizing m d with
  | nil => exact ⟨h, fun hr => hr⟩
  | cons idx rest ih =>
    cases d with
    | inFlight st =>
      rw [driveLive] at h ⊢
      have hsingle : Single st := fun hc => absurd (hcomposite.symm.trans hc) (by decide)
      obtain ⟨children, hstate⟩ := driveChild_continues s idx m st (s.advances idx)
      have hcomposite' : (driveChild s idx m st (s.advances idx)).2.state.composite = true := by
        rw [hstate]
        exact hcomposite
      obtain ⟨hm, hr⟩ := ih hcomposite' h
      obtain ⟨hm', hr'⟩ := driveChild_probe hsingle hm
      refine ⟨hm', ?_⟩
      rintro ⟨st', hst', hholds⟩
      cases hst'
      exact hr (hr' hholds)
    | respond st resp => exact ⟨h, fun ⟨st', hst', _⟩ => by cases hst'⟩
    | threw st => exact ⟨h, fun ⟨st', hst', _⟩ => by cases hst'⟩

/-! ## Starting -/

/-- The manager has servers for every group that the handler knows. -/
def Served (upstreams : Bytes → List UpstreamServer) (m : UpstreamManager) : Prop :=
  ∀ name, upstreams name ≠ [] → m.upstreams name ≠ []

lemma upstreams_recordOutcome (m : UpstreamManager) (ch : ChildExchange) (succeeded : Bool)
    (now : Nat) : (recordOutcome m ch succeeded now).upstreams = m.upstreams := by
  unfold recordOutcome
  split <;> rfl

lemma upstreams_driveChild (s : Surroundings) (idx : Nat) (m : UpstreamManager)
    (st : ExchangeState) (answers : List Advance) :
    (driveChild s idx m st answers).1.upstreams = m.upstreams := by
  induction answers generalizing m st with
  | nil => rfl
  | cons answer rest ih =>
    simp only [driveChild]
    split
    · rfl
    · split
      · rfl
      · split
        · rfl
        · split
          · exact upstreams_recordOutcome m _ _ _
          · split
            · exact upstreams_recordOutcome m _ _ _
            · split
              · exact (ih _ _).trans (upstreams_recordOutcome m _ _ _)
              · exact upstreams_recordOutcome m _ _ _

lemma upstreams_driveLive (s : Surroundings) (indices : List Nat) (m : UpstreamManager) (d : Drive) :
    (driveLive s indices m d).1.upstreams = m.upstreams := by
  induction indices generalizing m d with
  | nil => rfl
  | cons idx rest ih =>
    cases d with
    | inFlight st => exact (ih _ _).trans (upstreams_driveChild s idx m st _)
    | respond st resp => rfl
    | threw st => rfl

/-- A server is picked, and its breaker is asked. -/
lemma admission_probe {m₁ : UpstreamManager} {name : Bytes} {server : UpstreamServer}
    (hpick : m.pickServer name = some (server, m₁)) (recovery : Int) (now : Nat) :
    (m₁.allowRequest name server recovery now).2.upstreams = m.upstreams ∧
      ((m₁.allowRequest name server recovery now).2.probe key = some call →
        m.probe key = some call ∨ key = circuitKey name server ∧
          (m₁.allowRequest name server recovery now).1 = .probe call) := by
  refine ⟨?_, fun h => ?_⟩
  · rw [upstreams_allowRequest, upstreams_pickServer hpick]
  · rw [← UpstreamManager.probe_pickServer hpick key]
    exact UpstreamManager.probe_allowRequest h

/-- A dependency takes at most the slot of its own call. -/
lemma startDependency_probe {threshold : Int} {dep : CompositeDependency}
    (hserved : Served upstreams m) :
    ∃ m' ch, startDependency upstreams s threshold req m dep = (m', some ch) ∧
      m'.upstreams = m.upstreams ∧
      (m'.probe key = some call → m.probe key = some call ∨ Probing key call ch) := by
  unfold startDependency
  dsimp only
  split
  · exact ⟨m, _, rfl, rfl, .inl⟩
  · rename_i hname
    rw [not_or] at hname
    obtain ⟨⟨server, m₁⟩, hpick⟩ :=
      Option.isSome_iff_exists.mp (UpstreamManager.pickServer_isSome (hserved _ hname.2))
    obtain ⟨hups, hprobe⟩ := admission_probe hpick dep.timeoutMs s.now
    rw [hpick]
    dsimp only
    generalize m₁.allowRequest dep.upstreamName server dep.timeoutMs s.now = r at hups hprobe ⊢
    obtain ⟨admission, m₂⟩ := r
    cases admission with
    | refused => exact ⟨m₂, _, rfl, hups, fun h => (hprobe h).imp_right fun ⟨_, hadm⟩ => by cases hadm⟩
    | admitted => exact ⟨m₂, _, rfl, hups,
      fun h => (hprobe h).imp_right fun ⟨_, hadm⟩ => by cases hadm⟩
    | probe call' =>
      refine ⟨m₂, _, rfl, hups, fun h => (hprobe h).imp_right fun ⟨hkey, hadm⟩ => ?_⟩
      cases hadm
      exact ⟨rfl, rfl, rfl, hkey.symm⟩

lemma startDependencies_probe {threshold : Int} {deps : List CompositeDependency}
    (hserved : Served upstreams m) :
    ∃ m' children, startDependencies upstreams s threshold req m deps = (m', some children) ∧
      m'.upstreams = m.upstreams ∧
      (m'.probe key = some call → m.probe key = some call ∨
        ∃ ch ∈ children, Probing key call ch) := by
  induction deps generalizing m with
  | nil => exact ⟨m, [], rfl, rfl, .inl⟩
  | cons dep deps ih =>
    obtain ⟨m₁, ch, hdep, hups, hprobe⟩ :
        ∃ m₁ ch, startDependency upstreams s threshold req m dep = (m₁, some ch) ∧
          m₁.upstreams = m.upstreams ∧
          (m₁.probe key = some call → m.probe key = some call ∨ Probing key call ch) :=
      startDependency_probe hserved
    have hserved₁ : Served upstreams m₁ := by
      intro name hname
      rw [hups]
      exact hserved name hname
    obtain ⟨m₂, children, hdeps, hups₂, hprobe₂⟩ := ih hserved₁
    refine ⟨m₂, ch :: children, ?_, hups₂.trans hups, fun h => ?_⟩
    · rw [startDependencies, hdep]
      dsimp only
      rw [hdeps]
      rfl
    · rcases hprobe₂ h with h | ⟨p, hp, hprobing⟩
      · exact (hprobe h).imp_right fun hprobing => ⟨ch, .head _, hprobing⟩
      · exact .inr ⟨p, .tail _ hp, hprobing⟩

/-- What a start function did to the slots: a slot that it took is held by the exchange
that it left in flight. -/
structure StartsProbe (key : Bytes) (call : Nat) (m : UpstreamManager)
    (r : UpstreamManager × Start) : Prop where
  upstreams : r.1.upstreams = m.upstreams
  probe : r.1.probe key = some call → m.probe key = some call ∨
    ∃ st, r.2 = .published (.inFlight st) ∧ Holds key call st
  single : ∀ st, r.2 = .published (.inFlight st) → Single st

lemma length_driveChild (s : Surroundings) (idx : Nat) (m : UpstreamManager)
    (st : ExchangeState) (answers : List Advance) :
    (driveChild s idx m st answers).2.state.children.length = st.children.length := by
  induction answers generalizing m st with
  | nil => rfl
  | cons answer rest ih =>
    simp only [driveChild]
    split
    · rfl
    · split
      · rfl
      · split
        · exact List.length_set
        · split
          · unfold finishDependency
            dsimp only
            split
            · rw [finalizeComposite_state]
              exact List.length_set
            · exact List.length_set
          · split
            · rfl
            · split
              · exact (ih _ _).trans List.length_set
              · rfl

lemma Single.driveChild (h : Single st) (s : Surroundings) (idx : Nat) (m : UpstreamManager)
    (answers : List Advance) : Single (driveChild s idx m st answers).2.state := by
  have hlen := length_driveChild s idx m st answers
  obtain ⟨children, hstate⟩ := driveChild_continues s idx m st answers
  rw [hstate] at hlen ⊢
  intro hcomposite
  have hlen' : children.length = st.children.length := hlen
  show children.length ≤ 1
  rw [hlen']
  exact h hcomposite

lemma single_of_published {d : Drive} (h : Single d.state)
    (heq : Start.published d = .published (.inFlight st)) : Single st := by
  cases heq
  exact h

lemma startUpstreamExchange_probe (hserved : Served upstreams m) :
    StartsProbe key call m (startUpstreamExchange upstreams s m id req route) := by
  unfold startUpstreamExchange
  dsimp only
  split
  · exact ⟨rfl, .inl, fun st h => by cases h⟩
  · rename_i hname
    obtain ⟨⟨server, m₁⟩, hpick⟩ :=
      Option.isSome_iff_exists.mp (UpstreamManager.pickServer_isSome (hserved _ hname))
    obtain ⟨hups, hprobe⟩ : _ ∧ (_ → m.probe key = some call ∨ _) :=
      admission_probe hpick route.upstreamTarget.circuitRecoveryTimeoutMs s.now
    rw [hpick]
    dsimp only
    generalize m₁.allowRequest (resolveUpstreamGroupId route) server
      route.upstreamTarget.circuitRecoveryTimeoutMs s.now = r at hups hprobe ⊢
    obtain ⟨admission, m₂⟩ := r
    dsimp only at hups hprobe ⊢
    cases admission with
    | refused =>
      exact ⟨hups, fun h => (hprobe h).imp_right fun ⟨_, hadm⟩ => (by cases hadm),
        fun st h => by cases h⟩
    | admitted =>
      refine ⟨(upstreams_driveChild _ _ _ _ _).trans hups, fun h => ?_, fun st h => ?_⟩
      · have hm := (driveChild_probe (fun _ => by simp) h).1
        exact .inl ((hprobe hm).resolve_right fun ⟨_, hadm⟩ => by cases hadm)
      · exact single_of_published (Single.driveChild (fun _ => by simp) s 0 m₂ (s.advances 0)) h
    | probe call' =>
      refine ⟨(upstreams_driveChild _ _ _ _ _).trans hups, fun h => ?_, fun st h => ?_⟩
      · obtain ⟨hm, hretained⟩ := driveChild_probe (fun _ => by simp) h
        refine (hprobe hm).imp_right fun ⟨hkey, hadm⟩ => ?_
        cases hadm
        obtain ⟨st, hst, hholds⟩ := hretained ⟨_, .head _, rfl, rfl, rfl, hkey.symm⟩
        exact ⟨st, congrArg Start.published hst, hholds⟩
      · exact single_of_published (Single.driveChild (fun _ => by simp) s 0 m₂ (s.advances 0)) h

lemma startCompositeExchange_probe (hserved : Served upstreams m) :
    StartsProbe key call m (startCompositeExchange upstreams s m id req route) := by
  obtain ⟨m', children, hdeps, hups, hprobe⟩ :
      ∃ m' children, startDependencies upstreams s route.upstreamTarget.circuitFailureThreshold req m
          route.compositeTarget.dependencies = (m', some children) ∧ m'.upstreams = m.upstreams ∧
        (m'.probe key = some call → m.probe key = some call ∨
          ∃ ch ∈ children, Probing key call ch) := startDependencies_probe hserved
  have hsingle : ∀ st, (startCompositeExchange upstreams s m id req route).2 =
      .published (.inFlight st) → Single st := by
    intro st h hcomposite
    obtain ⟨cs, hst⟩ := startCompositeExchange_state h
    have hst' : st = compositeExchange id req route cs := hst
    rw [hst'] at hcomposite
    cases hcomposite
  refine ⟨?_, ?_, hsingle⟩
  · unfold startCompositeExchange
    rw [hdeps]
    dsimp only
    split
    · exact hups
    · exact (upstreams_driveLive _ _ _ _).trans hups
  · unfold startCompositeExchange
    rw [hdeps]
    dsimp only
    split
    · rename_i hnone
      intro h
      refine .inl ((hprobe h).resolve_right ?_)
      rintro ⟨ch, hch, hprobing⟩
      obtain ⟨i, hi⟩ := List.getElem?_of_mem hch
      have hmem := mem_liveIndices.mpr ⟨ch, hi, hprobing.live⟩
      simp [hnone] at hmem
    · intro h
      obtain ⟨hm, hretained⟩ := driveLive_probe rfl h
      refine (hprobe hm).imp_right ?_
      rintro ⟨ch, hch, hprobing⟩
      obtain ⟨st, hst, hholds⟩ := hretained ⟨_, rfl, ch, hch, hprobing⟩
      exact ⟨st, congrArg Start.published hst, hholds⟩

lemma startExchange_probe {env : Env} {o : Oracle} (hserved : Served env.upstreams m) :
    StartsProbe key call m (startExchange env o m id req route) := by
  unfold startExchange
  split
  · exact startUpstreamExchange_probe hserved
  · exact startCompositeExchange_probe hserved

end

/-! ## Runs -/

/-- A call of the connection holds a slot. -/
def holdsProbe (m : UpstreamManager) (c : Conn) : Bool :=
  c.upstream.any fun st => st.children.any fun ch =>
    ch.live && ch.ticket.isSome && m.probe (circuitKey ch.upstreamKey ch.server) = ch.ticket

/-- The step leaves the exchange of a connection to its backends. -/
def sparing (env : Env) (c : Conn) (l : Label) : Bool :=
  !Closes c l &&
    match l with
    | .parse o => !c.startsExchange env o
    | .deadline _ _ => false
    | _ => true

/-- A connection that holds a slot takes only sparing steps. -/
def Spares (env : Nat → Env) (w : World) : WorldLabel → Prop
  | .conn i l => holdsProbe w.mgr (w.conns i) = true → sparing (env i) (w.conns i) l = true
  | .health _ => True

instance (env : Nat → Env) (w : World) : (l : WorldLabel) → Decidable (Spares env w l)
  | .conn i l => inferInstanceAs
      (Decidable (holdsProbe w.mgr (w.conns i) = true → sparing (env i) (w.conns i) l = true))
  | .health _ => inferInstanceAs (Decidable True)

/-- The exchange of a connection holds a slot. -/
def HeldBy (key : Bytes) (call : Nat) (c : Conn) : Prop :=
  ∃ st, c.upstream = some st ∧ Holds key call st

lemma holdsProbe_of_heldBy {m : UpstreamManager} {c : Conn} {key : Bytes} {call : Nat}
    (h : HeldBy key call c) (hprobe : m.probe key = some call) : holdsProbe m c = true := by
  obtain ⟨st, hst, ch, hch, hprobing⟩ := h
  simp only [holdsProbe, hst, Option.any_some, List.any_eq_true]
  refine ⟨ch, hch, ?_⟩
  simp [hprobing.live, hprobing.ticket, hprobing.key, hprobe]

/-- The invariant: a taken slot is held on some connection, upstream routes make one
call, and the manager has servers. -/
structure Probed (env : Nat → Env) (w : World) : Prop where
  held : ∀ key call, w.mgr.probe key = some call → ∃ i, HeldBy key call (w.conns i)
  single : ∀ i st, (w.conns i).upstream = some st → Single st
  served : ∀ i, Served (env i).upstreams w.mgr

/-- What a step of one connection does to the slots. -/
structure StepsProbe (s s' : Sys) : Prop where
  upstreams : s'.mgr.upstreams = s.mgr.upstreams
  probe : ∀ key call, s'.mgr.probe key = some call → HeldBy key call s'.conn ∨
    s.mgr.probe key = some call ∧ (HeldBy key call s.conn → HeldBy key call s'.conn)
  single : (∀ st, s.conn.upstream = some st → Single st) →
    ∀ st, s'.conn.upstream = some st → Single st

lemma connStep_probe {env : Env} {l : Label} {s s' : Sys} (hserved : Served env.upstreams s.mgr)
    (hsingle : ∀ st, s.conn.upstream = some st → Single st)
    (hspares : holdsProbe s.mgr s.conn = true → sparing env s.conn l = true)
    (h : connStep env l s = some s') : StepsProbe s s' := by
  -- a slot that the connection holds is not lost where the step is not sparing
  have hkept : sparing env s.conn l = false → ∀ key call, s.mgr.probe key = some call →
      HeldBy key call s.conn → HeldBy key call s'.conn := by
    intro hnot key call hprobe hheld
    have hyes := hspares (holdsProbe_of_heldBy hheld hprobe)
    simp [hnot] at hyes
  cases connStep_flight h with
  | kept hm hup =>
    refine ⟨by rw [hm], fun key call hp => .inr ⟨hm ▸ hp, ?_⟩, fun _ st hst => hsingle st (hup ▸ hst)⟩
    rintro ⟨st, hst, hholds⟩
    exact ⟨st, hup.trans hst, hholds⟩
  | closed hclose hm hup =>
    have hnot : sparing env s.conn l = false := by simp [sparing, hclose]
    refine ⟨by rw [hm], fun key call hp => .inr ⟨hm ▸ hp, hkept hnot key call (hm ▸ hp)⟩, ?_⟩
    intro _ st hst
    rw [hup] at hst
    cases hst
  | @started o route s' hstarts hm hup =>
    have hnot : sparing env s.conn (.parse o) = false := by simp [sparing, hstarts.startsExchange]
    have hstart : ∀ key call, StartsProbe key call s.mgr
        (startExchange env o s.mgr s.conn.nextId (s.conn.incoming env o) route) :=
      fun key call => startExchange_probe hserved
    generalize startExchange env o s.mgr s.conn.nextId (s.conn.incoming env o) route = r
      at hm hup hstart
    refine ⟨hm ▸ (hstart [] 0).upstreams, fun key call hp => ?_, fun _ st hst => ?_⟩
    · rcases (hstart key call).probe (hm ▸ hp) with hp | ⟨st, hst, hholds⟩
      · exact .inr ⟨hp, hkept hnot key call hp⟩
      · exact .inl ⟨st, by rw [hup, hst]; rfl, hholds⟩
    · rw [hup] at hst
      obtain ⟨m', start⟩ := r
      cases start with
      | answer resp => exact hsingle st hst
      | published d =>
        cases d with
        | inFlight st' =>
          cases hst
          exact (hstart [] 0).single st rfl
        | respond st' resp => cases hst
        | threw st' => cases hst
      | threw => cases hst
  | @driven idx fresh sur st hst =>
    refine ⟨upstreams_driveChild sur idx s.mgr st _, fun key call hp => ?_, fun _ st' hst' => ?_⟩
    · obtain ⟨hm, hretained⟩ := driveChild_probe (hsingle st hst) hp
      refine .inr ⟨hm, ?_⟩
      rintro ⟨st₁, hst₁, hholds⟩
      cases hst.symm.trans hst₁
      obtain ⟨st', hd, hholds'⟩ := hretained hholds
      refine ⟨st', ?_, hholds'⟩
      dsimp only
      rw [hd]
      rfl
    · dsimp only at hst'
      rw [upstream_afterDrive hst']
      exact (hsingle st hst).driveChild sur idx s.mgr _
  | @expired fresh sur st hst hcomposite =>
    have hnot : sparing env s.conn (.deadline fresh sur) = false := by simp [sparing]
    refine ⟨rfl, fun key call hp => .inr ⟨hp, hkept hnot key call hp⟩, fun _ st' hst' => ?_⟩
    obtain ⟨children, hstate⟩ := expireComposite_continues sur.elapsed st
    dsimp only at hst'
    rw [upstream_afterDrive hst', hstate]
    exact fun hc => absurd (hcomposite.symm.trans hc) (by decide)

variable {env : Nat → Env}

lemma Probed.step {l : WorldLabel} {w w' : World} (h : Probed env w) (hok : Spares env w l)
    (hstep : worldStep env l w = some w') : Probed env w' := by
  cases l with
  | conn i l =>
    obtain ⟨s', hs', rfl⟩ := worldStep_conn hstep
    have hs : StepsProbe ⟨w.mgr, w.conns i⟩ s' := by
      refine connStep_probe (h.served i) (h.single i) ?_ hs'
      exact hok
    refine ⟨fun key call hp => ?_, fun j st hst => ?_, fun j name hname => ?_⟩
    · rcases hs.probe key call hp with hheld | ⟨hp, hkeep⟩
      · exact ⟨i, by simpa using hheld⟩
      · obtain ⟨j, hj⟩ := h.held key call hp
        by_cases hji : j = i
        · subst hji
          exact ⟨j, by simpa using hkeep hj⟩
        · exact ⟨j, by rwa [World.conns_put_ne w s' hji]⟩
    · by_cases hji : j = i
      · subst hji
        rw [World.conns_put_self] at hst
        exact hs.single (h.single j) st hst
      · rw [World.conns_put_ne w s' hji] at hst
        exact h.single j st hst
    · rw [World.mgr_put, hs.upstreams]
      exact h.served j name hname
  | health ok =>
    cases hstep
    refine ⟨h.held, h.single, fun j name hname => ?_⟩
    simpa [UpstreamManager.checkHealth] using h.served j name hname

lemma probed_run {servers : Bytes → List UpstreamServer}
    (henv : ∀ i, (env i).upstreams = servers) {ls : List WorldLabel} {w : World}
    (hrun : Run (worldStep env) (Spares env) (World.init servers) ls w) : Probed env w := by
  refine hrun.invariant (I := Probed env) ?_ fun t l u ht hok hu => ht.step hok hu
  refine ⟨fun key call hp => ?_, fun i st hst => ?_, fun i name hname => ?_⟩
  · cases hp
  · cases hst
  · rw [henv i] at hname
    exact hname

/-- **The slot is not lost.** In every run in which a connection that holds a slot takes
only sparing steps, a taken slot is held by a call in flight that the `allow_request`
call admitted which took it, and either outcome of that call gives it back. -/
theorem probe_held {env : Nat → Env} {servers : Bytes → List UpstreamServer}
    (henv : ∀ i, (env i).upstreams = servers) {ls : List WorldLabel} {w : World}
    (hrun : Run (worldStep env) (Spares env) (World.init servers) ls w) {key : Bytes} {call : Nat}
    (hprobe : w.mgr.probe key = some call) :
    ∃ i st idx ch, (w.conns i).upstream = some st ∧ st.children[idx]? = some ch ∧
      Probing key call ch ∧
      ∀ fresh sur succeeded be rest s',
        sur.advances idx = .done succeeded be :: rest →
        connStep (env i) (.upstream idx fresh sur) ⟨w.mgr, w.conns i⟩ = some s' →
        s'.mgr.probe key = none := by
  have hprobed := probed_run henv hrun
  obtain ⟨i, st, hst, ch, hch, hprobing⟩ := hprobed.held key call hprobe
  obtain ⟨idx, hidx⟩ := List.getElem?_of_mem hch
  refine ⟨i, st, idx, ch, hst, hidx, hprobing, ?_⟩
  intro fresh sur succeeded be rest s' hadv hstep
  obtain ⟨-, st', hst', rfl⟩ := connStep_upstream hstep
  cases hst.symm.trans hst'
  dsimp only
  rw [hadv]
  exact driveChild_frees hidx hprobing (hprobed.single i st hst)

/-! ### One breaker -/

/-- A gateway with one open route, `/u`, whose breaker opens at the first failure. -/
def breakerEnv : Env :=
  { routes :=
      [{ route :=
          { path := ascii "/u"
            allowAnonymous := true
            upstreamTarget :=
              { name := ascii "u", maxRetries := 0, circuitFailureThreshold := 1 } } }]
    upstreams := fun _ => [{ host := ascii "b" }] }

/-- Connection `i` reads a request at time `now`, and the backend answers this much. -/
def requestAt (i now : Nat) (answers : List Advance) : List WorldLabel :=
  [.conn i (.event .readable), .conn i (.recv (.data (ascii "GET /u HTTP/1.1\r\n\r\n"))),
    .conn i (.parse { sur := { now := now, advances := fun _ => answers } })]

/-- A failure opens the breaker; after its recovery time a second request is let through
as the probe. -/
def probeOut : List WorldLabel :=
  requestAt 0 0 [.done false { error := .connectFailed }] ++ requestAt 1 20000 []

def breakerKey : Bytes := circuitKey (ascii "u") { host := ascii "b" }

/-- The probe is out, and the call that carries it is in flight. -/
theorem probe_held_probeOut :
    ∃ w, Run (worldStep fun _ => breakerEnv) (Spares fun _ => breakerEnv)
      (World.init breakerEnv.upstreams) probeOut w ∧ w.mgr.probe breakerKey = some 1 ∧
      ∃ i st, (w.conns i).upstream = some st := by
  obtain ⟨w, hrun, hprobe⟩ :
      ∃ w, Run (worldStep fun _ => breakerEnv) (Spares fun _ => breakerEnv)
        (World.init breakerEnv.upstreams) probeOut w ∧ w.mgr.probe breakerKey = some 1 :=
    exists_run_of_exec (by decide +kernel)
  obtain ⟨i, st, _, _, hst, _⟩ := probe_held (fun _ => rfl) hrun hprobe
  exact ⟨w, hrun, hprobe, i, st, hst⟩

/-- Steps of the first `n` connections. -/
def Within (n : Nat) : World → WorldLabel → Prop
  | _, .conn i _ => i < n
  | _, .health _ => True

instance (n : Nat) (w : World) : (l : WorldLabel) → Decidable (Within n w l)
  | .conn i _ => inferInstanceAs (Decidable (i < n))
  | .health _ => inferInstanceAs (Decidable True)

lemma conns_within {n : Nat} {w₀ w : World} {ls : List WorldLabel}
    (hrun : Run (worldStep env) (Within n) w₀ ls w) : ∀ i, n ≤ i → w.conns i = w₀.conns i := by
  refine hrun.invariant (I := fun w => ∀ i, n ≤ i → w.conns i = w₀.conns i) (fun _ _ => rfl) ?_
  rintro t (⟨j, l⟩ | ok) u ht hok hu i hi
  · obtain ⟨s', -, rfl⟩ := worldStep_conn hu
    have hj : j < n := hok
    rw [World.conns_put_ne t s' (by omega), ht i hi]
  · cases hu
    exact ht i hi

/-- The connection of the probe is closed before the backend answers: the slot is taken,
no exchange is in flight, and the breaker refuses every later request. -/
theorem probe_lost :
    ∃ w, Run (worldStep fun _ => breakerEnv) Any (World.init breakerEnv.upstreams)
      (probeOut ++ [.conn 1 .teardown]) w ∧ w.mgr.probe breakerKey = some 1 ∧
      (∀ i, (w.conns i).upstream = none) ∧
      ∀ recovery now,
        (w.mgr.allowRequest (ascii "u") { host := ascii "b" } recovery now).1 = .refused := by
  obtain ⟨w, hrun, heq⟩ :
      ∃ w, Run (worldStep fun _ => breakerEnv) (Within 2) (World.init breakerEnv.upstreams)
        (probeOut ++ [.conn 1 .teardown]) w ∧
        (w.mgr.probe breakerKey, (w.mgr.circuits breakerKey).isOpen,
          (w.mgr.circuits breakerKey).halfOpenProbe, (w.conns 0).upstream.isNone,
          (w.conns 1).upstream.isNone) = (some 1, true, true, true, true) :=
    exists_run_of_exec (by decide +kernel)
  simp only [Prod.mk.injEq, Option.isNone_iff_eq_none] at heq
  obtain ⟨hprobe, hopen, hhalf, h0, h1⟩ := heq
  refine ⟨w, hrun.mono fun _ _ _ => trivial, hprobe, fun i => ?_, fun recovery now => ?_⟩
  · match i with
    | 0 => exact h0
    | 1 => exact h1
    | i + 2 => rw [conns_within hrun (i + 2) (by omega)]; rfl
  · unfold breakerKey at hopen hhalf
    simp [UpstreamManager.allowRequest, hopen, hhalf]

end EpollGateway.Worker
