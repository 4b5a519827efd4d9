import EpollGateway.Handler.Composite

/-! # How a composite ends

`dump` throws when the document of a composite holds a byte string that is not
UTF-8. On the path of a backend event and on that of the overall deadline nothing
catches the exception, and it ends the worker (`composite_crashes`); on the path of
the request itself the connection is closed without a response.

`composite_completes_iff` says exactly when a composite ends with its one response.
-/

namespace EpollGateway.Handler

open Bytes Http Upstream Machine

/-! ## Driving a composite -/

/-- A child of a composite after its backend was asked; `answers` are the answers of
`advance`, of which only the first one counts. -/
def ChildExchange.after (ch : ChildExchange) (elapsed : Nat) (answers : List Advance) :
    ChildExchange :=
  if ch.live then
    match answers with
    | [] => ch
    | .wants fd :: _ => { ch with fd := fd }
    | .done succeeded be :: _ => settledChild ch succeeded be elapsed
  else ch

@[simp] lemma ChildExchange.after_nil (ch : ChildExchange) (elapsed : Nat) :
    ch.after elapsed [] = ch := by
  unfold ChildExchange.after
  split <;> rfl

lemma ChildExchange.after_of_not_live {ch : ChildExchange} (h : ch.live = false) (elapsed : Nat)
    (answers : List Advance) : ch.after elapsed answers = ch := by
  simp [ChildExchange.after, h]

lemma ChildExchange.name_after (ch : ChildExchange) (elapsed : Nat) (answers : List Advance) :
    (ch.after elapsed answers).name = ch.name := by
  unfold ChildExchange.after
  split
  · split <;> rfl
  · rfl

lemma sound_after {ok : Prop} {ch : ChildExchange} (h : Sound ok ch) (elapsed : Nat)
    (answers : List Advance) : Sound ok (ch.after elapsed answers) := by
  unfold ChildExchange.after
  split
  · rename_i hlive
    split
    · exact h
    · exact ⟨h.key, h.live, h.started, h.item⟩
    · exact sound_settled h hlive _ _ elapsed
  · exact h

/-- The exchange after every child was asked. -/
def ExchangeState.advance (st : ExchangeState) (elapsed : Nat) (answers : Nat → List Advance) :
    ExchangeState :=
  { st with children := st.children.mapIdx fun i ch => ch.after elapsed (answers i) }

/-- Only one child is asked. -/
def only (idx : Nat) (answers : List Advance) : Nat → List Advance :=
  fun i => if i = idx then answers else []

/-- An exchange whose calls are all over is finalised. -/
def ExchangeState.conclude (st : ExchangeState) : Drive :=
  if st.allFinished then finalizeComposite st else .inFlight st

section

variable {ok : Prop} {st : ExchangeState} {elapsed : Nat} {answers : Nat → List Advance} {idx : Nat}

lemma advance_congr {answers' : Nat → List Advance}
    (h : ∀ (i : Nat) (ch : ChildExchange), st.children[i]? = some ch →
      ch.after elapsed (answers i) = ch.after elapsed (answers' i)) :
    st.advance elapsed answers = st.advance elapsed answers' := by
  have hchildren : st.children.mapIdx (fun i ch => ch.after elapsed (answers i)) =
      st.children.mapIdx fun i ch => ch.after elapsed (answers' i) := by
    refine List.ext_getElem? fun i => ?_
    rw [List.getElem?_mapIdx, List.getElem?_mapIdx]
    cases hch : st.children[i]? with
    | none => rfl
    | some ch => simp [h i ch hch]
  unfold ExchangeState.advance
  rw [hchildren]

lemma advance_nil : (st.advance elapsed fun _ => []) = st := by
  simp [ExchangeState.advance, List.mapIdx_eq_zipIdx_map]

lemma advance_of_same
    (h : ∀ (i : Nat) (ch : ChildExchange), st.children[i]? = some ch →
      ch.after elapsed (answers i) = ch) : st.advance elapsed answers = st := by
  refine Eq.trans (advance_congr fun i ch hch => ?_) advance_nil
  rw [h i ch hch, ch.after_nil]

lemma advance_only_of_same {answers : List Advance}
    (h : ∀ ch, st.children[idx]? = some ch → ch.after elapsed answers = ch) :
    st.advance elapsed (only idx answers) = st := by
  refine advance_of_same fun i ch hch => ?_
  by_cases hi : i = idx
  · subst hi
    simpa [only] using h ch hch
  · simp [only, hi]

/-- Nothing changes in an exchange whose calls are all over. -/
lemma advance_of_allFinished (hlive : ∀ ch ∈ st.children, ch.live = true → ch.finished = false)
    (hdone : st.allFinished = true) (answers : Nat → List Advance) :
    st.advance elapsed answers = st := by
  refine advance_of_same fun i ch hch => ?_
  have hmem := List.mem_of_getElem? hch
  refine ChildExchange.after_of_not_live ?_ elapsed (answers i)
  by_contra hne
  have hopen := hlive ch hmem (by simpa using hne)
  simp [List.all_eq_true.mp hdone ch hmem] at hopen

lemma advance_only {answers : List Advance} {ch : ChildExchange}
    (h : st.children[idx]? = some ch) :
    st.advance elapsed (only idx answers) = st.setChild idx (ch.after elapsed answers) := by
  have hchildren : st.children.mapIdx (fun i ch => ch.after elapsed (only idx answers i)) =
      st.children.set idx (ch.after elapsed answers) := by
    refine List.ext_getElem? fun i => ?_
    rw [List.getElem?_mapIdx]
    by_cases hi : i = idx
    · subst hi
      obtain ⟨hlt, -⟩ := List.getElem?_eq_some_iff.mp h
      rw [List.getElem?_set_self hlt, h]
      simp [only]
    · rw [List.getElem?_set_ne (Ne.symm hi)]
      simp [only, hi]
  unfold ExchangeState.advance ExchangeState.setChild
  rw [hchildren]

lemma conclude_of_open (h : st.allFinished = false) : st.conclude = .inFlight st := by
  simp [ExchangeState.conclude, h]

lemma allFinished_setChild {ch : ChildExchange} (ch' : ChildExchange)
    (h : st.children[idx]? = some ch) (hfinished : ch'.finished = ch.finished) :
    (st.setChild idx ch').allFinished = st.allFinished := by
  obtain ⟨hlt, rfl⟩ := List.getElem?_eq_some_iff.mp h
  have hmap : (st.children.set idx ch').map (·.finished) = st.children.map (·.finished) := by
    rw [List.map_set, hfinished]
    refine List.ext_getElem (by simp) fun i hi hi' => ?_
    rw [List.getElem_set]
    split
    · rename_i heq
      subst heq
      simp
    · rfl
  have hall := congrArg (List.all · id) hmap
  simp only [List.all_map, Function.id_comp] at hall
  exact hall

/-- One call of `drive_child`. -/
lemma driveChild_composite (hcomposite : st.composite = true) (hopen : st.allFinished = false)
    (s : Surroundings) (idx : Nat) (m : UpstreamManager) (answers : List Advance) :
    (driveChild s idx m st answers).2 =
      (st.advance s.elapsed (only idx answers)).conclude := by
  cases answers with
  | nil =>
    rw [advance_only_of_same fun ch _ => ch.after_nil s.elapsed, conclude_of_open hopen]
    rfl
  | cons answer rest =>
    cases hch : st.children[idx]? with
    | none =>
      rw [advance_only_of_same (by simp [hch]), conclude_of_open hopen]
      simp [driveChild, hch]
    | some ch =>
      cases hlive : ch.live with
      | false =>
        have hsame : ∀ ch', st.children[idx]? = some ch' →
            ch'.after s.elapsed (answer :: rest) = ch' := by
          intro ch' h
          rw [hch] at h
          cases h
          exact ChildExchange.after_of_not_live hlive s.elapsed _
        rw [advance_only_of_same hsame, conclude_of_open hopen]
        simp [driveChild, hch, hlive]
      | true =>
        rw [advance_only hch]
        cases answer with
        | wants fd =>
          have hafter : ch.after s.elapsed (.wants fd :: rest) = { ch with fd := fd } := by
            simp [ChildExchange.after, hlive]
          have hopen' : (st.setChild idx { ch with fd := fd }).allFinished = false := by
            rw [allFinished_setChild { ch with fd := fd } hch rfl, hopen]
          rw [hafter, conclude_of_open hopen']
          simp only [driveChild, hch, hlive, not_true_eq_false, if_false]
        | done succeeded be =>
          simp [driveChild, hch, hlive, hcomposite, ChildExchange.after, finishDependency,
            ExchangeState.conclude]

/-- Asking one child and then some others is asking them all. -/
lemma advance_cons (answers : Nat → List Advance) {rest : List Nat} (hnew : idx ∉ rest) :
    (st.advance elapsed (only idx (answers idx))).advance elapsed
        (fun i => if i ∈ rest then answers i else []) =
      st.advance elapsed fun i => if i ∈ idx :: rest then answers i else [] := by
  unfold ExchangeState.advance
  dsimp only
  rw [List.mapIdx_mapIdx]
  congr 2
  funext i ch
  by_cases hi : i = idx
  · subst hi
    simp [only, hnew]
  · simp [only, hi]

lemma sound_advance (h : ∀ ch ∈ st.children, Sound ok ch) (answers : Nat → List Advance) :
    ∀ ch ∈ (st.advance elapsed answers).children, Sound ok ch := by
  intro ch hch
  obtain ⟨i, hi, rfl⟩ := List.mem_mapIdx.mp hch
  exact sound_after (h _ (List.getElem_mem hi)) elapsed (answers i)

lemma driveLive_finalized (s : Surroundings) (indices : List Nat) (m : UpstreamManager)
    (st : ExchangeState) :
    driveLive s indices m (finalizeComposite st) = (m, finalizeComposite st) := by
  unfold finalizeComposite
  split <;> cases indices <;> rfl

/-- The loop that drives each child once. -/
lemma driveLive_composite (s : Surroundings) {indices : List Nat} (hnodup : indices.Nodup)
    (m : UpstreamManager) (hcomposite : st.composite = true) (hopen : st.allFinished = false)
    (hsound : ∀ ch ∈ st.children, Sound ok ch) :
    (driveLive s indices m (.inFlight st)).2 =
      (st.advance s.elapsed fun i => if i ∈ indices then s.advances i else []).conclude := by
  induction indices generalizing m st with
  | nil =>
    simp only [List.not_mem_nil, if_false, advance_nil, conclude_of_open hopen]
    rfl
  | cons idx rest ih =>
    obtain ⟨hnew, hnodup⟩ := List.nodup_cons.mp hnodup
    rw [driveLive, ← advance_cons s.advances hnew]
    have hdrive := driveChild_composite hcomposite hopen s idx m (s.advances idx)
    have hsound₁ : ∀ ch ∈ (st.advance s.elapsed (only idx (s.advances idx))).children, Sound ok ch :=
      sound_advance hsound _
    have hcomposite₁ : (st.advance s.elapsed (only idx (s.advances idx))).composite = true :=
        hcomposite
    generalize st.advance s.elapsed (only idx (s.advances idx)) = st₁ at *
    generalize driveChild s idx m st (s.advances idx) = r at hdrive ⊢
    obtain ⟨m₁, d⟩ := r
    dsimp only at hdrive ⊢
    subst hdrive
    cases hopen₁ : st₁.allFinished with
    | true =>
      -- the loop stops here, and no child is left that a later turn would change
      rw [advance_of_allFinished (fun ch hch => (hsound₁ ch hch).live.mp) hopen₁]
      simp only [ExchangeState.conclude, hopen₁, if_true, driveLive_finalized]
    | false =>
      rw [conclude_of_open hopen₁]
      exact ih hnodup m₁ hcomposite₁ hopen₁ hsound₁

end

/-! ## The start -/

variable {m : UpstreamManager} {req : HttpRequest} {env : Env} {c c' : Conn}
  {answers : Nat → List Advance}

/-- `start_composite_exchange`, once its children are there. -/
lemma startCompositeExchange_eq {upstreams : Bytes → List UpstreamServer} {s : Surroundings}
    {m' : UpstreamManager} {id : Nat} {route : GatewayRoute} {children : List ChildExchange}
    (h : startDependencies upstreams s route.upstreamTarget.circuitFailureThreshold req m
      route.compositeTarget.dependencies = (m', some children)) :
    (startCompositeExchange upstreams s m id req route).2 =
      .published ((compositeExchange id req route children).advance s.elapsed
        s.advances).conclude := by
  have hsound : ∀ ch ∈ (compositeExchange id req route children).children,
      Sound (utf8 req.traceId = true) ch := sound_startDependencies h
  unfold startCompositeExchange
  rw [h]
  dsimp only
  split
  · rename_i hnone
    have hdead : ∀ (i : Nat) (ch : ChildExchange), children[i]? = some ch → ch.live = false := by
      intro i ch hch
      by_contra hne
      have hmem := mem_liveIndices.mpr ⟨ch, hch, by simpa using hne⟩
      simp [hnone] at hmem
    have hdone : (compositeExchange id req route children).allFinished = true := by
      refine List.all_eq_true.mpr fun ch hch => ?_
      obtain ⟨i, hi⟩ := List.getElem?_of_mem hch
      have hiff := (hsound ch hch).live
      rw [hdead i ch hi] at hiff
      simpa using hiff
    rw [advance_of_same fun i ch hch => ChildExchange.after_of_not_live (hdead i ch hch) _ _,
      ExchangeState.conclude, if_pos hdone]
  · rename_i hsome
    obtain ⟨i, hi⟩ := List.exists_mem_of_ne_nil _ hsome
    obtain ⟨ch, hch, hl⟩ := mem_liveIndices.mp hi
    have hmem : ch ∈ children := List.mem_of_getElem? hch
    have hopen : (compositeExchange id req route children).allFinished = false := by
      refine Bool.eq_false_iff.mpr fun hdone => ?_
      have hfinished := List.all_eq_true.mp hdone ch hmem
      simp [(hsound ch hmem).live.mp hl] at hfinished
    have hnodup : (liveIndices children).Nodup := List.nodup_range.filter _
    have hdrive := driveLive_composite s hnodup m' rfl hopen hsound
    have hall : ((compositeExchange id req route children).advance s.elapsed fun i =>
        if i ∈ liveIndices children then s.advances i else []) =
        (compositeExchange id req route children).advance s.elapsed s.advances := by
      refine advance_congr fun i ch hch => ?_
      split
      · rfl
      · rename_i hnotin
        have hdead : ch.live = false := by
          by_contra hne
          exact hnotin (mem_liveIndices.mpr ⟨ch, hch, by simpa using hne⟩)
        rw [ChildExchange.after_of_not_live hdead, ChildExchange.after_of_not_live hdead]
    rw [hall] at hdrive
    rw [← hdrive]

/-! ## Bodies -/

/-- Whether a child is over once its backend has been asked. -/
def ChildExchange.ends (ch : ChildExchange) (answers : List Advance) : Bool :=
  ch.finished || ch.live &&
    match answers with
    | .done _ _ :: _ => true
    | _ => false

/-- The body that the item of a child shows once its backend has been asked. -/
def ChildExchange.shows (ch : ChildExchange) (answers : List Advance) : Option Bytes :=
  if ch.live then
    match answers with
    | .done true be :: _ => some be.body
    | .done false _ :: _ => none
    | _ => ch.answer
  else ch.answer

/-- Whether these answers are the last ones that the exchange waits for. -/
def ExchangeState.isOver (st : ExchangeState) (answers : Nat → List Advance) : Bool :=
  (st.children.mapIdx fun i ch => ch.ends (answers i)).all (· = true)

/-- The names of the children with the bodies that the document shows. -/
def ExchangeState.bodies (st : ExchangeState) (answers : Nat → List Advance) :
    List (Bytes × Option Bytes) :=
  st.children.mapIdx fun i ch => ((ch.name : Bytes), ch.shows (answers i))

/-- The trace id and the bodies are UTF-8; of several children of one name only the
last one is shown. -/
structure Serialisable (st : ExchangeState) (answers : Nat → List Advance) : Prop where
  trace : st.children ≠ [] → utf8 st.req.traceId = true
  bodies : ∀ p ∈ shown Prod.fst (st.bodies answers), ∀ b, p.2 = some b → utf8 b = true

lemma ChildExchange.finished_after (ch : ChildExchange) (elapsed : Nat) (answers : List Advance) :
    (ch.after elapsed answers).finished = ch.ends answers := by
  unfold ChildExchange.after ChildExchange.ends
  cases hlive : ch.live with
  | false => simp
  | true =>
    cases answers with
    | nil => simp
    | cons answer rest => cases answer <;> simp [settledChild]

lemma ChildExchange.answer_after (ch : ChildExchange) (elapsed : Nat) (answers : List Advance) :
    (ch.after elapsed answers).answer = ch.shows answers := by
  unfold ChildExchange.after ChildExchange.shows
  cases hlive : ch.live with
  | false => simp
  | true =>
    cases answers with
    | nil => simp
    | cons answer rest =>
      cases answer with
      | wants fd => simp
      | done succeeded be => cases succeeded <;> simp [settledChild]

section

variable (st : ExchangeState) (elapsed : Nat) (answers : Nat → List Advance)

lemma map_advance {β : Type} (f : ChildExchange → β) :
    (st.advance elapsed answers).children.map f =
      st.children.mapIdx fun i ch => f (ch.after elapsed (answers i)) := by
  refine List.ext_getElem? fun i => ?_
  simp [ExchangeState.advance, Function.comp_def]

lemma allFinished_advance : (st.advance elapsed answers).allFinished = st.isOver answers := by
  have hmap := map_advance st elapsed answers ChildExchange.finished
  simp only [ChildExchange.finished_after] at hmap
  rw [ExchangeState.isOver, ← hmap, List.all_map]
  simp [ExchangeState.allFinished, Function.comp_def]

lemma bodies_advance :
    (st.advance elapsed answers).children.map (fun ch => ((ch.name : Bytes), ch.answer)) =
      st.bodies answers := by
  rw [map_advance]
  simp only [ExchangeState.bodies, ChildExchange.name_after, ChildExchange.answer_after]

/-- `finalize_composite` on children whose calls are all over. -/
lemma finalizeComposite_responds {st : ExchangeState}
    (hsound : ∀ ch ∈ st.children, Sound (utf8 st.req.traceId = true) ch) :
    (∃ resp, finalizeComposite st = .respond st resp) ↔
      (st.children ≠ [] → utf8 st.req.traceId = true) ∧
        ∀ p ∈ shown Prod.fst (st.children.map fun ch => ((ch.name : Bytes), ch.answer)),
          ∀ b, p.2 = some b → utf8 b = true := by
  have hdump : (∃ resp, finalizeComposite st = .respond st resp) ↔
      (compositePayload st).dump.isSome := by
    unfold finalizeComposite
    cases (compositePayload st).dump <;> simp
  rw [hdump, dump_compositePayload, shown_map]
  simp only [List.mem_map, forall_exists_index, and_imp, forall_apply_eq_imp_iff₂]
  constructor
  · intro h
    refine ⟨fun hne => ?_, fun ch hch => ?_⟩
    · obtain ⟨ch, hch⟩ := List.exists_mem_of_ne_nil _ (shown_ne_nil hne)
      exact ((hsound ch (mem_of_mem_shown hch)).item.mp (h ch hch)).1
    · exact ((hsound ch (mem_of_mem_shown hch)).item.mp (h ch hch)).2
  · rintro ⟨htrace, hbodies⟩ ch hch
    have hmem := mem_of_mem_shown hch
    exact (hsound ch hmem).item.mpr ⟨htrace (List.ne_nil_of_mem hmem), hbodies ch hch⟩

end

/-! ## Runs -/

/-- A composite in flight: its items are sound, and some call is not over. -/
structure Composed (st : ExchangeState) : Prop where
  sound : ∀ ch ∈ st.children, Sound (utf8 st.req.traceId = true) ch
  pending : st.allFinished = false

/-- The invariant: the composite in flight on a connection, if there is one. -/
def Composing (c : Conn) : Prop :=
  ∀ st, c.upstream = some st → c.pc ≠ .crashed → st.composite = true → Composed st

lemma not_crashed {l : Label} {s s' : Sys} (h : connStep env l s = some s') :
    s.conn.pc ≠ .crashed := by
  intro hpc
  simp [connStep, hpc] at h

variable {st : ExchangeState}

lemma composed_of_conclude {st' : ExchangeState}
    (hsound : ∀ ch ∈ st.children, Sound (utf8 st.req.traceId = true) ch)
    (h : st.conclude = .inFlight st') : Composed st' := by
  unfold ExchangeState.conclude at h
  split at h
  · exact absurd h (finalizeComposite_not_inFlight st st')
  · rename_i hopen
    cases h
    exact ⟨hsound, by simpa using hopen⟩

/-- A driven exchange, seen from its connection. -/
lemma composing_afterDrive {fresh : Fresh} {d : Drive}
    (h : ∀ st, d = .inFlight st → st.composite = true → Composed st) :
    Composing (afterDrive (applyDrive env fresh c d)) := by
  intro st hst hpc hcomposite
  cases d with
  | inFlight st' =>
    cases hst
    exact h st rfl hcomposite
  | respond st' resp => cases hst
  | threw st' => exact absurd rfl hpc

lemma composing_driveChild (h : st.composite = true → Composed st) (sur : Surroundings)
    (idx : Nat) (m : UpstreamManager) (answers : List Advance) {st' : ExchangeState}
    (hd : (driveChild sur idx m st answers).2 = .inFlight st') (hcomposite : st'.composite = true) :
    Composed st' := by
  obtain ⟨children, hstate⟩ := driveChild_continues sur idx m st answers
  rw [hd] at hstate
  have hcomposite' : st.composite = true := by
    have := congrArg ExchangeState.composite hstate
    exact this.symm.trans hcomposite
  have hst := h hcomposite'
  rw [driveChild_composite hcomposite' hst.pending] at hd
  exact composed_of_conclude (sound_advance hst.sound _) hd

lemma composing_startExchange {o : Oracle} {id : Nat} {route : GatewayRoute}
    (h : (startExchange env o m id req route).2 = .published (.inFlight st))
    (hcomposite : st.composite = true) : Composed st := by
  unfold startExchange at h
  split at h
  · obtain ⟨children, hstate⟩ := startUpstreamExchange_state h
    have hst : st = _ := hstate
    rw [hst] at hcomposite
    cases hcomposite
  · rcases hdeps : startDependencies env.upstreams o.sur route.upstreamTarget.circuitFailureThreshold
        req m route.compositeTarget.dependencies with ⟨m', _ | children⟩
    · rw [startCompositeExchange, hdeps] at h
      cases h
    · rw [startCompositeExchange_eq hdeps] at h
      have hd := Start.published.inj h
      exact composed_of_conclude (sound_advance (sound_startDependencies hdeps) _) hd

lemma Composing.step {l : Label} {s s' : Sys} (h : Composing s.conn)
    (hstep : connStep env l s = some s') : Composing s'.conn := by
  have hpc := not_crashed hstep
  cases connStep_flight hstep with
  | kept _ hup =>
    intro st hst _ hcomposite
    exact h st (hup ▸ hst) hpc hcomposite
  | closed _ _ hup =>
    intro st hst
    rw [hup] at hst
    cases hst
  | @started o route s' hstarts _ hup =>
    intro st hst _ hcomposite
    rw [hup] at hst
    generalize hstart : (startExchange env o s.mgr s.conn.nextId (s.conn.incoming env o) route).2 =
      start at hst
    cases start with
    | answer resp => exact h st hst hpc hcomposite
    | published d =>
      cases d with
      | inFlight st' =>
        cases hst
        exact composing_startExchange hstart hcomposite
      | respond st' resp => cases hst
      | threw st' => cases hst
    | threw => cases hst
  | @driven idx fresh sur st hst =>
    dsimp only
    refine composing_afterDrive fun st' hd hcomposite => ?_
    exact composing_driveChild (h st hst hpc) sur idx s.mgr (sur.advances idx) hd hcomposite
  | @expired fresh sur st hst _ =>
    dsimp only
    refine composing_afterDrive fun st' hd _ => ?_
    rw [expireComposite] at hd
    exact absurd hd (finalizeComposite_not_inFlight _ st')

lemma composing_run {ls : List SoloLabel} {s : Sys} (hrun : Run (soloStep env) Any ⟨m, {}⟩ ls s) :
    Composing s.conn := by
  refine hrun.invariant (I := fun (s : Sys) => Composing s.conn) ?_ ?_
  · intro st hst
    cases hst
  · rintro t (l | m') u ht - hu
    · exact ht.step hu
    · cases hu
      exact ht

/-! ## Completion -/

/-- A step drives the composite `st` with the given answers of its backends; the last
component says that the composite is over then. -/
inductive Drives (env : Env) (s : Sys) :
    Label → ExchangeState → (Nat → List Advance) → Bool → Prop where
  | event {idx : Nat} {fresh : Fresh} {sur : Surroundings} {st : ExchangeState} :
      s.conn.upstream = some st → st.composite = true →
      Drives env s (.upstream idx fresh sur) st (only idx (sur.advances idx))
        (st.isOver (only idx (sur.advances idx)))
  | deadline {fresh : Fresh} {sur : Surroundings} {st : ExchangeState} :
      s.conn.upstream = some st → st.composite = true →
      Drives env s (.deadline fresh sur) st (fun _ => []) true
  | start {o : Oracle} {route : GatewayRoute} {m' : UpstreamManager}
      {children : List ChildExchange} :
      Starts env o s.conn route → route.targetType = .composite →
      startDependencies env.upstreams o.sur route.upstreamTarget.circuitFailureThreshold
        (s.conn.incoming env o) s.mgr route.compositeTarget.dependencies = (m', some children) →
      Drives env s (.parse o) (compositeExchange s.conn.nextId (s.conn.incoming env o) route children)
        o.sur.advances
        ((compositeExchange s.conn.nextId (s.conn.incoming env o) route children).isOver
          o.sur.advances)

/-- No exception ended the worker or the connection; a composite that is over has been
answered with one response, any other one is in flight. -/
structure Completes (st : ExchangeState) (ended : Bool) (c c' : Conn) : Prop where
  alive : c'.pc ≠ .crashed ∧ c'.pc ≠ .closed
  replied : ended = true → c'.upstream = none ∧
    ∃ r, c'.hist.replies = c.hist.replies ++ [(st.id, r)]
  waiting : ended = false → c'.upstream.isSome = true ∧ c'.hist.replies = c.hist.replies

/-- What a drive means for the connection that its result is applied to. -/
structure Settled (d : Drive) (c c' : Conn) : Prop where
  inFlight : ∀ st', d = .inFlight st' → c'.upstream = some st' ∧ c'.hist.replies = c.hist.replies ∧
    c'.pc ≠ .crashed ∧ c'.pc ≠ .closed
  respond : ∀ st' resp, d = .respond st' resp → c'.upstream = none ∧
    (∃ r, c'.hist.replies = c.hist.replies ++ [(st'.id, r)]) ∧ c'.pc ≠ .crashed ∧ c'.pc ≠ .closed
  threw : ∀ st', d = .threw st' → c'.pc = .crashed ∨ c'.pc = .closed

lemma settled_afterDrive (env : Env) (fresh : Fresh) (d : Drive) (hpc : c.pc = .idle) :
    Settled d c (afterDrive (applyDrive env fresh c d)) where
  inFlight := by
    rintro st' rfl
    refine ⟨rfl, rfl, ?_⟩
    simp [afterDrive, applyDrive, hpc]
  respond := by
    rintro st' resp rfl
    refine ⟨rfl, ⟨_, rfl⟩, ?_⟩
    simp [afterDrive, applyDrive, finalizeResponse, hpc]
  threw := by
    rintro st' rfl
    exact .inl rfl

lemma settled_afterStart {fresh : Fresh} {id : Nat} {caller : Caller} {c₁ : Conn} (d : Drive)
    (hreplies : c₁.hist.replies = c.hist.replies) :
    Settled d c (afterStart caller (applyStart env fresh id req c₁ (.published d))) where
  inFlight := by
    rintro st' rfl
    refine ⟨rfl, hreplies, ?_⟩
    simp [afterStart, applyStart, applyDrive]
  respond := by
    rintro st' resp rfl
    refine ⟨rfl, ?_, ?_⟩
    · rw [← hreplies]
      exact ⟨_, rfl⟩
    · simp [afterStart, applyStart, applyDrive]
  threw := by
    rintro st' rfl
    exact .inr rfl

/-- A composite that is over is finalised; `final` holds the items of its children. -/
lemma completes_finalize {final : ExchangeState}
    (hsound : ∀ ch ∈ final.children, Sound (utf8 final.req.traceId = true) ch)
    (hid : final.id = st.id) (hreq : final.req = st.req)
    (hbodies : final.children.map (fun ch => ((ch.name : Bytes), ch.answer)) = st.bodies answers)
    (h : Settled (finalizeComposite final) c c') :
    Completes st true c c' ↔ Serialisable st answers := by
  have hresponds := finalizeComposite_responds hsound
  have hnil : final.children = [] ↔ st.children = [] := by
    have hlen := congrArg List.length hbodies
    simp only [List.length_map, ExchangeState.bodies, List.length_mapIdx] at hlen
    rw [← List.length_eq_zero_iff, ← List.length_eq_zero_iff, hlen]
  rw [hbodies, hreq, Ne, hnil] at hresponds
  constructor
  · intro hc
    obtain ⟨htrace, hb⟩ := hresponds.mp (by
      rcases hd : finalizeComposite final with st' | ⟨st', resp⟩ | st'
      · exact absurd hd (finalizeComposite_not_inFlight final st')
      · have hstate := finalizeComposite_state final
        rw [hd] at hstate
        cases hstate
        exact ⟨resp, rfl⟩
      · rcases h.threw st' hd with hpc | hpc
        · exact absurd hpc hc.alive.1
        · exact absurd hpc hc.alive.2)
    exact ⟨htrace, hb⟩
  · rintro ⟨htrace, hb⟩
    obtain ⟨resp, hd⟩ := hresponds.mpr ⟨htrace, hb⟩
    obtain ⟨hup, hreply, hpc⟩ := h.respond final resp hd
    exact ⟨hpc, fun _ => ⟨hup, hid ▸ hreply⟩, fun hopen => by cases hopen⟩

/-- A driven composite is finalised or stays in flight. -/
lemma completes_conclude {st : ExchangeState} {elapsed : Nat} {answers : Nat → List Advance}
    {c c' : Conn} (hsound : ∀ ch ∈ st.children, Sound (utf8 st.req.traceId = true) ch)
    (h : Settled (st.advance elapsed answers).conclude c c') :
    Completes st (st.isOver answers) c c' ↔ (st.isOver answers = true → Serialisable st answers) := by
  have hover := allFinished_advance st elapsed answers
  cases hdone : st.isOver answers with
  | true =>
    rw [ExchangeState.conclude, if_pos (hover.trans hdone)] at h
    have hiff : Completes st true c c' ↔ Serialisable st answers := by
      refine completes_finalize (sound_advance hsound answers) ?_ ?_
        (bodies_advance st elapsed answers) h
      · rfl
      · rfl
    simpa using hiff
  | false =>
    rw [conclude_of_open (hover.trans hdone)] at h
    obtain ⟨hup, hreplies, hpc⟩ := h.inFlight _ rfl
    refine ⟨fun _ hf => (by cases hf),
      fun _ => ⟨hpc, fun hf => (by cases hf), fun _ => ⟨?_, hreplies⟩⟩⟩
    rw [hup]
    rfl

lemma completes_expire {elapsed : Nat}
    (hsound : ∀ ch ∈ st.children, Sound (utf8 st.req.traceId = true) ch)
    (h : Settled (expireComposite elapsed st) c c') :
    Completes st true c c' ↔ Serialisable st fun _ => [] := by
  refine completes_finalize ?_ ?_ ?_ ?_ h
  · intro ch hch
    obtain ⟨ch₀, hch₀, rfl⟩ := List.mem_map.mp hch
    exact sound_forced (hsound ch₀ hch₀) elapsed
  · rfl
  · rfl
  · have hforced : ∀ ch : ChildExchange,
        (((forceFinishChild elapsed ch).name : Bytes), (forceFinishChild elapsed ch).answer) =
          ((ch.name : Bytes), ch.shows []) := by
      intro ch
      unfold forceFinishChild ChildExchange.shows
      split <;> simp
    refine List.ext_getElem? fun i => ?_
    simp [ExchangeState.bodies, Function.comp_def, hforced]

/-- **Composites complete.** In every reachable state, a step that drives a composite
completes - the worker and the connection survive, and a composite whose calls are all
over is answered with one response - exactly if the step leaves a call open or trace id
and shown bodies are UTF-8. -/
theorem composite_completes_iff {env : Env} {m : UpstreamManager} {ls : List SoloLabel} {l : Label}
    {s s' : Sys} {st : ExchangeState} {answers : Nat → List Advance} {ended : Bool}
    (hrun : Run (soloStep env) Any ⟨m, {}⟩ ls s) (hdrives : Drives env s l st answers ended)
    (hstep : connStep env l s = some s') :
    Completes st ended s.conn s'.conn ↔ (ended = true → Serialisable st answers) := by
  have hcomposing := composing_run hrun
  have halive := not_crashed hstep
  cases hdrives with
  | @event idx fresh sur st hst hcomposite =>
    obtain ⟨hpc, st', hst', rfl⟩ := connStep_upstream hstep
    cases hst.symm.trans hst'
    have hcomposed := hcomposing st hst halive hcomposite
    dsimp only
    rw [driveChild_composite hcomposite hcomposed.pending]
    exact completes_conclude hcomposed.sound (settled_afterDrive env fresh _ hpc)
  | @deadline fresh sur st hst hcomposite =>
    obtain ⟨hpc, st', hst', -, rfl⟩ := connStep_deadline hstep
    cases hst.symm.trans hst'
    have hcomposed := hcomposing st hst halive hcomposite
    have hiff := completes_expire hcomposed.sound
      (settled_afterDrive env fresh (expireComposite sur.elapsed st) hpc)
    simpa using hiff
  | @start o route m' children hstarts htarget hdeps =>
    obtain ⟨caller, -, -, hc⟩ := connStep_parse hstep
    obtain ⟨c₁, hout, -, hpass⟩ := parsePass_starts caller s.mgr hstarts
    have hreplies : c₁.hist.replies = s.conn.hist.replies :=
      congrArg (fun u : Outlet => u.hist.replies) hout
    rw [hpass, startExchange, if_neg (by simp [htarget]), startCompositeExchange_eq hdeps] at hc
    rw [hc]
    exact completes_conclude (sound_startDependencies hdeps) (settled_afterStart _ hreplies)

/-! ### One dependency -/

/-- A dependency that has to succeed. -/
def oneDependency : CompositeDependency :=
  { name := Text.ofAscii "d", upstreamName := Text.ofAscii "u" }

/-- A gateway with one open composite route, `/c`, of one dependency. -/
def compositeEnv : Env :=
  { routes :=
      [{ route :=
          { path := ascii "/c"
            targetType := .composite
            allowAnonymous := true
            compositeTarget :=
              { dependencies := [oneDependency]
                totalTimeoutMs := 100 } } }]
    upstreams := fun _ => [{ host := ascii "b" }] }

/-- An activation that reads one request and parses it. -/
def readComposite (request : Bytes) : List SoloLabel :=
  [.own (.event .readable), .own (.recv (.data request)), .own (.parse {})]

def compositeRequest : Bytes := ascii "GET /c HTTP/1.1\r\n\r\n"

/-- The same request with a trace id that is not UTF-8. -/
def taggedRequest : Bytes := ascii "GET /c HTTP/1.1\r\nX-Trace-Id: " ++ [0xFF] ++ ascii "\r\n\r\n"

/-- The backend of the dependency answers. -/
def bodyArrives (body : Bytes) : Label :=
  .upstream 0 {} { advances := fun _ => [.done true { statusCode := 200, body := body }] }

/-- A composite with a plain body is answered. -/
theorem composite_completes_plainBody :
    ∃ s s' st, Run (soloStep compositeEnv) Any ⟨oneBackend, {}⟩ (readComposite compositeRequest) s ∧
      s.conn.upstream = some st ∧ connStep compositeEnv (bodyArrives (ascii "ok")) s = some s' ∧
      Completes st true s.conn s'.conn := by
  let answers : Nat → List Advance :=
    only 0 [.done true { statusCode := 200, body := ascii "ok" }]
  obtain ⟨s, hrun, heq⟩ :
      ∃ s, Run (soloStep compositeEnv) Any ⟨oneBackend, {}⟩ (readComposite compositeRequest) s ∧
        ((connStep compositeEnv (bodyArrives (ascii "ok")) s).isSome,
          s.conn.upstream.map fun st =>
            st.composite && st.isOver answers && utf8 st.req.traceId &&
              shown Prod.fst (st.bodies answers) = [(ascii "d", some (ascii "ok"))]) =
        (true, some true) :=
    exists_run_of_exec (by decide +kernel)
  obtain ⟨hsome, hst⟩ := Prod.mk.inj heq
  obtain ⟨s', hstep⟩ := Option.isSome_iff_exists.mp hsome
  obtain ⟨st, hup, hst⟩ := Option.map_eq_some_iff.mp hst
  simp only [Bool.and_eq_true, decide_eq_true_eq] at hst
  obtain ⟨⟨⟨hcomposite, hover⟩, htrace⟩, hshown⟩ := hst
  have hcompletes := composite_completes_iff hrun (.event hup hcomposite) hstep
  have hserialisable : Serialisable st answers := by
    refine ⟨fun _ => htrace, ?_⟩
    rw [hshown]
    simp only [List.mem_singleton, forall_eq, Option.some.injEq, forall_eq']
    exact (Text.ofAscii "ok").2
  refine ⟨s, s', st, hrun, hup, hstep, ?_⟩
  have hdone := hcompletes.mpr fun _ => hserialisable
  rwa [show st.isOver _ = true from hover] at hdone

/-- A body that is not UTF-8 ends the worker on the path of a backend event, a trace id
that is not UTF-8 ends it on the path of the overall deadline; no response is framed. -/
theorem composite_crashes :
    (∃ s, Run (soloStep compositeEnv) Any ⟨oneBackend, {}⟩
      (readComposite compositeRequest ++ [.own (bodyArrives [0xFF])]) s ∧
      s.conn.pc = .crashed ∧ s.conn.hist.replies = []) ∧
    ∃ s, Run (soloStep compositeEnv) Any ⟨oneBackend, {}⟩
      (readComposite taggedRequest ++ [.own (.deadline {} {})]) s ∧
      s.conn.pc = .crashed ∧ s.conn.hist.replies = [] := by
  constructor
  · obtain ⟨s, hrun, heq⟩ :
        ∃ s, Run (soloStep compositeEnv) Any ⟨oneBackend, {}⟩
          (readComposite compositeRequest ++ [.own (bodyArrives [0xFF])]) s ∧
          (s.conn.pc, s.conn.hist.replies.length) = (.crashed, 0) :=
      exists_run_of_exec (by decide +kernel)
    obtain ⟨hpc, hlen⟩ := Prod.mk.inj heq
    exact ⟨s, hrun, hpc, List.length_eq_zero_iff.mp hlen⟩
  · obtain ⟨s, hrun, heq⟩ :
        ∃ s, Run (soloStep compositeEnv) Any ⟨oneBackend, {}⟩
          (readComposite taggedRequest ++ [.own (.deadline {} {})]) s ∧
          (s.conn.pc, s.conn.hist.replies.length) = (.crashed, 0) :=
      exists_run_of_exec (by decide +kernel)
    obtain ⟨hpc, hlen⟩ := Prod.mk.inj heq
    exact ⟨s, hrun, hpc, List.length_eq_zero_iff.mp hlen⟩

end EpollGateway.Handler
