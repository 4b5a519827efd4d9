import EpollGateway.Lib.Bytes
import EpollGateway.Lib.Run
import Mathlib.Data.Fintype.Basic

/-! # Reloading the configuration

SIGHUP and `POST /admin/reload` advance `config_reload_generation`. Each worker compares
the generation with the one it has applied last, at its own pace, and reads the file when
they differ; the admin loop does the same for the keys of its own listener.

The two do not treat a generation alike. A worker that finds the file invalid tries again
at its next tick, while the admin loop has then seen the generation and does not. And the
admin loop prefers the keys that the last `POST` has validated, even if a signal has
announced a later revision since.

A tick, a turn and a `POST` are not single steps: the generation is loaded, the file is read
and the generation is advanced one after the other, and the file may be edited in between.

They agree, and a revision is applied only after it was announced, in every run in which
the file is edited only when all have applied the last generation and the admin loop is
between two turns, and SIGHUP is sent only for a valid file (`keys_agree`).
-/

namespace EpollGateway.Admin

open Bytes Machine Function

/-! ## The model -/

/-- What matters of a revision of the configuration file: whether it is accepted, and its
admin section. Revisions are numbered in the order in which they were written, which is
not in the source. -/
structure Revision where
  serial : Nat := 0
  valid : Bool := true
  adminEnabled : Bool := true
  adminKeys : List Bytes := []
  /-- `validate` rejects an empty list of keys for an enabled listener. -/
  keys_ne : valid = true → adminEnabled = true → adminKeys ≠ []

def Revision.numbered (r : Revision) (serial : Nat) : Revision := { r with serial := serial }

/-- `PendingAdminKeys`. -/
structure PendingAdminKeys where
  enabled : Bool
  keys : List Bytes
deriving DecidableEq, Repr

/-- The admin section of a revision. -/
def Revision.adminSection (r : Revision) : PendingAdminKeys := ⟨r.adminEnabled, r.adminKeys⟩

/-- Where the thread of the admin loop is: between two turns; in `maybe_refresh_keys`, with
the generation marked and the file not yet read; in `handle_reload`, with the file validated,
and then with its keys stored for the refresh. -/
inductive AdminPc where
  | idle
  | refreshing
  | validated (p : PendingAdminKeys)
  | stored
deriving DecidableEq, Repr

/-- The file, the generation, the workers and the admin loop; `loading` is the generation
that a worker has loaded and not yet applied. What is not in the source: `requested` is the
number of the revision that was in the file at the last accepted request, and `begun`, `ran`,
`adminBegun` and `adminRan` say who has begun and who has ended a tick or a turn since the
last edit and the last request. -/
structure Plane (W : Type*) where
  file : Revision
  generation : Nat := 0
  applied : W → Nat := fun _ => 0
  loading : W → Option Nat := fun _ => none
  running : W → Revision
  adminApplied : Nat := 0
  adminKeys : List Bytes
  pending : Option PendingAdminKeys := none
  adminPc : AdminPc := .idle
  requested : Nat := 0
  begun : W → Bool := fun _ => false
  ran : W → Bool := fun _ => false
  adminBegun : Bool := false
  adminRan : Bool := false

/-- The file is edited; SIGHUP. `POST /admin/reload` reads the file, stores its keys and
advances the generation. A maintenance tick of a worker loads the generation, and then the
file. A turn of the admin loop loads the generation, and then the keys of the file. -/
inductive Deed (W : Type*) where
  | edit (r : Revision)
  | sighup
  | reload
  | store
  | advance
  | tick (w : W)
  | load (w : W)
  | turn
  | readKeys

/-- `apply_admin_keys`. -/
def applyAdminKeys (p : PendingAdminKeys) (current : List Bytes) : List Bytes :=
  if ¬ p.enabled then current else if p.keys = [] then current else p.keys

section

variable {W : Type*}

/-- Nobody has run since. -/
def Plane.unseen (s : Plane W) : Plane W :=
  { s with begun := fun _ => false, ran := fun _ => false, adminBegun := false, adminRan := false }

/-- `config_reload_generation.fetch_add`. -/
def Plane.announce (s : Plane W) : Plane W :=
  { s with generation := s.generation + 1, requested := s.file.serial }.unseen

/-- The beginning of `maybe_refresh_keys`; the generation is marked as seen, whatever comes
of it. -/
def Plane.maybeRefreshKeys (s : Plane W) : Plane W :=
  if s.generation = s.adminApplied then { s with adminRan := true }
  else
    match s.pending with
    | some p =>
      { s with
        adminApplied := s.generation
        pending := none
        adminKeys := applyAdminKeys p s.adminKeys
        adminRan := true }
    | none => { s with adminApplied := s.generation, adminPc := .refreshing, adminBegun := true }

/-- Its end, without keys that `POST` has validated. -/
def Plane.refreshFromFile (s : Plane W) : Plane W :=
  { s with
    adminPc := .idle
    adminKeys := if s.file.valid then applyAdminKeys s.file.adminSection s.adminKeys else s.adminKeys
    adminRan := s.adminBegun }

variable [DecidableEq W]

/-- The part of `check_timeout` that reloads, up to the comparison of the generations. -/
def Plane.checkTimeout (s : Plane W) (w : W) : Plane W :=
  if s.generation = s.applied w then { s with ran := update s.ran w true }
  else
    { s with
      loading := update s.loading w (some s.generation)
      begun := update s.begun w true }

/-- Its rest; a rejected file leaves the generation `g` to be tried again. -/
def Plane.reloadFile (s : Plane W) (w : W) (g : Nat) : Plane W :=
  { s with
    loading := update s.loading w none
    running := if s.file.valid then update s.running w s.file else s.running
    applied := if s.file.valid then update s.applied w g else s.applied
    ran := update s.ran w (s.begun w) }

/-- A thread is in one place: the admin loop begins a turn or a request when it is idle, and
a worker a tick when it is not loading. -/
def planeStep : Deed W → Plane W → Option (Plane W)
  | .edit r, s => some { s with file := r.numbered (s.file.serial + 1) }.unseen
  | .sighup, s => some s.announce
  | .reload, s =>
    if s.adminPc = .idle then
      some (if s.file.valid then { s with adminPc := .validated s.file.adminSection } else s)
    else none
  | .store, s =>
    match s.adminPc with
    | .validated p => some { s with pending := some p, adminPc := .stored }
    | _ => none
  | .advance, s => if s.adminPc = .stored then some { s with adminPc := .idle }.announce else none
  | .tick w, s => if s.loading w = none then some (s.checkTimeout w) else none
  | .load w, s => (s.loading w).map (s.reloadFile w)
  | .turn, s => if s.adminPc = .idle then some s.maybeRefreshKeys else none
  | .readKeys, s => if s.adminPc = .refreshing then some s.refreshFromFile else none

/-- The gateway after its start. -/
def Plane.init (r : Revision) : Plane W :=
  { file := r.numbered 0, running := fun _ => r.numbered 0, adminKeys := r.adminKeys }

/-! ## What should hold -/

/-- Once all have run after the last edit and the last request, the keys of the listener
are those of the revision that the workers are running. -/
def Agreed (s : Plane W) : Prop :=
  (∀ w, s.ran w = true) → s.adminRan = true → ∀ w, (s.running w).adminEnabled = true →
    s.adminKeys = (s.running w).adminKeys

/-- A worker runs a revision only if a reload was requested after it was written. -/
def Announced (s : Plane W) : Prop := ∀ w, (s.running w).serial ≤ s.requested

/-- All have applied the last generation, and the admin loop is between two turns. -/
def Settled (s : Plane W) : Prop :=
  (∀ w, s.applied w = s.generation) ∧ s.adminApplied = s.generation ∧ s.adminPc = .idle

/-- The file is edited only when all have settled, and announced by SIGHUP only when it is
valid. -/
def Orderly (s : Plane W) : Deed W → Prop
  | .edit _ => Settled s
  | .sighup => s.file.valid = true
  | _ => True

instance [Fintype W] (s : Plane W) : Decidable (Settled s) := by
  unfold Settled
  infer_instance

instance [Fintype W] (s : Plane W) (l : Deed W) : Decidable (Orderly s l) := by
  unfold Orderly
  split <;> infer_instance

/-! ## Invariants -/

/-- The listener has the keys of a revision, if that one has the listener enabled. -/
def KeysOf (s : Plane W) (r : Revision) : Prop := r.adminEnabled = true → s.adminKeys = r.adminKeys

/-- The revision in the file is valid and announced, and is being taken up: who has applied
the generation, and so who has run, has this revision. -/
structure Taking (s : Plane W) : Prop where
  valid : s.file.valid = true
  requested : s.requested = s.file.serial
  running : ∀ w, s.applied w = s.generation → s.running w = s.file
  begun : ∀ w g, s.loading w = some g → s.begun w = true → g = s.generation
  ran : ∀ w, s.ran w = true → s.applied w = s.generation
  keys : s.adminApplied = s.generation → s.adminPc ≠ .refreshing → KeysOf s s.file
  adminBegun : s.adminBegun = true → s.adminApplied = s.generation
  adminRan : s.adminRan = true → s.adminApplied = s.generation ∧ s.adminPc ≠ .refreshing

/-- All have taken up one revision; the file may have been edited since. -/
structure Taken (s : Plane W) (r : Revision) : Prop where
  applied : ∀ w, s.applied w = s.generation
  adminApplied : s.adminApplied = s.generation
  adminPc : s.adminPc ≠ .refreshing
  running : ∀ w, s.running w = r
  keys : KeysOf s r

/-- What `POST` has read is still in the file, and valid. -/
structure Posted (s : Plane W) : Prop where
  pending : ∀ p, s.pending = some p → p = s.file.adminSection ∧ s.file.valid = true
  waiting : s.pending ≠ none → s.adminPc = .stored ∨ s.adminApplied ≠ s.generation
  validated : ∀ p, s.adminPc = .validated p → p = s.file.adminSection ∧ s.file.valid = true
  stored : s.adminPc = .stored → s.file.valid = true

structure InStep (s : Plane W) : Prop where
  phase : Taking s ∨ ∃ r, Taken s r
  posted : Posted s
  applied : ∀ w, s.applied w ≤ s.generation
  loading : ∀ w g, s.loading w = some g → s.applied w < g ∧ g ≤ s.generation
  adminApplied : s.adminApplied ≤ s.generation
  announced : Announced s
  requested : s.requested ≤ s.file.serial

lemma applyAdminKeys_revision {r : Revision} (hvalid : r.valid = true) (current : List Bytes)
    (henabled : r.adminEnabled = true) : applyAdminKeys r.adminSection current = r.adminKeys := by
  simp [applyAdminKeys, Revision.adminSection, henabled, r.keys_ne hvalid henabled]

variable {s s' : Plane W}

omit [DecidableEq W] in
lemma agreed_of_inStep (h : InStep s) : Agreed s := by
  intro hran hadmin w henabled
  rcases h.phase with htaking | ⟨r, htaken⟩
  · obtain ⟨happlied, hpc⟩ := htaking.adminRan hadmin
    rw [htaking.running w (htaking.ran w (hran w))] at henabled ⊢
    exact htaking.keys happlied hpc henabled
  · rw [htaken.running w] at henabled ⊢
    exact htaken.keys henabled

omit [DecidableEq W] in
/-- Before an edit all have taken up what was in the file, or what was announced before it,
and nothing is left of a `POST`. -/
lemma inStep_edit (hs : InStep s) (hsettled : Settled s) (r : Revision) :
    InStep { s with file := r.numbered (s.file.serial + 1) }.unseen := by
  obtain ⟨happlied, hadmin, hpc⟩ := hsettled
  have hrefreshing : s.adminPc ≠ .refreshing := by
    rw [hpc]
    nofun
  have hpending : s.pending = none := by
    by_contra hne
    rcases hs.posted.waiting hne with hstored | hnew
    · rw [hpc] at hstored
      cases hstored
    · exact hnew hadmin
  constructor
  case phase =>
    rcases hs.phase with htaking | ⟨r', htaken⟩
    · exact .inr ⟨s.file, happlied, hadmin, hrefreshing,
        fun w => htaking.running w (happlied w), htaking.keys hadmin hrefreshing⟩
    · exact .inr ⟨r', happlied, hadmin, hrefreshing, htaken.running, htaken.keys⟩
  case posted =>
    constructor
    · intro p hp
      exact nomatch hpending.symm.trans hp
    · exact hs.posted.waiting
    · intro p hp
      exact nomatch hpc.symm.trans hp
    · intro hstored
      exact nomatch hpc.symm.trans hstored
  case applied => exact hs.applied
  case loading => exact hs.loading
  case adminApplied => exact hs.adminApplied
  case announced => exact hs.announced
  case requested => exact Nat.le_succ_of_le hs.requested

omit [DecidableEq W] in
/-- After an accepted request nobody has applied the generation. -/
lemma inStep_announce (hs : InStep s) (hvalid : s.file.valid = true) : InStep s.announce := by
  have hnew (w : W) : s.applied w ≠ s.generation + 1 :=
    Nat.ne_of_lt (Nat.lt_succ_of_le (hs.applied w))
  have hadmin : s.adminApplied ≠ s.generation + 1 :=
    Nat.ne_of_lt (Nat.lt_succ_of_le hs.adminApplied)
  constructor
  case phase =>
    exact .inl
      { valid := hvalid
        requested := rfl
        running := fun w hw => absurd hw (hnew w)
        begun := nofun
        ran := nofun
        keys := fun hw => absurd hw hadmin
        adminBegun := nofun
        adminRan := nofun }
  case posted =>
    exact
      { pending := hs.posted.pending
        waiting := fun _ => .inr hadmin
        validated := hs.posted.validated
        stored := hs.posted.stored }
  case applied => exact fun w => Nat.le_succ_of_le (hs.applied w)
  case loading =>
    intro w g hg
    exact ⟨(hs.loading w g hg).1, Nat.le_succ_of_le (hs.loading w g hg).2⟩
  case adminApplied => exact Nat.le_succ_of_le hs.adminApplied
  case announced => exact fun w => (hs.announced w).trans hs.requested
  case requested => exact Nat.le_refl _

/-! ### `POST /admin/reload` -/

omit [DecidableEq W] in
/-- The thread of the admin loop goes on from a place where it is not refreshing. -/
lemma inStep_adminPc (hs : InStep s) (pc : AdminPc) (pending : Option PendingAdminKeys)
    (hold : s.adminPc ≠ .refreshing) (hnew : pc ≠ .refreshing)
    (hposted : Posted { s with adminPc := pc, pending := pending }) :
    InStep { s with adminPc := pc, pending := pending } := by
  refine ⟨?_, hposted, hs.applied, hs.loading, hs.adminApplied, hs.announced, hs.requested⟩
  rcases hs.phase with h | ⟨r, h⟩
  · exact .inl
      { h with
        keys := fun happlied _ => h.keys happlied hold
        adminRan := fun hran => ⟨(h.adminRan hran).1, hnew⟩ }
  · exact .inr ⟨r, { h with adminPc := hnew }⟩

omit [DecidableEq W] in
lemma inStep_reload (hs : InStep s) (hpc : s.adminPc = .idle) (hvalid : s.file.valid = true) :
    InStep { s with adminPc := .validated s.file.adminSection } := by
  refine inStep_adminPc hs (.validated s.file.adminSection) s.pending (hpc.trans_ne nofun) nofun
    ⟨hs.posted.pending, ?_, ?_, nofun⟩
  · intro hne
    rcases hs.posted.waiting hne with hstored | happlied
    · exact nomatch hpc.symm.trans hstored
    · exact .inr happlied
  · rintro p ⟨⟩
    exact ⟨rfl, hvalid⟩

omit [DecidableEq W] in
lemma inStep_store (hs : InStep s) {p : PendingAdminKeys} (hpc : s.adminPc = .validated p) :
    InStep { s with pending := some p, adminPc := .stored } := by
  refine inStep_adminPc hs .stored (some p) (hpc.trans_ne nofun) nofun
    ⟨?_, fun _ => .inl rfl, nofun, ?_⟩
  · rintro q ⟨⟩
    exact hs.posted.validated p hpc
  · intro _
    exact (hs.posted.validated p hpc).2

omit [DecidableEq W] in
/-- The keys stay stored after the request: they wait for the generation. -/
lemma inStep_advance (hs : InStep s) (hpc : s.adminPc = .stored) :
    InStep { s with adminPc := .idle }.announce := by
  have hvalid := hs.posted.stored hpc
  have h := inStep_announce hs hvalid
  have hrefreshing : s.announce.adminPc ≠ .refreshing := hpc.trans_ne nofun
  refine inStep_adminPc h .idle s.pending hrefreshing nofun ⟨h.posted.pending, ?_, nofun, nofun⟩
  intro _
  exact .inr (Nat.ne_of_lt (Nat.lt_succ_of_le hs.adminApplied))

/-! ### Workers -/

lemma inStep_tick (hs : InStep s) {w : W} : InStep (s.checkTimeout w) := by
  unfold Plane.checkTimeout
  split
  · rename_i hold
    refine ⟨?_, { hs.posted with }, hs.applied, hs.loading, hs.adminApplied, hs.announced,
      hs.requested⟩
    rcases hs.phase with h | ⟨r, h⟩
    · refine .inl { h with ran := ?_ }
      refine (forall_update_iff s.ran fun w b => b = true → s.applied w = s.generation).mpr ?_
      exact ⟨fun _ => hold.symm, fun w' _ => h.ran w'⟩
    · exact .inr ⟨r, { h with }⟩
  · rename_i hnew
    have hlt : s.applied w < s.generation := Nat.lt_of_le_of_ne (hs.applied w) (Ne.symm hnew)
    refine ⟨?_, { hs.posted with }, hs.applied, ?_, hs.adminApplied, hs.announced, hs.requested⟩
    · rcases hs.phase with h | ⟨r, h⟩
      · refine .inl { h with begun := ?_ }
        intro w' g hg hbegun
        by_cases heq : w' = w
        · subst heq
          dsimp only at hg
          rw [update_self] at hg
          exact (Option.some.inj hg).symm
        · refine h.begun w' g ((update_of_ne heq ..).symm.trans hg) ?_
          exact (update_of_ne heq ..).symm.trans hbegun
      · exact absurd (h.applied w).symm hnew
    · intro w' g hg
      by_cases heq : w' = w
      · subst heq
        dsimp only at hg
        rw [update_self] at hg
        cases hg
        exact ⟨hlt, Nat.le_refl _⟩
      · exact hs.loading w' g ((update_of_ne heq ..).symm.trans hg)

/-- A worker loads only a file that was announced, since it has something to apply. -/
lemma inStep_load (hs : InStep s) {w : W} {g : Nat} (hloading : s.loading w = some g) :
    InStep (s.reloadFile w g) := by
  obtain ⟨hlt, hle⟩ := hs.loading w g hloading
  rcases hs.phase with h | ⟨r, h⟩
  swap
  · exact absurd (h.applied w) (Nat.ne_of_lt (hlt.trans_le hle))
  have hreload : s.reloadFile w g =
      { s with
        loading := update s.loading w none
        running := update s.running w s.file
        applied := update s.applied w g
        ran := update s.ran w (s.begun w) } := by
    simp only [Plane.reloadFile, h.valid, if_true]
  rw [hreload]
  have hothers (w' : W) (heq : w' ≠ w) (g' : Nat) (hg : update s.loading w none w' = some g') :
      s.loading w' = some g' := by
    rwa [update_of_ne heq] at hg
  have hself (g' : Nat) (hg : update s.loading w none w = some g') : False := by
    rw [update_self] at hg
    cases hg
  constructor
  case phase =>
    refine .inl { h with running := ?_, begun := ?_, ran := ?_ }
    · intro w' hw'
      by_cases heq : w' = w
      · subst heq
        exact update_self ..
      · refine (update_of_ne heq ..).trans (h.running w' ?_)
        exact (update_of_ne heq ..).symm.trans hw'
    · intro w' g' hg hbegun
      by_cases heq : w' = w
      · exact (hself g' (heq ▸ hg)).elim
      · exact h.begun w' g' (hothers w' heq g' hg) hbegun
    · intro w' hw'
      by_cases heq : w' = w
      · subst heq
        refine (update_self ..).trans (h.begun w' g hloading ?_)
        exact (update_self ..).symm.trans hw'
      · refine (update_of_ne heq ..).trans (h.ran w' ?_)
        exact (update_of_ne heq ..).symm.trans hw'
  case posted => exact { hs.posted with }
  case applied =>
    refine (forall_update_iff s.applied fun _ n => n ≤ s.generation).mpr ?_
    exact ⟨hle, fun w' _ => hs.applied w'⟩
  case loading =>
    intro w' g' hg
    by_cases heq : w' = w
    · exact (hself g' (heq ▸ hg)).elim
    · dsimp only
      rw [update_of_ne heq]
      exact hs.loading w' g' (hothers w' heq g' hg)
  case adminApplied => exact hs.adminApplied
  case announced =>
    refine (forall_update_iff s.running fun _ r => r.serial ≤ s.requested).mpr ?_
    exact ⟨h.requested.ge, fun w' _ => hs.announced w'⟩
  case requested => exact hs.requested

/-! ### The admin loop -/

omit [DecidableEq W] in
lemma inStep_turn (hs : InStep s) (hpc : s.adminPc = .idle) : InStep s.maybeRefreshKeys := by
  have hrefreshing : s.adminPc ≠ .refreshing := by
    rw [hpc]
    nofun
  unfold Plane.maybeRefreshKeys
  split
  · rename_i hold
    refine ⟨?_, { hs.posted with }, hs.applied, hs.loading, hs.adminApplied, hs.announced,
      hs.requested⟩
    rcases hs.phase with h | ⟨r, h⟩
    · exact .inl { h with adminRan := fun _ => ⟨hold.symm, hrefreshing⟩ }
    · exact .inr ⟨r, { h with }⟩
  rename_i hnew
  rcases hs.phase with h | ⟨r, h⟩
  swap
  · exact absurd h.adminApplied.symm hnew
  rcases hp : s.pending with _ | p
  · -- the file is still to be read
    refine ⟨.inl ?_, ⟨nofun, nofun, nofun, nofun⟩, hs.applied, hs.loading, Nat.le_refl _,
      hs.announced, hs.requested⟩
    exact
      { h with
        keys := fun _ hpc' => absurd rfl hpc'
        adminBegun := fun _ => rfl
        adminRan := fun hran => absurd (h.adminRan hran).1.symm hnew }
  · -- the keys that were validated are those of the file
    refine ⟨.inl ?_, ⟨nofun, nofun, ?_, hs.posted.stored⟩, hs.applied, hs.loading, Nat.le_refl _,
      hs.announced, hs.requested⟩
    · refine { h with keys := ?_, adminBegun := fun _ => rfl, adminRan := ?_ }
      · intro _ _ henabled
        dsimp only
        rw [(hs.posted.pending p hp).1]
        exact applyAdminKeys_revision h.valid _ henabled
      · exact fun _ => ⟨rfl, hrefreshing⟩
    · exact hs.posted.validated

omit [DecidableEq W] in
lemma inStep_readKeys (hs : InStep s) (hpc : s.adminPc = .refreshing) :
    InStep s.refreshFromFile := by
  rcases hs.phase with h | ⟨r, h⟩
  swap
  · exact absurd hpc h.adminPc
  have hwaiting : s.pending ≠ none → s.adminApplied ≠ s.generation := by
    intro hne
    rcases hs.posted.waiting hne with hstored | happlied
    · exact nomatch hpc.symm.trans hstored
    · exact happlied
  refine ⟨.inl ?_, ⟨hs.posted.pending, fun hne => .inr (hwaiting hne), nofun, nofun⟩, hs.applied,
    hs.loading, hs.adminApplied, hs.announced, hs.requested⟩
  refine { h with keys := ?_, adminRan := ?_ }
  · intro _ _ henabled
    refine (if_pos h.valid).trans ?_
    exact applyAdminKeys_revision h.valid _ henabled
  · exact fun hran => ⟨h.adminBegun hran, nofun⟩

/-! ## Runs -/

lemma inStep_step {l : Deed W} (h : planeStep l s = some s') (horderly : Orderly s l)
    (hs : InStep s) : InStep s' := by
  cases l with
  | edit r =>
    cases h
    exact inStep_edit hs horderly r
  | sighup =>
    cases h
    exact inStep_announce hs horderly
  | reload =>
    simp only [planeStep, Option.ite_none_right_eq_some, Option.some.injEq] at h
    obtain ⟨hpc, rfl⟩ := h
    split
    · rename_i hvalid
      exact inStep_reload hs hpc hvalid
    · exact hs
  | store =>
    rw [planeStep] at h
    split at h
    · rename_i p hpc
      cases h
      exact inStep_store hs hpc
    · cases h
  | advance =>
    simp only [planeStep, Option.ite_none_right_eq_some, Option.some.injEq] at h
    obtain ⟨hpc, rfl⟩ := h
    exact inStep_advance hs hpc
  | tick w =>
    simp only [planeStep, Option.ite_none_right_eq_some, Option.some.injEq] at h
    obtain ⟨-, rfl⟩ := h
    exact inStep_tick hs
  | load w =>
    obtain ⟨g, hg, rfl⟩ := Option.map_eq_some_iff.mp h
    exact inStep_load hs hg
  | turn =>
    simp only [planeStep, Option.ite_none_right_eq_some, Option.some.injEq] at h
    obtain ⟨hpc, rfl⟩ := h
    exact inStep_turn hs hpc
  | readKeys =>
    simp only [planeStep, Option.ite_none_right_eq_some, Option.some.injEq] at h
    obtain ⟨hpc, rfl⟩ := h
    exact inStep_readKeys hs hpc

omit [DecidableEq W] in
lemma inStep_init {r : Revision} (hvalid : r.valid = true) : InStep (Plane.init r : Plane W) := by
  refine ⟨.inl ?_, ⟨nofun, nofun, nofun, nofun⟩, fun _ => Nat.le_refl _, nofun, Nat.le_refl _,
    fun _ => Nat.le_refl _, Nat.le_refl _⟩
  exact
    { valid := hvalid
      requested := rfl
      running := fun _ _ => rfl
      begun := nofun
      ran := nofun
      keys := fun _ _ _ => rfl
      adminBegun := nofun
      adminRan := nofun }

/-- In every run in which the file is edited only when all have settled, and announced by
SIGHUP only when it is valid, the admin listener and the workers agree once they have run,
and no revision is applied that was not announced. -/
theorem keys_agree {r : Revision} (hvalid : r.valid = true) {ls : List (Deed W)} {s : Plane W}
    (hrun : Run planeStep Orderly (Plane.init r) ls s) : Agreed s ∧ Announced s := by
  have hstep : InStep s :=
    hrun.invariant (inStep_init hvalid) fun _ _ _ ht horderly hu => inStep_step hu horderly ht
  exact ⟨agreed_of_inStep hstep, hstep.announced⟩

end

/-! ## Revisions -/

/-- A revision with one key. -/
def withKey (key : Bytes) : Revision := { adminKeys := [key], keys_ne := by simp }

/-- A file that is not accepted. -/
def broken : Revision := { valid := false, keys_ne := by simp }

/-- The key is rotated twice, announced by a request while a worker ticks and then by a
signal, and taken up by two workers and the listener. -/
def rotations : List (Deed Bool) :=
  [.edit (withKey (ascii "b")), .reload, .store, .tick true, .advance, .tick true, .tick false,
    .load false, .load true, .turn, .edit (withKey (ascii "c")), .sighup, .turn, .tick true,
    .readKeys, .load true, .tick false, .load false]

theorem keys_agree_rotated : ∃ s : Plane Bool,
    Run planeStep Orderly (Plane.init (withKey (ascii "a"))) rotations s ∧
      s.adminKeys = [ascii "c"] ∧ Agreed s ∧ Announced s := by
  obtain ⟨s, hrun, hkeys⟩ : ∃ s : Plane Bool,
      Run planeStep Orderly (Plane.init (withKey (ascii "a"))) rotations s ∧
        s.adminKeys = [ascii "c"] :=
    exists_run_of_exec (by decide +kernel)
  exact ⟨s, hrun, hkeys, keys_agree rfl hrun⟩

/-- A key is validated by `POST`, and before the admin loop takes it up it is replaced in
the file and announced by a signal: the workers run the last revision, and the listener
has the key that was revoked. And a file that was rejected is repaired: a worker applies
it without a request. -/
theorem keys_disagree :
    (∃ (ls : List (Deed Bool)) (s : Plane Bool),
      Run planeStep Any (Plane.init (withKey (ascii "a"))) ls s ∧ ¬ Agreed s) ∧
    (∃ (ls : List (Deed Bool)) (s : Plane Bool),
      Run planeStep Any (Plane.init (withKey (ascii "a"))) ls s ∧ ¬ Announced s) := by
  constructor
  · obtain ⟨s, hrun, heq⟩ : ∃ s : Plane Bool, Run planeStep Any (Plane.init (withKey (ascii "a")))
        [.edit (withKey (ascii "b")), .reload, .store, .advance, .edit (withKey (ascii "c")),
          .sighup, .tick true, .load true, .tick false, .load false, .turn] s ∧
        (s.ran true && s.ran false && s.adminRan && (s.running true).adminEnabled, s.adminKeys,
          (s.running true).adminKeys) = (true, [ascii "b"], [ascii "c"]) :=
      exists_run_of_exec (by decide +kernel)
    simp only [Prod.mk.injEq, Bool.and_eq_true] at heq
    rcases heq with ⟨⟨⟨⟨htrue, hfalse⟩, hadmin⟩, henabled⟩, hkeys, hkeys'⟩
    refine ⟨_, s, hrun, ?_⟩
    intro hagreed
    have hran (w : Bool) : s.ran w = true := by cases w <;> assumption
    have heq := hagreed hran hadmin true henabled
    rw [hkeys, hkeys'] at heq
    exact absurd heq (by decide +kernel)
  · obtain ⟨s, hrun, heq⟩ : ∃ s : Plane Bool, Run planeStep Any (Plane.init (withKey (ascii "a")))
        [.edit broken, .sighup, .tick true, .load true, .edit (withKey (ascii "b")), .tick true,
          .load true] s ∧
        ((s.running true).serial, s.requested) = (2, 1) :=
      exists_run_of_exec (by decide +kernel)
    simp only [Prod.mk.injEq] at heq
    refine ⟨_, s, hrun, ?_⟩
    intro hannounced
    have hserial := hannounced true
    omega

end EpollGateway.Admin
