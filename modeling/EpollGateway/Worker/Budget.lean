import EpollGateway.Lib.Run
import Mathlib.Data.Set.Card
import Mathlib.Data.UInt

/-! # The connection budget

`ConnectionBudget` is one counter that all workers share. `try_acquire` is a loop around
three atomic accesses: it loads the counter, loads the limit, and exchanges the counter
for its successor, which fails when the counter has changed in between and may fail for
no reason. A slot is owned by a `Ticket`, which can be moved but not copied.

The machine takes one such access, or one operation of a ticket, at a time, of any worker.
A move-assignment is `reset` and `take`, the destructor is `reset` and `free`: other
workers may run in between.

`budget_safe` says what holds in every interleaving.
-/

namespace EpollGateway.Worker.Budget

open Machine Function

/-! ## The machine -/

/-- A ticket, and the slot that it owns if `owner_` is set. Slots are numbered in the order
of their acquisition, which is not in the source. -/
structure Ticket where
  owner : Option Nat := none
deriving DecidableEq, Repr

/-- Where a worker is in `try_acquire`: not in it, in front of the limit check, or in
front of the exchange, with its `current`. -/
inductive Pc where
  | outside
  | loaded (current : UInt64)
  | checked (current : UInt64)
deriving DecidableEq, Repr

/-- The counter, the limit, the tickets by their place in memory, and the workers. Three
fields are not in the source: `limits` are the limits that were in force since a worker
entered `try_acquire`, `acquired` counts the slots, and `released` lists those that were
given back. -/
structure State where
  inUse : UInt64 := 0
  max : UInt64
  tickets : Nat → Option Ticket := fun _ => none
  pcs : Nat → Pc := fun _ => .outside
  limits : Nat → List UInt64 := fun _ => []
  acquired : Nat := 0
  released : List Nat := []

/-- An access of `try_acquire` by a worker, an operation of a ticket at a place, or
`set_limit`. -/
inductive Access where
  | load (w : Nat)
  | check (w : Nat)
  | exchange (w : Nat) (spurious : Bool) (place : Nat)
  | construct (place : Nat)
  | move (src dst : Nat)
  | reset (place : Nat)
  | take (src dst : Nat)
  | free (place : Nat)
  | setLimit (m : UInt64)

/-- The owner of one ticket goes to another place; the source is left empty. -/
def State.transfer (s : State) (src dst : Nat) (t : Ticket) : State :=
  { s with tickets := update (update s.tickets src (some {})) dst (some t) }

def step : Access → State → Option State
  | .load w, s =>
    match s.pcs w with
    | .outside =>
      some { s with
        pcs := update s.pcs w (.loaded s.inUse)
        limits := update s.limits w [s.max] }
    | _ => none
  | .check w, s =>
    match s.pcs w with
    | .loaded current =>
      -- at the limit the caller gets `nullopt`
      some { s with
        pcs := update s.pcs w
          (if current ≥ s.max then .outside else .checked current) }
    | _ => none
  | .exchange w spurious place, s =>
    match s.pcs w, s.tickets place with
    | .checked current, none =>
      if s.inUse = current ∧ ¬ spurious then
        some { s with
          inUse := current + 1
          pcs := update s.pcs w .outside
          tickets := update s.tickets place (some ⟨some s.acquired⟩)
          acquired := s.acquired + 1 }
      else some { s with pcs := update s.pcs w (.loaded s.inUse) }
    | _, _ => none
  | .construct place, s =>
    match s.tickets place with
    | none => some { s with tickets := update s.tickets place (some {}) }
    | some _ => none
  | .move src dst, s =>
    match s.tickets src, s.tickets dst with
    | some t, none => some (s.transfer src dst t)
    | _, _ => none
  | .reset place, s =>
    match s.tickets place with
    | some ⟨some slot⟩ =>
      some { s with
        inUse := s.inUse - 1
        tickets := update s.tickets place (some {})
        released := slot :: s.released }
    | some ⟨none⟩ => some s
    | none => none
  | .take src dst, s =>
    match s.tickets src, s.tickets dst with
    | some t, some ⟨none⟩ => if src = dst then none else some (s.transfer src dst t)
    | _, _ => none
  | .free place, s =>
    match s.tickets place with
    | some ⟨none⟩ => some { s with tickets := update s.tickets place none }
    | _ => none
  | .setLimit m, s => some { s with max := m, limits := fun w => m :: s.limits w }

/-- A budget without tickets. -/
def State.init (maxConnections : UInt64) : State := { max := maxConnections }

/-! ## What should hold -/

/-- The ticket at a place owns a slot. -/
def State.Owns (s : State) (place slot : Nat) : Prop := s.tickets place = some ⟨some slot⟩

/-- The places of the live tickets that own a slot. -/
def State.owning (s : State) : Set Nat := {place | ∃ slot, s.Owns place slot}

/-- Every slot that was acquired is owned by one ticket, or was released once. -/
structure Accounted (s : State) : Prop where
  owned : ∀ place slot, s.Owns place slot → slot < s.acquired ∧ slot ∉ s.released
  unique : ∀ place place' slot, s.Owns place slot → s.Owns place' slot → place = place'
  nodup : s.released.Nodup
  released : ∀ slot ∈ s.released, slot < s.acquired
  total : ∀ slot < s.acquired, slot ∈ s.released ∨ ∃ place, s.Owns place slot

/-- The counter is the number of tickets that own a slot. -/
structure Counted (s : State) : Prop where
  finite : s.owning.Finite
  inUse : s.inUse.toNat = s.owning.ncard

/-- A worker in `try_acquire` has seen the limit that is in force now, and one that has
passed the check did so below a limit that was in force. -/
structure Informed (s : State) : Prop where
  now : ∀ w, s.pcs w ≠ .outside → s.max ∈ s.limits w
  checked : ∀ w current, s.pcs w = .checked current → ∃ m ∈ s.limits w, current < m

/-! ## What a step can do -/

/-- What a step does to the tickets and the counter: nothing; or a slot is acquired, below
the limit that the worker has seen; or one moves; or one is released. -/
inductive Effect (s s' : State) : Prop where
  | none : (∀ place slot, s'.Owns place slot ↔ s.Owns place slot) → s'.inUse = s.inUse →
      s'.acquired = s.acquired → s'.released = s.released → Effect s s'
  | acquire {w place : Nat} : s.pcs w = .checked s.inUse → (∀ slot, ¬ s.Owns place slot) →
      (∀ q slot, s'.Owns q slot ↔ s.Owns q slot ∨ q = place ∧ slot = s.acquired) →
      s'.inUse = s.inUse + 1 → s'.acquired = s.acquired + 1 → s'.released = s.released →
      Effect s s'
  | move {src dst slot : Nat} : s.Owns src slot → (∀ slot, ¬ s.Owns dst slot) →
      (∀ q slot', s'.Owns q slot' ↔ q ≠ src ∧ s.Owns q slot' ∨ q = dst ∧ slot' = slot) →
      s'.inUse = s.inUse → s'.acquired = s.acquired → s'.released = s.released → Effect s s'
  | release {place slot : Nat} : s.Owns place slot →
      (∀ q slot', s'.Owns q slot' ↔ q ≠ place ∧ s.Owns q slot') →
      s'.inUse = s.inUse - 1 → s'.acquired = s.acquired → s'.released = slot :: s.released →
      Effect s s'

variable {s s' : State} {place : Nat} {l : Access}

lemma owns_update {tickets : Nat → Option Ticket} {t : Option Ticket}
    (h : s.tickets = update tickets place t) (q slot : Nat) :
    s.Owns q slot ↔ (q = place ∧ t = some ⟨some slot⟩) ∨
      (q ≠ place ∧ tickets q = some ⟨some slot⟩) := by
  unfold State.Owns
  rw [h]
  by_cases hq : q = place
  · subst hq
    simp
  · simp [hq]

/-- A place without a slot gets a ticket without one, or none. -/
lemma unowned_effect {s : State} {t : Option Ticket} (hplace : ∀ slot, ¬ s.Owns place slot)
    (ht : ∀ slot, t ≠ some ⟨some slot⟩) :
    Effect s { s with tickets := update s.tickets place t } := by
  refine .none (fun q slot => ?_) rfl rfl rfl
  rw [owns_update rfl]
  constructor
  · rintro (⟨-, h⟩ | ⟨-, h⟩)
    · exact absurd h (ht slot)
    · exact h
  · intro h
    refine .inr ⟨?_, h⟩
    rintro rfl
    exact hplace slot h

/-- A transfer moves the slot of its ticket, if there is one. -/
lemma transfer_effect {src dst : Nat} {t : Ticket} (hsrc : s.tickets src = some t)
    (hdst : ∀ slot, ¬ s.Owns dst slot) (hne : src ≠ dst) : Effect s (s.transfer src dst t) := by
  have howns (q slot : Nat) : (s.transfer src dst t).Owns q slot ↔
      (q = dst ∧ t.owner = some slot) ∨ (q ≠ dst ∧ q ≠ src ∧ s.Owns q slot) := by
    rw [owns_update rfl]
    have hold : update s.tickets src (some {}) q = some ⟨some slot⟩ ↔
        q ≠ src ∧ s.Owns q slot := by
      by_cases hq : q = src
      · subst hq
        simp
      · simp [hq, State.Owns]
    rw [hold]
    cases t
    simp
  cases ht : t.owner with
  | none =>
    -- an empty ticket is moved: no slot is at `src`, and none was at `dst`
    refine .none (fun place slot => ?_) rfl rfl rfl
    rw [howns, ht]
    constructor
    · rintro (⟨-, h⟩ | ⟨-, -, h⟩)
      · cases h
      · exact h
    · intro h
      refine .inr ⟨?_, ?_, h⟩
      · rintro rfl
        exact hdst slot h
      · rintro rfl
        rw [State.Owns, hsrc, Option.some.injEq] at h
        rw [h] at ht
        cases ht
  | some slot =>
    have howner : s.Owns src slot := by
      rw [State.Owns, hsrc, ← ht]
    refine .move howner hdst (fun q slot' => ?_) rfl rfl rfl
    rw [howns, ht, Option.some.injEq]
    constructor
    · rintro (⟨rfl, h⟩ | ⟨-, hq, h⟩)
      · exact .inr ⟨rfl, h.symm⟩
      · exact .inl ⟨hq, h⟩
    · rintro (⟨hq, h⟩ | ⟨rfl, h⟩)
      · refine .inr ⟨?_, hq, h⟩
        rintro rfl
        exact hdst slot' h
      · exact .inl ⟨rfl, h.symm⟩

lemma step_effect (h : step l s = some s') : Effect s s' := by
  have hsame : Effect s s := .none (fun _ _ => Iff.rfl) rfl rfl rfl
  cases l with
  | load w =>
    simp only [step] at h
    split at h
    · cases h
      exact .none (fun _ _ => Iff.rfl) rfl rfl rfl
    · cases h
  | check w =>
    simp only [step] at h
    split at h
    · cases h
      exact .none (fun _ _ => Iff.rfl) rfl rfl rfl
    · cases h
  | exchange w spurious place =>
    simp only [step] at h
    split at h
    · rename_i current hpc hplace
      split at h
      · rename_i hcas
        cases h
        have hfree (slot : Nat) : ¬ s.Owns place slot := by
          rw [State.Owns, hplace]
          simp
        refine .acquire (hcas.1 ▸ hpc) hfree (fun q slot => ?_) (hcas.1 ▸ rfl) rfl rfl
        rw [owns_update rfl]
        constructor
        · rintro (⟨hq, h⟩ | ⟨-, h⟩)
          · cases h
            exact .inr ⟨hq, rfl⟩
          · exact .inl h
        · rintro (h | ⟨hq, rfl⟩)
          · refine .inr ⟨?_, h⟩
            rintro rfl
            exact hfree slot h
          · exact .inl ⟨hq, rfl⟩
      · cases h
        exact .none (fun _ _ => Iff.rfl) rfl rfl rfl
    · cases h
  | construct place =>
    simp only [step] at h
    split at h
    · rename_i hplace
      cases h
      refine unowned_effect (fun slot => ?_) nofun
      rw [State.Owns, hplace]
      nofun
    · cases h
  | move src dst =>
    simp only [step] at h
    split at h
    · rename_i t hsrc hdst
      cases h
      refine transfer_effect hsrc (fun slot => ?_) ?_
      · rw [State.Owns, hdst]
        simp
      · rintro rfl
        rw [hsrc] at hdst
        cases hdst
    · cases h
  | reset place =>
    simp only [step] at h
    split at h
    · rename_i slot hplace
      cases h
      refine .release hplace (fun q slot' => ?_) rfl rfl rfl
      rw [owns_update rfl]
      constructor
      · rintro (⟨-, h⟩ | h)
        · cases h
        · exact h
      · exact .inr
    · cases h
      exact hsame
    · cases h
  | take src dst =>
    simp only [step] at h
    split at h
    · rename_i t hsrc hdst
      split at h
      · cases h
      · rename_i hne
        cases h
        refine transfer_effect hsrc (fun slot => ?_) hne
        rw [State.Owns, hdst]
        simp
    · cases h
  | free place =>
    simp only [step] at h
    split at h
    · rename_i hplace
      cases h
      refine unowned_effect (fun slot => ?_) nofun
      rw [State.Owns, hplace]
      nofun
    · cases h
  | setLimit m =>
    cases h
    exact .none (fun _ _ => Iff.rfl) rfl rfl rfl

/-- What a step does to a worker and to the limit: nothing to the worker, which may see a
new limit; or the worker enters `try_acquire`, goes back to the check after a failed
exchange, passes the check, or leaves. -/
inductive Progress (s s' : State) (w : Nat) : Prop where
  | same : s'.pcs w = s.pcs w → s'.limits w = s.limits w → s'.max = s.max → Progress s s' w
  | limited : s'.pcs w = s.pcs w → s'.limits w = s'.max :: s.limits w → Progress s s' w
  | entered : s'.pcs w = .loaded s.inUse → s'.limits w = [s.max] → s'.max = s.max →
      Progress s s' w
  | retried : s.pcs w ≠ .outside → s'.pcs w = .loaded s.inUse → s'.limits w = s.limits w →
      s'.max = s.max → Progress s s' w
  | passed {current : UInt64} : s.pcs w = .loaded current → current < s.max →
      s'.pcs w = .checked current → s'.limits w = s.limits w → s'.max = s.max → Progress s s' w
  | left : s'.pcs w = .outside → s'.limits w = s.limits w → s'.max = s.max → Progress s s' w

lemma step_progress (h : step l s = some s') (w : Nat) : Progress s s' w := by
  cases l with
  | load w' =>
    simp only [step] at h
    split at h
    · cases h
      by_cases hw : w = w'
      · subst hw
        exact .entered (update_self ..) (update_self ..) rfl
      · exact .same (update_of_ne hw ..) (update_of_ne hw ..) rfl
    · cases h
  | check w' =>
    simp only [step] at h
    split at h
    · rename_i current hpc
      cases h
      by_cases hw : w = w'
      · subst hw
        by_cases hge : current ≥ s.max
        · refine .left ?_ rfl rfl
          simp [hge]
        · refine .passed hpc (UInt64.not_le.mp hge) ?_ rfl rfl
          simp [hge]
      · exact .same (update_of_ne hw ..) rfl rfl
    · cases h
  | exchange w' spurious place =>
    simp only [step] at h
    split at h
    · rename_i current hpc hplace
      split at h
      · cases h
        by_cases hw : w = w'
        · subst hw
          exact .left (update_self ..) rfl rfl
        · exact .same (update_of_ne hw ..) rfl rfl
      · cases h
        by_cases hw : w = w'
        · subst hw
          refine .retried ?_ (update_self ..) rfl rfl
          rw [hpc]
          simp
        · exact .same (update_of_ne hw ..) rfl rfl
    · cases h
  | construct place =>
    simp only [step] at h
    split at h <;> cases h
    exact .same rfl rfl rfl
  | move src dst =>
    simp only [step] at h
    split at h <;> cases h
    exact .same rfl rfl rfl
  | reset place =>
    simp only [step] at h
    split at h <;> cases h
    · exact .same rfl rfl rfl
    · exact .same rfl rfl rfl
  | take src dst =>
    simp only [step] at h
    split at h
    · split at h <;> cases h
      exact .same rfl rfl rfl
    · cases h
  | free place =>
    simp only [step] at h
    split at h <;> cases h
    exact .same rfl rfl rfl
  | setLimit m =>
    cases h
    exact .limited rfl rfl

/-! ## Invariants -/

lemma accounted_effect (heff : Effect s s') (h : Accounted s) : Accounted s' := by
  rcases heff with ⟨howns, -, hacq, hrel⟩ | ⟨-, hfree, howns, -, hacq, hrel⟩ |
    ⟨hsrc, hdst, howns, -, hacq, hrel⟩ | ⟨hplace, howns, -, hacq, hrel⟩
  · constructor
    · intro place slot ho
      rw [hacq, hrel]
      exact h.owned place slot ((howns place slot).mp ho)
    · intro place place' slot ho ho'
      exact h.unique place place' slot ((howns _ _).mp ho) ((howns _ _).mp ho')
    · exact hrel ▸ h.nodup
    · rw [hacq, hrel]
      exact h.released
    · intro slot hslot
      rw [hacq] at hslot
      rw [hrel]
      exact (h.total slot hslot).imp_right fun ⟨place, ho⟩ => ⟨place, (howns _ _).mpr ho⟩
  · -- the new slot has the next number, so it is no old one
    have hnew (place : Nat) : ¬ s.Owns place s.acquired := fun ho =>
      absurd (h.owned place _ ho).1 (Nat.lt_irrefl _)
    constructor
    · intro q slot ho
      rw [hacq, hrel]
      rcases (howns q slot).mp ho with ho | ⟨-, rfl⟩
      · exact ⟨Nat.lt_succ_of_lt (h.owned q slot ho).1, (h.owned q slot ho).2⟩
      · refine ⟨Nat.lt_succ_self _, fun hmem => ?_⟩
        exact absurd (h.released _ hmem) (Nat.lt_irrefl _)
    · intro q q' slot ho ho'
      rcases (howns q slot).mp ho with ho | ⟨rfl, rfl⟩ <;>
        rcases (howns q' _).mp ho' with ho' | ⟨rfl, heq⟩
      · exact h.unique q q' slot ho ho'
      · subst heq
        exact absurd ho (hnew q)
      · exact absurd ho' (hnew q')
      · rfl
    · exact hrel ▸ h.nodup
    · intro slot hslot
      rw [hrel] at hslot
      rw [hacq]
      exact Nat.lt_succ_of_lt (h.released slot hslot)
    · intro slot hslot
      rw [hacq] at hslot
      rw [hrel]
      rcases Nat.lt_succ_iff_lt_or_eq.mp hslot with hlt | rfl
      · exact (h.total slot hlt).imp_right fun ⟨place, ho⟩ => ⟨place, (howns _ _).mpr (.inl ho)⟩
      · exact .inr ⟨_, (howns _ _).mpr (.inr ⟨rfl, rfl⟩)⟩
  · rename_i src dst slot
    constructor
    · intro q slot' ho
      rw [hacq, hrel]
      rcases (howns q slot').mp ho with ⟨-, ho⟩ | ⟨-, rfl⟩
      · exact h.owned q slot' ho
      · exact h.owned src slot' hsrc
    · -- the slot was at `src` only, which is empty now
      intro q q' slot' ho ho'
      rcases (howns q slot').mp ho with ⟨hq, ho⟩ | ⟨rfl, rfl⟩ <;>
        rcases (howns q' _).mp ho' with ⟨hq', ho'⟩ | ⟨rfl, heq⟩
      · exact h.unique q q' slot' ho ho'
      · subst heq
        exact absurd (h.unique q src _ ho hsrc) hq
      · exact absurd (h.unique q' src _ ho' hsrc) hq'
      · rfl
    · exact hrel ▸ h.nodup
    · rw [hacq, hrel]
      exact h.released
    · intro slot' hslot
      rw [hacq] at hslot
      rw [hrel]
      refine (h.total slot' hslot).imp_right fun ⟨place, ho⟩ => ?_
      by_cases heq : place = src
      · subst heq
        rw [State.Owns, hsrc] at ho
        cases ho
        exact ⟨dst, (howns _ _).mpr (.inr ⟨rfl, rfl⟩)⟩
      · exact ⟨place, (howns _ _).mpr (.inl ⟨heq, ho⟩)⟩
  · rename_i place slot
    constructor
    · intro q slot' ho
      rw [hacq, hrel, List.mem_cons, not_or]
      have hold := (howns q slot').mp ho
      refine ⟨(h.owned q slot' hold.2).1, ?_, (h.owned q slot' hold.2).2⟩
      rintro rfl
      exact hold.1 (h.unique q place slot' hold.2 hplace)
    · intro q q' slot' ho ho'
      exact h.unique q q' slot' ((howns _ _).mp ho).2 ((howns _ _).mp ho').2
    · rw [hrel, List.nodup_cons]
      exact ⟨(h.owned place slot hplace).2, h.nodup⟩
    · intro slot' hslot
      rw [hrel, List.mem_cons] at hslot
      rw [hacq]
      rcases hslot with rfl | hslot
      · exact (h.owned place slot' hplace).1
      · exact h.released slot' hslot
    · intro slot' hslot
      rw [hacq] at hslot
      rw [hrel, List.mem_cons]
      rcases h.total slot' hslot with hmem | ⟨q, ho⟩
      · exact .inl (.inr hmem)
      · by_cases hq : q = place
        · subst hq
          rw [State.Owns, hplace] at ho
          cases ho
          exact .inl (.inl rfl)
        · exact .inr ⟨q, (howns _ _).mpr ⟨hq, ho⟩⟩

/-- A release does not go below zero: there is at least the slot that it gives back. -/
lemma Counted.toNat_release (h : Counted s) {slot : Nat} (ho : s.Owns place slot) :
    (s.inUse - 1).toNat = s.inUse.toNat - 1 := by
  have hcard := Set.ncard_sdiff_singleton_add_one (s := s.owning) ⟨slot, ho⟩ h.finite
  rw [← h.inUse] at hcard
  apply UInt64.toNat_sub_of_le
  rw [UInt64.le_iff_toNat_le, UInt64.toNat_one]
  omega

/-- The exchange adds one to a counter below some limit, so the counter does not
wrap. -/
lemma counted_effect (heff : Effect s s') (hinf : Informed s) (h : Counted s) : Counted s' := by
  rcases heff with ⟨howns, hin, -, -⟩ | ⟨hpc, hfree, howns, hin, -, -⟩ |
    ⟨hsrc, hdst, howns, hin, -, -⟩ | ⟨hplace, howns, hin, -, -⟩
  · have hset : s'.owning = s.owning := by
      ext place
      exact exists_congr (howns place)
    exact ⟨hset ▸ h.finite, by rw [hset, hin, h.inUse]⟩
  · rename_i w place
    have hset : s'.owning = insert place s.owning := by
      ext q
      constructor
      · rintro ⟨slot, ho⟩
        rcases (howns q slot).mp ho with ho | ⟨rfl, -⟩
        · exact .inr ⟨slot, ho⟩
        · exact .inl rfl
      · rintro (rfl | ⟨slot, ho⟩)
        · exact ⟨s.acquired, (howns _ _).mpr (.inr ⟨rfl, rfl⟩)⟩
        · exact ⟨slot, (howns _ _).mpr (.inl ho)⟩
    have hnot : place ∉ s.owning := fun ⟨slot, ho⟩ => hfree slot ho
    refine ⟨hset ▸ h.finite.insert place, ?_⟩
    rw [hset, Set.ncard_insert_of_notMem hnot h.finite, ← h.inUse, hin]
    obtain ⟨m, -, hm⟩ := hinf.checked w s.inUse hpc
    have hlt : s.inUse.toNat < m.toNat := UInt64.lt_iff_toNat_lt.mp hm
    have hbound : m.toNat < 2 ^ 64 := m.toNat_lt
    rw [UInt64.toNat_add, UInt64.toNat_one]
    exact Nat.mod_eq_of_lt (by omega)
  · rename_i src dst slot
    have hset : s'.owning = insert dst (s.owning \ {src}) := by
      ext q
      constructor
      · rintro ⟨slot', ho⟩
        rcases (howns q slot').mp ho with ⟨hq, ho⟩ | ⟨rfl, -⟩
        · exact .inr ⟨⟨slot', ho⟩, hq⟩
        · exact .inl rfl
      · rintro (rfl | ⟨⟨slot', ho⟩, hq⟩)
        · exact ⟨slot, (howns _ _).mpr (.inr ⟨rfl, rfl⟩)⟩
        · exact ⟨slot', (howns _ _).mpr (.inl ⟨hq, ho⟩)⟩
    have hnot : dst ∉ s.owning \ {src} := fun hmem => by
      obtain ⟨⟨slot', ho⟩, -⟩ := hmem
      exact hdst slot' ho
    have hfin : (s.owning \ {src}).Finite := h.finite.sdiff
    refine ⟨hset ▸ hfin.insert dst, ?_⟩
    have hmem : src ∈ s.owning := ⟨slot, hsrc⟩
    rw [hset, Set.ncard_insert_of_notMem hnot hfin,
      Set.ncard_sdiff_singleton_add_one hmem h.finite, ← h.inUse, hin]
  · rename_i place slot
    have hset : s'.owning = s.owning \ {place} := by
      ext q
      constructor
      · rintro ⟨slot', ho⟩
        have hold := (howns q slot').mp ho
        exact ⟨⟨slot', hold.2⟩, hold.1⟩
      · rintro ⟨⟨slot', ho⟩, hq⟩
        exact ⟨slot', (howns _ _).mpr ⟨hq, ho⟩⟩
    have hcard := Set.ncard_sdiff_singleton_add_one (s := s.owning) ⟨slot, hplace⟩ h.finite
    rw [← h.inUse] at hcard
    refine ⟨hset ▸ h.finite.sdiff, ?_⟩
    rw [hset, hin, h.toNat_release hplace]
    omega

lemma informed_progress (hprog : ∀ w, Progress s s' w) (h : Informed s) : Informed s' := by
  constructor
  · intro w hpc'
    rcases hprog w with ⟨hpc, hlim, hmax⟩ | ⟨hpc, hlim⟩ | ⟨hpc, hlim, hmax⟩ |
      ⟨hin, hpc, hlim, hmax⟩ | ⟨hpc, hlt, -, hlim, hmax⟩ | ⟨hpc, -, -⟩
    · rw [hlim, hmax]
      exact h.now w (hpc ▸ hpc')
    · rw [hlim]
      exact .head _
    · rw [hlim, hmax]
      exact .head _
    · rw [hlim, hmax]
      exact h.now w hin
    · rw [hlim, hmax]
      apply h.now w
      rw [hpc]
      simp
    · exact absurd hpc hpc'
  · intro w current hpc'
    rcases hprog w with ⟨hpc, hlim, hmax⟩ | ⟨hpc, hlim⟩ | ⟨hpc, hlim, hmax⟩ |
      ⟨hin, hpc, hlim, hmax⟩ | ⟨hpc, hlt, hpc'', hlim, hmax⟩ | ⟨hpc, -, -⟩
    · rw [hlim]
      exact h.checked w current (hpc ▸ hpc')
    · rcases h.checked w current (hpc ▸ hpc') with ⟨m, hm, hlt⟩
      rw [hlim]
      exact ⟨m, .tail _ hm, hlt⟩
    · rw [hpc] at hpc'
      cases hpc'
    · rw [hpc] at hpc'
      cases hpc'
    · -- the check was against the limit that is in force
      rw [hpc''] at hpc'
      cases hpc'
      rw [hlim]
      exact ⟨s.max, h.now w (by rw [hpc]; simp), hlt⟩
    · rw [hpc] at hpc'
      cases hpc'

/-- What holds in every state. -/
structure Safe (s : State) : Prop where
  accounted : Accounted s
  counted : Counted s
  informed : Informed s

lemma safe_init (m : UInt64) : Safe (State.init m) := by
  have hnone (place slot : Nat) : ¬ (State.init m).Owns place slot := by
    intro ho
    cases ho
  have hempty : (State.init m).owning = ∅ := by
    ext place
    simp [State.owning, hnone]
  refine ⟨⟨?_, ?_, ?_, ?_, ?_⟩, ⟨?_, ?_⟩, ⟨?_, ?_⟩⟩
  · intro place slot ho
    exact absurd ho (hnone place slot)
  · intro place place' slot ho
    exact absurd ho (hnone place slot)
  · exact List.nodup_nil
  · intro slot hslot
    cases hslot
  · intro slot hslot
    exact absurd hslot (Nat.not_lt_zero slot)
  · exact hempty ▸ Set.finite_empty
  · rw [hempty, Set.ncard_empty]
    rfl
  · intro w hpc
    exact absurd rfl hpc
  · intro w current hpc
    cases hpc

lemma safe_step (h : step l s = some s') (hsafe : Safe s) : Safe s' :=
  ⟨accounted_effect (step_effect h) hsafe.accounted,
    counted_effect (step_effect h) hsafe.informed hsafe.counted,
    informed_progress (step_progress h) hsafe.informed⟩

/-- While the limit stays what it is, the counter stays within it, and so does what a worker
has checked. -/
structure Within (m : UInt64) (s : State) : Prop where
  max : s.max = m
  inUse : s.inUse ≤ m
  checked : ∀ w current, s.pcs w = .checked current → current < m

def Access.setsLimit : Access → Bool
  | .setLimit _ => true
  | _ => false

lemma max_step (h : step l s = some s') (hl : l.setsLimit = false) : s'.max = s.max := by
  cases l with
  | setLimit m => cases hl
  | load w | check w | construct place | move src dst | reset place | free place =>
    simp only [step] at h
    split at h <;> cases h <;> rfl
  | exchange w spurious place | take src dst =>
    simp only [step] at h
    split at h
    · split at h <;> cases h <;> rfl
    · cases h

lemma within_step {m : UInt64} (h : step l s = some s') (hsafe : Safe s)
    (hl : l.setsLimit = false) (hin : Within m s) : Within m s' := by
  have hmax : s'.max = s.max := max_step h hl
  refine ⟨hmax.trans hin.max, ?_, ?_⟩
  · rcases step_effect h with ⟨-, huse, -, -⟩ | ⟨hpc, -, -, huse, -, -⟩ | ⟨-, -, -, huse, -, -⟩ |
      ⟨hplace, -, huse, -, -⟩
    · exact huse ▸ hin.inUse
    · -- the exchange: what was checked is what was in the counter
      have hlt := UInt64.lt_iff_toNat_lt.mp (hin.checked _ _ hpc)
      have hbound : m.toNat < 2 ^ 64 := m.toNat_lt
      rw [huse, UInt64.le_iff_toNat_le, UInt64.toNat_add, UInt64.toNat_one,
        Nat.mod_eq_of_lt (by omega)]
      omega
    · exact huse ▸ hin.inUse
    · have hle := UInt64.le_iff_toNat_le.mp hin.inUse
      rw [huse, UInt64.le_iff_toNat_le, hsafe.counted.toNat_release hplace]
      omega
  · intro w current hpc'
    rcases step_progress h w with ⟨hpc, -, -⟩ | ⟨hpc, -⟩ | ⟨hpc, -, -⟩ | ⟨-, hpc, -, -⟩ |
      ⟨-, hlt, hpc, -, -⟩ | ⟨hpc, -, -⟩
    · exact hin.checked w current (hpc ▸ hpc')
    · exact hin.checked w current (hpc ▸ hpc')
    · rw [hpc] at hpc'
      cases hpc'
    · rw [hpc] at hpc'
      cases hpc'
    · rw [hpc] at hpc'
      cases hpc'
      exact hin.max ▸ hlt
    · rw [hpc] at hpc'
      cases hpc'

/-- A successful exchange: the counter was below a limit that was in force while the worker
was in `try_acquire`. -/
def AcquiredBelow (s : State) (w : Nat) : Prop := ∃ m ∈ s.limits w, s.inUse < m

lemma acquired_below {w : Nat} {spurious : Bool} (hsafe : Safe s)
    (h : step (.exchange w spurious place) s = some s') (hacq : s'.acquired ≠ s.acquired) :
    AcquiredBelow s w := by
  simp only [step] at h
  split at h
  · rename_i current hpc hplace
    split at h
    · rename_i hcas
      rw [AcquiredBelow, hcas.1]
      exact hsafe.informed.checked w current hpc
    · cases h
      exact absurd rfl hacq
  · cases h

/-- In every interleaving the counter is the number of live tickets that own a slot; every
slot that was acquired is owned by one ticket or was released once; an exchange that
succeeds does so below a limit that was in force during its `try_acquire`; and a limit
that is never changed is never exceeded. -/
theorem budget_safe {m : UInt64} {ls : List Access} {s : State}
    (hrun : Run step Any (State.init m) ls s) :
    (s.owning.Finite ∧ s.inUse.toNat = s.owning.ncard) ∧ Accounted s ∧
      (∀ w spurious place s', step (.exchange w spurious place) s = some s' →
        s'.acquired ≠ s.acquired → AcquiredBelow s w) ∧
      ((∀ l ∈ ls, l.setsLimit = false) → s.inUse ≤ m) := by
  have hsafe : Safe s := hrun.invariant (safe_init m) fun _ _ _ ht _ hu => safe_step hu ht
  refine ⟨⟨hsafe.counted.finite, hsafe.counted.inUse⟩, hsafe.accounted, ?_, ?_⟩
  · intro w spurious place s' hstep
    exact acquired_below hsafe hstep
  · intro hconst
    have hwithin : Safe s ∧ Within m s := by
      apply (hrun.of_forall hconst).invariant
      · refine ⟨safe_init m, rfl, UInt64.zero_le, ?_⟩
        intro w current hpc
        cases hpc
      · intro t l u ht hl hu
        exact ⟨safe_step hu ht.1, within_step hu ht.1 hl.2 ht.2⟩
    exact hwithin.2.inUse

/-- One slot, two workers: the second one is refused, and gets the slot when the ticket of
the first one, which has been moved, is destroyed. -/
theorem budget_safe_one : ∃ s, Run step Any (State.init 1)
    [.load 1, .load 2, .check 1, .check 2, .exchange 1 false 10, .exchange 2 false 20, .check 2,
      .move 10 11, .reset 10, .free 10, .reset 11, .load 2, .check 2, .exchange 2 true 20,
      .check 2, .exchange 2 false 20] s ∧
    s.inUse.toNat = s.owning.ncard ∧ s.inUse ≤ 1 ∧ s.released = [0] := by
  obtain ⟨s, hrun, hrel⟩ : ∃ s, Run step Any (State.init 1)
      [.load 1, .load 2, .check 1, .check 2, .exchange 1 false 10, .exchange 2 false 20, .check 2,
        .move 10 11, .reset 10, .free 10, .reset 11, .load 2, .check 2, .exchange 2 true 20,
        .check 2, .exchange 2 false 20] s ∧ s.released = [0] :=
    exists_run_of_exec (by decide +kernel)
  have hsafe := budget_safe hrun
  exact ⟨s, hrun, hsafe.1.2, hsafe.2.2.2 (by decide), hrel⟩

end EpollGateway.Worker.Budget
