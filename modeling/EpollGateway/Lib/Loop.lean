import Mathlib.Data.Fintype.Pigeonhole
import Mathlib.Logic.Relation
import Mathlib.Tactic.Common

/-! # Loops that may not end

A loop is a *turn* that either asks for another turn or leaves with a result.
`loop` runs it with fuel; `Terminates` says that some fuel is enough. The rules
are the usual ones: an invariant for what a result says, a variant for
termination, and a closed set of asking states for divergence.
-/

namespace Loop

/-- The outcome of one turn. -/
inductive Turn (σ ρ : Type*) where
  | again (s : σ)
  | done (r : ρ)

variable {σ ρ : Type*} (turn : σ → Turn σ ρ)

/-- At most `fuel` turns, with `none` when the fuel runs out. -/
def loop : Nat → σ → Option ρ
  | 0, _ => none
  | fuel + 1, s =>
    match turn s with
    | .again s' => loop fuel s'
    | .done r => some r

/-- Some number of turns leads to a result. -/
def Terminates (s : σ) : Prop := ∃ fuel r, loop turn fuel s = some r

/-- States that turns lead to. -/
def Reaches : σ → σ → Prop := Relation.ReflTransGen fun s t => turn s = .again t

variable {turn}

variable {s t : σ} {fuel n : Nat} {r : ρ} {I : σ → Prop}

lemma loop_again (h : turn s = .again t) : loop turn (fuel + 1) s = loop turn fuel t := by
  simp [loop, h]

lemma loop_done (h : turn s = .done r) : loop turn (fuel + 1) s = some r := by
  simp [loop, h]

/-- The result does not depend on the fuel that found it. -/
lemma loop_unique {m : Nat} {r' : ρ} (h : loop turn n s = some r) (h' : loop turn m s = some r') :
    r = r' := by
  induction n generalizing m s with
  | zero => simp [loop] at h
  | succ n ih =>
    cases m with
    | zero => simp [loop] at h'
    | succ m =>
      cases hturn : turn s with
      | again t =>
        rw [loop_again hturn] at h h'
        exact ih h h'
      | done q =>
        rw [loop_done hturn] at h h'
        exact Option.some.inj (h.symm.trans h')

/-- A result is the answer of the last turn, in a state that turns lead to. -/
lemma exists_last_turn (h : loop turn n s = some r) :
    ∃ t, Reaches turn s t ∧ turn t = .done r := by
  induction n generalizing s with
  | zero => simp [loop] at h
  | succ n ih =>
    cases hturn : turn s with
    | again t =>
      rw [loop_again hturn] at h
      obtain ⟨u, hu, hdone⟩ := ih h
      exact ⟨u, Relation.ReflTransGen.head hturn hu, hdone⟩
    | done q =>
      rw [loop_done hturn] at h
      exact ⟨s, Relation.ReflTransGen.refl, by rw [hturn, Option.some.inj h]⟩

/-- Invariant rule over the states that turns lead to. -/
lemma Reaches.invariant (h : Reaches turn s t) (hs : I s)
    (hturn : ∀ u v, I u → turn u = .again v → I v) : I t := by
  induction h with
  | refl => exact hs
  | tail _ hstep ih => exact hturn _ _ ih hstep

/-- Variant rule: an invariant under which every further turn lowers a measure. -/
lemma terminates_of_variant (m : σ → Nat)
    (hturn : ∀ u v, I u → turn u = .again v → I v ∧ m v < m u) (hs : I s) : Terminates turn s := by
  generalize hn : m s = n
  induction n using Nat.strongRecOn generalizing s with
  | ind n ih =>
    cases ht : turn s with
    | again t =>
      obtain ⟨hI, hlt⟩ := hturn s t hs ht
      obtain ⟨fuel, r, hr⟩ := ih (m t) (hn ▸ hlt) hI rfl
      exact ⟨fuel + 1, r, by rw [loop_again ht, hr]⟩
    | done r => exact ⟨1, r, loop_done ht⟩

/-- The last state that at most `fuel` turns lead to. -/
def last (turn : σ → Turn σ ρ) : Nat → σ → σ
  | 0, s => s
  | fuel + 1, s =>
    match turn s with
    | .again s' => last turn fuel s'
    | .done _ => s

lemma reaches_last (n : Nat) (s : σ) : Reaches turn s (last turn n s) := by
  induction n generalizing s with
  | zero => exact Relation.ReflTransGen.refl
  | succ n ih =>
    rcases ht : turn s with t | r
    · have hreach : Reaches turn s (last turn n t) := (ih t).head ht
      simpa [last, ht] using hreach
    · have hreach : Reaches turn s s := Relation.ReflTransGen.refl
      simpa [last, ht] using hreach

/-- The last state gives the result. -/
lemma turn_last (h : loop turn n s = some r) : turn (last turn n s) = .done r := by
  induction n generalizing s with
  | zero => cases h
  | succ n ih =>
    rcases ht : turn s with t | q
    · rw [loop_again ht] at h
      simpa [last, ht] using ih h
    · rw [loop_done ht] at h
      simpa [last, ht] using h

/-- Two loops that take the same turns find the same result. -/
lemma loop_transfer {turn' : σ → Turn σ ρ}
    (hagain : ∀ u v, I u → turn u = .again v → I v ∧ turn' u = .again v)
    (hdone : ∀ u, I u → turn u = .done r → turn' u = .done r) (hs : I s)
    (h : loop turn n s = some r) : loop turn' n s = some r := by
  induction n generalizing s with
  | zero => cases h
  | succ n ih =>
    rcases ht : turn s with t | q
    · rw [loop_again ht] at h
      obtain ⟨ht', hturn'⟩ := hagain s t hs ht
      rw [loop_again hturn']
      exact ih ht' h
    · rw [loop_done ht] at h
      cases h
      exact loop_done (hdone s hs ht)

/-- Divergence rule: a set of states that every turn keeps and none leaves. -/
lemma not_terminates_of_closed (hturn : ∀ u, I u → ∃ v, turn u = .again v ∧ I v) (hs : I s) :
    ¬ Terminates turn s := by
  rintro ⟨fuel, r, hr⟩
  induction fuel generalizing s with
  | zero => simp [loop] at hr
  | succ n ih =>
    obtain ⟨v, hv, hI⟩ := hturn s hs
    rw [loop_again hv] at hr
    exact ih hI hr

/-! ## Enough fuel

When finitely many keys decide how a loop goes on, a loop that comes to an end has
seen no key twice, so that it needs no more turns than there are keys.
-/

/-- The states of a loop that has not ended. -/
lemma exists_states_of_loop_eq_none (h : loop turn n s = none) :
    ∃ f : Nat → σ, f 0 = s ∧ ∀ i < n, turn (f i) = .again (f (i + 1)) := by
  induction n generalizing s with
  | zero => exact ⟨fun _ => s, rfl, nofun⟩
  | succ n ih =>
    rcases ht : turn s with t | r
    · rw [loop_again ht] at h
      obtain ⟨f, hf, hnext⟩ := ih h
      refine ⟨fun i => if i = 0 then s else f (i - 1), rfl, ?_⟩
      intro i hi
      rcases i with _ | i
      · simpa [hf] using ht
      · simpa using hnext i (by omega)
    · rw [loop_done ht] at h
      cases h

lemma Terminates.again (h : Terminates turn s) (ht : turn s = .again t) : Terminates turn t := by
  obtain ⟨fuel, r, hr⟩ := h
  rcases fuel with _ | fuel
  · cases hr
  · exact ⟨fuel, r, by rwa [loop_again ht] at hr⟩

lemma Terminates.reaches (h : Terminates turn s) (hreach : Reaches turn s t) :
    Terminates turn t := by
  induction hreach with
  | refl => exact h
  | tail _ hturn ih => exact ih.again hturn

lemma loop_eq_some_of_card {κ : Type*} [Fintype κ] (key : σ → κ)
    (hkey : ∀ s t s', key s = key t → turn s = .again s' →
      ∃ t', turn t = .again t' ∧ key s' = key t') (hs : Terminates turn s) :
    ∃ r, loop turn (Fintype.card κ) s = some r := by
  by_contra hnone
  have hloop : loop turn (Fintype.card κ) s = none := by
    rcases hr : loop turn (Fintype.card κ) s with _ | r
    · rfl
    · exact absurd ⟨r, hr⟩ hnone
  obtain ⟨f, rfl, hnext⟩ := exists_states_of_loop_eq_none hloop
  -- one state more than there are keys, so two of them have the same key
  obtain ⟨i, j, hne, heq⟩ := Fintype.exists_ne_map_eq_of_card_lt
    (fun i : Fin (Fintype.card κ + 1) => key (f i)) (by simp)
  wlog hij : i < j generalizing i j
  · exact this j i hne.symm heq.symm (lt_of_le_of_ne (not_lt.mp hij) hne.symm)
  have hreach : ∀ k ≤ i.val, Terminates turn (f k) := by
    intro k hk
    induction k with
    | zero => exact hs
    | succ k ih => exact (ih (by omega)).again (hnext k (by omega))
  -- from there the keys go round for ever
  refine not_terminates_of_closed (I := fun u => ∃ k, i.val ≤ k ∧ k < j.val ∧ key u = key (f k)) ?_
    ⟨i, le_refl _, hij, rfl⟩ (hreach i le_rfl)
  rintro u ⟨k, hik, hkj, hu⟩
  obtain ⟨v, hv, hkv⟩ := hkey _ _ _ hu.symm (hnext k (by omega))
  refine ⟨v, hv, ?_⟩
  by_cases hlast : k + 1 = j.val
  · exact ⟨i, le_refl _, hij, by rw [← hkv, hlast]; exact heq.symm⟩
  · exact ⟨k + 1, by omega, by omega, hkv.symm⟩

end Loop
