import Mathlib.Data.Fin.SuccPred
import Mathlib.Data.Fintype.Basic
import Mathlib.Order.Fin.Basic
import Mathlib.Tactic.Common

/-! # Cumulative histograms

A histogram has a counter for each boundary and one more. An observation goes through the
boundaries and adds one to each counter whose boundary it does not exceed, and to the last
one in any case. `Counts` says what the counters hold after some observations; they do not
decrease from one boundary to the next then (`Counts.monotone`).
-/

namespace Histogram

variable {α : Type*} {n : Nat}

/-- One more in one counter. -/
def bump (i : Fin (n + 1)) (b : Fin (n + 1) → Nat) : Fin (n + 1) → Nat :=
  Function.update b i (b i + 1)

@[simp] lemma bump_self (i : Fin (n + 1)) (b : Fin (n + 1) → Nat) : bump i b i = b i + 1 := by
  simp [bump]

@[simp] lemma bump_ne {i j : Fin (n + 1)} (b : Fin (n + 1) → Nat) (h : j ≠ i) :
    bump i b j = b j := by
  simp [bump, h]

variable [LinearOrder α] (boundary : Fin n → α)

/-- The loop over some boundaries. -/
def observeFinite (x : α) (is : List (Fin n)) (b : Fin (n + 1) → Nat) : Fin (n + 1) → Nat :=
  is.foldl (fun b i => if x ≤ boundary i then bump i.castSucc b else b) b

/-- An observation. -/
def observe (x : α) (b : Fin (n + 1) → Nat) : Fin (n + 1) → Nat :=
  bump (Fin.last n) (observeFinite boundary x (List.finRange n) b)

variable {boundary} {x : α}

lemma observeFinite_last (is : List (Fin n)) (b : Fin (n + 1) → Nat) :
    observeFinite boundary x is b (Fin.last n) = b (Fin.last n) := by
  induction is generalizing b with
  | nil => rfl
  | cons i is ih =>
    have hlast : Fin.last n ≠ i.castSucc := (Fin.castSucc_lt_last i).ne'
    rw [observeFinite, List.foldl_cons]
    refine (ih _).trans ?_
    split
    · exact bump_ne b hlast
    · rfl

/-- A boundary that the loop does not come to keeps its counter. -/
lemma observeFinite_notMem {is : List (Fin n)} {j : Fin n} (hj : j ∉ is)
    (b : Fin (n + 1) → Nat) : observeFinite boundary x is b j.castSucc = b j.castSucc := by
  induction is generalizing b with
  | nil => rfl
  | cons i is ih =>
    rw [List.mem_cons, not_or] at hj
    have hne : j.castSucc ≠ i.castSucc := fun h => hj.1 (Fin.castSucc_injective n h)
    rw [observeFinite, List.foldl_cons]
    refine (ih hj.2 _).trans ?_
    split
    · exact bump_ne b hne
    · rfl

/-- The counter of a boundary is looked at once. -/
lemma observeFinite_mem {is : List (Fin n)} (hnodup : is.Nodup) {j : Fin n} (hj : j ∈ is)
    (b : Fin (n + 1) → Nat) :
    observeFinite boundary x is b j.castSucc =
      b j.castSucc + if x ≤ boundary j then 1 else 0 := by
  induction is generalizing b with
  | nil => simp at hj
  | cons i is ih =>
    rw [List.nodup_cons] at hnodup
    rw [observeFinite, List.foldl_cons]
    by_cases hij : j = i
    · subst hij
      refine (observeFinite_notMem hnodup.1 _).trans ?_
      split <;> simp
    · have hmem := (List.mem_cons.mp hj).resolve_left hij
      have hne : j.castSucc ≠ i.castSucc := fun h => hij (Fin.castSucc_injective n h)
      refine (ih hnodup.2 hmem _).trans ?_
      congr 1
      split
      · exact bump_ne b hne
      · rfl

lemma observe_castSucc (j : Fin n) (b : Fin (n + 1) → Nat) :
    observe boundary x b j.castSucc = b j.castSucc + if x ≤ boundary j then 1 else 0 := by
  rw [observe, bump_ne _ (Fin.castSucc_lt_last j).ne]
  exact observeFinite_mem (List.nodup_finRange n) (List.mem_finRange j) b

lemma observe_last (b : Fin (n + 1) → Nat) :
    observe boundary x b (Fin.last n) = b (Fin.last n) + 1 := by
  rw [observe, bump_self, observeFinite_last]

/-! ## After some observations -/

/-- The counters hold how many of the observations do not exceed each boundary, and how many
there are. -/
structure Counts (boundary : Fin n → α) (b : Fin (n + 1) → Nat) (xs : List α) : Prop where
  below : ∀ i : Fin n, b i.castSucc = xs.countP (· ≤ boundary i)
  all : b (Fin.last n) = xs.length

lemma Counts.observe {b : Fin (n + 1) → Nat} {xs : List α} (h : Counts boundary b xs) (x : α) :
    Counts boundary (observe boundary x b) (xs ++ [x]) := by
  constructor
  · intro i
    rw [observe_castSucc, h.below, List.countP_append, List.countP_singleton]
    simp
  · rw [observe_last, h.all, List.length_append, List.length_singleton]

/-- Counters of a histogram do not decrease. -/
lemma Counts.monotone {b : Fin (n + 1) → Nat} {xs : List α} (h : Counts boundary b xs)
    (hboundary : Monotone boundary) : Monotone b := by
  intro i j hij
  induction j using Fin.lastCases with
  | last =>
    rw [h.all]
    induction i using Fin.lastCases with
    | last => exact h.all.le
    | cast i =>
      rw [h.below]
      exact List.countP_le_length
  | cast j =>
    -- a counter in front of one that has a boundary has a boundary itself
    induction i using Fin.lastCases with
    | last => exact absurd (Fin.castSucc_lt_last j) (not_lt.mpr hij)
    | cast i =>
      rw [h.below, h.below]
      apply List.countP_mono_left
      intro x _ hx
      have hle := hboundary (Fin.castSucc_le_castSucc_iff.mp hij)
      exact decide_eq_true ((of_decide_eq_true hx).trans hle)

end Histogram
