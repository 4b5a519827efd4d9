import Mathlib.Data.List.Basic
import Mathlib.Tactic.Common

/-! # Runs of a labelled machine

A machine is a partial step function `ℓ → σ → Option σ`: a label stands for the
choices its surroundings make, and `none` says that the label is not possible
in that state. `Run step ok s ls t` says that the labels `ls` lead from `s` to
`t` and that every step met the side condition `ok`, a predicate of the label
and of the state *before* the step.
-/

namespace Machine

variable {σ ℓ : Type*}

/-- The labels `ls` lead from `s` to the last index, every step meeting `ok`. -/
inductive Run (step : ℓ → σ → Option σ) (ok : σ → ℓ → Prop) (s : σ) : List ℓ → σ → Prop where
  | nil : Run step ok s [] s
  | snoc {ls : List ℓ} {t u : σ} {l : ℓ} :
      Run step ok s ls t → ok t l → step l t = some u → Run step ok s (ls ++ [l]) u

/-- The side condition that every step meets. -/
def Any : σ → ℓ → Prop := fun _ _ => True

instance (s : σ) (l : ℓ) : Decidable (Any s l) := inferInstanceAs (Decidable True)

variable {step : ℓ → σ → Option σ} {ok : σ → ℓ → Prop} {ls : List ℓ}

/-- The invariant rule. -/
lemma Run.invariant {I : σ → Prop} {s t : σ} (hrun : Run step ok s ls t) (hinit : I s)
    (hstep : ∀ t l u, I t → ok t l → step l t = some u → I u) : I t := by
  induction hrun with
  | nil => exact hinit
  | snoc _ hok hu ih => exact hstep _ _ _ ih hok hu

/-- The termination rule: a run is no longer than the measure its steps lower. -/
lemma Run.length_add_le {I : σ → Prop} {m : σ → Nat} {s t : σ} (hrun : Run step ok s ls t)
    (hinit : I s) (hstep : ∀ t l u, I t → ok t l → step l t = some u → I u ∧ m u < m t) :
    I t ∧ ls.length + m t ≤ m s := by
  induction hrun with
  | nil => exact ⟨hinit, by simp⟩
  | snoc _ hok hu ih =>
    obtain ⟨hI, hlt⟩ := hstep _ _ _ ih.1 hok hu
    refine ⟨hI, ?_⟩
    rw [List.length_append, List.length_singleton]
    omega

/-- A weaker side condition has more runs. -/
lemma Run.mono {ok' : σ → ℓ → Prop} {s t : σ} (hrun : Run step ok s ls t)
    (h : ∀ s l, ok s l → ok' s l) : Run step ok' s ls t := by
  induction hrun with
  | nil => exact Run.nil
  | snoc _ hok hu ih => exact Run.snoc ih (h _ _ hok) hu

/-- What every label of a run has may be part of the side condition. -/
lemma Run.of_forall {P : ℓ → Prop} {s t : σ} (hrun : Run step ok s ls t) (h : ∀ l ∈ ls, P l) :
    Run step (fun s l => ok s l ∧ P l) s ls t := by
  induction hrun with
  | nil => exact Run.nil
  | snoc _ hok hu ih =>
    have hlast := h _ (List.mem_append_right _ (List.mem_singleton_self _))
    exact Run.snoc (ih fun l hl => h l (List.mem_append_left _ hl)) ⟨hok, hlast⟩ hu

/-- The labels, run as a program that stops when a step does not meet `ok`. -/
def exec (step : ℓ → σ → Option σ) (ok : σ → ℓ → Prop) [∀ s l, Decidable (ok s l)] :
    List ℓ → σ → Option σ
  | [], s => some s
  | l :: ls, s => if ok s l then (step l s).bind (exec step ok ls) else none

lemma Run.head {s t u : σ} {l : ℓ} (hok : ok s l) (hl : step l s = some t)
    (hrun : Run step ok t ls u) : Run step ok s (l :: ls) u := by
  induction hrun with
  | nil => exact Run.snoc Run.nil hok hl
  | snoc _ hok' hu ih => exact Run.snoc ih hok' hu

/-- Executed labels are a run. -/
lemma run_of_exec [∀ s l, Decidable (ok s l)] {s t : σ} (h : exec step ok ls s = some t) :
    Run step ok s ls t := by
  induction ls generalizing s with
  | nil =>
    cases h
    exact Run.nil
  | cons l ls ih =>
    rw [exec] at h
    split at h
    · rename_i hok
      obtain ⟨u, hu, hrest⟩ := Option.bind_eq_some_iff.mp h
      exact Run.head hok hu (ih hrest)
    · cases h

/-- What an execution shows of its last state is shown by a run. -/
lemma exists_run_of_exec [∀ s l, Decidable (ok s l)] {β : Type*} {s : σ} {f : σ → β} {b : β}
    (h : (exec step ok ls s).map f = some b) : ∃ t, Run step ok s ls t ∧ f t = b := by
  obtain ⟨t, ht, hf⟩ := Option.map_eq_some_iff.mp h
  exact ⟨t, run_of_exec ht, hf⟩

end Machine
