import Mathlib.Data.List.Induction
import Mathlib.Tactic.Common

/-! # Machines that read a stream symbol by symbol

A *feeder* consumes one symbol at a time and says after each symbol whether it
wants more, accepts, rejects or halts. `feed` runs it over a buffer and reports
how many symbols it used. The rule of this file is `feed_append`: a machine
whose progress lives in its state cannot see where a buffer was cut.
-/

namespace Feed

/-- What a machine says after one symbol. -/
inductive Flow where
  | more
  | accept
  | reject
  | halt
deriving DecidableEq, Repr

/-- The result of a run over a buffer: final state, last answer, symbols used. -/
structure Fed (σ : Type*) where
  state : σ
  flow : Flow
  used : Nat

variable {σ α : Type*} (step : σ → α → σ × Flow)

/-- Run the machine over a buffer until it stops asking for more. -/
def feed : σ → List α → Fed σ
  | s, [] => ⟨s, .more, 0⟩
  | s, c :: cs =>
    match step s c with
    | (s', .more) =>
      let r := feed s' cs
      ⟨r.state, r.flow, r.used + 1⟩
    | (s', f) => ⟨s', f, 1⟩

@[simp] lemma feed_nil (s : σ) : feed step s [] = ⟨s, .more, 0⟩ := rfl

variable {step}

variable {s t u : σ} {xs ys : List α} {G : σ → α → Prop}

lemma feed_cons_more {s' : σ} {c : α} {cs : List α} (h : step s c = (s', .more)) :
    feed step s (c :: cs) =
      ⟨(feed step s' cs).state, (feed step s' cs).flow, (feed step s' cs).used + 1⟩ := by
  simp [feed, h]

lemma feed_cons_stop {s' : σ} {c : α} {cs : List α} {f : Flow} (h : step s c = (s', f))
    (hf : f ≠ .more) : feed step s (c :: cs) = ⟨s', f, 1⟩ := by
  cases f with
  | more => exact absurd rfl hf
  | accept => simp [feed, h]
  | reject => simp [feed, h]
  | halt => simp [feed, h]

lemma used_le_length (s : σ) (xs : List α) : (feed step s xs).used ≤ xs.length := by
  induction xs generalizing s with
  | nil => simp
  | cons c cs ih =>
    rcases hstep : step s c with ⟨s', f⟩
    by_cases hf : f = .more
    · subst hf
      rw [feed_cons_more hstep]
      simpa using ih s'
    · rw [feed_cons_stop hstep hf]
      simp

/-- A machine that asks for more has used the whole buffer. -/
lemma used_of_more (h : (feed step s xs).flow = .more) : (feed step s xs).used = xs.length := by
  induction xs generalizing s with
  | nil => rfl
  | cons c cs ih =>
    rcases hstep : step s c with ⟨s', f⟩
    by_cases hf : f = .more
    · subst hf
      rw [feed_cons_more hstep] at h ⊢
      simpa using ih h
    · rw [feed_cons_stop hstep hf] at h
      exact absurd h hf

/-- A stop inside the first part of a buffer does not depend on the rest. -/
lemma feed_append_of_stop (ys : List α) (h : (feed step s xs).flow ≠ .more) :
    feed step s (xs ++ ys) = feed step s xs := by
  induction xs generalizing s with
  | nil => simp at h
  | cons c cs ih =>
    rcases hstep : step s c with ⟨s', f⟩
    by_cases hf : f = .more
    · subst hf
      rw [feed_cons_more hstep] at h
      rw [List.cons_append, feed_cons_more hstep, feed_cons_more hstep, ih h]
    · rw [List.cons_append, feed_cons_stop hstep hf, feed_cons_stop hstep hf]

/-- The append rule: after a part that asked for more, the run goes on from the
state reached there. -/
lemma feed_append (ys : List α) (h : (feed step s xs).flow = .more) :
    feed step s (xs ++ ys) =
      ⟨(feed step (feed step s xs).state ys).state,
        (feed step (feed step s xs).state ys).flow,
        xs.length + (feed step (feed step s xs).state ys).used⟩ := by
  induction xs generalizing s with
  | nil => simp
  | cons c cs ih =>
    rcases hstep : step s c with ⟨s', f⟩
    by_cases hf : f = .more
    · subst hf
      rw [feed_cons_more hstep] at h
      rw [List.cons_append, feed_cons_more hstep, feed_cons_more hstep, ih h]
      simp [Nat.add_assoc, Nat.add_comm 1]
    · rw [feed_cons_stop hstep hf] at h
      exact absurd h hf

/-! ## Runs as a relation

`Leads s xs t`: the machine reads all of `xs`, gets from `s` to `t` and asks for
more. `Accepts s xs t`: it reads all of `xs` and accepts at the last symbol. The
rules below compose the run over a message from the runs over its parts.
-/

/-- `xs` takes the machine from `s` to `t`, still asking for more. -/
def Leads (step : σ → α → σ × Flow) (s : σ) (xs : List α) (t : σ) : Prop :=
  feed step s xs = ⟨t, .more, xs.length⟩

/-- The machine accepts at the last symbol of `xs`. -/
def Accepts (step : σ → α → σ × Flow) (s : σ) (xs : List α) (t : σ) : Prop :=
  feed step s xs = ⟨t, .accept, xs.length⟩

lemma Leads.nil (s : σ) : Leads step s [] s := rfl

lemma Leads.one {c : α} (h : step s c = (t, .more)) : Leads step s [c] t := by
  simp [Leads, feed_cons_more h]

lemma Accepts.one {c : α} (h : step s c = (t, .accept)) : Accepts step s [c] t := by
  simp [Accepts, feed_cons_stop h]

lemma Leads.append (h : Leads step s xs t) (h' : Leads step t ys u) :
    Leads step s (xs ++ ys) u := by
  unfold Leads at *
  rw [feed_append ys (by rw [h])]
  simp [h, h']

lemma Leads.accepts (h : Leads step s xs t) (h' : Accepts step t ys u) :
    Accepts step s (xs ++ ys) u := by
  unfold Leads at h
  unfold Accepts at *
  rw [feed_append ys (by rw [h])]
  simp [h, h']

/-- What follows an accepted message is not looked at. -/
lemma Accepts.feed_append (h : Accepts step s xs t) (ys : List α) :
    feed step s (xs ++ ys) = ⟨t, .accept, xs.length⟩ := by
  unfold Accepts at h
  rw [feed_append_of_stop ys (by simp [h]), h]

/-- In front of its last symbol an accepted message leaves the machine asking for
more. -/
lemma Accepts.flow_of_prefix {zs : List α} (h : Accepts step s xs t) (hzs : zs <+: xs)
    (hne : zs ≠ xs) : (feed step s zs).flow = .more := by
  obtain ⟨ys, rfl⟩ := hzs
  by_contra hstop
  have hused : (feed step s zs).used ≤ zs.length := used_le_length s zs
  unfold Accepts at h
  rw [feed_append_of_stop ys hstop] at h
  have hys : ys ≠ [] := by
    rintro rfl
    simp at hne
  have hpos := List.length_pos_iff.mpr hys
  simp only [h, List.length_append] at hused
  omega

/-- A stretch of symbols that the machine collects: `g` names the state by what
has been collected so far. -/
lemma Leads.collect {g : List α → σ}
    (h : ∀ zs c ws, xs = zs ++ c :: ws → step (g zs) c = (g (zs ++ [c]), .more)) :
    Leads step (g []) xs (g xs) := by
  induction xs using List.reverseRecOn with
  | nil => exact Leads.nil _
  | append_singleton ys c ih =>
    refine Leads.append (ih ?_) (Leads.one (h ys c [] rfl))
    intro zs d ws hys
    exact h zs d (ws ++ [c]) (by simp [hys])

/-- State relations carry over whole buffers: two machines that answer alike on
related states, and stay related while they ask for more, answer alike on every
buffer and use the same number of symbols. -/
lemma feed_rel {τ : Type*} {step' : τ → α → τ × Flow} {R : σ → τ → Prop}
    (hstep : ∀ s t c, R s t → (step s c).2 = (step' t c).2 ∧ R (step s c).1 (step' t c).1) {t : τ}
    (h : R s t) (xs : List α) :
    (feed step s xs).flow = (feed step' t xs).flow ∧
      (feed step s xs).used = (feed step' t xs).used ∧
      R (feed step s xs).state (feed step' t xs).state := by
  induction xs generalizing s t with
  | nil => exact ⟨rfl, rfl, h⟩
  | cons c cs ih =>
    obtain ⟨hflow, hrel⟩ := hstep s t c h
    rcases hs : step s c with ⟨s', f⟩
    rcases ht : step' t c with ⟨t', g⟩
    rw [hs, ht] at hflow hrel
    have hfg : f = g := hflow
    subst hfg
    by_cases hf : f = .more
    · subst hf
      rw [feed_cons_more hs, feed_cons_more ht]
      obtain ⟨h1, h2, h3⟩ := ih hrel
      exact ⟨h1, by simp [h2], h3⟩
    · rw [feed_cons_stop hs hf, feed_cons_stop ht hf]
      exact ⟨rfl, rfl, hrel⟩

/-! ## Guarded runs

`Guarded G s xs`: every step that the run over `xs` takes meets `G`, a condition
on the state in front of the step and the symbol read. An invariant is indexed by
the machine's last answer, so that one predicate says what holds while the
machine asks for more and what it leaves behind when it stops.
-/

/-- Every step of the run over a buffer meets `G`. -/
def Guarded (step : σ → α → σ × Flow) (G : σ → α → Prop) : σ → List α → Prop
  | _, [] => True
  | s, c :: cs => G s c ∧ ((step s c).2 = .more → Guarded step G (step s c).1 cs)

instance Guarded.decidable {G : σ → α → Prop} [∀ s c, Decidable (G s c)] :
    (s : σ) → (xs : List α) → Decidable (Guarded step G s xs)
  | _, [] => .isTrue trivial
  | s, c :: cs =>
    have := Guarded.decidable (G := G) (step s c).1 cs
    inferInstanceAs (Decidable (G s c ∧ ((step s c).2 = .more → Guarded step G (step s c).1 cs)))

/-- The invariant rule for guarded runs. -/
lemma Guarded.invariant {I : Flow → σ → Prop}
    (hstep : ∀ s c, I .more s → G s c → I (step s c).2 (step s c).1) (hguard : Guarded step G s xs)
    (h : I .more s) :
    I (feed step s xs).flow (feed step s xs).state := by
  induction xs generalizing s with
  | nil => exact h
  | cons c cs ih =>
    have hc := hstep s c h hguard.1
    have hrest := hguard.2
    rcases hs : step s c with ⟨s', f⟩
    rw [hs] at hc hrest
    by_cases hf : f = .more
    · subst hf
      rw [feed_cons_more hs]
      exact ih (hrest rfl) hc
    · rw [feed_cons_stop hs hf]
      exact hc

/-- The invariant rule for runs without a guard. -/
lemma feed_invariant {I : Flow → σ → Prop}
    (hstep : ∀ s c, I .more s → I (step s c).2 (step s c).1) (h : I .more s) (xs : List α) :
    I (feed step s xs).flow (feed step s xs).state := by
  have hguard : Guarded step (fun _ _ => True) s xs := by
    induction xs generalizing s with
    | nil => trivial
    | cons c cs ih =>
      refine ⟨trivial, fun hmore => ?_⟩
      have hc := hstep s c h
      rw [hmore] at hc
      exact ih hc
  exact hguard.invariant (fun s c hs _ => hstep s c hs) h

/-- A guard can be read off the result: at every step that the run takes, what
the invariant says there and what the run ends in give the guard. -/
lemma Guarded.of_result {I : σ → Prop} {R : Flow → σ → Prop}
    (hstep : ∀ s c, I s → G s c → (step s c).2 = .more → I (step s c).1)
    (hguard : ∀ s c cs, I s → R (feed step s (c :: cs)).flow (feed step s (c :: cs)).state → G s c)
    (h : I s) (hend : R (feed step s xs).flow (feed step s xs).state) : Guarded step G s xs := by
  induction xs generalizing s with
  | nil => trivial
  | cons c cs ih =>
    have hc := hguard s c cs h hend
    refine ⟨hc, fun hmore => ?_⟩
    apply ih (hstep s c h hc hmore)
    rw [feed_cons_more (Prod.ext rfl hmore : step s c = ((step s c).1, .more))] at hend
    exact hend

/-- A guarded run over two parts is guarded over each of them. -/
lemma Leads.guarded_append (h : Leads step s xs t) (ys : List α) :
    Guarded step G s (xs ++ ys) ↔ Guarded step G s xs ∧ Guarded step G t ys := by
  induction xs generalizing s with
  | nil =>
    have hst : s = t := congrArg Fed.state h
    simp [Guarded, hst]
  | cons c cs ih =>
    rcases hs : step s c with ⟨s', f⟩
    unfold Leads at h
    by_cases hf : f = .more
    · subst hf
      rw [feed_cons_more hs] at h
      simp only [Fed.mk.injEq, List.length_cons, Nat.add_right_cancel_iff] at h
      have hrest : Leads step s' cs t := by
        unfold Leads
        rw [← h.1, ← h.2.1, ← h.2.2]
      simp [Guarded, hs, ih hrest, and_assoc]
    · rw [feed_cons_stop hs hf] at h
      exact absurd (congrArg Fed.flow h) hf

/-- A stretch of a run whose steps all meet the guard. -/
structure GuardedLeads (step : σ → α → σ × Flow) (G : σ → α → Prop) (s : σ) (xs : List α)
    (t : σ) : Prop where
  leads : Leads step s xs t
  guarded : Guarded step G s xs

lemma GuardedLeads.nil (s : σ) : GuardedLeads step G s [] s :=
  ⟨Leads.nil s, trivial⟩

lemma GuardedLeads.one {c : α} (h : step s c = (t, .more)) (hc : G s c) :
    GuardedLeads step G s [c] t :=
  ⟨Leads.one h, hc, fun _ => trivial⟩

lemma GuardedLeads.append (h : GuardedLeads step G s xs t) (h' : GuardedLeads step G t ys u) :
    GuardedLeads step G s (xs ++ ys) u :=
  ⟨h.leads.append h'.leads, (h.leads.guarded_append ys).mpr ⟨h.guarded, h'.guarded⟩⟩

lemma GuardedLeads.collect {g : List α → σ}
    (h : ∀ zs c ws, xs = zs ++ c :: ws → step (g zs) c = (g (zs ++ [c]), .more) ∧ G (g zs) c) :
    GuardedLeads step G (g []) xs (g xs) := by
  induction xs using List.reverseRecOn with
  | nil => exact GuardedLeads.nil _
  | append_singleton ys c ih =>
    obtain ⟨hstep, hc⟩ := h ys c [] rfl
    refine GuardedLeads.append (ih ?_) (GuardedLeads.one hstep hc)
    intro zs d ws hys
    exact h zs d (ws ++ [c]) (by simp [hys])

/-! ## Ghosts

A ghost is updated by every step and read by none: it records what the machine
itself forgets.
-/

section Ghost

variable {τ : Type*} (upd : τ → σ → α → τ)

/-- The machine with a ghost beside its state. -/
def track (step : σ → α → σ × Flow) (s : τ × σ) (c : α) : (τ × σ) × Flow :=
  ((upd s.1 s.2 c, (step s.2 c).1), (step s.2 c).2)

/-- The ghost changes nothing. -/
lemma feed_track (step : σ → α → σ × Flow) (g : τ) (s : σ) (xs : List α) :
    (feed (track upd step) (g, s) xs).flow = (feed step s xs).flow ∧
      (feed (track upd step) (g, s) xs).used = (feed step s xs).used ∧
      (feed (track upd step) (g, s) xs).state.2 = (feed step s xs).state := by
  refine feed_rel (R := fun (gs : τ × σ) t => gs.2 = t) ?_ rfl xs
  rintro ⟨g, s⟩ t c rfl
  exact ⟨rfl, rfl⟩

variable {upd} in
lemma Leads.of_track {g g' : τ} {s t : σ} {xs : List α}
    (h : Leads (track upd step) (g, s) xs (g', t)) : Leads step s xs t := by
  obtain ⟨hflow, hused, hstate⟩ := feed_track upd step g s xs
  unfold Leads at h ⊢
  rw [h] at hflow hused hstate
  rcases hfed : feed step s xs with ⟨t', f', u'⟩
  rw [hfed] at hflow hused hstate
  simp_all

/-- A guard that does not look at the ghost. -/
lemma guarded_track {G : σ → α → Prop} (g : τ) (s : σ) (xs : List α) :
    Guarded (track upd step) (fun gs c => G gs.2 c) (g, s) xs ↔ Guarded step G s xs := by
  induction xs generalizing g s with
  | nil => simp [Guarded]
  | cons c cs ih => simp [Guarded, track, ih]

/-- A list that every step extends: what it holds after the first step is in what
it holds at the end. -/
lemma track_extends {β : Type*} {upd : List β → σ → α → List β} (step : σ → α → σ × Flow)
    (hupd : ∀ g s c, g <+: upd g s c) (g : List β) (s : σ) (c : α) (cs : List α) :
    upd g s c <+: (feed (track upd step) (g, s) (c :: cs)).state.1 := by
  have hgrows : ∀ (t : List β × σ), t.1 <+: (feed (track upd step) t cs).state.1 := by
    intro t
    refine feed_invariant (I := fun _ (u : List β × σ) => t.1 <+: u.1) ?_ (List.prefix_refl _) cs
    intro u d hu
    exact hu.trans (hupd u.1 u.2 d)
  rcases hs : track upd step (g, s) c with ⟨s', f⟩
  have hs' : s'.1 = upd g s c := by rw [← congrArg (fun x => x.1.1) hs]; rfl
  rw [← hs']
  by_cases hf : f = .more
  · subst hf
    rw [feed_cons_more hs]
    exact hgrows s'
  · have hlast : (feed (track upd step) (g, s) (c :: cs)).state.1 = s'.1 := by
      rw [feed_cons_stop hs hf]
    exact hlast ▸ List.prefix_refl _

/-- The ghost that keeps every symbol holds what the run used. -/
lemma track_used (step : σ → α → σ × Flow) (g : List α) (s : σ) (xs : List α) :
    (feed (track (fun g _ c => g ++ [c]) step) (g, s) xs).state.1 =
      g ++ xs.take (feed step s xs).used := by
  induction xs generalizing g s with
  | nil => simp
  | cons c cs ih =>
    rcases hs : step s c with ⟨s', f⟩
    have htrack : track (fun g _ c => g ++ [c]) step (g, s) c = ((g ++ [c], s'), f) := by
      simp [track, hs]
    by_cases hf : f = .more
    · subst hf
      rw [feed_cons_more hs, feed_cons_more htrack, ih]
      simp
    · rw [feed_cons_stop hs hf, feed_cons_stop htrack hf]
      simp

end Ghost

end Feed
