import EpollGateway.Handler.Limits
import Mathlib.Data.Rat.Floor
import Mathlib.Tactic.Linarith
import Mathlib.Tactic.Positivity
import Mathlib.Tactic.Ring

/-! # The account of a token bucket

A `RateLimiter` refills when it is asked: the whole part of what has come in since the
last call goes to the tokens, up to the capacity, and the rest is carried on as a
fraction. Here a limiter is followed through any sequence of calls, with the times of the
calls that it granted and with what it threw away at the capacity.

The tokens never exceed the capacity. The fraction and the number of grants in a window of
time are bounded as long as the whole part of every refill is a `size_t`, which is what the
cast of the source needs. What was granted, held and thrown away adds up to the capacity and
the refill as long as the sum `tokens_ + whole` is one (`bucket_account`). Both hold for all
limits that a configuration may have. Otherwise the sum wraps, and a full bucket may be
emptied (`full_bucket_emptied`).
-/

namespace EpollGateway.Handler

/-- A time of the clock in seconds. -/
def seconds (t : Nat) : Rat := t / (10 ^ 9 : Nat)

variable {b last now start : Nat} {times : List Nat}

lemma seconds_mono {a : Nat} (h : a ≤ b) : seconds a ≤ seconds b := by
  unfold seconds
  gcongr

lemma seconds_sub {a : Nat} (h : a ≤ b) : seconds (b - a) = seconds b - seconds a := by
  unfold seconds
  rw [Nat.cast_sub h]
  ring

/-- At most one token comes in for each nanosecond. -/
lemma seconds_mul_le (n : Nat) {rate : Nat} (hrate : rate ≤ 10 ^ 9) : seconds n * rate ≤ n := by
  unfold seconds
  rw [div_mul_eq_mul_div, div_le_iff₀ (by positivity)]
  exact_mod_cast Nat.mul_le_mul_left n hrate

namespace RateLimiter

/-! ## One call -/

def newTokens (l : RateLimiter) (now : Nat) : Rat :=
  seconds (now - l.lastRefill) * l.refillPerSecond + l.tokensFraction

def whole (l : RateLimiter) (now : Nat) : Nat := (l.newTokens now).floor.toNat

/-- The tokens after the refill. -/
def refilled (l : RateLimiter) (now : Nat) : Nat :=
  if l.whole now > 0 then min l.capacity (SizeT.add l.tokens (l.whole now)) else l.tokens

lemma tryAcquire_eq (l : RateLimiter) (now : Nat) :
    l.tryAcquire now =
      ({ l with
          tokens := l.refilled now - 1
          lastRefill := now
          tokensFraction := l.newTokens now - l.whole now }, decide (0 < l.refilled now)) := by
  have hsplit : l.tryAcquire now =
      if l.refilled now > 0 then
        ({ l with
            tokens := l.refilled now - 1
            lastRefill := now
            tokensFraction := l.newTokens now - l.whole now }, true)
      else
        ({ l with
            tokens := l.refilled now
            lastRefill := now
            tokensFraction := l.newTokens now - l.whole now }, false) := rfl
  rw [hsplit]
  split
  · rename_i hpos
    rw [decide_eq_true hpos]
  · rename_i hzero
    rw [decide_eq_false hzero, Nat.eq_zero_of_not_pos hzero]

/-- The bounds that every limiter keeps. -/
structure Sound (l : RateLimiter) : Prop where
  tokens_le : l.tokens ≤ l.capacity
  fraction_nonneg : 0 ≤ l.tokensFraction
  fraction_lt : l.tokensFraction < 1

lemma sound_new (config : RateLimitConfig) (now : Nat) : (RateLimiter.new config now).Sound :=
  ⟨Nat.le_refl _, le_refl _, one_pos⟩

variable {l : RateLimiter}

/-- What has come in: the whole part is the floor. -/
lemma whole_le (h : l.Sound) (now : Nat) :
    (l.whole now : Rat) ≤ l.newTokens now ∧ l.newTokens now < l.whole now + 1 := by
  have hnonneg : 0 ≤ l.newTokens now := by
    have hf := h.fraction_nonneg
    unfold newTokens seconds
    positivity
  have hfloor : 0 ≤ (l.newTokens now).floor := Rat.le_floor_iff.mpr (by exact_mod_cast hnonneg)
  have hcast : (l.whole now : Rat) = ((l.newTokens now).floor : Rat) := by
    unfold whole
    exact_mod_cast Int.toNat_of_nonneg hfloor
  rw [hcast]
  refine ⟨Rat.floor_le _, ?_⟩
  exact_mod_cast Rat.lt_floor_add_one (l.newTokens now)

lemma refilled_le (h : l.Sound) (now : Nat) :
    l.refilled now ≤ l.capacity ∧ l.refilled now ≤ l.tokens + l.whole now := by
  unfold refilled
  split
  · refine ⟨Nat.min_le_left _ _, (Nat.min_le_right _ _).trans ?_⟩
    exact Nat.mod_le _ _
  · exact ⟨h.tokens_le, Nat.le_add_right _ _⟩

lemma Sound.tryAcquire (h : l.Sound) (now : Nat) : (l.tryAcquire now).1.Sound := by
  have hwhole := whole_le h now
  have hle := (refilled_le h now).1
  rw [tryAcquire_eq]
  exact ⟨(Nat.sub_le _ _).trans hle, by linarith [hwhole.1], by linarith [hwhole.2]⟩

/-- Tokens and fraction together. -/
def level (l : RateLimiter) : Rat := l.tokens + l.tokensFraction

/-- The tokens that one call takes. -/
def taken (l : RateLimiter) (now : Nat) : Nat := if (l.tryAcquire now).2 then 1 else 0

/-- What one call throws away at the capacity. -/
def spilled (l : RateLimiter) (now : Nat) : Nat := l.tokens + l.whole now - l.capacity

/-- The sum of `tokens_` and `whole` is a `size_t`. -/
def Fits (l : RateLimiter) (now : Nat) : Prop := l.tokens + l.whole now < 2 ^ 64

/-- The cast of the refill to `size_t` is defined. -/
def Casts (l : RateLimiter) (now : Nat) : Prop := l.newTokens now < 2 ^ 64

lemma taken_eq (l : RateLimiter) (now : Nat) :
    l.taken now = if 0 < l.refilled now then 1 else 0 := by
  unfold taken
  rw [tryAcquire_eq]
  simp only [decide_eq_true_eq]

lemma taken_add_tokens (l : RateLimiter) (now : Nat) :
    l.taken now + (l.tryAcquire now).1.tokens = l.refilled now := by
  have htokens : (l.tryAcquire now).1.tokens = l.refilled now - 1 := by
    rw [tryAcquire_eq]
  rw [taken_eq, htokens]
  generalize l.refilled now = n
  split <;> omega

lemma level_tryAcquire (l : RateLimiter) (now : Nat) :
    l.taken now + (l.tryAcquire now).1.level =
      l.refilled now + (l.newTokens now - l.whole now) := by
  have htaken := taken_add_tokens l now
  have hfraction : (l.tryAcquire now).1.tokensFraction = l.newTokens now - l.whole now := by
    rw [tryAcquire_eq]
  unfold level
  rw [hfraction, ← htaken, Nat.cast_add]
  ring

variable {now : Nat}

/-- A call never takes more than the bucket had and what came in. -/
lemma level_tryAcquire_le (h : l.Sound) (hnow : l.lastRefill ≤ now) :
    l.taken now + (l.tryAcquire now).1.level ≤
      l.level + (seconds now - seconds l.lastRefill) * l.refillPerSecond := by
  have hrefilled : (l.refilled now : Rat) ≤ l.tokens + l.whole now := by
    exact_mod_cast (refilled_le h now).2
  rw [level_tryAcquire, ← seconds_sub hnow]
  unfold newTokens level
  linarith

/-- Nor more than a full bucket and a fraction. -/
lemma level_tryAcquire_lt (h : l.Sound) (now : Nat) :
    l.taken now + (l.tryAcquire now).1.level < l.capacity + 1 := by
  have hrefilled : (l.refilled now : Rat) ≤ l.capacity := by
    exact_mod_cast (refilled_le h now).1
  rw [level_tryAcquire]
  linarith [(whole_le h now).2]

lemma refilled_add_spilled (h : l.Sound) (hfits : l.Fits now) :
    l.refilled now + l.spilled now = l.tokens + l.whole now := by
  have htokens := h.tokens_le
  unfold refilled spilled
  split
  · rw [SizeT.add_eq hfits]
    omega
  · omega

/-- If the sum fits, the account of a call is exact. -/
lemma level_tryAcquire_eq (h : l.Sound) (hnow : l.lastRefill ≤ now) (hfits : l.Fits now) :
    l.taken now + (l.tryAcquire now).1.level + l.spilled now =
      l.level + (seconds now - seconds l.lastRefill) * l.refillPerSecond := by
  have hsum : (l.refilled now : Rat) + l.spilled now = l.tokens + l.whole now := by
    exact_mod_cast refilled_add_spilled h hfits
  rw [level_tryAcquire, ← seconds_sub hnow]
  unfold newTokens level
  linarith

lemma Fits.casts (hfits : l.Fits now) (h : l.Sound) : l.Casts now := by
  have hwhole : (l.whole now : Rat) + 1 ≤ 2 ^ 64 := by
    unfold Fits at hfits
    exact_mod_cast (by omega : l.whole now + 1 ≤ 2 ^ 64)
  exact lt_of_lt_of_le (whole_le h now).2 hwhole

lemma fits_of_bounds (h : l.Sound) (hcap : l.capacity ≤ 10 ^ 9)
    (hrate : l.refillPerSecond ≤ 10 ^ 9) (hnow : now < 2 ^ 63) : l.Fits now := by
  have htokens := h.tokens_le
  have hwhole : l.whole now < 2 ^ 63 + 1 := by
    have hrefill := seconds_mul_le (now - l.lastRefill) hrate
    have hgap : ((now - l.lastRefill : Nat) : Rat) < 2 ^ 63 := by
      exact_mod_cast lt_of_le_of_lt (Nat.sub_le _ _) hnow
    have hnew : l.newTokens now < 2 ^ 63 + 1 := by
      unfold newTokens
      linarith [h.fraction_lt]
    exact_mod_cast lt_of_le_of_lt (whole_le h now).1 hnew
  unfold Fits
  omega

end RateLimiter

/-! ## Sequences of calls -/

/-- A limiter with the times of the calls that it granted, and with what it threw away. -/
structure Account where
  limiter : RateLimiter
  grants : List Nat := []
  discarded : Nat := 0

def Account.call (s : Account) (now : Nat) : Account :=
  { limiter := (s.limiter.tryAcquire now).1
    grants := if (s.limiter.tryAcquire now).2 then s.grants ++ [now] else s.grants
    discarded := s.discarded + s.limiter.spilled now }

/-- The limiter is made at `start` and then called at the given times. -/
def Account.run (config : RateLimitConfig) (start : Nat) (times : List Nat) : Account :=
  times.foldl Account.call { limiter := .new config start }

/-- The grants from `a` on for `d` seconds. -/
def Account.within (s : Account) (a d : Rat) : Nat :=
  (s.grants.filter fun t => a ≤ seconds t ∧ seconds t ≤ a + d).length

lemma Account.run_concat (config : RateLimitConfig) (start : Nat) (times : List Nat) (now : Nat) :
    Account.run config start (times ++ [now]) = (Account.run config start times).call now := by
  unfold Account.run
  rw [List.foldl_append]
  rfl

lemma Account.length_call (s : Account) (now : Nat) :
    (s.call now).grants.length = s.grants.length + s.limiter.taken now := by
  unfold Account.call RateLimiter.taken
  dsimp only
  split
  · exact List.length_append
  · rfl

lemma Account.within_call (s : Account) (now : Nat) (a d : Rat) :
    (s.call now).within a d = s.within a d +
      if a ≤ seconds now ∧ seconds now ≤ a + d then s.limiter.taken now else 0 := by
  unfold Account.within Account.call RateLimiter.taken
  dsimp only
  split
  · rw [List.filter_append, List.length_append, List.filter_singleton]
    by_cases hin : a ≤ seconds now ∧ seconds now ≤ a + d
    · rw [decide_eq_true hin, if_pos hin]
      rfl
    · rw [decide_eq_false hin, if_neg hin]
      rfl
  · rw [ite_self, Nat.add_zero]

/-- A limiter of the configuration, called last at the given time, within its bounds. -/
structure Account.Kept (config : RateLimitConfig) (last : Nat) (s : Account) : Prop where
  sound : s.limiter.Sound
  config_eq : s.limiter.config = config
  last_eq : s.limiter.lastRefill = last

lemma Account.run_kept (config : RateLimitConfig) (start : Nat) (times : List Nat) :
    (Account.run config start times).Kept config (times.getLastD start) := by
  induction times using List.reverseRecOn with
  | nil => exact ⟨RateLimiter.sound_new config start, rfl, rfl⟩
  | append_singleton times now ih =>
    rw [Account.run_concat, List.getLastD_concat]
    refine ⟨ih.sound.tryAcquire now, ?_, ?_⟩
    · exact (RateLimiter.tryAcquire_config _ now).trans ih.config_eq
    · unfold Account.call
      rw [RateLimiter.tryAcquire_eq]

variable {config : RateLimitConfig}

lemma Account.Kept.capacity_eq {s : Account} (h : s.Kept config last) :
    s.limiter.capacity = config.capacity :=
  congrArg RateLimitConfig.capacity h.config_eq

lemma Account.Kept.refill_eq {s : Account} (h : s.Kept config last) :
    s.limiter.refillPerSecond = config.refillPerSecond :=
  congrArg RateLimitConfig.refillPerSecond h.config_eq

/-- Times that do not decrease: the next one is not before the last. -/
lemma getLastD_le_of_pairwise (h : (start :: (times ++ [now])).Pairwise (· ≤ ·)) :
    (start :: times).Pairwise (· ≤ ·) ∧ times.getLastD start ≤ now := by
  rw [← List.cons_append, List.pairwise_append] at h
  exact ⟨h.1, h.2.2 _ List.getLastD_mem_cons now (List.mem_singleton_self now)⟩

/-! ## Windows -/

/-- The grants of a window so far: none before it, and within it no more than a full bucket
with its fraction and what has come in since its beginning. -/
structure Account.Windowed (config : RateLimitConfig) (a d : Rat) (s : Account) : Prop where
  before : seconds s.limiter.lastRefill < a → s.within a d = 0
  during : a ≤ seconds s.limiter.lastRefill → seconds s.limiter.lastRefill ≤ a + d →
    s.within a d + s.limiter.level <
      config.capacity + 1 + config.refillPerSecond * (seconds s.limiter.lastRefill - a)
  bound : (s.within a d : Rat) < config.capacity + config.refillPerSecond * d + 1

lemma Account.Windowed.call {a d : Rat} {s : Account} (h : s.Windowed config a d)
    (hkept : s.Kept config last) (hnow : last ≤ now) : (s.call now).Windowed config a d := by
  have hlast : seconds s.limiter.lastRefill ≤ seconds now := by
    rw [hkept.last_eq]
    exact seconds_mono hnow
  have hrate : (0 : Rat) ≤ config.refillPerSecond := Nat.cast_nonneg _
  have hsound := hkept.sound.tryAcquire now
  have hat : (s.call now).limiter.lastRefill = now := by
    unfold Account.call
    rw [RateLimiter.tryAcquire_eq]
  have hwithin := s.within_call now a d
  -- the level after a call in the window
  have hduring : a ≤ seconds now → seconds now ≤ a + d →
      ((s.call now).within a d : Rat) + (s.call now).limiter.level <
        config.capacity + 1 + config.refillPerSecond * (seconds now - a) := by
    intro hfrom hto
    rw [hwithin, if_pos ⟨hfrom, hto⟩, Nat.cast_add]
    rcases lt_or_ge (seconds s.limiter.lastRefill) a with hbefore | hin
    · -- the first call of the window
      have hfull := RateLimiter.level_tryAcquire_lt hkept.sound now
      have hrefill : 0 ≤ config.refillPerSecond * (seconds now - a) :=
        mul_nonneg hrate (sub_nonneg.mpr hfrom)
      rw [hkept.capacity_eq] at hfull
      rw [h.before hbefore, Nat.cast_zero, zero_add]
      exact lt_of_lt_of_le hfull (le_add_of_nonneg_right hrefill)
    · have hstep := RateLimiter.level_tryAcquire_le hkept.sound (hkept.last_eq ▸ hnow)
      have hprev := h.during hin (hlast.trans hto)
      rw [hkept.refill_eq] at hstep
      unfold Account.call
      dsimp only
      linarith
  constructor
  · intro hbefore
    rw [hat] at hbefore
    rw [hwithin, if_neg (fun hin => absurd hin.1 (not_le.mpr hbefore)), Nat.add_zero]
    exact h.before (lt_of_le_of_lt hlast hbefore)
  · intro hfrom hto
    rw [hat] at hfrom hto ⊢
    exact hduring hfrom hto
  · by_cases hin : a ≤ seconds now ∧ seconds now ≤ a + d
    · have hlevel : 0 ≤ (s.call now).limiter.level :=
        add_nonneg (Nat.cast_nonneg _) hsound.fraction_nonneg
      have hmul : config.refillPerSecond * (seconds now - a) ≤ config.refillPerSecond * d :=
        mul_le_mul_of_nonneg_left (by linarith [hin.2]) hrate
      linarith [hduring hin.1 hin.2]
    · rw [hwithin, if_neg hin, Nat.add_zero]
      exact h.bound

lemma Account.run_windowed (config : RateLimitConfig) (start : Nat)
    (htimes : (start :: times).Pairwise (· ≤ ·)) {a d : Rat} (hd : 0 ≤ d) :
    (Account.run config start times).Windowed config a d := by
  have hrate : (0 : Rat) ≤ config.refillPerSecond := Nat.cast_nonneg _
  induction times using List.reverseRecOn with
  | nil =>
    have hzero : (Account.run config start []).within a d = 0 := rfl
    have hlevel : (Account.run config start []).limiter.level = config.capacity := add_zero _
    have hcap : (0 : Rat) ≤ config.capacity := Nat.cast_nonneg _
    refine ⟨fun _ => rfl, ?_, ?_⟩
    · intro hfrom _
      rw [hzero, hlevel, Nat.cast_zero, zero_add]
      have hrefill := mul_nonneg hrate (sub_nonneg.mpr hfrom)
      linarith
    · rw [hzero, Nat.cast_zero]
      have hrefill := mul_nonneg hrate hd
      linarith
  | append_singleton times now ih =>
    rcases getLastD_le_of_pairwise htimes with ⟨hpairs, hnow⟩
    rw [Account.run_concat]
    exact (ih hpairs).call (Account.run_kept config start times) hnow

/-! ## The whole account -/

/-- No call of the sequence makes the sum of `tokens_` and `whole` wrap. -/
def Account.AllFit (config : RateLimitConfig) (start : Nat) (times : List Nat) : Prop :=
  ∀ before now after, times = before ++ now :: after →
    (Account.run config start before).limiter.Fits now

/-- The cast of every call of the sequence is defined. -/
def Account.AllCast (config : RateLimitConfig) (start : Nat) (times : List Nat) : Prop :=
  ∀ before now after, times = before ++ now :: after →
    (Account.run config start before).limiter.Casts now

lemma Account.AllFit.allCast (h : Account.AllFit config start times) :
    Account.AllCast config start times := fun before now after heq =>
  (h before now after heq).casts (Account.run_kept config start before).sound

lemma Account.run_balance (config : RateLimitConfig) (start : Nat)
    (htimes : (start :: times).Pairwise (· ≤ ·)) (hfit : Account.AllFit config start times) :
    (Account.run config start times).grants.length +
          (Account.run config start times).limiter.level +
        (Account.run config start times).discarded =
      config.capacity +
        config.refillPerSecond * (seconds (times.getLastD start) - seconds start) := by
  induction times using List.reverseRecOn with
  | nil =>
    have hlevel : (Account.run config start []).limiter.level = config.capacity := add_zero _
    rw [hlevel, List.getLastD_nil, sub_self, mul_zero]
    simp [Account.run]
  | append_singleton times now ih =>
    rcases getLastD_le_of_pairwise htimes with ⟨hpairs, hnow⟩
    have hprev := ih hpairs fun before now' after heq =>
      hfit before now' (after ++ [now]) (by rw [heq, List.append_assoc, List.cons_append])
    have hkept := Account.run_kept config start times
    have hstep := RateLimiter.level_tryAcquire_eq hkept.sound (hkept.last_eq ▸ hnow)
      (hfit times now [] rfl)
    rw [hkept.refill_eq, hkept.last_eq] at hstep
    rw [Account.run_concat, Account.length_call, List.getLastD_concat]
    unfold Account.call
    dsimp only
    rw [Nat.cast_add, Nat.cast_add]
    linarith

/-- With the limits that a configuration may have, and times of the clock, every sum fits. -/
lemma Account.allFit_of_config (hcap : config.capacity ≤ 10 ^ 9)
    (hrate : config.refillPerSecond ≤ 10 ^ 9) (hclock : ∀ t ∈ times, t < 2 ^ 63) :
    Account.AllFit config start times := by
  rintro before now after rfl
  have hkept := Account.run_kept config start before
  exact RateLimiter.fits_of_bounds hkept.sound (hkept.capacity_eq.trans_le hcap)
    (hkept.refill_eq.trans_le hrate) (hclock now (by simp))

/-- **The account of a token bucket.** Where a cast is not defined, the model says nothing
about the fraction of the source. -/
theorem bucket_account (config : RateLimitConfig) (start : Nat) (times : List Nat)
    (htimes : (start :: times).Pairwise (· ≤ ·)) (s : Account)
    (hs : s = Account.run config start times) :
    s.limiter.tokens ≤ config.capacity ∧
      (Account.AllCast config start times →
        (0 ≤ s.limiter.tokensFraction ∧ s.limiter.tokensFraction < 1) ∧
          ∀ a d, 0 ≤ d →
            (s.within a d : Rat) < config.capacity + config.refillPerSecond * d + 1) ∧
      (Account.AllFit config start times →
        Account.AllCast config start times ∧
          s.grants.length + s.limiter.tokens + s.limiter.tokensFraction + s.discarded =
            config.capacity +
              config.refillPerSecond * (seconds (times.getLastD start) - seconds start)) ∧
      (config.capacity ≤ 10 ^ 9 → config.refillPerSecond ≤ 10 ^ 9 → (∀ t ∈ times, t < 2 ^ 63) →
        Account.AllFit config start times) := by
  subst hs
  have hkept := Account.run_kept config start times
  refine ⟨?_, ?_, ?_, ?_⟩
  · rw [← hkept.capacity_eq]
    exact hkept.sound.tokens_le
  · intro _
    refine ⟨⟨hkept.sound.fraction_nonneg, hkept.sound.fraction_lt⟩, ?_⟩
    intro a d hd
    exact (Account.run_windowed config start htimes hd).bound
  · intro hfit
    have hbalance := Account.run_balance config start htimes hfit
    unfold RateLimiter.level at hbalance
    rw [← add_assoc] at hbalance
    exact ⟨hfit.allCast, hbalance⟩
  · intro hcap hrate hclock
    exact Account.allFit_of_config hcap hrate hclock

/-- Two tokens and one per second: both are taken at once, and the next one is there after a
second, though a call after half of it was refused. -/
theorem bucket_account_pair :
    (Account.run ⟨2, 1⟩ 0 [0, 0, 5 * 10 ^ 8, 10 ^ 9]).grants = [0, 0, 10 ^ 9] ∧
      ((Account.run ⟨2, 1⟩ 0 [0, 0, 5 * 10 ^ 8, 10 ^ 9]).within 0 1 : Rat) < 2 + 1 * 1 + 1 := by
  obtain ⟨-, hbounds, hbalance, hfit⟩ :=
    bucket_account ⟨2, 1⟩ 0 [0, 0, 5 * 10 ^ 8, 10 ^ 9] (by decide) _ rfl
  have hcast := (hbalance (hfit (by decide) (by decide) (by decide))).1
  refine ⟨by decide +kernel, ?_⟩
  exact_mod_cast (hbounds hcast).2 0 1 zero_le_one

/-- The largest capacity that a `size_t` holds, and one token per second. -/
def largestBucket : RateLimitConfig := { capacity := 2 ^ 64 - 1, refillPerSecond := 1 }

/-- A full bucket of this capacity is empty after its first second: its first call is
refused, and what it held is not accounted for. -/
theorem full_bucket_emptied :
    (Account.run largestBucket 0 [10 ^ 9]).grants = [] ∧
      ((Account.run largestBucket 0 [10 ^ 9]).grants.length +
          (Account.run largestBucket 0 [10 ^ 9]).limiter.tokens +
          (Account.run largestBucket 0 [10 ^ 9]).limiter.tokensFraction +
          (Account.run largestBucket 0 [10 ^ 9]).discarded : Rat) = 1 ∧
      (largestBucket.capacity + largestBucket.refillPerSecond *
        (seconds (10 ^ 9) - seconds 0) : Rat) = 2 ^ 64 := by
  decide +kernel

end EpollGateway.Handler
