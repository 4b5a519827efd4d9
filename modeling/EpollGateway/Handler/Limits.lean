import EpollGateway.Handler.Route
import EpollGateway.Lib.Run
import EpollGateway.Lib.SizeT

/-! # Limits after a reload

`RateLimiterManager` is shared by all handlers. It makes a limiter at the first call for
a key, with the limits that this call passes, and keeps it until nobody has asked for
the key for ten minutes; the limits that later calls pass are not looked at. A handler
passes the limits of its current configuration, so after a reload the old limits stay
in force for every key that is in use (`old_limit_stays`). A decision is made with the
limits that the request passes exactly when the limiter was made with them
(`follows_iff`).
-/

namespace EpollGateway.Handler

open Bytes Http Machine Upstream

/-! ## Limiters -/

structure RateLimitConfig where
  capacity : Nat := 100
  refillPerSecond : Nat := 50
deriving DecidableEq, Repr

/-- How the tokens that come in are computed: from the nanoseconds since the last call, the
rate and the fraction. -/
abbrev Refill := Nat → Nat → Rat → Rat

/-- With exact numbers in the place of doubles. -/
def exactRefill : Refill := fun elapsed rate fraction =>
  (elapsed : Rat) / (10 ^ 9 : Nat) * rate + fraction

/-- `RateLimiter`; times are in nanoseconds. -/
structure RateLimiter where
  capacity : Nat
  refillPerSecond : Nat
  tokens : Nat
  lastRefill : Nat
  tokensFraction : Rat := 0
deriving DecidableEq

namespace RateLimiter

def new (config : RateLimitConfig) (now : Nat) : RateLimiter :=
  { capacity := config.capacity, refillPerSecond := config.refillPerSecond
    tokens := config.capacity, lastRefill := now }

/-- The refill of `try_acquire`. The cast to `size_t` is defined below `2 ^ 64` only; there
it drops the fraction. -/
def topUp (refill : Refill) (l : RateLimiter) (now : Nat) : RateLimiter :=
  let newTokens := refill (now - l.lastRefill) l.refillPerSecond l.tokensFraction
  let whole := newTokens.floor.toNat
  { l with
    lastRefill := now
    tokensFraction := newTokens - whole
    tokens := if whole > 0 then min l.capacity (SizeT.add l.tokens whole) else l.tokens }

/-- `RateLimiter::try_acquire`. -/
def acquire (refill : Refill) (l : RateLimiter) (now : Nat) : RateLimiter × Bool :=
  let l := l.topUp refill now
  if l.tokens > 0 then ({ l with tokens := l.tokens - 1 }, true) else (l, false)

def tryAcquire : RateLimiter → Nat → RateLimiter × Bool := acquire exactRefill

/-- The limits that a limiter works with. -/
def config (l : RateLimiter) : RateLimitConfig := ⟨l.capacity, l.refillPerSecond⟩

lemma acquire_config (refill : Refill) (l : RateLimiter) (now : Nat) :
    (l.acquire refill now).1.config = l.config := by
  unfold acquire
  extract_lets l'
  split <;> rfl

lemma tryAcquire_config (l : RateLimiter) (now : Nat) : (l.tryAcquire now).1.config = l.config :=
  acquire_config exactRefill l now

end RateLimiter

/-! ## The manager -/

structure RateLimiterManager where
  limiters : Bytes → Option RateLimiter := fun _ => none
  lastUsed : Bytes → Option Nat := fun _ => none
  defaultConfig : RateLimitConfig := {}

/-- Ten minutes. -/
def limiterIdle : Nat := 600 * 10 ^ 9

namespace RateLimiterManager

def updateDefaultConfig (m : RateLimiterManager) (config : RateLimitConfig) : RateLimiterManager :=
  { m with defaultConfig := config }

/-- The limiter that answers a call: the one of the key, or a new one. -/
def limiterFor (m : RateLimiterManager) (key : Bytes) (config : RateLimitConfig) (now : Nat) :
    RateLimiter :=
  (m.limiters key).getD (.new config now)

/-- `try_acquire_locked`. The clock is read for a new limiter, for `last_used_` and in
`try_acquire`. -/
def acquireLocked (refill : Refill) (m : RateLimiterManager) (key : Bytes) (config : RateLimitConfig)
    (created used now : Nat) : RateLimiterManager × Bool :=
  let (limiter, granted) := (m.limiterFor key config created).acquire refill now
  ({ m with
      limiters := assign m.limiters key (some limiter)
      lastUsed := assign m.lastUsed key (some used) }, granted)

/-- The call with exact numbers and one reading of the clock. -/
def tryAcquireLocked (m : RateLimiterManager) (key : Bytes) (config : RateLimitConfig) (now : Nat) :
    RateLimiterManager × Bool :=
  m.acquireLocked exactRefill key config now now now

/-- A limiter that nobody has used for too long. -/
def idle (m : RateLimiterManager) (key : Bytes) (now : Nat) : Bool :=
  (m.limiters key).isSome && (m.lastUsed key).any fun last => now - last > limiterIdle

/-- `cleanup`. -/
def cleanup (m : RateLimiterManager) (now : Nat) : RateLimiterManager :=
  { m with
    limiters := fun key => if m.idle key now then none else m.limiters key
    lastUsed := fun key => if m.idle key now then none else m.lastUsed key }

end RateLimiterManager

/-! ## Requests -/

/-- The limits of a configuration: the default, and those of each API key. -/
structure LimitConfig where
  rateLimit : RateLimitConfig := {}
  keyLimit : Bytes → RateLimitConfig := fun _ => { capacity := 200, refillPerSecond := 100 }

/-- The key for which `should_rate_limit` asks, and the limits that it passes. -/
def limitCall (config : LimitConfig) (req : HttpRequest) (route : GatewayRoute) (clientIp : Bytes)
    (apiKey : Option ApiKeyConfig) : Option (Bytes × RateLimitConfig) :=
  if req.path ∈ exemptPaths then none
  else
    match route.rateLimitPolicy, apiKey with
    | .route, _ =>
      some (ascii "route:" ++ route.path ++ ascii ":" ++ req.method, config.rateLimit)
    | .apiKey, some key => some (ascii "api_key:" ++ key.key, config.keyLimit key.key)
    | _, _ => some (ascii "ip:" ++ clientIp, config.rateLimit)

/-- `should_rate_limit` asks for that key. -/
lemma shouldRateLimit_eq (config : LimitConfig) (tryAcquire : Bytes → Bool) (req : HttpRequest)
    (route : GatewayRoute) (clientIp : Bytes) (apiKey : Option ApiKeyConfig) :
    shouldRateLimit tryAcquire req route clientIp apiKey =
      ((limitCall config req route clientIp apiKey).elim false fun call => !tryAcquire call.1) := by
  unfold shouldRateLimit limitCall
  split
  · rfl
  · rcases route.rateLimitPolicy with _ | _ | _ <;> rcases apiKey with _ | key <;> rfl

/-! ## Handlers that share the manager -/

/-- What the manager has been asked to do. -/
inductive Past where
  | call (key : Bytes) (limits : RateLimitConfig) (now : Nat)
  | cleanup (now : Nat)

/-- Handlers with their configurations. The past, newest first, is not in the source. -/
structure Throttle where
  manager : RateLimiterManager := {}
  handlers : Nat → LimitConfig
  past : List Past := []

inductive ThrottleLabel where
  | request (h : Nat) (req : HttpRequest) (route : GatewayRoute) (clientIp : Bytes)
      (apiKey : Option ApiKeyConfig) (now : Nat)
  | reload (h : Nat) (config : LimitConfig)
  | cleanup (now : Nat)

def throttleStep : ThrottleLabel → Throttle → Option Throttle
  | .request h req route clientIp apiKey now, s =>
    match limitCall (s.handlers h) req route clientIp apiKey with
    | none => some s
    | some (key, limits) =>
      some { s with
        manager := (s.manager.tryAcquireLocked key limits now).1
        past := .call key limits now :: s.past }
  | .reload h config, s =>
    some { s with
      handlers := Function.update s.handlers h config
      manager := s.manager.updateDefaultConfig config.rateLimit }
  | .cleanup now, s =>
    some { s with manager := s.manager.cleanup now, past := .cleanup now :: s.past }

/-- The limits with which the limiter of a key was made, and the time of its last call. -/
def maker (key : Bytes) : List Past → Option (RateLimitConfig × Nat)
  | [] => none
  | .call key' limits now :: past =>
    if key = key' then some (((maker key past).map Prod.fst).getD limits, now) else maker key past
  | .cleanup now :: past => (maker key past).filter fun made => ¬ now - made.2 > limiterIdle

/-- The decision about a request is made with the limits that are in force for it. -/
def Follows (s : Throttle) : ThrottleLabel → Prop
  | .request h req route clientIp apiKey now => ∀ key limits,
      limitCall (s.handlers h) req route clientIp apiKey = some (key, limits) →
        (s.manager.limiterFor key limits now).config = limits
  | .reload .. => True
  | .cleanup _ => True

/-- If there is a limiter for the key of a request, the call that made it passed the
limits that are in force now. -/
def Unmixed (s : Throttle) : ThrottleLabel → Prop
  | .request h req route clientIp apiKey _ => ∀ key limits,
      limitCall (s.handlers h) req route clientIp apiKey = some (key, limits) →
        ∀ made ∈ maker key s.past, made.1 = limits
  | .reload .. => True
  | .cleanup _ => True

/-! ## The life of a limiter -/

/-- The limiters are those that the past has left, each with the limits of the call
that made it. -/
structure Throttle.Made (s : Throttle) : Prop where
  limits : ∀ key, (s.manager.limiters key).map RateLimiter.config =
    (maker key s.past).map Prod.fst
  used : ∀ key, s.manager.lastUsed key = (maker key s.past).map Prod.snd

lemma Throttle.Made.call {s : Throttle} (h : s.Made) (key : Bytes) (limits : RateLimitConfig)
    (now : Nat) :
    Throttle.Made { s with
      manager := (s.manager.tryAcquireLocked key limits now).1
      past := .call key limits now :: s.past } := by
  constructor
  · intro key'
    by_cases hkey : key' = key
    · have hlimits := h.limits key
      subst hkey
      simp only [RateLimiterManager.tryAcquireLocked, RateLimiterManager.acquireLocked,
        assign_self, maker, if_true, Option.map_some, RateLimiter.acquire_config,
        RateLimiterManager.limiterFor]
      rcases hl : s.manager.limiters key' with _ | l
      · rw [hl, Option.map_none] at hlimits
        rw [← hlimits]
        rfl
      · rw [hl, Option.map_some] at hlimits
        rw [← hlimits]
        rfl
    · simp only [RateLimiterManager.tryAcquireLocked, RateLimiterManager.acquireLocked, maker,
        if_neg hkey]
      rw [assign_ne _ _ hkey]
      exact h.limits key'
  · intro key'
    by_cases hkey : key' = key
    · subst hkey
      simp [RateLimiterManager.tryAcquireLocked, RateLimiterManager.acquireLocked, maker]
    · simp only [RateLimiterManager.tryAcquireLocked, RateLimiterManager.acquireLocked, maker,
        if_neg hkey]
      rw [assign_ne _ _ hkey]
      exact h.used key'

lemma Throttle.Made.cleanup {s : Throttle} (h : s.Made) (now : Nat) :
    Throttle.Made { s with manager := s.manager.cleanup now, past := .cleanup now :: s.past } := by
  have hidle (key : Bytes) : s.manager.idle key now =
      (maker key s.past).any fun made => now - made.2 > limiterIdle := by
    have hlimits := h.limits key
    unfold RateLimiterManager.idle
    rw [h.used key]
    rcases hm : maker key s.past with _ | made
    · simp
    · rw [hm, Option.map_some] at hlimits
      rcases Option.map_eq_some_iff.mp hlimits with ⟨l, hl, -⟩
      simp [hl]
  have hmaker (key : Bytes) : maker key (.cleanup now :: s.past) =
      if s.manager.idle key now then none else maker key s.past := by
    rw [hidle, maker]
    rcases maker key s.past with _ | made
    · rfl
    · rw [Option.filter_some, Option.any_some]
      by_cases hlong : now - made.2 > limiterIdle
      · rw [if_neg (fun hshort => (of_decide_eq_true hshort : ¬ _) hlong),
          if_pos (decide_eq_true hlong)]
      · rw [if_pos (decide_eq_true hlong), if_neg (fun hlong' => hlong (of_decide_eq_true hlong'))]
  constructor
  · intro key
    simp only [RateLimiterManager.cleanup, hmaker]
    split
    · rfl
    · exact h.limits key
  · intro key
    simp only [RateLimiterManager.cleanup, hmaker]
    split
    · rfl
    · exact h.used key

lemma Throttle.Made.step {s s' : Throttle} {l : ThrottleLabel} (h : s.Made)
    (hstep : throttleStep l s = some s') : s'.Made := by
  cases l with
  | request handler req route clientIp apiKey now =>
    unfold throttleStep at hstep
    rcases hcall : limitCall (s.handlers handler) req route clientIp apiKey with _ | ⟨key, limits⟩
    · simp only [hcall, Option.some.injEq] at hstep
      rwa [← hstep]
    · simp only [hcall, Option.some.injEq] at hstep
      rw [← hstep]
      exact h.call key limits now
  | reload handler config =>
    cases hstep
    exact ⟨h.limits, h.used⟩
  | cleanup now =>
    cases hstep
    exact h.cleanup now

lemma made_of_run {handlers : Nat → LimitConfig} {labels : List ThrottleLabel} {s : Throttle}
    (hrun : Run throttleStep Any { handlers := handlers } labels s) : s.Made :=
  hrun.invariant ⟨fun _ => rfl, fun _ => rfl⟩ fun _ _ _ h _ hstep => h.step hstep

/-! ## Every decision -/

/-- In every run, a decision is made with the limits in force exactly when the limiter of
its key was made with them. -/
theorem follows_iff {handlers : Nat → LimitConfig} {labels : List ThrottleLabel} {s : Throttle}
    (hrun : Run throttleStep Any { handlers := handlers } labels s) (l : ThrottleLabel) :
    Follows s l ↔ Unmixed s l := by
  have hmade := made_of_run hrun
  cases l with
  | request handler req route clientIp apiKey now =>
    refine forall_congr' fun key => forall_congr' fun limits => forall_congr' fun _ => ?_
    have hlimits := hmade.limits key
    unfold RateLimiterManager.limiterFor
    rcases hl : s.manager.limiters key with _ | limiter
    · rw [hl, Option.map_none, eq_comm, Option.map_eq_none_iff] at hlimits
      simp [hlimits, RateLimiter.new, RateLimiter.config]
    · rw [hl, Option.map_some, eq_comm] at hlimits
      rcases Option.map_eq_some_iff.mp hlimits with ⟨made, hmaker, heq⟩
      simp [hmaker, ← heq]
  | reload handler config => exact Iff.rfl
  | cleanup now => exact Iff.rfl

/-- A request to a route that counts by client address. -/
def pageRequest (now : Nat) : ThrottleLabel :=
  .request 0 { path := ascii "/page" } { rateLimitPolicy := .ip } (ascii "10.0.0.7") none now

def oneRequest : LimitConfig := { rateLimit := { capacity := 1, refillPerSecond := 1 } }

def manyRequests : LimitConfig := { rateLimit := { capacity := 1000, refillPerSecond := 500 } }

/-- The limits with which the next request of `pageRequest` is decided, and the decision. -/
def pageDecision (s : Throttle) : RateLimitConfig × Bool :=
  let key := ascii "ip:10.0.0.7"
  let limits := (s.handlers 0).rateLimit
  ((s.manager.limiterFor key limits 3).config, (s.manager.tryAcquireLocked key limits 3).2)

/-- A client that was there before the reload, and whose limiter has been thrown away and made
again since, gets the new limits. -/
theorem follows_iff_new : ∃ s, Run throttleStep Any { handlers := fun _ => oneRequest }
    [pageRequest 1, .reload 0 manyRequests, .cleanup (limiterIdle + 2), pageRequest (limiterIdle + 3)]
      s ∧
    (maker (ascii "ip:10.0.0.7") s.past).isSome ∧ Follows s (pageRequest (limiterIdle + 4)) := by
  obtain ⟨s, hrun, hs⟩ := exists_run_of_exec
    (f := fun s : Throttle => (maker (ascii "ip:10.0.0.7") s.past, (s.handlers 0).rateLimit))
    (show (exec throttleStep Any [pageRequest 1, .reload 0 manyRequests, .cleanup (limiterIdle + 2),
      pageRequest (limiterIdle + 3)] { handlers := fun _ => oneRequest }).map _ =
        some (some (manyRequests.rateLimit, limiterIdle + 3), manyRequests.rateLimit) by
      decide +kernel)
  obtain ⟨hmaker, hlimits⟩ := Prod.mk.inj hs
  refine ⟨s, hrun, by rw [hmaker]; rfl, (follows_iff hrun _).mpr ?_⟩
  intro key limits hcall made hmade
  change some (ascii "ip:10.0.0.7", (s.handlers 0).rateLimit) = _ at hcall
  cases hcall
  rw [hmaker] at hmade
  cases hmade
  exact hlimits.symm

/-- One request per second is allowed, and a client makes one. After a reload that allows
five hundred, its next request is refused. -/
theorem old_limit_stays : ∃ s, Run throttleStep Any { handlers := fun _ => oneRequest }
    [pageRequest 1, .reload 0 manyRequests] s ∧
    pageDecision s = ({ capacity := 1, refillPerSecond := 1 }, false) ∧
    (s.handlers 0).rateLimit = manyRequests.rateLimit ∧ ¬ Follows s (pageRequest 3) := by
  obtain ⟨s, hrun, hs⟩ := exists_run_of_exec (f := fun s => (pageDecision s, (s.handlers 0).rateLimit))
    (show (exec throttleStep Any [pageRequest 1, .reload 0 manyRequests]
      { handlers := fun _ => oneRequest }).map _ =
        some (({ capacity := 1, refillPerSecond := 1 }, false), manyRequests.rateLimit) by
      decide +kernel)
  rcases Prod.mk.inj hs with ⟨hdecision, hlimits⟩
  refine ⟨s, hrun, hdecision, hlimits, fun hfollows => ?_⟩
  -- the route counts by address, and the address has been seen
  have hconfig := hfollows (ascii "ip:10.0.0.7") (s.handlers 0).rateLimit rfl
  rw [(Prod.mk.inj hdecision).1, hlimits] at hconfig
  exact absurd hconfig (by decide)

end EpollGateway.Handler
