import EpollGateway.Lib.Run
import EpollGateway.Upstream.Manager
import Mathlib.Data.List.Infix

/-! # The breaker as an automaton

A breaker is two flags, a counter and a time, written by three calls in any order. What
it is for is said by the history of those calls: it is *open* from a failure that makes
the number of failures in a row reach the threshold of that call, up to the next success,
and *half-open* while an admission of an open breaker has not been answered.

Histories have their newest call in front. `breaker_automaton` says that after every
sequence of calls, for any backends, each breaker is where its own history puts it.
-/

namespace EpollGateway.Upstream

open Bytes Machine

/-! ## Histories -/

/-- A call at a breaker, with the answer of `allow_request`. -/
inductive Deed where
  | allowed (recoveryTimeoutMs : Int) (now : Nat) (answer : Bool)
  | succeeded
  | failed (failureThreshold : Int) (now : Nat)
deriving DecidableEq, Repr

namespace Deed

def isFailure : Deed → Bool
  | .failed .. => true
  | _ => false

/-- A call of `record_success` or `record_failure`. -/
def isRecord : Deed → Bool
  | .allowed .. => false
  | _ => true

end Deed

/-- The failures since the last success. -/
def failures (h : List Deed) : Nat := (h.takeWhile (· ≠ .succeeded)).countP Deed.isFailure

/-- The time of the newest call, when it is a failure that meets its threshold. -/
def tripTime : List Deed → Option Nat
  | .failed threshold now :: older =>
    if max 1 threshold ≤ (failures (.failed threshold now :: older) : Int) then some now else none
  | _ => none

/-- A failure has met its threshold, and there has been no success since. -/
def Opened (h : List Deed) : Prop :=
  ∃ recent older, h = recent ++ older ∧ (tripTime older).isSome ∧ .succeeded ∉ recent

/-- The time of the last failure that met its threshold. -/
def lastTrip (h : List Deed) : Option Nat := h.tails.findSome? tripTime

/-- A request was admitted while the breaker was open, and nothing has been recorded
since. -/
def Unanswered (h : List Deed) : Prop :=
  ∃ recent recovery now older, h = recent ++ .allowed recovery now true :: older ∧ Opened older ∧
    ∀ d ∈ recent, d.isRecord = false

/-! ### One call more -/

section Cons

variable {h : List Deed} {recovery threshold : Int} {now : Nat} {answer : Bool} {d : Deed}

@[simp] lemma failures_allowed : failures (.allowed recovery now answer :: h) = failures h := by
  simp [failures, Deed.isFailure]

@[simp] lemma failures_succeeded : failures (.succeeded :: h) = 0 := by
  simp [failures]

@[simp] lemma failures_failed : failures (.failed threshold now :: h) = failures h + 1 := by
  simp only [failures]
  rw [List.takeWhile_cons_of_pos (by simp), List.countP_cons_of_pos rfl]

/-- A breaker is open when the newest call has opened it, or when it was open and the
newest call is no success. -/
lemma opened_cons : Opened (d :: h) ↔ (tripTime (d :: h)).isSome ∨ (d ≠ .succeeded ∧ Opened h) := by
  constructor
  · rintro ⟨recent, older, hsplit, htrip, hnone⟩
    rcases recent with _ | ⟨r, recent⟩
    · rw [List.nil_append] at hsplit
      rw [hsplit]
      exact .inl htrip
    · rw [List.cons_append, List.cons.injEq] at hsplit
      obtain ⟨rfl, hrest⟩ := hsplit
      rw [List.mem_cons, not_or] at hnone
      exact .inr ⟨Ne.symm hnone.1, recent, older, hrest, htrip, hnone.2⟩
  · rintro (htrip | ⟨hne, recent, older, rfl, htrip, hnone⟩)
    · exact ⟨[], d :: h, rfl, htrip, List.not_mem_nil⟩
    · refine ⟨d :: recent, older, rfl, htrip, ?_⟩
      rw [List.mem_cons, not_or]
      exact ⟨Ne.symm hne, hnone⟩

@[simp] lemma opened_nil : ¬ Opened [] := by
  rintro ⟨recent, older, hsplit, htrip, -⟩
  obtain ⟨-, rfl⟩ := List.append_eq_nil_iff.mp hsplit.symm
  cases htrip

@[simp] lemma opened_allowed : Opened (.allowed recovery now answer :: h) ↔ Opened h := by
  rw [opened_cons]
  simp [tripTime]

@[simp] lemma opened_succeeded : ¬ Opened (.succeeded :: h) := by
  rw [opened_cons]
  simp [tripTime]

lemma opened_failed :
    Opened (.failed threshold now :: h) ↔ max 1 threshold ≤ ((failures h + 1 : Nat) : Int) ∨
      Opened h := by
  rw [opened_cons]
  simp [tripTime, failures_failed]

lemma lastTrip_cons : lastTrip (d :: h) = (tripTime (d :: h)).or (lastTrip h) := by
  simp only [lastTrip, List.tails_cons, List.findSome?_cons]
  cases tripTime (d :: h) <;> rfl

lemma unanswered_cons :
    Unanswered (d :: h) ↔
      (d.isRecord = false ∧ Unanswered h) ∨
        ∃ recovery now, d = .allowed recovery now true ∧ Opened h := by
  constructor
  · rintro ⟨recent, recovery, now, older, hsplit, hopen, hquiet⟩
    rcases recent with _ | ⟨r, recent⟩
    · rw [List.nil_append, List.cons.injEq] at hsplit
      obtain ⟨rfl, rfl⟩ := hsplit
      exact .inr ⟨recovery, now, rfl, hopen⟩
    · rw [List.cons_append, List.cons.injEq] at hsplit
      obtain ⟨rfl, rfl⟩ := hsplit
      refine .inl ⟨hquiet d List.mem_cons_self, recent, recovery, now, older, rfl, hopen, ?_⟩
      intro e he
      exact hquiet e (List.mem_cons_of_mem d he)
  · rintro (⟨hd, recent, recovery, now, older, rfl, hopen, hquiet⟩ | ⟨recovery, now, rfl, hopen⟩)
    · refine ⟨d :: recent, recovery, now, older, rfl, hopen, ?_⟩
      intro e he
      rcases List.mem_cons.mp he with rfl | he
      · exact hd
      · exact hquiet e he
    · exact ⟨[], recovery, now, h, rfl, hopen, by simp⟩

lemma unanswered_nil : ¬ Unanswered [] := by
  rintro ⟨recent, recovery, now, older, hsplit, -, -⟩
  simp at hsplit

end Cons

/-! ## One breaker -/

/-- The fields of a breaker are what its history says. -/
structure CircuitState.Follows (c : CircuitState) (h : List Deed) : Prop where
  failures : c.consecutiveFailures = failures h
  opened : c.isOpen = true ↔ Opened h
  openedAt : c.openedAt = (lastTrip h).getD 0
  probe : c.halfOpenProbe = true ↔ Unanswered h

namespace CircuitState.Follows

variable {c : CircuitState} {h : List Deed}

lemma initial : ({} : CircuitState).Follows [] := by
  constructor
  · rfl
  · exact ⟨nofun, fun hopen => absurd hopen opened_nil⟩
  · rfl
  · exact ⟨nofun, fun hout => absurd hout unanswered_nil⟩

/-- An answer that does not take the probe slot. -/
lemma allowed (hc : c.Follows h) {recovery : Int} {now : Nat} {answer : Bool}
    (hanswer : answer = true → c.isOpen = false) : c.Follows (.allowed recovery now answer :: h) := by
  constructor
  · rw [hc.failures, failures_allowed]
  · rw [hc.opened, opened_allowed]
  · rw [hc.openedAt, lastTrip_cons]
    rfl
  · rw [hc.probe, unanswered_cons]
    constructor
    · intro hout
      exact .inl ⟨rfl, hout⟩
    · rintro (⟨-, hout⟩ | ⟨r, t, heq, hopen⟩)
      · exact hout
      · cases heq
        have hclosed := hanswer rfl
        rw [hc.opened.mpr hopen] at hclosed
        cases hclosed

/-- An open breaker admits a probe. -/
lemma probed (hc : c.Follows h) (hopen : c.isOpen = true) (recovery : Int) (now call : Nat) :
    { c with halfOpenProbe := true, probeCall := call }.Follows (.allowed recovery now true :: h) := by
  constructor
  · simpa using hc.failures
  · simpa using hc.opened
  · rw [lastTrip_cons]
    exact hc.openedAt
  · rw [unanswered_cons]
    exact ⟨fun _ => .inr ⟨recovery, now, rfl, hc.opened.mp hopen⟩, fun _ => rfl⟩

lemma succeeded (hc : c.Follows h) :
    { c with consecutiveFailures := 0, isOpen := false, halfOpenProbe := false }.Follows
      (.succeeded :: h) := by
  constructor
  · rw [failures_succeeded]
  · exact ⟨nofun, fun hopen => absurd hopen opened_succeeded⟩
  · rw [lastTrip_cons]
    exact hc.openedAt
  · rw [unanswered_cons]
    constructor
    · intro hout
      cases hout
    · rintro (⟨hrecord, -⟩ | ⟨r, t, heq, -⟩)
      · cases hrecord
      · cases heq

/-- The failures count on, and a breaker that meets the threshold is open from now on. -/
lemma failed (hc : c.Follows h) (threshold : Int) (now : Nat) :
    (if ((c.consecutiveFailures + 1 : Nat) : Int) ≥ max 1 threshold then
        { c with halfOpenProbe := false, consecutiveFailures := c.consecutiveFailures + 1,
                 isOpen := true, openedAt := now }
      else { c with halfOpenProbe := false, consecutiveFailures := c.consecutiveFailures + 1 }).Follows
      (.failed threshold now :: h) := by
  have hnone : ¬ Unanswered (.failed threshold now :: h) := by
    rw [unanswered_cons]
    rintro (⟨hrecord, -⟩ | ⟨r, t, heq, -⟩)
    · cases hrecord
    · cases heq
  by_cases hmet : ((c.consecutiveFailures + 1 : Nat) : Int) ≥ max 1 threshold
  · rw [if_pos hmet]
    rw [hc.failures] at hmet
    constructor
    · rw [failures_failed, hc.failures]
    · exact ⟨fun _ => opened_failed.mpr (.inl hmet), fun _ => rfl⟩
    · rw [lastTrip_cons, tripTime, failures_failed, if_pos hmet]
      rfl
    · exact ⟨nofun, fun hout => absurd hout hnone⟩
  · rw [if_neg hmet]
    rw [hc.failures] at hmet
    constructor
    · rw [failures_failed, hc.failures]
    · rw [opened_failed, or_iff_right hmet]
      exact hc.opened
    · rw [lastTrip_cons, tripTime, failures_failed, if_neg hmet]
      exact hc.openedAt
    · exact ⟨nofun, fun hout => absurd hout hnone⟩

end CircuitState.Follows

/-! ## All breakers -/

/-- A call, at any time and for any backend. -/
inductive Ask where
  | allow (name : Bytes) (server : UpstreamServer) (recoveryTimeoutMs : Int) (now : Nat)
  | success (name : Bytes) (server : UpstreamServer)
  | failure (name : Bytes) (server : UpstreamServer) (failureThreshold : Int) (now : Nat)

namespace Ask

def name : Ask → Bytes
  | .allow name .. => name
  | .success name _ => name
  | .failure name .. => name

def server : Ask → UpstreamServer
  | .allow _ server .. => server
  | .success _ server => server
  | .failure _ server .. => server

def key (ask : Ask) : Bytes := circuitKey ask.name ask.server

end Ask

/-- The manager, and what has been called for each key. -/
structure Journal where
  mgr : UpstreamManager
  log : Bytes → List Deed := fun _ => []

def Journal.write (s : Journal) (mgr : UpstreamManager) (key : Bytes) (d : Deed) : Journal :=
  { mgr := mgr, log := assign s.log key (d :: s.log key) }

def askStep (ask : Ask) (s : Journal) : Option Journal :=
  match ask with
  | .allow name server recovery now =>
    let answer := s.mgr.allowRequest name server recovery now
    some (s.write answer.2 ask.key (.allowed recovery now (answer.1 ≠ .refused)))
  | .success name server => some (s.write (s.mgr.recordSuccess name server) ask.key .succeeded)
  | .failure name server threshold now =>
    some (s.write (s.mgr.recordFailure name server threshold now) ask.key (.failed threshold now))

/-- Every breaker is where its history puts it. -/
def Journal.Faithful (s : Journal) : Prop := ∀ key, (s.mgr.circuits key).Follows (s.log key)

/-- A call writes to the breaker and to the history of its own key. -/
lemma Journal.Faithful.write {s : Journal} (h : s.Faithful) {mgr : UpstreamManager} {key : Bytes}
    {d : Deed} (hother : ∀ k, k ≠ key → mgr.circuits k = s.mgr.circuits k)
    (hkey : (mgr.circuits key).Follows (d :: s.log key)) : (s.write mgr key d).Faithful := by
  intro k
  by_cases hk : k = key
  · subst hk
    simpa [Journal.write] using hkey
  · simpa [Journal.write, assign_ne _ _ hk, hother k hk] using h k

variable {m : UpstreamManager}

lemma circuits_allowRequest_ne {name key : Bytes} {server : UpstreamServer} {recovery : Int}
    {now : Nat} (hkey : key ≠ circuitKey name server) :
    (m.allowRequest name server recovery now).2.circuits key = m.circuits key := by
  unfold UpstreamManager.allowRequest
  dsimp only
  split
  · rfl
  · split
    · rfl
    · exact assign_ne _ _ hkey

/-- `allow_request` and the breaker it is asked about. -/
lemma allowRequest_follows {name : Bytes} {server : UpstreamServer} {h : List Deed}
    (hc : (m.circuits (circuitKey name server)).Follows h) (recovery : Int) (now : Nat) :
    ((m.allowRequest name server recovery now).2.circuits (circuitKey name server)).Follows
      (.allowed recovery now ((m.allowRequest name server recovery now).1 ≠ .refused) :: h) := by
  unfold UpstreamManager.allowRequest
  dsimp only
  split
  · rename_i hclosed
    exact hc.allowed fun _ => by simpa using hclosed
  · rename_i hopen
    split
    · exact hc.allowed fun hanswer => by simp at hanswer
    · dsimp only
      rw [assign_self]
      exact hc.probed (by simpa using hopen) recovery now m.calls

lemma Journal.Faithful.step {s s' : Journal} {ask : Ask} (h : s.Faithful)
    (hstep : askStep ask s = some s') : s'.Faithful := by
  rcases ask with ⟨name, server, recovery, now⟩ | ⟨name, server⟩ | ⟨name, server, threshold, now⟩
  · cases hstep
    refine h.write (fun k hk => circuits_allowRequest_ne hk) ?_
    exact allowRequest_follows (h _) recovery now
  · cases hstep
    refine h.write (fun k hk => assign_ne _ _ hk) ?_
    simp only [UpstreamManager.recordSuccess, Ask.key, Ask.name, Ask.server, assign_self]
    exact (h _).succeeded
  · cases hstep
    refine h.write (fun k hk => assign_ne _ _ hk) ?_
    simp only [UpstreamManager.recordFailure, Ask.key, Ask.name, Ask.server, assign_self]
    exact (h _).failed threshold now

/-- When `allow_request` admits a request. -/
lemma allowRequest_iff {name : Bytes} {server : UpstreamServer} {h : List Deed}
    (hc : (m.circuits (circuitKey name server)).Follows h) (recovery : Int) (now : Nat) :
    (m.allowRequest name server recovery now).1 ≠ .refused ↔
      ¬ Opened h ∨ (((lastTrip h).getD 0 : Int) + recovery ≤ now ∧ ¬ Unanswered h) := by
  rw [← hc.opened, ← hc.probe, ← hc.openedAt]
  unfold UpstreamManager.allowRequest
  dsimp only
  split
  · rename_i hclosed
    exact iff_of_true nofun (.inl hclosed)
  · rename_i hopen
    split
    · rename_i hwait
      refine iff_of_false (fun hne => hne rfl) ?_
      rintro (hclosed | ⟨htime, hfree⟩)
      · exact hopen hclosed
      · rcases hwait with hearly | hout
        · omega
        · exact hfree hout
    · rename_i hgo
      obtain ⟨htime, hfree⟩ := not_or.mp hgo
      exact iff_of_true nofun (.inr ⟨by omega, hfree⟩)

/-! ## Keys -/

lemma decVal?_ne_colon : ∀ c, (decVal? c).isSome → c ≠ 58 := forall_byte (by decide +kernel)

lemma colon_notMem_decimal (n : Nat) : (58 : UInt8) ∉ decimal n := by
  intro hmem
  exact decVal?_ne_colon 58 (digit_of_numeralFrom (numeral_decimal n) 58 hmem) rfl

/-- The key of a breaker stands for one backend of one group, when no group has a `|` in
its name. -/
lemma circuitKey_inj {name name' : Bytes} {server server' : UpstreamServer}
    (hname : 124 ∉ name) (hname' : 124 ∉ name')
    (h : circuitKey name server = circuitKey name' server') :
    name = name' ∧ server.host = server'.host ∧ server.port = server'.port := by
  have hsplit : ∀ (n : Bytes) (s : UpstreamServer),
      circuitKey n s = n ++ 124 :: (s.host ++ 58 :: decimal s.port) := by
    intro n s
    simp [circuitKey, ascii]
  rw [hsplit, hsplit] at h
  obtain ⟨rfl, hrest⟩ := append_cons_inj hname hname' h
  -- a port has no colon, so that the last one is the separator
  have hback := congrArg List.reverse hrest
  simp only [List.reverse_append, List.reverse_cons, List.append_assoc, List.singleton_append] at hback
  have hcolon : ∀ n, (58 : UInt8) ∉ (decimal n).reverse := by
    intro n hmem
    exact colon_notMem_decimal n (List.mem_reverse.mp hmem)
  obtain ⟨hport, hhost⟩ := append_cons_inj (hcolon _) (hcolon _) hback
  refine ⟨rfl, List.reverse_injective hhost, ?_⟩
  have hread := congrArg (numeral 10 decVal?) (List.reverse_injective hport)
  rw [numeral_decimal, numeral_decimal] at hread
  exact Option.some.inj hread

/-- A call for another key changes nothing. -/
lemma askStep_other {s s' : Journal} {ask : Ask} {key : Bytes} (hkey : key ≠ ask.key)
    (hstep : askStep ask s = some s') :
    s'.mgr.circuits key = s.mgr.circuits key ∧ s'.log key = s.log key := by
  rcases ask with ⟨name, server, recovery, now⟩ | ⟨name, server⟩ | ⟨name, server, threshold, now⟩
  all_goals
    cases hstep
    refine ⟨?_, assign_ne _ _ hkey⟩
  · exact circuits_allowRequest_ne hkey
  · exact assign_ne _ _ hkey
  · exact assign_ne _ _ hkey

/-! ## Runs -/

/-- The breaker of a backend is the automaton of its history, and no call for another
backend touches it. -/
structure Journal.Automaton (s : Journal) (name : Bytes) (server : UpstreamServer) : Prop where
  state : (s.mgr.circuits (circuitKey name server)).Follows (s.log (circuitKey name server))
  answer : ∀ recovery now, (s.mgr.allowRequest name server recovery now).1 ≠ .refused ↔
    ¬ Opened (s.log (circuitKey name server)) ∨
      (((s.mgr.circuits (circuitKey name server)).openedAt : Int) + recovery ≤ now ∧
        ¬ Unanswered (s.log (circuitKey name server)))
  apart : 124 ∉ name → ∀ ask : Ask, 124 ∉ ask.name →
    (ask.name, ask.server.host, ask.server.port) ≠ (name, server.host, server.port) →
    ∀ s', askStep ask s = some s' →
      s'.mgr.circuits (circuitKey name server) = s.mgr.circuits (circuitKey name server) ∧
        s'.log (circuitKey name server) = s.log (circuitKey name server)

/-- After every sequence of calls, for any backends and at any times, each breaker is the
automaton of its own calls. -/
theorem breaker_automaton {upstreams : Bytes → List UpstreamServer} {asks : List Ask} {s : Journal}
    (hrun : Run askStep Any { mgr := { upstreams := upstreams } } asks s) (name : Bytes)
    (server : UpstreamServer) : s.Automaton name server := by
  have hfaithful : s.Faithful :=
    hrun.invariant (fun _ => CircuitState.Follows.initial) fun _ _ _ h _ hstep => h.step hstep
  constructor
  · exact hfaithful _
  · intro recovery now
    rw [allowRequest_iff (hfaithful _) recovery now, (hfaithful _).openedAt]
  · intro hname ask hask hother s' hstep
    refine askStep_other ?_ hstep
    intro hkey
    obtain ⟨hn, hh, hp⟩ := circuitKey_inj hname hask hkey
    exact hother (by rw [hn, hh, hp])

/-- Two failures at a threshold of two, and a probe when the breaker has cooled down. -/
def trippedAsks : List Ask :=
  [.failure [] { host := [97] } 2 0, .failure [] { host := [97] } 2 5,
    .allow [] { host := [97] } 10 15]

theorem breaker_automaton_tripped :
    ∃ s, Run askStep Any { mgr := { upstreams := fun _ => [] } } trippedAsks s ∧
      s.log (circuitKey [] { host := [97] }) =
        [.allowed 10 15 true, .failed 2 5, .failed 2 0] ∧
      s.Automaton [] { host := [97] } := by
  obtain ⟨s, hrun, hs⟩ := exists_run_of_exec
    (f := fun s : Journal => s.log (circuitKey [] { host := [97] }))
    (show (exec askStep Any trippedAsks { mgr := { upstreams := fun _ => [] } }).map
      (fun s => s.log (circuitKey [] { host := [97] })) =
        some [.allowed 10 15 true, .failed 2 5, .failed 2 0] by decide +kernel)
  exact ⟨s, hrun, hs, breaker_automaton hrun [] { host := [97] }⟩

end EpollGateway.Upstream
