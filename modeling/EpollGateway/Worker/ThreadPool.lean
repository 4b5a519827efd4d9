import EpollGateway.Lib.Run
import Mathlib.Algebra.Order.Group.Multiset

/-! # The thread pool

`DynamicThreadPool` starts `min_threads_` threads. `enqueue` adds one when there are more
than `scale_up_threshold_` tasks for each thread, and a thread that finds no task within a
second returns when more than `min_threads_` are left. Everything but the tasks themselves
happens under one mutex, so a step is what a thread does while it has the mutex, or the
end of a task.

Tasks begin in the order in which they were accepted, each of them once, whatever the
threads do (`tasks_conserved`). The destructor waits for the threads, and when they have
returned every task has been run (`joined_pool_done`); they do return, since a pool that
is stopped cannot move for ever (`stopped_pool_ends`).
-/

namespace EpollGateway.Worker

open Machine

variable {α : Type}

/-- A thread of the pool. -/
inductive PoolThread (α : Type) where
  | waiting
  | running (task : α)
  | exited

def PoolThread.task? : PoolThread α → Option α
  | .running task => some task
  | _ => none

def PoolThread.live : PoolThread α → Bool
  | .exited => false
  | _ => true

/-- The limits, as `Config::validate` accepts them. -/
structure PoolLimits where
  minThreads : Nat
  maxThreads : Nat
  scaleUpThreshold : Nat
  min_pos : 0 < minThreads
  min_le_max : minThreads ≤ maxThreads

/-- The pool; `accepted`, `started` and `finished` are its history. A thread that has
returned stays in `workers_`. -/
structure ThreadPool (α : Type) where
  workers : List (PoolThread α)
  currentThreads : Nat
  tasks : List α := []
  stop : Bool := false
  accepted : List α := []
  started : List α := []
  finished : List α := []

namespace ThreadPool

/-- The constructor. -/
def start (c : PoolLimits) : ThreadPool α :=
  { workers := List.replicate c.minThreads .waiting, currentThreads := c.minThreads }

def addWorker (p : ThreadPool α) : ThreadPool α :=
  { p with workers := p.workers ++ [.waiting], currentThreads := p.currentThreads + 1 }

def shouldScaleUp (c : PoolLimits) (p : ThreadPool α) : Bool :=
  p.tasks.length > p.currentThreads * c.scaleUpThreshold ∧ p.currentThreads < c.maxThreads

def shouldScaleDown (c : PoolLimits) (p : ThreadPool α) : Bool :=
  !p.stop && p.tasks.isEmpty && decide (p.currentThreads > c.minThreads)

/-- Thread `i` returns. -/
def leave (p : ThreadPool α) (i : Nat) : ThreadPool α :=
  { p with workers := p.workers.set i .exited, currentThreads := p.currentThreads - 1 }

end ThreadPool

/-- `wake` and `timeout` are the two results of `wait_for` in `workerLoop`, `finish` is the
end of a task, and `stop` the first half of the destructor. -/
inductive PoolEvent (α : Type) where
  | enqueue (task : α)
  | wake (i : Nat)
  | timeout (i : Nat)
  | finish (i : Nat)
  | stop

def poolStep (c : PoolLimits) : PoolEvent α → ThreadPool α → Option (ThreadPool α)
  | .enqueue task, p =>
    -- an exception, and the task is dropped
    if p.stop then none
    else
      let p := { p with tasks := p.tasks ++ [task], accepted := p.accepted ++ [task] }
      some (if p.shouldScaleUp c then p.addWorker else p)
  | .wake i, p =>
    match p.workers[i]?, p.tasks with
    | some .waiting, task :: rest =>
      some { p with
        workers := p.workers.set i (.running task), tasks := rest, started := p.started ++ [task] }
    | some .waiting, [] => if p.stop then some (p.leave i) else none
    | _, _ => none
  | .timeout i, p =>
    match p.workers[i]? with
    | some .waiting =>
      if p.stop ∨ p.tasks ≠ [] then none
      else some (if p.shouldScaleDown c then p.leave i else p)
    | _ => none
  | .finish i, p =>
    match p.workers[i]? with
    | some (.running task) =>
      some { p with workers := p.workers.set i .waiting, finished := p.finished ++ [task] }
    | _ => none
  | .stop, p => if p.stop then none else some { p with stop := true }

/-! ## Invariants -/

open PoolThread ThreadPool

/-- The tasks that are being run. -/
def ThreadPool.inHand (p : ThreadPool α) : List α := p.workers.filterMap task?

/-- What holds between two steps. -/
structure Sound (c : PoolLimits) (p : ThreadPool α) : Prop where
  count : p.currentThreads = p.workers.countP live
  atMost : p.currentThreads ≤ c.maxThreads
  atLeast : p.stop = false → c.minThreads ≤ p.currentThreads
  order : p.accepted = p.started ++ p.tasks
  begun : (p.started : Multiset α) = p.inHand + p.finished
  served : p.tasks = [] ∨ 0 < p.currentThreads

variable {c : PoolLimits} {p p' : ThreadPool α} {e : PoolEvent α} {es : List (PoolEvent α)}
  {i : Nat}

/-- Another state of one thread. -/
lemma set_thread {l : List (PoolThread α)} {a : PoolThread α} (h : l[i]? = some a)
    (b : PoolThread α) :
    (l.set i b).countP live + a.live.toNat = l.countP live + b.live.toNat ∧
      ((l.set i b).filterMap task? : Multiset α) + a.task?.toList =
        l.filterMap task? + b.task?.toList := by
  obtain ⟨hi, rfl⟩ := List.getElem?_eq_some_iff.mp h
  have hcount (x : PoolThread α) (rest : List (PoolThread α)) :
      (x :: rest).countP live = x.live.toNat + rest.countP live := by
    rw [List.countP_cons]
    cases x <;> simp [live, Nat.add_comm]
  have htask (x : PoolThread α) (rest : List (PoolThread α)) :
      (x :: rest).filterMap task? = x.task?.toList ++ rest.filterMap task? := by
    cases x <;> rfl
  have hsplit : l = l.take i ++ l[i] :: l.drop (i + 1) := by
    rw [List.getElem_cons_drop, List.take_append_drop]
  rw [List.set_eq_take_append_cons_drop, if_pos hi]
  nth_rewrite 4 8 [hsplit]
  simp only [List.countP_append, hcount, List.filterMap_append, htask, ← Multiset.coe_add]
  exact ⟨by omega, by ac_rfl⟩

lemma Sound.leave (h : Sound c p) (hi : p.workers[i]? = some .waiting) (htasks : p.tasks = [])
    (hmin : p.stop = false → c.minThreads < p.currentThreads) : Sound c (p.leave i) := by
  obtain ⟨hcount, hbegun⟩ := set_thread hi .exited
  -- the thread had no task in hand
  have hinHand : (p.inHand : Multiset α) = (p.leave i).inHand := by
    rw [← add_zero (p.inHand : Multiset α)]
    exact hbegun.symm.trans (add_zero _)
  exact
    { count := Nat.sub_eq_of_eq_add (h.count.trans hcount.symm)
      atMost := (Nat.sub_le _ _).trans h.atMost
      atLeast := fun hstop => Nat.le_sub_one_of_lt (hmin hstop)
      order := h.order
      begun := h.begun.trans (congrArg (· + _) hinHand)
      served := .inl htasks }

lemma Sound.step (h : Sound c p) (hstep : poolStep c e p = some p') : Sound c p' := by
  cases e with
  | enqueue task =>
    simp only [poolStep] at hstep
    split at hstep
    · cases hstep
    · rename_i hstop
      have hlow := h.atLeast (by simpa using hstop)
      have horder : p.accepted ++ [task] = p.started ++ (p.tasks ++ [task]) := by
        rw [h.order, List.append_assoc]
      cases hstep
      split
      · rename_i hup
        have hnone : [.waiting].filterMap task? = ([] : List α) := rfl
        exact
          { count := by simpa [addWorker, live] using h.count
            atMost := (of_decide_eq_true hup).2
            atLeast := fun _ => hlow.trans (Nat.le_succ _)
            order := horder
            begun := by simpa [addWorker, inHand, hnone] using h.begun
            served := .inr (Nat.succ_pos _) }
      · exact { h with order := horder, served := .inr (c.min_pos.trans_le hlow) }
  | wake i =>
    simp only [poolStep] at hstep
    split at hstep
    · -- the task goes from the queue to the thread
      rename_i task rest hi htasks
      cases hstep
      obtain ⟨hcount, hbegun⟩ := set_thread hi (.running task)
      constructor
      case count => exact h.count.trans (Nat.add_right_cancel hcount).symm
      case atMost => exact h.atMost
      case atLeast => exact h.atLeast
      case order => simp [h.order, htasks]
      case begun =>
        simp only [task?, Option.toList_none, Multiset.coe_nil, add_zero] at hbegun
        rw [inHand, hbegun, ← Multiset.coe_add, h.begun, add_right_comm]
        rfl
      case served => exact .inr (h.served.resolve_left (by simp [htasks]))
    · rename_i hi htasks
      split at hstep
      · rename_i hstop
        cases hstep
        exact h.leave hi htasks fun hrun => absurd (hstop.symm.trans hrun) (by simp)
      · cases hstep
    · cases hstep
  | timeout i =>
    simp only [poolStep] at hstep
    split at hstep
    · rename_i hi
      split at hstep
      · cases hstep
      · rename_i hidle
        simp only [not_or, not_not] at hidle
        cases hstep
        split
        · -- more than the minimum are left
          rename_i hdown
          simp only [shouldScaleDown, Bool.and_eq_true, decide_eq_true_eq] at hdown
          exact h.leave hi hidle.2 fun _ => hdown.2
        · exact h
    · cases hstep
  | finish i =>
    simp only [poolStep] at hstep
    split at hstep
    · rename_i task hi
      cases hstep
      obtain ⟨hcount, hbegun⟩ := set_thread hi .waiting
      -- the task goes from the thread to the finished ones
      constructor
      case count => exact h.count.trans (Nat.add_right_cancel hcount).symm
      case atMost => exact h.atMost
      case atLeast => exact h.atLeast
      case order => exact h.order
      case begun =>
        simp only [task?, Option.toList_none, Multiset.coe_nil, add_zero] at hbegun
        rw [h.begun, inHand, ← hbegun, ← Multiset.coe_add, add_right_comm, add_assoc]
        rfl
      case served => exact h.served
    · cases hstep
  | stop =>
    simp only [poolStep] at hstep
    split at hstep <;> cases hstep
    exact { h with atLeast := nofun }

lemma sound_run (hrun : Run (poolStep c) Any (start c) es p) : Sound c p := by
  refine hrun.invariant (I := Sound c) ⟨?_, c.min_le_max, fun _ => le_rfl, rfl, ?_, .inl rfl⟩
    fun _ _ _ h _ hstep => h.step hstep
  · simp [start, live, List.countP_replicate]
  · simp [start, inHand, task?, List.filterMap_replicate]

/-- Tasks begin in the order of the queue, each is in one place, and the pool keeps to its
limits. -/
theorem tasks_conserved (hrun : Run (poolStep c) Any (start c) es p) :
    p.accepted = p.started ++ p.tasks ∧ p.started.Perm (p.inHand ++ p.finished) ∧
      p.workers.countP live ≤ c.maxThreads ∧
      (p.stop = false → c.minThreads ≤ p.workers.countP live) := by
  have h := sound_run hrun
  rw [← h.count]
  exact ⟨h.order, Multiset.coe_eq_coe.mp h.begun, h.atMost, h.atLeast⟩

/-- One thread, and a second one for the second task. -/
def onePool : PoolLimits := ⟨1, 2, 1, Nat.one_pos, Nat.le_succ 1⟩

/-- Two tasks, of which the second ends first, and the end of the pool. -/
def twoTasks : List (PoolEvent Nat) :=
  [.enqueue 7, .enqueue 8, .wake 0, .wake 1, .finish 1, .stop, .finish 0, .wake 0, .wake 1]

theorem tasks_conserved_two : ∃ p, Run (poolStep onePool) Any (.start onePool) (twoTasks.take 5) p ∧
    (p.inHand = [7] ∧ p.finished = [8]) ∧ p.accepted = p.started ++ p.tasks := by
  obtain ⟨p, hrun, hp⟩ : ∃ p, Run (poolStep onePool) Any (.start onePool) (twoTasks.take 5) p ∧
      (p.inHand, p.finished) = ([7], [8]) := exists_run_of_exec (by decide)
  exact ⟨p, hrun, Prod.mk.inj hp, (tasks_conserved hrun).1⟩

/-- When the destructor has joined all threads, every accepted task has been run once. -/
theorem joined_pool_done (hrun : Run (poolStep c) Any (start c) es p)
    (hjoined : ∀ t ∈ p.workers, t.live = false) : p.finished.Perm p.accepted := by
  have h := sound_run hrun
  have hcount : p.currentThreads = 0 := by
    rw [h.count, List.countP_eq_zero]
    intro t ht
    simp [hjoined t ht]
  have hhand : p.inHand = [] := by
    rw [inHand, List.filterMap_eq_nil_iff]
    intro t ht
    cases t with
    | running task => exact absurd (hjoined _ ht) (by simp [live])
    | _ => rfl
  have hbegun := h.begun
  rw [hhand, Multiset.coe_nil, zero_add] at hbegun
  rw [h.order, h.served.resolve_right (by simp [hcount]), List.append_nil]
  exact (Multiset.coe_eq_coe.mp hbegun).symm

theorem joined_pool_done_two : ∃ p, Run (poolStep onePool) Any (.start onePool) twoTasks p ∧
    p.finished.Perm p.accepted := by
  obtain ⟨p, hrun, hp⟩ : ∃ p, Run (poolStep onePool) Any (.start onePool) twoTasks p ∧
      p.workers.all (!·.live) = true := exists_run_of_exec (by decide)
  exact ⟨p, hrun, joined_pool_done hrun (by simpa using hp)⟩

/-- What is left to do for a pool that is stopped. -/
def ThreadPool.rest (p : ThreadPool α) : Nat :=
  3 * p.tasks.length + p.inHand.length + p.workers.countP live

lemma rest_lt {q : ThreadPool α} {a b : PoolThread α} (hi : p.workers[i]? = some a)
    (hset : q.workers = p.workers.set i b)
    (hless : 3 * q.tasks.length + b.task?.toList.length + b.live.toNat <
      3 * p.tasks.length + a.task?.toList.length + a.live.toNat) : q.rest < p.rest := by
  obtain ⟨hcount, hbegun⟩ := set_thread hi b
  have hcard := congrArg Multiset.card hbegun
  simp only [Multiset.card_add, Multiset.coe_card] at hcard
  simp only [rest, inHand, hset]
  omega

/-- A pool that is stopped stays so, and every step leaves less to do. -/
lemma rest_step (hstop : p.stop = true) (hstep : poolStep c e p = some p') :
    p'.stop = true ∧ p'.rest < p.rest := by
  cases e with
  | wake i =>
    simp only [poolStep] at hstep
    split at hstep
    · rename_i hi htasks
      cases hstep
      refine ⟨hstop, rest_lt hi rfl ?_⟩
      simp only [htasks, task?, live, List.length_cons]
      simp
      omega
    · rename_i hi htasks
      rw [if_pos hstop] at hstep
      cases hstep
      exact ⟨hstop, rest_lt hi rfl (by simp [leave, task?, live])⟩
    · cases hstep
  | timeout i =>
    simp only [poolStep, hstop] at hstep
    split at hstep <;> simp at hstep
  | finish i =>
    simp only [poolStep] at hstep
    split at hstep
    · rename_i hi
      cases hstep
      exact ⟨hstop, rest_lt hi rfl (by simp [task?, live])⟩
    · cases hstep
  | _ => simp [poolStep, hstop] at hstep

/-- A thread that is left can go on. -/
lemma stopped_enabled (hstop : p.stop = true) {t : PoolThread α} (ht : t ∈ p.workers)
    (hlive : t.live = true) : ∃ e p', poolStep c e p = some p' := by
  obtain ⟨i, hi⟩ := List.getElem?_of_mem ht
  cases t with
  | waiting =>
    refine ⟨.wake i, ?_⟩
    rcases htasks : p.tasks with _ | ⟨task, rest⟩ <;> simp [poolStep, hi, htasks, hstop]
  | running task => exact ⟨.finish i, by simp [poolStep, hi]⟩
  | exited => cases hlive

/-- No run of a pool that is stopped is longer than what was left to do, and one that
cannot go on has no thread left. -/
theorem stopped_pool_ends (hstop : p.stop = true) (hrun : Run (poolStep c) Any p es p') :
    es.length ≤ p.rest ∧
      ((∀ e, poolStep c e p' = none) → ∀ t ∈ p'.workers, t.live = false) := by
  obtain ⟨hstop', hlen⟩ := hrun.length_add_le (I := (·.stop = true)) hstop
    fun _ _ _ h _ hstep => rest_step h hstep
  refine ⟨(Nat.le_add_right _ _).trans hlen, fun hend t ht => Bool.eq_false_iff.mpr ?_⟩
  intro hlive
  obtain ⟨e, q, he⟩ := stopped_enabled (c := c) hstop' ht hlive
  simp [hend e] at he

/-- A pool that is stopped while a task waits for its thread. -/
def stoppedPool : ThreadPool Nat := ⟨[.waiting], 1, [7], true, [7], [], []⟩

theorem stopped_pool_ends_one : ∃ p, Run (poolStep onePool) Any stoppedPool
    [.wake 0, .finish 0, .wake 0] p ∧ 3 ≤ stoppedPool.rest := by
  obtain ⟨p, hrun, -⟩ : ∃ p, Run (poolStep onePool) Any stoppedPool
      [.wake 0, .finish 0, .wake 0] p ∧ p.rest = 0 := exists_run_of_exec (by decide)
  exact ⟨p, hrun, (stopped_pool_ends rfl hrun).1⟩

end EpollGateway.Worker
