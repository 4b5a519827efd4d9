import EpollGateway.Handler.Outcomes
import EpollGateway.Upstream.Passes
import Mathlib.Order.Interval.Finset.Nat

/-! # How often a request is sent

Two mechanisms send a request again: an `UpstreamExchange` replays it on a fresh
connection when a pooled one fails, and `finish_child` starts another exchange when
an exchange fails. `callPass` is one pass of a request through both, `writtenOn`
lists the connections that request bytes are written on.

`Passed` says what a pass of an exchange can do to it. Each pass that opens a
connection uses up part of a budget, which the flags of the exchange and the attempt
count of the child determine.
-/

namespace EpollGateway.Handler

open Bytes Http Upstream

/-! ## Passes of an exchange -/

/-- The exchange has a connection, or is about to have one. -/
def onConnection : Phase → Bool
  | .connecting | .tlsHandshake | .send | .read => true
  | .connect | .done | .stuck => false

/-- The part of an exchange that decides about replays. -/
structure Course where
  params : Params
  idempotent : Bool
  phase : Phase
  usedPooled : Bool
  retried : Bool

def course (x : Exchange) : Course := ⟨x.params, x.idempotent, x.phase, x.usedPooled, x.retried⟩

/-- What a pass does to the course of an exchange: it is over, it is replayed, it has
opened a connection, or it goes on with its connection. -/
inductive Passed (c : Course) : Course → Prop where
  | ended {phase : Phase} (pooled retried : Bool) : phase = .done ∨ phase = .stuck →
      Passed c ⟨c.params, c.idempotent, phase, pooled, retried⟩
  | replayed : c.usedPooled = true → c.idempotent = true → c.retried = false →
      Passed c ⟨c.params, c.idempotent, .connect, false, true⟩
  | opened {phase : Phase} (pooled : Bool) : c.phase = .connect → onConnection phase = true →
      Passed c ⟨c.params, c.idempotent, phase, pooled, c.retried⟩
  | onward {phase : Phase} : onConnection c.phase = true → onConnection phase = true →
      Passed c ⟨c.params, c.idempotent, phase, c.usedPooled, c.retried⟩

lemma onConnection_eq_true {phase : Phase} (hconnect : phase ≠ .connect) (hdone : phase ≠ .done)
    (hstuck : phase ≠ .stuck) : onConnection phase = true := by
  cases phase <;> simp_all [onConnection]

/-- What a pass can do. -/
lemma pass_passed (pool : Pool) {x : Exchange} (a : Answers)
    (hlive : x.phase ≠ .done ∧ x.phase ≠ .stuck) :
    Passed (course x) (course (x.pass pool a).2) := by
  have hmoved := Exchange.pass_moved pool a hlive
  have hon : x.phase ≠ .connect → onConnection x.phase = true := fun hconnect =>
    onConnection_eq_true hconnect hlive.1 hlive.2
  generalize (x.pass pool a).2 = y at hmoved
  unfold course
  cases hmoved with
  | ended result succeeded h _ =>
    rcases Exchange.Attempt.mk.inj h.1 with ⟨hparams, hidempotent, -, -, -, -, -⟩
    dsimp only
    rw [hparams, hidempotent]
    exact .ended _ _ (.inl rfl)
  | stuck h =>
    rcases Exchange.Attempt.mk.inj h.1 with ⟨hparams, hidempotent, -, -, -, -, -⟩
    dsimp only
    rw [hparams, hidempotent]
    exact .ended _ _ (.inr rfl)
  | replayed b hpooled hidempotent hretried => exact .replayed hpooled hidempotent hretried
  | opened sock pooled buf hphase hconnect _ hdone hstuck =>
    exact .opened _ hphase (onConnection_eq_true hconnect hdone hstuck)
  | onward phase b h hphase hconnect hdone hstuck _ =>
    rcases Exchange.Attempt.mk.inj h.1 with ⟨hparams, hidempotent, hretried, -, -, -, -⟩
    dsimp only
    rw [hparams, hidempotent, hretried, h.2.1]
    exact .onward (hon hphase) (onConnection_eq_true hconnect hdone hstuck)
  | wrote n h hphase =>
    rcases Exchange.Attempt.mk.inj h.1 with ⟨hparams, hidempotent, hretried, -, -, -, -⟩
    have hsend := hon (by simp [hphase])
    dsimp only
    rw [hparams, hidempotent, hretried, h.2.1, h.2.2.2]
    exact .onward hsend hsend
  | received h hphase _ =>
    rcases Exchange.Attempt.mk.inj h.1 with ⟨hparams, hidempotent, hretried, -, -, -, -⟩
    have hread := hon (by simp [hphase])
    dsimp only
    rw [hparams, hidempotent, hretried, h.2.1, h.2.2.2]
    exact .onward hread hread

/-- Request bytes are written in the send phase only. -/
lemma phase_of_wrote {pool : Pool} {x : Exchange} {a : Answers}
    (h : x.sendOff < (x.pass pool a).2.sendOff) : x.phase = .send := by
  by_cases hlive : x.phase ≠ .done ∧ x.phase ≠ .stuck
  · have hadvanced := pass_advanced pool a hlive
    generalize hy : progress (x.pass pool a).2 = p at hadvanced
    have hlt : x.sendOff < p.sendOff := hy ▸ h
    cases hadvanced with
    | wrote _ hsend => exact hsend
    | replayed => exact absurd hlt (Nat.not_lt_zero _)
    | _ => exact absurd hlt (lt_irrefl x.sendOff)
  · rw [pass_over pool a hlive] at h
    exact absurd h (lt_irrefl _)

/-! ## The budget -/

/-- How many connections an exchange can still open. -/
def opensLeft (c : Course) : Nat :=
  match c.phase with
  | .connect => if c.idempotent ∧ c.retried = false then 2 else 1
  | .done => 0
  | .stuck => 0
  | _ => if c.usedPooled ∧ c.idempotent ∧ c.retried = false then 1 else 0

/-- A pass from one course to the other opens a connection. -/
def Opens (c c' : Course) : Prop := onConnection c.phase = false ∧ onConnection c'.phase = true

instance (c c' : Course) : Decidable (Opens c c') := inferInstanceAs (Decidable (_ ∧ _))

lemma opensLeft_onConnection {c : Course} (h : onConnection c.phase = true) :
    opensLeft c = if c.usedPooled ∧ c.idempotent ∧ c.retried = false then 1 else 0 := by
  unfold opensLeft
  rcases hp : c.phase with _ | _ | _ | _ | _ | _ | _ <;> simp_all [onConnection]

/-- A pass pays for the connection that it opens. -/
lemma Passed.budget {c c' : Course} (h : Passed c c') (hlive : c.phase ≠ .done ∧ c.phase ≠ .stuck) :
    opensLeft c' + (if Opens c c' then 1 else 0) ≤ opensLeft c := by
  rcases h with ⟨_, _, hover⟩ | ⟨hpooled, hidem, hretried⟩ | ⟨_, hconnect, hon⟩ | ⟨hc, hon⟩
  · -- over: nothing is left to open
    rcases hover with rfl | rfl <;> simp [opensLeft, Opens, onConnection]
  · -- replayed: the replay was still to come
    have hleft : 1 ≤ opensLeft c := by
      unfold opensLeft
      rcases hp : c.phase with _ | _ | _ | _ | _ | _ | _ <;> simp_all
    simpa [opensLeft, Opens, onConnection] using hleft
  · -- opened: by a request that may be replayed, or for good
    have hleft : opensLeft c = if c.idempotent ∧ c.retried = false then 2 else 1 := by
      simp [opensLeft, hconnect]
    rw [hleft, opensLeft_onConnection hon]
    split_ifs <;> simp_all
  · have hno : ∀ c', ¬ Opens c c' := fun _ hopens => Bool.false_ne_true (hopens.1.symm.trans hc)
    rw [if_neg (hno _), opensLeft_onConnection hon, opensLeft_onConnection hc]
    exact le_rfl

/-! ## The request -/

/-- A request at its backend: the exchange that is under way, the child that counts
the attempts, and whether the response has been framed. -/
structure BackendCall where
  ex : Exchange
  child : ChildExchange
  ended : Bool := false

/-- `finish_child`, for an exchange that is done. -/
def finishCall (pool : Pool) (c : BackendCall) (now : Nat) : Pool × BackendCall :=
  if c.ex.succeeded then
    ((c.ex.reuseToPool pool now).1, { c with ex := (c.ex.reuseToPool pool now).2, ended := true })
  else if retries c.child c.ex.params.method c.ex.result then
    (pool, { c with ex := Exchange.start c.ex.params, child := retriedChild c.child })
  else (pool, { c with ended := true })

/-- One pass of the exchange, and what `drive_child` does after it. -/
def callPass (pool : Pool) (c : BackendCall) (a : Answers) : Pool × BackendCall :=
  if c.ended then (pool, c)
  else
    let (pool, x) := c.ex.pass pool a
    if x.phase = .done then finishCall pool { c with ex := x } a.now
    else (pool, { c with ex := x })

/-- The end of an exchange is the one that `driveChild` sees. -/
lemma finishCall_driveChild {c : BackendCall} {st : ExchangeState} (h : Awaiting st c.child)
    (hover : c.ended = false) (hmethod : st.req.method = c.ex.params.method) (pool : Pool) (now : Nat)
    (s : Surroundings) (m : UpstreamManager) :
    if (finishCall pool c now).2.ended then
      ∃ resp, (driveChild s 0 m st [.done c.ex.succeeded c.ex.result]).2 = .respond st resp
    else
      (driveChild s 0 m st [.done c.ex.succeeded c.ex.result]).2 =
        .inFlight (st.setChild 0 (finishCall pool c now).2.child) := by
  unfold finishCall
  by_cases hok : c.ex.succeeded = true
  · simp only [if_pos hok, if_true]
    exact (drive_last 0 s m h (.inl hok) []).1
  · simp only [if_neg hok]
    by_cases hretry : retries c.child c.ex.params.method c.ex.result
    · have hfailed : c.ex.succeeded = false := by simpa using hok
      simp only [if_pos hretry, hover, Bool.false_eq_true, if_false, hfailed]
      exact (drive_retry 0 s m h (hmethod ▸ hretry) []).1
    · simp only [if_neg hretry, if_true]
      exact (drive_last 0 s m h (.inr (hmethod ▸ hretry)) []).1

/-- The connections on which a pass writes request bytes; connections are numbered as
they are opened, `n` is the number of the last one. Between the passes the pool
belongs to all requests, so each pass finds a pool of its own. -/
def writtenOn (n : Nat) (c : BackendCall) : List (Pool × Answers) → List Nat
  | [] => []
  | (pool, a) :: rest =>
    let x := (c.ex.pass pool a).2
    let n := if Opens (course c.ex) (course x) then n + 1 else n
    (if c.ex.sendOff < x.sendOff then [n] else []) ++ writtenOn n (callPass pool c a).2 rest

/-- How many attempts are left to a child. -/
def retriesLeft (ch : ChildExchange) (method : Bytes) : Nat :=
  if isIdempotent method then (min ch.maxRetries 2 - ch.attemptCount).toNat else 0

/-- How many connections a request can still open. -/
def callBudget (c : BackendCall) : Nat :=
  if c.ended then 0
  else opensLeft (course c.ex) + 2 * retriesLeft c.child c.ex.params.method

/-- The flag of the exchange is that of its method, and a request that is over has no
exchange under way. -/
structure BackendCall.Consistent (c : BackendCall) : Prop where
  idempotent : c.ex.idempotent = isIdempotent c.ex.params.method
  ended : c.ended = true → c.ex.phase = .done

lemma retriesLeft_retried {ch : ChildExchange} {method : Bytes} {be : BackendResponse}
    (h : retries ch method be) :
    retriesLeft (retriedChild ch) method + 1 = retriesLeft ch method ∧ isIdempotent method = true := by
  obtain ⟨hmax, hshould⟩ := h
  unfold shouldRetryBackendRequest at hshould
  split at hshould
  · cases hshould
  · rename_i htwo
    have hidem : isIdempotent method = true := (Bool.and_eq_true_iff.mp hshould).1
    refine ⟨?_, hidem⟩
    simp only [retriesLeft, hidem, if_true, retriedChild]
    omega

lemma opensLeft_start (params : Params) :
    opensLeft (course (Exchange.start params)) ≤ if isIdempotent params.method then 2 else 1 := by
  unfold Exchange.start
  dsimp only
  split
  · exact Nat.zero_le _
  · simp only [opensLeft, course, and_true]
    exact le_rfl

lemma start_params (params : Params) : (Exchange.start params).params = params := by
  unfold Exchange.start
  dsimp only
  split <;> rfl

lemma start_idempotent (params : Params) :
    (Exchange.start params).idempotent = isIdempotent params.method := by
  unfold Exchange.start
  dsimp only
  split <;> rfl

lemma start_onConnection (params : Params) : onConnection (Exchange.start params).phase = false := by
  unfold Exchange.start
  dsimp only
  split <;> rfl

lemma Passed.same {c c' : Course} (h : Passed c c') :
    c'.params = c.params ∧ c'.idempotent = c.idempotent := by
  cases h <;> exact ⟨rfl, rfl⟩

/-- The pass of an exchange, whatever its phase. -/
lemma pass_course (pool : Pool) (x : Exchange) (a : Answers) :
    (course (x.pass pool a).2).params = x.params ∧
      (course (x.pass pool a).2).idempotent = x.idempotent ∧
      opensLeft (course (x.pass pool a).2) +
        (if Opens (course x) (course (x.pass pool a).2) then 1 else 0) ≤ opensLeft (course x) := by
  by_cases hlive : x.phase ≠ .done ∧ x.phase ≠ .stuck
  · have hpassed := pass_passed pool a hlive
    exact ⟨hpassed.same.1, hpassed.same.2, hpassed.budget hlive⟩
  · have hno : ¬ Opens (course x) (course x) := fun h => Bool.false_ne_true (h.1.symm.trans h.2)
    rw [pass_over pool a hlive]
    exact ⟨rfl, rfl, by rw [if_neg hno]; exact le_rfl⟩

/-- A pass of a request keeps it consistent, pays for the connection it opens, and is
on a connection only if the exchange is. -/
lemma callPass_budget {c : BackendCall} (h : c.Consistent) (pool : Pool) (a : Answers) :
    (callPass pool c a).2.Consistent ∧
      callBudget (callPass pool c a).2 +
        (if Opens (course c.ex) (course (c.ex.pass pool a).2) then 1 else 0) ≤ callBudget c ∧
      (onConnection (callPass pool c a).2.ex.phase = true →
        onConnection (c.ex.pass pool a).2.phase = true) := by
  obtain ⟨hparams, hidem, hleft⟩ := pass_course pool c.ex a
  unfold callPass
  by_cases hover : c.ended = true
  · -- the exchange of a request that is over stays as it is
    have hstay : c.ex.pass pool a = (pool, c.ex) := by simp [Exchange.pass, h.ended hover]
    have hno : ¬ Opens (course c.ex) (course c.ex) :=
      fun hopens => Bool.false_ne_true (hopens.1.symm.trans hopens.2)
    rw [if_pos hover, hstay, if_neg hno]
    exact ⟨h, le_rfl, id⟩
  · rw [if_neg hover]
    have hbudget : callBudget c =
        opensLeft (course c.ex) + 2 * retriesLeft c.child c.ex.params.method := by
      simp [callBudget, hover]
    rw [hbudget]
    generalize c.ex.pass pool a = passed at hparams hidem hleft ⊢
    obtain ⟨pool', x⟩ := passed
    simp only [course] at hparams hidem
    have hx : x.idempotent = isIdempotent x.params.method := by rw [hidem, hparams, h.idempotent]
    dsimp only at hleft ⊢
    split
    · rename_i hdone
      unfold finishCall
      dsimp only
      split
      · -- answered
        have hphase : (x.reuseToPool pool' a.now).2.phase = x.phase ∧
            (x.reuseToPool pool' a.now).2.idempotent = x.idempotent ∧
            (x.reuseToPool pool' a.now).2.params = x.params := by
          unfold Exchange.reuseToPool
          repeat' split
          all_goals exact ⟨rfl, rfl, rfl⟩
        obtain ⟨hp, hi, hq⟩ := hphase
        refine ⟨⟨by rw [hi, hq, hx], fun _ => hp.trans hdone⟩, ?_, fun hon => ?_⟩
        · simp only [callBudget, if_true]
          omega
        · exact hp ▸ hon
      · split
        · -- tried again
          rename_i hretry
          obtain ⟨hcount, hmethod⟩ := retriesLeft_retried hretry
          have hstart := opensLeft_start x.params
          rw [if_pos hmethod] at hstart
          refine ⟨⟨?_, fun ho => absurd ho (by simpa using hover)⟩, ?_, fun hon => ?_⟩
          · simp only [start_params, start_idempotent]
          · simp only [callBudget, hover, Bool.false_eq_true, if_false, start_params]
            rw [← hparams]
            omega
          · simp [start_onConnection] at hon
        · -- given up
          refine ⟨⟨hx, fun _ => hdone⟩, ?_, id⟩
          simp only [callBudget, if_true]
          omega
    · refine ⟨⟨hx, fun ho => absurd ho (by simpa using hover)⟩, ?_, id⟩
      simp only [callBudget, hover, Bool.false_eq_true, if_false]
      rw [hparams]
      omega

/-- Request bytes are written on connections that are open or that the budget still
pays for. -/
lemma mem_writtenOn {c : BackendCall} (h : c.Consistent) {n k : Nat}
    {script : List (Pool × Answers)} (hk : k ∈ writtenOn n c script) :
    (n + if onConnection c.ex.phase then 0 else 1) ≤ k ∧ k ≤ n + callBudget c := by
  induction script generalizing c n with
  | nil => cases hk
  | cons step rest ih =>
    obtain ⟨pool, a⟩ := step
    obtain ⟨hnext, hbudget, hon⟩ := callPass_budget h pool a
    simp only [writtenOn, List.mem_append] at hk
    rcases hk with hk | hk
    · split at hk
      · rename_i hwrote
        have hsend := phase_of_wrote hwrote
        have hno : ¬ Opens (course c.ex) (course (c.ex.pass pool a).2) := by
          rintro ⟨hoff, -⟩
          simp [course, hsend, onConnection] at hoff
        rw [if_neg hno, List.mem_singleton] at hk
        simp only [hk, hsend, onConnection, if_true]
        omega
      · cases hk
    · have hih := ih hnext hk
      by_cases hopens : Opens (course c.ex) (course (c.ex.pass pool a).2)
      · simp only [if_pos hopens] at hih hbudget
        split_ifs at hih ⊢ <;> omega
      · simp only [if_neg hopens] at hih hbudget
        -- without a new connection an exchange that has none gets none
        have hstays : onConnection (callPass pool c a).2.ex.phase = true →
            onConnection c.ex.phase = true := by
          intro hc'
          by_contra hoff
          exact hopens ⟨by simpa [course] using hoff, hon hc'⟩
        split_ifs at hih ⊢ <;> first | omega | simp_all

/-- A request for any method but the three idempotent ones is written on at most one
connection, whatever the pool, the sockets and the clock do; for these three the
number of connections is at most twice the number of attempts. -/
theorem sent_on_few_connections (params : Params) (ch : ChildExchange) (hfirst : ch.attemptCount = 0)
    (script : List (Pool × Answers)) :
    (isIdempotent params.method = false →
      (writtenOn 0 ⟨Exchange.start params, ch, false⟩ script).toFinset.card ≤ 1) ∧
    (0 ≤ ch.maxRetries →
      ((writtenOn 0 ⟨Exchange.start params, ch, false⟩ script).toFinset.card : Int) ≤
        2 * (1 + min ch.maxRetries 2)) := by
  have hconsistent : BackendCall.Consistent ⟨Exchange.start params, ch, false⟩ :=
    ⟨by rw [start_idempotent, start_params], nofun⟩
  have hcard : (writtenOn 0 ⟨Exchange.start params, ch, false⟩ script).toFinset.card ≤
      callBudget ⟨Exchange.start params, ch, false⟩ := by
    have hsub : (writtenOn 0 ⟨Exchange.start params, ch, false⟩ script).toFinset ⊆
        Finset.Icc 1 (callBudget ⟨Exchange.start params, ch, false⟩) := by
      intro k hk
      have hbounds := mem_writtenOn hconsistent (List.mem_toFinset.mp hk)
      simp only [start_onConnection, Bool.false_eq_true, if_false, Nat.zero_add] at hbounds
      exact Finset.mem_Icc.mpr hbounds
    simpa using Finset.card_le_card hsub
  have hstart := opensLeft_start params
  have hbudget : callBudget ⟨Exchange.start params, ch, false⟩ =
      opensLeft (course (Exchange.start params)) + 2 * retriesLeft ch params.method := by
    simp [callBudget, start_params]
  constructor
  · intro hmethod
    simp only [hmethod, Bool.false_eq_true, if_false] at hstart
    simp only [retriesLeft, hmethod, Bool.false_eq_true, if_false] at hbudget
    omega
  · intro hmax
    have hleft : (retriesLeft ch params.method : Int) ≤ min ch.maxRetries 2 := by
      unfold retriesLeft
      split <;> omega
    split at hstart <;> omega

/-- An exchange that writes some bytes on a pooled connection, and then on a fresh
one, and can write no more on either. -/
def brokenTwice : List (Pool × Answers) :=
  let pool : Pool := fun _ => [{ sock := 7 }]
  [(pool, {}), (pool, { send := .wrote 5 }), (pool, { send := .failed }),
    (pool, {}), (pool, { send := .wrote 5 }), (pool, { send := .failed })]

/-- Two attempts of a GET, each of them replayed: four connections. -/
theorem sent_on_four_connections :
    (writtenOn 0 ⟨Exchange.start { host := ascii "10.0.0.1", method := ascii "GET", path := ascii "/" },
      { upstreamKey := [], maxRetries := 1 }, false⟩ (brokenTwice ++ brokenTwice)).toFinset.card = 4 ∧
    ((writtenOn 0 ⟨Exchange.start { host := ascii "10.0.0.1", method := ascii "GET", path := ascii "/" },
      { upstreamKey := [], maxRetries := 1 }, false⟩
      (brokenTwice ++ brokenTwice)).toFinset.card : Int) ≤ 2 * (1 + min 1 2) :=
  ⟨by decide +kernel, (sent_on_few_connections _ { upstreamKey := [], maxRetries := 1 } rfl _).2
    (by decide)⟩

end EpollGateway.Handler
