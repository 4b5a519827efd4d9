import EpollGateway.Upstream.Lockstep
import Mathlib.Tactic.SplitIfs

/-! # A replay starts from a clean slate

When `fail` starts a replay it resets what the first attempt has left behind, the deadline
included. The replay is then an exchange that was built anew at this moment, has to open a
connection and may not replay again (`Timed.fresh`), but for one thing that is not a field: a
replay that an exception started runs inside the handler of that exception, up to its first
wait, and a second exception is not caught there.

`Exchange` takes it as an answer whether the deadline has passed. Here the deadline is kept,
and each pass has its readings of the clock (`Timed`).

* A pass of the replay is a pass of the fresh exchange, unless it throws inside the handler
  (`pass_mark`).
* A replay behaves as the fresh exchange exactly if it does not (`replay_clean_iff`).
-/

namespace EpollGateway.Upstream

open Bytes Handler

namespace Exchange

/-! ## What a replay is compared with -/

/-- An exchange that was just built, with a connection to open and no replay left. -/
def fresh (params : Params) : Exchange :=
  { start params with retried := true, forceFresh := true }

/-- How a pass ends: the loop goes on (or is over), waits for an event, or throws. -/
inductive Leaving where
  | onward | waits | throws
deriving DecidableEq, Repr

/-- The same at an EOF. -/
def eofLeaving (x : Exchange) : Leaving :=
  let x := { x with peerClosed := true }
  if (headEnd x.responseBytes).isSome ∧ ¬ x.responseKeepalive then
    match x.tryFrame with
    | (_, .threw) => .throws
    | _ => .onward
  else .onward

def leaving (pool : Pool) (x : Exchange) (a : Answers) : Leaving :=
  if a.expired then .onward
  else
    match x.phase with
    | .connect =>
      if x.forceFresh then .onward
      else if (pool.checkout (poolKey x.params) a.now).1 ≠ none ∧ a.liveness = .threw then .throws
      else .onward
    | .connecting => if a.events then .onward else .waits
    | .tlsHandshake => if a.handshake = .wants then .waits else .onward
    | .send =>
      if x.sendOff < x.withRequest.requestBytes.length then
        match a.send with
        | .again => .waits
        | .threw => .throws
        | _ => .onward
      else .onward
    | .read =>
      match x.tryFrame with
      | (_, .threw) => .throws
      | (x, .incomplete) =>
        if x.responseBytes.length > x.params.maxResponseBytes then .onward
        else
          match a.recv with
          | .bytes [] => x.eofLeaving
          | .again => .waits
          | .threw => .throws
          | _ => .onward
      | _ => .onward
    | _ => .onward

/-! ## A pass inside the handler -/

lemma openFresh_mark (b : Bool) (pool : Pool) (x : Exchange) (a : Answers) :
    (x.mark b).openFresh pool a = ((x.openFresh pool a).1, (x.openFresh pool a).2.mark b) := by
  have hfail := fail_mark b pool { x with sock := none } (badGateway .connectFailed)
  have hparams : (x.mark b).params = x.params := rfl
  unfold openFresh
  rcases a.opening with _ | _ | _
  · exact hfail
  · rfl
  · dsimp only
    rw [hparams]
    split_ifs
    · rfl
    · exact hfail
    · rfl

lemma tryFrame_mark (b : Bool) (x : Exchange) :
    (x.mark b).tryFrame = (x.tryFrame.1.mark b, x.tryFrame.2) := by
  unfold tryFrame mark
  dsimp only
  repeat' split
  all_goals rfl

/-- What the handler does to a pass that ends in a given way. -/
def Marked (leaving : Leaving) (p : Bool → Pool × Exchange) : Prop :=
  match leaving with
  | .onward => ∀ b, p b = ((p false).1, (p false).2.mark b)
  | .waits => ∀ b, p b = p false
  | .throws => (p true).2.phase = .stuck ∧ (p false).2.phase = .done

variable {x : Exchange}

lemma fail_retried (h : x.retried = true) (pool : Pool) (result : BackendResponse) :
    (x.fail pool result).2.phase = .done := by
  rw [fail_final fun hreplay => hreplay.2.2 h]

lemma raise_marked (h : x.retried = true) (pool : Pool) :
    Marked .throws fun b => (x.mark b).raise pool := by
  refine ⟨rfl, ?_⟩
  have hdone := fail_retried (x := x.mark false) h pool (badGateway (raisedError x.phase))
  dsimp only
  rw [raise_eq, if_neg (by exact Bool.false_ne_true)]
  exact hdone

variable {p q : Pool × Exchange} {a : Answers}

lemma marked_onward {p : Bool → Pool × Exchange} (h : ∀ b, p b = (q.1, q.2.mark b)) :
    Marked .onward p := by
  intro b
  rw [h b, h false]
  rfl

lemma fail_marked (pool : Pool) (x : Exchange) (result : BackendResponse) :
    Marked .onward fun b => (x.mark b).fail pool result :=
  marked_onward fun b => fail_mark b pool x result

lemma tryFrame_retried (x : Exchange) : x.tryFrame.1.retried = x.retried := by
  unfold tryFrame
  dsimp only
  repeat' split
  all_goals rfl

lemma eofPass_marked (h : x.retried = true) (pool : Pool) :
    Marked x.eofLeaving fun b => (x.mark b).eofPass pool := by
  have hclosed : ∀ b, { x.mark b with peerClosed := true } =
      ({ x with peerClosed := true } : Exchange).mark b := fun b => rfl
  have hends : ∀ b, (headEnd (x.mark b).responseBytes).isSome ∧ ¬ (x.mark b).responseKeepalive ↔
      (headEnd x.responseBytes).isSome ∧ ¬ x.responseKeepalive := fun _ => Iff.rfl
  have hretried := (tryFrame_retried { x with peerClosed := true }).trans h
  unfold eofPass eofLeaving
  simp only [hclosed, tryFrame_mark, hends]
  generalize ({ x with peerClosed := true } : Exchange).tryFrame = framed at hretried
  split_ifs
  · rcases framed with ⟨y, _ | _ | _ | _ | _⟩
    · exact fail_marked pool y _
    · exact fun b => rfl
    · exact fail_marked pool y _
    · exact raise_marked hretried pool
    · exact fun b => rfl
  · exact fail_marked pool { x with peerClosed := true } _

lemma sendPass_marked (h : x.retried = true) (hphase : x.phase = .send) (pool : Pool)
    (htime : a.expired = false) :
    Marked (x.leaving pool a) fun b => (x.mark b).sendPass pool a := by
  have hrequest : ∀ b, (x.mark b).withRequest = x.withRequest.mark b := by
    intro b
    unfold withRequest mark
    split <;> rfl
  have hretried : x.withRequest.retried = true := by
    unfold withRequest
    split <;> exact h
  have hoff : x.withRequest.sendOff = x.sendOff := by
    unfold withRequest
    split <;> rfl
  have hleaving : x.leaving pool a =
      if x.withRequest.sendOff < x.withRequest.requestBytes.length then
        match a.send with
        | .again => .waits
        | .threw => .throws
        | _ => .onward
      else .onward := by
    rw [leaving, if_neg (by rw [htime]; exact Bool.false_ne_true), hphase, hoff]
  rw [hleaving]
  unfold sendPass
  simp only [hrequest]
  generalize x.withRequest = y at hretried
  by_cases hunsent : y.sendOff < y.requestBytes.length
  · have hmarked : ∀ b, (y.mark b).sendOff < (y.mark b).requestBytes.length := fun _ => hunsent
    simp only [if_pos hunsent, if_pos (hmarked _)]
    rcases a.send with n | _ | _ | _
    · exact fun b => rfl
    · exact fun b => rfl
    · exact fail_marked pool y _
    · exact raise_marked hretried pool
  · have hmarked : ∀ b, ¬ (y.mark b).sendOff < (y.mark b).requestBytes.length := fun _ => hunsent
    simp only [if_neg hunsent, if_neg (hmarked _)]
    exact fun b => rfl

lemma readPass_marked (h : x.retried = true) (hphase : x.phase = .read) (pool : Pool)
    (htime : a.expired = false) :
    Marked (x.leaving pool a) fun b => (x.mark b).readPass pool a := by
  have hretried := (tryFrame_retried x).trans h
  rw [leaving, if_neg (by rw [htime]; exact Bool.false_ne_true), hphase]
  unfold readPass
  simp only [tryFrame_mark]
  generalize x.tryFrame = framed at hretried
  rcases framed with ⟨y, _ | _ | _ | _ | _⟩
  · have hlength : ∀ b, (y.mark b).responseBytes.length > (y.mark b).params.maxResponseBytes ↔
        y.responseBytes.length > y.params.maxResponseBytes := fun _ => Iff.rfl
    dsimp only
    simp only [hlength]
    split_ifs with hover
    · exact fail_marked pool y _
    · rcases a.recv with (_ | ⟨c, data⟩) | _ | _ | _
      · exact eofPass_marked hretried pool
      · exact fun b => rfl
      · exact fun b => rfl
      · exact fail_marked pool y _
      · exact raise_marked hretried pool
  · exact fun b => rfl
  · exact fail_marked pool y _
  · exact raise_marked hretried pool
  · exact fun b => rfl

lemma connectingPass_marked (hphase : x.phase = .connecting) (pool : Pool)
    (htime : a.expired = false) :
    Marked (x.leaving pool a) fun b => (x.mark b).connectingPass pool a := by
  have hparams : ∀ b, (x.mark b).params = x.params := fun _ => rfl
  rw [leaving, if_neg (by rw [htime]; exact Bool.false_ne_true), hphase]
  unfold connectingPass
  simp only [hparams]
  rcases a.events with _ | _
  · exact fun b => rfl
  · simp only [not_true_eq_false, if_false, if_true]
    split_ifs
    · exact fail_marked pool x _
    · exact fun b => rfl
    · exact fail_marked pool x _
    · exact fun b => rfl

lemma openConnection_marked (h : x.retried = true) (hphase : x.phase = .connect) (pool : Pool)
    (htime : a.expired = false) :
    Marked (x.leaving pool a) fun b => (x.mark b).openConnection pool a := by
  have hopen : ∀ pool b, ({ x.mark b with usedPooled := false } : Exchange).openFresh pool a =
      ((({ x with usedPooled := false } : Exchange).openFresh pool a).1,
        (({ x with usedPooled := false } : Exchange).openFresh pool a).2.mark b) :=
    fun pool b => openFresh_mark b pool { x with usedPooled := false } a
  have hforce : ∀ b, (x.mark b).forceFresh = x.forceFresh := fun _ => rfl
  have hparams : ∀ b, (x.mark b).params = x.params := fun _ => rfl
  rw [leaving, if_neg (by rw [htime]; exact Bool.false_ne_true), hphase]
  unfold openConnection
  simp only [hforce, hparams]
  by_cases hfresh : x.forceFresh = true
  · simp only [if_pos hfresh]
    exact marked_onward fun b => hopen pool b
  · simp only [if_neg hfresh]
    rcases pool.checkout (poolKey x.params) a.now with ⟨_ | pooled, rest⟩
    · exact marked_onward fun b => hopen rest b
    · rcases a.liveness with _ | _ | _
      · exact fun b => rfl
      · exact marked_onward fun b => hopen rest b
      · exact raise_marked (x := { x with usedPooled := false }) h rest

/-- A pass inside the handler is the pass outside of it, unless it throws. -/
lemma pass_mark (h : x.retried = true) (pool : Pool) (a : Answers) :
    Marked (x.leaving pool a) fun b => (x.mark b).pass pool a := by
  by_cases hlive : x.Live
  · rcases htime : a.expired with _ | _
    · have hnow : ¬ a.expired = true := by rw [htime]; exact Bool.false_ne_true
      have hphase : ∀ b, (x.mark b).phase = x.phase := fun _ => rfl
      unfold pass
      rcases hx : x.phase with _ | _ | _ | _ | _ | _ | _ <;>
        simp only [hphase, hx, if_neg hnow]
      case connect => exact openConnection_marked h hx pool htime
      case connecting => exact connectingPass_marked hx pool htime
      case tlsHandshake =>
        rw [leaving, if_neg hnow, hx]
        unfold handshakePass
        rcases a.handshake with _ | _ | _
        · exact fun b => rfl
        · exact fail_marked pool x _
        · exact fun b => rfl
      case send => exact sendPass_marked h hx pool htime
      case read => exact readPass_marked h hx pool htime
      case done => exact absurd hx hlive.1
      case stuck => exact absurd hx hlive.2
    · -- the time is over
      have hpass : ∀ b, (x.mark b).pass pool a =
          (x.mark b).fail pool (gatewayTimeout (timeoutError x.phase)) := by
        intro b
        have hphase : (x.mark b).phase = x.phase := rfl
        unfold pass
        rw [hphase]
        rcases hx : x.phase with _ | _ | _ | _ | _ | _ | _
        case done => exact absurd hx hlive.1
        case stuck => exact absurd hx hlive.2
        all_goals exact if_pos htime
      rw [leaving, if_pos htime]
      exact marked_onward fun b => (hpass b).trans (fail_mark b pool x _)
  · have hover : ∀ b, (x.mark b).pass pool a = (pool, x.mark b) := fun b => pass_over pool a hlive
    have honward : x.leaving pool a = .onward := by
      unfold leaving
      unfold Live at hlive
      rcases hx : x.phase with _ | _ | _ | _ | _ | _ | _ <;> simp_all
    rw [honward]
    exact marked_onward (q := (pool, x)) hover

end Exchange

/-! ## The deadline -/

/-- An exchange with its `deadline_`, in nanoseconds. -/
structure Timed where
  exchange : Exchange
  deadline : Int

/-- The answers of a pass with what `expired` and `refresh_deadline` read from the clock;
`answers.expired` is not used. -/
structure Clocked where
  answers : Answers := {}
  checked : Int := 0
  refreshed : Int := 0

/-- A pass calls `refresh_deadline`, unless it ends the exchange, waits for a connection or
was interrupted in a send. -/
def Exchange.refreshes (x : Exchange) (a : Answers) (y : Exchange) : Bool :=
  match y.phase with
  | .done => false
  | .stuck => false
  | phase =>
    match x.phase with
    | .connecting => phase ≠ .connecting
    | .send => phase ≠ .send ∨ a.send ≠ .wrote 0
    | _ => true

namespace Timed

open Exchange

/-- `refresh_deadline`. -/
def deadlineFrom (params : Params) (now : Int) : Int := now + params.timeoutMs * 10 ^ 6

/-- The constructor. -/
def start (params : Params) (now : Int) : Timed :=
  { exchange := .start params, deadline := deadlineFrom params now }

/-- An exchange that was just built, with a connection to open and no replay left. -/
def fresh (params : Params) (now : Int) : Timed :=
  { exchange := .fresh params, deadline := deadlineFrom params now }

/-- The answers of a pass with that of `expired`. -/
def resolve (x : Timed) (c : Clocked) : Answers := { c.answers with expired := x.deadline ≤ c.checked }

def pass (pool : Pool) (x : Timed) (c : Clocked) : Pool × Timed :=
  let (pool, y) := x.exchange.pass pool (x.resolve c)
  (pool, {
    exchange := y
    deadline :=
      if x.exchange.refreshes (x.resolve c) y then deadlineFrom x.exchange.params c.refreshed
      else x.deadline })

def run (pool : Pool) (x : Timed) : List Clocked → Pool × Timed
  | [] => (pool, x)
  | c :: rest => run (x.pass pool c).1 (x.pass pool c).2 rest

def leaving (pool : Pool) (x : Timed) (c : Clocked) : Leaving := x.exchange.leaving pool (x.resolve c)

/-- An exception is thrown before the first wait. -/
def throwsFirst (pool : Pool) (x : Timed) : List Clocked → Bool
  | [] => false
  | c :: rest =>
    match x.leaving pool c with
    | .onward => throwsFirst (x.pass pool c).1 (x.pass pool c).2 rest
    | .waits => false
    | .throws => true

def mark (b : Bool) (x : Timed) : Timed := { x with exchange := x.exchange.mark b }

/-- The same pool, and the same exchange with the same deadline, but for the handler. -/
def Alike (p q : Pool × Timed) : Prop := p.1 = q.1 ∧ p.2.mark false = q.2.mark false

variable {x : Timed} {p q : Pool × Timed}

/-- A run with a deadline is a run whose answers say when it has passed. -/
lemma exists_run (pool : Pool) (x : Timed) (cs : List Clocked) : ∃ answers,
    x.exchange.run pool answers = ((x.run pool cs).1, (x.run pool cs).2.exchange) := by
  induction cs generalizing pool x with
  | nil => exact ⟨[], rfl⟩
  | cons c rest ih =>
    obtain ⟨answers, h⟩ := ih (x.pass pool c).1 (x.pass pool c).2
    exact ⟨x.resolve c :: answers, h⟩

lemma run_over {pool : Pool} (cs : List Clocked) (h : ¬ x.exchange.Live) :
    x.run pool cs = (pool, x) := by
  induction cs with
  | nil => rfl
  | cons c rest ih =>
    have hrefresh : x.exchange.refreshes (x.resolve c) x.exchange = false := by
      unfold Exchange.Live at h
      unfold refreshes
      rcases hx : x.exchange.phase with _ | _ | _ | _ | _ | _ | _ <;> simp_all
    have hpass : x.pass pool c = (pool, x) := by
      unfold Timed.pass
      rw [pass_over pool _ h]
      dsimp only
      rw [if_neg (by rw [hrefresh]; exact Bool.false_ne_true)]
    rw [run, hpass]
    exact ih

/-! ## Runs inside the handler -/

lemma pass_onward (h : x.exchange.retried = true) {pool : Pool} {c : Clocked}
    (hleaving : x.leaving pool c = .onward) (hout : x.mark false = x) :
    (x.mark true).pass pool c = ((x.pass pool c).1, (x.pass pool c).2.mark true) ∧
      (x.pass pool c).2.mark false = (x.pass pool c).2 := by
  have hmarked := pass_mark h pool (x.resolve c)
  unfold Timed.leaving at hleaving
  rw [hleaving] at hmarked
  have hmark : x.exchange.mark false = x.exchange := congrArg Timed.exchange hout
  have hinside := hmarked true
  have houtside := hmarked false
  dsimp only at hinside houtside
  rw [hmark] at hinside houtside
  have hresolve : (x.mark true).resolve c = x.resolve c := rfl
  have hparams : (x.mark true).exchange = x.exchange.mark true := rfl
  constructor
  · unfold Timed.pass
    rw [hresolve, hparams, hinside]
    rfl
  · unfold Timed.pass Timed.mark
    dsimp only
    congr 1
    exact (congrArg Prod.snd houtside).symm

lemma pass_waits (h : x.exchange.retried = true) {pool : Pool} {c : Clocked}
    (hleaving : x.leaving pool c = .waits) (hout : x.mark false = x) :
    (x.mark true).pass pool c = x.pass pool c := by
  have hmarked := pass_mark h pool (x.resolve c)
  unfold Timed.leaving at hleaving
  rw [hleaving] at hmarked
  have hmark : x.exchange.mark false = x.exchange := congrArg Timed.exchange hout
  have hsame := hmarked true
  dsimp only at hsame
  rw [hmark] at hsame
  have hresolve : (x.mark true).resolve c = x.resolve c := rfl
  have hparams : (x.mark true).exchange = x.exchange.mark true := rfl
  unfold Timed.pass
  rw [hresolve, hparams, hsame]
  rfl

/-- A run inside the handler is the run outside of it, exactly if nothing is thrown before
the first wait. -/
lemma run_mark (h : x.exchange.retried = true) (hout : x.mark false = x) (pool : Pool)
    (cs : List Clocked) :
    Alike ((x.mark true).run pool cs) (x.run pool cs) ↔ x.throwsFirst pool cs = false := by
  induction cs generalizing x pool with
  | nil => exact iff_of_true ⟨rfl, rfl⟩ rfl
  | cons c rest ih =>
    rw [run, run, throwsFirst]
    rcases hleaving : x.leaving pool c with _ | _ | _
    · -- the loop goes on, inside the handler on the one side
      obtain ⟨hinside, houtside⟩ := pass_onward h hleaving hout
      rw [hinside]
      exact ih ((pass_kept pool x.exchange _).retried h) houtside _
    · -- the wait has left the handler
      rw [pass_waits h hleaving hout]
      exact iff_of_true ⟨rfl, rfl⟩ rfl
    · -- the exception is caught on the one side only
      have hmarked := pass_mark h pool (x.resolve c)
      unfold Timed.leaving at hleaving
      rw [hleaving] at hmarked
      obtain ⟨hstuck, hdone⟩ := hmarked
      have hmark : x.exchange.mark false = x.exchange := congrArg Timed.exchange hout
      dsimp only at hdone
      rw [hmark] at hdone
      rw [run_over rest fun hlive => hlive.2 hstuck, run_over rest fun hlive => hlive.1 hdone]
      refine iff_of_false ?_ (show ¬ true = false from Bool.noConfusion)
      rintro ⟨-, hsame⟩
      have hphase := congrArg (fun y : Timed => y.exchange.phase) hsame
      exact Phase.noConfusion ((hstuck.symm.trans hphase).trans hdone)

end Timed

/-! ## What is seen of an exchange -/

namespace Exchange

lemma eofLeaving_mark (b : Bool) (x : Exchange) : (x.mark b).eofLeaving = x.eofLeaving := by
  have hclosed : ({ x.mark b with peerClosed := true } : Exchange) =
      mark b { x with peerClosed := true } := rfl
  unfold eofLeaving
  rw [hclosed]
  dsimp only
  rw [tryFrame_mark]
  rcases ({ x with peerClosed := true } : Exchange).tryFrame with ⟨y, _ | _ | _ | _ | _⟩ <;> rfl

lemma leaving_mark (b : Bool) (pool : Pool) (x : Exchange) (a : Answers) :
    (x.mark b).leaving pool a = x.leaving pool a := by
  have hrequest : (x.mark b).withRequest.requestBytes = x.withRequest.requestBytes := by
    unfold withRequest mark
    dsimp only
    split <;> rfl
  unfold leaving
  rw [tryFrame_mark, hrequest]
  rcases x.tryFrame with ⟨y, _ | _ | _ | _ | _⟩ <;> dsimp only
  case incomplete =>
    rw [eofLeaving_mark]
    rfl
  all_goals rfl

lemma reuseToPool_mark (b : Bool) (pool : Pool) (x : Exchange) (now : Nat) :
    (x.mark b).reuseToPool pool now =
      ((x.reuseToPool pool now).1, (x.reuseToPool pool now).2.mark b) := by
  unfold reuseToPool mark
  dsimp only
  repeat' split
  all_goals rfl

end Exchange

namespace Timed

variable {p q : Pool × Timed}

lemma Alike.exchange (h : Alike p q) : p.2.exchange.mark false = q.2.exchange.mark false :=
  congrArg Timed.exchange h.2

/-- Exchanges that are alike wait alike. -/
lemma Alike.leaving (h : Alike p q) (c : Clocked) : p.2.leaving p.1 c = q.2.leaving q.1 c := by
  have hdeadline := congrArg Timed.deadline h.2
  change p.2.deadline = q.2.deadline at hdeadline
  unfold Timed.leaving resolve
  rw [← Exchange.leaving_mark false p.1, ← Exchange.leaving_mark false q.1, h.1, h.exchange,
    hdeadline]

/-- And the pool gets the same connections back. -/
lemma Alike.reuseToPool (h : Alike p q) (now : Nat) :
    (p.2.exchange.reuseToPool p.1 now).1 = (q.2.exchange.reuseToPool q.1 now).1 := by
  have hp := Exchange.reuseToPool_mark false p.1 p.2.exchange now
  have hq := Exchange.reuseToPool_mark false q.1 q.2.exchange now
  rw [h.1, h.exchange, hq] at hp
  rw [h.1]
  exact (congrArg Prod.fst hp).symm

end Timed

/-! ## The beginning of a replay -/

namespace Exchange

/-- Up to its end an exchange has the result that it was built with. -/
lemma run_unfinished (pool : Pool) (x : Exchange) (answers : List Answers)
    (h : (x.run pool answers).2.phase ≠ .done) :
    (x.run pool answers).2.result = x.result ∧
      (x.run pool answers).2.succeeded = x.succeeded := by
  induction answers generalizing pool x with
  | nil => exact ⟨rfl, rfl⟩
  | cons a rest ih =>
    have hpass : (x.pass pool a).2.phase ≠ .done := by
      intro hdone
      rw [run, run_over rest fun hlive => hlive.1 hdone] at h
      exact h hdone
    have hkept := (pass_resets pool x a).unfinished hpass
    have hrest := ih _ _ h
    exact ⟨hrest.1.trans hkept.1, hrest.2.trans hkept.2⟩

/-- Whatever the first attempt has left behind, its replay is the fresh exchange. -/
lemma replay_fresh (params : Params) (pool : Pool) (answers : List Answers)
    (h : ((start params).run pool answers).2.phase ≠ .done) :
    ((start params).run pool answers).2.replay.mark false = fresh params := by
  have htimeout : ¬ params.timeoutMs ≤ 0 := by
    intro hle
    have hdone : (start params).phase = .done := by rw [start, if_pos hle]
    rw [run_over answers fun hlive => hlive.1 hdone] at h
    exact h hdone
  have hkept := run_kept pool (start params) answers
  have hunfinished := run_unfinished pool (start params) answers h
  unfold replay mark fresh
  dsimp only
  rw [hkept.params, hkept.idempotent, hunfinished.1, hunfinished.2, start, if_neg htimeout]

end Exchange

namespace Timed

open Exchange

/-- One idle connection for every backend. -/
def oneIdle : Pool := fun _ => [{ sock := 0 }]

/-- The request is on its way over the pooled connection. -/
def requestSent : Pool × Timed :=
  (start backendParams 0).run oneIdle [{}, { answers := { send := .wrote 100 }, refreshed := 5 }, {}]

/-- The peer closes the pooled connection without an answer, seven nanoseconds after the
start. -/
def closedByPeer : Pool × Timed :=
  requestSent.2.pass requestSent.1 { answers := { recv := .bytes [] }, checked := 6, refreshed := 7 }

/-- The first send on the pooled connection throws. -/
def sendThrew : Pool × Timed :=
  (start backendParams 0).run oneIdle [{}, { answers := { send := .threw } }]

/-- The pass in which a replay begins leaves the fresh exchange, with the deadline of one
that is built now. -/
lemma replay_mark (params : Params) {built : Int} {pool₀ pool pool' : Pool} {x y : Timed}
    {before : List Clocked} {c : Clocked}
    (hrun : (start params built).run pool₀ before = (pool, x))
    (hpass : x.pass pool c = (pool', y)) (hfirst : x.exchange.retried = false)
    (hreplay : y.exchange.retried = true) : y.mark false = fresh params c.refreshed := by
  obtain ⟨answers, hanswers⟩ := exists_run pool₀ (start params built) before
  rw [hrun] at hanswers
  have hresets := pass_resets pool x.exchange (x.resolve c)
  have hy : y.exchange = (x.exchange.pass pool (x.resolve c)).2 :=
    (congrArg (fun r : Pool × Timed => r.2.exchange) hpass).symm
  rw [← hy] at hresets
  have hlive : x.exchange.phase ≠ .done := by
    intro hdone
    rw [hy, pass_over pool _ fun hlive => hlive.1 hdone] at hreplay
    rw [hfirst] at hreplay
    cases hreplay
  change (Exchange.start params).run pool₀ answers = _ at hanswers
  have hreset : y.exchange.mark false = x.exchange.replay.mark false := by
    rcases hresets.reset with hkept | hreset
    · rw [hreplay, hfirst] at hkept
      cases hkept
    · exact hreset
  have hclean : y.exchange.mark false = .fresh params := by
    have hfresh := replay_fresh params pool₀ answers
    rw [hanswers] at hfresh
    exact hreset.trans (hfresh hlive)
  -- the replay has called `refresh_deadline`
  have hdeadline : y.deadline = deadlineFrom params c.refreshed := by
    have hparams : x.exchange.params = params := by
      have hkept := (run_kept pool₀ (Exchange.start params) answers).params
      rw [hanswers] at hkept
      refine hkept.trans ?_
      unfold Exchange.start
      dsimp only
      split <;> rfl
    have hphase : y.exchange.phase = .connect := congrArg Exchange.phase hreset
    have hrefresh : x.exchange.refreshes (x.resolve c) y.exchange = true := by
      unfold refreshes
      rw [hphase]
      rcases x.exchange.phase with _ | _ | _ | _ | _ | _ | _ <;> rfl
    have hset := congrArg (fun r : Pool × Timed => r.2.deadline) hpass
    unfold Timed.pass at hset
    dsimp only at hset
    rw [← hy, if_pos hrefresh, hparams] at hset
    exact hset.symm
  unfold mark fresh
  rw [hclean, hdeadline]

/-- A replay behaves as an exchange that is built when it begins, unless an exception has
started it and it throws another one before its first wait. -/
theorem replay_clean_iff (params : Params) {built : Int} {pool₀ pool pool' : Pool} {x y : Timed}
    {before : List Clocked} {c : Clocked}
    (hrun : (start params built).run pool₀ before = (pool, x))
    (hpass : x.pass pool c = (pool', y)) (hfirst : x.exchange.retried = false)
    (hreplay : y.exchange.retried = true) (later : List Clocked) :
    Alike (y.run pool' later) ((fresh params c.refreshed).run pool' later) ↔
      ¬ (y.exchange.replaying = true ∧
        (fresh params c.refreshed).throwsFirst pool' later = true) := by
  have hclean := replay_mark params hrun hpass hfirst hreplay
  generalize fresh params c.refreshed = z at hclean ⊢
  have hfresh : z.mark false = z := by
    rw [← hclean]
    rfl
  have hretried : z.exchange.retried = true := by
    rw [← hclean]
    exact hreplay
  have hy : y = z.mark y.exchange.replaying := by
    rw [← hclean]
    rfl
  rcases hin : y.exchange.replaying with _ | _
  · rw [hin, hfresh] at hy
    rw [hy]
    exact iff_of_true ⟨rfl, rfl⟩ fun hthrow => Bool.noConfusion hthrow.1
  · rw [hin] at hy
    rw [hy, run_mark hretried hfresh pool' later]
    simp

/-- After an EOF the replay is not inside a handler, and an exception in it is caught. -/
theorem replay_clean_eof :
    Alike (closedByPeer.2.run closedByPeer.1 [{}, { answers := { send := .threw } }])
      ((fresh backendParams 7).run closedByPeer.1 [{}, { answers := { send := .threw } }]) := by
  have hrun : (start backendParams 0).run oneIdle
      [{}, { answers := { send := .wrote 100 }, refreshed := 5 }, {}] =
      (requestSent.1, requestSent.2) := rfl
  have hpass : requestSent.2.pass requestSent.1
      { answers := { recv := .bytes [] }, checked := 6, refreshed := 7 } =
      (closedByPeer.1, closedByPeer.2) := rfl
  exact (replay_clean_iff backendParams hrun hpass (by decide +kernel) (by decide +kernel) _).mpr
    (by decide +kernel)

/-- The send throws on the pooled connection and again on the fresh one, which connects at
once: the second exception leaves `advance`, where a new exchange answers with a 502. -/
theorem replay_rethrows :
    (sendThrew.2.exchange.retried = true ∧
      (sendThrew.2.run sendThrew.1 [{}, { answers := { send := .threw } }]).2.exchange.phase =
        .stuck) ∧
    (((fresh backendParams 0).run sendThrew.1
        [{}, { answers := { send := .threw } }]).2.exchange.phase = .done ∧
      ((fresh backendParams 0).run sendThrew.1
        [{}, { answers := { send := .threw } }]).2.exchange.result = badGateway .writeFailed) := by
  decide +kernel

end Timed

end EpollGateway.Upstream
