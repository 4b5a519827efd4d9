import EpollGateway.Upstream.Exchange

/-! # What a pass does

`Moved` is the inversion rule for `Exchange.pass`: a pass ends the exchange, replays it, opens
a connection, goes on, writes or receives. What becomes of some of the fields follows from it:
`Advanced` is for those that say how far a request has been written and what has been read.
-/

namespace EpollGateway.Upstream

open Bytes Handler

namespace Exchange

/-! ## Failures -/

/-- The request can be sent once more. -/
def Replayable (x : Exchange) : Prop := x.usedPooled ∧ x.idempotent ∧ ¬ x.retried

/-- The exchange begins anew. -/
def replay (x : Exchange) : Exchange :=
  { params := x.params
    idempotent := x.idempotent
    retried := true
    forceFresh := true
    succeeded := x.succeeded
    result := x.result
    replaying := x.replaying }

variable {x z : Exchange}

lemma fail_replay (h : x.Replayable) (pool : Pool) (result : BackendResponse) :
    x.fail pool result = (pool.invalidate (poolKey x.params), x.replay) := by
  unfold Replayable at h
  simp only [fail, if_pos h, if_pos h.1]
  rfl

lemma fail_final (h : ¬ x.Replayable) (pool : Pool) (result : BackendResponse) :
    x.fail pool result =
      (if x.usedPooled then pool.invalidate (poolKey x.params) else pool,
        { x with result := result, succeeded := false, phase := .done }) := by
  unfold Replayable at h
  simp only [fail, if_neg h]

/-- What an exception is reported as. -/
def raisedError : Phase → BackendError
  | .send => .writeFailed
  | .read => .readFailed
  | _ => .connectFailed

variable (pool : Pool) (a : Answers)

lemma raise_eq (x : Exchange) :
    x.raise pool =
      if x.replaying then (pool, { x with phase := .stuck })
      else
        ((x.fail pool (badGateway (raisedError x.phase))).1,
          { (x.fail pool (badGateway (raisedError x.phase))).2 with replaying := true }) := by
  unfold raise raisedError
  rfl

/-- The exchange inside or outside of the handler of an exception. -/
def mark (b : Bool) (x : Exchange) : Exchange := { x with replaying := b }

lemma fail_mark (b : Bool) (pool : Pool) (x : Exchange) (result : BackendResponse) :
    (x.mark b).fail pool result = ((x.fail pool result).1, (x.fail pool result).2.mark b) := by
  unfold fail mark
  dsimp only
  split <;> rfl

/-! ## The inversion rule -/

/-- What an attempt keeps until it fails or makes progress. -/
structure Attempt where
  params : Params
  idempotent : Bool
  retried : Bool
  succeeded : Bool
  result : BackendResponse
  sendOff : Nat
  responseBytes : Bytes

def attempt (x : Exchange) : Attempt :=
  ⟨x.params, x.idempotent, x.retried, x.succeeded, x.result, x.sendOff, x.responseBytes⟩

/-- The same attempt, which may have let go of its connection. -/
def Poised (x z : Exchange) : Prop :=
  attempt z = attempt x ∧ (z.usedPooled = true → x.usedPooled = true) ∧
    (z.sock = x.sock ∨ z.sock = none)

/-- The same attempt, at the same place. -/
def Unmoved (x z : Exchange) : Prop :=
  attempt z = attempt x ∧ z.usedPooled = x.usedPooled ∧ z.sock = x.sock ∧ z.phase = x.phase

lemma Unmoved.poised (h : Unmoved x z) : Poised x z :=
  ⟨h.1, h.2.1.symm.trans, .inl h.2.2.1⟩

lemma Unmoved.trans {y : Exchange} (h : Unmoved x y) (h' : Unmoved y z) : Unmoved x z :=
  ⟨h'.1.trans h.1, h'.2.1.trans h.2.1, h'.2.2.1.trans h.2.2.1, h'.2.2.2.trans h.2.2.2⟩

/-- What a pass can do. -/
inductive Moved (x : Exchange) (a : Answers) : Exchange → Prop where
  | ended {z : Exchange} (result : BackendResponse) (succeeded : Bool) : Poised x z →
      (succeeded = true → x.phase = .read) →
      Moved x a { z with result := result, succeeded := succeeded, phase := .done }
  | stuck {z : Exchange} : Poised x z → Moved x a { z with phase := .stuck }
  | replayed (b : Bool) : x.usedPooled = true → x.idempotent = true → x.retried = false →
      Moved x a (x.replay.mark b)
  | opened {phase : Phase} (sock : Option Nat) (pooled : Bool) (buf : Bytes) : x.phase = .connect →
      phase ≠ .connect → phase ≠ .read → phase ≠ .done → phase ≠ .stuck →
      Moved x a { x with sock := sock, usedPooled := pooled, responseBytes := buf, phase := phase }
  | onward {z : Exchange} (phase : Phase) (b : Bool) : Unmoved x z → x.phase ≠ .connect →
      phase ≠ .connect → phase ≠ .done → phase ≠ .stuck →
      (phase = .read → x.phase = .read ∨ 0 < x.sendOff) →
      Moved x a { z with phase := phase, replaying := b }
  | wrote {z : Exchange} (n : Nat) : Unmoved x z → x.phase = .send →
      Moved x a { z with sendOff := z.sendOff + n }
  | received {z : Exchange} {data : Bytes} : Unmoved x z → x.phase = .read →
      a.recv = .bytes data → Moved x a { z with responseBytes := z.responseBytes ++ data }

lemma Poised.fail (h : Poised x z) (pool : Pool) (a : Answers) (result : BackendResponse) :
    Moved x a (z.fail pool result).2 := by
  by_cases hreplay : z.Replayable
  · rcases Attempt.mk.inj h.1 with ⟨hparams, hidempotent, hretried, hsucceeded, hresult, -, -⟩
    have hsame : z.replay = x.replay.mark z.replaying := by
      unfold replay mark
      rw [hparams, hidempotent, hsucceeded, hresult]
    rw [fail_replay hreplay, hsame]
    refine .replayed _ (h.2.1 hreplay.1) ?_ ?_
    · rw [← hidempotent]
      exact hreplay.2.1
    · rw [← hretried]
      exact Bool.eq_false_iff.mpr hreplay.2.2
  · rw [fail_final hreplay]
    exact .ended _ _ h nofun

lemma Poised.raise (h : Poised x z) (pool : Pool) (a : Answers) : Moved x a (z.raise pool).2 := by
  rw [raise_eq]
  split
  · exact .stuck h
  · -- the replay runs inside the handler
    have hmark : Poised x (z.mark true) := h
    have hmoved := hmark.fail pool a (badGateway (raisedError z.phase))
    rwa [fail_mark] at hmoved

lemma openFresh_moved (hphase : x.phase = .connect) :
    Moved x a (openFresh pool { x with usedPooled := false } a).2 := by
  have hclosed : Poised x { x with usedPooled := false, sock := none } :=
    ⟨rfl, nofun, .inr rfl⟩
  unfold openFresh
  repeat' split
  all_goals
    first
    | exact hclosed.fail pool a _
    | exact .opened _ false x.responseBytes hphase nofun nofun nofun nofun

lemma openConnection_moved (hphase : x.phase = .connect) :
    Moved x a (x.openConnection pool a).2 := by
  have hunused : Poised x { x with usedPooled := false } := ⟨rfl, nofun, .inl rfl⟩
  unfold openConnection
  dsimp only
  repeat' split
  all_goals
    first
    | exact openFresh_moved _ a hphase
    | exact hunused.raise _ a
    | exact .opened _ true _ hphase nofun nofun nofun nofun

lemma unmoved_tryFrame (x : Exchange) : Unmoved x x.tryFrame.1 := by
  unfold tryFrame
  dsimp only
  repeat' split
  all_goals exact ⟨rfl, rfl, rfl, rfl⟩

lemma unmoved_withRequest (x : Exchange) : Unmoved x x.withRequest := by
  unfold withRequest
  split <;> exact ⟨rfl, rfl, rfl, rfl⟩

lemma buildRequest_ne_nil (p : Params) : buildRequest p ≠ [] := by
  simp [buildRequest, ascii, crlf]

lemma requestBytes_withRequest (x : Exchange) : x.withRequest.requestBytes ≠ [] := by
  unfold withRequest
  split
  · exact buildRequest_ne_nil _
  · assumption

lemma sendPass_moved (hphase : x.phase = .send) : Moved x a (x.sendPass pool a).2 := by
  have hsame := unmoved_withRequest x
  have hconnected : x.phase ≠ .connect := by simp [hphase]
  have hplace : x.withRequest.phase = .send := hsame.2.2.2.trans hphase
  unfold sendPass
  dsimp only
  split
  · rcases a.send with n | _ | _ | _
    · exact .wrote _ hsame hphase
    · refine .onward x.withRequest.phase false hsame hconnected ?_ ?_ ?_ ?_ <;> simp [hplace]
    · exact hsame.poised.fail pool a _
    · exact hsame.poised.raise pool a
  · -- all of the request has been sent, and it is not empty
    rename_i hall
    have hsent : 0 < x.sendOff := by
      have hpos := List.length_pos_of_ne_nil (requestBytes_withRequest x)
      have hoff : x.withRequest.sendOff = x.sendOff := congrArg Attempt.sendOff hsame.1
      omega
    exact .onward .read _ hsame hconnected nofun nofun nofun fun _ => .inr hsent

lemma eofPass_moved {y : Exchange} (hsame : Unmoved x y) (hphase : x.phase = .read) :
    Moved x a (y.eofPass pool).2 := by
  have hclosed : Unmoved x { y with peerClosed := true } := hsame
  have hframe := hclosed.trans (unmoved_tryFrame _)
  unfold eofPass
  dsimp only
  split
  · generalize ({ y with peerClosed := true } : Exchange).tryFrame = framed at hframe
    rcases framed with ⟨z, _ | _ | _ | _ | _⟩ <;> dsimp only
    case complete => exact .ended _ _ hframe.poised fun _ => hphase
    case threw => exact hframe.poised.raise pool a
    case hangs => exact .stuck hframe.poised
    all_goals exact hframe.poised.fail pool a _
  · exact hclosed.poised.fail pool a _

lemma readPass_moved (hphase : x.phase = .read) : Moved x a (x.readPass pool a).2 := by
  have hframe := unmoved_tryFrame x
  have hconnected : x.phase ≠ .connect := by simp [hphase]
  unfold readPass
  generalize x.tryFrame = framed at hframe
  rcases framed with ⟨y, _ | _ | _ | _ | _⟩ <;> dsimp only
  case complete => exact .ended _ _ hframe.poised fun _ => hphase
  case error => exact hframe.poised.fail pool a _
  case threw => exact hframe.poised.raise pool a
  case hangs => exact .stuck hframe.poised
  case incomplete =>
    have hplace : y.phase = .read := hframe.2.2.2.trans hphase
    repeat' split
    · exact hframe.poised.fail pool a _
    · exact eofPass_moved pool a hframe hphase
    · rename_i hrecv
      exact .received hframe hphase hrecv
    · refine .onward y.phase false hframe hconnected ?_ ?_ ?_ ?_ <;> simp [hplace, hphase]
    · exact hframe.poised.fail pool a _
    · exact hframe.poised.raise pool a

lemma pass_moved (hlive : x.phase ≠ .done ∧ x.phase ≠ .stuck) : Moved x a (x.pass pool a).2 := by
  have hsame : Unmoved x x := ⟨rfl, rfl, rfl, rfl⟩
  unfold pass
  rcases hphase : x.phase with _ | _ | _ | _ | _ | _ | _ <;> dsimp only
  case done => exact absurd hphase hlive.1
  case stuck => exact absurd hphase hlive.2
  all_goals
    split
    · exact hsame.poised.fail pool a _
  case connect => exact openConnection_moved pool a hphase
  case connecting =>
    have hconnected : x.phase ≠ .connect := by simp [hphase]
    unfold connectingPass
    repeat' split
    · refine .onward x.phase false hsame hconnected ?_ ?_ ?_ .inl <;> simp [hphase]
    · exact hsame.poised.fail pool a _
    · exact .onward .send _ hsame hconnected nofun nofun nofun nofun
    · exact hsame.poised.fail pool a _
    · exact .onward .tlsHandshake _ hsame hconnected nofun nofun nofun nofun
  case tlsHandshake =>
    have hconnected : x.phase ≠ .connect := by simp [hphase]
    unfold handshakePass
    split
    · exact .onward .send _ hsame hconnected nofun nofun nofun nofun
    · exact hsame.poised.fail pool a _
    · refine .onward x.phase false hsame hconnected ?_ ?_ ?_ .inl <;> simp [hphase]
  case send => exact sendPass_moved pool a hphase
  case read => exact readPass_moved pool a hphase

end Exchange

/-! ## How far an exchange has come -/

/-- How far an exchange has come. -/
structure Progress where
  phase : Phase
  sock : Option Nat
  sendOff : Nat
  responseBytes : Bytes
  succeeded : Bool

def progress (x : Exchange) : Progress :=
  ⟨x.phase, x.sock, x.sendOff, x.responseBytes, x.succeeded⟩

inductive Advanced (p : Progress) (a : Answers) : Progress → Prop where
  | ended {phase : Phase} {sock : Option Nat} {succeeded : Bool} : phase = .done ∨ phase = .stuck →
      sock = p.sock ∨ sock = none →
      (succeeded = true → (phase = .done ∧ p.phase = .read) ∨ p.succeeded = true) →
      Advanced p a ⟨phase, sock, p.sendOff, p.responseBytes, succeeded⟩
  | replayed : Advanced p a ⟨.connect, none, 0, [], p.succeeded⟩
  | opened {phase : Phase} (sock : Option Nat) (buf : Bytes) : p.phase = .connect →
      phase ≠ .connect → phase ≠ .read → Advanced p a ⟨phase, sock, p.sendOff, buf, p.succeeded⟩
  | onward {phase : Phase} : p.phase ≠ .connect → phase ≠ .connect →
      (phase = .read → p.phase = .read ∨ 0 < p.sendOff) →
      Advanced p a ⟨phase, p.sock, p.sendOff, p.responseBytes, p.succeeded⟩
  | wrote (n : Nat) : p.phase = .send →
      Advanced p a ⟨.send, p.sock, p.sendOff + n, p.responseBytes, p.succeeded⟩
  | received {data : Bytes} : p.phase = .read → a.recv = .bytes data →
      Advanced p a ⟨.read, p.sock, p.sendOff, p.responseBytes ++ data, p.succeeded⟩

/-- What a pass does to the bytes. -/
lemma pass_advanced (pool : Pool) {x : Exchange} (a : Answers)
    (hlive : x.phase ≠ .done ∧ x.phase ≠ .stuck) :
    Advanced (progress x) a (progress (x.pass pool a).2) := by
  have hmoved := Exchange.pass_moved pool a hlive
  generalize (x.pass pool a).2 = y at hmoved
  unfold progress
  cases hmoved with
  | ended result succeeded h hread =>
    rcases Exchange.Attempt.mk.inj h.1 with ⟨-, -, -, -, -, hoff, hbytes⟩
    dsimp only
    rw [hoff, hbytes]
    exact .ended (.inl rfl) h.2.2 fun hs => .inl ⟨rfl, hread hs⟩
  | stuck h =>
    rcases Exchange.Attempt.mk.inj h.1 with ⟨-, -, -, hsucceeded, -, hoff, hbytes⟩
    dsimp only
    rw [hoff, hbytes, hsucceeded]
    exact .ended (.inr rfl) h.2.2 .inr
  | replayed b => exact .replayed
  | opened sock pooled buf hphase hconnect hread => exact .opened _ _ hphase hconnect hread
  | onward phase b h hphase hconnect _ _ hread =>
    rcases Exchange.Attempt.mk.inj h.1 with ⟨-, -, -, hsucceeded, -, hoff, hbytes⟩
    dsimp only
    rw [h.2.2.1, hoff, hbytes, hsucceeded]
    exact .onward hphase hconnect hread
  | wrote n h hphase =>
    rcases Exchange.Attempt.mk.inj h.1 with ⟨-, -, -, hsucceeded, -, hoff, hbytes⟩
    dsimp only
    rw [h.2.2.1, h.2.2.2, hphase, hoff, hbytes, hsucceeded]
    exact .wrote n rfl
  | received h hphase hrecv =>
    rcases Exchange.Attempt.mk.inj h.1 with ⟨-, -, -, hsucceeded, -, hoff, hbytes⟩
    dsimp only
    rw [h.2.2.1, h.2.2.2, hphase, hoff, hbytes, hsucceeded]
    exact .received rfl hrecv

/-- An exchange that is over stays as it is. -/
lemma pass_over (pool : Pool) {x : Exchange} (a : Answers)
    (hover : ¬ (x.phase ≠ .done ∧ x.phase ≠ .stuck)) : x.pass pool a = (pool, x) := by
  unfold Exchange.pass
  rcases hp : x.phase with _ | _ | _ | _ | _ | _ | _ <;> simp_all

end EpollGateway.Upstream
