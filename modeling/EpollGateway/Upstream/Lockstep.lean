import EpollGateway.Upstream.Blocking
import EpollGateway.Upstream.Reading

/-! # The two backend calls side by side

A run of an exchange is a sequence of events to which `forward_request` can be put.
`resume` is what is left of the call when the exchange stands where it stands, and a
pass takes from the events what the call takes (`pass_together`). There are four
places where it does not (`Parts`): when a send fails, when the backend closes the
connection before the end of a body that has a length or chunks, when the scan of the
chunks throws, and when the last receive goes beyond the limit for a response.
-/

namespace EpollGateway.Upstream

open Bytes Handler Blocking

namespace Exchange

/-! ## What a pass keeps -/

/-- The same request, and no fewer attempts. -/
structure Kept (x y : Exchange) : Prop where
  params : y.params = x.params
  idempotent : y.idempotent = x.idempotent
  retried : x.retried = true → y.retried = true

lemma Kept.trans {x y z : Exchange} (h : Kept x y) (h' : Kept y z) : Kept x z :=
  ⟨h'.params.trans h.params, h'.idempotent.trans h.idempotent, fun hx => h'.retried (h.retried hx)⟩

/-- What a pass does to the fields that a replay does not reset: they stay, unless the
exchange is over, and a pass that starts a replay resets the others. -/
structure Resets (x y : Exchange) : Prop where
  kept : Kept x y
  unfinished : y.phase ≠ .done → y.result = x.result ∧ y.succeeded = x.succeeded
  reset : y.retried = x.retried ∨ y.mark false = x.replay.mark false

lemma resets_of_attempt {x z : Exchange} (h : attempt z = attempt x) (phase : Phase) (b : Bool)
    (sendOff : Nat) (responseBytes : Bytes) :
    Resets x { z with
      phase := phase, replaying := b, sendOff := sendOff, responseBytes := responseBytes } := by
  rcases Attempt.mk.inj h with ⟨hparams, hidempotent, hretried, hsucceeded, hresult, -, -⟩
  exact ⟨⟨hparams, hidempotent, hretried.trans⟩, fun _ => ⟨hresult, hsucceeded⟩, .inl hretried⟩

lemma pass_resets (pool : Pool) (x : Exchange) (a : Answers) : Resets x (x.pass pool a).2 := by
  by_cases hlive : x.Live
  · have hmoved := pass_moved pool a hlive
    generalize (x.pass pool a).2 = y at hmoved
    cases hmoved with
    | ended result succeeded h _ =>
      rcases Attempt.mk.inj h.1 with ⟨hparams, hidempotent, hretried, -, -, -, -⟩
      exact ⟨⟨hparams, hidempotent, hretried.trans⟩, fun hlive => absurd rfl hlive, .inl hretried⟩
    | replayed b => exact ⟨⟨rfl, rfl, fun _ => rfl⟩, fun _ => ⟨rfl, rfl⟩, .inr rfl⟩
    | opened => exact ⟨⟨rfl, rfl, id⟩, fun _ => ⟨rfl, rfl⟩, .inl rfl⟩
    | stuck h => exact resets_of_attempt h.1 _ _ _ _
    | onward phase b h => exact resets_of_attempt h.1 _ _ _ _
    | wrote n h => exact resets_of_attempt h.1 _ _ _ _
    | received h => exact resets_of_attempt h.1 _ _ _ _
  · rw [pass_over pool a hlive]
    exact ⟨⟨rfl, rfl, id⟩, fun _ => ⟨rfl, rfl⟩, .inl rfl⟩

lemma pass_kept (pool : Pool) (x : Exchange) (a : Answers) : Kept x (x.pass pool a).2 :=
  (pass_resets pool x a).kept

lemma run_kept (pool : Pool) (x : Exchange) (answers : List Answers) :
    Kept x (x.run pool answers).2 := by
  induction answers generalizing pool x with
  | nil => exact ⟨rfl, rfl, id⟩
  | cons a rest ih => exact (pass_kept pool x a).trans (ih _ _)

end Exchange

/-! ## The events of a run -/

/-- No socket function throws, and a write that is done has written something. -/
structure Answers.Quiet (a : Answers) : Prop where
  liveness : a.liveness ≠ .threw
  send : a.send ≠ .threw
  wrote : a.send ≠ .wrote 0
  recv : a.recv ≠ .threw

namespace Exchange

/-- Some of the request is left to send. -/
def Unsent (x : Exchange) : Prop := x.sendOff < x.withRequest.requestBytes.length

instance (x : Exchange) : Decidable x.Unsent := inferInstanceAs (Decidable (_ < _))

/-- The response is not there yet. -/
def Unread (x : Exchange) : Prop :=
  frameOf x.params.maxResponseBytes false x.responseBytes = .more ∧
    x.responseBytes.length ≤ x.params.maxResponseBytes

instance (x : Exchange) : Decidable x.Unread := inferInstanceAs (Decidable (_ ∧ _))

/-- The exchange has something to wait for. -/
def Waits (x : Exchange) : Prop :=
  x.phase = .connecting ∨ x.phase = .tlsHandshake ∨ (x.phase = .send ∧ x.Unsent) ∨
    (x.phase = .read ∧ x.Unread)

/-- A pass that returns to the event loop, to be called again when the socket is
ready or the time is over. -/
def Pauses (x : Exchange) (a : Answers) : Prop :=
  a.expired = false ∧
    ((x.phase = .connecting ∧ a.events = false) ∨
      (x.phase = .tlsHandshake ∧ a.handshake = .wants) ∨
      (x.phase = .send ∧ x.Unsent ∧ a.send = .again) ∨
      (x.phase = .read ∧ x.Unread ∧ a.recv = .again))

instance (x : Exchange) (a : Answers) : Decidable (x.Pauses a) :=
  inferInstanceAs (Decidable (_ ∧ (_ ∨ _ ∨ _ ∨ _)))

/-- The time is over only after a pause. -/
def Patient (idle : Bool) (pool : Pool) (x : Exchange) : List Answers → Prop
  | [] => True
  | a :: rest =>
    (a.expired = true → idle = true) ∧
      Patient (x.Pauses a) (x.pass pool a).1 (x.pass pool a).2 rest

instance decidablePatient (idle : Bool) (pool : Pool) (x : Exchange) :
    (answers : List Answers) → Decidable (Patient idle pool x answers)
  | [] => .isTrue trivial
  | a :: rest =>
    have := decidablePatient (x.Pauses a) (x.pass pool a).1 (x.pass pool a).2 rest
    inferInstanceAs (Decidable ((a.expired = true → idle = true) ∧ _))

def openEvents (x : Exchange) (a : Answers) : List Event :=
  .opened a.opening ::
    (if a.opening = .connected ∧ x.params.tls.enable then [.tlsReady a.tlsReady] else [])

/-- What a pass is told, as far as it asks. -/
def passEvents (pool : Pool) (x : Exchange) (a : Answers) : List Event :=
  if a.expired then [.waitTimedOut]
  else
    match x.phase with
    | .connect =>
      if x.forceFresh then x.openEvents a
      else
        .clock a.now ::
          match (pool.checkout (poolKey x.params) a.now).1 with
          | none => x.openEvents a
          | some _ =>
            .probed a.liveness :: (if a.liveness = .dead then x.openEvents a else [])
    | .connecting =>
      if a.events then
        .socketError a.socketError ::
          (if ¬ a.socketError ∧ x.params.tls.enable then [.tlsReady a.tlsReady] else [])
      else []
    | .tlsHandshake => [.handshake a.handshake]
    | .send => if x.Unsent then [.sent a.send] else []
    | .read => if x.Unread then [.received a.recv] else []
    | .done => []
    | .stuck => []

/-- The events of a run. -/
def trace (pool : Pool) (x : Exchange) : List Answers → List Event
  | [] => []
  | a :: rest =>
    if x.phase = .done then []
    else x.passEvents pool a ++ trace (x.pass pool a).1 (x.pass pool a).2 rest

/-! ## Where the two part -/

/-- A send fails without an exception, and the request is not replayed. -/
def SendFails (x : Exchange) (a : Answers) : Prop :=
  x.phase = .send ∧ x.Unsent ∧ a.send = .failed ∧ ¬ x.Replayable

/-- The backend closes the connection, as it has announced, before the end of a body
that has a length or chunks. -/
def CutShort (x : Exchange) (a : Answers) : Prop :=
  x.phase = .read ∧ x.Unread ∧ a.recv = .bytes [] ∧
    ∃ h ∈ headEnd x.responseBytes, keepsAlive (x.responseBytes.take h) = false ∧
      bodyKind (x.responseBytes.take h) ≠ .untilClose

/-- The scan of a chunked body within the limit throws. -/
def ScanThrows (x : Exchange) : Prop :=
  x.phase = .read ∧ x.responseBytes.length ≤ x.params.maxResponseBytes ∧
    frameOf x.params.maxResponseBytes false x.responseBytes = .threw

/-- The buffer is beyond the limit, and it has a frame: a message, or none that ends
in a replay. -/
def BeyondLimit (x : Exchange) : Prop :=
  x.phase = .read ∧ x.params.maxResponseBytes < x.responseBytes.length ∧
    ((frameOf x.params.maxResponseBytes false x.responseBytes).result = .complete ∨
      (frameOf x.params.maxResponseBytes false x.responseBytes = .bad ∧ ¬ x.Replayable))

instance (x : Exchange) : Decidable x.Replayable := inferInstanceAs (Decidable (_ ∧ _ ∧ ¬ _))

/-- A pass that `forward_request` does not follow. -/
def Parts (x : Exchange) (a : Answers) : Prop :=
  a.expired = false ∧ (x.SendFails a ∨ x.CutShort a ∨ x.ScanThrows ∨ x.BeyondLimit)

instance (x : Exchange) (a : Answers) : Decidable (x.Parts a) :=
  inferInstanceAs (Decidable (_ ∧ ((_ ∧ _ ∧ _ ∧ ¬ _) ∨
    (_ ∧ _ ∧ _ ∧ ∃ h ∈ headEnd x.responseBytes, _ ∧ _) ∨ (_ ∧ _ ∧ _) ∨
    (_ ∧ _ ∧ (_ ∨ (_ ∧ ¬ _))))))

/-- No pass of a run is one where the two part. -/
def Together (pool : Pool) (x : Exchange) : List Answers → Prop
  | [] => True
  | a :: rest => ¬ x.Parts a ∧ Together (x.pass pool a).1 (x.pass pool a).2 rest

instance decidableTogether (pool : Pool) (x : Exchange) :
    (answers : List Answers) → Decidable (Together pool x answers)
  | [] => .isTrue trivial
  | a :: rest =>
    have := decidableTogether (x.pass pool a).1 (x.pass pool a).2 rest
    inferInstanceAs (Decidable (¬ x.Parts a ∧ _))

/-! ## The rest of the call -/

def roundOf (x : Exchange) : Round :=
  { attempt := if x.retried then 1 else 0, usedPooled := x.usedPooled }

def nextOf (x : Exchange) : Continue := if x.retried then afterLoop else secondRound x.params

/-- What is left of `forward_request` where the exchange stands. -/
def resume (idle : Bool) (pool : Pool) (x : Exchange) (events : List Event) : Option Forwarded :=
  match x.phase with
  | .connect =>
    if x.retried then secondRound x.params pool events
    else firstRound x.params (secondRound x.params) pool events
  | .connecting => connecting x.params x.roundOf x.nextOf pool events
  | .tlsHandshake => handshakeLoop x.params x.roundOf x.nextOf pool idle events
  | .send => sendAll x.params x.roundOf x.nextOf pool x.responseBytes x.sendOff events
  | .read => readLoop x.params x.roundOf x.nextOf pool x.responseBytes events
  | .done => none
  | .stuck => none

/-- The call has returned what the exchange has come to. -/
def Agrees (outcome : Option Forwarded) (pool : Pool) (x : Exchange) : Prop :=
  ∃ kept, outcome = some (.returned pool x.result x.retried kept)

/-- The call is where the exchange is after a pass. -/
structure Follows (call : List Event → Option Forwarded) (idle : Bool) (pool : Pool)
    (x : Exchange) : Prop where
  live : x.Live → ∀ events, call events = resume idle pool x events
  done : x.phase = .done → ∀ events, Agrees (call events) pool x

variable {call : List Event → Option Forwarded} {x : Exchange} {a : Answers}
  {idle : Bool} {pool : Pool} {p : Params} {headerEnd : Nat}

lemma Follows.congr {call' : List Event → Option Forwarded} (h : Follows call' idle pool x)
    (hcall : ∀ events, call events = call' events) : Follows call idle pool x := by
  rwa [show call = call' from funext hcall]

/-- The marks of `try_frame` do not matter. -/
lemma Follows.of_core {r s : Pool × Exchange} (hcore : coreOf r = coreOf s)
    (h : Follows call idle s.1 s.2) : Follows call idle r.1 r.2 := by
  obtain ⟨hpool, hx⟩ := Prod.ext_iff.mp hcore
  change r.1 = s.1 at hpool
  change r.2.core = s.2.core at hx
  have hphase : r.2.phase = s.2.phase := congrArg (·.phase) hx
  have hresume : ∀ pool events, resume idle pool r.2 events = resume idle pool s.2 events := by
    intro pool events
    have hz := congrArg (fun z => resume idle pool z events) hx
    exact hz
  constructor
  · intro hlive events
    rw [hpool, hresume]
    exact h.live (by unfold Live at hlive ⊢; rwa [← hphase]) events
  · intro hdone events
    obtain ⟨kept, hkept⟩ := h.done (hphase.symm.trans hdone) events
    refine ⟨kept, ?_⟩
    rw [hkept, hpool, show r.2.result = s.2.result from congrArg (·.result) hx,
      show r.2.retried = s.2.retried from congrArg (·.retried) hx]

lemma attempt_roundOf (x : Exchange) : decide (x.roundOf.attempt ≠ 0) = x.retried := by
  unfold roundOf
  rcases x.retried <;> rfl

lemma returns_roundOf (x : Exchange) (pool : Pool) (response : BackendResponse) :
    returns x.roundOf pool response = some (.returned pool response x.retried none) := by
  rw [returns, attempt_roundOf]

/-- The first failure on a pooled connection is replayed by both. -/
lemma follows_replay (idle : Bool) (pool : Pool) (result : BackendResponse) (hreplay : x.Replayable)
    (hcall : ∀ events, call events = x.nextOf (pool.invalidate (poolKey x.params)) events) :
    Follows call idle (x.fail pool result).1 (x.fail pool result).2 := by
  rw [fail_replay hreplay]
  refine ⟨fun _ events => ?_, nofun⟩
  have hretried : x.retried = false := by simpa using hreplay.2.2
  rw [hcall, nextOf, hretried]
  rfl

/-- Any other failure is reported by both. -/
lemma follows_final (idle : Bool) (pool : Pool) (result : BackendResponse) (hfinal : ¬ x.Replayable)
    (hcall : ∀ events, call events =
      returns x.roundOf (if x.usedPooled then pool.invalidate (poolKey x.params) else pool)
        result) :
    Follows call idle (x.fail pool result).1 (x.fail pool result).2 := by
  rw [fail_final hfinal]
  refine ⟨fun hlive => absurd rfl hlive.1, fun _ events => ⟨none, ?_⟩⟩
  rw [hcall, returns_roundOf]

lemma giveUp_replay (pool : Pool) (result : BackendResponse) (hreplay : x.Replayable)
    (hmethod : x.idempotent = isIdempotent x.params.method) (events : List Event) :
    giveUp x.params x.roundOf x.nextOf pool result events =
      x.nextOf (pool.invalidate (poolKey x.params)) events := by
  rw [giveUp, if_pos (show x.roundOf.usedPooled = true from hreplay.1), ← hmethod,
    if_pos hreplay.2.1]

lemma giveUp_final (pool : Pool) (result : BackendResponse) (h : x.Tidy)
    (hfinal : ¬ x.Replayable) (hmethod : x.idempotent = isIdempotent x.params.method)
    (events : List Event) :
    giveUp x.params x.roundOf x.nextOf pool result events =
      returns x.roundOf (if x.usedPooled then pool.invalidate (poolKey x.params) else pool)
        result := by
  by_cases hpooled : x.usedPooled
  · have hidempotent : ¬ x.idempotent = true := fun hi =>
      hfinal ⟨hpooled, hi, by rw [h.pooled hpooled]; exact Bool.false_ne_true⟩
    rw [giveUp, if_pos (show x.roundOf.usedPooled = true from hpooled), ← hmethod,
      if_neg hidempotent, if_pos hpooled]
  · rw [giveUp, if_neg (show ¬ x.roundOf.usedPooled = true from hpooled), if_neg hpooled]

lemma follows_giveUp (idle : Bool) (pool : Pool) (result : BackendResponse) (h : x.Tidy)
    (hmethod : x.idempotent = isIdempotent x.params.method) :
    Follows (giveUp x.params x.roundOf x.nextOf pool result) idle
      (x.fail pool result).1 (x.fail pool result).2 := by
  by_cases hreplay : x.Replayable
  · exact follows_replay idle pool result hreplay (giveUp_replay pool result hreplay hmethod)
  · exact follows_final idle pool result hreplay (giveUp_final pool result h hreplay hmethod)

/-- A pooled connection is one of the first round. -/
lemma incomplete_eq (pool : Pool) (framingError : Bool) (h : x.Tidy) :
    incomplete x.params x.roundOf x.nextOf pool framingError =
      giveUp x.params x.roundOf x.nextOf pool
        (badGateway (if framingError then .invalidResponse else .readFailed)) := by
  funext events
  unfold incomplete giveUp
  by_cases hpooled : x.usedPooled
  · have hattempt : x.roundOf.attempt = 0 := by simp [roundOf, h.pooled hpooled]
    simp [hattempt]
  · rw [if_neg (show ¬ x.roundOf.usedPooled = true from hpooled),
      if_neg (show ¬ x.roundOf.usedPooled = true from hpooled)]

lemma follows_incomplete (idle : Bool) (pool : Pool) (framingError : Bool) (h : x.Tidy)
    (hmethod : x.idempotent = isIdempotent x.params.method) :
    Follows (incomplete x.params x.roundOf x.nextOf pool framingError) idle
      (x.fail pool (badGateway (if framingError then .invalidResponse else .readFailed))).1
      (x.fail pool (badGateway (if framingError then .invalidResponse else .readFailed))).2 := by
  rw [incomplete_eq pool framingError h]
  exact follows_giveUp idle pool _ h hmethod

lemma follows_returns (idle : Bool) (pool : Pool) (result : BackendResponse)
    (hfresh : x.usedPooled = false) :
    Follows (fun _ => returns x.roundOf pool result) idle
      (x.fail pool result).1 (x.fail pool result).2 := by
  have hfinal : ¬ x.Replayable := fun hr => absurd (hfresh.symm.trans hr.1) nofun
  refine follows_final idle pool result hfinal fun _ => ?_
  rw [hfresh, if_neg Bool.false_ne_true]

/-! ## Pass by pass -/

/-- A pass that goes on. -/
lemma follows_onward (hlive : x.Live) (h : ∀ events, call events = resume idle pool x events) :
    Follows call idle pool x :=
  ⟨fun _ => h, fun hdone => absurd hdone hlive.1⟩

lemma connected_plain (htls : p.tls.enable = false) (round : Round) (next : Continue)
    (pool : Pool) (events : List Event) :
    connected p round next pool events = sendAll p round next pool [] 0 events := by
  unfold connected
  rw [htls, if_neg Bool.false_ne_true]

lemma connected_tls (htls : p.tls.enable = true) (round : Round) (next : Continue) (pool : Pool)
    (ready : Bool) (events : List Event) :
    connected p round next pool (.tlsReady ready :: events) =
      if ready then handshakeLoop p round next pool false events
      else returns round pool (badGateway .connectFailed) := by
  unfold connected
  rw [htls, if_pos rfl]
  rcases ready <;> rfl

lemma openFresh_together (pool : Pool) (a : Answers) (hfresh : x.usedPooled = false)
    (hbuf : x.responseBytes = []) (hoff : x.sendOff = 0) :
    Follows (fun events => Blocking.openFresh x.params x.roundOf x.nextOf pool
        (x.openEvents a ++ events)) false
      (x.openFresh pool a).1 (x.openFresh pool a).2 := by
  unfold openFresh openEvents
  rcases a.opening with _ | _ | _ <;> dsimp only
  case failed => exact follows_returns (x := { x with sock := none }) false pool _ hfresh
  case inProgress => exact follows_onward ⟨nofun, nofun⟩ fun _ => rfl
  case connected =>
    rcases htls : x.params.tls.enable with _ | _
    · rw [if_pos Bool.false_ne_true, if_neg fun hc => Bool.false_ne_true hc.2]
      refine follows_onward ⟨nofun, nofun⟩ fun events => ?_
      have hsend := connected_plain htls x.roundOf x.nextOf pool events
      rw [← hbuf, ← hoff] at hsend
      exact hsend
    · rw [if_neg (not_not_intro rfl), if_pos ⟨rfl, rfl⟩]
      have hhandshake := connected_tls htls x.roundOf x.nextOf pool
      rcases a.tlsReady with _ | _
      · rw [if_pos Bool.false_ne_true]
        exact (follows_returns (x := { x with sock := none }) false pool
          (badGateway .connectFailed) hfresh).congr fun events => hhandshake false events
      · rw [if_neg (not_not_intro rfl)]
        exact follows_onward ⟨nofun, nofun⟩ fun events => hhandshake true events

lemma connect_together (pool : Pool) (h : x.Tidy) (hphase : x.phase = .connect)
    (hquiet : a.Quiet) (htime : a.expired = false) :
    Follows (fun events => resume false pool x (x.passEvents pool a ++ events)) false
      (x.openConnection pool a).1 (x.openConnection pool a).2 := by
  obtain ⟨hused, hbuf, -, hoff⟩ := h.unsent (.inl hphase)
  have hx : { x with usedPooled := false } = x := by rw [← hused]
  have hopen := fun pool => openFresh_together (x := x) pool a hused hbuf hoff
  have hround : x.roundOf = { attempt := if x.retried then 1 else 0 } := by rw [roundOf, hused]
  rcases hretried : x.retried with _ | _
  · have hforce : ¬ x.forceFresh = true := by rw [h.fresh, hretried]; exact Bool.false_ne_true
    rw [nextOf, hround, hretried] at hopen
    have hcall : ∀ events, resume false pool x (x.passEvents pool a ++ events) =
        firstRound x.params (secondRound x.params) pool (x.passEvents pool a ++ events) := by
      intro events
      simp only [resume, hphase, hretried, if_neg Bool.false_ne_true]
    have hevents : x.passEvents pool a = .clock a.now ::
        match (pool.checkout (poolKey x.params) a.now).1 with
        | none => x.openEvents a
        | some _ => .probed a.liveness :: (if a.liveness = .dead then x.openEvents a else []) := by
      simp only [passEvents, hphase, htime, if_neg Bool.false_ne_true, if_neg hforce]
    refine Follows.congr ?_ hcall
    rw [hevents]
    rcases hpool : pool.checkout (poolKey x.params) a.now with ⟨_ | pooled, pool'⟩
    · rw [show x.openConnection pool a = x.openFresh pool' a by
        simp only [openConnection, hx, if_neg hforce, hpool]]
      refine (hopen pool').congr fun events => ?_
      simp only [List.cons_append, firstRound, hpool]
      rfl
    · rcases hprobe : a.liveness with _ | _ | _
      case threw => exact absurd hprobe hquiet.liveness
      case dead =>
        rw [show x.openConnection pool a = x.openFresh pool' a by
          simp only [openConnection, hx, if_neg hforce, hpool, hprobe]]
        refine (hopen pool').congr fun events => ?_
        simp only [List.cons_append, firstRound, hpool, if_true]
        rfl
      case alive =>
        rw [show x.openConnection pool a = (pool', { x with
            sock := some pooled.sock
            usedPooled := true
            responseBytes := pooled.leftover
            phase := .send }) by
          simp only [openConnection, if_neg hforce, hpool, hprobe]]
        refine follows_onward ⟨nofun, nofun⟩ fun events => ?_
        simp only [List.cons_append, firstRound, hpool, resume, roundOf, nextOf, hretried, hoff]
        rfl
  · have hforce : x.forceFresh = true := by rw [h.fresh, hretried]
    rw [nextOf, hround, hretried] at hopen
    have hconnection : x.openConnection pool a = x.openFresh pool a := by
      unfold openConnection
      rw [hx]
      dsimp only
      rw [if_pos hforce]
    rw [hconnection]
    refine (hopen pool).congr fun events => ?_
    simp only [resume, passEvents, hphase, hretried, htime, if_neg Bool.false_ne_true, if_pos hforce,
      if_true]
    rfl

lemma connecting_together (pool : Pool) (idle : Bool) (h : x.Tidy)
    (hphase : x.phase = .connecting) (htime : a.expired = false) :
    Follows (fun events => resume idle pool x (x.passEvents pool a ++ events)) (a.events = false)
      (x.connectingPass pool a).1 (x.connectingPass pool a).2 := by
  obtain ⟨hused, hbuf, -, hoff⟩ := h.unsent (.inr (.inl hphase))
  have hcall : ∀ events, resume idle pool x events =
      connecting x.params x.roundOf x.nextOf pool events := by
    intro events
    simp only [resume, hphase]
  refine Follows.congr ?_ fun events => hcall _
  unfold connectingPass passEvents
  rw [htime, hphase]
  dsimp only
  rcases a.events with _ | _
  · exact follows_onward ⟨nofun, nofun⟩ fun _ => rfl
  rcases a.socketError with _ | _
  · rcases htls : x.params.tls.enable with _ | _
    · refine follows_onward ⟨nofun, nofun⟩ fun events => ?_
      have hsend := connected_plain htls x.roundOf x.nextOf pool events
      rw [← hbuf, ← hoff] at hsend
      exact hsend
    · have hhandshake := connected_tls htls x.roundOf x.nextOf pool
      rcases a.tlsReady with _ | _
      · exact (follows_returns _ pool (badGateway .connectFailed) hused).congr
          fun events => hhandshake false events
      · exact follows_onward ⟨nofun, nofun⟩ fun events => hhandshake true events
  · exact follows_returns _ pool (badGateway .connectFailed) hused

lemma handshake_together (pool : Pool) (idle : Bool) (h : x.Tidy)
    (hphase : x.phase = .tlsHandshake) (htime : a.expired = false) :
    Follows (fun events => resume idle pool x (x.passEvents pool a ++ events))
      (a.handshake = .wants)
      (x.handshakePass pool a).1 (x.handshakePass pool a).2 := by
  obtain ⟨hused, hbuf, -, hoff⟩ := h.unsent (.inr (.inr hphase))
  have hcall : ∀ events, resume idle pool x (x.passEvents pool a ++ events) =
      handshakeLoop x.params x.roundOf x.nextOf pool idle (.handshake a.handshake :: events) := by
    intro events
    simp only [resume, passEvents, hphase, htime, if_neg Bool.false_ne_true]
    rfl
  refine Follows.congr ?_ hcall
  unfold handshakePass
  rcases a.handshake with _ | _ | _ <;> dsimp only
  case complete =>
    refine follows_onward ⟨nofun, nofun⟩ fun events => ?_
    simp only [handshakeLoop, resume, hbuf, hoff]
    rfl
  case failed =>
    refine (follows_returns _ pool (badGateway .connectFailed) hused).congr fun events => ?_
    unfold handshakeLoop
    rfl
  case wants =>
    refine follows_onward ⟨?_, ?_⟩ fun events => ?_
    · exact fun hc => nomatch hphase.symm.trans hc
    · exact fun hc => nomatch hphase.symm.trans hc
    · simp only [resume, hphase]
      rw [handshakeLoop]
      rfl

lemma withRequest_eq (h : x.Tidy) :
    x.withRequest = { x with requestBytes := buildRequest x.params } := by
  unfold withRequest
  split
  · rfl
  · rename_i hbuilt
    rcases h.request with ⟨hnil, -⟩ | hbytes
    · exact absurd hnil hbuilt
    · rw [← hbytes]

lemma unsent_iff (h : x.Tidy) : x.Unsent ↔ x.sendOff < (buildRequest x.params).length := by
  rw [Unsent, withRequest_eq h]

lemma send_together (pool : Pool) (idle idle' : Bool) (h : x.Tidy)
    (hmethod : x.idempotent = isIdempotent x.params.method) (hphase : x.phase = .send)
    (hquiet : a.Quiet) (htime : a.expired = false) (hsends : ¬ x.SendFails a) :
    Follows (fun events => resume idle pool x (x.passEvents pool a ++ events)) idle'
      (x.sendPass pool a).1 (x.sendPass pool a).2 := by
  have hcall : ∀ events, resume idle pool x (x.passEvents pool a ++ events) =
      sendAll x.params x.roundOf x.nextOf pool x.responseBytes x.sendOff
        ((if x.Unsent then [.sent a.send] else []) ++ events) := by
    intro events
    simp only [resume, passEvents, hphase, htime, if_neg Bool.false_ne_true]
  refine Follows.congr ?_ hcall
  unfold sendPass
  rw [withRequest_eq h]
  dsimp only
  by_cases hunsent : x.Unsent
  · have hleft := (unsent_iff h).mp hunsent
    rw [if_pos hunsent, if_pos hleft]
    rcases hsend : a.send with n | _ | _ | _ <;> dsimp only
    case wrote =>
      have hn : n ≠ 0 := fun hn => hquiet.wrote (hn ▸ hsend)
      refine follows_onward (x := { x with
        requestBytes := buildRequest x.params
        sendOff := x.sendOff + min n ((buildRequest x.params).length - x.sendOff) })
        (by simp [Live, hphase]) fun events => ?_
      rw [List.singleton_append, sendAll, if_pos hleft, if_neg hn]
      simp only [resume, hphase]
      rfl
    case again =>
      refine follows_onward (x := { x with
        requestBytes := buildRequest x.params
        replaying := false }) (by simp [Live, hphase]) fun events => ?_
      rw [List.singleton_append, sendAll, if_pos hleft]
      simp only [resume, hphase]
      rfl
    case failed =>
      -- the request is replayed, or the error is not the same
      have hreplay : x.Replayable := by
        by_contra hfinal
        exact hsends ⟨hphase, hunsent, hsend, hfinal⟩
      refine follows_replay (x := { x with requestBytes := buildRequest x.params }) idle' pool _
        hreplay fun events => ?_
      rw [List.singleton_append, sendAll, if_pos hleft]
      exact giveUp_replay pool _ hreplay hmethod events
    case threw => exact absurd hsend hquiet.send
  · have hsent : ¬ x.sendOff < (buildRequest x.params).length := fun hlt =>
      hunsent ((unsent_iff h).mpr hlt)
    rw [if_neg hunsent, if_neg hsent]
    refine follows_onward ⟨nofun, nofun⟩ fun events => ?_
    unfold sendAll
    rw [if_neg hsent]
    rfl

/-! ## A look at the response -/

lemma look_result (p : Params) (buf : Bytes) :
    (look p buf).result = (frameOf p.maxResponseBytes false buf).result := by
  unfold look frameOf
  rcases headEnd buf with _ | k <;> dsimp only
  · split
    · rw [if_pos (by assumption)]
      rfl
    · rw [if_neg (by assumption)]
      rfl
  · rcases bodyKind (buf.take k) with _ | _ | n | _ | _ <;> dsimp only
    case chunked =>
      unfold chunkedFrame
      rcases scanBody buf (k + 4) with _ | _ | _ | _ | _ <;> rfl
    case length =>
      repeat' split
      all_goals rfl
    case untilClose => split <;> rfl
    all_goals rfl

lemma look_headerEnd (p : Params) (buf : Bytes) : (look p buf).headerEnd = headEnd buf := by
  unfold look
  rcases headEnd buf with _ | k <;> dsimp only
  repeat' split
  all_goals rfl

lemma look_keepalive (p : Params) {buf : Bytes} (h : headEnd buf = some headerEnd) :
    (look p buf).keepalive = keepsAlive (buf.take headerEnd) := by
  unfold look
  simp only [h]
  repeat' split
  all_goals rfl

/-- What a call returns with a message. -/
lemma complete_message {round : Round} {buf body : Bytes}
    (h : frameOf p.maxResponseBytes false buf = .message headerEnd body) :
    ∃ kept, complete round pool buf (look p buf) false =
      some (.returned pool (parseResponse buf headerEnd body) (round.attempt ≠ 0) kept) := by
  have hhead := headEnd_of_message h
  suffices hbody : (if (look p buf).chunked then (look p buf).decoded
      else bodyText buf headerEnd (look p buf).bodyEnd) = body by
    simp only [complete, look_headerEnd, hhead, Option.getD_some, hbody]
    exact ⟨_, rfl⟩
  unfold frameOf at h
  unfold look
  simp only [hhead] at h ⊢
  rcases hkind : bodyKind (buf.take headerEnd) with _ | _ | n | _ | _ <;> simp only [hkind] at h ⊢
  case chunked =>
    unfold chunkedFrame at h
    rcases hscan : scanBody buf (headerEnd + 4) with _ | _ | ⟨e, d⟩ | _ | _ <;>
      simp only [hscan] at h ⊢ <;> cases h
    simp [decodedSoFar_of_complete hscan]
  case length =>
    split at h
    · cases h
    · rename_i hcap
      split at h
      · rename_i hlen
        cases h
        rw [if_neg hcap, if_pos hlen, if_neg Bool.false_ne_true]
      · cases h
  case untilClose =>
    split at h <;> cases h
  all_goals cases h

/-- The end of the stream completes a body without a length for both. -/
lemma complete_closed {round : Round} {buf : Bytes} (hhead : headEnd buf = some headerEnd)
    (hkind : bodyKind (buf.take headerEnd) = .untilClose)
    (hkeep : keepsAlive (buf.take headerEnd) = false) :
    complete round pool buf { look p buf with bodyEnd := some buf.length } true =
      some (.returned pool
        (parseResponse buf headerEnd (bodyText buf headerEnd (some buf.length)))
        (round.attempt ≠ 0) none) := by
  simp [complete, look, hhead, hkind, hkeep]

section ReadLoop

variable {p : Params} (round : Round) (next : Continue) (pool : Pool) {buf : Bytes}

lemma readLoop_over (h : p.maxResponseBytes < buf.length) (events : List Event) :
    readLoop p round next pool buf events = incomplete p round next pool false events := by
  unfold readLoop
  rw [if_pos h]

lemma readLoop_message (h : buf.length ≤ p.maxResponseBytes)
    (hframe : (frameOf p.maxResponseBytes false buf).result = .complete) (events : List Event) :
    readLoop p round next pool buf events = complete round pool buf (look p buf) false := by
  unfold readLoop
  rw [if_neg (Nat.not_lt.mpr h)]
  simp only [look_result, hframe]

lemma readLoop_bad (h : buf.length ≤ p.maxResponseBytes)
    (hframe : frameOf p.maxResponseBytes false buf = .bad) (events : List Event) :
    readLoop p round next pool buf events = incomplete p round next pool true events := by
  unfold readLoop
  rw [if_neg (Nat.not_lt.mpr h)]
  simp only [look_result, hframe, Frame.result]

lemma readLoop_timedOut (h : buf.length ≤ p.maxResponseBytes)
    (hframe : frameOf p.maxResponseBytes false buf = .more) (events : List Event) :
    readLoop p round next pool buf (.waitTimedOut :: events) =
      giveUp p round next pool (gatewayTimeout .readTimeout) events := by
  unfold readLoop
  rw [if_neg (Nat.not_lt.mpr h)]
  simp only [look_result, hframe, Frame.result]

lemma readLoop_received (h : buf.length ≤ p.maxResponseBytes)
    (hframe : frameOf p.maxResponseBytes false buf = .more) (answer : RecvAnswer)
    (events : List Event) :
    readLoop p round next pool buf (.received answer :: events) =
      match answer with
      | .bytes [] =>
        if (headEnd buf).isSome ∧ ¬ (look p buf).keepalive then
          complete round pool buf { look p buf with bodyEnd := some buf.length } true
        else incomplete p round next pool false events
      | .bytes data => readLoop p round next pool (buf ++ data) events
      | .again => readLoop p round next pool buf events
      | .failed => incomplete p round next pool false events
      | .threw => some .threw := by
  conv_lhs => unfold readLoop
  rw [if_neg (Nat.not_lt.mpr h)]
  simp only [look_result, look_headerEnd, hframe, Frame.result]
  rcases answer with ⟨_ | ⟨c, data⟩⟩ | _ | _ | _ <;> rfl

end ReadLoop

lemma follows_stuck (call : List Event → Option Forwarded) (idle : Bool) (pool : Pool)
    (h : x.phase = .stuck) : Follows call idle pool x :=
  ⟨fun hlive => absurd h hlive.2, fun hdone => nomatch h.symm.trans hdone⟩

lemma follows_raise
    (h : Follows call idle (x.fail pool (badGateway (raisedError x.phase))).1
      (x.fail pool (badGateway (raisedError x.phase))).2) :
    Follows call idle (x.raise pool).1 (x.raise pool).2 := by
  rw [raise_eq]
  split
  · exact follows_stuck call idle pool rfl
  · exact ⟨fun hlive => h.live hlive, fun hdone => h.done hdone⟩

lemma follows_answered (idle : Bool) {body : Bytes}
    (h : ∀ events, ∃ kept, call events =
      some (.returned pool (parseResponse x.responseBytes headerEnd body)
        (x.roundOf.attempt ≠ 0) kept)) :
    Follows call idle pool (x.answered headerEnd body) := by
  refine ⟨fun hlive => absurd rfl hlive.1, fun _ events => ?_⟩
  obtain ⟨kept, hkept⟩ := h events
  rw [attempt_roundOf] at hkept
  exact ⟨kept, hkept⟩

/-- The read phase beyond the limit. -/
lemma readOver_together (pool : Pool) (a : Answers) (idle' : Bool) (h : x.Tidy)
    (hmethod : x.idempotent = isIdempotent x.params.method) (hphase : x.phase = .read)
    (hcap : x.params.maxResponseBytes < x.responseBytes.length) (hlimit : ¬ x.BeyondLimit) :
    Follows (incomplete x.params x.roundOf x.nextOf pool false) idle'
      (x.readPass pool a).1 (x.readPass pool a).2 := by
  have hfails := follows_incomplete idle' pool false h hmethod
  have hcore := readPass_core pool a h
  rcases hframe : frameOf x.params.maxResponseBytes false x.responseBytes
    with _ | ⟨k, body⟩ | _ | _ | _
    <;> simp only [hframe] at hcore
  case more =>
    rw [if_pos hcap] at hcore
    exact .of_core hcore hfails
  case message => exact absurd ⟨hphase, hcap, .inl (by rw [hframe]; rfl)⟩ hlimit
  case bad =>
    have hreplay : x.Replayable := by
      by_contra hfinal
      exact hlimit ⟨hphase, hcap, .inr ⟨hframe, hfinal⟩⟩
    refine .of_core hcore (follows_replay idle' pool _ hreplay fun events => ?_)
    rw [incomplete_eq pool false h, giveUp_replay pool _ hreplay hmethod]
  case threw =>
    refine .of_core hcore (follows_raise ?_)
    rw [hphase]
    exact hfails
  case hangs =>
    exact .of_core (s := (pool, { x.core with phase := .stuck })) hcore
      (follows_stuck _ idle' pool rfl)

/-- The end of the stream. -/
lemma readEof_together (pool : Pool) (idle' : Bool) (h : x.Tidy)
    (hmethod : x.idempotent = isIdempotent x.params.method) (hphase : x.phase = .read)
    (hunread : x.Unread) (hrecv : a.recv = .bytes []) (hcut : ¬ x.CutShort a) :
    Follows (fun events => readLoop x.params x.roundOf x.nextOf pool x.responseBytes
        (.received a.recv :: events)) idle'
      (x.readPass pool a).1 (x.readPass pool a).2 := by
  have hcore := readPass_core pool a h
  simp only [hunread.1, if_neg (Nat.not_lt.mpr hunread.2), hrecv] at hcore
  have hfails := follows_incomplete idle' pool false h hmethod
  have hloop := fun events => readLoop_received x.roundOf x.nextOf pool hunread.2 hunread.1 a.recv
      events
  rw [hrecv] at hloop ⊢
  rcases hhead : headEnd x.responseBytes with _ | k
  · have hmore : frameOf x.params.maxResponseBytes true x.responseBytes = .more := by
      rw [← hunread.1]
      simp only [frameOf, hhead]
    simp only [hmore] at hcore
    refine .of_core hcore (hfails.congr fun events => (hloop events).trans ?_)
    rw [hhead]
    exact if_neg fun hc => Bool.false_ne_true hc.1
  · rcases hkeep : keepsAlive (x.responseBytes.take k) with _ | _
    · -- the backend closes as announced, so the body has no length
      have hkind : bodyKind (x.responseBytes.take k) = .untilClose := by
        by_contra hkind
        exact hcut ⟨hphase, hunread, hrecv, k, hhead, hkeep, hkind⟩
      have hmessage : frameOf x.params.maxResponseBytes true x.responseBytes =
          .message k (bodyText x.responseBytes k (some x.responseBytes.length)) := by
        simp [frameOf, hhead, hkind, hkeep]
      simp only [hmessage] at hcore
      refine .of_core (s := (pool, x.answered k _)) hcore
        (follows_answered idle' fun events => ⟨none, ?_⟩)
      rw [hloop]
      dsimp only
      rw [if_pos ⟨by rw [hhead]; rfl, by rw [look_keepalive _ hhead, hkeep]; exact Bool.false_ne_true⟩]
      exact complete_closed hhead hkind hkeep
    · have hmore : frameOf x.params.maxResponseBytes true x.responseBytes = .more := by
        rcases frameOf_closed hunread.1 with hmore | ⟨k', body, -, hk', hclose⟩
        · exact hmore
        · cases hhead.symm.trans hk'
          exact nomatch hkeep.symm.trans hclose
      simp only [hmore] at hcore
      refine .of_core hcore (hfails.congr fun events => (hloop events).trans ?_)
      dsimp only
      rw [if_neg fun hc => hc.2 (by rw [look_keepalive _ hhead, hkeep])]

lemma read_together (pool : Pool) (idle idle' : Bool) (h : x.Tidy)
    (hmethod : x.idempotent = isIdempotent x.params.method) (hphase : x.phase = .read)
    (hquiet : a.Quiet) (htime : a.expired = false) (hparts : ¬ x.Parts a) :
    Follows (fun events => resume idle pool x (x.passEvents pool a ++ events)) idle'
      (x.readPass pool a).1 (x.readPass pool a).2 := by
  have hcall : ∀ events, resume idle pool x (x.passEvents pool a ++ events) =
      readLoop x.params x.roundOf x.nextOf pool x.responseBytes
        ((if x.Unread then [.received a.recv] else []) ++ events) := by
    intro events
    simp only [resume, passEvents, hphase, htime, if_neg Bool.false_ne_true]
  refine Follows.congr ?_ hcall
  by_cases hover : x.params.maxResponseBytes < x.responseBytes.length
  · rw [if_neg fun hunread : x.Unread => Nat.not_lt.mpr hunread.2 hover]
    refine (readOver_together pool a idle' h hmethod hphase hover fun hlimit =>
      hparts ⟨htime, .inr (.inr (.inr hlimit))⟩).congr fun events => readLoop_over _ _ _ hover _
  have hcap := Nat.not_lt.mp hover
  have hcore := readPass_core pool a h
  rcases hframe : frameOf x.params.maxResponseBytes false x.responseBytes
    with _ | ⟨k, body⟩ | _ | _ | _
    <;> simp only [hframe] at hcore
  case message =>
    refine .of_core (s := (pool, x.answered k body)) hcore
      (follows_answered idle' fun events => ?_)
    rw [readLoop_message _ _ _ hcap (by rw [hframe]; rfl)]
    exact complete_message hframe
  case bad =>
    rw [if_neg fun hunread : x.Unread => nomatch hframe.symm.trans hunread.1]
    exact .of_core hcore ((follows_incomplete idle' pool true h hmethod).congr
      fun events => readLoop_bad _ _ _ hcap hframe _)
  case threw => exact absurd ⟨htime, .inr (.inr (.inl ⟨hphase, hcap, hframe⟩))⟩ hparts
  case hangs =>
    exact .of_core (s := (pool, { x.core with phase := .stuck })) hcore
      (follows_stuck _ idle' pool rfl)
  case more =>
    have hunread : x.Unread := ⟨hframe, hcap⟩
    have hloop := fun events => readLoop_received x.roundOf x.nextOf pool hcap hframe a.recv events
    rw [if_neg hover] at hcore
    rw [if_pos hunread]
    rcases hrecv : a.recv with ⟨_ | ⟨c, data⟩⟩ | _ | _ | _ <;> simp only [hrecv] at hcore hloop
    · rw [← hrecv]
      exact readEof_together pool idle' h hmethod hphase hunread hrecv fun hcut =>
        hparts ⟨htime, .inr (.inl hcut)⟩
    · refine .of_core (s := (pool, { x with responseBytes := x.responseBytes ++ c :: data })) hcore
        (follows_onward (by simp [Live, hphase]) fun events => (hloop events).trans ?_)
      simp only [resume, hphase]
      rfl
    · refine .of_core (s := (pool, { x with replaying := false })) hcore
        (follows_onward (by simp [Live, hphase]) fun events => (hloop events).trans ?_)
      simp only [resume, hphase]
      rfl
    · exact .of_core hcore ((follows_incomplete idle' pool false h hmethod).congr hloop)
    · exact absurd hrecv hquiet.recv

/-! ## A pass of both -/

/-- A pass that comes too late. -/
lemma expired_together (pool : Pool) (idle' : Bool) (h : x.Tidy)
    (hmethod : x.idempotent = isIdempotent x.params.method) (hwaits : x.Waits)
    (htime : a.expired = true) :
    Follows (fun events => resume true pool x (x.passEvents pool a ++ events)) idle'
      (x.pass pool a).1 (x.pass pool a).2 := by
  have hevents : x.passEvents pool a = [.waitTimedOut] := by simp only [passEvents, htime, if_true]
  have hpass : x.pass pool a = x.fail pool (gatewayTimeout (timeoutError x.phase)) := by
    unfold pass
    rcases hwaits with hphase | hphase | ⟨hphase, -⟩ | ⟨hphase, -⟩ <;>
      simp only [hphase, htime, if_true]
  rw [hevents, hpass]
  rcases hwaits with hphase | hphase | ⟨hphase, hunsent⟩ | ⟨hphase, hunread⟩ <;> rw [hphase]
  · refine (follows_returns idle' pool _ (h.unsent (.inr (.inl hphase))).1).congr fun events => ?_
    simp only [resume, hphase]
    rfl
  · refine (follows_returns idle' pool _ (h.unsent (.inr (.inr hphase))).1).congr fun events => ?_
    simp only [resume, hphase]
    unfold handshakeLoop
    rfl
  · refine (follows_giveUp idle' pool _ h hmethod).congr fun events => ?_
    simp only [resume, hphase]
    unfold sendAll
    rw [if_pos ((unsent_iff h).mp hunsent)]
    rfl
  · refine (follows_giveUp idle' pool _ h hmethod).congr fun events => ?_
    simp only [resume, hphase]
    exact readLoop_timedOut _ _ _ hunread.2 hunread.1 events

/-- A pass of the exchange is a part of the call. -/
lemma pass_together (pool : Pool) (h : x.Tidy) (hlive : x.Live)
    (hmethod : x.idempotent = isIdempotent x.params.method) (hquiet : a.Quiet)
    (hidle : idle = true → x.Waits) (hpatient : a.expired = true → idle = true)
    (hparts : ¬ x.Parts a) :
    Follows (fun events => resume idle pool x (x.passEvents pool a ++ events)) (x.Pauses a)
      (x.pass pool a).1 (x.pass pool a).2 := by
  rcases htime : a.expired with _ | _
  case true =>
    have hidle' := hpatient htime
    rw [hidle']
    exact expired_together pool _ h hmethod (hidle hidle') htime
  unfold pass
  rcases hphase : x.phase with _ | _ | _ | _ | _ | _ | _ <;> dsimp only <;>
    try rw [if_neg (by rw [htime]; exact Bool.false_ne_true)]
  case connect =>
    have hpause : decide (x.Pauses a) = false := by simp [Pauses, hphase]
    have hfirst := connect_together pool h hphase hquiet htime
    rw [hpause]
    refine hfirst.congr fun events => ?_
    simp only [resume, hphase]
  case connecting =>
    have hpause : decide (x.Pauses a) = decide (a.events = false) := by simp [Pauses, hphase, htime]
    rw [hpause]
    exact connecting_together pool idle h hphase htime
  case tlsHandshake =>
    have hpause : decide (x.Pauses a) = decide (a.handshake = .wants) := by
      simp [Pauses, hphase, htime]
    rw [hpause]
    exact handshake_together pool idle h hphase htime
  case send =>
    exact send_together pool idle _ h hmethod hphase hquiet htime fun hs =>
      hparts ⟨htime, .inl hs⟩
  case read => exact read_together pool idle _ h hmethod hphase hquiet htime hparts
  case done => exact absurd hphase hlive.1
  case stuck => exact absurd hphase hlive.2

/-- After a pause there is something to wait for. -/
lemma Pauses.waits (pool : Pool) (h : x.Tidy) (hpause : x.Pauses a) :
    (x.pass pool a).2.Waits := by
  obtain ⟨htime, hwhere⟩ := hpause
  have hnow : ¬ a.expired = true := by rw [htime]; exact Bool.false_ne_true
  unfold pass
  rcases hwhere with ⟨hphase, hevents⟩ | ⟨hphase, hwants⟩ | ⟨hphase, hunsent, hsend⟩ |
    ⟨hphase, hunread, hrecv⟩ <;> simp only [hphase, if_neg hnow]
  · simp only [connectingPass, hevents]
    exact .inl hphase
  · simp only [handshakePass, hwants]
    exact .inr (.inl hphase)
  · have hleft := (unsent_iff h).mp hunsent
    simp only [sendPass, withRequest_eq h, if_pos hleft, hsend]
    refine .inr (.inr (.inl ⟨hphase, ?_⟩))
    unfold Unsent withRequest
    dsimp only
    split <;> exact hleft
  · have hcore := readPass_core pool a h
    simp only [hunread.1, if_neg (Nat.not_lt.mpr hunread.2), hrecv] at hcore
    have hx : (x.readPass pool a).2.core = { x.core with replaying := false } :=
      congrArg (·.2) hcore
    refine .inr (.inr (.inr ⟨?_, ?_⟩))
    · exact (congrArg (·.phase) hx).trans hphase
    · unfold Unread
      rw [show (x.readPass pool a).2.params = x.params from congrArg (·.params) hx,
        show (x.readPass pool a).2.responseBytes = x.responseBytes from
          congrArg (·.responseBytes) hx]
      exact hunread

end Exchange

end EpollGateway.Upstream
