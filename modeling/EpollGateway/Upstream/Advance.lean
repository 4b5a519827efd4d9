import EpollGateway.Upstream.Lockstep

/-! # A call of `advance`

`advance` runs the loop of `run` until a pass has something to wait for or the
exchange is over. A call gives a result unless it is in the middle of an exception that
nothing catches: `advance` catches the first exception of the loop and runs the replay
inside its handler.

`Passed` says what a pass can do, `rank` that a pass which goes on cannot do so for
ever, and `answered_iff` that a call returns unless two of its passes throw or the scan
of a chunked body does not end.
-/

namespace EpollGateway.Upstream

open Bytes Handler

namespace Exchange

/-! ## Failures -/

/-- A socket function throws, or the scan of a chunked body does. -/
def Throws (pool : Pool) (x : Exchange) (a : Answers) : Prop :=
  a.expired = false ∧
    match x.phase with
    | .connect =>
      x.forceFresh = false ∧ (pool.checkout (poolKey x.params) a.now).1 ≠ none ∧
        a.liveness = .threw
    | .send => x.Unsent ∧ a.send = .threw
    | .read =>
      frameOf x.params.maxResponseBytes false x.responseBytes = .threw ∨
        (x.Unread ∧ a.recv = .threw)
    | _ => False

/-- The scan of a chunked body does not come to an end. -/
def Hangs (x : Exchange) (a : Answers) : Prop :=
  a.expired = false ∧ x.phase = .read ∧
    frameOf x.params.maxResponseBytes false x.responseBytes = .hangs

/-- No fresh connection, or none that TLS can be set up on. -/
def OpenFails (x : Exchange) (a : Answers) : Prop :=
  a.opening = .failed ∨
    (a.opening = .connected ∧ x.params.tls.enable = true ∧ a.tlsReady = false)

/-- A failure that is no exception. -/
def Fails (pool : Pool) (x : Exchange) (a : Answers) : Prop :=
  (a.expired = true ∧ x.Live) ∨
    (a.expired = false ∧
      match x.phase with
      | .connect =>
        (x.forceFresh = true ∨ (pool.checkout (poolKey x.params) a.now).1 = none ∨
          a.liveness = .dead) ∧ x.OpenFails a
      | .connecting =>
        a.events = true ∧
          (a.socketError = true ∨ (x.params.tls.enable = true ∧ a.tlsReady = false))
      | .tlsHandshake => a.handshake = .failed
      | .send => x.Unsent ∧ a.send = .failed
      | .read =>
        frameOf x.params.maxResponseBytes false x.responseBytes = .bad ∨
          (frameOf x.params.maxResponseBytes false x.responseBytes = .more ∧
            x.params.maxResponseBytes < x.responseBytes.length) ∨
          (x.Unread ∧ (a.recv = .failed ∨
            (a.recv = .bytes [] ∧
              frameOf x.params.maxResponseBytes true x.responseBytes = .more)))
      | _ => False)

/-- The exchange is over, with an error for its result. -/
structure Errored (x : Exchange) : Prop where
  phase : x.phase = .done
  succeeded : x.succeeded = false
  error : x.result.error ≠ .none

/-! ## The rank

What a pass can still do before it waits: connect, shake hands, write what is left of
the request, read what the limit leaves room for, and all that once more.
-/

def rank (x : Exchange) : Nat :=
  let request := (buildRequest x.params).length
  let cap := x.params.maxResponseBytes
  (if x.retried then 0 else request + cap + 7) +
    match x.phase with
    | .connect => request + cap + 6
    | .connecting => request + cap + 5
    | .tlsHandshake => request + cap + 4
    | .send => cap + 3 + (request - x.sendOff)
    | .read => cap + 2 - x.responseBytes.length
    | .done => 0
    | .stuck => 0

/-! ## What a pass can do -/

/-- What is left of an exchange after a failure: its end, or its replay. -/
inductive GivenUp (x : Exchange) (raised : Bool) (y : Exchange) : Prop where
  | over : y.Errored → GivenUp x raised y
  | replayed : x.retried = false → y.phase = .connect → y.retried = true →
      y.replaying = raised → GivenUp x raised y

/-- What a pass can do: find the end of the response, wait, fail, throw, get lost or go
on. -/
inductive Passed (pool : Pool) (x : Exchange) (a : Answers) (y : Exchange) : Prop where
  | answered : ¬ x.Fails pool a → ¬ x.Throws pool a → ¬ x.Hangs a → y.phase = .done →
      Passed pool x a y
  | paused : x.Pauses a → Passed pool x a y
  | failed : x.Fails pool a → GivenUp x x.replaying y → Passed pool x a y
  | threw : x.Throws pool a → x.replaying = false → GivenUp x true y → Passed pool x a y
  | escaped : x.Throws pool a → x.replaying = true → y.phase = .stuck → Passed pool x a y
  | lost : x.Hangs a → y.phase = .stuck → Passed pool x a y
  | onward : ¬ x.Fails pool a → ¬ x.Throws pool a → ¬ x.Hangs a → y.Live →
      y.replaying = x.replaying → y.rank < x.rank → Passed pool x a y

variable {pool : Pool} {x y : Exchange} {a : Answers}

lemma givenUp_core {raised : Bool} : GivenUp x raised y.core ↔ GivenUp x raised y := by
  constructor
  all_goals
    intro hup
    rcases hup with ⟨hphase, hsucceeded, herror⟩ | ⟨hfirst, hphase, hretried, hraised⟩
    · exact .over ⟨hphase, hsucceeded, herror⟩
    · exact .replayed hfirst hphase hretried hraised

/-- The marks of `try_frame` say nothing about what a pass has done. -/
lemma passed_core : Passed pool x a y.core ↔ Passed pool x a y := by
  constructor
  all_goals
    intro h
    rcases h with ⟨hf, ht, hh, hdone⟩ | ⟨hp⟩ | ⟨hf, hup⟩ | ⟨ht, hr, hup⟩ | ⟨ht, hr, hphase⟩ |
      ⟨hh, hphase⟩ | ⟨hf, ht, hh, hlive, hr, hrank⟩
    · exact .answered hf ht hh hdone
    · exact .paused hp
    · first
      | exact .failed hf (givenUp_core.mp hup)
      | exact .failed hf (givenUp_core.mpr hup)
    · first
      | exact .threw ht hr (givenUp_core.mp hup)
      | exact .threw ht hr (givenUp_core.mpr hup)
    · exact .escaped ht hr hphase
    · exact .lost hh hphase
    · exact .onward hf ht hh hlive hr hrank

/-- `fail`, on an exchange that has been retried as often as `x`. -/
lemma fail_givenUp (pool : Pool) {z : Exchange} {result : BackendResponse}
    (hretried : z.retried = x.retried) (hresult : result.error ≠ .none) :
    GivenUp x z.replaying (z.fail pool result).2 := by
  by_cases hreplay : z.Replayable
  · rw [fail_replay hreplay]
    refine .replayed ?_ rfl rfl rfl
    rw [← hretried]
    exact Bool.eq_false_iff.mpr hreplay.2.2
  · rw [fail_final hreplay]
    exact .over ⟨rfl, rfl, hresult⟩

lemma raisedError_ne_none (phase : Phase) : (badGateway (raisedError phase)).error ≠ .none := by
  cases phase <;> intro hnone <;> cases hnone

lemma raise_passed (pool' : Pool) {z : Exchange} (hretried : z.retried = x.retried)
    (hreplaying : z.replaying = x.replaying) (h : x.Throws pool a) :
    Passed pool x a (z.raise pool').2 := by
  rw [raise_eq, hreplaying]
  split
  · rename_i hagain
    exact .escaped h hagain rfl
  · rename_i hfirst
    refine .threw h (Bool.eq_false_iff.mpr hfirst) ?_
    have hup := fail_givenUp pool' hretried (raisedError_ne_none z.phase)
    rcases hup with ⟨hphase, hsucceeded, herror⟩ | ⟨hfirst, hphase, hretried, -⟩
    · exact .over ⟨hphase, hsucceeded, herror⟩
    · exact .replayed hfirst hphase hretried rfl

lemma fail_passed (pool' : Pool) {z : Exchange} {error : BackendError}
    (hretried : z.retried = x.retried) (hreplaying : z.replaying = x.replaying)
    (h : x.Fails pool a) (herror : error ≠ .none := by decide) :
    Passed pool x a (z.fail pool' (badGateway error)).2 := by
  refine .failed h ?_
  rw [← hreplaying]
  exact fail_givenUp pool' hretried herror

lemma not_hangs_of_phase (hphase : x.phase ≠ .read) : ¬ x.Hangs a :=
  fun h => hphase h.2.1

/-! ### Connecting -/

/-- A fresh connection is opened: there is no other, or the one of the pool is dead. -/
lemma openFresh_passed (pool' : Pool) (hphase : x.phase = .connect) (htime : a.expired = false)
    (hway : x.forceFresh = true ∨ (pool.checkout (poolKey x.params) a.now).1 = none ∨
      a.liveness = .dead) :
    Passed pool x a (openFresh pool' { x with usedPooled := false } a).2 := by
  have hcalm : ¬ x.Throws pool a := by
    rintro ⟨-, hthrows⟩
    simp only [hphase] at hthrows
    rcases hway with hforce | hnone | hdead
    · exact Bool.false_ne_true (hthrows.1.symm.trans hforce)
    · exact hthrows.2.1 hnone
    · cases hdead.symm.trans hthrows.2.2
  have hscan : ¬ x.Hangs a := not_hangs_of_phase (by simp [hphase])
  have hfails : x.OpenFails a → x.Fails pool a := by
    intro hopen
    refine .inr ⟨htime, ?_⟩
    simp only [hphase]
    exact ⟨hway, hopen⟩
  have hopens : ¬ x.OpenFails a → ¬ x.Fails pool a := by
    rintro hopen (⟨hlate, -⟩ | ⟨-, hfail⟩)
    · exact Bool.false_ne_true (htime.symm.trans hlate)
    · simp only [hphase] at hfail
      exact hopen hfail.2
  unfold openFresh
  rcases hanswer : a.opening with _ | _ | _ <;> dsimp only
  · exact fail_passed pool' rfl rfl (hfails (.inl hanswer))
  · refine .onward (hopens ?_) hcalm hscan ⟨nofun, nofun⟩ rfl ?_
    · rintro (h | ⟨h, -⟩) <;> cases hanswer.symm.trans h
    · simp only [rank, hphase]
      omega
  · split
    · rename_i hplain
      refine .onward (hopens ?_) hcalm hscan ⟨nofun, nofun⟩ rfl ?_
      · rintro (h | ⟨-, htls, -⟩)
        · cases hanswer.symm.trans h
        · exact hplain htls
      · simp only [rank, hphase]
        omega
    · rename_i htls
      split
      · rename_i hready
        refine fail_passed pool' rfl rfl (hfails (.inr ⟨hanswer, ?_, ?_⟩))
        · simpa using htls
        · simpa using hready
      · rename_i hready
        refine .onward (hopens ?_) hcalm hscan ⟨nofun, nofun⟩ rfl ?_
        · rintro (h | ⟨-, -, h⟩)
          · cases hanswer.symm.trans h
          · simp [h] at hready
        · simp only [rank, hphase]
          omega

lemma openConnection_passed (hphase : x.phase = .connect) (htime : a.expired = false) :
    Passed pool x a (x.openConnection pool a).2 := by
  unfold openConnection
  dsimp only
  by_cases hforce : x.forceFresh = true
  · rw [if_pos hforce]
    exact openFresh_passed pool hphase htime (.inl hforce)
  · rw [if_neg hforce]
    rcases hout : pool.checkout (poolKey x.params) a.now with ⟨_ | pooled, rest⟩ <;> dsimp only
    · exact openFresh_passed rest hphase htime (.inr (.inl (by rw [hout])))
    · rcases hprobe : a.liveness with _ | _ | _ <;> dsimp only
      · -- the pooled connection is taken
        refine .onward ?_ ?_ ?_ ⟨nofun, nofun⟩ rfl ?_
        · rintro (⟨hlate, -⟩ | ⟨-, hfail⟩)
          · exact Bool.false_ne_true (htime.symm.trans hlate)
          · simp only [hphase, hout, hprobe] at hfail
            rcases hfail.1 with h | h | h
            · exact hforce h
            · cases h
            · cases h
        · rintro ⟨-, hthrows⟩
          simp only [hphase] at hthrows
          cases hprobe.symm.trans hthrows.2.2
        · exact not_hangs_of_phase (by simp [hphase])
        · simp only [rank, hphase]
          omega
      · exact openFresh_passed rest hphase htime (.inr (.inr hprobe))
      · refine raise_passed (z := { x with usedPooled := false }) rest rfl rfl ⟨htime, ?_⟩
        simp only [hphase, hout]
        exact ⟨Bool.eq_false_iff.mpr hforce, nofun, hprobe⟩

lemma connectingPass_passed (hphase : x.phase = .connecting) (htime : a.expired = false) :
    Passed pool x a (x.connectingPass pool a).2 := by
  have hcalm : ¬ x.Throws pool a := by
    rintro ⟨-, hthrows⟩
    simp only [hphase] at hthrows
  have hscan : ¬ x.Hangs a := not_hangs_of_phase (by simp [hphase])
  have hfails : x.Fails pool a ↔ a.events = true ∧
      (a.socketError = true ∨ (x.params.tls.enable = true ∧ a.tlsReady = false)) := by
    simp only [Fails, htime, hphase, Bool.false_eq_true, false_and, false_or, true_and]
  unfold connectingPass
  split
  · rename_i hevents
    exact .paused ⟨htime, .inl ⟨hphase, by simpa using hevents⟩⟩
  · rename_i hevents
    have hevents : a.events = true := by simpa using hevents
    split
    · rename_i herror
      exact fail_passed pool rfl rfl (hfails.mpr ⟨hevents, .inl herror⟩)
    · rename_i herror
      split
      · rename_i hplain
        refine .onward ?_ hcalm hscan ⟨nofun, nofun⟩ rfl ?_
        · intro hfail
          rcases (hfails.mp hfail).2 with h | ⟨h, -⟩
          · exact herror h
          · exact hplain h
        · simp only [rank, hphase]
          omega
      · rename_i htls
        have htls : x.params.tls.enable = true := by simpa using htls
        split
        · rename_i hready
          have hready : a.tlsReady = false := by simpa using hready
          exact fail_passed pool rfl rfl
            (hfails.mpr ⟨hevents, .inr ⟨htls, hready⟩⟩)
        · rename_i hready
          refine .onward ?_ hcalm hscan ⟨nofun, nofun⟩ rfl ?_
          · intro hfail
            rcases (hfails.mp hfail).2 with h | ⟨-, h⟩
            · exact herror h
            · simp [h] at hready
          · simp only [rank, hphase]
            omega

lemma handshakePass_passed (hphase : x.phase = .tlsHandshake) (htime : a.expired = false) :
    Passed pool x a (x.handshakePass pool a).2 := by
  have hcalm : ¬ x.Throws pool a := by
    rintro ⟨-, hthrows⟩
    simp only [hphase] at hthrows
  have hscan : ¬ x.Hangs a := not_hangs_of_phase (by simp [hphase])
  have hfails : x.Fails pool a ↔ a.handshake = .failed := by
    simp only [Fails, htime, hphase, Bool.false_eq_true, false_and, false_or, true_and]
  unfold handshakePass
  rcases hanswer : a.handshake with _ | _ | _ <;> dsimp only
  · refine .onward ?_ hcalm hscan ⟨nofun, nofun⟩ rfl ?_
    · intro hfail
      cases hanswer.symm.trans (hfails.mp hfail)
    · simp only [rank, hphase]
      omega
  · exact fail_passed pool rfl rfl (hfails.mpr hanswer)
  · exact .paused ⟨htime, .inr (.inl ⟨hphase, hanswer⟩)⟩

/-! ### Sending -/

lemma sendPass_passed (h : x.Tidy) (hphase : x.phase = .send) (htime : a.expired = false)
    (hwrote : a.send ≠ .wrote 0) : Passed pool x a (x.sendPass pool a).2 := by
  have hscan : ¬ x.Hangs a := not_hangs_of_phase (by simp [hphase])
  have hthrows : x.Throws pool a ↔ x.Unsent ∧ a.send = .threw := by
    simp only [Throws, htime, hphase, true_and]
  have hfails : x.Fails pool a ↔ x.Unsent ∧ a.send = .failed := by
    simp only [Fails, htime, hphase, Bool.false_eq_true, false_and, false_or, true_and]
  unfold sendPass
  rw [withRequest_eq h]
  dsimp only
  by_cases hunsent : x.sendOff < (buildRequest x.params).length
  · rw [if_pos hunsent]
    have hunsent' := (unsent_iff h).mpr hunsent
    rcases hsend : a.send with n | _ | _ | _ <;> dsimp only
    · refine .onward ?_ ?_ hscan ?_ rfl ?_
      · intro hfail
        cases hsend.symm.trans (hfails.mp hfail).2
      · intro hthrow
        cases hsend.symm.trans (hthrows.mp hthrow).2
      · constructor
        · intro hdone
          cases hphase.symm.trans hdone
        · intro hstuck
          cases hphase.symm.trans hstuck
      · -- at least one byte less is left to send
        have hsome : 0 < n := Nat.pos_of_ne_zero fun hzero => hwrote (by rw [hsend, hzero])
        simp only [rank, hphase]
        omega
    · exact .paused ⟨htime, .inr (.inr (.inl ⟨hphase, hunsent', hsend⟩))⟩
    · exact fail_passed (z := { x with requestBytes := buildRequest x.params }) pool rfl rfl
        (hfails.mpr ⟨hunsent', hsend⟩)
    · exact raise_passed (z := { x with requestBytes := buildRequest x.params }) pool rfl rfl
        (hthrows.mpr ⟨hunsent', hsend⟩)
  · rw [if_neg hunsent]
    have hsent : ¬ x.Unsent := fun hleft => hunsent ((unsent_iff h).mp hleft)
    refine .onward (fun hfail => hsent (hfails.mp hfail).1) (fun hthrow => hsent (hthrows.mp hthrow).1)
      hscan ⟨nofun, nofun⟩ rfl ?_
    simp only [rank, hphase]
    omega

/-! ### Reading -/

lemma readPass_passed (h : x.Tidy) (hphase : x.phase = .read) (htime : a.expired = false) :
    Passed pool x a (x.readPass pool a).2 := by
  have hthrows : x.Throws pool a ↔
      frameOf x.params.maxResponseBytes false x.responseBytes = .threw ∨
        (x.Unread ∧ a.recv = .threw) := by
    simp only [Throws, htime, hphase, true_and]
  have hfails : x.Fails pool a ↔
      frameOf x.params.maxResponseBytes false x.responseBytes = .bad ∨
        (frameOf x.params.maxResponseBytes false x.responseBytes = .more ∧
          x.params.maxResponseBytes < x.responseBytes.length) ∨
        (x.Unread ∧ (a.recv = .failed ∨
          (a.recv = .bytes [] ∧
            frameOf x.params.maxResponseBytes true x.responseBytes = .more))) := by
    simp only [Fails, htime, hphase, Bool.false_eq_true, false_and, false_or, true_and]
  have hhangs : x.Hangs a ↔ frameOf x.params.maxResponseBytes false x.responseBytes = .hangs := by
    simp only [Hangs, htime, hphase, true_and]
  have hcore : (x.readPass pool a).2.core = (coreOf (x.readPass pool a)).2 := rfl
  rw [← passed_core, hcore, readPass_core pool a h]
  rcases hframe : frameOf x.params.maxResponseBytes false x.responseBytes
    with _ | ⟨k, body⟩ | _ | _ | _
  case message =>
    refine .answered ?_ ?_ ?_ rfl
    · rw [hfails]
      simp [hframe, Unread]
    · rw [hthrows]
      simp [hframe, Unread]
    · rw [hhangs]
      simp [hframe]
  case bad =>
    exact passed_core.mpr (fail_passed pool rfl rfl (hfails.mpr (.inl hframe)))
  case threw => exact passed_core.mpr (raise_passed pool rfl rfl (hthrows.mpr (.inl hframe)))
  case hangs => exact .lost (hhangs.mpr hframe) rfl
  case more =>
    have hscan : ¬ x.Hangs a := by
      rw [hhangs, hframe]
      intro hhang
      cases hhang
    dsimp only
    by_cases hcap : x.params.maxResponseBytes < x.responseBytes.length
    · rw [if_pos hcap]
      exact passed_core.mpr (fail_passed pool rfl rfl (hfails.mpr (.inr (.inl ⟨hframe, hcap⟩))))
    · rw [if_neg hcap]
      have hunread : x.Unread := ⟨hframe, Nat.not_lt.mp hcap⟩
      have hreceived : a.recv ≠ .failed → a.recv ≠ .bytes [] → ¬ x.Fails pool a := by
        intro hfailed heof hfail
        rcases hfails.mp hfail with hbad | ⟨-, hover⟩ | ⟨-, hrecv | ⟨hrecv, -⟩⟩
        · cases hframe.symm.trans hbad
        · exact hcap hover
        · exact hfailed hrecv
        · exact heof hrecv
      have hcalm : a.recv ≠ .threw → ¬ x.Throws pool a := by
        intro hrecv hthrow
        rcases hthrows.mp hthrow with hscans | ⟨-, hthrew⟩
        · cases hframe.symm.trans hscans
        · exact hrecv hthrew
      rcases hrecv : a.recv with ⟨_ | ⟨c, data⟩⟩ | _ | _ | _ <;> dsimp only
      · -- the end of the stream, which may be the end of the body
        have hcalm := hcalm (by rw [hrecv]; intro h; cases h)
        rcases frameOf_closed hframe with hmore | ⟨k, body, hbody, -, -⟩
        · rw [hmore]
          exact passed_core.mpr (fail_passed pool rfl rfl
            (hfails.mpr (.inr (.inr ⟨hunread, .inr ⟨hrecv, hmore⟩⟩))))
        · rw [hbody]
          refine .answered ?_ hcalm hscan rfl
          intro hfail
          rcases hfails.mp hfail with hbad | ⟨-, hover⟩ | ⟨-, hfailed | ⟨-, hmore⟩⟩
          · cases hframe.symm.trans hbad
          · exact hcap hover
          · cases hrecv.symm.trans hfailed
          · cases hbody.symm.trans hmore
      · refine .onward (hreceived ?_ ?_) (hcalm ?_) hscan ?_ rfl ?_
        iterate 3
          rw [hrecv]
          intro h
          cases h
        · constructor
          · intro hdone
            cases hphase.symm.trans hdone
          · intro hstuck
            cases hphase.symm.trans hstuck
        · -- the buffer has grown towards the limit
          simp only [rank, core, hphase, List.length_append, List.length_cons]
          omega
      · exact .paused ⟨htime, .inr (.inr (.inr ⟨hphase, hunread, hrecv⟩))⟩
      · exact passed_core.mpr (fail_passed pool rfl rfl
          (hfails.mpr (.inr (.inr ⟨hunread, .inl hrecv⟩))))
      · exact passed_core.mpr (raise_passed pool rfl rfl (hthrows.mpr (.inr ⟨hunread, hrecv⟩)))

/-- What a pass can do. -/
lemma pass_passed (pool : Pool) (h : x.Tidy) (hlive : x.Live) (hwrote : a.send ≠ .wrote 0) :
    Passed pool x a (x.pass pool a).2 := by
  unfold pass
  rcases hphase : x.phase with _ | _ | _ | _ | _ | _ | _ <;> dsimp only
  case done => exact absurd hphase hlive.1
  case stuck => exact absurd hphase hlive.2
  all_goals
    by_cases hlate : a.expired = true
    · rw [if_pos hlate]
      refine .failed (.inl ⟨hlate, hlive⟩) (fail_givenUp pool rfl ?_)
      intro herror
      cases herror
    rw [if_neg hlate]
    have htime := Bool.eq_false_iff.mpr hlate
  · exact openConnection_passed hphase htime
  · exact connectingPass_passed hphase htime
  · exact handshakePass_passed hphase htime
  · exact sendPass_passed h hphase htime hwrote
  · exact readPass_passed h hphase htime

/-! ### One of these at a time -/

lemma Throws.not_fails (h : x.Throws pool a) : ¬ x.Fails pool a := by
  obtain ⟨htime, hthrows⟩ := h
  rintro (⟨hlate, -⟩ | ⟨-, hfails⟩)
  · exact Bool.false_ne_true (htime.symm.trans hlate)
  · rcases hphase : x.phase with _ | _ | _ | _ | _ | _ | _ <;> simp only [hphase] at hthrows hfails
    case connect =>
      obtain ⟨hpooled, hout, hthrew⟩ := hthrows
      rcases hfails.1 with hforce | hnone | hdead
      · exact Bool.false_ne_true (hpooled.symm.trans hforce)
      · exact hout hnone
      · cases hdead.symm.trans hthrew
    case send => cases hthrows.2.symm.trans hfails.2
    case read =>
      rcases hthrows with hscan | ⟨hunread, hthrew⟩
      · rcases hfails with hbad | ⟨hmore, -⟩ | ⟨hunread, -⟩
        · cases hscan.symm.trans hbad
        · cases hscan.symm.trans hmore
        · cases hscan.symm.trans hunread.1
      · rcases hfails with hbad | ⟨-, hover⟩ | ⟨-, hfailed | ⟨heof, -⟩⟩
        · cases hbad.symm.trans hunread.1
        · exact Nat.not_lt.mpr hunread.2 hover
        · cases hfailed.symm.trans hthrew
        · cases heof.symm.trans hthrew

lemma Hangs.not_throws (h : x.Hangs a) : ¬ x.Throws pool a := by
  obtain ⟨-, hphase, hhangs⟩ := h
  rintro ⟨-, hthrows⟩
  simp only [hphase] at hthrows
  rcases hthrows with hscan | ⟨hunread, -⟩
  · cases hscan.symm.trans hhangs
  · cases hhangs.symm.trans hunread.1

lemma Hangs.not_fails (h : x.Hangs a) : ¬ x.Fails pool a := by
  obtain ⟨htime, hphase, hhangs⟩ := h
  rintro (⟨hlate, -⟩ | ⟨-, hfails⟩)
  · exact Bool.false_ne_true (htime.symm.trans hlate)
  · simp only [hphase] at hfails
    rcases hfails with hbad | ⟨hmore, -⟩ | ⟨hunread, -⟩
    · cases hbad.symm.trans hhangs
    · cases hmore.symm.trans hhangs
    · cases hhangs.symm.trans hunread.1

lemma Pauses.live (h : x.Pauses a) (pool : Pool) (htidy : x.Tidy) : (x.pass pool a).2.Live := by
  rcases h.waits pool htidy with hphase | hphase | ⟨hphase, -⟩ | ⟨hphase, -⟩
  all_goals
    constructor <;> rw [hphase] <;> intro hc <;> cases hc

/-- The handler of an exception is left when the exchange waits. -/
lemma Pauses.replaying (h : x.Pauses a) (pool : Pool) (htidy : x.Tidy) :
    (x.pass pool a).2.replaying = false := by
  obtain ⟨htime, hwhere⟩ := h
  have hnow : ¬ a.expired = true := by rw [htime]; exact Bool.false_ne_true
  unfold pass
  rcases hwhere with ⟨hphase, hevents⟩ | ⟨hphase, hwants⟩ | ⟨hphase, hunsent, hsend⟩ |
    ⟨hphase, hunread, hrecv⟩ <;> simp only [hphase, if_neg hnow]
  · simp only [connectingPass, hevents]
    rfl
  · simp only [handshakePass, hwants]
  · simp only [sendPass, withRequest_eq htidy, if_pos ((unsent_iff htidy).mp hunsent), hsend]
  · have hcore := readPass_core pool a htidy
    simp only [hunread.1, if_neg (Nat.not_lt.mpr hunread.2), hrecv] at hcore
    exact congrArg (fun r : Pool × Exchange => r.2.replaying) hcore

lemma Pauses.not_hangs (h : x.Pauses a) : ¬ x.Hangs a := by
  rintro ⟨-, hphase, hhangs⟩
  rcases h.2 with ⟨hother, -⟩ | ⟨hother, -⟩ | ⟨hother, -⟩ | ⟨-, hunread, -⟩
  · cases hphase.symm.trans hother
  · cases hphase.symm.trans hother
  · cases hphase.symm.trans hother
  · cases hhangs.symm.trans hunread.1

lemma Pauses.not_throws (h : x.Pauses a) : ¬ x.Throws pool a := by
  rintro ⟨-, hthrows⟩
  rcases h.2 with ⟨hphase, -⟩ | ⟨hphase, -⟩ | ⟨hphase, -, hagain⟩ | ⟨hphase, hunread, hagain⟩ <;>
    simp only [hphase] at hthrows
  · cases hagain.symm.trans hthrows.2
  · rcases hthrows with hscan | ⟨-, hthrew⟩
    · cases hscan.symm.trans hunread.1
    · cases hagain.symm.trans hthrew

lemma Pauses.not_fails (h : x.Pauses a) : ¬ x.Fails pool a := by
  obtain ⟨htime, hwhere⟩ := h
  rintro (⟨hlate, -⟩ | ⟨-, hfails⟩)
  · exact Bool.false_ne_true (htime.symm.trans hlate)
  · rcases hwhere with ⟨hphase, hquiet⟩ | ⟨hphase, hwants⟩ | ⟨hphase, -, hagain⟩ |
      ⟨hphase, hunread, hagain⟩ <;> simp only [hphase] at hfails
    · exact Bool.false_ne_true (hquiet.symm.trans hfails.1)
    · cases hwants.symm.trans hfails
    · cases hagain.symm.trans hfails.2
    · rcases hfails with hbad | ⟨-, hover⟩ | ⟨-, hfailed | ⟨heof, -⟩⟩
      · cases hbad.symm.trans hunread.1
      · exact Nat.not_lt.mpr hunread.2 hover
      · cases hagain.symm.trans hfailed
      · cases hagain.symm.trans heof

end Exchange

/-! ## The call -/

/-- `Want`. `Read` and `Write` are one: which of the two it is only matters to the event
loop. -/
inductive Want where
  | wait | done
deriving DecidableEq, Repr

/-- A call of `advance` on its way: the passes it has made, the events that the next one
is told and the exchange. -/
structure AdvanceCall where
  passes : Nat := 0
  events : Bool
  exchange : Exchange

/-- What each pass of a call finds in the pool, which other exchanges use too, and what
it is told. -/
abbrev Encounters := Nat → Pool × Answers

/-- A send that is done has written something. -/
def Encounters.Writes (env : Encounters) : Prop := ∀ n, (env n).2.send ≠ .wrote 0

namespace AdvanceCall

variable (env : Encounters) (c d : AdvanceCall)

def pool : Pool := (env c.passes).1

def answers : Answers := { (env c.passes).2 with events := c.events }

/-- The exchange after the next pass. -/
def next : Exchange := (c.exchange.pass (c.pool env) (c.answers env)).2

/-- One pass of the loop. An exchange that is stuck never gives a result. -/
def turn : Loop.Turn AdvanceCall (Want × Exchange) :=
  if (c.next env).phase = .done then .done (.done, c.next env)
  else if c.exchange.Pauses (c.answers env) then .done (.wait, c.next env)
  else .again { passes := c.passes + 1, events := false, exchange := c.next env }

abbrev Throws : Prop := c.exchange.Throws (c.pool env) (c.answers env)

abbrev Fails : Prop := c.exchange.Fails (c.pool env) (c.answers env)

abbrev Hangs : Prop := c.exchange.Hangs (c.answers env)

end AdvanceCall

/-- `advance` returns. -/
def Advances (env : Encounters) (events : Bool) (x : Exchange) (r : Want × Exchange) : Prop :=
  ∃ fuel, Loop.loop (AdvanceCall.turn env) fuel { events := events, exchange := x } = some r

/-- The exchanges that calls of `advance` lead to. -/
inductive Reached (params : Params) : Exchange → Prop where
  | start : Reached params (Exchange.start params)
  | called {x y : Exchange} {env : Encounters} {events : Bool} {want : Want} :
      Reached params x → env.Writes → Advances env events x (want, y) → Reached params y

namespace AdvanceCall

variable {env : Encounters} {c d e : AdvanceCall}

/-- The exchange is under way. -/
structure Fit (x : Exchange) : Prop where
  tidy : x.Tidy
  live : x.Live

lemma next_passed (henv : env.Writes) (h : Fit c.exchange) :
    Exchange.Passed (c.pool env) c.exchange (c.answers env) (c.next env) :=
  Exchange.pass_passed (c.pool env) h.tidy h.live (henv c.passes)

lemma turn_eq_again (h : c.turn env = .again d) :
    d.exchange = c.next env ∧ (c.next env).phase ≠ .done ∧ ¬ c.exchange.Pauses (c.answers env) := by
  unfold turn at h
  split at h
  · cases h
  · rename_i hdone
    split at h
    · cases h
    · rename_i hpause
      cases h
      exact ⟨rfl, hdone, hpause⟩

/-- What a pass that goes on has done. -/
inductive Onward (env : Encounters) (c d : AdvanceCall) : Prop where
  | stuck : d.exchange.phase = .stuck →
      (c.Hangs env ∨ (c.Throws env ∧ c.exchange.replaying = true)) → Onward env c d
  | fit : Fit d.exchange → ¬ c.Hangs env → d.exchange.rank < c.exchange.rank →
      (d.exchange.replaying = true ↔ c.exchange.replaying = true ∨ c.Throws env) → Onward env c d

lemma rank_of_replayed {x y : Exchange} (hparams : y.params = x.params) (hfirst : x.retried = false)
    (hphase : y.phase = .connect) (hretried : y.retried = true) : y.rank < x.rank := by
  simp only [Exchange.rank, hparams, hfirst, hphase, hretried]
  simp only [if_true, Bool.false_eq_true, if_false]
  omega

lemma turn_onward (henv : env.Writes) (h : Fit c.exchange) (hturn : c.turn env = .again d) :
    Onward env c d := by
  obtain ⟨heq, hdone, hpause⟩ := turn_eq_again hturn
  have hkept := Exchange.pass_kept (c.pool env) c.exchange (c.answers env)
  have htidy := Exchange.Tidy.pass h.tidy (c.pool env) (c.answers env)
  have hpass := next_passed henv h
  change Exchange.Kept c.exchange (c.next env) at hkept
  change (c.next env).InOrder at htidy
  rw [← heq] at hdone hpass hkept htidy
  have hfit : d.exchange.phase = .connect → Fit d.exchange := by
    intro hphase
    have hlive : d.exchange.Live := by
      constructor <;> rw [hphase] <;> intro hc <;> cases hc
    exact ⟨htidy hlive, hlive⟩
  rcases hpass with ⟨-, -, -, hover⟩ | ⟨hp⟩ | ⟨hf, hup⟩ | ⟨ht, hr, hup⟩ | ⟨ht, hr, hphase⟩ |
    ⟨hh, hphase⟩ | ⟨-, ht, hh, hlive, hr, hrank⟩
  · exact absurd hover hdone
  · exact absurd hp hpause
  · rcases hup with ⟨hover, -, -⟩ | ⟨hfirst, hphase, hretried, hr⟩
    · exact absurd hover hdone
    · -- a failure, and the replay goes on
      refine .fit (hfit hphase) (fun hh => hh.not_fails hf)
        (rank_of_replayed hkept.params hfirst hphase hretried) ?_
      rw [hr]
      constructor
      · exact .inl
      · rintro (hr' | hthrows)
        · exact hr'
        · exact absurd hf hthrows.not_fails
  · rcases hup with ⟨hover, -, -⟩ | ⟨hfirst, hphase, hretried, hr'⟩
    · exact absurd hover hdone
    · -- an exception, and the replay runs in its handler
      refine .fit (hfit hphase) (fun hh => hh.not_throws ht)
        (rank_of_replayed hkept.params hfirst hphase hretried) ?_
      rw [hr']
      exact ⟨fun _ => .inr ht, fun _ => rfl⟩
  · exact .stuck hphase (.inr ⟨ht, hr⟩)
  · exact .stuck hphase (.inl hh)
  · refine .fit ⟨htidy hlive, hlive⟩ hh hrank ?_
    rw [hr]
    constructor
    · exact .inl
    · rintro (hr' | hthrows)
      · exact hr'
      · exact absurd hthrows ht

/-! ### Calls that do not return -/

lemma turn_stuck (h : (c.next env).phase = .stuck) (hpause : ¬ c.exchange.Pauses (c.answers env)) :
    c.turn env = .again { passes := c.passes + 1, events := false, exchange := c.next env } := by
  unfold turn
  rw [if_neg (by rw [h]; intro hc; cases hc), if_neg hpause]

lemma not_terminates_of_stuck (h : c.exchange.phase = .stuck) :
    ¬ Loop.Terminates (turn env) c := by
  refine Loop.not_terminates_of_closed (I := fun u => u.exchange.phase = .stuck) ?_ h
  intro u hu
  have hnext : u.next env = u.exchange := by
    unfold next
    rw [pass_over]
    exact fun hlive => hlive.2 hu
  refine ⟨_, turn_stuck (hnext ▸ hu) ?_, hnext ▸ hu⟩
  rintro ⟨-, hwhere⟩
  rcases hwhere with ⟨hphase, -⟩ | ⟨hphase, -⟩ | ⟨hphase, -⟩ | ⟨hphase, -⟩ <;>
    cases hu.symm.trans hphase

/-- A scan that goes on for ever, or an exception inside the handler. -/
lemma not_terminates_of_lost (henv : env.Writes) (h : Fit c.exchange)
    (hlost : c.Hangs env ∨ (c.Throws env ∧ c.exchange.replaying = true)) :
    ¬ Loop.Terminates (turn env) c := by
  have hpause : ¬ c.exchange.Pauses (c.answers env) := by
    intro hp
    rcases hlost with hh | ⟨ht, -⟩
    · exact hp.not_hangs hh
    · exact hp.not_throws ht
  have hstuck : (c.next env).phase = .stuck := by
    rcases next_passed henv h with ⟨-, ht, hh, -⟩ | ⟨hp⟩ | ⟨hf, -⟩ | ⟨ht, hr, -⟩ | ⟨-, -, hphase⟩ |
      ⟨-, hphase⟩ | ⟨-, ht, hh, -, -, -⟩
    · rcases hlost with hh' | ⟨ht', -⟩
      · exact absurd hh' hh
      · exact absurd ht' ht
    · exact absurd hp hpause
    · rcases hlost with hh' | ⟨ht', -⟩
      · exact absurd hf hh'.not_fails
      · exact absurd hf ht'.not_fails
    · rcases hlost with hh' | ⟨-, hr'⟩
      · exact absurd ht hh'.not_throws
      · exact absurd (hr.symm.trans hr') Bool.false_ne_true
    · exact hphase
    · exact hphase
    · rcases hlost with hh' | ⟨ht', -⟩
      · exact absurd hh' hh
      · exact absurd ht' ht
  intro hterm
  exact not_terminates_of_stuck
    (c := { passes := c.passes + 1, events := false, exchange := c.next env })
    hstuck (hterm.again (turn_stuck hstuck hpause))

/-- While a call that returns goes on, its exchange stays as it should be. -/
lemma fit_of_terminates (henv : env.Writes) (h : Fit c.exchange)
    (hterm : Loop.Terminates (turn env) c) (hreach : Loop.Reaches (turn env) c d) :
    Fit d.exchange := by
  induction hreach with
  | refl => exact h
  | tail hreach hturn ih =>
    rcases turn_onward henv ih hturn with ⟨-, hlost⟩ | ⟨hfit, -, -, -⟩
    · exact absurd (hterm.reaches hreach) (not_terminates_of_lost henv ih hlost)
    · exact hfit

lemma replaying_of_reaches (henv : env.Writes) (h : Fit c.exchange)
    (hterm : Loop.Terminates (turn env) c) (hreach : Loop.Reaches (turn env) c d)
    (hreplaying : c.exchange.replaying = true) : d.exchange.replaying = true := by
  induction hreach with
  | refl => exact hreplaying
  | tail hreach hturn ih =>
    have hfit := fit_of_terminates henv h hterm hreach
    rcases turn_onward henv hfit hturn with ⟨-, hlost⟩ | ⟨-, -, -, hiff⟩
    · exact absurd (hterm.reaches hreach) (not_terminates_of_lost henv hfit hlost)
    · exact hiff.mpr (.inl ih)

/-! ### Calls that return -/

/-- At most one pass of the call throws, and no scan goes on for ever. -/
structure Smooth (env : Encounters) (c : AdvanceCall) : Prop where
  scans : ∀ d, Loop.Reaches (turn env) c d → ¬ d.Hangs env
  once : ∀ d d' e, Loop.Reaches (turn env) c d → d.Throws env → d.turn env = .again d' →
    Loop.Reaches (turn env) d' e → ¬ e.Throws env

/-- The call returns, and a second failure ends the exchange with an error. -/
structure Answered (env : Encounters) (c : AdvanceCall) : Prop where
  returns : ∃ fuel r, Loop.loop (turn env) fuel c = some r
  second : ∀ d, Loop.Reaches (turn env) c d → d.exchange.retried = true →
    (d.Fails env ∨ d.Throws env) → (d.next env).Errored

/-- A replay in the handler of an exception follows a pass that has thrown. -/
lemma fit_of_smooth (henv : env.Writes) (h : Fit c.exchange)
    (hcall : c.exchange.replaying = false) (hsmooth : Smooth env c)
    (hreach : Loop.Reaches (turn env) c d) :
    Fit d.exchange ∧ (d.exchange.replaying = true → ∃ e e', Loop.Reaches (turn env) c e ∧
      e.Throws env ∧ e.turn env = .again e' ∧ Loop.Reaches (turn env) e' d) := by
  induction hreach with
  | refl => exact ⟨h, fun hr => absurd (hcall.symm.trans hr) Bool.false_ne_true⟩
  | @tail u v hreach hturn ih =>
    obtain ⟨hfit, hthrown⟩ := ih
    rcases turn_onward henv hfit hturn with ⟨-, hlost⟩ | ⟨hfit', -, -, hiff⟩
    · exfalso
      rcases hlost with hh | ⟨ht, hr⟩
      · exact hsmooth.scans u hreach hh
      · obtain ⟨e, e', he, hthrows, hagain, hback⟩ := hthrown hr
        exact hsmooth.once e e' u he hthrows hagain hback ht
    · refine ⟨hfit', ?_⟩
      intro hr
      rcases hiff.mp hr with hr' | hthrows
      · obtain ⟨e, e', he, hthrows, hagain, hback⟩ := hthrown hr'
        exact ⟨e, e', he, hthrows, hagain, Relation.ReflTransGen.tail hback hturn⟩
      · exact ⟨u, v, hreach, hthrows, hturn, Relation.ReflTransGen.refl⟩

lemma answered_of_smooth (henv : env.Writes) (h : Fit c.exchange)
    (hcall : c.exchange.replaying = false) (hsmooth : Smooth env c) : Answered env c := by
  constructor
  · refine Loop.terminates_of_variant (I := fun d => Loop.Reaches (turn env) c d)
      (fun d => d.exchange.rank) ?_ Relation.ReflTransGen.refl
    intro u v hu hturn
    refine ⟨Relation.ReflTransGen.tail hu hturn, ?_⟩
    have hv := (fit_of_smooth henv h hcall hsmooth (Relation.ReflTransGen.tail hu hturn)).1
    rcases turn_onward henv (fit_of_smooth henv h hcall hsmooth hu).1 hturn with
      ⟨hstuck, -⟩ | ⟨-, -, hrank, -⟩
    · exact absurd hstuck hv.live.2
    · exact hrank
  · intro d hd hretried hfailure
    obtain ⟨hfit, hthrown⟩ := fit_of_smooth henv h hcall hsmooth hd
    have hup : ∀ {raised}, Exchange.GivenUp d.exchange raised (d.next env) →
        (d.next env).Errored := by
      intro raised hup
      rcases hup with herrored | ⟨hfirst, -, -, -⟩
      · exact herrored
      · exact absurd (hfirst.symm.trans hretried) Bool.false_ne_true
    rcases next_passed henv hfit with ⟨hf, ht, -, -⟩ | ⟨hp⟩ | ⟨-, hgiven⟩ | ⟨-, -, hgiven⟩ |
      ⟨ht, hr, -⟩ | ⟨hh, -⟩ | ⟨hf, ht, -, -, -, -⟩
    · exact absurd hfailure (not_or.mpr ⟨hf, ht⟩)
    · exact absurd hfailure (not_or.mpr ⟨hp.not_fails, hp.not_throws⟩)
    · exact hup hgiven
    · exact hup hgiven
    · -- the handler of an earlier exception of the same call
      obtain ⟨e, e', he, hthrows, hagain, hback⟩ := hthrown hr
      exact absurd ht (hsmooth.once e e' d he hthrows hagain hback)
    · exact absurd hh (hsmooth.scans d hd)
    · exact absurd hfailure (not_or.mpr ⟨hf, ht⟩)

lemma smooth_of_terminates (henv : env.Writes) (h : Fit c.exchange)
    (hterm : Loop.Terminates (turn env) c) : Smooth env c := by
  constructor
  · intro d hd hh
    exact not_terminates_of_lost henv (fit_of_terminates henv h hterm hd) (.inl hh) (hterm.reaches hd)
  · intro d d' e hd hthrows hagain hback ht
    have hfit := fit_of_terminates henv h hterm hd
    have hterm' := (hterm.reaches hd).again hagain
    rcases turn_onward henv hfit hagain with ⟨hstuck, -⟩ | ⟨hfit', -, -, hiff⟩
    · exact not_terminates_of_stuck hstuck hterm'
    · have hr := replaying_of_reaches henv hfit' hterm' hback (hiff.mpr (.inr hthrows))
      exact not_terminates_of_lost henv (fit_of_terminates henv hfit' hterm' hback) (.inr ⟨ht, hr⟩)
        (hterm'.reaches hback)

/-! ### From the first call on -/

/-- An exchange between two calls. -/
def Ready (x : Exchange) : Prop := x.phase = .done ∨ (Fit x ∧ x.replaying = false)

lemma next_done (h : c.exchange.phase = .done) : c.next env = c.exchange := by
  unfold next
  rw [pass_over]
  exact fun hlive => hlive.1 h

lemma turn_done (h : c.exchange.phase = .done) :
    c.turn env = .done (.done, c.exchange) := by
  unfold turn
  rw [next_done h, if_pos h]

lemma eq_of_reaches_done (h : c.exchange.phase = .done) (hreach : Loop.Reaches (turn env) c d) :
    d = c := by
  induction hreach with
  | refl => rfl
  | tail _ hturn ih =>
    subst ih
    cases (turn_done h).symm.trans hturn

lemma ready_of_advances {x y : Exchange} {events : Bool} {want : Want} (henv : env.Writes)
    (h : Ready x) (hcall : Advances env events x (want, y)) : Ready y := by
  obtain ⟨fuel, hloop⟩ := hcall
  obtain ⟨t, hreach, hturn⟩ := Loop.exists_last_turn hloop
  rcases h with hdone | ⟨hfit, -⟩
  · cases eq_of_reaches_done hdone hreach
    cases (turn_done hdone).symm.trans hturn
    exact .inl hdone
  · have hfit := fit_of_terminates henv hfit ⟨fuel, _, hloop⟩ hreach
    unfold turn at hturn
    split at hturn
    · rename_i hdone
      cases hturn
      exact .inl hdone
    · split at hturn
      · -- the call waits, so that the handler of an exception is left
        rename_i hpause
        cases hturn
        have hlive := hpause.live (t.pool env) hfit.tidy
        exact .inr ⟨⟨Exchange.Tidy.pass hfit.tidy _ _ hlive, hlive⟩, hpause.replaying _ hfit.tidy⟩
      · cases hturn

lemma ready_of_reached {params : Params} {x : Exchange} (h : Reached params x) : Ready x := by
  induction h with
  | start =>
    by_cases hnone : params.timeoutMs ≤ 0
    · refine .inl ?_
      simp only [Exchange.start, if_pos hnone]
    · refine .inr ⟨⟨Exchange.start_tidy params, ?_⟩, ?_⟩
      · simp only [Exchange.start, if_neg hnone]
        constructor <;> intro hphase <;> cases hphase
      · simp only [Exchange.start, if_neg hnone]
  | called _ henv hcall ih => exact ready_of_advances henv ih hcall

lemma answered_done (h : c.exchange.phase = .done) : Answered env c := by
  refine ⟨⟨1, _, Loop.loop_done (turn_done h)⟩, ?_⟩
  intro d hd _ hfailure
  cases eq_of_reaches_done h hd
  rcases hfailure with (⟨-, hlive⟩ | ⟨-, hfails⟩) | ⟨-, hthrows⟩
  · exact absurd h hlive.1
  · simp only [h] at hfails
  · simp only [h] at hthrows

lemma smooth_done (h : c.exchange.phase = .done) : Smooth env c := by
  constructor
  · intro d hd hh
    cases eq_of_reaches_done h hd
    cases h.symm.trans hh.2.1
  · intro d d' e hd _ hagain
    cases eq_of_reaches_done h hd
    cases (turn_done h).symm.trans hagain

/-- A call of `advance` returns `Read`, `Write` or `Done`, and a second failure ends the
exchange with an error, unless two passes of the call throw or the scan of a chunked body
goes on for ever. -/
theorem answered_iff {params : Params} {x : Exchange} (h : Reached params x) (events : Bool)
    {env : Encounters} (henv : env.Writes) :
    Answered env { events := events, exchange := x } ↔
      Smooth env { events := events, exchange := x } := by
  rcases ready_of_reached h with hdone | ⟨hfit, hcall⟩
  · exact ⟨fun _ => smooth_done hdone, fun _ => answered_done hdone⟩
  · constructor
    · intro hanswered
      exact smooth_of_terminates henv hfit hanswered.returns
    · exact answered_of_smooth henv hfit hcall

/-- A pooled connection that is reset by the first send, and a backend that then answers over
a fresh one. -/
def resetOnce : Encounters := fun n =>
  (assign (fun _ => []) (poolKey backendParams) [{ sock := 7 }],
    { send := if n = 1 then .threw else .wrote 1000, recv := .bytes okResponse })

/-- The exception is caught, and the call returns. -/
theorem answered_iff_start :
    Reached backendParams (Exchange.start backendParams) ∧ resetOnce.Writes ∧
      Answered resetOnce { events := false, exchange := Exchange.start backendParams } := by
  have hwrites : resetOnce.Writes := by
    intro n
    unfold resetOnce
    dsimp only
    split <;> nofun
  have hreturns : (Loop.loop (turn resetOnce) 10
      { events := false, exchange := Exchange.start backendParams }).isSome = true := by
    decide +kernel
  obtain ⟨r, hr⟩ := Option.isSome_iff_exists.mp hreturns
  rcases ready_of_reached (.start : Reached backendParams _) with hdone | ⟨hfit, -⟩
  · cases hdone
  · refine ⟨.start, hwrites, (answered_iff .start false hwrites).mpr ?_⟩
    exact smooth_of_terminates hwrites hfit ⟨10, r, hr⟩

/-- A pooled connection, a backend that accepts connections at once and resets every one
of them. -/
def resetting : Encounters :=
  fun _ => (assign (fun _ => []) (poolKey backendParams) [{ sock := 7 }], { send := .threw })

/-- The reset of the pooled connection is caught, the reset of the fresh one is not. -/
theorem second_exception_escapes :
    Reached backendParams (Exchange.start backendParams) ∧ resetting.Writes ∧
      ¬ ∃ fuel r, Loop.loop (turn resetting) fuel
        { events := false, exchange := Exchange.start backendParams } = some r := by
  refine ⟨.start, fun _ => nofun, ?_⟩
  intro hterm
  have hstuck : (Loop.last (turn resetting) 4
      { events := false, exchange := Exchange.start backendParams }).exchange.phase = .stuck := by
    decide +kernel
  exact not_terminates_of_stuck hstuck (Loop.Terminates.reaches hterm (Loop.reaches_last _ _))

end AdvanceCall

end EpollGateway.Upstream
