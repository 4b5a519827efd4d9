import EpollGateway.Upstream.Lockstep

/-! # Where the two backend calls agree

The non-blocking exchange is meant to do what `forward_request` does. On the events of
its own run it ends with what the call returns if and only if no pass of the run is one
where the two part (`blocking_agrees_iff`). Each of these passes leads to a difference
that the caller sees: another error, a body that is cut off, or an attempt that the
other does not make.
-/

namespace EpollGateway.Upstream

open Bytes Handler Blocking

namespace Exchange

/-! ## The parting of ways -/

variable {pool pool' : Pool} {x : Exchange}

lemma Agrees.same {response : BackendResponse} {retried : Bool} {kept : Option Bytes}
    (h : Agrees (some (.returned pool response retried kept)) pool' x) :
    response = x.result ∧ retried = x.retried := by
  obtain ⟨kept', hkept⟩ := h
  cases hkept
  exact ⟨rfl, rfl⟩

/-- A call that gives up with another error than the exchange. -/
lemma giveUp_disagrees {result : BackendResponse} (h : x.Tidy) (hfinal : ¬ x.Replayable)
    (hmethod : x.idempotent = isIdempotent x.params.method) (events : List Event) {y : Exchange}
    (hresult : result.error ≠ y.result.error) :
    ¬ Agrees (giveUp x.params x.roundOf x.nextOf pool result events) pool' y := by
  intro hagrees
  rw [giveUp_final pool result h hfinal hmethod] at hagrees
  exact hresult (congrArg (·.error) hagrees.same.1)

lemma parseResponse_error (buf : Bytes) (headerEnd : Nat) (body : Bytes) :
    (parseResponse buf headerEnd body).error ≠ .readFailed := by
  unfold parseResponse
  split <;> nofun

lemma trace_done (h : x.phase = .done) (answers : List Answers) : trace pool x answers = [] := by
  rcases answers with _ | ⟨a, rest⟩
  · rfl
  · rw [trace, if_pos h]

/-- The pass is the last one. -/
lemma run_ends {x' : Exchange} {a : Answers} {rest : List Answers}
    (hrun : x.run pool (a :: rest) = (pool', x')) (hdone : (x.pass pool a).2.phase = .done) :
    x' = (x.pass pool a).2 := by
  rw [run, run_over rest fun hlive => hlive.1 hdone] at hrun
  exact (congrArg (·.2) hrun).symm

section Parting

variable {pool pool' : Pool} {x x' : Exchange} {a : Answers} {rest : List Answers} (idle : Bool)
  (h : x.Tidy) (hmethod : x.idempotent = isIdempotent x.params.method) (htime : a.expired = false)
  (hrun : x.run pool (a :: rest) = (pool', x'))

include htime in
lemma resume_read (hphase : x.phase = .read) :
    resume idle pool x (trace pool x (a :: rest)) =
      readLoop x.params x.roundOf x.nextOf pool x.responseBytes
        ((if x.Unread then [.received a.recv] else []) ++
          trace (x.pass pool a).1 (x.pass pool a).2 rest) := by
  have hdone : ¬ x.phase = .done := by rw [hphase]; decide
  rw [trace, if_neg hdone]
  simp only [resume, passEvents, hphase, htime, if_neg Bool.false_ne_true]

include h hmethod htime hrun in
lemma sendFails_disagrees (hparts : x.SendFails a) :
    ¬ Agrees (resume idle pool x (trace pool x (a :: rest))) pool' x' := by
  obtain ⟨hphase, hunsent, hsend, hfinal⟩ := hparts
  have hleft := (unsent_iff h).mp hunsent
  have hdone : ¬ x.phase = .done := by rw [hphase]; decide
  have hpass : (x.pass pool a).2 = { x with
      requestBytes := buildRequest x.params
      result := badGateway .writeFailed
      succeeded := false
      phase := .done } := by
    have hfail : x.sendPass pool a =
        fail pool { x with requestBytes := buildRequest x.params } (badGateway .writeFailed) := by
      simp only [sendPass, withRequest_eq h, if_pos hleft, hsend]
    unfold pass
    simp only [hphase, htime, if_neg Bool.false_ne_true]
    rw [hfail, fail_final (x := { x with requestBytes := buildRequest x.params }) hfinal]
  have hx' := run_ends hrun (by rw [hpass])
  have hcall : ∀ events, resume idle pool x (.sent a.send :: events) =
      giveUp x.params x.roundOf x.nextOf pool (badGateway .connectFailed) events := by
    intro events
    simp only [resume, hphase, hsend]
    rw [sendAll, if_pos hleft]
  rw [trace, if_neg hdone, show x.passEvents pool a = [.sent a.send] by
    simp only [passEvents, hphase, htime, if_neg Bool.false_ne_true, if_pos hunsent]]
  rw [List.singleton_append, hcall]
  refine giveUp_disagrees h hfinal hmethod _ ?_
  rw [hx', hpass]
  dsimp only
  decide

include h htime hrun in
lemma cutShort_disagrees (hparts : x.CutShort a) :
    ¬ Agrees (resume idle pool x (trace pool x (a :: rest))) pool' x' := by
  obtain ⟨hphase, hunread, hrecv, k, hhead, hkeep, hkind⟩ := hparts
  intro hagrees
  -- the call has a response with what it has read of the body
  rw [resume_read idle htime hphase, if_pos hunread, hrecv, List.singleton_append,
    readLoop_received _ _ _ hunread.2 hunread.1] at hagrees
  dsimp only at hagrees
  rw [if_pos ⟨by rw [Option.mem_def.mp hhead]; rfl,
    by rw [look_keepalive _ hhead, hkeep]; exact Bool.false_ne_true⟩] at hagrees
  obtain ⟨hresult, hretried⟩ := hagrees.same
  have hmore : frameOf x.params.maxResponseBytes true x.responseBytes = .more := by
    rw [← hunread.1]
    simp only [frameOf, Option.mem_def.mp hhead]
    split <;> first | rfl | exact absurd (by assumption) hkind
  have hcore := readPass_core pool a h
  simp only [hunread.1, if_neg (Nat.not_lt.mpr hunread.2), hrecv, hmore] at hcore
  rw [← pass_read pool hphase htime] at hcore
  by_cases hreplay : x.Replayable
  · -- the exchange begins anew
    rw [fail_replay hreplay] at hcore
    have hagain : (x.pass pool a).2.retried = true := congrArg (·.2.retried) hcore
    have hkept := run_kept (x.pass pool a).1 (x.pass pool a).2 rest
    rw [← run, hrun] at hkept
    rw [attempt_roundOf, hkept.retried hagain] at hretried
    exact hreplay.2.2 hretried
  · rw [fail_final hreplay] at hcore
    have hx' := run_ends hrun (congrArg (·.2.phase) hcore)
    have hfailed : x'.result = badGateway .readFailed := by
      rw [hx']
      exact congrArg (·.2.result) hcore
    rw [hfailed] at hresult
    exact parseResponse_error _ _ _ (congrArg (·.error) hresult)

include htime in
lemma scanThrows_disagrees (hparts : x.ScanThrows) :
    ¬ Agrees (resume idle pool x (trace pool x (a :: rest))) pool' x' := by
  obtain ⟨hphase, hcap, hframe⟩ := hparts
  rintro ⟨kept, hkept⟩
  rw [resume_read idle htime hphase] at hkept
  unfold readLoop at hkept
  rw [if_neg (Nat.not_lt.mpr hcap)] at hkept
  simp only [look_result, hframe, Frame.result] at hkept
  cases hkept

include h hmethod htime hrun in
lemma beyondLimit_disagrees (hparts : x.BeyondLimit) :
    ¬ Agrees (resume idle pool x (trace pool x (a :: rest))) pool' x' := by
  obtain ⟨hphase, hover, hframe⟩ := hparts
  have hcore := readPass_core pool a h
  rw [← pass_read pool hphase htime] at hcore
  have hcall : resume idle pool x (trace pool x (a :: rest)) =
      giveUp x.params x.roundOf x.nextOf pool (badGateway .readFailed)
        (trace (x.pass pool a).1 (x.pass pool a).2 rest) := by
    rw [resume_read idle htime hphase,
      if_neg fun hunread : x.Unread => Nat.not_lt.mpr hunread.2 hover, readLoop_over _ _ _ hover,
      incomplete_eq pool false h]
    rfl
  rw [hcall]
  rcases hframe with hcomplete | ⟨hbad, hfinal⟩
  · rcases hmessage : frameOf x.params.maxResponseBytes false x.responseBytes with
      _ | ⟨k, body⟩ | _ | _ | _ <;> rw [hmessage] at hcomplete <;> try cases hcomplete
    simp only [hmessage] at hcore
    have hdone : (x.pass pool a).2.phase = .done := congrArg (·.2.phase) hcore
    have hx' := run_ends hrun hdone
    by_cases hreplay : x.Replayable
    · -- the call goes on where the exchange is done
      rw [giveUp_replay pool _ hreplay hmethod, trace_done hdone]
      have hretried : x.retried = false := by simpa using hreplay.2.2
      rw [nextOf, hretried]
      rintro ⟨kept, hkept⟩
      cases hkept
    · refine giveUp_disagrees h hreplay hmethod _ ?_
      rw [hx', show (x.pass pool a).2.result = parseResponse x.responseBytes k body from
        congrArg (·.2.result) hcore]
      exact (parseResponse_error _ _ _).symm
  · simp only [hbad, fail_final hfinal] at hcore
    have hx' := run_ends hrun (congrArg (·.2.phase) hcore)
    refine giveUp_disagrees h hfinal hmethod _ ?_
    rw [hx', show (x.pass pool a).2.result = badGateway .invalidResponse from
      congrArg (·.2.result) hcore]
    decide

include h hmethod hrun in
lemma parts_disagree (hparts : x.Parts a) :
    ¬ Agrees (resume idle pool x (trace pool x (a :: rest))) pool' x' := by
  obtain ⟨htime, hsend | hcut | hscan | hlimit⟩ := hparts
  · exact sendFails_disagrees idle h hmethod htime hrun hsend
  · exact cutShort_disagrees idle h htime hrun hcut
  · exact scanThrows_disagrees idle htime hscan
  · exact beyondLimit_disagrees idle h hmethod htime hrun hlimit

end Parting

/-! ## The two calls -/

lemma not_parts (h : ¬ x.Live) (a : Answers) : ¬ x.Parts a := by
  rintro ⟨-, ⟨hphase, -⟩ | ⟨hphase, -⟩ | ⟨hphase, -⟩ | ⟨hphase, -⟩⟩ <;>
    exact h (by rw [Live, hphase]; decide)

lemma together_over (answers : List Answers) (h : ¬ x.Live) : Together pool x answers := by
  induction answers with
  | nil => trivial
  | cons a rest ih =>
    refine ⟨not_parts h a, ?_⟩
    rwa [pass_over pool a h]

/-- From where the exchange stands, the two agree in the end unless they part on the
way. -/
lemma resume_agrees_iff {x' : Exchange} {idle : Bool} {answers : List Answers} (hlive : x.Live)
    (h : x.Tidy) (hmethod : x.idempotent = isIdempotent x.params.method)
    (hidle : idle = true → x.Waits) (hpatient : Patient idle pool x answers)
    (hquiet : ∀ a ∈ answers, a.Quiet) (hrun : x.run pool answers = (pool', x'))
    (hdone : x'.phase = .done) :
    Agrees (resume idle pool x (trace pool x answers)) pool' x' ↔ Together pool x answers := by
  induction answers generalizing pool x idle with
  | nil =>
    cases hrun
    exact absurd hdone hlive.1
  | cons a rest ih =>
    by_cases hparts : x.Parts a
    · constructor
      · exact fun hagrees => absurd hagrees (parts_disagree idle h hmethod hrun hparts)
      · exact fun htogether => absurd hparts htogether.1
    have hfollows := pass_together pool h hlive hmethod (hquiet a (List.mem_cons_self ..)) hidle
      hpatient.1 hparts
    rw [trace, if_neg hlive.1]
    by_cases hnext : (x.pass pool a).2.Live
    · have hkept := pass_kept pool x a
      have hmethod' : (x.pass pool a).2.idempotent =
          isIdempotent (x.pass pool a).2.params.method := by
        rw [hkept.idempotent, hkept.params, hmethod]
      rw [hfollows.live hnext, ih hnext (h.pass pool a hnext) hmethod'
        (fun hp => Pauses.waits pool h (of_decide_eq_true hp)) hpatient.2
        (fun b hb => hquiet b (List.mem_cons_of_mem _ hb)) hrun]
      exact ⟨fun ht => ⟨hparts, ht⟩, fun ht => ht.2⟩
    · -- the exchange ends with this pass
      rw [run, run_over rest hnext] at hrun
      cases hrun
      exact ⟨fun _ => ⟨hparts, together_over rest hnext⟩, fun _ => hfollows.done hdone _⟩

end Exchange

open Exchange

/-- An exchange and a blocking call on the same events: they end with the same pool,
the same response and the same number of attempts if and only if no pass is one where
they part. -/
theorem blocking_agrees_iff {params : Params} {pool pool' : Pool} {answers : List Answers}
    {x : Exchange} (hrun : (start params).run pool answers = (pool', x)) (hdone : x.phase = .done)
    (hpatient : Patient false pool (start params) answers) (hquiet : ∀ a ∈ answers, a.Quiet) :
    Agrees (forwardRequest params pool (trace pool (start params) answers)) pool' x ↔
      Together pool (start params) answers := by
  unfold forwardRequest
  by_cases htimeout : params.timeoutMs ≤ 0
  · -- neither does anything
    have hphase : (start params).phase = .done := by simp only [start, if_pos htimeout]
    have hresult : (start params).result = gatewayTimeout .connectTimeout := by
      simp only [start, if_pos htimeout]
    have hretried : (start params).retried = false := by simp only [start, if_pos htimeout]
    have hover : ¬ (start params).Live := fun hlive => hlive.1 hphase
    rw [run_over answers hover] at hrun
    cases hrun
    rw [if_pos htimeout, ← hresult, ← hretried]
    exact ⟨fun _ => together_over answers hover, fun _ => ⟨none, rfl⟩⟩
  · have hstart : start params = { params := params, idempotent := isIdempotent params.method } := by
      simp only [start, if_neg htimeout]
    have hlive : (start params).Live := by simp [hstart, Live]
    have hiff := resume_agrees_iff hlive (start_tidy params) (by rw [hstart])
      (fun hidle => absurd hidle Bool.false_ne_true) hpatient hquiet hrun hdone
    rw [if_neg htimeout, ← hiff, hstart]
    rfl

/-- A request on a fresh connection, and its response. -/
def plainAnswers (received : List RecvAnswer) : List Answers :=
  [{ freshSock := 3 }, { send := .wrote 1000 }, { send := .again }] ++
    received.map fun answer => { recv := answer }

lemma plainAnswers_quiet {received : List RecvAnswer} (h : .threw ∉ received) :
    ∀ a ∈ plainAnswers received, a.Quiet := by
  intro a ha
  rcases List.mem_append.mp ha with ha | ha
  · simp only [List.mem_cons, List.not_mem_nil, or_false] at ha
    rcases ha with rfl | rfl | rfl <;> exact ⟨nofun, nofun, nofun, nofun⟩
  · obtain ⟨answer, hanswer, rfl⟩ := List.mem_map.mp ha
    exact ⟨nofun, nofun, nofun, fun hthrew => h (hthrew ▸ hanswer)⟩

theorem blocking_agrees_okResponse :
    Agrees (forwardRequest backendParams (fun _ => [])
        (trace (fun _ => []) (start backendParams) (plainAnswers [.bytes okResponse, .again])))
      ((start backendParams).run (fun _ => []) (plainAnswers [.bytes okResponse, .again])).1
      ((start backendParams).run (fun _ => []) (plainAnswers [.bytes okResponse, .again])).2 :=
  (blocking_agrees_iff rfl (by decide +kernel) (by decide +kernel)
    (plainAnswers_quiet (by decide))).mpr (by decide +kernel)

def Forwarded.response : Forwarded → Option BackendResponse
  | .returned _ response _ _ => some response
  | .threw => none

/-- A response that is cut off. -/
def cutResponse : List RecvAnswer :=
  [.bytes (ascii "HTTP/1.1 200 OK\r\nConnection: close\r\nContent-Length: 5\r\n\r\nab"), .bytes []]

/-- The blocking call returns the two bytes of five, the exchange an error. -/
theorem cutResponse_differs :
    ((forwardRequest backendParams (fun _ => [])
        (trace (fun _ => []) (start backendParams) (plainAnswers cutResponse))).bind
        Forwarded.response).map (fun response => (response.statusCode, response.body)) =
      some (200, ascii "ab") ∧
    ((start backendParams).run (fun _ => []) (plainAnswers cutResponse)).2.phase = .done ∧
    ((start backendParams).run (fun _ => []) (plainAnswers cutResponse)).2.result =
      badGateway .readFailed := by
  decide +kernel

end EpollGateway.Upstream
