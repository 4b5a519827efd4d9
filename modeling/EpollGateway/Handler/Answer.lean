import EpollGateway.Handler.Machine

/-! # What an answer does to a connection

A request is answered in one of three ways. A response is framed and queued
(`Enqueues`), or an exchange with a backend is left in flight, or an exception
closes the connection. `answerRequest_answered` says which, whatever the route.
-/

namespace EpollGateway.Handler

open Bytes Http Upstream Machine

/-! ## The output side -/

/-- The fields of a connection that its output passes through, with its history. -/
structure Outlet where
  sendQueue : List Bytes
  file : Option FileSlot
  sslFileBuffer : Bytes
  hist : History

def Conn.outlet (c : Conn) : Outlet := ⟨c.sendQueue, c.file, c.sslFileBuffer, c.hist⟩

/-- What is left to send of the file in the slot. -/
def Outlet.fileRest (env : Env) (u : Outlet) : Bytes :=
  match u.file with
  | none => []
  | some f => fileBytes (env.file f.fd) f.offset f.remaining

/-- Everything that waits to be written: the queue, then the file. -/
def Outlet.pending (env : Env) (u : Outlet) : Bytes := u.sendQueue.flatten ++ u.fileRest env

lemma Outlet.fileRest_of_none {env : Env} {u : Outlet} (h : u.file = none) :
    u.fileRest env = [] := by
  simp [Outlet.fileRest, h]

/-! ## Queueing a response -/

/-- From `u` to `v` one response to the request `id` has been framed. If the file
slot was free, the response is the last thing that waits to be written. -/
structure Enqueues (env : Env) (id : Nat) (u v : Outlet) : Prop where
  replied : ∃ r : Reply, v.hist.replies = u.hist.replies ++ [(id, r)] ∧
    (u.file = none → v.pending env = u.pending env ++ r.bytes)
  taken : v.hist.taken = u.hist.taken
  written : v.hist.written = u.hist.written
  sslFileBuffer : v.sslFileBuffer = u.sslFileBuffer

section

variable (env : Env) (fresh : Fresh) (id : Nat) (req : HttpRequest)

lemma finalizeResponse_enqueues (resp : HttpResponse) (alreadyCompressed : Bool) (c : Conn) :
    Enqueues env id c.outlet
      (finalizeResponse env fresh id req resp alreadyCompressed [] c).outlet where
  replied := by
    refine ⟨_, rfl, ?_⟩
    intro hfile
    have hfile' : c.file = none := hfile
    have hrest : (finalizeResponse env fresh id req resp alreadyCompressed [] c).outlet.fileRest env
        = [] := Outlet.fileRest_of_none (by simp [finalizeResponse, Conn.outlet, hfile'])
    rw [Outlet.pending, Outlet.pending, hrest, Outlet.fileRest_of_none hfile]
    simp [finalizeResponse, Conn.outlet, Reply.bytes]
  taken := rfl
  written := rfl
  sslFileBuffer := rfl

/-- A large file: its descriptor is put into the slot before the header is queued. -/
lemma finalizeResponse_file_enqueues (resp : HttpResponse) (fd size : Nat) (c : Conn) :
    Enqueues env id c.outlet
      (finalizeResponse env fresh id req resp false (fileBytes (env.file fd) 0 size)
        { c with file := some ⟨fd, 0, size⟩ }).outlet where
  replied := by
    refine ⟨_, rfl, ?_⟩
    intro hfile
    rw [Outlet.pending, Outlet.pending, Outlet.fileRest_of_none hfile]
    by_cases hhead : req.method = ascii "HEAD"
    · simp [finalizeResponse, Conn.outlet, Reply.bytes, Outlet.fileRest, hhead]
    · simp [finalizeResponse, Conn.outlet, Reply.bytes, Outlet.fileRest, hhead, FileSlot.remaining]
  taken := rfl
  written := rfl
  sslFileBuffer := rfl

lemma sendErrorResponse_enqueues (code : Int) (message : String) (allow : Bytes) (c : Conn) :
    Enqueues env id c.outlet (sendErrorResponse id code message allow c).outlet where
  replied := by
    refine ⟨_, rfl, ?_⟩
    intro hfile
    have hrest : (sendErrorResponse id code message allow c).outlet.fileRest env = [] :=
      Outlet.fileRest_of_none hfile
    rw [Outlet.pending, Outlet.pending, hrest, Outlet.fileRest_of_none hfile]
    simp [sendErrorResponse, Conn.outlet, Reply.bytes]
  taken := rfl
  written := rfl
  sslFileBuffer := rfl

lemma staticFallback_enqueues (o : Oracle) (c : Conn) :
    Enqueues env id c.outlet (staticFallback env o id req c).outlet := by
  unfold staticFallback
  dsimp only
  split
  · exact finalizeResponse_enqueues env _ id req _ _ c
  · split
    · exact finalizeResponse_enqueues env _ id req _ _ c
    · exact finalizeResponse_enqueues env _ id req _ _ c
    · exact finalizeResponse_enqueues env _ id req _ _ c
    · split
      · exact finalizeResponse_enqueues env _ id req _ _ c
      · exact finalizeResponse_file_enqueues env _ id req _ _ _ c

lemma upstream_finalizeResponse (resp : HttpResponse) (z : Bool) (fileBody : Bytes) (c : Conn) :
    (finalizeResponse env fresh id req resp z fileBody c).upstream = c.upstream := by
  simp only [finalizeResponse]

lemma upstream_staticFallback (o : Oracle) (c : Conn) :
    (staticFallback env o id req c).upstream = c.upstream := by
  unfold staticFallback
  dsimp only
  split
  · exact upstream_finalizeResponse env _ id req _ _ _ c
  · split
    · exact upstream_finalizeResponse env _ id req _ _ _ c
    · exact upstream_finalizeResponse env _ id req _ _ _ c
    · exact upstream_finalizeResponse env _ id req _ _ _ c
    · split
      · exact upstream_finalizeResponse env _ id req _ _ _ c
      · exact upstream_finalizeResponse env _ id req _ _ _ _

end

/-! ## Exchanges keep their identity -/

def Drive.state : Drive → ExchangeState
  | .inFlight st => st
  | .respond st _ => st
  | .threw st => st

/-- Driving an exchange changes nothing but its children. -/
def Continues (st : ExchangeState) (d : Drive) : Prop :=
  ∃ children, d.state = { st with children := children }

lemma Continues.trans {st : ExchangeState} {d d' : Drive} (h : Continues st d)
    (h' : Continues d.state d') : Continues st d' := by
  obtain ⟨children, hd⟩ := h
  obtain ⟨children', hd'⟩ := h'
  exact ⟨children', by rw [hd', hd]⟩

lemma finalizeComposite_state (st : ExchangeState) : (finalizeComposite st).state = st := by
  unfold finalizeComposite
  split <;> rfl

lemma finalizeComposite_not_inFlight (st st' : ExchangeState) :
    finalizeComposite st ≠ .inFlight st' := by
  unfold finalizeComposite
  split <;> simp

lemma finishDependency_continues (st : ExchangeState) (idx : Nat) (ch : ChildExchange)
    (succeeded : Bool) (be : BackendResponse) (elapsed : Nat) :
    Continues st (finishDependency st idx ch succeeded be elapsed) := by
  unfold finishDependency
  dsimp only
  split
  · exact ⟨_, finalizeComposite_state _⟩
  · exact ⟨_, rfl⟩

lemma driveChild_continues (s : Surroundings) (idx : Nat) (m : UpstreamManager)
    (st : ExchangeState) (advances : List Advance) :
    Continues st (driveChild s idx m st advances).2 := by
  induction advances generalizing m st with
  | nil => exact ⟨_, rfl⟩
  | cons answer rest ih =>
    simp only [driveChild]
    split
    · exact ⟨_, rfl⟩
    · split
      · exact ⟨_, rfl⟩
      · split
        · exact ⟨_, rfl⟩
        · split
          · exact finishDependency_continues _ _ _ _ _ _
          · split
            · exact ⟨_, rfl⟩
            · split
              · obtain ⟨children, h⟩ := ih (recordOutcome m _ _ _) (st.setChild idx (retriedChild _))
                exact ⟨children, h⟩
              · exact ⟨_, rfl⟩

lemma mem_liveIndices {children : List ChildExchange} {i : Nat} :
    i ∈ liveIndices children ↔ ∃ ch, children[i]? = some ch ∧ ch.live = true := by
  simp only [liveIndices, List.mem_filter, List.mem_range, Option.any_eq_true]
  constructor
  · rintro ⟨-, h⟩
    exact h
  · rintro ⟨ch, hch, hlive⟩
    exact ⟨(List.getElem?_eq_some_iff.mp hch).1, ch, hch, hlive⟩

lemma driveLive_continues (s : Surroundings) (indices : List Nat) (m : UpstreamManager) (d : Drive) :
    Continues d.state (driveLive s indices m d).2 := by
  induction indices generalizing m d with
  | nil => exact ⟨_, rfl⟩
  | cons idx rest ih =>
    cases d with
    | inFlight st => exact (driveChild_continues s idx m st _).trans (ih _ _)
    | respond st resp => exact ⟨_, rfl⟩
    | threw st => exact ⟨_, rfl⟩

lemma expireComposite_continues (elapsed : Nat) (st : ExchangeState) :
    Continues st (expireComposite elapsed st) :=
  ⟨_, finalizeComposite_state _⟩

/-- The overall deadline leaves no child open. -/
lemma allFinished_forced (st : ExchangeState) (elapsed : Nat) :
    ({ st with children := st.children.map (forceFinishChild elapsed) } :
      ExchangeState).allFinished = true := by
  unfold ExchangeState.allFinished
  rw [List.all_eq_true]
  intro ch hch
  rcases List.mem_map.mp hch with ⟨ch', -, rfl⟩
  unfold forceFinishChild
  split
  · assumption
  · rfl

lemma startUpstreamExchange_state {upstreams : Bytes → List UpstreamServer} {s : Surroundings}
    {m : UpstreamManager} {id : Nat} {req : HttpRequest} {route : GatewayRoute} {d : Drive}
    (h : (startUpstreamExchange upstreams s m id req route).2 = .published d) :
    ∃ children, d.state = { id := id, req := req, children := children } := by
  unfold startUpstreamExchange at h
  dsimp only at h
  split at h
  · cases h
  · split at h
    · cases h
    · rename_i server m' _
      split at h
      · cases h
      all_goals
        cases h
        obtain ⟨children, hd⟩ := driveChild_continues s 0
          (m'.allowRequest (resolveUpstreamGroupId route) server
            route.upstreamTarget.circuitRecoveryTimeoutMs s.now).2 _ (s.advances 0)
        exact ⟨children, hd⟩

lemma startCompositeExchange_state {upstreams : Bytes → List UpstreamServer} {s : Surroundings}
    {m : UpstreamManager} {id : Nat} {req : HttpRequest} {route : GatewayRoute} {d : Drive}
    (h : (startCompositeExchange upstreams s m id req route).2 = .published d) :
    ∃ children, d.state = compositeExchange id req route children := by
  unfold startCompositeExchange at h
  split at h
  · cases h
  · rename_i m' children _
    dsimp only at h
    split at h
    · exact ⟨children, by rw [← Start.published.inj h, finalizeComposite_state]⟩
    · obtain ⟨cs, hd⟩ := driveLive_continues s (liveIndices children) m'
        (.inFlight (compositeExchange id req route children))
      exact ⟨cs, by rw [← Start.published.inj h, hd]; rfl⟩

/-! ## The three ways -/

/-- A route whose requests go to a backend. -/
def RegisteredRoute.remote (reg : RegisteredRoute) : Bool :=
  reg.route.targetType = .upstream || reg.route.targetType = .composite

/-- A request that reaches a route with a backend. -/
def startsExchange (env : Env) (o : Oracle) (req : HttpRequest) : Option RegisteredRoute → Bool
  | none => false
  | some reg =>
    match checkGates env o req reg.route with
    | .pass => reg.remote
    | .stop _ _ => false

/-- What `send_response` makes of `c` for the request `id`, and whether an exception
leaves it; `remote` says that the route has a backend. -/
inductive Sent (env : Env) (id : Nat) (remote : Bool) (c : Conn) : Conn × Bool → Prop where
  | threw {c' : Conn} : c'.hist = c.hist → Sent env id remote c (c', true)
  | replied {c' : Conn} : Enqueues env id c.outlet c'.outlet → c'.upstream = none →
      Sent env id remote c (c', false)
  | inFlight {c' : Conn} {st : ExchangeState} : remote = true → st.id = id →
      c'.upstream = some st → c'.interest = c.interest → c'.hist = c.hist →
      Sent env id remote c (c', false)

/-- The connection after the request `id` of `c` was answered: closed by an
exception, with a response queued, or waiting for a backend. -/
inductive Answered (env : Env) (id : Nat) (remote : Bool) (c : Conn) : Conn → Prop where
  | closed {c' : Conn} : c'.hist = c.hist → Answered env id remote c (cleanup c')
  | replied {c' : Conn} : Enqueues env id c.outlet c'.outlet → c'.upstream = none →
      (∃ caller, c'.pc = .parsing caller ∨ c'.pc = .reading caller) → Answered env id remote c c'
  | inFlight {c' : Conn} {st : ExchangeState} : remote = true → st.id = id →
      c'.upstream = some st → c'.interest = c.interest → c'.hist = c.hist → c'.pc = .idle →
      Answered env id remote c c'

section

variable {env : Env} {o : Oracle} {id : Nat} {req : HttpRequest} {c : Conn}

lemma applyDrive_sent (fresh : Fresh) {d : Drive} (hid : d.state.id = id) :
    Sent env id true c (applyDrive env fresh c d) := by
  subst hid
  cases d with
  | inFlight st => exact .inFlight rfl rfl rfl rfl rfl
  | respond st resp =>
    exact .replied (finalizeResponse_enqueues env fresh st.id st.req resp false c) rfl
  | threw st => exact .threw rfl

lemma applyStart_sent (fresh : Fresh) (hup : c.upstream = none) {start : Start}
    (hid : ∀ d, start = .published d → d.state.id = id) :
    Sent env id true c (applyStart env fresh id req c start) := by
  cases start with
  | answer resp => exact .replied (finalizeResponse_enqueues env fresh id req resp false c) hup
  | published d => exact applyDrive_sent fresh (hid d rfl)
  | threw => exact .threw rfl

/-- What `send_response` does not look at does not matter. -/
lemma Sent.of_base {remote : Bool} {c₁ : Conn} {r : Conn × Bool} (h : Sent env id remote c₁ r)
    (hout : c₁.outlet = c.outlet) (hinterest : c₁.interest = c.interest) :
    Sent env id remote c r := by
  have hhist : c₁.hist = c.hist := congrArg Outlet.hist hout
  cases h with
  | threw h => exact .threw (h.trans hhist)
  | replied hq hup =>
    rw [hout] at hq
    exact .replied hq hup
  | inFlight hr hid hup hi h => exact .inFlight hr hid hup (hi.trans hinterest) (h.trans hhist)

lemma sendResponse_sent (m : UpstreamManager) (hup : c.upstream = none) (reg : RegisteredRoute) :
    Sent env id reg.remote c (sendResponse env o m id req (some reg) c).2 := by
  have hbase : Sent env id reg.remote { c with lastRequest := some req }
      (sendResponse env o m id req (some reg) c).2 := by
    unfold sendResponse
    dsimp only
    split
    · rename_i htarget
      rw [show reg.remote = true by simp [RegisteredRoute.remote, htarget]]
      refine applyStart_sent o.fresh ?_ fun d hd => ?_
      · exact hup
      · obtain ⟨children, hstate⟩ := startUpstreamExchange_state hd
        rw [hstate]
    · rename_i htarget
      rw [show reg.remote = true by simp [RegisteredRoute.remote, htarget]]
      refine applyStart_sent o.fresh ?_ fun d hd => ?_
      · exact hup
      · obtain ⟨children, hstate⟩ := startCompositeExchange_state hd
        rw [hstate, compositeExchange]
    · split
      · exact .threw rfl
      · exact .replied (finalizeResponse_enqueues env _ id req _ _ _) hup
  exact hbase.of_base rfl rfl

lemma answerError_answered (caller : Caller) (code : Int) (message : String) (allow : Bytes)
    {remote : Bool} (hup : c.upstream = none) :
    Answered env id remote c (answerError caller id req code message allow c) := by
  have hq := sendErrorResponse_enqueues env id code message allow { c with lastRequest := some req }
  exact .replied hq hup ⟨caller, .inl rfl⟩

/-- Whatever its route, a request is answered in one of the three ways. -/
lemma answerRequest_answered (caller : Caller) (m : UpstreamManager) (resolved : ResolvedRoute)
    (hup : c.upstream = none) :
    Answered env id (startsExchange env o req resolved.route) c
      (answerRequest env o caller m id req resolved c).2 := by
  unfold answerRequest
  split
  · split
    · exact answerError_answered caller _ _ _ hup
    · have hq := staticFallback_enqueues env id req o { c with lastRequest := some req }
      have hup' := upstream_staticFallback env id req o { c with lastRequest := some req }
      exact .replied hq (hup'.trans hup) ⟨caller, .inl rfl⟩
  · rename_i reg hroute
    split
    · exact answerError_answered caller _ _ _ hup
    · rename_i hgates
      have hremote : startsExchange env o req (some reg) = reg.remote := by
        simp only [startsExchange, hgates]
      have hsent : Sent env id reg.remote c
          (sendResponse env o m id req (some reg) { c with keepAlive := wantsKeepAlive req }).2 := by
        refine (sendResponse_sent m ?_ reg).of_base rfl rfl
        exact hup
      rw [hroute, hremote]
      split
      · rename_i m' c' heq
        rw [heq] at hsent
        cases hsent with
        | threw hhist => exact .closed hhist
      · rename_i m' c' heq
        rw [heq] at hsent
        cases hsent with
        | replied hq hup' => exact .replied hq hup' ⟨caller, .inr (by simp [hup'])⟩
        | inFlight hr hid hst hi hhist => exact .inFlight hr hid hst hi hhist (by simp [hst])

/-- A refusal is answered with an error page. -/
lemma refuse_answered (caller : Caller) {remote : Bool} (hup : c.upstream = none) :
    Answered env c.nextId remote
      { c with
        lastRequest := some c.request
        hist := c.hist.take (.refusal c.parser.parseError) } (refuse caller c) := by
  unfold refuse
  dsimp only
  split
  · exact .replied (sendErrorResponse_enqueues env _ 413 "Payload Too Large" [] _) hup
      ⟨caller, .inr rfl⟩
  · exact .replied (sendErrorResponse_enqueues env _ 400 "Bad Request" [] _) hup
      ⟨caller, .inr rfl⟩

end

/-! ## The pass -/

/-- The next pass of the parser ends a request, as complete or as refused. -/
def Conn.takes (c : Conn) : Bool :=
  let q := c.parser.parse c.request c.readBuf
  q.complete || q.parser.parseError ≠ .none

/-- The next pass of the parser completes a request that reaches a route with a
backend. -/
def Conn.startsExchange (env : Env) (o : Oracle) (c : Conn) : Bool :=
  let q := c.parser.parse c.request c.readBuf
  q.complete && Handler.startsExchange env o (dispatched env o q.request)
    (resolveRoute env.routes (prepareRequest o.fresh q.request)).route

/-- One pass of the parser waits for more input, or takes a request or a refusal
and answers it. -/
lemma parsePass_cases (env : Env) (o : Oracle) (caller : Caller) (m : UpstreamManager) {c : Conn}
    (hup : c.upstream = none) :
    (c.takes = false ∧ ∃ p r b, (parsePass env o caller m c).2 =
      { c with parser := p, request := r, readBuf := b, pc := .reading caller }) ∨
    (c.takes = true ∧ ∃ t c₁, c₁.outlet = { c.outlet with hist := c.hist.take t } ∧
      c₁.interest = c.interest ∧
      Answered env c.nextId (c.startsExchange env o) c₁ (parsePass env o caller m c).2) := by
  unfold parsePass Conn.takes Conn.startsExchange
  set q := c.parser.parse c.request c.readBuf
  let c' : Conn :=
    { c with parser := q.parser, request := q.request, readBuf := c.readBuf.drop q.consumed }
  dsimp only
  split
  · rename_i hcomplete
    refine .inr ⟨by simp [hcomplete], ?_⟩
    rw [hcomplete, Bool.true_and]
    let c₁ : Conn :=
      { c' with
        request := dispatched env o q.request
        hist := c.hist.take (.request (dispatched env o q.request)) }
    have hup' : c₁.upstream = none := hup
    exact ⟨_, c₁, rfl, rfl, answerRequest_answered caller m _ hup'⟩
  · rename_i hcomplete
    split
    · rename_i herr
      let c₁ : Conn :=
        { c' with
          lastRequest := some q.request
          hist := c.hist.take (.refusal q.parser.parseError) }
      have hup' : c'.upstream = none := hup
      exact .inr ⟨by simp [herr], _, c₁, rfl, rfl, refuse_answered caller hup'⟩
    · rename_i herr
      exact .inl ⟨by simpa [hcomplete] using herr, _, _, _, rfl⟩

end EpollGateway.Handler
