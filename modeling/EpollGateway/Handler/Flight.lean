import EpollGateway.Handler.Answer

/-! # The life of an exchange

An exchange is started by a parsed request, driven by the events of its backends,
expired by the overall deadline, and dropped when its connection is closed.
`connStep_flight` says for every step which of these it is, and what the step does
to the manager that all connections share.
-/

namespace EpollGateway.Handler

open Bytes Http Upstream Machine

/-! ## Starting -/

/-- The start function of a route with a backend. -/
def startExchange (env : Env) (o : Oracle) (m : UpstreamManager) (id : Nat) (req : HttpRequest)
    (route : GatewayRoute) : UpstreamManager × Start :=
  if route.targetType = .upstream then startUpstreamExchange env.upstreams o.sur m id req route
  else startCompositeExchange env.upstreams o.sur m id req route

/-- How `handle_read` goes on after a start function; its `catch` closes the
connection. -/
def afterStart (caller : Caller) (r : Conn × Bool) : Conn :=
  if r.2 then cleanup r.1
  else
    { r.1 with
      parser := r.1.parser.reset
      pc := if r.1.upstream.isSome then .idle else .reading caller }

/-- The request that the next pass of the parser dispatches. -/
def Conn.incoming (env : Env) (o : Oracle) (c : Conn) : HttpRequest :=
  dispatched env o (c.parser.parse c.request c.readBuf).request

/-- The next pass of the parser starts an exchange for `route`. -/
structure Starts (env : Env) (o : Oracle) (c : Conn) (route : GatewayRoute) : Prop where
  complete : (c.parser.parse c.request c.readBuf).complete = true
  resolved : (resolveRoute env.routes
    (prepareRequest o.fresh (c.parser.parse c.request c.readBuf).request)).route.map
      RegisteredRoute.route = some route
  gates : checkGates env o (c.incoming env o) route = .pass
  remote : route.targetType = .upstream ∨ route.targetType = .composite

section

variable {env : Env} {o : Oracle} {c : Conn}

lemma Starts.startsExchange {route : GatewayRoute} (h : Starts env o c route) :
    c.startsExchange env o = true := by
  obtain ⟨reg, hreg, rfl⟩ := Option.map_eq_some_iff.mp h.resolved
  have hgates := h.gates
  unfold Conn.incoming at hgates
  have hremote := h.remote
  simpa [Conn.startsExchange, Handler.startsExchange, h.complete, hreg, hgates,
    RegisteredRoute.remote] using hremote

lemma sendResponse_remote {m : UpstreamManager} {id : Nat} {req : HttpRequest}
    {reg : RegisteredRoute}
    (h : reg.route.targetType = .upstream ∨ reg.route.targetType = .composite) :
    sendResponse env o m id req (some reg) c =
      ((startExchange env o m id req reg.route).1,
        applyStart env o.fresh id req { c with lastRequest := some req }
          (startExchange env o m id req reg.route).2) := by
  rcases h with h | h
  · simp only [sendResponse, startExchange, h, if_true]
  · simp only [sendResponse, startExchange, h, reduceCtorEq, if_false]

/-- A route without a backend answers at once, unless a local handler throws. -/
lemma sendResponse_local {m : UpstreamManager} {id : Nat} {req : HttpRequest}
    {reg : RegisteredRoute}
    (h : ¬ (reg.route.targetType = .upstream ∨ reg.route.targetType = .composite)) :
    ∃ c', (sendResponse env o m id req (some reg) c = (m, c', false) ∧ c'.upstream = c.upstream) ∨
      (sendResponse env o m id req (some reg) c = (m, c', true) ∧ o.localAnswer = none) := by
  rw [not_or] at h
  unfold sendResponse
  dsimp only
  split
  · exact absurd ‹_› h.1
  · exact absurd ‹_› h.2
  · split
    · rename_i hnone
      refine ⟨_, .inr ⟨rfl, ?_⟩⟩
      unfold dispatchRoute at hnone
      split at hnone
      · split at hnone
        · exact hnone
        · cases hnone
      · cases hnone
      · cases hnone
      · split at hnone <;> cases hnone
      · cases hnone
    · exact ⟨_, .inl ⟨rfl, upstream_finalizeResponse env _ id req _ _ _ _⟩⟩

/-- The pass that starts an exchange. -/
lemma parsePass_starts (caller : Caller) (m : UpstreamManager) {route : GatewayRoute}
    (h : Starts env o c route) :
    ∃ c₁ : Conn,
      c₁.outlet = { c.outlet with hist := c.hist.take (.request (c.incoming env o)) } ∧
      c₁.upstream = c.upstream ∧
      parsePass env o caller m c =
        ((startExchange env o m c.nextId (c.incoming env o) route).1,
          afterStart caller (applyStart env o.fresh c.nextId (c.incoming env o) c₁
            (startExchange env o m c.nextId (c.incoming env o) route).2)) := by
  obtain ⟨reg, hreg, rfl⟩ := Option.map_eq_some_iff.mp h.resolved
  have hgates := h.gates
  unfold Conn.incoming at hgates ⊢
  unfold parsePass
  set q := c.parser.parse c.request c.readBuf
  let req := dispatched env o q.request
  let c₁ : Conn :=
    { c with
      parser := q.parser
      request := req
      readBuf := c.readBuf.drop q.consumed
      keepAlive := wantsKeepAlive req
      lastRequest := some req
      hist := c.hist.take (.request req) }
  refine ⟨c₁, rfl, rfl, ?_⟩
  dsimp only
  rw [if_pos h.complete]
  unfold dispatch answerRequest
  dsimp only
  rw [hreg]
  dsimp only
  rw [hgates]
  dsimp only
  rw [sendResponse_remote h.remote]
  dsimp only [Conn.nextId]
  generalize applyStart env o.fresh _ _ _ _ = r
  obtain ⟨c', threw⟩ := r
  cases threw <;> rfl

/-- Every other pass leaves the manager alone, and the exchange too unless a local
handler throws, which closes the connection. -/
lemma parsePass_calm (caller : Caller) (m : UpstreamManager)
    (h : ∀ route, ¬ Starts env o c route) :
    (parsePass env o caller m c).1 = m ∧
      ((parsePass env o caller m c).2.upstream = c.upstream ∧
          (parsePass env o caller m c).2.pc ≠ .closed ∨
        o.localAnswer = none ∧ ∃ c', (parsePass env o caller m c).2 = cleanup c') := by
  unfold parsePass
  dsimp only
  split
  · rename_i hcomplete
    unfold dispatch answerRequest
    dsimp only
    split
    · split
      · exact ⟨rfl, .inl ⟨rfl, by simp [answerError]⟩⟩
      · exact ⟨rfl, .inl ⟨upstream_staticFallback env _ _ o _, by simp⟩⟩
    · rename_i reg hreg
      split
      · exact ⟨rfl, .inl ⟨rfl, by simp [answerError]⟩⟩
      · rename_i hgates
        have hlocal : ¬ (reg.route.targetType = .upstream ∨ reg.route.targetType = .composite) :=
          fun hremote => h reg.route ⟨hcomplete, by rw [hreg]; rfl, hgates, hremote⟩
        obtain ⟨c', ⟨hsent, hup⟩ | ⟨hsent, hthrew⟩⟩ :=
          sendResponse_local hlocal
        · rw [hsent]
          refine ⟨rfl, .inl ⟨hup, ?_⟩⟩
          dsimp only
          split <;> simp
        · rw [hsent]
          exact ⟨rfl, .inr ⟨hthrew, c', rfl⟩⟩
  · split
    · refine ⟨rfl, .inl ⟨?_, by simp [refuse]⟩⟩
      unfold refuse
      dsimp only
      split <;> rfl
    · exact ⟨rfl, .inl ⟨rfl, by simp⟩⟩

end

/-- The exchange that a connection holds after a start function; `old` is the one
that it held before. -/
def Start.leaves (old : Option ExchangeState) : Start → Option ExchangeState
  | .answer _ => old
  | .published (.inFlight st) => some st
  | .published (.respond _ _) => none
  | .published (.threw _) => none
  | .threw => none

/-- The start function throws, before there is an exchange or when it frames the
response. -/
def Start.throws : Start → Bool
  | .answer _ => false
  | .published (.threw _) => true
  | .published _ => false
  | .threw => true

variable {env : Env} {fresh : Fresh} {c : Conn}

lemma afterStart_throws {id : Nat} {req : HttpRequest} {caller : Caller} {start : Start}
    (h : start.throws = true) :
    (afterStart caller (applyStart env fresh id req c start)).pc = .closed := by
  rcases start with resp | d | _
  · cases h
  · rcases d with st | ⟨st, resp⟩ | st
    · cases h
    · cases h
    · rfl
  · rfl

lemma upstream_afterStart (env : Env) (fresh : Fresh) (id : Nat) (req : HttpRequest)
    (caller : Caller) (c : Conn) (start : Start) :
    (afterStart caller (applyStart env fresh id req c start)).upstream =
      start.leaves c.upstream := by
  cases start with
  | answer resp => exact upstream_finalizeResponse env fresh id req resp false [] c
  | published d => cases d <;> rfl
  | threw => rfl

/-- The exchange that a connection holds after it was driven. -/
lemma upstream_afterDrive {d : Drive} {st : ExchangeState}
    (h : (afterDrive (applyDrive env fresh c d)).upstream = some st) : st = d.state := by
  cases d <;> cases h <;> rfl

/-! ## Every step -/

/-- The results of system calls and handlers that close a connection. -/
def Closes (c : Conn) : Label → Bool
  | .event e => e = .hangup
  | .recv r => r = .eof || r = .failed
  | .resume => false
  | .parse o => o.localAnswer.isNone
  | .write r => r.fatal
  | .file pread r => pread = 0 || r.fatal
  | .flushed => !c.keepAlive
  | .upstream _ _ _ => false
  | .deadline _ _ => false
  | .teardown => true

/-- What a step does to the exchange of its connection and to the manager. -/
inductive Flight (env : Env) (s : Sys) : Label → Sys → Prop where
  | kept {l : Label} {s' : Sys} : s'.mgr = s.mgr → s'.conn.upstream = s.conn.upstream →
      Flight env s l s'
  | closed {l : Label} {s' : Sys} : Closes s.conn l = true → s'.mgr = s.mgr →
      s'.conn.upstream = none → s'.conn.pc = .closed → Flight env s l s'
  | started {o : Oracle} {route : GatewayRoute} {s' : Sys} : Starts env o s.conn route →
      s'.mgr = (startExchange env o s.mgr s.conn.nextId (s.conn.incoming env o) route).1 →
      s'.conn.upstream = (startExchange env o s.mgr s.conn.nextId (s.conn.incoming env o)
        route).2.leaves s.conn.upstream →
      ((startExchange env o s.mgr s.conn.nextId (s.conn.incoming env o) route).2.throws = true →
        s'.conn.pc = .closed) → Flight env s (.parse o) s'
  | driven {idx : Nat} {fresh : Fresh} {sur : Surroundings} {st : ExchangeState} :
      s.conn.upstream = some st → Flight env s (.upstream idx fresh sur)
        ⟨(driveChild sur idx s.mgr st (sur.advances idx)).1,
          afterDrive (applyDrive env fresh s.conn
            (driveChild sur idx s.mgr st (sur.advances idx)).2)⟩
  | expired {fresh : Fresh} {sur : Surroundings} {st : ExchangeState} :
      s.conn.upstream = some st → st.composite = true → Flight env s (.deadline fresh sur)
        ⟨s.mgr, afterDrive (applyDrive env fresh s.conn (expireComposite sur.elapsed st))⟩

lemma connStep_flight {l : Label} {s s' : Sys} (h : connStep env l s = some s') :
    Flight env s l s' := by
  cases l with
  | event e =>
    obtain ⟨-, i, c, -, hc, rfl⟩ := connStep_event h
    rcases eventPass_cases hc with ⟨rfl, rfl⟩ | rfl | rfl
    · exact .closed rfl rfl rfl rfl
    · exact .kept rfl rfl
    · exact .kept rfl rfl
  | recv r =>
    obtain ⟨caller, -, -, -, rfl⟩ := connStep_recv h
    cases r with
    | data b => exact .kept rfl rfl
    | eof => exact .closed rfl rfl rfl rfl
    | wouldBlock => exact .kept rfl (by simp [recvPass])
    | failed => exact .closed rfl rfl rfl rfl
  | resume =>
    obtain ⟨caller, -, -, rfl⟩ := connStep_resume h
    exact .kept rfl rfl
  | parse o =>
    obtain ⟨caller, -, hm, hc⟩ := connStep_parse h
    by_cases hstarts : ∃ route, Starts env o s.conn route
    · obtain ⟨route, hstarts⟩ := hstarts
      obtain ⟨c₁, -, hup, hpass⟩ := parsePass_starts caller s.mgr hstarts
      rw [hpass] at hm hc
      refine .started hstarts hm ?_ fun hthrows => ?_
      · rw [hc, upstream_afterStart, hup]
      · rw [hc]
        exact afterStart_throws hthrows
    · obtain ⟨hmgr, ⟨hup, -⟩ | ⟨hthrew, c', hc'⟩⟩ :=
        parsePass_calm caller s.mgr (fun route hr => hstarts ⟨route, hr⟩)
      · exact .kept (hm.trans hmgr) (hc ▸ hup)
      · exact .closed (by simp [Closes, hthrew]) (hm.trans hmgr) (by rw [hc, hc']; rfl)
          (by rw [hc, hc']; rfl)
  | write r =>
    obtain ⟨-, hm, ⟨hc, hr⟩ | hw⟩ := connStep_write_writes h
    · exact .closed hr hm (hc ▸ rfl) (hc ▸ rfl)
    · exact .kept hm hw.upstream
  | file pread r =>
    obtain ⟨-, hm, ⟨hc, hr⟩ | hw⟩ := connStep_file_writes h
    · exact .closed (by simpa [Closes] using hr) hm (hc ▸ rfl) (hc ▸ rfl)
    · exact .kept hm hw.upstream
  | flushed =>
    obtain ⟨-, -, -, rfl⟩ := connStep_flushed h
    unfold flushedPass
    dsimp only
    split
    · rename_i hclose
      exact .closed (by simpa [Closes] using hclose) rfl rfl rfl
    · split <;> exact .kept rfl rfl
  | upstream idx fresh sur =>
    obtain ⟨-, st, hst, rfl⟩ := connStep_upstream h
    exact .driven hst
  | deadline fresh sur =>
    obtain ⟨-, st, hst, hcomposite, rfl⟩ := connStep_deadline h
    exact .expired hst hcomposite
  | teardown =>
    obtain ⟨-, rfl⟩ := connStep_teardown h
    exact .closed rfl rfl rfl rfl

/-! ## Closing -/

lemma afterStart_closed {id : Nat} {req : HttpRequest} {caller : Caller} {start : Start}
    (h : (afterStart caller (applyStart env fresh id req c start)).pc = .closed) :
    start.throws = true ∧ ∃ c', afterStart caller (applyStart env fresh id req c start) =
      cleanup c' := by
  have hopen (r : Conn) : (afterStart caller (r, false)).pc ≠ .closed := by
    simp only [afterStart, Bool.false_eq_true, if_false]
    split <;> simp
  rcases start with resp | d | _
  · exact absurd h (hopen _)
  · rcases d with st | ⟨st, resp⟩ | st
    · exact absurd h (hopen _)
    · exact absurd h (hopen _)
    · exact ⟨rfl, _, rfl⟩
  · exact ⟨rfl, _, rfl⟩

/-- How the start function ends that the next pass of the parser calls, if it calls
one. -/
def Conn.start (env : Env) (o : Oracle) (m : UpstreamManager) (c : Conn) : Option Start :=
  if (c.parser.parse c.request c.readBuf).complete then
    match (resolveRoute env.routes
        (prepareRequest o.fresh (c.parser.parse c.request c.readBuf).request)).route with
    | none => none
    | some reg =>
      match checkGates env o (c.incoming env o) reg.route with
      | .stop _ _ => none
      | .pass =>
        if reg.route.targetType = .upstream ∨ reg.route.targetType = .composite then
          some (startExchange env o m c.nextId (c.incoming env o) reg.route).2
        else none
  else none

lemma Starts.start {o : Oracle} {route : GatewayRoute} (h : Starts env o c route)
    (m : UpstreamManager) :
    c.start env o m = some (startExchange env o m c.nextId (c.incoming env o) route).2 := by
  rcases Option.map_eq_some_iff.mp h.resolved with ⟨reg, hreg, rfl⟩
  unfold Conn.start
  rw [if_pos h.complete, hreg]
  dsimp only
  rw [h.gates]
  dsimp only
  rw [if_pos h.remote]

/-- A request is being dispatched, and the start function of its route throws. -/
def Throws (env : Env) (s : Sys) : Label → Bool
  | .parse o => (s.conn.start env o s.mgr).any Start.throws
  | _ => false

/-- Writing does not close a connection. -/
lemma Writes.pc_ne_closed {c' : Conn} (h : Writes c c') (hpc : c.pc = .writing) :
    c'.pc ≠ .closed := by
  rcases h.place with ⟨hp, -⟩ | hp
  · simp [hp, hpc]
  · simp [hp]

/-- A step that closes its connection erases everything there is of it; the causes
are these. -/
lemma connStep_closes {l : Label} {s s' : Sys} (h : connStep env l s = some s')
    (hpc : s'.conn.pc = .closed) :
    (∃ c, s'.conn = cleanup c) ∧ (Closes s.conn l = true ∨ Throws env s l = true) := by
  cases l with
  | event e =>
    rcases connStep_event h with ⟨hidle, i, c, -, hc, rfl⟩
    rcases eventPass_cases hc with ⟨rfl, rfl⟩ | rfl | rfl
    · exact ⟨⟨_, rfl⟩, .inl rfl⟩
    · cases hpc
    · cases hpc
  | recv r =>
    rcases connStep_recv h with ⟨caller, -, -, -, rfl⟩
    cases r with
    | data b => simp [recvPass] at hpc
    | eof => exact ⟨⟨_, rfl⟩, .inl rfl⟩
    | wouldBlock =>
      -- the descriptor is armed again, or the writer goes on
      exfalso
      revert hpc
      dsimp only [recvPass, returnRead]
      split
      · simp
      · split <;> simp [startWrite]
    | failed => exact ⟨⟨_, rfl⟩, .inl rfl⟩
  | resume =>
    rcases connStep_resume h with ⟨caller, -, -, rfl⟩
    simp at hpc
  | parse o =>
    rcases connStep_parse h with ⟨caller, -, -, hc⟩
    by_cases hstarts : ∃ route, Starts env o s.conn route
    · rcases hstarts with ⟨route, hstarts⟩
      rcases parsePass_starts caller s.mgr hstarts with ⟨c₁, -, -, hpass⟩
      rw [hpass] at hc
      rw [hc] at hpc ⊢
      rcases afterStart_closed hpc with ⟨hthrows, hclean⟩
      refine ⟨hclean, .inr ?_⟩
      rw [Throws, hstarts.start s.mgr]
      exact hthrows
    · rcases parsePass_calm caller s.mgr (fun route hr => hstarts ⟨route, hr⟩) with
        ⟨-, ⟨-, hopen⟩ | ⟨hthrew, hclean⟩⟩
      · rw [hc] at hpc
        exact absurd hpc hopen
      · rw [hc]
        exact ⟨hclean, .inl (by simp [Closes, hthrew])⟩
  | write r =>
    rcases connStep_write_writes h with ⟨hwriting, -, ⟨hc, hr⟩ | hw⟩
    · exact ⟨⟨_, hc⟩, .inl hr⟩
    · exact absurd hpc (hw.pc_ne_closed hwriting)
  | file pread r =>
    rcases connStep_file_writes h with ⟨hwriting, -, ⟨hc, hr⟩ | hw⟩
    · exact ⟨⟨_, hc⟩, .inl (by simpa [Closes] using hr)⟩
    · exact absurd hpc (hw.pc_ne_closed hwriting)
  | flushed =>
    rcases connStep_flushed h with ⟨-, -, -, rfl⟩
    revert hpc
    unfold flushedPass
    dsimp only
    split
    · rename_i hclose
      intro _
      exact ⟨⟨_, rfl⟩, .inl (by simpa [Closes] using hclose)⟩
    · split <;> simp
  | upstream idx fresh sur =>
    rcases connStep_upstream h with ⟨hidle, st, -, rfl⟩
    exfalso
    revert hpc
    dsimp only
    cases (driveChild sur idx s.mgr st (sur.advances idx)).2 <;>
      simp [applyDrive, afterDrive, finalizeResponse, hidle]
  | deadline fresh sur =>
    rcases connStep_deadline h with ⟨hidle, st, -, -, rfl⟩
    exfalso
    revert hpc
    dsimp only
    cases expireComposite sur.elapsed st <;> simp [applyDrive, afterDrive, finalizeResponse, hidle]
  | teardown =>
    rcases connStep_teardown h with ⟨-, rfl⟩
    exact ⟨⟨_, rfl⟩, .inl rfl⟩

end EpollGateway.Handler
