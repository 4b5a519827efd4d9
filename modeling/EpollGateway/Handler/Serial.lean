import EpollGateway.Handler.Answer
import EpollGateway.Handler.Intake

/-! # One exchange at a time

While `client_upstream_` holds an exchange for a connection, its descriptor should
be disarmed, so that no further request is read. The descriptor is armed by every
response that is queued, though, and `start_upstream_exchange` does not disarm it:
a request that is answered on the spot, followed in the same buffer by one for a
backend, leaves an exchange in flight on an armed descriptor
(`dispatch_during_exchange`).

When no exchange is started on an armed descriptor, requests are dispatched one
after the other and responses are framed in their order (`serial_dispatch`).
-/

namespace EpollGateway.Handler

open Bytes Http Upstream Machine

/-- A request that reaches a route with a backend is parsed on a disarmed
descriptor. -/
def Disarmed (env : Env) (s : Sys) : SoloLabel → Prop
  | .own (.parse o) => s.conn.startsExchange env o = true → s.conn.interest = none
  | _ => True

instance (env : Env) (s : Sys) : (l : SoloLabel) → Decidable (Disarmed env s l)
  | .own (.parse o) =>
    inferInstanceAs (Decidable (s.conn.startsExchange env o = true → s.conn.interest = none))
  | .own (.event _) | .own (.recv _) | .own .resume | .own (.write _) | .own (.file _ _)
  | .own .flushed | .own (.upstream _ _ _) | .own (.deadline _ _) | .own .teardown | .others _ =>
    inferInstanceAs (Decidable True)

/-- The responses were framed in the order of their requests. -/
def InOrder (h : History) : Prop := h.replies.map Prod.fst = List.range h.replies.length

/-- The invariant: an exchange in flight has the connection for itself, and it is
the one request that has no response yet. -/
structure Serial (c : Conn) : Prop where
  alone : c.upstream.isSome = true → c.interest = none ∧ (c.pc = .idle ∨ c.pc = .crashed)
  order : InOrder c.hist
  answered : c.upstream = none → c.pc ≠ .closed → c.hist.taken.length = c.hist.replies.length
  waiting : ∀ st, c.upstream = some st →
    st.id = c.hist.replies.length ∧ c.hist.taken.length = c.hist.replies.length + 1

variable {c c' : Conn}

lemma Serial.upstream_none (h : Serial c) (hpc : c.pc ≠ .idle ∧ c.pc ≠ .crashed) :
    c.upstream = none := by
  by_contra hne
  rcases (h.alone (Option.isSome_iff_ne_none.mpr hne)).2 with h' | h'
  · exact hpc.1 h'
  · exact hpc.2 h'

lemma serial_cleanup (h : InOrder c.hist) (hhist : c'.hist = c.hist) : Serial (cleanup c') where
  alone := fun hsome => by simp [cleanup] at hsome
  order := by
    show InOrder c'.hist
    rw [hhist]
    exact h
  answered := fun _ hne => absurd rfl hne
  waiting := fun st hst => by simp [cleanup] at hst

/-- A step that leaves the history alone on a connection without an exchange. -/
lemma Serial.of_idle (h : Serial c) (hup : c.upstream = none) (hup' : c'.upstream = none)
    (hpc : c.pc ≠ .closed) (htaken : c'.hist.taken = c.hist.taken)
    (hreplies : c'.hist.replies = c.hist.replies) : Serial c' where
  alone := fun hsome => by simp [hup'] at hsome
  order := by
    have horder := h.order
    unfold InOrder at horder ⊢
    rwa [hreplies]
  answered := fun _ _ => by rw [htaken, hreplies, h.answered hup hpc]
  waiting := fun st hst => by simp [hup'] at hst

lemma Enqueues.inOrder {env : Env} {id : Nat} {u v : Outlet} (h : Enqueues env id u v)
    (horder : InOrder u.hist) (hid : id = u.hist.replies.length) :
    InOrder v.hist ∧ v.hist.replies.length = u.hist.replies.length + 1 := by
  obtain ⟨r, hreplies, -⟩ := h.replied
  unfold InOrder at horder ⊢
  rw [hreplies, List.length_append, List.map_append, horder, hid]
  exact ⟨by simp [List.range_succ], rfl⟩

/-- The connection after a request has been answered. -/
lemma Serial.of_answered {env : Env} {remote : Bool} {c₁ : Conn} {t : Taken} (h : Serial c)
    (hup : c.upstream = none) (hpc : c.pc ≠ .closed)
    (hout : c₁.outlet = { c.outlet with hist := c.hist.take t })
    (hinterest : c₁.interest = c.interest) (hdisarmed : remote = true → c.interest = none)
    (hans : Answered env c.nextId remote c₁ c') : Serial c' := by
  have hhist : c₁.hist = c.hist.take t := congrArg Outlet.hist hout
  have horder : InOrder c₁.hist := by
    rw [hhist]
    exact h.order
  have hlen := h.answered hup hpc
  have hnext : c.nextId = c.hist.replies.length := hlen
  have htaken : c₁.hist.taken.length = c.hist.replies.length + 1 := by
    rw [hhist, ← hlen]
    simp [History.take]
  have hreplies : c₁.hist.replies = c.hist.replies := by
    rw [hhist]
    rfl
  cases hans with
  | closed hh => exact serial_cleanup horder hh
  | replied hq hup' hpc' =>
    obtain ⟨horder', hlen'⟩ := hq.inOrder horder (by rw [hnext, ← hreplies]; rfl)
    have htaken' : c'.hist.taken = c₁.hist.taken := hq.taken
    refine ⟨fun hsome => by simp [hup'] at hsome, horder', fun _ _ => ?_,
      fun st hst => by simp [hup'] at hst⟩
    rw [htaken', htaken, ← hreplies]
    exact hlen'.symm
  | inFlight hr hid hst hi hh hpc' =>
    refine ⟨fun _ => ⟨?_, .inl hpc'⟩, ?_, fun hnone => by simp [hst] at hnone, ?_⟩
    · rw [hi, hinterest, hdisarmed hr]
    · rw [hh]
      exact horder
    · intro st' hst'
      rw [hst] at hst'
      cases hst'
      rw [hh, hid, hnext, hreplies, htaken]
      exact ⟨rfl, rfl⟩

/-- The connection after its exchange has been driven. -/
lemma Serial.of_drive {env : Env} {fresh : Fresh} {st : ExchangeState} {d : Drive}
    (h : Serial c) (hpc : c.pc = .idle) (hst : c.upstream = some st) (hd : Continues st d) :
    Serial (afterDrive (applyDrive env fresh c d)) := by
  obtain ⟨children, hd⟩ := hd
  have hid : d.state.id = st.id := by rw [hd]
  obtain ⟨hrid, hlen⟩ := h.waiting st hst
  obtain ⟨hinterest, -⟩ := h.alone (by simp [hst])
  cases d with
  | inFlight st' =>
    refine ⟨fun _ => ⟨hinterest, .inl hpc⟩, h.order, fun hnone => ?_, ?_⟩
    · cases hnone
    · intro st'' hst''
      cases hst''
      exact ⟨hid.trans hrid, hlen⟩
  | respond st' resp =>
    have hid' : st'.id = st.id := hid
    have hq := finalizeResponse_enqueues env fresh st'.id st'.req resp false c
    obtain ⟨horder, hlen'⟩ := hq.inOrder h.order (hid'.trans hrid)
    refine ⟨fun hsome => (by cases hsome), horder, fun _ _ => ?_, fun _ hst' => (by cases hst')⟩
    exact hlen.trans hlen'.symm
  | threw st' =>
    refine ⟨fun _ => ⟨hinterest, .inr rfl⟩, h.order, fun hnone => ?_, ?_⟩
    · cases hnone
    · intro st'' hst''
      cases hst''
      exact ⟨hid.trans hrid, hlen⟩

lemma Serial.of_writes (h : Serial c) (hpc : c.pc = .writing)
    (hw : c' = cleanup c ∨ Writes c c') : Serial c' := by
  have hup := h.upstream_none (by simp [hpc])
  rcases hw with rfl | hw
  · exact serial_cleanup h.order rfl
  · exact h.of_idle hup (hw.upstream.trans hup) (by simp [hpc]) hw.taken hw.replies

lemma Serial.of_event {i : Interest} {e : Event} (h : Serial c) (hpc : c.pc = .idle)
    (hi : c.interest = some i) (hc : eventPass i c e = some c') : Serial c' := by
  -- an armed descriptor has no exchange
  have hup : c.upstream = none := by
    by_contra hne
    have hnone := (h.alone (Option.isSome_iff_ne_none.mpr hne)).1
    simp [hi] at hnone
  have hopen : c.pc ≠ .closed := by simp [hpc]
  rcases eventPass_cases hc with ⟨-, rfl⟩ | rfl | rfl
  · exact serial_cleanup h.order rfl
  · exact h.of_idle hup hup hopen rfl rfl
  · exact h.of_idle hup hup hopen rfl rfl

lemma Serial.of_recv {caller : Caller} {r : RecvResult} (h : Serial c)
    (hpc : c.pc = .reading caller) : Serial (recvPass caller c r) := by
  have hup := h.upstream_none (by simp [hpc])
  have hopen : c.pc ≠ .closed := by simp [hpc]
  cases r with
  | data b => exact h.of_idle hup hup hopen rfl rfl
  | eof => exact serial_cleanup h.order rfl
  | wouldBlock =>
    exact h.of_idle hup (by simpa [recvPass] using hup) hopen (by simp [recvPass])
      (by simp [recvPass])
  | failed => exact serial_cleanup h.order rfl

lemma Serial.of_flushed (h : Serial c) (hpc : c.pc = .writing) : Serial (flushedPass c) := by
  have hup := h.upstream_none (by simp [hpc])
  have hopen : c.pc ≠ .closed := by simp [hpc]
  unfold flushedPass
  dsimp only
  split
  · exact serial_cleanup h.order rfl
  · split <;> exact h.of_idle hup hup hopen rfl rfl

/-- Every step keeps the invariant, if it starts no exchange on an armed
descriptor. -/
lemma Serial.step {env : Env} {l : Label} {s s' : Sys} (h : Serial s.conn)
    (hok : Disarmed env s (.own l)) (hstep : connStep env l s = some s') : Serial s'.conn := by
  cases l with
  | event e =>
    obtain ⟨hpc, i, c, hi, hc, rfl⟩ := connStep_event hstep
    exact h.of_event hpc hi hc
  | recv r =>
    obtain ⟨caller, hpc, -, -, rfl⟩ := connStep_recv hstep
    exact h.of_recv hpc
  | resume =>
    obtain ⟨caller, hpc, -, rfl⟩ := connStep_resume hstep
    have hup := h.upstream_none (by simp [hpc])
    exact h.of_idle hup hup (by simp [hpc]) rfl rfl
  | parse o =>
    obtain ⟨caller, hpc, -, hc⟩ := connStep_parse hstep
    have hup := h.upstream_none (by simp [hpc])
    have hopen : s.conn.pc ≠ .closed := by simp [hpc]
    rw [hc]
    rcases parsePass_cases env o caller s.mgr hup with
      ⟨-, p, r, b, hwait⟩ | ⟨-, t, c₁, hout, hi, hans⟩
    · rw [hwait]
      exact h.of_idle hup hup hopen rfl rfl
    · exact h.of_answered hup hopen hout hi hok hans
  | write r =>
    obtain ⟨hpc, -, hw⟩ := connStep_write_writes hstep
    exact h.of_writes hpc (hw.imp_left And.left)
  | file pread r =>
    obtain ⟨hpc, -, hw⟩ := connStep_file_writes hstep
    exact h.of_writes hpc (hw.imp_left And.left)
  | flushed =>
    obtain ⟨hpc, -, -, rfl⟩ := connStep_flushed hstep
    exact h.of_flushed hpc
  | upstream idx fresh sur =>
    obtain ⟨hpc, st, hst, rfl⟩ := connStep_upstream hstep
    exact h.of_drive hpc hst (driveChild_continues sur idx s.mgr st _)
  | deadline fresh sur =>
    obtain ⟨hpc, st, hst, -, rfl⟩ := connStep_deadline hstep
    dsimp only
    exact h.of_drive hpc hst (expireComposite_continues sur.elapsed st)
  | teardown =>
    obtain ⟨-, rfl⟩ := connStep_teardown hstep
    exact serial_cleanup h.order rfl

lemma serial_init : Serial {} where
  alone := fun hsome => by cases hsome
  order := rfl
  answered := fun _ _ => rfl
  waiting := fun _ hst => by cases hst

lemma serial_run {env : Env} {m : UpstreamManager} {ls : List SoloLabel} {s : Sys}
    (hrun : Run (soloStep env) (Disarmed env) ⟨m, {}⟩ ls s) : Serial s.conn := by
  refine hrun.invariant (I := fun (s : Sys) => Serial s.conn) serial_init ?_
  rintro t (l | m') u ht hok hu
  · exact ht.step hok hu
  · cases hu
    exact ht

/-- **Serialised dispatch.** In every run in which no exchange is started on an armed
descriptor: while an exchange is in flight no step dispatches a request, the start
functions find no exchange, and responses are framed in request order. -/
theorem serial_dispatch {env : Env} {m : UpstreamManager} {ls : List SoloLabel} {s : Sys}
    (hrun : Run (soloStep env) (Disarmed env) ⟨m, {}⟩ ls s) :
    (s.conn.upstream.isSome = true → s.conn.interest = none ∧
      ∀ l s', connStep env l s = some s' → s'.conn.hist.taken = s.conn.hist.taken) ∧
    (∀ caller, s.conn.pc = .parsing caller → s.conn.upstream = none) ∧
    InOrder s.conn.hist := by
  have h := serial_run hrun
  refine ⟨fun hsome => ⟨(h.alone hsome).1, ?_⟩, ?_, h.order⟩
  · intro l s' hstep
    refine connStep_taken hstep ?_
    rintro o rfl
    obtain ⟨caller, hpc, -⟩ := connStep_parse hstep
    rcases (h.alone hsome).2 with hidle | hcrashed
    · simp [hpc] at hidle
    · simp [hpc] at hcrashed
  · intro caller hpc
    exact h.upstream_none (by simp [hpc])

/-! ## Two activations -/

def remoteRequest : Bytes := ascii "GET /u HTTP/1.1\r\n\r\n"

def unroutedRequest : Bytes := ascii "GET /a HTTP/1.1\r\n\r\n"

/-- An activation that reads `input` and parses `n` requests out of it. -/
def readAndParse (input : Bytes) (n : Nat) : List SoloLabel :=
  [.own (.event .readable), .own (.recv (.data input))] ++ List.replicate n (.own (.parse {}))

/-- The exchange of a first request is in flight, with the descriptor disarmed. -/
theorem serial_dispatch_remoteRequest :
    ∃ s, Run (soloStep backendEnv) (Disarmed backendEnv) ⟨oneBackend, {}⟩
      (readAndParse remoteRequest 1) s ∧ s.conn.upstream.isSome = true ∧
      s.conn.interest = none ∧ InOrder s.conn.hist := by
  obtain ⟨s, hrun, hsome⟩ :
      ∃ s, Run (soloStep backendEnv) (Disarmed backendEnv) ⟨oneBackend, {}⟩
        (readAndParse remoteRequest 1) s ∧ s.conn.upstream.isSome = true :=
    exists_run_of_exec (by decide +kernel)
  obtain ⟨halone, -, horder⟩ := serial_dispatch hrun
  exact ⟨s, hrun, hsome, (halone hsome).1, horder⟩

/-- A request without a route in front of one for the backend: its response arms the
descriptor, the exchange is left in flight, and the next activation dispatches a third
request while the exchange of the second one is still there. -/
theorem dispatch_during_exchange :
    ∃ s, Run (soloStep backendEnv) Any ⟨oneBackend, {}⟩
      (readAndParse (unroutedRequest ++ remoteRequest) 2 ++ readAndParse unroutedRequest 1) s ∧
      s.conn.upstream.map ExchangeState.id = some 1 ∧ s.conn.hist.taken.length = 3 ∧
      ¬ InOrder s.conn.hist := by
  obtain ⟨s, hrun, heq⟩ :
      ∃ s, Run (soloStep backendEnv) Any ⟨oneBackend, {}⟩
        (readAndParse (unroutedRequest ++ remoteRequest) 2 ++ readAndParse unroutedRequest 1) s ∧
        (s.conn.upstream.map ExchangeState.id, s.conn.hist.taken.length,
          s.conn.hist.replies.map Prod.fst) = (some 1, 3, [0, 2]) :=
    exists_run_of_exec (by decide +kernel)
  simp only [Prod.mk.injEq] at heq
  obtain ⟨hid, htaken, hreplies⟩ := heq
  refine ⟨s, hrun, hid, htaken, ?_⟩
  intro horder
  have hlen : s.conn.hist.replies.length = 2 := by
    simpa using congrArg List.length hreplies
  unfold InOrder at horder
  rw [hreplies, hlen] at horder
  revert horder
  decide

end EpollGateway.Handler
