import EpollGateway.Worker.Table

/-! # What a connection leaves behind

`HttpHandler::cleanup` erases the keys of a `Socket` from all maps. The worker calls it
wherever it closes a connection, except for one that is lost during its handshake:
there the entry of `conns_` is erased and nothing else, and the keys that `on_connect`
has made stay under the address of a `Socket` that no longer exists.
-/

namespace EpollGateway.Worker

open Upstream Handler Machine

/-- No connection is lost during its handshake. -/
def Shakes (_ : TcpWorker) : WorkerEvent → Prop
  | .shake _ r => r ≠ .hangup ∧ r ≠ .failed
  | _ => True

instance (w : TcpWorker) (e : WorkerEvent) : Decidable (Shakes w e) :=
  match e with
  | .shake _ _ => inferInstanceAs (Decidable (_ ∧ _))
  | .accept _ _ _ _ | .turn _ _ _ | .client _ _ _ | .backend _ _ _ _ | .timeout _ _ _ _ _
  | .deadline _ _ _ _ | .retire _ | .others _ => inferInstanceAs (Decidable True)

/-- There is nothing under the address of the socket. -/
def Client.Blank (c : Client) : Prop := ∀ m, c.has m = false

/-- There is nothing under the address of a socket that is closed. -/
def Tidy (w : TcpWorker) : Prop := ∀ sock, (w.clients sock).fd = none → (w.clients sock).Blank

/-- Both `cleanup` and an address that was never used. -/
lemma blank_of_cleanup {c : Client} {conn : Conn} (hconn : c.conn = cleanup conn)
    (hcreated : c.created = []) : c.Blank := by
  intro m
  cases m <;> simp [Client.has, hconn, hcreated, cleanup]

lemma Client.Blank.congr {c c' : Client} (h : c.Blank) (hcreated : c'.created = c.created)
    (hfile : c'.conn.file = c.conn.file)
    (hpending : c'.conn.pendingSslWrite = c.conn.pendingSslWrite)
    (hstatus : c'.conn.respStatus = c.conn.respStatus)
    (hlast : c'.conn.lastRequest = c.conn.lastRequest)
    (hup : c'.conn.upstream = c.conn.upstream) : c'.Blank := by
  intro m
  rw [← h m]
  cases m <;> simp only [Client.has, hcreated, hfile, hpending, hstatus, hlast, hup]

variable {w : TcpWorker}

lemma Tidy.moved (h : Tidy w) {sock : Nat} {env : Env} {l : Label} {s : Sys} {d : Descriptors}
    (hh : Handles w sock env l s d) : Tidy (w.moved sock l s d) := by
  intro sock' hfd
  by_cases hsock : sock' = sock
  · rw [hsock, TcpWorker.clients_moved_self] at hfd ⊢
    by_cases hpc : s.conn.pc = .closed
    · -- the handler has closed it, and that is by `cleanup`
      rcases (connStep_closes hh.step hpc).1 with ⟨c, hc⟩
      refine blank_of_cleanup ((Client.conn_move _ l s.conn).trans hc) ?_
      unfold Client.move
      rw [if_pos hpc]
    · rw [Client.fd_move_open _ l hpc] at hfd
      exact absurd hfd hh.opened
  · rw [TcpWorker.clients_moved_ne w l s d hsock] at hfd ⊢
    exact h sock' hfd

lemma Tidy.erase (h : Tidy w) {fd : Nat}
    (hshut : ∀ e, w.conns fd = some e → (w.clients e.sock).fd = none) : Tidy (w.erase fd) := by
  rcases hfd : w.conns fd with _ | e
  · have hsame : w.erase fd = w := by
      unfold TcpWorker.erase
      rw [hfd]
    rw [hsame]
    exact h
  · intro sock hopen
    rw [w.clients_erase hfd] at hopen ⊢
    by_cases hsock : sock = e.sock
    · rw [if_pos hsock]
      exact (h sock (by rw [hsock]; exact hshut e hfd)).congr rfl rfl rfl rfl rfl rfl
    · rw [if_neg hsock] at hopen ⊢
      exact h sock hopen

/-- A hangup and the end of a connection at the hands of the worker go through
`cleanup`. -/
lemma closes_socket {sock : Nat} {env : Env} {l : Label} {s : Sys} {d : Descriptors}
    (hh : Handles w sock env l s d) (hl : l = .event .hangup ∨ l = .teardown) :
    ((w.moved sock l s d).clients sock).fd = none := by
  rw [TcpWorker.clients_moved_self]
  apply Client.fd_move_closed
  rcases hl with rfl | rfl
  · rcases connStep_event hh.step with ⟨-, i, c, -, hc, hs⟩
    cases hc
    rw [hs]
    rfl
  · rcases connStep_teardown hh.step with ⟨-, hs⟩
    rw [hs]
    rfl

lemma Tidy.step {ev : WorkerEvent} {w' : TcpWorker} (hlinked : Linked w) (h : Tidy w)
    (hok : Shakes w ev) (hstep : workerStep ev w = some w') : Tidy w' := by
  rcases workerStep_moves hstep with _ | _ | @⟨fd, sock, w₁, _, hfree, hnew, rfl, rfl⟩ |
    ⟨hr, -⟩ | @⟨fd, sock, ticket, _, hentry, rfl⟩ | ⟨hentry, hshut, -⟩ | ⟨-, hh⟩ | ⟨-, hh⟩ |
    @⟨_, fd, e, env, l, w₁, hentry, hl, hh, -⟩
  · exact h
  · exact h
  · intro sock' hfd
    dsimp only at hfd ⊢
    by_cases hsock : sock' = sock
    · rw [hsock, Function.update_self] at hfd
      cases hfd
    · rw [Function.update_of_ne hsock] at hfd ⊢
      exact h.erase (fun _ => hlinked.shut_of_free hfree) sock' hfd
  · rcases hr with rfl | rfl
    · exact absurd rfl hok.1
    · exact absurd rfl hok.2
  · -- the handshake is complete
    intro sock' hfd
    dsimp only at hfd ⊢
    by_cases hsock : sock' = sock
    · rw [hsock, Function.update_self] at hfd ⊢
      exact (h sock hfd).congr rfl rfl rfl rfl rfl rfl
    · rw [Function.update_of_ne hsock] at hfd ⊢
      exact h sock' hfd
  · refine h.erase fun e' he' => ?_
    rw [hentry] at he'
    cases he'
    exact hshut
  · rcases handle_some hh with ⟨s, d, hs, rfl⟩
    exact h.moved hs
  · rcases handle_some hh with ⟨s, d, hs, rfl⟩
    exact h.moved hs
  · rcases handle_some hh with ⟨s, d, hs, rfl⟩
    refine (h.moved hs).erase fun e' he' => ?_
    have he'' : w.conns fd = some e' := he'
    rw [hentry] at he''
    cases he''
    exact closes_socket hs hl

lemma linked_run {ok : TcpWorker → WorkerEvent → Prop} {m : UpstreamManager} {budget : Bool}
    {es : List WorkerEvent} (hrun : Run workerStep ok (.init m budget) es w) : Linked w :=
  hrun.invariant (linked_init m budget) fun _ _ _ ht _ hstep => ht.step hstep

/-- As long as no connection is lost during its handshake, every key of the maps belongs
to a connection of `conns_`. -/
theorem keys_listed {m : UpstreamManager} {budget : Bool} {es : List WorkerEvent} {w : TcpWorker}
    (hrun : Run workerStep Shakes (.init m budget) es w) {sock : Nat} {name : MapName}
    (hkey : (w.clients sock).has name = true) : ∃ fd e, w.conns fd = some e ∧ e.sock = sock := by
  have hinv : Linked w ∧ Tidy w := by
    apply hrun.invariant (I := fun w => Linked w ∧ Tidy w)
    · have hblank : ({} : Client).Blank := blank_of_cleanup (show _ = cleanup {} from rfl) rfl
      exact ⟨linked_init m budget, fun _ _ => hblank⟩
    · intro t e u ht hok hstep
      exact ⟨ht.1.step hstep, ht.2.step ht.1 hok hstep⟩
  rcases hfd : (w.clients sock).fd with _ | fd
  · rw [hinv.2 sock hfd name] at hkey
    cases hkey
  · rcases hinv.1.listed sock fd (hinv.1.opened sock fd hfd) with ⟨e, he, hsock⟩
    exact ⟨fd, e, he, hsock⟩

/-- A client that goes away after its handshake leaves nothing; the next one at the same
address has an entry. -/
theorem keys_listed_reused : ∃ w, Run workerStep Shakes (.init noUpstreams true)
    (greeted ++ [.turn 1 bareEnv (.recv .eof), .retire 5, .accept 5 1 true true]) w ∧
      (w.clients 1).has .parsers = true ∧ ∃ fd e, w.conns fd = some e ∧ e.sock = 1 := by
  have hrun : ∃ w, Run workerStep Shakes (.init noUpstreams true)
      (greeted ++ [.turn 1 bareEnv (.recv .eof), .retire 5, .accept 5 1 true true]) w ∧
        (w.clients 1).has .parsers = true :=
    exists_run_of_exec (by decide +kernel)
  rcases hrun with ⟨w, hw, hkey⟩
  exact ⟨w, hw, hkey, keys_listed hw hkey⟩

/-- The peer is gone before the handshake is over: the keys of `on_connect` stay. -/
theorem keys_left : ∃ w, Run workerStep Any (.init noUpstreams true)
    [.accept 5 1 true true, .shake 5 .hangup] w ∧ (w.clients 1).has .readBufs = true ∧
      ∀ fd e, w.conns fd = some e → e.sock ≠ 1 := by
  have hrun : ∃ w, Run workerStep Any (.init noUpstreams true)
      [.accept 5 1 true true, .shake 5 .hangup] w ∧
        ((w.clients 1).has .readBufs, (w.clients 1).entry) = (true, none) :=
    exists_run_of_exec (by decide +kernel)
  rcases hrun with ⟨w, hw, hlast⟩
  rw [Prod.mk.injEq] at hlast
  refine ⟨w, hw, hlast.1, ?_⟩
  intro fd e he hsock
  have hentry := (linked_run hw).entry fd e he
  rw [hsock, hlast.2] at hentry
  cases hentry

end EpollGateway.Worker
