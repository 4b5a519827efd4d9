import EpollGateway.Worker.Table

/-! # The accept loop

`handle_accept` takes connections until `accept` would block. For each of them it fills
`client_ips_` and `last_active_` first, makes a `Socket`, sets it up and enters it into
`conns_` at the end. What fails in between leaves the first two entries behind, and an
error of `accept` itself is an exception that nobody catches (`accept_error_escapes`).
The loop leaves every descriptor closed without entries or registered with all of them
exactly when nothing fails and no connection that is turned away finds entries of an
earlier one (`handleAccept_sound_iff`).
-/

namespace EpollGateway.Worker

open Bytes Handler Function

/-! ## Accepting -/

/-- A worker with the tables that only `TcpWorker` reads: the time of the last activity
and the address of each client, and the descriptors that `epoll` watches. -/
structure Acceptor where
  worker : TcpWorker
  lastActive : Nat → Option Int := fun _ => none
  clientIps : Nat → Option Bytes := fun _ => none
  epoll : Nat → Bool := fun _ => false

/-- A connection that `accept` returns, and how its setup goes: whether the budget has a
slot, whether the socket options are set, whether there is a TLS session and whether
`epoll` takes the descriptor. -/
structure Arrival where
  fd : Nat
  sock : Nat
  ip : Bytes
  now : Int := 0
  admitted : Bool := true
  options : Bool := true
  ssl : Bool := true
  added : Bool := true

/-- What `accept` answers; `error` is every other `errno`. -/
inductive AcceptAnswer where
  | client (c : Arrival)
  | wouldBlock
  | error

/-- The kernel closes a descriptor. -/
def TcpWorker.close (w : TcpWorker) (fd : Nat) : TcpWorker :=
  { w with desc := { w.desc with holder := update w.desc.holder fd none } }

/-- Whether a pass goes on to the next connection or leaves with an exception. -/
inductive PassEnd where
  | next | threw
deriving DecidableEq, Repr

/-- One pass of the loop, for a connection. A connection that does not get into `conns_`
is closed with its `Socket`, and its slot is free again. -/
def acceptPass (a : Acceptor) (c : Arrival) : Acceptor × PassEnd :=
  let closed (a : Acceptor) : Acceptor := { a with worker := a.worker.close c.fd }
  if a.worker.budget ∧ ¬ c.admitted then (closed a, .next)
  else
    let a :=
      { a with
        clientIps := update a.clientIps c.fd (some c.ip)
        lastActive := update a.lastActive c.fd (some c.now) }
    if ¬ c.options then (closed a, .threw)
    else if ¬ c.ssl then (closed a, .next)
    else if ¬ c.added then (closed a, .threw)
    else
      ({ a with
          worker := a.worker.enlist c.fd c.sock
          epoll := update a.epoll c.fd true }, .next)

/-- How `handle_accept` ends; it is `pending` as long as `accept` has more answers. -/
inductive LoopEnd where
  | returned | threw | pending
deriving DecidableEq, Repr

/-- `handle_accept`. -/
def handleAccept (a : Acceptor) : List AcceptAnswer → Acceptor × LoopEnd
  | [] => (a, .pending)
  | .wouldBlock :: _ => (a, .returned)
  | .error :: _ => (a, .threw)
  | .client c :: rest =>
    match acceptPass a c with
    | (a, .next) => handleAccept a rest
    | (a, .threw) => (a, .threw)

/-- The passes of `handle_accept`, each with the state in which it begins. -/
def acceptPasses (a : Acceptor) : List AcceptAnswer → List (Acceptor × AcceptAnswer)
  | [] => []
  | .wouldBlock :: _ => [(a, .wouldBlock)]
  | .error :: _ => [(a, .error)]
  | .client c :: rest =>
    (a, .client c) ::
      match acceptPass a c with
      | (a, .next) => acceptPasses a rest
      | (_, .threw) => []

/-! ## What is wanted -/

/-- The connection is in all tables, with one slot if there is a budget. -/
structure Registered (a : Acceptor) (c : Arrival) : Prop where
  isOpen : a.worker.desc.holder c.fd = some (.client c.sock)
  watched : a.epoll c.fd = true
  entry : a.worker.conns c.fd = some ⟨c.sock, .handshaking, a.worker.budget⟩
  active : a.lastActive c.fd = some c.now
  ip : a.clientIps c.fd = some c.ip
  maps : ∀ m ∈ onConnectKeys, (a.worker.clients c.sock).has m = true

/-- The connection is closed and in no table; it has no slot, since slots are held by
entries of `conns_`. -/
structure Dismissed (a : Acceptor) (c : Arrival) : Prop where
  closed : a.worker.desc.holder c.fd = none
  entry : a.worker.conns c.fd = none
  active : a.lastActive c.fd = none
  ip : a.clientIps c.fd = none
  maps : ∀ m ∈ onConnectKeys, (a.worker.clients c.sock).has m = false

/-- `handle_accept` does not throw, and after each pass the connection is registered or
dismissed. -/
structure LoopSound (a : Acceptor) (answers : List AcceptAnswer) : Prop where
  ending : (handleAccept a answers).2 ≠ .threw
  settled : ∀ before c, (before, .client c) ∈ acceptPasses a answers →
    Registered (acceptPass before c).1 c ∨ Dismissed (acceptPass before c).1 c

/-- An answer that the loop copes with: a connection that the budget turns away finds no
entry under its number, nor one of the handler under its address, and the setup of every other connection succeeds. -/
def Harmless (a : Acceptor) : AcceptAnswer → Prop
  | .client c =>
    if a.worker.budget ∧ ¬ c.admitted then
      (a.worker.conns c.fd = none ∧ a.lastActive c.fd = none ∧ a.clientIps c.fd = none) ∧
        ∀ m ∈ onConnectKeys, (a.worker.clients c.sock).has m = false
    else c.options = true ∧ c.ssl = true ∧ c.added = true
  | .wouldBlock => True
  | .error => False

/-! ## One pass -/

lemma registered_enlist (a : Acceptor) (c : Arrival) :
    Registered
      { worker := a.worker.enlist c.fd c.sock
        clientIps := update a.clientIps c.fd (some c.ip)
        lastActive := update a.lastActive c.fd (some c.now)
        epoll := update a.epoll c.fd true } c where
  isOpen := by simp [TcpWorker.enlist]
  watched := by simp
  entry := by simp [TcpWorker.enlist]
  active := by simp
  ip := by simp
  maps := by
    intro m hm
    simp only [TcpWorker.enlist, update_self]
    have hcreated : m ∈ (((a.worker.erase c.fd).clients c.sock).connect c.fd).created :=
      List.mem_append_right _ hm
    simp only [onConnectKeys, List.mem_cons, List.not_mem_nil, or_false] at hm
    rcases hm with rfl | rfl | rfl | rfl | rfl <;> simpa [Client.has] using hcreated

/-- Entries that are left behind: the connection is neither registered nor dismissed. -/
lemma not_settled_of_left {a : Acceptor} {c : Arrival} (hclosed : a.worker.desc.holder c.fd = none)
    (hactive : a.lastActive c.fd ≠ none) : ¬ (Registered a c ∨ Dismissed a c) := by
  rintro (h | h)
  · rw [h.isOpen] at hclosed
    cases hclosed
  · exact hactive h.active

/-- A pass is as it should be exactly when its answer is harmless. -/
lemma acceptPass_sound_iff (a : Acceptor) (c : Arrival) :
    ((acceptPass a c).2 = .next ∧
      (Registered (acceptPass a c).1 c ∨ Dismissed (acceptPass a c).1 c)) ↔
    Harmless a (.client c) := by
  unfold acceptPass
  simp only [Harmless]
  by_cases hrefused : a.worker.budget = true ∧ ¬ c.admitted = true
  · -- the budget is exhausted
    simp only [if_pos hrefused]
    constructor
    · rintro ⟨-, h | h⟩
      · have hopen := h.isOpen
        simp [TcpWorker.close] at hopen
      · exact ⟨⟨h.entry, h.active, h.ip⟩, h.maps⟩
    · rintro ⟨⟨hentry, hactive, hip⟩, hmaps⟩
      exact ⟨trivial, .inr ⟨by simp [TcpWorker.close], hentry, hactive, hip, hmaps⟩⟩
  · simp only [if_neg hrefused]
    by_cases hoptions : c.options = true
    · by_cases hssl : c.ssl = true
      · by_cases hadded : c.added = true
        · simp only [hoptions, hssl, hadded, not_true_eq_false, if_false, and_self, iff_true, true_and]
          exact .inl (registered_enlist a c)
        · simp [hoptions, hssl, hadded]
      · -- the entries of the address and of the time are left
        simp only [hoptions, hssl, not_true_eq_false, not_false_eq_true, if_false, if_true, true_and,
          false_and, Bool.false_eq_true, and_false, iff_false]
        exact not_settled_of_left (by simp [TcpWorker.close]) (by simp)
    · simp [hoptions]

/-! ## The loop -/

/-- `handle_accept` leaves everything in order exactly when all answers are harmless, each
in the state in which its pass begins. -/
theorem handleAccept_sound_iff (a : Acceptor) (answers : List AcceptAnswer) :
    LoopSound a answers ↔
      ∀ before answer, (before, answer) ∈ acceptPasses a answers → Harmless before answer := by
  induction answers generalizing a with
  | nil =>
    constructor
    · intro _
      simp [acceptPasses]
    · intro _
      exact ⟨by simp [handleAccept], by simp [acceptPasses]⟩
  | cons answer rest ih =>
    cases answer with
    | wouldBlock =>
      constructor
      · intro _ before answer hmem
        simp only [acceptPasses, List.mem_singleton, Prod.mk.injEq] at hmem
        rw [hmem.2]
        exact True.intro
      · intro _
        exact ⟨by simp [handleAccept], by simp [acceptPasses]⟩
    | error =>
      constructor
      · intro h
        exact absurd rfl h.ending
      · intro h
        exact (h a .error (by simp [acceptPasses])).elim
    | client c =>
      have hpass := acceptPass_sound_iff a c
      rcases hstep : acceptPass a c with ⟨a', _ | _⟩
      · -- the loop goes on
        have hpasses : acceptPasses a (.client c :: rest) = (a, .client c) ::
            acceptPasses a' rest := by
          simp only [acceptPasses, hstep]
        have hloop : handleAccept a (.client c :: rest) = handleAccept a' rest := by
          simp only [handleAccept, hstep]
        rw [hstep] at hpass
        constructor
        · intro h before answer hmem
          rw [hpasses, List.mem_cons] at hmem
          rcases hmem with hfirst | hmem
          · rw [Prod.mk.injEq] at hfirst
            rw [hfirst.1, hfirst.2]
            have hsettled := h.settled a c (by simp [hpasses])
            rw [hstep] at hsettled
            exact hpass.mp ⟨rfl, hsettled⟩
          · have hrest : LoopSound a' rest := by
              refine ⟨hloop ▸ h.ending, fun b d hd => h.settled b d ?_⟩
              rw [hpasses]
              exact List.mem_cons_of_mem _ hd
            exact (ih a').mp hrest before answer hmem
        · intro h
          have hrest : LoopSound a' rest := (ih a').mpr fun b d hd => h b d (by
            rw [hpasses]
            exact List.mem_cons_of_mem _ hd)
          refine ⟨hloop ▸ hrest.ending, fun before d hd => ?_⟩
          rw [hpasses, List.mem_cons] at hd
          rcases hd with hfirst | hd
          · rw [Prod.mk.injEq, AcceptAnswer.client.injEq] at hfirst
            rw [hfirst.1, hfirst.2, hstep]
            exact (hpass.mpr (h a _ (by simp [hpasses]))).2
          · exact hrest.settled before d hd
      · -- an exception
        rw [hstep] at hpass
        constructor
        · intro h
          have hend : (handleAccept a (.client c :: rest)).2 = .threw := by
            simp only [handleAccept, hstep]
          exact absurd hend h.ending
        · intro h
          have hharmless := hpass.mpr (h a (.client c) (by simp [acceptPasses]))
          exact absurd hharmless.1 (by simp)

/-- A client of the listening socket. -/
def visitor : Arrival := { fd := 7, sock := 1, ip := ascii "10.0.0.7" }

def quietWorker : Acceptor := { worker := TcpWorker.init { upstreams := fun _ => [] } true }

/-- An error of `accept` leaves `handle_accept` as an exception; and a connection without
a TLS session is closed, but its descriptor stays in `last_active_` and `client_ips_`. -/
theorem accept_error_escapes :
    (handleAccept quietWorker [.error]).2 = .threw ∧
    (handleAccept quietWorker [.client { visitor with ssl := false }, .wouldBlock]).2 = .returned ∧
    (handleAccept quietWorker [.client { visitor with ssl := false }, .wouldBlock]).1.clientIps 7 =
      some (ascii "10.0.0.7") ∧
    ¬ LoopSound quietWorker [.error] ∧
    ¬ LoopSound quietWorker [.client { visitor with ssl := false }, .wouldBlock] := by
  refine ⟨rfl, rfl, rfl, fun h => h.ending rfl, fun h => ?_⟩
  exact not_settled_of_left rfl (by decide) (h.settled quietWorker _ List.mem_cons_self)

end EpollGateway.Worker
