import EpollGateway.Handler.Flight
import Mathlib.Data.Set.Card
import Mathlib.Logic.Function.Basic

/-! # The tables of a worker

`TcpWorker` keeps the connections that it has accepted in `conns_`, under their
descriptors, together with their slots of the connection budget. `HttpHandler` keeps
what it knows of a connection in its own maps, under the address of the `Socket`, and
looks up in `upstream_fd_owner_` which exchange a backend's descriptor belongs to.
Neither class sees the tables of the other, and both descriptors and addresses are
used again.

`TcpWorker` is a worker with all of these. Its steps are those of the event loop, with
`handle_read` and `handle_write` moving as in `connStep`. `table_tracks` says how far
`conns_` and the open sockets agree: a connection that the handler closes by itself
keeps its entry, and with it its slot.
-/

namespace EpollGateway.Worker

open Bytes Http Upstream Handler Machine Function

/-! ## Descriptors -/

/-- What an open descriptor is: the socket of a client, or the connection to its
backend of child `idx` in the exchange of a client. -/
inductive Holder where
  | client (sock : Nat)
  | backend (sock idx : Nat)
deriving DecidableEq, Repr

/-- The holder is a child of the exchange of `sock`. -/
def Holder.childOf (sock : Nat) : Holder → Bool
  | .client _ => false
  | .backend sock' _ => sock' = sock

/-- `upstream_fd_owner_`, and the descriptors that the kernel has open. -/
structure Descriptors where
  owner : Nat → Option (Nat × Nat) := fun _ => none
  holder : Nat → Option Holder := fun _ => none

namespace Descriptors

def unregister (d : Descriptors) : Option Nat → Descriptors
  | none => d
  | some fd => { d with owner := update d.owner fd none }

/-- The kernel closes what these holders have. -/
def release (d : Descriptors) (gone : Holder → Bool) : Descriptors :=
  { d with holder := fun fd => if (d.holder fd).any gone then none else d.holder fd }

/-- A child waits on a socket; the kernel has given it a number that is not in use. -/
def register (d : Descriptors) (sock idx fd : Nat) : Option Descriptors :=
  if d.holder fd = none then
    some
      { owner := update d.owner fd (some (sock, idx))
        holder := update d.holder fd (some (.backend sock idx)) }
  else none

/-- `drive_child`: the descriptor that the child had is unregistered before the one
that it has now is registered. A call that is tried again has none in between. -/
def drive (d : Descriptors) (sock idx : Nat) (old new : Option Nat) : Option Descriptors :=
  let d := (d.unregister old).release (· = .backend sock idx)
  match new with
  | none => some d
  | some fd => d.register sock idx fd

/-- The start functions register the children that wait, one after the other. -/
def publish (sock : Nat) : Nat → List ChildExchange → Descriptors → Option Descriptors
  | _, [], d => some d
  | idx, ch :: rest, d =>
    match ch.fd with
    | none => publish sock (idx + 1) rest d
    | some fd => (d.register sock idx fd).bind (publish sock (idx + 1) rest)

/-- `force_finish_child` for every child. -/
def expire (d : Descriptors) (sock : Nat) (children : List ChildExchange) : Descriptors :=
  (children.foldl (fun d ch => if ch.finished then d else d.unregister ch.fd) d).release
    (·.childOf sock)

/-- `abort_upstream_for_client`. -/
def abort (d : Descriptors) (sock : Nat) (children : List ChildExchange) : Descriptors :=
  (children.foldl (fun d ch => d.unregister ch.fd) d).release (·.childOf sock)

end Descriptors

/-! ## Clients -/

/-- The maps of `HttpHandler` with a key for each `Socket`. -/
inductive MapName where
  | readBufs | sendQueues | requestReady | parsers | requests | keepAlive
  | fileFds | fileOffsets | fileSizes | sslFileBuffers | pendingSslWrites
  | respStatus | respSize | clientIpMap | requestStartTime | lastRequests | clientUpstream
deriving DecidableEq, Repr

/-- A `Socket` and what `HttpHandler` has under its address. `fd` is `none` once the
socket is closed; `entry` is the descriptor under which `conns_` holds it. `created`
lists the keys that only `operator[]` makes visible; the others are those of the fields
of `conn` that are set. -/
structure Client where
  fd : Option Nat := none
  entry : Option Nat := none
  conn : Conn := { interest := none, pc := .closed }
  created : List MapName := []

/-- The map has a key for the socket. -/
def Client.has (c : Client) : MapName → Bool
  | .fileFds => c.conn.file.isSome
  | .fileOffsets => c.conn.file.isSome
  | .pendingSslWrites => c.conn.pendingSslWrite.isSome
  | .respStatus => c.conn.respStatus.isSome
  | .respSize => c.conn.respStatus.isSome
  | .lastRequests => c.conn.lastRequest.isSome
  | .clientUpstream => c.conn.upstream.isSome
  | m => m ∈ c.created

/-- The keys that `on_connect` makes. -/
def onConnectKeys : List MapName := [.readBufs, .sendQueues, .requestReady, .parsers, .keepAlive]

/-- The keys that `finalize_response` makes. -/
def finalizeKeys : List MapName := [.keepAlive, .sendQueues, .fileSizes]

/-- The keys that a step of the handler may make. -/
def creates (c : Conn) : Label → List MapName
  | .event .hangup => []
  | .event .readable =>
    if c.pendingSslWrite.isSome then [.sendQueues] else [.clientIpMap, .requestStartTime]
  | .event .writable => [.sendQueues]
  | .recv _ => [.readBufs, .sendQueues]
  | .resume => [.readBufs]
  | .parse _ => [.parsers, .requests] ++ finalizeKeys
  | .write _ => []
  | .file _ _ => [.sslFileBuffers]
  | .flushed => [.keepAlive, .readBufs, .clientIpMap, .requestStartTime]
  | .upstream _ _ _ => finalizeKeys
  | .deadline _ _ => finalizeKeys
  | .teardown => []

/-- The keys that a step of the handler erases while the connection goes on. -/
def erases (c : Conn) : Label → List MapName
  | .flushed => if c.file.isSome then [.sslFileBuffers, .fileSizes] else []
  | _ => []

/-- The client after a step of the handler; a connection that is closed has gone
through `cleanup`. -/
def Client.move (c : Client) (l : Label) (conn : Conn) : Client :=
  if conn.pc = .closed then { c with fd := none, conn := conn, created := [] }
  else
    { c with
      conn := conn
      created := c.created.filter (· ∉ erases c.conn l) ++ creates c.conn l }

/-! ## The worker -/

/-- `SSLState`. -/
inductive SslState where
  | handshaking | ready
deriving DecidableEq, Repr

/-- `ConnInfo`; `ticket` says that the entry owns a slot of the budget. -/
structure ConnInfo where
  sock : Nat
  sslState : SslState
  ticket : Bool
deriving DecidableEq, Repr

/-- `budget` says that a connection budget is configured. -/
structure TcpWorker where
  mgr : UpstreamManager
  budget : Bool
  conns : Nat → Option ConnInfo := fun _ => none
  clients : Nat → Client := fun _ => {}
  desc : Descriptors := {}

/-- How a handshake goes on: the peer is gone, or what `sslAccept` returns. -/
inductive Shake where
  | hangup | complete | failed | wants
deriving DecidableEq, Repr

/-- The steps of a worker. `turn` is the next step of `handle_read` or `handle_write`,
`retire` the idle scan or the drain, which close what they find in `conns_`, and
`others` whatever other workers do to the shared manager. -/
inductive WorkerEvent where
  | accept (fd sock : Nat) (admitted ssl : Bool)
  | shake (fd : Nat) (r : Shake)
  | client (fd : Nat) (env : Env) (e : Handler.Event)
  | turn (sock : Nat) (env : Env) (l : Label)
  | backend (fd : Nat) (env : Env) (fresh : Fresh) (sur : Surroundings)
  | timeout (sock idx : Nat) (env : Env) (fresh : Fresh) (sur : Surroundings)
  | deadline (sock : Nat) (env : Env) (fresh : Fresh) (sur : Surroundings)
  | retire (fd : Nat)
  | others (m : UpstreamManager)

/-- The children of the exchange in flight. -/
def children (c : Conn) : List ChildExchange := (c.upstream.map ExchangeState.children).getD []

/-- The descriptor that child `idx` has registered. -/
def childFd (c : Conn) (idx : Nat) : Option Nat := ((children c)[idx]?).bind ChildExchange.fd

/-- The start function puts an exchange into `client_upstream_`. -/
def publishes : Start → Bool
  | .published _ => true
  | _ => false

/-- The descriptors after the handler has taken the connection of `sock` from `c` to
`c'`. The exchange that a new one replaces is destroyed where it is. -/
def Descriptors.follow (d : Descriptors) (env : Env) (m : UpstreamManager) (sock : Nat)
    (c c' : Conn) (l : Label) : Option Descriptors :=
  let leave (d : Descriptors) : Descriptors :=
    if c'.pc = .closed then d.release (· = .client sock) else d
  let settle : Option Descriptors :=
    some (leave (if c'.pc = .closed then d.abort sock (children c) else d))
  match l with
  | .upstream idx _ _ => d.drive sock idx (childFd c idx) (childFd c' idx)
  | .deadline _ _ => some (d.expire sock (children c))
  | .parse o =>
    if (c.start env o m).any publishes then
      (Descriptors.publish sock 0 (children c') (d.release (·.childOf sock))).map leave
    else settle
  | _ => settle

/-- A step of the handler on the connection of `sock`. -/
def TcpWorker.handle (w : TcpWorker) (sock : Nat) (env : Env) (l : Label) : Option TcpWorker :=
  let c := w.clients sock
  if c.fd = none then none
  else
    (connStep env l ⟨w.mgr, c.conn⟩).bind fun s =>
      (w.desc.follow env w.mgr sock c.conn s.conn l).map fun d =>
        { w with
          mgr := s.mgr
          desc := d
          clients := update w.clients sock (c.move l s.conn) }

/-- `conns_.erase`: the `Socket` goes with its entry, and the slot is free. -/
def TcpWorker.erase (w : TcpWorker) (fd : Nat) : TcpWorker :=
  match w.conns fd with
  | none => w
  | some e =>
    { w with
      conns := update w.conns fd none
      clients := update w.clients e.sock
        { w.clients e.sock with fd := none, entry := none }
      desc := w.desc.release (· = .client e.sock) }

/-- The steps inside `handle_read` and `handle_write`. -/
def inner : Label → Bool
  | .recv _ | .resume | .parse _ | .write _ | .file _ _ | .flushed => true
  | _ => false

/-- What `on_connect` leaves under an address; it does not empty what it finds there. -/
def Client.connect (c : Client) (fd : Nat) : Client :=
  { fd := some fd
    entry := some fd
    conn := { c.conn with
      parser := {}, keepAlive := true, interest := some ⟨true, true⟩, pc := .idle, hist := {} }
    created := c.created ++ onConnectKeys }

/-- The entry in `conns_` and the maps of the handler. -/
def TcpWorker.enlist (w : TcpWorker) (fd sock : Nat) : TcpWorker :=
  -- the assignment drops an entry that was left under the same number
  let w := w.erase fd
  { w with
    conns := update w.conns fd (some ⟨sock, .handshaking, w.budget⟩)
    clients := update w.clients sock ((w.clients sock).connect fd)
    desc := { w.desc with holder := update w.desc.holder fd (some (.client sock)) } }

/-- One step of the worker. -/
def workerStep : WorkerEvent → TcpWorker → Option TcpWorker
  | .accept fd sock admitted ssl, w =>
    if w.desc.holder fd ≠ none ∨ (w.clients sock).entry ≠ none then none
    -- the budget is exhausted, or there is no TLS session: the socket is closed at once
    else if ¬ admitted ∨ ¬ ssl then some w
    else some (w.enlist fd sock)
  | .shake fd r, w =>
    match w.conns fd with
    | some ⟨sock, .handshaking, ticket⟩ =>
      match r with
      | .hangup => some (w.erase fd)
      | .failed => some (w.erase fd)
      | .wants => some w
      | .complete =>
        let c := w.clients sock
        some { w with
          conns := update w.conns fd (some ⟨sock, .ready, ticket⟩)
          clients := update w.clients sock
            { c with conn := { c.conn with interest := some ⟨true, false⟩ } } }
    | _ => none
  | .client fd env e, w =>
    match w.conns fd with
    | some ⟨sock, .ready, _⟩ =>
      if (w.clients sock).fd = none then
        -- the socket is closed already; `cleanup` finds nothing
        some (if e = .hangup then w.erase fd else w)
      else (w.handle sock env (.event e)).map fun w => if e = .hangup then w.erase fd else w
    | _ => none
  | .turn sock env l, w => if inner l then w.handle sock env l else none
  | .backend fd env fresh sur, w =>
    match w.desc.owner fd with
    | none => none
    | some (sock, idx) =>
      if (w.clients sock).conn.upstream = none then some w
      else w.handle sock env (.upstream idx fresh sur)
  | .timeout sock idx env fresh sur, w => w.handle sock env (.upstream idx fresh sur)
  | .deadline sock env fresh sur, w => w.handle sock env (.deadline fresh sur)
  | .retire fd, w =>
    match w.conns fd with
    | none => none
    | some e =>
      if (w.clients e.sock).fd = none then some (w.erase fd)
      else (w.handle e.sock bareEnv .teardown).map (·.erase fd)
  | .others m, w => some { w with mgr := m }

/-- A worker that has accepted nothing yet. -/
def TcpWorker.init (m : UpstreamManager) (budget : Bool) : TcpWorker := { mgr := m, budget := budget }

/-! ## What a step can do -/

/-- Every step, and what it does to the worker. -/
inductive Moves (w : TcpWorker) : WorkerEvent → TcpWorker → Prop where
  | same {e : WorkerEvent} : Moves w e w
  | others {m : UpstreamManager} : Moves w (.others m) { w with mgr := m }
  | accepted {fd sock : Nat} {w₁ w' : TcpWorker} : w.desc.holder fd = none →
      (w.clients sock).entry = none → w₁ = w.erase fd →
      w' = { w₁ with
        conns := update w₁.conns fd (some ⟨sock, .handshaking, w₁.budget⟩)
        clients := update w₁.clients sock ((w₁.clients sock).connect fd)
        desc := { w₁.desc with
          holder := update w₁.desc.holder fd (some (.client sock)) } } →
      Moves w (.accept fd sock true true) w'
  | shaken {fd sock : Nat} {ticket : Bool} {r : Shake} : r = .hangup ∨ r = .failed →
      w.conns fd = some ⟨sock, .handshaking, ticket⟩ → Moves w (.shake fd r) (w.erase fd)
  | completed {fd sock : Nat} {ticket : Bool} {w' : TcpWorker} :
      w.conns fd = some ⟨sock, .handshaking, ticket⟩ →
      w' = { w with
        conns := update w.conns fd (some ⟨sock, .ready, ticket⟩)
        clients := update w.clients sock { w.clients sock with
          conn := { (w.clients sock).conn with interest := some ⟨true, false⟩ } } } →
      Moves w (.shake fd .complete) w'
  | stale {ev : WorkerEvent} {fd : Nat} {e : ConnInfo} : w.conns fd = some e →
      (w.clients e.sock).fd = none → (∀ r, ev ≠ .shake fd r) → Moves w ev (w.erase fd)
  | turned {sock : Nat} {env : Env} {l : Label} {w' : TcpWorker} : inner l = true →
      w.handle sock env l = some w' → Moves w (.turn sock env l) w'
  | handled {ev : WorkerEvent} {sock : Nat} {env : Env} {l : Label} {w' : TcpWorker} :
      (l = .event .readable ∨ l = .event .writable ∨ (∃ idx fresh sur, l = .upstream idx fresh sur) ∨
        ∃ fresh sur, l = .deadline fresh sur) →
      w.handle sock env l = some w' → Moves w ev w'
  | retired {ev : WorkerEvent} {fd : Nat} {e : ConnInfo} {env : Env} {l : Label} {w₁ : TcpWorker} :
      w.conns fd = some e → (l = .event .hangup ∨ l = .teardown) →
      w.handle e.sock env l = some w₁ → (∀ r, ev ≠ .shake fd r) → Moves w ev (w₁.erase fd)

variable {w w' : TcpWorker} {fd idx sock : Nat} {d d' : Descriptors}

lemma workerStep_moves {e : WorkerEvent} (h : workerStep e w = some w') : Moves w e w' := by
  cases e with
  | accept fd sock admitted ssl =>
    simp only [workerStep] at h
    split at h
    · cases h
    · rename_i hfree
      rw [not_or, not_not, not_not] at hfree
      split at h
      · cases h
        exact .same
      · rename_i hok
        simp only [not_or, not_not] at hok
        rcases hok with ⟨rfl, rfl⟩
        cases h
        exact .accepted hfree.1 hfree.2 rfl rfl
  | shake fd r =>
    simp only [workerStep] at h
    split at h
    · rename_i hentry
      cases r with
      | hangup =>
        cases h
        exact .shaken (.inl rfl) hentry
      | complete =>
        cases h
        exact .completed hentry rfl
      | failed =>
        cases h
        exact .shaken (.inr rfl) hentry
      | wants =>
        cases h
        exact .same
    · cases h
  | client fd env e =>
    simp only [workerStep] at h
    split at h
    · rename_i hentry
      split at h
      · -- the socket was closed by the handler before
        rename_i hshut
        split at h
        · cases h
          exact .stale hentry hshut (by simp)
        · cases h
          exact .same
      · rcases Option.map_eq_some_iff.mp h with ⟨w₁, hw₁, rfl⟩
        cases e with
        | hangup => exact .retired hentry (.inl rfl) hw₁ (by simp)
        | readable => exact .handled (.inl rfl) hw₁
        | writable => exact .handled (.inr (.inl rfl)) hw₁
    · cases h
  | turn sock env l =>
    simp only [workerStep] at h
    split at h
    · rename_i hinner
      exact .turned hinner h
    · cases h
  | backend fd env fresh sur =>
    simp only [workerStep] at h
    split at h
    · cases h
    · split at h
      · cases h
        exact .same
      · exact .handled (.inr (.inr (.inl ⟨_, _, _, rfl⟩))) h
  | timeout sock idx env fresh sur => exact .handled (.inr (.inr (.inl ⟨_, _, _, rfl⟩))) h
  | deadline sock env fresh sur => exact .handled (.inr (.inr (.inr ⟨_, _, rfl⟩))) h
  | retire fd =>
    simp only [workerStep] at h
    split at h
    · cases h
    · rename_i hentry
      split at h
      · rename_i hshut
        cases h
        exact .stale hentry hshut (by simp)
      · rcases Option.map_eq_some_iff.mp h with ⟨w₁, hw₁, rfl⟩
        exact .retired hentry (.inr rfl) hw₁ (by simp)
  | others m =>
    cases h
    exact .others

/-- A step of the handler: the connection moves, and the descriptors follow. -/
structure Handles (w : TcpWorker) (sock : Nat) (env : Env) (l : Label) (s : Sys) (d : Descriptors) :
    Prop where
  opened : (w.clients sock).fd ≠ none
  step : connStep env l ⟨w.mgr, (w.clients sock).conn⟩ = some s
  follow : w.desc.follow env w.mgr sock (w.clients sock).conn s.conn l = some d

/-- The worker after a step of the handler. -/
def TcpWorker.moved (w : TcpWorker) (sock : Nat) (l : Label) (s : Sys) (d : Descriptors) :
    TcpWorker :=
  { w with
    mgr := s.mgr
    desc := d
    clients := update w.clients sock ((w.clients sock).move l s.conn) }

variable {e e' : ConnInfo} {env : Env} {l : Label} {h : Holder}

lemma handle_some (h : w.handle sock env l = some w') :
    ∃ s d, Handles w sock env l s d ∧ w' = w.moved sock l s d := by
  unfold TcpWorker.handle at h
  dsimp only at h
  split at h
  · cases h
  · rename_i hopen
    rcases Option.bind_eq_some_iff.mp h with ⟨s, hs, hd⟩
    rcases Option.map_eq_some_iff.mp hd with ⟨d, hfollow, rfl⟩
    exact ⟨s, d, ⟨hopen, hs, hfollow⟩, rfl⟩

/-! ## Clients, entry by entry -/

lemma Client.entry_move (c : Client) (l : Label) (conn : Conn) :
    (c.move l conn).entry = c.entry := by
  unfold Client.move
  split <;> rfl

lemma Client.conn_move (c : Client) (l : Label) (conn : Conn) : (c.move l conn).conn = conn := by
  unfold Client.move
  split <;> rfl

lemma Client.fd_move_closed (c : Client) (l : Label) {conn : Conn} (h : conn.pc = .closed) :
    (c.move l conn).fd = none := by
  unfold Client.move
  rw [if_pos h]

lemma Client.fd_move_open (c : Client) (l : Label) {conn : Conn} (h : conn.pc ≠ .closed) :
    (c.move l conn).fd = c.fd := by
  unfold Client.move
  rw [if_neg h]

lemma TcpWorker.clients_moved_self (w : TcpWorker) (sock : Nat) (l : Label) (s : Sys)
    (d : Descriptors) : (w.moved sock l s d).clients sock = (w.clients sock).move l s.conn :=
  update_self ..

lemma TcpWorker.clients_moved_ne (w : TcpWorker) {sock' : Nat} (l : Label) (s : Sys)
    (d : Descriptors) (h : sock' ≠ sock) : (w.moved sock l s d).clients sock' = w.clients sock' :=
  update_of_ne h ..

lemma TcpWorker.conns_erase (w : TcpWorker) (fd : Nat) :
    (w.erase fd).conns = update w.conns fd none := by
  unfold TcpWorker.erase
  split
  · rename_i hnone
    rw [← hnone, update_eq_self]
  · rfl

lemma TcpWorker.budget_erase (w : TcpWorker) (fd : Nat) : (w.erase fd).budget = w.budget := by
  unfold TcpWorker.erase
  split <;> rfl

/-- The client whose entry is erased, and any other. -/
lemma TcpWorker.clients_erase (w : TcpWorker) (h : w.conns fd = some e) (sock : Nat) :
    (w.erase fd).clients sock =
      if sock = e.sock then { w.clients sock with fd := none, entry := none }
      else w.clients sock := by
  unfold TcpWorker.erase
  rw [h]
  dsimp only
  by_cases hsock : sock = e.sock
  · rw [hsock, update_self, if_pos rfl]
  · rw [update_of_ne hsock, if_neg hsock]

lemma Descriptors.holder_release {gone : Holder → Bool} :
    (d.release gone).holder fd = some h ↔ d.holder fd = some h ∧ gone h = false := by
  unfold Descriptors.release
  dsimp only
  rcases d.holder fd with _ | h'
  · simp
  · rw [Option.any_some, Option.some.injEq]
    constructor
    · intro heq
      split at heq
      · cases heq
      · rename_i hkept
        cases heq
        exact ⟨rfl, Bool.eq_false_iff.mpr hkept⟩
    · rintro ⟨rfl, hkept⟩
      rw [hkept]
      rfl

lemma Descriptors.holder_release_none {gone : Holder → Bool} (h : d.holder fd = none) :
    (d.release gone).holder fd = none := by
  unfold Descriptors.release
  dsimp only
  rw [h]
  rfl

@[simp] lemma Descriptors.holder_unregister (d : Descriptors) (fd : Option Nat) :
    (d.unregister fd).holder = d.holder := by
  cases fd <;> rfl

lemma Descriptors.register_some (h : d.register sock idx fd = some d') :
    d.holder fd = none ∧ d'.owner = update d.owner fd (some (sock, idx)) ∧
      d'.holder = update d.holder fd (some (.backend sock idx)) := by
  unfold Descriptors.register at h
  split at h
  · rename_i hfree
    cases h
    exact ⟨hfree, rfl, rfl⟩
  · cases h

/-- What is held stays held when a child is registered. -/
lemma Descriptors.register_holder {fd' : Nat} (hreg : d.register sock idx fd = some d')
    (hheld : d.holder fd' = some h) : d'.holder fd' = some h := by
  rcases Descriptors.register_some hreg with ⟨hfree, -, hholder⟩
  have hne : fd' ≠ fd := by
    rintro rfl
    rw [hfree] at hheld
    cases hheld
  rw [hholder, update_of_ne hne]
  exact hheld

lemma Descriptors.publish_holder {children : List ChildExchange}
    (hpub : Descriptors.publish sock idx children d = some d') (hheld : d.holder fd = some h) :
    d'.holder fd = some h := by
  induction children generalizing d idx with
  | nil =>
    cases hpub
    exact hheld
  | cons ch rest ih =>
    rw [Descriptors.publish] at hpub
    split at hpub
    · exact ih hpub hheld
    · rcases Option.bind_eq_some_iff.mp hpub with ⟨d₁, hd₁, hrest⟩
      exact ih hrest (Descriptors.register_holder hd₁ hheld)

lemma Descriptors.holder_foldl {f : Descriptors → ChildExchange → Descriptors}
    (hf : ∀ d ch, (f d ch).holder = d.holder) (children : List ChildExchange) (d : Descriptors) :
    (children.foldl f d).holder = d.holder := by
  induction children generalizing d with
  | nil => rfl
  | cons ch rest ih => rw [List.foldl_cons, ih, hf]

lemma Descriptors.holder_abort {children : List ChildExchange} :
    (d.abort sock children).holder fd = some h ↔
      d.holder fd = some h ∧ h.childOf sock = false := by
  unfold Descriptors.abort
  rw [Descriptors.holder_release,
    Descriptors.holder_foldl fun d ch => Descriptors.holder_unregister d ch.fd]

lemma Descriptors.holder_expire {children : List ChildExchange} :
    (d.expire sock children).holder fd = some h ↔
      d.holder fd = some h ∧ h.childOf sock = false := by
  unfold Descriptors.expire
  have hfold (d : Descriptors) (ch : ChildExchange) :
      (if ch.finished then d else d.unregister ch.fd).holder = d.holder := by
    split
    · rfl
    · exact Descriptors.holder_unregister d ch.fd
  rw [Descriptors.holder_release, Descriptors.holder_foldl hfold]

/-- A client keeps its descriptor, unless the handler closes it. -/
lemma Descriptors.follow_client {m : UpstreamManager} {sock' : Nat} {c c' : Conn}
    (h : d.follow env m sock c c' l = some d') (hheld : d.holder fd = some (.client sock'))
    (hkept : sock' = sock → c'.pc ≠ .closed) : d'.holder fd = some (.client sock') := by
  -- the last thing a closing connection gives up is its own socket
  have hleave (d : Descriptors) (hd : d.holder fd = some (.client sock')) :
      (if c'.pc = .closed then d.release (· = .client sock) else d).holder fd =
        some (.client sock') := by
    split
    · rename_i hclosed
      have hne : sock' ≠ sock := fun heq => hkept heq hclosed
      exact Descriptors.holder_release.mpr ⟨hd, by simp [hne]⟩
    · exact hd
  have hsettle : (if c'.pc = .closed then d.abort sock (children c) else d).holder fd =
      some (.client sock') := by
    split
    · exact Descriptors.holder_abort.mpr ⟨hheld, rfl⟩
    · exact hheld
  cases l with
  | upstream idx fresh sur =>
    simp only [Descriptors.follow, Descriptors.drive] at h
    have hrel : ((d.unregister (childFd c idx)).release (· = .backend sock idx)).holder fd =
        some (.client sock') :=
      Descriptors.holder_release.mpr ⟨by rw [Descriptors.holder_unregister]; exact hheld, by simp⟩
    split at h
    · cases h
      exact hrel
    · exact Descriptors.register_holder h hrel
  | deadline fresh sur =>
    cases h
    exact Descriptors.holder_expire.mpr ⟨hheld, rfl⟩
  | parse o =>
    simp only [Descriptors.follow] at h
    split at h
    · rcases Option.map_eq_some_iff.mp h with ⟨d₁, hd₁, rfl⟩
      exact hleave _ (Descriptors.publish_holder hd₁
        (Descriptors.holder_release.mpr ⟨hheld, rfl⟩))
    · cases h
      exact hleave _ hsettle
  | _ =>
    cases h
    exact hleave _ hsettle

/-! ## The entries of `conns_` -/

/-- `conns_` and the clients refer to each other, every slot is owned by an entry, and
an open socket has its entry and its descriptor. -/
structure Linked (w : TcpWorker) : Prop where
  entry : ∀ fd e, w.conns fd = some e → (w.clients e.sock).entry = some fd
  listed : ∀ sock fd, (w.clients sock).entry = some fd → ∃ e, w.conns fd = some e ∧ e.sock = sock
  opened : ∀ sock fd, (w.clients sock).fd = some fd → (w.clients sock).entry = some fd
  held : ∀ sock fd, (w.clients sock).fd = some fd → w.desc.holder fd = some (.client sock)
  ticket : ∀ fd e, w.conns fd = some e → e.ticket = w.budget

lemma linked_init (m : UpstreamManager) (budget : Bool) : Linked (.init m budget) := by
  constructor <;> simp [TcpWorker.init]

/-- A socket has one entry. -/
lemma Linked.sock_inj (h : Linked w) {fd' : Nat} (he : w.conns fd = some e)
    (he' : w.conns fd' = some e') (hsock : e.sock = e'.sock) : fd = fd' := by
  have h₁ := h.entry fd e he
  rw [hsock, h.entry fd' e' he'] at h₁
  exact (Option.some.inj h₁).symm

lemma Linked.moved (h : Linked w) {s : Sys} (hh : Handles w sock env l s d) :
    Linked (w.moved sock l s d) := by
  have hentry (sock' : Nat) : ((w.moved sock l s d).clients sock').entry =
      (w.clients sock').entry := by
    by_cases hsock : sock' = sock
    · rw [hsock, TcpWorker.clients_moved_self, Client.entry_move]
    · rw [TcpWorker.clients_moved_ne w l s d hsock]
  -- the sockets that are open were open before, and the one that moves is not closed
  have hopen {sock' fd : Nat} (hfd : ((w.moved sock l s d).clients sock').fd = some fd) :
      (w.clients sock').fd = some fd ∧ (sock' = sock → s.conn.pc ≠ .closed) := by
    by_cases hsock : sock' = sock
    · rw [hsock, TcpWorker.clients_moved_self] at hfd
      by_cases hpc : s.conn.pc = .closed
      · rw [Client.fd_move_closed _ l hpc] at hfd
        cases hfd
      · rw [Client.fd_move_open _ l hpc] at hfd
        exact ⟨hsock ▸ hfd, fun _ => hpc⟩
    · rw [TcpWorker.clients_moved_ne w l s d hsock] at hfd
      exact ⟨hfd, fun heq => absurd heq hsock⟩
  constructor
  · intro fd e he
    rw [hentry]
    exact h.entry fd e he
  · intro sock' fd hfd
    rw [hentry] at hfd
    exact h.listed sock' fd hfd
  · intro sock' fd hfd
    rw [hentry]
    exact h.opened sock' fd (hopen hfd).1
  · intro sock' fd hfd
    exact Descriptors.follow_client hh.follow (h.held sock' fd (hopen hfd).1) (hopen hfd).2
  · exact h.ticket

lemma Linked.erase (h : Linked w) (fd : Nat) : Linked (w.erase fd) := by
  rcases hfd : w.conns fd with _ | e
  · -- there is nothing to erase
    have hsame : w.erase fd = w := by
      unfold TcpWorker.erase
      rw [hfd]
    rw [hsame]
    exact h
  · have hconns {fd' : Nat} {e' : ConnInfo} (he' : (w.erase fd).conns fd' = some e') :
        fd' ≠ fd ∧ w.conns fd' = some e' := by
      rw [w.conns_erase] at he'
      by_cases heq : fd' = fd
      · rw [heq, update_self] at he'
        cases he'
      · rw [update_of_ne heq] at he'
        exact ⟨heq, he'⟩
    have hother {fd' : Nat} {e' : ConnInfo} (he' : w.conns fd' = some e') (hne : fd' ≠ fd) :
        e'.sock ≠ e.sock := fun heq => hne (h.sock_inj he' hfd heq)
    constructor
    · intro fd' e' he'
      rcases hconns he' with ⟨hne, he'⟩
      rw [w.clients_erase hfd, if_neg (hother he' hne)]
      exact h.entry fd' e' he'
    · intro sock fd' hentry
      rw [w.clients_erase hfd] at hentry
      split at hentry
      · cases hentry
      · rename_i hsock
        rcases h.listed sock fd' hentry with ⟨e', he', rfl⟩
        have hne : fd' ≠ fd := by
          rintro rfl
          rw [hfd] at he'
          cases he'
          exact hsock rfl
        exact ⟨e', by rw [w.conns_erase, update_of_ne hne]; exact he', rfl⟩
    · intro sock fd' hopen
      rw [w.clients_erase hfd] at hopen ⊢
      split at hopen
      · cases hopen
      · rename_i hsock
        rw [if_neg hsock]
        exact h.opened sock fd' hopen
    · intro sock fd' hopen
      rw [w.clients_erase hfd] at hopen
      split at hopen
      · cases hopen
      · rename_i hsock
        unfold TcpWorker.erase
        rw [hfd]
        exact Descriptors.holder_release.mpr ⟨h.held sock fd' hopen, by simp [hsock]⟩
    · intro fd' e' he'
      rw [w.budget_erase]
      exact h.ticket fd' e' (hconns he').2

/-- A descriptor that nothing holds goes to a new client. -/
lemma Linked.accepted (h : Linked w) (hconns : w.conns fd = none)
    (hfree : w.desc.holder fd = none) (hnew : (w.clients sock).entry = none) :
    Linked { w with
      conns := update w.conns fd (some ⟨sock, .handshaking, w.budget⟩)
      clients := update w.clients sock ((w.clients sock).connect fd)
      desc := { w.desc with
        holder := update w.desc.holder fd (some (.client sock)) } } := by
  constructor
  · intro fd' e he
    dsimp only at he ⊢
    by_cases heq : fd' = fd
    · rw [heq, update_self] at he
      cases he
      rw [update_self, heq]
      rfl
    · rw [update_of_ne heq] at he
      have hne : e.sock ≠ sock := by
        intro hsock
        have := h.entry fd' e he
        rw [hsock, hnew] at this
        cases this
      rw [update_of_ne hne]
      exact h.entry fd' e he
  · intro sock' fd' hentry
    dsimp only at hentry ⊢
    by_cases hsock : sock' = sock
    · rw [hsock, update_self] at hentry
      cases hentry
      exact ⟨_, update_self .., hsock.symm⟩
    · rw [update_of_ne hsock] at hentry
      rcases h.listed sock' fd' hentry with ⟨e, he, rfl⟩
      have hne : fd' ≠ fd := by
        rintro rfl
        rw [hconns] at he
        cases he
      exact ⟨e, by rw [update_of_ne hne]; exact he, rfl⟩
  · intro sock' fd' hopen
    dsimp only at hopen ⊢
    by_cases hsock : sock' = sock
    · rw [hsock, update_self] at hopen ⊢
      exact hopen
    · rw [update_of_ne hsock] at hopen ⊢
      exact h.opened sock' fd' hopen
  · intro sock' fd' hopen
    dsimp only at hopen ⊢
    by_cases hsock : sock' = sock
    · rw [hsock, update_self] at hopen
      cases hopen
      rw [hsock, update_self]
    · rw [update_of_ne hsock] at hopen
      have hheld := h.held sock' fd' hopen
      have hne : fd' ≠ fd := by
        rintro rfl
        rw [hfree] at hheld
        cases hheld
      rw [update_of_ne hne]
      exact hheld
  · intro fd' e he
    dsimp only at he ⊢
    by_cases heq : fd' = fd
    · rw [heq, update_self] at he
      cases he
      rfl
    · rw [update_of_ne heq] at he
      exact h.ticket fd' e he

/-- The completed handshake changes neither the entry nor the descriptor of a client. -/
lemma completed_client (w : TcpWorker) (sock sock' : Nat) :
    (update w.clients sock { w.clients sock with
      conn := { (w.clients sock).conn with interest := some ⟨true, false⟩ } } sock').entry =
        (w.clients sock').entry ∧
    (update w.clients sock { w.clients sock with
      conn := { (w.clients sock).conn with interest := some ⟨true, false⟩ } } sock').fd =
        (w.clients sock').fd := by
  by_cases hsock : sock' = sock
  · rw [hsock, update_self]
    exact ⟨rfl, rfl⟩
  · rw [update_of_ne hsock]
    exact ⟨rfl, rfl⟩

lemma completed_conns {fd fd' sock : Nat} {ticket : Bool}
    (hentry : w.conns fd = some ⟨sock, .handshaking, ticket⟩)
    (he' : update w.conns fd (some ⟨sock, .ready, ticket⟩) fd' = some e') :
    ∃ e, w.conns fd' = some e ∧ e.sock = e'.sock ∧ e.ticket = e'.ticket := by
  by_cases heq : fd' = fd
  · rw [heq, update_self] at he'
    cases he'
    rw [heq]
    exact ⟨_, hentry, rfl, rfl⟩
  · rw [update_of_ne heq] at he'
    exact ⟨e', he', rfl, rfl⟩

lemma Linked.step {e : WorkerEvent} (h : Linked w) (hstep : workerStep e w = some w') :
    Linked w' := by
  rcases workerStep_moves hstep with _ | _ | @⟨fd, sock, w₁, _, hfree, hnew, rfl, rfl⟩ | _ |
    @⟨fd, sock, ticket, _, hentry, rfl⟩ | _ | ⟨-, hh⟩ | ⟨-, hh⟩ | ⟨-, -, hh, -⟩
  · exact h
  · exact ⟨h.entry, h.listed, h.opened, h.held, h.ticket⟩
  · -- a client is accepted, perhaps over an entry that was left behind
    have hnone : (w.erase fd).conns fd = none := by rw [w.conns_erase, update_self]
    have hnew' : ((w.erase fd).clients sock).entry = none := by
      rcases hfd : w.conns fd with _ | e
      · unfold TcpWorker.erase
        rw [hfd]
        exact hnew
      · rw [w.clients_erase hfd]
        split
        · rfl
        · exact hnew
    have hfree' : (w.erase fd).desc.holder fd = none := by
      unfold TcpWorker.erase
      split
      · exact hfree
      · exact Descriptors.holder_release_none hfree
    exact (h.erase fd).accepted hnone hfree' hnew'
  · exact h.erase _
  · -- the handshake is complete
    have hclient := completed_client w sock
    constructor
    · intro fd' e' he'
      rcases completed_conns hentry he' with ⟨e, he, hsock, -⟩
      rw [(hclient _).1, ← hsock]
      exact h.entry fd' e he
    · intro sock' fd' he
      rw [(hclient _).1] at he
      rcases h.listed sock' fd' he with ⟨e, hlisted, rfl⟩
      by_cases heq : fd' = fd
      · refine ⟨_, by rw [heq]; exact update_self .., ?_⟩
        rw [heq, hentry] at hlisted
        cases hlisted
        rfl
      · exact ⟨e, by dsimp only; rw [update_of_ne heq]; exact hlisted, rfl⟩
    · intro sock' fd' he
      rw [(hclient _).2] at he
      rw [(hclient _).1]
      exact h.opened sock' fd' he
    · intro sock' fd' he
      rw [(hclient _).2] at he
      exact h.held sock' fd' he
    · intro fd' e' he'
      rcases completed_conns hentry he' with ⟨e, he, -, hticket⟩
      rw [← hticket]
      exact h.ticket fd' e he
  · exact h.erase _
  · rcases handle_some hh with ⟨s, d, hs, rfl⟩
    exact h.moved hs
  · rcases handle_some hh with ⟨s, d, hs, rfl⟩
    exact h.moved hs
  · rcases handle_some hh with ⟨s, d, hs, rfl⟩
    exact (h.moved hs).erase _

/-! ## Entries and open sockets -/

/-- The step does not make the handler close a connection from inside `handle_read` or
`handle_write`. -/
def KeepsOpen (w : TcpWorker) : WorkerEvent → Prop
  | .turn sock env l => Closes (w.clients sock).conn l = false ∧
      Throws env ⟨w.mgr, (w.clients sock).conn⟩ l = false
  | _ => True

instance (w : TcpWorker) (e : WorkerEvent) : Decidable (KeepsOpen w e) :=
  match e with
  | .turn _ _ _ => inferInstanceAs (Decidable (_ ∧ _))
  | .accept _ _ _ _ | .shake _ _ | .client _ _ _ | .backend _ _ _ _ | .timeout _ _ _ _ _
  | .deadline _ _ _ _ | .retire _ | .others _ => inferInstanceAs (Decidable True)

/-- The sockets behind the entries are open. -/
def Alive (w : TcpWorker) : Prop := ∀ fd e, w.conns fd = some e → (w.clients e.sock).fd ≠ none

lemma alive_moved (h : Alive w) {s : Sys} (hh : Handles w sock env l s d)
    (hkeeps : Closes (w.clients sock).conn l = false ∧
      Throws env ⟨w.mgr, (w.clients sock).conn⟩ l = false) :
    Alive (w.moved sock l s d) := by
  have hpc : s.conn.pc ≠ .closed := by
    intro hclosed
    rcases (connStep_closes hh.step hclosed).2 with hc | hc
    · exact Bool.false_ne_true (hkeeps.1.symm.trans hc)
    · exact Bool.false_ne_true (hkeeps.2.symm.trans hc)
  intro fd e he
  by_cases hsock : e.sock = sock
  · rw [hsock, TcpWorker.clients_moved_self, Client.fd_move_open _ l hpc]
    exact hh.opened
  · rw [TcpWorker.clients_moved_ne w l s d hsock]
    exact h fd e he

/-- Erasing an entry takes its socket along and no other. -/
lemma alive_erase (hlinked : Linked w) (hfd : w.conns fd = some e)
    (h : ∀ fd' e', fd' ≠ fd → w.conns fd' = some e' → (w.clients e'.sock).fd ≠ none) :
    Alive (w.erase fd) := by
  intro fd' e' he'
  rw [w.conns_erase] at he'
  by_cases heq : fd' = fd
  · rw [heq, update_self] at he'
    cases he'
  · rw [update_of_ne heq] at he'
    have hother : e'.sock ≠ e.sock := fun hsock => heq (hlinked.sock_inj he' hfd hsock)
    rw [w.clients_erase hfd, if_neg hother]
    exact h fd' e' heq he'

/-- An entry under a number that is free belongs to a socket that is closed. -/
lemma Linked.shut_of_free {fd : Nat} (h : Linked w) (hfree : w.desc.holder fd = none)
    (he : w.conns fd = some e) : (w.clients e.sock).fd = none := by
  rcases hopen : (w.clients e.sock).fd with _ | fd'
  · rfl
  · have hentry := h.entry fd e he
    rw [h.opened _ _ hopen] at hentry
    cases hentry
    have hheld := h.held _ _ hopen
    rw [hfree] at hheld
    cases hheld

lemma Alive.step {ev : WorkerEvent} (hlinked : Linked w) (h : Alive w) (hkeeps : KeepsOpen w ev)
    (hstep : workerStep ev w = some w') : Alive w' := by
  rcases workerStep_moves hstep with _ | _ | @⟨fd, sock, w₁, _, hfree, hnew, rfl, rfl⟩ |
    ⟨-, hentry⟩ | @⟨fd, sock, ticket, _, hentry, rfl⟩ | ⟨hentry, hshut, -⟩ | ⟨-, hh⟩ |
    @⟨_, sock, env, l, _, hl, hh⟩ | @⟨_, fd, e, env, l, w₁, hentry, -, hh, -⟩
  · exact h
  · exact h
  · -- no open socket has the number of the new one, so there is no entry under it
    have hnone : w.conns fd = none := by
      rcases hfd : w.conns fd with _ | e
      · rfl
      · exact absurd (hlinked.shut_of_free hfree hfd) (h fd e hfd)
    have hsame : w.erase fd = w := by
      unfold TcpWorker.erase
      rw [hnone]
    rw [hsame]
    intro fd' e he
    dsimp only at he ⊢
    by_cases heq : fd' = fd
    · rw [heq, update_self] at he
      cases he
      rw [update_self]
      simp [Client.connect]
    · rw [update_of_ne heq] at he
      by_cases hsock : e.sock = sock
      · rw [hsock, update_self]
        simp [Client.connect]
      · rw [update_of_ne hsock]
        exact h fd' e he
  · exact alive_erase hlinked hentry fun fd' e' _ he' => h fd' e' he'
  · -- the handshake is complete
    intro fd' e' he'
    rcases completed_conns hentry he' with ⟨e, he, hsock, -⟩
    dsimp only
    rw [(completed_client w sock _).2, ← hsock]
    exact h fd' e he
  · exact alive_erase hlinked hentry fun fd' e' _ he' => h fd' e' he'
  · rcases handle_some hh with ⟨s, d, hs, rfl⟩
    exact alive_moved h hs hkeeps
  · -- no other step of the handler closes a connection
    rcases handle_some hh with ⟨s, d, hs, rfl⟩
    apply alive_moved h hs
    rcases hl with rfl | rfl | ⟨idx, fresh, sur, rfl⟩ | ⟨fresh, sur, rfl⟩ <;> exact ⟨rfl, rfl⟩
  · -- the worker erases the entry of the connection that it has closed
    rcases handle_some hh with ⟨s, d, hs, rfl⟩
    refine alive_erase (hlinked.moved hs) hentry fun fd' e' hne he' => ?_
    have hother : e'.sock ≠ e.sock := fun hsock => hne (hlinked.sock_inj he' hentry hsock)
    rw [TcpWorker.clients_moved_ne w l s d hother]
    exact h fd' e' he'

/-- The descriptors whose entries own a slot of the budget. -/
def TcpWorker.slots (w : TcpWorker) : Set Nat := {fd | ∃ e, w.conns fd = some e ∧ e.ticket = true}

/-- The open connections. -/
def TcpWorker.openSockets (w : TcpWorker) : Set Nat := {sock | (w.clients sock).fd ≠ none}

/-- `conns_` has an entry for a descriptor if and only if the socket behind it is open,
and with a budget there are as many slots in use as open connections. -/
structure Tracks (w : TcpWorker) : Prop where
  open_of_entry : ∀ fd e, w.conns fd = some e → (w.clients e.sock).fd = some fd
  entry_of_open : ∀ sock fd, (w.clients sock).fd = some fd →
    ∃ e, w.conns fd = some e ∧ e.sock = sock
  slots : w.budget = true → w.slots.ncard = w.openSockets.ncard

lemma tracks_of_alive (hlinked : Linked w) (h : Alive w) : Tracks w := by
  have hopen (fd : Nat) (e : ConnInfo) (he : w.conns fd = some e) :
      (w.clients e.sock).fd = some fd := by
    rcases hfd : (w.clients e.sock).fd with _ | fd'
    · exact absurd hfd (h fd e he)
    · rw [← hlinked.opened _ _ hfd]
      exact hlinked.entry fd e he
  have hentry (sock fd : Nat) (hfd : (w.clients sock).fd = some fd) :
      ∃ e, w.conns fd = some e ∧ e.sock = sock :=
    hlinked.listed sock fd (hlinked.opened sock fd hfd)
  refine ⟨hopen, hentry, fun hbudget => ?_⟩
  -- a socket goes to its descriptor and back through the entry
  refine (Set.ncard_congr (fun sock _ => ((w.clients sock).fd).getD 0) ?_ ?_ ?_).symm
  · intro sock hsock
    rcases hfd : (w.clients sock).fd with _ | fd
    · exact absurd hfd hsock
    · rcases hentry sock fd hfd with ⟨e, he, -⟩
      exact ⟨e, he, (hlinked.ticket fd e he).trans hbudget⟩
  · intro sock sock' hsock hsock' heq
    rcases hfd : (w.clients sock).fd with _ | fd
    · exact absurd hfd hsock
    · rcases hfd' : (w.clients sock').fd with _ | fd'
      · exact absurd hfd' hsock'
      · rw [hfd, hfd'] at heq
        have hsame : fd = fd' := heq
        have hheld := hlinked.held sock fd hfd
        rw [hsame, hlinked.held sock' fd' hfd'] at hheld
        cases hheld
        rfl
  · rintro fd ⟨e, he, -⟩
    refine ⟨e.sock, h fd e he, ?_⟩
    rw [hopen fd e he]
    rfl

/-- As long as the handler closes no connection from inside `handle_read` or
`handle_write`, the table tracks the open sockets. -/
theorem table_tracks {m : UpstreamManager} {budget : Bool} {es : List WorkerEvent} {w : TcpWorker}
    (hrun : Run workerStep KeepsOpen (.init m budget) es w) : Tracks w := by
  have hinv : Linked w ∧ Alive w := by
    apply hrun.invariant (I := fun w => Linked w ∧ Alive w)
    · exact ⟨linked_init m budget, by simp [Alive, TcpWorker.init]⟩
    · intro t e u ht hok hstep
      exact ⟨ht.1.step hstep, ht.2.step ht.1 hok hstep⟩
  exact tracks_of_alive hinv.1 hinv.2

/-- A client connects over descriptor 5, finishes its handshake and sends something. -/
def greeted : List WorkerEvent :=
  [.accept 5 1 true true, .shake 5 .complete, .client 5 bareEnv .readable]

/-- Two clients come, and one of them hangs up. -/
theorem table_tracks_hangup : ∃ w, Run workerStep KeepsOpen (.init noUpstreams true)
    (greeted ++ [.turn 1 bareEnv (.recv .wouldBlock), .accept 6 2 true true,
      .client 5 bareEnv .hangup]) w ∧ ((w.conns 5, w.conns 6) =
        (none, some ⟨2, .handshaking, true⟩)) ∧ Tracks w := by
  have hrun : ∃ w, Run workerStep KeepsOpen (.init noUpstreams true)
      (greeted ++ [.turn 1 bareEnv (.recv .wouldBlock), .accept 6 2 true true,
        .client 5 bareEnv .hangup]) w ∧ (w.conns 5, w.conns 6) =
          (none, some ⟨2, .handshaking, true⟩) :=
    exists_run_of_exec (by decide +kernel)
  rcases hrun with ⟨w, hw, hconns⟩
  exact ⟨w, hw, hconns, table_tracks hw⟩

/-- The client goes away: `handle_read` closes the socket and nothing erases its entry,
which keeps the slot. -/
theorem table_keeps_closed : ∃ w, Run workerStep Any (.init noUpstreams true)
    (greeted ++ [.turn 1 bareEnv (.recv .eof)]) w ∧
      (w.conns 5, (w.clients 1).fd) = (some ⟨1, .ready, true⟩, none) :=
  exists_run_of_exec (by decide +kernel)

end EpollGateway.Worker
