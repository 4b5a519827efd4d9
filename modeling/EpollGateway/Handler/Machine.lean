import EpollGateway.Handler.Dispatch
import EpollGateway.Lib.Run

/-! # The connection machine

`handle_read` and `handle_write` as a machine that moves in small steps. A label
is the choice that the surroundings make at a step: which event epoll reports,
what a system call returns, what a handler answers. `connStep` is the step of one
connection; it also reads and writes the upstream manager that all connections
share.
-/

namespace EpollGateway.Handler

open Bytes Http Upstream

/-! ## Results of system calls -/

/-- The events that epoll reports for an armed descriptor. -/
inductive Event where
  | hangup | readable | writable
deriving DecidableEq, Repr

/-- `recv` or `sslRead`. -/
inductive RecvResult where
  | data (b : Bytes)
  | eof
  | wouldBlock
  | failed
deriving DecidableEq, Repr

def readChunkSize : Nat := 4096

/-- A read returns at least one byte and at most a buffer of them. -/
def RecvResult.possible : RecvResult → Bool
  | .data b => b ≠ [] && b.length ≤ readChunkSize
  | _ => true

/-- `writev`, `sslWrite` or `sendfile`. -/
inductive WriteResult where
  | wrote (n : Nat)
  | wouldBlock (want : SslWant)
  | failed
deriving DecidableEq, Repr

/-- A result after which the connection is closed; `sendfile` may send nothing. -/
def WriteResult.fatal : WriteResult → Bool
  | .wrote n => n = 0
  | .wouldBlock _ => false
  | .failed => true

inductive Label where
  | event (e : Event)
  | recv (r : RecvResult)
  | resume
  | parse (o : Oracle)
  | write (r : WriteResult)
  | file (pread : Nat) (r : WriteResult)
  | flushed
  | upstream (idx : Nat) (fresh : Fresh) (s : Surroundings)
  | deadline (fresh : Fresh) (s : Surroundings)
  | teardown

/-! ## Reading -/

/-- One `recv` at the top of the outer loop, with an empty buffer. -/
def recvPass (caller : Caller) (c : Conn) : RecvResult → Conn
  | .data b =>
    { c with
      readBuf := c.readBuf ++ b
      pc := .parsing caller
      hist := { c.hist with received := c.hist.received ++ b } }
  | .eof => cleanup c
  | .wouldBlock => returnRead caller (rearmReads c)
  | .failed => cleanup c

/-! ## Writing -/

/-- The chunks after `n` bytes of them have been sent. -/
def consume : Nat → List Bytes → List Bytes
  | _, [] => []
  | n, front :: rest =>
    if n = 0 then front :: rest
    else if n ≥ front.length then consume (n - front.length) rest
    else front.drop n :: rest

def maxIov : Nat := 64

/-- The descriptor waits until it can be written. -/
def waitWritable (c : Conn) : Conn := { c with interest := some ⟨false, true⟩, pc := .idle }

/-- `wait_for_ssl_write`. -/
def waitForSslWrite (want : SslWant) (c : Conn) : Conn :=
  { c with
    pendingSslWrite := some want
    interest := some (if want = .read then ⟨true, false⟩ else ⟨false, true⟩)
    pc := .idle }

/-- One gathering write of the queue on a plaintext connection. -/
def writevPass (c : Conn) : WriteResult → Option Conn
  | .wrote n =>
    if n = 0 then some (cleanup c)
    else if n ≤ (c.sendQueue.take maxIov).flatten.length then
      some { c with
        sendQueue := consume n c.sendQueue
        hist := c.hist.write (c.sendQueue.flatten.take n) }
    else none
  | .wouldBlock _ => some (waitWritable c)
  | .failed => some (cleanup c)

/-- One write of the first chunk on a TLS connection. -/
def sslWritePass (front : Bytes) (rest : List Bytes) (c : Conn) : WriteResult → Option Conn
  | .wrote n =>
    if n = 0 ∨ n > front.length then none
    else
      let c := { c with pendingSslWrite := none, hist := c.hist.write (front.take n) }
      if n = front.length then some { c with sendQueue := rest }
      else some (waitWritable { c with sendQueue := front.drop n :: rest })
  | .wouldBlock want => some (waitForSslWrite want c)
  | .failed => some (cleanup c)

/-- One `sendfile`. -/
def sendfilePass (env : Env) (f : FileSlot) (c : Conn) : WriteResult → Option Conn
  | .wrote n =>
    if n ≤ f.remaining then
      some { c with
        file := some { f with offset := f.offset + n }
        hist := c.hist.write (fileBytes (env.file f.fd) f.offset n) }
    else none
  | .wouldBlock _ => some (waitWritable c)
  | .failed => some (cleanup c)

def sslSendfileBuf : Nat := 65536

/-- One write of the buffer that holds the next bytes of the file. -/
def sslFileWrite (f : FileSlot) (filebuf : Bytes) (c : Conn) : WriteResult → Option Conn
  | .wrote n =>
    if n = 0 ∨ n > filebuf.length then none
    else
      let c := { c with
        pendingSslWrite := none
        file := some { f with offset := f.offset + n }
        sslFileBuffer := filebuf.drop n
        hist := c.hist.write (filebuf.take n) }
      if filebuf.drop n ≠ [] then some (waitWritable c) else some c
  | .wouldBlock want => some (waitForSslWrite want { c with sslFileBuffer := filebuf })
  | .failed => some (cleanup c)

/-- One `pread`, if the buffer is empty, and one write of the buffer. -/
def sslFilePass (env : Env) (f : FileSlot) (pread : Nat) (c : Conn) (r : WriteResult) :
    Option Conn :=
  if c.sslFileBuffer ≠ [] then sslFileWrite f c.sslFileBuffer c r
  else if pread > min sslSendfileBuf f.remaining then none
  else if pread = 0 then some (cleanup c)
  else sslFileWrite f (fileBytes (env.file f.fd) f.offset pread) c r

/-- Queue and file are sent: the records of the response are erased, and the
connection is closed, goes on with buffered input, or waits for more. -/
def flushedPass (c : Conn) : Conn :=
  let c := { c with file := none, sslFileBuffer := [], lastRequest := none, respStatus := none }
  if ¬ c.keepAlive then cleanup c
  else if c.readBuf ≠ [] then { c with pc := .reading .writer }
  else { c with interest := some ⟨true, false⟩, pc := .idle }

/-! ## Events -/

/-- `handle_client`; the descriptor is disarmed when an event is reported. -/
def eventPass (i : Interest) (c : Conn) : Event → Option Conn
  | .hangup => some (cleanup c)
  | .readable =>
    if i.readable then
      let c := { c with interest := none }
      if c.pendingSslWrite.isSome then some (startWrite c) else some { c with pc := .reading .worker }
    else none
  | .writable => if i.writable then some (startWrite { c with interest := none }) else none

/-- An exception on the path of a backend event leaves the worker's loop. -/
def afterDrive (r : Conn × Bool) : Conn := if r.2 then { r.1 with pc := .crashed } else r.1

/-- The state of a connection together with the shared upstream manager. -/
structure Sys where
  mgr : UpstreamManager
  conn : Conn

/-- One step of a connection. -/
def connStep (env : Env) (l : Label) (s : Sys) : Option Sys :=
  let c := s.conn
  match c.pc, l with
  | .idle, .event e => c.interest.bind fun i => (eventPass i c e).map (⟨s.mgr, ·⟩)
  | .idle, .upstream idx fresh sur =>
    c.upstream.map fun st =>
      let (m, d) := driveChild sur idx s.mgr st (sur.advances idx)
      ⟨m, afterDrive (applyDrive env fresh c d)⟩
  | .idle, .deadline fresh sur =>
    c.upstream.bind fun st =>
      if st.composite ∧ st.hasTotalDeadline then
        some ⟨s.mgr, afterDrive (applyDrive env fresh c (expireComposite sur.elapsed st))⟩
      else none
  | .idle, .teardown => some ⟨s.mgr, cleanup c⟩
  | .reading caller, .recv r =>
    if c.readBuf = [] ∧ r.possible then some ⟨s.mgr, recvPass caller c r⟩ else none
  | .reading caller, .resume =>
    if c.readBuf = [] then none else some ⟨s.mgr, { c with pc := .parsing caller }⟩
  | .parsing caller, .parse o =>
    let (m, c) := parsePass env o caller s.mgr c
    some ⟨m, c⟩
  | .writing, .write r =>
    match c.sendQueue with
    | [] => none
    | front :: rest =>
      (if env.isSsl then sslWritePass front rest c r else writevPass c r).map (⟨s.mgr, ·⟩)
  | .writing, .file pread r =>
    match c.sendQueue, c.file with
    | [], some f =>
      if f.remaining = 0 then none
      else (if env.isSsl then sslFilePass env f pread c r else sendfilePass env f c r).map (⟨s.mgr, ·⟩)
    | _, _ => none
  | .writing, .flushed =>
    if c.sendQueue = [] ∧ (c.file.map FileSlot.remaining).getD 0 = 0 then
      some ⟨s.mgr, flushedPass c⟩
    else none
  | _, _ => none

/-! ## What a step can do -/

section Inversion

variable {env : Env} {s s' : Sys}

lemma connStep_event {e : Event} (h : connStep env (.event e) s = some s') :
    s.conn.pc = .idle ∧ ∃ i c, s.conn.interest = some i ∧ eventPass i s.conn e = some c ∧
      s' = ⟨s.mgr, c⟩ := by
  unfold connStep at h
  cases hpc : s.conn.pc <;> simp only [hpc, reduceCtorEq] at h
  obtain ⟨i, hi, hmap⟩ := Option.bind_eq_some_iff.mp h
  obtain ⟨c, hc, rfl⟩ := Option.map_eq_some_iff.mp hmap
  exact ⟨rfl, i, c, hi, hc, rfl⟩

/-- What an event leads to: the connection is closed, or its descriptor is disarmed, and it is
written to or read. -/
lemma eventPass_cases {i : Interest} {c c' : Conn} {e : Event} (h : eventPass i c e = some c') :
    (e = .hangup ∧ c' = cleanup c) ∨ c' = startWrite { c with interest := none } ∨
      c' = { c with interest := none, pc := .reading .worker } := by
  cases e with
  | hangup =>
    cases h
    exact .inl ⟨rfl, rfl⟩
  | readable =>
    simp only [eventPass] at h
    split at h
    · split at h <;> cases h
      · exact .inr (.inl rfl)
      · exact .inr (.inr rfl)
    · cases h
  | writable =>
    simp only [eventPass] at h
    split at h <;> cases h
    exact .inr (.inl rfl)

lemma connStep_recv {r : RecvResult} (h : connStep env (.recv r) s = some s') :
    ∃ caller, s.conn.pc = .reading caller ∧ s.conn.readBuf = [] ∧ r.possible = true ∧
      s' = ⟨s.mgr, recvPass caller s.conn r⟩ := by
  unfold connStep at h
  cases hpc : s.conn.pc <;> simp only [hpc, reduceCtorEq] at h
  rename_i caller
  split at h
  · rename_i hbuf
    cases h
    exact ⟨caller, rfl, hbuf.1, hbuf.2, rfl⟩
  · cases h

lemma connStep_resume (h : connStep env .resume s = some s') :
    ∃ caller, s.conn.pc = .reading caller ∧ s.conn.readBuf ≠ [] ∧
      s' = ⟨s.mgr, { s.conn with pc := .parsing caller }⟩ := by
  unfold connStep at h
  cases hpc : s.conn.pc <;> simp only [hpc, reduceCtorEq] at h
  rename_i caller
  split at h
  · cases h
  · rename_i hbuf
    cases h
    exact ⟨caller, rfl, hbuf, rfl⟩

lemma connStep_parse {o : Oracle} (h : connStep env (.parse o) s = some s') :
    ∃ caller, s.conn.pc = .parsing caller ∧
      s'.mgr = (parsePass env o caller s.mgr s.conn).1 ∧
      s'.conn = (parsePass env o caller s.mgr s.conn).2 := by
  unfold connStep at h
  cases hpc : s.conn.pc <;> simp only [hpc, reduceCtorEq] at h
  rename_i caller
  cases h
  exact ⟨caller, rfl, rfl, rfl⟩

lemma connStep_write {r : WriteResult} (h : connStep env (.write r) s = some s') :
    s.conn.pc = .writing ∧ ∃ front rest c, s.conn.sendQueue = front :: rest ∧
      (if env.isSsl then sslWritePass front rest s.conn r else writevPass s.conn r) = some c ∧
      s' = ⟨s.mgr, c⟩ := by
  unfold connStep at h
  cases hpc : s.conn.pc <;> simp only [hpc, reduceCtorEq] at h
  split at h
  · cases h
  · rename_i front rest hq
    obtain ⟨c, hc, rfl⟩ := Option.map_eq_some_iff.mp h
    exact ⟨rfl, front, rest, c, hq, hc, rfl⟩

lemma connStep_file {pread : Nat} {r : WriteResult}
    (h : connStep env (.file pread r) s = some s') :
    s.conn.pc = .writing ∧ s.conn.sendQueue = [] ∧ ∃ f c, s.conn.file = some f ∧
      (if env.isSsl then sslFilePass env f pread s.conn r else sendfilePass env f s.conn r) = some c ∧
      s' = ⟨s.mgr, c⟩ := by
  unfold connStep at h
  cases hpc : s.conn.pc <;> simp only [hpc, reduceCtorEq] at h
  split at h
  · rename_i f hq hf
    split at h
    · cases h
    · obtain ⟨c, hc, rfl⟩ := Option.map_eq_some_iff.mp h
      exact ⟨rfl, hq, f, c, hf, hc, rfl⟩
  · cases h

lemma connStep_flushed (h : connStep env .flushed s = some s') :
    s.conn.pc = .writing ∧ s.conn.sendQueue = [] ∧
      (s.conn.file.map FileSlot.remaining).getD 0 = 0 ∧ s' = ⟨s.mgr, flushedPass s.conn⟩ := by
  unfold connStep at h
  cases hpc : s.conn.pc <;> simp only [hpc, reduceCtorEq] at h
  split at h
  · rename_i hq
    cases h
    exact ⟨rfl, hq.1, hq.2, rfl⟩
  · cases h

lemma connStep_upstream {idx : Nat} {fresh : Fresh} {sur : Surroundings}
    (h : connStep env (.upstream idx fresh sur) s = some s') :
    s.conn.pc = .idle ∧ ∃ st, s.conn.upstream = some st ∧
      s' = ⟨(driveChild sur idx s.mgr st (sur.advances idx)).1,
        afterDrive (applyDrive env fresh s.conn
          (driveChild sur idx s.mgr st (sur.advances idx)).2)⟩ := by
  unfold connStep at h
  cases hpc : s.conn.pc <;> simp only [hpc, reduceCtorEq] at h
  obtain ⟨st, hst, rfl⟩ := Option.map_eq_some_iff.mp h
  exact ⟨rfl, st, hst, rfl⟩

lemma connStep_deadline {fresh : Fresh} {sur : Surroundings}
    (h : connStep env (.deadline fresh sur) s = some s') :
    s.conn.pc = .idle ∧ ∃ st, s.conn.upstream = some st ∧ st.composite = true ∧
      s' = ⟨s.mgr, afterDrive (applyDrive env fresh s.conn (expireComposite sur.elapsed st))⟩ := by
  unfold connStep at h
  cases hpc : s.conn.pc <;> simp only [hpc, reduceCtorEq] at h
  obtain ⟨st, hst, hif⟩ := Option.bind_eq_some_iff.mp h
  split at hif
  · rename_i hdl
    cases hif
    exact ⟨rfl, st, hst, hdl.1, rfl⟩
  · cases hif

lemma connStep_teardown (h : connStep env .teardown s = some s') :
    s.conn.pc = .idle ∧ s' = ⟨s.mgr, cleanup s.conn⟩ := by
  unfold connStep at h
  cases hpc : s.conn.pc <;> simp only [hpc, reduceCtorEq] at h
  cases h
  exact ⟨rfl, rfl⟩

end Inversion

/-! ## What writing leaves alone -/

/-- From `c` to `c'` only the output side has changed, and the worker goes on
writing or waits for the socket. -/
structure Writes (c c' : Conn) : Prop where
  readBuf : c'.readBuf = c.readBuf
  parser : c'.parser = c.parser
  request : c'.request = c.request
  keepAlive : c'.keepAlive = c.keepAlive
  upstream : c'.upstream = c.upstream
  received : c'.hist.received = c.hist.received
  taken : c'.hist.taken = c.hist.taken
  replies : c'.hist.replies = c.hist.replies
  place : c'.pc = c.pc ∧ c'.interest = c.interest ∨ c'.pc = .idle

section Writing

variable {env : Env} {c c' : Conn} {r : WriteResult}

lemma writevPass_writes (h : writevPass c r = some c') :
    (c' = cleanup c ∧ r.fatal = true) ∨ Writes c c' := by
  cases r with
  | wrote n =>
    simp only [writevPass] at h
    split at h
    · rename_i hn
      cases h
      exact .inl ⟨rfl, by simp [WriteResult.fatal, hn]⟩
    · split at h
      · cases h
        exact .inr ⟨rfl, rfl, rfl, rfl, rfl, rfl, rfl, rfl, .inl ⟨rfl, rfl⟩⟩
      · cases h
  | wouldBlock want =>
    cases h
    exact .inr ⟨rfl, rfl, rfl, rfl, rfl, rfl, rfl, rfl, .inr rfl⟩
  | failed =>
    cases h
    exact .inl ⟨rfl, rfl⟩

lemma sslWritePass_writes {front : Bytes} {rest : List Bytes}
    (h : sslWritePass front rest c r = some c') :
    (c' = cleanup c ∧ r.fatal = true) ∨ Writes c c' := by
  cases r with
  | wrote n =>
    simp only [sslWritePass] at h
    split at h
    · cases h
    · split at h
      · cases h
        exact .inr ⟨rfl, rfl, rfl, rfl, rfl, rfl, rfl, rfl, .inl ⟨rfl, rfl⟩⟩
      · cases h
        exact .inr ⟨rfl, rfl, rfl, rfl, rfl, rfl, rfl, rfl, .inr rfl⟩
  | wouldBlock want =>
    cases h
    exact .inr ⟨rfl, rfl, rfl, rfl, rfl, rfl, rfl, rfl, .inr rfl⟩
  | failed =>
    cases h
    exact .inl ⟨rfl, rfl⟩

lemma sendfilePass_writes {f : FileSlot} (h : sendfilePass env f c r = some c') :
    (c' = cleanup c ∧ r.fatal = true) ∨ Writes c c' := by
  cases r with
  | wrote n =>
    simp only [sendfilePass] at h
    split at h
    · cases h
      exact .inr ⟨rfl, rfl, rfl, rfl, rfl, rfl, rfl, rfl, .inl ⟨rfl, rfl⟩⟩
    · cases h
  | wouldBlock want =>
    cases h
    exact .inr ⟨rfl, rfl, rfl, rfl, rfl, rfl, rfl, rfl, .inr rfl⟩
  | failed =>
    cases h
    exact .inl ⟨rfl, rfl⟩

lemma sslFileWrite_writes {f : FileSlot} {filebuf : Bytes}
    (h : sslFileWrite f filebuf c r = some c') :
    (c' = cleanup c ∧ r.fatal = true) ∨ Writes c c' := by
  cases r with
  | wrote n =>
    simp only [sslFileWrite] at h
    split at h
    · cases h
    · split at h
      · cases h
        exact .inr ⟨rfl, rfl, rfl, rfl, rfl, rfl, rfl, rfl, .inr rfl⟩
      · cases h
        exact .inr ⟨rfl, rfl, rfl, rfl, rfl, rfl, rfl, rfl, .inl ⟨rfl, rfl⟩⟩
  | wouldBlock want =>
    cases h
    exact .inr ⟨rfl, rfl, rfl, rfl, rfl, rfl, rfl, rfl, .inr rfl⟩
  | failed =>
    cases h
    exact .inl ⟨rfl, rfl⟩

lemma sslFilePass_writes {f : FileSlot} {pread : Nat}
    (h : sslFilePass env f pread c r = some c') :
    (c' = cleanup c ∧ (pread = 0 ∨ r.fatal = true)) ∨ Writes c c' := by
  unfold sslFilePass at h
  split at h
  · exact (sslFileWrite_writes h).imp_left (And.imp_right .inr)
  · split at h
    · cases h
    · split at h
      · rename_i hpread
        cases h
        exact .inl ⟨rfl, .inl hpread⟩
      · exact (sslFileWrite_writes h).imp_left (And.imp_right .inr)

variable {s s' : Sys}

lemma connStep_write_writes (h : connStep env (.write r) s = some s') :
    s.conn.pc = .writing ∧ s'.mgr = s.mgr ∧
      ((s'.conn = cleanup s.conn ∧ r.fatal = true) ∨ Writes s.conn s'.conn) := by
  obtain ⟨hpc, front, rest, c, -, hc, rfl⟩ := connStep_write h
  refine ⟨hpc, rfl, ?_⟩
  split at hc
  · exact sslWritePass_writes hc
  · exact writevPass_writes hc

lemma connStep_file_writes {pread : Nat} (h : connStep env (.file pread r) s = some s') :
    s.conn.pc = .writing ∧ s'.mgr = s.mgr ∧
      ((s'.conn = cleanup s.conn ∧ (pread = 0 ∨ r.fatal = true)) ∨ Writes s.conn s'.conn) := by
  obtain ⟨hpc, -, f, c, -, hc, rfl⟩ := connStep_file h
  refine ⟨hpc, rfl, ?_⟩
  split at hc
  · exact sslFilePass_writes hc
  · exact (sendfilePass_writes hc).imp_left (And.imp_right .inr)

end Writing

/-! ## One connection among others -/

/-- A step of the connection, or anything that other connections do to the shared
manager. -/
inductive SoloLabel where
  | own (l : Label)
  | others (m : UpstreamManager)

/-- A connection in arbitrary company. -/
def soloStep (env : Env) : SoloLabel → Sys → Option Sys
  | .own l, s => connStep env l s
  | .others m, s => some { s with mgr := m }

/-- A gateway without routes. -/
def bareEnv : Env := { routes := [] }

def noUpstreams : UpstreamManager := { upstreams := fun _ => [] }

/-- A gateway with one open route, `/u`, to one backend. -/
def backendEnv : Env :=
  { routes := [{ route := { path := ascii "/u", allowAnonymous := true } }]
    upstreams := fun _ => [{ host := ascii "b" }] }

def oneBackend : UpstreamManager := { upstreams := fun _ => [{ host := ascii "b" }] }

end EpollGateway.Handler
