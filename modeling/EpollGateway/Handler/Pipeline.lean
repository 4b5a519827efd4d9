import EpollGateway.Handler.Serial

/-! # The byte stream of pipelined responses

A response lives in two places: its header and a small body in the send queue, the
rest of a large file in the one file slot of the connection. `handle_write` empties
the queue before it touches the file. A response that is queued while a file waits
in the slot therefore goes out in front of that file (`file_overtaken`).

When nothing is taken from the input while a file waits, the bytes written are the
responses one after the other, each complete and in request order
(`pipelined_stream`).
-/

namespace EpollGateway.Handler

open Bytes Http Upstream Machine

/-- No request goes to a backend, and no request and no refusal is taken while a file waits
to be sent. -/
def FileSent (env : Env) (s : Sys) : SoloLabel → Prop
  | .own (.parse o) =>
    s.conn.startsExchange env o = false ∧ (s.conn.takes = true → s.conn.file = none)
  | _ => True

instance (env : Env) (s : Sys) : (l : SoloLabel) → Decidable (FileSent env s l)
  | .own (.parse o) =>
    inferInstanceAs (Decidable (s.conn.startsExchange env o = false ∧
      (s.conn.takes = true → s.conn.file = none)))
  | .own (.event _) | .own (.recv _) | .own .resume | .own (.write _) | .own (.file _ _)
  | .own .flushed | .own (.upstream _ _ _) | .own (.deadline _ _) | .own .teardown | .others _ =>
    inferInstanceAs (Decidable True)

/-- The responses of a history, one after the other. -/
def History.stream (h : History) : Bytes := (h.replies.map fun r => r.2.bytes).flatten

/-- What was written and what waits to be written are the responses. -/
structure Flowing (env : Env) (u : Outlet) : Prop where
  stream : u.hist.written ++ u.pending env = u.hist.stream
  buffer : u.sslFileBuffer <+: u.fileRest env
  plain : env.isSsl = false → u.sslFileBuffer = []

/-! ## Writing -/

lemma flatten_consume (n : Nat) (q : List Bytes) :
    (consume n q).flatten = q.flatten.drop n := by
  induction q generalizing n with
  | nil => simp [consume]
  | cons front rest ih =>
    unfold consume
    split
    · rename_i hn
      simp [hn]
    · split
      · rename_i hle
        rw [ih, List.flatten_cons, List.drop_append, List.drop_eq_nil_of_le hle, List.nil_append]
      · rename_i hlt
        rw [List.flatten_cons, List.flatten_cons, List.drop_append_of_le_length (by omega)]

lemma flatten_dropWhile_nil (q : List Bytes) :
    (q.dropWhile (· = [])).flatten = q.flatten := by
  induction q with
  | nil => rfl
  | cons front rest ih =>
    by_cases h : front = []
    · simp [h, ih]
    · simp [h]

variable {env : Env} {c c' : Conn} {u v : Outlet}

/-- Bytes move from the front of what is pending to the socket. -/
lemma Flowing.move (h : Flowing env u) (sent : Bytes)
    (hwritten : v.hist.written = u.hist.written ++ sent)
    (hreplies : v.hist.replies = u.hist.replies)
    (hpending : sent ++ v.pending env = u.pending env)
    (hbuffer : v.sslFileBuffer <+: v.fileRest env)
    (hplain : env.isSsl = false → v.sslFileBuffer = []) : Flowing env v where
  stream := by
    rw [hwritten, List.append_assoc, hpending, h.stream, History.stream, History.stream, hreplies]
  buffer := hbuffer
  plain := hplain

lemma Flowing.of_outlet (h : Flowing env u) (heq : v = u) : Flowing env v := heq ▸ h

section

variable {env : Env} {c c' : Conn}

/-- Waiting for the socket does not touch the output side. -/
lemma outlet_waitWritable (c : Conn) : (waitWritable c).outlet = c.outlet := rfl

lemma outlet_waitForSslWrite (want : SslWant) (c : Conn) :
    (waitForSslWrite want c).outlet = c.outlet := rfl

variable {r : WriteResult}

lemma writevPass_flowing (h : Flowing env c.outlet) (hc : writevPass c r = some c') :
    c' = cleanup c ∨ Flowing env c'.outlet := by
  cases r with
  | wrote n =>
    simp only [writevPass] at hc
    split at hc
    · cases hc
      exact .inl rfl
    · split at hc
      · cases hc
        refine .inr (h.move (c.sendQueue.flatten.take n) rfl rfl ?_ h.buffer h.plain)
        rw [Outlet.pending, Outlet.pending]
        show _ ++ ((consume n c.sendQueue).flatten ++ _) = c.sendQueue.flatten ++ _
        rw [flatten_consume, ← List.append_assoc, List.take_append_drop]
        rfl
      · cases hc
  | wouldBlock want =>
    cases hc
    exact .inr (h.of_outlet (outlet_waitWritable c))
  | failed =>
    cases hc
    exact .inl rfl

lemma sslWritePass_flowing {front : Bytes} {rest : List Bytes} (h : Flowing env c.outlet)
    (hq : c.sendQueue = front :: rest) (hc : sslWritePass front rest c r = some c') :
    c' = cleanup c ∨ Flowing env c'.outlet := by
  cases r with
  | wrote n =>
    simp only [sslWritePass] at hc
    split at hc
    · cases hc
    · rename_i hn
      have hpending : ∀ q, front.take n ++ List.flatten q = front ++ rest.flatten →
          front.take n ++ ({ c.outlet with sendQueue := q } : Outlet).pending env =
            c.outlet.pending env := by
        intro q heq
        show _ ++ (q.flatten ++ c.outlet.fileRest env) = c.sendQueue.flatten ++ _
        rw [← List.append_assoc, heq, hq, List.flatten_cons]
      split at hc
      · rename_i hall
        cases hc
        refine .inr (h.move (front.take n) rfl rfl (hpending rest ?_) h.buffer h.plain)
        rw [hall, List.take_length]
      · cases hc
        refine .inr (h.move (front.take n) rfl rfl (hpending (front.drop n :: rest) ?_) h.buffer
          h.plain)
        rw [List.flatten_cons, ← List.append_assoc, List.take_append_drop]
  | wouldBlock want =>
    cases hc
    exact .inr (h.of_outlet (outlet_waitForSslWrite want c))
  | failed =>
    cases hc
    exact .inl rfl

variable {f : FileSlot}

lemma fileRest_of_some {u : Outlet} (hf : u.file = some f) :
    u.fileRest env = fileBytes (env.file f.fd) f.offset f.remaining := by
  simp [Outlet.fileRest, hf]

/-- `n` bytes of the file have been sent. -/
lemma fileRest_advance {u v : Outlet} {n : Nat} (hf : u.file = some f)
    (hv : v.file = some { f with offset := f.offset + n }) (hn : n ≤ f.remaining) :
    v.fileRest env = (u.fileRest env).drop n := by
  rw [fileRest_of_some hf, fileRest_of_some hv, drop_fileBytes _ _ _ _ hn]
  simp [FileSlot.remaining, Nat.sub_add_eq]

lemma pending_of_empty {u : Outlet} (hq : u.sendQueue = []) : u.pending env = u.fileRest env := by
  simp [Outlet.pending, hq]

lemma sendfilePass_flowing (h : Flowing env c.outlet) (hssl : env.isSsl = false)
    (hq : c.sendQueue = []) (hf : c.file = some f) (hc : sendfilePass env f c r = some c') :
    c' = cleanup c ∨ Flowing env c'.outlet := by
  cases r with
  | wrote n =>
    simp only [sendfilePass] at hc
    split at hc
    · rename_i hn
      cases hc
      have hplain : c.sslFileBuffer = [] := h.plain hssl
      have hf' : c.outlet.file = some f := hf
      refine .inr (h.move (fileBytes (env.file f.fd) f.offset n) rfl rfl ?_ ?_ fun _ => hplain)
      · rw [pending_of_empty hq, pending_of_empty hq, fileRest_advance hf' rfl hn,
          fileRest_of_some hf', ← take_fileBytes _ _ _ _ hn, List.take_append_drop]
      · show c.sslFileBuffer <+: _
        rw [hplain]
        exact List.nil_prefix
    · cases hc
  | wouldBlock want =>
    cases hc
    exact .inr (h.of_outlet (outlet_waitWritable c))
  | failed =>
    cases hc
    exact .inl rfl

lemma sslFileWrite_flowing {filebuf : Bytes} (h : Flowing env c.outlet)
    (hssl : env.isSsl = true) (hq : c.sendQueue = []) (hf : c.file = some f)
    (hbuf : filebuf <+: c.outlet.fileRest env) (hc : sslFileWrite f filebuf c r = some c') :
    c' = cleanup c ∨ Flowing env c'.outlet := by
  have hplain : ∀ b : Bytes, env.isSsl = false → b = [] := by simp [hssl]
  have hf' : c.outlet.file = some f := hf
  have hq' : c.outlet.sendQueue = [] := hq
  cases r with
  | wrote n =>
    simp only [sslFileWrite] at hc
    split at hc
    · cases hc
    · rename_i hn
      have hlen : filebuf.length ≤ f.remaining := by
        have hle := hbuf.length_le
        rwa [fileRest_of_some hf', length_fileBytes] at hle
      have hadvance : ∀ v : Outlet, v.file = some { f with offset := f.offset + n } →
          v.fileRest env = (c.outlet.fileRest env).drop n := fun v hv =>
        fileRest_advance hf' hv (by omega)
      obtain ⟨more, hmore⟩ := hbuf
      have htake : (c.outlet.fileRest env).take n = filebuf.take n := by
        rw [← hmore, List.take_append_of_le_length (by omega)]
      have hdrop : (c.outlet.fileRest env).drop n = filebuf.drop n ++ more := by
        rw [← hmore, List.drop_append_of_le_length (by omega)]
      have hflow : Flowing env
          ⟨[], some { f with offset := f.offset + n }, filebuf.drop n,
            c.hist.write (filebuf.take n)⟩ := by
        refine h.move (filebuf.take n) rfl rfl ?_ ?_ (hplain _)
        · rw [pending_of_empty hq', pending_of_empty rfl, hadvance _ rfl, ← htake,
            List.take_append_drop]
        · rw [hadvance _ rfl, hdrop]
          exact List.prefix_append _ _
      split at hc
      · cases hc
        refine .inr (hflow.of_outlet ?_)
        rw [outlet_waitWritable]
        simp [Conn.outlet, hq]
      · cases hc
        refine .inr (hflow.of_outlet ?_)
        simp [Conn.outlet, hq]
  | wouldBlock want =>
    cases hc
    exact .inr (h.move [] (List.append_nil _).symm rfl rfl hbuf (hplain _))
  | failed =>
    cases hc
    exact .inl rfl

lemma sslFilePass_flowing {pread : Nat} (h : Flowing env c.outlet) (hssl : env.isSsl = true)
    (hq : c.sendQueue = []) (hf : c.file = some f) (hc : sslFilePass env f pread c r = some c') :
    c' = cleanup c ∨ Flowing env c'.outlet := by
  unfold sslFilePass at hc
  split at hc
  · exact sslFileWrite_flowing h hssl hq hf h.buffer hc
  · split at hc
    · cases hc
    · rename_i hle
      split at hc
      · cases hc
        exact .inl rfl
      · refine sslFileWrite_flowing h hssl hq hf ?_ hc
        have hf' : c.outlet.file = some f := hf
        rw [fileRest_of_some hf', ← take_fileBytes _ _ _ _ (show pread ≤ f.remaining by omega)]
        exact List.take_prefix _ _

end

/-! ## The other steps -/

/-- The invariant of a connection without backends. -/
structure Delivering (env : Env) (c : Conn) : Prop where
  upstream : c.upstream = none
  written : c.hist.written <+: c.hist.stream
  flowing : c.pc ≠ .closed → Flowing env c.outlet

lemma Flowing.written_le (h : Flowing env u) : u.hist.written <+: u.hist.stream := by
  rw [← h.stream]
  exact List.prefix_append _ _

lemma delivering_cleanup (h : Delivering env c) (hwritten : c'.hist.written = c.hist.written)
    (hreplies : c'.hist.replies = c.hist.replies) : Delivering env (cleanup c') where
  upstream := rfl
  written := by
    show c'.hist.written <+: c'.hist.stream
    rw [hwritten, History.stream, hreplies]
    exact h.written
  flowing := fun hne => absurd rfl hne

lemma Delivering.of_flowing (hup : c.upstream = none) (h : Flowing env c.outlet) :
    Delivering env c :=
  ⟨hup, h.written_le, fun _ => h⟩

lemma delivering_writes (h : Delivering env c) (hw : c' = cleanup c ∨ Writes c c')
    (hflow : c' = cleanup c ∨ Flowing env c'.outlet) : Delivering env c' := by
  rcases hw with rfl | hw
  · exact delivering_cleanup h rfl rfl
  · rcases hflow with rfl | hflow
    · exact delivering_cleanup h rfl rfl
    · exact .of_flowing (hw.upstream.trans h.upstream) hflow

lemma flowing_startWrite (h : Flowing env c.outlet) : Flowing env (startWrite c).outlet := by
  refine h.move [] (List.append_nil _).symm rfl ?_ h.buffer h.plain
  show (c.sendQueue.dropWhile (· = [])).flatten ++ _ = c.sendQueue.flatten ++ _
  rw [flatten_dropWhile_nil]
  rfl

/-- A framed response goes to the end of what is pending. -/
lemma Flowing.enqueue {id : Nat} (h : Flowing env u) (hfile : u.file = none)
    (hq : Enqueues env id u v) : Flowing env v := by
  obtain ⟨r, hreplies, hpending⟩ := hq.replied
  have hempty : u.sslFileBuffer = [] := by
    have hbuf := h.buffer
    rwa [Outlet.fileRest_of_none hfile, List.prefix_nil] at hbuf
  refine ⟨?_, ?_, fun _ => hq.sslFileBuffer.trans hempty⟩
  · rw [hq.written, hpending hfile, ← List.append_assoc, h.stream, History.stream, History.stream,
      hreplies]
    simp
  · rw [hq.sslFileBuffer, hempty]
    exact List.nil_prefix

lemma flowing_returnRead {caller : Caller} (h : Flowing env c.outlet) :
    Flowing env (returnRead caller (rearmReads c)).outlet := by
  have hrearm : (rearmReads c).outlet = c.outlet := by
    unfold rearmReads
    split <;> rfl
  rw [← hrearm] at h
  unfold returnRead
  split
  · exact h
  · split
    · exact h
    · exact flowing_startWrite h

lemma flowing_flushed (h : Flowing env c.outlet)
    (hrest : (c.file.map FileSlot.remaining).getD 0 = 0) :
    Flowing env { c.outlet with file := none, sslFileBuffer := [] } := by
  have hempty : c.outlet.fileRest env = [] := by
    cases hf : c.file with
    | none => exact Outlet.fileRest_of_none hf
    | some f =>
      have hzero : f.remaining = 0 := by simpa [hf] using hrest
      have hf' : c.outlet.file = some f := hf
      rw [fileRest_of_some hf', hzero, fileBytes]
  refine h.move [] (List.append_nil _).symm rfl ?_ List.nil_prefix fun _ => rfl
  show c.sendQueue.flatten ++ [] = c.sendQueue.flatten ++ c.outlet.fileRest env
  rw [hempty]

lemma delivering_flushed (h : Delivering env c) (hpc : c.pc = .writing)
    (hrest : (c.file.map FileSlot.remaining).getD 0 = 0) : Delivering env (flushedPass c) := by
  have hflow := flowing_flushed (h.flowing (by simp [hpc])) hrest
  unfold flushedPass
  dsimp only
  split
  · exact delivering_cleanup h rfl rfl
  · split
    · exact .of_flowing h.upstream hflow
    · exact .of_flowing h.upstream hflow

lemma delivering_event {i : Interest} {e : Event} (h : Delivering env c) (hpc : c.pc = .idle)
    (hc : eventPass i c e = some c') : Delivering env c' := by
  have hflow := h.flowing (by simp [hpc])
  rcases eventPass_cases hc with ⟨-, rfl⟩ | rfl | rfl
  · exact delivering_cleanup h rfl rfl
  · exact .of_flowing h.upstream (flowing_startWrite hflow)
  · exact .of_flowing h.upstream hflow

/-- A request or a refusal has been taken while no file was waiting. -/
lemma delivering_answered {c₁ : Conn} {t : Taken} (h : Delivering env c)
    (hflow : Flowing env c.outlet) (hfile : c.file = none)
    (hout : c₁.outlet = { c.outlet with hist := c.hist.take t })
    (hans : Answered env c.nextId false c₁ c') : Delivering env c' := by
  have hhist : c₁.hist = c.hist.take t := congrArg Outlet.hist hout
  cases hans with
  | closed hh =>
    refine delivering_cleanup h ?_ ?_
    · rw [hh, hhist, History.take]
    · rw [hh, hhist, History.take]
  | replied hq hup _ =>
    have hflow₁ : Flowing env c₁.outlet := by
      rw [hout]
      exact ⟨hflow.stream, hflow.buffer, hflow.plain⟩
    have hfile₁ : c₁.outlet.file = none := by
      rw [hout]
      exact hfile
    exact .of_flowing hup (hflow₁.enqueue hfile₁ hq)
  | inFlight hr => cases hr

/-! ## The run -/

lemma Delivering.step {l : Label} {s s' : Sys} (h : Delivering env s.conn)
    (hok : FileSent env s (.own l)) (hstep : connStep env l s = some s') :
    Delivering env s'.conn := by
  cases l with
  | event e =>
    obtain ⟨hpc, i, c, -, hc, rfl⟩ := connStep_event hstep
    exact delivering_event h hpc hc
  | recv r =>
    obtain ⟨caller, hpc, -, -, rfl⟩ := connStep_recv hstep
    have hflow := h.flowing (by simp [hpc])
    cases r with
    | data b => exact .of_flowing h.upstream ⟨hflow.stream, hflow.buffer, hflow.plain⟩
    | eof => exact delivering_cleanup h rfl rfl
    | wouldBlock => exact .of_flowing (by simpa [recvPass] using h.upstream) (flowing_returnRead hflow)
    | failed => exact delivering_cleanup h rfl rfl
  | resume =>
    obtain ⟨caller, hpc, -, rfl⟩ := connStep_resume hstep
    exact .of_flowing h.upstream (h.flowing (by simp [hpc]))
  | parse o =>
    obtain ⟨caller, hpc, -, hc⟩ := connStep_parse hstep
    have hflow := h.flowing (by simp [hpc])
    rw [hc]
    rcases parsePass_cases env o caller s.mgr h.upstream with
      ⟨-, p, r, b, hwait⟩ | ⟨htakes, t, c₁, hout, -, hans⟩
    · rw [hwait]
      exact .of_flowing h.upstream hflow
    · rw [hok.1] at hans
      exact delivering_answered h hflow (hok.2 htakes) hout hans
  | write r =>
    obtain ⟨hpc, front, rest, c, hq, hc, rfl⟩ := connStep_write hstep
    have hflow := h.flowing (by simp [hpc])
    refine delivering_writes h ((connStep_write_writes hstep).2.2.imp_left And.left) ?_
    split at hc
    · exact sslWritePass_flowing hflow hq hc
    · exact writevPass_flowing hflow hc
  | file pread r =>
    obtain ⟨hpc, hq, f, c, hf, hc, rfl⟩ := connStep_file hstep
    have hflow := h.flowing (by simp [hpc])
    refine delivering_writes h ((connStep_file_writes hstep).2.2.imp_left And.left) ?_
    split at hc
    · rename_i hssl
      exact sslFilePass_flowing hflow hssl hq hf hc
    · rename_i hssl
      exact sendfilePass_flowing hflow (by simpa using hssl) hq hf hc
  | flushed =>
    obtain ⟨hpc, -, hrest, rfl⟩ := connStep_flushed hstep
    exact delivering_flushed h hpc hrest
  | upstream idx fresh sur =>
    obtain ⟨-, st, hst, -⟩ := connStep_upstream hstep
    simp [h.upstream] at hst
  | deadline fresh sur =>
    obtain ⟨-, st, hst, -⟩ := connStep_deadline hstep
    simp [h.upstream] at hst
  | teardown =>
    obtain ⟨-, rfl⟩ := connStep_teardown hstep
    exact delivering_cleanup h rfl rfl

/-- **Integrity of the byte stream.** In every run in which no request goes to a backend and
nothing is taken while a file waits to be sent: what was written and what waits to be
written are the complete responses, one for each request or refusal that was taken,
in their order. A closed connection has written a part of that. -/
theorem pipelined_stream {env : Env} {m : UpstreamManager} {ls : List SoloLabel} {s : Sys}
    (hrun : Run (soloStep env) (FileSent env) ⟨m, {}⟩ ls s) :
    s.conn.hist.written <+: s.conn.hist.stream ∧
    (s.conn.pc ≠ .closed →
      s.conn.hist.written ++ s.conn.outlet.pending env = s.conn.hist.stream ∧
      s.conn.hist.replies.length = s.conn.hist.taken.length) ∧
    InOrder s.conn.hist := by
  have hinit : Delivering env {} := .of_flowing rfl ⟨rfl, List.nil_prefix, fun _ => rfl⟩
  have h : Delivering env s.conn := by
    refine hrun.invariant (I := fun (s : Sys) => Delivering env s.conn) hinit ?_
    rintro t (l | m') u ht hok hu
    · exact ht.step hok hu
    · cases hu
      exact ht
  have hserial : Serial s.conn := by
    refine serial_run (hrun.mono ?_)
    rintro t (l | m') hok
    · cases l with
      | parse o =>
        intro hstarts
        exact absurd (hok.1.symm.trans hstarts) Bool.false_ne_true
      | _ => trivial
    · trivial
  exact ⟨h.written, fun hopen => ⟨(h.flowing hopen).stream, (hserial.answered h.upstream hopen).symm⟩,
    hserial.order⟩

/-! ## A large file -/

/-- A plaintext gateway without routes that serves files. -/
def fileEnv : Env := { routes := [], isSsl := false, file := fun _ _ => 120 }

/-- The file system has a file that is one byte too large to be sent inline. -/
def largeFile : Oracle := { static := .found 3 (maxInline + 1) (ascii "/srv/large") }

/-- An activation that reads `input` and parses it with the given answers, and then a
write event. -/
def readThenWrite (input : Bytes) (answers : List Oracle) : List SoloLabel :=
  [.own (.event .readable), .own (.recv (.data input))] ++ answers.map (.own <| .parse ·) ++
    [.own (.parse {}), .own (.recv .wouldBlock), .own (.event .writable)]

def largeRequest : Bytes := ascii "GET /large HTTP/1.1\r\n\r\n"

/-- A response without a file and, behind it, the header and the first bytes of a large
file. -/
theorem pipelined_stream_largeRequest :
    ∃ s, Run (soloStep fileEnv) (FileSent fileEnv) ⟨noUpstreams, {}⟩
      (readThenWrite (unroutedRequest ++ largeRequest) [{}, largeFile] ++
        [.own (.write (.wrote 383)), .own (.file 0 (.wrote 3))]) s ∧
      s.conn.hist.replies.length = 2 ∧ s.conn.pc = .writing ∧
      s.conn.hist.written ++ s.conn.outlet.pending fileEnv = s.conn.hist.stream := by
  obtain ⟨s, hrun, heq⟩ :
      ∃ s, Run (soloStep fileEnv) (FileSent fileEnv) ⟨noUpstreams, {}⟩
        (readThenWrite (unroutedRequest ++ largeRequest) [{}, largeFile] ++
          [.own (.write (.wrote 383)), .own (.file 0 (.wrote 3))]) s ∧
        (s.conn.hist.replies.length, s.conn.pc) = (2, .writing) :=
    exists_run_of_exec (by decide +kernel)
  obtain ⟨hreplies, hpc⟩ := Prod.mk.inj heq
  obtain ⟨-, hopen, -⟩ := pipelined_stream hrun
  exact ⟨s, hrun, hreplies, hpc, (hopen (by simp [hpc])).1⟩

/-- A second request behind that for the large file: its response is written right
behind the header of the first, in place of the file. -/
theorem file_overtaken :
    ∃ s, Run (soloStep fileEnv) Any ⟨noUpstreams, {}⟩
      (readThenWrite (largeRequest ++ unroutedRequest) [largeFile, {}] ++
        [.own (.write (.wrote 230))]) s ∧
      ¬ s.conn.hist.written <+: s.conn.hist.stream := by
  obtain ⟨s, hrun, heq⟩ :
      ∃ s, Run (soloStep fileEnv) Any ⟨noUpstreams, {}⟩
        (readThenWrite (largeRequest ++ unroutedRequest) [largeFile, {}] ++
          [.own (.write (.wrote 230))]) s ∧
        decide (s.conn.hist.written <+: s.conn.hist.stream) = false :=
    exists_run_of_exec (by decide +kernel)
  exact ⟨s, hrun, of_decide_eq_false heq⟩

end EpollGateway.Handler
