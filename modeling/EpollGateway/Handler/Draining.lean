import EpollGateway.Handler.ClientHead
import EpollGateway.Handler.Flight
import EpollGateway.Handler.Serial
import EpollGateway.Handler.Isolation

/-! # Waiting for requests in part

At shutdown `drain_connections` closes every connection for which `has_inflight_work`
says no. That function looks into the read buffer for a request that has arrived in
part. But the parser uses the buffer up as long as a request is not complete, so between
two events the buffer is empty unless an earlier request is still being answered
(`rested_run`): what has arrived of a request is in the parser, where nobody looks, and
the connection is closed (`partial_request_closed`). A request in part is waited for
exactly when an earlier one is (`draining_waits_iff`).
-/

namespace EpollGateway.Handler

open Bytes Http Upstream Machine Feed

/-! ## The question -/

/-- `has_inflight_work`; `request_ready_` is never true. -/
def hasInflightWork (c : Conn) : Bool :=
  c.upstream.isSome || c.readBuf ≠ [] || c.sendQueue ≠ [] || c.file.isSome

/-- An earlier request is still being answered: its exchange is in flight, or part of a
response is not written. -/
def Conn.Busy (c : Conn) : Prop :=
  c.upstream.isSome = true ∨ c.sendQueue ≠ [] ∨ c.file.isSome = true

/-- A connection with the bytes that have arrived behind the last request that was
completed or refused; these are not in the source. -/
structure Watched where
  sys : Sys
  part : Bytes := []

def partAfter (c : Conn) (part : Bytes) : SoloLabel → Bytes
  | .own (.recv (.data b)) => part ++ b
  | .own (.parse _) =>
    if c.takes then c.readBuf.drop (c.parser.parse c.request c.readBuf).consumed else part
  | _ => part

def watchStep (env : Env) (l : SoloLabel) (w : Watched) : Option Watched :=
  (soloStep env l w.sys).map fun s => ⟨s, partAfter w.sys.conn w.part l⟩

/-! ## The part of a request -/

/-- The input side holds `part`: it is the end of what has been received, and the parser
has read it up to the read buffer, from a fresh start and without finishing. -/
def Intake.Holds (i : Intake) (part : Bytes) : Prop :=
  ∃ before R read, i.received = before ++ part ∧ part = read ++ i.readBuf ∧
    Leads HttpParser.step ({}, R) read (i.parser, i.request)

def Watched.Held (w : Watched) : Prop := w.sys.conn.pc = .closed ∨ w.sys.conn.intake.Holds w.part

/-- Between two events there is input in the buffer only while the connection is busy. -/
def Conn.Rested (c : Conn) : Prop := c.pc = .idle → c.readBuf ≠ [] → c.Busy

section

variable {env : Env} {c c' : Conn}

/-! ## Steps that end between two events -/

lemma busy_of_queue (hq : c.sendQueue ≠ []) : c.Busy := .inr (.inl hq)

lemma queued_ne_nil (isSsl : Bool) (header body : Bytes) :
    queueChunks isSsl header body ≠ [] := by
  unfold queueChunks
  split
  · simp
  · split <;> simp

/-- A driven exchange is in flight, or its response is queued. -/
lemma afterDrive_busy (fresh : Fresh) (d : Drive)
    (hidle : (afterDrive (applyDrive env fresh c d)).pc = .idle) :
    (afterDrive (applyDrive env fresh c d)).Busy := by
  cases d with
  | inFlight st => exact .inl rfl
  | respond st resp =>
    refine busy_of_queue ?_
    simp [afterDrive, applyDrive, finalizeResponse, queued_ne_nil]
  | threw st => cases hidle

/-- A request leaves `handle_read` only with its exchange in flight. -/
lemma answerRequest_idle (o : Oracle) (caller : Caller) (m : UpstreamManager) (id : Nat)
    (req : HttpRequest) (resolved : ResolvedRoute)
    (hidle : (answerRequest env o caller m id req resolved c).2.pc = .idle) :
    (answerRequest env o caller m id req resolved c).2.upstream.isSome = true := by
  revert hidle
  unfold answerRequest
  split
  · split
    · intro hidle
      cases hidle
    · intro hidle
      cases hidle
  · split
    · intro hidle
      cases hidle
    · split
      · intro hidle
        cases hidle
      · rename_i c' _
        intro hidle
        dsimp only at hidle ⊢
        by_cases hup : c'.upstream.isSome = true
        · exact hup
        · rw [if_neg hup] at hidle
          cases hidle

lemma parsePass_idle (o : Oracle) (caller : Caller) (m : UpstreamManager)
    (hidle : (parsePass env o caller m c).2.pc = .idle) : (parsePass env o caller m c).2.Busy := by
  unfold parsePass at hidle ⊢
  dsimp only at hidle ⊢
  split at hidle
  · rename_i hcomplete
    rw [if_pos hcomplete]
    exact .inl (answerRequest_idle o caller m _ _ _ hidle)
  · split at hidle
    · unfold refuse at hidle
      cases hidle
    · cases hidle

variable {r : WriteResult}

/-- Writing is given up for a while only with something left to write. -/
lemma writes_idle {front : Bytes} {rest : List Bytes} (hpc : c.pc = .writing)
    (hq : c.sendQueue = front :: rest)
    (h : (if env.isSsl then sslWritePass front rest c r else writevPass c r) = some c')
    (hidle : c'.pc = .idle) : c'.Busy := by
  have hne : c.sendQueue ≠ [] := by simp [hq]
  have hnot : c.pc ≠ .idle := by simp [hpc]
  split at h
  · cases r with
    | wrote n =>
      simp only [sslWritePass] at h
      split at h
      · cases h
      · split at h
        · cases h
          exact absurd hidle hnot
        · cases h
          exact busy_of_queue (by simp [waitWritable])
    | wouldBlock want =>
      cases h
      exact busy_of_queue hne
    | failed =>
      cases h
      cases hidle
  · cases r with
    | wrote n =>
      simp only [writevPass] at h
      split at h
      · cases h
        cases hidle
      · split at h
        · cases h
          exact absurd hidle hnot
        · cases h
    | wouldBlock want =>
      cases h
      exact busy_of_queue hne
    | failed =>
      cases h
      cases hidle

lemma sslFileWrite_idle {f : FileSlot} {filebuf : Bytes} (hf : c.file = some f)
    (h : sslFileWrite f filebuf c r = some c') (hidle : c'.pc = .idle) : c'.Busy := by
  cases r with
  | wrote n =>
    simp only [sslFileWrite] at h
    split at h
    · cases h
    · split at h <;> cases h <;> exact .inr (.inr rfl)
  | wouldBlock want =>
    cases h
    exact .inr (.inr (by simp [waitForSslWrite, hf]))
  | failed =>
    cases h
    cases hidle

lemma file_idle {f : FileSlot} {pread : Nat} (hf : c.file = some f)
    (h : (if env.isSsl then sslFilePass env f pread c r else sendfilePass env f c r) = some c')
    (hidle : c'.pc = .idle) : c'.Busy := by
  split at h
  · unfold sslFilePass at h
    split at h
    · exact sslFileWrite_idle hf h hidle
    · split at h
      · cases h
      · split at h
        · cases h
          cases hidle
        · exact sslFileWrite_idle hf h hidle
  · cases r with
    | wrote n =>
      simp only [sendfilePass] at h
      split at h
      · cases h
        exact .inr (.inr rfl)
      · cases h
    | wouldBlock want =>
      cases h
      exact .inr (.inr (by simp [waitWritable, hf]))
    | failed =>
      cases h
      cases hidle

end

variable {env : Env}

/-- Every step that ends between two events leaves a busy connection or an empty
buffer. -/
lemma connStep_rested {l : Label} {s t : Sys} (hstep : connStep env l s = some t) :
    t.conn.Rested := by
  intro hidle hbuf
  cases l with
  | event e =>
    rcases connStep_event hstep with ⟨-, i, c, -, hc, rfl⟩
    rcases eventPass_cases hc with ⟨-, rfl⟩ | rfl | rfl <;> cases hidle
  | recv r =>
    rcases connStep_recv hstep with ⟨caller, -, hempty, -, rfl⟩
    cases r with
    | data b => cases hidle
    | eof => cases hidle
    | wouldBlock =>
      -- the buffer was empty
      have hintake : (returnRead caller (rearmReads s.conn)).intake = s.conn.intake := by simp
      exact absurd ((congrArg Intake.readBuf hintake).trans hempty) hbuf
    | failed => cases hidle
  | resume =>
    rcases connStep_resume hstep with ⟨caller, -, -, rfl⟩
    cases hidle
  | parse o =>
    rcases connStep_parse hstep with ⟨caller, -, -, hc⟩
    rw [hc] at hidle ⊢
    exact parsePass_idle o caller s.mgr hidle
  | write r =>
    rcases connStep_write hstep with ⟨hpc, front, rest, c, hq, hc, rfl⟩
    exact writes_idle hpc hq hc hidle
  | file pread r =>
    rcases connStep_file hstep with ⟨-, -, f, c, hf, hc, rfl⟩
    exact file_idle hf hc hidle
  | flushed =>
    rcases connStep_flushed hstep with ⟨-, -, -, rfl⟩
    dsimp only at hidle hbuf ⊢
    unfold flushedPass at hidle hbuf ⊢
    dsimp only at hidle hbuf ⊢
    split at hidle
    · cases hidle
    · split at hidle
      · cases hidle
      · rename_i hkeep hempty
        rw [if_neg hkeep, if_neg hempty] at hbuf
        exact absurd hbuf hempty
  | upstream idx fresh sur =>
    rcases connStep_upstream hstep with ⟨-, st, -, rfl⟩
    dsimp only at hidle ⊢
    exact afterDrive_busy fresh _ hidle
  | deadline fresh sur =>
    rcases connStep_deadline hstep with ⟨-, st, -, -, rfl⟩
    dsimp only at hidle ⊢
    exact afterDrive_busy fresh _ hidle
  | teardown =>
    rcases connStep_teardown hstep with ⟨-, rfl⟩
    cases hidle

/-! ## Runs -/

/-- A request that is completed or refused ends the part. -/
lemma Intake.Holds.take {i i' : Intake} {part rest : Bytes} {k : Nat} (h : i.Holds part)
    (hrest : rest = i.readBuf.drop k) (hreceived : i'.received = i.received)
    (hbuf : i'.readBuf = rest) (hparser : i'.parser = {}) : i'.Holds rest := by
  rcases h with ⟨before, R, read, hold, hpart, -⟩
  refine ⟨before ++ read ++ i.readBuf.take k, i'.request, [], ?_, by rw [hbuf, List.nil_append], ?_⟩
  · rw [hreceived, hold, hpart, hrest, List.append_assoc, List.append_assoc,
      List.take_append_drop]
  · rw [hparser]
    exact Leads.nil _

/-- A parser that waits has used the buffer up. -/
lemma Intake.Holds.wait {i : Intake} {part : Bytes} (h : i.Holds part)
    (hcomplete : ¬ (i.parser.parse i.request i.readBuf).complete = true)
    (herror : ¬ (i.parser.parse i.request i.readBuf).parser.parseError ≠ .none) :
    Intake.Holds
      { i with
        readBuf := i.readBuf.drop (i.parser.parse i.request i.readBuf).consumed
        parser := (i.parser.parse i.request i.readBuf).parser
        request := (i.parser.parse i.request i.readBuf).request } part := by
  rcases h with ⟨before, R, read, hreceived, hpart, hread⟩
  have hhealthy : i.parser.Healthy := by
    have hfits := feed_fits (s := ({}, R)) healthy_fresh read
    unfold Leads at hread
    rwa [hread] at hfits
  have hmore : (feed HttpParser.step (i.parser, i.request) i.readBuf).flow = .more := by
    by_contra hstop
    refine outcome_of_stop hhealthy i.request hstop ?_
    unfold Parsed.outcome
    rw [if_neg hcomplete, if_neg herror]
  have hused : (i.parser.parse i.request i.readBuf).consumed = i.readBuf.length :=
    used_of_more hmore
  refine ⟨before, R, read ++ i.readBuf, hreceived, ?_, hread.append ?_⟩
  · rw [hused, List.drop_length, List.append_nil, hpart]
  · unfold Leads
    rw [← hmore, ← used_of_more hmore]
    rfl

lemma Conn.holds_parse {o : Oracle} {c : Conn} {part : Bytes} (h : c.intake.Holds part) :
    (c.intake.parse env o).Holds (partAfter c part (.own (.parse o))) := by
  simp only [partAfter]
  by_cases hcomplete : (c.parser.parse c.request c.readBuf).complete = true
  · rw [Intake.parse_complete hcomplete, if_pos (by simp [Conn.takes, hcomplete])]
    exact h.take rfl rfl rfl rfl
  · by_cases herror : (c.parser.parse c.request c.readBuf).parser.parseError ≠ .none
    · rw [Intake.parse_refuse hcomplete herror, if_pos (by simp [Conn.takes, herror])]
      exact h.take rfl rfl rfl rfl
    · rw [Intake.parse_wait hcomplete herror,
        if_neg (by simpa [Conn.takes, hcomplete] using herror)]
      exact h.wait hcomplete herror

lemma Watched.Held.step {w w' : Watched} {l : SoloLabel} (h : w.Held)
    (hstep : watchStep env l w = some w') : w'.Held := by
  rcases Option.map_eq_some_iff.mp hstep with ⟨t, ht, rfl⟩
  rcases l with l | m
  · rcases h with hclosed | hholds
    · rw [soloStep, connStep_closed hclosed] at ht
      cases ht
    · rcases connStep_intake ht with hintake | ⟨hclosed, -, -⟩
      · right
        show t.conn.intake.Holds _
        rw [hintake]
        cases l with
        | recv r =>
          cases r with
          | data b =>
            rcases hholds with ⟨before, R, read, hreceived, hpart, hread⟩
            refine ⟨before, R, read, ?_, ?_, hread⟩
            · show w.sys.conn.hist.received ++ b = before ++ (w.part ++ b)
              rw [← List.append_assoc]
              exact congrArg (· ++ b) hreceived
            · show w.part ++ b = read ++ (w.sys.conn.readBuf ++ b)
              rw [← List.append_assoc]
              exact congrArg (· ++ b) hpart
          | _ => exact hholds
        | parse o => exact Conn.holds_parse hholds
        | _ => exact hholds
      · exact .inl hclosed
  · cases ht
    exact h

/-- The part is what has arrived of a request that is neither complete nor refused. -/
theorem held_run {m : UpstreamManager} {ls : List SoloLabel} {w : Watched}
    (hrun : Run (watchStep env) Any ⟨⟨m, {}⟩, []⟩ ls w) : w.Held := by
  refine hrun.invariant (I := Watched.Held) ?_ fun _ _ _ h _ hstep => h.step hstep
  exact .inr ⟨[], {}, [], rfl, rfl, Leads.nil _⟩

lemma rested_run {m : UpstreamManager} {ls : List SoloLabel} {w : Watched}
    (hrun : Run (watchStep env) Any ⟨⟨m, {}⟩, []⟩ ls w) : w.sys.conn.Rested := by
  refine hrun.invariant (I := fun w : Watched => w.sys.conn.Rested) ?_ ?_
  · intro _ hbuf
    exact absurd rfl hbuf
  · rintro w l w' h - hstep
    rcases Option.map_eq_some_iff.mp hstep with ⟨t, ht, rfl⟩
    rcases l with l | m'
    · exact connStep_rested ht
    · cases ht
      exact h

/-- Between two events, a connection with a request in part is waited for exactly when
an earlier request is still being answered. -/
theorem draining_waits_iff {env : Env} {m : UpstreamManager} {ls : List SoloLabel} {w : Watched}
    (hrun : Run (watchStep env) Any ⟨⟨m, {}⟩, []⟩ ls w) (hidle : w.sys.conn.pc = .idle) :
    (w.part ≠ [] → hasInflightWork w.sys.conn = true) ↔ (w.part ≠ [] → w.sys.conn.Busy) := by
  have hrested := rested_run hrun hidle
  have hwork : hasInflightWork w.sys.conn = true ↔ w.sys.conn.Busy := by
    unfold hasInflightWork Conn.Busy at *
    simp only [Bool.or_eq_true, decide_eq_true_eq]
    tauto
  rw [hwork]

def partialInput : Bytes := ascii "GET /a HTTP/1.1\r\nHo"

/-- The worker reads what has arrived and goes back to the event loop. -/
def readPart (input : Bytes) : List SoloLabel :=
  readAndParse input 1 ++ [.own (.recv .wouldBlock)]

/-- What is seen of a connection. -/
def partSeen (w : Watched) : Bool × Bytes × Bool :=
  (w.sys.conn.pc = .idle, w.part, hasInflightWork w.sys.conn)

/-- Behind a request whose response is queued, a part of the next one. -/
theorem draining_waits_iff_queued :
    ∃ w, Run (watchStep bareEnv) Any ⟨⟨noUpstreams, {}⟩, []⟩
      (readAndParse (unroutedRequest ++ partialInput) 2 ++ [.own (.recv .wouldBlock)]) w ∧
      w.sys.conn.pc = .idle ∧ w.part = partialInput ∧ hasInflightWork w.sys.conn = true := by
  obtain ⟨w, hrun, hseen⟩ := exists_run_of_exec
    (f := fun w : Watched =>
      ((w.sys.conn.pc = .idle : Bool), w.part, (w.sys.conn.sendQueue ≠ [] : Bool)))
    (show (exec (watchStep bareEnv) Any
      (readAndParse (unroutedRequest ++ partialInput) 2 ++ [.own (.recv .wouldBlock)])
      ⟨⟨noUpstreams, {}⟩, []⟩).map _ = some (true, partialInput, true) by decide +kernel)
  simp only [Prod.mk.injEq, decide_eq_true_eq] at hseen
  rcases hseen with ⟨hidle, hpart, hqueue⟩
  have hne : w.part ≠ [] := by
    rw [hpart]
    decide
  refine ⟨w, hrun, hidle, hpart, ?_⟩
  exact (draining_waits_iff hrun hidle).mpr (fun _ => busy_of_queue hqueue) hne

/-- A part of a request is all that has arrived. It is in the parser, and the connection
counts as idle. -/
theorem partial_request_closed :
    ∃ w, Run (watchStep bareEnv) Any ⟨⟨noUpstreams, {}⟩, []⟩ (readPart partialInput) w ∧
      w.sys.conn.pc = .idle ∧ w.part = partialInput ∧ hasInflightWork w.sys.conn = false := by
  obtain ⟨w, hrun, hseen⟩ := exists_run_of_exec (f := partSeen)
    (show (exec (watchStep bareEnv) Any (readPart partialInput)
      ⟨⟨noUpstreams, {}⟩, []⟩).map partSeen = some (true, partialInput, false) by decide +kernel)
  simp only [partSeen, Prod.mk.injEq, decide_eq_true_eq] at hseen
  exact ⟨w, hrun, hseen⟩

theorem held_run_partial : ∃ w, Run (watchStep bareEnv) Any ⟨⟨noUpstreams, {}⟩, []⟩
    (readPart partialInput) w ∧ w.part = partialInput ∧ w.Held := by
  obtain ⟨w, hrun, hpart⟩ : ∃ w, Run (watchStep bareEnv) Any ⟨⟨noUpstreams, {}⟩, []⟩
      (readPart partialInput) w ∧ w.part = partialInput := exists_run_of_exec (by decide +kernel)
  exact ⟨w, hrun, hpart, held_run hrun⟩

end EpollGateway.Handler
