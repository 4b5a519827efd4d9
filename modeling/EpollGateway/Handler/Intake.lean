import EpollGateway.Handler.Machine

/-! # The input side of a connection

Input passes through three fields of a connection: the read buffer, the parser
and the request the parser fills. `Intake` is these fields with the part of the
history that concerns them, and `Intake.next` is what a step does to them. Most
steps do nothing; a connection follows `Intake.next` step by step until it is
closed (`connStep_intake`). What is proved about `Intake.next` holds of every
connection (`run_intake`).
-/

namespace EpollGateway.Handler

open Bytes Http Upstream Machine

structure Intake where
  readBuf : Bytes := []
  parser : HttpParser := {}
  request : HttpRequest := {}
  received : Bytes := []
  taken : List Taken := []

def Conn.intake (c : Conn) : Intake :=
  ⟨c.readBuf, c.parser, c.request, c.hist.received, c.hist.taken⟩

variable (c : Conn)

/-! ## The abstract step -/

/-- The parser has completed the request `req`. -/
def Intake.complete (env : Env) (o : Oracle) (req : HttpRequest) (rest : Bytes) (i : Intake) :
    Intake :=
  { i with
    readBuf := rest
    parser := {}
    request := dispatched env o req
    taken := i.taken ++ [.request (dispatched env o req)] }

/-- The parser has refused the input. -/
def Intake.refuse (e : ParseError) (rest : Bytes) (i : Intake) : Intake :=
  { i with readBuf := rest, parser := {}, request := {}, taken := i.taken ++ [.refusal e] }

def Intake.parse (env : Env) (o : Oracle) (i : Intake) : Intake :=
  let q := i.parser.parse i.request i.readBuf
  let rest := i.readBuf.drop q.consumed
  if q.complete then i.complete env o q.request rest
  else if q.parser.parseError ≠ .none then i.refuse q.parser.parseError rest
  else { i with readBuf := rest, parser := q.parser, request := q.request }

def Intake.receive (b : Bytes) (i : Intake) : Intake :=
  { i with readBuf := i.readBuf ++ b, received := i.received ++ b }

/-- What a step does to the input side of an open connection. -/
def Intake.next (env : Env) : Label → Intake → Intake
  | .recv (.data b), i => i.receive b
  | .parse o, i => i.parse env o
  | _, i => i

section

variable {env : Env} {o : Oracle} {i : Intake}

lemma Intake.parse_complete (h : (i.parser.parse i.request i.readBuf).complete = true) :
    i.parse env o = i.complete env o (i.parser.parse i.request i.readBuf).request
      (i.readBuf.drop (i.parser.parse i.request i.readBuf).consumed) :=
  if_pos h

lemma Intake.parse_refuse (h : ¬ (i.parser.parse i.request i.readBuf).complete = true)
    (he : (i.parser.parse i.request i.readBuf).parser.parseError ≠ .none) :
    i.parse env o = i.refuse (i.parser.parse i.request i.readBuf).parser.parseError
      (i.readBuf.drop (i.parser.parse i.request i.readBuf).consumed) :=
  (if_neg h).trans (if_pos he)

lemma Intake.parse_wait (h : ¬ (i.parser.parse i.request i.readBuf).complete = true)
    (he : ¬ (i.parser.parse i.request i.readBuf).parser.parseError ≠ .none) :
    i.parse env o =
      { i with
        readBuf := i.readBuf.drop (i.parser.parse i.request i.readBuf).consumed
        parser := (i.parser.parse i.request i.readBuf).parser
        request := (i.parser.parse i.request i.readBuf).request } :=
  (if_neg h).trans (if_neg he)

end

/-! ## Frame lemmas

The output side does not touch the input side.
-/

@[simp] lemma intake_rearmReads : (rearmReads c).intake = c.intake := by
  unfold rearmReads
  split <;> rfl

@[simp] lemma intake_returnRead (caller : Caller) (c : Conn) :
    (returnRead caller c).intake = c.intake := by
  unfold returnRead
  split
  · rfl
  · split <;> rfl

@[simp] lemma intake_applyDrive (env : Env) (fresh : Fresh) (c : Conn) (d : Drive) :
    (applyDrive env fresh c d).1.intake = c.intake := by
  cases d <;> rfl

@[simp] lemma intake_afterDrive (r : Conn × Bool) : (afterDrive r).intake = r.1.intake := by
  unfold afterDrive
  split <;> rfl

@[simp] lemma intake_staticFallback (env : Env) (o : Oracle) (id : Nat) (req : HttpRequest)
    (c : Conn) : (staticFallback env o id req c).intake = c.intake := by
  unfold staticFallback
  dsimp only
  split
  · rfl
  · split
    · rfl
    · rfl
    · rfl
    · split <;> rfl

@[simp] lemma intake_applyStart (env : Env) (fresh : Fresh) (id : Nat) (req : HttpRequest)
    (c : Conn) (start : Start) : (applyStart env fresh id req c start).1.intake = c.intake := by
  cases start with
  | answer resp => rfl
  | published d => exact intake_applyDrive env fresh c d
  | threw => rfl

@[simp] lemma intake_sendResponse (env : Env) (o : Oracle) (m : UpstreamManager) (id : Nat)
    (req : HttpRequest) (route : Option RegisteredRoute) (c : Conn) :
    (sendResponse env o m id req route c).2.1.intake = c.intake := by
  unfold sendResponse
  cases route with
  | none => exact intake_staticFallback env o id req _
  | some reg =>
    dsimp only
    split
    · exact intake_applyStart env o.fresh id req _ _
    · exact intake_applyStart env o.fresh id req _ _
    · split <;> rfl

/-! ## The connection follows the abstract step -/

/-- The input side is `i`, or the connection was closed with the history of `i`. -/
def Settles (c : Conn) (i : Intake) : Prop :=
  c.intake = i ∨ c.pc = .closed ∧ c.hist.received = i.received ∧ c.hist.taken = i.taken

lemma settles_cleanup : Settles (cleanup c) c.intake := .inr ⟨rfl, rfl, rfl⟩

/-- Whatever the answer to a request is, its parser is reset. -/
lemma answerRequest_settles (env : Env) (o : Oracle) (caller : Caller) (m : UpstreamManager)
    (id : Nat) (req : HttpRequest) (resolved : ResolvedRoute) (c : Conn) :
    Settles (answerRequest env o caller m id req resolved c).2 { c.intake with parser := {} } := by
  unfold answerRequest
  split
  · split
    · exact .inl rfl
    · left
      have hframe := intake_sendResponse env o m id req none c
      rw [← hframe]
      rfl
  · rename_i reg hroute
    split
    · exact .inl rfl
    · have hframe := intake_sendResponse env o m id req (some reg)
        { c with keepAlive := wantsKeepAlive req }
      split
      · rename_i m' c' heq
        rw [heq] at hframe
        right
        exact ⟨rfl, congrArg Intake.received hframe, congrArg Intake.taken hframe⟩
      · rename_i m' c' heq
        rw [heq] at hframe
        left
        exact congrArg (fun i : Intake => { i with parser := {} }) hframe

lemma parsePass_settles (env : Env) (o : Oracle) (caller : Caller) (m : UpstreamManager)
    (c : Conn) : Settles (parsePass env o caller m c).2 (c.intake.parse env o) := by
  unfold parsePass
  dsimp only
  split
  · rename_i hcomplete
    rw [Intake.parse_complete hcomplete]
    exact answerRequest_settles env o caller m _ _ _ _
  · rename_i hcomplete
    split
    · rename_i herr
      rw [Intake.parse_refuse hcomplete herr]
      left
      unfold refuse
      dsimp only
      split <;> rfl
    · rename_i herr
      rw [Intake.parse_wait hcomplete herr]
      exact .inl rfl

lemma Writes.intake {c c' : Conn} (h : Writes c c') : c'.intake = c.intake := by
  simp [Conn.intake, h.readBuf, h.parser, h.request, h.received, h.taken]

lemma settles_writes {c c' : Conn} (h : c' = cleanup c ∨ Writes c c') : Settles c' c.intake := by
  rcases h with rfl | h
  · exact settles_cleanup c
  · exact .inl h.intake

lemma eventPass_settles {i : Interest} {e : Event} {c c' : Conn} (h : eventPass i c e = some c') :
    Settles c' c.intake := by
  rcases eventPass_cases h with ⟨-, rfl⟩ | rfl | rfl
  · exact settles_cleanup c
  · exact .inl rfl
  · exact .inl rfl

lemma flushedPass_settles : Settles (flushedPass c) c.intake := by
  unfold flushedPass
  dsimp only
  split
  · exact .inr ⟨rfl, rfl, rfl⟩
  · split <;> exact .inl rfl

/-- Every step of a connection is a step of its input side, or closes it. -/
lemma connStep_intake {env : Env} {l : Label} {s s' : Sys} (h : connStep env l s = some s') :
    Settles s'.conn (s.conn.intake.next env l) := by
  cases l with
  | event e =>
    obtain ⟨-, i, c, -, hc, rfl⟩ := connStep_event h
    exact eventPass_settles hc
  | recv r =>
    obtain ⟨caller, -, -, -, rfl⟩ := connStep_recv h
    cases r with
    | data b => exact .inl rfl
    | eof => exact settles_cleanup _
    | wouldBlock => exact .inl (by simp [recvPass, Intake.next])
    | failed => exact settles_cleanup _
  | resume =>
    obtain ⟨caller, -, -, rfl⟩ := connStep_resume h
    exact .inl rfl
  | parse o =>
    obtain ⟨caller, -, -, hc⟩ := connStep_parse h
    rw [hc]
    exact parsePass_settles env o caller s.mgr s.conn
  | write r => exact settles_writes ((connStep_write_writes h).2.2.imp_left And.left)
  | file pread r => exact settles_writes ((connStep_file_writes h).2.2.imp_left And.left)
  | flushed =>
    obtain ⟨-, -, -, rfl⟩ := connStep_flushed h
    exact flushedPass_settles s.conn
  | upstream idx fresh sur =>
    obtain ⟨-, st, -, rfl⟩ := connStep_upstream h
    exact .inl (by simp [Intake.next])
  | deadline fresh sur =>
    obtain ⟨-, st, -, -, rfl⟩ := connStep_deadline h
    exact .inl (by simp [Intake.next])
  | teardown =>
    obtain ⟨-, rfl⟩ := connStep_teardown h
    exact settles_cleanup _

/-- Only a pass of the parser takes anything. -/
lemma connStep_taken {env : Env} {l : Label} {s s' : Sys} (h : connStep env l s = some s')
    (hl : ∀ o, l ≠ .parse o) : s'.conn.hist.taken = s.conn.hist.taken := by
  have hnext : (s.conn.intake.next env l).taken = s.conn.hist.taken := by
    cases l with
    | recv r => cases r <;> rfl
    | parse o => exact absurd rfl (hl o)
    | _ => rfl
  rcases connStep_intake h with heq | ⟨-, -, htaken⟩
  · rw [← heq] at hnext
    exact hnext
  · exact htaken.trans hnext

lemma connStep_closed {env : Env} {l : Label} {s : Sys} (h : s.conn.pc = .closed) :
    connStep env l s = none := by
  simp [connStep, h]

/-- The rule of this file: an invariant of the input side bounds the history of
every run. -/
lemma run_intake {env : Env} {ok : Sys → SoloLabel → Prop} {s t : Sys} {ls : List SoloLabel}
    {I : Intake → Prop} {P : Bytes → List Taken → Prop} (hP : ∀ i, I i → P i.received i.taken)
    (hrun : Run (soloStep env) ok s ls t) (hinit : I s.conn.intake)
    (hstep : ∀ u l, I u.conn.intake → ok u (.own l) → I (u.conn.intake.next env l)) :
    P t.conn.hist.received t.conn.hist.taken := by
  have hinv : P t.conn.hist.received t.conn.hist.taken ∧
      (I t.conn.intake ∨ t.conn.pc = .closed) := by
    refine hrun.invariant (I := fun u => P u.conn.hist.received u.conn.hist.taken ∧
      (I u.conn.intake ∨ u.conn.pc = .closed)) ⟨hP _ hinit, .inl hinit⟩ ?_
    rintro u (l | m) u' ⟨hPu, hu⟩ hok hl
    · rcases hu with hI | hclosed
      · have hI' := hstep u l hI hok
        rcases connStep_intake hl with heq | ⟨hpc, hrec, htaken⟩
        · rw [← heq] at hI'
          exact ⟨hP _ hI', .inl hI'⟩
        · rw [hrec, htaken]
          exact ⟨hP _ hI', .inr hpc⟩
      · rw [soloStep, connStep_closed hclosed] at hl
        cases hl
    · cases hl
      exact ⟨hPu, hu⟩
  exact hinv.1

end EpollGateway.Handler
