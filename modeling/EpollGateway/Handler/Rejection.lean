import EpollGateway.Handler.Intake

/-! # After a refusal

The malformed branch of `handle_read` queues an error page, resets parser and
request and leaves the inner loop. The outer loop then goes on with what is left
in the buffer, or with the next read, and a request that starts there is
dispatched (`request_after_refusal`). Nothing is dispatched if no byte follows
the one that was refused (`rejection_final`).
-/

namespace EpollGateway.Handler

open Bytes Http Upstream Machine

/-- No byte follows a refused one: a read returns data only while nothing has been
refused, and a refusing parse fails at the last byte of the buffer. -/
def NothingFollows (s : Sys) : SoloLabel → Prop
  | .own (.recv (.data _)) => ∀ t ∈ s.conn.hist.taken, t.isRequest = true
  | .own (.parse _) =>
    let q := s.conn.parser.parse s.conn.request s.conn.readBuf
    q.complete = false → q.parser.parseError ≠ .none → q.consumed = s.conn.readBuf.length
  | _ => True

instance (s : Sys) : (l : SoloLabel) → Decidable (NothingFollows s l)
  | .own (.recv (.data _)) =>
    inferInstanceAs (Decidable (∀ t ∈ s.conn.hist.taken, t.isRequest = true))
  | .own (.parse _) =>
    inferInstanceAs (Decidable
      ((s.conn.parser.parse s.conn.request s.conn.readBuf).complete = false →
        (s.conn.parser.parse s.conn.request s.conn.readBuf).parser.parseError ≠ .none →
        (s.conn.parser.parse s.conn.request s.conn.readBuf).consumed = s.conn.readBuf.length))
  | .own (.event _) | .own (.recv .eof) | .own (.recv .wouldBlock)
  | .own (.recv .failed) | .own .resume | .own (.write _) | .own (.file _ _)
  | .own .flushed | .own (.upstream _ _ _) | .own (.deadline _ _) | .own .teardown | .others _ =>
    inferInstanceAs (Decidable True)

/-- A request is preceded by requests only. -/
def RejectionFinal (taken : List Taken) : Prop :=
  taken.Pairwise fun a b => b.isRequest = true → a.isRequest = true

/-- A refusal has left neither input nor a parser that has seen any. -/
structure Dropped (i : Intake) : Prop where
  final : RejectionFinal i.taken
  empty : (∃ t ∈ i.taken, t.isRequest = false) → i.readBuf = [] ∧ i.parser = {}

variable {i : Intake}

/-- With an empty buffer the parser waits. -/
lemma Dropped.parse_nil {env : Env} {o : Oracle} (h : Dropped i) (hbuf : i.readBuf = [])
    (hparser : i.parser = {}) : Dropped (i.parse env o) := by
  have hq : i.parser.parse i.request i.readBuf = ⟨false, {}, i.request, 0⟩ := by
    rw [hbuf, hparser]
    rfl
  rw [Intake.parse_wait (by simp [hq]) (by simp [hq])]
  refine ⟨h.final, fun _ => ?_⟩
  rw [hq]
  exact ⟨hbuf, rfl⟩

lemma Dropped.complete {env : Env} {o : Oracle} (hreq : ∀ t ∈ i.taken, t.isRequest = true)
    (h : Dropped i) (req : HttpRequest) (rest : Bytes) : Dropped (i.complete env o req rest) where
  final := by
    refine List.pairwise_append.mpr ⟨h.final, List.pairwise_singleton _ _, ?_⟩
    intro a ha _ _ _
    exact hreq a ha
  empty := by
    rintro ⟨t, ht, hf⟩
    rcases List.mem_append.mp ht with ht | ht
    · simp [hreq t ht] at hf
    · rw [List.mem_singleton.mp ht] at hf
      cases hf

lemma Dropped.refuse (h : Dropped i) (e : ParseError) : Dropped (i.refuse e []) where
  final := by
    refine List.pairwise_append.mpr ⟨h.final, List.pairwise_singleton _ _, ?_⟩
    intro a _ b hb hreq
    rw [List.mem_singleton.mp hb] at hreq
    cases hreq
  empty := fun _ => ⟨rfl, rfl⟩

/-- One pass of the parser keeps the invariant. -/
lemma Dropped.parse {env : Env} {o : Oracle} (h : Dropped i)
    (hlast : (i.parser.parse i.request i.readBuf).complete = false →
      (i.parser.parse i.request i.readBuf).parser.parseError ≠ .none →
      (i.parser.parse i.request i.readBuf).consumed = i.readBuf.length) :
    Dropped (i.parse env o) := by
  by_cases hrefused : ∃ t ∈ i.taken, t.isRequest = false
  · obtain ⟨hbuf, hparser⟩ := h.empty hrefused
    exact h.parse_nil hbuf hparser
  · have hreq : ∀ t ∈ i.taken, t.isRequest = true := by simpa using hrefused
    by_cases hcomplete : (i.parser.parse i.request i.readBuf).complete = true
    · rw [Intake.parse_complete hcomplete]
      exact Dropped.complete hreq h _ _
    · by_cases herr : (i.parser.parse i.request i.readBuf).parser.parseError ≠ .none
      · rw [Intake.parse_refuse hcomplete herr, hlast (by simpa using hcomplete) herr,
          List.drop_length]
        exact h.refuse _
      · rw [Intake.parse_wait hcomplete herr]
        exact ⟨h.final, fun hf => absurd hf hrefused⟩

/-- **Rejection is final when nothing follows.** In every run in which no byte
follows a refused one, no request is dispatched after a refusal. -/
theorem rejection_final {env : Env} {m : UpstreamManager} {ls : List SoloLabel} {s : Sys}
    (hrun : Run (soloStep env) NothingFollows ⟨m, {}⟩ ls s) :
    RejectionFinal s.conn.hist.taken := by
  refine run_intake (I := Dropped) (P := fun _ taken => RejectionFinal taken) (fun i h => h.final)
    hrun ⟨List.Pairwise.nil, fun h => by simp [Conn.intake] at h⟩ ?_
  intro u l h hok
  cases l with
  | recv r =>
    cases r with
    | data b =>
      refine ⟨h.final, ?_⟩
      rintro ⟨t, ht, hf⟩
      rw [hok t ht] at hf
      cases hf
    | _ => exact h
  | parse o => exact h.parse hok
  | _ => exact h

/-! ## A run in which something follows -/

/-- A header line without a colon; the refused byte is the last one. -/
def malformedInput : Bytes := ascii "GET /a HTTP/1.1\r\nHost\r\n"

/-- The labels of an activation that reads and parses the malformed input. -/
def malformedRun (input : Bytes) : List SoloLabel :=
  [.own (.event .readable), .own (.recv (.data input)), .own (.parse {})]

theorem rejection_final_malformedInput :
    ∃ s, Run (soloStep bareEnv) NothingFollows ⟨noUpstreams, {}⟩ (malformedRun malformedInput) s ∧
      s.conn.hist.taken.map Taken.isRequest = [false] ∧ RejectionFinal s.conn.hist.taken := by
  obtain ⟨s, hrun, htaken⟩ :
      ∃ s, Run (soloStep bareEnv) NothingFollows ⟨noUpstreams, {}⟩ (malformedRun malformedInput) s ∧
        s.conn.hist.taken.map Taken.isRequest = [false] := exists_run_of_exec (by decide +kernel)
  exact ⟨s, hrun, htaken, rejection_final hrun⟩

/-- The same input with a request behind the refused byte: the outer loop finds
the request in the buffer and dispatches it. -/
theorem request_after_refusal :
    ∃ s, Run (soloStep bareEnv) Any ⟨noUpstreams, {}⟩
      (malformedRun (malformedInput ++ ascii "GET /b HTTP/1.1\r\n\r\n") ++
        [.own .resume, .own (.parse {})]) s ∧
      ¬ RejectionFinal s.conn.hist.taken := by
  obtain ⟨s, hrun, htaken⟩ :
      ∃ s, Run (soloStep bareEnv) Any ⟨noUpstreams, {}⟩
        (malformedRun (malformedInput ++ ascii "GET /b HTTP/1.1\r\n\r\n") ++
          [.own .resume, .own (.parse {})]) s ∧
        s.conn.hist.taken.map Taken.isRequest = [false, true] :=
    exists_run_of_exec (by decide +kernel)
  refine ⟨s, hrun, ?_⟩
  intro hfinal
  have hmap : (s.conn.hist.taken.map Taken.isRequest).Pairwise fun a b => b = true → a = true :=
    List.pairwise_map.mpr hfinal
  rw [htaken] at hmap
  simp at hmap

end EpollGateway.Handler
