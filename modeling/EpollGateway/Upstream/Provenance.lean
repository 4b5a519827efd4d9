import EpollGateway.Lib.Run
import EpollGateway.Upstream.Cap

/-! # Where the bytes of a response come from

Exchanges share connections through the pool. A connection carries the stream of all
bytes that its backend ever sends, and the backend sends when it likes. `origins`
follows the bytes in the buffer of an exchange back to the stream they were taken
from; `mark` is the length of the stream when the exchange wrote the first byte of
its request. A byte is its own if it stands behind the mark.

The pool hands over what the last exchange on a connection has read too much, and
the liveness probe takes unread bytes for a sign of life. When neither is there as an
exchange begins to send, its response is made of its own bytes.
-/

namespace EpollGateway.Upstream

open Bytes Machine Function

/-! ## Model -/

/-- A connection: what its backend has sent, and how much of that has been read. -/
structure Wire where
  stream : Bytes := []
  read : Nat := 0

/-- What waits on the socket. -/
def Wire.unread (c : Wire) : Bytes := c.stream.drop c.read

/-- An exchange and where it got its buffer from. None of the other fields is in the
source: `conn` is the connection it used last, `origins` has the place of each byte
of the buffer in the stream, or `none` for a byte that an earlier exchange read. -/
structure Flow where
  ex : Exchange
  conn : Nat := 0
  origins : List (Option Nat) := []
  mark : Nat := 0

structure Network where
  pool : Pool := fun _ => []
  wires : Nat → Wire := fun _ => {}
  flows : Nat → Option Flow := fun _ => none

inductive NetLabel where
  | start (i : Nat) (params : Params)
  | backend (conn : Nat) (data : Bytes)
  | pass (i : Nat) (a : Answers)
  | reuse (i : Nat) (now : Nat)

/-- The bytes that a receive brings are the next ones on the socket. -/
def Delivers (c : Wire) (a : Answers) : Prop :=
  match a.recv with
  | .bytes data => data <+: c.unread
  | _ => True

instance (c : Wire) (a : Answers) : Decidable (Delivers c a) :=
  match h : a.recv with
  | .bytes data => decidable_of_iff (data <+: c.unread) (by simp [Delivers, h])
  | .again => .isTrue (by simp [Delivers, h])
  | .failed => .isTrue (by simp [Delivers, h])
  | .threw => .isTrue (by simp [Delivers, h])

/-- How many bytes a pass has received. -/
def received (x x' : Exchange) : Nat :=
  if x.phase = .read then x'.responseBytes.length - x.responseBytes.length else 0

/-- A pass writes the first byte of the request. -/
def BeginsToSend (x x' : Exchange) : Prop := x.sendOff = 0 ∧ 0 < x'.sendOff

instance (x x' : Exchange) : Decidable (BeginsToSend x x') := inferInstanceAs (Decidable (_ ∧ _))

/-- The flow after a pass that makes `x'` of its exchange. -/
def Flow.next (f : Flow) (c : Wire) (x' : Exchange) : Flow :=
  { ex := x'
    conn := x'.sock.getD f.conn
    origins :=
      if f.ex.phase = .connect then List.replicate x'.responseBytes.length none
      else
        (f.origins ++ (List.range' c.read (received f.ex x')).map some).take x'.responseBytes.length
    mark := if BeginsToSend f.ex x' then c.stream.length else f.mark }

/-- One step of the backends, of an exchange, or of the handler that owns one. -/
def netStep : NetLabel → Network → Option Network
  | .start i params, w =>
    match w.flows i with
    | some _ => none
    | none => some { w with flows := update w.flows i (some { ex := Exchange.start params }) }
  | .backend conn data, w =>
    let c := w.wires conn
    some { w with wires := update w.wires conn { c with stream := c.stream ++ data } }
  | .pass i a, w =>
    (w.flows i).bind fun f =>
      let c := w.wires f.conn
      if (f.ex.phase ≠ .done ∧ f.ex.phase ≠ .stuck) ∧ Delivers c a then
        let x := (f.ex.pass w.pool a).2
        some
          { pool := (f.ex.pass w.pool a).1
            wires := update w.wires f.conn { c with read := c.read + received f.ex x }
            flows := update w.flows i (some (f.next c x)) }
      else none
  | .reuse i now, w =>
    (w.flows i).map fun f =>
      { w with
        pool := (f.ex.reuseToPool w.pool now).1
        flows := update w.flows i (some { f with ex := (f.ex.reuseToPool w.pool now).2 }) }

/-- An exchange begins to send with an empty buffer on a connection without unread
bytes. -/
def CleanStart (w : Network) : NetLabel → Prop
  | .pass i a =>
    ∀ f ∈ w.flows i, BeginsToSend f.ex (f.ex.pass w.pool a).2 →
      f.ex.responseBytes = [] ∧ (w.wires f.conn).unread = []
  | _ => True

instance (w : Network) (l : NetLabel) : Decidable (CleanStart w l) :=
  match l with
  | .pass i a =>
    inferInstanceAs (Decidable (∀ f ∈ w.flows i, BeginsToSend f.ex (f.ex.pass w.pool a).2 → _ ∧ _))
  | .start .. => .isTrue trivial
  | .backend .. => .isTrue trivial
  | .reuse .. => .isTrue trivial

/-- Every byte of the buffer is one that the backend sent after the exchange began to
send. -/
def Flow.Own (f : Flow) (c : Wire) : Prop :=
  List.Forall₂ (fun b o => ∃ k, o = some k ∧ f.mark ≤ k ∧ c.stream[k]? = some b)
    f.ex.responseBytes f.origins

/-! ## The invariant -/

/-- An exchange that has begun to send has its own bytes only, and nothing older is
left to read. -/
structure Flow.Sound (f : Flow) (c : Wire) : Prop where
  connect : f.ex.phase = .connect → f.ex.sendOff = 0
  read : f.ex.phase = .read → 0 < f.ex.sendOff
  succeeded : f.ex.succeeded = true → f.ex.phase = .done ∧ 0 < f.ex.sendOff
  sock : ∀ s, f.ex.sock = some s → s = f.conn
  own : 0 < f.ex.sendOff → f.Own c ∧ f.mark ≤ c.read

/-- What the other steps do to a connection. -/
structure Wire.Grows (c c' : Wire) : Prop where
  stream : c.stream <+: c'.stream
  read : c.read ≤ c'.read

variable {f : Flow} {c c' : Wire} {x' : Exchange}

lemma Flow.Own.grows (h : f.Own c) (hgrows : c.Grows c') : f.Own c' := by
  refine List.Forall₂.imp ?_ h
  rintro b o ⟨k, rfl, hmark, hbyte⟩
  obtain ⟨rest, hrest⟩ := hgrows.stream
  refine ⟨k, rfl, hmark, ?_⟩
  rw [← hrest, List.getElem?_append_left (List.getElem?_eq_some_iff.mp hbyte).1]
  exact hbyte

lemma Flow.Sound.grows (h : f.Sound c) (hgrows : c.Grows c') : f.Sound c' :=
  { h with own := fun hsent => ⟨(h.own hsent).1.grows hgrows, (h.own hsent).2.trans hgrows.read⟩ }

/-- Received bytes come from behind what has been read before. -/
lemma forall₂_range' {stream data : Bytes} {mark read : Nat} (h : data <+: stream.drop read)
    (hmark : mark ≤ read) :
    List.Forall₂ (fun b o => ∃ k, o = some k ∧ mark ≤ k ∧ stream[k]? = some b) data
      ((List.range' read data.length).map some) := by
  induction data generalizing read with
  | nil => exact .nil
  | cons b data ih =>
    obtain ⟨rest, hrest⟩ := h
    have hbyte : stream[read]? = some b := by
      have hhead := congrArg (·[0]?) hrest
      simpa using hhead.symm
    have htail : data <+: stream.drop (read + 1) := by
      refine ⟨rest, ?_⟩
      rw [← List.tail_drop, ← hrest]
      rfl
    exact .cons ⟨read, rfl, hmark, hbyte⟩ (ih htail (by omega))

/-- An exchange begins to send once. -/
lemma Flow.mark_next (hsent : 0 < f.ex.sendOff) (c : Wire) (x' : Exchange) :
    (f.next c x').mark = f.mark :=
  if_neg fun hbegins => Nat.ne_of_gt hsent hbegins.1

/-- A pass that leaves the buffer alone, after the exchange has begun to send. -/
lemma Flow.Own.keep (h : f.Own c) (hphase : f.ex.phase ≠ .connect) (hsent : 0 < f.ex.sendOff)
    (hbytes : x'.responseBytes = f.ex.responseBytes) :
    (f.next c x').Own { c with read := c.read + received f.ex x' } := by
  have hreceived : received f.ex x' = 0 := by
    unfold received
    split
    · simp [hbytes]
    · rfl
  have horigins : (f.next c x').origins = f.origins := by
    have hlength := h.length_eq
    simp [Flow.next, hphase, hreceived, hbytes, hlength]
  unfold Flow.Own
  rw [horigins, mark_next hsent, show (f.next c x').ex.responseBytes = f.ex.responseBytes from hbytes]
  exact h

/-- The exchange receives. -/
lemma Flow.Own.receive (h : f.Own c) {data : Bytes} (hphase : f.ex.phase = .read)
    (hsent : 0 < f.ex.sendOff) (hmark : f.mark ≤ c.read) (hdata : data <+: c.unread)
    (hbytes : x'.responseBytes = f.ex.responseBytes ++ data) :
    (f.next c x').Own { c with read := c.read + received f.ex x' } := by
  have hreceived : received f.ex x' = data.length := by simp [received, hphase, hbytes]
  have horigins : (f.next c x').origins =
      f.origins ++ (List.range' c.read data.length).map some := by
    have hlength := h.length_eq
    simp only [Flow.next, hphase, hreceived, hbytes, reduceCtorEq, if_false]
    exact List.take_of_length_le (by simp [hlength])
  unfold Flow.Own
  rw [horigins, mark_next hsent, show (f.next c x').ex.responseBytes = _ from hbytes]
  exact List.rel_append h (forall₂_range' hdata hmark)

/-- A pass keeps the invariant of its own flow, whatever connection that is on. -/
lemma Flow.Sound.pass {a : Answers} (h : f.Sound c)
    (hlive : f.ex.phase ≠ .done ∧ f.ex.phase ≠ .stuck) (hdelivers : Delivers c a)
    (hadvanced : Advanced (progress f.ex) a (progress x'))
    (hclean : BeginsToSend f.ex x' → f.ex.responseBytes = [] ∧ c.unread = [])
    (hwire : (f.next c x').conn = f.conn → c' = { c with read := c.read + received f.ex x' }) :
    (f.next c x').Sound c' := by
  have hfresh : f.ex.succeeded = false := by
    by_contra hne
    exact hlive.1 (h.succeeded (by simpa using hne)).1
  -- only a pass that ends the exchange makes it succeed
  have hsuccess : x'.succeeded = f.ex.succeeded →
      x'.succeeded = true → x'.phase = .done ∧ 0 < x'.sendOff := by
    intro hsucc hyes
    rw [hsucc, hfresh] at hyes
    cases hyes
  have hsock : ∀ s, (f.next c x').ex.sock = some s → s = (f.next c x').conn := by
    intro s hs
    simp [Flow.next] at hs ⊢
    simp [hs]
  -- a pass on an open connection stays on it
  have hconn : x'.sock = f.ex.sock ∨ x'.sock = none → (f.next c x').conn = f.conn := by
    rintro (hs | hs)
    · rcases hs' : f.ex.sock with _ | s
      · simp [Flow.next, hs, hs']
      · simp [Flow.next, hs, hs', h.sock s hs']
    · simp [Flow.next, hs]
  -- and what it leaves alone stays its own
  have hkeep : f.ex.phase ≠ .connect → (x'.sock = f.ex.sock ∨ x'.sock = none) →
      x'.responseBytes = f.ex.responseBytes → 0 < f.ex.sendOff →
      (f.next c x').Own c' ∧ (f.next c x').mark ≤ c'.read := by
    intro hphase hs hbytes hsent
    obtain ⟨hown, hmark⟩ := h.own hsent
    rw [hwire (hconn hs)]
    refine ⟨hown.keep hphase hsent hbytes, ?_⟩
    rw [mark_next hsent]
    exact hmark.trans (Nat.le_add_right _ _)
  generalize hp : progress x' = p at hadvanced
  cases hadvanced with
  | ended hover hs hok =>
    simp only [progress, Progress.mk.injEq] at hp hs hok
    obtain ⟨rfl, rfl, hoff, hbytes, rfl⟩ := hp
    have hout : ∀ {phase : Phase}, phase ≠ .done → phase ≠ .stuck → x'.phase ≠ phase := by
      rintro _ hdone hstuck rfl
      exact hover.elim hdone hstuck
    refine ⟨fun hc => absurd hc (hout (by decide) (by decide)),
      fun hr => absurd hr (hout (by decide) (by decide)), ?_, hsock, fun hsent => ?_⟩
    · intro hyes
      rcases hok hyes with ⟨hdone, hread⟩ | hbefore
      · exact ⟨hdone, hoff ▸ h.read hread⟩
      · rw [hfresh] at hbefore
        cases hbefore
    · have hsent' : 0 < f.ex.sendOff := hoff ▸ hsent
      refine hkeep (fun hc => ?_) hs hbytes hsent'
      exact absurd (h.connect hc) (Nat.ne_of_gt hsent')
  | replayed =>
    simp only [progress, Progress.mk.injEq] at hp
    obtain ⟨hphase, -, hoff, -, hsucc⟩ := hp
    refine ⟨fun _ => hoff, fun hr => absurd (hphase.symm.trans hr) (by decide), hsuccess hsucc,
      hsock, fun hsent => absurd hoff (Nat.ne_of_gt hsent)⟩
  | opened sock buf hconnect hne hnr =>
    simp only [progress, Progress.mk.injEq] at hp
    obtain ⟨rfl, -, hoff, -, hsucc⟩ := hp
    have hzero : x'.sendOff = 0 := hoff.trans (h.connect hconnect)
    exact ⟨fun hc => absurd hc hne, fun hr => absurd hr hnr, hsuccess hsucc, hsock,
      fun hsent => absurd hzero (Nat.ne_of_gt hsent)⟩
  | onward hne hne' hread =>
    simp only [progress, Progress.mk.injEq] at hp hne hread
    obtain ⟨rfl, hs, hoff, hbytes, hsucc⟩ := hp
    refine ⟨fun hc => absurd hc hne', fun hr => ?_, hsuccess hsucc, hsock, fun hsent => ?_⟩
    · rcases hread hr with hr' | hpos
      · exact hoff ▸ h.read hr'
      · exact hoff ▸ hpos
    · exact hkeep hne (.inl hs) hbytes (hoff ▸ hsent)
  | wrote n hsend =>
    simp only [progress, Progress.mk.injEq] at hp hsend
    obtain ⟨hphase, hs, hoff, hbytes, hsucc⟩ := hp
    have hne : f.ex.phase ≠ .connect := by simp [hsend]
    refine ⟨fun hc => absurd (hphase.symm.trans hc) (by decide),
      fun hr => absurd (hphase.symm.trans hr) (by decide), hsuccess hsucc, hsock, fun hsent => ?_⟩
    · rcases Nat.eq_zero_or_pos f.ex.sendOff with hzero | hpos
      · -- the first byte: there is nothing older in the buffer or on the socket
        have hbegins : BeginsToSend f.ex x' := ⟨hzero, hsent⟩
        obtain ⟨hempty, hunread⟩ := hclean hbegins
        have hread : c.stream.length ≤ c.read := List.drop_eq_nil_iff.mp hunread
        rw [hwire (hconn (.inl hs))]
        constructor
        · simp [Flow.Own, Flow.next, hbytes, hempty, hne]
        · rw [show (f.next c x').mark = c.stream.length from if_pos hbegins]
          exact hread.trans (Nat.le_add_right _ _)
      · exact hkeep hne (.inl hs) hbytes hpos
  | @received data hread hrecv =>
    simp only [progress, Progress.mk.injEq] at hp hread
    obtain ⟨hphase, hs, hoff, hbytes, hsucc⟩ := hp
    have hsent := h.read hread
    obtain ⟨hown, hmark⟩ := h.own hsent
    have hdata : data <+: c.unread := by simpa [Delivers, hrecv] using hdelivers
    refine ⟨fun hc => absurd (hphase.symm.trans hc) (by decide), fun _ => hoff ▸ hsent,
      hsuccess hsucc, hsock, fun _ => ?_⟩
    · rw [hwire (hconn (.inl hs))]
      refine ⟨hown.receive hread hsent hmark hdata hbytes, ?_⟩
      rw [mark_next hsent]
      exact hmark.trans (Nat.le_add_right _ _)

lemma Flow.Sound.start (params : Params) (c : Wire) :
    Flow.Sound { ex := Exchange.start params } c := by
  have hfields : (Exchange.start params).sendOff = 0 ∧ (Exchange.start params).succeeded = false ∧
      (Exchange.start params).sock = none ∧ (Exchange.start params).phase ≠ .read := by
    unfold Exchange.start
    dsimp only
    split <;> exact ⟨rfl, rfl, rfl, nofun⟩
  obtain ⟨hoff, hsucc, hsock, hread⟩ := hfields
  refine ⟨fun _ => hoff, fun hr => absurd hr hread, ?_, ?_, ?_⟩
  · intro h
    exact absurd (hsucc.symm.trans h) nofun
  · intro s h
    exact absurd (hsock.symm.trans h) nofun
  · intro h
    exact absurd hoff (Nat.ne_of_gt h)

lemma Flow.Sound.reuse (h : f.Sound c) (pool : Pool) (now : Nat) :
    Flow.Sound { f with ex := (f.ex.reuseToPool pool now).2 } c := by
  unfold Exchange.reuseToPool
  dsimp only
  repeat' split
  · exact ⟨h.connect, h.read, h.succeeded, h.sock, h.own⟩
  · exact ⟨h.connect, h.read, h.succeeded, h.sock, h.own⟩
  · exact ⟨h.connect, h.read, h.succeeded, nofun, h.own⟩
  · exact ⟨h.connect, h.read, h.succeeded, nofun, h.own⟩

/-- Every flow is sound. -/
def Network.Sound (w : Network) : Prop :=
  ∀ i f, w.flows i = some f → f.Sound (w.wires f.conn)

/-- The flows stay sound when connections grow and one flow is replaced by a sound
one. -/
lemma Network.Sound.update {w : Network} (h : w.Sound) {i : Nat} {wires : Nat → Wire}
    (hgrows : ∀ n, (w.wires n).Grows (wires n)) (hf : f.Sound (wires f.conn)) (pool : Pool) :
    Network.Sound ⟨pool, wires, update w.flows i (some f)⟩ := by
  intro j g hg
  dsimp only at hg
  by_cases hj : j = i
  · subst hj
    rw [update_self] at hg
    cases hg
    exact hf
  · rw [update_of_ne hj] at hg
    exact (h j g hg).grows (hgrows g.conn)

lemma Wire.Grows.refl (c : Wire) : c.Grows c := ⟨List.prefix_refl _, le_rfl⟩

/-- One connection grows. -/
lemma grows_update {wires : Nat → Wire} {n : Nat} (h : (wires n).Grows c) (m : Nat) :
    (wires m).Grows (update wires n c m) := by
  by_cases hm : m = n
  · subst hm
    rw [update_self]
    exact h
  · rw [update_of_ne hm]
    exact .refl _

lemma Network.Sound.step {w w' : Network} {l : NetLabel} (h : w.Sound) (hclean : CleanStart w l)
    (hstep : netStep l w = some w') : w'.Sound := by
  cases l with
  | start i params =>
    simp only [netStep] at hstep
    split at hstep
    · cases hstep
    · cases hstep
      exact h.update (fun n => .refl _) (.start params _) w.pool
  | backend conn data =>
    cases hstep
    intro i f hf
    have hgrows : (w.wires conn).Grows
        { w.wires conn with stream := (w.wires conn).stream ++ data } :=
      ⟨List.prefix_append _ _, le_rfl⟩
    exact (h i f hf).grows (grows_update hgrows f.conn)
  | pass i a =>
    obtain ⟨f, hf, hpass⟩ := Option.bind_eq_some_iff.mp hstep
    dsimp only at hpass
    split at hpass
    · rename_i hdrives
      cases hpass
      have hgrows : (w.wires f.conn).Grows
          { w.wires f.conn with
            read := (w.wires f.conn).read + received f.ex (f.ex.pass w.pool a).2 } :=
        ⟨List.prefix_refl _, Nat.le_add_right _ _⟩
      refine h.update (grows_update hgrows) ?_ _
      exact (h i f hf).pass hdrives.1 hdrives.2 (pass_advanced _ a hdrives.1)
        (fun hbegins => hclean f hf hbegins)
        fun hconn => by rw [hconn, update_self]
    · cases hpass
  | reuse i now =>
    obtain ⟨f, hf, rfl⟩ := Option.map_eq_some_iff.mp hstep
    exact h.update (fun n => .refl _) ((h i f hf).reuse w.pool now) _

/-! ## Results -/

/-- An exchange that has succeeded has parsed its result from its buffer. -/
structure Flow.Served (f : Flow) : Prop where
  order : f.ex.InOrder
  delivered : f.ex.succeeded = true → f.ex.Delivered

lemma Flow.Served.pass (h : f.Served) (hlive : f.ex.Live) (pool : Pool) (a : Answers) (c : Wire) :
    (f.next c (f.ex.pass pool a).2).Served := by
  have hnot : f.ex.succeeded = false := by
    rw [← Bool.not_eq_true]
    exact fun hok => hlive.1 (h.delivered hok).1
  exact ⟨Exchange.pass_inOrder pool a h.order, Exchange.pass_delivered pool h.order hnot⟩

/-- The socket may be given away. -/
lemma Flow.Served.reuse (h : f.Served) (pool : Pool) (now : Nat) :
    Flow.Served { f with ex := (f.ex.reuseToPool pool now).2 } := by
  unfold Exchange.reuseToPool
  split
  · exact h
  · dsimp only
    split
    · exact h
    · rename_i hreuse
      have hok : f.ex.succeeded = true := by
        by_contra hne
        exact hreuse (.inl hne)
      exact ⟨Exchange.inOrder_done (h.delivered hok).1, fun _ => h.delivered hok⟩

lemma served_update {w : Network} (h : ∀ i f, w.flows i = some f → f.Served) (i : Nat)
    (hf : f.Served) (j : Nat) (g : Flow) (hg : update w.flows i (some f) j = some g) : g.Served := by
  by_cases hj : j = i
  · subst hj
    rw [update_self] at hg
    cases hg
    exact hf
  · rw [update_of_ne hj] at hg
    exact h j g hg

lemma served_step {w w' : Network} {l : NetLabel} (h : ∀ i f, w.flows i = some f → f.Served)
    (hstep : netStep l w = some w') : ∀ i f, w'.flows i = some f → f.Served := by
  cases l with
  | start i params =>
    simp only [netStep] at hstep
    split at hstep
    · cases hstep
    · cases hstep
      refine served_update (f := { ex := .start params }) h i
        ⟨fun _ => Exchange.start_tidy params, fun hok => ?_⟩
      exact absurd ((AdvanceCall.start_succeeded params).symm.trans hok) Bool.false_ne_true
  | backend conn data =>
    cases hstep
    exact h
  | pass i a =>
    obtain ⟨f, hf, hpass⟩ := Option.bind_eq_some_iff.mp hstep
    simp only [Option.ite_none_right_eq_some, Option.some.injEq] at hpass
    obtain ⟨hdrives, rfl⟩ := hpass
    exact served_update h i ((h i f hf).pass hdrives.1 w.pool a _)
  | reuse i now =>
    obtain ⟨f, hf, rfl⟩ := Option.map_eq_some_iff.mp hstep
    exact served_update h i ((h i f hf).reuse w.pool now)

/-! ## Runs -/

/-- In every run in which exchanges begin to send on clean connections, the response
of an exchange that succeeded is parsed from its buffer, which is made of bytes that its
backend sent after it had begun to send. -/
theorem response_from_own_bytes {labels : List NetLabel} {w : Network}
    (hrun : Run netStep CleanStart {} labels w) {i : Nat} {f : Flow} (hf : w.flows i = some f)
    (hsucceeded : f.ex.succeeded = true) :
    f.Own (w.wires f.conn) ∧ ∃ closed k body,
      frameOf f.ex.params.maxResponseBytes closed f.ex.responseBytes = .message k body ∧
        f.ex.result = parseResponse f.ex.responseBytes k body := by
  have hsound : w.Sound := hrun.invariant (fun _ _ h => nomatch h)
    fun _ _ _ h hclean hstep => h.step hclean hstep
  have hserved : ∀ i f, w.flows i = some f → f.Served :=
    hrun.invariant (I := fun w : Network => ∀ i f, w.flows i = some f → f.Served)
      (fun _ _ h => nomatch h) fun _ _ _ h _ hstep => served_step h hstep
  obtain ⟨-, closed, k, body, hframe, -, hresult, -⟩ := (hserved i f hf).delivered hsucceeded
  exact ⟨((hsound i f hf).own ((hsound i f hf).succeeded hsucceeded).2).1, closed, k, body, hframe,
    hresult⟩

def otherResponse : Bytes := ascii "HTTP/1.1 404 No\r\nContent-Length: 0\r\n\r\n"

/-- Exchange `i` opens a connection and writes its request. -/
def sends (i : Nat) : List NetLabel :=
  [.start i backendParams, .pass i { freshSock := 1 }, .pass i { send := .wrote 1000 }, .pass i {}]

/-- One exchange, and its backend answers. -/
def oneExchange (answer : Bytes) : List NetLabel :=
  sends 0 ++ [.backend 1 answer, .pass 0 { recv := .bytes answer }, .pass 0 {}]

/-- What is seen of exchange `i`. -/
def outcomeOf (i : Nat) (w : Network) : Option (Bool × Int × List (Option Nat)) :=
  (w.flows i).map fun f => (f.ex.succeeded, f.ex.result.statusCode, f.origins)

/-- Two exchanges, one after the other over the same connection. -/
def twoExchanges : List NetLabel :=
  oneExchange okResponse ++ .reuse 0 0 :: sends 1 ++
    [.backend 1 otherResponse, .pass 1 { recv := .bytes otherResponse }, .pass 1 {}]

/-- The second exchange takes the connection from the pool, and its response is made of the
bytes behind those of the first. -/
theorem response_from_own_bytes_one :
    ∃ w f, Run netStep CleanStart {} twoExchanges w ∧ w.flows 1 = some f ∧
      f.ex.succeeded = true ∧ f.ex.result.statusCode = 404 ∧
      f.origins = (List.range otherResponse.length).map (fun k => some (okResponse.length + k)) ∧
      f.Own (w.wires f.conn) := by
  obtain ⟨w, hrun, hw⟩ := exists_run_of_exec (f := outcomeOf 1)
    (show (exec netStep CleanStart twoExchanges {}).map (outcomeOf 1) =
      some (some (true, 404, (List.range otherResponse.length).map
        fun k => some (okResponse.length + k))) by decide +kernel)
  obtain ⟨f, hf, hseen⟩ := Option.map_eq_some_iff.mp hw
  simp only [Prod.mk.injEq] at hseen
  exact ⟨w, f, hrun, hf, hseen.1, hseen.2.1, hseen.2.2,
    (response_from_own_bytes hrun hf hseen.1).1⟩

/-- The backend sends a second response along with the first. It waits in the pool,
and the next exchange on the connection takes it for the response to its own
request. -/
theorem leftover_becomes_response :
    ∃ w f, Run netStep Any {}
        (oneExchange (okResponse ++ otherResponse) ++ .reuse 0 0 :: sends 1 ++ [.pass 1 {}]) w ∧
      w.flows 1 = some f ∧ f.ex.succeeded = true ∧ f.ex.result.statusCode = 404 ∧
      f.origins = List.replicate otherResponse.length none ∧ ¬ f.Own (w.wires f.conn) := by
  obtain ⟨w, hrun, hw⟩ := exists_run_of_exec (f := outcomeOf 1)
    (show (exec netStep Any
        (oneExchange (okResponse ++ otherResponse) ++ .reuse 0 0 :: sends 1 ++ [.pass 1 {}])
        {}).map (outcomeOf 1) =
      some (some (true, 404, List.replicate otherResponse.length none)) by decide +kernel)
  obtain ⟨f, hf, hseen⟩ := Option.map_eq_some_iff.mp hw
  simp only [Prod.mk.injEq] at hseen
  obtain ⟨hok, hcode, horigins⟩ := hseen
  refine ⟨w, f, hrun, hf, hok, hcode, horigins, fun hown => ?_⟩
  unfold Flow.Own at hown
  rw [horigins, show otherResponse.length = 37 + 1 from rfl, List.replicate_succ] at hown
  obtain ⟨b, bytes, ⟨k, hk, -⟩, -, -⟩ := List.forall₂_cons_right_iff.mp hown
  cases hk

end EpollGateway.Upstream
