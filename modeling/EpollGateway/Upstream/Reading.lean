import EpollGateway.Upstream.Passes

/-! # What an exchange makes of its buffer

`frameOf` says what a buffer holds: a message, the beginning of one, or neither. It
depends on nothing else, while `try_frame` also leaves marks in the exchange, and
`finish_ok` reads them. `Tidy` says which marks an exchange under way can have; with
it the passes of the read phase are a matter of the buffer alone
(`readPass_inOrder`).
-/

namespace EpollGateway.Upstream

open Bytes Handler

/-! ## Frames -/

/-- What a buffer holds: the beginning of a message, a message with its header block
and its body, or no message. The scan of a chunked body can also fail to return. -/
inductive Frame where
  | more
  | message (headerEnd : Nat) (body : Bytes)
  | bad
  | threw
  | hangs
deriving DecidableEq, Repr

def Frame.result : Frame → Exchange.FrameResult
  | .more => .incomplete
  | .message .. => .complete
  | .bad => .error
  | .threw => .threw
  | .hangs => .hangs

/-- The frame of a chunked body. -/
def chunkedFrame (buf : Bytes) (headerEnd : Nat) : Frame :=
  match scanBody buf (headerEnd + 4) with
  | some .incomplete => .more
  | some (.complete _ decoded) => .message headerEnd decoded
  | some .error => .bad
  | some .outOfRange => .threw
  | none => .hangs

/-- The frame of a buffer, for a response of at most `cap` bytes, before and after the
backend has closed the connection. -/
def frameOf (cap : Nat) (closed : Bool) (buf : Bytes) : Frame :=
  match headEnd buf with
  | none => if buf.length > Exchange.maxHeaderSize then .bad else .more
  | some headerEnd =>
    match bodyKind (buf.take headerEnd) with
    | .chunked => chunkedFrame buf headerEnd
    | .unsupported => .bad
    | .badLength => .bad
    | .length n =>
      if n > cap then .bad
      else if buf.length ≥ SizeT.add (headerEnd + 4) n then
        .message headerEnd (Exchange.bodyText buf headerEnd (some (SizeT.add (headerEnd + 4) n)))
      else .more
    | .untilClose =>
      if keepsAlive (buf.take headerEnd) then .bad
      else if closed then .message headerEnd (Exchange.bodyText buf headerEnd (some buf.length))
      else .more

/-- A message has a header block. -/
lemma headEnd_of_message {cap : Nat} {closed : Bool} {buf body : Bytes} {headerEnd : Nat}
    (h : frameOf cap closed buf = .message headerEnd body) : headEnd buf = some headerEnd := by
  unfold frameOf at h
  rcases hhead : headEnd buf with _ | k <;> simp only [hhead] at h
  · split at h <;> cases h
  · rcases hkind : bodyKind (buf.take k) with _ | _ | n | _ | _ <;> simp only [hkind] at h
    case chunked =>
      unfold chunkedFrame at h
      split at h <;> cases h
      rfl
    all_goals
      repeat' split at h
      all_goals cases h
      try rfl

/-- Only a body without a length is completed by the end of the stream. -/
lemma frameOf_closed {cap : Nat} {buf : Bytes} (h : frameOf cap false buf = .more) :
    frameOf cap true buf = .more ∨
      ∃ headerEnd body, frameOf cap true buf = .message headerEnd body ∧
        headEnd buf = some headerEnd ∧ keepsAlive (buf.take headerEnd) = false := by
  unfold frameOf at h ⊢
  rcases hhead : headEnd buf with _ | headerEnd <;> simp only [hhead] at h ⊢
  · exact .inl h
  · rcases hkind : bodyKind (buf.take headerEnd) with _ | _ | n | _ | _ <;> simp only [hkind] at h ⊢
    case untilClose =>
      split at h
      · cases h
      · rename_i hkeep
        rw [if_neg hkeep]
        exact .inr ⟨headerEnd, _, rfl, rfl, by simpa using hkeep⟩
    all_goals exact .inl h

/-- The header block announces a chunked body. -/
def ChunkedHead (buf : Bytes) : Prop :=
  ∃ headerEnd, headEnd buf = some headerEnd ∧ bodyKind (buf.take headerEnd) = .chunked

lemma ChunkedHead.append {buf : Bytes} (h : ChunkedHead buf) (data : Bytes) :
    ChunkedHead (buf ++ data) := by
  obtain ⟨headerEnd, hhead, hkind⟩ := h
  refine ⟨headerEnd, headEnd_append hhead data, ?_⟩
  have hle := headEnd_le hhead
  rwa [List.take_append_of_le_length (by omega)]

namespace Exchange

/-! ## The marks of `try_frame` -/

lemma tryFrame_result (x : Exchange) :
    x.tryFrame.2 = (frameOf x.params.maxResponseBytes x.peerClosed x.responseBytes).result := by
  unfold tryFrame frameOf
  rcases headEnd x.responseBytes with _ | h <;> dsimp only
  · split <;> rfl
  · rcases bodyKind (x.responseBytes.take h) with _ | _ | n | _ | _ <;> dsimp only
    case chunked =>
      unfold chunkedFrame
      rcases scanBody x.responseBytes (h + 4) with _ | _ | _ | _ | _ <;> rfl
    case length =>
      split
      · rfl
      · split <;> rfl
    case untilClose =>
      split
      · rfl
      · split <;> rfl
    all_goals rfl

/-- `try_frame` touches its marks only. -/
lemma tryFrame_marks (x : Exchange) :
    ∃ keepalive chunked decoded bodyEnd, x.tryFrame.1 =
      { x with
        responseKeepalive := keepalive
        responseIsChunked := chunked
        decodedBody := decoded
        bodyEnd := bodyEnd } := by
  unfold tryFrame
  dsimp only
  repeat' split
  all_goals exact ⟨_, _, _, _, rfl⟩

variable {x : Exchange}

/-- The mark for a chunked body. -/
lemma tryFrame_chunked (h : x.responseIsChunked = true → ChunkedHead x.responseBytes)
    (hmark : x.tryFrame.1.responseIsChunked = true) : ChunkedHead x.responseBytes := by
  unfold tryFrame at hmark
  rcases hhead : headEnd x.responseBytes with _ | headerEnd
  · simp only [hhead] at hmark
    exact h hmark
  · simp only [hhead] at hmark
    rcases hkind : bodyKind (x.responseBytes.take headerEnd) with _ | _ | n | _ | _
    case chunked => exact ⟨headerEnd, hhead, hkind⟩
    all_goals
      simp only [hkind] at hmark
      apply h
      revert hmark
      repeat' split
      all_goals exact id

/-- The mark for a connection that can be used again. -/
lemma tryFrame_keepalive {headerEnd : Nat} (h : headEnd x.responseBytes = some headerEnd) :
    x.tryFrame.1.responseKeepalive = keepsAlive (x.responseBytes.take headerEnd) := by
  unfold tryFrame
  simp only [h]
  repeat' split
  all_goals rfl

/-- The exchange is under way. -/
def Live (x : Exchange) : Prop := x.phase ≠ .done ∧ x.phase ≠ .stuck

/-- What holds of an exchange under way. -/
structure Tidy (x : Exchange) : Prop where
  chunked : x.responseIsChunked = true → ChunkedHead x.responseBytes
  opened : x.peerClosed = false
  fresh : x.forceFresh = x.retried
  pooled : x.usedPooled = true → x.retried = false
  request : x.requestBytes = [] ∧ x.sendOff = 0 ∨ x.requestBytes = buildRequest x.params
  unsent : x.phase = .connect ∨ x.phase = .connecting ∨ x.phase = .tlsHandshake →
    x.usedPooled = false ∧ x.responseBytes = [] ∧ x.requestBytes = [] ∧ x.sendOff = 0

lemma not_chunkedHead_nil : ¬ ChunkedHead [] := by
  rintro ⟨headerEnd, h, -⟩
  cases h

lemma start_tidy (params : Params) : (start params).Tidy := by
  unfold start
  dsimp only
  split <;> exact ⟨nofun, rfl, rfl, nofun, .inl ⟨rfl, rfl⟩, fun _ => ⟨rfl, rfl, rfl, rfl⟩⟩

/-- An exchange that is under way is tidy. -/
def InOrder (x : Exchange) : Prop := x.Live → x.Tidy

lemma inOrder_done (h : x.phase = .done) : x.InOrder :=
  fun hlive => absurd h hlive.1

lemma inOrder_stuck (h : x.phase = .stuck) : x.InOrder :=
  fun hlive => absurd h hlive.2

variable (pool : Pool) (a : Answers)

lemma fail_inOrder (x : Exchange) (result : BackendResponse) :
    (x.fail pool result).2.InOrder := by
  unfold fail
  dsimp only
  split
  · exact fun _ => ⟨nofun, rfl, rfl, nofun, .inl ⟨rfl, rfl⟩, fun _ => ⟨rfl, rfl, rfl, rfl⟩⟩
  · exact inOrder_done rfl

/-- A tidy exchange goes on with its connection. -/
lemma Tidy.onward (h : x.Tidy) (sock : Option Nat) (phase : Phase)
    (hphase : phase = .connect ∨ phase = .connecting ∨ phase = .tlsHandshake →
      x.phase = .connect ∨ x.phase = .connecting ∨ x.phase = .tlsHandshake) (replaying : Bool) :
    InOrder { x with sock := sock, phase := phase, replaying := replaying } :=
  fun _ => ⟨h.chunked, h.opened, h.fresh, h.pooled, h.request, fun hp => h.unsent (hphase hp)⟩

lemma raise_inOrder (x : Exchange) : (x.raise pool).2.InOrder := by
  unfold raise
  split
  · exact inOrder_stuck rfl
  · intro hlive
    have h := fail_inOrder pool x _ hlive
    exact h.onward _ _ id _ hlive

lemma openFresh_inOrder (h : x.Tidy) (hphase : x.phase = .connect) :
    (x.openFresh pool a).2.InOrder := by
  unfold openFresh
  split
  · exact fail_inOrder _ _ _
  · exact h.onward _ _ (fun _ => .inl hphase) _
  · split
    · exact h.onward _ .send nofun _
    · split
      · exact fail_inOrder _ _ _
      · exact h.onward _ _ (fun _ => .inl hphase) _

lemma openConnection_inOrder (h : x.Tidy) (hphase : x.phase = .connect) :
    (x.openConnection pool a).2.InOrder := by
  obtain ⟨hused, hbuf, hreq, hoff⟩ := h.unsent (.inl hphase)
  have hx : { x with usedPooled := false } = x := by rw [← hused]
  unfold openConnection
  rw [hx]
  dsimp only
  split
  · exact openFresh_inOrder _ a h hphase
  · rename_i hforce
    have hretried : x.retried = false := by
      rw [← h.fresh]
      simpa using hforce
    split
    · exact openFresh_inOrder _ a h hphase
    · split
      · exact openFresh_inOrder _ a h hphase
      · exact raise_inOrder _ _
      · -- what the last exchange has left is not framed yet
        refine fun _ => ⟨fun hc => ?_, h.opened, h.fresh, fun _ => hretried, h.request, nofun⟩
        exact absurd (hbuf ▸ h.chunked hc) not_chunkedHead_nil

lemma Tidy.tryFrame (h : x.Tidy) : x.tryFrame.1.Tidy := by
  have hchunked := tryFrame_chunked h.chunked
  obtain ⟨keepalive, chunked, decoded, bodyEnd, hmarks⟩ := tryFrame_marks x
  rw [hmarks] at hchunked ⊢
  exact ⟨hchunked, h.opened, h.fresh, h.pooled, h.request, h.unsent⟩

lemma eofPass_inOrder (x : Exchange) : (x.eofPass pool).2.InOrder := by
  unfold eofPass
  dsimp only
  split
  · generalize tryFrame { x with peerClosed := true } = framed
    obtain ⟨y, r⟩ := framed
    rcases r with _ | _ | _ | _ | _ <;> dsimp only
    case complete => exact inOrder_done rfl
    case threw => exact raise_inOrder _ _
    case hangs => exact inOrder_stuck rfl
    all_goals exact fail_inOrder _ _ _
  · exact fail_inOrder _ _ _

lemma readPass_inOrder (h : x.Tidy) (hphase : x.phase = .read) :
    (x.readPass pool a).2.InOrder := by
  have hframe := h.tryFrame
  have hread : x.tryFrame.1.phase = .read := by
    obtain ⟨keepalive, chunked, decoded, bodyEnd, hmarks⟩ := tryFrame_marks x
    rw [hmarks]
    exact hphase
  unfold readPass
  generalize x.tryFrame = framed at hframe hread ⊢
  obtain ⟨y, r⟩ := framed
  dsimp only at hframe hread ⊢
  rcases r with _ | _ | _ | _ | _ <;> dsimp only
  case complete => exact inOrder_done rfl
  case error => exact fail_inOrder _ _ _
  case threw => exact raise_inOrder _ _
  case hangs => exact inOrder_stuck rfl
  case incomplete =>
    split
    · exact fail_inOrder _ _ _
    · split
      · exact eofPass_inOrder _ _
      · refine fun _ => ⟨fun hc => (hframe.chunked hc).append _, hframe.opened, hframe.fresh,
          hframe.pooled, hframe.request, fun hp => ?_⟩
        simp [hread] at hp
      · exact hframe.onward _ _ id _
      · exact fail_inOrder _ _ _
      · exact raise_inOrder _ _

lemma sendPass_inOrder (h : x.Tidy) (hphase : x.phase = .send) :
    (x.sendPass pool a).2.InOrder := by
  have hrequest : x.withRequest.Tidy := by
    unfold withRequest
    split
    · refine ⟨h.chunked, h.opened, h.fresh, h.pooled, .inr rfl, fun hp => ?_⟩
      simp [hphase] at hp
    · exact h
  have hsend : x.withRequest.phase = .send := by
    unfold withRequest
    split <;> exact hphase
  unfold sendPass
  dsimp only
  split
  · rename_i hleft
    split
    · -- something is left to send, so the request has been built
      have hbuilt : x.withRequest.requestBytes = buildRequest x.withRequest.params := by
        rcases hrequest.request with ⟨hnil, -⟩ | hbuilt
        · simp [hnil] at hleft
        · exact hbuilt
      refine fun _ => ⟨hrequest.chunked, hrequest.opened, hrequest.fresh, hrequest.pooled,
        .inr hbuilt, fun hp => ?_⟩
      simp [hsend] at hp
    · exact hrequest.onward _ _ id _
    · exact fail_inOrder _ _ _
    · exact raise_inOrder _ _
  · exact hrequest.onward _ .read nofun _

lemma Tidy.pass (htidy : x.Tidy) (pool : Pool) (a : Answers) : (x.pass pool a).2.InOrder := by
  unfold Exchange.pass
  rcases hphase : x.phase with _ | _ | _ | _ | _ | _ | _ <;> dsimp only
  case done => exact inOrder_done hphase
  case stuck => exact inOrder_stuck hphase
  all_goals
    split
    · exact fail_inOrder _ _ _
  case connect => exact openConnection_inOrder pool a htidy hphase
  case connecting =>
    have hconnect : x.phase = .connect ∨ x.phase = .connecting ∨ x.phase = .tlsHandshake :=
      .inr (.inl hphase)
    unfold connectingPass
    repeat' split
    all_goals
      first
      | exact fail_inOrder _ _ _
      | exact htidy.onward _ _ (fun _ => hconnect) _
  case tlsHandshake =>
    unfold handshakePass
    split
    · exact htidy.onward _ .send nofun _
    · exact fail_inOrder _ _ _
    · exact htidy.onward _ _ id _
  case send => exact sendPass_inOrder pool a htidy hphase
  case read => exact readPass_inOrder pool a htidy hphase

lemma pass_inOrder (h : x.InOrder) : (x.pass pool a).2.InOrder := by
  by_cases hlive : x.Live
  · exact (h hlive).pass pool a
  · rwa [pass_over pool a hlive]

lemma run_inOrder (answers : List Answers) (h : x.InOrder) : (x.run pool answers).2.InOrder := by
  induction answers generalizing pool x with
  | nil => exact h
  | cons a rest ih => exact ih _ (pass_inOrder pool a h)

lemma run_over {pool : Pool} (answers : List Answers) (h : ¬ x.Live) :
    x.run pool answers = (pool, x) := by
  induction answers with
  | nil => rfl
  | cons a rest ih => rwa [run, pass_over pool a h]

/-! ## The read phase -/

/-- An exchange without the marks of `try_frame`. -/
def core (x : Exchange) : Exchange :=
  { x with
    responseKeepalive := false
    responseIsChunked := false
    decodedBody := []
    bodyEnd := none
    peerClosed := false }

/-- The marks do not matter for what follows. -/
def coreOf (r : Pool × Exchange) : Pool × Exchange := (r.1, r.2.core)

lemma core_tryFrame (x : Exchange) : x.tryFrame.1.core = x.core := by
  obtain ⟨keepalive, chunked, decoded, bodyEnd, hmarks⟩ := tryFrame_marks x
  rw [hmarks]
  rfl

lemma coreOf_fail {y : Exchange} (result : BackendResponse) (h : y.core = x.core) :
    coreOf (y.fail pool result) = coreOf (x.fail pool result) := by
  have hcore : ∀ z : Exchange, coreOf (z.fail pool result) = coreOf (z.core.fail pool result) := by
    intro z
    by_cases hreplay : z.Replayable
    · rw [fail_replay hreplay, fail_replay (x := z.core) hreplay]
      rfl
    · rw [fail_final hreplay, fail_final (x := z.core) hreplay]
      rfl
  rw [hcore y, hcore x, h]

lemma coreOf_raise {y : Exchange} (h : y.core = x.core) :
    coreOf (y.raise pool) = coreOf (x.raise pool) := by
  have hcore : ∀ z : Exchange, coreOf (z.raise pool) = coreOf (z.core.raise pool) := by
    intro z
    rw [raise_eq, raise_eq]
    have hfail := coreOf_fail pool (x := z.core) (y := z) (badGateway (raisedError z.phase)) rfl
    by_cases hagain : z.replaying
    · rw [if_pos hagain, if_pos (show z.core.replaying = true from hagain)]
      rfl
    · rw [if_neg hagain, if_neg (show ¬ z.core.replaying = true from hagain)]
      exact congrArg (fun r : Pool × Exchange => (r.1, { r.2 with replaying := true })) hfail
  rw [hcore y, hcore x, h]

/-- An exchange with its response. -/
def answered (x : Exchange) (headerEnd : Nat) (body : Bytes) : Exchange :=
  { x.core with
    result := parseResponse x.responseBytes headerEnd body
    succeeded := (parseStatus x.responseBytes).isSome
    phase := .done }

lemma finishOk_core {headerEnd : Nat} {body : Bytes}
    (h : x.responseIsChunked = true → ChunkedHead x.responseBytes)
    (hframe : frameOf x.params.maxResponseBytes x.peerClosed x.responseBytes =
      .message headerEnd body) : x.tryFrame.1.finishOk.core = x.answered headerEnd body := by
  unfold frameOf at hframe
  unfold tryFrame answered
  rcases hhead : headEnd x.responseBytes with _ | k <;> simp only [hhead] at hframe ⊢
  · split at hframe <;> cases hframe
  -- a body that is not chunked leaves the mark as it was, which is not set
  have hmark : bodyKind (x.responseBytes.take k) ≠ .chunked → x.responseIsChunked = false := by
    intro hkind
    rw [← Bool.not_eq_true]
    intro hc
    obtain ⟨k', hk', hchunked⟩ := h hc
    cases hhead.symm.trans hk'
    exact hkind hchunked
  rcases hkind : bodyKind (x.responseBytes.take k) with _ | _ | n | _ | _ <;>
    simp only [hkind] at hframe hmark ⊢
  case chunked =>
    unfold chunkedFrame at hframe
    rcases hscan : scanBody x.responseBytes (k + 4) with _ | _ | ⟨e, d⟩ | _ | _ <;>
      simp only [hscan] at hframe ⊢ <;> cases hframe
    simp [finishOk, core, hhead, decodedSoFar_of_complete hscan]
  case length =>
    split at hframe
    · cases hframe
    · rename_i hcap
      split at hframe
      · rename_i hlen
        cases hframe
        rw [if_neg hcap, if_pos hlen]
        simp [finishOk, core, hhead, hmark]
      · cases hframe
  case untilClose =>
    split at hframe
    · cases hframe
    · rename_i hkeep
      split at hframe
      · rename_i hclosed
        cases hframe
        rw [if_neg hkeep, if_pos hclosed]
        simp [finishOk, core, hhead, hmark]
      · cases hframe
  all_goals cases hframe

/-- Framing, up to the marks. -/
lemma tryFrame_core {z : Exchange} (h : z.core = x.core)
    (hmark : z.responseIsChunked = true → ChunkedHead x.responseBytes) :
    z.tryFrame.2 = (frameOf x.params.maxResponseBytes z.peerClosed x.responseBytes).result ∧
      z.tryFrame.1.core = x.core ∧
      ∀ k body, frameOf x.params.maxResponseBytes z.peerClosed x.responseBytes = .message k body →
        z.tryFrame.1.finishOk.core = x.answered k body := by
  have hbuf : z.responseBytes = x.responseBytes := congrArg (·.responseBytes) h
  have hparams : z.params = x.params := congrArg (·.params) h
  have hresult := tryFrame_result z
  rw [hbuf, hparams] at hresult
  refine ⟨hresult, (core_tryFrame z).trans h, ?_⟩
  intro k body hframe
  rw [finishOk_core (by rwa [hbuf]) (by rwa [hbuf, hparams])]
  simp only [answered, h, hbuf]

/-- After the end of the stream. -/
lemma eofPass_core (h : x.Tidy)
    (hmore : frameOf x.params.maxResponseBytes false x.responseBytes = .more) :
    coreOf (x.tryFrame.1.eofPass pool) =
      match frameOf x.params.maxResponseBytes true x.responseBytes with
      | .message headerEnd body => (pool, x.answered headerEnd body)
      | _ => coreOf (x.fail pool (badGateway .readFailed)) := by
  have hcore := core_tryFrame x
  have hmark := tryFrame_chunked h.chunked
  have hkeep : ∀ k, headEnd x.responseBytes = some k →
      x.tryFrame.1.responseKeepalive = keepsAlive (x.responseBytes.take k) :=
    fun k hk => tryFrame_keepalive hk
  unfold eofPass
  generalize x.tryFrame.1 = y at hcore hmark hkeep ⊢
  have hbuf : y.responseBytes = x.responseBytes := congrArg (·.responseBytes) hcore
  obtain ⟨hresult, hagain, hfinish⟩ := tryFrame_core (z := { y with peerClosed := true }) hcore hmark
  dsimp only at hresult hagain hfinish ⊢
  rcases frameOf_closed hmore with hframe | ⟨k, body, hframe, hhead, halive⟩
  · rw [hframe] at hresult ⊢
    dsimp only
    split
    · -- the stream ends within a message
      generalize tryFrame { y with peerClosed := true } = framed at hresult hagain ⊢
      obtain ⟨z, r⟩ := framed
      dsimp only at hresult hagain
      subst hresult
      exact coreOf_fail pool _ hagain
    · exact coreOf_fail pool _ hcore
  · have hfinish := hfinish k body hframe
    rw [hframe] at hresult ⊢
    rw [if_pos ⟨by rw [hbuf, hhead]; rfl, by rw [hkeep k hhead, halive]; exact Bool.false_ne_true⟩]
    generalize tryFrame { y with peerClosed := true } = framed at hresult hfinish ⊢
    obtain ⟨z, r⟩ := framed
    dsimp only at hresult hfinish
    subst hresult
    exact Prod.ext rfl hfinish

/-- A pass of the read phase. -/
lemma readPass_core (h : x.Tidy) :
    coreOf (x.readPass pool a) =
      match frameOf x.params.maxResponseBytes false x.responseBytes with
      | .message headerEnd body => (pool, x.answered headerEnd body)
      | .bad => coreOf (x.fail pool (badGateway .invalidResponse))
      | .threw => coreOf (x.raise pool)
      | .hangs => (pool, { x.core with phase := .stuck })
      | .more =>
        if x.responseBytes.length > x.params.maxResponseBytes then
          coreOf (x.fail pool (badGateway .readFailed))
        else
          match a.recv with
          | .bytes [] =>
            match frameOf x.params.maxResponseBytes true x.responseBytes with
            | .message headerEnd body => (pool, x.answered headerEnd body)
            | _ => coreOf (x.fail pool (badGateway .readFailed))
          | .bytes data => (pool, { x.core with responseBytes := x.responseBytes ++ data })
          | .again => (pool, { x.core with replaying := false })
          | .failed => coreOf (x.fail pool (badGateway .readFailed))
          | .threw => coreOf (x.raise pool) := by
  obtain ⟨hresult, hcore, hfinish⟩ := tryFrame_core (x := x) rfl h.chunked
  have heof := eofPass_core pool h
  rw [h.opened] at hresult hfinish
  unfold readPass
  generalize x.tryFrame = framed at hcore hresult hfinish heof ⊢
  obtain ⟨y, r⟩ := framed
  dsimp only at hcore hresult hfinish heof ⊢
  have hbuf : y.responseBytes = x.responseBytes := congrArg (·.responseBytes) hcore
  have hparams : y.params = x.params := congrArg (·.params) hcore
  subst hresult
  rcases hframe : frameOf x.params.maxResponseBytes false x.responseBytes
    with _ | ⟨k, body⟩ | _ | _ | _
  case message => exact Prod.ext rfl (hfinish k body hframe)
  case bad => exact coreOf_fail pool _ hcore
  case threw => exact coreOf_raise pool hcore
  case hangs => exact Prod.ext rfl (congrArg (fun z : Exchange => { z with phase := .stuck }) hcore)
  case more =>
    dsimp only [Frame.result]
    by_cases hcap : x.responseBytes.length > x.params.maxResponseBytes
    · rw [if_pos hcap, if_pos (by rwa [hbuf, hparams])]
      exact coreOf_fail pool _ hcore
    · rw [if_neg hcap, if_neg (by rwa [hbuf, hparams])]
      rcases a.recv with ⟨_ | ⟨c, data⟩⟩ | _ | _ | _ <;> dsimp only
      · exact heof hframe
      · exact Prod.ext rfl
          (congrArg (fun z : Exchange =>
            { z with responseBytes := z.responseBytes ++ c :: data }) hcore)
      · exact Prod.ext rfl (congrArg (fun z : Exchange => { z with replaying := false }) hcore)
      · exact coreOf_fail pool _ hcore
      · exact coreOf_raise pool hcore

lemma pass_read {a : Answers} (hread : x.phase = .read) (htime : a.expired = false) :
    x.pass pool a = x.readPass pool a := by
  unfold pass
  rw [hread]
  dsimp only
  rw [htime, if_neg Bool.false_ne_true]

/-- Without a frame and within the limit, the bytes of a receive go to the buffer. -/
lemma readPass_receives {a : Answers} {data : Bytes} (h : x.Tidy)
    (hmore : frameOf x.params.maxResponseBytes false x.responseBytes = .more)
    (hcap : x.responseBytes.length ≤ x.params.maxResponseBytes) (hrecv : a.recv = .bytes data)
    (hdata : data ≠ []) :
    coreOf (x.readPass pool a) =
      (pool, { x.core with responseBytes := x.responseBytes ++ data }) := by
  rw [readPass_core pool a h, hmore, hrecv]
  dsimp only
  rw [if_neg (Nat.not_lt.mpr hcap)]
  split
  · rename_i heq
    cases heq
    exact absurd rfl hdata
  · rename_i heq
    cases heq
    rfl
  all_goals
    rename_i heq
    cases heq

end Exchange

end EpollGateway.Upstream
