import EpollGateway.Upstream.Advance

/-! # The cap on a response

`max_response_bytes` is compared with a declared length and, between two receives, with
the buffer. A chunked body is compared with nothing: framing is tried before the buffer
is looked at, so that a body which the last receive completes is taken whatever its size.

`Declares` adds up the sizes that the chunks of a buffer declare, and `capped_iff` says
that they alone decide.
-/

namespace EpollGateway.Upstream

open Bytes Handler Loop

/-! ## The sizes of the chunks -/

/-- The size lines from `p` on declare `n` bytes, as far as the buffer has them. The end
of a chunk is a `size_t`. -/
inductive Declares (buf : Bytes) : Nat → Nat → Prop where
  | last {p e : Nat} : SizeLineAt buf p e 0 → Declares buf p 0
  | chunk {p e s n : Nat} : SizeLineAt buf p e s → s ≠ 0 →
      Declares buf (SizeT.add (SizeT.add e 2) (SizeT.add s 2)) n →
      Declares buf p (min s (buf.length - SizeT.add e 2) + n)

variable {body buf decoded : Bytes}

lemma Declares.unique {p n m : Nat} (h : Declares buf p n) (h' : Declares buf p m) : n = m := by
  induction h generalizing m with
  | last hline =>
    rcases h' with hline' | ⟨hline', hne, -⟩
    · rfl
    · exact absurd (hline.unique hline').2.symm hne
  | chunk hline hne _ ih =>
    rcases h' with hline' | ⟨hline', -, hrest⟩
    · exact absurd (hline.unique hline').2 hne
    · obtain ⟨rfl, rfl⟩ := hline.unique hline'
      rw [ih hrest]

/-- Trailer lines add nothing. -/
lemma decoded_of_trailer {fuel t e : Nat}
    (h : loop (scanTurn buf) fuel (.trailer t decoded) = some (.complete e body)) :
    body = decoded := by
  induction fuel generalizing t with
  | zero => cases h
  | succ fuel ih =>
    simp only [loop, scanTurn] at h
    rcases hcrlf : findCrlf buf t with _ | u <;> simp only [hcrlf] at h
    · cases h
    · by_cases hempty : u = t
      · rw [if_pos hempty] at h
        cases h
        rfl
      · rw [if_neg hempty] at h
        exact ih h

/-- A scan that comes to the end of a body has decoded what the size lines declare. -/
lemma declares_of_loop {fuel p e : Nat}
    (h : loop (scanTurn buf) fuel (.line p decoded) = some (.complete e body)) :
    ∃ n, Declares buf p n ∧ body.length = decoded.length + n := by
  induction fuel generalizing p decoded with
  | zero => cases h
  | succ fuel ih =>
    simp only [loop, scanTurn] at h
    rcases hcrlf : findCrlf buf p with _ | u <;> simp only [hcrlf] at h
    · cases h
    · by_cases hhex : (slice buf p u).takeWhile (· ≠ 59) = []
      · rw [if_pos hhex] at h
        cases h
      · rw [if_neg hhex] at h
        rcases hsize : scanSizeLoop 0 ((slice buf p u).takeWhile (· ≠ 59)) with _ | s <;>
          simp only [hsize] at h
        · cases h
        · have hval := ((scanSizeLoop_eq_some (by decide)).mp hsize).1
          have hline : SizeLineAt buf p u s := ⟨hcrlf, sizeText_iff.mpr ⟨hhex, hval⟩⟩
          by_cases hzero : s = 0
          · rw [if_pos hzero] at h
            refine ⟨0, .last (hzero ▸ hline), ?_⟩
            rw [decoded_of_trailer h, Nat.add_zero]
          · rw [if_neg hzero] at h
            -- the end of the chunk is in the buffer, or the scan is not complete
            split at h
            · rename_i hagain
              split at hagain
              · cases hagain
              · split at hagain
                · cases hagain
                · split at hagain
                  · cases hagain
                  · cases hagain
                    obtain ⟨n, hrest, hlen⟩ := ih h
                    refine ⟨_, .chunk hline hzero hrest, ?_⟩
                    rw [hlen, List.length_append, List.length_take, List.length_drop]
                    omega
            · rename_i hdone
              cases h
              split at hdone
              · cases hdone
              · split at hdone
                · cases hdone
                · split at hdone <;> cases hdone

/-! ## The body of a frame -/

/-- A declared length bounds the body, also where the sum wraps. -/
lemma bodyText_length_le (buf : Bytes) (headerEnd n : Nat) :
    (Exchange.bodyText buf headerEnd (some (SizeT.add (headerEnd + 4) n))).length ≤ n := by
  simp only [Exchange.bodyText, List.length_take, List.length_drop]
  refine Nat.le_trans (Nat.min_le_left _ _) ?_
  unfold SizeT.sub SizeT.add
  split <;> omega

/-- The cap holds, as far as the chunks of a buffer let it. -/
def WithinCap (cap : Nat) (buf : Bytes) : Prop :=
  ∀ headerEnd n, headEnd buf = some headerEnd → bodyKind (buf.take headerEnd) = .chunked →
    Declares buf (headerEnd + 4) n → n ≤ cap

lemma length_le_iff_of_message {cap : Nat} {closed : Bool} {k : Nat}
    (h : frameOf cap closed buf = .message k body) (hclosed : closed = true → buf.length ≤ cap) :
    body.length ≤ cap ↔ WithinCap cap buf := by
  have hhead := headEnd_of_message h
  unfold frameOf at h
  simp only [hhead] at h
  rcases hkind : bodyKind (buf.take k) with _ | _ | n | _ | _ <;> simp only [hkind] at h
  case chunked =>
    unfold chunkedFrame at h
    rcases hscan : scanBody buf (k + 4) with _ | _ | ⟨e, d⟩ | _ | _ <;> simp only [hscan] at h <;>
      cases h
    obtain ⟨n, hdeclares, hlen⟩ := declares_of_loop hscan
    rw [List.length_nil, Nat.zero_add] at hlen
    rw [hlen]
    constructor
    · intro hle k' m hhead' _ hdeclares'
      cases hhead.symm.trans hhead'
      rwa [← hdeclares.unique hdeclares']
    · intro hwithin
      exact hwithin k n hhead hkind hdeclares
  case unsupported => cases h
  case badLength => cases h
  all_goals
    have hwithin : WithinCap cap buf := by
      intro k' m hhead' hkind' _
      cases hhead.symm.trans hhead'
      cases hkind.symm.trans hkind'
    refine iff_of_true ?_ hwithin
  case length =>
    split at h
    · cases h
    · rename_i hn
      split at h
      · cases h
        exact Nat.le_trans (bodyText_length_le buf k n) (Nat.not_lt.mp hn)
      · cases h
  case untilClose =>
    split at h
    · cases h
    · split at h
      · rename_i hend
        cases h
        refine Nat.le_trans ?_ (hclosed hend)
        simp only [Exchange.bodyText, List.length_take, List.length_drop]
        omega
      · cases h

/-! ## The read loop -/

namespace Exchange

/-- The result is parsed from a frame of the buffer, found before the backend closed the
connection or, within the cap, after that. -/
def Delivered (y : Exchange) : Prop :=
  y.phase = .done ∧ ∃ closed k body,
    frameOf y.params.maxResponseBytes closed y.responseBytes = .message k body ∧
      (closed = true → y.responseBytes.length ≤ y.params.maxResponseBytes) ∧
      y.result = parseResponse y.responseBytes k body ∧ y.result.body = body

variable {pool : Pool} {x : Exchange} {a : Answers}

lemma answered_delivered {closed : Bool} {k : Nat} {body : Bytes}
    (hframe : frameOf x.params.maxResponseBytes closed x.responseBytes = .message k body)
    (hclosed : closed = true → x.responseBytes.length ≤ x.params.maxResponseBytes)
    (hok : (x.answered k body).succeeded = true) : (x.answered k body).Delivered := by
  refine ⟨rfl, closed, k, body, hframe, hclosed, rfl, ?_⟩
  obtain ⟨code, hcode⟩ := Option.isSome_iff_exists.mp hok
  simp only [answered, parseResponse, hcode]

lemma delivered_core {y : Exchange} : y.core.Delivered ↔ y.Delivered := Iff.rfl

lemma succeeded_fail {result : BackendResponse} (hfail : x.succeeded = false) :
    (x.fail pool result).2.succeeded = false := by
  unfold fail
  dsimp only
  split
  · exact hfail
  · rfl

lemma succeeded_raise (hfail : x.succeeded = false) : (x.raise pool).2.succeeded = false := by
  rw [raise_eq]
  split
  · exact hfail
  · exact succeeded_fail hfail

/-- A pass of the read phase succeeds with the body of a frame. -/
lemma readPass_delivered (h : x.Tidy) (hnot : x.succeeded = false)
    (hok : (x.readPass pool a).2.succeeded = true) : (x.readPass pool a).2.Delivered := by
  have hcore : (x.readPass pool a).2.core = (coreOf (x.readPass pool a)).2 := rfl
  have hfail : ∀ result, (coreOf (x.fail pool result)).2.succeeded ≠ true := by
    intro result
    rw [show (coreOf (x.fail pool result)).2.succeeded = (x.fail pool result).2.succeeded from rfl,
      succeeded_fail hnot]
    exact Bool.false_ne_true
  have hraise : (coreOf (x.raise pool)).2.succeeded ≠ true := by
    rw [show (coreOf (x.raise pool)).2.succeeded = (x.raise pool).2.succeeded from rfl,
      succeeded_raise hnot]
    exact Bool.false_ne_true
  have hnone : x.core.succeeded ≠ true := fun hx => Bool.false_ne_true (hnot.symm.trans hx)
  change (x.readPass pool a).2.core.succeeded = true at hok
  rw [← delivered_core, hcore]
  rw [hcore] at hok
  rw [readPass_core pool a h] at hok ⊢
  rcases hframe : frameOf x.params.maxResponseBytes false x.responseBytes
    with _ | ⟨k, body⟩ | _ | _ | _
  all_goals
    rw [hframe] at hok
    dsimp only at hok ⊢
  case message => exact answered_delivered hframe nofun hok
  case bad => exact absurd hok (hfail _)
  case threw => exact absurd hok hraise
  case hangs => exact absurd hok hnone
  case more =>
    by_cases hcap : x.responseBytes.length > x.params.maxResponseBytes
    · rw [if_pos hcap] at hok
      exact absurd hok (hfail _)
    · rw [if_neg hcap] at hok ⊢
      rcases hrecv : a.recv with ⟨_ | ⟨c, data⟩⟩ | _ | _ | _
      all_goals
        rw [hrecv] at hok
        dsimp only at hok ⊢
      · -- the end of the stream: the buffer is within the cap
        rcases hclosed : frameOf x.params.maxResponseBytes true x.responseBytes with
          _ | ⟨k, body⟩ | _ | _ | _
        all_goals
          rw [hclosed] at hok
          dsimp only at hok ⊢
        case message => exact answered_delivered hclosed (fun _ => Nat.not_lt.mp hcap) hok
        all_goals exact absurd hok (hfail _)
      · exact absurd hok hnone
      · exact absurd hok hnone
      · exact absurd hok (hfail _)
      · exact absurd hok hraise

lemma pass_late (pool : Pool) (hlive : x.Live) (hlate : a.expired = true) :
    x.pass pool a = x.fail pool (gatewayTimeout (timeoutError x.phase)) := by
  unfold pass
  rcases hphase : x.phase with _ | _ | _ | _ | _ | _ | _ <;> dsimp only
  case done => exact absurd hphase hlive.1
  case stuck => exact absurd hphase hlive.2
  all_goals rw [if_pos hlate]

/-- Only the read phase makes an exchange succeed. -/
lemma read_of_succeeded (hlive : x.Live) (hnot : x.succeeded = false)
    (hok : (x.pass pool a).2.succeeded = true) : x.phase = .read := by
  have hmove := pass_advanced pool a hlive
  have hkept : (progress x).succeeded = true → x.phase = .read := fun hx =>
    absurd (hnot.symm.trans hx) Bool.false_ne_true
  change (progress (x.pass pool a).2).succeeded = true at hok
  generalize progress (x.pass pool a).2 = q at hmove hok
  rcases hmove with ⟨-, -, hends⟩ | _ | ⟨_, _, _, _⟩ | ⟨_, _, _⟩ | ⟨_, _⟩ | ⟨_, _⟩
  · rcases hends hok with ⟨-, hread⟩ | hbefore
    · exact hread
    · exact hkept hbefore
  all_goals exact hkept hok

/-- A pass that makes an exchange succeed delivers a body. -/
lemma pass_delivered (pool : Pool) (h : x.InOrder) (hnot : x.succeeded = false)
    (hok : (x.pass pool a).2.succeeded = true) : (x.pass pool a).2.Delivered := by
  by_cases hlive : x.Live
  · have htime : a.expired = false := by
      rw [← Bool.not_eq_true]
      intro hlate
      rw [pass_late pool hlive hlate, succeeded_fail hnot] at hok
      exact Bool.false_ne_true hok
    have hread := read_of_succeeded hlive hnot hok
    rw [pass_read pool hread htime] at hok ⊢
    exact readPass_delivered (h hlive) hnot hok
  · rw [pass_over pool a hlive] at hok
    exact absurd (hnot.symm.trans hok) Bool.false_ne_true

end Exchange

namespace AdvanceCall

variable {env : Encounters} {c d : AdvanceCall}

/-- As long as a call goes on, its exchange has not succeeded. -/
lemma not_succeeded_of_reaches (h : c.exchange.InOrder) (hnot : c.exchange.succeeded = false)
    (hreach : Reaches (turn env) c d) : d.exchange.InOrder ∧ d.exchange.succeeded = false := by
  refine hreach.invariant (I := fun u => u.exchange.InOrder ∧ u.exchange.succeeded = false) ⟨h,
    hnot⟩ ?_
  rintro u v ⟨horder, hu⟩ hturn
  obtain ⟨heq, hdone, -⟩ := turn_eq_again hturn
  rw [heq]
  refine ⟨Exchange.pass_inOrder _ _ horder, ?_⟩
  rw [← Bool.not_eq_true]
  intro hok
  exact hdone (Exchange.pass_delivered _ horder hu hok).1

lemma start_params (params : Params) : (Exchange.start params).params = params := by
  unfold Exchange.start
  dsimp only
  split <;> rfl

lemma start_succeeded (params : Params) : (Exchange.start params).succeeded = false := by
  unfold Exchange.start
  dsimp only
  split <;> rfl

/-- The exchange that a call returns is the one after its last pass. -/
lemma turn_result {want : Want} {y : Exchange} (h : c.turn env = .done (want, y)) :
    y = c.next env := by
  unfold turn at h
  split at h
  · cases h
    rfl
  · split at h <;> cases h
    rfl

lemma next_params (hreach : Reaches (turn env) c d) :
    (d.next env).params = c.exchange.params := by
  have hkept : ∀ u : AdvanceCall, (u.next env).params = u.exchange.params :=
    fun u => (Exchange.pass_kept _ _ _).params
  rw [hkept]
  refine hreach.invariant (I := fun u => u.exchange.params = c.exchange.params) rfl ?_
  intro u v hu hturn
  rw [(turn_eq_again hturn).1, hkept, hu]

end AdvanceCall

/-- What an exchange that has succeeded delivers. -/
lemma delivered_of_reached {params : Params} {y : Exchange} (h : Reached params y) :
    y.params = params ∧ (y.succeeded = true → y.Delivered) := by
  induction h with
  | start =>
    refine ⟨AdvanceCall.start_params params, ?_⟩
    intro hok
    rw [AdvanceCall.start_succeeded] at hok
    cases hok
  | @called x y env events want hreached henv hcall ih =>
    obtain ⟨hparams, hdelivered⟩ := ih
    obtain ⟨fuel, hloop⟩ := hcall
    obtain ⟨t, hreach, hturn⟩ := exists_last_turn hloop
    rw [AdvanceCall.turn_result hturn]
    refine ⟨(AdvanceCall.next_params hreach).trans hparams, ?_⟩
    rcases AdvanceCall.ready_of_reached hreached with hdone | ⟨hfit, -⟩
    · cases AdvanceCall.eq_of_reaches_done hdone hreach
      rw [AdvanceCall.next_done hdone]
      exact hdelivered
    · -- an exchange under way has not succeeded
      have hnot : x.succeeded = false := by
        rw [← Bool.not_eq_true]
        intro hok
        exact hfit.live.1 (hdelivered hok).1
      obtain ⟨horder, hnot'⟩ := AdvanceCall.not_succeeded_of_reaches (fun _ => hfit.tidy) hnot hreach
      exact Exchange.pass_delivered _ horder hnot'

/-- A response that has succeeded is within the cap if and only if it is not chunked, or
the sizes of its chunks add up to no more than the cap. -/
theorem capped_iff {params : Params} {y : Exchange} (h : Reached params y)
    (hok : y.succeeded = true) :
    y.result.body.length ≤ params.maxResponseBytes ↔
      WithinCap params.maxResponseBytes y.responseBytes := by
  obtain ⟨hparams, hdelivered⟩ := delivered_of_reached h
  obtain ⟨-, closed, k, body, hframe, hclosed, -, hbody⟩ := hdelivered hok
  rw [hparams] at hframe hclosed
  rw [hbody]
  exact length_le_iff_of_message hframe hclosed

/-- A backend that takes the request and sends a response in one piece. -/
def answering (response : Bytes) : Encounters :=
  fun _ => (fun _ => [], { send := .wrote 1000, recv := .bytes response })

/-- What one call makes of a response. -/
def receive (cap : Nat) (response : Bytes) : Option (Want × Exchange) :=
  loop (AdvanceCall.turn (answering response)) 6
    { events := false, exchange := Exchange.start { backendParams with maxResponseBytes := cap } }

lemma reached_of_receive {cap : Nat} {response : Bytes} {r : Want × Exchange}
    (h : receive cap response = some r) :
    Reached { backendParams with maxResponseBytes := cap } r.2 := by
  refine .called .start ?_ ⟨6, h⟩
  intro n hzero
  exact absurd (SendAnswer.wrote.inj hzero) (by decide)

theorem capped_iff_ok :
    ∃ y, Reached { backendParams with maxResponseBytes := 1000 } y ∧ y.succeeded = true ∧
      (y.result.body.length ≤ 1000 ↔ WithinCap 1000 y.responseBytes) := by
  have hrun : (receive 1000 okResponse).map (fun r => r.2.succeeded) = some true := by
    decide +kernel
  obtain ⟨r, hr, hok⟩ := Option.map_eq_some_iff.mp hrun
  exact ⟨r.2, reached_of_receive hr, hok, capped_iff (reached_of_receive hr) hok⟩

def chunkedHello : Bytes :=
  ascii "HTTP/1.1 200 OK\r\nTransfer-Encoding: chunked\r\n\r\n5\r\nhello\r\n0\r\n\r\n"

/-- A chunked body that arrives in one piece is taken, although it is larger than the
cap. -/
theorem chunked_above_cap :
    ∃ y, Reached { backendParams with maxResponseBytes := 4 } y ∧ y.succeeded = true ∧
      4 < y.result.body.length := by
  have hrun : (receive 4 chunkedHello).map (fun r => (r.2.succeeded, r.2.result.body.length)) =
      some (true, 5) := by
    decide +kernel
  obtain ⟨r, hr, hout⟩ := Option.map_eq_some_iff.mp hrun
  refine ⟨r.2, reached_of_receive hr, congrArg (·.1) hout, ?_⟩
  rw [show r.2.result.body.length = 5 from congrArg (·.2) hout]
  decide

end EpollGateway.Upstream
