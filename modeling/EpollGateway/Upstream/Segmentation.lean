import EpollGateway.Lib.Cuts
import EpollGateway.Upstream.Dechunk
import EpollGateway.Upstream.Reading
import EpollGateway.Upstream.ScanProgress

/-! # Responses that arrive in pieces

An exchange frames its buffer afresh after every receive, so that its end depends on the
lengths at which it can stop. On a `Regular` stream a
frame is not taken back when more bytes arrive (`frameOf_append`), so that it does
not matter where a receive stops. The limit on the buffer is the exception: it is
looked at only when the buffer has no frame, and a receive can bring the rest of a
message together with the bytes beyond the limit.
-/

namespace EpollGateway.Upstream

open Bytes Loop Handler Cuts

/-! ## The scanner on longer buffers -/

variable {buf data : Bytes} {p start : Nat}

lemma SizeLineAt.append {e s : Nat} (h : SizeLineAt buf p e s) (data : Bytes) :
    SizeLineAt (buf ++ data) p e s := by
  have helt := h.crlfAt.lt
  refine ⟨findCrlf_append h.first data, ?_⟩
  rw [slice_append (by omega)]
  exact h.text

lemma Boundary.append (h : Boundary buf start p) (data : Bytes) :
    Boundary (buf ++ data) start p := by
  induction h with
  | start => exact .start
  | chunk _ hline hne hle hat ih =>
    refine .chunk ih (hline.append data) hne ?_ ((crlfAt_append hat.lt data).mpr hat)
    rw [List.length_append]
    omega
  | minusTwo _ hline ih => exact .minusTwo ih (hline.append data)

lemma SizesFit.of_append (h : SizesFit (buf ++ data) start) : SizesFit buf start :=
  fun p e s hp hline => h p e s (hp.append data) (hline.append data)

/-- Fitting sizes do not wrap backwards. -/
lemma SizesFit.not_backwardWrap (h : SizesFit buf start) : ¬ BackwardWrap buf start := by
  rintro ⟨p, e, s, q, hp, hline, -, hwrap, -⟩
  have hfit := h p e s hp hline
  omega

/-- A turn that does not wait for more bytes is the same on a longer buffer. -/
lemma scanTurn_append (hbuf : buf.length < 2 ^ 63) (hfit : SizesFit buf start) {u : ScanState}
    (hu : OnTrack buf start u) (hturn : scanTurn buf u ≠ .done .incomplete) (data : Bytes) :
    scanTurn (buf ++ data) u = scanTurn buf u := by
  rcases u with ⟨p, d⟩ | ⟨t, d⟩
  · simp only [scanTurn] at hturn ⊢
    rcases he : findCrlf buf p with _ | e
    · simp [he] at hturn
    have helt := (findCrlf_eq_some.mp he).2.1.lt
    rw [findCrlf_append he data]
    rw [he] at hturn
    dsimp only at hturn ⊢
    rw [slice_append (by omega)]
    split
    · rfl
    · rename_i hne
      rw [if_neg hne] at hturn
      rcases hs : scanSizeLoop 0 ((slice buf p e).takeWhile (· ≠ 59)) with _ | s
      · rfl
      rw [hs] at hturn
      dsimp only at hturn ⊢
      split
      · rfl
      · rename_i hz
        rw [if_neg hz] at hturn
        -- the chunk ends where it says
        obtain ⟨hval, -⟩ := (scanSizeLoop_eq_some (by decide)).mp hs
        have hsum := hfit p e s hu.1 ⟨he, sizeText_iff.mpr ⟨hne, hval⟩⟩
        have hpos : SizeT.add e 2 = e + 2 := SizeT.add_eq (by omega)
        have hdata : SizeT.add (e + 2) s = e + 2 + s := SizeT.add_eq (by omega)
        have hend : SizeT.add (e + 2 + s) 2 = e + 2 + s + 2 := SizeT.add_eq (by omega)
        simp only [hpos, hdata, hend] at hturn ⊢
        have hin : ¬ buf.length < e + 2 + s + 2 := by
          intro hlt
          rw [if_pos hlt] at hturn
          exact hturn rfl
        have hin' : ¬ buf.length + data.length < e + 2 + s + 2 := by omega
        have hrange : ¬ buf.length < e + 2 + s := by omega
        have hrange' : ¬ buf.length + data.length < e + 2 + s := by omega
        simp only [List.length_append, if_neg hin, if_neg hin', if_neg hrange, if_neg hrange']
        rw [take_drop_append (by omega), take_drop_append (by omega)]
  · simp only [scanTurn] at hturn ⊢
    rcases he : findCrlf buf t with _ | e
    · simp [he] at hturn
    rw [findCrlf_append he data]

/-- A scan that has come to an end is not changed by more bytes. -/
lemma scanBody_append (hbuf : buf.length < 2 ^ 63) (hstart : start ≤ buf.length)
    (hfit : SizesFit buf start) (hscan : scanBody buf start ≠ some .incomplete) (data : Bytes) :
    scanBody (buf ++ data) start = scanBody buf start := by
  have htrack := fun u v => scanTurn_onTrack (u := u) (v := v) hbuf hfit.not_backwardWrap
  have hinit : OnTrack buf start (.line start []) := ⟨.start, hstart⟩
  obtain ⟨fuel, r, hr⟩ := terminates_of_variant (remaining buf) htrack hinit
  have hsome : scanBody buf start = some r := scanBody_eq_some hr
  rw [hsome] at hscan ⊢
  refine scanBody_eq_some (loop_transfer (I := OnTrack buf start) ?_ ?_ hinit hr)
  · intro u v hu hv
    refine ⟨(htrack u v hu hv).1, ?_⟩
    rw [scanTurn_append hbuf hfit hu (by simp [hv]), hv]
  · intro u hu hv
    rw [scanTurn_append hbuf hfit hu (by rw [hv]; exact fun h => hscan (by cases h; rfl)), hv]

/-! ## Regular streams -/

/-- A stream whose header block, if there is one, is within the limit for header
blocks and has both blanks of the status line, and whose body has a length or chunks
that do not wrap. -/
structure Regular (stream : Bytes) : Prop where
  short : stream.length < 2 ^ 63
  head : ∀ h, headEnd stream = some h → h + 3 ≤ Exchange.maxHeaderSize
  blanks : ∀ h, headEnd stream = some h → 2 ≤ (stream.take h).count sp
  length : ∀ h n, headEnd stream = some h → bodyKind (stream.take h) = .length n →
    h + 4 + n < 2 ^ 64
  sizes : ∀ h, headEnd stream = some h → bodyKind (stream.take h) = .chunked →
    SizesFit stream (h + 4)

lemma take_head_append {h : Nat} (hh : headEnd buf = some h) (data : Bytes) :
    (buf ++ data).take h = buf.take h := by
  have hle := headEnd_le hh
  exact List.take_append_of_le_length (by omega)

lemma Regular.of_append (h : Regular (buf ++ data)) : Regular buf := by
  have hshort := h.short
  rw [List.length_append] at hshort
  refine ⟨by omega, ?_, ?_, ?_, ?_⟩
  · intro k hk
    exact h.head k (headEnd_append hk data)
  · intro k hk
    have := h.blanks k (headEnd_append hk data)
    rwa [take_head_append hk] at this
  · intro k n hk hkind
    refine h.length k n (headEnd_append hk data) ?_
    rwa [take_head_append hk]
  · intro k hk hkind
    refine (h.sizes k (headEnd_append hk data) ?_).of_append
    rwa [take_head_append hk]

/-- A frame is not taken back. -/
lemma frameOf_append {cap : Nat} (h : Regular (buf ++ data))
    (hframe : frameOf cap false buf ≠ .more) :
    frameOf cap false (buf ++ data) = frameOf cap false buf := by
  unfold frameOf at hframe ⊢
  rcases hhead : headEnd buf with _ | k
  · -- without a header block within the limit there is none at all
    simp only [hhead] at hframe ⊢
    have hlong : buf.length > Exchange.maxHeaderSize := by
      by_contra hshort
      rw [if_neg hshort] at hframe
      exact hframe rfl
    rw [if_pos hlong]
    rcases hhead' : headEnd (buf ++ data) with _ | k'
    · exact if_pos (by rw [List.length_append]; omega)
    · have hlimit := h.head k' hhead'
      rw [headEnd_of_append hhead' (by omega)] at hhead
      cases hhead
  · have hle := headEnd_le hhead
    simp only [headEnd_append hhead data, hhead, take_head_append hhead] at hframe ⊢
    rcases hkind : bodyKind (buf.take k) with _ | _ | n | _ | _ <;> simp only [hkind] at hframe ⊢
    case chunked =>
      have hfit := h.sizes k (headEnd_append hhead data) (by rwa [take_head_append hhead])
      unfold chunkedFrame at hframe ⊢
      rw [scanBody_append h.of_append.short hle hfit.of_append]
      intro hscan
      rw [hscan] at hframe
      exact hframe rfl
    case length =>
      have hsum := h.length k n (headEnd_append hhead data) (by rwa [take_head_append hhead])
      have hend : SizeT.add (k + 4) n = k + 4 + n := SizeT.add_eq hsum
      have hsize : SizeT.sub (k + 4 + n) (k + 4) = n := by
        rw [SizeT.sub_eq (by omega)]
        omega
      rw [hend] at hframe ⊢
      split
      · rfl
      · rename_i hcap
        rw [if_neg hcap] at hframe
        have hin : buf.length ≥ k + 4 + n := by
          by_contra hout
          rw [if_neg hout] at hframe
          exact hframe rfl
        rw [if_pos hin, if_pos (by rw [List.length_append]; omega)]
        simp only [Exchange.bodyText, hsize]
        rw [take_drop_append (by omega)]
    case untilClose =>
      split
      · rfl
      · rename_i hkeep
        simp [hkeep] at hframe

/-- With both blanks of the status line the status code is settled. -/
lemma parseStatus_append (h : 2 ≤ buf.count sp) (data : Bytes) :
    parseStatus (buf ++ data) = parseStatus buf := by
  obtain ⟨version, behind, rfl, hversion⟩ :=
    List.eq_append_cons_of_mem (List.count_pos_iff.mp (by omega : 0 < buf.count sp))
  have hcount : 0 < behind.count sp := by
    rw [List.count_append, List.count_cons_self, List.count_eq_zero_of_not_mem hversion] at h
    omega
  obtain ⟨code, rest, rfl, hcode⟩ := List.eq_append_cons_of_mem (List.count_pos_iff.mp hcount)
  rw [parseStatus_blanks hversion hcode, List.append_assoc, List.cons_append, List.append_assoc,
    List.cons_append, parseStatus_blanks hversion hcode]

lemma Regular.parseStatus_append (h : Regular (buf ++ data)) {k : Nat}
    (hhead : headEnd buf = some k) : parseStatus (buf ++ data) = parseStatus buf := by
  refine Upstream.parseStatus_append ?_ data
  have hle : (buf.take k).count sp ≤ buf.count sp := (List.take_sublist k buf).count_le sp
  have hblanks := h.of_append.blanks k hhead
  omega

/-! ## Reads -/

/-- What is seen of an exchange from outside. -/
structure Ending where
  phase : Phase
  succeeded : Bool
  result : BackendResponse
deriving DecidableEq

namespace Exchange

def ending (x : Exchange) : Ending := ⟨x.phase, x.succeeded, x.result⟩

/-- `kExchangeReadChunk`. -/
def readChunk : Nat := 65536

/-- The end of a stream, or a pause. -/
def lastRead (eof : Bool) : Answers := { recv := if eof then .bytes [] else .again }

/-- The receives that bring a stream in pieces. -/
def reads (pieces : List Bytes) (eof : Bool) : List Answers :=
  pieces.map (fun data => { recv := .bytes data }) ++ [lastRead eof]

/-- The exchange that has read so much. -/
def withBuffer (x : Exchange) (buf : Bytes) : Exchange := { x with responseBytes := buf }

/-- How a pass ends that does not receive. A buffer without a frame is too long
then. -/
def frameEnding (x : Exchange) (buf : Bytes) : Frame → Ending
  | .more => ⟨.done, false, badGateway .readFailed⟩
  | .message headerEnd body =>
    ⟨.done, (parseStatus buf).isSome, parseResponse buf headerEnd body⟩
  | .bad => ⟨.done, false, badGateway .invalidResponse⟩
  | .threw =>
    if x.replaying then ⟨.stuck, x.succeeded, x.result⟩
    else ⟨.done, false, badGateway .readFailed⟩
  | .hangs => ⟨.stuck, x.succeeded, x.result⟩

/-- Whether the exchange is done with a buffer. -/
def verdict (x : Exchange) (buf : Bytes) : Option Ending :=
  if frameOf x.params.maxResponseBytes false buf = .more ∧
      buf.length ≤ x.params.maxResponseBytes then none
  else some (x.frameEnding buf (frameOf x.params.maxResponseBytes false buf))

/-- The last pass on a stream without a verdict. -/
def final (pool : Pool) (x : Exchange) (eof : Bool) (buf : Bytes) : Ending :=
  ((x.withBuffer buf).readPass pool (lastRead eof)).2.ending

variable {x y : Exchange}

lemma readPass_congr (pool : Pool) (a : Answers) (hx : x.Tidy) (hy : y.Tidy)
    (h : y.core = x.core) : coreOf (y.readPass pool a) = coreOf (x.readPass pool a) := by
  have hbuf : y.responseBytes = x.responseBytes := congrArg (·.responseBytes) h
  have hparams : y.params = x.params := congrArg (·.params) h
  rw [readPass_core pool a hy, readPass_core pool a hx, coreOf_raise pool h, coreOf_fail pool _ h,
    coreOf_fail pool _ h, hbuf, hparams]
  simp only [answered, h, hbuf]

lemma not_replayable (h : x.usedPooled = false) : ¬ x.Replayable := by
  intro hreplay
  exact absurd (h.symm.trans hreplay.1) nofun

/-- On a fresh connection a verdict ends the exchange, and nothing is received. -/
lemma readPass_ending (pool : Pool) (a : Answers) (hx : x.Tidy) (hread : x.phase = .read)
    (hfresh : x.usedPooled = false)
    (h : ¬ (frameOf x.params.maxResponseBytes false x.responseBytes = .more ∧
      x.responseBytes.length ≤ x.params.maxResponseBytes)) :
    (x.readPass pool a).2.ending =
      x.frameEnding x.responseBytes (frameOf x.params.maxResponseBytes false x.responseBytes) := by
  have hfinal := not_replayable hfresh
  change (coreOf (x.readPass pool a)).2.ending = _
  rw [readPass_core pool a hx, raise_eq, hread]
  simp only [fail_final hfinal]
  rcases hframe : frameOf x.params.maxResponseBytes false x.responseBytes with _ | _ | _ | _ | _
  case more =>
    have hcap : x.responseBytes.length > x.params.maxResponseBytes := by
      by_contra hle
      exact h ⟨hframe, by omega⟩
    dsimp only
    rw [if_pos hcap]
    rfl
  case threw =>
    dsimp only [frameEnding]
    split <;> rfl
  all_goals rfl

lemma frameEnding_over (x : Exchange) (buf : Bytes) (frame : Frame) :
    (x.frameEnding buf frame).phase = .done ∨ (x.frameEnding buf frame).phase = .stuck := by
  unfold frameEnding
  split
  case h_4 => split <;> simp
  all_goals simp

/-- The marks do not show. -/
lemma ending_eq {r r' : Pool × Exchange} (h : coreOf r = coreOf r') :
    r.2.ending = r'.2.ending := by
  have hending := congrArg (fun q : Pool × Exchange => q.2.ending) h
  exact hending

/-- The way the exchange goes on a stream in pieces. -/
lemma ending_reads (pool : Pool) (hx : ∀ buf, (x.withBuffer buf).Tidy) (hread : x.phase = .read)
    (hfresh : x.usedPooled = false) (eof : Bool) {pieces : List Bytes}
    (hne : ∀ p ∈ pieces, p ≠ []) {buf : Bytes} (hy : y.Tidy)
    (hcore : y.core = (x.withBuffer buf).core) :
    (y.run pool (reads pieces eof)).2.ending =
      firstVerdict x.verdict (final pool x eof) buf pieces := by
  have hphase : ∀ {z : Exchange} {b : Bytes}, z.core = (x.withBuffer b).core → z.phase = .read :=
    fun h => (congrArg (·.phase) h).trans hread
  induction pieces generalizing y buf with
  | nil =>
    have hpass := readPass_congr pool (lastRead eof) (hx buf) hy hcore
    change (y.pass pool (lastRead eof)).2.ending = _
    rw [pass_read pool (hphase hcore) rfl, firstVerdict, verdict]
    split
    · exact ending_eq hpass
    · rename_i hdecided
      exact (ending_eq hpass).trans
        (readPass_ending pool (lastRead eof) (hx buf) hread hfresh hdecided)
  | cons data pieces ih =>
    have hpass := readPass_congr pool { recv := .bytes data } (hx buf) hy hcore
    have hgo : y.pass pool { recv := .bytes data } = y.readPass pool { recv := .bytes data } :=
      pass_read pool (hphase hcore) rfl
    change (run (y.pass pool { recv := .bytes data }).1 (y.pass pool { recv := .bytes data }).2
      (reads pieces eof)).2.ending = _
    rw [hgo]
    by_cases hmore : frameOf x.params.maxResponseBytes false buf = .more ∧
        buf.length ≤ x.params.maxResponseBytes
    · -- no verdict: the piece is read
      have hnone : x.verdict buf = none := if_pos hmore
      rw [firstVerdict_none hnone]
      have hread' : coreOf (y.readPass pool { recv := .bytes data }) =
          (pool, (x.withBuffer (buf ++ data)).core) :=
        hpass.trans (readPass_receives pool (hx buf) hmore.1 hmore.2 rfl
          (hne data List.mem_cons_self))
      have hcore' : (y.readPass pool { recv := .bytes data }).2.core =
          (x.withBuffer (buf ++ data)).core := congrArg Prod.snd hread'
      have hlive : (y.readPass pool { recv := .bytes data }).2.Live := by
        unfold Live
        rw [hphase hcore']
        decide
      rw [show (y.readPass pool { recv := .bytes data }).1 = pool from congrArg Prod.fst hread']
      exact ih (fun p hp => hne p (List.mem_cons_of_mem _ hp))
        (readPass_inOrder pool _ hy (hphase hcore) hlive) hcore'
    · have hsome : x.verdict buf = some _ := if_neg hmore
      have hending := (ending_eq hpass).trans
        (readPass_ending pool { recv := .bytes data } (hx buf) hread hfresh hmore)
      have hover : ¬ (y.readPass pool { recv := .bytes data }).2.Live := by
        have hphase' := congrArg (·.phase) hending
        rcases frameEnding_over (x.withBuffer buf) buf
          (frameOf x.params.maxResponseBytes false buf) with h | h
        · exact fun hlive => hlive.1 (hphase'.trans h)
        · exact fun hlive => hlive.2 (hphase'.trans h)
      rw [firstVerdict_some hsome, run_over _ hover]
      exact hending

end Exchange

/-! ## Cuts -/

/-- A chunk whose size fits does not end behind the buffer. -/
lemma scanTurn_ne_outOfRange (hlen : buf.length < 2 ^ 63) (hfit : SizesFit buf start)
    {u : ScanState} (hu : OnTrack buf start u) : scanTurn buf u ≠ .done .outOfRange := by
  intro hturn
  rcases u with ⟨p, d⟩ | ⟨t, d⟩ <;> simp only [scanTurn] at hturn
  · rcases he : findCrlf buf p with _ | e <;> simp only [he] at hturn
    · cases hturn
    · have helt := (findCrlf_eq_some.mp he).2.1.lt
      split at hturn
      · cases hturn
      · rename_i hne
        rcases hs : scanSizeLoop 0 ((slice buf p e).takeWhile (· ≠ 59)) with _ | s <;>
          simp only [hs] at hturn
        · cases hturn
        · obtain ⟨hval, -⟩ := (scanSizeLoop_eq_some (by decide)).mp hs
          have hsum := hfit p e s hu.1 ⟨he, sizeText_iff.mpr ⟨hne, hval⟩⟩
          have hpos : SizeT.add e 2 = e + 2 := SizeT.add_eq (by omega)
          have hdata : SizeT.add (e + 2) s = e + 2 + s := SizeT.add_eq (by omega)
          have hend : SizeT.add (e + 2 + s) 2 = e + 2 + s + 2 := SizeT.add_eq (by omega)
          simp only [hpos, hdata, hend] at hturn
          repeat' split at hturn
          all_goals first | omega | cases hturn
  · repeat' split at hturn
    all_goals cases hturn

lemma Regular.ne_threw (h : Regular buf) (cap : Nat) : frameOf cap false buf ≠ .threw := by
  intro hframe
  unfold frameOf at hframe
  rcases hhead : headEnd buf with _ | k <;> simp only [hhead] at hframe
  · split at hframe <;> cases hframe
  · have hle := headEnd_le hhead
    rcases hkind : bodyKind (buf.take k) with _ | _ | n | _ | _ <;> simp only [hkind] at hframe
    case chunked =>
      have hfit := h.sizes k hhead hkind
      have hinit : OnTrack buf (k + 4) (.line (k + 4) []) := ⟨.start, hle⟩
      unfold chunkedFrame at hframe
      rcases hscan : scanBody buf (k + 4) with _ | _ | _ | _ | _ <;> rw [hscan] at hframe <;>
        cases hframe
      obtain ⟨u, hu, hturn⟩ := exists_last_turn hscan
      exact scanTurn_ne_outOfRange h.short hfit
        (hu.invariant hinit fun v w hv hw =>
          (scanTurn_onTrack h.short hfit.not_backwardWrap hv hw).1) hturn
    all_goals
      repeat' split at hframe
      all_goals cases hframe

namespace Exchange

/-- On a regular stream a verdict by a frame is not taken back. -/
lemma verdict_append (x : Exchange) {buf data : Bytes} (h : Regular (buf ++ data))
    (hframe : frameOf x.params.maxResponseBytes false buf ≠ .more) :
    x.verdict (buf ++ data) = x.verdict buf := by
  have happend := frameOf_append h hframe
  unfold verdict
  rw [happend, if_neg fun hm => hframe hm.1, if_neg fun hm => hframe hm.1]
  rcases hmsg : frameOf x.params.maxResponseBytes false buf with _ | ⟨k, body⟩ | _ | _ | _
  case message =>
    have hhead := headEnd_of_message hmsg
    simp only [frameEnding, parseResponse, h.parseStatus_append hhead, take_head_append hhead]
  all_goals rfl

lemma Tidy.withBuffer {x : Exchange} (h : x.Tidy) (hread : x.phase = .read)
    (hempty : x.responseBytes = []) (buf : Bytes) : (x.withBuffer buf).Tidy := by
  refine ⟨fun hc => ?_, h.opened, h.fresh, h.pooled, h.request, fun hp => ?_⟩
  · exact absurd (hempty ▸ h.chunked hc) not_chunkedHead_nil
  · simp [Exchange.withBuffer, hread] at hp

end Exchange

lemma Regular.of_take {stream : Bytes} (h : Regular stream) (i : Nat) :
    Regular (stream.take i) := by
  rw [← List.take_append_drop i stream] at h
  exact h.of_append

/-- The beginning of a regular stream, in two parts. -/
lemma Regular.take {stream : Bytes} (h : Regular stream) {i j : Nat} (hij : i ≤ j) :
    ∃ data, stream.take j = stream.take i ++ data ∧ Regular (stream.take i ++ data) := by
  have hsplit : stream.take i ++ (stream.take j).drop i = stream.take j := by
    conv_rhs => rw [← List.take_append_drop i (stream.take j), List.take_take, min_eq_left hij]
  refine ⟨(stream.take j).drop i, hsplit.symm, ?_⟩
  rw [hsplit]
  exact h.of_take j

section Cuts

variable {x : Exchange} {stream : Bytes}

lemma Regular.verdict_take (h : Regular stream) {i j : Nat} (hij : i ≤ j)
    (hframe : frameOf x.params.maxResponseBytes false (stream.take i) ≠ .more) :
    x.verdict (stream.take j) = x.verdict (stream.take i) := by
  obtain ⟨data, hj, hregular⟩ := h.take hij
  rw [hj]
  exact x.verdict_append hregular hframe

lemma Regular.frame_take (h : Regular stream) {i j : Nat} (hij : i ≤ j)
    (hframe : frameOf x.params.maxResponseBytes false (stream.take j) = .more) :
    frameOf x.params.maxResponseBytes false (stream.take i) = .more := by
  by_contra hne
  obtain ⟨data, hj, hregular⟩ := h.take hij
  rw [hj, frameOf_append hregular hne] at hframe
  exact hne hframe

lemma verdict_eq_none {buf : Bytes} :
    x.verdict buf = none ↔
      frameOf x.params.maxResponseBytes false buf = .more ∧
        buf.length ≤ x.params.maxResponseBytes := by
  unfold Exchange.verdict
  split <;> simp_all

/-- Too long without a frame. -/
lemma verdict_eq_readFailed {buf : Bytes} {r : Ending}
    (hmore : frameOf x.params.maxResponseBytes false buf = .more) (h : x.verdict buf = some r) :
    r = ⟨.done, false, badGateway .readFailed⟩ ∧ x.params.maxResponseBytes < buf.length := by
  unfold Exchange.verdict at h
  split at h
  · cases h
  · rename_i hdecided
    rw [hmore] at h
    cases h
    refine ⟨rfl, ?_⟩
    by_contra hle
    exact hdecided ⟨hmore, by omega⟩

/-- A frame shows. -/
lemma frameEnding_ne_readFailed {buf : Bytes} (h : Regular buf)
    (hframe : frameOf x.params.maxResponseBytes false buf ≠ .more) :
    x.verdict buf ≠ some ⟨.done, false, badGateway .readFailed⟩ := by
  unfold Exchange.verdict
  rw [if_neg fun hm => hframe hm.1]
  intro heq
  have herror := congrArg (fun e : Ending => e.result.error) (Option.some.inj heq)
  rcases hmsg : frameOf x.params.maxResponseBytes false buf with _ | ⟨k, body⟩ | _ | _ | _
  case more => exact hframe hmsg
  case threw => exact h.ne_threw _ hmsg
  case message =>
    rw [hmsg] at herror
    simp only [Exchange.frameEnding, parseResponse] at herror
    split at herror <;> cases herror
  case bad =>
    rw [hmsg] at herror
    cases herror
  case hangs =>
    rw [hmsg] at heq
    cases heq

/-- The verdicts that one receive can lead to agree exactly when no frame shows up
beyond the limit. -/
lemma verdicts_agree_iff (h : Regular stream) :
    (∀ i j k r r', x.verdict (stream.take i) = none → x.verdict (stream.take j) = some r →
      x.verdict (stream.take k) = some r' → j ≤ i + Exchange.readChunk →
      k ≤ i + Exchange.readChunk → r = r') ↔
    (frameOf x.params.maxResponseBytes false (stream.take (x.params.maxResponseBytes + 1)) = .more →
      frameOf x.params.maxResponseBytes false
        (stream.take (x.params.maxResponseBytes + Exchange.readChunk)) = .more) := by
  constructor
  · intro hagree hmore
    by_contra hframe
    -- the stream reaches beyond the limit
    have hlong : x.params.maxResponseBytes + 1 ≤ stream.length := by
      by_contra hshort
      rw [List.take_of_length_le (by omega)] at hmore
      rw [List.take_of_length_le (by omega)] at hframe
      exact hframe hmore
    have hnone : x.verdict (stream.take x.params.maxResponseBytes) = none :=
      verdict_eq_none.mpr ⟨h.frame_take (by omega) hmore, List.length_take_le _ _⟩
    have hfailed : x.verdict (stream.take (x.params.maxResponseBytes + 1)) =
        some ⟨.done, false, badGateway .readFailed⟩ := by
      unfold Exchange.verdict
      rw [hmore, if_neg]
      · rfl
      · rw [List.length_take]
        omega
    obtain ⟨r, hr⟩ : ∃ r, x.verdict
        (stream.take (x.params.maxResponseBytes + Exchange.readChunk)) = some r :=
      Option.ne_none_iff_exists'.mp fun hv => hframe (verdict_eq_none.mp hv).1
    have hsame := hagree _ _ _ _ _ hnone hfailed hr (by rw [Exchange.readChunk]; omega) le_rfl
    exact frameEnding_ne_readFailed (h.of_take _) hframe (hr.trans (by rw [← hsame]))
  · intro hlimit i j k r r' hi hj hk hij hik
    obtain ⟨himore, hicap⟩ := verdict_eq_none.mp hi
    have hin : i ≤ stream.length := by
      by_contra hout
      -- the whole stream has no verdict, so no part of it has
      rw [List.take_of_length_le (by omega)] at himore hicap
      have hjmore : frameOf x.params.maxResponseBytes false (stream.take j) = .more := by
        refine h.frame_take (Nat.le_max_left j stream.length) ?_
        rwa [List.take_of_length_le (Nat.le_max_right _ _)]
      have hlen := (verdict_eq_readFailed hjmore hj).2
      rw [List.length_take] at hlen
      omega
    rw [List.length_take_of_le hin] at hicap
    have hbeyond : ∀ m q, frameOf x.params.maxResponseBytes false (stream.take m) = .more →
        x.verdict (stream.take m) = some q → ∀ n ≤ i + Exchange.readChunk,
        frameOf x.params.maxResponseBytes false (stream.take n) = .more := by
      intro m q hmore hm n hn
      have hlen := (verdict_eq_readFailed hmore hm).2
      rw [List.length_take] at hlen
      exact h.frame_take (by omega) (hlimit (h.frame_take (by omega) hmore))
    by_cases hjmore : frameOf x.params.maxResponseBytes false (stream.take j) = .more
    · have hkmore := hbeyond j r hjmore hj k hik
      rw [(verdict_eq_readFailed hjmore hj).1, (verdict_eq_readFailed hkmore hk).1]
    · by_cases hkmore : frameOf x.params.maxResponseBytes false (stream.take k) = .more
      · exact absurd (hbeyond k r' hkmore hk j hij) hjmore
      · rcases Nat.le_total j k with hjk | hkj
        · rw [h.verdict_take hjk hjmore, hj] at hk
          exact Option.some.inj hk
        · rw [h.verdict_take hkj hkmore, hk] at hj
          exact (Option.some.inj hj).symm

end Cuts

/-- The request has been sent on a fresh connection. -/
def sentOnFresh (params : Params) : Pool × Exchange :=
  (Exchange.start params).run (fun _ => [])
    [{ freshSock := 1 }, { send := .wrote 1000 }, {}]

lemma okResponse_regular : Regular okResponse := by
  have hhead : headEnd okResponse = some 34 := by decide +kernel
  have hkind : bodyKind (okResponse.take 34) = .length 0 := by decide +kernel
  refine ⟨by decide +kernel, ?_, ?_, ?_, ?_⟩ <;> intro h
  · intro hh
    cases hhead.symm.trans hh
    decide
  · intro hh
    cases hhead.symm.trans hh
    decide +kernel
  · intro n hh hn
    cases hhead.symm.trans hh
    cases hkind.symm.trans hn
    decide
  · intro hh hn
    cases hhead.symm.trans hh
    cases hkind.symm.trans hn

/-- A backend with a limit of ten bytes. -/
def tightParams : Params := { backendParams with maxResponseBytes := 10 }

end EpollGateway.Upstream
