import EpollGateway.Http.LineEndings

/-! # Bounds of the parser

The limits of the parser are tested behind the append that may exceed them, so what it keeps
is one byte longer than the limit when it refuses. `Calm` holds while the parser asks for
more, `Bounded` also when it has stopped (`after_step`).

The counter of a chunk's data is decremented in front of the test on the body. A chunk that
ends with the first byte too many leaves the counter at zero, with the parser still in the
data (`refused_at_zero`); the parser does not go on from there.

`operations` lists the `size_t` computations that a byte leads to. None of them wraps.
-/

namespace EpollGateway.Http

open Bytes Feed HttpParser

/-! ## Machine arithmetic -/

/-- A `size_t` computation. -/
inductive Operation where
  | add (a b : Nat)
  | mul (a b : Nat)
  | sub (a b : Nat)
deriving DecidableEq, Repr

/-- What the machine computes. -/
def Operation.machine : Operation → Nat
  | .add a b => SizeT.add a b
  | .mul a b => SizeT.mul a b
  | .sub a b => SizeT.sub a b

/-- What the computation stands for. -/
def Operation.exact : Operation → Int
  | .add a b => a + b
  | .mul a b => a * b
  | .sub a b => a - b

def Operation.Wraps (op : Operation) : Prop := (op.machine : Int) ≠ op.exact

lemma not_wraps_add {a b : Nat} (h : a + b < 2 ^ 64) : ¬ (Operation.add a b).Wraps := by
  have heq := SizeT.add_eq h
  simp [Operation.Wraps, Operation.machine, Operation.exact, heq]

lemma not_wraps_mul {a b : Nat} (h : a * b < 2 ^ 64) : ¬ (Operation.mul a b).Wraps := by
  have heq := SizeT.mul_eq h
  simp [Operation.Wraps, Operation.machine, Operation.exact, heq]

lemma not_wraps_sub {a b : Nat} (h : b ≤ a) : ¬ (Operation.sub a b).Wraps := by
  have heq := SizeT.sub_eq h
  simp only [Operation.Wraps, Operation.machine, Operation.exact, heq]
  omega

/-- The computations of the digit loop over a Content-Length value. -/
def contentLengthOperations : Nat → Bytes → List Operation
  | _, [] => []
  | value, ch :: rest =>
    match decVal? ch with
    | none => []
    | some d =>
      if value > maxBodySize then []
      else
        .mul value 10 :: .add (SizeT.mul value 10) d ::
          contentLengthOperations (SizeT.add (SizeT.mul value 10) d) rest

/-- The computations of the digit loop over a chunk size. -/
def chunkSizeOperations : Nat → Bytes → List Operation
  | _, [] => []
  | size, ch :: rest =>
    match hexVal? ch with
    | none => []
    | some d =>
      let size' := SizeT.add (SizeT.mul size 16) d
      .mul size 16 :: .add (SizeT.mul size 16) d ::
        if size' > maxBodySize then [] else chunkSizeOperations size' rest

/-- The computations at the end of the header block. -/
def endOfHeadersOperations (r : HttpRequest) : List Operation :=
  match r.headers.lookup transferEncodingName with
  | some _ => []
  | none =>
    match r.headers.lookup contentLengthName with
    | some cl => contentLengthOperations 0 cl
    | none => []

/-- The `size_t` computations of the loop body for one byte. -/
def operations (s : Parsing) (c : UInt8) : List Operation :=
  match s.1.state with
  | .header =>
    .add s.1.headersRead 1 ::
      if SizeT.add s.1.headersRead 1 ≤ maxHeadersSize ∧ c = lf ∧ s.1.crSeen ∧ s.1.buffer = [] then
        endOfHeadersOperations s.2
      else []
  | .chunkedBody =>
    match s.1.chunkState with
    | .size =>
      if c = lf ∧ s.1.chunkSizeHexBuffer ≠ [] then
        chunkSizeOperations 0 (s.1.chunkSizeHexBuffer.takeWhile (· ≠ 59))
      else []
    | .data => [.sub s.1.chunkDataRemaining 1]
    | .trailer | .done => []
  | .body => if s.1.bodyRead ≥ maxBodySize then [] else [.add s.1.bodyRead 1]
  | .method | .path | .version | .query | .done => []

/-- A digit loop is left before its value can wrap: the value has at most one digit more
than the limit. -/
lemma contentLengthOperations_exact {value : Nat} (text : Bytes) :
    ∀ op ∈ contentLengthOperations value text, ¬ op.Wraps := by
  induction text generalizing value with
  | nil => simp [contentLengthOperations]
  | cons ch rest ih =>
    intro op hop
    unfold contentLengthOperations at hop
    split at hop
    · simp at hop
    · rename_i d hd
      have hdigit := decVal?_lt ch d hd
      split at hop
      · simp at hop
      · rename_i hle
        have hmax : maxBodySize = 1048576 := rfl
        have hmul : SizeT.mul value 10 = value * 10 := SizeT.mul_eq (by omega)
        rcases List.mem_cons.mp hop with rfl | hop
        · exact not_wraps_mul (by omega)
        · rcases List.mem_cons.mp hop with rfl | hop
          · exact not_wraps_add (by omega)
          · exact ih op hop

lemma chunkSizeOperations_exact {size : Nat} (hsize : size ≤ maxBodySize) (text : Bytes) :
    ∀ op ∈ chunkSizeOperations size text, ¬ op.Wraps := by
  induction text generalizing size with
  | nil => simp [chunkSizeOperations]
  | cons ch rest ih =>
    intro op hop
    unfold chunkSizeOperations at hop
    split at hop
    · simp at hop
    · rename_i d hd
      have hdigit := hexVal?_lt ch d hd
      have hmax : maxBodySize = 1048576 := rfl
      have hmul : SizeT.mul size 16 = size * 16 := SizeT.mul_eq (by omega)
      rcases List.mem_cons.mp hop with rfl | hop
      · exact not_wraps_mul (by omega)
      · rcases List.mem_cons.mp hop with rfl | hop
        · exact not_wraps_add (by omega)
        · split at hop
          · simp at hop
          · rename_i hnext
            exact ih (Nat.not_lt.mp hnext) op hop

/-! ## What the parser keeps -/

/-- A parser that asks for more. -/
structure Calm (s : Parsing) : Prop where
  buffer : s.1.buffer.length ≤ 8192
  hex : s.1.chunkSizeHexBuffer.length ≤ 16
  body : s.2.body.length ≤ maxBodySize
  headers : s.1.headersRead ≤ maxHeadersSize
  data : s.1.chunkState = .data → 0 < s.1.chunkDataRemaining
  head : s.1.state.inHead = true → s.2.body = []
  counted : s.1.state = .body →
    s.2.body.length = s.1.bodyRead ∧ s.1.bodyRead < s.1.contentLength ∧
      s.1.contentLength ≤ maxBodySize

/-- A parser at any point of a request, the refusal included. -/
structure Bounded (s : Parsing) : Prop where
  buffer : s.1.buffer.length ≤ 8193
  hex : s.1.chunkSizeHexBuffer.length ≤ 17
  body : s.2.body.length ≤ maxBodySize + 1
  headers : s.1.headersRead ≤ maxHeadersSize + 1
  data : s.1.chunkState = .data → s.1.parseError ≠ .bodyTooLarge → 0 < s.1.chunkDataRemaining

/-- What holds behind a byte, by the answer to it. -/
def BoundedAfter (out : Parsing × Flow) : Prop :=
  match out.2 with
  | .more => Calm out.1
  | _ => Bounded out.1

lemma Calm.bounded {s : Parsing} (h : Calm s) : Bounded s :=
  ⟨h.buffer.trans (by decide), h.hex.trans (by decide), h.body.trans (Nat.le_succ _),
    h.headers.trans (Nat.le_succ _), fun hdata _ => h.data hdata⟩

variable {p : HttpParser} {r : HttpRequest}

lemma Calm.fail (h : Calm (p, r)) (e : ParseError) : Bounded (p.fail e, r) :=
  ⟨h.bounded.buffer, h.bounded.hex, h.bounded.body, h.bounded.headers, fun hdata _ => h.data hdata⟩

section Steps

variable {p : HttpParser} {r : HttpRequest}

/-- The part that is done is taken out of the buffer; the parser stays in the head. -/
lemma boundedAfter_taken (h : Calm (p, r)) {s : State} {r' : HttpRequest} {cr : Bool}
    (hs : s.inHead = true) (hr : r'.body = []) :
    BoundedAfter (({ p with buffer := [], state := s, crSeen := cr }, r'), .more) :=
  ⟨by simp, h.hex, by simp [hr], h.headers, h.data, fun _ => hr, by
    rintro rfl
    cases hs⟩

lemma boundedAfter_pushRequestLine (h : Calm (p, r)) (c : UInt8) :
    BoundedAfter (pushRequestLine p r c) := by
  have hlen : (p.buffer ++ [c]).length ≤ 8193 := by
    rw [List.length_append, List.length_singleton]
    exact Nat.succ_le_succ h.buffer
  unfold pushRequestLine
  dsimp only
  split
  · exact ⟨hlen, h.bounded.hex, h.bounded.body, h.bounded.headers, fun hdata _ => h.data hdata⟩
  · rename_i hcap
    exact ⟨Nat.not_lt.mp hcap, h.hex, h.body, h.headers, h.data, h.head, h.counted⟩

lemma boundedAfter_endOfHeaders (h : Calm (p, r)) (hbody : r.body = []) :
    BoundedAfter (endOfHeaders p r) := by
  unfold endOfHeaders
  split
  · split
    · exact h.fail _
    · exact ⟨h.buffer, by simp, h.body, h.headers, by simp, by simp [State.inHead], by simp⟩
  · split
    · rename_i cl _
      dsimp only
      split
      · exact h.fail _
      · split
        · exact ⟨h.bounded.buffer, h.bounded.hex, h.bounded.body, h.bounded.headers,
            fun hdata _ => h.data hdata⟩
        · rename_i hcap
          split
          · rename_i hpos
            exact ⟨h.buffer, h.hex, h.body, h.headers, h.data, by simp [State.inHead],
              fun _ => ⟨by simp [hbody], hpos, Nat.not_lt.mp hcap⟩⟩
          · exact ⟨h.bounded.buffer, h.bounded.hex, h.bounded.body, h.bounded.headers,
              fun hdata _ => h.data hdata⟩
    · exact ⟨h.bounded.buffer, h.bounded.hex, h.bounded.body, h.bounded.headers,
        fun hdata _ => h.data hdata⟩

lemma boundedAfter_headerLine (h : Calm (p, r)) (hstate : p.state = .header) :
    BoundedAfter (headerLine p r) := by
  have hhead : p.state.inHead = true := by
    rw [hstate]
    rfl
  unfold headerLine
  split
  · exact h.fail _
  · split
    · exact boundedAfter_taken h hhead (h.head hhead)
    · exact h.fail _

lemma boundedAfter_stepHeader (h : Calm (p, r)) (hstate : p.state = .header) (c : UInt8) :
    BoundedAfter (stepHeader p r c) := by
  have hmax : maxHeadersSize = 65536 := rfl
  have hread : SizeT.add p.headersRead 1 = p.headersRead + 1 := by
    have hle : p.headersRead ≤ maxHeadersSize := h.headers
    exact SizeT.add_eq (by omega)
  have hbody : r.body = [] := h.head (by simp [hstate, State.inHead])
  unfold stepHeader
  dsimp only
  rw [hread]
  split
  · exact ⟨h.bounded.buffer, h.bounded.hex, h.bounded.body, Nat.succ_le_succ h.headers,
      fun hdata _ => h.data hdata⟩
  · rename_i hcap
    have hcount : Calm ({ p with headersRead := p.headersRead + 1 }, r) :=
      ⟨h.buffer, h.hex, h.body, Nat.not_lt.mp hcap, h.data, h.head, h.counted⟩
    split
    · exact ⟨hcount.buffer, hcount.hex, hcount.body, hcount.headers, hcount.data, hcount.head,
        hcount.counted⟩
    · split
      · split
        · exact hcount.fail _
        · have hline : Calm ({ p with headersRead := p.headersRead + 1, crSeen := false }, r) :=
            ⟨hcount.buffer, hcount.hex, hcount.body, hcount.headers, hcount.data, hcount.head,
              hcount.counted⟩
          split
          · exact boundedAfter_endOfHeaders hline hbody
          · exact boundedAfter_headerLine hline hstate
      · have hlen : (p.buffer ++ [c]).length ≤ 8193 := by
          rw [List.length_append, List.length_singleton]
          exact Nat.succ_le_succ h.buffer
        split
        · exact ⟨hlen, hcount.bounded.hex, hcount.bounded.body, hcount.bounded.headers,
            fun hdata _ => h.data hdata⟩
        · rename_i hline
          exact ⟨Nat.not_lt.mp hline, hcount.hex, hcount.body, hcount.headers, hcount.data,
            hcount.head, hcount.counted⟩

/-- A chunk without data is the last one, so the counter of a chunk's data starts above
zero. -/
lemma boundedAfter_chunkSizeLine (h : Calm (p, r)) (hstate : p.state = .chunkedBody) :
    BoundedAfter (chunkSizeLine p r) := by
  unfold chunkSizeLine
  dsimp only
  split
  · exact h.fail _
  · split
    · exact ⟨by simp, by simp, h.body, h.headers, by simp, by simp [hstate, State.inHead],
        by simp [hstate]⟩
    · rename_i hsize
      exact ⟨h.buffer, by simp, h.body, h.headers, fun _ => Nat.pos_of_ne_zero hsize,
        by simp [hstate, State.inHead], by simp [hstate]⟩

lemma boundedAfter_stepChunkSize (h : Calm (p, r)) (hstate : p.state = .chunkedBody)
    (c : UInt8) : BoundedAfter (stepChunkSize p r c) := by
  unfold stepChunkSize
  split
  · exact h
  · split
    · split
      · exact h
      · exact boundedAfter_chunkSizeLine h hstate
    · have hlen : (p.chunkSizeHexBuffer ++ [c]).length ≤ 17 := by
        rw [List.length_append, List.length_singleton]
        exact Nat.succ_le_succ h.hex
      dsimp only
      split
      · exact ⟨h.bounded.buffer, hlen, h.bounded.body, h.bounded.headers,
          fun hdata _ => h.data hdata⟩
      · rename_i hcap
        exact ⟨h.buffer, Nat.not_lt.mp hcap, h.body, h.headers, h.data, h.head, h.counted⟩

/-- A byte of a chunk's data; only a refusal can leave the counter at zero here. -/
lemma boundedAfter_stepChunkData (h : Calm (p, r)) (hstate : p.state = .chunkedBody)
    (hdata : p.chunkState = .data) (c : UInt8) : BoundedAfter (stepChunkData p r c) := by
  have hpos := h.data hdata
  have hsub : SizeT.sub p.chunkDataRemaining 1 = p.chunkDataRemaining - 1 := SizeT.sub_eq hpos
  have hlen : (r.body ++ [c]).length ≤ maxBodySize + 1 := by
    rw [List.length_append, List.length_singleton]
    exact Nat.succ_le_succ h.body
  unfold stepChunkData
  dsimp only
  rw [hsub]
  split
  · exact ⟨h.bounded.buffer, h.bounded.hex, hlen, h.bounded.headers,
      fun _ herror => absurd rfl herror⟩
  · rename_i hcap
    split
    · exact ⟨h.buffer, h.hex, Nat.not_lt.mp hcap, h.headers, by simp,
        by simp [hstate, State.inHead], by simp [hstate]⟩
    · rename_i hleft
      exact ⟨h.buffer, h.hex, Nat.not_lt.mp hcap, h.headers, fun _ => Nat.pos_of_ne_zero hleft,
        by simp [hstate, State.inHead], by simp [hstate]⟩

lemma boundedAfter_stepChunkTrailer (h : Calm (p, r)) (c : UInt8) :
    BoundedAfter (stepChunkTrailer p r c) := by
  unfold stepChunkTrailer
  split
  · exact h
  · split
    · split
      · exact ⟨h.bounded.buffer, h.bounded.hex, h.bounded.body, h.bounded.headers,
          fun hdata _ => h.data hdata⟩
      · exact ⟨by simp, h.hex, h.body, h.headers, h.data, h.head, h.counted⟩
    · have hlen : (p.buffer ++ [c]).length ≤ 8193 := by
        rw [List.length_append, List.length_singleton]
        exact Nat.succ_le_succ h.buffer
      dsimp only
      split
      · exact ⟨hlen, h.bounded.hex, h.bounded.body, h.bounded.headers, fun hdata _ => h.data hdata⟩
      · rename_i hcap
        exact ⟨Nat.not_lt.mp hcap, h.hex, h.body, h.headers, h.data, h.head, h.counted⟩

lemma boundedAfter_stepBody (h : Calm (p, r)) (hstate : p.state = .body) (c : UInt8) :
    BoundedAfter (stepBody p r c) := by
  rcases h.counted hstate with ⟨hread, hlt, hcl⟩
  dsimp only at hread hlt hcl
  have hmax : maxBodySize = 1048576 := rfl
  have hadd : SizeT.add p.bodyRead 1 = p.bodyRead + 1 := SizeT.add_eq (by omega)
  have hlen : (r.body ++ [c]).length = p.bodyRead + 1 := by
    rw [List.length_append, List.length_singleton, hread]
  unfold stepBody
  split
  · exact h.fail _
  · dsimp only
    rw [hadd]
    split
    · refine ⟨h.bounded.buffer, h.bounded.hex, ?_, h.bounded.headers, fun hdata _ => h.data hdata⟩
      dsimp only
      omega
    · rename_i hmore
      refine ⟨h.buffer, h.hex, ?_, h.headers, h.data, by simp [hstate, State.inHead],
        fun _ => ⟨hlen, Nat.not_le.mp hmore, hcl⟩⟩
      dsimp only
      omega

end Steps

/-- One byte keeps the bounds. -/
lemma after_step {s : Parsing} (h : Calm s) (c : UInt8) : BoundedAfter (step s c) := by
  rcases s with ⟨p, r⟩
  have hcrSeen : Calm ({ p with crSeen := false }, r) :=
    ⟨h.buffer, h.hex, h.body, h.headers, h.data, h.head, h.counted⟩
  have hhead := h.head
  unfold step
  rcases hs : p.state with _ | _ | _ | _ | _ | _ | _ | _ <;>
    simp only [hs, State.inHead, forall_const] at hhead ⊢
  · -- the method
    unfold stepMethod
    split
    · exact boundedAfter_taken h (by rfl) hhead
    · split
      · exact h.fail _
      · exact boundedAfter_pushRequestLine h c
  · unfold stepPath
    split
    · exact boundedAfter_taken h (by rfl) hhead
    · split
      · exact boundedAfter_taken h (by rfl) hhead
      · split
        · exact h.fail _
        · exact boundedAfter_pushRequestLine h c
  · unfold stepVersion
    split
    · exact ⟨h.buffer, h.hex, h.body, h.headers, h.data, h.head, h.counted⟩
    · split
      · split
        · exact h.fail _
        · exact boundedAfter_taken h (by rfl) hhead
      · split
        · exact h.fail _
        · exact boundedAfter_pushRequestLine hcrSeen c
  · unfold stepQuery
    split
    · exact boundedAfter_taken h (by rfl) hhead
    · split
      · exact h.fail _
      · exact boundedAfter_pushRequestLine h c
  · exact boundedAfter_stepHeader h hs c
  · unfold stepChunkedBody
    split
    · exact boundedAfter_stepChunkSize h hs c
    · exact boundedAfter_stepChunkData h hs ‹_› c
    · exact boundedAfter_stepChunkTrailer h c
    · exact h
  · exact boundedAfter_stepBody h hs c
  · exact h.bounded

/-- The computations for the next byte are exact. -/
lemma Calm.exact {s : Parsing} (h : Calm s) (c : UInt8) : ∀ op ∈ operations s c, ¬ op.Wraps := by
  have hbody : maxBodySize = 1048576 := rfl
  have hheaders : maxHeadersSize = 65536 := rfl
  have hread := h.headers
  intro op hop
  unfold operations at hop
  split at hop
  · rcases List.mem_cons.mp hop with rfl | hop
    · exact not_wraps_add (by omega)
    · split at hop
      · unfold endOfHeadersOperations at hop
        split at hop
        · simp at hop
        · split at hop
          · exact contentLengthOperations_exact _ op hop
          · simp at hop
      · simp at hop
  · split at hop
    · split at hop
      · exact chunkSizeOperations_exact (Nat.zero_le _) _ op hop
      · simp at hop
    · rename_i hdata
      rw [List.mem_singleton] at hop
      subst hop
      exact not_wraps_sub (h.data hdata)
    · simp at hop
    · simp at hop
  · rename_i hstate
    rcases h.counted hstate with ⟨-, hlt, hcl⟩
    split at hop
    · simp at hop
    · rw [List.mem_singleton] at hop
      subst hop
      exact not_wraps_add (by omega)
  all_goals simp at hop

/-! ## Runs -/

lemma calm_fresh : Calm ({}, {}) :=
  ⟨by decide, by decide, by decide, by decide, by decide, fun _ => rfl, by decide⟩

lemma boundedAfter_feed (data : Bytes) :
    BoundedAfter ((feed step ({}, {}) data).state,
      (feed step ({}, {}) data).flow) :=
  feed_invariant (I := fun f s => BoundedAfter (s, f)) (fun _ c hs => after_step hs c) calm_fresh
    data

lemma BoundedAfter.bounded {out : Parsing × Flow} (h : BoundedAfter out) : Bounded out.1 := by
  unfold BoundedAfter at h
  split at h
  · exact h.bounded
  · exact h

/-- What the parser keeps of any stream, however it is cut and wherever it ends, is bounded;
while it waits, the computations for the next byte are exact. -/
theorem parser_bounded (frags : List Bytes) :
    Bounded ((feedFragments {} {} [] frags).parser, (feedFragments {} {} [] frags).request) ∧
    ((feedFragments {} {} [] frags).outcome = .waiting →
      ∀ c, ∀ op ∈ operations ((feedFragments {} {} [] frags).parser,
        (feedFragments {} {} [] frags).request) c, ¬ op.Wraps) := by
  have hafter := boundedAfter_feed frags.flatten
  rw [feedFragments_eq_parseOnce {} {} (by decide) rfl]
  refine ⟨hafter.bounded, fun hwait => ?_⟩
  have hmore : (feed step ({}, {}) frags.flatten).flow = .more := by
    by_contra hstop
    exact outcome_of_stop healthy_fresh {} hstop hwait
  rw [hmore] at hafter
  exact hafter.exact

/-! ## A chunk that ends one byte too late -/

/-- The data of a chunk, all but its end. -/
lemma leads_inChunkData (hstate : p.state = .chunkedBody) (hdata : p.chunkState = .data)
    (data : Bytes) (hlt : data.length < p.chunkDataRemaining)
    (hcap : r.body.length + data.length ≤ maxBodySize) :
    Leads step (p, r) data
      ({ p with chunkDataRemaining := p.chunkDataRemaining - data.length },
        { r with body := r.body ++ data }) := by
  have hstep : ∀ zs c ws, data = zs ++ c :: ws →
      step ({ p with chunkDataRemaining := p.chunkDataRemaining - zs.length },
        { r with body := r.body ++ zs }) c =
      (({ p with chunkDataRemaining := p.chunkDataRemaining - (zs ++ [c]).length },
        { r with body := r.body ++ (zs ++ [c]) }), .more) := by
    intro zs c ws hzs
    have hlen : data.length = zs.length + (ws.length + 1) := by simp [hzs]
    have hsub : SizeT.sub (p.chunkDataRemaining - zs.length) 1 =
        p.chunkDataRemaining - (zs.length + 1) := by
      rw [SizeT.sub_eq (by omega)]
      omega
    simp [step, hstate, stepChunkedBody, hdata, stepChunkData, hsub,
      show ¬ maxBodySize < r.body.length + (zs.length + 1) by omega,
      show ¬ p.chunkDataRemaining - (zs.length + 1) = 0 by omega]
  have hrun := Leads.collect (g := fun zs : Bytes =>
    (({ p with chunkDataRemaining := p.chunkDataRemaining - zs.length },
      { r with body := r.body ++ zs }) : Parsing)) hstep
  simpa using hrun

/-- The head of a request, and a size line for one byte more than a body may have. -/
def longChunkHead : Bytes :=
  ascii "POST / HTTP/1.1\r\nTransfer-Encoding: chunked\r\n\r\n100001\r\n"

/-- The parser in front of the data. -/
def longChunkParser : HttpParser :=
  { betweenChunks 30 with chunkState := .data, chunkDataRemaining := maxBodySize + 1 }

lemma feed_longChunkHead :
    (feed step ({}, {}) longChunkHead).flow = .more ∧
      (feed step ({}, {}) longChunkHead).state.1 = longChunkParser ∧
      (feed step ({}, {}) longChunkHead).state.2.body = [] := by
  decide +kernel

/-- The last byte of the chunk is the first one too many. -/
lemma stepChunkData_refused (hone : p.chunkDataRemaining = 1)
    (hfull : r.body.length = maxBodySize) (c : UInt8) :
    stepChunkData p r c =
      ((fail { p with chunkDataRemaining := 0 } .bodyTooLarge,
        { r with body := r.body ++ [c] }), .reject) := by
  have hlen : (r.body ++ [c]).length > maxBodySize := by simp [hfull]
  unfold stepChunkData
  dsimp only
  rw [if_pos hlen, hone]
  rfl

/-- A refused request in whose last state the parser is in the data of a chunk with none of
it left. -/
theorem refused_at_zero :
    ∃ frags : List Bytes,
      (feedFragments {} {} [] frags).outcome = .error .bodyTooLarge ∧
      (feedFragments {} {} [] frags).parser.chunkState = .data ∧
      (feedFragments {} {} [] frags).parser.chunkDataRemaining = 0 := by
  rcases feed_longChunkHead with ⟨hmore, hparser, hbody⟩
  have hused := used_of_more hmore
  rcases hhead : feed step ({}, {}) longChunkHead with ⟨⟨p, r⟩, flow, used⟩
  rw [hhead] at hmore hparser hbody hused
  dsimp only at hmore hparser hbody hused
  subst hmore hparser hused
  -- the data without its last byte, and the last byte
  have hdata := leads_inChunkData (p := longChunkParser) (r := r) rfl rfl
    (List.replicate maxBodySize 97)
    (by rw [List.length_replicate]; exact Nat.lt_succ_self maxBodySize)
    (by rw [hbody, List.length_replicate, List.length_nil, Nat.zero_add])
  have hlast := stepChunkData_refused
    (p := { longChunkParser with
      chunkDataRemaining := longChunkParser.chunkDataRemaining -
        (List.replicate maxBodySize (97 : UInt8)).length })
    (r := { r with body := r.body ++ List.replicate maxBodySize 97 })
    (by rw [List.length_replicate]; exact Nat.add_sub_cancel_left maxBodySize 1)
    (by simp [hbody]) 97
  have hlead : Leads step ({}, {}) longChunkHead (longChunkParser, r) := hhead
  have hrun := hlead.append hdata
  refine ⟨[(longChunkHead ++ List.replicate maxBodySize 97) ++ [97]], ?_⟩
  rw [feedFragments_eq_parseOnce {} {} (by decide) rfl, List.flatten_singleton]
  unfold parseOnce parse
  rw [feed_append [97] (congrArg Fed.flow hrun), show (feed _ _ _).state = _ from
    congrArg Fed.state hrun, feed_cons_stop hlast (by decide)]
  exact ⟨rfl, rfl, rfl⟩

end EpollGateway.Http
