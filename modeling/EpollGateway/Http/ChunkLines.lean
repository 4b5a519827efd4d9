import EpollGateway.Http.Wire

/-! # The lines of a chunked body

In the chunk states the parser skips every CR and takes a LF as a line end; the
line end behind chunk data is read in the state `SIZE`, where an empty line counts
for nothing. The parser therefore does not know whether a LF came behind a CR, or
whether chunk data was ended at all. The ghost `Edge` remembers what stood in
front of a byte, and `LineStrict` says what a byte outside chunk data has to be at
each edge. The lemmas follow a well-formed chunked body through the parser: every
step meets the condition.
-/

namespace EpollGateway.Http

open Bytes Feed

/-! ## Characters and numbers -/

lemma isTchar_toLower : ∀ c, isTchar c → isTchar (toLower c) :=
  forall_byte (by decide +kernel)

lemma isTchar_clean : ∀ c, isTchar c → c ≠ cr ∧ c ≠ lf ∧ c ≠ 58 :=
  forall_byte (by decide +kernel)

lemma isValidFieldValueChar_clean : ∀ c, isValidFieldValueChar c → c ≠ cr ∧ c ≠ lf :=
  forall_byte (by decide +kernel)

lemma isValidRequestLineChar_clean : ∀ c, isValidRequestLineChar c → c ≠ cr ∧ c ≠ lf ∧ c ≠ sp :=
  forall_byte (by decide +kernel)

lemma hexVal?_clean : ∀ c, (hexVal? c).isSome → c ≠ cr ∧ c ≠ lf ∧ c ≠ 59 :=
  forall_byte (by decide +kernel)

variable {n size : Nat} {r : HttpRequest}

/-- The Content-Length loop computes the numeral, as long as it is in range. -/
lemma contentLengthLoop_numeral {value : Nat} {text : Bytes}
    (h : numeralFrom 10 decVal? value text = some n) (hn : n ≤ maxBodySize) :
    contentLengthLoop value text = (true, n) := by
  induction text generalizing value with
  | nil => simp_all [numeralFrom, contentLengthLoop]
  | cons c cs ih =>
    obtain ⟨d, hd, hrest⟩ := numeralFrom_cons.mp h
    have hle := le_of_numeralFrom (by decide) h
    have hd10 := decVal?_lt c d hd
    have hmax : maxBodySize = 1048576 := rfl
    have hmul : SizeT.mul value 10 = value * 10 := SizeT.mul_eq (by omega)
    have hadd : SizeT.add (SizeT.mul value 10) d = value * 10 + d := by
      rw [hmul, SizeT.add_eq (by omega)]
    simp [contentLengthLoop, hd, show ¬ value > maxBodySize by omega, hadd, ih hrest]

/-- The chunk size loop computes the numeral, as long as it is in range. -/
lemma chunkSizeLoop_numeral {text : Bytes} (h : numeralFrom 16 hexVal? size text = some n)
    (hn : n ≤ maxBodySize) : chunkSizeLoop size text = (true, n) := by
  induction text generalizing size with
  | nil => simp_all [numeralFrom, chunkSizeLoop]
  | cons c cs ih =>
    obtain ⟨d, hd, hrest⟩ := numeralFrom_cons.mp h
    have hle := le_of_numeralFrom (by decide) h
    have hle' := le_of_numeralFrom (by decide) hrest
    have hd16 := hexVal?_lt c d hd
    have hmax : maxBodySize = 1048576 := rfl
    have hmul : SizeT.mul size 16 = size * 16 := SizeT.mul_eq (by omega)
    have hadd : SizeT.add (SizeT.mul size 16) d = size * 16 + d := by
      rw [hmul, SizeT.add_eq (by omega)]
    simp [chunkSizeLoop, hd, hadd, show ¬ size * 16 + d > maxBodySize by omega, ih hrest]

/-! ## Positions -/

/-- The parser at the start of a header line, `n` bytes into the block. -/
def betweenHeaders (n : Nat) : HttpParser := { state := .header, headersRead := n }

/-- The parser in front of a chunk size line. -/
def betweenChunks (n : Nat) : HttpParser := { betweenHeaders n with state := .chunkedBody }

/-- The parser in the trailer section. -/
def inTrailer (n : Nat) : HttpParser := { betweenChunks n with chunkState := .trailer }

/-! ## Edges -/

/-- What stands directly in front of the next byte of the body. -/
inductive Edge where
  | lineEnd
  | data
  | cr
  | text
deriving DecidableEq, Repr

/-- The edge behind a byte that the parser reads. -/
def Edge.after (p : HttpParser) (c : UInt8) : Edge :=
  if p.chunkState = .data then .data
  else if c = Bytes.cr then .cr
  else if c = lf then .lineEnd
  else .text

/-- The body begins behind the line end of the header block. -/
def keepEdge (e : Edge) (s : Parsing) (c : UInt8) : Edge :=
  if s.1.state = .chunkedBody then Edge.after s.1 c else e

/-- The parser with the edge beside it. -/
def edgedStep : Edge × Parsing → UInt8 → (Edge × Parsing) × Flow := track keepEdge HttpParser.step

/-- What the chunked format lets stand behind an edge. Only the trailer section
may have an empty line. -/
def Edge.Allows (e : Edge) (chunkState : ChunkState) (c : UInt8) : Prop :=
  match e with
  | .data => c = Bytes.cr
  | .cr => c = lf
  | .lineEnd => c ≠ lf ∧ (c = Bytes.cr → chunkState = .trailer)
  | .text => c ≠ lf

instance : (e : Edge) → (chunkState : ChunkState) → (c : UInt8) →
    Decidable (e.Allows chunkState c)
  | .data, _, c => inferInstanceAs (Decidable (c = Bytes.cr))
  | .cr, _, c => inferInstanceAs (Decidable (c = lf))
  | .lineEnd, chunkState, c =>
    inferInstanceAs (Decidable (c ≠ lf ∧ (c = Bytes.cr → chunkState = .trailer)))
  | .text, _, c => inferInstanceAs (Decidable (c ≠ lf))

/-- Outside chunk data, a byte of the body fits its edge. -/
def LineStrict (s : Edge × Parsing) (c : UInt8) : Prop :=
  s.2.1.state = .chunkedBody → s.2.1.chunkState ≠ .data → s.1.Allows s.2.1.chunkState c

instance (s : Edge × Parsing) (c : UInt8) : Decidable (LineStrict s c) :=
  inferInstanceAs (Decidable (_ → _ → _))

/-- A byte of a line: neither CR nor LF, not directly behind chunk data or a CR. -/
lemma lineStrict_text {e : Edge} {p : HttpParser} {c : UInt8} (he : e = .lineEnd ∨ e = .text)
    (hc : c ≠ cr ∧ c ≠ lf) : LineStrict (e, (p, r)) c := by
  intro _ _
  rcases he with rfl | rfl
  · exact ⟨hc.2, fun h => absurd h hc.1⟩
  · exact hc.2

/-! ## A well-formed body, part by part -/

lemma SizeLine.Denotes.clean {l : SizeLine} (h : l.Denotes size) :
    ∀ c ∈ l.text, c ≠ cr ∧ c ≠ lf := by
  intro c hc
  rcases List.mem_append.mp hc with hc | hc
  · have hdigit := hexVal?_clean c (digit_of_numeralFrom h.value c hc)
    exact ⟨hdigit.1, hdigit.2.1⟩
  · exact ⟨fun heq => h.ext_clean.1 (heq ▸ hc), fun heq => h.ext_clean.2 (heq ▸ hc)⟩

/-- The digits are what stands in front of the extension mark. -/
lemma SizeLine.Denotes.takeWhile {l : SizeLine} (h : l.Denotes size) :
    l.text.takeWhile (· ≠ 59) = l.digits := by
  have hdigits : ∀ c ∈ l.digits, decide (c ≠ 59) = true := by
    intro c hc
    simpa using (hexVal?_clean c (digit_of_numeralFrom h.value c hc)).2.2
  rw [SizeLine.text, List.takeWhile_append_of_pos hdigits]
  rcases h.ext_mark with hext | hext
  · simp [hext]
  · cases hl : l.ext with
    | nil => simp
    | cons c cs =>
      have hc : c = 59 := by simpa [hl] using hext
      simp [hc]

/-- The edge inside a line, of which `zs` has been read. -/
def Edge.inLine (zs : Bytes) : Edge := if zs = [] then .lineEnd else .text

lemma Edge.inLine_cases (zs : Bytes) : Edge.inLine zs = .lineEnd ∨ Edge.inLine zs = .text := by
  unfold Edge.inLine
  split <;> simp

@[simp] lemma Edge.inLine_append (zs : Bytes) (c : UInt8) :
    Edge.inLine (zs ++ [c]) = .text := by
  simp [Edge.inLine]

/-- A step inside the body, with its edge. -/
lemma edgedStep_of_step {e : Edge} {p : HttpParser} {c : UInt8} {t : Parsing} {f : Flow}
    (hstate : p.state = .chunkedBody) (h : HttpParser.step (p, r) c = (t, f)) :
    edgedStep (e, (p, r)) c = ((Edge.after p c, t), f) := by
  simp [edgedStep, track, keepEdge, hstate, h]

/-- A size line hands its size over. -/
lemma leads_sizeLine (r : HttpRequest) {l : SizeLine} (hl : l.Denotes size)
    (hcap : size ≤ maxBodySize) :
    GuardedLeads edgedStep LineStrict (.lineEnd, (betweenChunks n, r)) (l.text ++ crlf)
      (.lineEnd, (if size = 0 then inTrailer n
        else { betweenChunks n with chunkState := .data, chunkDataRemaining := size }, r)) := by
  have htext : GuardedLeads edgedStep LineStrict (.lineEnd, (betweenChunks n, r)) l.text
      (Edge.inLine l.text, ({ betweenChunks n with chunkSizeHexBuffer := l.text }, r)) := by
    refine GuardedLeads.collect
      (g := fun zs => (Edge.inLine zs, ({ betweenChunks n with chunkSizeHexBuffer := zs }, r))) ?_
    intro zs c ws hzs
    have hlen : l.text.length = zs.length + (ws.length + 1) := by simp [hzs]
    have hle := hl.cap
    have hc := hl.clean c (by simp [hzs])
    constructor
    · rw [edgedStep_of_step (t := ({ betweenChunks n with chunkSizeHexBuffer := zs ++ [c] }, r))
        (f := .more) rfl]
      · simp [Edge.after, betweenChunks, betweenHeaders, hc]
      · simp [HttpParser.step, betweenChunks, betweenHeaders, stepChunkedBody, stepChunkSize, hc,
          show ¬ 16 < zs.length + 1 by omega]
    · exact lineStrict_text (Edge.inLine_cases zs) hc
  have hne : l.text ≠ [] := by simp [SizeLine.text, hl.digits_ne]
  have hedge : Edge.inLine l.text = .text := by simp [Edge.inLine, hne]
  rw [hedge] at htext
  have hcr : GuardedLeads edgedStep LineStrict
      (.text, ({ betweenChunks n with chunkSizeHexBuffer := l.text }, r)) [cr]
      (.cr, ({ betweenChunks n with chunkSizeHexBuffer := l.text }, r)) :=
    GuardedLeads.one (edgedStep_of_step rfl (by
      simp [HttpParser.step, betweenChunks, betweenHeaders, stepChunkedBody, stepChunkSize]))
      (fun _ _ => (by decide : cr ≠ lf))
  have hloop : chunkSizeLoop 0 l.digits = (true, size) := chunkSizeLoop_numeral hl.value hcap
  refine htext.append (hcr.append (GuardedLeads.one ?_ (fun _ _ => rfl)))
  have hstep : HttpParser.step ({ betweenChunks n with chunkSizeHexBuffer := l.text }, r) lf =
      chunkSizeLine { betweenChunks n with chunkSizeHexBuffer := l.text } r := by
    simp [HttpParser.step, betweenChunks, betweenHeaders, stepChunkedBody, stepChunkSize, hne,
      cr, lf]
  refine edgedStep_of_step rfl ?_
  rw [hstep, chunkSizeLine]
  simp only [hl.takeWhile, hloop]
  by_cases hz : size = 0
  · simp [hz, hl.digits_ne, inTrailer, betweenChunks, betweenHeaders]
  · simp [hz, hl.digits_ne, betweenChunks, betweenHeaders]

/-- Chunk data, up to the line end behind it. -/
lemma leads_chunkData {data : Bytes} (hne : data ≠ [])
    (hcap : r.body.length + data.length ≤ maxBodySize) :
    GuardedLeads edgedStep LineStrict
      (.lineEnd,
        ({ betweenChunks n with chunkState := .data, chunkDataRemaining := data.length }, r))
      (data ++ crlf) (.lineEnd, (betweenChunks n, { r with body := r.body ++ data })) := by
  obtain ⟨init, last, rfl⟩ := List.eq_nil_or_concat data |>.resolve_left hne
  simp only [List.concat_eq_append, List.length_append, List.length_cons, List.length_nil,
    Nat.zero_add] at hcap ⊢
  -- all but the last byte: the parser stays in the data, where nothing is asked of the edge
  let g (zs : Bytes) : Edge × Parsing :=
    (if zs = [] then .lineEnd else .data,
      ({ betweenChunks n with
        chunkState := .data, chunkDataRemaining := init.length + 1 - zs.length },
        { r with body := r.body ++ zs }))
  have hinit : GuardedLeads edgedStep LineStrict (g []) init (g init) := by
    refine GuardedLeads.collect ?_
    intro zs c ws hzs
    have hlen : init.length = zs.length + (ws.length + 1) := by simp [hzs]
    have hsub : SizeT.sub (init.length + 1 - zs.length) 1 = init.length - zs.length := by
      rw [SizeT.sub_eq (by omega)]
      omega
    constructor
    · refine (edgedStep_of_step rfl rfl).trans ?_
      simp [betweenChunks, betweenHeaders, stepChunkedBody, stepChunkData, hsub,
        show ¬ init.length - zs.length = 0 by omega, g, Edge.after,
        show ¬ maxBodySize < r.body.length + (zs.length + 1) by omega]
    · intro _ hdata
      exact absurd rfl hdata
  have hlast : GuardedLeads edgedStep LineStrict (g init) [last]
      (.data, (betweenChunks n, { r with body := r.body ++ (init ++ [last]) })) := by
    refine GuardedLeads.one ((edgedStep_of_step rfl rfl).trans ?_) fun _ hdata => absurd rfl hdata
    simp [betweenChunks, betweenHeaders, stepChunkedBody, stepChunkData,
      Edge.after, SizeT.sub, show ¬ maxBodySize < r.body.length + (init.length + 1) by omega]
  -- in the size state, a line end in front of a size line is skipped
  have hcr : GuardedLeads edgedStep LineStrict
      (.data, (betweenChunks n, { r with body := r.body ++ (init ++ [last]) })) [cr]
      (.cr, (betweenChunks n, { r with body := r.body ++ (init ++ [last]) })) :=
    GuardedLeads.one (edgedStep_of_step rfl (by
      simp [HttpParser.step, betweenChunks, betweenHeaders, stepChunkedBody, stepChunkSize]))
      fun _ _ => rfl
  have hlf : GuardedLeads edgedStep LineStrict
      (.cr, (betweenChunks n, { r with body := r.body ++ (init ++ [last]) })) [lf]
      (.lineEnd, (betweenChunks n, { r with body := r.body ++ (init ++ [last]) })) :=
    GuardedLeads.one (edgedStep_of_step rfl (by
      simp [HttpParser.step, betweenChunks, betweenHeaders, stepChunkedBody, stepChunkSize]))
      fun _ _ => rfl
  have hall := (hinit.append hlast).append (hcr.append hlf)
  simpa [g, crlf] using hall

lemma leads_chunks {chunks : List Chunk} (hchunks : ∀ c ∈ chunks, c.WellFormed)
    (hcap : r.body.length + (chunks.flatMap Chunk.data).length ≤ maxBodySize) :
    GuardedLeads edgedStep LineStrict (.lineEnd, (betweenChunks n, r))
      (chunks.flatMap Chunk.serialise)
      (.lineEnd, (betweenChunks n, { r with body := r.body ++ chunks.flatMap Chunk.data })) := by
  induction chunks generalizing r with
  | nil => simpa using GuardedLeads.nil _
  | cons c cs ih =>
    simp only [List.flatMap_cons, List.length_append] at hcap
    have hc := hchunks c (by simp)
    have hpos := List.length_pos_of_ne_nil hc.data_ne
    have hline := leads_sizeLine (n := n) r hc.size (by omega)
    rw [if_neg (by omega)] at hline
    have hdata := leads_chunkData (n := n) (r := r) hc.data_ne (by omega)
    have htail := ih (r := { r with body := r.body ++ c.data })
      (fun d hd => hchunks d (by simp [hd])) (by simp only [List.length_append]; omega)
    have hall := (hline.append hdata).append htail
    simpa [Chunk.serialise] using hall

lemma leads_trailers (r : HttpRequest) {trailers : List Bytes}
    (htrailers : ∀ t ∈ trailers, TrailerLine t) :
    GuardedLeads edgedStep LineStrict (.lineEnd, (inTrailer n, r)) (trailers.flatMap (· ++ crlf))
      (.lineEnd, (inTrailer n, r)) := by
  induction trailers with
  | nil => exact GuardedLeads.nil _
  | cons t ts ih =>
    have ht := htrailers t (by simp)
    have htext : GuardedLeads edgedStep LineStrict (.lineEnd, (inTrailer n, r)) t
        (Edge.inLine t, ({ inTrailer n with buffer := t }, r)) := by
      refine GuardedLeads.collect
        (g := fun zs => (Edge.inLine zs, ({ inTrailer n with buffer := zs }, r))) ?_
      intro zs c ws hzs
      have hlen : t.length = zs.length + (ws.length + 1) := by simp [hzs]
      have hle := ht.cap
      have hcr : c ≠ cr := fun heq => ht.clean.1 (by simp [hzs, heq])
      have hlf : c ≠ lf := fun heq => ht.clean.2 (by simp [hzs, heq])
      constructor
      · refine (edgedStep_of_step rfl rfl).trans ?_
        simp [inTrailer, betweenChunks, betweenHeaders, stepChunkedBody, Edge.after,
          stepChunkTrailer, hcr, hlf, show ¬ maxHeaderLineSize < zs.length + 1 by omega]
      · exact lineStrict_text (Edge.inLine_cases zs) ⟨hcr, hlf⟩
    have hedge : Edge.inLine t = .text := by simp [Edge.inLine, ht.ne]
    rw [hedge] at htext
    have hcr : GuardedLeads edgedStep LineStrict (.text, ({ inTrailer n with buffer := t }, r)) [cr]
        (.cr, ({ inTrailer n with buffer := t }, r)) :=
      GuardedLeads.one (edgedStep_of_step rfl (by
        simp [HttpParser.step, inTrailer, betweenChunks, betweenHeaders, stepChunkedBody,
          stepChunkTrailer])) (fun _ _ => (by decide : cr ≠ lf))
    have hlf : GuardedLeads edgedStep LineStrict (.cr, ({ inTrailer n with buffer := t }, r)) [lf]
        (.lineEnd, (inTrailer n, r)) :=
      GuardedLeads.one (edgedStep_of_step rfl (by
        simp [HttpParser.step, inTrailer, betweenChunks, betweenHeaders, stepChunkedBody,
          stepChunkTrailer, ht.ne, cr, lf])) fun _ _ => rfl
    have hline := htext.append (hcr.append hlf)
    exact hline.append (ih fun u hu => htrailers u (by simp [hu]))

/-- Chunks, the line of the last chunk and the trailer lines. -/
lemma leads_chunkedBody {chunks : List Chunk} {last : SizeLine} {trailers : List Bytes}
    (hr : r.body = []) (hchunks : ∀ c ∈ chunks, c.WellFormed) (hlast : last.Denotes 0)
    (htrailers : ∀ t ∈ trailers, TrailerLine t)
    (hcap : (chunks.flatMap Chunk.data).length ≤ maxBodySize) :
    GuardedLeads edgedStep LineStrict (.lineEnd, (betweenChunks n, r))
      (chunks.flatMap Chunk.serialise ++ (last.text ++ crlf) ++ trailers.flatMap (· ++ crlf))
      (.lineEnd, (inTrailer n, { r with body := chunks.flatMap Chunk.data })) := by
  have h1 := leads_chunks (n := n) (r := r) hchunks (by simpa [hr] using hcap)
  rw [hr, List.nil_append] at h1
  have h2 := leads_sizeLine (n := n) { r with body := chunks.flatMap Chunk.data } hlast (by simp)
  rw [if_pos rfl] at h2
  have h3 := leads_trailers (n := n) { r with body := chunks.flatMap Chunk.data } htrailers
  exact (h1.append h2).append h3

/-- The first byte of the empty line behind the trailers. -/
lemma leads_trailerEnd (r : HttpRequest) :
    GuardedLeads edgedStep LineStrict (.lineEnd, (inTrailer n, r)) [cr] (.cr, (inTrailer n, r)) :=
  GuardedLeads.one (edgedStep_of_step rfl (by
    simp [HttpParser.step, inTrailer, betweenChunks, betweenHeaders, stepChunkedBody,
      stepChunkTrailer])) fun _ _ => ⟨by decide, fun _ => rfl⟩

/-- The second one completes the request. -/
lemma step_trailerEnd (r : HttpRequest) :
    HttpParser.step (inTrailer n, r) lf = (({ inTrailer n with state := .done }, r), .accept) := by
  simp [HttpParser.step, inTrailer, betweenChunks, betweenHeaders, stepChunkedBody,
    stepChunkTrailer, cr, lf]

end EpollGateway.Http
