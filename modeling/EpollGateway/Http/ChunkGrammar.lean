import EpollGateway.Http.LineEndings

/-! # Which chunked bodies are accepted

The chunked format is a sequence of chunks, a line for the last chunk, trailer
lines and an empty line, with CRLF behind every line and behind the data of every
chunk. The parser accepts more: it skips CRs, takes a bare LF as a line end and
does not ask for a line end behind chunk data. `chunked_grammar_iff` says which of
the accepted bodies have the format: those whose bytes outside chunk data fit
their edges.
-/

namespace EpollGateway.Http

open Bytes Feed HttpParser

/-! ## The bytes of the body -/

/-- Record the bytes read in the chunk states. -/
def keepChunkBytes (bytes : Bytes) (s : Edge × Parsing) (c : UInt8) : Bytes :=
  if s.2.1.state = .chunkedBody then bytes ++ [c] else bytes

/-- The parser with its edge and the bytes of the chunked body. -/
def chunkStep : Bytes × (Edge × Parsing) → UInt8 → (Bytes × (Edge × Parsing)) × Flow :=
  track keepChunkBytes edgedStep

/-- The bytes that a fresh parser consumes as the chunked body. -/
def chunkBytes (data : Bytes) : Bytes :=
  (feed chunkStep ([], (.lineEnd, ({}, {}))) data).state.1

/-- `bytes` is a chunked body in the format, and `body` its payload. -/
def ChunkGrammar (bytes body : Bytes) : Prop :=
  ∃ (chunks : List Chunk) (last : SizeLine) (trailers : List Bytes),
    (∀ c ∈ chunks, c.WellFormed) ∧ last.Denotes 0 ∧ (∀ t ∈ trailers, TrailerLine t) ∧
      bytes = chunks.flatMap Chunk.serialise ++ (last.text ++ crlf) ++
        trailers.flatMap (· ++ crlf) ++ crlf ∧
      body = chunks.flatMap Chunk.data

/-! ## Into the body -/

/-- In front of the body only four fields of the parser move. -/
def HttpParser.Plain (p : HttpParser) : Prop :=
  p = { state := p.state, buffer := p.buffer, headersRead := p.headersRead, crSeen := p.crSeen }

variable {p : HttpParser} {r : HttpRequest} {c : UInt8} {bytes : Bytes}

lemma pushRequestLine_plain (h : p.Plain) (hstate : p.state.inHead = true) :
    (pushRequestLine p r c).2 = .reject ∨
      ((pushRequestLine p r c).2 = .more ∧ (pushRequestLine p r c).1.1.Plain ∧
        (pushRequestLine p r c).1.1.state.inHead = true ∧
          (pushRequestLine p r c).1.2.body = r.body) := by
  rcases pushRequestLine_cases p r c with hpush | hpush
  · exact .inl hpush
  · right
    rw [hpush]
    refine ⟨rfl, ?_, hstate, rfl⟩
    rw [h]
    rfl

/-- What a step in the head can do: reject, go on in the head, or end the header
block. -/
lemma step_inHead_cases (h : p.Plain) (hstate : p.state.inHead = true) :
    (step (p, r) c).2 = .reject ∨
      ((step (p, r) c).2 = .more ∧ (step (p, r) c).1.1.Plain ∧
        (step (p, r) c).1.1.state.inHead = true ∧
        (step (p, r) c).1.2.body = r.body) ∨
      ∃ n, step (p, r) c = endOfHeaders (betweenHeaders n) r := by
  -- a step that only touches the four fields keeps the parser plain
  have hplain : ∀ (st : State) (buf : Bytes) (n : Nat) (seen : Bool),
      ({ p with state := st, buffer := buf, headersRead := n, crSeen := seen } :
        HttpParser).Plain := by
    intro st buf n seen
    rw [h]
    rfl
  rcases hs : p.state with _ | _ | _ | _ | _ | _ | _ | _ <;> rw [hs] at hstate <;>
    simp only [State.inHead, reduceCtorEq] at hstate <;> simp only [step, hs]
  case method =>
    unfold stepMethod
    split
    · exact .inr (.inl ⟨rfl, hplain .path [] p.headersRead p.crSeen, rfl, rfl⟩)
    · split
      · exact .inl rfl
      · exact (pushRequestLine_plain h (by simp [hs, State.inHead])).imp_right .inl
  case path =>
    unfold stepPath
    split
    · exact .inr (.inl ⟨rfl, hplain .version [] p.headersRead p.crSeen, rfl, rfl⟩)
    · split
      · exact .inr (.inl ⟨rfl, hplain .query [] p.headersRead p.crSeen, rfl, rfl⟩)
      · split
        · exact .inl rfl
        · exact (pushRequestLine_plain h (by simp [hs, State.inHead])).imp_right .inl
  case query =>
    unfold stepQuery
    split
    · exact .inr (.inl ⟨rfl, hplain .version [] p.headersRead p.crSeen, rfl, rfl⟩)
    · split
      · exact .inl rfl
      · exact (pushRequestLine_plain h (by simp [hs, State.inHead])).imp_right .inl
  case version =>
    unfold stepVersion
    split
    · exact .inr (.inl ⟨rfl, hplain p.state p.buffer p.headersRead true, by simp [hs, State.inHead],
        rfl⟩)
    · split
      · split
        · exact .inl rfl
        · exact .inr (.inl ⟨rfl, hplain .header [] p.headersRead false, rfl, rfl⟩)
      · split
        · exact .inl rfl
        · exact (pushRequestLine_plain (hplain p.state p.buffer p.headersRead false)
            (by simp [hs, State.inHead])).imp_right .inl
  case header =>
    unfold stepHeader
    dsimp only
    split
    · exact .inl rfl
    · split
      · exact .inr (.inl ⟨rfl, hplain p.state p.buffer _ true, by simp [hs, State.inHead], rfl⟩)
      · split
        · split
          · exact .inl rfl
          · split
            · -- the empty line
              rename_i hnil
              refine .inr (.inr ⟨SizeT.add p.headersRead 1, ?_⟩)
              congr 1
              rw [h, hs, hnil]
              rfl
            · unfold headerLine
              split
              · exact .inl rfl
              · dsimp only
                split
                · exact .inr (.inl ⟨rfl, hplain p.state [] _ false, by simp [hs, State.inHead], rfl⟩)
                · exact .inl rfl
        · split
          · exact .inl rfl
          · exact .inr (.inl ⟨rfl, hplain p.state _ _ false, by simp [hs, State.inHead], rfl⟩)

/-- The end of the header block: reject, no transfer coding, or into the chunks. -/
lemma endOfHeaders_between (n : Nat) (r : HttpRequest) :
    (endOfHeaders (betweenHeaders n) r).2 = .reject ∨
      (r.headers.lookup transferEncodingName = none ∧ (endOfHeaders (betweenHeaders n) r).1.2 = r ∧
        ((endOfHeaders (betweenHeaders n) r).2 = .accept ∨
          (endOfHeaders (betweenHeaders n) r).2 = .more ∧
            (endOfHeaders (betweenHeaders n) r).1.1.state = .body)) ∨
      endOfHeaders (betweenHeaders n) r = ((betweenChunks n, r), .more) := by
  unfold endOfHeaders
  rcases hte : r.headers.lookup transferEncodingName with _ | te
  · rcases r.headers.lookup contentLengthName with _ | cl
    · exact .inr (.inl ⟨rfl, rfl, .inl rfl⟩)
    · dsimp only
      split
      · exact .inl rfl
      · split
        · exact .inl rfl
        · split
          · exact .inr (.inl ⟨rfl, rfl, .inr ⟨rfl, rfl⟩⟩)
          · exact .inr (.inl ⟨rfl, rfl, .inl rfl⟩)
  · dsimp only
    split
    · exact .inl rfl
    · exact .inr (.inr rfl)

/-! ## Under the line condition the body has the format -/

/-- In a size line, behind `chunks`. -/
def InSizeLine (chunks : List Chunk) (bytes : Bytes) (e : Edge) (p : HttpParser)
    (r : HttpRequest) : Prop :=
  p.chunkState = .size ∧ r.body = chunks.flatMap Chunk.data ∧
    Unbroken p.chunkSizeHexBuffer ∧ p.chunkSizeHexBuffer.length ≤ 16 ∧
    ((e = .lineEnd ∧ p.chunkSizeHexBuffer = [] ∧ bytes = chunks.flatMap Chunk.serialise) ∨
      (e = .text ∧ p.chunkSizeHexBuffer ≠ [] ∧
        bytes = chunks.flatMap Chunk.serialise ++ p.chunkSizeHexBuffer) ∨
      (e = .cr ∧ p.chunkSizeHexBuffer ≠ [] ∧
        bytes = chunks.flatMap Chunk.serialise ++ p.chunkSizeHexBuffer ++ [cr]))

/-- Directly behind the data of a chunk, or between the CR and the LF there. -/
def BehindData (chunks : List Chunk) (bytes : Bytes) (e : Edge) (p : HttpParser)
    (r : HttpRequest) : Prop :=
  p.chunkState = .size ∧ p.chunkSizeHexBuffer = [] ∧ ∃ c : Chunk, c.WellFormed ∧
    r.body = chunks.flatMap Chunk.data ++ c.data ∧
    ((e = .data ∧ bytes = chunks.flatMap Chunk.serialise ++ (c.size.text ++ crlf ++ c.data)) ∨
      (e = .cr ∧ bytes = chunks.flatMap Chunk.serialise ++ (c.size.text ++ crlf ++ c.data) ++ [cr]))

/-- In the data of a chunk, of which `d` has been read. A size above the cap is
taken from a line that was not read to its end; such a chunk never completes. -/
def InData (chunks : List Chunk) (bytes : Bytes) (p : HttpParser) (r : HttpRequest) : Prop :=
  p.chunkState = .data ∧ p.chunkSizeHexBuffer = [] ∧ ∃ (l : SizeLine) (d : Bytes),
    (d.length + p.chunkDataRemaining ≤ maxBodySize → l.Denotes (d.length + p.chunkDataRemaining)) ∧
    0 < p.chunkDataRemaining ∧ r.body = chunks.flatMap Chunk.data ++ d ∧
    bytes = chunks.flatMap Chunk.serialise ++ (l.text ++ crlf ++ d)

/-- In the trailer section. -/
def InTrailers (chunks : List Chunk) (bytes : Bytes) (e : Edge) (p : HttpParser)
    (r : HttpRequest) : Prop :=
  p.chunkState = .trailer ∧ r.body = chunks.flatMap Chunk.data ∧
    ∃ (last : SizeLine) (trailers : List Bytes), last.Denotes 0 ∧ (∀ t ∈ trailers, TrailerLine t) ∧
      Unbroken p.buffer ∧ p.buffer.length ≤ maxHeaderLineSize ∧
      ((e = .lineEnd ∧ p.buffer = [] ∧
          bytes = chunks.flatMap Chunk.serialise ++ (last.text ++ crlf) ++
            trailers.flatMap (· ++ crlf)) ∨
        (e = .text ∧ p.buffer ≠ [] ∧
          bytes = chunks.flatMap Chunk.serialise ++ (last.text ++ crlf) ++
            trailers.flatMap (· ++ crlf) ++ p.buffer) ∨
        (e = .cr ∧
          bytes = chunks.flatMap Chunk.serialise ++ (last.text ++ crlf) ++
            trailers.flatMap (· ++ crlf) ++ p.buffer ++ [cr]))

/-- The part of the format that has been read. -/
def ChunkShape (bytes : Bytes) (e : Edge) (p : HttpParser) (r : HttpRequest) : Prop :=
  ∃ chunks : List Chunk, (∀ c ∈ chunks, c.WellFormed) ∧
    (InSizeLine chunks bytes e p r ∨ BehindData chunks bytes e p r ∨ InData chunks bytes p r ∨
      InTrailers chunks bytes e p r)

/-- The invariant of a run whose body bytes fit their edges. -/
def Parsing.InFormat : Flow → Bytes × (Edge × Parsing) → Prop
  | .more, (bytes, (e, (p, r))) =>
    match p.state with
    | .chunkedBody => ChunkShape bytes e p r
    | .body => r.headers.lookup transferEncodingName = none
    | .done => False
    | _ => bytes = [] ∧ e = .lineEnd ∧ p.Plain ∧ r.body = []
  | .accept, (bytes, (_, (_, r))) =>
    r.headers.lookup transferEncodingName = none ∨ ChunkGrammar bytes r.body
  | _, _ => True

/-- The chunk size loop says yes to a numeral only, up to the cap. -/
lemma numeral_of_chunkSizeLoop {size n : Nat} {text : Bytes} (hsize : size ≤ maxBodySize)
    (h : chunkSizeLoop size text = (true, n)) (hn : n ≤ maxBodySize) :
    numeralFrom 16 hexVal? size text = some n := by
  have hmax : maxBodySize = 1048576 := rfl
  induction text generalizing size with
  | nil => simpa [chunkSizeLoop, numeralFrom] using h
  | cons c cs ih =>
    rcases hd : hexVal? c with _ | d
    · simp [chunkSizeLoop, hd] at h
    · have hdlt := hexVal?_lt c d hd
      have hmul : SizeT.mul size 16 = size * 16 := SizeT.mul_eq (by omega)
      have hadd : SizeT.add (size * 16) d = size * 16 + d := SizeT.add_eq (by omega)
      simp only [chunkSizeLoop, hd, hmul, hadd] at h
      split at h
      · simp only [Prod.mk.injEq, true_and] at h
        omega
      · rename_i hle
        exact numeralFrom_cons.mpr ⟨d, hd, ih (by omega) h⟩

/-- The size line that stands in the buffer. -/
def sizeLineOf (w : Bytes) : SizeLine :=
  ⟨w.takeWhile (· ≠ 59), w.dropWhile (· ≠ 59)⟩

@[simp] lemma sizeLineOf_text (w : Bytes) : (sizeLineOf w).text = w := by
  simp [sizeLineOf, SizeLine.text]

lemma sizeLineOf_denotes {w : Bytes} {n : Nat} (hne : w.takeWhile (· ≠ 59) ≠ [])
    (hloop : chunkSizeLoop 0 (w.takeWhile (· ≠ 59)) = (true, n)) (hn : n ≤ maxBodySize)
    (hw : Unbroken w) (hcap : w.length ≤ 16) : (sizeLineOf w).Denotes n where
  digits_ne := hne
  value := numeral_of_chunkSizeLoop (by simp) hloop hn
  ext_mark := by
    rcases hext : w.dropWhile (· ≠ 59) with _ | ⟨c, cs⟩
    · exact .inl hext
    · right
      have hhead := List.head?_dropWhile_not (· ≠ (59 : UInt8)) w
      rw [hext] at hhead
      have hc : c = 59 := by simpa using hhead
      change (w.dropWhile (· ≠ 59)).head? = some 59
      rw [hext, hc]
      rfl
  ext_clean := by
    have hsub : ∀ c ∈ (sizeLineOf w).ext, c ∈ w := fun c hc => (List.dropWhile_suffix _).subset hc
    exact ⟨fun h => hw.1 (hsub _ h), fun h => hw.2 (hsub _ h)⟩
  cap := by simpa using hcap

/-- While the parser stays in the chunk states, the invariant is the shape. -/
lemma inFormat_more {e : Edge} (hs : p.state = .chunkedBody) (h : ChunkShape bytes e p r) :
    Parsing.InFormat .more (bytes, (e, (p, r))) := by
  simpa only [Parsing.InFormat, hs] using h

section ChunkStep

variable {chunks : List Chunk} {bytes : Bytes} {e : Edge} {p : HttpParser} {r : HttpRequest}
  {c : UInt8}

/-- A size line is complete: the last chunk opens the trailer section, any other
one its data. -/
lemma chunkSizeLine_format (hchunks : ∀ c ∈ chunks, c.WellFormed) (hs : p.state = .chunkedBody)
    (hbody : r.body = chunks.flatMap Chunk.data) (hclean : Unbroken p.chunkSizeHexBuffer)
    (hcap : p.chunkSizeHexBuffer.length ≤ 16)
    (hbytes : bytes = chunks.flatMap Chunk.serialise ++ p.chunkSizeHexBuffer ++ crlf) :
    Parsing.InFormat (chunkSizeLine p r).2 (bytes, (.lineEnd, (chunkSizeLine p r).1)) := by
  unfold chunkSizeLine
  dsimp only
  rcases hloop : chunkSizeLoop 0 (p.chunkSizeHexBuffer.takeWhile (· ≠ 59)) with ⟨ok, size⟩
  dsimp only
  split
  · trivial
  · rename_i hok
    simp only [not_not] at hok
    obtain ⟨hne, rfl⟩ := hok
    split
    · rename_i hzero
      subst hzero
      have hlast := sizeLineOf_denotes hne hloop (by simp) hclean hcap
      refine inFormat_more hs ⟨chunks, hchunks, .inr (.inr (.inr ?_))⟩
      exact ⟨rfl, hbody, sizeLineOf p.chunkSizeHexBuffer, [], hlast, by simp, Unbroken.nil, by simp,
        .inl ⟨rfl, rfl, by simp [hbytes]⟩⟩
    · rename_i hpos
      refine inFormat_more hs ⟨chunks, hchunks, .inr (.inr (.inl ?_))⟩
      refine ⟨rfl, rfl, sizeLineOf p.chunkSizeHexBuffer, [], ?_, Nat.pos_of_ne_zero hpos, ?_, ?_⟩
      · intro hle
        simpa using sizeLineOf_denotes hne hloop (by simpa using hle) hclean hcap
      · simp [hbody]
      · simp [hbytes]

lemma stepChunkSize_format (hchunks : ∀ c ∈ chunks, c.WellFormed) (hs : p.state = .chunkedBody)
    (h : InSizeLine chunks bytes e p r) (hc : e.Allows .size c) :
    Parsing.InFormat (stepChunkSize p r c).2
      (bytes ++ [c], (Edge.after p c, (stepChunkSize p r c).1)) := by
  obtain ⟨hsize, hbody, hclean, hcap, hedge⟩ := h
  -- a byte of the line joins the buffer
  have htext : c ≠ cr → c ≠ lf →
      bytes = chunks.flatMap Chunk.serialise ++ p.chunkSizeHexBuffer →
      Parsing.InFormat (stepChunkSize p r c).2
        (bytes ++ [c], (Edge.after p c, (stepChunkSize p r c).1)) := by
    intro hcr hlf hbytes
    simp only [stepChunkSize, hcr, hlf, if_false]
    split
    · trivial
    · rename_i hlen
      refine inFormat_more hs ⟨chunks, hchunks, .inl ?_⟩
      refine ⟨hsize, hbody, hclean.snoc hcr hlf, Nat.not_lt.mp hlen, .inr (.inl ⟨?_, ?_, ?_⟩)⟩
      · simp [Edge.after, hsize, hcr, hlf]
      · simp
      · simp [hbytes]
  rcases hedge with ⟨rfl, hnil, hbytes⟩ | ⟨rfl, hne, hbytes⟩ | ⟨rfl, hne, hbytes⟩
  · obtain ⟨hlf, hcr⟩ := hc
    have hcr : c ≠ cr := fun h => absurd (hcr h) (by decide)
    exact htext hcr hlf (by simp [hbytes, hnil])
  · by_cases hcr : c = cr
    · subst hcr
      simp only [stepChunkSize, if_true]
      refine inFormat_more hs ⟨chunks, hchunks, .inl ?_⟩
      exact ⟨hsize, hbody, hclean, hcap,
        .inr (.inr ⟨by simp [Edge.after, hsize], hne, by simp [hbytes]⟩)⟩
    · exact htext hcr hc hbytes
  · obtain rfl : c = lf := hc
    have hstep : stepChunkSize p r lf = chunkSizeLine p r := by
      simp [stepChunkSize, hne, cr, lf]
    have hafter : Edge.after p lf = .lineEnd := by simp [Edge.after, hsize, cr, lf]
    rw [hstep, hafter]
    exact chunkSizeLine_format hchunks hs hbody hclean hcap (by simp [hbytes, crlf])

/-- The line end behind chunk data closes the chunk. -/
lemma stepDataEnd_format (hchunks : ∀ c ∈ chunks, c.WellFormed) (hs : p.state = .chunkedBody)
    (h : BehindData chunks bytes e p r) (hc : e.Allows .size c) :
    Parsing.InFormat (stepChunkSize p r c).2
      (bytes ++ [c], (Edge.after p c, (stepChunkSize p r c).1)) := by
  obtain ⟨hsize, hnil, chunk, hchunk, hbody, hedge⟩ := h
  rcases hedge with ⟨rfl, hbytes⟩ | ⟨rfl, hbytes⟩
  · obtain rfl : c = cr := hc
    simp only [stepChunkSize, if_true]
    refine inFormat_more hs ⟨chunks, hchunks, .inr (.inl ?_)⟩
    exact ⟨hsize, hnil, chunk, hchunk, hbody,
      .inr ⟨by simp [Edge.after, hsize], by simp [hbytes]⟩⟩
  · obtain rfl : c = lf := hc
    have hstep : stepChunkSize p r lf = ((p, r), .more) := by
      simp [stepChunkSize, hnil]
    rw [hstep]
    have hall : ∀ d ∈ chunks ++ [chunk], d.WellFormed := by
      intro d hd
      rcases List.mem_append.mp hd with hd | hd
      · exact hchunks d hd
      · exact List.mem_singleton.mp hd ▸ hchunk
    refine inFormat_more hs ⟨chunks ++ [chunk], hall, .inl ?_⟩
    refine ⟨hsize, by simp [hbody], by simp [hnil, Unbroken.nil], by simp [hnil], .inl ⟨?_, hnil, ?_⟩⟩
    · simp [Edge.after, hsize, cr, lf]
    · simp [hbytes, Chunk.serialise, crlf]

/-- Chunk data: the size counts down, and a chunk that completes has the size its
line states. -/
lemma stepChunkData_format (hchunks : ∀ c ∈ chunks, c.WellFormed) (hs : p.state = .chunkedBody)
    (h : InData chunks bytes p r) :
    Parsing.InFormat (stepChunkData p r c).2
      (bytes ++ [c], (Edge.after p c, (stepChunkData p r c).1)) := by
  obtain ⟨hdata, hnil, l, d, hdenotes, hpos, hbody, hbytes⟩ := h
  have hsub : SizeT.sub p.chunkDataRemaining 1 = p.chunkDataRemaining - 1 := SizeT.sub_eq hpos
  unfold stepChunkData
  dsimp only
  rw [hsub]
  split
  · trivial
  · rename_i hcap
    have hlen : r.body.length + 1 ≤ maxBodySize := by simpa using hcap
    have hd : d.length ≤ r.body.length := by simp [hbody]
    split
    · rename_i hzero
      have hone : p.chunkDataRemaining = 1 := by omega
      have hchunk : (⟨l, d ++ [c]⟩ : Chunk).WellFormed := by
        refine ⟨by simp, ?_⟩
        simpa [hone] using hdenotes (by omega)
      refine inFormat_more hs ⟨chunks, hchunks, .inr (.inl ?_)⟩
      exact ⟨rfl, hnil, ⟨l, d ++ [c]⟩, hchunk, by simp [hbody],
        .inl ⟨by simp [Edge.after, hdata], by simp [hbytes]⟩⟩
    · rename_i hmore
      have hcount : (d ++ [c]).length + (p.chunkDataRemaining - 1) =
          d.length + p.chunkDataRemaining := by
        simp only [List.length_append, List.length_cons, List.length_nil]
        omega
      refine inFormat_more hs ⟨chunks, hchunks, .inr (.inr (.inl ?_))⟩
      refine ⟨hdata, hnil, l, d ++ [c], ?_,
        Nat.pos_of_ne_zero hmore, by simp [hbody], by simp [hbytes]⟩
      dsimp only
      rw [hcount]
      exact hdenotes

/-- The trailer section: its lines, and the empty line that completes the body. -/
lemma stepChunkTrailer_format (hchunks : ∀ c ∈ chunks, c.WellFormed)
    (hs : p.state = .chunkedBody) (h : InTrailers chunks bytes e p r)
    (hc : e.Allows .trailer c) :
    Parsing.InFormat (stepChunkTrailer p r c).2
      (bytes ++ [c], (Edge.after p c, (stepChunkTrailer p r c).1)) := by
  obtain ⟨htrailer, hbody, last, trailers, hlast, htrailers, hclean, hcap, hedge⟩ := h
  have hstay : ∀ bytes' : Bytes,
      bytes' = chunks.flatMap Chunk.serialise ++ (last.text ++ crlf) ++
        trailers.flatMap (· ++ crlf) ++ p.buffer ++ [cr] →
      Parsing.InFormat (stepChunkTrailer p r cr).2
        (bytes', (Edge.after p cr, (stepChunkTrailer p r cr).1)) := by
    intro bytes' hbytes
    simp only [stepChunkTrailer, if_true]
    refine inFormat_more hs ⟨chunks, hchunks, .inr (.inr (.inr ?_))⟩
    exact ⟨htrailer, hbody, last, trailers, hlast, htrailers, hclean, hcap,
      .inr (.inr ⟨by simp [Edge.after, htrailer], hbytes⟩)⟩
  have htext : c ≠ cr → c ≠ lf →
      bytes = chunks.flatMap Chunk.serialise ++ (last.text ++ crlf) ++
        trailers.flatMap (· ++ crlf) ++ p.buffer →
      Parsing.InFormat (stepChunkTrailer p r c).2
        (bytes ++ [c], (Edge.after p c, (stepChunkTrailer p r c).1)) := by
    intro hcr hlf hbytes
    simp only [stepChunkTrailer, hcr, hlf, if_false]
    split
    · trivial
    · rename_i hlen
      refine inFormat_more hs ⟨chunks, hchunks, .inr (.inr (.inr ?_))⟩
      refine ⟨htrailer, hbody, last, trailers, hlast, htrailers, hclean.snoc hcr hlf,
        Nat.not_lt.mp hlen, .inr (.inl ⟨?_, ?_, ?_⟩)⟩
      · simp [Edge.after, htrailer, hcr, hlf]
      · simp
      · simp [hbytes]
  rcases hedge with ⟨rfl, hnil, hbytes⟩ | ⟨rfl, hne, hbytes⟩ | ⟨rfl, hbytes⟩
  · by_cases hcr : c = cr
    · subst hcr
      exact hstay _ (by simp [hbytes, hnil])
    · exact htext hcr hc.1 (by simp [hbytes, hnil])
  · by_cases hcr : c = cr
    · subst hcr
      exact hstay _ (by simp [hbytes])
    · exact htext hcr hc hbytes
  · obtain rfl : c = lf := hc
    have hafter : Edge.after p lf = .lineEnd := by simp [Edge.after, htrailer, cr, lf]
    have hne : lf ≠ cr := by decide
    simp only [stepChunkTrailer, hne, if_false, if_true, hafter]
    split
    · -- the empty line
      rename_i hnil
      exact .inr ⟨chunks, last, trailers, hchunks, hlast, htrailers, by simp [hbytes, hnil, crlf],
        hbody⟩
    · rename_i hbuf
      have hall : ∀ t ∈ trailers ++ [p.buffer], TrailerLine t := by
        intro t ht
        rcases List.mem_append.mp ht with ht | ht
        · exact htrailers t ht
        · exact List.mem_singleton.mp ht ▸ ⟨hbuf, hclean, hcap⟩
      refine inFormat_more hs ⟨chunks, hchunks, .inr (.inr (.inr ?_))⟩
      exact ⟨htrailer, hbody, last, trailers ++ [p.buffer], hlast, hall, Unbroken.nil, by simp,
        .inl ⟨rfl, rfl, by simp [hbytes, crlf]⟩⟩

end ChunkStep

lemma inFormat_head_iff {e : Edge} (hs : p.state.inHead = true) :
    Parsing.InFormat .more (bytes, (e, (p, r))) ↔
      bytes = [] ∧ e = .lineEnd ∧ p.Plain ∧ r.body = [] := by
  rcases hstate : p.state with _ | _ | _ | _ | _ | _ | _ | _ <;> rw [hstate] at hs <;>
    simp only [State.inHead, reduceCtorEq] at hs <;> simp only [Parsing.InFormat, hstate]

/-- The head: nothing is recorded, and the body begins between two chunks. -/
lemma stepHead_format (c : UInt8) (hplain : p.Plain) (hbody : r.body = [])
    (hs : p.state.inHead = true) :
    Parsing.InFormat (step (p, r) c).2
      ([], (.lineEnd, (step (p, r) c).1)) := by
  rcases step_inHead_cases (r := r) (c := c) hplain hs with
    hreject | ⟨hmore, hplain', hs', hbody'⟩ | ⟨n, hend⟩
  · rw [hreject]
    trivial
  · rw [hmore]
    exact (inFormat_head_iff hs').mpr ⟨rfl, rfl, hplain', hbody'.trans hbody⟩
  · rw [hend]
    rcases endOfHeaders_between n r with hreject | ⟨hte, hr, haccept | ⟨hmore, hs'⟩⟩ | hchunked
    · rw [hreject]
      trivial
    · rw [haccept]
      exact .inl (by rwa [hr])
    · rw [hmore]
      simp only [Parsing.InFormat, hs']
      rwa [hr]
    · rw [hchunked]
      refine inFormat_more rfl ⟨[], by simp, .inl ?_⟩
      exact ⟨rfl, by simp [hbody], Unbroken.nil, by simp [betweenChunks, betweenHeaders],
        .inl ⟨rfl, rfl, rfl⟩⟩

lemma stepChunkedBody_format {e : Edge} (hs : p.state = .chunkedBody)
    (h : ChunkShape bytes e p r) (hguard : LineStrict (e, (p, r)) c) :
    Parsing.InFormat (stepChunkedBody p r c).2
      (bytes ++ [c], (Edge.after p c, (stepChunkedBody p r c).1)) := by
  obtain ⟨chunks, hchunks, hline | hbehind | hdata | htrailers⟩ := h
  · have hallows := hguard hs (by simp [hline.1])
    simp only [hline.1] at hallows
    simp only [stepChunkedBody, hline.1]
    exact stepChunkSize_format hchunks hs hline hallows
  · have hallows := hguard hs (by simp [hbehind.1])
    simp only [hbehind.1] at hallows
    simp only [stepChunkedBody, hbehind.1]
    exact stepDataEnd_format hchunks hs hbehind hallows
  · simp only [stepChunkedBody, hdata.1]
    exact stepChunkData_format hchunks hs hdata
  · have hallows := hguard hs (by simp [htrailers.1])
    simp only [htrailers.1] at hallows
    simp only [stepChunkedBody, htrailers.1]
    exact stepChunkTrailer_format hchunks hs htrailers hallows

/-- One byte that fits its edge keeps the invariant. -/
lemma step_inFormat (s : Bytes × (Edge × Parsing)) (c : UInt8) (h : Parsing.InFormat .more s)
    (hguard : LineStrict s.2 c) :
    Parsing.InFormat (chunkStep s c).2 (chunkStep s c).1 := by
  obtain ⟨bytes, e, p, r⟩ := s
  by_cases hhead : p.state.inHead = true
  · obtain ⟨rfl, rfl, hplain, hbody⟩ := (inFormat_head_iff hhead).mp h
    have hne : p.state ≠ .chunkedBody := by
      intro heq
      simp [heq, State.inHead] at hhead
    simp only [chunkStep, edgedStep, track, keepChunkBytes, keepEdge, hne, if_false]
    exact stepHead_format c hplain hbody hhead
  · rcases hs : p.state with _ | _ | _ | _ | _ | _ | _ | _ <;>
      simp only [hs, State.inHead, not_true_eq_false] at hhead
    · -- the chunk states
      simp only [Parsing.InFormat, hs] at h
      simp only [chunkStep, edgedStep, track, keepChunkBytes, keepEdge, hs, if_true,
        step]
      exact stepChunkedBody_format hs h hguard
    · -- a counted body: no transfer coding
      simp only [Parsing.InFormat, hs] at h
      simp only [chunkStep, edgedStep, track, keepChunkBytes, keepEdge, hs, step,
        reduceCtorEq, if_false]
      unfold stepBody
      split
      · trivial
      · dsimp only
        split
        · exact .inl h
        · simpa only [Parsing.InFormat, hs] using h
    · simp only [Parsing.InFormat, hs] at h

/-! ## A body in the format meets the line condition -/

/-- The body read so far, as a run from its beginning. -/
def FromBody (s : Bytes × (Edge × Parsing)) : Prop :=
  match s.2.2.1.state with
  | .chunkedBody =>
    ∃ n r, r.body = [] ∧ Leads edgedStep (.lineEnd, (betweenChunks n, r)) s.1 s.2
  | .body | .done => True
  | _ => s.1 = [] ∧ s.2.1 = .lineEnd ∧ s.2.2.1.Plain ∧ s.2.2.2.body = []

lemma fromBody_head_iff {s : Bytes × (Edge × Parsing)} (hs : s.2.2.1.state.inHead = true) :
    FromBody s ↔ s.1 = [] ∧ s.2.1 = .lineEnd ∧ s.2.2.1.Plain ∧ s.2.2.2.body = [] := by
  rcases hstate : s.2.2.1.state with _ | _ | _ | _ | _ | _ | _ | _ <;> rw [hstate] at hs <;>
    simp only [State.inHead, reduceCtorEq] at hs <;> simp only [FromBody, hstate]

/-- The chunk states are left at the end of the body only. -/
lemma stepChunkedBody_more (hs : p.state = .chunkedBody)
    (hmore : (stepChunkedBody p r c).2 = .more) :
    (stepChunkedBody p r c).1.1.state = .chunkedBody := by
  rcases hstate : p.chunkState with _ | _ | _ | _ <;>
    simp only [stepChunkedBody, hstate] at hmore ⊢
  · simp only [stepChunkSize, chunkSizeLine] at hmore ⊢
    repeat' split
    all_goals simp_all [fail]
  · simp only [stepChunkData] at hmore ⊢
    repeat' split
    all_goals simp_all [fail]
  · simp only [stepChunkTrailer] at hmore ⊢
    repeat' split
    all_goals simp_all [fail]
  · exact hs

lemma fromBody_step (s : Bytes × (Edge × Parsing)) (c : UInt8) (h : FromBody s)
    (hmore : (chunkStep s c).2 = .more) : FromBody (chunkStep s c).1 := by
  obtain ⟨bytes, e, p, r⟩ := s
  by_cases hhead : p.state.inHead = true
  · obtain ⟨hbytes, hedge, hplain, hbody⟩ := (fromBody_head_iff hhead).mp h
    dsimp only at hbytes hedge hplain hbody
    subst hbytes hedge
    have hne : p.state ≠ .chunkedBody := by
      intro heq
      simp [heq, State.inHead] at hhead
    simp only [chunkStep, edgedStep, track, keepChunkBytes, keepEdge, hne, if_false] at hmore ⊢
    rcases step_inHead_cases (r := r) (c := c) hplain hhead with
      hreject | ⟨-, hplain', hs', hbody'⟩ | ⟨n, hend⟩
    · rw [hreject] at hmore
      cases hmore
    · exact (fromBody_head_iff hs').mpr ⟨rfl, rfl, hplain', hbody'.trans hbody⟩
    · rw [hend] at hmore ⊢
      rcases endOfHeaders_between n r with hreject | ⟨-, -, haccept | ⟨-, hs'⟩⟩ | hchunked
      · rw [hreject] at hmore
        cases hmore
      · rw [haccept] at hmore
        cases hmore
      · simp only [FromBody, hs']
      · rw [hchunked]
        exact ⟨n, r, hbody, Leads.nil _⟩
  · rcases hs : p.state with _ | _ | _ | _ | _ | _ | _ | _ <;>
      simp only [hs, State.inHead, not_true_eq_false] at hhead
    · simp only [FromBody, hs] at h
      obtain ⟨n, r₀, hbody, hleads⟩ := h
      have hstate : (chunkStep (bytes, (e, (p, r))) c).1.2.2.1.state = .chunkedBody := by
        simp only [chunkStep, edgedStep, track, step, hs] at hmore ⊢
        exact stepChunkedBody_more hs hmore
      have hbytes : (chunkStep (bytes, (e, (p, r))) c).1.1 = bytes ++ [c] := by
        simp [chunkStep, track, keepChunkBytes, hs]
      simp only [FromBody, hstate]
      refine ⟨n, r₀, hbody, ?_⟩
      rw [hbytes]
      exact hleads.append (Leads.one (Prod.ext rfl hmore))
    · -- a counted body stays one until it is complete
      have hstate : (chunkStep (bytes, (e, (p, r))) c).1.2.2.1.state = .body ∨
          (chunkStep (bytes, (e, (p, r))) c).1.2.2.1.state = .done := by
        simp only [chunkStep, edgedStep, track, step, hs, stepBody]
        repeat' split
        all_goals simp [fail, hs]
      rcases hstate with hstate | hstate <;> simp only [FromBody, hstate]
    · have hstate : (chunkStep (bytes, (e, (p, r))) c).1.2.2.1.state = .done := by
        simp only [chunkStep, edgedStep, track, step, hs]
      simp only [FromBody, hstate]

lemma keepChunkBytes_extends (bytes : Bytes) (s : Edge × Parsing) (c : UInt8) :
    bytes <+: keepChunkBytes bytes s c := by
  unfold keepChunkBytes
  split
  · exact List.prefix_append _ _
  · exact List.prefix_refl _

/-- A body in the format, from its beginning. -/
lemma ChunkGrammar.guarded {body : Bytes} (h : ChunkGrammar bytes body)
    (hcap : body.length ≤ maxBodySize) (n : Nat) (hr : r.body = []) :
    Guarded edgedStep LineStrict (.lineEnd, (betweenChunks n, r)) bytes := by
  obtain ⟨chunks, last, trailers, hchunks, hlast, htrailers, rfl, rfl⟩ := h
  have hlines := leads_chunkedBody (n := n) hr hchunks hlast htrailers hcap
  have hend := hlines.append (leads_trailerEnd _)
  have hlf : Guarded edgedStep LineStrict
      (.cr, (inTrailer n, { r with body := chunks.flatMap Chunk.data })) [lf] :=
    ⟨fun _ _ => rfl, fun _ => trivial⟩
  have hall := (hend.leads.guarded_append [lf]).mpr ⟨hend.guarded, hlf⟩
  simpa [crlf] using hall

/-- A byte of a run that ends in a body of the format fits its edge. -/
lemma lineStrict_of_grammar (s : Bytes × (Edge × Parsing)) (c : UInt8) (cs : Bytes)
    (h : FromBody s)
    (hend : ChunkGrammar (feed chunkStep s (c :: cs)).state.1
        (feed chunkStep s (c :: cs)).state.2.2.2.body ∧
      (feed chunkStep s (c :: cs)).state.2.2.2.body.length ≤ maxBodySize) :
    LineStrict s.2 c := by
  intro hs hdata
  simp only [FromBody, hs] at h
  obtain ⟨n, r, hr, hleads⟩ := h
  obtain ⟨post, hpost⟩ := track_extends edgedStep keepChunkBytes_extends s.1 s.2 c cs
  have hbytes : (feed chunkStep s (c :: cs)).state.1 = s.1 ++ c :: post := by
    have hfirst : keepChunkBytes s.1 s.2 c = s.1 ++ [c] := by simp [keepChunkBytes, hs]
    rw [hfirst] at hpost
    have hstep : (feed chunkStep s (c :: cs)).state.1 = s.1 ++ [c] ++ post := hpost.symm
    simpa using hstep
  rw [hbytes] at hend
  have hguarded := hend.1.guarded hend.2 n hr
  exact ((hleads.guarded_append (c :: post)).mp hguarded).2.1 hs hdata

/-! ## The result -/

/-- For an accepted request with a transfer coding, the bytes consumed as its
body are chunks, a last chunk, trailer lines and an empty line, and the body is
the data of the chunks, exactly when every byte outside chunk data fits its edge:
CR behind data, LF behind CR, no LF anywhere else, and no empty line in front of a
size line. -/
theorem chunked_grammar_iff {data : Bytes}
    (h : (({} : HttpParser).parse {} data).complete = true)
    (hte : ((({} : HttpParser).parse {} data).request.headers.lookup transferEncodingName).isSome) :
    ChunkGrammar (chunkBytes data) (({} : HttpParser).parse {} data).request.body ↔
      Guarded edgedStep LineStrict (.lineEnd, ({}, {})) data := by
  have hflow : (feed step ({}, {}) data).flow = .accept := by
    simpa [parse] using h
  obtain ⟨hflow₁, -, hstate₁⟩ :=
    feed_track keepEdge step .lineEnd ({}, {}) data
  obtain ⟨hflow₂, -, hstate₂⟩ :=
    feed_track keepChunkBytes edgedStep [] (.lineEnd, ({}, {})) data
  have hreq : (({} : HttpParser).parse {} data).request =
      (feed chunkStep ([], (.lineEnd, ({}, {}))) data).state.2.2.2 := by
    unfold chunkStep
    rw [hstate₂]
    exact congrArg Prod.snd hstate₁.symm
  rw [← guarded_track keepChunkBytes [] (.lineEnd, ({}, {})) data]
  constructor
  · intro hgrammar
    have hsound := feed_invariant step_sound sound_fresh data
    rw [hflow] at hsound
    have hcap : (({} : HttpParser).parse {} data).request.body.length ≤ maxBodySize := hsound.2.cap
    rw [hreq] at hgrammar hcap
    exact Guarded.of_result (I := FromBody)
      (R := fun _ t => ChunkGrammar t.1 t.2.2.2.body ∧ t.2.2.2.body.length ≤ maxBodySize)
      (fun s c hs _ hmore => fromBody_step s c hs hmore) lineStrict_of_grammar
      ⟨rfl, rfl, rfl, rfl⟩ ⟨hgrammar, hcap⟩
  · intro hguard
    have hformat := hguard.invariant step_inFormat ⟨rfl, rfl, rfl, rfl⟩
    have haccept : (feed chunkStep ([], (.lineEnd, ({}, {}))) data).flow = .accept :=
      hflow₂.trans (hflow₁.trans hflow)
    rw [haccept] at hformat
    rw [hreq] at hte ⊢
    rcases hformat with hnone | hgrammar
    · exact absurd hnone (Option.isSome_iff_ne_none.mp hte)
    · exact hgrammar

/-- A chunk with an extension, the last chunk and a trailer. -/
theorem chunked_grammar_plain :
    ChunkGrammar
      (chunkBytes (ascii "POST / HTTP/1.1\r\nTransfer-Encoding: chunked\r\n\r\n" ++
        ascii "2;x\r\nab\r\n0\r\nT: 1\r\n\r\n"))
      (({} : HttpParser).parse {}
        (ascii "POST / HTTP/1.1\r\nTransfer-Encoding: chunked\r\n\r\n" ++
          ascii "2;x\r\nab\r\n0\r\nT: 1\r\n\r\n")).request.body :=
  (chunked_grammar_iff (by decide +kernel) (by decide +kernel)).mpr (by decide +kernel)

/-- Bare LFs and no line end behind the data: the request is accepted, although
there is no CR in its body at all. -/
theorem bare_lf_chunks_accepted :
    (({} : HttpParser).parse {}
        (ascii "POST / HTTP/1.1\r\nTransfer-Encoding: chunked\r\n\r\n1\na0\n\n")).complete = true ∧
      chunkBytes (ascii "POST / HTTP/1.1\r\nTransfer-Encoding: chunked\r\n\r\n1\na0\n\n") =
        ascii "1\na0\n\n" ∧
      ∀ body, ¬ ChunkGrammar (ascii "1\na0\n\n") body := by
  refine ⟨by decide +kernel, by decide +kernel, ?_⟩
  rintro body ⟨chunks, last, trailers, -, -, -, hbytes, -⟩
  have hcr : cr ∈ ascii "1\na0\n\n" := by
    rw [hbytes]
    simp [crlf]
  revert hcr
  decide +kernel

end EpollGateway.Http
