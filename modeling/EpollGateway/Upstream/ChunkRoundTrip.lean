import EpollGateway.Http.RoundTrip
import EpollGateway.Upstream.Boundary
import Mathlib.Data.Nat.Digits.Defs

/-! # One encoder and two decoders of chunked bodies

`encodeChunks` is the chunked coding of a list of chunks, with extensions and trailer lines.
`finalize_response` writes the whole body as one chunk; `scan_chunked_body` reads the chunks of
a backend by positions, and `HttpParser` those of a client byte by byte.

The three agree (`chunked_round_trip`): the scanner finds the end of every coding and the data,
whatever follows, and is not complete on any part of it. What `finalize_response` writes is such
a coding, and the parser reads the same body from it.
-/

namespace EpollGateway.Upstream

open Bytes Feed Http Handler

/-! ## The coding -/

/-- An extension of a size line: empty, or text behind a semicolon. -/
structure Extension where
  text : Bytes
  mark : text = [] ∨ text.head? = some 59
  unbroken : Unbroken text

def Extension.none : Extension := ⟨[], .inl rfl, .nil⟩

/-- The data of a chunk and the extension of its size line. -/
structure DataChunk where
  data : Bytes
  ext : Extension
  ne_nil : data ≠ []

def DataChunk.encode (c : DataChunk) : Bytes :=
  hexText c.data.length ++ c.ext.text ++ crlf ++ c.data ++ crlf

/-- Chunks, the last chunk, trailer lines and the empty line. -/
def encodeChunks (chunks : List DataChunk) (last : Extension) (trailers : List Bytes) : Bytes :=
  chunks.flatMap DataChunk.encode ++
    (ascii "0" ++ last.text ++ crlf ++ (trailers.flatMap (· ++ crlf) ++ crlf))

/-- What the chunks carry. -/
def payload (chunks : List DataChunk) : Bytes := chunks.flatMap (·.data)

lemma oneLine_of_unbroken {line : Bytes} (h : Unbroken line) : OneLine line := by
  intro j hj
  exact h.1 (List.mem_of_getElem? hj.1)

lemma unbroken_hexText (n : Nat) : Unbroken (hexText n) := by
  have hclean : ∀ c ∈ hexText n, c ≠ cr ∧ c ≠ lf := by
    intro c hc
    have hdigit := hexVal?_clean c (digit_of_numeralFrom (numeral_hexText n) c hc)
    exact ⟨hdigit.1, hdigit.2.1⟩
  exact ⟨fun hmem => (hclean cr hmem).1 rfl, fun hmem => (hclean lf hmem).2 rfl⟩

/-- The coding is in the grammar that the scanner reads. -/
lemma chunkedBody_encode (chunks : List DataChunk) (last : Extension) {trailers : List Bytes}
    (htrailers : ∀ t ∈ trailers, t ≠ [] ∧ Unbroken t) :
    ChunkedBody (encodeChunks chunks last trailers) (payload chunks) := by
  induction chunks with
  | nil =>
    have hzero : Unbroken (ascii "0") := by decide +kernel
    have htext : SizeText (ascii "0" ++ last.text) 0 :=
      ⟨ascii "0", last.text, rfl, by decide +kernel, by decide +kernel, last.mark⟩
    have hbody := ChunkedBody.last htext (oneLine_of_unbroken (hzero.append last.unbroken))
      fun t ht => ⟨(htrailers t ht).1, oneLine_of_unbroken (htrailers t ht).2⟩
    simpa [encodeChunks, payload] using hbody
  | cons c chunks ih =>
    have htext : SizeText (hexText c.data.length ++ c.ext.text) c.data.length :=
      ⟨hexText c.data.length, c.ext.text, rfl, hexText_ne_nil _, numeral_hexText _, c.ext.mark⟩
    have hline := oneLine_of_unbroken ((unbroken_hexText c.data.length).append c.ext.unbroken)
    have hbody := ChunkedBody.chunk htext hline c.ne_nil ih
    simpa [encodeChunks, payload, DataChunk.encode] using hbody

/-! ## The encoder of `finalize_response` -/

/-- The body as one chunk, or as none. -/
def wholeBody (body : Bytes) : List DataChunk :=
  if h : body = [] then [] else [⟨body, .none, h⟩]

lemma payload_wholeBody (body : Bytes) : payload (wholeBody body) = body := by
  unfold wholeBody
  split
  · rename_i hnil
    rw [hnil]
    rfl
  · simp [payload]

lemma last_chunk_eq : ascii "0\r\n\r\n" = ascii "0" ++ crlf ++ crlf := by decide +kernel

lemma chunkedText_eq (body : Bytes) :
    chunkedText body = encodeChunks (wholeBody body) .none [] := by
  unfold chunkedText wholeBody encodeChunks
  rw [last_chunk_eq]
  by_cases hnil : body = []
  · rw [if_neg (not_not.mpr hnil), dif_pos hnil]
    simp [Extension.none]
  · rw [if_pos hnil, dif_neg hnil]
    simp [DataChunk.encode, Extension.none]

/-! ## The parser -/

/-- A size line as the encoder writes it. -/
lemma denotes_hexText {n : Nat} (hn : n ≤ maxBodySize) :
    (⟨hexText n, []⟩ : SizeLine).Denotes n where
  digits_ne := hexText_ne_nil n
  value := numeral_hexText n
  ext_mark := .inl rfl
  ext_clean := ⟨List.not_mem_nil, List.not_mem_nil⟩
  cap := by
    have hlt : n < 16 ^ 16 := Nat.lt_of_le_of_lt hn (by decide)
    have hlen := Nat.toDigits_length 16 n 16 (by decide) hlt
    simpa [SizeLine.text, hexText] using hlen

/-- The parser in front of a chunked body reads what the encoder has written. -/
lemma parse_chunkedText {body : Bytes} (hbody : body.length ≤ maxBodySize) (n : Nat)
    {r : HttpRequest} (hr : r.body = []) (suffix : Bytes) :
    (betweenChunks n).parse r (chunkedText body ++ suffix) =
      ⟨true, { inTrailer n with state := .done }, { r with body := body },
        (chunkedText body).length⟩ := by
  have hlast : (⟨ascii "0", []⟩ : SizeLine).Denotes 0 :=
    ⟨by decide +kernel, by decide +kernel, .inl rfl, by decide, by decide +kernel⟩
  -- the chunks as the parser's grammar has them
  obtain ⟨chunks, hchunks, hdata, htext⟩ : ∃ chunks : List Chunk, (∀ c ∈ chunks, c.WellFormed) ∧
      chunks.flatMap Chunk.data = body ∧
      chunks.flatMap Chunk.serialise ++ (ascii "0" ++ crlf) ++ [] ++ crlf = chunkedText body := by
    unfold chunkedText
    rw [last_chunk_eq]
    by_cases hnil : body = []
    · refine ⟨[], List.forall_mem_nil _, hnil.symm, ?_⟩
      rw [if_neg (not_not.mpr hnil)]
      simp
    · refine ⟨[⟨⟨hexText body.length, []⟩, body⟩], ?_, by simp, ?_⟩
      · intro c hc
        rw [List.mem_singleton.mp hc]
        exact ⟨hnil, denotes_hexText hbody⟩
      · rw [if_pos hnil]
        simp [Chunk.serialise, SizeLine.text]
  have haccepts : Accepts HttpParser.step (betweenChunks n, r) (chunkedText body)
      ({ inTrailer n with state := .done }, { r with body := body }) := by
    have hlines := leads_chunkedBody (n := n) hr hchunks hlast
      (List.forall_mem_nil _) (by rwa [hdata])
    have hend := leads_trailerEnd (n := n) { r with body := body }
    have haccept := hend.leads.of_track.accepts (Accepts.one (step_trailerEnd _))
    rw [hdata] at hlines
    have hall := hlines.leads.of_track.accepts haccept
    rw [← htext]
    simpa [SizeLine.text, crlf] using hall
  unfold HttpParser.parse
  rw [haccepts.feed_append suffix]
  rfl

/-! ## Result -/

/-- The scanner reads the coding of every list of chunks, and nothing less than all of it; the
encoder of `finalize_response` writes such a coding, which the parser reads as well. -/
theorem chunked_round_trip (chunks : List DataChunk) (last : Extension) {trailers : List Bytes}
    (htrailers : ∀ t ∈ trailers, t ≠ [] ∧ Unbroken t) {lead : Bytes}
    (hlen : (lead ++ encodeChunks chunks last trailers).length < 2 ^ 63) (body : Bytes) :
    (∀ suffix, scanBody (lead ++ encodeChunks chunks last trailers ++ suffix) lead.length =
      some (.complete (lead ++ encodeChunks chunks last trailers).length (payload chunks))) ∧
    (∀ k < (encodeChunks chunks last trailers).length,
      scanBody (lead ++ (encodeChunks chunks last trailers).take k) lead.length =
        some .incomplete) ∧
    chunkedText body = encodeChunks (wholeBody body) .none [] ∧
    payload (wholeBody body) = body ∧
    (body.length ≤ maxBodySize → ∀ n r suffix, r.body = [] →
      (betweenChunks n).parse r (chunkedText body ++ suffix) =
        ⟨true, { inTrailer n with state := .done }, { r with body := body },
          (chunkedText body).length⟩) := by
  have hcoding := chunkedBody_encode chunks last htrailers
  refine ⟨?_, ?_, chunkedText_eq body, payload_wholeBody body, ?_⟩
  · intro suffix
    exact scanBody_chunks hlen hcoding suffix
  · intro k hk
    exact scanBody_part hlen hcoding hk
  · intro hbody n r suffix hr
    exact parse_chunkedText hbody n hr suffix

/-- Two chunks whose data has line ends and digits in it; the first one has an extension. -/
def sampleChunks : List DataChunk :=
  [⟨ascii "a\r\n0\r\n", ⟨ascii ";x=1", .inr (by decide +kernel), by decide +kernel⟩,
      by decide +kernel⟩,
    ⟨ascii "5", .none, by decide +kernel⟩]

theorem chunked_round_trip_sample :
    payload sampleChunks = ascii "a\r\n0\r\n5" ∧
      scanBody (ascii "head" ++ encodeChunks sampleChunks .none [ascii "T: v"] ++ ascii "next")
        (ascii "head").length =
          some (.complete (ascii "head" ++ encodeChunks sampleChunks .none [ascii "T: v"]).length
            (payload sampleChunks)) := by
  refine ⟨by decide +kernel, ?_⟩
  have htrailers : ∀ t ∈ [ascii "T: v"], t ≠ [] ∧ Unbroken t := by decide +kernel
  exact (chunked_round_trip sampleChunks .none htrailers (by decide +kernel) []).1 (ascii "next")

end EpollGateway.Upstream
