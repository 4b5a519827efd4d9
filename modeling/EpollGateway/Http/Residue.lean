import EpollGateway.Http.Fragmentation

/-! # Parsing into a used request

`parse` appends to the request it is given and never clears it. When the request
still holds what an earlier message left there, the parser sees that residue: its
framing headers count, its body is continued, its headers stay where the message
has none of that name.

A residue without a body and without framing headers is *inert*: the parser
accepts and refuses as it would with a cleared request (`feed_over`), and the
request it completes is the fresh one laid over the residue
(`Message.feed_append`).
-/

namespace EpollGateway.Http

open Bytes Feed HttpParser

/-- A residue that does not reach into the framing of the next message. -/
structure HttpRequest.Inert (R : HttpRequest) : Prop where
  body : R.body = []
  contentLength : R.headers.lookup contentLengthName = none
  transferEncoding : R.headers.lookup transferEncodingName = none

/-- The states in which the request line is not complete. -/
def lineStates : List State := [.method, .path, .query, .version]

/-- `r` holds what parsing into `R` makes of a message of which parsing into a
cleared request makes `q`; both parsers are in the state of `p`. -/
structure Over (R : HttpRequest) (p : HttpParser) (r q : HttpRequest) : Prop where
  method : p.state ≠ .method → r.method = q.method
  path : p.state ≠ .method → p.state ≠ .path → r.path = q.path
  version : p.state ∉ lineStates → r.version = q.version
  query : r.query = q.query ∨ r.query = R.query ∧ q.query = []
  headers : ∀ n, r.headers.lookup n = (q.headers.lookup n).or (R.headers.lookup n)
  body : r.body = q.body
  traceId : r.traceId = R.traceId

/-- The same answer and the same parser, with requests one over the other. -/
def Alike (R : HttpRequest) (x y : Parsing × Flow) : Prop :=
  x.2 = y.2 ∧ x.1.1 = y.1.1 ∧ Over R y.1.1 x.1.2 y.1.2

section

variable {R r q : HttpRequest} {p p' : HttpParser}

lemma Over.of_state (h : Over R p r q) (hstate : p'.state = p.state) : Over R p' r q where
  method := by simpa only [hstate] using h.method
  path := by simpa only [hstate] using h.path
  version := by simpa only [hstate] using h.version
  query := h.query
  headers := h.headers
  body := h.body
  traceId := h.traceId

/-- Behind the request line the state does not matter. -/
lemma Over.past (h : Over R p r q) (hp : p.state ∉ lineStates) : Over R p' r q where
  method := fun _ => h.method fun hs => hp (by simp [hs, lineStates])
  path := fun _ _ => h.path (fun hs => hp (by simp [hs, lineStates]))
    fun hs => hp (by simp [hs, lineStates])
  version := fun _ => h.version hp
  query := h.query
  headers := h.headers
  body := h.body
  traceId := h.traceId

lemma Over.alike (h : Over R p r q) (f : Flow) (hstate : p'.state = p.state) :
    Alike R ((p', r), f) ((p', q), f) :=
  ⟨rfl, rfl, h.of_state hstate⟩

lemma Over.alike_past (h : Over R p r q) (f : Flow) (hp : p.state ∉ lineStates) :
    Alike R ((p', r), f) ((p', q), f) :=
  ⟨rfl, rfl, h.past hp⟩

/-- Bytes of a body go to the end of both bodies. -/
lemma Over.append_body (h : Over R p r q) (c : UInt8) :
    Over R p { r with body := r.body ++ [c] } { q with body := q.body ++ [c] } where
  method := h.method
  path := h.path
  version := h.version
  query := h.query
  headers := h.headers
  body := by rw [h.body]
  traceId := h.traceId

lemma Over.insert_header (h : Over R p r q) (key value : Bytes) :
    Over R p { r with headers := r.headers.insert key value }
      { q with headers := q.headers.insert key value } where
  method := h.method
  path := h.path
  version := h.version
  query := h.query
  headers := by
    intro n
    by_cases hn : n = key
    · subst hn
      simp
    · simpa [AList.lookup_insert_ne hn] using h.headers n
  body := h.body
  traceId := h.traceId

/-! ## The request line -/

lemma pushRequestLine_alike (h : Over R p r q) (c : UInt8) :
    Alike R (pushRequestLine p r c) (pushRequestLine p q c) := by
  unfold pushRequestLine
  dsimp only
  split
  · exact h.alike _ rfl
  · exact h.alike _ rfl

lemma stepMethod_alike (h : Over R p r q) (c : UInt8) :
    Alike R (stepMethod p r c) (stepMethod p q c) := by
  unfold stepMethod
  split
  · exact ⟨rfl, rfl, fun _ => rfl, fun _ hpath => absurd rfl hpath,
      fun hline => absurd (by simp [lineStates]) hline,
      h.query, h.headers, h.body, h.traceId⟩
  · split
    · exact h.alike _ rfl
    · exact pushRequestLine_alike h c

lemma stepPath_alike (h : Over R p r q) (hp : p.state = .path) (c : UInt8) :
    Alike R (stepPath p r c) (stepPath p q c) := by
  have hmethod : r.method = q.method := h.method (by simp [hp])
  unfold stepPath
  split
  · exact ⟨rfl, rfl, fun _ => hmethod, fun _ _ => rfl,
      fun hline => absurd (by simp [lineStates]) hline,
      h.query, h.headers, h.body, h.traceId⟩
  · split
    · exact ⟨rfl, rfl, fun _ => hmethod, fun _ _ => rfl,
        fun hline => absurd (by simp [lineStates]) hline,
        h.query, h.headers, h.body, h.traceId⟩
    · split
      · exact h.alike _ rfl
      · exact pushRequestLine_alike h c

lemma stepQuery_alike (h : Over R p r q) (hp : p.state = .query) (c : UInt8) :
    Alike R (stepQuery p r c) (stepQuery p q c) := by
  have hmethod : r.method = q.method := h.method (by simp [hp])
  have hpath : r.path = q.path := h.path (by simp [hp]) (by simp [hp])
  unfold stepQuery
  split
  · exact ⟨rfl, rfl, fun _ => hmethod, fun _ _ => hpath,
      fun hline => absurd (by simp [lineStates]) hline, .inl rfl, h.headers, h.body, h.traceId⟩
  · split
    · exact h.alike _ rfl
    · exact pushRequestLine_alike h c

lemma stepVersion_alike (h : Over R p r q) (hp : p.state = .version) (c : UInt8) :
    Alike R (stepVersion p r c) (stepVersion p q c) := by
  have hmethod : r.method = q.method := h.method (by simp [hp])
  have hpath : r.path = q.path := h.path (by simp [hp]) (by simp [hp])
  unfold stepVersion
  split
  · exact h.alike _ rfl
  · split
    · split
      · exact h.alike _ rfl
      · exact ⟨rfl, rfl, fun _ => hmethod, fun _ _ => hpath, fun _ => rfl, h.query, h.headers,
          h.body, h.traceId⟩
    · split
      · exact h.alike _ rfl
      · have hpush : Over R { p with crSeen := false } r q := h.of_state rfl
        exact pushRequestLine_alike hpush c

/-! ## The header block -/

lemma Over.lookup_framing (h : Over R p r q) (hR : R.Inert) :
    r.headers.lookup contentLengthName = q.headers.lookup contentLengthName ∧
      r.headers.lookup transferEncodingName = q.headers.lookup transferEncodingName := by
  rw [h.headers, h.headers, hR.contentLength, hR.transferEncoding]
  simp

lemma endOfHeaders_alike (hR : R.Inert) (h : Over R p r q) (hp : p.state ∉ lineStates) :
    Alike R (endOfHeaders p r) (endOfHeaders p q) := by
  obtain ⟨hcl, hte⟩ := h.lookup_framing hR
  unfold endOfHeaders
  rw [hcl, hte]
  split
  · split
    · exact h.alike _ rfl
    · exact h.alike_past _ hp
  · split
    · dsimp only
      split
      · exact h.alike _ rfl
      · split
        · exact h.alike _ rfl
        · split
          · exact h.alike_past _ hp
          · exact h.alike_past _ hp
    · exact h.alike_past _ hp

lemma headerLine_alike (hR : R.Inert) (h : Over R p r q) :
    Alike R (headerLine p r) (headerLine p q) := by
  obtain ⟨hcl, hte⟩ := h.lookup_framing hR
  have hcheck : ∀ key, checkFraming r.headers key = checkFraming q.headers key := by
    intro key
    simp only [checkFraming, hcl, hte]
  unfold headerLine
  split
  · exact h.alike _ rfl
  · rw [hcheck]
    split
    · exact ⟨rfl, rfl, (h.insert_header _ _).of_state rfl⟩
    · exact h.alike _ rfl

lemma stepHeader_alike (hR : R.Inert) (h : Over R p r q) (hp : p.state ∉ lineStates)
    (c : UInt8) : Alike R (stepHeader p r c) (stepHeader p q c) := by
  unfold stepHeader
  dsimp only
  split
  · exact h.alike _ rfl
  · split
    · exact h.alike _ rfl
    · split
      · split
        · exact h.alike _ rfl
        · split
          · exact endOfHeaders_alike hR (h.past hp) hp
          · exact headerLine_alike hR (h.past hp)
      · split
        · exact h.alike _ rfl
        · exact h.alike _ rfl

/-! ## The body -/

lemma chunkSizeLine_alike (h : Over R p r q) : Alike R (chunkSizeLine p r) (chunkSizeLine p q) := by
  unfold chunkSizeLine
  dsimp only
  split
  · exact h.alike _ rfl
  · split
    · exact h.alike _ rfl
    · exact h.alike _ rfl

lemma stepChunkData_alike (h : Over R p r q) (c : UInt8) :
    Alike R (stepChunkData p r c) (stepChunkData p q c) := by
  have hbody := h.append_body c
  unfold stepChunkData
  dsimp only
  rw [h.body] at hbody ⊢
  split
  · exact hbody.alike _ rfl
  · split
    · exact hbody.alike _ rfl
    · exact hbody.alike _ rfl

lemma stepChunkedBody_alike (h : Over R p r q) (hp : p.state ∉ lineStates) (c : UInt8) :
    Alike R (stepChunkedBody p r c) (stepChunkedBody p q c) := by
  unfold stepChunkedBody
  split
  · unfold stepChunkSize
    split
    · exact h.alike _ rfl
    · split
      · split
        · exact h.alike _ rfl
        · exact chunkSizeLine_alike h
      · dsimp only
        split
        · exact h.alike _ rfl
        · exact h.alike _ rfl
  · exact stepChunkData_alike h c
  · unfold stepChunkTrailer
    split
    · exact h.alike _ rfl
    · split
      · split
        · exact h.alike_past _ hp
        · exact h.alike _ rfl
      · dsimp only
        split
        · exact h.alike _ rfl
        · exact h.alike _ rfl
  · exact h.alike _ rfl

lemma stepBody_alike (h : Over R p r q) (hp : p.state ∉ lineStates) (c : UInt8) :
    Alike R (stepBody p r c) (stepBody p q c) := by
  have hbody := h.append_body c
  unfold stepBody
  split
  · exact h.alike _ rfl
  · dsimp only
    split
    · exact hbody.alike_past _ hp
    · exact hbody.alike _ rfl

end

/-! ## The loop -/

variable {R : HttpRequest}

/-- One byte, parsed over an inert residue. -/
lemma step_alike {r q : HttpRequest} {p : HttpParser} (hR : R.Inert) (h : Over R p r q)
    (c : UInt8) : Alike R (step (p, r) c) (step (p, q) c) := by
  unfold step
  cases hp : p.state with
  | method => exact stepMethod_alike h c
  | path => exact stepPath_alike h hp c
  | version => exact stepVersion_alike h hp c
  | query => exact stepQuery_alike h hp c
  | header => exact stepHeader_alike hR h (by simp [hp, lineStates]) c
  | chunkedBody => exact stepChunkedBody_alike h (by simp [hp, lineStates]) c
  | body => exact stepBody_alike h (by simp [hp, lineStates]) c
  | done => exact h.alike _ rfl

lemma over_start (hR : R.Inert) : Over R {} R {} where
  method := fun h => absurd rfl h
  path := fun h => absurd rfl h
  version := fun h => absurd (by simp [lineStates]) h
  query := .inr ⟨rfl, rfl⟩
  headers := by simp
  body := hR.body
  traceId := rfl

/-- The same parser, with requests one over the other. -/
def Follows (R : HttpRequest) (s t : Parsing) : Prop := s.1 = t.1 ∧ Over R t.1 s.2 t.2

/-- A message, parsed over an inert residue: the parser answers as it does with a
cleared request, and stops at the same byte. -/
lemma feed_over (hR : R.Inert) (data : Bytes) :
    (feed step ({}, R) data).flow = (feed step ({}, {}) data).flow ∧
      (feed step ({}, R) data).used = (feed step ({}, {}) data).used ∧
      Follows R (feed step ({}, R) data).state
        (feed step ({}, {}) data).state := by
  have hstart : Follows R ({}, R) ({}, {}) := ⟨rfl, over_start hR⟩
  refine feed_rel ?_ hstart data
  rintro ⟨p, r⟩ ⟨p', q⟩ c ⟨hp, h⟩
  dsimp only at hp h
  subst hp
  exact step_alike hR h c

/-! ## Messages -/

/-- The bytes of one request, with what a fresh parser makes of them. -/
structure Message where
  bytes : Bytes
  request : HttpRequest
  yields : ∃ p, Accepts step ({}, {}) bytes (p, request)

/-- `r` is the request of a message laid over `R`. -/
structure Overlay (R r q : HttpRequest) : Prop where
  method : r.method = q.method
  path : r.path = q.path
  version : r.version = q.version
  query : r.query = q.query ∨ r.query = R.query ∧ q.query = []
  headers : ∀ n, r.headers.lookup n = (q.headers.lookup n).or (R.headers.lookup n)
  body : r.body = q.body
  traceId : r.traceId = R.traceId

/-- The buffer holds a message and more: the parser stops at the end of the
message, with its request laid over the residue. -/
lemma Message.feed_append (m : Message) (hR : R.Inert) (more : Bytes) :
    (feed step ({}, R) (m.bytes ++ more)).flow = .accept ∧
      (feed step ({}, R) (m.bytes ++ more)).used = m.bytes.length ∧
      Overlay R (feed step ({}, R) (m.bytes ++ more)).state.2 m.request := by
  obtain ⟨p, hp⟩ := m.yields
  obtain ⟨hflow, hused, -, hover⟩ := feed_over hR (m.bytes ++ more)
  have hfits := feed_fits (s := ({}, {})) healthy_fresh (m.bytes ++ more)
  rw [hp.feed_append more] at hflow hused hover hfits
  have hdone : p.state = .done := hfits.1
  refine ⟨hflow, hused, ?_⟩
  exact
    { method := hover.method (by simp [hdone])
      path := hover.path (by simp [hdone]) (by simp [hdone])
      version := hover.version (by simp [hdone, lineStates])
      query := hover.query
      headers := hover.headers
      body := hover.body
      traceId := hover.traceId }

/-- The buffer holds a part of a message: the parser asks for more. -/
lemma Message.feed_part (m : Message) (hR : R.Inert) {part : Bytes} (hpart : part <+: m.bytes)
    (hne : part ≠ m.bytes) : (feed step ({}, R) part).flow = .more := by
  obtain ⟨p, hp⟩ := m.yields
  rw [(feed_over hR part).1]
  exact hp.flow_of_prefix hpart hne

end EpollGateway.Http
