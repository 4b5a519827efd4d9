import EpollGateway.Http.ChunkLines

/-! # Round trip: parsing what a client wrote

A well-formed request, followed by any further bytes, parses back to its own
fields and body and consumes exactly its own bytes (`parse_serialise`). The run
of the parser over the message is composed from the runs over its parts.
-/

namespace EpollGateway.Http

open Bytes Feed HttpParser

/-! ## The request line -/

/-- The states that collect a part of the request line, and the bytes that end it there. -/
def Collects (p : HttpParser) (c : UInt8) : Prop :=
  p.state = .method ∨ (p.state = .path ∧ c ≠ 63) ∨ p.state = .query ∨
    (p.state = .version ∧ p.crSeen = false)

lemma step_collect {p : HttpParser} {c : UInt8} (hp : Collects p c) (r : HttpRequest)
    (hc : isValidRequestLineChar c) (hcap : p.buffer.length < maxRequestLineSize) :
    step (p, r) c = (({ p with buffer := p.buffer ++ [c] }, r), .more) := by
  obtain ⟨hcr, hlf, hsp⟩ := isValidRequestLineChar_clean c hc
  have hpush : pushRequestLine p r c = (({ p with buffer := p.buffer ++ [c] }, r), .more) := by
    simp [pushRequestLine, show ¬ p.buffer.length + 1 > maxRequestLineSize by omega]
  rcases hp with hs | ⟨hs, hq⟩ | hs | ⟨hs, hseen⟩
  · simp [step, hs, stepMethod, hsp, hc, hpush]
  · simp [step, hs, stepPath, hsp, hq, hc, hpush]
  · simp [step, hs, stepQuery, hsp, hc, hpush]
  · have hsame : { p with crSeen := false } = p := by rw [← hseen]
    have hstep : step (p, r) c = stepVersion p r c := by
      simp only [step, hs]
    rw [hstep, stepVersion, if_neg hcr, if_neg hlf, if_neg (by simp [hc]), hsame, hpush]

/-- A part of the request line ends up in the buffer. -/
lemma leads_requestText {p : HttpParser} (r : HttpRequest) {t : Bytes} (ht : RequestText t)
    (hbuf : p.buffer = []) (hp : ∀ c ∈ t, Collects p c) :
    Leads step (p, r) t ({ p with buffer := t }, r) := by
  have hstart : (p, r) = ({ p with buffer := [] }, r) := by rw [← hbuf]
  rw [hstart]
  refine Leads.collect (g := fun zs => ({ p with buffer := zs }, r)) ?_
  rintro zs c ws rfl
  have hcap := ht.2
  simp only [List.length_append, List.length_cons] at hcap
  exact step_collect (p := { p with buffer := zs }) (hp c (by simp)) r (ht.1 c (by simp))
    (show zs.length < _ by omega)

/-- The request as it stands after the request line. -/
def WireRequest.lineRequest (w : WireRequest) : HttpRequest :=
  { method := w.method, path := w.path, query := w.query.getD [], version := w.version }

/-- Method, with the blank behind it. -/
lemma leads_method {t : Bytes} (ht : RequestText t) :
    Leads step ({}, {}) (t ++ [sp]) ({ state := .path }, { method := t }) := by
  refine Leads.append (leads_requestText {} ht rfl fun c _ => .inl rfl) (Leads.one ?_)
  simp [step, stepMethod]

variable {w : WireRequest}

/-- Path and query, with the blank behind them. -/
lemma leads_target (hw : w.WellFormed) :
    Leads step ({ state := .path }, { method := w.method })
      (w.path ++ w.queryText ++ [sp])
      ({ state := .version },
        { method := w.method, path := w.path, query := w.query.getD [] }) := by
  have hpath : Leads step ({ state := .path }, { method := w.method }) w.path
      ({ state := .path, buffer := w.path }, { method := w.method }) := by
    refine leads_requestText _ hw.path rfl fun c hc => .inr (.inl ⟨rfl, ?_⟩)
    rintro rfl
    exact hw.path_mark hc
  cases hq : w.query with
  | none =>
    simp only [WireRequest.queryText, hq, List.append_nil]
    refine Leads.append hpath (Leads.one ?_)
    simp [step, stepPath]
  | some q =>
    have hmark : Leads step
        ({ state := .path, buffer := w.path }, { method := w.method }) [63]
        ({ state := .query }, { method := w.method, path := w.path }) :=
      Leads.one (by simp [step, stepPath, sp])
    have hquery := leads_requestText (p := { state := .query })
      { method := w.method, path := w.path } (hw.query q hq) rfl fun c _ => .inr (.inr (.inl rfl))
    have hend : Leads step
        ({ state := .query, buffer := q }, { method := w.method, path := w.path }) [sp]
        ({ state := .version }, { method := w.method, path := w.path, query := q }) :=
      Leads.one (by simp [step, stepQuery])
    have hall := ((hpath.append hmark).append hquery).append hend
    simpa [WireRequest.queryText, hq] using hall

/-- Version and line end. -/
lemma leads_version {t : Bytes} (ht : RequestText t) (r : HttpRequest) :
    Leads step ({ state := .version }, r) (t ++ crlf)
      ({ state := .header }, { r with version := t }) := by
  have htext := leads_requestText (p := { state := .version }) r ht rfl
    fun c _ => .inr (.inr (.inr ⟨rfl, rfl⟩))
  have hcr : Leads step ({ state := .version, buffer := t }, r) [cr]
      ({ state := .version, buffer := t, crSeen := true }, r) :=
    Leads.one (by simp [step, stepVersion])
  have hlf : Leads step ({ state := .version, buffer := t, crSeen := true }, r) [lf]
      ({ state := .header }, { r with version := t }) :=
    Leads.one (by simp [step, stepVersion, cr, lf])
  exact htext.append (hcr.append hlf)

lemma leads_requestLine (hw : w.WellFormed) :
    Leads step ({}, {}) w.requestLine ({ state := .header }, w.lineRequest) := by
  have hall := ((leads_method hw.method).append (leads_target hw)).append
    (leads_version hw.version _)
  simpa [WireRequest.requestLine, WireRequest.lineRequest] using hall

/-! ## The header block -/

variable {n : Nat} {f : Field} {r : HttpRequest} {fs : List Field}

lemma step_headerText {c : UInt8} (r : HttpRequest) (line : Bytes) (hc : c ≠ cr ∧ c ≠ lf)
    (hcap : line.length < maxHeaderLineSize) (hn : n < maxHeadersSize) :
    step ({ betweenHeaders n with buffer := line }, r) c =
      (({ betweenHeaders (n + 1) with buffer := line ++ [c] }, r), .more) := by
  have hmax : maxHeadersSize = 65536 := rfl
  have hadd : SizeT.add n 1 = n + 1 := SizeT.add_eq (by omega)
  simp [step, betweenHeaders, stepHeader, hadd, hc,
    show ¬ n + 1 > maxHeadersSize by omega, show ¬ line.length + 1 > maxHeaderLineSize by omega]

lemma leads_headerText (r : HttpRequest) {line : Bytes} (hclean : ∀ c ∈ line, c ≠ cr ∧ c ≠ lf)
    (hcap : line.length ≤ maxHeaderLineSize) (hn : n + line.length ≤ maxHeadersSize) :
    Leads step (betweenHeaders n, r) line
      ({ betweenHeaders (n + line.length) with buffer := line }, r) := by
  refine Leads.collect (g := fun zs => ({ betweenHeaders (n + zs.length) with buffer := zs }, r)) ?_
  rintro zs c ws rfl
  simp only [List.length_append, List.length_cons] at hcap hn
  have hstep := step_headerText (n := n + zs.length) r zs (hclean c (by simp)) (by omega)
    (by omega)
  simpa [Nat.add_assoc] using hstep

/-- The line end of a header line hands the line over. -/
lemma step_headerEnd (r : HttpRequest) (line : Bytes) (hn : n + 2 ≤ maxHeadersSize) :
    step ({ betweenHeaders n with buffer := line }, r) cr =
        (({ betweenHeaders (n + 1) with buffer := line, crSeen := true }, r), .more) ∧
      step ({ betweenHeaders (n + 1) with buffer := line, crSeen := true }, r) lf =
        if line = [] then endOfHeaders (betweenHeaders (n + 2)) r
        else headerLine { betweenHeaders (n + 2) with buffer := line } r := by
  have hmax : maxHeadersSize = 65536 := rfl
  have hadd : SizeT.add n 1 = n + 1 := SizeT.add_eq (by omega)
  have hadd' : SizeT.add (n + 1) 1 = n + 2 := SizeT.add_eq (by omega)
  constructor
  · simp [step, betweenHeaders, stepHeader, hadd,
      show ¬ n + 1 > maxHeadersSize by omega]
  · by_cases hline : line = []
    · simp [step, betweenHeaders, stepHeader, hadd', hline, cr, lf,
        show ¬ n + 2 > maxHeadersSize by omega]
    · simp [step, betweenHeaders, stepHeader, hadd', hline, cr, lf,
        show ¬ n + 2 > maxHeadersSize by omega]

/-- A field line splits into the stored name and the value. -/
lemma splitHeaderLine_line (hf : f.WellFormed) :
    splitHeaderLine f.line = some (f.key, f.value) := by
  have hcolon : 58 ∉ f.name := fun h => (isTchar_clean 58 (hf.name_token 58 h)).2.2 rfl
  have hkey : f.key ≠ [] := by simpa [Field.key] using hf.name_ne
  have htoken : f.key.all isTchar = true := by
    simpa [Field.key, lower] using fun c hc => isTchar_toLower c (hf.name_token c hc)
  have hvalue : f.value.all isValidFieldValueChar = true :=
    List.all_eq_true.mpr hf.value_clean
  have htake : lower (f.line.take f.name.length) = f.key := by simp [Field.line, Field.key]
  have hdrop : trim (f.line.drop (f.name.length + 1)) = f.value := by
    simp [Field.line, trim_sp_cons hf.value_trimmed]
  have hidx : f.line.idxOf? 58 = some f.name.length := idxOf?_append_cons hcolon _
  simp only [splitHeaderLine, hidx, htake, hdrop, hkey, htoken, hvalue, if_false, not_true_eq_false]

/-- One header line. -/
lemma leads_field (hf : f.WellFormed) (hn : n + f.line.length + 2 ≤ maxHeadersSize)
    (hframing : checkFraming r.headers f.key = .none) :
    Leads step (betweenHeaders n, r) (f.line ++ crlf)
      (betweenHeaders (n + f.line.length + 2),
        { r with headers := r.headers.insert f.key f.value }) := by
  have hclean : ∀ c ∈ f.line, c ≠ cr ∧ c ≠ lf := by
    intro c hc
    simp only [Field.line, List.mem_append, List.mem_cons] at hc
    rcases hc with hc | rfl | rfl | hc
    · exact ⟨(isTchar_clean c (hf.name_token c hc)).1, (isTchar_clean c (hf.name_token c hc)).2.1⟩
    · decide
    · decide
    · exact isValidFieldValueChar_clean c (hf.value_clean c hc)
  obtain ⟨hcr, hlf⟩ := step_headerEnd (n := n + f.line.length) r f.line (by omega)
  have hne : f.line ≠ [] := by simp [Field.line]
  rw [if_neg hne, headerLine, splitHeaderLine_line hf] at hlf
  simp only [hframing] at hlf
  exact (leads_headerText r hclean hf.cap (by omega)).append
    ((Leads.one hcr).append (Leads.one hlf))

/-- The header map after a list of fields. -/
def storeFields (headers : Headers) (fs : List Field) : Headers :=
  fs.foldl (fun h f => h.insert f.key f.value) headers

lemma length_fieldLines_cons (f : Field) (fs : List Field) :
    (fieldLines (f :: fs)).length = f.line.length + 2 + (fieldLines fs).length := by
  simp only [fieldLines, List.flatMap_cons, List.length_append]
  rfl

/-- Fields without a meaning for the framing. -/
lemma leads_plainFields (hfs : ∀ f ∈ fs, f.WellFormed)
    (hplain : ∀ f ∈ fs, f.key ≠ contentLengthName ∧ f.key ≠ transferEncodingName)
    (hn : n + (fieldLines fs).length ≤ maxHeadersSize) :
    Leads step (betweenHeaders n, r) (fieldLines fs)
      (betweenHeaders (n + (fieldLines fs).length),
        { r with headers := storeFields r.headers fs }) := by
  induction fs generalizing n r with
  | nil => exact Leads.nil _
  | cons f fs ih =>
    rw [length_fieldLines_cons] at hn
    have hkey := hplain f (by simp)
    have hhead := leads_field (n := n) (r := r) (hfs f (by simp)) (by omega)
      (by simp [checkFraming, hkey])
    have htail := ih (n := n + f.line.length + 2)
      (r := { r with headers := r.headers.insert f.key f.value })
      (fun g hg => hfs g (by simp [hg])) (fun g hg => hplain g (by simp [hg])) (by omega)
    have hall := hhead.append htail
    rw [length_fieldLines_cons]
    simpa [fieldLines, storeFields, Nat.add_assoc] using hall

/-! ### What the map holds -/

lemma storeFields_append (h : Headers) (fs gs : List Field) :
    storeFields h (fs ++ gs) = storeFields (storeFields h fs) gs := by
  simp [storeFields]

lemma lookup_storeFields_of_ne {h : Headers} {k : Bytes} (hk : ∀ f ∈ fs, f.key ≠ k) :
    (storeFields h fs).lookup k = h.lookup k := by
  induction fs generalizing h with
  | nil => rfl
  | cons f fs ih =>
    have hne : k ≠ f.key := (hk f (by simp)).symm
    have htail := ih (h := h.insert f.key f.value) fun g hg => hk g (by simp [hg])
    rw [AList.lookup_insert_ne hne] at htail
    simpa [storeFields] using htail

lemma lookup_storeFields_of_mem {h : Headers} (hnodup : (fs.map Field.key).Nodup) (hf : f ∈ fs) :
    (storeFields h fs).lookup f.key = some f.value := by
  obtain ⟨as, bs, rfl⟩ := List.append_of_mem hf
  have hafter : ∀ g ∈ bs, g.key ≠ f.key := by
    intro g hg heq
    simp only [List.map_append, List.map_cons, List.nodup_append, List.nodup_cons] at hnodup
    exact hnodup.2.1.1 (heq ▸ List.mem_map_of_mem hg)
  rw [storeFields_append]
  have hstep : storeFields (storeFields h as) (f :: bs) =
      storeFields ((storeFields h as).insert f.key f.value) bs := rfl
  rw [hstep, lookup_storeFields_of_ne hafter, AList.lookup_insert]

/-- Only names of fields are in the map. -/
lemma exists_field_of_lookup {k v : Bytes} (hk : (storeFields ∅ fs).lookup k = some v) :
    ∃ f ∈ fs, f.key = k := by
  by_contra hnone
  push Not at hnone
  rw [lookup_storeFields_of_ne hnone] at hk
  simp at hk

/-- All fields of a request, framing header included. -/
lemma leads_fields (hw : w.WellFormed) :
    Leads step (betweenHeaders 0, w.lineRequest) (fieldLines w.fields)
      (betweenHeaders (fieldLines w.fields).length,
        { w.lineRequest with headers := storeFields ∅ w.fields }) := by
  have hcap : (fieldLines w.before).length + (fieldLines w.framing.field).length +
      (fieldLines w.after).length + 2 ≤ maxHeadersSize := by
    simpa [WireRequest.headerBlock, WireRequest.fields, fieldLines, crlf, Nat.add_assoc]
      using hw.block_cap
  have hfield : ∀ f ∈ w.fields, f.WellFormed := hw.fields
  simp only [WireRequest.fields, List.mem_append] at hfield
  have hplain := hw.plain
  simp only [List.mem_append] at hplain
  have hbefore := leads_plainFields (n := 0) (r := w.lineRequest)
    (fun f hf => hfield f (.inl (.inl hf))) (fun f hf => hplain f (.inl hf)) (by omega)
  -- the framing header meets a map without framing headers
  have hframe : Leads step
      (betweenHeaders (0 + (fieldLines w.before).length),
        { w.lineRequest with headers := storeFields ∅ w.before })
      (fieldLines w.framing.field)
      (betweenHeaders (0 + (fieldLines w.before).length + (fieldLines w.framing.field).length),
        { w.lineRequest with
          headers := storeFields (storeFields ∅ w.before) w.framing.field }) := by
    have hcl : (storeFields ∅ w.before).lookup contentLengthName = none :=
      lookup_storeFields_of_ne fun f hf => (hplain f (.inl hf)).1
    have hte : (storeFields ∅ w.before).lookup transferEncodingName = none :=
      lookup_storeFields_of_ne fun f hf => (hplain f (.inl hf)).2
    have hone : ∀ f, w.framing.field = [f] → Leads step
        (betweenHeaders (0 + (fieldLines w.before).length),
          { w.lineRequest with headers := storeFields ∅ w.before })
        (fieldLines [f])
        (betweenHeaders (0 + (fieldLines w.before).length + (fieldLines [f]).length),
          { w.lineRequest with headers := storeFields (storeFields ∅ w.before) [f] }) := by
      intro f hf
      rw [hf] at hcap hfield
      rw [length_fieldLines_cons] at hcap
      have hlead := leads_field (n := 0 + (fieldLines w.before).length)
        (r := { w.lineRequest with headers := storeFields ∅ w.before })
        (hfield f (.inl (.inr (by simp)))) (by omega) (by simp [checkFraming, hcl, hte])
      simpa [fieldLines, storeFields, crlf, Nat.add_assoc] using hlead
    cases hfr : w.framing with
    | none => exact Leads.nil _
    | contentLength f b => exact hone f (by simp [hfr, Framing.field])
    | chunked f cs l ts => exact hone f (by simp [hfr, Framing.field])
  have hafter := leads_plainFields
    (n := 0 + (fieldLines w.before).length + (fieldLines w.framing.field).length)
    (r := { w.lineRequest with headers := storeFields (storeFields ∅ w.before) w.framing.field })
    (fun f hf => hfield f (.inr hf)) (fun f hf => hplain f (.inr hf)) (by omega)
  have hall := (hbefore.append hframe).append hafter
  simpa [WireRequest.fields, fieldLines, storeFields_append, Nat.add_assoc] using hall

/-! ## Bodies -/

/-- A body of announced length is complete at its last byte. -/
lemma accepts_lengthBody {b : Bytes} (hr : r.body = []) (hb : b ≠ [])
    (hcap : b.length ≤ maxBodySize) :
    Accepts step
      ({ betweenHeaders n with state := .body, contentLength := b.length }, r) b
      ({ betweenHeaders n with state := .done, contentLength := b.length, bodyRead := b.length },
        { r with body := b }) := by
  have hmax : maxBodySize = 1048576 := rfl
  obtain ⟨init, last, rfl⟩ := List.eq_nil_or_concat b |>.resolve_left hb
  simp only [List.concat_eq_append, List.length_append, List.length_cons, List.length_nil,
    Nat.zero_add] at hcap ⊢
  have hinit : Leads step
      ({ betweenHeaders n with state := .body, contentLength := init.length + 1 }, r) init
      ({ betweenHeaders n with
          state := .body, contentLength := init.length + 1, bodyRead := init.length },
        { r with body := init }) := by
    have hstart : r = { r with body := [] } := by rw [← hr]
    rw [hstart]
    refine Leads.collect (g := fun zs => ({ betweenHeaders n with
      state := .body, contentLength := init.length + 1, bodyRead := zs.length },
      { r with body := zs })) ?_
    intro zs c ws hzs
    have hlen : init.length = zs.length + (ws.length + 1) := by simp [hzs]
    have hadd : SizeT.add zs.length 1 = zs.length + 1 := SizeT.add_eq (by omega)
    simp [step, stepBody, hadd, show ¬ maxBodySize ≤ zs.length by omega,
      show ¬ init.length ≤ zs.length by omega]
  refine hinit.accepts (Accepts.one ?_)
  have hadd : SizeT.add init.length 1 = init.length + 1 := SizeT.add_eq (by omega)
  simp [step, stepBody, hadd, show ¬ maxBodySize ≤ init.length by omega]

lemma accepts_chunkedBody {chunks : List Chunk} {last : SizeLine} {trailers : List Bytes}
    (hr : r.body = []) (hwf : (Framing.chunked f chunks last trailers).WellFormed)
    (hcap : (Framing.chunked f chunks last trailers).body.length ≤ maxBodySize) :
    Accepts step (betweenChunks n, r) (Framing.chunked f chunks last trailers).serialise
      ({ inTrailer n with state := .done }, { r with body := chunks.flatMap Chunk.data }) := by
  obtain ⟨-, -, hchunks, hlast, htrailers⟩ := hwf
  have hlines := leads_chunkedBody (n := n) hr hchunks hlast htrailers hcap
  have hend := leads_trailerEnd (n := n) { r with body := chunks.flatMap Chunk.data }
  have haccept := hend.leads.of_track.accepts (Accepts.one (step_trailerEnd _))
  exact hlines.leads.of_track.accepts haccept

/-! ## The end of the header block -/

/-- The empty line and the body behind it. -/
lemma accepts_framing (hw : w.WellFormed) (hn : n + 2 ≤ maxHeadersSize) :
    ∃ p, Accepts step
      (betweenHeaders n, { w.lineRequest with headers := storeFields ∅ w.fields })
      (crlf ++ w.framing.serialise)
      (p, { w.lineRequest with headers := storeFields ∅ w.fields, body := w.framing.body }) := by
  set r : HttpRequest := { w.lineRequest with headers := storeFields ∅ w.fields } with hr
  have hnil : r.body = [] := rfl
  obtain ⟨hcr, hlf⟩ := step_headerEnd (n := n) r [] hn
  rw [if_pos rfl] at hlf
  have hplain := hw.plain
  simp only [List.mem_append] at hplain
  have hframing := hw.framing
  have hcap := hw.body_cap
  -- a name that neither the plain fields nor the framing header carry is not in the map
  have hnone : ∀ k, k = contentLengthName ∨ k = transferEncodingName →
      (∀ f ∈ w.framing.field, f.key ≠ k) → r.headers.lookup k = none := by
    intro k hk hf
    have hlook : r.headers.lookup k = (∅ : Headers).lookup k := by
      refine lookup_storeFields_of_ne fun f hmem => ?_
      simp only [WireRequest.fields, List.mem_append] at hmem
      rcases hmem with (hmem | hmem) | hmem
      · rcases hk with rfl | rfl
        · exact (hplain f (.inl hmem)).1
        · exact (hplain f (.inl hmem)).2
      · exact hf f hmem
      · rcases hk with rfl | rfl
        · exact (hplain f (.inr hmem)).1
        · exact (hplain f (.inr hmem)).2
    rw [hlook, AList.lookup_empty]
  cases hfr : w.framing with
  | none =>
    have hte := hnone transferEncodingName (.inr rfl) (by simp [hfr, Framing.field])
    have hcl := hnone contentLengthName (.inl rfl) (by simp [hfr, Framing.field])
    simp only [endOfHeaders, hte, hcl] at hlf
    exact ⟨_, (Leads.one hcr).accepts (Accepts.one hlf)⟩
  | contentLength f b =>
    rw [hfr] at hframing hcap
    obtain ⟨hkey, hne, hvalue⟩ := hframing
    have hte : r.headers.lookup transferEncodingName = none :=
      hnone transferEncodingName (.inr rfl) (by simp [hfr, Framing.field, hkey]; decide)
    have hcl : r.headers.lookup contentLengthName = some f.value := by
      rw [← hkey]
      exact lookup_storeFields_of_mem hw.distinct (by simp [WireRequest.fields, hfr, Framing.field])
    have hloop : contentLengthLoop 0 f.value = (true, b.length) :=
      contentLengthLoop_numeral hvalue hcap
    have hle : ¬ b.length > maxBodySize := Nat.not_lt.mpr hcap
    simp only [endOfHeaders, hte, hcl, hloop, hne, hle, if_false, ne_eq, not_false_eq_true,
      and_self, not_true_eq_false] at hlf
    by_cases hb : b = []
    · subst hb
      exact ⟨_, (Leads.one hcr).accepts (Accepts.one hlf)⟩
    · rw [if_pos (List.length_pos_of_ne_nil hb)] at hlf
      have hbody := accepts_lengthBody (n := n + 2) hnil hb hcap
      have hhead := (Leads.one hcr).append (Leads.one hlf)
      exact ⟨_, hhead.accepts hbody⟩
  | chunked f chunks last trailers =>
    rw [hfr] at hframing hcap
    have hte : r.headers.lookup transferEncodingName = some f.value := by
      rw [← hframing.1]
      exact lookup_storeFields_of_mem hw.distinct (by simp [WireRequest.fields, hfr, Framing.field])
    simp only [endOfHeaders, hte, hframing.2.1, ne_eq, not_true_eq_false, if_false] at hlf
    have hbody := accepts_chunkedBody (n := n + 2) hnil hframing hcap
    have hhead := (Leads.one hcr).append (Leads.one hlf)
    exact ⟨_, hhead.accepts hbody⟩

/-- The whole message. -/
lemma accepts_serialise (hw : w.WellFormed) :
    ∃ p, Accepts step ({}, {}) w.serialise
      (p, { w.lineRequest with headers := storeFields ∅ w.fields, body := w.framing.body }) := by
  have hcap : (fieldLines w.fields).length + 2 ≤ maxHeadersSize := by
    simpa [WireRequest.headerBlock, crlf] using hw.block_cap
  obtain ⟨p, hend⟩ := accepts_framing hw hcap
  have hall := ((leads_requestLine hw).append (leads_fields hw)).accepts hend
  exact ⟨p, by simpa [WireRequest.serialise, WireRequest.headerBlock] using hall⟩

/-- Parsing a serialised request, whatever follows it, returns its fields under
lower-case names, its body, and the length of the message. -/
theorem parse_serialise (w : WireRequest) (hw : w.WellFormed) (suffix : Bytes) :
    let q := ({} : HttpParser).parse {} (w.serialise ++ suffix)
    q.complete = true ∧
      q.request.method = w.method ∧
      q.request.path = w.path ∧
      q.request.query = w.query.getD [] ∧
      q.request.version = w.version ∧
      (∀ f ∈ w.fields, q.request.headers.lookup (lower f.name) = some f.value) ∧
      (∀ name value, q.request.headers.lookup name = some value →
        ∃ f ∈ w.fields, lower f.name = name ∧ f.value = value) ∧
      q.request.body = w.framing.body ∧
      q.consumed = w.serialise.length := by
  intro q
  obtain ⟨p, hacc⟩ := accepts_serialise hw
  have hq : q = ⟨true, p,
      { w.lineRequest with headers := storeFields ∅ w.fields, body := w.framing.body },
      w.serialise.length⟩ := by
    simp [q, parse, hacc.feed_append suffix]
  rw [hq]
  have hmem : ∀ f ∈ w.fields, (storeFields ∅ w.fields).lookup f.key = some f.value :=
    fun f hf => lookup_storeFields_of_mem hw.distinct hf
  refine ⟨rfl, rfl, rfl, rfl, rfl, hmem, ?_, rfl, rfl⟩
  intro name value hlook
  obtain ⟨f, hf, rfl⟩ := exists_field_of_lookup hlook
  exact ⟨f, hf, rfl, Option.some.inj ((hmem f hf).symm.trans hlook)⟩

/-- A request with a query, a chunk extension and a trailer. -/
def chunkedSample : WireRequest where
  method := ascii "POST"
  path := ascii "/a"
  query := some (ascii "x=1")
  version := ascii "HTTP/1.1"
  before := [⟨ascii "Host", ascii "h"⟩]
  framing := .chunked ⟨ascii "Transfer-Encoding", ascii "Chunked"⟩
    [⟨{ digits := ascii "3", ext := ascii ";e" }, ascii "abc"⟩] { digits := ascii "0" }
    [ascii "T: 1"]
  after := [⟨ascii "Accept", ascii "*/*"⟩]

lemma chunkedSample_wellFormed : chunkedSample.WellFormed where
  method := by decide +kernel
  path := by decide +kernel
  path_mark := by decide
  query := by decide +kernel
  version := by decide +kernel
  fields := by
    intro f hf
    simp only [WireRequest.fields, chunkedSample, Framing.field, List.cons_append, List.nil_append,
      List.mem_cons, List.not_mem_nil, or_false] at hf
    rcases hf with rfl | rfl | rfl <;>
      exact ⟨by decide +kernel, by decide +kernel, by decide +kernel, by decide +kernel,
        by decide +kernel⟩
  distinct := by decide
  plain := by decide
  block_cap := by decide
  framing := by
    refine ⟨by decide, by decide, ?_, ⟨by decide, by decide, by decide, by decide, by decide⟩, ?_⟩
    · intro c hc
      obtain rfl := List.mem_singleton.mp hc
      exact ⟨by decide, ⟨by decide, by decide, by decide, by decide, by decide⟩⟩
    · intro t ht
      obtain rfl := List.mem_singleton.mp ht
      exact ⟨by decide, by decide, by decide⟩
  body_cap := by decide

/-- The sample, with the next request behind it. -/
theorem parse_serialise_chunkedSample :
    chunkedSample.WellFormed ∧
      (({} : HttpParser).parse {} (chunkedSample.serialise ++ ascii "GET / ")).request.body =
        ascii "abc" ∧
      (({} : HttpParser).parse {} (chunkedSample.serialise ++ ascii "GET / ")).consumed =
        chunkedSample.serialise.length := by
  obtain ⟨-, -, -, -, -, -, -, hbody, hconsumed⟩ :=
    parse_serialise chunkedSample chunkedSample_wellFormed (ascii "GET / ")
  exact ⟨chunkedSample_wellFormed, hbody, hconsumed⟩

end EpollGateway.Http
