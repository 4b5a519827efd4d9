import EpollGateway.Handler.Flight

/-! # The document of a composite

The response to a composite request is a JSON document that holds bytes of two
other parties: the client's trace id and the bodies of the backends.
`dump_compositePayload` says when the document has a text, and `Sound` relates the
items of the document to those bytes.
-/

namespace EpollGateway.Handler

open Bytes Http Upstream Machine

/-! ## Objects that are filled key by key -/

variable {entries item : Item} {ok : Prop} {ch : ChildExchange}
  {upstreams : Bytes → List UpstreamServer} {children : List ChildExchange}

lemma mem_setFields (hnodup : (entries.map Prod.fst).Nodup) {f : Bytes × Json} :
    f ∈ setFields item entries ↔ f ∈ entries ∨ f ∈ item ∧ f.1 ∉ entries.map Prod.fst := by
  unfold setFields
  induction entries generalizing item with
  | nil => simp
  | cons e rest ih =>
    simp only [List.map_cons, List.nodup_cons] at hnodup
    rw [List.foldl_cons, ih hnodup.2, Json.mem_setField]
    simp only [List.mem_cons, List.map_cons, not_or]
    constructor
    · rintro (h | ⟨rfl | ⟨h, hne⟩, hnotin⟩)
      · exact .inl (.inr h)
      · exact .inl (.inl rfl)
      · exact .inr ⟨h, hne, hnotin⟩
    · rintro ((rfl | h) | ⟨h, hne, hnotin⟩)
      · exact .inr ⟨.inl rfl, hnodup.1⟩
      · exact .inl h
      · exact .inr ⟨.inr ⟨h, hne⟩, hnotin⟩

/-- Keys that are written last decide; of the earlier entries only those with other
keys count. -/
lemma fieldsUtf8_setFields (hnodup : (entries.map Prod.fst).Nodup) (item : Item) :
    Json.FieldsUtf8 (setFields item entries) ↔ Json.FieldsUtf8 entries ∧
      ∀ f ∈ item, f.1 ∉ entries.map Prod.fst → utf8 f.1 = true ∧ f.2.Utf8 := by
  simp only [Json.fieldsUtf8_iff, mem_setFields hnodup]
  constructor
  · intro h
    exact ⟨fun f hf => h f (.inl hf), fun f hf hk => h f (.inr ⟨hf, hk⟩)⟩
  · rintro ⟨hentries, hitem⟩ f (hf | ⟨hf, hk⟩)
    · exact hentries f hf
    · exact hitem f hf hk

/-! ## The items of the dependencies -/

def traceIdKey : Bytes := ascii "trace_id"

/-- Of the entries of an item before its outcome, only the trace id can be something
else than UTF-8; `ok` says that it is UTF-8. -/
structure Started (ok : Prop) (item : Item) : Prop where
  others : ∀ f ∈ item, f.1 ≠ traceIdKey → utf8 f.1 = true ∧ f.2.Utf8
  trace : ∃ t, (utf8 t = true ↔ ok) ∧ (traceIdKey, Json.str t) ∈ item ∧
    ∀ f ∈ item, f.1 = traceIdKey → f.2 = .str t

/-- An item whose outcome has been written into it, under keys of its own. -/
lemma Started.fieldsUtf8 (h : Started ok item) (entries : Item)
    (hkeys : (traceIdKey :: entries.map Prod.fst).Nodup) :
    Json.FieldsUtf8 (setFields item entries) ↔ ok ∧ Json.FieldsUtf8 entries := by
  obtain ⟨htrace, hnodup⟩ := List.nodup_cons.mp hkeys
  obtain ⟨t, hok, hmem, huniq⟩ := h.trace
  rw [fieldsUtf8_setFields hnodup, ← hok, and_comm]
  refine and_congr_left fun _ => ⟨fun hall => (hall _ hmem htrace).2, fun ht f hf _ => ?_⟩
  by_cases hkey : f.1 = traceIdKey
  · rw [hkey, huniq f hf hkey]
    exact ⟨(Text.ofAscii "trace_id").2, ht⟩
  · exact h.others f hf hkey

lemma Started.fieldsUtf8_self (h : Started ok item) : Json.FieldsUtf8 item ↔ ok := by
  have hself := h.fieldsUtf8 [] (by simp)
  simpa [setFields, Json.FieldsUtf8] using hself

/-! ### Texts that are UTF-8 by construction -/

lemma utf8_text (s : String) (h : ∀ c ∈ ascii s, c ≤ 0x7F := by simp [ascii]) : (text s).Utf8 :=
  utf8_of_ascii h

lemma isXDigit_ascii : ∀ c : UInt8, isXDigit c = true → c ≤ 0x7F :=
  forall_byte (by decide +kernel)

lemma generateTraceparent_ascii (fresh traceId : Bytes) (parentId : Nat) :
    ∀ c ∈ generateTraceparent fresh traceId parentId, c ≤ 0x7F := by
  intro c hc
  simp only [generateTraceparent, normalizeTraceId, List.mem_append, List.mem_replicate] at hc
  rcases hc with (((hc | ⟨-, rfl⟩ | hc) | hc) | ⟨-, rfl⟩ | hc) | hc
  · revert c
    decide +kernel
  · decide
  · exact isXDigit_ascii c (List.of_mem_filter (List.mem_of_mem_take hc))
  · revert c
    decide +kernel
  · decide
  · exact hexText_ascii parentId c hc
  · revert c
    decide +kernel

lemma startItem_started (dep : CompositeDependency) (fresh traceId : Bytes) (parentId : Nat) :
    Started (utf8 traceId = true) (startItem dep fresh traceId parentId) := by
  have hnodup : ((startEntries dep fresh traceId parentId).map Prod.fst).Nodup := by
    simp only [startEntries, List.map_cons, List.map_nil]
    decide
  have hmem : ∀ f, f ∈ startItem dep fresh traceId parentId ↔ f ∈ startEntries dep fresh traceId parentId := by
    intro f
    rw [startItem, mem_setFields hnodup]
    simp
  have hparent := utf8_of_ascii (generateTraceparent_ascii fresh traceId parentId)
  constructor
  · intro f hf hkey
    rw [hmem] at hf
    simp only [startEntries, List.mem_cons, List.not_mem_nil, or_false] at hf
    rcases hf with rfl | rfl | rfl | rfl | rfl | rfl | rfl | rfl
    · exact ⟨(Text.ofAscii "required").2, trivial⟩
    · exact ⟨(Text.ofAscii "upstream").2, dep.upstreamName.2⟩
    · exact ⟨(Text.ofAscii "method").2, dep.method.2⟩
    · exact ⟨(Text.ofAscii "path").2, dep.path.2⟩
    · exact absurd rfl hkey
    · exact ⟨(Text.ofAscii "traceparent").2, hparent⟩
    · exact ⟨(Text.ofAscii "attempts").2, trivial⟩
    · exact ⟨(Text.ofAscii "timed_out").2, trivial⟩
  · have htrace : (traceIdKey, Json.str traceId) ∈ startEntries dep fresh traceId parentId := by
      simp [startEntries, traceIdKey]
    refine ⟨traceId, Iff.rfl, (hmem _).mpr htrace, ?_⟩
    intro f hf hkey
    rw [List.inj_on_of_nodup_map hnodup ((hmem f).mp hf) htrace hkey]

/-! ### Outcomes -/

section

variable (elapsed : Nat)

lemma unavailableEntries_utf8 (required : Bool) :
    Json.FieldsUtf8 (unavailableEntries required elapsed) := by
  refine ⟨(Text.ofAscii "status").2, utf8_text _, (Text.ofAscii "error").2, ?_,
    (Text.ofAscii "duration_ms").2, trivial, trivial⟩
  cases required
  · exact utf8_text _
  · exact utf8_text _

lemma circuitOpenEntries_utf8 : Json.FieldsUtf8 (circuitOpenEntries elapsed) :=
  ⟨(Text.ofAscii "status").2, utf8_text _, (Text.ofAscii "http_status").2, trivial,
    (Text.ofAscii "error").2, utf8_text _, (Text.ofAscii "duration_ms").2, trivial,
    trivial⟩

lemma failedEntries_utf8 (error : BackendError) :
    Json.FieldsUtf8 (failedEntries error elapsed) := by
  refine ⟨(Text.ofAscii "duration_ms").2, trivial, (Text.ofAscii "status").2,
    utf8_text _, (Text.ofAscii "http_status").2, trivial, (Text.ofAscii "error").2, ?_,
    (Text.ofAscii "timed_out").2, trivial, trivial⟩
  cases error.timedOut
  · exact utf8_text _
  · exact utf8_text _

lemma forcedEntries_utf8 : Json.FieldsUtf8 (forcedEntries elapsed) :=
  ⟨(Text.ofAscii "status").2, utf8_text _, (Text.ofAscii "http_status").2, trivial,
    (Text.ofAscii "error").2, utf8_text _, (Text.ofAscii "timed_out").2, trivial,
    (Text.ofAscii "duration_ms").2, trivial, trivial⟩

/-- The one outcome that shows bytes of a backend. -/
lemma answeredEntries_utf8 {upstreamKey : Bytes} (hkey : utf8 upstreamKey = true)
    (be : BackendResponse) :
    Json.FieldsUtf8 (answeredEntries upstreamKey be elapsed) ↔ utf8 be.body = true := by
  have hok : (text "ok").Utf8 := utf8_text _
  have hfailed : (text "failed").Utf8 := utf8_text _
  have hnil : utf8 [] = true := rfl
  have hkeys : ∀ s ∈ ["duration_ms", "status", "http_status", "backend", "error", "timed_out", "body"],
      utf8 (ascii s) = true := by decide +kernel
  simp only [List.forall_mem_cons, List.not_mem_nil, false_implies, implies_true, and_true] at hkeys
  unfold answeredEntries
  dsimp only
  split
  · simp [Json.FieldsUtf8, Json.Utf8, hkeys, hkey, hok, hnil]
  · simp [Json.FieldsUtf8, Json.Utf8, hkeys, hkey, hfailed]

end

/-! ## Children -/

/-- A child of a composite whose trace id is UTF-8 if `ok`: its item is UTF-8 exactly if
`ok` holds and the body that the item shows, if any, is UTF-8. -/
structure Sound (ok : Prop) (ch : ChildExchange) : Prop where
  key : utf8 ch.upstreamKey = true
  live : ch.live = true ↔ ch.finished = false
  started : ch.finished = false → Started ok ch.item ∧ ch.answer = none
  item : Json.FieldsUtf8 ch.item ↔ ok ∧ ∀ b, ch.answer = some b → utf8 b = true

lemma sound_settled (h : Sound ok ch) (hlive : ch.live = true) (succeeded : Bool)
    (be : BackendResponse) (elapsed : Nat) : Sound ok (settledChild ch succeeded be elapsed) where
  key := h.key
  live := by simp [settledChild]
  started := fun hf => by cases hf
  item := by
    obtain ⟨hstarted, -⟩ := h.started (h.live.mp hlive)
    cases succeeded with
    | true =>
      have hitem := hstarted.fieldsUtf8 (answeredEntries ch.upstreamKey be elapsed) (by
        unfold answeredEntries
        dsimp only
        split <;> simp only [List.map_append, List.map_cons, List.map_nil] <;> decide)
      rw [answeredEntries_utf8 elapsed h.key] at hitem
      simpa [settledChild] using hitem
    | false =>
      have hitem := hstarted.fieldsUtf8 (failedEntries be.error elapsed) (by
        simp only [failedEntries, List.map_cons, List.map_nil]
        decide)
      simpa [settledChild, failedEntries_utf8] using hitem

lemma sound_forced (h : Sound ok ch) (elapsed : Nat) :
    Sound ok (forceFinishChild elapsed ch) := by
  unfold forceFinishChild
  split
  · exact h
  · rename_i hopen
    obtain ⟨hstarted, hanswer⟩ := h.started (by simpa using hopen)
    have hitem := hstarted.fieldsUtf8 (forcedEntries elapsed) (by
      simp only [forcedEntries, List.map_cons, List.map_nil]
      decide)
    refine ⟨h.key, by simp, fun hf => ?_, ?_⟩
    · cases hf
    · simpa [forcedEntries_utf8, hanswer] using hitem

lemma utf8_traceIdOr (req : HttpRequest) (fresh : Text) :
    utf8 (traceIdOr req fresh) = true ↔ utf8 req.traceId = true := by
  unfold traceIdOr
  split
  · rename_i hnil
    rw [hnil]
    exact ⟨fun _ => rfl, fun _ => fresh.2⟩
  · exact Iff.rfl

lemma freshChild_started (s : Surroundings) (req : HttpRequest) (dep : CompositeDependency) :
    Started (utf8 req.traceId = true) (freshChild s req dep).item := by
  rw [← utf8_traceIdOr req s.traceId]
  unfold freshChild
  dsimp only
  exact startItem_started dep s.traceId (traceIdOr req s.traceId) _

/-- A child whose call has begun. -/
lemma sound_of_started (hkey : utf8 ch.upstreamKey = true) (hlive : ch.live = true)
    (hopen : ch.finished = false) (hanswer : ch.answer = none) (h : Started ok ch.item) :
    Sound ok ch :=
  ⟨hkey, by simp [hlive, hopen], fun _ => ⟨h, hanswer⟩, by simpa [hanswer] using h.fieldsUtf8_self⟩

/-- A child whose call could not begin. -/
lemma sound_unstarted (ch : ChildExchange) (hkey : utf8 ch.upstreamKey = true)
    (hlive : ch.live = false) (hanswer : ch.answer = none) (h : Started ok ch.item)
    (entries : Item) (hkeys : (traceIdKey :: entries.map Prod.fst).Nodup)
    (hutf8 : Json.FieldsUtf8 entries) :
    Sound ok { ch with item := setFields ch.item entries, finished := true } := by
  refine ⟨hkey, by simp [hlive], fun hf => (by cases hf), ?_⟩
  dsimp only
  rw [h.fieldsUtf8 entries hkeys, hanswer]
  simp [hutf8]

/-- The children that a composite starts with. -/
lemma sound_startDependency {s : Surroundings} {threshold : Int} {req : HttpRequest}
    {m m' : UpstreamManager} {dep : CompositeDependency}
    (h : startDependency upstreams s threshold req m dep = (m', some ch)) :
    Sound (utf8 req.traceId = true) ch := by
  have hstarted := freshChild_started s req dep
  have hkey : utf8 (freshChild s req dep).upstreamKey = true := dep.upstreamName.2
  have hlive : (freshChild s req dep).live = false := rfl
  have hopen : (freshChild s req dep).finished = false := rfl
  have hanswer : (freshChild s req dep).answer = none := rfl
  unfold startDependency at h
  -- nothing below depends on what the fresh child is
  generalize freshChild s req dep = fresh at h hstarted hkey hlive hopen hanswer
  dsimp only at h
  split at h
  · cases h
    refine sound_unstarted fresh hkey hlive hanswer hstarted
      (unavailableEntries dep.required s.elapsed)
      ?_ (unavailableEntries_utf8 s.elapsed dep.required)
    simp only [unavailableEntries, List.map_cons, List.map_nil]
    decide
  · split at h
    · cases h
    · rename_i server _ _
      split at h
      · cases h
        refine sound_unstarted { fresh with server := server, circuitFailureThreshold := threshold }
          hkey hlive hanswer hstarted (circuitOpenEntries s.elapsed) ?_
          (circuitOpenEntries_utf8 s.elapsed)
        simp only [circuitOpenEntries, List.map_cons, List.map_nil]
        decide
      · cases h
        exact sound_of_started hkey rfl hopen hanswer hstarted
      · cases h
        exact sound_of_started hkey rfl hopen hanswer hstarted

lemma sound_startDependencies {s : Surroundings} {threshold : Int} {req : HttpRequest}
    {deps : List CompositeDependency} {m m' : UpstreamManager}
    (h : startDependencies upstreams s threshold req m deps = (m', some children)) :
    ∀ ch ∈ children, Sound (utf8 req.traceId = true) ch := by
  induction deps generalizing m m' children with
  | nil =>
    cases h
    simp
  | cons dep deps ih =>
    rw [startDependencies] at h
    split at h
    · cases h
    · rename_i m₁ child hdep
      rcases hrest : startDependencies upstreams s threshold req m₁ deps with ⟨m₂, rest⟩
      rw [hrest] at h
      cases rest with
      | none => cases h
      | some rest =>
        cases h
        intro ch hch
        rcases List.mem_cons.mp hch with rfl | hch
        · exact sound_startDependency hdep
        · exact ih hrest ch hch

/-! ## The document -/

/-- The last element for each key. -/
def shown {α : Type} (key : α → Bytes) : List α → List α
  | [] => []
  | a :: rest =>
    if rest.any (fun later => key later = key a) then shown key rest else a :: shown key rest

lemma mem_of_mem_shown {α : Type} {key : α → Bytes} {a : α} {l : List α}
    (h : a ∈ shown key l) : a ∈ l := by
  induction l with
  | nil => exact h
  | cons b rest ih =>
    rw [shown] at h
    split at h
    · exact List.mem_cons_of_mem _ (ih h)
    · rcases List.mem_cons.mp h with rfl | h
      · exact List.mem_cons_self
      · exact List.mem_cons_of_mem _ (ih h)

lemma shown_ne_nil {α : Type} {key : α → Bytes} {l : List α} (h : l ≠ []) :
    shown key l ≠ [] := by
  induction l with
  | nil => exact absurd rfl h
  | cons a rest ih =>
    rw [shown]
    split
    · rename_i hlater
      refine ih ?_
      rintro rfl
      simp at hlater
    · simp

lemma shown_map {α β : Type} (key : β → Bytes) (f : α → β) (l : List α) :
    shown key (l.map f) = (shown (fun a => key (f a)) l).map f := by
  induction l with
  | nil => rfl
  | cons a rest ih =>
    rw [List.map_cons, shown, shown, ih, List.any_map]
    simp only [Function.comp_def]
    split <;> rfl

lemma mem_dependenciesObject {acc : Item} {f : Bytes × Json} :
    f ∈ children.foldl (fun it ch => Json.setField ch.name (.obj ch.item) it) acc ↔
      (∃ ch ∈ shown (·.name) children, f = ((ch.name : Bytes), .obj ch.item)) ∨
        f ∈ acc ∧ ∀ ch ∈ children, f.1 ≠ ch.name := by
  induction children generalizing acc with
  | nil => simp [shown]
  | cons c rest ih =>
    rw [List.foldl_cons, ih, Json.mem_setField, shown]
    have hlater : rest.any (fun later => (later.name : Bytes) = c.name) = true ↔
        ∃ ch ∈ rest, (ch.name : Bytes) = c.name := by
      simp only [List.any_eq_true, decide_eq_true_eq]
    simp only [List.mem_cons, forall_eq_or_imp]
    split
    · rename_i h
      obtain ⟨ch, hch, hname⟩ := hlater.mp h
      constructor
      · rintro (hshown | ⟨rfl | ⟨hacc, hne⟩, hrest⟩)
        · exact .inl hshown
        · exact absurd hname.symm (hrest ch hch)
        · exact .inr ⟨hacc, hne, hrest⟩
      · rintro (hshown | ⟨hacc, hne, hrest⟩)
        · exact .inl hshown
        · exact .inr ⟨.inr ⟨hacc, hne⟩, hrest⟩
    · rename_i h
      constructor
      · rintro (⟨ch, hch, hf⟩ | ⟨rfl | ⟨hacc, hne⟩, hrest⟩)
        · exact .inl ⟨ch, .tail _ hch, hf⟩
        · exact .inl ⟨c, .head _, rfl⟩
        · exact .inr ⟨hacc, hne, hrest⟩
      · rintro (⟨ch, hch, rfl⟩ | ⟨hacc, hne, hrest⟩)
        · rcases List.mem_cons.mp hch with rfl | hch
          · exact .inr ⟨.inl rfl, fun ch hch hname => h (hlater.mpr ⟨ch, hch, hname.symm⟩)⟩
          · exact .inl ⟨ch, hch, rfl⟩
        · exact .inr ⟨.inr ⟨hacc, hne⟩, hrest⟩

lemma fieldsUtf8_dependenciesObject (children : List ChildExchange) :
    Json.FieldsUtf8 (dependenciesObject children) ↔
      ∀ ch ∈ shown (·.name) children, Json.FieldsUtf8 ch.item := by
  rw [Json.fieldsUtf8_iff]
  simp only [dependenciesObject, mem_dependenciesObject, List.not_mem_nil, false_and, or_false]
  constructor
  · intro h ch hch
    exact (h _ ⟨ch, hch, rfl⟩).2
  · rintro h f ⟨ch, hch, rfl⟩
    exact ⟨ch.name.2, h ch hch⟩

/-- The document has a text exactly if the items that it shows are UTF-8. -/
lemma dump_compositePayload (st : ExchangeState) :
    (compositePayload st).dump.isSome ↔
      ∀ ch ∈ shown (·.name) st.children, Json.FieldsUtf8 ch.item := by
  rw [Json.dump_isSome_iff, ← fieldsUtf8_dependenciesObject]
  have hstatus : (if requiredFailed st.children then text "partial_failure" else text "ok").Utf8 := by
    split <;> exact utf8_text _
  show Json.FieldsUtf8 (setFields [] _) ↔ _
  rw [fieldsUtf8_setFields (by simp only [List.map_cons, List.map_nil]; decide)]
  have hroute := (Text.ofAscii "route").2
  have haggregate := (Text.ofAscii "aggregate").2
  have hkey := (Text.ofAscii "status").2
  have hdependencies := (Text.ofAscii "dependencies").2
  constructor
  · rintro ⟨⟨-, -, -, -, -, -, -, h, -⟩, -⟩
    exact h
  · intro h
    exact ⟨⟨hroute, st.routeName.2, haggregate, st.compositeName.2, hkey, hstatus, hdependencies, h,
      trivial⟩, fun f hf => absurd hf List.not_mem_nil⟩

end EpollGateway.Handler
