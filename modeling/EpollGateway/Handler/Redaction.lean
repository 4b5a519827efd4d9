import EpollGateway.Lib.Bytes

/-! # Secrets in logged targets

Both logs write the target of a request through `redact_request_target`. It goes through
the query part by part, decodes the name of each, and replaces the value if the name is one
of a list. The result depends on nothing that it should hide: two queries that differ only
in the values of such names give the same text, every other part stays as it is, and a text
that was redacted is not changed again (`redaction_faithful`).
-/

namespace EpollGateway.Handler

open Bytes

/-- The fields of `LoggingConfig` that concern the query. -/
structure LoggingConfig where
  redactSensitiveQueryParams : Bool := true
  sensitiveQueryParams : List Bytes :=
    [ascii "access_token", ascii "api_key", ascii "apikey", ascii "key", ascii "password",
      ascii "secret", ascii "token"]

/-! ## The functions -/

/-- The loop of `decode_query_name`; every pass uses up a byte. -/
def decodeLoop (name : Bytes) : Nat → Nat → Bytes → Bytes
  | 0, _, decoded => decoded
  | fuel + 1, i, decoded =>
    match name[i]? with
    | none => decoded
    | some c =>
      if c = 43 then decodeLoop name fuel (i + 1) (decoded ++ [sp])
      else if c = 37 ∧ i + 2 < name.length then
        match (name[i + 1]?).bind hexVal?, (name[i + 2]?).bind hexVal? with
        | some high, some low =>
          decodeLoop name fuel (i + 3) (decoded ++ [UInt8.ofNat (16 * high + low)])
        | _, _ => decodeLoop name fuel (i + 1) (decoded ++ [c])
      else decodeLoop name fuel (i + 1) (decoded ++ [c])

def decodeQueryName (name : Bytes) : Bytes := lower (decodeLoop name name.length 0 [])

def containsName (names : List Bytes) (name : Bytes) : Bool :=
  names.any fun candidate => lower candidate = lower name

/-- One part of the query, as the loop appends it. -/
def redactPart (names : List Bytes) (part : Bytes) : Bytes :=
  match part.idxOf? 61 with
  | some equals =>
    if containsName names (decodeQueryName (part.take equals)) then
      part.take (equals + 1) ++ ascii "[redacted]"
    else part
  | none => part

/-- The loop over the parts; every pass uses up a separator. -/
def redactLoop (names : List Bytes) (target : Bytes) : Nat → Nat → Bytes → Bytes
  | 0, _, redacted => redacted
  | fuel + 1, position, redacted =>
    if position < target.length then
      match (target.drop position).idxOf? 38 with
      | none => redacted ++ redactPart names (target.drop position)
      | some len =>
        redactLoop names target fuel (position + len + 1)
          (redacted ++ redactPart names ((target.drop position).take len) ++ [38])
    else redacted

/-- `redact_request_target` of a whole target. -/
def redactTarget (target : Bytes) (config : LoggingConfig) : Bytes :=
  if ¬ config.redactSensitiveQueryParams then target
  else
    match target.idxOf? 63 with
    | none => target
    | some queryStart =>
      redactLoop config.sensitiveQueryParams target (target.length + 1) (queryStart + 1)
        (target.take (queryStart + 1))

/-- `redact_request_target` of a path and a query. -/
def redactRequestTarget (path query : Bytes) (config : LoggingConfig) : Bytes :=
  redactTarget (path ++ if query = [] then [] else 63 :: query) config

/-! ## What should hold -/

/-- A name and its text: `+` is a space, and `%` with two digits a byte. Every other `%`
stands for itself. -/
inductive Decodes : Bytes → Bytes → Prop where
  | nil : Decodes [] []
  | plus {rest text : Bytes} : Decodes rest text → Decodes (43 :: rest) (sp :: text)
  | escape {h l : UInt8} {high low : Nat} {rest text : Bytes} : hexVal? h = some high →
      hexVal? l = some low → Decodes rest text →
      Decodes (37 :: h :: l :: rest) (UInt8.ofNat (16 * high + low) :: text)
  | plain {c : UInt8} {rest text : Bytes} : c ≠ 43 →
      (c = 37 → ∀ h l after, rest = h :: l :: after → hexVal? h = none ∨ hexVal? l = none) →
      Decodes rest text → Decodes (c :: rest) (c :: text)

/-- The text of the name is one of the list, in any case. -/
def Sensitive (names : List Bytes) (name : Bytes) : Prop :=
  ∃ text, Decodes name text ∧ ∃ n ∈ names, lower n = lower text

/-- Two parts that may differ in the value of a sensitive name only. -/
inductive PartAlike (names : List Bytes) : Bytes → Bytes → Prop where
  | same (part : Bytes) : PartAlike names part part
  | secret {name : Bytes} (value value' : Bytes) : 61 ∉ name → Sensitive names name →
      PartAlike names (name ++ 61 :: value) (name ++ 61 :: value')

/-- A part and what is logged for it. -/
inductive PartRedacted (names : List Bytes) : Bytes → Bytes → Prop where
  | kept {part : Bytes} : (∀ name value, part = name ++ 61 :: value → 61 ∉ name →
      ¬ Sensitive names name) → PartRedacted names part part
  | secret {name : Bytes} (value : Bytes) : 61 ∉ name → Sensitive names name →
      PartRedacted names (name ++ 61 :: value) (name ++ 61 :: ascii "[redacted]")

/-! ## Names -/

variable {name part path query : Bytes} {names : List Bytes}

lemma Decodes.unique {text text' : Bytes} (h : Decodes name text) (h' : Decodes name text') :
    text = text' := by
  induction h generalizing text' with
  | nil =>
    cases h'
    rfl
  | plus _ ih =>
    cases h' with
    | plus hrest => rw [ih hrest]
    | plain hne _ _ => exact absurd rfl hne
  | escape hhigh hlow _ ih =>
    cases h' with
    | escape hhigh' hlow' hrest =>
      rw [hhigh, Option.some.injEq] at hhigh'
      rw [hlow, Option.some.injEq] at hlow'
      rw [ih hrest, hhigh', hlow']
    | plain _ hnone _ =>
      rcases hnone rfl _ _ _ rfl with hnone | hnone
      · rw [hhigh] at hnone
        cases hnone
      · rw [hlow] at hnone
        cases hnone
  | plain hne hnone _ ih =>
    cases h' with
    | plus _ => exact absurd rfl hne
    | escape hhigh hlow _ =>
      rcases hnone rfl _ _ _ rfl with hnone | hnone
      · rw [hhigh] at hnone
        cases hnone
      · rw [hlow] at hnone
        cases hnone
    | plain _ _ hrest => rw [ih hrest]

lemma drop_eq_cons {b : Bytes} {i : Nat} {c : UInt8} (h : b[i]? = some c) :
    b.drop i = c :: b.drop (i + 1) := by
  rcases List.getElem?_eq_some_iff.mp h with ⟨hlt, rfl⟩
  exact List.drop_eq_getElem_cons hlt

/-- The loop decodes what is left of the name. -/
lemma decodeLoop_decodes (name : Bytes) {fuel i : Nat} (hfuel : name.length ≤ i + fuel)
    (decoded : Bytes) :
    ∃ text, Decodes (name.drop i) text ∧ decodeLoop name fuel i decoded = decoded ++ text := by
  induction fuel generalizing i decoded with
  | zero =>
    refine ⟨[], ?_, (List.append_nil _).symm⟩
    rw [List.drop_eq_nil_of_le (i := i) hfuel]
    exact .nil
  | succ fuel ih =>
    rw [decodeLoop]
    rcases hc : name[i]? with _ | c
    · refine ⟨[], ?_, (List.append_nil _).symm⟩
      rw [List.drop_eq_nil_of_le (List.getElem?_eq_none_iff.mp hc)]
      exact .nil
    · have hdrop := drop_eq_cons hc
      rcases ih (i := i + 1) (by omega) (decoded ++ [c]) with ⟨text, htext, hloop⟩
      rw [List.append_assoc] at hloop
      -- a byte that stands for itself
      have hplain (hne : c ≠ 43)
          (hnone : c = 37 → ∀ h l after, name.drop (i + 1) = h :: l :: after →
          hexVal? h = none ∨ hexVal? l = none) : Decodes (name.drop i) (c :: text) := by
        rw [hdrop]
        exact .plain hne hnone htext
      dsimp only
      by_cases hplus : c = 43
      · rcases ih (i := i + 1) (by omega) (decoded ++ [sp]) with ⟨text', htext', hloop'⟩
        rw [if_pos hplus, hloop', List.append_assoc, hdrop, hplus]
        exact ⟨sp :: text', .plus htext', rfl⟩
      · rw [if_neg hplus]
        by_cases hpercent : c = 37 ∧ i + 2 < name.length
        · rw [if_pos hpercent]
          rcases hpercent with ⟨hc37, hroom⟩
          have hh := drop_eq_cons (List.getElem?_eq_getElem (Nat.lt_of_succ_lt hroom))
          have hl := drop_eq_cons (List.getElem?_eq_getElem hroom)
          rw [List.getElem?_eq_getElem (Nat.lt_of_succ_lt hroom), List.getElem?_eq_getElem hroom,
            Option.bind_some, Option.bind_some]
          -- two bytes follow; they are digits, or the percent sign stands for itself
          have hstands (hnone : hexVal? name[i + 1] = none ∨ hexVal? name[i + 2] = none) :
              Decodes (name.drop i) (c :: text) := by
            apply hplain hplus
            intro _ h l after hafter
            rw [hh, hl, List.cons.injEq, List.cons.injEq] at hafter
            rwa [← hafter.1, ← hafter.2.1]
          rcases hhigh : hexVal? name[i + 1] with _ | high
          · exact ⟨c :: text, hstands (.inl hhigh), hloop⟩
          · rcases hlow : hexVal? name[i + 2] with _ | low
            · exact ⟨c :: text, hstands (.inr hlow), hloop⟩
            · rcases ih (i := i + 3) (by omega) (decoded ++ [UInt8.ofNat (16 * high + low)]) with
                ⟨text', htext', hloop'⟩
              dsimp only
              rw [hloop', List.append_assoc, hdrop, hh, hl, hc37]
              exact ⟨_, .escape hhigh hlow htext', rfl⟩
        · rw [if_neg hpercent]
          refine ⟨c :: text, hplain hplus ?_, hloop⟩
          intro hc37 h l after hafter
          -- there is no room for two digits
          have hlen := congrArg List.length hafter
          rw [List.length_drop, List.length_cons, List.length_cons] at hlen
          exact absurd ⟨hc37, by omega⟩ hpercent

lemma decodeQueryName_of_decodes {text : Bytes} (h : Decodes name text) :
    decodeQueryName name = lower text := by
  rcases @decodeLoop_decodes name name.length 0 (Nat.le_add_left _ _) [] with
    ⟨text', htext', hloop⟩
  rw [List.drop_zero] at htext'
  unfold decodeQueryName
  rw [hloop, List.nil_append, htext'.unique h]

lemma decodes_total (name : Bytes) : ∃ text, Decodes name text := by
  rcases @decodeLoop_decodes name name.length 0 (Nat.le_add_left _ _) [] with ⟨text, htext, -⟩
  exact ⟨text, htext⟩

/-- The list is asked for the text of the name. -/
lemma containsName_decodeQueryName (names : List Bytes) (name : Bytes) :
    containsName names (decodeQueryName name) = true ↔ Sensitive names name := by
  rcases decodes_total name with ⟨text, htext⟩
  unfold containsName Sensitive
  rw [decodeQueryName_of_decodes htext, List.any_eq_true]
  constructor
  · rintro ⟨n, hn, heq⟩
    refine ⟨text, htext, n, hn, ?_⟩
    rw [of_decide_eq_true heq, lower_lower]
  · rintro ⟨text', htext', n, hn, heq⟩
    rw [htext'.unique htext] at heq
    exact ⟨n, hn, decide_eq_true (by rw [heq, lower_lower])⟩

/-! ## Parts -/

lemma redactPart_of_not_mem (names : List Bytes) (h : 61 ∉ part) :
    redactPart names part = part := by
  unfold redactPart
  rw [List.idxOf?_eq_none_iff.mpr h]

lemma redactPart_append (names : List Bytes) (h : 61 ∉ name) (value : Bytes) :
    redactPart names (name ++ 61 :: value) =
      if containsName names (decodeQueryName name) then name ++ 61 :: ascii "[redacted]"
      else name ++ 61 :: value := by
  unfold redactPart
  rw [idxOf?_append_cons h]
  dsimp only
  rw [List.take_left, List.take_length_add_append]
  split
  · rw [List.append_assoc]
    rfl
  · rfl

lemma redactPart_redacted (names : List Bytes) (part : Bytes) :
    PartRedacted names part (redactPart names part) := by
  rcases split_first 61 part with hno | ⟨name, value, rfl, hname⟩
  · rw [redactPart_of_not_mem names hno]
    refine .kept ?_
    rintro name value rfl
    exact absurd (by simp) hno
  · rw [redactPart_append names hname]
    by_cases hsensitive : Sensitive names name
    · rw [if_pos ((containsName_decodeQueryName names name).mpr hsensitive)]
      exact .secret value hname hsensitive
    · rw [if_neg (fun h => hsensitive ((containsName_decodeQueryName names name).mp h))]
      refine .kept ?_
      intro name' value' heq hname'
      rw [(append_cons_inj hname hname' heq).1] at hsensitive
      exact hsensitive

lemma PartAlike.redactPart {part' : Bytes} (h : PartAlike names part part') :
    redactPart names part = redactPart names part' := by
  cases h with
  | same => rfl
  | secret value value' hname hsensitive =>
    rw [redactPart_append names hname, redactPart_append names hname,
      if_pos ((containsName_decodeQueryName names _).mpr hsensitive),
      if_pos ((containsName_decodeQueryName names _).mpr hsensitive)]

lemma redactPart_redactPart (names : List Bytes) (part : Bytes) :
    redactPart names (redactPart names part) = redactPart names part := by
  rcases split_first 61 part with hno | ⟨name, value, rfl, hname⟩
  · rw [redactPart_of_not_mem names hno, redactPart_of_not_mem names hno]
  · have hpart := redactPart_append names hname
    rw [hpart value]
    split
    · rename_i hcontains
      rw [hpart, if_pos hcontains]
    · rename_i hcontains
      rw [hpart, if_neg hcontains]

/-- Nothing that is written for a part splits it. -/
lemma not_mem_redactPart (h : 38 ∉ part) : 38 ∉ redactPart names part := by
  rcases split_first 61 part with hno | ⟨name, value, rfl, hname⟩
  · rw [redactPart_of_not_mem names hno]
    exact h
  · rw [redactPart_append names hname]
    split
    · rw [List.mem_append, not_or] at h ⊢
      exact ⟨h.1, by decide⟩
    · exact h

/-! ## The query -/

/-- The query with its parts redacted. -/
def redactQuery (names : List Bytes) (query : Bytes) : Bytes :=
  [38].intercalate ((query.splitOn 38).map (redactPart names))

lemma redactQuery_nil (names : List Bytes) : redactQuery names [] = [] := by
  unfold redactQuery
  rw [List.splitOn_nil, List.map_singleton, redactPart_of_not_mem names List.not_mem_nil,
    List.intercalate_singleton]

lemma redactQuery_of_not_mem (names : List Bytes) (h : 38 ∉ query) :
    redactQuery names query = redactPart names query := by
  unfold redactQuery
  rw [List.splitOn_eq_singleton h, List.map_singleton, List.intercalate_singleton]

lemma redactQuery_append (names : List Bytes) (h : 38 ∉ part) (rest : Bytes) :
    redactQuery names (part ++ 38 :: rest) =
      redactPart names part ++ 38 :: redactQuery names rest := by
  have hne : (rest.splitOn 38).map (redactPart names) ≠ [] := by
    rw [Ne, List.map_eq_nil_iff]
    exact List.splitOn_ne_nil 38 rest
  unfold redactQuery
  rw [List.splitOn_append_cons_self_of_not_mem h, List.map_cons,
    List.intercalate_cons_of_ne_nil hne, List.append_assoc]
  rfl

/-- The loop redacts what is left of the query. -/
lemma redactLoop_eq (names : List Bytes) (target : Bytes) {fuel position : Nat}
    (hfuel : target.length < position + fuel) (redacted : Bytes) :
    redactLoop names target fuel position redacted =
      redacted ++ redactQuery names (target.drop position) := by
  have hend (hle : target.length ≤ position) :
      redacted = redacted ++ redactQuery names (target.drop position) := by
    rw [List.drop_eq_nil_of_le hle, redactQuery_nil, List.append_nil]
  induction fuel generalizing position redacted with
  | zero => exact hend hfuel.le
  | succ fuel ih =>
    rw [redactLoop]
    split
    · rcases split_first 38 (target.drop position) with hno | ⟨part, rest, heq, hpart⟩
      · rw [List.idxOf?_eq_none_iff.mpr hno]
        dsimp only
        rw [redactQuery_of_not_mem names hno]
      · -- one part, and the loop goes on behind the separator
        have hnext : target.drop (position + part.length + 1) = rest := by
          rw [Nat.add_assoc, ← List.drop_drop, heq]
          simp
        rw [heq, idxOf?_append_cons hpart]
        dsimp only
        rw [ih (by omega), hnext, List.take_left, redactQuery_append names hpart]
        · simp
        · intro hle
          rw [List.drop_eq_nil_of_le hle, redactQuery_nil, List.append_nil]
    · rename_i hpos
      exact hend (Nat.not_lt.mp hpos)

lemma redactTarget_append {config : LoggingConfig}
    (hon : config.redactSensitiveQueryParams = true) (hpath : 63 ∉ path) (query : Bytes) :
    redactTarget (path ++ 63 :: query) config =
      path ++ 63 :: redactQuery config.sensitiveQueryParams query := by
  have hdrop : (path ++ 63 :: query).drop (path.length + 1) = query := by
    rw [← List.drop_drop, List.drop_left]
    rfl
  unfold redactTarget
  rw [if_neg (not_not.mpr hon), idxOf?_append_cons hpath]
  dsimp only
  rw [redactLoop_eq _ _ (by omega), hdrop, List.take_length_add_append, List.append_assoc]
  rfl

lemma redactTarget_of_not_mem (config : LoggingConfig) {target : Bytes} (h : 63 ∉ target) :
    redactTarget target config = target := by
  unfold redactTarget
  rw [List.idxOf?_eq_none_iff.mpr h, ite_self]

lemma not_mem_of_mem_splitOn {c : UInt8} {b : Bytes} (h : part ∈ b.splitOn c) : c ∉ part := by
  induction hlen : b.length using Nat.strong_induction_on generalizing b with
  | h n ih =>
    subst hlen
    rcases split_first c b with hno | ⟨before, after, rfl, hbefore⟩
    · rw [List.splitOn_eq_singleton hno, List.mem_singleton] at h
      rw [h]
      exact hno
    · rw [List.splitOn_append_cons_self_of_not_mem hbefore, List.mem_cons] at h
      rcases h with rfl | h
      · exact hbefore
      · exact ih after.length (by simp; omega) h rfl

/-- The parts of a redacted query are the redacted parts. -/
lemma splitOn_redactQuery (names : List Bytes) (query : Bytes) :
    (redactQuery names query).splitOn 38 = (query.splitOn 38).map (redactPart names) := by
  unfold redactQuery
  apply List.splitOn_intercalate
  · intro part hpart
    rcases List.mem_map.mp hpart with ⟨part', hpart', rfl⟩
    exact not_mem_redactPart (not_mem_of_mem_splitOn hpart')
  · rw [Ne, List.map_eq_nil_iff]
    exact List.splitOn_ne_nil 38 query

lemma redactQuery_redactQuery (names : List Bytes) (query : Bytes) :
    redactQuery names (redactQuery names query) = redactQuery names query := by
  have hmap : ((query.splitOn 38).map (redactPart names)).map (redactPart names) =
      (query.splitOn 38).map (redactPart names) := by
    rw [List.map_map]
    exact List.map_congr_left fun part _ => redactPart_redactPart names part
  rw [redactQuery, splitOn_redactQuery, hmap, ← redactQuery]

lemma redactTarget_redactTarget (target : Bytes) (config : LoggingConfig) :
    redactTarget (redactTarget target config) config = redactTarget target config := by
  rcases hon : config.redactSensitiveQueryParams with _ | _
  · simp [redactTarget, hon]
  · rcases split_first 63 target with hno | ⟨path, query, rfl, hpath⟩
    · rw [redactTarget_of_not_mem config hno, redactTarget_of_not_mem config hno]
    · rw [redactTarget_append hon hpath, redactTarget_append hon hpath, redactQuery_redactQuery]

lemma redactRequestTarget_eq {config : LoggingConfig}
    (hon : config.redactSensitiveQueryParams = true) (hpath : 63 ∉ path) (hne : query ≠ []) :
    redactRequestTarget path query config =
      path ++ 63 :: redactQuery config.sensitiveQueryParams query := by
  unfold redactRequestTarget
  rw [if_neg hne, redactTarget_append hon hpath]

lemma redactRequestTarget_nil (config : LoggingConfig) (hpath : 63 ∉ path) :
    redactRequestTarget path [] config = path := by
  unfold redactRequestTarget
  rw [if_pos rfl, List.append_nil, redactTarget_of_not_mem config hpath]

lemma redactQuery_congr {query' : Bytes}
    (h : List.Forall₂ (PartAlike names) (query.splitOn 38) (query'.splitOn 38)) :
    redactQuery names query = redactQuery names query' := by
  have hmap : (query.splitOn 38).map (redactPart names) =
      (query'.splitOn 38).map (redactPart names) := by
    rw [← List.forall₂_eq_eq_eq, List.forall₂_map_left_iff, List.forall₂_map_right_iff]
    exact h.imp fun part part' halike => halike.redactPart
  unfold redactQuery
  rw [hmap]

lemma PartAlike.symm {part' : Bytes} (h : PartAlike names part part') :
    PartAlike names part' part := by
  cases h with
  | same => exact .same _
  | secret value value' hname hsensitive => exact .secret value' value hname hsensitive

/-- An empty query is alike to itself only. -/
lemma eq_nil_of_alike
    (h : List.Forall₂ (PartAlike names) ((([] : Bytes)).splitOn 38) (query.splitOn 38)) :
    query = [] := by
  rw [List.splitOn_nil, List.forall₂_cons_left_iff] at h
  rcases h with ⟨part, rest, hpart, hrest, hsplit⟩
  rw [List.forall₂_nil_left_iff] at hrest
  have hnil : part = [] := by
    generalize hempty : ([] : Bytes) = empty at hpart
    cases hpart with
    | same => rfl
    | secret value value' hname hsensitive => simp at hempty
  have hjoin : [38].intercalate (query.splitOn 38) = query := List.intercalate_splitOn 38
  rw [← hjoin, hsplit, hrest, hnil, List.intercalate_singleton]

/-! ## Main result -/

/-- **Redaction** hides the values of sensitive names and nothing else. -/
theorem redaction_faithful (config : LoggingConfig)
    (hon : config.redactSensitiveQueryParams = true) (path : Bytes) (hpath : 63 ∉ path) :
    -- two queries that differ in secrets only
    (∀ query query', List.Forall₂ (PartAlike config.sensitiveQueryParams) (query.splitOn 38)
        (query'.splitOn 38) →
      redactRequestTarget path query config = redactRequestTarget path query' config) ∧
      -- the parts, one by one
      redactRequestTarget path [] config = path ∧
      (∀ query, query ≠ [] → ∃ logged,
        redactRequestTarget path query config = path ++ 63 :: logged ∧
        List.Forall₂ (PartRedacted config.sensitiveQueryParams) (query.splitOn 38)
          (logged.splitOn 38)) ∧
      -- a target that was redacted before, this one among them
      ∀ target, redactTarget (redactTarget target config) config = redactTarget target config := by
  refine ⟨?_, redactRequestTarget_nil config hpath, ?_,
    fun target => redactTarget_redactTarget target config⟩
  · intro query query' halike
    by_cases hnil : query = []
    · subst hnil
      rw [eq_nil_of_alike halike]
    · have hnil' : query' ≠ [] := by
        rintro rfl
        exact hnil (eq_nil_of_alike (halike.flip.imp fun part part' h => h.symm))
      rw [redactRequestTarget_eq hon hpath hnil, redactRequestTarget_eq hon hpath hnil',
        redactQuery_congr halike]
  · intro query hne
    refine ⟨_, redactRequestTarget_eq hon hpath hne, ?_⟩
    rw [splitOn_redactQuery, List.forall₂_map_right_iff, List.forall₂_same]
    intro part _
    exact redactPart_redacted _ part

/-- The name `token` with its first letter escaped, and two values for it. -/
theorem redaction_faithful_token :
    redactRequestTarget (ascii "/s") (ascii "a=1&&%74oken=x") {} =
        redactRequestTarget (ascii "/s") (ascii "a=1&&%74oken=y=z") {} ∧
      redactRequestTarget (ascii "/s") (ascii "a=1&&%74oken=x") {} =
        ascii "/s?a=1&&%74oken=[redacted]" := by
  refine ⟨?_, by decide +kernel⟩
  have hsensitive : Sensitive ({} : LoggingConfig).sensitiveQueryParams (ascii "%74oken") :=
    (containsName_decodeQueryName _ _).mp (by decide +kernel)
  apply (redaction_faithful {} rfl (ascii "/s") (by decide)).1
  have hleft : (ascii "a=1&&%74oken=x").splitOn 38 =
      [ascii "a=1", [], ascii "%74oken" ++ 61 :: ascii "x"] := by decide +kernel
  have hright : (ascii "a=1&&%74oken=y=z").splitOn 38 =
      [ascii "a=1", [], ascii "%74oken" ++ 61 :: ascii "y=z"] := by decide +kernel
  rw [hleft, hright]
  exact .cons (.same _) (.cons (.same _) (.cons (.secret _ _ (by decide) hsensitive) .nil))

end EpollGateway.Handler
