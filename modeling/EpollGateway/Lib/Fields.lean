import Mathlib.Data.List.AList
import Mathlib.Data.List.Induction
import Mathlib.Order.Defs.Unbundled
import Mathlib.Tactic.Common

/-! # Maps that are filled from a list of fields

A header block is a list of fields; the programs that read one put it into a map by
assignment, so that of several fields with one name the last one is kept. There are
two maps: one in the order of its keys (`std::map`) and one without an order
(`std::unordered_map`, here an `AList`). Both hold `lastValue` of the list:
`mem_ofFields` and `lookup_insertFields`.
-/

namespace Fields

variable {κ ν : Type*} [DecidableEq κ]

/-! ## The last value of a name -/

/-- The value of the last field with this name. -/
def lastValue (fields : List (κ × ν)) (k : κ) : Option ν :=
  (fields.reverse.find? fun f => f.1 = k).map (·.2)

@[simp] lemma lastValue_nil (k : κ) : lastValue ([] : List (κ × ν)) k = none := rfl

lemma lastValue_concat (fields : List (κ × ν)) (f : κ × ν) (k : κ) :
    lastValue (fields ++ [f]) k = if f.1 = k then some f.2 else lastValue fields k := by
  unfold lastValue
  rw [List.reverse_append, List.reverse_singleton, List.singleton_append, List.find?_cons]
  by_cases hk : f.1 = k <;> simp [hk]

variable {a b fields : List (κ × ν)}

lemma mem_of_lastValue {k : κ} {v : ν} (h : lastValue fields k = some v) : (k, v) ∈ fields := by
  obtain ⟨f, hf, rfl⟩ := Option.map_eq_some_iff.mp h
  have hname : f.1 = k := by simpa using List.find?_some hf
  rw [← hname]
  exact List.mem_reverse.mp (List.mem_of_find?_eq_some hf)

lemma lastValue_isSome {f : κ × ν} (h : f ∈ fields) : ∃ v, lastValue fields f.1 = some v := by
  have hsome : (fields.reverse.find? fun g => g.1 = f.1).isSome := by
    rw [List.find?_isSome]
    exact ⟨f, List.mem_reverse.mpr h, by simp⟩
  obtain ⟨g, hg⟩ := Option.isSome_iff_exists.mp hsome
  exact ⟨g.2, by simp [lastValue, hg]⟩

/-- Behind the last field of a name nothing changes its value. -/
lemma lastValue_append {k : κ} (h : ∀ g ∈ b, g.1 ≠ k) : lastValue (a ++ b) k = lastValue a k := by
  have hnone : (b.reverse.find? fun f => f.1 = k) = none := by
    rw [List.find?_eq_none]
    intro g hg
    simpa using h g (List.mem_reverse.mp hg)
  unfold lastValue
  rw [List.reverse_append, List.find?_append, hnone, Option.none_or]

/-- A field of a name in the second part decides. -/
lemma lastValue_append_right {k : κ} {v : ν} (h : lastValue b k = some v) :
    lastValue (a ++ b) k = some v := by
  obtain ⟨f, hf, rfl⟩ := Option.map_eq_some_iff.mp h
  unfold lastValue
  rw [List.reverse_append, List.find?_append, hf]
  rfl

/-- In a list that has every name once, the last value is the only one. -/
lemma lastValue_of_distinct (h : fields.Pairwise fun a b => a.1 ≠ b.1) {k : κ} {v : ν} :
    lastValue fields k = some v ↔ (k, v) ∈ fields := by
  constructor
  · exact mem_of_lastValue
  · intro hmem
    obtain ⟨a, b, rfl⟩ := List.append_of_mem hmem
    have hb : ∀ g ∈ b, g.1 ≠ k := fun g hg =>
      Ne.symm ((List.pairwise_cons.mp (List.pairwise_append.mp h).2.1).1 g hg)
    rw [show a ++ (k, v) :: b = (a ++ [(k, v)]) ++ b by simp, lastValue_append hb, lastValue_concat]
    simp

/-! ## The map without an order -/

/-- The fields, assigned one after the other. -/
def insertFields (m : AList fun _ : κ => ν) (fields : List (κ × ν)) : AList fun _ : κ => ν :=
  fields.foldl (fun m f => m.insert f.1 f.2) m

lemma lookup_insertFields (m : AList fun _ : κ => ν) (fields : List (κ × ν)) (k : κ) :
    (insertFields m fields).lookup k = (lastValue fields k).or (m.lookup k) := by
  induction fields using List.reverseRecOn with
  | nil => rfl
  | append_singleton fields f ih =>
    have hstep : insertFields m (fields ++ [f]) = (insertFields m fields).insert f.1 f.2 := by
      simp [insertFields]
    rw [hstep, lastValue_concat]
    by_cases hk : f.1 = k
    · subst hk
      rw [AList.lookup_insert, if_pos rfl]
      rfl
    · rw [AList.lookup_insert_ne (Ne.symm hk), ih, if_neg hk]

/-! ## The map in the order of its keys -/

section Ordered

variable [LT κ] [DecidableLT κ]

/-- `operator[]` of a map in the order of its keys. -/
def assign (key : κ) (value : ν) : List (κ × ν) → List (κ × ν)
  | [] => [(key, value)]
  | (k, v) :: rest =>
    if key = k then (key, value) :: rest
    else if key < k then (key, value) :: (k, v) :: rest
    else (k, v) :: assign key value rest

/-- The fields, assigned one after the other. -/
def ofFields (fields : List (κ × ν)) : List (κ × ν) :=
  fields.foldl (fun m f => assign f.1 f.2 m) []

/-- The keys are in order. -/
def Ordered (m : List (κ × ν)) : Prop := m.Pairwise fun a b => a.1 < b.1

lemma ofFields_concat (fields : List (κ × ν)) (f : κ × ν) :
    ofFields (fields ++ [f]) = assign f.1 f.2 (ofFields fields) := by
  simp [ofFields]

variable {fields m : List (κ × ν)}

/-- Whatever is in the map after an assignment was there or is new. -/
lemma mem_of_mem_assign {key : κ} {value : ν} {e : κ × ν} (h : e ∈ assign key value m) :
    e = (key, value) ∨ e ∈ m := by
  induction m with
  | nil => simpa [assign] using h
  | cons f rest ih =>
    unfold assign at h
    split at h
    · rcases List.mem_cons.mp h with rfl | hrest
      · exact .inl rfl
      · exact .inr (List.mem_cons_of_mem _ hrest)
    · split at h
      · rcases List.mem_cons.mp h with rfl | hrest
        · exact .inl rfl
        · exact .inr hrest
      · rcases List.mem_cons.mp h with rfl | hrest
        · exact .inr List.mem_cons_self
        · rcases ih hrest with heq | hmem
          · exact .inl heq
          · exact .inr (List.mem_cons_of_mem _ hmem)

variable [IsStrictTotalOrder κ (· < ·)]

omit [DecidableEq κ] [DecidableLT κ] in
lemma lt_of_ne_of_not_lt {a b : κ} (hne : a ≠ b) (h : ¬ a < b) : b < a := by
  rcases trichotomous_of (· < ·) a b with hlt | heq | hgt
  · exact absurd hlt h
  · exact absurd heq hne
  · exact hgt

lemma Ordered.assign (h : Ordered m) (key : κ) (value : ν) : Ordered (assign key value m) := by
  induction m with
  | nil => exact List.pairwise_singleton _ _
  | cons f rest ih =>
    obtain ⟨hfront, hrest⟩ := List.pairwise_cons.mp h
    unfold Fields.assign
    split
    · rename_i heq
      exact List.pairwise_cons.mpr ⟨fun e he => heq ▸ hfront e he, hrest⟩
    · rename_i hne
      split
      · rename_i hlt
        refine List.pairwise_cons.mpr ⟨?_, h⟩
        intro e he
        rcases List.mem_cons.mp he with rfl | he
        · exact hlt
        · exact trans_of (· < ·) hlt (hfront e he)
      · rename_i hnot
        refine List.pairwise_cons.mpr ⟨?_, ih hrest⟩
        intro e he
        rcases mem_of_mem_assign he with rfl | he
        · exact lt_of_ne_of_not_lt hne hnot
        · exact hfront e he

/-- The entries after an assignment. -/
lemma mem_assign (h : Ordered m) {key : κ} {value : ν} {e : κ × ν} :
    e ∈ assign key value m ↔ e = (key, value) ∨ (e.1 ≠ key ∧ e ∈ m) := by
  induction m with
  | nil => simp [assign]
  | cons f rest ih =>
    obtain ⟨hfront, hrest⟩ := List.pairwise_cons.mp h
    -- a key in front of another one is not the same
    have hirrefl : ∀ a b : κ, a < b → b ≠ a := fun a b hab heq => irrefl_of (· < ·) a (heq ▸ hab)
    unfold assign
    split
    · rename_i heq
      subst heq
      constructor
      · intro he
        rcases List.mem_cons.mp he with rfl | he
        · exact .inl rfl
        · exact .inr ⟨hirrefl _ _ (hfront e he), List.mem_cons_of_mem _ he⟩
      · rintro (rfl | ⟨hne, he⟩)
        · exact List.mem_cons_self
        · rcases List.mem_cons.mp he with rfl | he
          · exact absurd rfl hne
          · exact List.mem_cons_of_mem _ he
    · rename_i hne
      split
      · rename_i hlt
        constructor
        · intro he
          rcases List.mem_cons.mp he with rfl | he
          · exact .inl rfl
          · refine .inr ⟨?_, he⟩
            rcases List.mem_cons.mp he with rfl | he
            · exact Ne.symm hne
            · exact hirrefl _ _ (trans_of (· < ·) hlt (hfront e he))
        · rintro (rfl | ⟨-, he⟩)
          · exact List.mem_cons_self
          · exact List.mem_cons_of_mem _ he
      · rw [List.mem_cons, ih hrest, List.mem_cons]
        constructor
        · rintro (rfl | rfl | ⟨hkey, he⟩)
          · exact .inr ⟨Ne.symm hne, .inl rfl⟩
          · exact .inl rfl
          · exact .inr ⟨hkey, .inr he⟩
        · rintro (rfl | ⟨hkey, rfl | he⟩)
          · exact .inr (.inl rfl)
          · exact .inl rfl
          · exact .inr (.inr ⟨hkey, he⟩)

lemma ordered_ofFields (fields : List (κ × ν)) : Ordered (ofFields fields) := by
  induction fields using List.reverseRecOn with
  | nil => exact List.Pairwise.nil
  | append_singleton fields f ih =>
    rw [ofFields_concat]
    exact ih.assign f.1 f.2

/-- The map holds the last value of each name. -/
lemma mem_ofFields {k : κ} {v : ν} : (k, v) ∈ ofFields fields ↔ lastValue fields k = some v := by
  induction fields using List.reverseRecOn with
  | nil => simp [ofFields]
  | append_singleton fields f ih =>
    rw [ofFields_concat, mem_assign (ordered_ofFields fields), ih, lastValue_concat]
    by_cases hk : f.1 = k
    · subst hk
      simp [Prod.ext_iff, eq_comm]
    · simp [hk, Ne.symm hk, Prod.ext_iff]

omit [DecidableEq κ] [DecidableLT κ] in
lemma Ordered.distinct (h : Ordered m) : m.Pairwise fun a b => a.1 ≠ b.1 := by
  refine List.Pairwise.imp ?_ h
  intro a b hlt heq
  rw [heq] at hlt
  exact irrefl_of (· < ·) _ hlt

/-- What a search by name finds in the map: the least of the names that fit. -/
lemma find?_ofFields {p : κ → Bool} {e : κ × ν}
    (h : (ofFields fields).find? (fun e => p e.1) = some e) :
    p e.1 = true ∧ lastValue fields e.1 = some e.2 ∧
      ∀ k v, p k = true → lastValue fields k = some v → ¬ k < e.1 := by
  obtain ⟨hp, front, back, hsplit, hfront⟩ := List.find?_eq_some_iff_append.mp h
  have hmem : (e.1, e.2) ∈ ofFields fields := by simp [hsplit]
  refine ⟨hp, mem_ofFields.mp hmem, ?_⟩
  intro k v hk hlast hlt
  have hentry : (k, v) ∈ front ++ e :: back := hsplit ▸ mem_ofFields.mpr hlast
  have hordered : Ordered (front ++ e :: back) := hsplit ▸ ordered_ofFields fields
  rcases List.mem_append.mp hentry with hin | hin
  · have hnot := hfront _ hin
    simp [hk] at hnot
  · -- an entry behind the one found has a greater name
    rcases List.mem_cons.mp hin with rfl | hin
    · exact irrefl_of (· < ·) _ hlt
    · have hback := (List.pairwise_cons.mp (List.pairwise_append.mp hordered).2.1).1 _ hin
      exact asymm_of (· < ·) hlt hback

end Ordered

end Fields
