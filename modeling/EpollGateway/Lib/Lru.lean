import Mathlib.Data.List.AList
import Mathlib.Logic.Function.Basic
import Mathlib.Tactic.Common

/-! # Tables in the order of their last use

A cache that forgets what was used longest ago is a table whose entries stand in the
order of their last use, the latest one in front. `AList.insert` puts an entry in
front, also one that is already there. What a bounded cache needs besides is to bring
an entry to the front (`touch`) and to cut off the end (`keep`).

`keep` splits a table: an entry is kept or it is in the part that was cut off, and never
both (`lookup_keep_of_mem_drop`). To cut off one entry is to erase the last one
(`keep_eq_erase`).
-/

namespace Lru

/-- A table, the entry that was used last in front. -/
abbrev Table (κ ν : Type*) := AList fun _ : κ => ν

variable {κ ν : Type*} [DecidableEq κ]

/-- An entry is used. -/
def touch (k : κ) (t : Table κ ν) : Table κ ν :=
  match t.lookup k with
  | some v => t.insert k v
  | none => t

@[simp] lemma lookup_touch (k k' : κ) (t : Table κ ν) : (touch k t).lookup k' = t.lookup k' := by
  unfold touch
  rcases hk : t.lookup k with _ | v
  · rfl
  · by_cases heq : k' = k
    · subst heq
      exact (AList.lookup_insert t).trans hk.symm
    · exact AList.lookup_insert_ne heq

variable {t : Table κ ν} {k : κ} {v : ν} {n : Nat}

lemma erase_of_lookup_none (h : t.lookup k = none) : t.erase k = t := by
  apply AList.ext
  exact List.kerase_of_notMem_keys (AList.lookup_eq_none.mp h)

lemma kerase_eq_filter {l : List (Sigma fun _ : κ => ν)} (h : l.NodupKeys) :
    l.kerase k = l.filter (·.1 ≠ k) := by
  induction l with
  | nil => rfl
  | cons e l ih =>
    rw [List.nodupKeys_cons] at h
    by_cases hk : k = e.1
    · -- no other entry has the key of the first one
      have hrest : l.filter (·.1 ≠ k) = l := by
        refine List.filter_eq_self.mpr fun e' he' => decide_eq_true fun heq => h.1 ?_
        rw [← hk, ← heq]
        exact List.mem_keys_of_mem he'
      rw [List.kerase_cons_eq hk, List.filter_cons_of_neg (by simp [hk]), hrest]
    · rw [List.kerase_cons_ne hk, List.filter_cons_of_pos (by simpa using Ne.symm hk), ih h.2]

lemma entries_erase (k : κ) (t : Table κ ν) :
    (t.erase k).entries = t.entries.filter (·.1 ≠ k) := kerase_eq_filter t.nodupKeys

lemma entries_insert (k : κ) (v : ν) (t : Table κ ν) :
    (t.insert k v).entries = ⟨k, v⟩ :: t.entries.filter (·.1 ≠ k) := by
  rw [← entries_erase, AList.entries_insert]
  rfl

lemma keys_erase (k : κ) (t : Table κ ν) : (t.erase k).keys = t.keys.filter (· ≠ k) := by
  unfold AList.keys List.keys
  rw [entries_erase, List.filter_map]
  rfl

lemma keys_insert (k : κ) (v : ν) (t : Table κ ν) :
    (t.insert k v).keys = k :: t.keys.filter (· ≠ k) := by
  rw [← keys_erase, AList.keys, entries_insert, ← entries_erase]
  rfl

/-- What the entries hold is what is found under the keys. -/
lemma map_entries (t : Table κ ν) {β : Type*} (f : ν → β) (d : β) :
    (t.entries.map fun e => f e.2) = t.keys.map fun k => ((t.lookup k).map f).getD d := by
  rw [AList.keys, List.keys, List.map_map]
  apply List.map_congr_left
  rintro ⟨k, v⟩ hmem
  have hlookup : t.lookup k = some v := AList.mem_lookup_iff.mpr hmem
  simp [hlookup]

lemma lookup_of_erase {k' : κ} (h : (t.erase k).lookup k' = some v) :
    k' ≠ k ∧ t.lookup k' = some v := by
  by_cases hk : k' = k
  · subst hk
    rw [AList.lookup_erase] at h
    cases h
  · rw [AList.lookup_erase_ne hk] at h
    exact ⟨hk, h⟩

/-- The first `n` entries. -/
def keep (n : Nat) (t : Table κ ν) : Table κ ν :=
  ⟨t.entries.take n, t.nodupKeys.sublist (List.take_sublist n t.entries)⟩

lemma lookup_of_keep (h : (keep n t).lookup k = some v) : t.lookup k = some v :=
  AList.mem_lookup_iff.mpr (List.mem_of_mem_take (AList.mem_lookup_iff.mp h))

lemma lookup_of_mem_drop (h : ⟨k, v⟩ ∈ t.entries.drop n) : t.lookup k = some v :=
  AList.mem_lookup_iff.mpr (List.mem_of_mem_drop h)

lemma lookup_keep_of_mem_drop (h : ⟨k, v⟩ ∈ t.entries.drop n) : (keep n t).lookup k = none := by
  rw [AList.lookup_eq_none]
  intro hk
  have hdisjoint := t.keys_nodup
  rw [AList.keys, ← List.take_append_drop n t.entries, List.keys, List.map_append,
    List.nodup_append] at hdisjoint
  exact hdisjoint.2.2 k hk k (List.mem_map_of_mem h) rfl

omit [DecidableEq κ] in
lemma keep_of_length_le (h : t.entries.length ≤ n) : keep n t = t :=
  AList.ext (List.take_of_length_le h)

/-- All but the last entry. -/
lemma keep_eq_erase {before : List (Sigma fun _ : κ => ν)} (h : t.entries = before ++ [⟨k, v⟩])
    (hn : before.length = n) : keep n t = t.erase k := by
  have hnodup := t.keys_nodup
  rw [AList.keys, h, List.keys, List.map_append, List.map_singleton, List.nodup_append] at hnodup
  have hnot : k ∉ before.keys := fun hk => hnodup.2.2 k hk k (List.mem_singleton_self k) rfl
  apply AList.ext
  change t.entries.take n = t.entries.kerase k
  rw [h, ← hn, List.take_left, List.kerase_append_right hnot]
  simp

end Lru
