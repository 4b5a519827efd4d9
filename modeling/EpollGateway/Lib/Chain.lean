import Mathlib.Data.List.AList
import Mathlib.Data.List.Basic
import Mathlib.Data.List.Nodup
import Mathlib.Logic.Function.Basic
import Mathlib.Tactic.Common

/-! # Linked lists and maps of iterators

A linked list whose nodes keep their place in memory: an iterator is the number of a node,
and stays good while other nodes come, go and change places. Numbers are never used again,
so an iterator to a node that is gone points nowhere.

Caches keep such a list in the order of last use and a map from keys to iterators beside it.
`Indexed` says that map and list fit together; each operation on the list keeps it if the
map is updated in the right way. `Recent` says that the list stands in the order of last use.
-/

/-- A linked list; a node is its number and its value. -/
structure Chain (α : Type*) where
  nodes : List (Nat × α) := []
  next : Nat := 0
  nodup : (nodes.map Prod.fst).Nodup := by simp
  fresh : ∀ n ∈ nodes, n.1 < next := by simp

namespace Chain

open Function

variable {α κ : Type*} {c : Chain α} {i : Nat} {a : α}

@[ext] lemma ext {c d : Chain α} (hnodes : c.nodes = d.nodes) (hnext : c.next = d.next) :
    c = d := by
  cases c
  cases d
  simp_all

/-- The values in their order. -/
def values (c : Chain α) : List α := c.nodes.map Prod.snd

/-- `size`. -/
def size (c : Chain α) : Nat := c.nodes.length

lemma length_values (c : Chain α) : c.values.length = c.size := List.length_map ..

/-- What an iterator points at. -/
def deref (c : Chain α) (i : Nat) : Option α := c.nodes.lookup i

/-- `push_front`; `begin` is `c.next` then. -/
def pushFront (c : Chain α) (a : α) : Chain α where
  nodes := (c.next, a) :: c.nodes
  next := c.next + 1
  nodup := by
    rw [List.map_cons, List.nodup_cons]
    refine ⟨fun hmem => ?_, c.nodup⟩
    rcases List.mem_map.mp hmem with ⟨n, hn, heq⟩
    exact absurd (c.fresh n hn) (by omega)
  fresh := by
    intro n hn
    rcases List.mem_cons.mp hn with rfl | hn
    · exact Nat.lt_succ_self _
    · exact Nat.lt_succ_of_lt (c.fresh n hn)

/-- `erase`. -/
def erase (c : Chain α) (i : Nat) : Chain α where
  nodes := c.nodes.filter (·.1 ≠ i)
  next := c.next
  nodup := c.nodup.sublist (List.filter_sublist.map _)
  fresh := fun n hn => c.fresh n (List.mem_of_mem_filter hn)

lemma splice_perm (c : Chain α) (i : Nat) :
    (c.nodes.filter (·.1 = i) ++ c.nodes.filter (·.1 ≠ i)).Perm c.nodes := by
  have hperm := List.filter_append_perm (fun n : Nat × α => decide (n.1 = i)) c.nodes
  simpa using hperm

/-- `splice` of one node to the front. -/
def splice (c : Chain α) (i : Nat) : Chain α where
  nodes := c.nodes.filter (·.1 = i) ++ c.nodes.filter (·.1 ≠ i)
  next := c.next
  nodup := ((c.splice_perm i).map _).nodup_iff.mpr c.nodup
  fresh := fun n hn => c.fresh n ((c.splice_perm i).mem_iff.mp hn)

/-- `back`, with its iterator. -/
def back (c : Chain α) : Option (Nat × α) := c.nodes.getLast?

/-- `pop_back`. -/
def popBack (c : Chain α) : Chain α where
  nodes := c.nodes.dropLast
  next := c.next
  nodup := c.nodup.sublist ((List.dropLast_sublist _).map _)
  fresh := fun n hn => c.fresh n ((List.dropLast_sublist _).subset hn)

/-- A value is written through an iterator. -/
def modify (c : Chain α) (i : Nat) (f : α → α) : Chain α where
  nodes := c.nodes.map fun n => if n.1 = i then (n.1, f n.2) else n
  next := c.next
  nodup := by
    have hsame : (c.nodes.map fun n => if n.1 = i then (n.1, f n.2) else n).map Prod.fst =
        c.nodes.map Prod.fst := by
      rw [List.map_map]
      apply List.map_congr_left
      intro n _
      by_cases hn : n.1 = i <;> simp [hn]
    rw [hsame]
    exact c.nodup
  fresh := by
    intro n hn
    rcases List.mem_map.mp hn with ⟨m, hm, rfl⟩
    have hlt := c.fresh m hm
    split <;> exact hlt

/-- `clear`. -/
def clear (c : Chain α) : Chain α := { next := c.next }

/-! ## Nodes -/

/-- A number stands for one node. -/
lemma node_unique {a b : α} (ha : (i, a) ∈ c.nodes) (hb : (i, b) ∈ c.nodes) : a = b := by
  have hinj := List.inj_on_of_nodup_map c.nodup ha hb rfl
  exact (Prod.mk.inj hinj).2

lemma deref_eq_some : c.deref i = some a ↔ (i, a) ∈ c.nodes := by
  have hnodup := c.nodup
  unfold deref
  generalize c.nodes = nodes at hnodup
  induction nodes with
  | nil => simp
  | cons n nodes ih =>
    rcases n with ⟨j, b⟩
    rw [List.map_cons, List.nodup_cons] at hnodup
    rw [List.lookup_cons]
    by_cases hij : i = j
    · subst hij
      have hnot : ∀ x, (i, x) ∉ nodes :=
        fun x hx => hnodup.1 (List.mem_map.mpr ⟨(i, x), hx, rfl⟩)
      simp [hnot, eq_comm]
    · have hbeq : (i == j) = false := by simpa using hij
      simp [hbeq, ih hnodup.2, hij]

lemma nodes_erase (c : Chain α) (i : Nat) :
    (c.erase i).nodes = c.nodes.filter (·.1 ≠ i) := rfl

variable {n : Nat × α}

@[simp] lemma mem_pushFront :
    n ∈ (c.pushFront a).nodes ↔ n = (c.next, a) ∨ n ∈ c.nodes := List.mem_cons

@[simp] lemma mem_erase : n ∈ (c.erase i).nodes ↔ n ∈ c.nodes ∧ n.1 ≠ i := by
  simp [erase]

@[simp] lemma mem_splice : n ∈ (c.splice i).nodes ↔ n ∈ c.nodes :=
  (c.splice_perm i).mem_iff

@[simp] lemma mem_modify {f : α → α} :
    n ∈ (c.modify i f).nodes ↔ ∃ m ∈ c.nodes, (if m.1 = i then (m.1, f m.2) else m) = n :=
  List.mem_map

lemma size_splice : (c.splice i).size = c.size := (c.splice_perm i).length_eq

lemma size_modify {f : α → α} : (c.modify i f).size = c.size := List.length_map ..

/-- The nodes other than one of them. -/
lemma filter_ne_eq {before after : List (Nat × α)} (h : c.nodes = before ++ n :: after) :
    (c.erase n.1).nodes = before ++ after := by
  have hnodup := c.nodup
  rw [h, List.map_append, List.map_cons, List.nodup_middle, List.nodup_cons, ← List.map_append]
    at hnodup
  have hother : ∀ m ∈ before ++ after, m.1 ≠ n.1 := by
    intro m hm heq
    exact hnodup.1 (heq ▸ List.mem_map_of_mem hm)
  have hkeep : ∀ l : List (Nat × α), (∀ m ∈ l, m.1 ≠ n.1) → l.filter (·.1 ≠ n.1) = l := by
    intro l hl
    exact List.filter_eq_self.mpr fun m hm => by simpa using hl m hm
  rw [nodes_erase, h, List.filter_append, List.filter_cons_of_neg (by simp), ← List.filter_append,
    hkeep _ hother]

lemma size_erase (h : (i, a) ∈ c.nodes) : (c.erase i).size + 1 = c.size := by
  rcases List.mem_iff_append.mp h with ⟨before, after, hsplit⟩
  unfold size
  rw [filter_ne_eq hsplit, hsplit]
  simp
  omega

/-- The last node is taken out. -/
lemma popBack_eq_erase (h : c.back = some (i, a)) : c.popBack = c.erase i := by
  have hsplit : c.nodes = c.nodes.dropLast ++ (i, a) :: [] :=
    (List.dropLast_append_getLast? _ h).symm
  apply ext
  · rw [filter_ne_eq hsplit, List.append_nil]
    rfl
  · rfl

lemma mem_of_back (h : c.back = some (i, a)) : (i, a) ∈ c.nodes := List.mem_of_getLast? h

lemma exists_back (h : 0 < c.size) : ∃ i a, c.back = some (i, a) := by
  have hne : c.nodes ≠ [] := List.length_pos_iff.mp h
  exact ⟨_, _, List.getLast?_eq_some_getLast hne⟩

/-- A node that is spliced comes first, in front of the others. -/
lemma values_splice (h : (i, a) ∈ c.nodes) : (c.splice i).values = a :: (c.erase i).values := by
  have hone : c.nodes.filter (·.1 = i) = [(i, a)] := by
    rcases List.mem_iff_append.mp h with ⟨before, after, hsplit⟩
    have hnodup := c.nodup
    rw [hsplit, List.map_append, List.map_cons, List.nodup_middle, List.nodup_cons,
      ← List.map_append] at hnodup
    have hnone : ∀ l : List (Nat × α), (∀ m ∈ l, m ∈ before ++ after) →
        l.filter (·.1 = i) = [] := by
      intro l hl
      refine List.filter_eq_nil_iff.mpr fun m hm heq => ?_
      exact hnodup.1 (List.mem_map.mpr ⟨m, hl m hm, of_decide_eq_true heq⟩)
    rw [hsplit, List.filter_append, List.filter_cons_of_pos (by simp),
      hnone before fun m hm => List.mem_append_left _ hm,
      hnone after fun m hm => List.mem_append_right _ hm, List.nil_append]
  unfold values splice erase
  dsimp only
  rw [hone, List.singleton_append, List.map_cons]

/-- A node that is written and then erased. -/
lemma erase_modify (c : Chain α) (i : Nat) (f : α → α) : (c.modify i f).erase i = c.erase i := by
  apply ext
  · rw [nodes_erase, nodes_erase, modify]
    dsimp only
    rw [List.filter_map, List.map_congr_left (g := id), List.map_id]
    · apply List.filter_congr
      intro n _
      by_cases hn : n.1 = i <;> simp [hn]
    · intro n hn
      have hne := List.of_mem_filter hn
      by_cases hni : n.1 = i
      · simp [hni] at hne
      · simp [hni]
  · rfl

/-! ## The map -/

/-- The map from keys to iterators fits the list: an iterator is found under a key exactly
if it points at a node with this key. -/
def Indexed (c : Chain α) (key : α → κ) (index : κ → Option Nat) : Prop :=
  ∀ k i, index k = some i ↔ ∃ a, (i, a) ∈ c.nodes ∧ key a = k

namespace Indexed

variable {key : α → κ} {index : κ → Option Nat}

lemma empty {next : Nat} : Indexed ({ next := next } : Chain α) key fun _ => none := by
  intro k i
  simp

lemma congr {index' : κ → Option Nat} (h : Indexed c key index)
    (heq : ∀ k, index' k = index k) : Indexed c key index' := by
  intro k i
  rw [heq k]
  exact h k i

lemma of_mem (h : Indexed c key index) (ha : (i, a) ∈ c.nodes) : index (key a) = some i :=
  (h (key a) i).mpr ⟨a, ha, rfl⟩

/-- No key stands twice in the list. -/
lemma keys_nodup (h : Indexed c key index) : (c.values.map key).Nodup := by
  unfold values
  rw [List.map_map]
  refine (List.nodup_map_iff_inj_on (List.Nodup.of_map _ c.nodup)).mpr ?_
  rintro ⟨i, a⟩ ha ⟨j, b⟩ hb heq
  have hi := h.of_mem ha
  have hj := h.of_mem hb
  rw [show key a = key b from heq, hj, Option.some.injEq] at hi
  subst hi
  rw [node_unique ha hb]

/-- A key is in the list exactly if the map has it. -/
lemma mem_keys_iff (h : Indexed c key index) {k : κ} :
    k ∈ c.values.map key ↔ (index k).isSome = true := by
  rw [Option.isSome_iff_exists]
  constructor
  · intro hk
    rcases List.mem_map.mp hk with ⟨a, ha, rfl⟩
    rcases List.mem_map.mp ha with ⟨⟨i, b⟩, hn, rfl⟩
    exact ⟨i, h.of_mem hn⟩
  · rintro ⟨i, hi⟩
    rcases (h k i).mp hi with ⟨a, ha, rfl⟩
    exact List.mem_map_of_mem (List.mem_map_of_mem ha)

lemma splice (h : Indexed c key index) : Indexed (c.splice i) key index := by
  intro k j
  simp only [mem_splice]
  exact h k j

/-- The values that are left when a node is erased. -/
lemma values_erase [DecidableEq κ] (h : Indexed c key index) {k : κ} (hk : index k = some i) :
    (c.erase i).values = c.values.filter (key · ≠ k) := by
  have hsame : ∀ n ∈ c.nodes, decide (n.1 ≠ i) = decide (key n.2 ≠ k) := by
    rintro ⟨j, b⟩ hb
    have hfound := h.of_mem hb
    rw [decide_eq_decide, not_iff_not]
    constructor
    · rintro rfl
      rcases (h k j).mp hk with ⟨a, ha, rfl⟩
      rw [node_unique hb ha]
    · rintro rfl
      rw [hk, Option.some.injEq] at hfound
      exact hfound.symm
  unfold values
  rw [nodes_erase, List.filter_map, List.filter_congr hsame]
  rfl

lemma keys_erase [DecidableEq κ] (h : Indexed c key index) {k : κ} (hk : index k = some i) :
    (c.erase i).values.map key = (c.values.map key).filter (· ≠ k) := by
  rw [h.values_erase hk, List.filter_map]
  rfl

lemma modify (h : Indexed c key index) {f : α → α}
    (hf : ∀ a, (i, a) ∈ c.nodes → key (f a) = key a) : Indexed (c.modify i f) key index := by
  intro k j
  rw [h k j]
  simp only [mem_modify, Prod.exists]
  constructor
  · rintro ⟨b, hb, heq⟩
    by_cases hij : j = i
    · subst hij
      exact ⟨f b, ⟨j, b, hb, by simp⟩, (hf b hb).trans heq⟩
    · exact ⟨b, ⟨j, b, hb, by simp [hij]⟩, heq⟩
  · rintro ⟨b, ⟨l, d, hd, hnode⟩, heq⟩
    split at hnode
    · rename_i hl
      subst hl
      rcases Prod.mk.inj hnode with ⟨rfl, rfl⟩
      exact ⟨d, hd, (hf d hd).symm.trans heq⟩
    · rcases Prod.mk.inj hnode with ⟨rfl, rfl⟩
      exact ⟨d, hd, heq⟩

variable [DecidableEq κ]

lemma pushFront (h : Indexed c key index) (hk : index (key a) = none) :
    Indexed (c.pushFront a) key (update index (key a) (some c.next)) := by
  intro k j
  simp only [mem_pushFront, Prod.mk.injEq]
  by_cases hkey : k = key a
  · subst hkey
    rw [update_self, Option.some.injEq]
    constructor
    · rintro rfl
      exact ⟨a, .inl ⟨rfl, rfl⟩, rfl⟩
    · rintro ⟨b, hb | hb, heq⟩
      · exact hb.1.symm
      · -- the key was not in the list
        have hfound := h.of_mem hb
        rw [heq, hk] at hfound
        cases hfound
  · rw [update_of_ne hkey, h k j]
    constructor
    · rintro ⟨b, hb, heq⟩
      exact ⟨b, .inr hb, heq⟩
    · rintro ⟨b, hb | hb, heq⟩
      · rw [hb.2] at heq
        exact absurd heq.symm hkey
      · exact ⟨b, hb, heq⟩

lemma erase (h : Indexed c key index) {k : κ} (hk : index k = some i) :
    Indexed (c.erase i) key (update index k none) := by
  intro k' j
  simp only [mem_erase]
  by_cases hkey : k' = k
  · subst hkey
    rw [update_self]
    constructor
    · nofun
    · rintro ⟨b, ⟨hb, hne⟩, heq⟩
      have hfound := h.of_mem hb
      rw [heq, hk, Option.some.injEq] at hfound
      exact absurd hfound.symm hne
  · rw [update_of_ne hkey, h k' j]
    constructor
    · rintro ⟨b, hb, heq⟩
      refine ⟨b, ⟨hb, ?_⟩, heq⟩
      rintro rfl
      rcases (h k j).mp hk with ⟨a, ha, hka⟩
      rw [node_unique hb ha, hka] at heq
      exact hkey heq.symm
    · rintro ⟨b, ⟨hb, -⟩, heq⟩
      exact ⟨b, hb, heq⟩

end Indexed

/-- The map after an insertion, as a function. -/
lemma index_insert {κ ν : Type*} [DecidableEq κ] (m : AList fun _ : κ => ν) (k : κ) (v : ν)
    (f : ν → Nat) : (fun k' => ((m.insert k v).lookup k').map f) =
      update (fun k' => (m.lookup k').map f) k (some (f v)) := by
  funext k'
  by_cases h : k' = k
  · subst h
    simp
  · rw [AList.lookup_insert_ne h, update_of_ne h]

lemma index_erase {κ ν : Type*} [DecidableEq κ] (m : AList fun _ : κ => ν) (k : κ)
    (f : ν → Nat) : (fun k' => ((m.erase k).lookup k').map f) =
      update (fun k' => (m.lookup k').map f) k none := by
  funext k'
  by_cases h : k' = k
  · subst h
    simp
  · rw [AList.lookup_erase_ne h, update_of_ne h]

/-- What the entries of a map hold: an erased entry leaves the rest. -/
lemma erase_perm {κ ν β : Type*} [DecidableEq κ] {m : AList fun _ : κ => ν} {k : κ} {v : ν}
    (h : m.lookup k = some v) (f : ν → β) :
    (f v :: (m.erase k).entries.map fun e => f e.2).Perm (m.entries.map fun e => f e.2) := by
  have hmem : (⟨k, v⟩ : Sigma fun _ : κ => ν) ∈ m.entries := AList.mem_lookup_iff.mp h
  rcases List.exists_of_kerase (List.mem_keys_of_mem hmem) with ⟨w, before, after, -, hsplit, hrest⟩
  have hw : (⟨k, w⟩ : Sigma fun _ : κ => ν) ∈ m.entries := by
    rw [hsplit]
    simp
  have hvw : v = w := by
    have hlookup := AList.mem_lookup_iff.mpr hw
    rw [Option.mem_def, h, Option.some.injEq] at hlookup
    exact hlookup
  subst hvw
  rw [show (m.erase k).entries = before ++ after from hrest, hsplit]
  simpa using List.perm_middle.symm

lemma insert_new {κ ν β : Type*} [DecidableEq κ] {m : AList fun _ : κ => ν} {k : κ}
    (h : m.lookup k = none) (v : ν) (f : ν → β) :
    ((m.insert k v).entries.map fun e => f e.2) = f v :: m.entries.map fun e => f e.2 := by
  have hrest : m.entries.kerase k = m.entries :=
    List.kerase_of_notMem_keys (AList.lookup_eq_none.mp h)
  rw [AList.entries_insert, hrest, List.map_cons]

lemma insert_perm {κ ν β : Type*} [DecidableEq κ] {m : AList fun _ : κ => ν} {k : κ} {v w : ν}
    (h : m.lookup k = some v) (f : ν → β) (hf : f w = f v) :
    ((m.insert k w).entries.map fun e => f e.2).Perm (m.entries.map fun e => f e.2) := by
  have herase := erase_perm h f
  rw [AList.entries_insert, List.map_cons]
  dsimp only
  rw [hf]
  exact herase

/-! ## The order of last use -/

/-- The list stands in the order of the stamps of its keys, the latest one in front. -/
def Recent (c : Chain α) (key : α → κ) (stamp : κ → Nat) : Prop :=
  (c.values.map key).Pairwise fun k k' => stamp k' < stamp k

namespace Recent

variable {key : α → κ} {stamp : κ → Nat}

lemma empty {next : Nat} : Recent ({ next := next } : Chain α) key stamp := List.Pairwise.nil

lemma erase (h : Recent c key stamp) : Recent (c.erase i) key stamp :=
  h.sublist ((List.filter_sublist.map _).map _)

/-- The last node has the oldest stamp. -/
lemma back_lt (h : Recent c key stamp) (hback : c.back = some (i, a)) {k : κ}
    (hk : k ∈ c.values.map key) (hne : k ≠ key a) : stamp (key a) < stamp k := by
  have hsplit : c.nodes = c.nodes.dropLast ++ [(i, a)] :=
    (List.dropLast_append_getLast? _ hback).symm
  have hkeys : c.values.map key =
      (c.nodes.dropLast.map Prod.snd).map key ++ [key a] := by
    unfold values
    rw [hsplit]
    simp
  unfold Recent at h
  rw [hkeys] at h hk
  rw [List.mem_append, List.mem_singleton] at hk
  exact (List.pairwise_append.mp h).2.2 k (hk.resolve_right hne) (key a) (by simp)

variable [DecidableEq κ]

/-- A new stamp for a key that is not in the list changes nothing. -/
lemma restamp (h : Recent c key stamp) {k : κ} (hk : k ∉ c.values.map key) (clock : Nat) :
    Recent c key (update stamp k clock) := by
  refine List.Pairwise.imp_of_mem ?_ h
  intro x y hx hy hxy
  have hxk : x ≠ k := fun heq => hk (heq ▸ hx)
  have hyk : y ≠ k := fun heq => hk (heq ▸ hy)
  rwa [update_of_ne hxk, update_of_ne hyk]

/-- The key that has just been used goes to the front. -/
lemma front (h : Recent c key stamp) {k : κ} (hk : k ∉ c.values.map key) {clock : Nat}
    (hclock : ∀ k ∈ c.values.map key, stamp k < clock) :
    (k :: c.values.map key).Pairwise fun k' k'' =>
      update stamp k clock k'' < update stamp k clock k' := by
  refine List.pairwise_cons.mpr ⟨fun k' hk' => ?_, h.restamp hk clock⟩
  have hne : k' ≠ k := fun heq => hk (heq ▸ hk')
  rw [update_self, update_of_ne hne]
  exact hclock k' hk'

lemma pushFront (h : Recent c key stamp) (hk : key a ∉ c.values.map key) {clock : Nat}
    (hclock : ∀ k ∈ c.values.map key, stamp k < clock) :
    Recent (c.pushFront a) key (update stamp (key a) clock) :=
  h.front hk hclock

lemma splice {index : κ → Option Nat} (h : Recent c key stamp) (hindex : Indexed c key index)
    (ha : (i, a) ∈ c.nodes) {clock : Nat} (hclock : ∀ k ∈ c.values.map key, stamp k < clock) :
    Recent (c.splice i) key (update stamp (key a) clock) := by
  have hgone := hindex.erase (hindex.of_mem ha)
  have hnot : key a ∉ (c.erase i).values.map key := by
    rw [hgone.mem_keys_iff]
    simp
  unfold Recent
  rw [values_splice ha, List.map_cons]
  refine Recent.front h.erase hnot fun k hk => hclock k ?_
  exact ((List.filter_sublist.map _).map _).subset hk

end Recent

end Chain
