import EpollGateway.Lib.Chain
import EpollGateway.Lib.Run
import EpollGateway.Static.Files

/-! # The list and the map of `FileCache`

`FileCache` keeps the contents in a linked list in the order of last use, and a map from
paths to iterators into it. `get` may erase an entry, `put` may write through an iterator,
evict the last entry or do nothing.

The table of `Static.Files` is the bounded map that this stands for. A `Shelf` runs both side
by side, with a log of what was stored and what was lost. `Shelf.Sound` is kept by every
operation (`Sound.call`): list and map fit together, the table has the entries of the list in
their order, and an entry is in the table exactly if it was stored and not lost since.
-/

namespace EpollGateway.Static

open Bytes Machine

/-! ## The operations -/

/-- `CacheEntry`. -/
structure ListedContent where
  content : Bytes
  size : Nat
  mtime : Int
deriving DecidableEq, Repr

/-- `FileCache`. -/
structure ListedFileCache where
  maxEntries : Nat
  maxFileSize : Nat
  list : Chain (Bytes × ListedContent) := {}
  map : AList (fun _ : Bytes => Nat) := ∅

namespace ListedFileCache

/-- `get`. An iterator that points nowhere is not followed. -/
def get (c : ListedFileCache) (path : Bytes) (fileMtime : Int) :
    ListedFileCache × Option Bytes :=
  match c.map.lookup path with
  | none => (c, none)
  | some it =>
    match c.list.deref it with
    | none => (c, none)
    | some entry =>
      if fileMtime = 0 ∨ entry.2.mtime = fileMtime then
        ({ c with list := c.list.splice it }, some entry.2.content)
      else ({ c with list := c.list.erase it, map := c.map.erase path }, none)

/-- The entry that a full cache loses. -/
def evictLast (c : ListedFileCache) : ListedFileCache :=
  match c.list.back with
  | none => c
  | some (_, last) => { c with map := c.map.erase last.1, list := c.list.popBack }

/-- The end of `put`. -/
def add (c : ListedFileCache) (path : Bytes) (e : ListedContent) : ListedFileCache :=
  { c with list := c.list.pushFront (path, e), map := c.map.insert path c.list.next }

/-- `put`. -/
def put (c : ListedFileCache) (path content : Bytes) (size : Nat) (mtime : Int) :
    ListedFileCache :=
  if size > c.maxFileSize then c
  else
    match c.map.lookup path with
    | some it =>
      { c with list := (c.list.modify it fun n => (n.1, ⟨content, size, mtime⟩)).splice it }
    | none =>
      let c := if c.list.size ≥ c.maxEntries then c.evictLast else c
      c.add path ⟨content, size, mtime⟩

/-- `clear`. -/
def clear (c : ListedFileCache) : ListedFileCache := { c with list := c.list.clear, map := ∅ }

/-- The paths of the list. -/
def paths (c : ListedFileCache) : List Bytes := c.list.values.map Prod.fst

/-- An entry of the list as one of the table. -/
def shown (n : Bytes × ListedContent) : Sigma fun _ : Bytes => CacheEntry :=
  ⟨n.1, ⟨n.2.content, n.2.mtime⟩⟩

end ListedFileCache

/-! ## The shelf -/

/-- What happens to a stored content. -/
inductive FileEvent where
  | stored (path content : Bytes) (mtime : Int)
  | evicted (path : Bytes)
  | stale (path : Bytes)
  | cleared
deriving DecidableEq, Repr

/-- What ends the time of a content: another one for its path, or a loss. -/
def FileEvent.Ends (path : Bytes) : FileEvent → Prop
  | .stored p _ _ | .evicted p | .stale p => p = path
  | .cleared => True

/-- The latest content that was stored for a path has not been lost; the latest event comes
first. -/
def Current (log : List FileEvent) (path content : Bytes) (mtime : Int) : Prop :=
  ∃ newer older, log = newer ++ .stored path content mtime :: older ∧
    ∀ event ∈ newer, ¬ event.Ends path

lemma current_cons {log : List FileEvent} {event : FileEvent} {path content : Bytes}
    {mtime : Int} :
    Current (event :: log) path content mtime ↔
      event = .stored path content mtime ∨
        (¬ event.Ends path ∧ Current log path content mtime) := by
  constructor
  · rintro ⟨newer, older, hlog, hnewer⟩
    rcases newer with _ | ⟨first, newer⟩
    · exact .inl (List.cons.inj hlog).1
    · rcases List.cons.inj hlog with ⟨rfl, rfl⟩
      refine .inr ⟨hnewer _ List.mem_cons_self, newer, older, rfl, fun e he => ?_⟩
      exact hnewer e (List.mem_cons_of_mem _ he)
  · rintro (rfl | ⟨hkeeps, newer, older, rfl, hnewer⟩)
    · exact ⟨[], log, rfl, by simp⟩
    · refine ⟨event :: newer, older, rfl, fun e he => ?_⟩
      rcases List.mem_cons.mp he with rfl | he
      · exact hkeeps
      · exact hnewer e he

/-- The cache, the table it stands for, the log and the time of last use of each path. -/
structure Shelf where
  cache : ListedFileCache
  model : FileCache
  log : List FileEvent := []
  clock : Nat := 0
  lastUse : Bytes → Nat := fun _ => 0

inductive FileCall where
  | get (path : Bytes) (fileMtime : Int)
  | put (path content : Bytes) (size : Nat) (mtime : Int)
  | clear

namespace Shelf

/-- A path is used. -/
def use (s : Shelf) (path : Bytes) : Shelf :=
  { s with lastUse := Function.update s.lastUse path s.clock, clock := s.clock + 1 }

/-- What `get` does to the log: an entry that is found and not returned is stale. -/
def noteGet (s : Shelf) (path : Bytes) (result : Option Bytes) : Shelf :=
  match s.cache.map.lookup path, result with
  | some _, some _ => s.use path
  | some _, none => { s with log := .stale path :: s.log }
  | none, _ => s

/-- What `put` does to the log. -/
def notePut (s : Shelf) (path content : Bytes) (size : Nat) (mtime : Int) : Shelf :=
  if size > s.cache.maxFileSize then s
  else
    let lost :=
      if (s.cache.map.lookup path).isNone ∧ s.cache.list.size ≥ s.cache.maxEntries then
        s.cache.list.back.toList.map fun last => FileEvent.evicted last.2.1
      else []
    { s.use path with log := .stored path content mtime :: (lost ++ s.log) }

def call (s : Shelf) : FileCall → Shelf
  | .get path fileMtime =>
    { s.noteGet path (s.cache.get path fileMtime).2 with
      cache := (s.cache.get path fileMtime).1
      model := (s.model.get path fileMtime).1 }
  | .put path content size mtime =>
    { s.notePut path content size mtime with
      cache := s.cache.put path content size mtime
      model := s.model.put path content size mtime }
  | .clear =>
    { s with
      cache := s.cache.clear
      model := { s.model with table := ∅ }
      log := .cleared :: s.log }

def callStep (call : FileCall) (s : Shelf) : Option Shelf := some (s.call call)

/-- Empty, with the limits of both. -/
def initial (maxEntries maxFileSize : Nat) : Shelf :=
  { cache := { maxEntries := maxEntries, maxFileSize := maxFileSize }
    model := { maxEntries := maxEntries, maxFileSize := maxFileSize } }

/-- List and map fit together, the list is in the order of last use, the table has its
entries, and they are those that were stored and not lost. -/
structure Sound (s : Shelf) : Prop where
  indexed : s.cache.list.Indexed Prod.fst s.cache.map.lookup
  size : s.cache.list.size ≤ s.cache.maxEntries
  recent : s.cache.list.Recent Prod.fst s.lastUse
  past : ∀ path ∈ s.cache.paths, s.lastUse path < s.clock
  maxEntries : s.model.maxEntries = s.cache.maxEntries
  maxFileSize : s.model.maxFileSize = s.cache.maxFileSize
  entries : s.model.table.entries = s.cache.list.values.map ListedFileCache.shown
  current : ∀ path content mtime,
    s.model.table.lookup path = some ⟨content, mtime⟩ ↔ Current s.log path content mtime

namespace Sound

variable {s : Shelf} {path : Bytes} {it : Nat}

lemma start (maxEntries maxFileSize : Nat) : Sound (initial maxEntries maxFileSize) where
  indexed := Chain.Indexed.empty.congr fun _ => rfl
  size := Nat.zero_le _
  recent := Chain.Recent.empty
  past := by
    intro path hpath
    cases hpath
  maxEntries := rfl
  maxFileSize := rfl
  entries := rfl
  current := by
    intro path content mtime
    constructor
    · nofun
    · rintro ⟨newer, older, hlog, -⟩
      exact absurd hlog.symm (by simp [initial])

/-- An iterator of the map points at an entry for its path, which is that of the table. -/
lemma found (h : s.Sound) (hit : s.cache.map.lookup path = some it) :
    ∃ e, (it, (path, e)) ∈ s.cache.list.nodes ∧
      s.model.table.lookup path = some ⟨e.content, e.mtime⟩ := by
  rcases (h.indexed path it).mp hit with ⟨⟨p, e⟩, hnode, rfl⟩
  refine ⟨e, hnode, AList.mem_lookup_iff.mpr ?_⟩
  rw [h.entries]
  exact List.mem_map.mpr ⟨(p, e), List.mem_map_of_mem hnode, rfl⟩

lemma keys (h : s.Sound) : s.model.table.keys = s.cache.paths := by
  unfold AList.keys List.keys
  rw [h.entries, ListedFileCache.paths, List.map_map]
  rfl

lemma missing (h : s.Sound) (hit : s.cache.map.lookup path = none) :
    s.model.table.lookup path = none := by
  rw [AList.lookup_eq_none, AList.mem_keys, h.keys, ListedFileCache.paths,
    h.indexed.mem_keys_iff, hit]
  simp

lemma length_entries (h : s.Sound) : s.model.table.entries.length = s.cache.list.size := by
  rw [h.entries, List.length_map, Chain.length_values]

/-- The entries of the table when a node is erased. -/
lemma entries_erase (h : s.Sound) (hit : s.cache.map.lookup path = some it) :
    (s.model.table.erase path).entries =
      (s.cache.list.erase it).values.map ListedFileCache.shown := by
  rw [Lru.entries_erase, h.entries, h.indexed.values_erase hit, List.filter_map]
  rfl

/-- A table without an entry has what was stored and not lost when this is a loss. -/
lemma current_erase (h : s.Sound) {event : FileEvent}
    (hends : event = .evicted path ∨ event = .stale path) (p content : Bytes) (mtime : Int) :
    (s.model.table.erase path).lookup p = some ⟨content, mtime⟩ ↔
      Current (event :: s.log) p content mtime := by
  have hother : event ≠ .stored p content mtime := by
    rcases hends with rfl | rfl <;> nofun
  have hpath : event.Ends p ↔ path = p := by
    rcases hends with rfl | rfl <;> exact Iff.rfl
  rw [current_cons, hpath, or_iff_right hother]
  by_cases hp : p = path
  · subst hp
    simp
  · rw [AList.lookup_erase_ne hp, h.current]
    exact (and_iff_right (Ne.symm hp)).symm

lemma current_insert (h : s.Sound) (content : Bytes) (mtime : Int) (p content' : Bytes)
    (mtime' : Int) :
    (s.model.table.insert path ⟨content, mtime⟩).lookup p = some ⟨content', mtime'⟩ ↔
      Current (.stored path content mtime :: s.log) p content' mtime' := by
  rw [current_cons]
  by_cases hp : p = path
  · subst hp
    rw [AList.lookup_insert]
    simp [FileEvent.Ends]
  · rw [AList.lookup_insert_ne hp, h.current]
    have hends : ¬ (FileEvent.stored path content mtime).Ends p := Ne.symm hp
    have hother : FileEvent.stored path content mtime ≠ .stored p content' mtime' := by
      intro heq
      exact hp (FileEvent.stored.inj heq).1.symm
    rw [or_iff_right hother, and_iff_right hends]

/-- An entry is lost. -/
lemma removed (h : s.Sound) (hit : s.cache.map.lookup path = some it) {event : FileEvent}
    (hends : event = .evicted path ∨ event = .stale path) :
    Sound { s with
      cache := { s.cache with list := s.cache.list.erase it, map := s.cache.map.erase path }
      model := { s.model with table := s.model.table.erase path }
      log := event :: s.log } := by
  rcases h.found hit with ⟨e, hnode, -⟩
  constructor
  · refine (h.indexed.erase hit).congr fun p => ?_
    have hmap := congrFun (Chain.index_erase s.cache.map path id) p
    simpa using hmap
  · have hsize := Chain.size_erase hnode
    exact (Nat.le_of_lt (Nat.lt_of_succ_le hsize.le)).trans h.size
  · exact h.recent.erase
  · intro p hp
    exact h.past p (((List.filter_sublist.map _).map _).subset hp)
  · exact h.maxEntries
  · exact h.maxFileSize
  · exact h.entries_erase hit
  · exact h.current_erase hends

/-- A path that is used comes last in time. -/
lemma past_use {p : Bytes} (hp : p = path ∨ s.lastUse p < s.clock) :
    (s.use path).lastUse p < (s.use path).clock := by
  by_cases hpath : p = path
  · subst hpath
    exact (Function.update_self p s.clock s.lastUse).trans_lt (Nat.lt_succ_self _)
  · exact (Function.update_of_ne hpath s.clock s.lastUse).trans_lt
      (Nat.lt_succ_of_lt (hp.resolve_left hpath))

/-- An entry comes to the front. -/
lemma used (h : s.Sound) (hit : s.cache.map.lookup path = some it) :
    Sound { s.use path with
      cache := { s.cache with list := s.cache.list.splice it }
      model := { s.model with table := Lru.touch path s.model.table } } := by
  rcases h.found hit with ⟨e, hnode, hlookup⟩
  constructor
  · exact h.indexed.splice
  · exact Chain.size_splice.trans_le h.size
  · exact h.recent.splice h.indexed hnode h.past
  · intro p hp
    refine past_use (.inr (h.past p ?_))
    exact (((s.cache.list.splice_perm it).map Prod.snd).map Prod.fst).mem_iff.mp hp
  · exact h.maxEntries
  · exact h.maxFileSize
  · dsimp only
    rw [Lru.touch, hlookup, Chain.values_splice hnode, List.map_cons, ← h.entries_erase hit,
      Lru.entries_insert, Lru.entries_erase]
    rfl
  · intro p content mtime
    dsimp only
    rw [Lru.lookup_touch]
    exact h.current p content mtime

/-- An entry is written, and comes to the front. -/
lemma rewritten (h : s.Sound) (hit : s.cache.map.lookup path = some it) (content : Bytes)
    (size : Nat) (mtime : Int) :
    Sound { s.use path with
      cache := { s.cache with
        list := (s.cache.list.modify it fun n => (n.1, ⟨content, size, mtime⟩)).splice it }
      model := { s.model with table := s.model.table.insert path ⟨content, mtime⟩ }
      log := .stored path content mtime :: s.log } := by
  rcases h.found hit with ⟨e, hnode, -⟩
  have hindexed := h.indexed.modify (i := it)
    (f := fun n => (n.1, (⟨content, size, mtime⟩ : ListedContent))) (fun _ _ => rfl)
  have hkeys : (s.cache.list.modify it fun n => (n.1, ⟨content, size, mtime⟩)).values.map Prod.fst =
      s.cache.paths := by
    unfold ListedFileCache.paths Chain.values Chain.modify
    dsimp only
    rw [List.map_map, List.map_map, List.map_map]
    apply List.map_congr_left
    rintro ⟨j, n⟩ -
    by_cases hj : j = it <;> simp [hj]
  have hwritten : (it, (path, (⟨content, size, mtime⟩ : ListedContent))) ∈
      (s.cache.list.modify it fun n => (n.1, ⟨content, size, mtime⟩)).nodes :=
    Chain.mem_modify.mpr ⟨_, hnode, by simp⟩
  constructor
  · exact hindexed.splice
  · exact (Chain.size_splice.trans Chain.size_modify).trans_le h.size
  · refine Chain.Recent.splice (a := (path, ⟨content, size, mtime⟩)) ?_ hindexed hwritten ?_
    · unfold Chain.Recent
      rw [hkeys]
      exact h.recent
    · rw [hkeys]
      exact h.past
  · intro p hp
    refine past_use (.inr (h.past p ?_))
    rw [← hkeys]
    exact (((Chain.splice_perm _ it).map Prod.snd).map Prod.fst).mem_iff.mp hp
  · exact h.maxEntries
  · exact h.maxFileSize
  · dsimp only
    rw [Chain.values_splice hwritten, Chain.erase_modify, List.map_cons, ← h.entries_erase hit,
      Lru.entries_insert, Lru.entries_erase]
    rfl
  · exact h.current_insert content mtime

/-- A new entry, in a cache that has room for it. -/
lemma added (h : s.Sound) (hnone : s.cache.map.lookup path = none)
    (hroom : s.cache.list.size < s.cache.maxEntries) (content : Bytes) (size : Nat) (mtime : Int) :
    Sound { s.use path with
      cache := s.cache.add path ⟨content, size, mtime⟩
      model := { s.model with table := s.model.table.insert path ⟨content, mtime⟩ }
      log := .stored path content mtime :: s.log } := by
  have hpath : path ∉ s.cache.list.values.map Prod.fst := by
    rw [h.indexed.mem_keys_iff, hnone]
    simp
  constructor
  · refine (Chain.Indexed.pushFront (a := (path, (⟨content, size, mtime⟩ : ListedContent)))
      h.indexed hnone).congr fun p => ?_
    have hmap := congrFun (Chain.index_insert s.cache.map path s.cache.list.next id) p
    simpa [ListedFileCache.add] using hmap
  · exact hroom
  · exact Chain.Recent.pushFront (a := (path, ⟨content, size, mtime⟩)) h.recent hpath h.past
  · intro p hp
    rcases List.mem_cons.mp hp with rfl | hp
    · exact past_use (.inl rfl)
    · exact past_use (.inr (h.past p hp))
  · exact h.maxEntries
  · exact h.maxFileSize
  · dsimp only
    rw [Lru.entries_insert, ← Lru.entries_erase, Lru.erase_of_lookup_none (h.missing hnone),
      h.entries]
    rfl
  · exact h.current_insert content mtime

lemma cleared (h : s.Sound) : Sound (s.call .clear) where
  indexed := Chain.Indexed.empty.congr fun _ => rfl
  size := Nat.zero_le _
  recent := Chain.Recent.empty
  past := by
    intro path hpath
    cases hpath
  maxEntries := h.maxEntries
  maxFileSize := h.maxFileSize
  entries := rfl
  current := by
    intro path content mtime
    refine iff_of_false nofun fun hcurrent => ?_
    rcases current_cons.mp hcurrent with heq | ⟨hends, -⟩
    · cases heq
    · exact hends trivial

/-! ### Calls -/

/-- `get` does not find its path, returns a content, or drops a stale entry; the table does
the same. -/
lemma get (h : s.Sound) (path : Bytes) (fileMtime : Int) :
    Sound (s.call (.get path fileMtime)) ∧
      (s.cache.get path fileMtime).2 = (s.model.get path fileMtime).2 := by
  dsimp only [Shelf.call, noteGet]
  rcases hit : s.cache.map.lookup path with _ | it
  · have hmiss := h.missing hit
    simp only [ListedFileCache.get, FileCache.get, hit, hmiss]
    exact ⟨h, trivial⟩
  · rcases h.found hit with ⟨e, hnode, hlookup⟩
    have hderef := Chain.deref_eq_some.mpr hnode
    by_cases hvalid : fileMtime = 0 ∨ e.mtime = fileMtime
    · simp only [ListedFileCache.get, FileCache.get, hit, hderef, hlookup, if_pos hvalid]
      exact ⟨h.used hit, trivial⟩
    · simp only [ListedFileCache.get, FileCache.get, hit, hderef, hlookup, if_neg hvalid]
      exact ⟨h.removed hit (.inr rfl), trivial⟩

/-- What `put` evicts, and what the table loses then. -/
lemma evictLast_eq (h : s.Sound) (hfull : s.cache.list.size ≥ s.cache.maxEntries)
    (hmax : 1 ≤ s.cache.maxEntries) :
    ∃ it last e, s.cache.list.back = some (it, (last, e)) ∧
      s.cache.map.lookup last = some it ∧
      s.cache.evictLast =
        { s.cache with list := s.cache.list.erase it, map := s.cache.map.erase last } ∧
      Lru.keep (s.model.table.entries.length - 1) s.model.table = s.model.table.erase last := by
  rcases Chain.exists_back (hmax.trans hfull) with ⟨it, ⟨last, e⟩, hback⟩
  refine ⟨it, last, e, hback, h.indexed.of_mem (Chain.mem_of_back hback), ?_, ?_⟩
  · simp [ListedFileCache.evictLast, hback, Chain.popBack_eq_erase hback]
  · have hsplit : s.cache.list.nodes = s.cache.list.nodes.dropLast ++ [(it, (last, e))] :=
      (List.dropLast_append_getLast? _ hback).symm
    have hentries : s.model.table.entries =
        (s.cache.list.nodes.dropLast.map Prod.snd).map ListedFileCache.shown ++
          [⟨last, ⟨e.content, e.mtime⟩⟩] := by
      rw [h.entries, Chain.values]
      conv_lhs => rw [hsplit]
      simp [ListedFileCache.shown]
    apply Lru.keep_eq_erase hentries
    rw [h.length_entries]
    simp [Chain.size]

lemma put (h : s.Sound) (hmax : 1 ≤ s.cache.maxEntries) (path content : Bytes) (size : Nat)
    (mtime : Int) : Sound (s.call (.put path content size mtime)) := by
  have hsizes : s.model.table.entries.length ≥ s.model.maxEntries ↔
      s.cache.list.size ≥ s.cache.maxEntries := by
    rw [h.maxEntries, h.length_entries]
  dsimp only [Shelf.call, notePut, ListedFileCache.put, FileCache.put]
  by_cases hlarge : size > s.cache.maxFileSize
  · have hrefused : size > s.model.maxFileSize := h.maxFileSize ▸ hlarge
    simp only [if_pos hlarge, if_pos hrefused]
    exact h
  · have hstored : ¬ size > s.model.maxFileSize := h.maxFileSize ▸ hlarge
    simp only [if_neg hlarge, if_neg hstored]
    rcases hit : s.cache.map.lookup path with _ | it
    · have hmiss := h.missing hit
      simp only [hmiss, hsizes, Option.isNone_none, Option.isSome_none, Bool.false_eq_true,
        if_false, true_and]
      by_cases hfull : s.cache.list.size ≥ s.cache.maxEntries
      · rcases h.evictLast_eq hfull hmax with ⟨it, last, e, hback, hlast, hevict, hkeep⟩
        have hremoved := h.removed hlast (.inl rfl)
        have hne : path ≠ last := by
          rintro rfl
          rw [hit] at hlast
          cases hlast
        have hroom : (s.cache.list.erase it).size < s.cache.maxEntries := by
          have hless := Chain.size_erase (Chain.mem_of_back hback)
          have hsize := h.size
          omega
        have hnone : (s.cache.map.erase last).lookup path = none := by
          rw [AList.lookup_erase_ne hne]
          exact hit
        have hadded := hremoved.added hnone hroom content size mtime
        simp only [if_pos hfull, hback, hevict, hkeep, Option.toList_some, List.map_cons,
          List.map_nil, List.singleton_append]
        exact hadded
      · simp only [if_neg hfull, List.nil_append]
        exact h.added hit (Nat.not_le.mp hfull) content size mtime
    · rcases h.found hit with ⟨e, hnode, hlookup⟩
      simp only [hlookup, Option.isNone_some, Option.isSome_some, Bool.false_eq_true, false_and,
        if_false, if_true, List.nil_append]
      exact h.rewritten hit content size mtime

lemma call (h : s.Sound) (hmax : 1 ≤ s.cache.maxEntries) (l : FileCall) : (s.call l).Sound := by
  cases l with
  | get path fileMtime => exact (h.get path fileMtime).1
  | put path content size mtime => exact h.put hmax path content size mtime
  | clear => exact h.cleared

/-- `get` with a time returns what was stored with this time and not lost since. -/
lemma get_eq_some (h : s.Sound) {path content : Bytes} {mtime : Int} (hmtime : mtime ≠ 0) :
    (s.cache.get path mtime).2 = some content ↔ Current s.log path content mtime := by
  rw [(h.get path mtime).2, FileCache.get_snd, ← h.current]
  rcases s.model.table.lookup path with _ | ⟨stored, time⟩
  · simp
  · by_cases htime : time = mtime
    · simp [htime]
    · simp [htime, hmtime]

/-- `put` evicts the entry that was used longest ago, and only for a new path in a full
cache. -/
lemma evicts (h : s.Sound) (hmax : 1 ≤ s.cache.maxEntries) {path content q : Bytes} {size : Nat}
    {mtime : Int} (hq : q ∈ s.cache.map)
    (hgone : q ∉ (s.cache.put path content size mtime).map) :
    (size ≤ s.cache.maxFileSize ∧ path ∉ s.cache.map ∧
      s.cache.list.size = s.cache.maxEntries) ∧
      ∀ r ∈ s.cache.map, r ≠ q →
        s.lastUse q < s.lastUse r ∧ r ∈ (s.cache.put path content size mtime).map := by
  unfold ListedFileCache.put at hgone ⊢
  by_cases hlarge : size > s.cache.maxFileSize
  · rw [if_pos hlarge] at hgone
    exact absurd hq hgone
  · rw [if_neg hlarge] at hgone ⊢
    rcases hit : s.cache.map.lookup path with _ | it
    · simp only [hit] at hgone ⊢
      by_cases hfull : s.cache.list.size ≥ s.cache.maxEntries
      · rcases h.evictLast_eq hfull hmax with ⟨it, last, e, hback, hlast, hevict, -⟩
        rw [if_pos hfull, hevict] at hgone ⊢
        have hmem : ∀ p, p ∈ (ListedFileCache.add
            { s.cache with list := s.cache.list.erase it, map := s.cache.map.erase last } path
            ⟨content, size, mtime⟩).map ↔ p = path ∨ p ∈ s.cache.map.erase last := by
          intro p
          exact AList.mem_insert _
        rw [hmem, not_or] at hgone
        have hql : q = last := by
          by_contra hne
          exact hgone.2 (AList.mem_erase.mpr ⟨hne, hq⟩)
        subst hql
        refine ⟨⟨Nat.not_lt.mp hlarge, AList.lookup_eq_none.mp hit, le_antisymm h.size hfull⟩, ?_⟩
        intro r hr hrq
        refine ⟨?_, (hmem r).mpr (.inr (AList.mem_erase.mpr ⟨hrq, hr⟩))⟩
        refine h.recent.back_lt hback (h.indexed.mem_keys_iff.mpr ?_) hrq
        exact AList.lookup_isSome.mpr hr
      · rw [if_neg hfull] at hgone
        exact absurd ((AList.mem_insert _).mpr (.inr hq)) hgone
    · simp only [hit] at hgone
      exact absurd hq hgone

end Sound

/-! ## What a run keeps -/

lemma maxEntries_call {s : Shelf} (h : s.Sound) (hmax : 1 ≤ s.cache.maxEntries) (l : FileCall) :
    (s.call l).cache.maxEntries = s.cache.maxEntries := by
  cases l with
  | get path fileMtime =>
    dsimp only [Shelf.call, ListedFileCache.get]
    split
    · rfl
    · split
      · rfl
      · split <;> rfl
  | put path content size mtime =>
    dsimp only [Shelf.call, ListedFileCache.put]
    split
    · rfl
    · split
      · rfl
      · split
        · rename_i hfull
          rcases h.evictLast_eq hfull hmax with ⟨it, last, e, -, -, hevict, -⟩
          rw [hevict]
          rfl
        · rfl
  | clear => rfl

/-- What a shelf shows: list and map hold the same paths, none twice, and each iterator
points at an entry for its own path; the bound; the cache answers and stores as the table
does; what `get` returns, what `put` refuses and what it evicts; the order of the list. -/
structure Promises (s : Shelf) : Prop where
  nodup : s.cache.paths.Nodup
  same : ∀ path, path ∈ s.cache.paths ↔ path ∈ s.cache.map
  iterators : ∀ path it, s.cache.map.lookup path = some it →
    ∃ e, s.cache.list.deref it = some (path, e)
  size : s.cache.list.size ≤ s.cache.maxEntries
  refines : s.model.table.entries = s.cache.list.values.map ListedFileCache.shown ∧
    ∀ path mtime, (s.cache.get path mtime).2 = (s.model.get path mtime).2
  get : ∀ path content mtime, mtime ≠ 0 →
    ((s.cache.get path mtime).2 = some content ↔ Current s.log path content mtime)
  refuses : ∀ path content size mtime, size > s.cache.maxFileSize →
    s.cache.put path content size mtime = s.cache
  ordered : s.cache.paths.Pairwise fun p p' => s.lastUse p' < s.lastUse p
  evicts : ∀ path content size mtime, ∀ q ∈ s.cache.map,
    q ∉ (s.cache.put path content size mtime).map →
    (size ≤ s.cache.maxFileSize ∧ path ∉ s.cache.map ∧ s.cache.list.size = s.cache.maxEntries) ∧
      ∀ r ∈ s.cache.map, r ≠ q →
        s.lastUse q < s.lastUse r ∧ r ∈ (s.cache.put path content size mtime).map

lemma Sound.promises {s : Shelf} (h : s.Sound) (hmax : 1 ≤ s.cache.maxEntries) :
    s.Promises := by
  constructor
  · exact h.indexed.keys_nodup
  · intro path
    exact h.indexed.mem_keys_iff.trans AList.lookup_isSome
  · intro path it hit
    rcases h.found hit with ⟨e, hnode, -⟩
    exact ⟨e, Chain.deref_eq_some.mpr hnode⟩
  · exact h.size
  · exact ⟨h.entries, fun path mtime => (h.get path mtime).2⟩
  · intro path content mtime hmtime
    exact h.get_eq_some hmtime
  · intro path content size mtime hlarge
    exact if_pos hlarge
  · exact h.recent
  · intro path content size mtime q hq hgone
    exact h.evicts hmax hq hgone

/-- After any calls, of any caches that can hold an entry. -/
theorem fileCache_refines {maxEntries : Nat} (hmax : 1 ≤ maxEntries) {maxFileSize : Nat}
    {calls : List FileCall} {s : Shelf}
    (hrun : Run callStep Any (initial maxEntries maxFileSize) calls s) : s.Promises := by
  have hinv : s.Sound ∧ 1 ≤ s.cache.maxEntries := by
    refine hrun.invariant (I := fun s => s.Sound ∧ 1 ≤ s.cache.maxEntries)
      ⟨Sound.start maxEntries maxFileSize, hmax⟩ ?_
    rintro t l u ⟨hsound, hone⟩ - hstep
    obtain rfl := Option.some.inj hstep
    refine ⟨hsound.call hone l, ?_⟩
    rw [maxEntries_call hsound hone]
    exact hone
  exact hinv.1.promises hinv.2

/-- Three contents in a cache for two, and one that is too large: the first one was used
last, so the third takes the place of the second. -/
def threeContents : List FileCall :=
  [.put [97] [1] 1 10, .put [98] [2] 1 10, .get [97] 10, .put [99] [3] 1 10, .put [98] [4] 9 10]

theorem fileCache_refines_threeContents :
    ∃ s, Run callStep Any (initial 2 8) threeContents s ∧
      (s.cache.paths, s.log.length, (s.cache.get [97] 10).2) = ([[99], [97]], 4, some [1]) ∧
      s.Promises := by
  obtain ⟨s, hrun, hs⟩ := exists_run_of_exec
    (f := fun s : Shelf => (s.cache.paths, s.log.length, (s.cache.get [97] 10).2))
    (show (exec callStep Any threeContents (initial 2 8)).map
      (fun s => (s.cache.paths, s.log.length, (s.cache.get [97] 10).2)) =
        some ([[99], [97]], 4, some [1]) by decide +kernel)
  exact ⟨s, hrun, hs, fileCache_refines (by decide) hrun⟩

end Shelf

end EpollGateway.Static
