import EpollGateway.Lib.Chain
import EpollGateway.Lib.Run
import EpollGateway.Static.Files
import Mathlib

/-! # The list and the map of `FdCache`

`FdCache` keeps its entries in a map and their paths in a linked list in the order of last
use; an entry holds the iterator to its path. The four operations update both by hand, and
close descriptors in four places.

A `Ledger` keeps beside the cache what was put into it, what it has closed and when a path
was used last. `Ledger.Sound` is kept by every operation (`Sound.call`): list and map fit
together, and what was put is in the map or closed. The table of `Static.Files` is the list
with the entries of the map (`view`).
-/

namespace EpollGateway.Static

open Bytes Machine Function

/-! ## The operations -/

/-- `CachedFd`. -/
structure ListedFd where
  fd : Nat
  fileSize : Nat
  mtime : Int
  validatedAt : Int
  lruIt : Nat
deriving DecidableEq, Repr

/-- `FdCache`. -/
structure ListedFdCache where
  maxEntries : Nat := fdCacheMaxEntries
  ttlSec : Int := fdCacheTtlSec
  list : Chain Bytes := {}
  map : AList (fun _ : Bytes => ListedFd) := ∅

namespace ListedFdCache

def limits (c : ListedFdCache) : Nat × Int := (c.maxEntries, c.ttlSec)

/-- `try_get`: descriptor, size and modification time. -/
def tryGet (c : ListedFdCache) (path : Bytes) (now : Int) :
    ListedFdCache × Option (Nat × Nat × Int) :=
  match c.map.lookup path with
  | none => (c, none)
  | some e =>
    if now - e.validatedAt < c.ttlSec then
      ({ c with list := c.list.splice e.lruIt }, some (e.fd, e.fileSize, e.mtime))
    else (c, none)

/-- `validate`; `now` is what `time` returns. The last component is what it closes. -/
def validate (c : ListedFdCache) (path : Bytes) (mtime now : Int) :
    ListedFdCache × Option Nat × List Nat :=
  match c.map.lookup path with
  | none => (c, none, [])
  | some e =>
    if e.mtime ≠ mtime then
      ({ c with list := c.list.erase e.lruIt, map := c.map.erase path }, none, [e.fd])
    else
      ({ c with
          map := c.map.insert path { e with validatedAt := now }
          list := c.list.splice e.lruIt }, some e.fd, [])

/-- `put` first removes the entry of its path. -/
def dropOld (c : ListedFdCache) (path : Bytes) : ListedFdCache × List Nat :=
  match c.map.lookup path with
  | none => (c, [])
  | some e => ({ c with list := c.list.erase e.lruIt, map := c.map.erase path }, [e.fd])

/-- The body of the loop of `put`. There is no `back` of an empty list. -/
def evictOne (c : ListedFdCache) : ListedFdCache × List Nat :=
  match c.list.back with
  | none => (c, [])
  | some (_, lastPath) =>
    match c.map.lookup lastPath with
    | none => ({ c with list := c.list.popBack }, [])
    | some e => ({ c with list := c.list.popBack, map := c.map.erase lastPath }, [e.fd])

/-- The loop of `put`. An iteration takes a node out of the list, so there are at most as
many as it has nodes. -/
def evictLoop : Nat → ListedFdCache → ListedFdCache × List Nat
  | 0, c => (c, [])
  | fuel + 1, c =>
    if c.list.size ≥ c.maxEntries then
      let (c, closed) := c.evictOne
      let (c, more) := evictLoop fuel c
      (c, closed ++ more)
    else (c, [])

/-- The end of `put`. -/
def add (c : ListedFdCache) (path : Bytes) (fd : Nat) (mtime : Int) (fileSize : Nat)
    (now : Int) : ListedFdCache :=
  { c with
    list := c.list.pushFront path
    map := c.map.insert path ⟨fd, fileSize, mtime, now, c.list.next⟩ }

/-- `put`; the last component is what it closes. -/
def put (c : ListedFdCache) (path : Bytes) (fd : Nat) (mtime : Int) (fileSize : Nat)
    (now : Int) : ListedFdCache × List Nat :=
  let (c, replaced) := c.dropOld path
  let (c, evicted) := evictLoop c.list.size c
  (c.add path fd mtime fileSize now, replaced ++ evicted)

/-- The descriptors in the map. -/
def fds (c : ListedFdCache) : List Nat := c.map.entries.map fun e => e.2.fd

/-- `clear`; the last component is what it closes. -/
def clear (c : ListedFdCache) : ListedFdCache × List Nat :=
  ({ c with map := ∅, list := c.list.clear }, c.fds)

/-- The iterators in the map. -/
def index (c : ListedFdCache) (path : Bytes) : Option Nat := (c.map.lookup path).map ListedFd.lruIt

lemma tryGet_cases (c : ListedFdCache) (path : Bytes) (now : Int) :
    c.tryGet path now = (c, none) ∨
      ∃ e, c.map.lookup path = some e ∧
        c.tryGet path now =
          ({ c with list := c.list.splice e.lruIt }, some (e.fd, e.fileSize, e.mtime)) := by
  unfold tryGet
  rcases c.map.lookup path with _ | e
  · exact .inl rfl
  · by_cases httl : now - e.validatedAt < c.ttlSec
    · exact .inr ⟨e, rfl, if_pos httl⟩
    · exact .inl (if_neg httl)

lemma validate_cases (c : ListedFdCache) (path : Bytes) (mtime now : Int) :
    c.validate path mtime now = (c, none, []) ∨
      (∃ e, c.map.lookup path = some e ∧
        c.validate path mtime now =
          ({ c with list := c.list.erase e.lruIt, map := c.map.erase path }, none, [e.fd])) ∨
      ∃ e, c.map.lookup path = some e ∧
        c.validate path mtime now =
          ({ c with
              map := c.map.insert path { e with validatedAt := now }
              list := c.list.splice e.lruIt }, some e.fd, []) := by
  unfold validate
  rcases c.map.lookup path with _ | e
  · exact .inl rfl
  · by_cases hstale : e.mtime ≠ mtime
    · exact .inr (.inl ⟨e, rfl, if_pos hstale⟩)
    · exact .inr (.inr ⟨e, rfl, if_neg hstale⟩)

/-- The keys of the list. Its values are paths, and a path is its own key. -/
def paths (c : ListedFdCache) : List Bytes := c.list.values.map id

end ListedFdCache

/-! ## The ledger -/

/-- The cache, and what has been done with it: the descriptors that were put and those that
were closed, and when each path was used last. -/
structure Ledger where
  cache : ListedFdCache
  opened : List Nat := []
  closed : List Nat := []
  clock : Nat := 0
  lastUse : Bytes → Nat := fun _ => 0

inductive FdCall where
  | put (path : Bytes) (fd : Nat) (mtime : Int) (fileSize : Nat) (now : Int)
  | tryGet (path : Bytes) (now : Int)
  | validate (path : Bytes) (mtime now : Int)
  | clear

namespace Ledger

/-- A path is used. -/
def use (g : Ledger) (path : Bytes) : Ledger :=
  { g with lastUse := update g.lastUse path g.clock, clock := g.clock + 1 }

/-- A result says whether its path was used. -/
def useIf (g : Ledger) (path : Bytes) {α : Type} : Option α → Ledger
  | some _ => g.use path
  | none => g

def call (g : Ledger) : FdCall → Ledger
  | .put path fd mtime fileSize now =>
    let (c, closed) := g.cache.put path fd mtime fileSize now
    { g.use path with cache := c, opened := g.opened ++ [fd], closed := g.closed ++ closed }
  | .tryGet path now =>
    let (c, result) := g.cache.tryGet path now
    { g.useIf path result with cache := c }
  | .validate path mtime now =>
    let (c, result, closed) := g.cache.validate path mtime now
    { g.useIf path result with cache := c, closed := g.closed ++ closed }
  | .clear =>
    let (c, closed) := g.cache.clear
    { g with cache := c, closed := g.closed ++ closed }

def callStep (call : FdCall) (g : Ledger) : Option Ledger := some (g.call call)

/-- What is put has been opened just now, so it is not in the cache. -/
def NewlyOpened (g : Ledger) : FdCall → Prop
  | .put _ fd _ _ _ => fd ∉ g.cache.fds
  | _ => True

/-- What a part of an operation leaves, and what it closes. -/
def charge (g : Ledger) (out : ListedFdCache × List Nat) : Ledger :=
  { g with cache := out.1, closed := g.closed ++ out.2 }

/-- List and map fit together, the list is in the order of last use, and what was put is in
the map or has been closed. -/
structure Sound (g : Ledger) : Prop where
  indexed : g.cache.list.Indexed id g.cache.index
  size : g.cache.list.size ≤ g.cache.maxEntries
  recent : g.cache.list.Recent id g.lastUse
  past : ∀ path ∈ g.cache.paths, g.lastUse path < g.clock
  distinct : g.cache.fds.Nodup
  conserved : ∀ fd, g.opened.count fd = g.closed.count fd + g.cache.fds.count fd

namespace Sound

variable {g : Ledger} {path : Bytes} {e : ListedFd} {c : ListedFdCache}

lemma index_of_lookup (he : c.map.lookup path = some e) : c.index path = some e.lruIt := by
  simp [ListedFdCache.index, he]

/-- The iterator of an entry points at its path. -/
lemma node (h : g.Sound) (he : g.cache.map.lookup path = some e) :
    (e.lruIt, path) ∈ g.cache.list.nodes := by
  rcases (h.indexed path e.lruIt).mp (index_of_lookup he) with ⟨_, hnode, rfl⟩
  exact hnode

lemma initial (maxEntries : Nat) (ttlSec : Int) :
    Sound { cache := { maxEntries := maxEntries, ttlSec := ttlSec } } where
  indexed := Chain.Indexed.empty
  size := Nat.zero_le _
  recent := Chain.Recent.empty
  past := by
    intro path hpath
    cases hpath
  distinct := List.nodup_nil
  conserved := fun _ => rfl

/-- An entry is removed and its descriptor closed. -/
lemma removed (h : g.Sound) (he : g.cache.map.lookup path = some e) :
    Sound { g with
      cache := { g.cache with
        list := g.cache.list.erase e.lruIt
        map := g.cache.map.erase path }
      closed := g.closed ++ [e.fd] } := by
  have hperm := Chain.erase_perm he ListedFd.fd
  constructor
  · exact (h.indexed.erase (index_of_lookup he)).congr
      (congrFun (Chain.index_erase g.cache.map path ListedFd.lruIt))
  · have hsize := Chain.size_erase (h.node he)
    exact (Nat.le_of_lt (Nat.lt_of_succ_le hsize.le)).trans h.size
  · exact h.recent.erase
  · intro p hp
    exact h.past p (((List.filter_sublist.map _).map _).subset hp)
  · exact (List.nodup_cons.mp (hperm.nodup_iff.mpr h.distinct)).2
  · intro fd
    have hcount : (e.fd :: (g.cache.map.erase path).entries.map fun x => x.2.fd).count fd =
        g.cache.fds.count fd := hperm.count_eq fd
    have hbefore := h.conserved fd
    rw [List.count_cons] at hcount
    rw [ListedFdCache.fds, List.count_append, List.count_singleton]
    dsimp only
    omega

/-- A path comes to the front. -/
lemma used (h : g.Sound) (he : g.cache.map.lookup path = some e) :
    Sound { g.use path with cache := { g.cache with list := g.cache.list.splice e.lruIt } } := by
  constructor
  · exact h.indexed.splice
  · exact Chain.size_splice.trans_le h.size
  · exact h.recent.splice h.indexed (h.node he) h.past
  · intro p hp
    have hold : p ∈ g.cache.paths :=
      (((g.cache.list.splice_perm e.lruIt).map Prod.snd).map id).mem_iff.mp hp
    by_cases hpath : p = path
    · subst hpath
      exact (update_self p g.clock g.lastUse).trans_lt (Nat.lt_succ_self _)
    · exact (update_of_ne hpath g.clock g.lastUse).trans_lt
        (Nat.lt_succ_of_lt (h.past p hold))
  · exact h.distinct
  · exact h.conserved

/-- The time of an entry is written. -/
lemma revalidated (h : g.Sound) (he : g.cache.map.lookup path = some e) (now : Int) :
    Sound { g with
      cache := { g.cache with map := g.cache.map.insert path { e with validatedAt := now } } } := by
  have hperm := Chain.insert_perm (w := { e with validatedAt := now }) he ListedFd.fd rfl
  constructor
  · have hsame : update g.cache.index path (some e.lruIt) = g.cache.index := by
      rw [← index_of_lookup he, update_eq_self]
    refine h.indexed.congr fun p => ?_
    rw [← hsame]
    exact congrFun (Chain.index_insert g.cache.map path { e with validatedAt := now }
      ListedFd.lruIt) p
  · exact h.size
  · exact h.recent
  · exact h.past
  · exact hperm.nodup_iff.mpr h.distinct
  · intro fd
    exact (h.conserved fd).trans (congrArg _ (hperm.count_eq fd).symm)

/-- A new entry, in a cache that has room for it. -/
lemma added (h : g.Sound) {fd : Nat} (hnone : g.cache.map.lookup path = none)
    (hroom : g.cache.list.size < g.cache.maxEntries) (hnew : fd ∉ g.cache.fds) (mtime : Int)
    (fileSize : Nat) (now : Int) :
    Sound { g.use path with
      cache := g.cache.add path fd mtime fileSize now
      opened := g.opened ++ [fd] } := by
  have hindex : g.cache.index (id path) = none := by simp [ListedFdCache.index, hnone]
  have hpath : id path ∉ g.cache.list.values.map id := by
    rw [h.indexed.mem_keys_iff, hindex]
    simp
  have hfds : (g.cache.add path fd mtime fileSize now).fds = fd :: g.cache.fds :=
    Chain.insert_new hnone ⟨fd, fileSize, mtime, now, g.cache.list.next⟩ ListedFd.fd
  constructor
  · exact (h.indexed.pushFront hindex).congr (congrFun (Chain.index_insert g.cache.map path
      ⟨fd, fileSize, mtime, now, g.cache.list.next⟩ ListedFd.lruIt))
  · exact hroom
  · exact h.recent.pushFront hpath h.past
  · intro p hp
    rcases List.mem_cons.mp hp with rfl | hp
    · exact (update_self _ g.clock g.lastUse).trans_lt (Nat.lt_succ_self _)
    · have hne : p ≠ path := fun heq => hpath (heq ▸ hp)
      exact (update_of_ne hne g.clock g.lastUse).trans_lt
        (Nat.lt_succ_of_lt (h.past p hp))
  · rw [hfds]
    exact List.nodup_cons.mpr ⟨hnew, h.distinct⟩
  · intro fd'
    have hbefore := h.conserved fd'
    rw [hfds, List.count_append, List.count_singleton, List.count_cons]
    dsimp only [Ledger.use]
    omega

lemma cleared (h : g.Sound) :
    Sound { g with
      cache := { g.cache with map := ∅, list := g.cache.list.clear }
      closed := g.closed ++ g.cache.fds } where
  indexed := Chain.Indexed.empty
  size := Nat.zero_le _
  recent := Chain.Recent.empty
  past := by
    intro path hpath
    cases hpath
  distinct := List.nodup_nil
  conserved := by
    intro fd
    rw [List.count_append]
    exact h.conserved fd

/-! ### Calls -/

/-- What an iteration of the loop does when list and map fit together. -/
lemma evictOne_eq (hindexed : c.list.Indexed id c.index) {i : Nat}
    (hback : c.list.back = some (i, path)) :
    ∃ e, c.map.lookup path = some e ∧
      c.evictOne =
        ({ c with list := c.list.erase e.lruIt, map := c.map.erase path }, [e.fd]) := by
  have hfound := hindexed.of_mem (Chain.mem_of_back hback)
  rcases Option.map_eq_some_iff.mp hfound with ⟨e, he, rfl⟩
  have hlookup : c.map.lookup path = some e := he
  refine ⟨e, hlookup, ?_⟩
  simp [ListedFdCache.evictOne, hback, hlookup, Chain.popBack_eq_erase hback]

lemma evictLoop_room (h : c.list.size < c.maxEntries) (fuel : Nat) :
    ListedFdCache.evictLoop fuel c = (c, []) := by
  cases fuel with
  | zero => rfl
  | succ fuel => rw [ListedFdCache.evictLoop, if_neg (Nat.not_le.mpr h)]

/-- A cache within its bound loses one entry at most. -/
lemma evictLoop_eq (hindexed : c.list.Indexed id c.index) (hsize : c.list.size ≤ c.maxEntries)
    (hmax : 1 ≤ c.maxEntries) :
    ListedFdCache.evictLoop c.list.size c =
      if c.list.size ≥ c.maxEntries then c.evictOne else (c, []) := by
  split
  · rename_i hfull
    have hpos : 0 < c.list.size := hmax.trans hfull
    rcases Chain.exists_back hpos with ⟨i, path, hback⟩
    rcases evictOne_eq hindexed hback with ⟨e, he, hone⟩
    have hnode : (e.lruIt, path) ∈ c.list.nodes := by
      rcases (hindexed path e.lruIt).mp (index_of_lookup he) with ⟨_, hnode, rfl⟩
      exact hnode
    have hless := Chain.size_erase hnode
    rcases hn : c.list.size with _ | n
    · omega
    · have hroom : (c.list.erase e.lruIt).size < c.maxEntries := by omega
      rw [ListedFdCache.evictLoop, if_pos hfull, hone]
      dsimp only
      rw [evictLoop_room hroom, List.append_nil]
  · rename_i hroom
    exact evictLoop_room (Nat.not_le.mp hroom) _

/-- `put` has removed the entry of its path. -/
lemma dropOld (h : g.Sound) (path : Bytes) :
    Sound (g.charge (g.cache.dropOld path)) ∧
      (g.cache.dropOld path).1.map.lookup path = none ∧
      (g.cache.dropOld path).1.fds ⊆ g.cache.fds ∧
      (g.cache.dropOld path).1.maxEntries = g.cache.maxEntries := by
  unfold ListedFdCache.dropOld
  rcases he : g.cache.map.lookup path with _ | e
  · refine ⟨?_, he, List.Subset.refl _, rfl⟩
    unfold Ledger.charge
    rw [List.append_nil]
    exact h
  · refine ⟨h.removed he, AList.lookup_erase _ _, ?_, rfl⟩
    intro fd hfd
    exact (Chain.erase_perm he ListedFd.fd).subset (List.mem_cons_of_mem _ hfd)

/-- The loop of `put` has made room. -/
lemma evicted (h : g.Sound) (hmax : 1 ≤ g.cache.maxEntries)
    (hnone : g.cache.map.lookup path = none) :
    Sound (g.charge (ListedFdCache.evictLoop g.cache.list.size g.cache)) ∧
      (ListedFdCache.evictLoop g.cache.list.size g.cache).1.map.lookup path = none ∧
      (ListedFdCache.evictLoop g.cache.list.size g.cache).1.fds ⊆ g.cache.fds ∧
      (ListedFdCache.evictLoop g.cache.list.size g.cache).1.list.size < g.cache.maxEntries ∧
      (ListedFdCache.evictLoop g.cache.list.size g.cache).1.maxEntries = g.cache.maxEntries := by
  rw [evictLoop_eq h.indexed h.size hmax]
  split
  · rename_i hfull
    rcases Chain.exists_back (hmax.trans hfull) with ⟨i, last, hback⟩
    rcases evictOne_eq h.indexed hback with ⟨e, he, hone⟩
    have hless := Chain.size_erase (h.node he)
    have hsize := h.size
    rw [hone]
    refine ⟨h.removed he, ?_, ?_, ?_, rfl⟩
    · have hne : path ≠ last := by
        rintro rfl
        rw [hnone] at he
        cases he
      rw [AList.lookup_erase_ne hne]
      exact hnone
    · intro fd hfd
      exact (Chain.erase_perm he ListedFd.fd).subset (List.mem_cons_of_mem _ hfd)
    · dsimp only
      omega
  · rename_i hroom
    refine ⟨?_, hnone, List.Subset.refl _, Nat.not_le.mp hroom, rfl⟩
    unfold Ledger.charge
    rw [List.append_nil]
    exact h

lemma put (h : g.Sound) (hmax : 1 ≤ g.cache.maxEntries) {fd : Nat} (hnew : fd ∉ g.cache.fds)
    (path : Bytes) (mtime : Int) (fileSize : Nat) (now : Int) :
    Sound (g.call (.put path fd mtime fileSize now)) := by
  rcases h.dropOld path with ⟨hdrop, hnone, hfds, hmax'⟩
  have hmax₁ : 1 ≤ (g.cache.dropOld path).1.maxEntries := hmax'.symm ▸ hmax
  rcases hdrop.evicted hmax₁ hnone with ⟨hevict, hnone₂, hfds₂, hroom, hmax₂⟩
  have hadd := hevict.added hnone₂ (hmax₂.symm ▸ hroom) (fun hfd => hnew (hfds (hfds₂ hfd)))
    mtime fileSize now
  unfold Ledger.charge at hadd
  dsimp only at hadd
  rw [List.append_assoc] at hadd
  exact hadd

lemma call (h : g.Sound) (hmax : 1 ≤ g.cache.maxEntries) {l : FdCall} (hnew : g.NewlyOpened l) :
    (g.call l).Sound := by
  cases l with
  | put path fd mtime fileSize now => exact h.put hmax hnew path mtime fileSize now
  | tryGet path now =>
    dsimp only [Ledger.call]
    rcases g.cache.tryGet_cases path now with hmiss | ⟨e, he, hhit⟩
    · rw [hmiss]
      exact h
    · rw [hhit]
      exact h.used he
  | validate path mtime now =>
    dsimp only [Ledger.call]
    rcases g.cache.validate_cases path mtime now with hmiss | ⟨e, he, hstale⟩ | ⟨e, he, hvalid⟩
    · rw [hmiss]
      dsimp only
      rw [List.append_nil]
      exact h
    · rw [hstale]
      exact h.removed he
    · have hstamped := h.revalidated he now
      have hused := hstamped.used (AList.lookup_insert g.cache.map)
      rw [hvalid]
      dsimp only
      rw [List.append_nil]
      exact hused
  | clear => exact h.cleared

end Sound

/-! ## What a run keeps -/

lemma limits_call (g : Ledger) (l : FdCall) : (g.call l).cache.limits = g.cache.limits := by
  have hdrop : ∀ (c : ListedFdCache) path, (c.dropOld path).1.limits = c.limits := by
    intro c path
    unfold ListedFdCache.dropOld
    split <;> rfl
  have hone : ∀ c : ListedFdCache, c.evictOne.1.limits = c.limits := by
    intro c
    unfold ListedFdCache.evictOne
    split
    · rfl
    · split <;> rfl
  have hloop : ∀ fuel (c : ListedFdCache),
      (ListedFdCache.evictLoop fuel c).1.limits = c.limits := by
    intro fuel
    induction fuel with
    | zero => exact fun _ => rfl
    | succ fuel ih =>
      intro c
      rw [ListedFdCache.evictLoop]
      split
      · exact (ih _).trans (hone c)
      · rfl
  cases l with
  | put path fd mtime fileSize now => exact (hloop _ _).trans (hdrop _ _)
  | tryGet path now =>
    dsimp only [Ledger.call]
    rcases g.cache.tryGet_cases path now with hmiss | ⟨e, he, hhit⟩
    · rw [hmiss]
    · rw [hhit]
      rfl
  | validate path mtime now =>
    dsimp only [Ledger.call]
    rcases g.cache.validate_cases path mtime now with hmiss | ⟨e, he, hstale⟩ | ⟨e, he, hvalid⟩
    · rw [hmiss]
    · rw [hstale]
      rfl
    · rw [hvalid]
      rfl
  | clear => rfl

lemma maxEntries_call (g : Ledger) (l : FdCall) :
    (g.call l).cache.maxEntries = g.cache.maxEntries :=
  congrArg Prod.fst (limits_call g l)

lemma lookup_dropOld_ne (c : ListedFdCache) {path p : Bytes} (hp : p ≠ path) :
    (c.dropOld path).1.map.lookup p = c.map.lookup p := by
  unfold ListedFdCache.dropOld
  split
  · rfl
  · exact AList.lookup_erase_ne hp

lemma Sound.paths_dropOld {g : Ledger} (h : g.Sound) (path : Bytes) :
    (g.cache.dropOld path).1.paths = g.cache.paths.filter (· ≠ path) := by
  unfold ListedFdCache.dropOld
  rcases he : g.cache.map.lookup path with _ | e
  · have hnot : path ∉ g.cache.paths := by
      rw [ListedFdCache.paths, h.indexed.mem_keys_iff]
      simp [ListedFdCache.index, he]
    refine (List.filter_eq_self.mpr fun p hp => ?_).symm
    exact decide_eq_true fun heq => hnot (heq ▸ hp)
  · exact h.indexed.keys_erase (Sound.index_of_lookup he)

/-- `put` evicts the path that was used longest ago, and only from a full cache. -/
lemma Sound.evicts {g : Ledger} (h : g.Sound) (hmax : 1 ≤ g.cache.maxEntries) {path q : Bytes}
    {fd : Nat} {mtime : Int} {fileSize : Nat} {now : Int} (hq : q ∈ g.cache.map) (hne : q ≠ path)
    (hgone : q ∉ (g.cache.put path fd mtime fileSize now).1.map) :
    (g.cache.paths.filter (· ≠ path)).length = g.cache.maxEntries ∧
      ∀ r ∈ g.cache.map, r ≠ path → r ≠ q →
        g.lastUse q < g.lastUse r ∧ r ∈ (g.cache.put path fd mtime fileSize now).1.map := by
  rcases h.dropOld path with ⟨hdrop, hnone, -, hmax'⟩
  have hkept : ∀ p, p ≠ path → (p ∈ (g.cache.dropOld path).1.map ↔ p ∈ g.cache.map) := by
    intro p hp
    rw [← AList.lookup_isSome, ← AList.lookup_isSome, lookup_dropOld_ne _ hp]
  have hpaths := h.paths_dropOld path
  have hloop := Sound.evictLoop_eq (c := (g.cache.dropOld path).1) hdrop.indexed hdrop.size
    (hmax'.symm ▸ hmax)
  -- behind the loop only the new entry is added
  have hmem : ∀ p, p ≠ path →
      (p ∈ (g.cache.put path fd mtime fileSize now).1.map ↔
        p ∈ (ListedFdCache.evictLoop (g.cache.dropOld path).1.list.size
          (g.cache.dropOld path).1).1.map) := by
    intro p hp
    exact (AList.mem_insert _).trans (or_iff_right hp)
  rw [hmem q hne] at hgone
  rw [hloop] at hgone hmem
  by_cases hfull : (g.cache.dropOld path).1.list.size ≥ (g.cache.dropOld path).1.maxEntries
  · rcases Chain.exists_back ((hmax'.symm ▸ hmax).trans hfull) with ⟨i, last, hback⟩
    rcases Sound.evictOne_eq (c := (g.cache.dropOld path).1) hdrop.indexed hback with ⟨e, he, hone⟩
    rw [if_pos hfull, hone] at hmem hgone
    have hlast : q = last := by
      by_contra hql
      refine hgone ((AList.mem_erase).mpr ⟨hql, (hkept q hne).mpr hq⟩)
    subst hlast
    constructor
    · rw [← hpaths]
      refine le_antisymm ?_ ?_
      · rw [ListedFdCache.paths, List.length_map, Chain.length_values]
        exact hmax' ▸ hdrop.size
      · rw [ListedFdCache.paths, List.length_map, Chain.length_values]
        exact hmax' ▸ hfull
    · intro r hr hrp hrq
      have hrmap := (hkept r hrp).mpr hr
      refine ⟨?_, (hmem r hrp).mpr (AList.mem_erase.mpr ⟨hrq, hrmap⟩)⟩
      refine hdrop.recent.back_lt hback (hdrop.indexed.mem_keys_iff.mpr ?_) hrq
      rw [ListedFdCache.index, Option.isSome_map]
      exact AList.lookup_isSome.mpr hrmap
  · rw [if_neg hfull] at hgone
    exact absurd ((hkept q hne).mpr hq) hgone

/-- What a ledger shows: list and map hold the same paths, none twice, and each iterator
points at its own path; the bound; every descriptor that was put is in the map or closed,
once; the order of the list, and what `put` evicts. -/
structure Promises (g : Ledger) : Prop where
  nodup : g.cache.list.values.Nodup
  same : ∀ path, path ∈ g.cache.list.values ↔ path ∈ g.cache.map
  iterators : ∀ path e, g.cache.map.lookup path = some e →
    g.cache.list.deref e.lruIt = some path
  size : g.cache.list.size ≤ g.cache.maxEntries
  conserved : ∀ fd, g.opened.count fd = g.closed.count fd + g.cache.fds.count fd
  distinct : g.cache.fds.Nodup
  once : ∀ fd, g.opened.count fd = 1 →
    (g.cache.fds.count fd = 1 ∧ g.closed.count fd = 0) ∨
      (g.cache.fds.count fd = 0 ∧ g.closed.count fd = 1)
  ordered : g.cache.list.values.Pairwise fun p p' => g.lastUse p' < g.lastUse p
  evicts : ∀ path fd mtime fileSize now, ∀ q ∈ g.cache.map, q ≠ path →
    q ∉ (g.cache.put path fd mtime fileSize now).1.map →
    (g.cache.list.values.filter (· ≠ path)).length = g.cache.maxEntries ∧
      ∀ r ∈ g.cache.map, r ≠ path → r ≠ q →
        g.lastUse q < g.lastUse r ∧ r ∈ (g.cache.put path fd mtime fileSize now).1.map

lemma Sound.promises {g : Ledger} (h : g.Sound) (hmax : 1 ≤ g.cache.maxEntries) :
    g.Promises := by
  have hpaths : g.cache.paths = g.cache.list.values := List.map_id _
  constructor
  · rw [← hpaths]
    exact h.indexed.keys_nodup
  · intro path
    rw [← hpaths, ListedFdCache.paths, h.indexed.mem_keys_iff, ListedFdCache.index,
      Option.isSome_map]
    exact AList.lookup_isSome
  · intro path e he
    exact Chain.deref_eq_some.mpr (h.node he)
  · exact h.size
  · exact h.conserved
  · exact h.distinct
  · intro fd hfd
    have hconserved := h.conserved fd
    have hle := List.nodup_iff_count_le_one.mp h.distinct fd
    omega
  · rw [← hpaths]
    exact h.recent
  · intro path fd mtime fileSize now q hq hne hgone
    rw [← hpaths]
    exact h.evicts hmax hq hne hgone

instance (g : Ledger) (l : FdCall) : Decidable (g.NewlyOpened l) :=
  match l with
  | .put _ fd _ _ _ => inferInstanceAs (Decidable (fd ∉ g.cache.fds))
  | .tryGet .. => .isTrue trivial
  | .validate .. => .isTrue trivial
  | .clear => .isTrue trivial

/-- After any calls, of any caches that can hold an entry. -/
theorem fdCache_conserves {maxEntries : Nat} (hmax : 1 ≤ maxEntries) {ttlSec : Int}
    {calls : List FdCall} {g : Ledger}
    (hrun : Run callStep NewlyOpened
      { cache := { maxEntries := maxEntries, ttlSec := ttlSec } } calls g) : g.Promises := by
  have hinv : g.Sound ∧ 1 ≤ g.cache.maxEntries := by
    refine hrun.invariant (I := fun g => g.Sound ∧ 1 ≤ g.cache.maxEntries)
      ⟨Sound.initial maxEntries ttlSec, hmax⟩ ?_
    rintro t l u ⟨hsound, hone⟩ hnew hstep
    obtain rfl := Option.some.inj hstep
    refine ⟨hsound.call hone hnew, ?_⟩
    rw [maxEntries_call]
    exact hone
  exact hinv.1.promises hinv.2

/-- Three files in a cache for two: the second one is the last that was used, so the third
takes the place of the first. -/
def threePuts : List FdCall :=
  [.put [97] 3 10 100 0, .put [98] 4 10 100 1, .tryGet [97] 2, .validate [98] 10 3,
    .put [99] 5 10 100 4]

theorem fdCache_conserves_threePuts :
    ∃ g, Run callStep NewlyOpened { cache := { maxEntries := 2 } } threePuts g ∧
      (g.cache.list.values, g.cache.fds, g.closed) = ([[99], [98]], [5, 4], [3]) ∧
      g.Promises := by
  obtain ⟨g, hrun, hg⟩ := exists_run_of_exec
    (f := fun g : Ledger => (g.cache.list.values, g.cache.fds, g.closed))
    (show (exec callStep NewlyOpened threePuts { cache := { maxEntries := 2 } }).map
      (fun g => (g.cache.list.values, g.cache.fds, g.closed)) =
        some ([[99], [98]], [5, 4], [3]) by decide +kernel)
  exact ⟨g, hrun, hg, fdCache_conserves (by decide) hrun⟩

end Ledger

/-! ## The table -/

/-- An entry of the table of `Static.Files`. -/
def ListedFd.entry (e : ListedFd) : CachedFd := ⟨e.fd, e.fileSize, e.mtime, e.validatedAt⟩

/-- The table has the paths of the list in their order, and the entries of the map. -/
structure Views (c : ListedFdCache) (t : FdCache) : Prop where
  order : t.table.keys = c.paths
  entries : ∀ path, t.table.lookup path = (c.map.lookup path).map ListedFd.entry

namespace Views

variable {g : Ledger} {t : FdCache} {path : Bytes} {e : ListedFd}

lemma lookup_none (hv : Views g.cache t) (he : g.cache.map.lookup path = none) :
    t.table.lookup path = none := by
  simp [hv.entries, he]

lemma lookup_some (hv : Views g.cache t) (he : g.cache.map.lookup path = some e) :
    t.table.lookup path = some e.entry := by
  simp [hv.entries, he]

/-- An erased node, an erased entry. -/
lemma erase (hv : Views g.cache t) (h : g.Sound) (he : g.cache.map.lookup path = some e) :
    Views { g.cache with list := g.cache.list.erase e.lruIt, map := g.cache.map.erase path }
      ⟨t.table.erase path⟩ := by
  constructor
  · rw [Lru.keys_erase, hv.order]
    exact (h.indexed.keys_erase (Ledger.Sound.index_of_lookup he)).symm
  · intro p
    by_cases hp : p = path
    · subst hp
      simp
    · dsimp only
      rw [AList.lookup_erase_ne hp, AList.lookup_erase_ne hp]
      exact hv.entries p

/-- A spliced node, an entry in front. -/
lemma splice (hv : Views g.cache t) (h : g.Sound) (he : g.cache.map.lookup path = some e)
    (e' : ListedFd) :
    Views { g.cache with
        map := g.cache.map.insert path e'
        list := g.cache.list.splice e.lruIt } ⟨t.table.insert path e'.entry⟩ := by
  have herase := hv.erase h he
  constructor
  · have hfront : (g.cache.list.splice e.lruIt).values.map id =
        path :: (g.cache.list.erase e.lruIt).values.map id := by
      rw [Chain.values_splice (h.node he), List.map_cons]
      rfl
    have hrest := herase.order
    dsimp only [ListedFdCache.paths] at hrest ⊢
    rw [Lru.keys_insert, ← Lru.keys_erase, hrest, hfront]
  · intro p
    by_cases hp : p = path
    · subst hp
      simp
    · dsimp only
      rw [AList.lookup_insert_ne hp, AList.lookup_insert_ne hp]
      exact hv.entries p

lemma tryGet (hv : Views g.cache t) (h : g.Sound) (httl : g.cache.ttlSec = fdCacheTtlSec)
    (path : Bytes) (now : Int) :
    Views (g.cache.tryGet path now).1 (t.tryGet path now).1 ∧
      (g.cache.tryGet path now).2 =
        (t.tryGet path now).2.map fun e => (e.fd, e.fileSize, e.mtime) := by
  unfold ListedFdCache.tryGet FdCache.tryGet
  rcases he : g.cache.map.lookup path with _ | e
  · rw [hv.lookup_none he]
    exact ⟨hv, rfl⟩
  · rw [hv.lookup_some he, httl]
    dsimp only [ListedFd.entry]
    split
    · have hsplice := hv.splice h he e
      refine ⟨⟨?_, ?_⟩, rfl⟩
      · rw [Lru.touch, hv.lookup_some he]
        exact hsplice.order
      · intro p
        rw [Lru.lookup_touch]
        exact hv.entries p
    · exact ⟨hv, rfl⟩

lemma validate (hv : Views g.cache t) (h : g.Sound) (path : Bytes) (mtime now : Int) :
    Views (g.cache.validate path mtime now).1 (t.validate path mtime now).1 ∧
      (g.cache.validate path mtime now).2 = (t.validate path mtime now).2 := by
  unfold ListedFdCache.validate FdCache.validate
  rcases he : g.cache.map.lookup path with _ | e
  · rw [hv.lookup_none he]
    exact ⟨hv, rfl⟩
  · rw [hv.lookup_some he]
    dsimp only [ListedFd.entry]
    split
    · exact ⟨hv.erase h he, rfl⟩
    · exact ⟨hv.splice h he { e with validatedAt := now }, rfl⟩

lemma dropOld (hv : Views g.cache t) (h : g.Sound) (path : Bytes) :
    Views (g.cache.dropOld path).1 ⟨t.table.erase path⟩ ∧
      (g.cache.dropOld path).2 = (t.table.lookup path).toList.map CachedFd.fd := by
  unfold ListedFdCache.dropOld
  rcases he : g.cache.map.lookup path with _ | e
  · have hnone := hv.lookup_none he
    rw [Lru.erase_of_lookup_none hnone, hnone]
    exact ⟨hv, rfl⟩
  · rw [hv.lookup_some he]
    exact ⟨hv.erase h he, rfl⟩

/-- The loop of `put` cuts the table off. -/
lemma evictLoop (hv : Views g.cache t) (h : g.Sound)
    (hmax : g.cache.maxEntries = fdCacheMaxEntries) :
    Views (ListedFdCache.evictLoop g.cache.list.size g.cache).1
        ⟨Lru.keep (fdCacheMaxEntries - 1) t.table⟩ ∧
      (ListedFdCache.evictLoop g.cache.list.size g.cache).2 =
        (t.table.entries.drop (fdCacheMaxEntries - 1)).map fun e => e.2.fd := by
  have hone : 1 ≤ g.cache.maxEntries := by
    rw [hmax]
    decide
  have hlen : t.table.entries.length = g.cache.list.size := by
    have horder := congrArg List.length hv.order
    rwa [AList.keys, List.keys, List.length_map, ListedFdCache.paths, List.length_map,
      Chain.length_values] at horder
  have hsize := h.size
  rw [hmax] at hsize
  rw [Ledger.Sound.evictLoop_eq h.indexed h.size hone]
  split
  · rename_i hfull
    rcases Chain.exists_back (hone.trans hfull) with ⟨i, last, hback⟩
    rcases Ledger.Sound.evictOne_eq h.indexed hback with ⟨e, he, heq⟩
    have hlookup := hv.lookup_some he
    -- the last entry of the table is that of the last path
    rcases List.eq_nil_or_concat t.table.entries with hnil | ⟨before, ⟨k, v⟩, hsplit⟩
    · rw [hnil] at hlen
      have hpos := hone.trans hfull
      simp at hlen
      omega
    · have hbefore : before.length = fdCacheMaxEntries - 1 := by
        rw [hsplit] at hlen
        simp only [List.concat_eq_append, List.length_append, List.length_singleton] at hlen
        omega
      rw [List.concat_eq_append] at hsplit
      have hk : k = last := by
        have horder := congrArg List.getLast? hv.order
        have hnodes : g.cache.list.nodes.getLast? = some (i, last) := hback
        rw [AList.keys, hsplit, List.keys, List.map_append, List.map_singleton,
          List.getLast?_append_of_ne_nil _ (List.cons_ne_nil _ _), List.getLast?_singleton,
          ListedFdCache.paths, Chain.values, List.getLast?_map, List.getLast?_map, hnodes] at horder
        exact Option.some.inj horder
      subst hk
      have hv' : v = e.entry := by
        have hmem : (⟨k, v⟩ : Sigma fun _ : Bytes => CachedFd) ∈ t.table.entries := by
          rw [hsplit]
          simp
        have hfound := AList.mem_lookup_iff.mpr hmem
        rw [Option.mem_def, hlookup, Option.some.injEq] at hfound
        exact hfound.symm
      rw [heq, Lru.keep_eq_erase hsplit hbefore, hsplit, ← hbefore, List.drop_left]
      refine ⟨hv.erase h he, ?_⟩
      simp [hv', ListedFd.entry]
  · rename_i hroom
    have hle : t.table.entries.length ≤ fdCacheMaxEntries - 1 := by
      rw [hmax] at hroom
      omega
    rw [Lru.keep_of_length_le hle, List.drop_of_length_le hle]
    exact ⟨hv, rfl⟩

lemma add (hv : Views g.cache t) (hnone : g.cache.map.lookup path = none) (fd : Nat)
    (mtime : Int) (fileSize : Nat) (now : Int) :
    Views (g.cache.add path fd mtime fileSize now)
      ⟨t.table.insert path ⟨fd, fileSize, mtime, now⟩⟩ := by
  constructor
  · dsimp only
    rw [Lru.keys_insert, ← Lru.keys_erase, Lru.erase_of_lookup_none (hv.lookup_none hnone),
      hv.order]
    rfl
  · intro p
    by_cases hp : p = path
    · subst hp
      simp [ListedFdCache.add, ListedFd.entry]
    · dsimp only [ListedFdCache.add]
      rw [AList.lookup_insert_ne hp, AList.lookup_insert_ne hp]
      exact hv.entries p

lemma put (hv : Views g.cache t) (h : g.Sound) (hmax : g.cache.maxEntries = fdCacheMaxEntries)
    (path : Bytes) (fd : Nat) (mtime : Int) (fileSize : Nat) (now : Int) :
    Views (g.cache.put path fd mtime fileSize now).1 (t.put path fd mtime fileSize now).1 ∧
      (g.cache.put path fd mtime fileSize now).2 = (t.put path fd mtime fileSize now).2 := by
  rcases h.dropOld path with ⟨hdrop, hnone, -, hmax₁⟩
  rcases hv.dropOld h path with ⟨hv₁, hclosed₁⟩
  have hfull : (g.charge (g.cache.dropOld path)).cache.maxEntries = fdCacheMaxEntries :=
    hmax₁.trans hmax
  rcases hdrop.evicted (hfull.symm ▸ by decide) hnone with ⟨-, hnone₂, -, -, -⟩
  rcases evictLoop (g := g.charge (g.cache.dropOld path)) hv₁ hdrop hfull with ⟨hv₂, hclosed₂⟩
  refine ⟨add (g := (g.charge (g.cache.dropOld path)).charge (ListedFdCache.evictLoop
    (g.cache.dropOld path).1.list.size (g.cache.dropOld path).1)) hv₂ hnone₂ fd mtime fileSize
    now, ?_⟩
  exact congrArg₂ (· ++ ·) hclosed₁ hclosed₂

lemma clear (hv : Views g.cache t) (h : g.Sound) :
    Views g.cache.clear.1 t.clear.1 ∧ g.cache.clear.2.Perm t.clear.2 := by
  refine ⟨⟨rfl, fun _ => rfl⟩, ?_⟩
  have hkeys : g.cache.map.keys.Perm t.table.keys := by
    rw [List.perm_ext_iff_of_nodup g.cache.map.keys_nodup t.table.keys_nodup]
    intro path
    rw [hv.order, ListedFdCache.paths, h.indexed.mem_keys_iff, ListedFdCache.index,
      Option.isSome_map]
    exact AList.lookup_isSome.symm
  have hsame : (fun path => ((g.cache.map.lookup path).map ListedFd.fd).getD 0) =
      fun path => ((t.table.lookup path).map CachedFd.fd).getD 0 := by
    funext path
    rw [hv.entries, Option.map_map]
    rfl
  change (g.cache.map.entries.map fun e => e.2.fd).Perm (t.table.entries.map fun e => e.2.fd)
  rw [Lru.map_entries g.cache.map ListedFd.fd 0, Lru.map_entries t.table CachedFd.fd 0, hsame]
  exact hkeys.map _

/-- A call gets the same answer from both, and closes the same descriptors. -/
def Agrees (c : ListedFdCache) (t : FdCache) : FdCall → Prop
  | .put path fd mtime fileSize now =>
    (c.put path fd mtime fileSize now).2 = (t.put path fd mtime fileSize now).2
  | .tryGet path now =>
    (c.tryGet path now).2 = (t.tryGet path now).2.map fun e => (e.fd, e.fileSize, e.mtime)
  | .validate path mtime now => (c.validate path mtime now).2 = (t.validate path mtime now).2
  | .clear => c.clear.2.Perm t.clear.2

/-- The call, of the table. -/
def tableCall (t : FdCache) : FdCall → FdCache
  | .put path fd mtime fileSize now => (t.put path fd mtime fileSize now).1
  | .tryGet path now => (t.tryGet path now).1
  | .validate path mtime now => (t.validate path mtime now).1
  | .clear => t.clear.1

lemma call (hv : Views g.cache t) (h : g.Sound)
    (hlimits : g.cache.limits = (fdCacheMaxEntries, fdCacheTtlSec)) (l : FdCall) :
    Views (g.call l).cache (tableCall t l) ∧ Agrees g.cache t l := by
  obtain ⟨hmax, httl⟩ := Prod.mk.inj hlimits
  cases l with
  | put path fd mtime fileSize now => exact hv.put h hmax path fd mtime fileSize now
  | tryGet path now => exact hv.tryGet h httl path now
  | validate path mtime now => exact hv.validate h path mtime now
  | clear => exact hv.clear h

/-- After any calls, list and map answer the next one as the table does. -/
theorem fdLists_refine {calls : List FdCall}
    (hrun : Run Ledger.callStep Ledger.NewlyOpened { cache := {} } calls g) (l : FdCall) :
    Agrees g.cache (calls.foldl tableCall {}) l := by
  have h : g.Sound ∧ g.cache.limits = (fdCacheMaxEntries, fdCacheTtlSec) ∧
      Views g.cache (calls.foldl tableCall {}) := by
    induction hrun with
    | nil => exact ⟨.initial _ _, rfl, rfl, fun _ => rfl⟩
    | snoc _ hnew hstep ih =>
      obtain ⟨hsound, hlimits, hv⟩ := ih
      obtain rfl := Option.some.inj hstep
      obtain ⟨hmax, -⟩ := Prod.mk.inj hlimits
      rw [List.foldl_append]
      exact ⟨hsound.call (hmax.symm ▸ by decide) hnew, (Ledger.limits_call _ _).trans hlimits,
        (hv.call hsound hlimits _).1⟩
  exact (h.2.2.call h.1 h.2.1 l).2

theorem fdLists_refine_threePuts : ∃ g, Run Ledger.callStep Ledger.NewlyOpened { cache := {} }
    Ledger.threePuts g ∧ g.cache.fds = [5, 4, 3] ∧
      Agrees g.cache (Ledger.threePuts.foldl tableCall {}) (.tryGet [97] 5) := by
  obtain ⟨g, hrun, hfds⟩ : ∃ g, Run Ledger.callStep Ledger.NewlyOpened { cache := {} }
      Ledger.threePuts g ∧ g.cache.fds = [5, 4, 3] := exists_run_of_exec (by decide +kernel)
  exact ⟨g, hrun, hfds, fdLists_refine hrun _⟩

end Views

end EpollGateway.Static
