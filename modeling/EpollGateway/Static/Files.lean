import EpollGateway.Handler.Dispatch
import EpollGateway.Lib.Lru

/-! # Files, descriptors and the two caches

A worker keeps two caches for the files it serves. `FdCache` holds open descriptors
with what `stat` said about them; it owns the descriptors and closes them. `FileCache`
holds contents, plain ones under the path of their file and compressed ones under the
path with `#gzip` behind it.

The kernel has one table of descriptors. A number that was closed may be given to the
next file or socket, so an open file has a serial number here, and the path that it was
opened for, which are not in the source: they tell two files apart that were open under
one number.
-/

namespace EpollGateway.Static

open Bytes Http Handler Function

/-! ## The file system -/

/-- What is stored of a file. -/
structure File where
  size : Nat
  byte : Nat → UInt8
  mtime : Int

def File.content (f : File) : Bytes := fileBytes f.byte 0 f.size

/-- The tree below the document root. -/
structure FileSystem where
  tree : Bytes → Option Nat
  inode : Nat → File

/-- `stat`. -/
def FileSystem.stat (fs : FileSystem) (path : Bytes) : Option File :=
  (fs.tree path).map fs.inode

/-! ## Descriptors -/

/-- An open file. -/
structure Handle where
  serial : Nat
  path : Bytes
  inode : Nat
  offset : Nat := 0

/-- A file that is served, or a socket or file of another part of the program. -/
inductive Descriptor where
  | file (h : Handle)
  | other

/-- The table of descriptors, and the number of files that were opened. -/
structure Kernel where
  table : Nat → Option Descriptor := fun _ => none
  opens : Nat := 0

/-- `open`, when the kernel gives the number `fd`. -/
def Kernel.openFile (k : Kernel) (fd : Nat) (path : Bytes) (inode : Nat) : Kernel :=
  { table := update k.table fd (some (.file ⟨k.opens, path, inode, 0⟩))
    opens := k.opens + 1 }

@[simp] lemma openFile_table_self (k : Kernel) (fd : Nat) (path : Bytes) (inode : Nat) :
    (k.openFile fd path inode).table fd = some (.file ⟨k.opens, path, inode, 0⟩) :=
  update_self fd _ k.table

lemma openFile_table_ne {k : Kernel} {fd fd' : Nat} (path : Bytes) (inode : Nat) (h : fd' ≠ fd) :
    (k.openFile fd path inode).table fd' = k.table fd' :=
  update_of_ne h _ k.table

def Kernel.close (k : Kernel) (fd : Nat) : Kernel :=
  { k with table := update k.table fd none }

/-- Several descriptors are closed. -/
def Kernel.closeAll (k : Kernel) (fds : List Nat) : Kernel := fds.foldl Kernel.close k

lemma closeAll_opens (k : Kernel) (fds : List Nat) : (k.closeAll fds).opens = k.opens := by
  induction fds generalizing k with
  | nil => rfl
  | cons fd fds ih => exact ih (k.close fd)

lemma closeAll_table (k : Kernel) (fds : List Nat) (fd : Nat) :
    (k.closeAll fds).table fd = if fd ∈ fds then none else k.table fd := by
  induction fds generalizing k with
  | nil => rfl
  | cons fd' fds ih =>
    have hclose := ih (k.close fd')
    unfold Kernel.closeAll at hclose ⊢
    rw [List.foldl_cons, hclose]
    by_cases heq : fd = fd'
    · subst heq
      simp [Kernel.close]
    · simp [Kernel.close, heq]

/-- The open file `h` under the number `fd` gets another offset. -/
def Kernel.moveTo (k : Kernel) (fd : Nat) (h : Handle) (offset : Nat) : Kernel :=
  { k with table := update k.table fd (some (.file { h with offset := offset })) }

@[simp] lemma moveTo_table_self (k : Kernel) (fd : Nat) (h : Handle) (offset : Nat) :
    (k.moveTo fd h offset).table fd = some (.file { h with offset := offset }) :=
  update_self fd _ k.table

lemma moveTo_table_ne {k : Kernel} {fd fd' : Nat} (h : Handle) (offset : Nat) (hne : fd' ≠ fd) :
    (k.moveTo fd h offset).table fd' = k.table fd' :=
  update_of_ne hne _ k.table

/-- `read` from the offset of a descriptor. The result is what there is, up to `count`
bytes, or none when there is no file under the number. -/
def Kernel.read (k : Kernel) (fs : FileSystem) (fd count : Nat) : Kernel × Option Bytes :=
  match k.table fd with
  | some (.file h) =>
    let n := min count ((fs.inode h.inode).size - h.offset)
    (k.moveTo fd h (h.offset + n), some (fileBytes (fs.inode h.inode).byte h.offset n))
  | _ => (k, none)

/-! ## `FdCache` -/

/-- `CachedFd`; the place in the list is the place in the table. -/
structure CachedFd where
  fd : Nat
  fileSize : Nat
  mtime : Int
  validatedAt : Int

structure FdCache where
  table : Lru.Table Bytes CachedFd := ∅

def fdCacheMaxEntries : Nat := 256

def fdCacheTtlSec : Int := 10

/-- `try_get`: an entry that was validated not long ago. -/
def FdCache.tryGet (c : FdCache) (path : Bytes) (now : Int) : FdCache × Option CachedFd :=
  match c.table.lookup path with
  | none => (c, none)
  | some e =>
    if now - e.validatedAt < fdCacheTtlSec then (⟨Lru.touch path c.table⟩, some e) else (c, none)

/-- `validate`; the last component is what it closes. -/
def FdCache.validate (c : FdCache) (path : Bytes) (mtime now : Int) :
    FdCache × Option Nat × List Nat :=
  match c.table.lookup path with
  | none => (c, none, [])
  | some e =>
    if e.mtime ≠ mtime then (⟨c.table.erase path⟩, none, [e.fd])
    else (⟨c.table.insert path { e with validatedAt := now }⟩, some e.fd, [])

/-- `put`; the last component is what it closes: the entry that it replaces, and the
oldest ones, until there is room. -/
def FdCache.put (c : FdCache) (path : Bytes) (fd : Nat) (mtime : Int) (fileSize : Nat)
    (now : Int) : FdCache × List Nat :=
  let rest := c.table.erase path
  (⟨(Lru.keep (fdCacheMaxEntries - 1) rest).insert path ⟨fd, fileSize, mtime, now⟩⟩,
    (c.table.lookup path).toList.map CachedFd.fd ++
      (rest.entries.drop (fdCacheMaxEntries - 1)).map fun e => e.2.fd)

/-- `clear`; the result is what it closes. -/
def FdCache.clear (c : FdCache) : FdCache × List Nat :=
  (⟨∅⟩, c.table.entries.map fun e => e.2.fd)

/-! ## `FileCache` -/

structure CacheEntry where
  content : Bytes
  mtime : Int

structure FileCache where
  maxEntries : Nat
  maxFileSize : Nat
  table : Lru.Table Bytes CacheEntry := ∅

/-- The limits of the content cache, as `Config::validate` accepts them. -/
structure CacheLimits where
  cacheMaxEntries : Nat
  cacheMaxFileSizeMb : Nat
  entries_pos : 0 < cacheMaxEntries
  megabytes_pos : 0 < cacheMaxFileSizeMb

/-- The smallest limits that are accepted. -/
def oneEntry : CacheLimits := ⟨1, 1, by decide, by decide⟩

/-- The constructor; the product is a `size_t`. -/
def FileCache.new (limits : CacheLimits) : FileCache :=
  { maxEntries := limits.cacheMaxEntries
    maxFileSize := limits.cacheMaxFileSizeMb * 1024 * 1024 % 2 ^ 64 }

/-- `get`; an entry with another modification time is erased, unless the caller gives
the time 0. -/
def FileCache.get (c : FileCache) (path : Bytes) (fileMtime : Int) : FileCache × Option Bytes :=
  match c.table.lookup path with
  | none => (c, none)
  | some e =>
    if fileMtime = 0 ∨ e.mtime = fileMtime then
      ({ c with table := Lru.touch path c.table }, some e.content)
    else ({ c with table := c.table.erase path }, none)

/-- `put`; a full cache loses the entry that was used longest ago. -/
def FileCache.put (c : FileCache) (path content : Bytes) (size : Nat) (mtime : Int) : FileCache :=
  if size > c.maxFileSize then c
  else if (c.table.lookup path).isSome then
    { c with table := c.table.insert path ⟨content, mtime⟩ }
  else if c.table.entries.length ≥ c.maxEntries then
    { c with
      table := (Lru.keep (c.table.entries.length - 1) c.table).insert path ⟨content, mtime⟩ }
  else { c with table := c.table.insert path ⟨content, mtime⟩ }

/-! ## What the caches keep -/

lemma FdCache.lookup_tryGet (c : FdCache) (path : Bytes) (now : Int) (k : Bytes) :
    (c.tryGet path now).1.table.lookup k = c.table.lookup k := by
  unfold FdCache.tryGet
  split
  · rfl
  · split
    · exact Lru.lookup_touch path k c.table
    · rfl

variable {k path : Bytes} {c : FileCache}

lemma FdCache.tryGet_some {c : FdCache} {now : Int} {e : CachedFd}
    (h : (c.tryGet path now).2 = some e) : c.table.lookup path = some e := by
  unfold FdCache.tryGet at h
  split at h
  · cases h
  · rename_i hlookup
    split at h
    · cases h
      exact hlookup
    · cases h

/-- An entry behind `get` was there before. -/
lemma FileCache.lookup_get {mtime : Int} {e : CacheEntry}
    (h : (c.get path mtime).1.table.lookup k = some e) : c.table.lookup k = some e := by
  unfold FileCache.get at h
  split at h
  · exact h
  · split at h
    · exact (Lru.lookup_touch path k c.table).symm.trans h
    · by_cases hk : k = path
      · subst hk
        rw [AList.lookup_erase] at h
        cases h
      · exact (AList.lookup_erase_ne hk).symm.trans h

lemma FileCache.get_of_lookup {e : CacheEntry} (h : c.table.lookup path = some e) :
    (c.get path e.mtime).2 = some e.content := by
  simp [FileCache.get, h]

/-- What `get` returns depends on the entry under its key only. -/
lemma FileCache.get_snd (c : FileCache) (path : Bytes) (mtime : Int) :
    (c.get path mtime).2 = (c.table.lookup path).bind fun e =>
      if mtime = 0 ∨ e.mtime = mtime then some e.content else none := by
  unfold FileCache.get
  rcases c.table.lookup path with _ | e
  · rfl
  · dsimp only [Option.bind_some]
    split
    · rfl
    · rfl

/-- An entry behind `put` is the new one, or one from before. -/
lemma FileCache.lookup_put {content : Bytes} {size : Nat} {mtime : Int} {e : CacheEntry}
    (h : (c.put path content size mtime).table.lookup k = some e) :
    (k = path ∧ e = ⟨content, mtime⟩) ∨ c.table.lookup k = some e := by
  have hinsert {t : Lru.Table Bytes CacheEntry}
      (ht : ∀ e, t.lookup k = some e → c.table.lookup k = some e)
      (h : (t.insert path ⟨content, mtime⟩).lookup k = some e) :
      (k = path ∧ e = ⟨content, mtime⟩) ∨ c.table.lookup k = some e := by
    by_cases hk : k = path
    · subst hk
      rw [AList.lookup_insert] at h
      cases h
      exact .inl ⟨rfl, rfl⟩
    · rw [AList.lookup_insert_ne hk] at h
      exact .inr (ht e h)
  unfold FileCache.put at h
  split at h
  · exact .inr h
  · split at h
    · exact hinsert (fun _ he => he) h
    · split at h
      · exact hinsert (fun _ he => Lru.lookup_of_keep he) h
      · exact hinsert (fun _ he => he) h

end EpollGateway.Static
