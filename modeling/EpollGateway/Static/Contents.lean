import EpollGateway.Handler.ClientHead
import EpollGateway.Static.Serve
import EpollGateway.Lib.Run

/-! # What the caches serve

Over a file system that does not change, a response should have the content of its
file, whatever the caches hold. Two things stand against it.

The descriptor in `FdCache` keeps its offset. The first `read` takes it to the end of
the file, and there it stays; when the content has been dropped from `FileCache` and
the descriptor has not, the next `read` returns nothing, and the response is a server
error. And the key of a compressed content, the path with `#gzip` behind it, may be the
path of another file.

Where no path is shadowed in this way, a request is answered with its file exactly if
the content is cached or the descriptor is still at its start (`file_served_iff`).
-/

namespace EpollGateway.Static

open Bytes Http Handler Machine

/-! ## What is served -/

/-- The response to the client. -/
def clientFile (env : Env) (keepAlive : Bool) (fresh : Fresh) (req : HttpRequest)
    (served : Served) : HttpResponse :=
  frameResponse env.gzip keepAlive fresh.traceId fresh.traceparent req
    (withTrace fresh req served.resp) served.alreadyCompressed

/-- The body, after undoing gzip if the response says so. -/
def plainBody (gunzip : Bytes → Bytes) (resp : HttpResponse) : Bytes :=
  if resp.headers.lookup (ascii "Content-Encoding") = some (ascii "gzip") then gunzip resp.body
  else resp.body

/-- The response has the content of the file. -/
structure FileServed (gunzip : Bytes → Bytes) (file : File) (resp : HttpResponse) : Prop where
  status : resp.statusCode = 200
  body : plainBody gunzip resp = file.content

/-- A GET for a file of at most a megabyte; `open` succeeds. The path is one that
`is_safe_static_path` has accepted: `staticFallback` answers 405 and 403 before. -/
structure SmallGet (fs : FileSystem) (l : HttpRequest × StaticOracle) : Prop where
  method : l.1.method = ascii "GET"
  small : ∃ file ∈ fs.stat (staticPath l.1), file.size ≤ maxInline
  opens : l.2.fd.isSome = true

/-- A worker that gets such requests only. -/
def GetsSmall (fs : FileSystem) (_ : Statics) (l : HttpRequest × StaticOracle) : Prop :=
  SmallGet fs l

instance (fs : FileSystem) (s : Statics) (l : HttpRequest × StaticOracle) :
    Decidable (GetsSmall fs s l) :=
  decidable_of_iff
    (l.1.method = ascii "GET" ∧
      (fs.stat (staticPath l.1)).any (fun file => file.size ≤ maxInline) = true ∧
      l.2.fd.isSome = true) (by
    rw [Option.any_eq_true]
    exact ⟨fun ⟨hm, ⟨file, hf, hs⟩, ho⟩ => ⟨hm, ⟨file, hf, of_decide_eq_true hs⟩, ho⟩,
      fun ⟨hm, ⟨file, hf, hs⟩, ho⟩ => ⟨hm, ⟨file, hf, decide_eq_true hs⟩, ho⟩⟩)

/-- One request. -/
def getStep (gzip : Bytes → Option Bytes) (fs : FileSystem) (l : HttpRequest × StaticOracle)
    (s : Statics) : Option Statics :=
  (s.serve gzip fs l.2 l.1).map Prod.fst

/-- No path with `#gzip` behind it is a path. -/
def FileSystem.Unshadowed (fs : FileSystem) : Prop :=
  ∀ path, (fs.tree path).isSome = true → fs.tree (gzipKey path) = none

/-! ## The state between requests -/

/-- A content under its key: plain under the path, or compressed under the key for it. -/
def Stored (gzip : Bytes → Option Bytes) (fs : FileSystem) (k : Bytes) (e : CacheEntry) : Prop :=
  (∃ file, fs.stat k = some file ∧ e = ⟨file.content, file.mtime⟩) ∨
    ∃ path file z, k = gzipKey path ∧ fs.stat path = some file ∧
      gzip file.content = some z ∧ e = ⟨z, file.mtime⟩

/-- An entry of the descriptor cache: the descriptor is open on its file, at the start
or at the end of it. -/
structure Serving (fs : FileSystem) (k : Kernel) (path : Bytes) (e : CachedFd) : Prop where
  handle : ∃ i h, fs.tree path = some i ∧ k.table e.fd = some (.file h) ∧ h.inode = i ∧
    (h.offset = 0 ∨ h.offset = (fs.inode i).size) ∧ e.fileSize = (fs.inode i).size ∧
    e.mtime = (fs.inode i).mtime

/-- The invariant: each cache has what its keys say, and no two paths share a
descriptor. -/
structure Coherent (gzip : Bytes → Option Bytes) (fs : FileSystem) (s : Statics) : Prop where
  fds : ∀ path e, s.fds.table.lookup path = some e → Serving fs s.kernel path e
  distinct : ∀ path path' e e', s.fds.table.lookup path = some e →
    s.fds.table.lookup path' = some e' → e.fd = e'.fd → path = path'
  cache : ∀ k e, s.cache.table.lookup k = some e → Stored gzip fs k e

/-- Where the descriptor for a path stands. -/
def Statics.position (s : Statics) (path : Bytes) : Nat :=
  match s.fds.table.lookup path with
  | none => 0
  | some e =>
    match s.kernel.table e.fd with
    | some (.file h) => h.offset
    | _ => 0

section

variable {gzip : Bytes → Option Bytes} {fs : FileSystem} {s : Statics} {path : Bytes}

lemma gzipKey_injective {path' : Bytes} (h : gzipKey path = gzipKey path') : path = path' :=
  List.append_cancel_right h

variable {file : File} {fd i : Nat}

lemma stat_eq (h : fs.stat path = some file) : ∃ i, fs.tree path = some i ∧ fs.inode i = file :=
  Option.map_eq_some_iff.mp h

lemma Stored.plain {e : CacheEntry} (h : Stored gzip fs path e) (hun : fs.Unshadowed)
    (hstat : fs.stat path = some file) : e = ⟨file.content, file.mtime⟩ := by
  rcases h with ⟨file', hstat', rfl⟩ | ⟨path', file', z, rfl, hstat', -⟩
  · rw [hstat] at hstat'
    cases hstat'
    rfl
  · -- the path would be shadowed
    obtain ⟨i, htree, -⟩ := stat_eq hstat
    obtain ⟨i', htree', -⟩ := stat_eq hstat'
    rw [hun path' (by simp [htree'])] at htree
    cases htree

lemma Stored.compressed {e : CacheEntry} (h : Stored gzip fs (gzipKey path) e)
    (hun : fs.Unshadowed) (hstat : fs.stat path = some file) :
    ∃ z, gzip file.content = some z ∧ e = ⟨z, file.mtime⟩ := by
  rcases h with ⟨file', hstat', -⟩ | ⟨path', file', z, hkey, hstat', hz, he⟩
  · obtain ⟨i, htree, -⟩ := stat_eq hstat
    obtain ⟨i', htree', -⟩ := stat_eq hstat'
    rw [hun path (by simp [htree])] at htree'
    cases htree'
  · cases gzipKey_injective hkey
    rw [hstat] at hstat'
    cases hstat'
    exact ⟨z, hz, he⟩

/-! ## Finding the descriptor -/

/-- Entries that differ in the time of their validation only. -/
lemma Coherent.of_sameEntries {fds : FdCache} (h : Coherent gzip fs s)
    (hsame : SameEntries s.fds.table fds.table) :
    Coherent gzip fs { s with fds := fds } ∧
      ∀ path, ({ s with fds := fds } : Statics).position path = s.position path := by
  have hback : ∀ k e', fds.table.lookup k = some e' → ∃ e, s.fds.table.lookup k = some e ∧
      e'.fd = e.fd ∧ e'.fileSize = e.fileSize ∧ e'.mtime = e.mtime := by
    intro k e' he'
    have hk := hsame k
    rw [he', Option.map_some] at hk
    obtain ⟨e, he, heq⟩ := Option.map_eq_some_iff.mp hk.symm
    simp only [Prod.mk.injEq] at heq
    exact ⟨e, he, heq.1.symm, heq.2.1.symm, heq.2.2.symm⟩
  refine ⟨⟨?_, ?_, h.cache⟩, ?_⟩
  · intro path e' he'
    obtain ⟨e, he, hfd, hsize, hmtime⟩ := hback path e' he'
    obtain ⟨i, hd, htree, htable, hrest⟩ := (h.fds path e he).handle
    exact ⟨i, hd, htree, hfd ▸ htable, hrest.1, hrest.2.1, hsize.trans hrest.2.2.1,
      hmtime.trans hrest.2.2.2⟩
  · intro path path' e₁ e₂ he₁ he₂ heq
    obtain ⟨e₁', he₁', hfd₁, -⟩ := hback path e₁ he₁
    obtain ⟨e₂', he₂', hfd₂, -⟩ := hback path' e₂ he₂
    exact h.distinct path path' e₁' e₂' he₁' he₂' (hfd₁.symm.trans (heq.trans hfd₂))
  · intro path
    unfold Statics.position
    dsimp only
    rcases he' : fds.table.lookup path with _ | e'
    · have hk := hsame path
      rw [he', Option.map_none] at hk
      rw [Option.map_eq_none_iff.mp hk.symm]
    · obtain ⟨e, he, hfd, -⟩ := hback path e' he'
      rw [he]
      dsimp only
      rw [hfd]

/-- What is known once the descriptor for a file has been found. -/
structure Located (gzip : Bytes → Option Bytes) (fs : FileSystem) (s s' : Statics) (path : Bytes)
    (fd : Nat) : Prop where
  coherent : Coherent gzip fs s'
  cache : s'.cache = s.cache
  entry : ∃ e, s'.fds.table.lookup path = some e ∧ e.fd = fd
  position : s'.position path = s.position path

/-- A new descriptor: its number was free, and what is evicted are others. -/
lemma Coherent.opened {now : Int} (h : Coherent gzip fs s) (htree : fs.tree path = some i)
    (hnone : s.fds.table.lookup path = none) (hfree : s.kernel.table fd = none) :
    Located gzip fs s
      { s with
        fds := ⟨(Lru.keep (fdCacheMaxEntries - 1) s.fds.table).insert path
          ⟨fd, (fs.inode i).size, (fs.inode i).mtime, now⟩⟩
        kernel := (s.kernel.openFile fd path i).closeAll
          ((s.fds.table.entries.drop (fdCacheMaxEntries - 1)).map fun e => e.2.fd) }
      path fd := by
  have hnew : (((s.kernel.openFile fd path i).closeAll
      ((s.fds.table.entries.drop (fdCacheMaxEntries - 1)).map fun e => e.2.fd)).table fd) =
      some (.file ⟨s.kernel.opens, path, i, 0⟩) := by
    rw [closeAll_table, if_neg]
    · exact openFile_table_self s.kernel fd path i
    · intro hmem
      obtain ⟨⟨k, e⟩, hdrop, heq⟩ := List.mem_map.mp hmem
      obtain ⟨-, hd, -, htable, -⟩ := (h.fds k e (Lru.lookup_of_mem_drop hdrop)).handle
      rw [show e.fd = fd from heq, hfree] at htable
      cases htable
  -- a kept entry keeps its descriptor
  have hkept : ∀ k e, (Lru.keep (fdCacheMaxEntries - 1) s.fds.table).lookup k = some e →
      Serving fs ((s.kernel.openFile fd path i).closeAll
        ((s.fds.table.entries.drop (fdCacheMaxEntries - 1)).map fun e => e.2.fd)) k e ∧
        e.fd ≠ fd := by
    intro k e he
    have hlookup := Lru.lookup_of_keep he
    obtain ⟨i', hd, htree', htable, hrest⟩ := (h.fds k e hlookup).handle
    have hne : e.fd ≠ fd := by
      intro heq
      rw [heq, hfree] at htable
      cases htable
    refine ⟨⟨i', hd, htree', ?_, hrest⟩, hne⟩
    rw [closeAll_table, if_neg]
    · rw [openFile_table_ne path i hne]
      exact htable
    · intro hmem
      obtain ⟨⟨k', e'⟩, hdrop, heq⟩ := List.mem_map.mp hmem
      have hsame := h.distinct k k' e e' hlookup (Lru.lookup_of_mem_drop hdrop) heq.symm
      subst hsame
      rw [Lru.lookup_keep_of_mem_drop hdrop] at he
      cases he
  refine ⟨⟨?_, ?_, h.cache⟩, rfl, ?_, ?_⟩
  · intro k e he
    by_cases hk : k = path
    · subst hk
      rw [AList.lookup_insert] at he
      cases he
      exact ⟨i, _, htree, hnew, rfl, .inl rfl, rfl, rfl⟩
    · rw [AList.lookup_insert_ne hk] at he
      exact (hkept k e he).1
  · intro k k' e e' he he' heq
    by_cases hk : k = path
    · by_cases hk' : k' = path
      · rw [hk, hk']
      · subst hk
        rw [AList.lookup_insert] at he
        rw [AList.lookup_insert_ne hk'] at he'
        cases he
        exact absurd heq.symm (hkept k' e' he').2
    · rw [AList.lookup_insert_ne hk] at he
      by_cases hk' : k' = path
      · subst hk'
        rw [AList.lookup_insert] at he'
        cases he'
        exact absurd heq (hkept k e he).2
      · rw [AList.lookup_insert_ne hk'] at he'
        exact h.distinct k k' e e' (Lru.lookup_of_keep he) (Lru.lookup_of_keep he') heq
  · exact ⟨_, AList.lookup_insert _, rfl⟩
  · unfold Statics.position
    dsimp only
    rw [hnone, AList.lookup_insert]
    dsimp only
    rw [hnew]

lemma locate_coherent {o : StaticOracle} {r : Statics × Found} (h : Coherent gzip fs s)
    (htree : fs.tree path = some i) (hopens : o.fd.isSome = true)
    (hl : s.locate fs o path = some r) :
    ∃ s' fd, r = (s', .file fd (fs.inode i).size (fs.inode i).mtime) ∧
      Located gzip fs s s' path fd := by
  have hentry {fds : FdCache} {e : CachedFd} (hsame : SameEntries s.fds.table fds.table)
      (he : s.fds.table.lookup path = some e) :
      Located gzip fs s { s with fds := fds } path e.fd := by
    obtain ⟨hcoherent, hposition⟩ := h.of_sameEntries hsame
    have hk := hsame path
    rw [he, Option.map_some] at hk
    obtain ⟨e', he', heq⟩ := Option.map_eq_some_iff.mp hk
    exact ⟨hcoherent, rfl, ⟨e', he', congrArg Prod.fst heq⟩, hposition path⟩
  -- an entry is never stale
  have hvalid : ∀ e, s.fds.table.lookup path = some e → e.fileSize = (fs.inode i).size ∧
      e.mtime = (fs.inode i).mtime := by
    intro e he
    obtain ⟨i', -, htree', -, -, -, hsize, hmtime⟩ := (h.fds path e he).handle
    rw [htree] at htree'
    cases htree'
    exact ⟨hsize, hmtime⟩
  rcases locate_cases hl with ⟨hsame, he, -⟩ | ⟨hsame, he, htree', hmtime⟩ | ⟨hsame, htree'⟩ |
    ⟨-, -, -, hfd⟩ | ⟨htree', hstale, -, hfd, hfree⟩
  · rename_i fds e
    refine ⟨_, e.fd, ?_, hentry hsame he⟩
    rw [(hvalid e he).1, (hvalid e he).2]
  · rename_i fds e i'
    rw [htree] at htree'
    cases htree'
    exact ⟨_, e.fd, rfl, hentry hsame he⟩
  · rw [htree] at htree'
    cases htree'
  · rw [hfd] at hopens
    cases hopens
  · rename_i i' fd
    rw [htree] at htree'
    cases htree'
    have hnone : s.fds.table.lookup path = none := by
      rcases he : s.fds.table.lookup path with _ | e
      · rfl
      · exact absurd (hvalid e he).2 (hstale e he)
    rw [hnone] at hfree ⊢
    rw [Lru.erase_of_lookup_none hnone]
    exact ⟨_, fd, rfl, h.opened htree hnone hfree⟩

/-! ## Fetching the content -/

/-- A file whose descriptor stands at its start or at its end, read as a whole. -/
lemma read_whole {k : Kernel} {hd : Handle} (htable : k.table fd = some (.file hd))
    (hoffset : hd.offset = 0 ∨ hd.offset = (fs.inode hd.inode).size) :
    ∃ content, k.read fs fd (fs.inode hd.inode).size =
      (k.moveTo fd hd (fs.inode hd.inode).size, some content) ∧
      (content.length = (fs.inode hd.inode).size ↔
        (fs.inode hd.inode).size = 0 ∨ hd.offset = 0) ∧
      (content.length = (fs.inode hd.inode).size → content = (fs.inode hd.inode).content) := by
  unfold Kernel.read
  rw [htable]
  dsimp only
  rcases hoffset with hzero | hend
  · rw [hzero, Nat.sub_zero, Nat.min_self, Nat.zero_add]
    refine ⟨_, rfl, ?_, fun _ => rfl⟩
    simp
  · rw [hend, Nat.sub_self, Nat.min_zero, Nat.add_zero]
    refine ⟨_, rfl, ?_, ?_⟩
    · rw [length_fileBytes]
      omega
    · intro hlength
      rw [length_fileBytes] at hlength
      simp [← hlength, File.content, fileBytes]

/-- The content is cached, or the descriptor can still be read. -/
def Statics.Fetchable (s : Statics) (path : Bytes) (file : File) : Prop :=
  file.size = 0 ∨ s.position path = 0 ∨ (s.cache.table.lookup path).isSome = true

/-- A cached content of the right age is found. -/
lemma Coherent.get {content : Bytes} {mtime : Int} (h : Coherent gzip fs s)
    (hlookup : s.cache.table.lookup path = some ⟨content, mtime⟩) :
    ∃ cache, s.cache.get path mtime = (cache, some content) ∧
      Coherent gzip fs { s with cache := cache } := by
  have hhit := FileCache.get_of_lookup hlookup
  refine ⟨(s.cache.get path mtime).1, Prod.ext rfl hhit, h.fds, h.distinct, ?_⟩
  intro k e he
  exact h.cache k e (FileCache.lookup_get he)

lemma get_of_lookup_none {cache : FileCache} {mtime : Int} (h : cache.table.lookup path = none) :
    cache.get path mtime = (cache, none) := by
  simp [FileCache.get, h]

lemma Coherent.put {k content : Bytes} {size : Nat} {mtime : Int} (h : Coherent gzip fs s)
    (hstored : Stored gzip fs k ⟨content, mtime⟩) :
    Coherent gzip fs { s with cache := s.cache.put k content size mtime } where
  fds := h.fds
  distinct := h.distinct
  cache := by
    intro k' e he
    rcases FileCache.lookup_put he with ⟨rfl, rfl⟩ | hold
    · exact hstored
    · exact h.cache k' e hold

/-- A descriptor that was read stands at the end. -/
lemma Coherent.read {e : CachedFd} {hd : Handle} (h : Coherent gzip fs s)
    (htable : s.kernel.table e.fd = some (.file hd)) :
    Coherent gzip fs
      { s with kernel := s.kernel.moveTo e.fd hd (fs.inode hd.inode).size } where
  fds := by
    intro k e' he'
    obtain ⟨i, hd', htree, htable', hinode, hoffset, hrest⟩ := (h.fds k e' he').handle
    by_cases heq : e'.fd = e.fd
    · rw [heq, htable] at htable'
      cases htable'
      refine ⟨i, { hd with offset := (fs.inode hd.inode).size }, htree, ?_, hinode, .inr ?_, hrest⟩
      · rw [heq]
        exact moveTo_table_self _ _ _ _
      · exact congrArg (fun i => (fs.inode i).size) hinode
    · exact ⟨i, hd', htree, (moveTo_table_ne _ _ heq).trans htable', hinode, hoffset, hrest⟩
  distinct := h.distinct
  cache := h.cache

lemma fetch_coherent (hun : fs.Unshadowed) (h : Coherent gzip fs s)
    (htree : fs.tree path = some i) (hentry : ∃ e, s.fds.table.lookup path = some e ∧ e.fd = fd) :
    ∃ s', Coherent gzip fs s' ∧
      (s.Fetchable path (fs.inode i) ∧
          s.fetch fs path fd (fs.inode i).size (fs.inode i).mtime =
            (s', some (fs.inode i).content) ∨
        ¬ s.Fetchable path (fs.inode i) ∧
          s.fetch fs path fd (fs.inode i).size (fs.inode i).mtime = (s', none)) := by
  have hstat : fs.stat path = some (fs.inode i) := by simp [FileSystem.stat, htree]
  unfold Statics.fetch
  rcases hlookup : s.cache.table.lookup path with _ | entry
  · -- the content is not cached: what `read` returns depends on the offset
    obtain ⟨e, he, rfl⟩ := hentry
    obtain ⟨i', hd, htree', htable, hinode, hoffset, -⟩ := (h.fds path e he).handle
    rw [htree] at htree'
    cases htree'
    subst hinode
    have hposition : s.position path = hd.offset := by simp [Statics.position, he, htable]
    obtain ⟨content, hread, hlength, hcontent⟩ := read_whole htable hoffset
    rw [get_of_lookup_none hlookup]
    dsimp only
    rw [hread]
    dsimp only
    by_cases hwhole : content.length = (fs.inode hd.inode).size
    · rw [if_pos hwhole]
      have hfetch : s.Fetchable path (fs.inode hd.inode) := by
        rcases hlength.mp hwhole with hsize | hzero
        · exact .inl hsize
        · exact .inr (.inl (hposition.trans hzero))
      rw [hcontent hwhole]
      exact ⟨_, (h.read htable).put (.inl ⟨_, hstat, rfl⟩), .inl ⟨hfetch, rfl⟩⟩
    · rw [if_neg hwhole]
      refine ⟨_, h.read htable, .inr ⟨?_, rfl⟩⟩
      rintro (hsize | hzero | hcached)
      · exact hwhole (hlength.mpr (.inl hsize))
      · exact hwhole (hlength.mpr (.inr (hposition.symm.trans hzero)))
      · simp [hlookup] at hcached
  · -- the cached content is that of the file
    rw [(h.cache path entry hlookup).plain hun hstat] at hlookup
    obtain ⟨cache, hget, hcoherent⟩ := h.get hlookup
    rw [hget]
    exact ⟨_, hcoherent, .inl ⟨.inr (.inr (by simp [hlookup])), rfl⟩⟩

/-! ## Serving -/

/-- The request will be answered with its file. -/
def Statics.Ready (s : Statics) (req : HttpRequest) (file : File) : Prop :=
  s.Fetchable (staticPath req) file ∨
    acceptsGzip req = true ∧ (s.cache.table.lookup (gzipKey (staticPath req))).isSome = true

lemma serveRaw_coherent (hun : fs.Unshadowed) (h : Coherent gzip fs s)
    (htree : fs.tree path = some i) (hentry : ∃ e, s.fds.table.lookup path = some e ∧ e.fd = fd) :
    ∃ s', Coherent gzip fs s' ∧
      (s.Fetchable path (fs.inode i) ∧
          s.serveRaw fs path fd (fs.inode i).size (fs.inode i).mtime =
            (s', { resp := fileResponse path (fs.inode i).content (fs.inode i).content.length }) ∨
        ¬ s.Fetchable path (fs.inode i) ∧
          s.serveRaw fs path fd (fs.inode i).size (fs.inode i).mtime =
            (s', { resp := serverErrorPage })) := by
  unfold Statics.serveRaw
  obtain ⟨s', hcoherent, ⟨hfetchable, hfetch⟩ | ⟨hnot, hfetch⟩⟩ := fetch_coherent hun h htree hentry
  · rw [hfetch]
    exact ⟨s', hcoherent, .inl ⟨hfetchable, rfl⟩⟩
  · rw [hfetch]
    exact ⟨s', hcoherent, .inr ⟨hnot, rfl⟩⟩

/-- What a client that takes gzip gets of a content. -/
def gzipServed (gzip : Bytes → Option Bytes) (path content : Bytes) : Served :=
  match gzip content with
  | some z => { resp := gzipResponse path z, alreadyCompressed := true }
  | none => { resp := fileResponse path content content.length }

lemma serveGzip_coherent (hun : fs.Unshadowed) (h : Coherent gzip fs s)
    (htree : fs.tree path = some i) (hentry : ∃ e, s.fds.table.lookup path = some e ∧ e.fd = fd) :
    ∃ s', Coherent gzip fs s' ∧
      ((s.Fetchable path (fs.inode i) ∨ (s.cache.table.lookup (gzipKey path)).isSome = true) ∧
          s.serveGzip gzip fs path fd (fs.inode i).size (fs.inode i).mtime =
            (s', gzipServed gzip path (fs.inode i).content) ∨
        ¬ (s.Fetchable path (fs.inode i) ∨
            (s.cache.table.lookup (gzipKey path)).isSome = true) ∧
          s.serveGzip gzip fs path fd (fs.inode i).size (fs.inode i).mtime =
            (s', { resp := serverErrorPage })) := by
  have hstat : fs.stat path = some (fs.inode i) := by simp [FileSystem.stat, htree]
  unfold Statics.serveGzip
  rcases hlookup : s.cache.table.lookup (gzipKey path) with _ | entry
  · rw [get_of_lookup_none hlookup]
    obtain ⟨s', hcoherent, ⟨hfetchable, hfetch⟩ | ⟨hnot, hfetch⟩⟩ :=
      fetch_coherent hun h htree hentry
    · dsimp only
      rw [hfetch]
      unfold gzipServed
      dsimp only
      rcases hz : gzip (fs.inode i).content with _ | z
      · exact ⟨s', hcoherent, .inl ⟨.inl hfetchable, rfl⟩⟩
      · have hstored : Stored gzip fs (gzipKey path) ⟨z, (fs.inode i).mtime⟩ :=
          .inr ⟨path, fs.inode i, z, rfl, hstat, hz, rfl⟩
        exact ⟨_, hcoherent.put hstored, .inl ⟨.inl hfetchable, rfl⟩⟩
    · dsimp only
      rw [hfetch]
      exact ⟨s', hcoherent, .inr ⟨by simpa using hnot, rfl⟩⟩
  · -- the cached content is the compressed one of the file
    obtain ⟨z, hz, hentry'⟩ := (h.cache _ entry hlookup).compressed hun hstat
    rw [hentry'] at hlookup
    obtain ⟨cache, hget, hcoherent⟩ := h.get hlookup
    rw [hget]
    exact ⟨_, hcoherent, .inl ⟨.inr rfl, by simp [gzipServed, hz]⟩⟩

/-- A request for a small file: it is answered with what `inlineFile` makes of the
content, or with a server error. -/
lemma serve_coherent {env : Env} {req : HttpRequest} {o : StaticOracle} {s' : Statics}
    {served : Served} (hun : fs.Unshadowed) (h : Coherent env.gzip fs s)
    (hstat : fs.stat (staticPath req) = some file) (hsmall : file.size ≤ maxInline)
    (hopens : o.fd.isSome = true) (hserve : s.serve env.gzip fs o req = some (s', served)) :
    Coherent env.gzip fs s' ∧
      ((s.Ready req file ∧ served.resp = (inlineFile env req file.content).1 ∧
          served.alreadyCompressed = (inlineFile env req file.content).2) ∨
        (¬ s.Ready req file ∧ served.resp = serverErrorPage)) := by
  obtain ⟨i, htree, rfl⟩ := stat_eq hstat
  obtain ⟨⟨s₁, found⟩, hlocate, heq⟩ := Option.map_eq_some_iff.mp hserve
  obtain ⟨s₁', fd, hr, hlocated⟩ := locate_coherent h htree hopens hlocate
  cases hr
  have hfetchable : s₁.Fetchable (staticPath req) (fs.inode i) ↔
      s.Fetchable (staticPath req) (fs.inode i) := by
    unfold Statics.Fetchable
    rw [hlocated.position, hlocated.cache]
  dsimp only at heq
  unfold Statics.Ready
  by_cases hgzip : acceptsGzip req = true
  · rw [if_pos ⟨hgzip, hsmall⟩] at heq
    obtain ⟨s₂, hcoherent, hserved⟩ :=
      serveGzip_coherent hun hlocated.coherent htree hlocated.entry
    rw [heq, hfetchable, hlocated.cache] at hserved
    simp only [hgzip, true_and]
    rcases hserved with ⟨hready, hserved⟩ | ⟨hnot, hserved⟩
    · cases hserved
      refine ⟨hcoherent, .inl ⟨hready, ?_⟩⟩
      unfold gzipServed inlineFile
      rw [if_pos hgzip]
      rcases env.gzip (fs.inode i).content with _ | z
      · exact ⟨rfl, rfl⟩
      · exact ⟨rfl, rfl⟩
    · cases hserved
      exact ⟨hcoherent, .inr ⟨hnot, rfl⟩⟩
  · rw [if_neg (fun hboth => hgzip hboth.1), if_pos hsmall] at heq
    obtain ⟨s₂, hcoherent, hserved⟩ :=
      serveRaw_coherent hun hlocated.coherent htree hlocated.entry
    rw [heq, hfetchable] at hserved
    simp only [hgzip, Bool.false_eq_true, false_and, or_false]
    rcases hserved with ⟨hready, hserved⟩ | ⟨hnot, hserved⟩
    · cases hserved
      refine ⟨hcoherent, .inl ⟨hready, ?_⟩⟩
      unfold inlineFile
      rw [if_neg hgzip]
      exact ⟨rfl, rfl⟩
    · cases hserved
      exact ⟨hcoherent, .inr ⟨hnot, rfl⟩⟩

end

/-! ## Framing -/

section

variable {env : Env} {keepAlive : Bool} {fresh : Fresh} {req : HttpRequest}

lemma contentEncoding_signed (headers : Headers) :
    (signedHeaders keepAlive fresh req headers).lookup (ascii "Content-Encoding") =
      headers.lookup (ascii "Content-Encoding") := by
  have hnames : ascii "Content-Encoding" ≠ ascii "Server" ∧
      ascii "Content-Encoding" ≠ ascii "Connection" ∧
      ascii "Content-Encoding" ≠ ascii "Traceparent" ∧
      ascii "Content-Encoding" ≠ ascii "X-Trace-Id" := by simp [ascii]
  rw [signedHeaders, AList.lookup_insert_ne hnames.1, AList.lookup_insert_ne hnames.2.1,
    lookup_insertIfAbsent_ne _ hnames.2.2.1, lookup_insertIfAbsent_ne _ hnames.2.2.2]

lemma contentEncoding_withTrace (resp : HttpResponse) :
    (withTrace fresh req resp).headers.lookup (ascii "Content-Encoding") =
      resp.headers.lookup (ascii "Content-Encoding") := by
  have hnames : ascii "Content-Encoding" ≠ ascii "Traceparent" ∧
      ascii "Content-Encoding" ≠ ascii "X-Trace-Id" := by simp [ascii]
  rw [withTrace, lookup_insertIfAbsent_ne _ hnames.1, AList.lookup_insert_ne hnames.2]

/-- What `inlineFile` makes of a content is the content, up to gzip. -/
lemma fileServed_inlineFile {gunzip : Bytes → Bytes} {file : File} {served : Served}
    (hzlib : ∀ b z, env.gzip b = some z → gunzip z = b)
    (hresp : served.resp = (inlineFile env req file.content).1)
    (halready : served.alreadyCompressed = (inlineFile env req file.content).2) :
    FileServed gunzip file (clientFile env keepAlive fresh req served) := by
  have hnames : ascii "Content-Encoding" ≠ ascii "Content-Length" ∧
      ascii "Content-Encoding" ≠ ascii "Content-Type" := by simp [ascii]
  have hplain (path body : Bytes) (n : Nat) :
      (fileResponse path body n).headers.lookup (ascii "Content-Encoding") = none := by
    rw [fileResponse, AList.lookup_insert_ne hnames.1, AList.lookup_insert_ne hnames.2]
    rfl
  unfold inlineFile at hresp halready
  unfold clientFile
  rcases hz : (if acceptsGzip req = true then env.gzip file.content else none) with _ | z
  · -- the content as it is; `finalize_response` may compress it
    rw [hz] at hresp halready
    dsimp only at hresp halready
    rw [hresp, halready]
    rcases frameResponse_cases env.gzip keepAlive fresh req false
      (show (withTrace fresh req (fileResponse (staticPath req) file.content
        file.content.length)).chunked = false from rfl) with hframed | ⟨z, -, hgzip, hframed⟩
    · rw [hframed]
      refine ⟨rfl, ?_⟩
      unfold plainBody
      rw [contentEncoding_signed, contentEncoding_withTrace, hplain, if_neg (by simp)]
      rfl
    · rw [hframed]
      refine ⟨rfl, ?_⟩
      unfold plainBody
      rw [AList.lookup_insert_ne hnames.1, AList.lookup_insert, if_pos rfl]
      exact hzlib file.content z hgzip
  · rw [hz] at hresp halready
    dsimp only at hresp halready
    have hgzip : env.gzip file.content = some z := by
      split at hz
      · exact hz
      · cases hz
    rw [hresp, halready]
    rcases frameResponse_cases env.gzip keepAlive fresh req true
      (show (withTrace fresh req (gzipResponse (staticPath req) z)).chunked = false from rfl) with
      hframed | ⟨z', hfalse, -⟩
    · unfold gzipResponse at hframed
      dsimp only at hframed
      rw [hframed]
      refine ⟨rfl, ?_⟩
      unfold plainBody
      rw [contentEncoding_signed, contentEncoding_withTrace, AList.lookup_insert, if_pos rfl]
      exact hzlib file.content z hgzip
    · cases hfalse

/-- A server error is no file. -/
lemma not_fileServed_error {gunzip : Bytes → Bytes} {file : File} {served : Served}
    (hresp : served.resp = serverErrorPage) :
    ¬ FileServed gunzip file (clientFile env keepAlive fresh req served) := by
  rintro ⟨hstatus, -⟩
  unfold clientFile at hstatus
  rw [hresp] at hstatus
  rcases frameResponse_cases env.gzip keepAlive fresh req served.alreadyCompressed
    (show (withTrace fresh req serverErrorPage).chunked = false from rfl) with
    hframed | ⟨z, -, -, hframed⟩
  · rw [hframed] at hstatus
    exact absurd (show (500 : Int) = 200 from hstatus) (by decide)
  · rw [hframed] at hstatus
    exact absurd (show (500 : Int) = 200 from hstatus) (by decide)

end

/-! ## Every sequence of requests -/

lemma coherent_init (gzip : Bytes → Option Bytes) (fs : FileSystem) (limits : CacheLimits)
    (kernel : Kernel) :
    Coherent gzip fs { cache := FileCache.new limits, kernel := kernel } where
  fds := by
    intro path e he
    cases he
  distinct := by
    intro path path' e e' he
    cases he
  cache := by
    intro k e he
    cases he

lemma coherent_run {env : Env} {fs : FileSystem} {limits : CacheLimits} {kernel : Kernel}
    {ls : List (HttpRequest × StaticOracle)} {s : Statics} (hun : fs.Unshadowed)
    (hrun : Run (getStep env.gzip fs) (GetsSmall fs)
      { cache := FileCache.new limits, kernel := kernel } ls s) : Coherent env.gzip fs s := by
  refine hrun.invariant (coherent_init env.gzip fs limits kernel) ?_
  rintro t ⟨req, o⟩ u ht ⟨-, ⟨file, hfile, hsmall⟩, hopens⟩ hu
  obtain ⟨⟨u', served⟩, hserve, rfl⟩ := Option.map_eq_some_iff.mp hu
  exact (serve_coherent hun ht hfile hsmall hopens hserve).1

/-- **The caches serve the files.** Over a file system without shadowed paths, after any
sequence of requests for small files: the next one is answered with its file exactly if
its content is cached, or its descriptor is not in the cache or was not read yet, or the
file is empty. -/
theorem file_served_iff {env : Env} {fs : FileSystem} {limits : CacheLimits} {kernel : Kernel}
    {gunzip : Bytes → Bytes} {ls : List (HttpRequest × StaticOracle)} {s s' : Statics}
    {req : HttpRequest} {o : StaticOracle} {served : Served} {file : File}
    (hzlib : ∀ b z, env.gzip b = some z → gunzip z = b) (hun : fs.Unshadowed)
    (hrun : Run (getStep env.gzip fs) (GetsSmall fs)
      { cache := FileCache.new limits, kernel := kernel } ls s)
    (hget : SmallGet fs (req, o)) (hstat : fs.stat (staticPath req) = some file)
    (hserve : s.serve env.gzip fs o req = some (s', served)) (keepAlive : Bool) (fresh : Fresh) :
    FileServed gunzip file (clientFile env keepAlive fresh req served) ↔ s.Ready req file := by
  obtain ⟨-, ⟨file', hfile', hsmall⟩, hopens⟩ := hget
  have heq : file' = file := Option.some.inj (Option.mem_def.mp hfile' ▸ hstat)
  subst heq
  obtain ⟨-, ⟨hready, hresp, halready⟩ | ⟨hnot, hresp⟩⟩ :=
    serve_coherent hun (coherent_run hun hrun) hstat hsmall hopens hserve
  · constructor
    · intro _
      exact hready
    · intro _
      exact fileServed_inlineFile hzlib hresp halready
  · constructor
    · intro hserved
      exact absurd hserved (not_fileServed_error hresp)
    · intro hready
      exact absurd hready hnot

/-! ## Two files -/

/-- A file of one byte. -/
def byteFile (b : UInt8) : File := { size := 1, byte := fun _ => b, mtime := 7 }

/-- Two paths with a file each, of the bytes 120 and 121. -/
def twoFiles (path path' : Bytes) : FileSystem :=
  { tree := fun p => if p = path then some 0 else if p = path' then some 1 else none
    inode := fun i => byteFile (if i = 0 then 120 else 121) }

def getRequest (path : Bytes) : HttpRequest := { method := ascii "GET", path := path }

def gzipRequest (path : Bytes) : HttpRequest :=
  { getRequest path with headers := (∅ : Headers).insert (ascii "accept-encoding") (ascii "gzip") }

def twoEntries : CacheLimits := ⟨2, 1, Nat.two_pos, Nat.one_pos⟩

/-- A compressor that puts a byte in front. -/
def tagEnv : Env := { routes := [], gzip := fun b => some (31 :: b) }

lemma unshadowed_twoFiles : (twoFiles (ascii "/a") (ascii "/b")).Unshadowed := by
  have hkeys : ∀ p ∈ [ascii "/a", ascii "/b"], gzipKey p ∉ [ascii "/a", ascii "/b"] := by
    decide +kernel
  have htree {p : Bytes} (h : p ∉ [ascii "/a", ascii "/b"]) :
      (twoFiles (ascii "/a") (ascii "/b")).tree p = none := by
    simp only [List.mem_cons, List.not_mem_nil, or_false, not_or] at h
    simp [twoFiles, h.1, h.2]
  intro p hp
  by_cases hmem : p ∈ [ascii "/a", ascii "/b"]
  · exact htree (hkeys p hmem)
  · rw [htree hmem] at hp
    cases hp

/-- With room for both contents, the first file is served again from the cache. -/
theorem file_served_cached :
    ∃ s s' served, Run (getStep tagEnv.gzip (twoFiles (ascii "/a") (ascii "/b")))
      (GetsSmall (twoFiles (ascii "/a") (ascii "/b"))) { cache := FileCache.new twoEntries }
      [(getRequest (ascii "/a"), { fd := some 3 }), (getRequest (ascii "/b"), { fd := some 4 })] s ∧
      s.serve tagEnv.gzip (twoFiles (ascii "/a") (ascii "/b")) { fd := some 5 }
        (getRequest (ascii "/a")) = some (s', served) ∧
      FileServed List.tail (byteFile 120)
        (clientFile tagEnv true {} (getRequest (ascii "/a")) served) := by
  obtain ⟨s, hrun, heq⟩ :
      ∃ s, Run (getStep tagEnv.gzip (twoFiles (ascii "/a") (ascii "/b")))
        (GetsSmall (twoFiles (ascii "/a") (ascii "/b"))) { cache := FileCache.new twoEntries }
        [(getRequest (ascii "/a"), { fd := some 3 }), (getRequest (ascii "/b"), { fd := some 4 })]
        s ∧
        ((s.cache.table.lookup (ascii "/a")).isSome,
          (s.serve tagEnv.gzip (twoFiles (ascii "/a") (ascii "/b")) { fd := some 5 }
            (getRequest (ascii "/a"))).isSome) = (true, true) :=
    exists_run_of_exec (by decide +kernel)
  simp only [Prod.mk.injEq] at heq
  obtain ⟨⟨s', served⟩, hserve⟩ := Option.isSome_iff_exists.mp heq.2
  have hstat : (twoFiles (ascii "/a") (ascii "/b")).stat (staticPath (getRequest (ascii "/a"))) =
      some (byteFile 120) := by
    simp [FileSystem.stat, twoFiles, staticPath, getRequest, ascii]
  have hget : SmallGet (twoFiles (ascii "/a") (ascii "/b"))
      (getRequest (ascii "/a"), { fd := some 5 }) :=
    ⟨rfl, ⟨byteFile 120, hstat, by decide⟩, rfl⟩
  refine ⟨s, s', served, hrun, hserve, ?_⟩
  refine (file_served_iff ?_ unshadowed_twoFiles hrun hget hstat hserve true {}).mpr ?_
  · intro b z hz
    cases hz
    rfl
  · exact .inl (.inr (.inr (by simpa [staticPath, getRequest, ascii] using heq.1)))

/-- The two ways in which a file is not served. With room for one content, the second
request for a file finds its descriptor at the end. And the compressed content of one
file is served as that of another. -/
theorem file_not_served :
    (∃ s s' served, Run (getStep tagEnv.gzip (twoFiles (ascii "/a") (ascii "/b")))
      (GetsSmall (twoFiles (ascii "/a") (ascii "/b"))) { cache := FileCache.new oneEntry }
      [(getRequest (ascii "/a"), { fd := some 3 }), (getRequest (ascii "/b"), { fd := some 4 })] s ∧
      s.serve tagEnv.gzip (twoFiles (ascii "/a") (ascii "/b")) { fd := some 5 }
        (getRequest (ascii "/a")) = some (s', served) ∧
      (clientFile tagEnv true {} (getRequest (ascii "/a")) served).statusCode = 500) ∧
    (∃ s s' served, Run (getStep tagEnv.gzip (twoFiles (ascii "/a") (ascii "/a#gzip")))
      (GetsSmall (twoFiles (ascii "/a") (ascii "/a#gzip"))) { cache := FileCache.new twoEntries }
      [(gzipRequest (ascii "/a"), { fd := some 3 })] s ∧
      s.serve tagEnv.gzip (twoFiles (ascii "/a") (ascii "/a#gzip")) { fd := some 5 }
        (getRequest (ascii "/a#gzip")) = some (s', served) ∧
      (clientFile tagEnv true {} (getRequest (ascii "/a#gzip")) served).statusCode = 200 ∧
      plainBody List.tail (clientFile tagEnv true {} (getRequest (ascii "/a#gzip")) served) ≠
        (byteFile 121).content) := by
  constructor
  · obtain ⟨s, hrun, heq⟩ :
        ∃ s, Run (getStep tagEnv.gzip (twoFiles (ascii "/a") (ascii "/b")))
          (GetsSmall (twoFiles (ascii "/a") (ascii "/b"))) { cache := FileCache.new oneEntry }
          [(getRequest (ascii "/a"), { fd := some 3 }),
            (getRequest (ascii "/b"), { fd := some 4 })] s ∧
          ((s.serve tagEnv.gzip (twoFiles (ascii "/a") (ascii "/b")) { fd := some 5 }
            (getRequest (ascii "/a"))).map fun r =>
              (clientFile tagEnv true {} (getRequest (ascii "/a")) r.2).statusCode) = some 500 :=
      exists_run_of_exec (by decide +kernel)
    obtain ⟨⟨s', served⟩, hserve, hstatus⟩ := Option.map_eq_some_iff.mp heq
    exact ⟨s, s', served, hrun, hserve, hstatus⟩
  · obtain ⟨s, hrun, heq⟩ :
        ∃ s, Run (getStep tagEnv.gzip (twoFiles (ascii "/a") (ascii "/a#gzip")))
          (GetsSmall (twoFiles (ascii "/a") (ascii "/a#gzip")))
          { cache := FileCache.new twoEntries } [(gzipRequest (ascii "/a"), { fd := some 3 })] s ∧
          ((s.serve tagEnv.gzip (twoFiles (ascii "/a") (ascii "/a#gzip")) { fd := some 5 }
            (getRequest (ascii "/a#gzip"))).map fun r =>
              ((clientFile tagEnv true {} (getRequest (ascii "/a#gzip")) r.2).statusCode,
                plainBody List.tail
                  (clientFile tagEnv true {} (getRequest (ascii "/a#gzip")) r.2))) =
            some (200, [31, 120]) :=
      exists_run_of_exec (by decide +kernel)
    obtain ⟨⟨s', served⟩, hserve, hresp⟩ := Option.map_eq_some_iff.mp heq
    simp only [Prod.mk.injEq] at hresp
    refine ⟨s, s', served, hrun, hserve, hresp.1, ?_⟩
    rw [hresp.2]
    decide

end EpollGateway.Static
