import EpollGateway.Static.Files

/-! # The static path of `send_response`

A request without a route is answered with a file below the document root. The
descriptor comes from `FdCache`, after a look at the clock, or from `open`; the content
of a small file comes from `FileCache`, or from `read` on that descriptor. A large file
is not read: its descriptor is left for `handle_write`.
-/

namespace EpollGateway.Static

open Bytes Http Handler

/-- The caches of a worker, and the kernel. -/
structure Statics where
  fds : FdCache := {}
  cache : FileCache
  kernel : Kernel := {}

/-- What a request takes from its surroundings: the clock, once for `try_get` and once
for `validate` or `put`, and what `open` returns. -/
structure StaticOracle where
  now : Int := 0
  later : Int := 0
  fd : Option Nat := none

/-- What is known of a file before its content is fetched. -/
inductive Found where
  | missing
  | unreadable
  | file (fd size : Nat) (mtime : Int)

/-- The descriptor for a path. There is no result when `open` would return a number
that is in use. -/
def Statics.locate (fs : FileSystem) (o : StaticOracle) (path : Bytes) (s : Statics) :
    Option (Statics × Found) :=
  match s.fds.tryGet path o.now with
  | (fds, some e) => some ({ s with fds := fds }, .file e.fd e.fileSize e.mtime)
  | (fds, none) =>
    match fs.tree path with
    | none => some ({ s with fds := fds }, .missing)
    | some i =>
      let st := fs.inode i
      match fds.validate path st.mtime o.later with
      | (fds, some fd, _) => some ({ s with fds := fds }, .file fd st.size st.mtime)
      | (fds, none, closed) =>
        let kernel := s.kernel.closeAll closed
        match o.fd with
        | none => some ({ s with fds := fds, kernel := kernel }, .unreadable)
        | some fd =>
          if (kernel.table fd).isSome then none
          else
            let (fds, evicted) := fds.put path fd st.mtime st.size o.later
            some ({ s with fds := fds, kernel := (kernel.openFile fd path i).closeAll evicted },
              .file fd st.size st.mtime)

/-- The plain content of a small file: cached, or read from the descriptor and cached.
A read that does not return the whole file is an error. -/
def Statics.fetch (fs : FileSystem) (path : Bytes) (fd size : Nat) (mtime : Int) (s : Statics) :
    Statics × Option Bytes :=
  match s.cache.get path mtime with
  | (cache, some content) => ({ s with cache := cache }, some content)
  | (cache, none) =>
    match s.kernel.read fs fd size with
    | (kernel, some content) =>
      if content.length = size then
        ({ s with cache := cache.put path content size mtime, kernel := kernel }, some content)
      else ({ s with cache := cache, kernel := kernel }, none)
    | (kernel, none) => ({ s with cache := cache, kernel := kernel }, none)

/-- The response of the static path, before `finalize_response`, with
`already_compressed` and the file that is to be sent behind the header. -/
structure Served where
  resp : HttpResponse
  alreadyCompressed : Bool := false
  file : Option FileSlot := none

def serverErrorPage : HttpResponse :=
  htmlResponse 500 "Internal Server Error" (ascii "Internal Server Error")

def gzipKey (path : Bytes) : Bytes := path ++ ascii "#gzip"

/-- A response with a compressed body. -/
def gzipResponse (path compressed : Bytes) : HttpResponse :=
  let resp := fileResponse path compressed compressed.length
  { resp with headers := resp.headers.insert (ascii "Content-Encoding") (ascii "gzip") }

/-- A small file for a client that takes gzip. -/
def Statics.serveGzip (gzip : Bytes → Option Bytes) (fs : FileSystem) (path : Bytes)
    (fd size : Nat) (mtime : Int) (s : Statics) : Statics × Served :=
  match s.cache.get (gzipKey path) mtime with
  | (cache, some compressed) =>
    ({ s with cache := cache }, { resp := gzipResponse path compressed, alreadyCompressed := true })
  | (cache, none) =>
    match ({ s with cache := cache } : Statics).fetch fs path fd size mtime with
    | (s, none) => (s, { resp := serverErrorPage })
    | (s, some raw) =>
      match gzip raw with
      | some compressed =>
        ({ s with cache := s.cache.put (gzipKey path) compressed compressed.length mtime },
          { resp := gzipResponse path compressed, alreadyCompressed := true })
      | none => (s, { resp := fileResponse path raw raw.length })

/-- A small file as it is. -/
def Statics.serveRaw (fs : FileSystem) (path : Bytes) (fd size : Nat) (mtime : Int)
    (s : Statics) : Statics × Served :=
  match s.fetch fs path fd size mtime with
  | (s, none) => (s, { resp := serverErrorPage })
  | (s, some raw) => (s, { resp := fileResponse path raw raw.length })

/-- The static path, for a method and a path that it takes. -/
def Statics.serve (gzip : Bytes → Option Bytes) (fs : FileSystem) (o : StaticOracle)
    (req : HttpRequest) (s : Statics) : Option (Statics × Served) :=
  (s.locate fs o (staticPath req)).map fun (s, found) =>
    match found with
    | .missing => (s, { resp := notFoundPage })
    | .unreadable => (s, { resp := serverErrorPage })
    | .file fd size mtime =>
      if acceptsGzip req ∧ size ≤ maxInline then
        s.serveGzip gzip fs (staticPath req) fd size mtime
      else if size ≤ maxInline then s.serveRaw fs (staticPath req) fd size mtime
      else
        (s, { resp := fileResponse (staticPath req) [] size, file := some ⟨fd, 0, size⟩ })

/-! ## What `locate` can do -/

/-- Entries of the two tables that agree in what matters: all but the time of the last
validation. -/
def SameEntries (t t' : Lru.Table Bytes CachedFd) : Prop :=
  ∀ k, (t'.lookup k).map (fun e => (e.fd, e.fileSize, e.mtime)) =
    (t.lookup k).map fun e => (e.fd, e.fileSize, e.mtime)

/-- How a descriptor is found: in the cache, with the entry as it is or validated again;
or there is none; or a new one is opened, after a stale entry was dropped, and takes the
place of the oldest ones. -/
inductive Locates (fs : FileSystem) (o : StaticOracle) (path : Bytes) (s : Statics) :
    Statics × Found → Prop where
  | hit {fds : FdCache} {e : CachedFd} : SameEntries s.fds.table fds.table →
      s.fds.table.lookup path = some e → (s.fds.tryGet path o.now).2 = some e →
      Locates fs o path s ({ s with fds := fds }, .file e.fd e.fileSize e.mtime)
  | valid {fds : FdCache} {e : CachedFd} {i : Nat} : SameEntries s.fds.table fds.table →
      s.fds.table.lookup path = some e → fs.tree path = some i → e.mtime = (fs.inode i).mtime →
      Locates fs o path s ({ s with fds := fds },
        .file e.fd (fs.inode i).size (fs.inode i).mtime)
  | missing {fds : FdCache} : SameEntries s.fds.table fds.table → fs.tree path = none →
      Locates fs o path s ({ s with fds := fds }, .missing)
  | unreadable {i : Nat} : fs.tree path = some i → (∀ e, s.fds.table.lookup path = some e →
        e.mtime ≠ (fs.inode i).mtime) → (s.fds.tryGet path o.now).2 = none → o.fd = none →
      Locates fs o path s
        ({ s with
          fds := ⟨s.fds.table.erase path⟩
          kernel := s.kernel.closeAll ((s.fds.table.lookup path).toList.map CachedFd.fd) },
          .unreadable)
  | opened {i fd : Nat} : fs.tree path = some i → (∀ e, s.fds.table.lookup path = some e →
        e.mtime ≠ (fs.inode i).mtime) → (s.fds.tryGet path o.now).2 = none → o.fd = some fd →
      (s.kernel.closeAll ((s.fds.table.lookup path).toList.map CachedFd.fd)).table fd = none →
      Locates fs o path s
        ({ s with
          fds := ⟨(Lru.keep (fdCacheMaxEntries - 1) (s.fds.table.erase path)).insert path
            ⟨fd, (fs.inode i).size, (fs.inode i).mtime, o.later⟩⟩
          kernel :=
            ((s.kernel.closeAll ((s.fds.table.lookup path).toList.map CachedFd.fd)).openFile
              fd path i).closeAll
              (((s.fds.table.erase path).entries.drop (fdCacheMaxEntries - 1)).map
                fun e => e.2.fd) },
          .file fd (fs.inode i).size (fs.inode i).mtime)

lemma FdCache.tryGet_none {c : FdCache} {path : Bytes} {now : Int}
    (h : (c.tryGet path now).2 = none) : (c.tryGet path now).1 = c := by
  unfold FdCache.tryGet at h ⊢
  split
  · rfl
  · rename_i e hlookup
    rw [hlookup] at h
    dsimp only at h
    split
    · rename_i hfresh
      rw [if_pos hfresh] at h
      cases h
    · rfl

/-- No entry, or a stale one: it is dropped and closed. -/
lemma FdCache.validate_stale {c : FdCache} {path : Bytes} {mtime : Int} (now : Int)
    (h : ∀ e, c.table.lookup path = some e → e.mtime ≠ mtime) :
    c.validate path mtime now =
      (⟨c.table.erase path⟩, none, (c.table.lookup path).toList.map CachedFd.fd) := by
  unfold FdCache.validate
  rcases hlookup : c.table.lookup path with _ | e
  · rw [Lru.erase_of_lookup_none hlookup]
    rfl
  · dsimp only
    rw [if_pos (h e hlookup)]
    rfl

lemma FdCache.validate_valid {c : FdCache} {path : Bytes} {mtime : Int} {e : CachedFd} (now : Int)
    (hlookup : c.table.lookup path = some e) (h : e.mtime = mtime) :
    c.validate path mtime now =
      (⟨c.table.insert path { e with validatedAt := now }⟩, some e.fd, []) := by
  unfold FdCache.validate
  rw [hlookup]
  dsimp only
  rw [if_neg (not_not.mpr h)]

lemma FdCache.put_erased (t : Lru.Table Bytes CachedFd) (path : Bytes) (fd : Nat) (mtime : Int)
    (fileSize : Nat) (now : Int) :
    (FdCache.mk (t.erase path)).put path fd mtime fileSize now =
      (⟨(Lru.keep (fdCacheMaxEntries - 1) (t.erase path)).insert path ⟨fd, fileSize, mtime, now⟩⟩,
        ((t.erase path).entries.drop (fdCacheMaxEntries - 1)).map fun e => e.2.fd) := by
  have hnone : (t.erase path).lookup path = none := AList.lookup_erase path t
  unfold FdCache.put
  dsimp only
  rw [hnone, Lru.erase_of_lookup_none hnone]
  rfl

lemma locate_cases {fs : FileSystem} {o : StaticOracle} {path : Bytes} {s : Statics}
    {r : Statics × Found} (h : s.locate fs o path = some r) : Locates fs o path s r := by
  unfold Statics.locate at h
  rcases htry : s.fds.tryGet path o.now with ⟨fds, _ | e⟩
  · have hnone : (s.fds.tryGet path o.now).2 = none := by rw [htry]
    have hfds : fds = s.fds := by
      rw [← FdCache.tryGet_none hnone, htry]
    subst hfds
    simp only [htry] at h
    rcases htree : fs.tree path with _ | i
    · simp only [htree, Option.some.injEq] at h
      rw [← h]
      exact .missing (fun _ => rfl) htree
    · simp only [htree] at h
      by_cases hstale : ∀ e, s.fds.table.lookup path = some e → e.mtime ≠ (fs.inode i).mtime
      · rw [FdCache.validate_stale o.later hstale] at h
        dsimp only at h
        rcases hfd : o.fd with _ | fd
        · simp only [hfd, Option.some.injEq] at h
          rw [← h]
          exact .unreadable htree hstale hnone hfd
        · simp only [hfd] at h
          split at h
          · cases h
          · rename_i hfree
            rw [FdCache.put_erased, Option.some.injEq] at h
            rw [← h]
            exact .opened htree hstale hnone hfd (by simpa using hfree)
      · -- there is an entry, and it is as old as the file
        push Not at hstale
        obtain ⟨e, hlookup, hmtime⟩ := hstale
        rw [FdCache.validate_valid o.later hlookup hmtime, Option.some.injEq] at h
        rw [← h]
        refine .valid ?_ hlookup htree hmtime
        intro k
        by_cases hk : k = path
        · subst hk
          rw [AList.lookup_insert, hlookup]
          rfl
        · rw [AList.lookup_insert_ne hk]
  · simp only [htry, Option.some.injEq] at h
    rw [← h]
    have hsome : (s.fds.tryGet path o.now).2 = some e := by rw [htry]
    refine .hit ?_ (FdCache.tryGet_some hsome) hsome
    intro k
    have hsame := s.fds.lookup_tryGet path o.now k
    rw [htry] at hsame
    rw [hsame]

end EpollGateway.Static
