import EpollGateway.Static.Serve
import EpollGateway.Lib.Run

/-! # Descriptors that are being sent

The descriptor of a large file is written down in `file_fds_` when its response is made,
and `handle_write` sends from it in as many turns as it takes. It belongs to `FdCache`
all that time, and `FdCache` closes it when it finds that the file was modified, or when
enough other files have been opened since its last use. Nothing there knows of
`file_fds_`, and a number that was closed may be given to another file or to a socket
at once.

A step leaves every transfer alone exactly if none of the descriptors that it closes is
being sent (`transfers_undisturbed`).
-/

namespace EpollGateway.Static

open Bytes Http Handler Machine Function

/-! ## A worker that sends files -/

/-- An entry of `file_fds_`, `file_offsets_` and `file_sizes_`. The path and the serial
number of the file that was selected are not in the source. -/
structure Transfer where
  slot : FileSlot
  path : Bytes
  serial : Nat

/-- The caches, the files, and what each connection is sending. -/
structure Sender where
  statics : Statics
  fs : FileSystem
  sends : Nat → Option Transfer := fun _ => none

/-- What can happen to a worker: a request on the static path; part of a file is sent;
a transfer ends, because it is complete, or fails, or its connection is cleaned up, or
the next response of the connection has no body; the files change; another part of the
program takes a descriptor or closes one of its own; the worker ends. -/
inductive Move where
  | request (conn : Nat) (req : HttpRequest) (o : StaticOracle)
  | sent (conn n : Nat)
  | release (conn : Nat)
  | modify (fs : FileSystem)
  | acquire (fd : Nat)
  | dispose (fd : Nat)
  | shutdown

/-- The serial number of what is open under a number. -/
def Kernel.serialOf (k : Kernel) (fd : Nat) : Nat :=
  match k.table fd with
  | some (.file h) => h.serial
  | _ => k.opens

/-- What a connection sends behind a response of the static path. `finalize_response`
takes the entry back when there is no body to send. -/
def selected (kernel : Kernel) (req : HttpRequest) (served : Served) (before : Option Transfer) :
    Option Transfer :=
  if req.method = ascii "HEAD" then none
  else
    match served.file with
    | some slot => some ⟨slot, staticPath req, kernel.serialOf slot.fd⟩
    | none => before

def Sender.step (gzip : Bytes → Option Bytes) : Move → Sender → Option Sender
  | .request conn req o, w =>
    (w.statics.serve gzip w.fs o req).map fun (statics, served) =>
      { w with
        statics := statics
        sends := update w.sends conn
          (selected statics.kernel req served (w.sends conn)) }
  | .sent conn n, w =>
    (w.sends conn).map fun t =>
      { w with
        sends := update w.sends conn
          (some { t with slot := { t.slot with offset := t.slot.offset + n } }) }
  | .release conn, w => some { w with sends := update w.sends conn none }
  | .modify fs, w => some { w with fs := fs }
  | .acquire fd, w =>
    match w.statics.kernel.table fd with
    | some _ => none
    | none =>
      some { w with
        statics.kernel.table := update w.statics.kernel.table fd (some .other) }
  | .dispose fd, w =>
    match w.statics.kernel.table fd with
    | some .other =>
      some { w with statics.kernel := w.statics.kernel.close fd }
    | _ => none
  | .shutdown, w =>
    -- the connections go first, and the destructor of `FdCache` calls `clear`
    some { w with
      statics := { w.statics with
        fds := w.statics.fds.clear.1
        kernel := w.statics.kernel.closeAll w.statics.fds.clear.2 }
      sends := fun _ => none }

/-- The descriptor of a transfer is open, and it is the one that was opened for its file. -/
def Held (k : Kernel) (t : Transfer) : Prop :=
  ∃ h, k.table t.slot.fd = some (.file h) ∧ h.path = t.path ∧ h.serial = t.serial

/-- A step leaves the transfers alone: those that there are behind it, and those that
there were before it, unless the worker has ended. -/
structure Undisturbed (w : Sender) (l : Move) (w' : Sender) : Prop where
  behind : ∀ conn t, w'.sends conn = some t → Held w'.statics.kernel t
  before : l ≠ .shutdown → ∀ conn t, w.sends conn = some t → Held w'.statics.kernel t

/-- The descriptors that a request for a path closes: none if the cached entry is fresh or
as old as the file; otherwise that of the stale entry, and, if the file is opened, those
of the entries behind the 255 that were used last. -/
def Statics.victims (s : Statics) (fs : FileSystem) (o : StaticOracle) (path : Bytes) : List Nat :=
  if (s.fds.tryGet path o.now).2.isSome then []
  else
    match fs.tree path with
    | none => []
    | some i =>
      if (s.fds.table.lookup path).any (fun e => e.mtime = (fs.inode i).mtime) then []
      else
        (s.fds.table.lookup path).toList.map CachedFd.fd ++
          if o.fd.isSome then
            ((s.fds.table.erase path).entries.drop (fdCacheMaxEntries - 1)).map fun e => e.2.fd
          else []

/-- No descriptor that the step closes is being sent. -/
def Spares (w : Sender) : Move → Prop
  | .request _ req o =>
    ∀ fd ∈ w.statics.victims w.fs o (staticPath req), ∀ conn t, w.sends conn = some t →
      t.slot.fd ≠ fd
  | _ => True

/-! ## What a request does to the descriptors -/

/-- The same files are open under the same numbers; offsets may differ. -/
structure SameFiles (k k' : Kernel) : Prop where
  opens : k'.opens = k.opens
  table : ∀ fd, k'.table fd = k.table fd ∨
    ∃ h offset, k.table fd = some (.file h) ∧ k'.table fd = some (.file { h with offset := offset })

lemma SameFiles.refl (k : Kernel) : SameFiles k k := ⟨rfl, fun _ => .inl rfl⟩

variable {k k' : Kernel} {s : Statics}
  {fd : Nat} {gzip : Bytes → Option Bytes} {fs : FileSystem} {o : StaticOracle}
  {req : HttpRequest}

lemma SameFiles.back (hsame : SameFiles k k') {h : Handle} (hfd : k'.table fd = some (.file h)) :
    ∃ h₀, k.table fd = some (.file h₀) ∧ h.path = h₀.path ∧ h.serial = h₀.serial := by
  rcases hsame.table fd with heq | ⟨h₀, offset, hbefore, hafter⟩
  · exact ⟨h, heq ▸ hfd, rfl, rfl⟩
  · rw [hafter] at hfd
    cases hfd
    exact ⟨h₀, hbefore, rfl, rfl⟩

lemma SameFiles.forth (hsame : SameFiles k k') {h : Handle} (hfd : k.table fd = some (.file h)) :
    ∃ h', k'.table fd = some (.file h') ∧ h'.path = h.path ∧ h'.serial = h.serial := by
  rcases hsame.table fd with heq | ⟨h₀, offset, hbefore, hafter⟩
  · exact ⟨h, heq.trans hfd, rfl, rfl⟩
  · rw [hbefore] at hfd
    cases hfd
    exact ⟨_, hafter, rfl, rfl⟩

lemma SameFiles.held_iff (hsame : SameFiles k k') (t : Transfer) : Held k' t ↔ Held k t := by
  constructor
  · rintro ⟨h, hfd, hpath, hserial⟩
    rcases hsame.back hfd with ⟨h₀, hfd₀, hpath₀, hserial₀⟩
    exact ⟨h₀, hfd₀, hpath₀ ▸ hpath, hserial₀ ▸ hserial⟩
  · rintro ⟨h, hfd, hpath, hserial⟩
    rcases hsame.forth hfd with ⟨h', hfd', hpath', hserial'⟩
    exact ⟨h', hfd', hpath'.trans hpath, hserial'.trans hserial⟩

lemma read_sameFiles (k : Kernel) (fs : FileSystem) (fd count : Nat) :
    SameFiles k (k.read fs fd count).1 := by
  unfold Kernel.read
  split
  · rename_i h hfd
    refine ⟨rfl, ?_⟩
    intro fd'
    by_cases heq : fd' = fd
    · subst heq
      exact .inr ⟨h, _, hfd, moveTo_table_self k fd' h _⟩
    · exact .inl (moveTo_table_ne h _ heq)
  · exact SameFiles.refl k

/-- What follows `locate` reads and fills the content cache; it opens and closes nothing. -/
structure Fetched (s s' : Statics) : Prop where
  fds : s'.fds = s.fds
  files : SameFiles s.kernel s'.kernel

lemma fetch_fetched (fs : FileSystem) (path : Bytes) (fd size : Nat) (mtime : Int)
    (s : Statics) : Fetched s (s.fetch fs path fd size mtime).1 := by
  have hread := read_sameFiles s.kernel fs fd size
  unfold Statics.fetch
  rcases s.cache.get path mtime with ⟨cache, _ | content⟩
  · rcases hr : s.kernel.read fs fd size with ⟨kernel, _ | content⟩
    · rw [hr] at hread
      exact ⟨rfl, hread⟩
    · rw [hr] at hread
      dsimp only
      split
      · exact ⟨rfl, hread⟩
      · exact ⟨rfl, hread⟩
  · exact ⟨rfl, SameFiles.refl _⟩

lemma serveRaw_fetched (fs : FileSystem) (path : Bytes) (fd size : Nat) (mtime : Int)
    (s : Statics) :
    Fetched s (s.serveRaw fs path fd size mtime).1 ∧
      (s.serveRaw fs path fd size mtime).2.file = none := by
  have hfetch := fetch_fetched fs path fd size mtime s
  unfold Statics.serveRaw
  rcases hr : s.fetch fs path fd size mtime with ⟨s₁, _ | raw⟩
  · rw [hr] at hfetch
    exact ⟨hfetch, rfl⟩
  · rw [hr] at hfetch
    exact ⟨hfetch, rfl⟩

lemma serveGzip_fetched (gzip : Bytes → Option Bytes) (fs : FileSystem) (path : Bytes)
    (fd size : Nat) (mtime : Int) (s : Statics) :
    Fetched s (s.serveGzip gzip fs path fd size mtime).1 ∧
      (s.serveGzip gzip fs path fd size mtime).2.file = none := by
  unfold Statics.serveGzip
  rcases s.cache.get (gzipKey path) mtime with ⟨cache, _ | compressed⟩
  · have hfetch := fetch_fetched fs path fd size mtime { s with cache := cache }
    dsimp only
    rcases hr : ({ s with cache := cache } : Statics).fetch fs path fd size mtime with
      ⟨s₁, _ | raw⟩
    · rw [hr] at hfetch
      exact ⟨⟨hfetch.fds, hfetch.files⟩, rfl⟩
    · rw [hr] at hfetch
      dsimp only
      rcases gzip raw with _ | compressed
      · exact ⟨⟨hfetch.fds, hfetch.files⟩, rfl⟩
      · exact ⟨⟨hfetch.fds, hfetch.files⟩, rfl⟩
  · exact ⟨⟨rfl, SameFiles.refl _⟩, rfl⟩

/-- The static path is `locate`, and then neither opens nor closes anything. A file that
is to be sent is the one that was found. -/
lemma serve_locates {s' : Statics} {served : Served}
    (h : s.serve gzip fs o req = some (s', served)) :
    ∃ s₁ found, Locates fs o (staticPath req) s (s₁, found) ∧ Fetched s₁ s' ∧
      ∀ slot, served.file = some slot →
        ∃ size mtime, found = .file slot.fd size mtime := by
  unfold Statics.serve at h
  rcases Option.map_eq_some_iff.mp h with ⟨⟨s₁, found⟩, hlocate, heq⟩
  refine ⟨s₁, found, locate_cases hlocate, ?_⟩
  have hnone {served' : Served} (hfile : served'.file = none) (heq : served' = served) :
      ∀ slot, served.file = some slot → ∃ size mtime, found = .file slot.fd size mtime := by
    intro slot hslot
    rw [← heq, hfile] at hslot
    cases hslot
  rcases found with _ | _ | ⟨fd, size, mtime⟩
  · simp only [Prod.mk.injEq] at heq
    exact ⟨heq.1 ▸ ⟨rfl, SameFiles.refl _⟩, hnone rfl heq.2⟩
  · simp only [Prod.mk.injEq] at heq
    exact ⟨heq.1 ▸ ⟨rfl, SameFiles.refl _⟩, hnone rfl heq.2⟩
  · dsimp only at heq
    split at heq
    · have hgz := serveGzip_fetched gzip fs (staticPath req) fd size mtime s₁
      rw [heq] at hgz
      exact ⟨hgz.1, hnone hgz.2 rfl⟩
    · split at heq
      · have hraw := serveRaw_fetched fs (staticPath req) fd size mtime s₁
        rw [heq] at hraw
        exact ⟨hraw.1, hnone hraw.2 rfl⟩
      · -- a large file: its descriptor is left for `handle_write`
        simp only [Prod.mk.injEq] at heq
        refine ⟨heq.1 ▸ ⟨rfl, SameFiles.refl _⟩, ?_⟩
        intro slot hslot
        rw [← heq.2] at hslot
        cases hslot
        exact ⟨size, mtime, rfl⟩

/-! ## What `locate` closes -/

/-- The cached descriptors are open, each for its own path, and open files have numbers
that were given out. -/
structure Statics.Sound (s : Statics) : Prop where
  cached : ∀ path e, s.fds.table.lookup path = some e →
    ∃ h, s.kernel.table e.fd = some (.file h) ∧ h.path = path
  numbered : ∀ fd h, s.kernel.table fd = some (.file h) → h.serial < s.kernel.opens

/-- One descriptor is cached for one path. -/
lemma Statics.Sound.path_unique (h : s.Sound) {path path' : Bytes} {e e' : CachedFd}
    (hpath : s.fds.table.lookup path = some e) (hpath' : s.fds.table.lookup path' = some e')
    (hfd : e.fd = e'.fd) : path = path' := by
  rcases h.cached path e hpath with ⟨handle, hopen, rfl⟩
  rcases h.cached path' e' hpath' with ⟨handle', hopen', rfl⟩
  rw [hfd, hopen'] at hopen
  cases hopen
  rfl

lemma Statics.Sound.of_sameEntries (h : s.Sound) {fds : FdCache}
    (hsame : SameEntries s.fds.table fds.table) : ({ s with fds := fds } : Statics).Sound := by
  refine ⟨?_, h.numbered⟩
  intro path e he
  have heq := hsame path
  rw [show fds.table.lookup path = some e from he] at heq
  rcases Option.map_eq_some_iff.mp heq.symm with ⟨e₀, he₀, hfields⟩
  simp only [Prod.mk.injEq] at hfields
  rw [← hfields.1]
  exact h.cached path e₀ he₀

lemma Statics.Sound.of_fetched {s' : Statics} (h : s.Sound) (hfetched : Fetched s s') :
    s'.Sound := by
  constructor
  · intro path e he
    rw [hfetched.fds] at he
    rcases h.cached path e he with ⟨handle, hopen, hpath⟩
    rcases hfetched.files.forth hopen with ⟨handle', hopen', hpath', _⟩
    exact ⟨handle', hopen', hpath'.trans hpath⟩
  · intro fd handle hopen
    rcases hfetched.files.back hopen with ⟨handle₀, hopen₀, _, hserial⟩
    rw [hserial, hfetched.files.opens]
    exact h.numbered fd handle₀ hopen₀

/-- Other descriptors come and go. -/
lemma Statics.Sound.of_files (h : s.Sound) {kernel : Kernel}
    (hopens : kernel.opens = s.kernel.opens)
    (hfiles : ∀ fd handle, kernel.table fd = some (.file handle) ↔
      s.kernel.table fd = some (.file handle)) :
    ({ s with kernel := kernel } : Statics).Sound := by
  constructor
  · intro path e he
    rcases h.cached path e he with ⟨handle, hopen, hpath⟩
    exact ⟨handle, (hfiles e.fd handle).mpr hopen, hpath⟩
  · intro fd handle hopen
    dsimp only at hopen ⊢
    rw [hopens]
    exact h.numbered fd handle ((hfiles fd handle).mp hopen)

lemma held_of_files
    (hfiles : ∀ fd handle, k'.table fd = some (.file handle) ↔ k.table fd = some (.file handle))
    (t : Transfer) (ht : Held k t) : Held k' t := by
  rcases ht with ⟨handle, hopen, hrest⟩
  exact ⟨handle, (hfiles _ handle).mpr hopen, hrest⟩

lemma update_files {d : Option Descriptor}
    (hbefore : ∀ handle, k.table fd ≠ some (.file handle))
    (hafter : ∀ handle, d ≠ some (.file handle)) (fd' : Nat) (handle : Handle) :
    update k.table fd d fd' = some (.file handle) ↔ k.table fd' = some (.file handle) := by
  by_cases heq : fd' = fd
  · subst heq
    rw [update_self]
    exact iff_of_false (hafter handle) (hbefore handle)
  · rw [update_of_ne heq]

/-- Another part of the program takes a number that is free. -/
lemma acquire_files (hfd : k.table fd = none) (fd' : Nat) (handle : Handle) :
    update k.table fd (some .other) fd' = some (.file handle) ↔
      k.table fd' = some (.file handle) := by
  apply update_files
  · intro handle' hopen
    rw [hfd] at hopen
    cases hopen
  · intro handle' hopen
    cases hopen

lemma dispose_files (hfd : k.table fd = some .other) (fd' : Nat) (handle : Handle) :
    (k.close fd).table fd' = some (.file handle) ↔ k.table fd' = some (.file handle) := by
  apply update_files
  · intro handle' hopen
    rw [hfd] at hopen
    cases hopen
  · intro handle' hopen
    cases hopen

lemma victims_of_stale {path : Bytes} {i : Nat} (htree : fs.tree path = some i)
    (hstale : ∀ e, s.fds.table.lookup path = some e → e.mtime ≠ (fs.inode i).mtime)
    (hmiss : (s.fds.tryGet path o.now).2 = none) :
    s.victims fs o path = (s.fds.table.lookup path).toList.map CachedFd.fd ++
      if o.fd.isSome then
        ((s.fds.table.erase path).entries.drop (fdCacheMaxEntries - 1)).map fun e => e.2.fd
      else [] := by
  have hany : ¬ (s.fds.table.lookup path).any (fun e => e.mtime = (fs.inode i).mtime) = true := by
    intro hany
    rcases (Option.any_eq_true _ _).mp hany with ⟨e, he, hmtime⟩
    exact hstale e he (of_decide_eq_true hmtime)
  unfold Statics.victims
  rw [hmiss, htree]
  exact if_neg hany

/-- What `locate` does to the descriptors: those that it closes are gone, or their number
has a new file; the others that were open are as they were. -/
structure Closes (closed : List Nat) (k k' : Kernel) : Prop where
  gone : ∀ fd ∈ closed, ∀ h, k'.table fd = some (.file h) → h.serial = k.opens
  kept : ∀ fd, fd ∉ closed → (k.table fd).isSome → k'.table fd = k.table fd

lemma Closes.held_iff {closed : List Nat} (hclose : Closes closed k k')
    (hnum : ∀ fd h, k.table fd = some (.file h) → h.serial < k.opens) {t : Transfer}
    (ht : Held k t) : Held k' t ↔ t.slot.fd ∉ closed := by
  rcases ht with ⟨h, hfd, hpath, hserial⟩
  constructor
  · rintro ⟨h', hfd', _, hserial'⟩ hmem
    -- a file under a closed number is a new one
    have hnew := hclose.gone _ hmem h' hfd'
    have hold := hnum _ h hfd
    omega
  · intro hmem
    exact ⟨h, (hclose.kept _ hmem (by rw [hfd]; rfl)).trans hfd, hpath, hserial⟩

lemma closes_nil (k : Kernel) : Closes [] k k :=
  ⟨fun _ hfd => absurd hfd List.not_mem_nil, fun _ _ _ => rfl⟩

lemma closes_closeAll (k : Kernel) (fds : List Nat) : Closes fds k (k.closeAll fds) := by
  constructor
  · intro fd hfd h hopen
    rw [closeAll_table, if_pos hfd] at hopen
    cases hopen
  · intro fd hfd _
    rw [closeAll_table, if_neg hfd]

/-- Closing, opening under a free number, and closing again. -/
lemma closes_reopen (k : Kernel) (fds fds' : List Nat) (path : Bytes) (i : Nat)
    (hfree : (k.closeAll fds).table fd = none) :
    Closes (fds ++ fds') k (((k.closeAll fds).openFile fd path i).closeAll fds') := by
  constructor
  · intro fd' hfd' h hopen
    rw [closeAll_table] at hopen
    split at hopen
    · cases hopen
    · rename_i hnot
      by_cases heq : fd' = fd
      · subst heq
        rw [openFile_table_self] at hopen
        cases hopen
        exact closeAll_opens k fds
      · rw [openFile_table_ne path i heq] at hopen
        rcases List.mem_append.mp hfd' with hin | hin
        · rw [closeAll_table, if_pos hin] at hopen
          cases hopen
        · exact absurd hin hnot
  · intro fd' hfd' hsome
    rw [List.mem_append, not_or] at hfd'
    have heq : fd' ≠ fd := by
      -- the number was free, and `fd'` is still open
      rintro rfl
      rw [closeAll_table, if_neg hfd'.1] at hfree
      rw [hfree] at hsome
      cases hsome
    rw [closeAll_table, if_neg hfd'.2, openFile_table_ne path i heq, closeAll_table,
      if_neg hfd'.1]

/-- The entry for a path goes, and its descriptor is closed. -/
lemma Statics.Sound.dropped (h : s.Sound) (path : Bytes) :
    ({ s with
      fds := ⟨s.fds.table.erase path⟩
      kernel := s.kernel.closeAll ((s.fds.table.lookup path).toList.map CachedFd.fd) } :
        Statics).Sound := by
  constructor
  · intro path' e' he'
    rcases Lru.lookup_of_erase he' with ⟨hne, hlookup⟩
    -- the entry that goes has another path, so its descriptor is another one
    have hother : e'.fd ∉ (s.fds.table.lookup path).toList.map CachedFd.fd := by
      intro hmem
      rcases List.mem_map.mp hmem with ⟨e, he, hfd⟩
      exact hne (h.path_unique hlookup (Option.mem_toList.mp he) hfd.symm)
    dsimp only
    rw [closeAll_table, if_neg hother]
    exact h.cached path' e' hlookup
  · intro fd handle hopen
    dsimp only at hopen ⊢
    rw [closeAll_table] at hopen
    rw [closeAll_opens]
    split at hopen
    · cases hopen
    · exact h.numbered fd handle hopen

/-- A file is opened under a free number, and the entries at the end are evicted. -/
lemma Statics.Sound.opened (h : s.Sound) (n : Nat) (path : Bytes) (i : Nat) (e : CachedFd)
    (hfree : s.kernel.table e.fd = none) :
    ({ s with
      fds := ⟨(Lru.keep n s.fds.table).insert path e⟩
      kernel := (s.kernel.openFile e.fd path i).closeAll
        ((s.fds.table.entries.drop n).map fun e => e.2.fd) } : Statics).Sound := by
  have hnew {path' : Bytes} {e' : CachedFd} (he' : s.fds.table.lookup path' = some e') :
      e'.fd ≠ e.fd := by
    intro heq
    rcases h.cached path' e' he' with ⟨handle, hopen, _⟩
    rw [heq, hfree] at hopen
    cases hopen
  have hevicted {path' : Bytes} {e' : CachedFd}
      (he' : (Lru.keep n s.fds.table).lookup path' = some e') :
      e'.fd ∉ (s.fds.table.entries.drop n).map fun e => e.2.fd := by
    intro hmem
    rcases List.mem_map.mp hmem with ⟨⟨path'', e''⟩, hdrop, hfd''⟩
    have hsame := h.path_unique (Lru.lookup_of_mem_drop hdrop) (Lru.lookup_of_keep he') hfd''
    subst hsame
    rw [Lru.lookup_keep_of_mem_drop hdrop] at he'
    cases he'
  constructor
  · intro path' e' he'
    dsimp only at he' ⊢
    by_cases heq : path' = path
    · -- the new entry: its number was free, so it is not one of an old entry
      subst heq
      rw [AList.lookup_insert] at he'
      cases he'
      have hnot : e.fd ∉ (s.fds.table.entries.drop n).map fun e => e.2.fd := by
        intro hmem
        rcases List.mem_map.mp hmem with ⟨⟨path'', e''⟩, hdrop, hfd''⟩
        exact hnew (Lru.lookup_of_mem_drop hdrop) hfd''
      rw [closeAll_table, if_neg hnot, openFile_table_self]
      exact ⟨_, rfl, rfl⟩
    · rw [AList.lookup_insert_ne heq] at he'
      have hkept := Lru.lookup_of_keep he'
      rw [closeAll_table, if_neg (hevicted he'), openFile_table_ne path i (hnew hkept)]
      exact h.cached path' e' hkept
  · intro fd handle hopen
    dsimp only at hopen ⊢
    rw [closeAll_opens]
    rw [closeAll_table] at hopen
    split at hopen
    · cases hopen
    · by_cases heq : fd = e.fd
      · subst heq
        rw [openFile_table_self] at hopen
        cases hopen
        exact Nat.lt_succ_self _
      · rw [openFile_table_ne path i heq] at hopen
        exact Nat.lt_succ_of_lt (h.numbered fd handle hopen)

/-- `locate` closes its victims; the caches stay sound, and what is found is cached for
the path. -/
lemma locates_sound {path : Bytes} {s₁ : Statics} {found : Found} (h : s.Sound)
    (hloc : Locates fs o path s (s₁, found)) :
    s₁.Sound ∧ Closes (s.victims fs o path) s.kernel s₁.kernel ∧
      ∀ fd size mtime, found = .file fd size mtime →
        ∃ e, s₁.fds.table.lookup path = some e ∧ e.fd = fd := by
  have hentry {fds : FdCache} {e : CachedFd} (hsame : SameEntries s.fds.table fds.table)
      (he : s.fds.table.lookup path = some e) :
      ∃ e', fds.table.lookup path = some e' ∧ e'.fd = e.fd := by
    have heq := hsame path
    rw [he] at heq
    rcases Option.map_eq_some_iff.mp heq with ⟨e', he', hfields⟩
    simp only [Prod.mk.injEq] at hfields
    exact ⟨e', he', hfields.1⟩
  have hquiet (hvictims : s.victims fs o path = []) :
      Closes (s.victims fs o path) s.kernel s.kernel := by
    rw [hvictims]
    exact closes_nil s.kernel
  generalize hr : (s₁, found) = r at hloc
  rcases hloc with ⟨hsame, he, hhit⟩ | ⟨hsame, he, htree, hmtime⟩ | ⟨hsame, htree⟩ |
    ⟨htree, hstale, hmiss, hfd⟩ | @⟨i, fd, htree, hstale, hmiss, hfd, hfree⟩
  · -- a fresh entry
    cases hr
    refine ⟨h.of_sameEntries hsame, hquiet ?_, ?_⟩
    · unfold Statics.victims
      rw [hhit]
      rfl
    · intro fd size mtime heq
      cases heq
      exact hentry hsame he
  · -- an entry that is as old as the file
    cases hr
    refine ⟨h.of_sameEntries hsame, hquiet ?_, ?_⟩
    · unfold Statics.victims
      rw [htree, he]
      simp [hmtime]
    · intro fd size mtime heq
      cases heq
      exact hentry hsame he
  · -- no such file
    cases hr
    refine ⟨h.of_sameEntries hsame, hquiet ?_, nofun⟩
    unfold Statics.victims
    rw [htree]
    simp
  · -- the file cannot be opened
    cases hr
    refine ⟨h.dropped path, ?_, nofun⟩
    rw [victims_of_stale htree hstale hmiss, hfd]
    simpa using closes_closeAll s.kernel _
  · -- the file is opened
    cases hr
    refine ⟨(h.dropped path).opened _ path i ⟨fd, _, _, _⟩ hfree, ?_, ?_⟩
    · rw [victims_of_stale htree hstale hmiss, hfd]
      exact closes_reopen s.kernel _ _ path i hfree
    · intro fd' size mtime heq
      cases heq
      exact ⟨_, AList.lookup_insert _, rfl⟩

/-! ## Steps and runs -/

/-- What holds while no transfer is disturbed. -/
structure Sender.Sound (w : Sender) : Prop where
  statics : w.statics.Sound
  held : ∀ conn t, w.sends conn = some t → Held w.statics.kernel t

/-- A new transfer starts from the descriptor that is cached for its path. -/
lemma held_selected (h : s.Sound) {served : Served} {before : Option Transfer} {t : Transfer}
    (hcached : ∀ slot, served.file = some slot →
      ∃ e, s.fds.table.lookup (staticPath req) = some e ∧ e.fd = slot.fd)
    (hbefore : ∀ t, before = some t → Held s.kernel t)
    (ht : selected s.kernel req served before = some t) : Held s.kernel t := by
  unfold selected at ht
  split at ht
  · cases ht
  · rcases hfile : served.file with _ | slot
    · simp only [hfile] at ht
      exact hbefore t ht
    · simp only [hfile] at ht
      cases ht
      rcases hcached slot hfile with ⟨e, he, hfd⟩
      rcases h.cached _ e he with ⟨handle, hopen, hpath⟩
      rw [hfd] at hopen
      exact ⟨handle, hopen, hpath, by simp [Kernel.serialOf, hopen]⟩

/-- A request leaves the transfers alone exactly if its victims are not being sent, and
then the worker stays sound. -/
lemma request_undisturbed {w w' : Sender} {conn : Nat} (h : w.Sound)
    (hstep : w.step gzip (.request conn req o) = some w') :
    (Undisturbed w (.request conn req o) w' ↔ Spares w (.request conn req o)) ∧
      (Spares w (.request conn req o) → w'.Sound) := by
  unfold Sender.step at hstep
  rcases Option.map_eq_some_iff.mp hstep with ⟨⟨s', served⟩, hserve, rfl⟩
  rcases serve_locates hserve with ⟨s₁, found, hloc, hfetched, hfile⟩
  rcases locates_sound h.statics hloc with ⟨hsound₁, hcloses, hfound⟩
  have hsound' := hsound₁.of_fetched hfetched
  have hheld {conn' : Nat} {t : Transfer} (ht : w.sends conn' = some t) :
      Held s'.kernel t ↔ t.slot.fd ∉ w.statics.victims w.fs o (staticPath req) :=
    (hfetched.files.held_iff t).trans (hcloses.held_iff h.statics.numbered (h.held conn' t ht))
  have hcached : ∀ slot, served.file = some slot →
      ∃ e, s'.fds.table.lookup (staticPath req) = some e ∧ e.fd = slot.fd := by
    intro slot hslot
    rcases hfile slot hslot with ⟨size, mtime, hfd⟩
    rw [hfetched.fds]
    exact hfound slot.fd size mtime hfd
  have hbehind (hspares : Spares w (.request conn req o)) {conn' : Nat} {t : Transfer}
      (ht : update w.sends conn (selected s'.kernel req served (w.sends conn)) conn' =
        some t) : Held s'.kernel t := by
    by_cases heq : conn' = conn
    · subst heq
      rw [update_self] at ht
      apply held_selected hsound' hcached _ ht
      intro t₀ ht₀
      exact (hheld ht₀).mpr fun hmem => hspares _ hmem _ t₀ ht₀ rfl
    · rw [update_of_ne heq] at ht
      exact (hheld ht).mpr fun hmem => hspares _ hmem _ t ht rfl
  constructor
  · constructor
    · intro hun fd hmem conn' t ht heq
      have hnot := (hheld ht).mp (hun.before (by simp) conn' t ht)
      exact hnot (heq ▸ hmem)
    · intro hspares
      constructor
      · intro conn' t ht
        exact hbehind hspares ht
      · intro _ conn' t ht
        exact (hheld ht).mpr fun hmem => hspares _ hmem _ t ht rfl
  · intro hspares
    exact ⟨hsound', fun conn' t ht => hbehind hspares ht⟩

/-- The other steps close no cached descriptor before the worker ends. -/
lemma step_undisturbed {w w' : Sender} {l : Move} (h : w.Sound)
    (hstep : w.step gzip l = some w') :
    (Undisturbed w l w' ↔ Spares w l) ∧ (Spares w l → w'.Sound) := by
  -- it is enough that the next state is sound and keeps what was held
  have hsafe (hspares : Spares w l) (hsound : w'.Sound)
      (hkeeps : l ≠ .shutdown → ∀ t, Held w.statics.kernel t → Held w'.statics.kernel t) :
      (Undisturbed w l w' ↔ Spares w l) ∧ (Spares w l → w'.Sound) := by
    refine ⟨iff_of_true ⟨hsound.held, ?_⟩ hspares, fun _ => hsound⟩
    intro hl conn t ht
    exact hkeeps hl t (h.held conn t ht)
  cases l with
  | request conn req o => exact request_undisturbed h hstep
  | sent conn n =>
    rcases Option.map_eq_some_iff.mp hstep with ⟨t, ht, rfl⟩
    refine hsafe trivial ⟨h.statics, ?_⟩ (fun _ _ held => held)
    intro conn' t' ht'
    by_cases heq : conn' = conn
    · subst heq
      dsimp only at ht'
      rw [update_self] at ht'
      cases ht'
      exact h.held conn' t ht
    · dsimp only at ht'
      rw [update_of_ne heq] at ht'
      exact h.held conn' t' ht'
  | release conn =>
    cases hstep
    refine hsafe trivial ⟨h.statics, ?_⟩ (fun _ _ held => held)
    intro conn' t' ht'
    by_cases heq : conn' = conn
    · subst heq
      dsimp only at ht'
      rw [update_self] at ht'
      cases ht'
    · dsimp only at ht'
      rw [update_of_ne heq] at ht'
      exact h.held conn' t' ht'
  | modify fs =>
    cases hstep
    exact hsafe trivial ⟨h.statics, h.held⟩ (fun _ _ held => held)
  | acquire fd =>
    rcases hfd : w.statics.kernel.table fd with _ | d
    · simp only [Sender.step, hfd] at hstep
      cases hstep
      have hfiles := acquire_files hfd
      refine hsafe trivial ⟨h.statics.of_files rfl hfiles, ?_⟩ (fun _ => held_of_files hfiles)
      intro conn t ht
      exact held_of_files hfiles t (h.held conn t ht)
    · simp only [Sender.step, hfd] at hstep
      cases hstep
  | dispose fd =>
    rcases hfd : w.statics.kernel.table fd with _ | _ | _
    · simp only [Sender.step, hfd] at hstep
      cases hstep
    · simp only [Sender.step, hfd] at hstep
      cases hstep
    · simp only [Sender.step, hfd] at hstep
      cases hstep
      have hfiles := dispose_files hfd
      refine hsafe trivial ⟨h.statics.of_files rfl hfiles, ?_⟩ (fun _ => held_of_files hfiles)
      intro conn t ht
      exact held_of_files hfiles t (h.held conn t ht)
  | shutdown =>
    cases hstep
    refine hsafe trivial ⟨⟨?_, ?_⟩, ?_⟩ (fun hl => absurd rfl hl)
    · intro path e he
      cases he
    · intro fd handle hopen
      dsimp only at hopen ⊢
      rw [closeAll_table] at hopen
      rw [closeAll_opens]
      split at hopen
      · cases hopen
      · exact h.statics.numbered fd handle hopen
    · intro conn t ht
      cases ht

/-- The worker at the start. -/
def Sender.init (limits : CacheLimits) (fs : FileSystem) : Sender :=
  { statics := { cache := FileCache.new limits }, fs := fs }

lemma init_sound (limits : CacheLimits) (fs : FileSystem) : (Sender.init limits fs).Sound := by
  refine ⟨⟨?_, ?_⟩, ?_⟩
  · intro path e he
    cases he
  · intro fd handle hopen
    cases hopen
  · intro conn t ht
    cases ht

/-- While no step closes a descriptor that is being sent, every transfer has the
descriptor that was opened for its file. And the next step leaves the transfers alone
exactly if it is such a step. -/
theorem transfers_undisturbed {gzip : Bytes → Option Bytes} {limits : CacheLimits}
    {fs : FileSystem} {ls : List Move} {w : Sender}
    (hrun : Run (Sender.step gzip) Spares (Sender.init limits fs) ls w) :
    (∀ conn t, w.sends conn = some t → Held w.statics.kernel t) ∧
      ∀ l w', w.step gzip l = some w' → (Undisturbed w l w' ↔ Spares w l) := by
  have hsound : w.Sound := by
    apply hrun.invariant (init_sound limits fs)
    intro t l u ht hspares hu
    exact (step_undisturbed ht hu).2 hspares
  constructor
  · exact hsound.held
  · intro l w' hstep
    exact (step_undisturbed hsound hstep).1

/-! ## A large file -/

/-- A file of two megabytes. -/
def largeFile (mtime : Int) : File :=
  { size := 2 * 1024 * 1024, byte := fun _ => 120, mtime := mtime }

/-- One large file, under every path. -/
def largeFiles (mtime : Int) : FileSystem :=
  { tree := fun _ => some 0, inode := fun _ => largeFile mtime }

def getLarge : HttpRequest := { method := ascii "GET", path := ascii "/large" }

/-- A second connection gets the same file, and the first transfer goes on. -/
theorem transfers_undisturbed_shared :
    ∃ w w', Run (Sender.step fun _ => none) Spares (Sender.init oneEntry (largeFiles 7))
        [.request 1 getLarge { fd := some 3 }] w ∧
      w.step (fun _ => none) (.request 2 getLarge {}) = some w' ∧
      (w.sends 1).isSome = true ∧ Undisturbed w (.request 2 getLarge {}) w' := by
  have hsome : (((Sender.init oneEntry (largeFiles 7)).step (fun _ => none)
      (.request 1 getLarge { fd := some 3 })).map fun w =>
        ((w.step (fun _ => none) (.request 2 getLarge {})).isSome, (w.sends 1).isSome,
          w.statics.victims w.fs {} (staticPath getLarge))) = some (true, true, []) := by
    decide +kernel
  rcases Option.map_eq_some_iff.mp hsome with ⟨w, hw, heq⟩
  simp only [Prod.mk.injEq] at heq
  rcases Option.isSome_iff_exists.mp heq.1 with ⟨w', hw'⟩
  have hrun : Run (Sender.step fun _ => none) Spares (Sender.init oneEntry (largeFiles 7))
      ([] ++ [.request 1 getLarge { fd := some 3 }]) w := by
    apply Run.snoc Run.nil _ hw
    intro fd _ conn t ht
    cases ht
  refine ⟨w, w', hrun, hw', heq.2.1, ((transfers_undisturbed hrun).2 _ w' hw').mpr ?_⟩
  intro fd hfd
  rw [heq.2.2] at hfd
  cases hfd

/-- The file is modified while it is sent, and ten seconds later another connection asks
for it. Its descriptor is closed, and the number goes to the new file, with which the
first transfer continues. -/
theorem transfer_disturbed :
    ∃ ls w t, Run (Sender.step fun _ => none) Any (Sender.init oneEntry (largeFiles 7)) ls w ∧
      w.sends 1 = some t ∧ ¬ Held w.statics.kernel t := by
  obtain ⟨w, hrun, heq⟩ :
      ∃ w, Run (Sender.step fun _ => none) Any (Sender.init oneEntry (largeFiles 7))
        [.request 1 getLarge { fd := some 3 }, .modify (largeFiles 8),
          .request 2 getLarge { now := 10, later := 10, fd := some 3 }] w ∧
        ((w.sends 1).map fun t => (t.slot.fd, t.serial), w.statics.kernel.serialOf 3) =
          (some (3, 0), 1) :=
    exists_run_of_exec (by decide +kernel)
  simp only [Prod.mk.injEq] at heq
  rcases Option.map_eq_some_iff.mp heq.1 with ⟨t, ht, hslot⟩
  simp only [Prod.mk.injEq] at hslot
  refine ⟨_, w, t, hrun, ht, ?_⟩
  rintro ⟨handle, hopen, _, hserial⟩
  have hnew := heq.2
  rw [hslot.1] at hopen
  simp only [Kernel.serialOf, hopen] at hnew
  omega

end EpollGateway.Static
