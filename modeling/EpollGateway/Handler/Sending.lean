import EpollGateway.Handler.Pipeline
import Mathlib

/-! # Sending

One call of `handle_write` sends the chunks of the queue and then the file, until all is
sent, the descriptor cannot be written or the connection is closed. `Sending` is a call with
its local variables; a step is one result of `writev`, `sslWrite`, `sendfile` or `pread`. On
a plaintext connection the place in the file is a local variable of the call, and stored when
the call waits.

* Over any calls nothing is lost or sent twice: what was accepted, the queue and the rest of
  the file are together what was to be sent (`sending_exact`).
* A call leaves its loops after finitely many results, unless `sendfile` sends nothing from
  some point on (`leaves_iff`). The loop has no branch for that, so a file that has become
  shorter keeps the worker in it (`truncated_spins`).
-/

namespace EpollGateway.Handler

open Bytes Machine

/-! ## A call -/

/-- A result of `writev`, `sslWrite`, `pread` or `sendfile`; -1 by what `errno` says. -/
inductive IoResult where
  | count (n : Nat)
  | wouldBlock
  | brokenPipe
  | failed
deriving DecidableEq, Repr

/-- What a connection has to send: `send_queues_`, the slot of its file, and
`ssl_file_buffers_`. What has been accepted so far is not in the source. -/
structure Outgoing where
  queue : List Bytes
  slot : Option FileSlot
  sslFileBuffer : Bytes := []
  accepted : Bytes := []
deriving DecidableEq, Repr

/-- Where a call is, with its local variables `offset` and `remaining`. -/
inductive SendPc where
  | queue
  | sendfile (offset remaining : Nat)
  | pread (offset remaining : Nat)
  | sslFile (offset remaining : Nat)
  | sent
  | waiting
  | closed
deriving DecidableEq, Repr

/-- The call is behind both phases, or has returned. -/
def SendPc.left : SendPc → Bool
  | .sent | .waiting | .closed => true
  | _ => false

structure Sending where
  pc : SendPc
  out : Outgoing
deriving DecidableEq, Repr

/-- `cleanup`. -/
def closeSending (o : Outgoing) : Sending :=
  ⟨.closed, { queue := [], slot := none, accepted := o.accepted }⟩

/-- The file is sent. -/
def finishFile (isSsl : Bool) (o : Outgoing) : Sending :=
  ⟨.sent, { o with slot := none, sslFileBuffer := if isSsl then [] else o.sslFileBuffer }⟩

/-- The test of the loops over a file. -/
def fileLoop (isSsl : Bool) (offset remaining : Nat) (o : Outgoing) : Sending :=
  if remaining > 0 then
    if isSsl then
      if o.sslFileBuffer = [] then ⟨.pread offset remaining, o⟩ else ⟨.sslFile offset remaining, o⟩
    else ⟨.sendfile offset remaining, o⟩
  else finishFile isSsl o

/-- The second phase. -/
def enterFile (isSsl : Bool) (o : Outgoing) : Sending :=
  match o.slot with
  | none => ⟨.sent, o⟩
  | some f => fileLoop isSsl f.offset f.remaining o

/-- The test of the loop over the queue. -/
def enterQueue (isSsl : Bool) (o : Outgoing) : Sending :=
  if o.queue = [] then enterFile isSsl o else ⟨.queue, o⟩

/-- A call of `handle_write`, up to its first result. -/
def handleWrite (isSsl : Bool) (o : Outgoing) : Sending :=
  enterQueue isSsl { o with queue := o.queue.dropWhile (· = []) }

/-- `writev` has returned. -/
def writevResult (o : Outgoing) : IoResult → Sending
  | .count n =>
    if n > 0 then
      enterQueue false { o with
        queue := consume n o.queue
        accepted := o.accepted ++ o.queue.flatten.take n }
    else closeSending o
  | .wouldBlock => ⟨.waiting, o⟩
  | .brokenPipe | .failed => closeSending o

/-- `sslWrite` of the first chunk has returned. -/
def sslWriteResult (front : Bytes) (rest : List Bytes) (o : Outgoing) : IoResult → Sending
  | .count n =>
    if n > 0 then
      let o := { o with accepted := o.accepted ++ front.take n }
      if n = front.length then enterQueue true { o with queue := rest }
      else ⟨.waiting, { o with queue := front.drop n :: rest }⟩
    else closeSending o
  | .wouldBlock => ⟨.waiting, o⟩
  | .brokenPipe | .failed => closeSending o

section File

variable (file : Nat → Nat → UInt8)

/-- `sendfile` has returned; it has moved `offset`. There is no branch for a result of
zero. -/
def sendfileResult (f : FileSlot) (offset remaining : Nat) (o : Outgoing) : IoResult → Sending
  | .count n =>
    if n > 0 then
      fileLoop false (offset + n) (remaining - n)
        { o with accepted := o.accepted ++ fileBytes (file f.fd) offset n }
    else ⟨.sendfile offset remaining, o⟩
  | .wouldBlock => ⟨.waiting, { o with slot := some { f with offset := offset } }⟩
  | .brokenPipe | .failed => closeSending o

/-- `pread` has returned. -/
def preadResult (f : FileSlot) (offset remaining : Nat) (o : Outgoing) : IoResult → Sending
  | .count n =>
    if n > 0 then
      ⟨.sslFile offset remaining, { o with sslFileBuffer := fileBytes (file f.fd) offset n }⟩
    else closeSending o
  | .wouldBlock | .brokenPipe | .failed => closeSending o

/-- `sslWrite` of the buffer has returned. -/
def sslFileResult (f : FileSlot) (offset remaining : Nat) (o : Outgoing) : IoResult → Sending
  | .count n =>
    if n > 0 then
      let o := { o with
        slot := some { f with offset := offset + n }
        sslFileBuffer := o.sslFileBuffer.drop n
        accepted := o.accepted ++ o.sslFileBuffer.take n }
      if o.sslFileBuffer ≠ [] then ⟨.waiting, o⟩ else fileLoop true (offset + n) (remaining - n) o
    else closeSending o
  | .wouldBlock => ⟨.waiting, { o with slot := some { f with offset := offset } }⟩
  | .brokenPipe | .failed => closeSending o

/-- One result inside a call. -/
def resultStep (isSsl : Bool) (r : IoResult) (s : Sending) : Option Sending :=
  match s.pc with
  | .queue =>
    match s.out.queue with
    | [] => none
    | front :: rest =>
      some (if isSsl then sslWriteResult front rest s.out r else writevResult s.out r)
  | .sendfile offset remaining =>
    s.out.slot.map fun f => sendfileResult file f offset remaining s.out r
  | .pread offset remaining => s.out.slot.map fun f => preadResult file f offset remaining s.out r
  | .sslFile offset remaining => s.out.slot.map fun f => sslFileResult f offset remaining s.out r
  | .sent | .waiting | .closed => none

/-! ## Progress -/

/-- A call with its first `n` results. -/
def resultsOf (isSsl : Bool) (results : Nat → IoResult) (s : Sending) : Nat → Sending
  | 0 => s
  | n + 1 =>
    let t := resultsOf isSsl results s n
    (resultStep file isSsl (results n) t).getD t

/-- The call is left after finitely many results. -/
def LeavesLoop (isSsl : Bool) (results : Nat → IoResult) (s : Sending) : Prop :=
  ∃ n, (resultsOf file isSsl results s n).pc.left = true

end File

/-- Some bytes are sent, less than `remaining`, and then none any more. -/
def Stalls (results : Nat → IoResult) (remaining : Nat) : Prop :=
  ∃ sent : List Nat, sent.sum < remaining ∧ ∀ n, results n = .count (sent.getD n 0)

section Progress

variable {file : Nat → Nat → UInt8} {isSsl : Bool} {results : Nat → IoResult}

lemma resultsOf_succ (s : Sending) (n : Nat) :
    resultsOf file isSsl results s (n + 1) =
      resultsOf file isSsl (fun i => results (i + 1))
        ((resultStep file isSsl (results 0) s).getD s) n := by
  induction n with
  | zero => rfl
  | succ n ih =>
    rw [resultsOf, ih]
    rfl

/-- The first result can be taken apart from the others. -/
lemma leaves_step {s t : Sending} (hstep : resultStep file isSsl (results 0) s = some t) :
    LeavesLoop file isSsl (fun i => results (i + 1)) t → LeavesLoop file isSsl results s := by
  rintro ⟨n, hn⟩
  refine ⟨n + 1, ?_⟩
  rw [resultsOf_succ, hstep]
  exact hn

lemma leaves_of_left {s : Sending} (h : s.pc.left = true) : LeavesLoop file isSsl results s :=
  ⟨0, h⟩

/-- A loop over a file is left at once, or is in front of a call of the kernel. -/
lemma fileLoop_cases (isSsl : Bool) (offset remaining : Nat) (o : Outgoing) :
    (fileLoop isSsl offset remaining o).pc.left = true ∨
      0 < remaining ∧ (fileLoop isSsl offset remaining o).out = o ∧
        ((fileLoop isSsl offset remaining o).pc =
          if isSsl then
            if o.sslFileBuffer = [] then .pread offset remaining else .sslFile offset remaining
          else .sendfile offset remaining) := by
  unfold fileLoop
  by_cases hpos : remaining > 0
  · right
    rw [if_pos hpos]
    cases isSsl
    · exact ⟨hpos, rfl, rfl⟩
    · by_cases hbuf : o.sslFileBuffer = []
      · simp [hpos, hbuf]
      · simp [hpos, hbuf]
  · left
    rw [if_neg hpos]
    rfl

/-- How many results a TLS call can still take. -/
def sslRank : SendPc → Nat
  | .pread _ remaining => 2 * remaining + 1
  | .sslFile _ remaining => 2 * remaining
  | _ => 0

variable (file) in
/-- Every result of a TLS call over a file sends something, fills the buffer or ends it. -/
lemma sslFile_progress {s : Sending} {f : FileSlot} (hslot : s.out.slot = some f)
    (hpc : (∃ offset remaining, 0 < remaining ∧ s.pc = .pread offset remaining) ∨
      ∃ offset remaining, 0 < remaining ∧ s.pc = .sslFile offset remaining) (r : IoResult) :
    ∃ t, resultStep file true r s = some t ∧
      (t.pc.left = true ∨ sslRank t.pc < sslRank s.pc ∧ (∃ g, t.out.slot = some g) ∧
        ((∃ offset remaining, 0 < remaining ∧ t.pc = .pread offset remaining) ∨
          ∃ offset remaining, 0 < remaining ∧ t.pc = .sslFile offset remaining)) := by
  rcases hpc with ⟨offset, remaining, hpos, hpc⟩ | ⟨offset, remaining, hpos, hpc⟩
  · refine ⟨_, by rw [resultStep, hpc, hslot]; rfl, ?_⟩
    rcases r with n | _ | _ | _
    · dsimp only [preadResult]
      split
      · right
        rw [hpc]
        exact ⟨Nat.lt_succ_self _, ⟨f, hslot⟩, .inr ⟨offset, remaining, hpos, rfl⟩⟩
      · exact .inl rfl
    · exact .inl rfl
    · exact .inl rfl
    · exact .inl rfl
  · refine ⟨_, by rw [resultStep, hpc, hslot]; rfl, ?_⟩
    rcases r with n | _ | _ | _
    · dsimp only [sslFileResult]
      split
      · rename_i hn
        split
        · exact .inl rfl
        · rename_i hempty
          have hbuf : s.out.sslFileBuffer.drop n = [] := not_not.mp hempty
          rcases fileLoop_cases true (offset + n) (remaining - n)
            { s.out with
              slot := some { f with offset := offset + n }
              sslFileBuffer := s.out.sslFileBuffer.drop n
              accepted := s.out.accepted ++ s.out.sslFileBuffer.take n }
            with hleft | ⟨hmore, hout, hnext⟩
          · exact .inl hleft
          · right
            rw [if_pos rfl, if_pos hbuf] at hnext
            rw [hnext, hout, hpc]
            refine ⟨?_, ⟨_, rfl⟩, .inl ⟨_, _, hmore, rfl⟩⟩
            show 2 * (remaining - n) + 1 < 2 * remaining
            omega
      · exact .inl rfl
    · exact .inl rfl
    · exact .inl rfl
    · exact .inl rfl

/-- A TLS call over a file is left. -/
lemma leaves_sslFile {s : Sending} {f : FileSlot} (hslot : s.out.slot = some f)
    (hpc : (∃ offset remaining, 0 < remaining ∧ s.pc = .pread offset remaining) ∨
      ∃ offset remaining, 0 < remaining ∧ s.pc = .sslFile offset remaining) :
    LeavesLoop file true results s := by
  -- the rank decreases with every result that does not end the call
  induction hrank : sslRank s.pc using Nat.strongRecOn generalizing s f results with
  | ind rank ih =>
    rcases sslFile_progress file hslot hpc (results 0) with
      ⟨t, hstep, hleft | ⟨hless, ⟨g, hg⟩, hnext⟩⟩
    · exact leaves_step hstep (leaves_of_left hleft)
    · exact leaves_step hstep (ih _ (hrank ▸ hless) hg hnext rfl)

variable (file) in
lemma resultStep_sendfile (offset remaining : Nat) {o : Outgoing} {f : FileSlot}
    (hslot : o.slot = some f) (r : IoResult) :
    resultStep file false r ⟨.sendfile offset remaining, o⟩ =
      some (sendfileResult file f offset remaining o r) := by
  rw [resultStep]
  dsimp only
  rw [hslot]
  rfl

/-- As long as `sendfile` sends nothing the call does not change. -/
lemma resultsOf_zeros {offset remaining : Nat} {o : Outgoing} {f : FileSlot}
    (hslot : o.slot = some f) {n : Nat} (hzero : ∀ i < n, results i = .count 0) :
    resultsOf file false results ⟨.sendfile offset remaining, o⟩ n =
      ⟨.sendfile offset remaining, o⟩ := by
  induction n with
  | zero => rfl
  | succ n ih =>
    rw [resultsOf, ih fun i hi => hzero i (Nat.lt_succ_of_lt hi), hzero n (Nat.lt_succ_self n),
      resultStep_sendfile _ _ _ hslot]
    rfl

variable (file) in
/-- Some bytes, less than are left, keep the call in its loop. -/
lemma sendfileResult_more (offset : Nat) {remaining n : Nat} {o : Outgoing} {f : FileSlot}
    (hn : n < remaining) (hslot : o.slot = some f) :
    ∃ o', sendfileResult file f offset remaining o (.count n) =
      ⟨.sendfile (offset + n) (remaining - n), o'⟩ ∧ o'.slot = some f := by
  rcases Nat.eq_zero_or_pos n with rfl | hpos
  · exact ⟨o, rfl, hslot⟩
  · have hmore : remaining - n > 0 := by omega
    refine ⟨{ o with accepted := o.accepted ++ fileBytes (file f.fd) offset n }, ?_, hslot⟩
    rw [sendfileResult, if_pos hpos, fileLoop, if_pos hmore]
    rfl

lemma not_leaves_of_stalls {offset remaining : Nat} {o : Outgoing} {f : FileSlot}
    (hslot : o.slot = some f) (h : Stalls results remaining) :
    ¬ LeavesLoop file false results ⟨.sendfile offset remaining, o⟩ := by
  rcases h with ⟨sent, hsum, hresults⟩
  induction sent generalizing results offset remaining o with
  | nil =>
    rintro ⟨n, hn⟩
    rw [resultsOf_zeros hslot fun i _ => by simpa using hresults i] at hn
    cases hn
  | cons k sent ih =>
    rw [List.sum_cons] at hsum
    have hfirst : results 0 = .count k := by simpa using hresults 0
    have hk : k < remaining := by omega
    rcases sendfileResult_more file offset hk hslot with ⟨o', hstep, hslot'⟩
    rintro ⟨n, hn⟩
    rcases n with _ | n
    · cases hn
    · rw [resultsOf_succ, hfirst, resultStep_sendfile _ _ _ hslot, hstep] at hn
      refine ih hslot' (by omega) ?_ ⟨n, hn⟩
      intro i
      simpa using hresults (i + 1)

lemma stalls_cons {remaining k : Nat} (hfirst : results 0 = .count k)
    (h : Stalls (fun i => results (i + 1)) (remaining - k)) : Stalls results remaining := by
  rcases h with ⟨sent, hsum, hresults⟩
  refine ⟨k :: sent, ?_, ?_⟩
  · rw [List.sum_cons]
    omega
  · intro i
    rcases i with _ | i
    · exact hfirst
    · exact hresults i

/-- A result that is not zero ends the call or leaves less of the file. -/
lemma leaves_or_stalls_moved {offset remaining : Nat} {o : Outgoing} {f : FileSlot}
    (ih : ∀ less < remaining, ∀ {results : Nat → IoResult} {offset : Nat} {o : Outgoing},
      0 < less → o.slot = some f →
        LeavesLoop file false results ⟨.sendfile offset less, o⟩ ∨ Stalls results less)
    (hslot : o.slot = some f) (hmoved : results 0 ≠ .count 0) :
    LeavesLoop file false results ⟨.sendfile offset remaining, o⟩ ∨ Stalls results remaining := by
  have hstep := resultStep_sendfile file offset remaining hslot (results 0)
  rcases hfirst : results 0 with n | _ | _ | _
  · rw [hfirst] at hstep
    by_cases hend : n < remaining
    · have hn : n ≠ 0 := by
        rintro rfl
        exact hmoved hfirst
      rcases sendfileResult_more file offset hend hslot with
        ⟨o', hnext, hslot'⟩
      rw [hnext] at hstep
      rcases ih (remaining - n) (by omega) (by omega) hslot' with hleaves | hstalls
      · exact .inl (leaves_step (hfirst ▸ hstep) hleaves)
      · exact .inr (stalls_cons hfirst hstalls)
    · have hdone : ¬ remaining - n > 0 := by omega
      have hn : n > 0 := Nat.pos_of_ne_zero (by rintro rfl; exact hmoved hfirst)
      rw [sendfileResult, if_pos hn, fileLoop, if_neg hdone] at hstep
      exact .inl (leaves_step (hfirst ▸ hstep) (leaves_of_left rfl))
  all_goals exact .inl (leaves_step hstep (leaves_of_left (by rw [hfirst]; rfl)))

/-- A plaintext call is left, or stalls. -/
lemma leaves_or_stalls {offset remaining : Nat} {o : Outgoing} {f : FileSlot}
    (hpos : 0 < remaining) (hslot : o.slot = some f) :
    LeavesLoop file false results ⟨.sendfile offset remaining, o⟩ ∨ Stalls results remaining := by
  induction remaining using Nat.strongRecOn generalizing results offset o with
  | ind remaining ih =>
    by_cases hall : ∀ i, results i = .count 0
    · refine .inr ⟨[], hpos, fun i => ?_⟩
      simpa using hall i
    · -- zeros are taken one by one, until a result that is not zero
      rcases not_forall.mp hall with ⟨j, hj⟩
      clear hall
      induction j generalizing results with
      | zero => exact leaves_or_stalls_moved ih hslot hj
      | succ j ihj =>
        by_cases hzero : results 0 = .count 0
        · have hrest := @ihj (fun i => results (i + 1)) hj
          have hstep := resultStep_sendfile file offset remaining hslot (results 0)
          rw [hzero] at hstep
          rcases hrest with hleaves | hstalls
          · exact .inl (leaves_step (hzero ▸ hstep) hleaves)
          · exact .inr (stalls_cons hzero hstalls)
        · exact leaves_or_stalls_moved ih hslot hzero

/-- The file phase of a call is left, with everything sent, waiting or closed, after finitely
many results, unless the connection is plaintext and `sendfile` sends less than what is left
of the file and then nothing any more. -/
theorem leaves_iff (file : Nat → Nat → UInt8) (isSsl : Bool) (results : Nat → IoResult)
    (o : Outgoing) :
    LeavesLoop file isSsl results (enterFile isSsl o) ↔
      ¬ (isSsl = false ∧ ∃ f, o.slot = some f ∧ Stalls results f.remaining) := by
  rcases hslot : o.slot with _ | f
  · have henter : enterFile isSsl o = ⟨.sent, o⟩ := by rw [enterFile, hslot]
    rw [henter]
    constructor
    · rintro - ⟨-, f, hf, -⟩
      cases hf
    · intro _
      exact leaves_of_left rfl
  · have henter : enterFile isSsl o = fileLoop isSsl f.offset f.remaining o := by
      rw [enterFile, hslot]
    rw [henter]
    by_cases hpos : f.remaining > 0
    · rw [fileLoop, if_pos hpos]
      cases isSsl
      · -- on a plaintext connection the call is left or stalls, and not both
        rw [if_neg Bool.false_ne_true]
        constructor
        · rintro hleaves ⟨-, g, hg, hstalls⟩
          cases hg
          exact not_leaves_of_stalls hslot hstalls hleaves
        · intro hnot
          rcases leaves_or_stalls hpos hslot with hleaves | hstalls
          · exact hleaves
          · exact absurd ⟨rfl, f, rfl, hstalls⟩ hnot
      · rw [if_pos rfl]
        constructor
        · rintro - ⟨hplain, -⟩
          cases hplain
        · intro _
          split
          · exact leaves_sslFile hslot (.inl ⟨_, _, hpos, rfl⟩)
          · exact leaves_sslFile hslot (.inr ⟨_, _, hpos, rfl⟩)
    · rw [fileLoop, if_neg hpos]
      constructor
      · rintro - ⟨-, g, hg, sent, hsum, -⟩
        cases hg
        omega
      · intro _
        exact leaves_of_left rfl

/-- A file of ten bytes was emptied after it was measured: `sendfile` sends nothing, and a
plaintext call stays in its loop. -/
theorem truncated_spins :
    ¬ LeavesLoop (fun _ _ => 0) false (fun _ => .count 0)
      (enterFile false { queue := [], slot := some ⟨5, 0, 10⟩ }) := by
  apply not_leaves_of_stalls rfl
  exact ⟨[], by decide, fun _ => rfl⟩

end Progress

/-! ## Nothing is lost or sent twice -/

/-- What happens to a connection that has something to send. -/
inductive SendLabel where
  | call
  | result (r : IoResult)
deriving DecidableEq, Repr

/-- The file from its offset to its size. -/
def fileRest (file : Nat → Nat → UInt8) : Option FileSlot → Bytes
  | none => []
  | some f => fileBytes (file f.fd) f.offset f.remaining

def sendStep (file : Nat → Nat → UInt8) (isSsl : Bool) : SendLabel → Sending → Option Sending
  | .call, s =>
    if s.pc = .waiting ∨ s.pc = .sent then some (handleWrite isSsl s.out) else none
  | .result r, s => resultStep file isSsl r s

/-- How many bytes the kernel or OpenSSL is offered, or asked for. -/
def offered (isSsl : Bool) (s : Sending) : Nat :=
  match s.pc with
  | .queue =>
    if isSsl then (s.out.queue.headD []).length else (s.out.queue.take maxIov).flatten.length
  | .sendfile _ remaining => remaining
  | .pread _ remaining => min sslSendfileBuf remaining
  | .sslFile _ _ => s.out.sslFileBuffer.length
  | .sent | .waiting | .closed => 0

/-- No count is larger than what was offered. -/
def Possible (isSsl : Bool) (s : Sending) : SendLabel → Prop
  | .result (.count n) => n ≤ offered isSsl s
  | _ => True

instance (isSsl : Bool) (s : Sending) (l : SendLabel) : Decidable (Possible isSsl s l) := by
  unfold Possible
  split <;> infer_instance

section Exact

variable (file : Nat → Nat → UInt8) (isSsl : Bool) (original : Bytes)

/-- What was accepted and what is stored are together what was to be sent. -/
structure Keeps (o : Outgoing) : Prop where
  whole : o.accepted ++ o.queue.flatten ++ fileRest file o.slot = original
  buffered : o.sslFileBuffer <+: fileRest file o.slot
  plain : isSsl = false → o.sslFileBuffer = []

/-- The same inside the file phase, whose place in the file is not stored. -/
def KeepsAt (offset remaining : Nat) (o : Outgoing) : Prop :=
  o.queue = [] ∧ ∃ f, o.slot = some f ∧ remaining = f.size - offset ∧
    Keeps file isSsl original { o with slot := some { f with offset := offset } }

def Exact (s : Sending) : Prop :=
  match s.pc with
  | .queue | .sent | .waiting => Keeps file isSsl original s.out
  | .sendfile offset remaining =>
    isSsl = false ∧ KeepsAt file isSsl original offset remaining s.out
  | .pread offset remaining | .sslFile offset remaining =>
    isSsl = true ∧ KeepsAt file isSsl original offset remaining s.out
  | .closed => s.out.accepted <+: original

variable {file isSsl original} {o : Outgoing}

lemma Keeps.accepted (h : Keeps file isSsl original o) : o.accepted <+: original := by
  rw [← h.whole, List.append_assoc]
  exact List.prefix_append _ _

lemma KeepsAt.accepted {offset remaining : Nat}
    (h : KeepsAt file isSsl original offset remaining o) : o.accepted <+: original := by
  rcases h with ⟨-, f, -, -, hkeeps⟩
  exact hkeeps.accepted

lemma exact_fileLoop {offset remaining : Nat}
    (h : KeepsAt file isSsl original offset remaining o) :
    Exact file isSsl original (fileLoop isSsl offset remaining o) := by
  rw [fileLoop]
  split
  · split
    · rename_i hssl
      split
      · exact ⟨hssl, h⟩
      · exact ⟨hssl, h⟩
    · rename_i hplain
      exact ⟨Bool.eq_false_iff.mpr hplain, h⟩
  · rename_i hend
    rcases h with ⟨hqueue, f, hslot, hremaining, hkeeps⟩
    -- nothing of the file is left, so the buffer is empty as well
    have hrest : fileRest file (some { f with offset := offset }) = [] := by
      rw [fileRest, FileSlot.remaining, show f.size - offset = 0 by omega]
      rfl
    have hwhole := hkeeps.whole
    have hbuf := hkeeps.buffered
    dsimp only at hwhole hbuf
    rw [hrest] at hwhole hbuf
    have hempty := List.prefix_nil.mp hbuf
    refine ⟨hwhole, ?_, fun hplain => ?_⟩
    · show (if isSsl then [] else o.sslFileBuffer) <+: []
      rw [hempty]
      split <;> exact List.prefix_rfl
    · show (if isSsl then [] else o.sslFileBuffer) = []
      rw [hempty]
      split <;> rfl

lemma exact_enterQueue (h : Keeps file isSsl original o) :
    Exact file isSsl original (enterQueue isSsl o) := by
  rw [enterQueue]
  split
  · rename_i hqueue
    rw [enterFile]
    rcases hslot : o.slot with _ | f
    · exact h
    · apply exact_fileLoop
      refine ⟨hqueue, f, hslot, rfl, ?_⟩
      rw [show ({ f with offset := f.offset } : FileSlot) = f from rfl, ← hslot]
      exact h
  · exact h

lemma exact_handleWrite (h : Keeps file isSsl original o) :
    Exact file isSsl original (handleWrite isSsl o) := by
  apply exact_enterQueue
  refine ⟨?_, h.buffered, h.plain⟩
  show o.accepted ++ (o.queue.dropWhile (· = [])).flatten ++ fileRest file o.slot = original
  rw [flatten_dropWhile_nil]
  exact h.whole

lemma exact_writev (h : Keeps file false original o) (r : IoResult) :
    Exact file false original (writevResult o r) := by
  rcases r with n | _ | _ | _
  · dsimp only [writevResult]
    split
    · apply exact_enterQueue
      refine ⟨?_, h.buffered, h.plain⟩
      show o.accepted ++ o.queue.flatten.take n ++ (consume n o.queue).flatten ++
        fileRest file o.slot = original
      rw [flatten_consume, List.append_assoc o.accepted, List.take_append_drop]
      exact h.whole
    · exact h.accepted
  · exact h
  · exact h.accepted
  · exact h.accepted

lemma exact_sslWrite {front : Bytes} {rest : List Bytes} (h : Keeps file true original o)
    (hqueue : o.queue = front :: rest) (r : IoResult) :
    Exact file true original (sslWriteResult front rest o r) := by
  have hwhole := h.whole
  rw [hqueue, List.flatten_cons] at hwhole
  rcases r with n | _ | _ | _
  · dsimp only [sslWriteResult]
    split
    · split
      · rename_i hall
        apply exact_enterQueue
        refine ⟨?_, h.buffered, h.plain⟩
        show o.accepted ++ front.take n ++ rest.flatten ++ fileRest file o.slot = original
        rw [hall, List.take_length, List.append_assoc o.accepted]
        exact hwhole
      · refine ⟨?_, h.buffered, h.plain⟩
        show o.accepted ++ front.take n ++ (front.drop n :: rest).flatten ++
          fileRest file o.slot = original
        rw [List.flatten_cons, List.append_assoc o.accepted, ← List.append_assoc (front.take n),
          List.take_append_drop]
        exact hwhole
    · exact h.accepted
  · exact h
  · exact h.accepted
  · exact h.accepted

variable (file) in
/-- The bytes of a file between two places of it. -/
lemma fileRest_move (f : FileSlot) {offset n : Nat} (hn : n ≤ f.size - offset) :
    fileRest file (some { f with offset := offset }) =
      fileBytes (file f.fd) offset n ++
        fileRest file (some { f with offset := offset + n }) := by
  rw [fileRest, fileRest, FileSlot.remaining, FileSlot.remaining, ← fileBytes_add]
  congr 1
  dsimp only
  omega

lemma exact_sendfile {offset remaining : Nat} {f : FileSlot} (hslot : o.slot = some f)
    (h : KeepsAt file false original offset remaining o) {r : IoResult}
    (hr : ∀ n, r = .count n → n ≤ remaining) :
    Exact file false original (sendfileResult file f offset remaining o r) := by
  rcases r with n | _ | _ | _
  · dsimp only [sendfileResult]
    split
    · apply exact_fileLoop
      rcases h with ⟨hqueue, g, hg, hremaining, hkeeps⟩
      cases hslot.symm.trans hg
      have hn := hr n rfl
      refine ⟨hqueue, f, hslot, by omega, ?_, ?_, hkeeps.plain⟩
      · show o.accepted ++ fileBytes (file f.fd) offset n ++ o.queue.flatten ++
          fileRest file (some { f with offset := offset + n }) = original
        have hwhole := hkeeps.whole
        dsimp only at hwhole
        rw [fileRest_move file f (hremaining ▸ hn), hqueue] at hwhole
        rw [hqueue]
        simpa using hwhole
      · show o.sslFileBuffer <+: _
        rw [hkeeps.plain rfl]
        exact List.nil_prefix
    · exact ⟨rfl, h⟩
  · rcases h with ⟨-, g, hg, -, hkeeps⟩
    cases hslot.symm.trans hg
    exact hkeeps
  · exact h.accepted
  · exact h.accepted

lemma exact_pread {offset remaining : Nat} {f : FileSlot} (hslot : o.slot = some f)
    (h : KeepsAt file true original offset remaining o) {r : IoResult}
    (hr : ∀ n, r = .count n → n ≤ min sslSendfileBuf remaining) :
    Exact file true original (preadResult file f offset remaining o r) := by
  rcases r with n | _ | _ | _
  · dsimp only [preadResult]
    split
    · rcases h with ⟨hqueue, g, hg, hremaining, hkeeps⟩
      cases hslot.symm.trans hg
      have hn := hr n rfl
      refine ⟨rfl, hqueue, f, hslot, hremaining, hkeeps.whole, ?_, fun hplain => by cases hplain⟩
      show fileBytes (file f.fd) offset n <+: fileRest file (some { f with offset := offset })
      rw [fileRest_move file f (n := n) (by omega)]
      exact List.prefix_append _ _
    · exact h.accepted
  · exact h.accepted
  · exact h.accepted
  · exact h.accepted

lemma exact_sslFile {offset remaining : Nat} {f : FileSlot} (hslot : o.slot = some f)
    (h : KeepsAt file true original offset remaining o) {r : IoResult}
    (hr : ∀ n, r = .count n → n ≤ o.sslFileBuffer.length) :
    Exact file true original (sslFileResult f offset remaining o r) := by
  rcases h with ⟨hqueue, g, hg, hremaining, hkeeps⟩
  cases hslot.symm.trans hg
  rcases r with n | _ | _ | _
  · dsimp only [sslFileResult]
    split
    · -- the buffer is the next part of the file, so its rest is the next part after `n` bytes
      rcases hkeeps.buffered with ⟨after, hafter⟩
      dsimp only at hafter
      have hn := hr n rfl
      have hlength : n ≤ f.size - offset := by
        have hall := congrArg List.length hafter
        rw [List.length_append, fileRest, length_fileBytes] at hall
        dsimp only [FileSlot.remaining] at hall
        omega
      have hmove := fileRest_move file f hlength
      rw [← hafter] at hmove
      have hsplit : o.sslFileBuffer.take n = fileBytes (file f.fd) offset n ∧
          o.sslFileBuffer.drop n ++ after =
            fileRest file (some { f with offset := offset + n }) := by
        apply List.append_inj
        · rw [← List.append_assoc, List.take_append_drop]
          exact hmove
        · rw [List.length_take, length_fileBytes]
          omega
      have hnext : Keeps file true original
          { o with
            slot := some { f with offset := offset + n }
            sslFileBuffer := o.sslFileBuffer.drop n
            accepted := o.accepted ++ o.sslFileBuffer.take n } := by
        refine ⟨?_, ⟨after, hsplit.2⟩, fun hplain => by cases hplain⟩
        have hwhole := hkeeps.whole
        dsimp only at hwhole ⊢
        rw [hqueue, ← hafter] at hwhole
        rw [hqueue, ← hsplit.2]
        simpa [← List.append_assoc (o.sslFileBuffer.take n)] using hwhole
      split
      · exact hnext
      · apply exact_fileLoop
        exact ⟨hqueue, _, rfl, by dsimp only; omega, hnext⟩
    · exact hkeeps.accepted
  · exact hkeeps
  · exact hkeeps.accepted
  · exact hkeeps.accepted

lemma exact_result {s t : Sending} {r : IoResult} (h : Exact file isSsl original s)
    (hr : ∀ n, r = .count n → n ≤ offered isSsl s) (hstep : resultStep file isSsl r s = some t) :
    Exact file isSsl original t := by
  rcases s with ⟨pc, o⟩
  rcases pc with _ | ⟨offset, remaining⟩ | ⟨offset, remaining⟩ | ⟨offset, remaining⟩ | _ | _ | _
  case queue =>
    dsimp only [resultStep] at hstep
    split at hstep
    · cases hstep
    · rename_i front rest hqueue
      cases hstep
      cases isSsl
      · exact exact_writev h r
      · exact exact_sslWrite h hqueue r
  case sendfile =>
    rcases h with ⟨rfl, hkeeps⟩
    rcases Option.map_eq_some_iff.mp hstep with ⟨f, hslot, rfl⟩
    exact exact_sendfile hslot hkeeps hr
  case pread =>
    rcases h with ⟨rfl, hkeeps⟩
    rcases Option.map_eq_some_iff.mp hstep with ⟨f, hslot, rfl⟩
    exact exact_pread hslot hkeeps hr
  case sslFile =>
    rcases h with ⟨rfl, hkeeps⟩
    rcases Option.map_eq_some_iff.mp hstep with ⟨f, hslot, rfl⟩
    exact exact_sslFile hslot hkeeps hr
  all_goals cases hstep

lemma exact_step {s t : Sending} {l : SendLabel} (h : Exact file isSsl original s)
    (hok : Possible isSsl s l) (hstep : sendStep file isSsl l s = some t) :
    Exact file isSsl original t := by
  rcases l with _ | r
  · dsimp only [sendStep] at hstep
    split at hstep
    · rename_i hpc
      cases hstep
      apply exact_handleWrite
      rcases hpc with hpc | hpc
      · rwa [Exact, hpc] at h
      · rwa [Exact, hpc] at h
    · cases hstep
  · refine exact_result h ?_ hstep
    rintro n rfl
    exact hok

/-- Over any calls of `handle_write` and any results, as long as no count is larger than what
was offered: what was accepted, the queue and the file from its stored offset are together
what was to be sent, and the buffer of a TLS connection is the first part of the rest of the
file. A connection that was closed has accepted a first part of it all. -/
theorem sending_exact (file : Nat → Nat → UInt8) (isSsl : Bool) (queue : List Bytes)
    (slot : Option FileSlot) {labels : List SendLabel} {s : Sending}
    (hrun : Run (sendStep file isSsl) (Possible isSsl)
      ⟨.waiting, { queue := queue, slot := slot }⟩ labels s) :
    (s.pc = .waiting ∨ s.pc = .sent →
      s.out.accepted ++ s.out.queue.flatten ++ fileRest file s.out.slot =
          queue.flatten ++ fileRest file slot ∧
        s.out.sslFileBuffer <+: fileRest file s.out.slot) ∧
      (s.pc = .closed → s.out.accepted <+: queue.flatten ++ fileRest file slot) := by
  have hexact : Exact file isSsl (queue.flatten ++ fileRest file slot) s := by
    refine hrun.invariant (I := Exact file isSsl _) ?_ fun t l u h hok hstep => ?_
    · exact ⟨rfl, List.nil_prefix, fun _ => rfl⟩
    · exact exact_step h hok hstep
  constructor
  · rintro (hpc | hpc)
    · rw [Exact, hpc] at hexact
      exact ⟨hexact.whole, hexact.buffered⟩
    · rw [Exact, hpc] at hexact
      exact ⟨hexact.whole, hexact.buffered⟩
  · intro hpc
    rw [Exact, hpc] at hexact
    exact hexact

/-- A TLS connection sends a head and a file of three bytes: the head in two parts over two
calls, then the file in two parts. -/
theorem sending_exact_fourCalls :
    ∃ s, Run (sendStep (fun _ i => UInt8.ofNat i) true) (Possible true)
        ⟨.waiting, { queue := [[7, 8]], slot := some ⟨5, 0, 3⟩ }⟩
        [.call, .result (.count 1), .call, .result (.count 1), .result (.count 3),
          .result (.count 2), .call, .result .wouldBlock] s ∧
      (s.pc, s.out.accepted, s.out.slot, s.out.sslFileBuffer) =
        (.waiting, [7, 8, 0, 1], some ⟨5, 2, 3⟩, [2]) ∧
      s.out.accepted ++ s.out.queue.flatten ++
        fileRest (fun _ i => UInt8.ofNat i) s.out.slot = [7, 8, 0, 1, 2] := by
  have hexec : (exec (sendStep (fun _ i => UInt8.ofNat i) true) (Possible true)
      [.call, .result (.count 1), .call, .result (.count 1), .result (.count 3),
        .result (.count 2), .call, .result .wouldBlock]
      ⟨.waiting, { queue := [[7, 8]], slot := some ⟨5, 0, 3⟩ }⟩).map
        (fun s => (s.pc, s.out.accepted, s.out.slot, s.out.sslFileBuffer)) =
      some (.waiting, [7, 8, 0, 1], some ⟨5, 2, 3⟩, [2]) := by decide +kernel
  rcases exists_run_of_exec hexec with ⟨s, hrun, hs⟩
  refine ⟨s, hrun, hs, ?_⟩
  have hpc : s.pc = .waiting := congrArg Prod.fst hs
  rw [((sending_exact _ _ _ _ hrun).1 (.inl hpc)).1]
  decide

end Exact

/-! ## The connection

The passes of `Machine`, which store the place in a file after each write, do the same to
what there is to send. -/

def Conn.outgoing (c : Conn) : Outgoing := ⟨c.sendQueue, c.file, c.sslFileBuffer, c.hist.written⟩

section Connection

variable {c c' : Conn} {f : FileSlot} {n : Nat}

lemma writevResult_outgoing (hn : n > 0) (h : writevPass c (.wrote n) = some c') :
    writevResult c.outgoing (.count n) = enterQueue false c'.outgoing := by
  obtain ⟨-, rfl⟩ : _ ∧ _ := by simpa [writevPass, Nat.ne_of_gt hn] using h
  exact if_pos hn

lemma sslWriteResult_outgoing {front : Bytes} {rest : List Bytes}
    (h : sslWritePass front rest c (.wrote n) = some c') :
    sslWriteResult front rest c.outgoing (.count n) =
      if n = front.length then enterQueue true c'.outgoing else ⟨.waiting, c'.outgoing⟩ := by
  simp only [sslWritePass] at h
  split at h
  · cases h
  · have hn : n > 0 := by omega
    split at h <;> cases h <;> simp_all [sslWriteResult, Conn.outgoing, waitWritable, History.write]

lemma sendfileResult_outgoing {env : Env} (hn : n > 0)
    (h : sendfilePass env f c (.wrote n) = some c') :
    sendfileResult env.file f f.offset f.remaining c.outgoing (.count n) =
      fileLoop false (f.offset + n) (f.remaining - n) { c'.outgoing with slot := c.file } := by
  obtain ⟨-, rfl⟩ : _ ∧ _ := by simpa [sendfilePass] using h
  exact if_pos hn

lemma sslFileResult_outgoing (h : sslFileWrite f c.sslFileBuffer c (.wrote n) = some c') :
    sslFileResult f f.offset f.remaining c.outgoing (.count n) =
      if c'.sslFileBuffer ≠ [] then ⟨.waiting, c'.outgoing⟩
      else fileLoop true (f.offset + n) (f.remaining - n) c'.outgoing := by
  simp only [sslFileWrite] at h
  split at h
  · cases h
  · have hn : n > 0 := by omega
    split at h <;> cases h <;> simp_all [sslFileResult, Conn.outgoing, waitWritable, History.write]

end Connection

end EpollGateway.Handler
