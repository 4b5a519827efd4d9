import EpollGateway.Handler.Forwarding
import EpollGateway.Upstream.Exchange

/-! # The identity of a pooled connection

The pool keeps idle connections under a text: the scheme, the host and the port of a target,
one behind the other. The scheme stands for what has been verified of the connection. For a
plaintext target it is empty, for a target that skips verification it is a fixed word, and
otherwise it is made of the CA file and the server name, both as the configuration has them.

A key is read from its end: neither a port nor a dotted quad has a `:` or a `|`, and a server
name has no `|`, so the last `:` and the last two `|` are the ones that `pool_key` and the
scheme have written, whatever is in the CA file (`poolKeyOf_eq_iff`). The key does not hold
`skip_verify` for a plaintext target, which has nothing to verify (`plaintext_keys`).
-/

namespace EpollGateway.Upstream

open Bytes Handler

/-! ## Keys -/

/-- What a pool key is made from. -/
structure PoolTarget where
  host : Bytes
  port : Int
  tls : UpstreamTlsOptions
deriving DecidableEq, Repr

/-- `pool_key`, of the `pool_scheme` of a target. -/
def poolKeyOf (t : PoolTarget) : Bytes :=
  poolScheme t.tls ++ t.host ++ ascii ":" ++ intText t.port

/-- The key of an exchange is that of its target. -/
lemma poolKey_eq (p : Params) : poolKey p = poolKeyOf ⟨p.host, p.port, p.tls⟩ := rfl

/-- A target as the configuration may have it: the address of a server, and a name without
the separator of the scheme. -/
structure PoolTarget.Named (t : PoolTarget) : Prop where
  host : DottedQuad t.host
  serverName : 124 ∉ t.tls.serverName

/-- Whether a certificate is verified for a target. -/
def PoolTarget.verifies (t : PoolTarget) : Bool := t.tls.enable && !t.tls.skipVerify

/-- The same server under the same policy. -/
structure SamePolicy (a b : PoolTarget) : Prop where
  host : a.host = b.host
  port : a.port = b.port
  tls : a.tls.enable = b.tls.enable
  skipVerify : a.tls.enable = true → a.tls.skipVerify = b.tls.skipVerify
  caFile : a.verifies = true → a.tls.caFile = b.tls.caFile
  serverName : a.verifies = true → a.tls.serverName = b.tls.serverName

/-! ## Reading a key from its end -/

lemma ascii_colon : ascii ":" = [58] := by decide +kernel

lemma ascii_bar : ascii "|" = [124] := by decide +kernel

/-- The part of a key behind the scheme. -/
def hostPort (t : PoolTarget) : Bytes := t.host ++ 58 :: intText t.port

lemma poolKeyOf_append (t : PoolTarget) : poolKeyOf t = poolScheme t.tls ++ hostPort t := by
  simp [poolKeyOf, hostPort, ascii_colon]

lemma DottedQuad.notMem {host : Bytes} (h : DottedQuad host) {c : UInt8}
    (hc : ¬(c = 46 ∨ 48 ≤ c ∧ c ≤ 57)) : c ∉ host := fun hmem => hc (h c hmem)

lemma notMem_intText (n : Int) {c : UInt8} (hc : ¬(c = 45 ∨ 48 ≤ c ∧ c ≤ 57)) :
    c ∉ intText n := fun hmem => hc (mem_intText hmem)

lemma bar_notMem_hostPort {t : PoolTarget} (h : t.Named) : 124 ∉ hostPort t := by
  have hhost : 124 ∉ t.host := DottedQuad.notMem h.host (by decide)
  have hport : 124 ∉ intText t.port := notMem_intText t.port (by decide)
  simp [hostPort, hhost, hport]

variable {c : PooledConnection} {a b : PoolTarget} {tls : UpstreamTlsOptions}

lemma hostPort_inj (h : hostPort a = hostPort b) : a.host = b.host ∧ a.port = b.port := by
  have hport : ∀ n : Int, 58 ∉ intText n := fun n => notMem_intText n (by decide)
  rcases append_cons_inj_last (hport a.port) (hport b.port) h with ⟨hhost, htext⟩
  exact ⟨hhost, intText_injective htext⟩

/-! ## The three schemes -/

lemma poolScheme_plain (h : tls.enable = false) : poolScheme tls = [] := by
  simp [poolScheme, h]

lemma poolScheme_insecure (h : tls.enable = true) (hskip : tls.skipVerify = true) :
    poolScheme tls = ascii "tls/insecure" ++ [124] := by
  have htext : ascii "tls/insecure|" = ascii "tls/insecure" ++ [124] := by decide +kernel
  simp [poolScheme, h, hskip, htext]

lemma poolScheme_verified (h : tls.enable = true) (hskip : tls.skipVerify = false) :
    poolScheme tls = (ascii "tls/" ++ tls.caFile ++ 124 :: tls.serverName) ++ [124] := by
  simp [poolScheme, h, hskip, ascii_bar]

/-- A scheme is empty, for plaintext, or ends in a `|`. -/
lemma poolScheme_ends (h : tls.enable = true) : ∃ policy, poolScheme tls = policy ++ [124] := by
  rcases hskip : tls.skipVerify with _ | _
  · exact ⟨_, poolScheme_verified h hskip⟩
  · exact ⟨_, poolScheme_insecure h hskip⟩

/-- The key of a plaintext target has no `|`, the one of a TLS target has. -/
lemma enable_of_key (ha : a.Named) (h : poolKeyOf a = poolKeyOf b) (hb : b.tls.enable = true) :
    a.tls.enable = true := by
  rcases hplain : a.tls.enable with _ | _
  · rcases poolScheme_ends hb with ⟨policy, hpolicy⟩
    rw [poolKeyOf_append a, poolKeyOf_append b, poolScheme_plain hplain, hpolicy] at h
    have hbar := bar_notMem_hostPort ha
    rw [show hostPort a = _ from h] at hbar
    simp at hbar
  · rfl

/-- Equal keys have equal schemes in front of equal addresses. -/
lemma split_key (ha : a.Named) (hb : b.Named) (h : poolKeyOf a = poolKeyOf b) :
    poolScheme a.tls = poolScheme b.tls ∧ hostPort a = hostPort b := by
  have henable : a.tls.enable = b.tls.enable := by
    rw [Bool.eq_iff_iff]
    exact ⟨enable_of_key hb h.symm, enable_of_key ha h⟩
  rw [poolKeyOf_append, poolKeyOf_append] at h
  rcases hplain : b.tls.enable with _ | _
  · rw [hplain] at henable
    rw [poolScheme_plain henable, poolScheme_plain hplain] at h ⊢
    exact ⟨rfl, h⟩
  · rw [hplain] at henable
    rcases poolScheme_ends henable with ⟨policy, hpolicy⟩
    rcases poolScheme_ends hplain with ⟨policy', hpolicy'⟩
    rw [hpolicy, hpolicy', List.append_assoc, List.append_assoc] at h
    rcases append_cons_inj_last (bar_notMem_hostPort ha) (bar_notMem_hostPort hb) h
      with ⟨hsame, haddress⟩
    rw [hpolicy, hpolicy', hsame]
    exact ⟨rfl, haddress⟩

/-- The word for a target that skips verification has one `|`, a scheme with a CA file and
a server name has two. -/
lemma insecure_ne_verified (ca name : Bytes) :
    ascii "tls/insecure" ++ [124] ≠ (ascii "tls/" ++ ca ++ 124 :: name) ++ [124] := by
  intro heq
  have hsame := List.append_cancel_right heq
  have hbar : 124 ∉ ascii "tls/insecure" := by decide +kernel
  rw [hsame] at hbar
  simp at hbar

/-- Two schemes of TLS targets are equal for equal policies only. -/
lemma poolScheme_inj (ha : a.Named) (hb : b.Named) (hatls : a.tls.enable = true)
    (hbtls : b.tls.enable = true) (h : poolScheme a.tls = poolScheme b.tls) :
    a.tls.skipVerify = b.tls.skipVerify ∧
      (a.tls.skipVerify = false →
        a.tls.caFile = b.tls.caFile ∧ a.tls.serverName = b.tls.serverName) := by
  rcases haskip : a.tls.skipVerify with _ | _ <;> rcases hbskip : b.tls.skipVerify with _ | _
  · refine ⟨rfl, fun _ => ?_⟩
    rw [poolScheme_verified hatls haskip, poolScheme_verified hbtls hbskip] at h
    rcases append_cons_inj_last ha.serverName hb.serverName (List.append_cancel_right h)
      with ⟨hca, hname⟩
    exact ⟨List.append_cancel_left hca, hname⟩
  · rw [poolScheme_verified hatls haskip, poolScheme_insecure hbtls hbskip] at h
    exact absurd h.symm (insecure_ne_verified _ _)
  · rw [poolScheme_insecure hatls haskip, poolScheme_verified hbtls hbskip] at h
    exact absurd h (insecure_ne_verified _ _)
  · exact ⟨rfl, nofun⟩

lemma poolScheme_congr {a b : UpstreamTlsOptions} (htls : a.enable = b.enable)
    (hskip : a.enable = true → a.skipVerify = b.skipVerify)
    (hpolicy : a.enable = true → a.skipVerify = false →
      a.caFile = b.caFile ∧ a.serverName = b.serverName) : poolScheme a = poolScheme b := by
  rcases ha : a.enable with _ | _
  · rw [poolScheme_plain ha, poolScheme_plain (htls ▸ ha)]
  · have hb : b.enable = true := htls ▸ ha
    have hsame := hskip ha
    rcases hno : a.skipVerify with _ | _
    · rcases hpolicy ha hno with ⟨hca, hname⟩
      rw [poolScheme_verified ha hno, poolScheme_verified hb (hsame ▸ hno), hca, hname]
    · rw [poolScheme_insecure ha hno, poolScheme_insecure hb (hsame ▸ hno)]

lemma verifies_iff {t : PoolTarget} :
    t.verifies = true ↔ t.tls.enable = true ∧ t.tls.skipVerify = false := by
  simp [PoolTarget.verifies]

/-- A key stands for a server and what is verified of it. -/
lemma poolKeyOf_eq_iff (ha : a.Named) (hb : b.Named) :
    poolKeyOf a = poolKeyOf b ↔ SamePolicy a b := by
  constructor
  · intro h
    rcases split_key ha hb h with ⟨hscheme, haddress⟩
    rcases hostPort_inj haddress with ⟨hhost, hport⟩
    have htls : a.tls.enable = b.tls.enable := by
      rw [Bool.eq_iff_iff]
      exact ⟨enable_of_key hb h.symm, enable_of_key ha h⟩
    have hpolicy := fun henable : a.tls.enable = true =>
      poolScheme_inj ha hb henable (htls ▸ henable) hscheme
    refine ⟨hhost, hport, htls, fun henable => (hpolicy henable).1, ?_, ?_⟩
    · intro hverifies
      rcases verifies_iff.mp hverifies with ⟨henable, hno⟩
      exact ((hpolicy henable).2 hno).1
    · intro hverifies
      rcases verifies_iff.mp hverifies with ⟨henable, hno⟩
      exact ((hpolicy henable).2 hno).2
  · intro h
    have hscheme : poolScheme a.tls = poolScheme b.tls := by
      apply poolScheme_congr h.tls h.skipVerify
      intro henable hno
      have hverifies := verifies_iff.mpr ⟨henable, hno⟩
      exact ⟨h.caFile hverifies, h.serverName hverifies⟩
    unfold poolKeyOf
    rw [hscheme, h.host, h.port]

/-! ## Sessions -/

/-- What is done with the pool, for which target. -/
inductive PoolUse where
  | checkout (t : PoolTarget) (now : Nat)
  | checkin (t : PoolTarget) (conn : PooledConnection) (now : Nat)
  | invalidate (t : PoolTarget)

def PoolUse.target : PoolUse → PoolTarget
  | .checkout t _ | .checkin t _ _ | .invalidate t => t

def usePool (pool : Pool) : PoolUse → Pool
  | .checkout t now => (pool.checkout (poolKeyOf t) now).2
  | .checkin t conn now => pool.checkin (poolKeyOf t) conn now
  | .invalidate t => pool.invalidate (poolKeyOf t)

/-- The pool after some uses. -/
def poolAfter (uses : List PoolUse) : Pool := uses.foldl usePool fun _ => []

/-- A connection has been checked in under a key. -/
def CheckedIn (uses : List PoolUse) (key : Bytes) (c : PooledConnection) : Prop :=
  ∃ t conn now, .checkin t conn now ∈ uses ∧ poolKeyOf t = key ∧
    c = { conn with lastUsed := now }

variable {pool : Pool} {k key : Bytes}

lemma mem_checkout {now : Nat} (h : c ∈ (pool.checkout key now).2 k) : c ∈ pool k := by
  have hsuffix := List.dropWhile_suffix (fun c : PooledConnection => c.lastUsed + idleTimeout < now)
    (l := pool key)
  unfold Pool.checkout at h
  by_cases hk : k = key
  · subst hk
    split at h
    · simp at h
    · rename_i rest hdrop
      dsimp only at h
      rw [assign_self] at h
      exact hsuffix.subset (hdrop ▸ List.mem_cons_of_mem _ h)
  · split at h <;> dsimp only at h <;> rwa [assign_ne _ _ hk] at h

lemma mem_checkin {now : Nat} {conn : PooledConnection} (h : c ∈ pool.checkin key conn now k) :
    c ∈ pool k ∨ k = key ∧ c = { conn with lastUsed := now } := by
  unfold Pool.checkin at h
  split at h
  · exact .inl h
  · by_cases hk : k = key
    · subst hk
      rw [assign_self, List.mem_append, List.mem_singleton] at h
      exact h.imp_right fun hnew => ⟨rfl, hnew⟩
    · rw [assign_ne _ _ hk] at h
      exact .inl h

lemma mem_invalidate (h : c ∈ pool.invalidate key k) : c ∈ pool k := by
  unfold Pool.invalidate at h
  by_cases hk : k = key
  · subst hk
    simp at h
  · rwa [assign_ne _ _ hk] at h

/-- What a use adds to a queue is what it has checked in. -/
lemma mem_usePool {use : PoolUse} (h : c ∈ usePool pool use k) :
    c ∈ pool k ∨ CheckedIn [use] k c := by
  cases use with
  | checkout t now => exact .inl (mem_checkout h)
  | invalidate t => exact .inl (mem_invalidate h)
  | checkin t conn now =>
    rcases mem_checkin h with hold | ⟨hkey, hnew⟩
    · exact .inl hold
    · exact .inr ⟨t, conn, now, List.mem_singleton_self _, hkey.symm, hnew⟩

/-- A connection in a queue has been checked in under its key. -/
lemma checkedIn_of_mem (uses : List PoolUse) (h : c ∈ poolAfter uses k) : CheckedIn uses k c := by
  induction uses using List.reverseRecOn with
  | nil => simp [poolAfter] at h
  | append_singleton uses use ih =>
    rw [poolAfter, List.foldl_append, List.foldl_cons, List.foldl_nil] at h
    rcases mem_usePool h with hold | ⟨t, conn, now, hmem, hkey, hc⟩
    · rcases ih hold with ⟨t, conn, now, hmem, hkey, hc⟩
      exact ⟨t, conn, now, List.mem_append_left _ hmem, hkey, hc⟩
    · exact ⟨t, conn, now, List.mem_append_right _ hmem, hkey, hc⟩

lemma mem_of_checkout {now : Nat} (h : (pool.checkout key now).1 = some c) : c ∈ pool key := by
  have hsuffix := List.dropWhile_suffix (fun c : PooledConnection => c.lastUsed + idleTimeout < now)
    (l := pool key)
  unfold Pool.checkout at h
  split at h
  · simp at h
  · rename_i rest hdrop
    rw [Option.some.injEq] at h
    exact hsuffix.subset (hdrop ▸ h ▸ List.mem_cons_self)

/-- A key stands for a server and what is verified of it, and a session comes back for the
same server under the same policy only. -/
theorem pool_keeps_policy :
    (∀ a b : PoolTarget, a.Named → b.Named → (poolKeyOf a = poolKeyOf b ↔ SamePolicy a b)) ∧
    ∀ (uses : List PoolUse) (a : PoolTarget) (now : Nat) (c : PooledConnection),
      (∀ use ∈ uses, use.target.Named) → a.Named →
      ((poolAfter uses).checkout (poolKeyOf a) now).1 = some c →
      ∃ b conn time, .checkin b conn time ∈ uses ∧ c = { conn with lastUsed := time } ∧
        SamePolicy b a := by
  constructor
  · intro a b ha hb
    exact poolKeyOf_eq_iff ha hb
  · intro uses a now c huses ha hout
    rcases checkedIn_of_mem uses (mem_of_checkout hout) with ⟨b, conn, time, hmem, hkey, hc⟩
    exact ⟨b, conn, time, hmem, hc, (poolKeyOf_eq_iff (huses _ hmem) ha).mp hkey⟩

/-- A server whose certificate is verified for its own CA file. -/
def verifiedTarget : PoolTarget :=
  ⟨ascii "10.0.0.7", 8443,
    { enable := true, caFile := ascii "/etc/ca|1", serverName := ascii "api" }⟩

lemma verifiedTarget_named : verifiedTarget.Named := ⟨by decide +kernel, by decide +kernel⟩

theorem pool_keeps_policy_verified :
    ∃ b conn time, .checkin b conn time ∈ [PoolUse.checkin verifiedTarget { sock := 3 } 10] ∧
      ({ sock := 3, lastUsed := 10 } : PooledConnection) = { conn with lastUsed := time } ∧
      SamePolicy b verifiedTarget := by
  apply pool_keeps_policy.2 _ verifiedTarget 11
  · intro use huse
    rw [List.mem_singleton.mp huse]
    exact verifiedTarget_named
  · exact verifiedTarget_named
  · decide +kernel

/-- Two plaintext targets share a queue when one of them is told to skip verification. -/
theorem plaintext_keys :
    ∃ a b : PoolTarget, a.Named ∧ b.Named ∧ poolKeyOf a = poolKeyOf b ∧
      a.tls.skipVerify ≠ b.tls.skipVerify := by
  refine ⟨⟨ascii "127.0.0.1", 9001, {}⟩, ⟨ascii "127.0.0.1", 9001, { skipVerify := true }⟩,
    ⟨by decide +kernel, by simp⟩, ⟨by decide +kernel, by simp⟩, rfl, ?_⟩
  decide

end EpollGateway.Upstream
