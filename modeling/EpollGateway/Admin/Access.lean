import EpollGateway.Handler.Route
import Mathlib.Data.Nat.ModEq

/-! # Comparing keys

`constant_time_equals` stands in `ApiKeyManager` and again in the admin server. It gathers
the differences of two strings in one byte. The first of them is that of the lengths,
cut down to a byte; the others are those of the bytes, where the shorter string is
continued with zeros. So two strings are taken for equal when the longer one is the
shorter one with zero bytes behind it, as many as a multiple of 256.

A key that is presented is found exactly when it is configured, unless a configured key
differs from it in this way (`keys_exact_iff`).
-/

namespace EpollGateway.Admin

open Bytes Http Handler

/-! ## The tables -/

/-- The constructor and `reload` of `ApiKeyManager`: of several entries with one key the
last one stays. -/
def loadKeys (keys : List ApiKeyConfig) : AList fun _ : Bytes => ApiKeyConfig :=
  keys.foldl (fun table k => table.insert k.key k) ∅

/-- `keys_` in some order of iteration. -/
structure ApiKeyManager (keys : List ApiKeyConfig) where
  order : List ApiKeyConfig
  perm : order.Perm ((loadKeys keys).entries.map Sigma.snd)

/-- `config_.admin.api_keys`; `validate` rejects an empty key. -/
structure AdminKeys where
  keys : List Bytes
  ne_nil : ∀ k ∈ keys, k ≠ []

/-- The key in the headers of an admin request. -/
def presentedKey (headers : Headers) : Bytes :=
  match headers.lookup (ascii "x-api-key") with
  | some key => key
  | none =>
    match headers.lookup (ascii "authorization") with
    | some auth => if ascii "Bearer " <+: auth then auth.drop 7 else []
    | none => []

/-- `AdminServer::authorize`, with the text that it leaves in `err`. -/
def AdminKeys.authorize (admin : AdminKeys) (headers : Headers) : Except Bytes Unit :=
  let key := presentedKey headers
  if key = [] then .error (ascii "missing api key")
  else if admin.keys.any (constantTimeEquals key ·) then .ok ()
  else .error (ascii "invalid api key")

/-! ## What should hold -/

/-- A key is treated as what it is: it compares equal to itself only, it finds its own
entry only, a route's lists are asked about the key that was found, and the admin server
accepts it only if it is one of its keys. -/
structure KeyExact {keys : List ApiKeyConfig} (manager : ApiKeyManager keys) (admin : AdminKeys)
    (key : Bytes) : Prop where
  equals : ∀ k, k ∈ keys.map (·.key) ∨ k ∈ admin.keys → (constantTimeEquals k key = true ↔ k = key)
  get : ∀ c, findKey manager.order key = some c ↔ (loadKeys keys).lookup key = some c
  listed : ∀ route host tenant, authorize manager.order key route host tenant = true →
    ∃ c, findKey manager.order key = some c ∧ c.key = key
  accepted : ∀ headers, presentedKey headers = key →
    (admin.authorize headers = .ok () ↔ key ∈ admin.keys)

/-- One string is the other with zero bytes behind it, a multiple of 256 of them. -/
def Padded (a b : Bytes) : Prop := ∃ n, 0 < n ∧ b = a ++ List.replicate (256 * n) 0

/-- Different strings that are taken for equal. -/
def Confused (a b : Bytes) : Prop := Padded a b ∨ Padded b a

/-! ## The comparison -/

lemma foldl_or_eq_zero (f : Nat → UInt8) (l : List Nat) (d : UInt8) :
    l.foldl (fun diff i => diff ||| f i) d = 0 ↔ d = 0 ∧ ∀ i ∈ l, f i = 0 := by
  induction l generalizing d with
  | nil => simp
  | cons i l ih =>
    rw [List.foldl_cons, ih, UInt8.or_eq_zero_iff]
    simp only [List.forall_mem_cons, and_assoc]

/-- The byte at a position; behind the end it is zero. -/
def byteAt (a : Bytes) (i : Nat) : UInt8 := (a[i]?).getD 0

lemma constantTimeEquals_iff (a b : Bytes) :
    constantTimeEquals a b = true ↔
      a.length ≡ b.length [MOD 256] ∧ ∀ i, byteAt a i = byteAt b i := by
  have hlengths : UInt8.ofNat a.length = UInt8.ofNat b.length ↔
      a.length ≡ b.length [MOD 256] := by
    rw [← UInt8.toNat_inj]
    simp [Nat.ModEq]
  unfold constantTimeEquals
  dsimp only
  rw [beq_iff_eq, foldl_or_eq_zero, UInt8.xor_eq_zero_iff, hlengths]
  constructor
  · rintro ⟨hlen, hbytes⟩
    refine ⟨hlen, ?_⟩
    intro i
    by_cases hi : i < max a.length b.length
    · exact UInt8.xor_eq_zero_iff.mp (hbytes i (List.mem_range.mpr hi))
    · -- behind the end of both
      have hmax := not_lt.mp hi
      unfold byteAt
      rw [List.getElem?_eq_none (le_trans (le_max_left _ _) hmax),
        List.getElem?_eq_none (le_trans (le_max_right _ _) hmax)]
  · rintro ⟨hlen, hbytes⟩
    refine ⟨hlen, ?_⟩
    intro i _
    exact UInt8.xor_eq_zero_iff.mpr (hbytes i)

lemma byteAt_append_zeros (a : Bytes) (n i : Nat) :
    byteAt (a ++ List.replicate n 0) i = byteAt a i := by
  unfold byteAt
  by_cases hi : i < a.length
  · rw [List.getElem?_append_left hi]
  · have hle := not_lt.mp hi
    rw [List.getElem?_append_right hle, List.getElem?_eq_none hle, List.getElem?_replicate]
    split
    · rfl
    · rfl

variable {a b key : Bytes}

/-- Equal bytes everywhere: the longer string has zeros behind the shorter one. -/
lemma eq_append_zeros (hle : a.length ≤ b.length) (h : ∀ i, byteAt a i = byteAt b i) :
    b = a ++ List.replicate (b.length - a.length) 0 := by
  apply List.ext_getElem?
  intro i
  have hi := (byteAt_append_zeros a (b.length - a.length) i).trans (h i)
  unfold byteAt at hi
  have hlen : (a ++ List.replicate (b.length - a.length) 0).length = b.length := by
    rw [List.length_append, List.length_replicate]
    omega
  by_cases hlt : i < b.length
  · have hlt' : i < (a ++ List.replicate (b.length - a.length) 0).length := by rwa [hlen]
    rw [List.getElem?_eq_getElem hlt, List.getElem?_eq_getElem hlt'] at hi ⊢
    exact congrArg some hi.symm
  · have hge : (a ++ List.replicate (b.length - a.length) 0).length ≤ i := by
      rw [hlen]
      exact not_lt.mp hlt
    rw [List.getElem?_eq_none (not_lt.mp hlt), List.getElem?_eq_none hge]

lemma Padded.equals (h : Padded a b) :
    a.length ≡ b.length [MOD 256] ∧ ∀ i, byteAt a i = byteAt b i := by
  rcases h with ⟨n, -, rfl⟩
  constructor
  · rw [List.length_append, List.length_replicate]
    exact (Nat.ModEq.add_left _ (Nat.modEq_zero_iff_dvd.mpr (Nat.dvd_mul_right 256 n))).symm
  · intro i
    exact (byteAt_append_zeros a _ i).symm

lemma Padded.ne (h : Padded a b) : a ≠ b := by
  rcases h with ⟨n, hn, rfl⟩
  intro heq
  have hlen := congrArg List.length heq
  rw [List.length_append, List.length_replicate] at hlen
  omega

/-- Equal up to the length is equal or padded. -/
lemma eq_or_padded (hle : a.length ≤ b.length) (hmod : a.length ≡ b.length [MOD 256])
    (h : ∀ i, byteAt a i = byteAt b i) : a = b ∨ Padded a b := by
  have hb := eq_append_zeros hle h
  rcases (Nat.modEq_iff_dvd' hle).mp hmod with ⟨n, hn⟩
  rcases Nat.eq_zero_or_pos n with rfl | hpos
  · left
    rw [hn] at hb
    simpa using hb.symm
  · right
    rw [hn] at hb
    exact ⟨n, hpos, hb⟩

/-- **Which strings are taken for equal.** -/
lemma constantTimeEquals_eq_true (a b : Bytes) :
    constantTimeEquals a b = true ↔ a = b ∨ Confused a b := by
  rw [constantTimeEquals_iff]
  constructor
  · rintro ⟨hmod, hbytes⟩
    rcases le_total a.length b.length with hle | hle
    · rcases eq_or_padded hle hmod hbytes with heq | hpad
      · exact .inl heq
      · exact .inr (.inl hpad)
    · rcases eq_or_padded hle hmod.symm (fun i => (hbytes i).symm) with heq | hpad
      · exact .inl heq.symm
      · exact .inr (.inr hpad)
  · rintro (rfl | hpad | hpad)
    · exact ⟨rfl, fun _ => rfl⟩
    · exact hpad.equals
    · exact ⟨hpad.equals.1.symm, fun i => (hpad.equals.2 i).symm⟩

lemma Confused.ne (h : Confused a b) : a ≠ b := by
  rcases h with h | h
  · exact h.ne
  · exact h.ne.symm

lemma Confused.symm (h : Confused a b) : Confused b a := Or.symm h

lemma equals_exact_iff (a b : Bytes) :
    (constantTimeEquals a b = true ↔ a = b) ↔ ¬ Confused a b := by
  rw [constantTimeEquals_eq_true]
  constructor
  · intro h hconf
    exact hconf.ne (h.mp (.inr hconf))
  · intro hconf
    exact or_iff_left hconf

/-! ## The tables hold what is configured -/

/-- What one entry of the configuration does to the table. -/
lemma lookup_loadKeys_concat (keys : List ApiKeyConfig) (k : ApiKeyConfig) (key : Bytes) :
    (loadKeys (keys ++ [k])).lookup key =
      if key = k.key then some k else (loadKeys keys).lookup key := by
  unfold loadKeys
  rw [List.foldl_append, List.foldl_cons, List.foldl_nil]
  split
  · rename_i heq
    rw [heq, AList.lookup_insert]
  · rename_i hne
    rw [AList.lookup_insert_ne hne]

variable {keys order : List ApiKeyConfig} {c : ApiKeyConfig}

/-- An entry stands under its own key, and comes from the configuration. -/
lemma loadKeys_some (h : (loadKeys keys).lookup key = some c) : c ∈ keys ∧ c.key = key := by
  induction keys using List.reverseRecOn with
  | nil => cases h
  | append_singleton keys k ih =>
    rw [lookup_loadKeys_concat] at h
    split at h
    · rename_i heq
      cases h
      exact ⟨List.mem_append_right _ (List.mem_singleton_self _), heq.symm⟩
    · rcases ih h with ⟨hmem, hkey⟩
      exact ⟨List.mem_append_left _ hmem, hkey⟩

section

variable {keys : List ApiKeyConfig} (manager : ApiKeyManager keys)

lemma ApiKeyManager.mem_order_iff {c : ApiKeyConfig} :
    c ∈ manager.order ↔ (loadKeys keys).lookup c.key = some c := by
  rw [manager.perm.mem_iff]
  constructor
  · intro h
    rcases List.mem_map.mp h with ⟨⟨key, c'⟩, hmem, rfl⟩
    have hlookup : (loadKeys keys).lookup key = some c' := AList.mem_lookup_iff.mpr hmem
    dsimp only
    rwa [(loadKeys_some hlookup).2]
  · intro h
    exact List.mem_map.mpr ⟨⟨c.key, c⟩, AList.mem_lookup_iff.mp h, rfl⟩

end

lemma findKey_concat (order : List ApiKeyConfig) (k : ApiKeyConfig) (key : Bytes) :
    findKey (order ++ [k]) key =
      if constantTimeEquals k.key key then some k else findKey order key := by
  unfold findKey
  rw [List.foldl_append, List.foldl_cons, List.foldl_nil]

lemma findKey_some (h : findKey order key = some c) :
    c ∈ order ∧ constantTimeEquals c.key key = true := by
  induction order using List.reverseRecOn with
  | nil => cases h
  | append_singleton order k ih =>
    rw [findKey_concat] at h
    split at h
    · rename_i heq
      cases h
      exact ⟨List.mem_append_right _ (List.mem_singleton_self _), heq⟩
    · rcases ih h with ⟨hmem, heq⟩
      exact ⟨List.mem_append_left _ hmem, heq⟩

lemma findKey_isSome (hmem : c ∈ order) (heq : constantTimeEquals c.key key = true) :
    ∃ c', findKey order key = some c' := by
  induction order using List.reverseRecOn with
  | nil => cases hmem
  | append_singleton order k ih =>
    rw [findKey_concat]
    split
    · exact ⟨k, rfl⟩
    · rename_i hne
      rcases List.mem_append.mp hmem with h | h
      · exact ih h
      · rw [List.mem_singleton.mp h] at heq
        exact absurd heq hne

/-! ## Every key -/

/-- Without a confusion the scan finds what the table has. -/
lemma findKey_eq_lookup (manager : ApiKeyManager keys)
    (hclear : ∀ k ∈ keys, ¬ Confused k.key key) :
    findKey manager.order key = (loadKeys keys).lookup key := by
  have hequal {c : ApiKeyConfig} (hmem : c ∈ keys) :
      constantTimeEquals c.key key = true ↔ c.key = key :=
    (equals_exact_iff c.key key).mpr (hclear c hmem)
  rcases hfound : findKey manager.order key with _ | c
  · rcases hlookup : (loadKeys keys).lookup key with _ | c
    · rfl
    · -- the entry is in the order, so the scan does not miss it
      rcases loadKeys_some hlookup with ⟨hmem, rfl⟩
      have horder := manager.mem_order_iff.mpr hlookup
      rcases findKey_isSome horder ((hequal hmem).mpr rfl) with ⟨c', hsome⟩
      rw [hsome] at hfound
      cases hfound
  · rcases findKey_some hfound with ⟨horder, heq⟩
    have hlookup := manager.mem_order_iff.mp horder
    rw [(hequal (loadKeys_some hlookup).1).mp heq] at hlookup
    exact hlookup.symm

lemma AdminKeys.authorize_ok_iff (admin : AdminKeys) (headers : Headers) :
    admin.authorize headers = .ok () ↔ presentedKey headers ≠ [] ∧
      ∃ k ∈ admin.keys, constantTimeEquals (presentedKey headers) k = true := by
  unfold AdminKeys.authorize
  dsimp only
  by_cases hnil : presentedKey headers = []
  · rw [if_pos hnil]
    constructor
    · intro h
      cases h
    · intro h
      exact absurd hnil h.1
  · rw [if_neg hnil, ← List.any_eq_true]
    split
    · rename_i hany
      exact iff_of_true rfl ⟨hnil, hany⟩
    · rename_i hany
      constructor
      · intro h
        cases h
      · intro h
        exact absurd h.2 hany

/-- **Keys are compared for equality**, two strings exactly if neither is the other with
zeros behind it, and a presented key exactly if no key of the tables is. -/
theorem keys_exact_iff {keys : List ApiKeyConfig} (manager : ApiKeyManager keys)
    (admin : AdminKeys) (key : Bytes) :
    (∀ a b, (constantTimeEquals a b = true ↔ a = b) ↔ ¬ Confused a b) ∧
      (KeyExact manager admin key ↔
        ∀ k, k ∈ keys.map (·.key) ∨ k ∈ admin.keys → ¬ Confused k key) := by
  refine ⟨equals_exact_iff, ?_⟩
  constructor
  · intro hexact k hk
    exact (equals_exact_iff k key).mp (hexact.equals k hk)
  · intro hclear
    have hfind : findKey manager.order key = (loadKeys keys).lookup key :=
      findKey_eq_lookup manager fun k hk => hclear k.key (.inl (List.mem_map_of_mem hk))
    constructor
    · intro k hk
      exact (equals_exact_iff k key).mpr (hclear k hk)
    · intro c
      rw [hfind]
    · intro route host tenant hauth
      unfold Handler.authorize at hauth
      rcases hfound : findKey manager.order key with _ | c
      · rw [hfound] at hauth
        cases hauth
      · rw [hfind] at hfound
        exact ⟨c, rfl, (loadKeys_some hfound).2⟩
    · rintro headers rfl
      rw [admin.authorize_ok_iff]
      constructor
      · rintro ⟨-, k, hk, heq⟩
        rcases (constantTimeEquals_eq_true _ k).mp heq with heq | hconf
        · rw [heq]
          exact hk
        · exact absurd hconf.symm (hclear k (.inr hk))
      · intro hk
        exact ⟨admin.ne_nil _ hk, _, hk, (constantTimeEquals_eq_true _ _).mpr (.inl rfl)⟩

/-- A key without a scope passes every route that does not deny it by name. -/
lemma authorize_of_unscoped {k : Bytes} {denied : List Bytes}
    (hfound : findKey keys key = some { key := k }) (hden : key ∉ denied) (host tenant : Bytes) :
    Handler.authorize keys key { deniedApiKeys := denied } host tenant = true := by
  unfold Handler.authorize
  rw [hfound]
  simp [hden, matchesScope]

/-- The key `secret` with 256 zero bytes behind it. -/
def paddedSecret : Bytes := ascii "secret" ++ List.replicate 256 0

/-- The admin server accepts it for `secret`; it finds the entry of `secret`, and a route
that denies `secret` lets it pass. -/
theorem padded_key_accepted :
    paddedSecret ≠ ascii "secret" ∧ constantTimeEquals (ascii "secret") paddedSecret = true ∧
      (AdminKeys.mk [ascii "secret"] (by decide)).authorize
        ((∅ : Headers).insert (ascii "x-api-key") paddedSecret) = .ok () ∧
      findKey [{ key := ascii "secret" }] paddedSecret = some { key := ascii "secret" } ∧
      authorize [{ key := ascii "secret" }] paddedSecret
        { deniedApiKeys := [ascii "secret"] } [] [] = true := by
  have hpad : Padded (ascii "secret") paddedSecret := ⟨1, Nat.one_pos, rfl⟩
  have heq := (constantTimeEquals_eq_true _ _).mpr (.inr (.inl hpad))
  have hfound : findKey [{ key := ascii "secret" }] paddedSecret =
      some { key := ascii "secret" } := by
    have hscan := findKey_concat [] { key := ascii "secret" } paddedSecret
    rw [if_pos heq] at hscan
    exact hscan
  refine ⟨hpad.ne.symm, heq, ?_, hfound, ?_⟩
  · rw [AdminKeys.authorize_ok_iff]
    have hkey : presentedKey ((∅ : Headers).insert (ascii "x-api-key") paddedSecret) =
        paddedSecret := by
      unfold presentedKey
      rw [AList.lookup_insert]
    rw [hkey]
    refine ⟨List.append_ne_nil_of_left_ne_nil (by decide) _, ascii "secret",
      List.mem_singleton_self _, ?_⟩
    exact (constantTimeEquals_eq_true _ _).mpr (.inr (.inr hpad))
  · have hne : paddedSecret ∉ [ascii "secret"] := by
      rw [List.mem_singleton]
      exact hpad.ne.symm
    exact authorize_of_unscoped hfound hne [] []

end EpollGateway.Admin
