import Mathlib.Algebra.Group.Nat.Defs
import Mathlib.Data.List.AList
import Mathlib.Data.List.DropRight
import Mathlib.Tactic.Common

/-! # Byte strings

A C++ `std::string` that carries network data is a list of octets. This file
holds the few string operations the rest of the development computes with:
ASCII case mapping, blank trimming, the search for a line end, and the digit
values of decimal and hexadecimal text.
-/

/-- A byte string. -/
abbrev Bytes := List UInt8

namespace Bytes

instance : LawfulBEq Bytes := inferInstanceAs (LawfulBEq (List UInt8))

/-- The bytes of an ASCII literal. -/
def ascii (s : String) : Bytes := s.toList.map fun c => UInt8.ofNat c.toNat

def cr : UInt8 := 13
def lf : UInt8 := 10
def sp : UInt8 := 32
def tab : UInt8 := 9

/-- The two bytes of a line end. -/
def crlf : Bytes := [cr, lf]

@[simp] lemma length_crlf : crlf.length = 2 := rfl

/-- Every byte is one of 256, so a fact about all bytes can be checked. -/
lemma forall_byte {P : UInt8 → Prop} (h : ∀ n : Fin 256, P (UInt8.ofNat n)) (c : UInt8) :
    P c := by
  have hc := h ⟨c.toNat, c.toNat_lt⟩
  simpa using hc

/-! ## Case mapping -/

/-- `std::tolower` in the C locale: only `A`..`Z` move. -/
def toLower (c : UInt8) : UInt8 := if 65 ≤ c ∧ c ≤ 90 then c + 32 else c

def lower (b : Bytes) : Bytes := b.map toLower

@[simp] lemma lower_nil : lower [] = [] := rfl

@[simp] lemma length_lower (b : Bytes) : (lower b).length = b.length := by
  simp [lower]

variable {b : Bytes} {acc base e i j n p : Nat} {c : UInt8} {val : UInt8 → Option Nat}

@[simp] lemma lower_eq_nil : lower b = [] ↔ b = [] := by
  simp [lower]

lemma toLower_toLower : ∀ c, toLower (toLower c) = toLower c := forall_byte (by decide +kernel)

@[simp] lemma lower_lower (b : Bytes) : lower (lower b) = lower b := by
  simp [lower, Function.comp_def, toLower_toLower]

/-! ## Trimming -/

/-- Space and horizontal tab, the characters of `" \t"`. -/
def isBlank (c : UInt8) : Bool := c == sp || c == tab

/-- Drop the blanks on both sides. -/
def trim (b : Bytes) : Bytes := (b.dropWhile isBlank).rdropWhile isBlank

/-- A text without blanks at its two ends. -/
def Trimmed (b : Bytes) : Prop :=
  (∀ c ∈ b.head?, isBlank c = false) ∧ ∀ c ∈ b.getLast?, isBlank c = false

instance (b : Bytes) : Decidable (Trimmed b) := inferInstanceAs (Decidable (_ ∧ _))

lemma dropWhile_of_head (h : ∀ c ∈ b.head?, isBlank c = false) : b.dropWhile isBlank = b := by
  cases b with
  | nil => rfl
  | cons c cs =>
    have hc : isBlank c = false := h c rfl
    simp [hc]

lemma rdropWhile_of_getLast (h : ∀ c ∈ b.getLast?, isBlank c = false) :
    b.rdropWhile isBlank = b := by
  rw [List.rdropWhile_eq_self_iff]
  intro hne
  have hlast := h (b.getLast hne) (by simp [List.getLast?_eq_getLast_of_ne_nil hne])
  simp [hlast]

lemma trimmed_trim (b : Bytes) : Trimmed (trim b) := by
  constructor
  · intro c hc
    -- a first byte of the result is the first one behind the leading blanks
    have hlist : trim b <+: b.dropWhile isBlank := List.rdropWhile_prefix isBlank _
    obtain ⟨rest, hrest⟩ := hlist
    have hhead : c ∈ (b.dropWhile isBlank).head? := by
      rw [← hrest, List.head?_append, Option.mem_def.mp hc]
      rfl
    have hnot := List.head?_dropWhile_not isBlank b
    rw [Option.mem_def.mp hhead] at hnot
    simpa using hnot
  · intro c hc
    have hne : trim b ≠ [] := by
      intro hnil
      simp [hnil] at hc
    have hlast := List.rdropWhile_last_not isBlank (b.dropWhile isBlank) hne
    rw [Option.mem_def, List.getLast?_eq_getLast_of_ne_nil hne, Option.some.injEq] at hc
    rw [← hc]
    simpa [trim] using hlast

lemma trim_of_trimmed (h : Trimmed b) : trim b = b := by
  unfold trim
  rw [dropWhile_of_head h.1, rdropWhile_of_getLast h.2]

/-- Trimming undoes the single blank that a serialiser puts in front of a value. -/
lemma trim_sp_cons (h : Trimmed b) : trim (sp :: b) = b := by
  have hsp : (sp :: b).dropWhile isBlank = b.dropWhile isBlank := by
    simp [isBlank]
  unfold trim
  rw [hsp, dropWhile_of_head h.1, rdropWhile_of_getLast h.2]

/-! ## Slices -/

/-- The bytes `[i, j)`. -/
def slice (b : Bytes) (i j : Nat) : Bytes := (b.drop i).take (j - i)

lemma length_slice (hj : j ≤ b.length) : (slice b i j).length = j - i := by
  simp [slice]
  omega

lemma length_slice_le (b : Bytes) (i j : Nat) : (slice b i j).length ≤ j - i :=
  List.length_take_le _ _

lemma slice_append_slice (b : Bytes) {k : Nat} (hij : i ≤ j) (hjk : j ≤ k) :
    slice b i j ++ slice b j k = slice b i k := by
  have hk : k - i = (j - i) + (k - j) := by omega
  have hj : i + (j - i) = j := by omega
  simp only [slice]
  rw [hk, List.take_add, List.drop_drop, hj]

/-! ## The search for a line end -/

/-- Index of the first line end of a text. -/
def crlfIdx : Bytes → Option Nat
  | [] => none
  | [_] => none
  | a :: b :: rest =>
    if a = cr ∧ b = lf then some 0 else (crlfIdx (b :: rest)).map (· + 1)

/-- `s.find("\r\n", pos)`. -/
def findCrlf (b : Bytes) (pos : Nat) : Option Nat := (crlfIdx (b.drop pos)).map (· + pos)

/-- The two bytes at `i` are a line end. -/
def CrlfAt (b : Bytes) (i : Nat) : Prop := b[i]? = some cr ∧ b[i + 1]? = some lf

instance (b : Bytes) (i : Nat) : Decidable (CrlfAt b i) := inferInstanceAs (Decidable (_ ∧ _))

lemma crlfIdx_eq_some (h : crlfIdx b = some i) : CrlfAt b i ∧ ∀ j < i, ¬ CrlfAt b j := by
  induction b generalizing i with
  | nil => simp [crlfIdx] at h
  | cons a as ih =>
    cases as with
    | nil => simp [crlfIdx] at h
    | cons c rest =>
      simp only [crlfIdx] at h
      split at h
      · rename_i hac
        cases h
        exact ⟨by simp [CrlfAt, hac], by simp⟩
      · rename_i hac
        obtain ⟨k, hk, rfl⟩ := Option.map_eq_some_iff.mp h
        obtain ⟨hat, hbefore⟩ := ih hk
        refine ⟨by simpa [CrlfAt] using hat, ?_⟩
        intro j hj
        cases j with
        | zero => simpa [CrlfAt] using hac
        | succ j => simpa [CrlfAt] using hbefore j (by omega)

lemma crlfIdx_eq_none (h : crlfIdx b = none) (j : Nat) : ¬ CrlfAt b j := by
  induction b generalizing j with
  | nil => simp [CrlfAt]
  | cons a as ih =>
    cases as with
    | nil => cases j <;> simp [CrlfAt]
    | cons c rest =>
      simp only [crlfIdx] at h
      split at h
      · simp at h
      · rename_i hac
        have hnone : crlfIdx (c :: rest) = none := by simpa using h
        cases j with
        | zero => simpa [CrlfAt] using hac
        | succ j => simpa [CrlfAt] using ih hnone j

lemma crlfAt_drop : CrlfAt (b.drop p) i ↔ CrlfAt b (p + i) := by
  simp [CrlfAt, List.getElem?_drop, Nat.add_assoc]

/-- A line end lies inside the text. -/
lemma CrlfAt.lt (h : CrlfAt b i) : i + 2 ≤ b.length := by
  have := (List.getElem?_eq_some_iff.mp h.2).1
  omega

lemma slice_of_crlfAt (h : CrlfAt b i) : slice b i (i + 2) = crlf := by
  obtain ⟨hi, hcr⟩ := List.getElem?_eq_some_iff.mp h.1
  obtain ⟨hi', hlf⟩ := List.getElem?_eq_some_iff.mp h.2
  have hdrop : b.drop i = cr :: lf :: b.drop (i + 2) := by
    rw [List.drop_eq_getElem_cons hi, List.drop_eq_getElem_cons hi', hcr, hlf]
  simp [slice, hdrop, crlf]

lemma crlfAt_of_take (h : (b.drop i).take 2 = crlf) : CrlfAt b i := by
  have h0 := congrArg (fun l : Bytes => l[0]?) h
  have h1 := congrArg (fun l : Bytes => l[1]?) h
  simpa [CrlfAt, crlf, List.getElem?_take, List.getElem?_drop] using And.intro h0 h1

/-- What the search returns: the first line end at or after `p`. -/
lemma findCrlf_eq_some :
    findCrlf b p = some e ↔ p ≤ e ∧ CrlfAt b e ∧ ∀ j, p ≤ j → j < e → ¬ CrlfAt b j := by
  constructor
  · intro h
    obtain ⟨k, hk, rfl⟩ := Option.map_eq_some_iff.mp h
    obtain ⟨hat, hbefore⟩ := crlfIdx_eq_some hk
    refine ⟨by omega, by simpa [Nat.add_comm] using crlfAt_drop.mp hat, ?_⟩
    intro j hpj hjk hj
    refine hbefore (j - p) (by omega) (crlfAt_drop.mpr ?_)
    rwa [Nat.add_sub_cancel' hpj]
  · rintro ⟨hpe, hat, hbefore⟩
    cases hidx : crlfIdx (b.drop p) with
    | none =>
      refine absurd (crlfAt_drop.mpr ?_) (crlfIdx_eq_none hidx (e - p))
      rwa [Nat.add_sub_cancel' hpe]
    | some k =>
      obtain ⟨hk, hkbefore⟩ := crlfIdx_eq_some hidx
      have hk' := crlfAt_drop.mp hk
      -- both `p + k` and `e` are first, so neither lies before the other
      have h1 : ¬ p + k < e := fun hlt => hbefore (p + k) (by omega) hlt hk'
      have h2 : ¬ e < p + k := by
        intro hlt
        refine hkbefore (e - p) (by omega) (crlfAt_drop.mpr ?_)
        rwa [Nat.add_sub_cancel' hpe]
      simp only [findCrlf, hidx, Option.map_some, Option.some.injEq]
      omega

/-! A longer text has the same slices and the same line ends where the shorter one
reaches. -/

lemma take_drop_append (h : i + n ≤ b.length) (d : Bytes) :
    ((b ++ d).drop i).take n = (b.drop i).take n := by
  rw [List.drop_append_of_le_length (by omega), List.take_append_of_le_length]
  rw [List.length_drop]
  omega

lemma slice_append (hj : j ≤ b.length) (d : Bytes) : slice (b ++ d) i j = slice b i j := by
  by_cases hi : i ≤ j
  · exact take_drop_append (by omega) d
  · simp [slice, show j - i = 0 by omega]

lemma crlfAt_append (hi : i + 2 ≤ b.length) (d : Bytes) : CrlfAt (b ++ d) i ↔ CrlfAt b i := by
  unfold CrlfAt
  rw [List.getElem?_append_left (by omega), List.getElem?_append_left (by omega)]

lemma findCrlf_append (h : findCrlf b p = some e) (d : Bytes) : findCrlf (b ++ d) p = some e := by
  obtain ⟨hpe, hat, hbefore⟩ := findCrlf_eq_some.mp h
  have helt := hat.lt
  refine findCrlf_eq_some.mpr ⟨hpe, (crlfAt_append helt d).mpr hat, ?_⟩
  intro j hpj hje hj
  exact hbefore j hpj hje ((crlfAt_append (by omega) d).mp hj)

/-- A text without a line end. -/
def OneLine (b : Bytes) : Prop := ∀ j, ¬ CrlfAt b j

lemma crlfAt_slice {k : Nat} (h : CrlfAt (slice b i j) k) : CrlfAt b (i + k) ∧ i + k + 2 ≤ j := by
  have hlen := h.lt
  have hk := length_slice_le b i j
  refine ⟨?_, by omega⟩
  have hdrop : CrlfAt (b.drop i) k := by
    simpa [CrlfAt, slice, List.getElem?_take, show k < j - i by omega,
      show k + 1 < j - i by omega] using h
  exact crlfAt_drop.mp hdrop

/-- The text in front of the line end that the search finds. -/
lemma oneLine_of_findCrlf (h : findCrlf b p = some e) : OneLine (slice b p e) := by
  intro j hj
  obtain ⟨hat, hle⟩ := crlfAt_slice hj
  exact (findCrlf_eq_some.mp h).2.2 (p + j) (by omega) (by omega) hat

/-- A line at the start of a slice is what the search finds there. -/
lemma findCrlf_of_slice {line rest : Bytes} {q : Nat} (h : slice b p q = line ++ (crlf ++ rest))
    (hline : OneLine line) :
    findCrlf b p = some (p + line.length) ∧ slice b p (p + line.length) = line ∧
      slice b (p + line.length + 2) q = rest ∧ p + line.length + 2 ≤ q := by
  have hlen : line.length + 2 ≤ q - p := by
    have hle := length_slice_le b p q
    rw [h] at hle
    simp [crlf] at hle
    omega
  have hget : ∀ j, j < q - p → b[p + j]? = (line ++ (crlf ++ rest))[j]? := by
    intro j hj
    rw [← h]
    simp [slice, hj, List.getElem?_drop]
  have hcr : b[p + line.length]? = some cr := by
    rw [hget _ (by omega)]
    simp [crlf]
  have hlf : b[p + line.length + 1]? = some lf := by
    rw [Nat.add_assoc, hget _ (by omega)]
    simp [crlf]
  refine ⟨findCrlf_eq_some.mpr ⟨by omega, ⟨hcr, hlf⟩, ?_⟩, ?_, ?_, by omega⟩
  · intro j hpj hj hat
    obtain ⟨k, rfl⟩ := Nat.exists_eq_add_of_le hpj
    by_cases hk : k + 1 < line.length
    · refine hline k ⟨?_, ?_⟩
      · rw [← hat.1, hget k (by omega), List.getElem?_append_left (by omega)]
      · rw [← hat.2, Nat.add_assoc, hget (k + 1) (by omega), List.getElem?_append_left (by omega)]
    · -- the byte behind the last one of the line is the CR of its line end
      have hlast := hat.2
      rw [show p + k + 1 = p + line.length by omega, hcr] at hlast
      exact absurd hlast (by decide)
  · have htake := congrArg (List.take line.length) h
    simpa [slice, List.take_take, show min line.length (q - p) = line.length by omega] using htake
  · have hdrop := congrArg (List.drop (line.length + 2)) h
    have hnil : line.drop (line.length + 2) = [] := List.drop_of_length_le (by omega)
    simpa [slice, List.drop_take, List.drop_append, crlf, Nat.add_assoc, Nat.sub_sub, hnil]
      using hdrop

/-! ## Lines -/

/-- No line end inside: neither CR nor LF. -/
def Unbroken (l : Bytes) : Prop := cr ∉ l ∧ lf ∉ l

instance (l : Bytes) : Decidable (Unbroken l) := inferInstanceAs (Decidable (_ ∧ _))

lemma Unbroken.nil : Unbroken [] := by simp [Unbroken]

lemma Unbroken.append {l m : Bytes} (hl : Unbroken l) (hm : Unbroken m) : Unbroken (l ++ m) := by
  simp only [Unbroken, List.mem_append, not_or]
  exact ⟨⟨hl.1, hm.1⟩, hl.2, hm.2⟩

lemma Unbroken.one (hcr : c ≠ cr) (hlf : c ≠ lf) : Unbroken [c] := by
  simp [Unbroken, hcr.symm, hlf.symm]

lemma Unbroken.snoc {l : Bytes} (h : Unbroken l) (hcr : c ≠ cr) (hlf : c ≠ lf) :
    Unbroken (l ++ [c]) :=
  h.append (Unbroken.one hcr hlf)

lemma crlfIdx_line {line : Bytes} (h : Unbroken line) (rest : Bytes) :
    crlfIdx (line ++ crlf ++ rest) = some line.length := by
  induction line with
  | nil => rfl
  | cons c cs ih =>
    have hc : c ≠ cr := fun heq => h.1 (by simp [heq])
    have hcs : Unbroken cs := ⟨fun hm => h.1 (by simp [hm]), fun hm => h.2 (by simp [hm])⟩
    obtain ⟨b, t, hbt⟩ : ∃ b t, cs ++ crlf ++ rest = b :: t :=
      List.exists_cons_of_ne_nil (by simp [crlf])
    have hrest : crlfIdx (b :: t) = some cs.length := hbt ▸ ih hcs
    have hcons : c :: cs ++ crlf ++ rest = c :: b :: t := by
      rw [← hbt]
      simp
    rw [hcons, crlfIdx, if_neg (fun h => hc h.1), hrest]
    simp

/-! ## The first place of a byte -/

lemma idxOf?_append_cons {before : Bytes} (h : c ∉ before) (after : Bytes) :
    (before ++ c :: after).idxOf? c = some before.length := by
  induction before with
  | nil => simp [List.idxOf?_cons]
  | cons b bs ih =>
    rw [List.mem_cons, not_or] at h
    rw [List.cons_append, List.idxOf?_cons, ih h.2, beq_eq_false_iff_ne.mpr (Ne.symm h.1)]
    rfl

/-- A byte does not occur, or there is a first place where it does. -/
lemma split_first (c : UInt8) (b : Bytes) :
    c ∉ b ∨ ∃ before after, b = before ++ c :: after ∧ c ∉ before := by
  by_cases h : c ∈ b
  · exact .inr (List.eq_append_cons_of_mem h)
  · exact .inl h

lemma append_cons_inj {a a' b' : Bytes} (ha : c ∉ a) (ha' : c ∉ a')
    (h : a ++ c :: b = a' ++ c :: b') : a = a' ∧ b = b' := by
  have hlen : a.length = a'.length := by
    have hidx := idxOf?_append_cons ha b
    rw [h, idxOf?_append_cons ha' b', Option.some.injEq] at hidx
    exact hidx.symm
  rcases List.append_inj h hlen with ⟨hleft, hright⟩
  exact ⟨hleft, (List.cons.inj hright).2⟩

/-- A text is cut at its last `c` in one way. -/
lemma append_cons_inj_last {a a' b' : Bytes} (hb : c ∉ b) (hb' : c ∉ b')
    (h : a ++ c :: b = a' ++ c :: b') : a = a' ∧ b = b' := by
  have hreverse := congrArg List.reverse h
  simp only [List.reverse_append, List.reverse_cons, List.append_assoc, List.singleton_append]
    at hreverse
  rcases append_cons_inj (mt List.mem_reverse.mp hb) (mt List.mem_reverse.mp hb') hreverse
    with ⟨hright, hleft⟩
  exact ⟨List.reverse_injective hleft, List.reverse_injective hright⟩

lemma drop_length_succ (before : Bytes) (c : UInt8) (after : Bytes) :
    (before ++ c :: after).drop (before.length + 1) = after := by
  rw [List.drop_append, List.drop_of_length_le (by omega), Nat.add_sub_cancel_left]
  rfl

/-! ## Digits -/

/-- Value of a decimal digit. -/
def decVal? (c : UInt8) : Option Nat := if 48 ≤ c ∧ c ≤ 57 then some (c.toNat - 48) else none

/-- Value of a hexadecimal digit of either case. -/
def hexVal? (c : UInt8) : Option Nat :=
  if 48 ≤ c ∧ c ≤ 57 then some (c.toNat - 48)
  else if 97 ≤ c ∧ c ≤ 102 then some (c.toNat - 97 + 10)
  else if 65 ≤ c ∧ c ≤ 70 then some (c.toNat - 65 + 10)
  else none

lemma decVal?_lt : ∀ c, ∀ d ∈ decVal? c, d < 10 := forall_byte (by decide +kernel)

lemma hexVal?_lt : ∀ c, ∀ d ∈ hexVal? c, d < 16 := forall_byte (by decide +kernel)

/-- The number that the digits of a text make of `acc`, with `none` for a text
that holds a byte without a digit value. -/
def numeralFrom (base : Nat) (val : UInt8 → Option Nat) : Nat → Bytes → Option Nat
  | acc, [] => some acc
  | acc, c :: cs => (val c).bind fun d => numeralFrom base val (acc * base + d) cs

/-- The number a digit text denotes in base `base`. -/
def numeral (base : Nat) (val : UInt8 → Option Nat) (text : Bytes) : Option Nat :=
  numeralFrom base val 0 text

lemma numeralFrom_cons {cs : Bytes} :
    numeralFrom base val acc (c :: cs) = some n ↔
      ∃ d, val c = some d ∧ numeralFrom base val (acc * base + d) cs = some n := by
  simp [numeralFrom, Option.bind_eq_some_iff]

/-- Digits never make a number smaller. -/
lemma le_of_numeralFrom (hbase : 0 < base) {text : Bytes}
    (h : numeralFrom base val acc text = some n) : acc ≤ n := by
  induction text generalizing acc with
  | nil => simp_all [numeralFrom]
  | cons c cs ih =>
    obtain ⟨d, -, hrest⟩ := numeralFrom_cons.mp h
    have hle := ih hrest
    have hmul := Nat.le_mul_of_pos_right acc hbase
    omega

/-- Every byte of a numeral is a digit. -/
lemma digit_of_numeralFrom {text : Bytes} (h : numeralFrom base val acc text = some n) :
    ∀ c ∈ text, (val c).isSome := by
  induction text generalizing acc with
  | nil => simp
  | cons c cs ih =>
    obtain ⟨d, hd, hrest⟩ := numeralFrom_cons.mp h
    simpa [hd] using ih hrest

/-- Decimal text of a number, as `std::to_string` writes it. -/
def decimal (n : Nat) : Bytes := (Nat.toDigits 10 n).map fun c => UInt8.ofNat c.toNat

lemma numeralFrom_append (acc : Nat) (a b : Bytes) :
    numeralFrom base val acc (a ++ b) =
      (numeralFrom base val acc a).bind fun n => numeralFrom base val n b := by
  induction a generalizing acc with
  | nil => rfl
  | cons c cs ih => rcases hc : val c with _ | d <;> simp [numeralFrom, hc, ih]

lemma decVal?_digitChar : ∀ d < 10, decVal? (UInt8.ofNat (Nat.digitChar d).toNat) = some d := by
  decide

lemma decimal_ne_nil (n : Nat) : decimal n ≠ [] := by
  simp [decimal, Nat.toDigits_ne_nil]

/-- The digits of a number read back. -/
lemma numeral_toDigits (hbase : 1 < base)
    (hval : ∀ d < base, val (UInt8.ofNat (Nat.digitChar d).toNat) = some d) (n : Nat) :
    numeral base val ((Nat.toDigits base n).map fun c => UInt8.ofNat c.toNat) = some n := by
  induction n using Nat.strongRecOn with
  | ind n ih =>
    rw [Nat.toDigits_eq_if hbase]
    split
    · rename_i hlt
      simp [numeral, numeralFrom, hval n hlt]
    · rename_i hge
      have hpos : 0 < n := by omega
      have hdiv := ih (n / base) (Nat.div_lt_self hpos hbase)
      have hmod := hval (n % base) (Nat.mod_lt n (by omega))
      unfold numeral at hdiv ⊢
      rw [List.map_append, numeralFrom_append, hdiv]
      simp [numeralFrom, hmod, Nat.div_add_mod']

/-- `std::to_string` writes a number that reads back. -/
lemma numeral_decimal (n : Nat) : numeral 10 decVal? (decimal n) = some n :=
  numeral_toDigits (by decide) decVal?_digitChar n

lemma trim_decimal (n : Nat) : trim (decimal n) = decimal n := by
  have hdigit : ∀ c, (decVal? c).isSome → isBlank c = false := forall_byte (by decide +kernel)
  have hall : ∀ c ∈ decimal n, isBlank c = false :=
    fun c hc => hdigit c (digit_of_numeralFrom (numeral_decimal n) c hc)
  refine trim_of_trimmed ⟨fun c hc => hall c (List.mem_of_mem_head? hc), fun c hc => hall c ?_⟩
  exact List.mem_of_getLast? hc

/-- Decimal text of an integer. -/
def intText (n : Int) : Bytes := if n < 0 then 45 :: decimal n.natAbs else decimal n.natAbs

lemma decimal_injective {m : Nat} (h : decimal n = decimal m) : n = m := by
  have hn := numeral_decimal n
  rw [h, numeral_decimal] at hn
  exact (Option.some.inj hn).symm

/-- A decimal text holds digits only, and a sign in front for an integer. -/
lemma digit_of_mem_decimal (h : c ∈ decimal n) : 48 ≤ c ∧ c ≤ 57 := by
  have hdigit : ∀ c, (decVal? c).isSome → 48 ≤ c ∧ c ≤ 57 := forall_byte (by decide +kernel)
  exact hdigit c (digit_of_numeralFrom (numeral_decimal n) c h)

lemma mem_intText {n : Int} (h : c ∈ intText n) : c = 45 ∨ 48 ≤ c ∧ c ≤ 57 := by
  unfold intText at h
  split at h
  · rcases List.mem_cons.mp h with hsign | hdigit
    · exact .inl hsign
    · exact .inr (digit_of_mem_decimal hdigit)
  · exact .inr (digit_of_mem_decimal h)

lemma intText_injective {n m : Int} (h : intText n = intText m) : n = m := by
  have hsign : ∀ {k l : Nat}, 45 :: decimal k ≠ decimal l := by
    intro k l heq
    have hmem : (45 : UInt8) ∈ decimal l := heq ▸ List.mem_cons_self
    exact absurd (digit_of_mem_decimal hmem) (by decide)
  unfold intText at h
  split at h <;> split at h
  · have habs := decimal_injective (List.cons.inj h).2
    omega
  · exact absurd h hsign
  · exact absurd h.symm hsign
  · have habs := decimal_injective h
    omega

/-- Lower-case hexadecimal text of a number, as `std::hex` writes it. -/
def hexText (n : Nat) : Bytes := (Nat.toDigits 16 n).map fun c => UInt8.ofNat c.toNat

lemma hexVal?_digitChar : ∀ d < 16, hexVal? (UInt8.ofNat (Nat.digitChar d).toNat) = some d := by
  decide

lemma hexText_ne_nil (n : Nat) : hexText n ≠ [] := by
  simp [hexText, Nat.toDigits_ne_nil]

/-- `std::hex` writes a number that reads back. -/
lemma numeral_hexText (n : Nat) : numeral 16 hexVal? (hexText n) = some n :=
  numeral_toDigits (by decide) hexVal?_digitChar n

lemma digitChar_ascii : ∀ d < 16, (Nat.digitChar d).toNat < 128 := by decide

/-- The digits of a hexadecimal numeral are ASCII. -/
lemma toDigitsCore_ascii (fuel n : Nat) {acc : List Char} (hacc : ∀ c ∈ acc, c.toNat < 128) :
    ∀ c ∈ Nat.toDigitsCore 16 fuel n acc, c.toNat < 128 := by
  induction fuel generalizing n acc with
  | zero => exact hacc
  | succ fuel ih =>
    have hcons : ∀ c ∈ Nat.digitChar (n % 16) :: acc, c.toNat < 128 := by
      intro c hc
      rcases List.mem_cons.mp hc with rfl | hc
      · exact digitChar_ascii _ (Nat.mod_lt _ (by decide))
      · exact hacc c hc
    rw [Nat.toDigitsCore]
    split
    · exact hcons
    · exact ih _ hcons

lemma hexText_ascii (n : Nat) : ∀ c ∈ hexText n, c ≤ 0x7F := by
  intro c hc
  obtain ⟨d, hd, rfl⟩ := List.mem_map.mp hc
  have hlt := toDigitsCore_ascii (n + 1) n (by simp) d hd
  rw [UInt8.le_iff_toNat_le, UInt8.toNat_ofNat']
  simp only [UInt8.reduceToNat]
  omega

end Bytes
