import EpollGateway.Lib.Bytes

/-! # UTF-8 text and JSON documents

A JSON document over byte strings, and the serialiser of a library that refuses
strings which are not UTF-8: `dump` has no result for them. The rule of this file
is `dump_isSome_iff`: a document has a text exactly when all its strings are
UTF-8.
-/

namespace Bytes

/-! ## UTF-8 -/

/-- A continuation byte. -/
def isTail (b : UInt8) : Bool := 0x80 ≤ b && b ≤ 0xBF

/-- A character of two bytes. -/
def isTwo (a b : UInt8) : Bool := 0xC2 ≤ a && a ≤ 0xDF && isTail b

/-- A character of three bytes: no overlong form, no surrogate. -/
def isThree (a b c : UInt8) : Bool :=
  ((a == 0xE0 && 0xA0 ≤ b && b ≤ 0xBF) || (0xE1 ≤ a && a ≤ 0xEC && isTail b) ||
    (a == 0xED && 0x80 ≤ b && b ≤ 0x9F) || (0xEE ≤ a && a ≤ 0xEF && isTail b)) && isTail c

/-- A character of four bytes: no overlong form, nothing above `U+10FFFF`. -/
def isFour (a b c d : UInt8) : Bool :=
  ((a == 0xF0 && 0x90 ≤ b && b ≤ 0xBF) || (0xF1 ≤ a && a ≤ 0xF3 && isTail b) ||
    (a == 0xF4 && 0x80 ≤ b && b ≤ 0x8F)) && isTail c && isTail d

/-- The text is a sequence of UTF-8 characters. -/
def utf8 : Bytes → Bool
  | [] => true
  | a :: t =>
    if a ≤ 0x7F then utf8 t
    else
      match t with
      | b :: t =>
        if isTwo a b then utf8 t
        else
          match t with
          | c :: t =>
            if isThree a b c then utf8 t
            else
              match t with
              | d :: t => isFour a b c d && utf8 t
              | [] => false
          | [] => false
      | [] => false

lemma utf8_cons_ascii {a : UInt8} (h : a ≤ 0x7F) (t : Bytes) : utf8 (a :: t) = utf8 t := by
  rw [utf8.eq_def]
  simp only [if_pos h]

lemma utf8_of_ascii {b : Bytes} (h : ∀ c ∈ b, c ≤ 0x7F) : utf8 b = true := by
  induction b with
  | nil => rfl
  | cons a t ih =>
    rw [utf8_cons_ascii (h a (by simp))]
    exact ih fun c hc => h c (by simp [hc])

/-- A text that is known to be UTF-8, such as a string of a parsed JSON file. -/
def Text := { b : Bytes // utf8 b = true }

instance : Coe Text Bytes := ⟨Subtype.val⟩

/-- An ASCII literal as a text. -/
def Text.ofAscii (s : String) (h : ∀ c ∈ ascii s, c ≤ 0x7F := by decide +kernel) : Text :=
  ⟨ascii s, utf8_of_ascii h⟩

def Text.empty : Text := Text.ofAscii ""

end Bytes

open Bytes

/-! ## Documents -/

/-- The documents of this development: strings, integers, Booleans, objects. -/
inductive Json where
  | str (s : Bytes)
  | num (n : Int)
  | bool (b : Bool)
  | obj (fields : List (Bytes × Json))

namespace Json

/-- Insert in front of the first larger key. -/
def insertField (k : Bytes) (v : Json) : List (Bytes × Json) → List (Bytes × Json)
  | [] => [(k, v)]
  | (k', v') :: rest =>
    if k ≤ k' then (k, v) :: (k', v') :: rest else (k', v') :: insertField k v rest

/-- `fields[k] = v`: one entry for each key, keys in order. -/
def setField (k : Bytes) (v : Json) (fields : List (Bytes × Json)) : List (Bytes × Json) :=
  insertField k v (fields.filter fun f => f.1 ≠ k)

/-- `fields[k]`, with `none` for an absent key. -/
def getField (k : Bytes) (fields : List (Bytes × Json)) : Option Json :=
  (fields.find? fun f => f.1 = k).map Prod.snd

variable {fields : List (Bytes × Json)} {k : Bytes} {v : Json}

lemma mem_insertField {f : Bytes × Json} :
    f ∈ insertField k v fields ↔ f = (k, v) ∨ f ∈ fields := by
  induction fields with
  | nil => simp [insertField]
  | cons g rest ih =>
    obtain ⟨k', v'⟩ := g
    simp only [insertField]
    split
    · simp
    · simp only [List.mem_cons, ih]
      tauto

lemma mem_setField {f : Bytes × Json} :
    f ∈ setField k v fields ↔ f = (k, v) ∨ (f ∈ fields ∧ f.1 ≠ k) := by
  simp [setField, mem_insertField]

lemma getField_insertField_self (h : ∀ f ∈ fields, f.1 ≠ k) :
    getField k (insertField k v fields) = some v := by
  induction fields with
  | nil => simp [insertField, getField]
  | cons g rest ih =>
    rcases g with ⟨k', v'⟩
    rw [List.forall_mem_cons] at h
    simp only [insertField]
    split
    · simp [getField]
    · have hrest := ih h.2
      unfold getField at hrest ⊢
      rw [List.find?_cons_of_neg (by simpa using h.1)]
      exact hrest

lemma getField_insertField_ne {k' : Bytes} (h : k' ≠ k) (fields : List (Bytes × Json)) :
    getField k' (insertField k v fields) = getField k' fields := by
  induction fields with
  | nil => simp [insertField, getField, Ne.symm h]
  | cons g rest ih =>
    rcases g with ⟨k₁, v₁⟩
    simp only [insertField]
    split
    · unfold getField
      rw [List.find?_cons_of_neg (by simpa using Ne.symm h)]
    · unfold getField at ih ⊢
      by_cases hk : k₁ = k'
      · rw [List.find?_cons_of_pos (by simpa using hk), List.find?_cons_of_pos (by simpa using hk)]
      · rw [List.find?_cons_of_neg (by simpa using hk), List.find?_cons_of_neg (by simpa using hk)]
        exact ih

/-- What was assigned last is read. -/
lemma getField_setField (k k' : Bytes) (v : Json) (fields : List (Bytes × Json)) :
    getField k' (setField k v fields) = if k' = k then some v else getField k' fields := by
  unfold setField
  split
  · rename_i heq
    rw [heq]
    exact getField_insertField_self fun f hf => by simpa using (List.mem_filter.mp hf).2
  · rename_i hne
    rw [getField_insertField_ne hne]
    unfold getField
    rw [List.find?_filter]
    congr 2
    funext f
    by_cases hf : f.1 = k'
    · simp [hf, hne]
    · simp [hf]

/-! ## Serialisation -/

/-- The text of one byte inside a string literal. -/
def escapeByte (c : UInt8) : Bytes :=
  if c = 34 then [92, 34]
  else if c = 92 then [92, 92]
  else if c = 8 then [92, 98]
  else if c = 12 then [92, 102]
  else if c = lf then [92, 110]
  else if c = cr then [92, 114]
  else if c = tab then [92, 116]
  else if c ≤ 0x1F then ascii "\\u00" ++ (if c < 16 then [48] else []) ++ hexText c.toNat
  else [c]

/-- A string literal; only UTF-8 has one. -/
def dumpString (s : Bytes) : Option Bytes :=
  if utf8 s then some ([34] ++ s.flatMap escapeByte ++ [34]) else none

mutual

/-- `json::dump()`, with `none` for the exception. -/
def dump : Json → Option Bytes
  | .str s => dumpString s
  | .num n => some (intText n)
  | .bool b => some (if b then ascii "true" else ascii "false")
  | .obj fields => (dumpFields fields).map fun fs => [123] ++ [44].intercalate fs ++ [125]

def dumpFields : List (Bytes × Json) → Option (List Bytes)
  | [] => some []
  | (k, v) :: rest =>
    (dumpString k).bind fun k =>
      (dump v).bind fun v => (dumpFields rest).map fun rest => (k ++ [58] ++ v) :: rest

end

mutual

/-- All strings of the document, keys included, are UTF-8. -/
def Utf8 : Json → Prop
  | .str s => utf8 s = true
  | .num _ => True
  | .bool _ => True
  | .obj fields => FieldsUtf8 fields

def FieldsUtf8 : List (Bytes × Json) → Prop
  | [] => True
  | (k, v) :: rest => utf8 k = true ∧ v.Utf8 ∧ FieldsUtf8 rest

end

lemma dumpString_isSome {s : Bytes} : (dumpString s).isSome ↔ utf8 s = true := by
  by_cases h : utf8 s = true <;> simp [dumpString, h]

lemma fieldsUtf8_iff : FieldsUtf8 fields ↔ ∀ f ∈ fields, utf8 f.1 = true ∧ f.2.Utf8 := by
  induction fields with
  | nil => simp [FieldsUtf8]
  | cons f rest ih => simp [FieldsUtf8, ih, and_assoc]

mutual

/-- A document has a text exactly when all its strings are UTF-8. -/
lemma dump_isSome_iff : ∀ j : Json, (dump j).isSome ↔ j.Utf8
  | .str s => by simp [dump, Utf8, dumpString_isSome]
  | .num n => by simp [dump, Utf8]
  | .bool b => by simp [dump, Utf8]
  | .obj fields => by simp [dump, Utf8, dumpFields_isSome_iff fields]

lemma dumpFields_isSome_iff : ∀ fields : List (Bytes × Json),
    (dumpFields fields).isSome ↔ FieldsUtf8 fields
  | [] => by simp [dumpFields, FieldsUtf8]
  | (k, v) :: rest => by
    have hk := dumpString_isSome (s := k)
    have hv := dump_isSome_iff v
    have hrest := dumpFields_isSome_iff rest
    simp only [FieldsUtf8, ← hk, ← hv, ← hrest, dumpFields]
    cases dumpString k <;> cases dump v <;> cases dumpFields rest <;> simp

end

end Json
