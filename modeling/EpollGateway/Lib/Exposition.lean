import EpollGateway.Lib.Json
import Mathlib

/-! # A reader of metric lines

The text format in which metrics are scraped: a name, labels in braces, and a value. A label
value stands in quotes and is UTF-8; a quote, a backslash and a line feed in it are written
with a backslash in front. Blanks may stand between the parts, and a comma behind the last
label.

A value that has none of the three bytes may be written as it is (`readValue_plain`). A value
that has one may not: whatever follows it, it is not read back (`plain_of_readValue`).
-/

namespace Exposition

open Bytes

/-! ## The reader -/

/-- The byte that an escape stands for. -/
def unescape (c : UInt8) : Option UInt8 :=
  if c = 92 then some 92 else if c = 34 then some 34 else if c = 110 then some lf else none

/-- A label value behind its opening quote, and what follows the closing one. -/
def readValue : Bytes → Option (Bytes × Bytes)
  | [] => none
  | [c] => if c = 34 then some ([], []) else none
  | c :: d :: rest =>
    if c = 34 then some ([], d :: rest)
    else if c = lf then none
    else if c = 92 then
      (unescape d).bind fun e => (readValue rest).map fun r => (e :: r.1, r.2)
    else (readValue (d :: rest)).map fun r => (c :: r.1, r.2)

def expect (c : UInt8) : Bytes → Option Bytes
  | [] => none
  | d :: rest => if d = c then some rest else none

def skipBlanks (text : Bytes) : Bytes := text.dropWhile isBlank

/-- A letter, a digit or an underscore. -/
def nameByte (c : UInt8) : Bool :=
  (48 ≤ c && c ≤ 57) || (65 ≤ c && c ≤ 90) || (97 ≤ c && c ≤ 122) || c == 95

def readLabel (text : Bytes) : Option ((Bytes × Bytes) × Bytes) :=
  (expect 61 (skipBlanks (text.dropWhile nameByte))).bind fun rest =>
    (expect 34 (skipBlanks rest)).bind fun rest =>
      (readValue rest).bind fun r =>
        if utf8 r.1 then some ((text.takeWhile nameByte, r.1), skipBlanks r.2) else none

/-- The labels up to the closing brace, and what follows it. -/
def readLabels : Nat → Bytes → Option (List (Bytes × Bytes) × Bytes)
  | 0, _ => none
  | fuel + 1, text =>
    match expect 125 (skipBlanks text) with
    | some rest => some ([], rest)
    | none =>
      (readLabel (skipBlanks text)).bind fun label =>
        match expect 44 label.2 with
        | some rest => (readLabels fuel rest).map fun r => (label.1 :: r.1, r.2)
        | none => (expect 125 label.2).map fun rest => ([label.1], rest)

/-- Name, labels and value of a line. -/
def readSeries (line : Bytes) : Option (Bytes × List (Bytes × Bytes) × Nat) :=
  (expect 123 (skipBlanks (line.dropWhile nameByte))).bind fun rest =>
    (readLabels line.length rest).bind fun r =>
      (numeral 10 decVal? (skipBlanks r.2)).map fun value =>
        (line.takeWhile nameByte, r.1, value)

/-! ## Values -/

/-- A value that needs no escape. -/
def Plain (v : Bytes) : Prop := ∀ c ∈ v, c ≠ 34 ∧ c ≠ 92 ∧ c ≠ lf

lemma Plain.nil : Plain [] := by
  intro c hc
  cases hc

variable {after n rest v : Bytes} {labels : List (Bytes × Bytes)}

lemma plain_cons {c : UInt8} :
    Plain (c :: v) ↔ (c ≠ 34 ∧ c ≠ 92 ∧ c ≠ lf) ∧ Plain v := List.forall_mem_cons

lemma readValue_quote (rest : Bytes) : readValue (34 :: rest) = some ([], rest) := by
  rcases rest with _ | ⟨d, rest⟩ <;> rfl

lemma readValue_cons {c : UInt8} (hc : c ≠ 34 ∧ c ≠ 92 ∧ c ≠ lf) (hne : rest ≠ []) :
    readValue (c :: rest) = (readValue rest).map fun r => (c :: r.1, r.2) := by
  rcases rest with _ | ⟨d, rest⟩
  · exact absurd rfl hne
  · rw [readValue, if_neg hc.1, if_neg hc.2.2, if_neg hc.2.1]

lemma readValue_escape (d : UInt8) (rest : Bytes) :
    readValue (92 :: d :: rest) =
      (unescape d).bind fun e => (readValue rest).map fun r => (e :: r.1, r.2) := by
  rw [readValue, if_neg (by decide), if_neg (by decide), if_pos rfl]

/-- A value without the three bytes is read as it stands. -/
lemma readValue_plain (hv : Plain v) (rest : Bytes) :
    readValue (v ++ 34 :: rest) = some (v, rest) := by
  induction v with
  | nil => exact readValue_quote rest
  | cons c v ih =>
    rw [plain_cons] at hv
    rw [List.cons_append, readValue_cons hv.1 (by simp), ih hv.2]
    rfl

/-- What the first byte of a text tells about the value. -/
lemma readValue_head {c : UInt8} (h : readValue (c :: rest) = some (v, after)) :
    c = 34 ∧ v = [] ∧ after = rest ∨
      (c = 92 ∧ ∃ d more e v', rest = d :: more ∧ unescape d = some e ∧ v = e :: v' ∧
        readValue more = some (v', after)) ∨
      (c ≠ 34 ∧ c ≠ 92 ∧ c ≠ lf) ∧ ∃ v', v = c :: v' ∧ readValue rest = some (v', after) := by
  by_cases hquote : c = 34
  · left
    subst hquote
    rw [readValue_quote, Option.some.injEq, Prod.mk.injEq] at h
    exact ⟨rfl, h.1.symm, h.2.symm⟩
  · right
    rcases rest with _ | ⟨d, more⟩
    · rw [readValue, if_neg hquote] at h
      cases h
    · by_cases hescape : c = 92
      · left
        subst hescape
        rw [readValue_escape] at h
        rcases Option.bind_eq_some_iff.mp h with ⟨e, he, hmore⟩
        rcases Option.map_eq_some_iff.mp hmore with ⟨⟨v', after'⟩, hv', heq⟩
        cases heq
        exact ⟨rfl, d, more, e, v', rfl, he, rfl, hv'⟩
      · right
        have hlf : c ≠ lf := by
          rintro rfl
          rw [readValue, if_neg hquote, if_pos rfl] at h
          cases h
        rw [readValue_cons ⟨hquote, hescape, hlf⟩ (by simp)] at h
        rcases Option.map_eq_some_iff.mp h with ⟨⟨v', after'⟩, hv', heq⟩
        cases heq
        exact ⟨⟨hquote, hescape, hlf⟩, v', rfl, hv'⟩

lemma unescape_eq_backslash {d : UInt8} (h : unescape d = some 92) : d = 92 := by
  unfold unescape at h
  split at h
  · assumption
  · split at h
    · cases h
    · split at h <;> cases h

/-- A text is not read as itself with backslashes in front of it. -/
lemma readValue_ne_backslashes {x r z : Bytes} (hr : r.head? ≠ some 92) (k : Nat) :
    readValue (x ++ r) ≠ some (List.replicate (k + 1) 92 ++ x ++ z, after) := by
  induction hlen : x.length using Nat.strong_induction_on generalizing x k with
  | h n ih =>
    subst hlen
    intro h
    -- every backslash of the value takes two of the text
    have hstep : ∀ c rest, x ++ r = c :: rest →
        ∃ more, c = 92 ∧ rest = 92 :: more ∧
          readValue more = some (List.replicate k 92 ++ x ++ z, after) := by
      intro c rest heq
      rw [heq] at h
      rcases readValue_head h with ⟨-, hnil, -⟩ | ⟨hc, d, more, e, v', hrest, he, hv, hmore⟩ |
        ⟨hplain, v', hv, -⟩
      · cases hnil
      · rw [List.replicate_succ, List.cons_append, List.cons_append, List.cons.injEq] at hv
        rw [← hv.1] at he
        rw [unescape_eq_backslash he] at hrest
        rw [hv.2]
        exact ⟨more, hc, hrest, hmore⟩
      · rw [List.replicate_succ, List.cons_append, List.cons_append, List.cons.injEq] at hv
        exact absurd hv.1.symm hplain.2.1
    rcases x with _ | ⟨c, _ | ⟨d, x⟩⟩
    · rcases r with _ | ⟨c, r⟩
      · cases h
      · rcases hstep c r rfl with ⟨more, hc, -, -⟩
        rw [hc] at hr
        exact hr rfl
    · rcases r with _ | ⟨d, r⟩
      · rcases hstep c [] rfl with ⟨more, -, hrest, -⟩
        cases hrest
      · rcases hstep c (d :: r) rfl with ⟨more, -, hrest, -⟩
        rw [(List.cons.inj hrest).1] at hr
        exact hr rfl
    · rcases hstep c (d :: (x ++ r)) rfl with ⟨more, rfl, hrest, hmore⟩
      rcases List.cons.inj hrest with ⟨rfl, rfl⟩
      have hshorter : x.length < (92 :: 92 :: x).length := by
        rw [List.length_cons, List.length_cons]
        omega
      apply ih x.length hshorter (k + 1) rfl
      rw [hmore]
      congr 2
      simp [List.replicate_succ', List.append_assoc]

/-- A text that is read back, with something behind it that is no backslash, needs no escape. -/
lemma plain_of_readValue {x r z : Bytes} (hr : r.head? ≠ some 92)
    (h : readValue (x ++ r) = some (x ++ z, after)) : Plain x ∧ readValue r = some (z, after) := by
  induction x with
  | nil => exact ⟨.nil, h⟩
  | cons c x ih =>
    rw [List.cons_append, List.cons_append] at h
    rcases readValue_head h with ⟨-, hnil, -⟩ | ⟨hc, d, more, e, v', hrest, he, hv, hmore⟩ |
      ⟨hplain, v', hv, hrest⟩
    · cases hnil
    · -- a backslash in the text is half of an escape
      exfalso
      rw [List.cons.injEq] at hv
      rw [← hv.1, hc] at he
      have hd := unescape_eq_backslash he
      rcases x with _ | ⟨d', x⟩
      · rw [List.nil_append] at hrest
        rw [hrest, hd] at hr
        exact hr rfl
      · rw [List.cons_append, List.cons.injEq] at hrest
        rw [← hrest.2, ← hv.2, hrest.1, hd] at hmore
        exact readValue_ne_backslashes hr 0 hmore
    · rw [List.cons.injEq] at hv
      rw [← hv.2] at hrest
      rcases ih hrest with ⟨hx, hz⟩
      exact ⟨plain_cons.mpr ⟨hplain, hx⟩, hz⟩

lemma plain_of_readValue_quote (h : readValue (v ++ 34 :: rest) = some (v, after)) :
    Plain v ∧ after = rest := by
  rw [← List.append_nil v, List.append_assoc] at h
  rcases plain_of_readValue (by simp) h with ⟨hplain, hrest⟩
  rw [List.nil_append, readValue_quote, Option.some.injEq, Prod.mk.injEq] at hrest
  exact ⟨hplain, hrest.2.symm⟩

/-! ## Labels -/

/-- The name of a label or of a metric. -/
structure Name (n : Bytes) : Prop where
  ne_nil : n ≠ []
  bytes : ∀ c ∈ n, nameByte c = true

instance (n : Bytes) : Decidable (Name n) :=
  decidable_of_iff (n ≠ [] ∧ ∀ c ∈ n, nameByte c = true)
    ⟨fun h => ⟨h.1, h.2⟩, fun h => ⟨h.ne_nil, h.bytes⟩⟩

lemma nameByte_not_blank : ∀ c, nameByte c = true → isBlank c = false ∧ c ≠ 125 :=
  forall_byte (by decide +kernel)

section Name

variable {n : Bytes} (hn : Name n) {c : UInt8} (hc : nameByte c = false) (rest : Bytes)

include hn in
lemma Name.skipBlanks : skipBlanks (n ++ rest) = n ++ rest := by
  rcases List.exists_cons_of_ne_nil hn.ne_nil with ⟨d, ds, rfl⟩
  have hd := (nameByte_not_blank d (hn.bytes d List.mem_cons_self)).1
  exact List.dropWhile_cons_of_neg (by simp [hd])

include hn in
lemma Name.expect_brace : expect 125 (n ++ rest) = none := by
  rcases List.exists_cons_of_ne_nil hn.ne_nil with ⟨d, ds, rfl⟩
  have hd := (nameByte_not_blank d (hn.bytes d List.mem_cons_self)).2
  exact if_neg hd

include hn hc in
lemma Name.takeWhile : (n ++ c :: rest).takeWhile nameByte = n := by
  rw [List.takeWhile_append_of_pos hn.bytes, List.takeWhile_cons_of_neg (by simp [hc]),
    List.append_nil]

include hn hc in
lemma Name.dropWhile : (n ++ c :: rest).dropWhile nameByte = c :: rest := by
  rw [List.dropWhile_append_of_pos hn.bytes, List.dropWhile_cons_of_neg (by simp [hc])]

end Name

lemma skipBlanks_cons {c : UInt8} (h : isBlank c = false) (rest : Bytes) :
    skipBlanks (c :: rest) = c :: rest :=
  List.dropWhile_cons_of_neg (by simp [h])

lemma readLabel_eq (hn : Name n) (text : Bytes) :
    readLabel (n ++ 61 :: 34 :: text) = (readValue text).bind fun r =>
      if utf8 r.1 then some ((n, r.1), skipBlanks r.2) else none := by
  unfold readLabel
  rw [hn.dropWhile (by decide), hn.takeWhile (by decide), skipBlanks_cons (by decide)]
  rfl

/-- One label is read: the first of the result. -/
lemma readLabels_eq (hn : Name n) (fuel : Nat) (text : Bytes) :
    readLabels (fuel + 1) (n ++ 61 :: 34 :: text) =
      ((readValue text).bind fun r =>
        if utf8 r.1 then some ((n, r.1), skipBlanks r.2) else none).bind fun label =>
          match expect 44 label.2 with
          | some rest => (readLabels fuel rest).map fun r => (label.1 :: r.1, r.2)
          | none => (expect 125 label.2).map fun rest => ([label.1], rest) := by
  rw [readLabels, hn.skipBlanks, hn.expect_brace]
  dsimp only
  rw [readLabel_eq hn]

/-- What is known of the value when the labels have been read. -/
lemma readLabels_cons {n' : Bytes} (hn : Name n) {fuel : Nat} {text : Bytes}
    (h : readLabels fuel (n ++ 61 :: 34 :: text) = some ((n', v) :: labels, rest)) :
    utf8 v = true ∧ ∃ after, readValue text = some (v, after) ∧
      ∀ more, after = 44 :: more → ∃ fuel', readLabels fuel' more = some (labels, rest) := by
  rcases fuel with _ | fuel
  · cases h
  rw [readLabels_eq hn] at h
  rcases Option.bind_eq_some_iff.mp h with ⟨label, hlabel, hmore⟩
  rcases Option.bind_eq_some_iff.mp hlabel with ⟨⟨v', after⟩, hv, hutf8⟩
  dsimp only at hutf8
  split at hutf8
  · rename_i hutf8'
    cases hutf8
    dsimp only at hmore
    split at hmore
    · rename_i rest' hcomma
      rcases Option.map_eq_some_iff.mp hmore with ⟨⟨labels', rest''⟩, hlabels, heq⟩
      cases heq
      refine ⟨hutf8', after, hv, ?_⟩
      rintro more rfl
      rw [skipBlanks_cons (by decide)] at hcomma
      cases hcomma
      exact ⟨fuel, hlabels⟩
    · rename_i hnone
      rcases Option.map_eq_some_iff.mp hmore with ⟨rest', -, heq⟩
      cases heq
      refine ⟨hutf8', after, hv, ?_⟩
      rintro more rfl
      rw [skipBlanks_cons (by decide)] at hnone
      cases hnone
  · cases hutf8

/-! ## Writing -/

def writeLabel (l : Bytes × Bytes) : Bytes := l.1 ++ 61 :: 34 :: (l.2 ++ [34])

def writeLabels (labels : List (Bytes × Bytes)) : Bytes := [44].intercalate (labels.map writeLabel)

lemma writeLabels_concat (hne : labels ≠ []) (l : Bytes × Bytes) :
    writeLabels (labels ++ [l]) = writeLabels labels ++ 44 :: writeLabel l := by
  induction labels with
  | nil => exact absurd rfl hne
  | cons m labels ih =>
    rcases labels with _ | ⟨m', labels⟩
    · simp [writeLabels]
    · have hrest := ih (List.cons_ne_nil _ _)
      unfold writeLabels at hrest ⊢
      rw [List.cons_append, List.map_cons, List.intercalate_cons_of_ne_nil (by simp), hrest,
        List.map_cons, List.map_cons, List.map_cons, List.intercalate_cons_cons]
      simp

def writeSeries (name : Bytes) (labels : List (Bytes × Bytes)) (value : Nat) : Bytes :=
  name ++ 123 :: (writeLabels labels ++ 125 :: sp :: decimal value)

/-- A label that may be written as it is. -/
structure Clear (l : Bytes × Bytes) : Prop where
  name : Name l.1
  plain : Plain l.2
  utf8 : utf8 l.2 = true

instance (l : Bytes × Bytes) : Decidable (Clear l) :=
  decidable_of_iff (Name l.1 ∧ (∀ c ∈ l.2, c ≠ 34 ∧ c ≠ 92 ∧ c ≠ lf) ∧ Bytes.utf8 l.2 = true)
    ⟨fun h => ⟨h.1, h.2.1, h.2.2⟩, fun h => ⟨h.name, h.plain, h.utf8⟩⟩

lemma readLabels_write (hne : labels ≠ []) (hclear : ∀ l ∈ labels, Clear l) {fuel : Nat}
    (hfuel : labels.length ≤ fuel) (rest : Bytes) :
    readLabels fuel (writeLabels labels ++ 125 :: rest) = some (labels, rest) := by
  induction labels generalizing fuel with
  | nil => exact absurd rfl hne
  | cons l labels ih =>
    have hl := hclear l List.mem_cons_self
    rcases fuel with _ | fuel
    · cases hfuel
    · rcases labels with _ | ⟨l', labels⟩
      · have htext :
            writeLabels [l] ++ 125 :: rest = l.1 ++ 61 :: 34 :: (l.2 ++ 34 :: 125 :: rest) := by
          simp [writeLabels, writeLabel]
        rw [htext, readLabels_eq hl.name, readValue_plain hl.plain, Option.bind_some,
          if_pos hl.utf8, skipBlanks_cons (by decide)]
        rfl
      · have htext : writeLabels (l :: l' :: labels) ++ 125 :: rest =
            l.1 ++
              61 :: 34 :: (l.2 ++ 34 :: 44 :: (writeLabels (l' :: labels) ++ 125 :: rest)) := by
          simp [writeLabels, writeLabel]
        rw [htext, readLabels_eq hl.name, readValue_plain hl.plain, Option.bind_some,
          if_pos hl.utf8, skipBlanks_cons (by decide)]
        have hrest := ih (List.cons_ne_nil _ _) (fun m hm => hclear m (List.mem_cons_of_mem _ hm))
          (Nat.le_of_succ_le_succ hfuel)
        show (readLabels fuel (writeLabels (l' :: labels) ++ 125 :: rest)).map _ = _
        rw [hrest]
        rfl

lemma length_le_writeLabels (labels : List (Bytes × Bytes)) :
    labels.length ≤ (writeLabels labels).length := by
  induction labels with
  | nil => exact Nat.zero_le _
  | cons l labels ih =>
    rcases labels with _ | ⟨l', labels⟩
    · simp [writeLabels, writeLabel]
      omega
    · unfold writeLabels at ih ⊢
      rw [List.map_cons, List.intercalate_cons_of_ne_nil (by simp), List.length_append,
        List.length_append, List.length_cons]
      simp only [List.length_singleton]
      omega

lemma skipBlanks_decimal (value : Nat) : skipBlanks (sp :: decimal value) = decimal value := by
  have htrimmed := trimmed_trim (decimal value)
  rw [trim_decimal] at htrimmed
  unfold skipBlanks
  rw [List.dropWhile_cons_of_pos (by decide)]
  exact dropWhile_of_head htrimmed.1

/-- What was written is read back. -/
lemma readSeries_write {name : Bytes} (hname : Name name) (hne : labels ≠ [])
    (hclear : ∀ l ∈ labels, Clear l) (value : Nat) :
    readSeries (writeSeries name labels value) = some (name, labels, value) := by
  have hfuel : labels.length ≤ (writeSeries name labels value).length := by
    have hle := length_le_writeLabels labels
    unfold writeSeries
    rw [List.length_append, List.length_cons, List.length_append]
    omega
  unfold readSeries
  generalize (writeSeries name labels value).length = fuel at hfuel
  unfold writeSeries
  rw [hname.dropWhile (by decide), hname.takeWhile (by decide), skipBlanks_cons (by decide)]
  show (readLabels fuel (writeLabels labels ++ 125 :: sp :: decimal value)).bind _ = _
  rw [readLabels_write hne hclear hfuel, Option.bind_some, skipBlanks_decimal, numeral_decimal]
  rfl

/-- The labels of a line that is read are those of the text in the braces. -/
lemma readLabels_of_readSeries {name : Bytes} (hname : Name name) {text : Bytes} {value : Nat}
    (h : readSeries (name ++ 123 :: text) = some (n, labels, value)) :
    ∃ fuel rest, readLabels fuel text = some (labels, rest) := by
  unfold readSeries at h
  rw [hname.dropWhile (by decide), skipBlanks_cons (by decide)] at h
  rcases Option.bind_eq_some_iff.mp h with ⟨text', htext, hrest⟩
  cases htext
  rcases Option.bind_eq_some_iff.mp hrest with ⟨⟨labels', rest⟩, hlabels, hvalue⟩
  rcases Option.map_eq_some_iff.mp hvalue with ⟨value', -, heq⟩
  cases heq
  exact ⟨_, rest, hlabels⟩

end Exposition
