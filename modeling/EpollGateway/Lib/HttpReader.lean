import EpollGateway.Lib.Bytes

/-! # A strict reader of HTTP/1.1 requests

A reader as a backend would have one that gives no room for interpretation: lines
end in CRLF and hold no other CR or LF, the request line has three words with a
single space between them, header names are tokens, and the body has the length
that a single Content-Length header states. A request with a transfer coding or
with two Content-Length headers is refused. There are no size caps.

`readMessage_write` is the rule for writers: a message whose parts are clean is
read back as it was written, and the reader stops at its last byte.
-/

namespace HttpReader

open Bytes

structure Message where
  method : Bytes
  target : Bytes
  fields : List (Bytes × Bytes)
  body : Bytes

/-! ## Character classes -/

def isToken (c : UInt8) : Bool :=
  (48 ≤ c && c ≤ 57) || (65 ≤ c && c ≤ 90) || (97 ≤ c && c ≤ 122) ||
    c ∈ ascii "!#$%&'*+-.^_\x60|~"

def isVisible (c : UInt8) : Bool := 0x20 < c && c != 0x7F

def isFieldByte (c : UInt8) : Bool := c == tab || (0x20 ≤ c && c != 0x7F)

/-! ## The reader -/

/-- The next line, without its line end, and what follows it. -/
def readLine (b : Bytes) : Option (Bytes × Bytes) :=
  match crlfIdx b with
  | none => none
  | some i => if Unbroken (b.take i) then some (b.take i, b.drop (i + 2)) else none

/-- What stands in front of the first `c` and behind it. -/
def cut (c : UInt8) (b : Bytes) : Option (Bytes × Bytes) :=
  match b.dropWhile (· ≠ c) with
  | [] => none
  | _ :: rest => some (b.takeWhile (· ≠ c), rest)

/-- Method and target of a request line. -/
def readRequestLine (line : Bytes) : Option (Bytes × Bytes) :=
  (cut sp line).bind fun (method, rest) =>
    (cut sp rest).bind fun (target, version) =>
      if method ≠ [] ∧ method.all isToken ∧ target ≠ [] ∧ target.all isVisible ∧
          version = ascii "HTTP/1.1" then some (method, target)
      else none

/-- Name and value of a header line, the value without blanks around it. -/
def readField (line : Bytes) : Option (Bytes × Bytes) :=
  (cut 58 line).bind fun (name, value) =>
    if name ≠ [] ∧ name.all isToken ∧ (trim value).all isFieldByte then some (name, trim value)
    else none

/-- The header lines up to the empty line; `fuel` bounds their number. -/
def readFields : Nat → Bytes → Option (List (Bytes × Bytes) × Bytes)
  | 0, _ => none
  | fuel + 1, b =>
    (readLine b).bind fun (line, rest) =>
      if line = [] then some ([], rest)
      else
        (readField line).bind fun f =>
          (readFields fuel rest).map fun (fs, rest) => (f :: fs, rest)

/-- The values of a header, whatever the case of its name. -/
def valuesOf (name : Bytes) (fields : List (Bytes × Bytes)) : List Bytes :=
  (fields.filter fun f => lower f.1 = name).map (·.2)

/-- The length of the body. -/
def bodyLength (fields : List (Bytes × Bytes)) : Option Nat :=
  match valuesOf (ascii "transfer-encoding") fields, valuesOf (ascii "content-length") fields with
  | [], [] => some 0
  | [], [v] => if v = [] then none else numeral 10 decVal? v
  | _, _ => none

/-- A message and the bytes behind it. -/
def readMessage (b : Bytes) : Option (Message × Bytes) :=
  (readLine b).bind fun (line, rest) =>
    (readRequestLine line).bind fun (method, target) =>
      (readFields (rest.length + 1) rest).bind fun (fields, rest) =>
        (bodyLength fields).bind fun n =>
          if rest.length < n then none
          else some (⟨method, target, fields, rest.take n⟩, rest.drop n)

/-- The first line, the header fields and the bytes behind the empty line. -/
def readHead (b : Bytes) : Option (Bytes × List (Bytes × Bytes) × Bytes) :=
  (readLine b).bind fun (line, rest) =>
    (readFields (rest.length + 1) rest).map fun (fields, rest) => (line, fields, rest)

/-! ## The writer -/

def writeField (f : Bytes × Bytes) : Bytes := f.1 ++ ascii ": " ++ f.2 ++ crlf

def Message.write (m : Message) : Bytes :=
  m.method ++ [sp] ++ m.target ++ [sp] ++ ascii "HTTP/1.1" ++ crlf ++
    m.fields.flatMap writeField ++ crlf ++ m.body

structure CleanField (f : Bytes × Bytes) : Prop where
  name_ne : f.1 ≠ []
  name_token : ∀ c ∈ f.1, isToken c = true
  value_clean : ∀ c ∈ f.2, isFieldByte c = true

/-- The fields as they are read back. -/
def trimFields (fields : List (Bytes × Bytes)) : List (Bytes × Bytes) :=
  fields.map fun f => (f.1, trim f.2)

/-- A message without a byte that could be taken for a separator. -/
structure Message.Clean (m : Message) : Prop where
  method_ne : m.method ≠ []
  method_token : ∀ c ∈ m.method, isToken c = true
  target_visible : ∀ c ∈ m.target, isVisible c = true
  fields : ∀ f ∈ m.fields, CleanField f
  length : bodyLength (trimFields m.fields) = some m.body.length

/-! ## Reading back -/

lemma isToken_clean : ∀ c, isToken c = true → c ≠ cr ∧ c ≠ lf ∧ c ≠ sp ∧ c ≠ 58 :=
  forall_byte (by decide +kernel)

lemma isVisible_clean : ∀ c, isVisible c = true → c ≠ cr ∧ c ≠ lf ∧ c ≠ sp :=
  forall_byte (by decide +kernel)

lemma isFieldByte_clean : ∀ c, isFieldByte c = true → c ≠ cr ∧ c ≠ lf :=
  forall_byte (by decide +kernel)

lemma unbroken_of {l : Bytes} (h : ∀ c ∈ l, c ≠ cr ∧ c ≠ lf) : Unbroken l :=
  ⟨fun hm => (h cr hm).1 rfl, fun hm => (h lf hm).2 rfl⟩

lemma readLine_line {line : Bytes} (h : Unbroken line) (rest : Bytes) :
    readLine (line ++ crlf ++ rest) = some (line, rest) := by
  have htake : (line ++ crlf ++ rest).take line.length = line := by simp
  have hdrop : (line ++ crlf ++ rest).drop (line.length + 2) = rest := by
    rw [show line.length + 2 = (line ++ crlf).length by simp]
    exact List.drop_left
  simp only [readLine, crlfIdx_line h rest, htake, hdrop]
  rw [if_pos h]

lemma cut_append {c : UInt8} {a : Bytes} (h : c ∉ a) (b : Bytes) :
    cut c (a ++ c :: b) = some (a, b) := by
  have hne : ∀ d ∈ a, decide (d ≠ c) = true := by
    intro d hd
    simpa using fun heq : d = c => h (heq ▸ hd)
  have hdrop : (a ++ c :: b).dropWhile (· ≠ c) = c :: b := by
    rw [List.dropWhile_append_of_pos hne]
    simp
  have htake : (a ++ c :: b).takeWhile (· ≠ c) = a := by
    rw [List.takeWhile_append_of_pos hne]
    simp
  simp only [cut, hdrop, htake]

lemma trim_sp_cons_eq (b : Bytes) : trim (sp :: b) = trim b := by
  simp [trim, isBlank]

lemma trim_subset (b : Bytes) : ∀ c ∈ trim b, c ∈ b := by
  intro c hc
  exact (List.dropWhile_suffix _).subset ((List.rdropWhile_prefix _ _).subset hc)

lemma readField_write {f : Bytes × Bytes} (h : CleanField f) :
    readField (f.1 ++ ascii ": " ++ f.2) = some (f.1, trim f.2) := by
  have hcolon : 58 ∉ f.1 := fun hm => (isToken_clean 58 (h.name_token 58 hm)).2.2.2 rfl
  have hsplit : f.1 ++ ascii ": " ++ f.2 = f.1 ++ 58 :: sp :: f.2 := by
    rw [show ascii ": " = [58, sp] from rfl]
    simp
  have hvalue : ∀ c ∈ trim f.2, isFieldByte c = true :=
    fun c hc => h.value_clean c (trim_subset _ c hc)
  simpa [readField, hsplit, cut_append hcolon, trim_sp_cons_eq, h.name_ne] using
    ⟨h.name_token, hvalue⟩

lemma CleanField.unbroken {f : Bytes × Bytes} (h : CleanField f) :
    Unbroken (f.1 ++ ascii ": " ++ f.2) := by
  have hname : Unbroken f.1 :=
    unbroken_of fun c hc => ⟨(isToken_clean c (h.name_token c hc)).1,
      (isToken_clean c (h.name_token c hc)).2.1⟩
  have hvalue : Unbroken f.2 := unbroken_of fun c hc => isFieldByte_clean c (h.value_clean c hc)
  exact (hname.append (by decide)).append hvalue

lemma readFields_write {fields : List (Bytes × Bytes)} (h : ∀ f ∈ fields, CleanField f)
    (fuel : Nat) (hfuel : fields.length < fuel) (rest : Bytes) :
    readFields fuel (fields.flatMap writeField ++ crlf ++ rest) = some (trimFields fields, rest) := by
  induction fields generalizing fuel with
  | nil =>
    obtain ⟨n, rfl⟩ : ∃ n, fuel = n + 1 := ⟨fuel - 1, by simp at hfuel; omega⟩
    have hline := readLine_line Unbroken.nil rest
    simp only [List.nil_append] at hline
    simp [readFields, hline, trimFields]
  | cons f fs ih =>
    obtain ⟨n, rfl⟩ : ∃ n, fuel = n + 1 := ⟨fuel - 1, by simp at hfuel; omega⟩
    have hf := h f (by simp)
    have hne : f.1 ++ ascii ": " ++ f.2 ≠ [] := by simp [hf.name_ne]
    have htail := ih (fun g hg => h g (by simp [hg])) n (by simpa using hfuel)
    have hline := readLine_line hf.unbroken (fs.flatMap writeField ++ crlf ++ rest)
    have hbytes : (f :: fs).flatMap writeField ++ crlf ++ rest =
        f.1 ++ ascii ": " ++ f.2 ++ crlf ++ (fs.flatMap writeField ++ crlf ++ rest) := by
      simp [writeField]
    simp only [readFields, hbytes, hline, Option.bind_some, if_neg hne, readField_write hf, htail,
      Option.map_some]
    rfl

lemma length_le_writeFields (fields : List (Bytes × Bytes)) :
    fields.length ≤ (fields.flatMap writeField).length := by
  induction fields with
  | nil => simp
  | cons f fs ih =>
    simp only [List.flatMap_cons, List.length_append, List.length_cons, writeField, length_crlf]
    omega

/-- The fuel of `readHead` and `readMessage` is enough for what a writer wrote. -/
lemma readFields_written {fields : List (Bytes × Bytes)} (h : ∀ f ∈ fields, CleanField f)
    (rest : Bytes) :
    readFields ((fields.flatMap writeField ++ crlf ++ rest).length + 1)
      (fields.flatMap writeField ++ crlf ++ rest) = some (trimFields fields, rest) := by
  apply readFields_write h
  have hcount := length_le_writeFields fields
  simp only [List.length_append]
  omega

/-- A head of clean lines is read back line by line. -/
lemma readHead_write {line : Bytes} (hline : Unbroken line) {fields : List (Bytes × Bytes)}
    (h : ∀ f ∈ fields, CleanField f) (rest : Bytes) :
    readHead (line ++ crlf ++ (fields.flatMap writeField ++ crlf ++ rest)) =
      some (line, trimFields fields, rest) := by
  simp only [readHead, readLine_line hline, Option.bind_some, readFields_written h,
    Option.map_some]

/-- The request line of a clean message: refused when it has no target. -/
lemma readRequestLine_write {m : Message} (h : m.Clean) :
    readRequestLine (m.method ++ [sp] ++ m.target ++ [sp] ++ ascii "HTTP/1.1") =
      if m.target = [] then none else some (m.method, m.target) := by
  have hmethod : sp ∉ m.method := fun hm => (isToken_clean sp (h.method_token sp hm)).2.2.1 rfl
  have htarget : sp ∉ m.target := fun hm => (isVisible_clean sp (h.target_visible sp hm)).2.2 rfl
  have hcut₁ := cut_append hmethod (m.target ++ sp :: ascii "HTTP/1.1")
  have hcut₂ := cut_append htarget (ascii "HTTP/1.1")
  have hbytes : m.method ++ [sp] ++ m.target ++ [sp] ++ ascii "HTTP/1.1" =
      m.method ++ sp :: (m.target ++ sp :: ascii "HTTP/1.1") := by simp
  have htoken : m.method.all isToken = true := List.all_eq_true.mpr h.method_token
  have hvisible : m.target.all isVisible = true := List.all_eq_true.mpr h.target_visible
  simp only [readRequestLine, hbytes, hcut₁, hcut₂, Option.bind_some, htoken, hvisible]
  by_cases hnil : m.target = []
  · simp [hnil]
  · simp [hnil, h.method_ne]

/-- A clean message is read back, with its values trimmed, and the reader stops
behind its last byte; without a target it is refused. -/
lemma readMessage_write {m : Message} (h : m.Clean) (rest : Bytes) :
    readMessage (m.write ++ rest) =
      if m.target = [] then none else some ({ m with fields := trimFields m.fields }, rest) := by
  have hmethod : Unbroken m.method := unbroken_of fun c hc =>
    ⟨(isToken_clean c (h.method_token c hc)).1, (isToken_clean c (h.method_token c hc)).2.1⟩
  have htarget : Unbroken m.target := unbroken_of fun c hc =>
    ⟨(isVisible_clean c (h.target_visible c hc)).1, (isVisible_clean c (h.target_visible c hc)).2.1⟩
  have hunbroken : Unbroken (m.method ++ [sp] ++ m.target ++ [sp] ++ ascii "HTTP/1.1") :=
    (((hmethod.append (by decide)).append htarget).append (by decide)).append (by decide)
  have hbytes : m.write ++ rest = m.method ++ [sp] ++ m.target ++ [sp] ++ ascii "HTTP/1.1" ++ crlf ++
      (m.fields.flatMap writeField ++ crlf ++ (m.body ++ rest)) := by
    simp [Message.write]
  have hline := readLine_line hunbroken (m.fields.flatMap writeField ++ crlf ++ (m.body ++ rest))
  have hfields := readFields_written h.fields (m.body ++ rest)
  rw [hbytes]
  simp only [readMessage, hline, Option.bind_some, readRequestLine_write h]
  by_cases hnil : m.target = []
  · simp [hnil]
  · simp only [if_neg hnil, Option.bind_some, hfields, h.length]
    simp

end HttpReader
