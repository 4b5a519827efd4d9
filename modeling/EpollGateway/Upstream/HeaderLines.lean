import EpollGateway.Lib.Fields
import EpollGateway.Upstream.Framing

/-! # The header lines of a response

`finish_ok` splits the header block of a backend at its line ends and puts every
line with a colon into a `std::map`, name and value as they stand, without blanks
around the value. `headFields` is the list of these lines, in order and with
repetitions; the map holds the last value of each name (`mem_parseHeaders`). The
same splitting reads the header block that goes to the client.
-/

namespace EpollGateway.Upstream

open Bytes Handler

/-! ## Byte strings in order -/

instance strictTotalOrderByte : IsStrictTotalOrder UInt8 (· < ·) where
  irrefl := UInt8.lt_irrefl
  trans _ _ _ := UInt8.lt_trans
  trichotomous _ _ h₁ h₂ := UInt8.le_antisymm (UInt8.not_lt.mp h₂) (UInt8.not_lt.mp h₁)

instance strictTotalOrderBytes : IsStrictTotalOrder Bytes (· < ·) where
  irrefl := List.lt_irrefl
  trans _ _ _ := List.lt_trans
  trichotomous _ _ h₁ h₂ := List.le_antisymm (List.not_lt.mp h₂) (List.not_lt.mp h₁)

/-! ## The lines of a header block -/

/-- Name and value of every header line. -/
def headFields (head : Bytes) : List (Bytes × Bytes) :=
  (headLines head).filterMap fun line => (splitColon line).map fun h => (h.1, trim h.2)

/-- The map is filled from the header lines. -/
lemma parseHeaders_eq (headersPart : Bytes) :
    parseHeaders headersPart = Fields.ofFields (headFields headersPart) := by
  unfold parseHeaders headFields Fields.ofFields
  rw [List.foldl_filterMap]
  congr 1
  funext headers line
  rcases splitColon line with _ | ⟨key, value⟩
  · rfl
  · rfl

variable {headersPart line name v : Bytes} {fields : List (Bytes × Bytes)}

lemma mem_parseHeaders {k : Bytes} :
    (k, v) ∈ parseHeaders headersPart ↔ Fields.lastValue (headFields headersPart) k = some v := by
  rw [parseHeaders_eq]
  exact Fields.mem_ofFields

/-- The name of a header line has no colon, and its value no blank at its ends. -/
lemma headFields_shape {head : Bytes} {f : Bytes × Bytes} (h : f ∈ headFields head) :
    58 ∉ f.1 ∧ trim f.2 = f.2 := by
  obtain ⟨line, -, hline⟩ := List.mem_filterMap.mp h
  obtain ⟨g, hg, rfl⟩ := Option.map_eq_some_iff.mp hline
  refine ⟨?_, trim_of_trimmed (trimmed_trim g.2)⟩
  unfold splitColon HttpReader.cut at hg
  split at hg
  · cases hg
  · cases hg
    intro hcolon
    simpa using List.mem_takeWhile_imp hcolon

lemma splitColon_append (h : 58 ∉ name) (value : Bytes) :
    splitColon (name ++ 58 :: value) = some (name, value) := HttpReader.cut_append h value

/-! ## Reading back what was written -/

lemma crlfLines_line (h : Unbroken line) (acc rest : Bytes) :
    crlfLines acc (line ++ crlf ++ rest) = (acc ++ line) :: crlfLines [] rest := by
  induction line generalizing acc with
  | nil => simp [crlf, crlfLines]
  | cons c cs ih =>
    have hc : c ≠ cr := fun heq => h.1 (by simp [heq])
    have hcs : Unbroken cs := ⟨fun hm => h.1 (by simp [hm]), fun hm => h.2 (by simp [hm])⟩
    obtain ⟨d, t, hdt⟩ : ∃ d t, cs ++ crlf ++ rest = d :: t :=
      List.exists_cons_of_ne_nil (by simp [crlf])
    have hcons : c :: cs ++ crlf ++ rest = c :: d :: t := by
      rw [← hdt]
      simp
    rw [hcons, crlfLines, if_neg (fun hcr => hc hcr.1), ← hdt, ih hcs]
    simp

lemma crlfLines_lines {lines : List Bytes} (h : ∀ l ∈ lines, Unbroken l) (rest : Bytes) :
    crlfLines [] (lines.flatMap (· ++ crlf) ++ rest) = lines ++ crlfLines [] rest := by
  induction lines with
  | nil => rfl
  | cons l ls ih =>
    have hline := crlfLines_line (h l (by simp)) [] (ls.flatMap (· ++ crlf) ++ rest)
    have hrest := ih fun m hm => h m (by simp [hm])
    simp only [List.flatMap_cons, List.append_assoc, List.cons_append] at hline ⊢
    rw [hline, hrest]
    rfl

/-- The header lines stand behind the first line. -/
lemma headLines_line (h : Unbroken line) (rest : Bytes) :
    headLines (line ++ crlf ++ rest) = crlfLines [] rest := by
  have hdrop : (line ++ crlf ++ rest).drop (line.length + 2) = rest := by
    rw [show line.length + 2 = (line ++ crlf).length by simp]
    exact List.drop_left
  unfold headLines
  rw [crlfIdx_line h rest]
  dsimp only
  rw [hdrop]

/-! ## Connection -/

/-- The elements of a comma-separated list, trimmed, in lower case, without the empty
ones. -/
def listElements (value : Bytes) : List Bytes :=
  ((value.splitOn 44).map fun t => lower (trim t)).filter (· ≠ [])

/-- The names in all Connection lines. -/
def connectionNames (fields : List (Bytes × Bytes)) : List Bytes :=
  fields.flatMap fun f => if lower f.1 = ascii "connection" then listElements f.2 else []

lemma mem_connectionNames :
    name ∈ connectionNames fields ↔
      ∃ f ∈ fields, lower f.1 = ascii "connection" ∧ name ∈ listElements f.2 := by
  simp only [connectionNames, List.mem_flatMap]
  constructor
  · rintro ⟨f, hf, hname⟩
    split at hname
    · rename_i hconn
      exact ⟨f, hf, hconn, hname⟩
    · cases hname
  · rintro ⟨f, hf, hconn, hname⟩
    exact ⟨f, hf, by rwa [if_pos hconn]⟩

/-- The Connection line of a response that counts: of the spellings of the name the
one that is first in byte order, and of its lines the last. -/
def Counts (fields : List (Bytes × Bytes)) (value : Bytes) : Prop :=
  ∃ name, lower name = ascii "connection" ∧ Fields.lastValue fields name = some value ∧
    ∀ name' value', lower name' = ascii "connection" →
      Fields.lastValue fields name' = some value' → ¬ name' < name

lemma Counts.unique {w : Bytes} (hv : Counts fields v) (hw : Counts fields w) : v = w := by
  obtain ⟨m, hm, hmlast, hmleast⟩ := hv
  obtain ⟨n, hn, hnlast, hnleast⟩ := hw
  have hmn : m = n :=
    Std.Trichotomous.trichotomous (r := fun a b : Bytes => a < b) m n (hnleast m v hm hmlast)
      (hmleast n w hn hnlast)
  subst hmn
  rw [hmlast] at hnlast
  cases hnlast
  rfl

/-- The names that `response_connection_tokens` returns. -/
lemma mem_responseConnectionTokens :
    name ∈ responseConnectionTokens (parseHeaders headersPart) ↔
      ∃ value, Counts (headFields headersPart) value ∧ name ∈ listElements value := by
  rw [parseHeaders_eq]
  unfold responseConnectionTokens
  split
  · -- without a Connection line there is none that counts
    rename_i hfind
    simp only [List.not_mem_nil, false_iff]
    rintro ⟨value, ⟨spelling, hconn, hlast, -⟩, -⟩
    have hnone := List.find?_eq_none.mp hfind (spelling, value) (Fields.mem_ofFields.mpr hlast)
    simp [hconn] at hnone
  · rename_i e hfind
    have hfound := Fields.find?_ofFields
      (p := fun k : Bytes => decide (lower k = ascii "connection")) hfind
    simp only [decide_eq_true_eq] at hfound
    have hcounts : Counts (headFields headersPart) e.2 := ⟨e.1, hfound⟩
    constructor
    · intro hname
      exact ⟨e.2, hcounts, hname⟩
    · rintro ⟨value, hvalue, hname⟩
      rw [hvalue.unique hcounts] at hname
      exact hname

/-- What counts is one of the Connection lines. -/
lemma Counts.names {value : Bytes} (h : Counts fields value) (hname : name ∈ listElements value) :
    name ∈ connectionNames fields := by
  obtain ⟨spelling, hconn, hlast, -⟩ := h
  exact mem_connectionNames.mpr ⟨_, Fields.mem_of_lastValue hlast, hconn, hname⟩

end EpollGateway.Upstream
