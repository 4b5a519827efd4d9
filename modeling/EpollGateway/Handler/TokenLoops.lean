import EpollGateway.Handler.Response
import EpollGateway.Upstream.HeaderLines
import EpollGateway.Upstream.Request
import Mathlib.Data.Finset.Insert
import Mathlib.Data.Finset.Image

/-! # The two splitters of a Connection header

`connection_tokens` and `response_connection_tokens` walk over a header value with the same
two cursors and two ways to write a letter small. `connectionTokens` and
`responseConnectionTokens` say what is collected; here are the loops.

* Both collect the elements of the comma-separated list (`token_sets_agree`).
* They are the lists of tokens that the forwarding of headers is stated with
  (`mem_connectionTokenSet`, `mem_responseConnectionTokenSet`).
-/

namespace EpollGateway.Handler

open Bytes Http Upstream

/-! ## The loops -/

/-- `ascii_to_lower`. -/
def asciiToLower (c : UInt8) : UInt8 := if 65 ≤ c ∧ c ≤ 90 then c - 65 + 97 else c

/-- `iequals_ascii_lower`. -/
def iequalsAsciiLower : Bytes → Bytes → Bool
  | c :: name, l :: literal => asciiToLower c = l && iequalsAsciiLower name literal
  | [], [] => true
  | _, _ => false

/-- `value.find(',', pos)`. -/
def findComma (value : Bytes) (pos : Nat) : Option Nat :=
  ((value.drop pos).idxOf? 44).map (pos + ·)

/-- `while (begin < end && blank(value[begin])) ++begin`. -/
def skipFront (value : Bytes) (start stop : Nat) : Nat :=
  if start < stop ∧ (value[start]?.any isBlank) = true then skipFront value (start + 1) stop
  else start
termination_by stop - start

/-- `while (end > begin && blank(value[end - 1])) --end`. -/
def skipBack (value : Bytes) (start : Nat) : Nat → Nat
  | 0 => 0
  | stop + 1 =>
    if start < stop + 1 ∧ (value[stop]?.any isBlank) = true then skipBack value start stop
    else stop + 1

/-- The end of the element at `pos`: the next comma, or the end of the value. -/
def elementEnd (value : Bytes) (pos : Nat) : Nat := (findComma value pos).getD value.length

variable {element name value : Bytes}

lemma le_elementEnd {pos : Nat} (h : pos ≤ value.length) : pos ≤ elementEnd value pos := by
  rw [elementEnd, findComma]
  rcases (value.drop pos).idxOf? 44 with _ | i
  · exact h
  · exact Nat.le_add_right pos i

/-- The loop over a value, with the way a letter is written small. -/
def splitTokens (lowerChar : UInt8 → UInt8) (value : Bytes) (pos : Nat) (tokens : Finset Bytes) :
    Finset Bytes :=
  if h : pos ≤ value.length then
    let comma := elementEnd value pos
    let start := skipFront value pos comma
    let stop := skipBack value start comma
    splitTokens lowerChar value (comma + 1)
      (if start < stop then insert ((slice value start stop).map lowerChar) tokens else tokens)
  else tokens
termination_by value.length + 1 - pos
decreasing_by
  have hcomma := le_elementEnd h
  omega

/-- `connection_tokens`; `std::tolower` is `toLower`. -/
def connectionTokenSet (headers : Headers) : Finset Bytes :=
  match headers.lookup (ascii "connection") with
  | none => ∅
  | some value => splitTokens toLower value 0 ∅

/-- `response_connection_tokens`. -/
def responseConnectionTokenSet (headers : List (Bytes × Bytes)) : Finset Bytes :=
  match headers.find? fun h => iequalsAsciiLower h.1 (ascii "connection") with
  | none => ∅
  | some h => splitTokens asciiToLower h.2 0 ∅

/-! ## The grammar -/

/-- The elements of a list, as a set. -/
def grammarElements (value : Bytes) : Finset Bytes := (listElements value).toFinset

/-- The set with one element, if it is not empty. -/
def elementSet (element : Bytes) : Finset Bytes :=
  if trim element = [] then ∅ else {lower (trim element)}

lemma grammarElements_of_not_mem (h : 44 ∉ value) :
    grammarElements value = elementSet value := by
  rw [grammarElements, listElements, List.splitOn_eq_singleton h, elementSet]
  by_cases hnil : trim value = [] <;> simp [hnil, lower]

lemma grammarElements_append (h : 44 ∉ element) (rest : Bytes) :
    grammarElements (element ++ 44 :: rest) = elementSet element ∪ grammarElements rest := by
  rw [grammarElements, listElements, List.splitOn_append_cons_self_of_not_mem h, elementSet,
    grammarElements, listElements]
  by_cases hnil : trim element = []
  · simp [hnil, lower]
  · ext name
    simp [hnil, lower]

/-! ## The cursors -/

lemma getElem?_middle (before : Bytes) (c : UInt8) (after : Bytes) :
    (before ++ c :: after)[before.length]? = some c := by
  rw [List.getElem?_append_right (Nat.le_refl _), Nat.sub_self, List.getElem?_cons_zero]

/-- The first cursor stops behind the blanks. -/
lemma skipFront_eq (before element after : Bytes) :
    skipFront (before ++ element ++ after) before.length (before.length + element.length) =
      before.length + (element.takeWhile isBlank).length := by
  induction element generalizing before with
  | nil =>
    rw [skipFront, if_neg (by simp)]
    rfl
  | cons c element ih =>
    have hvalue : before ++ c :: element ++ after = before ++ [c] ++ element ++ after := by simp
    have hc : (before ++ c :: element ++ after)[before.length]? = some c := by
      rw [List.append_assoc]
      exact getElem?_middle before c (element ++ after)
    rw [skipFront, hc, Option.any_some, List.length_cons, List.takeWhile_cons]
    by_cases hblank : isBlank c = true
    · have hnext := ih (before ++ [c])
      rw [List.length_append, List.length_singleton] at hnext
      rw [if_pos ⟨by omega, hblank⟩, if_pos hblank, hvalue, List.length_cons,
        show before.length + (element.length + 1) = before.length + 1 + element.length by omega,
        hnext]
      omega
    · rw [if_neg fun h => hblank h.2, if_neg hblank]
      rfl

/-- The second cursor stops in front of the blanks. -/
lemma skipBack_eq (before element after : Bytes) :
    skipBack (before ++ element ++ after) before.length (before.length + element.length) =
      before.length + (element.rdropWhile isBlank).length := by
  induction element using List.reverseRecOn generalizing after with
  | nil =>
    rcases hstart : before.length with _ | n
    · rfl
    · rw [List.length_nil, Nat.add_zero, skipBack, if_neg (by simp)]
      rfl
  | append_singleton element c ih =>
    have hvalue : before ++ (element ++ [c]) ++ after = before ++ element ++ (c :: after) := by simp
    have hc : (before ++ element ++ (c :: after))[before.length + element.length]? = some c := by
      rw [← List.length_append]
      exact getElem?_middle (before ++ element) c after
    rw [hvalue, List.length_append, List.length_singleton, ← Nat.add_assoc, skipBack, hc,
      Option.any_some, List.rdropWhile_concat]
    by_cases hblank : isBlank c = true
    · rw [if_pos ⟨by omega, hblank⟩, if_pos hblank]
      exact ih (c :: after)
    · rw [if_neg fun h => hblank h.2, if_neg hblank, List.length_append, List.length_singleton]
      rfl

lemma slice_middle (before element after : Bytes) :
    slice (before ++ element ++ after) before.length (before.length + element.length) =
      element := by
  rw [slice, List.append_assoc, List.drop_left, Nat.add_sub_cancel_left, List.take_left]

/-- One turn of the loop collects one element. -/
lemma turn_eq (before element after : Bytes) (tokens : Finset Bytes) :
    let value := before ++ element ++ after
    let start := skipFront value before.length (before.length + element.length)
    let stop := skipBack value start (before.length + element.length)
    (if start < stop then insert ((slice value start stop).map toLower) tokens else tokens) =
      tokens ∪ elementSet element := by
  intro value start stop
  -- the blanks in front of the element go to what is before it
  have hstart : start = (before ++ element.takeWhile isBlank).length := by
    rw [List.length_append]
    exact skipFront_eq before element after
  have hsplit : before ++ element =
      before ++ element.takeWhile isBlank ++ element.dropWhile isBlank := by
    rw [List.append_assoc, List.takeWhile_append_dropWhile]
  have hvalue : value =
      before ++ element.takeWhile isBlank ++ element.dropWhile isBlank ++ after := by
    rw [← hsplit]
  have hend : before.length + element.length =
      (before ++ element.takeWhile isBlank).length + (element.dropWhile isBlank).length := by
    rw [← List.length_append, ← List.length_append, hsplit]
  have hstop : stop = start + (trim element).length := by
    show skipBack value start (before.length + element.length) = _
    rw [hend, hstart, hvalue]
    exact skipBack_eq _ _ _
  -- and those behind it to what is after it
  rcases List.rdropWhile_prefix isBlank (element.dropWhile isBlank) with ⟨blanks, hblanks⟩
  have htoken : slice value start stop = trim element := by
    rw [hstop, hstart, hvalue, ← hblanks, ← List.append_assoc, List.append_assoc _ blanks]
    exact slice_middle _ _ _
  rw [htoken, hstop, elementSet]
  by_cases hnil : trim element = []
  · rw [if_pos hnil, hnil, if_neg (by simp), Finset.union_empty]
  · have hpos := List.length_pos_of_ne_nil hnil
    rw [if_neg hnil, if_pos (by omega), Finset.union_comm]
    rfl

/-! ## The loop -/

lemma elementEnd_of_comma (before : Bytes) (h : 44 ∉ element) (rest : Bytes) :
    elementEnd (before ++ element ++ 44 :: rest) before.length =
      before.length + element.length := by
  rw [elementEnd, findComma, List.append_assoc, List.drop_left, idxOf?_append_cons h]
  rfl

lemma elementEnd_of_not_mem (before : Bytes) (h : 44 ∉ element) :
    elementEnd (before ++ element) before.length = before.length + element.length := by
  rw [elementEnd, findComma, List.drop_left, List.idxOf?_eq_none_iff.mpr h, ← List.length_append]
  rfl

/-- The loop collects the elements of what is left of the value. -/
lemma splitTokens_eq (before rest : Bytes) (tokens : Finset Bytes) :
    splitTokens toLower (before ++ rest) before.length tokens = tokens ∪ grammarElements rest := by
  induction hlen : rest.length using Nat.strongRecOn generalizing before rest tokens with
  | ind n ih =>
    have hpos : before.length ≤ (before ++ rest).length := by
      rw [List.length_append]
      exact Nat.le_add_right _ _
    rw [splitTokens, dif_pos hpos]
    rcases split_first 44 rest with hno | ⟨element, after, rfl, hno⟩
    · -- the last element: the next turn is behind the end of the value
      have hturn := turn_eq before rest [] tokens
      rw [List.append_nil] at hturn
      rw [elementEnd_of_not_mem before hno]
      dsimp only at hturn ⊢
      rw [hturn, splitTokens, dif_neg (by rw [List.length_append]; omega),
        grammarElements_of_not_mem hno]
    · have hturn := turn_eq before element (44 :: after) tokens
      have hless : after.length < n := by
        rw [← hlen, List.length_append, List.length_cons]
        omega
      have hnext := ih after.length hless (before ++ element ++ [44]) after
        (tokens ∪ elementSet element) rfl
      rw [← List.append_assoc, elementEnd_of_comma before hno]
      dsimp only at hturn ⊢
      rw [hturn, grammarElements_append hno, ← Finset.union_assoc, ← hnext]
      simp [Nat.add_assoc]

/-! ## The two sides -/

lemma asciiToLower_eq : ∀ c, asciiToLower c = toLower c := forall_byte (by decide +kernel)

lemma iequalsAsciiLower_iff (name literal : Bytes) :
    iequalsAsciiLower name literal = true ↔ lower name = literal := by
  induction name generalizing literal with
  | nil => cases literal <;> simp [iequalsAsciiLower, lower]
  | cons c name ih =>
    cases literal with
    | nil => simp [iequalsAsciiLower, lower]
    | cons l literal =>
      rw [iequalsAsciiLower, Bool.and_eq_true, ih, decide_eq_true_iff, asciiToLower_eq]
      simp [lower]

lemma splitTokens_toLower (value : Bytes) :
    splitTokens toLower value 0 ∅ = grammarElements value := by
  have hloop := splitTokens_eq [] value ∅
  rwa [Finset.empty_union] at hloop

lemma splitTokens_asciiToLower (value : Bytes) :
    splitTokens asciiToLower value 0 ∅ = grammarElements value := by
  rw [show asciiToLower = toLower from funext asciiToLower_eq, splitTokens_toLower]

/-- **The two splitters agree.** For every value, both collect the elements of the list, on
the response side whatever the letter case of the name. -/
theorem token_sets_agree {value name : Bytes} {headers : Headers}
    {before after : List (Bytes × Bytes)}
    (hrequest : headers.lookup (ascii "connection") = some value)
    (hname : lower name = ascii "connection")
    (hbefore : ∀ h ∈ before, lower h.1 ≠ ascii "connection") :
    connectionTokenSet headers = grammarElements value ∧
      responseConnectionTokenSet (before ++ (name, value) :: after) = grammarElements value := by
  constructor
  · rw [connectionTokenSet, hrequest]
    exact splitTokens_toLower value
  · have hfind : (before ++ (name, value) :: after).find?
        (fun h => iequalsAsciiLower h.1 (ascii "connection")) = some (name, value) := by
      have hnone : before.find? (fun h => iequalsAsciiLower h.1 (ascii "connection")) = none := by
        rw [List.find?_eq_none]
        intro h hmem hequal
        exact hbefore h hmem ((iequalsAsciiLower_iff _ _).mp hequal)
      rw [List.find?_append, hnone, Option.none_or, List.find?_cons,
        (iequalsAsciiLower_iff name (ascii "connection")).mpr hname]
    rw [responseConnectionTokenSet, hfind]
    exact splitTokens_asciiToLower value

theorem token_sets_agree_close :
    connectionTokenSet ((∅ : Headers).insert (ascii "connection") (ascii " Close,,TE ,")) =
        {ascii "close", ascii "te"} ∧
      responseConnectionTokenSet [(ascii "Via", []), (ascii "CONNECTION", ascii " Close,,TE ,")] =
        {ascii "close", ascii "te"} := by
  have hlookup : ((∅ : Headers).insert (ascii "connection") (ascii " Close,,TE ,")).lookup
      (ascii "connection") = some (ascii " Close,,TE ,") := AList.lookup_insert _
  have hset : grammarElements (ascii " Close,,TE ,") = {ascii "close", ascii "te"} := by
    decide +kernel
  have hname : lower (ascii "CONNECTION") = ascii "connection" := by decide +kernel
  have hbefore : ∀ h ∈ [(ascii "Via", ([] : Bytes))], lower h.1 ≠ ascii "connection" := by
    decide +kernel
  rw [← hset]
  exact token_sets_agree hlookup hname hbefore

/-! ## The tokens of the forwarding -/

/-- The loop of the request side is the list that forwarding is stated with. -/
lemma mem_connectionTokenSet {headers : Headers} :
    name ∈ connectionTokenSet headers ↔ name ∈ connectionTokens headers := by
  rw [connectionTokenSet, connectionTokens]
  rcases headers.lookup (ascii "connection") with _ | value
  · simp
  · dsimp only
    rw [splitTokens_toLower]
    exact List.mem_toFinset

lemma mem_responseConnectionTokenSet {headers : List (Bytes × Bytes)} :
    name ∈ responseConnectionTokenSet headers ↔ name ∈ responseConnectionTokens headers := by
  have hsame : (fun h : Bytes × Bytes => iequalsAsciiLower h.1 (ascii "connection")) =
      fun h => decide (lower h.1 = ascii "connection") := by
    funext h
    rw [Bool.eq_iff_iff, iequalsAsciiLower_iff, decide_eq_true_iff]
  rw [responseConnectionTokenSet, responseConnectionTokens, hsame]
  rcases headers.find? _ with _ | h
  · simp
  · dsimp only
    rw [splitTokens_asciiToLower]
    exact List.mem_toFinset

end EpollGateway.Handler
