import EpollGateway.Handler.Route
import EpollGateway.Static.Root

/-! # Spellings of a path

Two paths that differ only in doubled slashes name the same file for the static
fallback. A pattern that is walked segment by segment does not tell them apart either.
A pattern that ends in `*` does: it is compared byte by byte, so `//private/a` leaves
the route `/private/*` and is served without a key (`doubled_slash_unmatched`). The
pattern `*` alone matches everything; for every other wildcard there are two spellings
of a path with different answers (`matchRoute_respelled_iff`).
-/

namespace EpollGateway.Handler

open Bytes Static

/-- The same names in the same order, and a slash at the end of both or of neither. -/
structure Respelled (p q : Bytes) : Prop where
  names : pathNames p = pathNames q
  trailing : p.getLast? = some 47 ↔ q.getLast? = some 47

/-! ## Patterns with segments -/

lemma pathNames_dropSlashes (p : Bytes) : pathNames (p.dropWhile (· = 47)) = pathNames p := by
  induction p with
  | nil => rfl
  | cons c cs ih =>
    by_cases hc : c = 47
    · rw [List.dropWhile_cons_of_pos (by simpa using hc), ih, hc, pathNames_slash]
    · rw [List.dropWhile_cons_of_neg (by simpa using hc)]

/-- `next_path_segment` goes through the names of a path. -/
lemma nextPathSegment_names (p : Bytes) :
    nextPathSegment p = none ∧ pathNames p = [] ∨
      ∃ seg rest, nextPathSegment p = some (seg, rest) ∧ pathNames p = seg :: pathNames rest := by
  unfold nextPathSegment
  rw [← pathNames_dropSlashes p]
  rcases hdrop : p.dropWhile (· = 47) with _ | ⟨c, cs⟩
  · left
    rw [hdrop]
    exact ⟨rfl, pathNames_nil⟩
  · right
    rw [hdrop]
    have hc : c ≠ 47 := by
      have hne : p.dropWhile (fun c => decide (c = 47)) ≠ [] := by simp [hdrop]
      have hhead := List.head_dropWhile_not (fun c : UInt8 => decide (c = 47)) hne
      simpa [hdrop] using hhead
    rcases split_first 47 (c :: cs) with hno | ⟨n, rest, heq, hn⟩
    · refine ⟨c :: cs, [], ?_, ?_⟩
      · dsimp only
        rw [List.takeWhile_eq_self_iff.mpr (ne_slash hno),
          List.dropWhile_eq_nil_iff.mpr (ne_slash hno)]
      · rw [pathNames_name (by simp) hno, pathNames_nil]
    · have hne : n ≠ [] := by
        rintro rfl
        exact hc (List.cons.inj heq).1
      refine ⟨n, 47 :: rest, ?_, ?_⟩
      · dsimp only
        rw [heq, takeWhile_slash hn, dropWhile_slash hn]
      · rw [heq, pathNames_append_cons, pathNames_name hne hn, pathNames_slash]
        rfl

/-- The walk over the segments sees nothing but the names of the path. -/
lemma matchSegments_names {p q : Bytes} (h : pathNames p = pathNames q) (fuel : Nat)
    (pattern : Bytes) (params : RouteParams) :
    matchSegments fuel pattern p params = matchSegments fuel pattern q params := by
  induction fuel generalizing pattern p q params with
  | zero => rfl
  | succ fuel ih =>
    rw [matchSegments, matchSegments]
    rcases nextPathSegment_names p with ⟨hp, hpn⟩ | ⟨seg, rest, hp, hpn⟩
    · rcases nextPathSegment_names q with ⟨hq, -⟩ | ⟨seg', rest', -, hqn⟩
      · rw [hp, hq]
      · rw [hpn, hqn] at h
        cases h
    · rcases nextPathSegment_names q with ⟨-, hqn⟩ | ⟨seg', rest', hq, hqn⟩
      · rw [hpn, hqn] at h
        cases h
      · rw [hpn, hqn, List.cons.injEq] at h
        rcases h with ⟨rfl, hrest⟩
        rw [hp, hq]
        rcases nextPathSegment pattern with _ | ⟨pseg, pattern'⟩
        · rfl
        · dsimp only
          rcases paramName pseg with _ | name
          · dsimp only
            split
            · exact ih hrest pattern' params
            · rfl
          · exact ih hrest pattern' _

/-! ## Patterns with a wildcard -/

lemma all_eq_of_prefix_cons {a : UInt8} {p : Bytes} (h : p <+: a :: p) : ∀ c ∈ p, c = a := by
  induction p with
  | nil => simp
  | cons b bs ih =>
    rcases List.cons_prefix_cons.mp h with ⟨rfl, htail⟩
    intro c hc
    rcases List.mem_cons.mp hc with rfl | hc
    · rfl
    · exact ih htail c hc

/-- A prefix that is not empty separates two spellings: its own path with a slash in
front of it or, when it has slashes only, a path with and without them. -/
lemma exists_respelled {start : Bytes} (hne : start ≠ []) :
    ∃ p q, Respelled p q ∧ start <+: p ∧ ¬ start <+: q := by
  by_cases hall : ∀ c ∈ start, c = 47
  · refine ⟨start ++ [120], [120], ⟨?_, ?_⟩, List.prefix_append _ _, ?_⟩
    · clear hne
      induction start with
      | nil => rfl
      | cons c cs ih =>
        have hc := hall c List.mem_cons_self
        rw [hc, List.cons_append, pathNames_slash]
        exact ih fun d hd => hall d (List.mem_cons_of_mem _ hd)
    · simp
    · rcases List.exists_cons_of_ne_nil hne with ⟨c, cs, rfl⟩
      intro hpre
      have hc := (List.cons_prefix_cons.mp hpre).1
      rw [hall c List.mem_cons_self] at hc
      exact absurd hc (by decide)
  · refine ⟨start, 47 :: start, ⟨(pathNames_slash start).symm, ?_⟩, List.prefix_rfl, ?_⟩
    · rw [List.getLast?_cons, List.getLast?_eq_some_getLast hne]
      simp
    · exact fun hpre => hall (all_eq_of_prefix_cons hpre)

/-- A pattern gives the same answer for all spellings of a path exactly when it does not
end in `*`, or is `*`. -/
theorem matchRoute_respelled_iff (pattern : Bytes) :
    (∀ p q, Respelled p q → matchRoute pattern p = matchRoute pattern q) ↔
      pattern.getLast? ≠ some 42 ∨ pattern = ascii "*" := by
  constructor
  · intro hsame
    by_cases hwild : pattern.getLast? = some 42
    · right
      by_contra hstar
      have hne : pattern.dropLast ≠ [] := by
        intro hnil
        rcases List.getLast?_eq_some_iff.mp hwild with ⟨start, rfl⟩
        rw [List.dropLast_concat] at hnil
        rw [hnil] at hstar
        exact hstar rfl
      rcases exists_respelled hne with ⟨p, q, hpq, hp, hq⟩
      have hanswer := hsame p q hpq
      unfold matchRoute at hanswer
      rw [if_pos hwild, if_pos hwild, if_pos hp, if_neg hq] at hanswer
      cases hanswer
    · exact .inl hwild
  · intro hpattern p q hpq
    unfold matchRoute
    rcases hpattern with hwild | rfl
    · rw [if_neg hwild, if_neg hwild]
      exact matchSegments_names hpq.names _ _ _
    · have hall (r : Bytes) : (ascii "*").dropLast <+: r := List.nil_prefix
      rw [if_pos (hall p), if_pos (hall q)]
      rfl

/-- With one slash the route is found, with two it is not; and for the static fallback
both are the same file. -/
theorem doubled_slash_unmatched :
    Respelled (ascii "/private/a") (ascii "//private/a") ∧
    (matchRoute (ascii "/private/*") (ascii "/private/a")).isSome = true ∧
    (matchRoute (ascii "/private/*") (ascii "//private/a")).isSome = false ∧
    ∀ v rootDir, isSafeStaticPath v (ascii "/") (ascii "//private/a") rootDir =
      isSafeStaticPath v (ascii "/") (ascii "/private/a") rootDir := by
  refine ⟨⟨by decide +kernel, by decide⟩, by decide, by decide, fun v rootDir => ?_⟩
  have hsuffix : staticSuffix (ascii "/") (ascii "//private/a") =
      staticSuffix (ascii "/") (ascii "/private/a") := by decide
  unfold isSafeStaticPath
  rw [hsuffix]

end EpollGateway.Handler
