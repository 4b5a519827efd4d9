import Mathlib.Data.List.Basic
import Mathlib.Tactic.Common

/-! # Streams that arrive in pieces

A reader looks at all it has read so far: it gives a verdict or takes the next piece.
Where the pieces end is up to the sender. The verdict that comes out is the same for all
ways to cut a stream exactly when it is the same at all lengths at which the reader can
stop (`cuts_agree_iff_stops`). If a verdict is not taken back when more arrives, it is
enough to look at the verdicts that one piece can lead to (`cuts_agree_iff`).
-/

namespace Cuts

variable {α ρ : Type*}

/-- The pieces of a stream: none is empty, and none is longer than `w`. -/
structure CutOf (w : Nat) (stream : List α) (pieces : List (List α)) : Prop where
  whole : pieces.flatten = stream
  ne_nil : ∀ p ∈ pieces, p ≠ []
  le : ∀ p ∈ pieces, p.length ≤ w

/-- The first verdict on what has been read; `final` is for a stream that ends without
one. -/
def firstVerdict (verdict : List α → Option ρ) (final : List α → ρ) (read : List α) :
    List (List α) → ρ
  | [] => (verdict read).getD (final read)
  | p :: ps =>
    match verdict read with
    | some r => r
    | none => firstVerdict verdict final (read ++ p) ps

variable {verdict : List α → Option ρ} {final : List α → ρ} {w : Nat} {l read stream : List α}

lemma firstVerdict_some {r : ρ} (h : verdict read = some r) (pieces : List (List α)) :
    firstVerdict verdict final read pieces = r := by
  cases pieces <;> simp [firstVerdict, h]

lemma firstVerdict_none (h : verdict read = none) (p : List α) (ps : List (List α)) :
    firstVerdict verdict final read (p :: ps) = firstVerdict verdict final (read ++ p) ps := by
  simp [firstVerdict, h]

/-! ## Where a reader stops -/

/-- The reader can come to look at the first `n` elements of the stream: it has had no verdict
on the parts before. -/
inductive Reached (verdict : List α → Option ρ) (w : Nat) (stream : List α) : Nat → Prop where
  | zero : Reached verdict w stream 0
  | next {i j : Nat} (hi : Reached verdict w stream i) (hnone : verdict (stream.take i) = none)
      (hlt : i < j) (hle : j ≤ i + w) (hlen : j ≤ stream.length) : Reached verdict w stream j

/-- The reader can stop there with the verdict `r`. -/
def Stops (verdict : List α → Option ρ) (final : List α → ρ) (w : Nat) (stream : List α) (n : Nat)
    (r : ρ) : Prop :=
  Reached verdict w stream n ∧
    (verdict (stream.take n) = some r ∨
      (verdict stream = none ∧ n = stream.length ∧ r = final stream))

lemma take_append_drop_take {i j : Nat} (h : i ≤ j) :
    stream.take i ++ (stream.take j).drop i = stream.take j := by
  conv_rhs => rw [← List.take_append_drop i (stream.take j), List.take_take, Nat.min_eq_left h]

/-- The verdict of a cut is one with which the reader can stop. -/
lemma exists_stops {pieces : List (List α)} {i : Nat} (hi : Reached verdict w stream i)
    (hread : stream.take i ++ pieces.flatten = stream) (hne : ∀ p ∈ pieces, p ≠ [])
    (hle : ∀ p ∈ pieces, p.length ≤ w) :
    ∃ n, Stops verdict final w stream n (firstVerdict verdict final (stream.take i) pieces) := by
  induction pieces generalizing i with
  | nil =>
    rw [List.flatten_nil, List.append_nil] at hread
    rcases hv : verdict (stream.take i) with _ | r
    · have hall : stream.length ≤ i := by
        have hlen := congrArg List.length hread
        rw [List.length_take] at hlen
        omega
      have hlen : i ≤ stream.length := by
        cases hi with
        | zero => exact Nat.zero_le _
        | next _ _ _ _ hlen => exact hlen
      refine ⟨i, hi, .inr ⟨hread ▸ hv, Nat.le_antisymm hlen hall, ?_⟩⟩
      rw [firstVerdict, hv, hread]
      rfl
    · exact ⟨i, hi, .inl (by rw [hv, firstVerdict_some hv])⟩
  | cons p ps ih =>
    rcases hv : verdict (stream.take i) with _ | r
    · have hlen := congrArg List.length hread
      have hpos := List.length_pos_of_ne_nil (hne p List.mem_cons_self)
      have hp := hle p List.mem_cons_self
      rw [List.flatten_cons, List.length_append, List.length_append, List.length_take] at hlen
      have htake : stream.take i ++ p = stream.take (i + p.length) := by
        have hprefix : stream.take i ++ p <+: stream := by
          rw [List.flatten_cons, ← List.append_assoc] at hread
          exact ⟨_, hread⟩
        rw [List.prefix_iff_eq_take.mp hprefix, List.length_append, List.length_take,
          Nat.min_eq_left (by omega)]
      rw [firstVerdict_none hv, htake]
      refine ih (.next hi hv (by omega) (by omega) (by omega)) ?_
        (fun q hq => hne q (List.mem_cons_of_mem _ hq))
        (fun q hq => hle q (List.mem_cons_of_mem _ hq))
      rw [← htake, List.append_assoc, ← List.flatten_cons]
      exact hread
    · exact ⟨i, hi, .inl (by rw [hv, firstVerdict_some hv])⟩

/-- Pieces of one element each. -/
def singles (l : List α) : List (List α) := l.map fun a => [a]

lemma flatten_singles (l : List α) : (singles l).flatten = l := by
  induction l with
  | nil => rfl
  | cons a l ih => simpa [singles] using ih

lemma length_of_mem_singles {p : List α} (h : p ∈ singles l) : p.length = 1 := by
  obtain ⟨a, -, rfl⟩ := List.mem_map.mp h
  rfl

/-- Pieces that lead to a length that can be reached. -/
lemma Reached.exists_pieces {n : Nat} (h : Reached verdict w stream n) (final : List α → ρ) :
    ∃ pieces : List (List α), CutOf w (stream.take n) pieces ∧
      ∀ rest, firstVerdict verdict final [] (pieces ++ rest) =
        firstVerdict verdict final (stream.take n) rest := by
  induction h with
  | zero => exact ⟨[], ⟨by simp, by simp, by simp⟩, fun rest => by simp⟩
  | @next i j _ hnone hlt hle hlen ih =>
    obtain ⟨pieces, hcut, hfirst⟩ := ih
    have hpiece : stream.take i ++ (stream.take j).drop i = stream.take j :=
      take_append_drop_take (Nat.le_of_lt hlt)
    have hlength : ((stream.take j).drop i).length = j - i := by
      rw [List.length_drop, List.length_take, Nat.min_eq_left hlen]
    refine ⟨pieces ++ [(stream.take j).drop i], ⟨?_, ?_, ?_⟩, ?_⟩
    · rw [List.flatten_append, hcut.whole, List.flatten_singleton, hpiece]
    · intro p hp
      rcases List.mem_append.mp hp with hp | hp
      · exact hcut.ne_nil p hp
      · rw [List.mem_singleton.mp hp]
        exact List.ne_nil_of_length_pos (by omega)
    · intro p hp
      rcases List.mem_append.mp hp with hp | hp
      · exact hcut.le p hp
      · rw [List.mem_singleton.mp hp]
        omega
    · intro rest
      rw [List.append_assoc, hfirst, List.singleton_append, firstVerdict_none hnone, hpiece]

/-- And every verdict with which it can stop is that of a cut. -/
lemma Stops.exists_cut (hw : 0 < w) {n : Nat} {r : ρ} (h : Stops verdict final w stream n r) :
    ∃ pieces, CutOf w stream pieces ∧ firstVerdict verdict final [] pieces = r := by
  obtain ⟨hreached, hstop⟩ := h
  obtain ⟨pieces, hcut, hfirst⟩ := hreached.exists_pieces final
  -- one by one after the stop
  refine ⟨pieces ++ singles (stream.drop n), ⟨?_, ?_, ?_⟩, ?_⟩
  · rw [List.flatten_append, hcut.whole, flatten_singles, List.take_append_drop]
  · intro p hp
    rcases List.mem_append.mp hp with hp | hp
    · exact hcut.ne_nil p hp
    · exact List.ne_nil_of_length_eq_add_one (length_of_mem_singles hp)
  · intro p hp
    rcases List.mem_append.mp hp with hp | hp
    · exact hcut.le p hp
    · rw [length_of_mem_singles hp]
      omega
  · rw [hfirst]
    rcases hstop with hsome | ⟨hnone, rfl, rfl⟩
    · exact firstVerdict_some hsome _
    · rw [List.drop_length, List.take_length]
      simp [singles, firstVerdict, hnone]

/-- The cuts of a stream agree exactly when the reader can stop with one verdict only. -/
lemma cuts_agree_iff_stops (hw : 0 < w) :
    (∀ c c', CutOf w stream c → CutOf w stream c' →
      firstVerdict verdict final [] c = firstVerdict verdict final [] c') ↔
    ∀ m n r r', Stops verdict final w stream m r → Stops verdict final w stream n r' → r = r' := by
  constructor
  · intro hagree m n r r' hm hn
    obtain ⟨c, hc, rfl⟩ := hm.exists_cut hw
    obtain ⟨c', hc', rfl⟩ := hn.exists_cut hw
    exact hagree c c' hc hc'
  · intro hsame c c' hc hc'
    have hstops : ∀ d, CutOf w stream d →
        ∃ n, Stops verdict final w stream n (firstVerdict verdict final [] d) :=
      fun d hd => exists_stops (i := 0) .zero hd.whole hd.ne_nil hd.le
    obtain ⟨m, hm⟩ := hstops c hc
    obtain ⟨n, hn⟩ := hstops c' hc'
    exact hsame m n _ _ hm hn

/-! ## Verdicts that are not taken back -/

section

variable (hkeep : ∀ i j, i ≤ j → verdict (stream.take j) = none → verdict (stream.take i) = none)

include hkeep

/-- Everything up to a part without a verdict can be reached. -/
lemma reached_of_none (hw : 0 < w) {i : Nat} (hi : verdict (stream.take i) = none)
    (hlen : i ≤ stream.length) : Reached verdict w stream i := by
  induction i with
  | zero => exact .zero
  | succ i ih =>
    have hprev := hkeep i (i + 1) (Nat.le_succ i) hi
    exact .next (ih hprev (by omega)) hprev (by omega) (by omega) hlen

lemma stops_of_some (final : List α → ρ) (hw : 0 < w) {i j : Nat} {r : ρ}
    (hi : verdict (stream.take i) = none) (hj : verdict (stream.take j) = some r)
    (hij : j ≤ i + w) : ∃ n, Stops verdict final w stream n r := by
  have hlt : i < j ∧ i < stream.length := by
    constructor <;> by_contra hge
    · rw [hkeep j i (by omega) hi] at hj
      cases hj
    · have hall : verdict (stream.take (max i j)) = none := by
        rw [List.take_of_length_le (by omega)] at hi ⊢
        exact hi
      rw [hkeep j _ (Nat.le_max_right _ _) hall] at hj
      cases hj
  refine ⟨min j stream.length, ?_, .inl ?_⟩
  · exact .next (reached_of_none hkeep hw hi (by omega)) hi (by omega) (by omega)
      (Nat.min_le_right _ _)
  · rw [← hj]
    rcases Nat.le_total j stream.length with hle | hle
    · rw [Nat.min_eq_left hle]
    · rw [Nat.min_eq_right hle, List.take_length, List.take_of_length_le hle]

/-- The cuts of the stream agree exactly when the verdicts do that one piece can lead to. -/
lemma cuts_agree_iff (hw : 0 < w) (hstart : verdict [] = none) :
    (∀ c c', CutOf w stream c → CutOf w stream c' →
      firstVerdict verdict final [] c = firstVerdict verdict final [] c') ↔
    ∀ i j k r r', verdict (stream.take i) = none → verdict (stream.take j) = some r →
      verdict (stream.take k) = some r' → j ≤ i + w → k ≤ i + w → r = r' := by
  rw [cuts_agree_iff_stops hw]
  constructor
  · intro hagree i j k r r' hi hj hk hij hik
    obtain ⟨m, hm⟩ := stops_of_some hkeep final hw hi hj hij
    obtain ⟨n, hn⟩ := stops_of_some hkeep final hw hi hk hik
    exact hagree m n r r' hm hn
  · have hnone : ∀ j r, verdict stream = none → verdict (stream.take j) ≠ some r := by
      intro j r h hj
      have hall : verdict (stream.take (max j stream.length)) = none := by
        rwa [List.take_of_length_le (Nat.le_max_right _ _)]
      rw [hkeep j _ (Nat.le_max_left _ _) hall] at hj
      cases hj
    have hlast : ∀ n r, Reached verdict w stream n → verdict (stream.take n) = some r →
        ∃ i, verdict (stream.take i) = none ∧ n ≤ i + w := by
      intro n r hn hr
      cases hn with
      | zero =>
        rw [List.take_zero, hstart] at hr
        cases hr
      | next _ hi _ hle _ => exact ⟨_, hi, hle⟩
    rintro hsame m n r r' ⟨hm, hr | ⟨h, -, rfl⟩⟩ ⟨hn, hr' | ⟨h', -, rfl⟩⟩
    · -- both pieces start no later than the later of the two
      obtain ⟨i, hi, him⟩ := hlast m r hm hr
      obtain ⟨i', hi', hin⟩ := hlast n r' hn hr'
      rcases Nat.le_total i i' with hle | hle
      · exact hsame i' m n r r' hi' hr hr' (by omega) hin
      · exact hsame i m n r r' hi hr hr' him (by omega)
    · exact absurd hr (hnone m r h')
    · exact absurd hr' (hnone n r' h)
    · rfl

end

end Cuts
