import Mathlib.Algebra.Group.Nat.Defs
import Mathlib.Tactic.Common

/-! # `size_t` arithmetic

Machine words of 64 bits, as natural numbers below `2 ^ 64`; every operation
reduces its result as the machine does.
-/

namespace SizeT

/-- `SIZE_MAX`, which is also `std::string::npos`. -/
def max : Nat := 2 ^ 64 - 1

def add (a b : Nat) : Nat := (a + b) % 2 ^ 64

def mul (a b : Nat) : Nat := (a * b) % 2 ^ 64

/-- A difference of two words; below zero it wraps. -/
def sub (a b : Nat) : Nat := if b ≤ a then a - b else 2 ^ 64 - (b - a)

lemma add_eq {a b : Nat} (h : a + b < 2 ^ 64) : add a b = a + b := Nat.mod_eq_of_lt h

lemma mul_eq {a b : Nat} (h : a * b < 2 ^ 64) : mul a b = a * b := Nat.mod_eq_of_lt h

lemma sub_eq {a b : Nat} (hb : b ≤ a) : sub a b = a - b := if_pos hb

end SizeT
