/-
Signed 64-bit numbers, as integers within a range.

Overflow of a signed addition or subtraction has no defined result, so a checked operation
gives one only if the exact value is in range. The conversions from and to an unsigned number are
defined for all of them: they are taken modulo `2 ^ 64`.

* `InRange`: the numbers an `int64_t` can have;
* `checkedAdd`, `checkedSub`, `checkedRem`: the exact result, if there is one in range;
* `ofUnsigned`, `toUnsigned`: the conversion of an unsigned number, and the one to it.
-/
import Mathlib.Tactic

namespace Signed64

/-- The numbers an `int64_t` can have. -/
def InRange (n : ℤ) : Prop := -2 ^ 63 ≤ n ∧ n < 2 ^ 63

instance : DecidablePred InRange :=
  fun n => inferInstanceAs (Decidable (-2 ^ 63 ≤ n ∧ n < 2 ^ 63))

/-- Addition, or nothing when it overflows. -/
def checkedAdd (a b : ℤ) : Option ℤ := if InRange (a + b) then some (a + b) else none

/-- Subtraction, or nothing when it overflows. -/
def checkedSub (a b : ℤ) : Option ℤ := if InRange (a - b) then some (a - b) else none

/-- The remainder of a division that truncates, or nothing when the division has no result: by
zero, and of the lowest number by -1. -/
def checkedRem (a b : ℤ) : Option ℤ :=
  if b = 0 ∨ a = -2 ^ 63 ∧ b = -1 then none else some (a.tmod b)

/-- The conversion of an unsigned number. -/
def ofUnsigned (n : ℕ) : ℤ := Int.bmod n (2 ^ 64)

/-- The conversion to an unsigned number. -/
def toUnsigned (n : ℤ) : ℕ := (n % 2 ^ 64).toNat

lemma toUnsigned_natCast {n : ℕ} (h : n < 2 ^ 64) : toUnsigned n = n := by
  rw [toUnsigned]
  omega

lemma inRange_natCast {n : ℕ} (h : n < 2 ^ 63) : InRange n := by
  rw [InRange]
  omega

lemma checkedAdd_natCast {a b : ℕ} (h : a + b < 2 ^ 63) :
    checkedAdd a b = some ((a + b : ℕ) : ℤ) := by
  rw [checkedAdd, ← Nat.cast_add, if_pos (inRange_natCast h)]

lemma checkedRem_of_nonneg {a : ℤ} (ha : 0 ≤ a) (b : ℤ) :
    checkedRem a b = if b = 0 then none else some (a.tmod b) := by
  have hlowest : ¬ (a = -2 ^ 63 ∧ b = -1) := fun hc => by omega
  simp only [checkedRem, hlowest, or_false]

end Signed64
