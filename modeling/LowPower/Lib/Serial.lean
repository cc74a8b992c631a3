import Mathlib.Algebra.Group.Nat.Defs
import Mathlib.Data.Nat.Init

/-!
# Serial numbers

Numbers on a circle of `2 ^ w`, compared by their difference: `b` is not before `a` when `b - a` is
less than `half`. Among numbers that all lie in a window shorter than `half`, this is the order of
their offsets in the window (`le_iff_offset`), whatever the window's base.
-/

namespace LowPower

namespace Serial

variable {w half : ℕ} {base a b x y : BitVec w}

/-- The distance from the base of a window. -/
def offset (base x : BitVec w) : ℕ := (x - base).toNat

/-- `b` is `a` or comes after it, by less than `half`. -/
def Le (half : ℕ) (a b : BitVec w) : Prop := (b - a).toNat < half

instance : Decidable (Le half a b) := inferInstanceAs (Decidable (_ < _))

theorem offset_lt (base x : BitVec w) : offset base x < 2 ^ w := (x - base).isLt

theorem offset_zero (x : BitVec w) : offset 0 x = x.toNat :=
  congrArg BitVec.toNat (BitVec.sub_zero x)

/-- The difference of two numbers from their offsets. -/
theorem toNat_sub_eq (base a b : BitVec w) :
    (b - a).toNat =
      if offset base a ≤ offset base b then offset base b - offset base a
      else 2 ^ w - (offset base a - offset base b) := by
  have hab : b - a = (b - base) - (a - base) := by grind
  have ha := offset_lt base a
  have hb := offset_lt base b
  rw [hab, BitVec.toNat_sub]
  change (2 ^ w - offset base a + offset base b) % 2 ^ w = _
  split
  · rw [show 2 ^ w - offset base a + offset base b =
        (offset base b - offset base a) + 2 ^ w by omega, Nat.add_mod_right]
    exact Nat.mod_eq_of_lt (by omega)
  · rw [Nat.mod_eq_of_lt (by omega)]
    omega

/-- **In a window the differences follow the offsets.** -/
theorem le_iff_offset (hhalf : 2 * half ≤ 2 ^ w) (ha : offset base a < half)
    (hb : offset base b < half) : Le half a b ↔ offset base a ≤ offset base b := by
  rw [Le, toNat_sub_eq base]
  split <;> omega

end Serial

end LowPower
