import LowPower.Lib.Carry
import Mathlib.Algebra.Order.Group.Nat
import Mathlib.Order.Basic

/-!
# Scaling between two units

`scale f p t` is the amount `t`, of which there are `p` in a period, in the finer unit of which
there are `f`, rounded down.

* `clamped_iff`: the quotient of a product that was formed in a fixed width, clamped, is the
  clamped quotient exactly when the product fits or its residue is still above the range.
* `pay_scale`: scaled forth and back, with the remainder carried, an amount loses at most one;
  `paid_scale_le`: a stream of amounts never gains.
-/

namespace LowPower

namespace Scale

variable {f p r t : ℕ}

/-- The amount `t` in the finer unit. -/
def scale (f p t : ℕ) : ℕ := f * t / p

theorem scale_mono (f p : ℕ) : Monotone (scale f p) := fun _ _ h =>
  Nat.div_le_div_right (Nat.mul_le_mul_left f h)

/-- The finer unit is at least as fine. -/
theorem le_scale (hp : 0 < p) (hpf : p ≤ f) (t : ℕ) : t ≤ scale f p t :=
  (Nat.le_div_iff_mul_le hp).2 (Nat.mul_comm t p ▸ Nat.mul_le_mul_right t hpf)

/-- **A product formed in a fixed width.** What is lost by wrapping is at least one whole unit, so
only the clamp can hide it. -/
theorem clamped_iff {width a m : ℕ} (hp : p < width) :
    min (a % width / p) m = min (a / p) m ↔ a < width ∨ m * p ≤ a % width := by
  rcases Nat.eq_zero_or_pos p with rfl | hpos
  · simp
  constructor
  · intro heq
    by_contra hno
    obtain ⟨hwrap, hlow⟩ := not_or.1 hno
    have hlt : a % width / p < m := (Nat.div_lt_iff_lt_mul hpos).2 (not_le.1 hlow)
    have hstep : a % width / p + 1 ≤ a / p := by
      rw [← Nat.add_div_right _ hpos]
      refine Nat.div_le_div_right ?_
      have hmod := Nat.mod_add_div a width
      have hdiv : 1 ≤ a / width := (Nat.one_le_div_iff (by omega)).2 (not_lt.1 hwrap)
      have hwidth : width * 1 ≤ width * (a / width) := Nat.mul_le_mul_left width hdiv
      omega
    omega
  · rintro (hfit | hclamp)
    · rw [Nat.mod_eq_of_lt hfit]
    · have hle : m ≤ a % width / p := (Nat.le_div_iff_mul_le hpos).2 hclamp
      have hmod : a % width / p ≤ a / p := Nat.div_le_div_right (Nat.mod_le a width)
      rw [min_eq_right hle, min_eq_right (hle.trans hmod)]

/-! ## Forth and back -/

theorem mul_scale_le (f p t : ℕ) : p * scale f p t ≤ f * t := Nat.mul_div_le (f * t) p

/-- **One amount, forth and back.** -/
theorem pay_scale (hp : 0 < p) (hpf : p ≤ f) (hr : r < f) (t : ℕ) :
    Carry.pay f r (p * scale f p t) ≤ t ∧ t ≤ Carry.pay f r (p * scale f p t) + 1 := by
  have hle := mul_scale_le f p t
  have hlt : f * t < p * scale f p t + p := by
    have hmod := Nat.div_add_mod (f * t) p
    have := Nat.mod_lt (f * t) hp
    unfold scale
    omega
  generalize p * scale f p t = x at hle hlt
  have hf : 0 < f := by omega
  unfold Carry.pay
  constructor
  · rw [← Nat.lt_succ_iff, Nat.div_lt_iff_lt_mul hf, Nat.succ_mul, Nat.mul_comm t f]
    omega
  · rw [← Nat.add_div_right _ hf, Nat.le_div_iff_mul_le hf, Nat.mul_comm t f]
    omega

/-- In the same unit nothing is lost. -/
theorem pay_scale_self (hf : 0 < f) (hr : r < f) (t : ℕ) : Carry.pay f r (f * scale f f t) = t := by
  unfold Carry.pay scale
  rw [Nat.mul_div_cancel_left t hf, Nat.mul_add_div hf, Nat.div_eq_of_lt hr, Nat.add_zero]

/-- **A stream never gains.** -/
theorem paid_scale_le (hf : 0 < f) (hr : r < f) (ts : List ℕ) :
    Carry.paid f r (ts.map fun t => p * scale f p t) ≤ ts.sum := by
  have hsum : (ts.map fun t => p * scale f p t).sum ≤ f * ts.sum := by
    induction ts with
    | nil => exact Nat.zero_le _
    | cons t ts ih =>
      have hone := mul_scale_le f p t
      rw [List.map_cons, List.sum_cons, List.sum_cons, Nat.mul_add]
      omega
  rw [Carry.paid_eq hf hr, ← Nat.lt_succ_iff, Nat.div_lt_iff_lt_mul hf, Nat.succ_mul,
    Nat.mul_comm ts.sum f]
  omega

end Scale

end LowPower
