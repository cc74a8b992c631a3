import Mathlib.Algebra.GroupWithZero.Nat
import Mathlib.Data.Nat.Basic

/-!
# Division with a carried remainder

A stream of amounts is paid out in units of `f`: each amount is added to the remainder left by
the earlier ones, the whole units are paid and the rest is kept. Over any stream nothing is lost
(`paid_kept`), so what has been paid is the quotient of the total (`paid_eq`).
-/

namespace LowPower

namespace Carry

variable {f r x : ℕ}

/-- The units paid for an amount, with a remainder to start from. -/
def pay (f r x : ℕ) : ℕ := (x + r) / f

/-- The remainder kept. -/
def keep (f r x : ℕ) : ℕ := (r + x) % f

/-- The units paid for a stream of amounts. -/
def paid (f : ℕ) : ℕ → List ℕ → ℕ
  | _, [] => 0
  | r, x :: xs => pay f r x + paid f (keep f r x) xs

/-- The remainder kept after a stream of amounts. -/
def kept (f : ℕ) (r : ℕ) (xs : List ℕ) : ℕ := xs.foldl (keep f) r

/-- One payment conserves the amount. -/
theorem pay_keep (f r x : ℕ) : f * pay f r x + keep f r x = r + x := by
  unfold pay keep
  rw [Nat.add_comm x r]
  exact Nat.div_add_mod (r + x) f

/-- **A stream conserves its total.** -/
theorem paid_kept (f r : ℕ) (xs : List ℕ) : f * paid f r xs + kept f r xs = r + xs.sum := by
  induction xs generalizing r with
  | nil => simp [paid, kept]
  | cons x xs ih =>
    have hone := pay_keep f r x
    have hrest := ih (keep f r x)
    have hkept : kept f r (x :: xs) = kept f (keep f r x) xs := rfl
    rw [paid, hkept, List.sum_cons, Nat.mul_add]
    omega

theorem kept_lt (hf : 0 < f) (hr : r < f) (xs : List ℕ) : kept f r xs < f := by
  induction xs generalizing r with
  | nil => exact hr
  | cons x xs ih => exact ih (Nat.mod_lt (r + x) hf)

/-- What has been paid is the quotient of the total. -/
theorem paid_eq (hf : 0 < f) (hr : r < f) (xs : List ℕ) : paid f r xs = (r + xs.sum) / f := by
  have htotal := paid_kept f r xs
  have hlt := kept_lt hf hr xs
  rw [← htotal, Nat.add_comm, Nat.add_mul_div_left _ _ hf, Nat.div_eq_of_lt hlt, Nat.zero_add]

end Carry

end LowPower
