import Mathlib.Algebra.Order.Field.Basic
import Mathlib.Data.Int.Order.Basic
import Mathlib.Data.Rat.Cast.Order
import Mathlib.Order.Monotone.Basic
import Mathlib.Tactic.FieldSimp
import Mathlib.Tactic.Linarith
import Mathlib.Tactic.LinearCombination
import Mathlib.Tactic.Ring
import Mathlib.Tactic.Zify

/-!
# Error accumulators

An axis of a digital line: every round adds `δ` to an error; an error beyond `D` gives back `D` and
makes one step. For `δ ≤ D` the steps after `k` rounds are `(k * δ - 1) / D` (`accumulate`), so
`D + 1` rounds make exactly `δ` of them (`steps_last`), a full axis makes one in every round but the
first (`steps_full`), and another axis stays within one step of the slope (`steps_slope`).
-/

namespace LowPower

namespace Dda

variable {δ D k : ℕ}

/-- The steps made after `k` rounds. -/
def steps (δ D k : ℕ) : ℕ := (k * δ - 1) / D

/-- The error left after `k` rounds. -/
def err (δ D k : ℕ) : ℕ := k * δ - steps δ D k * D

theorem steps_mul_le (δ D k : ℕ) : steps δ D k * D ≤ k * δ - 1 := Nat.div_mul_le_self _ _

theorem lt_steps_mul (hD : 0 < D) : k * δ - 1 < (steps δ D k + 1) * D := by
  rw [steps, Nat.mul_comm _ D]
  exact Nat.lt_mul_div_succ _ hD

/-- The number of steps is known from the interval the sum of the rounds lies in. -/
theorem steps_eq {q : ℕ} (hlow : q * D ≤ k * δ - 1) (hhigh : k * δ - 1 < (q + 1) * D) :
    steps δ D k = q := Nat.div_eq_of_lt_le hlow hhigh

theorem err_le (hD : 0 < D) : err δ D k ≤ D := by
  have hhigh := lt_steps_mul (δ := δ) (k := k) hD
  rw [Nat.add_mul] at hhigh
  unfold err
  omega

@[simp]
theorem steps_zero : steps δ D 0 = 0 := by simp [steps]

@[simp]
theorem err_zero : err δ D 0 = 0 := by simp [err]

theorem err_add (δ D k : ℕ) : err δ D k + steps δ D k * D = k * δ := by
  have hlow := steps_mul_le δ D k
  unfold err
  omega

/-- **One round of the accumulator.** -/
theorem accumulate (hD : 0 < D) (h : δ ≤ D) :
    (err δ D (k + 1), steps δ D (k + 1)) =
      if D < err δ D k + δ then (err δ D k + δ - D, steps δ D k + 1)
      else (err δ D k + δ, steps δ D k) := by
  have hsum := err_add δ D k
  have hle := err_le (δ := δ) (k := k) hD
  have hnext : (k + 1) * δ = k * δ + δ := Nat.succ_mul k δ
  split
  · rename_i hover
    have hsteps : steps δ D (k + 1) = steps δ D k + 1 := by
      apply steps_eq
      · rw [hnext, Nat.add_mul (steps δ D k)]
        omega
      · rw [hnext, Nat.add_mul (steps δ D k + 1), Nat.add_mul (steps δ D k)]
        omega
    rw [err, hsteps, hnext, Nat.add_mul, Prod.mk.injEq]
    exact ⟨by omega, rfl⟩
  · rename_i hunder
    have hsteps : steps δ D (k + 1) = steps δ D k := by
      have hlow := steps_mul_le δ D k
      apply steps_eq
      · omega
      · rw [hnext, Nat.add_mul (steps δ D k)]
        omega
    rw [err, hsteps, hnext, Prod.mk.injEq]
    exact ⟨by omega, rfl⟩

/-- A round makes at most one step. -/
theorem steps_succ (hD : 0 < D) (h : δ ≤ D) :
    steps δ D (k + 1) = steps δ D k ∨ steps δ D (k + 1) = steps δ D k + 1 := by
  have hround := congrArg Prod.snd (accumulate (k := k) hD h)
  dsimp only at hround
  split at hround
  · exact .inr hround
  · exact .inl hround

/-- **After `D + 1` rounds the whole distance is made.** -/
theorem steps_last (hD : 0 < D) (h : δ ≤ D) : steps δ D (D + 1) = δ := by
  have hcomm : (D + 1) * δ = δ * D + δ := by rw [Nat.succ_mul, Nat.mul_comm]
  apply steps_eq
  · rw [hcomm]
    cases δ with
    | zero => simp
    | succ δ => omega
  · rw [hcomm, Nat.succ_mul]
    omega

theorem steps_mono (hD : 0 < D) (h : δ ≤ D) : Monotone (steps δ D) := by
  refine monotone_nat_of_le_succ fun k => ?_
  obtain hk | hk := steps_succ (k := k) hD h
  · exact hk.ge
  · omega

theorem steps_le (hD : 0 < D) (h : δ ≤ D) (hk : k ≤ D + 1) : steps δ D k ≤ δ :=
  (steps_mono hD h hk).trans (steps_last hD h).le

/-- The axis whose distance is the full one makes a step in every round but the first. -/
theorem steps_full (hD : 0 < D) (k : ℕ) : steps D D k = k - 1 := by
  cases k with
  | zero => exact steps_zero
  | succ k =>
    apply steps_eq
    · rw [Nat.succ_mul, Nat.add_sub_cancel]
      omega
    · rw [Nat.succ_mul, Nat.add_sub_cancel, Nat.succ_mul]
      omega

/-- **Between two steps of the full axis** another axis is less than one step off the slope. -/
theorem steps_slope (hD : 0 < D) (h : δ ≤ D) :
    steps δ D k * D < (k - 1) * δ + D ∧ (k - 1) * δ < steps δ D k * D + D := by
  have hlow := steps_mul_le δ D k
  have hhigh := lt_steps_mul (δ := δ) (k := k) hD
  rw [Nat.add_mul] at hhigh
  cases k with
  | zero =>
    rw [steps_zero]
    omega
  | succ k =>
    rw [Nat.add_sub_cancel]
    rw [Nat.succ_mul] at hlow hhigh
    cases δ with
    | zero => omega
    | succ δ => omega

theorem steps_gap (hD : 0 < D) (h : δ ≤ D) :
    |(steps δ D k * D - (k - 1 : ℕ) * δ : ℤ)| < D := by
  obtain ⟨hlow, hhigh⟩ := steps_slope (k := k) hD h
  zify at hlow hhigh
  rw [abs_lt]
  constructor
  · linarith
  · linarith

/-! ## Positions -/

/-- Where an axis from `a` to `b` is after `k` rounds. -/
def pos (a b : ℤ) (D k : ℕ) : ℤ := a + (b - a).sign * steps (b - a).natAbs D k

variable {a b c d : ℤ}

@[simp]
theorem pos_zero (a b : ℤ) (D : ℕ) : pos a b D 0 = a := by simp [pos]

theorem pos_last (hD : 0 < D) (h : (b - a).natAbs ≤ D) : pos a b D (D + 1) = b := by
  rw [pos, steps_last hD h, Int.sign_mul_natAbs]
  omega

/-- The three directions of an axis. -/
theorem pos_cases (a b : ℤ) (D k : ℕ) :
    (pos a b D k = a + steps (b - a).natAbs D k ∧ b = a + (b - a).natAbs) ∨
      (pos a b D k = a ∧ b = a) ∨
      (pos a b D k = a - steps (b - a).natAbs D k ∧ b = a - (b - a).natAbs) := by
  have habs := Int.sign_mul_natAbs (b - a)
  unfold pos
  obtain hsign | hsign | hsign := Int.sign_trichotomy (b - a)
  · rw [hsign, Int.one_mul] at habs
    rw [hsign, Int.one_mul]
    exact .inl ⟨rfl, by omega⟩
  · rw [hsign, Int.zero_mul] at habs
    rw [hsign, Int.zero_mul]
    exact .inr (.inl ⟨by omega, by omega⟩)
  · rw [hsign, Int.neg_one_mul] at habs
    rw [hsign, Int.neg_one_mul]
    exact .inr (.inr ⟨by omega, by omega⟩)

theorem abs_sign_le (x : ℤ) : |x.sign| ≤ 1 := by
  rw [abs_le]
  obtain hsign | hsign | hsign := Int.sign_trichotomy x <;> omega

/-- A round moves at most one pixel. -/
theorem pos_succ (hD : 0 < D) (h : (b - a).natAbs ≤ D) : |pos a b D (k + 1) - pos a b D k| ≤ 1 := by
  obtain hk | hk := steps_succ (k := k) hD h
  · rw [pos, pos, hk]
    simp
  · have hdiff : pos a b D (k + 1) - pos a b D k = (b - a).sign := by
      rw [pos, pos, hk]
      push_cast
      ring
    rw [hdiff]
    exact abs_sign_le _

/-- An axis stays between its ends. -/
theorem pos_mem (hD : 0 < D) (h : (b - a).natAbs ≤ D) (hk : k ≤ D + 1) :
    min a b ≤ pos a b D k ∧ pos a b D k ≤ max a b := by
  have hle := steps_le hD h hk
  obtain ⟨hpos, hb⟩ | ⟨hpos, hb⟩ | ⟨hpos, hb⟩ := pos_cases a b D k
  · omega
  · omega
  · omega

/-- **The full axis visits every position between its ends.** -/
theorem pos_full (hD : 0 < D) (h : (b - a).natAbs = D) {v : ℤ} (hlow : min a b ≤ v)
    (hhigh : v ≤ max a b) : ∃ k ≤ D + 1, pos a b D k = v := by
  refine ⟨(v - a).natAbs + 1, by omega, ?_⟩
  have hsteps : steps (b - a).natAbs D ((v - a).natAbs + 1) = (v - a).natAbs := by
    rw [h, steps_full hD, Nat.add_sub_cancel]
  obtain ⟨hpos, hb⟩ | ⟨hpos, hb⟩ | ⟨hpos, hb⟩ := pos_cases a b D ((v - a).natAbs + 1)
  · omega
  · omega
  · omega

/-- The distance from the slope, times the length of the full axis. -/
theorem pos_cross (hD : 0 < D) (hfull : (b - a).natAbs = D) (h : (d - c).natAbs ≤ D) (k : ℕ) :
    |(pos c d D k - c) * (b - a) - (pos a b D k - a) * (d - c)| < D := by
  have hab := Int.sign_mul_natAbs (b - a)
  have hcd := Int.sign_mul_natAbs (d - c)
  have hcross : (pos c d D k - c) * (b - a) - (pos a b D k - a) * (d - c) =
      ((b - a).sign * (d - c).sign) *
        (steps (d - c).natAbs D k * D - (k - 1 : ℕ) * (d - c).natAbs) := by
    have hm : pos a b D k - a = (b - a).sign * (k - 1 : ℕ) := by
      rw [pos, hfull, steps_full hD]
      ring
    have hq : pos c d D k - c = (d - c).sign * steps (d - c).natAbs D k := by
      rw [pos]
      ring
    rw [hfull] at hab
    rw [hm, hq]
    linear_combination -((d - c).sign * (steps (d - c).natAbs D k : ℤ)) * hab +
      (b - a).sign * ((k - 1 : ℕ) : ℤ) * hcd
  have hsign : |(b - a).sign * (d - c).sign| ≤ 1 := by
    rw [abs_mul]
    exact mul_le_one₀ (abs_sign_le _) (abs_nonneg _) (abs_sign_le _)
  have hgap := steps_gap (k := k) hD h
  calc |(pos c d D k - c) * (b - a) - (pos a b D k - a) * (d - c)|
      = |(b - a).sign * (d - c).sign| *
          |(steps (d - c).natAbs D k * D - (k - 1 : ℕ) * (d - c).natAbs : ℤ)| := by
        rw [hcross, abs_mul]
    _ ≤ 1 * |(steps (d - c).natAbs D k * D - (k - 1 : ℕ) * (d - c).natAbs : ℤ)| :=
        mul_le_mul_of_nonneg_right hsign (abs_nonneg _)
    _ < D := by rwa [one_mul]

/-- **The other axis is less than a pixel off the slope.** -/
theorem pos_slope (hD : 0 < D) (hfull : (b - a).natAbs = D) (h : (d - c).natAbs ≤ D) (k : ℕ) :
    |(pos c d D k : ℚ) - (c + (pos a b D k - a) * (d - c) / (b - a))| < 1 := by
  have hcross := pos_cross hD hfull h k
  have hne : (b : ℚ) - a ≠ 0 := by
    rw [sub_ne_zero, ne_eq, Int.cast_inj]
    omega
  have habs : |(b : ℚ) - a| = D := by
    rw [← hfull, ← Int.cast_sub, Nat.cast_natAbs, Int.cast_abs]
  have hquot : (pos c d D k : ℚ) - (c + (pos a b D k - a) * (d - c) / (b - a)) =
      ((pos c d D k - c) * (b - a) - (pos a b D k - a) * (d - c)) / (b - a) := by
    field_simp
    ring
  rw [hquot, abs_div, habs, div_lt_one (by exact_mod_cast hD)]
  exact_mod_cast hcross

end Dda

end LowPower
