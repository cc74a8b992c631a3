import Mathlib.Data.Nat.Init

/-!
# A counter with auto-reload and compare match

A counter runs 0, 1, …, `period` and starts again at 0; a match is raised when it reaches
`compare`.

* `value_eq_mod`: the counter after `n` counts.
* `matched_iff`: a match has been raised `n` counts after the start exactly when the compare value
  lies within the period and at most `n` counts from the start. So how the two registers are
  loaded decides whether a match comes late, early or never.
-/

namespace LowPower

namespace Counter

variable {period compare n : ℕ}

/-- The value after `n`. -/
def next (period n : ℕ) : ℕ := if n = period then 0 else n + 1

/-- The counter `n` counts after it started at 0. -/
def value (period : ℕ) : ℕ → ℕ
  | 0 => 0
  | n + 1 => next period (value period n)

/-- Whether a count has reached `compare`, `n` counts after the start. -/
def matched (period compare : ℕ) : ℕ → Bool
  | 0 => false
  | n + 1 => matched period compare n || value period (n + 1) == compare

theorem value_eq_mod (period n : ℕ) : value period n = n % (period + 1) := by
  induction n with
  | zero => exact (Nat.zero_mod _).symm
  | succ n ih =>
    have hlt : n % (period + 1) < period + 1 := Nat.mod_lt n (Nat.succ_pos period)
    rw [value, ih, next, ← Nat.mod_add_mod]
    by_cases hend : n % (period + 1) = period
    · rw [if_pos hend, hend, Nat.mod_self]
    · have hstep : n % (period + 1) + 1 < period + 1 := by omega
      rw [if_neg hend, Nat.mod_eq_of_lt hstep]

theorem value_le (period n : ℕ) : value period n ≤ period := by
  rw [value_eq_mod]
  exact Nat.lt_succ_iff.1 (Nat.mod_lt n (Nat.succ_pos period))

/-- Up to its period the counter tells the number of counts. -/
theorem value_eq_self (h : n ≤ period) : value period n = n := by
  rw [value_eq_mod, Nat.mod_eq_of_lt (by omega)]

/-- **When a match is raised.** -/
theorem matched_iff (hc : 0 < compare) :
    matched period compare n = true ↔ compare ≤ period ∧ compare ≤ n := by
  induction n with
  | zero => simp [matched]; omega
  | succ n ih =>
    rw [matched, Bool.or_eq_true, ih, beq_iff_eq]
    have hle := value_le period (n + 1)
    constructor
    · rintro (⟨hp, hn⟩ | hv)
      · exact ⟨hp, by omega⟩
      · have hmod := value_eq_mod period (n + 1)
        have := Nat.mod_le (n + 1) (period + 1)
        exact ⟨by omega, by omega⟩
    · rintro ⟨hp, hn⟩
      rcases Nat.eq_or_lt_of_le hn with heq | hlt
      · exact .inr (by rw [← heq, value_eq_self hp])
      · exact .inl ⟨hp, by omega⟩

end Counter

end LowPower
