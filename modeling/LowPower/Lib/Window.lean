import Mathlib.Data.Nat.Basic
import Mathlib.Data.Set.Basic

/-!
# Windows on a free-running counter

A counter modulo `W` is read when a window is opened; the deadline `start + len` is stored
modulo `W` and later compared with the reading. The comparison tells whether the window is
open exactly when its deadline and the present lie on the same side of the wrap
(`Window.compare_iff`); otherwise it tells the opposite (`Window.compare_iff_not`). Among several
windows on one counter a wrong answer survives unless another window is rightly open
(`Window.any_compare_iff`).

Where the reading at the opening is kept and subtracted instead, the age comes out exactly until
the counter has gone all the way round (`Window.elapsed_eq`).
-/

namespace LowPower

/-- A window: the reading at which it was opened, its length, and the ticks since. -/
structure Window where
  start : ℕ
  len : ℕ
  age : ℕ

namespace Window

variable {W now : ℕ} {v : Window}

def Open (v : Window) : Prop := v.age < v.len

/-- The deadline and the present have both passed the wrap of the counter, or neither has. -/
def SameSide (W : ℕ) (v : Window) : Prop := v.start + v.len < W ↔ v.start + v.age < W

/-- The counter reads `now`, and the window is short and young. -/
structure Reads (W now : ℕ) (v : Window) : Prop where
  start_lt : v.start < W
  len_lt : 2 * v.len < W
  age_lt : 2 * v.age < W
  now_eq : (v.start + v.age) % W = now

/-- A reading less than two turns ahead. -/
theorem mod_cases {a b : ℕ} (ha : a < W) (hb : b < W) :
    (a + b < W ∧ (a + b) % W = a + b) ∨ (W ≤ a + b ∧ (a + b) % W = a + b - W) := by
  rcases Nat.lt_or_ge (a + b) W with h | h
  · exact .inl ⟨h, Nat.mod_eq_of_lt h⟩
  · refine .inr ⟨h, ?_⟩
    rw [Nat.mod_eq_sub_mod h]
    exact Nat.mod_eq_of_lt (by omega)

/-- **On one side of the wrap the comparison is exact.** -/
theorem compare_iff (h : Reads W now v) (hs : v.SameSide W) :
    now < (v.start + v.len) % W ↔ v.Open := by
  obtain ⟨h1, h2, h3, rfl⟩ := h
  unfold SameSide at hs
  unfold Open
  rcases mod_cases (a := v.start) (b := v.age) h1 (by omega) with ⟨ha, he⟩ | ⟨ha, he⟩ <;>
    rcases mod_cases (a := v.start) (b := v.len) h1 (by omega) with ⟨hb, he'⟩ | ⟨hb, he'⟩ <;>
      rw [he, he'] <;> omega

/-- **Across the wrap the comparison is wrong.** -/
theorem compare_iff_not (h : Reads W now v) (hs : ¬ v.SameSide W) :
    now < (v.start + v.len) % W ↔ ¬ v.Open := by
  obtain ⟨h1, h2, h3, rfl⟩ := h
  unfold SameSide at hs
  unfold Open
  rcases mod_cases (a := v.start) (b := v.age) h1 (by omega) with ⟨ha, he⟩ | ⟨ha, he⟩ <;>
    rcases mod_cases (a := v.start) (b := v.len) h1 (by omega) with ⟨hb, he'⟩ | ⟨hb, he'⟩ <;>
      rw [he, he'] <;> omega

theorem compare_exact_iff (h : Reads W now v) :
    (now < (v.start + v.len) % W ↔ v.Open) ↔ v.SameSide W := by
  by_cases hs : v.SameSide W
  · exact iff_of_true (compare_iff h hs) hs
  · refine iff_of_false (fun he => ?_) hs
    have hn := compare_iff_not h hs
    by_cases ho : v.Open
    · exact hn.1 (he.2 ho) ho
    · exact ho (he.1 (hn.2 ho))

/-- Two windows on one counter do not straddle the wrap in opposite ways. -/
theorem open_iff_of_not_sameSide {u : Window} (hu : Reads W now u) (hv : Reads W now v)
    (hus : ¬ u.SameSide W) (hvs : ¬ v.SameSide W) : u.Open ↔ v.Open := by
  obtain ⟨hu1, hu2, hu3, hu4⟩ := hu
  obtain ⟨hv1, hv2, hv3, hv4⟩ := hv
  unfold SameSide at hus hvs
  unfold Open
  rcases mod_cases (a := u.start) (b := u.age) hu1 (by omega) with ⟨ha, he⟩ | ⟨ha, he⟩ <;>
    rcases mod_cases (a := v.start) (b := v.age) hv1 (by omega) with ⟨hb, he'⟩ | ⟨hb, he'⟩ <;>
      rw [he] at hu4 <;> rw [he'] at hv4 <;> omega

/-- **Subtraction tells the age**, on either side of the wrap. -/
theorem elapsed_eq (hs : v.start < W) (ha : v.age < W) (hnow : (v.start + v.age) % W = now) :
    (W - v.start + now) % W = v.age := by
  rw [← hnow, Nat.add_mod_mod, ← Nat.add_assoc, Nat.sub_add_cancel hs.le, Nat.add_mod_left,
    Nat.mod_eq_of_lt ha]

/-- **Several windows on one counter.** "Some deadline lies ahead" means "some window is open"
exactly when a window on one side of the wrap is open, or all are on one side. -/
theorem any_compare_iff {S : Set Window} (hS : ∀ v ∈ S, Reads W now v) :
    ((∃ v ∈ S, now < (v.start + v.len) % W) ↔ ∃ v ∈ S, v.Open) ↔
      (∃ v ∈ S, v.SameSide W ∧ v.Open) ∨ ∀ v ∈ S, v.SameSide W := by
  constructor
  · intro he
    by_contra hc
    rw [not_or] at hc
    obtain ⟨hgood, hall⟩ := hc
    push Not at hall
    obtain ⟨u, hu, hus⟩ := hall
    -- a window across the wrap has no rightly open witness on the other side of the equivalence
    have hother : ∀ v ∈ S, v.Open → ¬ v.SameSide W := fun v hv ho hs => hgood ⟨v, hv, hs, ho⟩
    by_cases ho : u.Open
    · obtain ⟨v, hv, hlt⟩ := he.2 ⟨u, hu, ho⟩
      by_cases hvs : v.SameSide W
      · exact hother v hv ((compare_iff (hS v hv) hvs).1 hlt) hvs
      · have hvo := (open_iff_of_not_sameSide (hS u hu) (hS v hv) hus hvs).1 ho
        exact (compare_iff_not (hS v hv) hvs).1 hlt hvo
    · obtain ⟨v, hv, hvo⟩ := he.1 ⟨u, hu, (compare_iff_not (hS u hu) hus).2 ho⟩
      have hvs := hother v hv hvo
      exact ho ((open_iff_of_not_sameSide (hS u hu) (hS v hv) hus hvs).2 hvo)
  · rintro (⟨v, hv, hs, ho⟩ | hall)
    · exact iff_of_true ⟨v, hv, (compare_iff (hS v hv) hs).2 ho⟩ ⟨v, hv, ho⟩
    · constructor
      · rintro ⟨v, hv, hlt⟩
        exact ⟨v, hv, (compare_iff (hS v hv) (hall v hv)).1 hlt⟩
      · rintro ⟨v, hv, ho⟩
        exact ⟨v, hv, (compare_iff (hS v hv) (hall v hv)).2 ho⟩

end Window

end LowPower
