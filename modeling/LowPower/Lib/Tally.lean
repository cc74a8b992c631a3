import Mathlib.Data.List.Infix
import Mathlib.Data.Nat.Basic

/-!
# Counting requests in a bounded counter

Requests and releases are counted twice: by an unbounded count and by a counter that stops at
`cap`. Both stop at zero. While every request finds the count below `cap` the two agree
(`foldl_sat_eq_count`), and this is the exact condition for agreeing about zero now and after any
further releases (`fits_iff`).
-/

namespace LowPower

/-- What is done to a count. -/
inductive Tally where
  | request
  | release
  | releaseAll
deriving DecidableEq, Repr

namespace Tally

variable {cap n : ℕ} {a : Tally} {as : List Tally}

def count : ℕ → Tally → ℕ
  | n, request => n + 1
  | n, release => n - 1
  | _, releaseAll => 0

def sat (cap : ℕ) : ℕ → Tally → ℕ
  | n, request => if n < cap then n + 1 else n
  | n, release => n - 1
  | _, releaseAll => 0

/-- Every request finds the count below the bound. -/
def Fits (cap : ℕ) : ℕ → List Tally → Prop
  | _, [] => True
  | n, a :: as => (a = request → n < cap) ∧ Fits cap (count n a) as

theorem sat_eq_count (h : a = request → n < cap) : sat cap n a = count n a := by
  cases a with
  | request => exact if_pos (h rfl)
  | release => rfl
  | releaseAll => rfl

theorem count_le (hn : n ≤ cap) (h : a = request → n < cap) : count n a ≤ cap := by
  cases a with
  | request => exact h rfl
  | release => exact (Nat.sub_le n 1).trans hn
  | releaseAll => exact Nat.zero_le cap

/-- **While the requests fit, the bounded counter counts exactly.** -/
theorem foldl_sat_eq_count (h : Fits cap n as) : as.foldl (sat cap) n = as.foldl count n := by
  induction as generalizing n with
  | nil => rfl
  | cons a as ih =>
    obtain ⟨ha, has⟩ := h
    rw [List.foldl_cons, List.foldl_cons, sat_eq_count ha]
    exact ih has

theorem fits_append {bs : List Tally} :
    Fits cap n (as ++ bs) ↔ Fits cap n as ∧ Fits cap (as.foldl count n) bs := by
  induction as generalizing n with
  | nil => simp [Fits]
  | cons a as ih =>
    rw [List.cons_append, Fits, Fits, ih, List.foldl_cons, and_assoc]

theorem fits_releases (cap n j : ℕ) : Fits cap n (List.replicate j release) := by
  induction j generalizing n with
  | zero => trivial
  | succ j ih =>
    rw [List.replicate_succ]
    exact ⟨fun hr => Tally.noConfusion hr, ih (count n release)⟩

theorem foldl_releases (n j : ℕ) (f : ℕ → Tally → ℕ) (hf : ∀ n, f n release = n - 1) :
    (List.replicate j release).foldl f n = n - j := by
  induction j generalizing n with
  | zero => rfl
  | succ j ih =>
    rw [List.replicate_succ, List.foldl_cons, hf, ih]
    omega

/-- **The bound is never passed exactly when the two agree about zero**, after every prefix and
whatever is released afterwards. -/
theorem fits_iff (hn : n ≤ cap) :
    Fits cap n as ↔ ∀ p, p <+: as → ∀ j,
      (((p ++ List.replicate j release).foldl (sat cap) n = 0) ↔
        (p ++ List.replicate j release).foldl count n = 0) := by
  constructor
  · rintro h p ⟨s, rfl⟩ j
    have hp : Fits cap n (p ++ List.replicate j release) :=
      fits_append.2 ⟨(fits_append.1 h).1, fits_releases cap _ j⟩
    rw [foldl_sat_eq_count hp]
  · intro h
    induction as generalizing n with
    | nil => trivial
    | cons a as ih =>
      have ha : a = request → n < cap := by
        rintro rfl
        by_contra hfull
        -- the lost request shows after `cap` releases
        have hone := h [request] ⟨as, rfl⟩ cap
        have hsat : sat cap n request = n := if_neg hfull
        have hcount : count n request = n + 1 := rfl
        rw [List.singleton_append, List.foldl_cons, List.foldl_cons, hsat, hcount,
          foldl_releases _ _ _ fun _ => rfl, foldl_releases _ _ _ fun _ => rfl] at hone
        omega
      refine ⟨ha, ih (count_le hn ha) ?_⟩
      rintro p hp j
      have hcons := h (a :: p) (List.cons_prefix_cons.2 ⟨rfl, hp⟩) j
      rw [List.cons_append, List.foldl_cons, List.foldl_cons, sat_eq_count ha] at hcons
      exact hcons

end Tally

end LowPower
