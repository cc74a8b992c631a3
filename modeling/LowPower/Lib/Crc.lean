import Mathlib.Data.List.Range
import Mathlib.Logic.Function.Iterate

/-!
# Cyclic redundancy checks

A shift register of `w` bits with the feedback of a polynomial, the highest bit first. When the
polynomial has its lowest bit set, a step loses nothing: the lowest bit of the new state tells the
feedback (`feed_low`). So the register separates two messages that differ in a burst of at most `w`
bits (`run_burst`). The form of most programs, which adds some bits at the top and shifts then, does
the same (`iterate_shift`); the bits of a message are those of its words (`bitsOf`).
-/

namespace LowPower

namespace Crc

variable {w : ℕ} {p s s' : BitVec w} {b b' : Bool}

/-- A shift without a new bit. -/
def shift (p s : BitVec w) : BitVec w := if s.msb then s <<< 1 ^^^ p else s <<< 1

/-- A shift with a new bit. -/
def feed (p s : BitVec w) (b : Bool) : BitVec w :=
  if s.msb ^^ b then s <<< 1 ^^^ p else s <<< 1

def run (p s : BitVec w) (bits : List Bool) : BitVec w := bits.foldl (feed p) s

theorem run_append (bits bits' : List Bool) : run p s (bits ++ bits') = run p (run p s bits) bits' :=
  List.foldl_append

/-- The lowest bits of two states are the same. -/
def Agree (k : ℕ) (s s' : BitVec w) : Prop := ∀ i < k, s.getLsbD i = s'.getLsbD i

theorem Agree.mono {k n : ℕ} (h : Agree n s s') (hk : k ≤ n) : Agree k s s' :=
  fun i hi => h i (Nat.lt_of_lt_of_le hi hk)

section Feed

variable (hp : p.getLsbD 0 = true)

include hp

/-- **The lowest bit** tells the feedback. -/
theorem feed_low (s : BitVec w) (b : Bool) : (feed p s b).getLsbD 0 = (s.msb ^^ b) := by
  have hzero : (s <<< 1).getLsbD 0 = false := by simp
  unfold feed
  cases hf : s.msb ^^ b
  · rw [if_neg Bool.false_ne_true, hzero]
  · rw [if_pos rfl, BitVec.getLsbD_xor, hzero, hp]
    rfl

/-- Before a step one bit less agrees, and the feedback was the same. -/
theorem Agree.before {k : ℕ} (hk : k + 1 ≤ w) (h : Agree (k + 1) (feed p s b) (feed p s' b')) :
    Agree k s s' ∧ (s.msb ^^ b) = (s'.msb ^^ b') := by
  have hback : (s.msb ^^ b) = (s'.msb ^^ b') := by
    rw [← feed_low hp, ← feed_low hp]
    exact h 0 (Nat.succ_pos k)
  refine ⟨fun i hi => ?_, hback⟩
  have hbit := h (i + 1) (by omega)
  have hshift : ∀ s : BitVec w, (s <<< 1).getLsbD (i + 1) = s.getLsbD i := by
    intro s
    rw [BitVec.getLsbD_shiftLeft, decide_eq_true (show i + 1 < w by omega)]
    simp
  unfold feed at hbit
  rw [← hback] at hbit
  split at hbit
  · rwa [BitVec.getLsbD_xor, BitVec.getLsbD_xor, hshift, hshift, Bool.xor_left_inj] at hbit
  · rwa [hshift, hshift] at hbit

/-- Before some steps, as many bits less agree. -/
theorem Agree.before_run {bits bits' : List Bool} (hlen : bits.length = bits'.length) {k : ℕ}
    (hk : k + bits.length ≤ w) (h : Agree (k + bits.length) (run p s bits) (run p s' bits')) :
    Agree k s s' := by
  induction bits generalizing bits' s s' k with
  | nil =>
    obtain rfl := List.eq_nil_of_length_eq_zero hlen.symm
    exact h
  | cons b bits ih =>
    cases bits' with
    | nil => cases hlen
    | cons b' bits' =>
      rw [List.length_cons] at hk h
      have hnext := ih (Nat.succ.inj hlen) (k := k + 1) (by omega)
        (h.mono (Nat.le_of_eq (by omega)))
      exact (hnext.before hp (by omega)).1

/-- **At most `w` bits are all in the register.** -/
theorem run_inj {bits bits' : List Bool} (hlen : bits.length = bits'.length)
    (hle : bits.length ≤ w) (h : run p s bits = run p s bits') : bits = bits' := by
  induction bits generalizing bits' s with
  | nil => exact (List.eq_nil_of_length_eq_zero hlen.symm).symm
  | cons b bits ih =>
    cases bits' with
    | nil => cases hlen
    | cons b' bits' =>
      rw [List.length_cons] at hle
      have hagree : Agree (1 + bits.length) (run p (feed p s b) bits)
          (run p (feed p s b') bits') := fun i _ => congrArg (BitVec.getLsbD · i) h
      have hone := hagree.before_run hp (Nat.succ.inj hlen) (by omega)
      have hback := (hone.before (k := 0) hp (by omega)).2
      obtain rfl : b = b' := Bool.xor_right_inj.mp hback
      rw [ih (Nat.succ.inj hlen) (by omega) h]

/-- A step separates different states. -/
theorem feed_inj (h : feed p s b = feed p s' b) : s = s' := by
  have hw : 0 < w := BitVec.lt_of_getLsbD hp
  obtain ⟨k, rfl⟩ : ∃ k, w = k + 1 := ⟨w - 1, by omega⟩
  have hagree : Agree (k + 1) (feed p s b) (feed p s' b) := fun i _ =>
    congrArg (BitVec.getLsbD · i) h
  obtain ⟨hlow, hback⟩ := hagree.before hp (Nat.le_refl _)
  have hmsb : s.msb = s'.msb := Bool.xor_left_inj.mp hback
  refine BitVec.eq_of_getLsbD_eq fun i hi => ?_
  rcases Nat.lt_or_ge i k with hik | hik
  · exact hlow i hik
  · obtain rfl : i = k := by omega
    rw [BitVec.msb_eq_getLsbD_last, BitVec.msb_eq_getLsbD_last] at hmsb
    exact hmsb

theorem run_state_inj {bits : List Bool} (h : run p s bits = run p s' bits) : s = s' := by
  induction bits generalizing s s' with
  | nil => exact h
  | cons b bits ih => exact feed_inj hp (ih h)

/-- **A burst of at most `w` bits is seen**, whatever comes before and behind it. -/
theorem run_burst {pre mid mid' post : List Bool} (hlen : mid.length = mid'.length)
    (hle : mid.length ≤ w) (h : run p s (pre ++ mid ++ post) = run p s (pre ++ mid' ++ post)) :
    mid = mid' := by
  rw [run_append, run_append, run_append, run_append] at h
  exact run_inj hp hlen hle (run_state_inj hp h)

end Feed

/-! ## Bits added at the top -/

theorem shift_xor (s v : BitVec w) : shift p (s ^^^ v) = feed p s v.msb ^^^ v <<< 1 := by
  unfold shift feed
  rw [BitVec.msb_xor, BitVec.shiftLeft_xor_distrib]
  split
  · rw [BitVec.xor_assoc, BitVec.xor_comm (v <<< 1), BitVec.xor_assoc]
  · rfl

/-- **Shifts after some bits are added at the top** feed these bits. -/
theorem iterate_shift {n : ℕ} {v : BitVec w} (hv : ∀ i ≥ n, v.getMsbD i = false) (hn : n ≤ w)
    (s : BitVec w) : (shift p)^[n] (s ^^^ v) = run p s ((List.range n).map v.getMsbD) := by
  induction n generalizing s v with
  | zero =>
    have hzero : v = 0 := by
      refine BitVec.eq_of_getMsbD_eq fun i _ => ?_
      rw [hv i (Nat.zero_le i), BitVec.ofNat_eq_ofNat, BitVec.getMsbD_zero]
    rw [hzero]
    exact BitVec.xor_zero
  | succ n ih =>
    have hnext : ∀ i, (v <<< 1).getMsbD i = v.getMsbD (i + 1) := fun i =>
      BitVec.getMsbD_shiftLeft v 1
    have hrest := ih (v := v <<< 1) (fun i hi => by rw [hnext, hv (i + 1) (by omega)]) (by omega)
      (feed p s v.msb)
    rw [Function.iterate_succ_apply, shift_xor, hrest, List.range_succ_eq_map, List.map_cons,
      List.map_map]
    rw [List.map_congr_left fun i _ => hnext i]
    rfl

/-! ## Words as bits -/

section Words

variable {n : ℕ} {xs ys : List (BitVec n)}

/-- The bits of some words, the highest one of each word first. -/
def bitsOf (xs : List (BitVec n)) : List Bool := xs.flatMap fun x => (List.range n).map x.getMsbD

theorem bitsOf_cons (x : BitVec n) (xs : List (BitVec n)) :
    bitsOf (x :: xs) = (List.range n).map x.getMsbD ++ bitsOf xs := List.flatMap_cons

theorem bitsOf_append (xs ys : List (BitVec n)) : bitsOf (xs ++ ys) = bitsOf xs ++ bitsOf ys :=
  List.flatMap_append

theorem length_bitsOf (xs : List (BitVec n)) : (bitsOf xs).length = n * xs.length := by
  induction xs with
  | nil => rfl
  | cons x xs ih =>
    rw [bitsOf_cons, List.length_append, List.length_map, List.length_range, ih, List.length_cons,
      Nat.mul_succ, Nat.add_comm]

theorem bitsOf_take (k : ℕ) (xs : List (BitVec n)) :
    bitsOf (xs.take k) = (bitsOf xs).take (n * k) := by
  rcases Nat.le_total k xs.length with hk | hk
  · have hlen : (bitsOf (xs.take k)).length = n * k := by
      rw [length_bitsOf, List.length_take_of_le hk]
    conv_rhs => rw [← List.take_append_drop k xs, bitsOf_append]
    exact (List.take_left' hlen).symm
  · have hle : (bitsOf xs).length ≤ n * k := by
      rw [length_bitsOf]
      exact Nat.mul_le_mul_left n hk
    rw [List.take_of_length_le hk, List.take_of_length_le hle]

theorem bitsOf_drop (k : ℕ) (xs : List (BitVec n)) :
    bitsOf (xs.drop k) = (bitsOf xs).drop (n * k) := by
  rcases Nat.le_total k xs.length with hk | hk
  · have hlen : (bitsOf (xs.take k)).length = n * k := by
      rw [length_bitsOf, List.length_take_of_le hk]
    conv_rhs => rw [← List.take_append_drop k xs, bitsOf_append]
    exact (List.drop_left' hlen).symm
  · have hle : (bitsOf xs).length ≤ n * k := by
      rw [length_bitsOf]
      exact Nat.mul_le_mul_left n hk
    rw [List.drop_eq_nil_of_le hk, List.drop_eq_nil_of_le hle]
    rfl

theorem bitsOf_inj (hn : 0 < n) (h : bitsOf xs = bitsOf ys) : xs = ys := by
  induction xs generalizing ys with
  | nil =>
    have hlen := congrArg List.length h
    rw [length_bitsOf, length_bitsOf, List.length_nil, Nat.mul_zero] at hlen
    have hzero := (Nat.mul_eq_zero.mp hlen.symm).resolve_left (Nat.ne_of_gt hn)
    exact (List.eq_nil_of_length_eq_zero hzero).symm
  | cons x xs ih =>
    cases ys with
    | nil =>
      have hlen := congrArg List.length h
      rw [length_bitsOf, length_bitsOf, List.length_nil, Nat.mul_zero] at hlen
      cases (Nat.mul_eq_zero.mp hlen).resolve_left (Nat.ne_of_gt hn)
    | cons y ys =>
      rw [bitsOf_cons, bitsOf_cons] at h
      obtain ⟨hword, hrest⟩ := List.append_inj h (by simp)
      have hxy : x = y := BitVec.eq_of_getMsbD_eq fun i hi =>
        List.map_inj_left.mp hword i (List.mem_range.mpr hi)
      rw [hxy, ih hrest]

end Words

end Crc

end LowPower
