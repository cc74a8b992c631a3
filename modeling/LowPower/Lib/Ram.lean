import Mathlib.Algebra.Group.Nat.Defs
import Mathlib.Algebra.Order.Ring.Nat
import Mathlib.Logic.Function.Basic

/-!
# Numbers in a memory of bytes

A memory gives every address a byte. A number of `n` bytes lies with its lowest byte first (`load`,
`store`).

* `load_store`: what is loaded is what was stored, cut to its bytes.
* `store_of_out`: a store leaves the other bytes as they are.
* `load_congr`: a load reads its own bytes only.
-/

namespace LowPower

namespace Ram

abbrev Memory : Type := ℕ → BitVec 8

variable {m m' : Memory} {a b n v : ℕ}

/-- The number in the `n` bytes from an address on. -/
def load (m : Memory) : ℕ → ℕ → ℕ
  | _, 0 => 0
  | a, n + 1 => (m a).toNat + 256 * load m (a + 1) n

/-- The memory with a number in the `n` bytes from an address on. -/
def store (m : Memory) : ℕ → ℕ → ℕ → Memory
  | _, 0, _ => m
  | a, n + 1, v => store (Function.update m a (BitVec.ofNat 8 v)) (a + 1) n (v / 256)

theorem store_of_out (h : b < a ∨ a + n ≤ b) : store m a n v b = m b := by
  induction n generalizing m a v with
  | zero => rfl
  | succ n ih =>
    rw [store, ih (by omega), Function.update_of_ne (by omega)]

/-- **What is loaded is what was stored.** -/
theorem load_store : load (store m a n v) a n = v % 256 ^ n := by
  induction n generalizing m a v with
  | zero => rw [load, Nat.pow_zero, Nat.mod_one]
  | succ n ih =>
    have hlow : store m a (n + 1) v a = BitVec.ofNat 8 v := by
      rw [store, store_of_out (by omega), Function.update_self]
    have hpow : 256 ^ (n + 1) = 256 * 256 ^ n := Nat.pow_succ'
    rw [load, hlow, BitVec.toNat_ofNat, store, ih, hpow, Nat.mod_mul]

theorem load_congr (h : ∀ b, a ≤ b → b < a + n → m b = m' b) : load m a n = load m' a n := by
  induction n generalizing a with
  | zero => rfl
  | succ n ih =>
    have hlow : m a = m' a := h a (Nat.le_refl a) (by omega)
    have hhigh : load m (a + 1) n = load m' (a + 1) n :=
      ih fun b hab hb => h b (by omega) (by omega)
    rw [load, load, hlow, hhigh]

/-- A store beside the bytes of a load. -/
theorem load_store_of_out {k : ℕ} (h : b + k ≤ a ∨ a + n ≤ b) :
    load (store m a n v) b k = load m b k :=
  load_congr fun x hbx hx => store_of_out (by omega)

/-- The memory with the bytes from `s` on copied to those from `d` on. -/
def copy (m : Memory) (d s n : ℕ) : Memory := fun a => if d ≤ a ∧ a < d + n then m (s + (a - d)) else m a

/-- The memory with zeros in the bytes from `d` on. -/
def zero (m : Memory) (d n : ℕ) : Memory := fun a => if d ≤ a ∧ a < d + n then 0 else m a

end Ram

end LowPower
