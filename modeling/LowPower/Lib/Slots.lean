import LowPower.Lib.Index
import Mathlib.Algebra.BigOperators.Fin
import Mathlib.Algebra.Order.BigOperators.Group.Finset

/-!
# Slot arrays as bounded multisets

An array of slots with holes: an item is put into the first free slot and taken from the first slot
that holds it. Which slots are in use does not matter, only what is in them: the bag of a slot
array.

* `bag_set`: writing a slot trades what it held for what it holds.
* `bag_put`, `bag_take`: the two operations on the bag.
* `exists_free_iff`: there is a free slot exactly when the bag is smaller than the array.
-/

namespace LowPower

namespace Slots

variable {α : Type*} {n : ℕ}

/-- What a slot holds. -/
def cell : Option α → Multiset α
  | none => 0
  | some a => {a}

/-- What is in the slots, with multiplicity. -/
def bag (v : Vector (Option α) n) : Multiset α := ∑ i : Fin n, cell v[i]

/-- The first slot that holds `x`; `none` looks for a free one. -/
def find [DecidableEq α] (v : Vector (Option α) n) (x : Option α) : Option (Fin n) :=
  (List.finRange n).find? fun i => v[i] = x

theorem bag_replicate (n : ℕ) : bag (Vector.replicate n (none : Option α)) = 0 := by
  unfold bag
  refine Finset.sum_eq_zero fun i _ => ?_
  simp [cell]

/-- **Writing a slot.** -/
theorem bag_set (v : Vector (Option α) n) (i : Fin n) (x : Option α) :
    cell v[i] + bag (v.set i x i.isLt) = cell x + bag v := by
  have hself : cell (v.set i x i.isLt)[i] = cell x := by simp
  have hrest : ∑ j ∈ Finset.univ.erase i, cell (v.set i x i.isLt)[j] =
      ∑ j ∈ Finset.univ.erase i, cell v[j] := by
    refine Finset.sum_congr rfl fun j hj => ?_
    have hne : i.val ≠ j.val := fun h => Finset.ne_of_mem_erase hj (Fin.ext h.symm)
    rw [getElem_fin, getElem_fin, Vector.getElem_set_ne _ _ hne]
  unfold bag
  rw [← Finset.add_sum_erase _ _ (Finset.mem_univ i), hself, hrest,
    ← Finset.add_sum_erase _ (fun j => cell v[j]) (Finset.mem_univ i)]
  exact add_left_comm _ _ _

/-- An item put into a free slot. -/
theorem bag_put {v : Vector (Option α) n} {i : Fin n} (hfree : v[i] = none) (a : α) :
    bag (v.set i (some a) i.isLt) = a ::ₘ bag v := by
  have hset := bag_set v i (some a)
  rw [hfree] at hset
  simpa [cell] using hset

theorem mem_bag {v : Vector (Option α) n} {a : α} : a ∈ bag v ↔ ∃ i : Fin n, v[i] = some a := by
  have hcell : ∀ x : Option α, a ∈ cell x ↔ x = some a := by
    rintro (_ | b)
    · simp [cell]
    · simp [cell, eq_comm]
  unfold bag
  rw [Multiset.mem_sum]
  simp [hcell]

theorem card_bag (v : Vector (Option α) n) :
    (bag v).card = ∑ i : Fin n, (cell v[i]).card := by
  unfold bag
  exact map_sum Multiset.cardHom _ _

theorem card_cell_le (x : Option α) : (cell x).card ≤ 1 := by
  cases x <;> simp [cell]

/-- **A free slot** is there exactly when the bag is smaller than the array. -/
theorem exists_free_iff (v : Vector (Option α) n) :
    (∃ i : Fin n, v[i] = none) ↔ (bag v).card < n := by
  have hcard := card_bag v
  have hall : ∑ _i : Fin n, 1 = n := by simp
  constructor
  · rintro ⟨i, hi⟩
    have hzero : (cell v[i]).card < 1 := by
      rw [hi]
      exact Nat.zero_lt_one
    have hlt : ∑ j : Fin n, (cell v[j]).card < ∑ _j : Fin n, 1 :=
      Finset.sum_lt_sum (fun j _ => card_cell_le v[j]) ⟨i, Finset.mem_univ i, hzero⟩
    omega
  · intro hlt
    by_contra hno
    have hone : ∀ j ∈ (Finset.univ : Finset (Fin n)), 1 ≤ (cell v[j]).card := by
      intro j _
      cases hj : v[j] with
      | none => exact absurd ⟨j, hj⟩ hno
      | some a => exact le_rfl
    have hle : ∑ _j : Fin n, 1 ≤ ∑ j : Fin n, (cell v[j]).card := Finset.sum_le_sum hone
    omega

section Find

variable [DecidableEq α]

/-- An item taken out. -/
theorem bag_take {v : Vector (Option α) n} {i : Fin n} {a : α} (hin : v[i] = some a) :
    bag (v.set i none i.isLt) = (bag v).erase a := by
  have hset := bag_set v i none
  rw [hin] at hset
  have hcons : a ::ₘ bag (v.set i none i.isLt) = bag v := by simpa [cell] using hset
  rw [← hcons, Multiset.erase_cons_head]

theorem find_some {v : Vector (Option α) n} {x : Option α} {i : Fin n} (h : find v x = some i) :
    v[i] = x := by
  simpa using List.find?_some h

theorem find_isSome_iff (v : Vector (Option α) n) (x : Option α) :
    (find v x).isSome ↔ ∃ i : Fin n, v[i] = x := by
  unfold find
  rw [List.find?_isSome]
  simp

/-- How often an item is in the slots. -/
theorem count_bag (v : Vector (Option α) n) (a : α) :
    (bag v).count a = (List.finRange n).countP fun i => v[i] = some a := by
  have hcell : ∀ x : Option α, (cell x).count a = if x = some a then 1 else 0 := by
    rintro (_ | b)
    · simp [cell]
    · simp [cell, Multiset.count_singleton, eq_comm]
  have hcount : ∀ is : List (Fin n), (is.map fun i => (cell v[i]).count a).sum =
      is.countP fun i => v[i] = some a := by
    intro is
    induction is with
    | nil => rfl
    | cons i is ih =>
      rw [List.map_cons, List.sum_cons, ih, hcell, List.countP_cons, Nat.add_comm]
      simp
  unfold bag
  rw [Multiset.count_sum', Fin.sum_univ_def, hcount]

end Find

end Slots

end LowPower
