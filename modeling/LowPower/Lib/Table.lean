import Mathlib.Data.List.GetD

/-!
# An ordered list in a larger array

The first `n` entries of an array are a list. An entry is removed in place: the entries behind it
move down by one, from the left, each read before it is overwritten (`shiftDown`).
-/

namespace LowPower.Table

variable {α : Type*}

/-- `for (; n > 0; n--, index++) t[index] = t[index + 1];`, with `null` read behind the end. -/
def shiftDown (null : α) : ℕ → ℕ → List α → List α
  | 0, _, t => t
  | n + 1, index, t => shiftDown null n (index + 1) (t.set index (t.getD (index + 1) null))

variable (null : α)

@[simp] theorem length_shiftDown (n index : ℕ) (t : List α) :
    (shiftDown null n index t).length = t.length := by
  induction n generalizing index t with
  | zero => rfl
  | succ n ih =>
    unfold shiftDown
    rw [ih, List.length_set]

/-- Each place of the array after the loop: the loop reads ahead of what it writes. -/
theorem getElem?_shiftDown (n index : ℕ) (t : List α) (h : index + n < t.length) (i : ℕ) :
    (shiftDown null n index t)[i]? =
      if index ≤ i ∧ i < index + n then t[i + 1]? else t[i]? := by
  induction n generalizing index t with
  | zero =>
    have hnot : ¬(index ≤ i ∧ i < index + 0) := by omega
    rw [shiftDown, if_neg hnot]
  | succ n ih =>
    have hnext : index + 1 < t.length := by omega
    have hread : t.getD (index + 1) null = t[index + 1] := List.getD_eq_getElem t null hnext
    have hset : index + 1 + n < (t.set index (t.getD (index + 1) null)).length := by
      rw [List.length_set]
      omega
    rw [shiftDown, ih _ _ hset, hread]
    by_cases hi : i = index
    · subst hi
      have hnot : ¬(i + 1 ≤ i ∧ i < i + 1 + n) := by omega
      have hin : i ≤ i ∧ i < i + (n + 1) := by omega
      have hlt : i < t.length := by omega
      rw [if_neg hnot, if_pos hin, List.getElem?_set_self hlt, List.getElem?_eq_getElem hnext]
    · have hne : index ≠ i := fun h => hi h.symm
      have hne' : index + 1 ≤ i → index ≠ i + 1 := by omega
      by_cases hin : index + 1 ≤ i ∧ i < index + 1 + n
      · have hin' : index ≤ i ∧ i < index + (n + 1) := by omega
        rw [if_pos hin, if_pos hin', List.getElem?_set_ne (hne' hin.1)]
      · have hin' : ¬(index ≤ i ∧ i < index + (n + 1)) := by omega
        rw [if_neg hin, if_neg hin', List.getElem?_set_ne hne]

/-- **The loop removes one entry of the list.** What the last place is overwritten with does not
matter. -/
theorem take_shiftDown {n index : ℕ} {t : List α} (hi : index < n) (hn : n ≤ t.length) (x : α) :
    ((shiftDown null (n - 1 - index) index t).set (n - 1) x).take (n - 1) =
      (t.take n).eraseIdx index := by
  have hbound : index + (n - 1 - index) < t.length := by omega
  apply List.ext_getElem?
  intro i
  rw [List.getElem?_take, List.getElem?_eraseIdx, List.getElem?_take, List.getElem?_take]
  by_cases hlast : i < n - 1
  · have hne : n - 1 ≠ i := by omega
    have hlt : i < n := by omega
    have hlt' : i + 1 < n := by omega
    rw [if_pos hlast, if_pos hlt, if_pos hlt', List.getElem?_set_ne hne,
      getElem?_shiftDown null _ _ _ hbound]
    by_cases hlow : i < index
    · have hnot : ¬(index ≤ i ∧ i < index + (n - 1 - index)) := by omega
      rw [if_neg hnot, if_pos hlow]
    · have hin : index ≤ i ∧ i < index + (n - 1 - index) := by omega
      rw [if_pos hin, if_neg hlow]
  · have hlow : ¬i < index := by omega
    have hover : ¬i + 1 < n := by omega
    rw [if_neg hlast, if_neg hlow, if_neg hover]

end LowPower.Table
