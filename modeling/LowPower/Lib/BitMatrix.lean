import LowPower.Lib.Index
import Mathlib.Data.Nat.Init
import Mathlib.Data.Fin.Basic

/-!
# Bit matrices packed into machine words

`BitMatrix w R n` is a table of `R` rows of `n` bits, each row packed into
`⌈n / w⌉` words of `w` bits. Bit `k` of a row is bit `k % w` of word `k / w`. The
structure carries the fact that the unused high bits of the last word are clear, so a
row has a nonzero word exactly when one of its `n` bits is set (`rowSet_iff`).

* `setBit`, `clearBit`: the read-modify-write of one word.
* `test_setBit`, `test_clearBit`: they change the addressed bit and no other.
* `ext_test`: the bits determine the table.
* `firstRow`: the scan for the first row with a nonzero word (`firstRow_eq_some`,
  `firstRow_eq_none`).
-/

namespace LowPower

/-- Number of `w`-bit words that hold `n` bits. -/
abbrev wordCount (w n : ℕ) : ℕ := (n + (w - 1)) / w

theorem div_lt_wordCount {w n k : ℕ} (hw : 0 < w) (hk : k < n) : k / w < wordCount w n := by
  rw [Nat.div_lt_iff_lt_mul hw, Nat.mul_comm]
  have h : n + (w - 1) < w * wordCount w n + w := Nat.lt_mul_div_succ (n + (w - 1)) hw
  omega

/-- `R` rows of `n` bits, packed into words of `w` bits, with nothing set past bit `n`. -/
structure BitMatrix (w R n : ℕ) where
  words : Vector (Vector (BitVec w) (wordCount w n)) R
  pad : ∀ (r : ℕ) (hr : r < R) (i : ℕ) (hi : i < wordCount w n) (b : ℕ), b < w → n ≤ i * w + b →
    (words[r][i]).getLsbD b = false
deriving DecidableEq

namespace BitMatrix

variable {w R n : ℕ}

/-- Bit `k` of row `r`; indices outside the table read as clear. -/
def test (m : BitMatrix w R n) (r k : ℕ) : Bool :=
  if hr : r < R then
    if hk : k / w < wordCount w n then (m.words[r][k / w]).getLsbD (k % w) else false
  else false

/-- The table with every bit clear. -/
def zero : BitMatrix w R n :=
  ⟨Vector.replicate R (Vector.replicate (wordCount w n) 0#w), by intros; simp⟩

/-- Rewrite the word that holds bit `k` of row `r`. -/
def updWord [NeZero w] (m : BitMatrix w R n) (r : Fin R) (k : Fin n) (f : BitVec w → BitVec w)
    (hf : ∀ x b, b ≠ k.val % w → x.getLsbD b = false → (f x).getLsbD b = false) :
    BitMatrix w R n where
  words :=
    have hk : k.val / w < wordCount w n := div_lt_wordCount (Nat.pos_of_neZero w) k.isLt
    m.words.set r (m.words[r].set (k.val / w) (f m.words[r][k.val / w]))
  pad := by
    intro r' hr' i hi b hb hn
    have h0 := m.pad r' hr' i hi b hb hn
    rw [Vector.getElem_set]
    split
    · rename_i hr
      subst hr
      rw [Vector.getElem_set]
      split
      · rename_i hk
        subst hk
        refine hf _ _ ?_ h0
        -- a padding position is never the addressed one
        intro hbk
        have := Nat.div_add_mod' k.val w
        have := k.isLt
        omega
      · exact h0
    · exact h0

/-- `words[r][k / w] |= 1 << (k % w)`. -/
def setBit [NeZero w] (m : BitMatrix w R n) (r : Fin R) (k : Fin n) : BitMatrix w R n :=
  m.updWord r k (fun x => x ||| (1#w <<< (k.val % w))) (by
    intro x b hb hx
    simp only [BitVec.getLsbD_or, hx, BitVec.getLsbD_shiftLeft, BitVec.getLsbD_one]
    simp; omega)

/-- `words[r][k / w] &= ~(1 << (k % w))`. -/
def clearBit [NeZero w] (m : BitMatrix w R n) (r : Fin R) (k : Fin n) : BitMatrix w R n :=
  m.updWord r k (fun x => x &&& ~~~(1#w <<< (k.val % w))) (by
    intro x b hb hx
    simp [hx])

/-- Row `r` has a nonzero word: the scan `words[r][len] != 0x00` over every word. -/
def rowSet (m : BitMatrix w R n) (r : Fin R) : Bool := (m.words[r]).any (fun x => x != 0#w)

/-- The first row with a nonzero word. -/
def firstRow (m : BitMatrix w R n) : Option (Fin R) := (List.finRange R).find? m.rowSet

@[simp] theorem test_zero (r k : ℕ) : (zero : BitMatrix w R n).test r k = false := by
  simp [test, zero]

theorem test_of_row_le {m : BitMatrix w R n} {r : ℕ} (k : ℕ) (h : R ≤ r) : m.test r k = false := by
  unfold test; rw [dif_neg (by omega)]

/-- No bit past the last column is set. -/
theorem test_of_col_le [NeZero w] {m : BitMatrix w R n} (r : ℕ) {k : ℕ} (h : n ≤ k) :
    m.test r k = false := by
  unfold test
  split
  · rename_i hr
    split
    · rename_i hk
      have hdm := Nat.div_add_mod' k w
      exact m.pad r hr _ hk _ (Nat.mod_lt k (Nat.pos_of_neZero w)) (by omega)
    · rfl
  · rfl

theorem test_eq_word (m : BitMatrix w R n) {r k : ℕ} (hr : r < R) (hc : k / w < wordCount w n) :
    m.test r k = (m.words[r][k / w]).getLsbD (k % w) := by
  unfold test; rw [dif_pos hr, dif_pos hc]

theorem getElem_set_set {α : Type*} {c R : ℕ} (v : Vector (Vector α c) R) {r i : ℕ} (hr : r < R)
    (hi : i < c) (x : α) {r' i' : ℕ} (hr' : r' < R) (hi' : i' < c) :
    (v.set r (v[r].set i x))[r'][i'] = if r' = r ∧ i' = i then x else v[r'][i'] := by
  by_cases h : r' = r
  · subst h
    simp only [Vector.getElem_set_self, Vector.getElem_set, true_and]
    split <;> simp_all [eq_comm]
  · simp [h, Ne.symm h]

/-- A rewrite of one word that only moves one bit moves that bit of the table. -/
theorem test_updWord [NeZero w] (m : BitMatrix w R n) (r : Fin R) (k : Fin n)
    (f : BitVec w → BitVec w)
    (hf : ∀ x b, b ≠ k.val % w → x.getLsbD b = false → (f x).getLsbD b = false)
    (v : Bool) (hv : ∀ x, (f x).getLsbD (k.val % w) = v)
    (hne : ∀ x b, b < w → b ≠ k.val % w → (f x).getLsbD b = x.getLsbD b) (r' k' : ℕ) :
    (m.updWord r k f hf).test r' k' = if r' = r ∧ k' = k then v else m.test r' k' := by
  have hw := Nat.pos_of_neZero w
  have hc := div_lt_wordCount hw k.isLt
  unfold test
  split
  · rename_i hr
    split
    · rename_i hk
      have hw' : (m.updWord r k f hf).words[r'][k' / w] =
          if r' = r ∧ k' / w = k.val / w then f (m.words[r.val][k.val / w])
          else m.words[r'][k' / w] :=
        getElem_set_set m.words r.isLt hc _ hr hk
      rw [hw']
      by_cases hrk : r' = r ∧ k' / w = k.val / w
      · rw [if_pos hrk]
        obtain ⟨rfl, hq⟩ := hrk
        by_cases hb : k' % w = k.val % w
        · have he : k' = k.val := by
            rw [← Nat.div_add_mod' k' w, ← Nat.div_add_mod' k.val w, hb, hq]
          subst he
          simp [hv]
        · have he : k' ≠ k.val := by rintro rfl; exact hb rfl
          rw [hne _ _ (Nat.mod_lt _ hw) hb]
          simp [he, hq]
      · rw [if_neg hrk]
        have he : ¬(r' = r ∧ k' = k.val) := by rintro ⟨rfl, rfl⟩; exact hrk ⟨rfl, rfl⟩
        rw [if_neg he]
    · rename_i hk
      have he : k' ≠ k.val := by rintro rfl; exact hk hc
      simp [he]
  · rename_i hr
    have he : r' ≠ r.val := by rintro rfl; exact hr r.isLt
    simp [he]

/-- **Setting a bit** sets the addressed bit and leaves every other bit alone. -/
theorem test_setBit [NeZero w] (m : BitMatrix w R n) (r : Fin R) (k : Fin n) (r' k' : ℕ) :
    (m.setBit r k).test r' k' = if r' = r ∧ k' = k then true else m.test r' k' := by
  have hw := Nat.pos_of_neZero w
  unfold setBit
  apply test_updWord
  · intro x; simp [Nat.mod_lt _ hw]
  · intro x b hb hne
    simp only [BitVec.getLsbD_or, BitVec.getLsbD_shiftLeft, BitVec.getLsbD_one]
    rcases Nat.lt_or_ge b (k.val % w) with h | h
    · simp [h]
    · have : b - k.val % w ≠ 0 := by omega
      simp [this]

/-- **Clearing a bit** clears the addressed bit and leaves every other bit alone. -/
theorem test_clearBit [NeZero w] (m : BitMatrix w R n) (r : Fin R) (k : Fin n) (r' k' : ℕ) :
    (m.clearBit r k).test r' k' = if r' = r ∧ k' = k then false else m.test r' k' := by
  have hw := Nat.pos_of_neZero w
  unfold clearBit
  apply test_updWord
  · intro x; simp [Nat.mod_lt _ hw]
  · intro x b hb hne
    simp only [BitVec.getLsbD_and, BitVec.getLsbD_not, BitVec.getLsbD_shiftLeft, BitVec.getLsbD_one]
    rcases Nat.lt_or_ge b (k.val % w) with h | h
    · simp [h, hb]
    · have : b - k.val % w ≠ 0 := by omega
      simp [this, hb]

/-- A table is determined by its bits. -/
theorem ext_test [NeZero w] {m m' : BitMatrix w R n} (h : ∀ r k, m.test r k = m'.test r k) :
    m = m' := by
  have hw := Nat.pos_of_neZero w
  have hwords : m.words = m'.words := by
    refine Vector.ext fun r hr => Vector.ext fun i hi => BitVec.eq_of_getLsbD_eq fun b hb => ?_
    have hd : (i * w + b) / w = i := by
      rw [Nat.mul_comm, Nat.mul_add_div hw, Nat.div_eq_of_lt hb, Nat.add_zero]
    have hm : (i * w + b) % w = b := by
      rw [Nat.mul_comm, Nat.mul_add_mod, Nat.mod_eq_of_lt hb]
    have hbit := h r (i * w + b)
    rw [test_eq_word m hr (hd.symm ▸ hi), test_eq_word m' hr (hd.symm ▸ hi)] at hbit
    simpa only [hd, hm] using hbit
  cases m
  cases m'
  obtain rfl := hwords
  rfl

/-- **A row scan sees a vote exactly when some bit of the row is set.** -/
theorem rowSet_iff [NeZero w] (m : BitMatrix w R n) (r : Fin R) :
    m.rowSet r = true ↔ ∃ k < n, m.test r k = true := by
  have hw := Nat.pos_of_neZero w
  unfold rowSet
  rw [Vector.any_eq_true]
  constructor
  · rintro ⟨i, hi, hx⟩
    simp only [bne_iff_ne, ne_eq] at hx
    -- a nonzero word has a set bit, which is not padding
    obtain ⟨b, hb, hbit⟩ : ∃ b, b < w ∧ (m.words[r.val][i]).getLsbD b = true := by
      by_contra hno
      push Not at hno
      apply hx
      apply BitVec.eq_of_getLsbD_eq
      intro b hb
      simpa using hno b hb
    have hlt : i * w + b < n := by
      by_contra hge
      have := m.pad r r.isLt i hi b hb (by omega)
      rw [hbit] at this
      exact Bool.noConfusion this
    refine ⟨i * w + b, hlt, ?_⟩
    have hd : (i * w + b) / w = i := by
      rw [Nat.mul_comm, Nat.mul_add_div hw, Nat.div_eq_of_lt hb, Nat.add_zero]
    have hm : (i * w + b) % w = b := by
      rw [Nat.mul_comm, Nat.mul_add_mod, Nat.mod_eq_of_lt hb]
    unfold test
    rw [dif_pos r.isLt, dif_pos (by rw [hd]; exact hi)]
    simp only [hd, hm]
    exact hbit
  · rintro ⟨k, hk, ht⟩
    have hc := div_lt_wordCount hw hk
    refine ⟨k / w, hc, ?_⟩
    rw [test_eq_word m r.isLt hc] at ht
    simp only [bne_iff_ne, ne_eq]
    intro h0
    rw [getElem_fin] at h0
    rw [h0] at ht
    simp at ht

/-- The first row holding a set bit. -/
theorem firstRow_eq_some [NeZero w] {m : BitMatrix w R n} {r : Fin R} (h : m.firstRow = some r) :
    (∃ k < n, m.test r k = true) ∧ ∀ r' < r.val, ∀ k, m.test r' k = false := by
  unfold firstRow at h
  obtain ⟨hr, i, hi, hget, hlt⟩ := List.find?_eq_some_iff_getElem.1 h
  refine ⟨(rowSet_iff m r).1 hr, ?_⟩
  intro r' hr' k
  by_contra ht
  have hk : k < n := by
    by_contra hk
    exact ht (test_of_col_le r' (by omega))
  have hir : i = r.val := by rw [← hget]; simp
  have hrow := hlt r' (by omega)
  rw [List.getElem_finRange] at hrow
  have := (rowSet_iff m ⟨r', by omega⟩).2 ⟨k, hk, by simpa using ht⟩
  simp_all

/-- No row holds a set bit. -/
theorem firstRow_eq_none [NeZero w] {m : BitMatrix w R n} :
    m.firstRow = none ↔ ∀ r k, m.test r k = false := by
  unfold firstRow
  rw [List.find?_eq_none]
  constructor
  · intro h r k
    by_contra ht
    have hr : r < R := by
      by_contra hr
      exact ht (test_of_row_le k (by omega))
    have hk : k < n := by
      by_contra hk
      exact ht (test_of_col_le r (by omega))
    exact h ⟨r, hr⟩ (List.mem_finRange _) ((rowSet_iff m ⟨r, hr⟩).2 ⟨k, hk, by simpa using ht⟩)
  · intro h r _ hrow
    obtain ⟨k, -, hk⟩ := (rowSet_iff m r).1 hrow
    rw [h] at hk
    exact Bool.noConfusion hk

end BitMatrix
end LowPower
