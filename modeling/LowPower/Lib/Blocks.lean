import Mathlib.Algebra.GroupWithZero.Nat
import Mathlib.Data.List.Chain
import Mathlib.Data.List.Pairwise

/-!
# A region cut into blocks

A region is cut into blocks that follow one another, each a header of `h` bytes and a payload, in use
or free.

* `width_append`, `usedFrom_append`, `chain_append`: what holds of a cut of the region.
* `usedFrom_apart`, `pairwise_usedFrom`: the blocks in use do not overlap.
* `firstFree_append`: the lowest free block.
* `eq_single_of_usedFrom`: with none in use and no two free neighbours there is one block.
* `Chain.imp`: headers that link the blocks both ways, carried to other headers.
-/

namespace LowPower

structure Block where
  size : ℕ
  used : Bool
deriving DecidableEq

namespace Blocks

variable {h p prev : ℕ} {b : Block} {l l₁ l₂ : List Block}

/-- The bytes of the blocks with their headers. -/
def width (h : ℕ) : List Block → ℕ
  | [] => 0
  | b :: l => h + b.size + width h l

/-- The blocks in use: where the header lies, from `p` on, and the size. -/
def usedFrom (h : ℕ) : ℕ → List Block → List (ℕ × ℕ)
  | _, [] => []
  | p, b :: l =>
    if b.used then (p, b.size) :: usedFrom h (p + h + b.size) l else usedFrom h (p + h + b.size) l

/-- The bytes in use, headers included. -/
def usedWidth (h : ℕ) : List Block → ℕ
  | [] => 0
  | b :: l => (if b.used then h + b.size else 0) + usedWidth h l

/-- The lowest free block, or the end. -/
def firstFree (h : ℕ) : ℕ → List Block → ℕ
  | p, [] => p
  | p, b :: l => if b.used then firstFree h (p + h + b.size) l else p

/-- The lowest free block with room for a size that begins below a limit for it. -/
def firstFit (h size limit : ℕ) : ℕ → List Block → Option ℕ
  | _, [] => none
  | p, b :: l =>
    if b.used = false ∧ size ≤ b.size ∧ p + size < limit then some p
    else firstFit h size limit (p + h + b.size) l

/-- No two neighbours are free. -/
def NoFreePair (l : List Block) : Prop := l.IsChain fun a b => a.used = true ∨ b.used = true

/-- Every block is linked to the one before it. -/
def Chain (h : ℕ) (link : ℕ → ℕ → Block → Prop) : ℕ → ℕ → List Block → Prop
  | _, _, [] => True
  | prev, p, b :: l => link prev p b ∧ Chain h link p (p + h + b.size) l

/-- Where the last block begins. -/
def lastFrom (h : ℕ) : ℕ → ℕ → List Block → ℕ
  | prev, _, [] => prev
  | _, p, b :: l => lastFrom h p (p + h + b.size) l

/-! ## Widths -/

@[simp]
theorem width_nil : width h [] = 0 := rfl

@[simp]
theorem width_cons : width h (b :: l) = h + b.size + width h l := rfl

@[simp]
theorem width_append : width h (l₁ ++ l₂) = width h l₁ + width h l₂ := by
  induction l₁ with
  | nil => simp
  | cons b l₁ ih =>
    rw [List.cons_append, width_cons, width_cons, ih]
    omega

@[simp]
theorem usedWidth_append : usedWidth h (l₁ ++ l₂) = usedWidth h l₁ + usedWidth h l₂ := by
  induction l₁ with
  | nil => simp [usedWidth]
  | cons b l₁ ih =>
    rw [List.cons_append, usedWidth, usedWidth, ih]
    omega

theorem dvd_width {d : ℕ} (hd : d ∣ h) (hl : ∀ b ∈ l, d ∣ b.size) : d ∣ width h l := by
  induction l with
  | nil => exact Nat.dvd_zero d
  | cons b l ih =>
    rw [width_cons]
    refine Nat.dvd_add (Nat.dvd_add hd (hl b List.mem_cons_self)) (ih fun c hc => ?_)
    exact hl c (List.mem_cons_of_mem b hc)

theorem usedWidth_le : usedWidth h l ≤ width h l := by
  induction l with
  | nil => exact Nat.le_refl 0
  | cons b l ih =>
    rw [usedWidth, width_cons]
    split <;> omega

/-- The bytes in use are those of the blocks in use. -/
theorem usedWidth_eq_sum :
    usedWidth h l = ((usedFrom h p l).map fun iv => h + iv.2).sum := by
  induction l generalizing p with
  | nil => rfl
  | cons b l ih =>
    rw [usedWidth, usedFrom]
    split
    · rw [List.map_cons, List.sum_cons, ← ih]
    · rw [Nat.zero_add, ← ih]

theorem usedWidth_congr {p' : ℕ} (hused : usedFrom h p l₁ = usedFrom h p' l₂) :
    usedWidth h l₁ = usedWidth h l₂ := by
  rw [usedWidth_eq_sum (p := p), hused, ← usedWidth_eq_sum]

/-! ## Blocks in use -/

@[simp]
theorem usedFrom_cons_used {s : ℕ} :
    usedFrom h p (⟨s, true⟩ :: l) = (p, s) :: usedFrom h (p + h + s) l := rfl

@[simp]
theorem usedFrom_cons_free {s : ℕ} :
    usedFrom h p (⟨s, false⟩ :: l) = usedFrom h (p + h + s) l := rfl

@[simp]
theorem usedFrom_append :
    usedFrom h p (l₁ ++ l₂) = usedFrom h p l₁ ++ usedFrom h (p + width h l₁) l₂ := by
  induction l₁ generalizing p with
  | nil => rfl
  | cons b l₁ ih =>
    have hassoc : p + h + b.size + width h l₁ = p + (h + b.size + width h l₁) := by omega
    rw [List.cons_append, usedFrom, usedFrom, width_cons, ih, hassoc]
    split <;> rfl

theorem usedFrom_bounds {q s : ℕ} (hmem : (q, s) ∈ usedFrom h p l) :
    p ≤ q ∧ q + h + s ≤ p + width h l := by
  induction l generalizing p with
  | nil => cases hmem
  | cons b l ih =>
    rw [usedFrom] at hmem
    rw [width_cons]
    split at hmem
    · rcases List.mem_cons.mp hmem with heq | hmem
      · obtain ⟨rfl, rfl⟩ := Prod.mk.inj heq
        omega
      · have := ih hmem
        omega
    · have := ih hmem
      omega

/-- A cut of the region is in no block in use. -/
theorem usedFrom_apart {q s : ℕ} (hmem : (q, s) ∈ usedFrom h p (l₁ ++ l₂)) :
    q + h + s ≤ p + width h l₁ ∨ p + width h l₁ ≤ q := by
  rw [usedFrom_append, List.mem_append] at hmem
  rcases hmem with hmem | hmem
  · exact .inl (usedFrom_bounds hmem).2
  · exact .inr (usedFrom_bounds hmem).1

/-- **The blocks in use do not overlap.** -/
theorem pairwise_usedFrom : (usedFrom h p l).Pairwise fun a b => a.1 + h + a.2 ≤ b.1 := by
  induction l generalizing p with
  | nil => exact List.Pairwise.nil
  | cons b l ih =>
    rw [usedFrom]
    split
    · refine List.pairwise_cons.mpr ⟨?_, ih⟩
      rintro ⟨q, s⟩ hmem
      exact (usedFrom_bounds hmem).1
    · exact ih

theorem exists_of_mem_usedFrom {q s : ℕ} (hmem : (q, s) ∈ usedFrom h p l) :
    ∃ l₁ l₂, l = l₁ ++ ⟨s, true⟩ :: l₂ ∧ q = p + width h l₁ := by
  induction l generalizing p with
  | nil => cases hmem
  | cons b l ih =>
    have hrest : (q, s) ∈ usedFrom h (p + h + b.size) l →
        ∃ l₁ l₂, b :: l = l₁ ++ ⟨s, true⟩ :: l₂ ∧ q = p + width h l₁ := by
      intro hmem
      obtain ⟨l₁, l₂, rfl, rfl⟩ := ih hmem
      refine ⟨b :: l₁, l₂, rfl, ?_⟩
      rw [width_cons]
      omega
    rw [usedFrom] at hmem
    split at hmem
    · rename_i hused
      rcases List.mem_cons.mp hmem with heq | hmem
      · obtain ⟨rfl, rfl⟩ := Prod.mk.inj heq
        refine ⟨[], l, ?_, rfl⟩
        rw [List.nil_append, ← hused]
      · exact hrest hmem
    · exact hrest hmem

/-- A block in use and those beside it. -/
theorem mem_usedFrom_cut {n q s : ℕ} : (q, s) ∈ usedFrom h p (l₁ ++ ⟨n, true⟩ :: l₂) ↔
    (q = p + width h l₁ ∧ s = n) ∨
      (q, s) ∈ usedFrom h p l₁ ++ usedFrom h (p + width h l₁ + h + n) l₂ := by
  rw [usedFrom_append, usedFrom_cons_used, List.mem_append, List.mem_cons, List.mem_append,
    Prod.mk.injEq]
  exact or_left_comm

theorem ne_of_mem_beside {n q s : ℕ} (hpos : 0 < h)
    (hmem : (q, s) ∈ usedFrom h p l₁ ++ usedFrom h (p + width h l₁ + h + n) l₂) :
    q ≠ p + width h l₁ := by
  rcases List.mem_append.mp hmem with hmem | hmem
  · have := (usedFrom_bounds hmem).2
    omega
  · have := (usedFrom_bounds hmem).1
    omega

/-- With none in use and no two free neighbours there is one block. -/
theorem eq_single_of_usedFrom (hused : usedFrom h p l = []) (hpairs : NoFreePair l) (hne : l ≠ []) :
    ∃ n, l = [⟨n, false⟩] := by
  rcases l with _ | ⟨⟨n, _ | _⟩, _ | ⟨⟨m, _ | _⟩, l⟩⟩
  · exact absurd rfl hne
  · exact ⟨n, rfl⟩
  · rcases (List.isChain_cons_cons.mp hpairs).1 with hfree | hfree <;> cases hfree
  · cases hused
  · cases hused
  · cases hused
  · cases hused

/-! ## The lowest free block -/

theorem firstFree_bounds : p ≤ firstFree h p l ∧ firstFree h p l ≤ p + width h l := by
  induction l generalizing p with
  | nil => exact ⟨Nat.le_refl p, Nat.le_refl p⟩
  | cons b l ih =>
    have := ih (p := p + h + b.size)
    rw [firstFree, width_cons]
    split <;> omega

theorem firstFree_append (hpos : 0 < h) : firstFree h p (l₁ ++ l₂) =
    if firstFree h p l₁ < p + width h l₁ then firstFree h p l₁
    else firstFree h (p + width h l₁) l₂ := by
  induction l₁ generalizing p with
  | nil => rw [List.nil_append, firstFree, width_nil, Nat.add_zero, if_neg (Nat.lt_irrefl p)]
  | cons b l₁ ih =>
    have hassoc : p + (h + b.size + width h l₁) = p + h + b.size + width h l₁ := by omega
    rw [List.cons_append, firstFree, firstFree, width_cons, hassoc]
    split
    · exact ih
    · rw [if_pos (by omega)]

/-- Behind a free block the rest does not count. -/
theorem firstFree_append_free {n : ℕ} (hpos : 0 < h) :
    firstFree h p (l₁ ++ ⟨n, false⟩ :: l₂) = firstFree h p l₁ := by
  have := firstFree_bounds (h := h) (p := p) (l := l₁)
  rw [firstFree_append hpos]
  split
  · rfl
  · change p + width h l₁ = firstFree h p l₁
    omega

/-- The blocks before the lowest free one. -/
theorem exists_firstFree (h p : ℕ) (l : List Block) : ∃ l₁ l₂, l = l₁ ++ l₂ ∧
    firstFree h p l = p + width h l₁ ∧ (∀ b ∈ l₁, b.used = true) ∧
      ∀ b ∈ l₂.head?, b.used = false := by
  induction l generalizing p with
  | nil =>
    refine ⟨[], [], rfl, rfl, ?_, ?_⟩
    · intro b hb
      cases hb
    · intro b hb
      cases hb
  | cons b l ih =>
    rw [firstFree]
    split
    · rename_i hused
      obtain ⟨l₁, l₂, rfl, heq, hall, hhead⟩ := ih (p + h + b.size)
      refine ⟨b :: l₁, l₂, rfl, ?_, ?_, hhead⟩
      · rw [heq, width_cons]
        omega
      · intro a ha
        rcases List.mem_cons.mp ha with rfl | ha
        · exact hused
        · exact hall a ha
    · rename_i hfree
      refine ⟨[], b :: l, rfl, rfl, ?_, ?_⟩
      · intro a ha
        cases ha
      · intro a ha
        obtain rfl := Option.some.inj ha
        exact Bool.eq_false_iff.mpr hfree

/-! ## The first fit -/

variable {size limit : ℕ}

theorem firstFit_of_used (hused : ∀ b ∈ l₁, b.used = true) :
    firstFit h size limit p (l₁ ++ l₂) = firstFit h size limit (p + width h l₁) l₂ := by
  induction l₁ generalizing p with
  | nil => rfl
  | cons b l₁ ih =>
    have hassoc : p + h + b.size + width h l₁ = p + (h + b.size + width h l₁) := by omega
    have hb := hused b List.mem_cons_self
    have hnot : ¬(b.used = false ∧ size ≤ b.size ∧ p + size < limit) := by
      rintro ⟨hfree, -⟩
      rw [hb] at hfree
      cases hfree
    rw [List.cons_append, firstFit, if_neg hnot, ih fun a ha => hused a (List.mem_cons_of_mem b ha),
      width_cons, hassoc]

/-- Behind the limit nothing fits. -/
theorem firstFit_of_limit (hlimit : limit ≤ p + size) : firstFit h size limit p l = none := by
  induction l generalizing p with
  | nil => rfl
  | cons b l ih =>
    rw [firstFit, if_neg (by omega), ih (by omega)]

/-- **What fits first**: none before it does. -/
theorem firstFit_some {q : ℕ} (hfit : firstFit h size limit p l = some q) :
    ∃ l₁ n l₂, l = l₁ ++ ⟨n, false⟩ :: l₂ ∧ q = p + width h l₁ ∧ size ≤ n ∧ q + size < limit ∧
      ∀ a b c, l₁ = a ++ b :: c → b.used = false → size ≤ b.size →
        limit ≤ p + width h a + size := by
  induction l generalizing p with
  | nil => cases hfit
  | cons b l ih =>
    rw [firstFit] at hfit
    split at hfit
    · rename_i hb
      obtain rfl := Option.some.inj hfit
      refine ⟨[], b.size, l, ?_, rfl, hb.2.1, hb.2.2, ?_⟩
      · rw [List.nil_append, ← hb.1]
      · intro a c d heq
        exact absurd heq (List.append_ne_nil_of_right_ne_nil a (List.cons_ne_nil c d)).symm
    · rename_i hb
      obtain ⟨l₁, n, l₂, rfl, rfl, hn, hlimit, hbefore⟩ := ih hfit
      refine ⟨b :: l₁, n, l₂, rfl, ?_, hn, hlimit, ?_⟩
      · rw [width_cons]
        omega
      · intro a c d heq hfree hsize
        rcases List.cons_eq_append_iff.mp heq with ⟨rfl, hcons⟩ | ⟨a', rfl, rest⟩
        · obtain ⟨rfl, -⟩ := List.cons.inj hcons
          rw [width_nil]
          by_contra hlow
          exact hb ⟨hfree, hsize, by omega⟩
        · have := hbefore a' c d rest hfree hsize
          rw [width_cons]
          omega

theorem firstFit_eq_none : firstFit h size limit p l = none ↔ ∀ l₁ b l₂, l = l₁ ++ b :: l₂ →
    b.used = false → size ≤ b.size → limit ≤ p + width h l₁ + size := by
  induction l generalizing p with
  | nil =>
    refine ⟨fun _ l₁ b l₂ heq => ?_, fun _ => rfl⟩
    exact absurd heq (List.append_ne_nil_of_right_ne_nil l₁ (List.cons_ne_nil b l₂)).symm
  | cons b l ih =>
    rw [firstFit]
    split
    · rename_i hb
      refine ⟨fun heq => (Option.some_ne_none p heq).elim, fun hall => ?_⟩
      have := hall [] b l rfl hb.1 hb.2.1
      rw [width_nil] at this
      omega
    · rename_i hb
      rw [ih]
      constructor
      · intro hall l₁ c l₂ heq hfree hsize
        rcases List.cons_eq_append_iff.mp heq with ⟨rfl, hcons⟩ | ⟨l₁', rfl, rest⟩
        · obtain ⟨rfl, -⟩ := List.cons.inj hcons
          rw [width_nil]
          by_contra hlow
          exact hb ⟨hfree, hsize, by omega⟩
        · have := hall l₁' c l₂ rest hfree hsize
          rw [width_cons]
          omega
      · rintro hall l₁ c l₂ rfl hfree hsize
        have := hall (b :: l₁) c l₂ rfl hfree hsize
        rw [width_cons] at this
        omega

/-! ## Neighbours -/

theorem noFreePair_append : NoFreePair (l₁ ++ b :: l₂) ↔
    NoFreePair (l₁ ++ [b]) ∧ NoFreePair (b :: l₂) := List.isChain_split

/-- A block in use between others. -/
theorem noFreePair_used {n : ℕ} : NoFreePair (l₁ ++ ⟨n, true⟩ :: l₂) ↔
    NoFreePair l₁ ∧ NoFreePair l₂ := by
  rw [NoFreePair, NoFreePair, NoFreePair, List.isChain_append, List.isChain_cons]
  constructor
  · rintro ⟨hleft, ⟨-, hright⟩, -⟩
    exact ⟨hleft, hright⟩
  · rintro ⟨hleft, hright⟩
    refine ⟨hleft, ⟨fun a ha => .inl rfl, hright⟩, ?_⟩
    intro a ha c hc
    obtain rfl := Option.some.inj hc
    exact .inr rfl

/-- The sizes do not count. -/
theorem NoFreePair.resize {n : ℕ} {u : Bool} (hpairs : NoFreePair (l₁ ++ ⟨n, u⟩ :: l₂)) (m : ℕ) :
    NoFreePair (l₁ ++ ⟨m, u⟩ :: l₂) := by
  rw [NoFreePair, List.isChain_append, List.isChain_cons] at hpairs ⊢
  refine ⟨hpairs.1, hpairs.2.1, fun a ha c hc => ?_⟩
  obtain rfl := Option.some.inj hc
  exact hpairs.2.2 a ha ⟨n, u⟩ rfl

theorem NoFreePair.resize_head {n : ℕ} {u : Bool} (hpairs : NoFreePair (⟨n, u⟩ :: l)) (m : ℕ) :
    NoFreePair (⟨m, u⟩ :: l) := by
  rw [← List.nil_append (_ :: l)] at hpairs ⊢
  exact hpairs.resize m

/-- Joining two free neighbours. -/
theorem usedFrom_join {n m : ℕ} : usedFrom h p (l₁ ++ ⟨n + h + m, false⟩ :: l₂) =
    usedFrom h p (l₁ ++ ⟨n, false⟩ :: ⟨m, false⟩ :: l₂) := by
  have hassoc : p + width h l₁ + h + (n + h + m) = p + width h l₁ + h + n + h + m := by omega
  simp only [usedFrom_append, usedFrom_cons_free, hassoc]

/-! ## Links -/

variable {link link' : ℕ → ℕ → Block → Prop}

theorem chain_append : Chain h link prev p (l₁ ++ l₂) ↔
    Chain h link prev p l₁ ∧ Chain h link (lastFrom h prev p l₁) (p + width h l₁) l₂ := by
  induction l₁ generalizing prev p with
  | nil => simp [Chain, lastFrom]
  | cons b l₁ ih =>
    have hassoc : p + h + b.size + width h l₁ = p + (h + b.size + width h l₁) := by omega
    rw [List.cons_append, Chain, Chain, ih, lastFrom, width_cons, hassoc, and_assoc]

/-- **Links that agree on the region.** -/
theorem Chain.imp (hchain : Chain h link prev p l)
    (himp : ∀ prev q b, p ≤ q → q + h + b.size ≤ p + width h l → link prev q b → link' prev q b) :
    Chain h link' prev p l := by
  induction l generalizing prev p with
  | nil => trivial
  | cons b l ih =>
    rw [width_cons] at himp
    refine ⟨himp _ _ _ (Nat.le_refl p) (by omega) hchain.1, ih hchain.2 ?_⟩
    intro prev q b' hq hend hlink
    exact himp prev q b' (by omega) (by omega) hlink

theorem lastFrom_append_cons :
    lastFrom h prev p (l₁ ++ b :: l₂) = lastFrom h (p + width h l₁) (p + width h l₁ + h + b.size) l₂ := by
  induction l₁ generalizing prev p with
  | nil => rfl
  | cons a l₁ ih =>
    have hassoc : p + h + a.size + width h l₁ = p + (h + a.size + width h l₁) := by omega
    rw [List.cons_append, lastFrom, ih, width_cons, hassoc]

end Blocks

end LowPower
