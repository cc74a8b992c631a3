import Mathlib.Data.List.Nodup
import Mathlib.Data.List.Pairwise

/-!
# Placing an element in a sorted list

An element is placed behind all that are not later than it (`place`). In a sorted list that is a cut
(`filter_cut`); placing keeps an order the element fits into (`pairwise_place`), keeps sublists
(`place_sublist`), and adds the element once (`place_perm`).
-/

namespace LowPower

variable {α : Type} {later : α → Bool} {t : α} {l l' : List α} {R : α → α → Prop}

/-- The members that are not later, the element, and the later ones. -/
def place (later : α → Bool) (t : α) (l : List α) : List α :=
  l.filter (fun s => !later s) ++ t :: l.filter later

theorem place_congr {later' : α → Bool} (h : ∀ s ∈ l, later s = later' s) :
    place later t l = place later' t l := by
  rw [place, place, List.filter_congr h, List.filter_congr fun s hs => congrArg (!·) (h s hs)]

@[simp]
theorem mem_place {s : α} : s ∈ place later t l ↔ s = t ∨ s ∈ l := by
  rw [place, List.mem_append, List.mem_cons, List.mem_filter, List.mem_filter]
  cases later s <;> simp [or_comm]

/-- Placing passes the members that are not later. -/
theorem place_append {l₁ l₂ : List α} (h : ∀ s ∈ l₁, later s = false) :
    place later t (l₁ ++ l₂) = l₁ ++ place later t l₂ := by
  have hkeep : l₁.filter (fun s => !later s) = l₁ := by
    rw [List.filter_eq_self]
    intro s hs
    simp [h s hs]
  have hnone : l₁.filter later = [] := by
    rw [List.filter_eq_nil_iff]
    intro s hs
    simp [h s hs]
  rw [place, place, List.filter_append, List.filter_append, hkeep, hnone, List.nil_append,
    List.append_assoc]

/-- **A sorted list is cut** where the later members begin. -/
theorem filter_cut (hl : l.Pairwise R)
    (hlater : ∀ a ∈ l, ∀ b ∈ l, R a b → later a = true → later b = true) :
    l.filter (fun s => !later s) ++ l.filter later = l := by
  induction l with
  | nil => rfl
  | cons a l ih =>
    rw [List.pairwise_cons] at hl
    have hrest := ih hl.2 fun x hx y hy =>
      hlater x (List.mem_cons_of_mem a hx) y (List.mem_cons_of_mem a hy)
    cases ha : later a with
    | false => simp [ha, hrest]
    | true =>
      have hall : ∀ b ∈ l, later b = true := fun b hb =>
        hlater a List.mem_cons_self b (List.mem_cons_of_mem a hb) (hl.1 b hb) ha
      have hnone : l.filter (fun s => !later s) = [] := by
        rw [List.filter_eq_nil_iff]
        intro b hb
        simp [hall b hb]
      simp [ha, hnone, List.filter_eq_self.mpr hall]

/-- Placing adds the element in the middle. -/
theorem place_perm (hcut : l.filter (fun s => !later s) ++ l.filter later = l) :
    (place later t l).Perm (t :: l) := by
  rw [place]
  conv_rhs => rw [← hcut]
  exact List.perm_middle

theorem sublist_place (hcut : l.filter (fun s => !later s) ++ l.filter later = l) :
    l.Sublist (place later t l) := by
  conv_lhs => rw [← hcut]
  exact (List.sublist_cons_self t _).append_left _

theorem place_sublist (h : l.Sublist l') (later : α → Bool) (t : α) :
    (place later t l).Sublist (place later t l') :=
  (h.filter _).append ((h.filter _).cons_cons t)

/-- **An element that fits** between the members that are not later and the later ones keeps the
order. -/
theorem pairwise_place (hl : l.Pairwise R) (hbefore : ∀ s ∈ l, later s = false → R s t)
    (hafter : ∀ s ∈ l, later s = true → R t s)
    (hlater : ∀ a ∈ l, ∀ b ∈ l, R a b → later a = true → later b = true) :
    (place later t l).Pairwise R := by
  have hcut := filter_cut hl hlater
  have hpair := hl
  rw [← hcut, List.pairwise_append] at hpair
  obtain ⟨hnot, hlate, hcross⟩ := hpair
  rw [place, List.pairwise_append, List.pairwise_cons]
  refine ⟨hnot, ⟨fun s hs => ?_, hlate⟩, fun s hs u hu => ?_⟩
  · rw [List.mem_filter] at hs
    exact hafter s hs.1 hs.2
  · rw [List.mem_cons] at hu
    obtain rfl | hu := hu
    · rw [List.mem_filter] at hs
      exact hbefore s hs.1 (by simpa using hs.2)
    · exact hcross s hs u hu

end LowPower
