import Mathlib.Data.List.Induction

/-!
# Recorded histories

A history is a list of entries, oldest first. Two readings of it recur: the value most
recently set by an entry (`latest`), and the rule that each entry is justified by the
entries before it (`Justified`). Both are computed one entry at a time.
-/

namespace LowPower

variable {α β : Type*}

/-- What one more entry adds to a selection of entries. -/
theorem filterMap_snoc (f : α → Option β) (l : List α) (x : α) :
    (l ++ [x]).filterMap f = l.filterMap f ++ (f x).toList := by
  rw [List.filterMap_append, List.filterMap_cons, List.filterMap_nil]
  cases f x <;> rfl

theorem filterMap_snoc_none {f : α → Option β} {l : List α} {x : α} (h : f x = none) :
    (l ++ [x]).filterMap f = l.filterMap f := by
  rw [filterMap_snoc, h, Option.toList_none, List.append_nil]

theorem filterMap_snoc_some {f : α → Option β} {l : List α} {x : α} {b : β} (h : f x = some b) :
    (l ++ [x]).filterMap f = l.filterMap f ++ [b] := by
  rw [filterMap_snoc, h, Option.toList_some]

/-- The value set by the last entry that sets one, or `d`. -/
def latest (f : α → Option β) (d : β) (l : List α) : β := (l.filterMap f).getLast?.getD d

@[simp] theorem latest_nil (f : α → Option β) (d : β) : latest f d [] = d := rfl

@[simp] theorem latest_snoc (f : α → Option β) (d : β) (l : List α) (x : α) :
    latest f d (l ++ [x]) = (f x).getD (latest f d l) := by
  unfold latest
  rw [filterMap_snoc]
  cases f x with
  | none => simp
  | some b => simp

/-- Each entry is justified by the entries before it. -/
def Justified (P : List α → α → Prop) (l : List α) : Prop :=
  ∀ pre x post, l = pre ++ x :: post → P pre x

theorem Justified.nil (P : List α → α → Prop) : Justified P [] := by
  intro pre x post h
  simp at h

/-- **A history stays justified when its next entry is.** -/
theorem justified_snoc {P : List α → α → Prop} {l : List α} {x : α} :
    Justified P (l ++ [x]) ↔ Justified P l ∧ P l x := by
  constructor
  · intro h
    constructor
    · rintro pre y post rfl
      exact h pre y (post ++ [x]) (by simp)
    · exact h l x [] rfl
  · rintro ⟨hl, hx⟩ pre y post h
    rcases List.eq_nil_or_concat post with rfl | ⟨post, z, rfl⟩
    · obtain ⟨rfl, hy⟩ := List.append_inj' h rfl
      cases hy
      exact hx
    · rw [List.concat_eq_append, ← List.cons_append, ← List.append_assoc] at h
      exact hl pre y post (List.append_inj' h rfl).1

/-- **What holds after every prefix**: when a property that holds at the start outlasts an entry
exactly if the entry is justified, it holds all along exactly if every entry is. -/
theorem justified_iff_forall_prefix {P : List α → Prop} {C : List α → α → Prop} {l : List α}
    (h0 : P []) (hstep : ∀ p x, p ++ [x] <+: l → P p → (P (p ++ [x]) ↔ C p x)) :
    Justified C l ↔ ∀ p, p <+: l → P p := by
  induction l using List.reverseRecOn with
  | nil =>
    refine iff_of_true (Justified.nil C) fun p hp => ?_
    rw [List.prefix_nil.1 hp]
    exact h0
  | append_singleton l x ih =>
    have hprev := ih fun p y hp => hstep p y (hp.trans (List.prefix_append l [x]))
    rw [justified_snoc, hprev]
    constructor
    · rintro ⟨hl, hx⟩ p hp
      rcases List.prefix_concat_iff.1 hp with rfl | hp
      · exact (hstep l x (List.prefix_refl _) (hl l (List.prefix_refl l))).2 hx
      · exact hl p hp
    · intro h
      have hl : ∀ p, p <+: l → P p := fun p hp => h p (hp.trans (List.prefix_append l [x]))
      refine ⟨hl, ?_⟩
      exact (hstep l x (List.prefix_refl _) (hl l (List.prefix_refl l))).1 (h _ (List.prefix_refl _))

/-- Entries that are always justified add to a justified history. -/
theorem Justified.append {P : List α → α → Prop} {l l' : List α} (h : Justified P l)
    (h' : ∀ pre, ∀ x ∈ l', P pre x) : Justified P (l ++ l') := by
  induction l' using List.reverseRecOn with
  | nil => rwa [List.append_nil]
  | append_singleton l' x ih =>
    rw [← List.append_assoc]
    refine justified_snoc.2 ⟨ih fun pre y hy => h' pre y (List.mem_append_left _ hy), ?_⟩
    exact h' _ x (by simp)

theorem Justified.mono {P Q : List α → α → Prop} {l : List α} (h : Justified P l)
    (hPQ : ∀ pre x, P pre x → Q pre x) : Justified Q l :=
  fun pre x post hl => hPQ pre x (h pre x post hl)

end LowPower
