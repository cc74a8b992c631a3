import Mathlib.Data.List.Chain
import Mathlib.Data.List.Nodup
import Mathlib.Logic.Function.Basic

/-!
# Circular doubly linked lists

A memory of links gives every node a next and a previous one. A head and the members after it form a
ring when consecutive nodes are linked both ways, the last one to the head (`IsRing`). Inserting
after a node of the ring and removing a member are edits of the list (`IsRing.insertAfter`,
`IsRing.remove`); a node that is linked to itself can be removed without effect (`remove_alone`);
and what an edit does not link is as it was (`IsRing.congr` with the frame lemmas). Where every node
lies in a ring (`Paired`), edits at different places can be made in either order
(`remove_insertAfter_comm`, `insertAfter_insertAfter_comm`).
-/

namespace LowPower

structure Links (α : Type) where
  next : α → α
  prev : α → α

namespace Links

variable {α : Type}

variable {m m' : Links α} {h n p x y : α} {l l₁ l₂ w : List α}

/-- `x` and `y` are linked both ways. -/
def Linked (m : Links α) (x y : α) : Prop := m.next x = y ∧ m.prev y = x

/-- The ring of a head and its members, in order. -/
structure IsRing (m : Links α) (h : α) (l : List α) : Prop where
  nodup : (h :: l).Nodup
  linked : (h :: (l ++ [h])).IsChain m.Linked

/-- A node that is in no ring but its own. -/
def Alone (m : Links α) (n : α) : Prop := m.next n = n ∧ m.prev n = n

theorem isRing_nil_iff : m.IsRing h [] ↔ m.Alone h := by
  constructor
  · rintro ⟨-, hlinked⟩
    simpa [Linked, Alone] using hlinked
  · intro halone
    exact ⟨List.nodup_singleton h, by simpa [Linked, Alone] using halone⟩

theorem Alone.congr (h : m.Alone n) (heq : m'.next n = m.next n ∧ m'.prev n = m.prev n) :
    m'.Alone n := ⟨heq.1.trans h.1, heq.2.trans h.2⟩

/-- Links depend on the next of all nodes but the last, and the previous of all but the first. -/
theorem chain_congr (hw : w.IsChain m.Linked) (hnext : ∀ x ∈ w.dropLast, m'.next x = m.next x)
    (hprev : ∀ y ∈ w.tail, m'.prev y = m.prev y) : w.IsChain m'.Linked := by
  induction w with
  | nil => exact .nil
  | cons x w ih =>
    cases w with
    | nil => exact .singleton x
    | cons y w =>
      rw [List.isChain_cons_cons] at hw ⊢
      obtain ⟨⟨hxy, hyx⟩, hrest⟩ := hw
      rw [List.dropLast_cons_cons, List.forall_mem_cons] at hnext
      rw [List.tail_cons, List.forall_mem_cons] at hprev
      exact ⟨⟨hnext.1.trans hxy, hprev.1.trans hyx⟩, ih hrest hnext.2 hprev.2⟩

theorem IsRing.congr (hr : m.IsRing h l)
    (heq : ∀ x ∈ h :: l, m'.next x = m.next x ∧ m'.prev x = m.prev x) : m'.IsRing h l := by
  refine ⟨hr.nodup, chain_congr hr.linked (fun x hx => (heq x ?_).1) fun y hy => (heq y ?_).2⟩
  · rwa [← List.cons_append, List.dropLast_concat] at hx
  · rw [List.tail_cons, List.mem_append, List.mem_singleton] at hy
    exact List.mem_cons.mpr hy.symm

/-! ## Walking a ring -/

/-- A ring is walked from its head back to its head. -/
theorem walk_cut (h : α) (l₁ l₂ : List α) : ∃ as p q bs,
    h :: l₁ = as ++ [p] ∧ l₂ ++ [h] = q :: bs ∧ p = (h :: l₁).getLast (List.cons_ne_nil h l₁) := by
  obtain ⟨q, bs, hqbs⟩ := List.exists_cons_of_ne_nil
    (List.append_ne_nil_of_right_ne_nil l₂ (List.cons_ne_nil h []))
  exact ⟨_, _, q, bs, (List.dropLast_append_getLast (List.cons_ne_nil h l₁)).symm, hqbs, rfl⟩

theorem nodup_tail (h : (p :: l).Nodup) : (l ++ [p]).Nodup :=
  (List.perm_append_singleton p l).nodup_iff.mpr h

/-- The last of some members is linked to the first of the rest, or to the head. -/
theorem IsRing.linked_getLast (hr : m.IsRing h (l₁ ++ l₂)) :
    m.Linked ((h :: l₁).getLast (List.cons_ne_nil h l₁)) (l₂.headD h) := by
  obtain ⟨as, p, q, bs, has, hbs, hp⟩ := walk_cut h l₁ l₂
  have hlinked := hr.linked
  rw [List.append_assoc, hbs, ← List.cons_append, has, List.append_assoc, List.singleton_append,
    List.isChain_append_cons_cons] at hlinked
  have hq : l₂.headD h = q := by
    cases l₂ with
    | nil => exact (List.cons.inj hbs).1
    | cons x l₂ => exact (List.cons.inj hbs).1
  rw [← hp, hq]
  exact hlinked.2.1

theorem IsRing.next_head (hr : m.IsRing h l) : m.next h = l.headD h := by
  rw [← List.nil_append l] at hr
  exact hr.linked_getLast.1

theorem IsRing.prev_head (hr : m.IsRing h l) :
    m.prev h = (h :: l).getLast (List.cons_ne_nil h l) := by
  rw [← List.append_nil l] at hr
  exact hr.linked_getLast.2

/-- A node has one next, so there is one walk from it to where it first meets `h`. -/
theorem chain_unique {l' : List α} (hl : (p :: (l ++ [h])).IsChain m.Linked) (hh : h ∉ l)
    (hl' : (p :: (l' ++ [h])).IsChain m.Linked) (hh' : h ∉ l') : l = l' := by
  induction l generalizing p l' with
  | nil =>
    cases l' with
    | nil => rfl
    | cons y l' =>
      rw [List.nil_append, List.isChain_cons_cons] at hl
      rw [List.cons_append, List.isChain_cons_cons] at hl'
      exact absurd (hl.1.1.symm.trans hl'.1.1 ▸ List.mem_cons_self) hh'
  | cons x l ih =>
    rw [List.cons_append, List.isChain_cons_cons] at hl
    cases l' with
    | nil =>
      rw [List.nil_append, List.isChain_cons_cons] at hl'
      exact absurd (hl'.1.1.symm.trans hl.1.1 ▸ List.mem_cons_self) hh
    | cons y l' =>
      rw [List.cons_append, List.isChain_cons_cons] at hl'
      obtain rfl : x = y := hl.1.1.symm.trans hl'.1.1
      rw [ih hl.2 (List.not_mem_of_not_mem_cons hh) hl'.2 (List.not_mem_of_not_mem_cons hh')]

/-- The members of a ring are determined by its head. -/
theorem IsRing.unique {l' : List α} (hr : m.IsRing h l) (hr' : m.IsRing h l') : l = l' :=
  chain_unique hr.linked (List.nodup_cons.mp hr.nodup).1 hr'.linked (List.nodup_cons.mp hr'.nodup).1

/-- A node of a ring is the last of the members up to it. -/
theorem exists_cut (hx : x ∈ h :: l) :
    ∃ l₁ l₂, l = l₁ ++ l₂ ∧ (h :: l₁).getLast (List.cons_ne_nil h l₁) = x := by
  rw [List.mem_cons] at hx
  obtain rfl | hx := hx
  · exact ⟨[], l, rfl, rfl⟩
  · obtain ⟨s, t, rfl⟩ := List.append_of_mem hx
    exact ⟨s ++ [x], t, by simp, by simp⟩

theorem IsRing.next_mem (hr : m.IsRing h l) (hx : x ∈ h :: l) : m.next x ∈ h :: l := by
  obtain ⟨l₁, l₂, rfl, rfl⟩ := exists_cut hx
  rw [hr.linked_getLast.1]
  cases l₂ with
  | nil => exact List.mem_cons_self
  | cons y l₂ => simp

theorem IsRing.prev_mem (hr : m.IsRing h l) (hx : x ∈ h :: l) : m.prev x ∈ h :: l := by
  rw [List.mem_cons] at hx
  obtain rfl | hx := hx
  · rw [hr.prev_head]
    exact List.getLast_mem _
  · obtain ⟨l₁, l₂, rfl⟩ := List.append_of_mem hx
    have hprev := hr.linked_getLast.2
    rw [List.headD_cons] at hprev
    rw [hprev, ← List.cons_append]
    exact List.mem_append_left _ (List.getLast_mem _)

/-- With members left, the last of the earlier ones is not the last of the ring. -/
theorem IsRing.getLast_ne (hr : m.IsRing h (l₁ ++ x :: l₂)) :
    (h :: l₁).getLast (List.cons_ne_nil h l₁) ≠ m.prev h := by
  intro heq
  have hx := hr.linked_getLast.1
  have hh := (List.append_nil (l₁ ++ x :: l₂) ▸ hr).linked_getLast.1
  rw [← hr.prev_head, ← heq, hx, List.headD_cons, List.headD_nil] at hh
  exact (List.nodup_cons.mp hr.nodup).1 (hh ▸ List.mem_append_right l₁ List.mem_cons_self)

/-- A member is not linked to itself. -/
theorem IsRing.next_ne (hr : m.IsRing h l) (hn : n ∈ l) : m.next n ≠ n := by
  intro hself
  obtain ⟨l₁, l₂, rfl⟩ := List.append_of_mem hn
  have hnodup := hr.nodup
  rw [← List.singleton_append, ← List.append_assoc] at hr
  have hnext := hr.linked_getLast.1
  simp only [← List.cons_append, List.getLast_append_singleton] at hnext
  rw [hself] at hnext
  cases l₂ with
  | nil => exact (List.nodup_cons.mp hnodup).1 (hnext ▸ hn)
  | cons y l₂ =>
    rw [List.headD_cons] at hnext
    subst hnext
    simp [List.nodup_append] at hnodup

/-! ## Edits -/

variable [DecidableEq α]

def init (n : α) (m : Links α) : Links α :=
  ⟨Function.update m.next n n, Function.update m.prev n n⟩

def insertAfter (l n : α) (m : Links α) : Links α :=
  let m := { m with prev := Function.update m.prev (m.next l) n }
  let m := { m with next := Function.update m.next n (m.next l) }
  let m := { m with next := Function.update m.next l n }
  { m with prev := Function.update m.prev n l }

def remove (n : α) (m : Links α) : Links α :=
  let m := { m with prev := Function.update m.prev (m.next n) (m.prev n) }
  let m := { m with next := Function.update m.next (m.prev n) (m.next n) }
  { m with prev := Function.update m.prev n n, next := Function.update m.next n n }

theorem init_eq (h : m.Alone n) : m.init n = m := by
  rw [init, Function.update_eq_self_iff.mpr h.1.symm, Function.update_eq_self_iff.mpr h.2.symm]

theorem insertAfter_next (hp : x ≠ p) (hn : x ≠ n) : (m.insertAfter p n).next x = m.next x := by
  simp [insertAfter, hp, hn]

theorem insertAfter_prev (hp : x ≠ m.next p) (hn : x ≠ n) :
    (m.insertAfter p n).prev x = m.prev x := by
  simp [insertAfter, hp, hn]

theorem remove_next (hp : x ≠ m.prev n) (hn : x ≠ n) (hself : m.next n ≠ n) :
    (m.remove n).next x = m.next x := by
  simp [remove, hp, hn, hself.symm]

theorem remove_prev (hp : x ≠ m.next n) (hn : x ≠ n) : (m.remove n).prev x = m.prev x := by
  simp [remove, hp, hn]

theorem remove_removed (n : α) (m : Links α) : (m.remove n).Alone n := by simp [remove, Alone]

/-- **A node linked to itself** is removed without effect. -/
theorem remove_alone (h : m.Alone n) : m.remove n = m := by
  obtain ⟨hnext, hprev⟩ := h
  have hn := Function.update_eq_self n m.next
  have hp := Function.update_eq_self n m.prev
  rw [hnext] at hn
  rw [hprev] at hp
  simp only [remove, hnext, hprev, hn, hp]

section Walk

variable {q : α} {as bs : List α}

/-- A new node between two linked ones. -/
theorem chain_insert (hw : (as ++ p :: q :: bs).IsChain m.Linked)
    (hnext : (as ++ p :: (q :: bs).dropLast).Nodup) (hprev : ((as ++ [p]).tail ++ q :: bs).Nodup)
    (hn : n ∉ as ++ p :: q :: bs) :
    (as ++ p :: n :: q :: bs).IsChain (m.insertAfter p n).Linked := by
  rw [List.isChain_append_cons_cons] at hw ⊢
  obtain ⟨has, ⟨hpq, hqp⟩, hbs⟩ := hw
  simp only [List.mem_append, List.mem_cons, not_or] at hn
  obtain ⟨hnas, hnp, hnq, hnbs⟩ := hn
  refine ⟨?_, ⟨?_, ?_⟩, List.isChain_cons_cons.mpr ⟨⟨?_, ?_⟩, ?_⟩⟩
  · refine chain_congr has (fun x hx => ?_) fun y hy => ?_
    · rw [List.dropLast_concat] at hx
      have hxp : x ≠ p := fun heq =>
        (List.nodup_append.mp hnext).2.2 x hx p List.mem_cons_self heq
      exact insertAfter_next hxp fun heq => hnas (heq ▸ hx)
    · have hyq : y ≠ m.next p := fun heq =>
        (List.nodup_append.mp hprev).2.2 y hy q List.mem_cons_self (heq.trans hpq)
      refine insertAfter_prev hyq fun heq => ?_
      have hmem := heq ▸ List.mem_of_mem_tail hy
      simp [hnas, hnp] at hmem
  · simp [Links.insertAfter]
  · simp [Links.insertAfter]
  · simp [Links.insertAfter, hnp, hpq]
  · simp [Links.insertAfter, hpq, Ne.symm hnq]
  · refine chain_congr hbs (fun x hx => ?_) fun y hy => ?_
    · have hxp : x ≠ p := fun heq =>
        (List.nodup_cons.mp (List.nodup_append.mp hnext).2.1).1 (heq ▸ hx)
      refine insertAfter_next hxp fun heq => ?_
      have hmem := heq ▸ List.dropLast_subset _ hx
      simp [hnq, hnbs] at hmem
    · have hyq : y ≠ m.next p := fun heq =>
        (List.nodup_cons.mp (List.nodup_append.mp hprev).2.1).1 (hpq ▸ heq ▸ hy)
      exact insertAfter_prev hyq fun heq => hnbs (heq ▸ hy)

/-- The neighbours of a removed node are linked. -/
theorem chain_remove (hw : (as ++ p :: n :: q :: bs).IsChain m.Linked)
    (hnext : (as ++ p :: n :: (q :: bs).dropLast).Nodup)
    (hprev : ((as ++ [p]).tail ++ n :: q :: bs).Nodup) :
    (as ++ p :: q :: bs).IsChain (m.remove n).Linked := by
  rw [List.isChain_append_cons_cons, List.isChain_cons_cons] at hw
  obtain ⟨has, ⟨hpn, hnp⟩, ⟨hnq, hqn⟩, hbs⟩ := hw
  obtain ⟨-, hnext₂, hnext₁⟩ := List.nodup_append.mp hnext
  obtain ⟨-, hprev₂, hprev₁⟩ := List.nodup_append.mp hprev
  rw [List.nodup_cons, List.nodup_cons] at hnext₂ hprev₂
  have hself : m.next n ≠ n := fun heq =>
    hprev₂.1 (heq ▸ hnq ▸ List.mem_cons_self)
  rw [List.isChain_append_cons_cons]
  refine ⟨?_, ⟨?_, ?_⟩, ?_⟩
  · refine chain_congr has (fun x hx => ?_) fun y hy => ?_
    · rw [List.dropLast_concat] at hx
      refine remove_next (fun heq => hnext₁ x hx p List.mem_cons_self (heq.trans hnp))
        (fun heq => hnext₁ x hx n (by simp) heq) hself
    · exact remove_prev (fun heq => hprev₁ y hy q (by simp) (heq.trans hnq))
        fun heq => hprev₁ y hy n List.mem_cons_self heq
  · have hpne : p ≠ n := fun heq => hnext₂.1 (heq ▸ List.mem_cons_self)
    simp [Links.remove, hnp, hnq, hpne, hnq ▸ hself.symm]
  · have hqne : q ≠ n := fun heq => hprev₂.1 (heq ▸ List.mem_cons_self)
    simp [Links.remove, hnp, hnq, hqne]
  · refine chain_congr hbs (fun x hx => ?_) fun y hy => ?_
    · refine remove_next (fun heq => hnext₂.1 ?_) (fun heq => hnext₂.2.1 (heq ▸ hx)) hself
      exact List.mem_cons_of_mem n (hnp ▸ heq ▸ hx)
    · refine remove_prev (fun heq => hprev₂.2.1 (hnq ▸ heq ▸ hy)) fun heq => hprev₂.1 ?_
      exact List.mem_cons_of_mem q (heq ▸ hy)

end Walk

/-- **Inserting** a node after one of the ring. -/
theorem IsRing.insertAfter (hr : m.IsRing h (l₁ ++ l₂)) (hn : n ∉ h :: (l₁ ++ l₂)) :
    (m.insertAfter ((h :: l₁).getLast (List.cons_ne_nil h l₁)) n).IsRing h (l₁ ++ n :: l₂) := by
  obtain ⟨as, p, q, bs, has, hbs, hp⟩ := walk_cut h l₁ l₂
  rw [← hp]
  have hlast : (q :: bs).dropLast = l₂ := by rw [← hbs, List.dropLast_concat]
  have hfirst : (as ++ [p]).tail = l₁ := by rw [← has, List.tail_cons]
  have hwalk : h :: ((l₁ ++ l₂) ++ [h]) = as ++ p :: q :: bs := by
    rw [List.append_assoc, hbs, ← List.cons_append, has, List.append_assoc, List.singleton_append]
  have hwalk' : h :: ((l₁ ++ n :: l₂) ++ [h]) = as ++ p :: n :: q :: bs := by
    rw [List.append_assoc, List.cons_append, hbs, ← List.cons_append, has, List.append_assoc,
      List.singleton_append]
  constructor
  · have hperm : (n :: h :: (l₁ ++ l₂)).Perm (h :: (l₁ ++ n :: l₂)) :=
      (List.Perm.swap h n _).trans (List.perm_middle.symm.cons h)
    exact hperm.nodup_iff.mp (List.nodup_cons.mpr ⟨hn, hr.nodup⟩)
  · rw [hwalk']
    apply chain_insert (hwalk ▸ hr.linked)
    · rw [hlast, ← List.singleton_append, ← List.append_assoc, ← has]
      exact hr.nodup
    · rw [hfirst, ← hbs, ← List.append_assoc]
      exact nodup_tail hr.nodup
    · rw [← hwalk, ← List.cons_append, List.mem_append, List.mem_singleton]
      rintro (hmem | heq)
      · exact hn hmem
      · exact hn (heq ▸ List.mem_cons_self)

/-- **Removing** a member. -/
theorem IsRing.remove (hr : m.IsRing h (l₁ ++ n :: l₂)) : (m.remove n).IsRing h (l₁ ++ l₂) := by
  obtain ⟨as, p, q, bs, has, hbs, -⟩ := walk_cut h l₁ l₂
  have hlast : (q :: bs).dropLast = l₂ := by rw [← hbs, List.dropLast_concat]
  have hfirst : (as ++ [p]).tail = l₁ := by rw [← has, List.tail_cons]
  have hwalk : h :: ((l₁ ++ n :: l₂) ++ [h]) = as ++ p :: n :: q :: bs := by
    rw [List.append_assoc, List.cons_append, hbs, ← List.cons_append, has, List.append_assoc,
      List.singleton_append]
  have hwalk' : h :: ((l₁ ++ l₂) ++ [h]) = as ++ p :: q :: bs := by
    rw [List.append_assoc, hbs, ← List.cons_append, has, List.append_assoc, List.singleton_append]
  constructor
  · have hsub : (h :: (l₁ ++ l₂)).Sublist (h :: (l₁ ++ n :: l₂)) :=
      ((List.sublist_cons_self n l₂).append_left l₁).cons_cons h
    exact hsub.nodup hr.nodup
  · rw [hwalk']
    apply chain_remove (hwalk ▸ hr.linked)
    · rw [hlast, ← List.singleton_append, ← List.append_assoc, ← has]
      exact hr.nodup
    · rw [hfirst, ← hbs, ← List.cons_append, ← List.append_assoc]
      exact nodup_tail hr.nodup

/-- **An insertion** does not touch what is outside of its ring. -/
theorem IsRing.insertAfter_frame (hr : m.IsRing h l) (hp : p ∈ h :: l) (hx : x ∉ h :: l)
    (hn : x ≠ n) :
    (m.insertAfter p n).next x = m.next x ∧ (m.insertAfter p n).prev x = m.prev x :=
  ⟨insertAfter_next (fun heq => hx (heq ▸ hp)) hn,
    insertAfter_prev (fun heq => hx (heq ▸ hr.next_mem hp)) hn⟩

/-- **A removal** does not touch what is outside of its ring. -/
theorem IsRing.remove_frame (hr : m.IsRing h l) (hn : n ∈ l) (hx : x ∉ h :: l) :
    (m.remove n).next x = m.next x ∧ (m.remove n).prev x = m.prev x := by
  have hmem : n ∈ h :: l := List.mem_cons_of_mem h hn
  have hne : x ≠ n := fun heq => hx (heq ▸ hmem)
  exact ⟨remove_next (fun heq => hx (heq ▸ hr.prev_mem hmem)) hne (hr.next_ne hn),
    remove_prev (fun heq => hx (heq ▸ hr.next_mem hmem)) hne⟩

/-- A node put into the ring of a node alone and taken out again leaves no trace. -/
theorem remove_insertAfter (hp : m.Alone p) (hn : m.Alone n) (hne : p ≠ n) :
    (m.insertAfter p n).remove n = m := by
  obtain ⟨hpn, hpp⟩ := hp
  obtain ⟨hnn, hnp⟩ := hn
  have hnext : ((m.insertAfter p n).remove n).next = m.next := by
    funext x
    simp only [Links.remove, Links.insertAfter, Function.update_apply]
    split_ifs <;> simp_all
  have hprev : ((m.insertAfter p n).remove n).prev = m.prev := by
    funext x
    simp only [Links.remove, Links.insertAfter, Function.update_apply]
    split_ifs <;> simp_all
  exact congrArg₂ Links.mk hnext hprev

/-! ## Memories of rings -/

omit [DecidableEq α]

/-- Going on and going back undo each other, so every node lies in a ring. -/
structure Paired (m : Links α) : Prop where
  prev_next : ∀ x, m.prev (m.next x) = x
  next_prev : ∀ x, m.next (m.prev x) = x

theorem Paired.next_ne (hm : m.Paired) (hn : m.Alone n) (hx : x ≠ n) : m.next x ≠ n := by
  intro heq
  have hback := hm.prev_next x
  rw [heq, hn.2] at hback
  exact hx hback.symm

variable [DecidableEq α]

theorem Paired.remove (hm : m.Paired) (n : α) : (m.remove n).Paired := by
  obtain ⟨hpn, hnp⟩ := hm
  constructor <;> intro x <;> simp only [Links.remove, Function.update_apply] <;> grind

theorem Paired.insertAfter (hm : m.Paired) (hn : m.Alone n) (hp : p ≠ n) :
    (m.insertAfter p n).Paired := by
  obtain ⟨hpn, hnp⟩ := hm
  obtain ⟨hnn, hpp⟩ := hn
  constructor <;> intro x <;> simp only [Links.insertAfter, Function.update_apply] <;> grind

/-- A removal does not touch a node that is alone. -/
theorem Alone.remove (hx : m.Alone x) (hm : m.Paired) (n : α) : (m.remove n).Alone x := by
  obtain ⟨hpn, hnp⟩ := hm
  obtain ⟨hnn, hpp⟩ := hx
  constructor <;> simp only [Links.remove, Function.update_apply] <;> grind

/-- Nor does an insertion elsewhere. -/
theorem Alone.insertAfter (hx : m.Alone x) (hm : m.Paired) (hp : x ≠ p) (hn : x ≠ n) :
    (m.insertAfter p n).Alone x := by
  obtain ⟨hpn, hnp⟩ := hm
  obtain ⟨hnn, hpp⟩ := hx
  constructor <;> simp only [Links.insertAfter, Function.update_apply] <;> grind

section Beside

/-! Two nodes that are alone can be linked to each other before or after an edit elsewhere. -/

variable (hm : m.Paired) (hp : m.Alone p) (hn : m.Alone n) (hxp : x ≠ p) (hxn : x ≠ n)

include hm hp hn hxp hxn

theorem remove_insertAfter_comm :
    (m.insertAfter p n).remove x = (m.remove x).insertAfter p n := by
  obtain ⟨hpn, hnp⟩ := hm
  obtain ⟨hpp, hpp'⟩ := hp
  obtain ⟨hnn, hnn'⟩ := hn
  refine congrArg₂ Links.mk ?_ ?_ <;> funext z <;>
    simp only [Links.insertAfter, Links.remove, Function.update_apply] <;> grind

theorem insertAfter_insertAfter_comm (hyp : y ≠ p) (hyn : y ≠ n) :
    (m.insertAfter p n).insertAfter y x = (m.insertAfter y x).insertAfter p n := by
  obtain ⟨hpn, hnp⟩ := hm
  obtain ⟨hpp, hpp'⟩ := hp
  obtain ⟨hnn, hnn'⟩ := hn
  refine congrArg₂ Links.mk ?_ ?_ <;> funext z <;>
    simp only [Links.insertAfter, Function.update_apply] <;> grind

end Beside

end Links

end LowPower
