import LowPower.Lib.History

/-!
# Changes and their announcements

A history records changes (`made`) and announcements (`told`), each with a value. The changes
are announced when the two sequences of values agree and every announcement comes after its
change (`Announced`). A `Ledger` keeps the account entry by entry:

* `lost`: changes that nobody will announce; `owe` of them are still to be made;
* `phantom`: announcements without a change;
* `due`: the values still to be announced, oldest first.

Where changes are never lost and phantoms never made at the same time, a settled history is
announced exactly when both counts are zero (`Ledger.announced_iff`).
-/

namespace LowPower

variable {α β : Type*} {made told : α → Option β}

/-- Every change is announced once, in order, after it was made. -/
structure Announced (made told : α → Option β) (l : List α) : Prop where
  once : l.filterMap told = l.filterMap made
  after : Justified (fun pre x => ∀ b, told x = some b →
    pre.filterMap told ++ [b] <+: pre.filterMap made) l

/-- The account of a history: its size, and the exact sequences as long as nothing is lost or
made up. -/
structure Ledger (made told : α → Option β) (lost phantom owe : ℕ) (due : List β) (l : List α) :
    Prop where
  size : (l.filterMap made).length + phantom + owe =
    (l.filterMap told).length + due.length + lost
  seq : lost = 0 → phantom = 0 → owe = 0 ∧ l.filterMap made = l.filterMap told ++ due
  after : lost = 0 → phantom = 0 → Justified (fun pre x => ∀ b, told x = some b →
    pre.filterMap told ++ [b] <+: pre.filterMap made) l

namespace Ledger

variable {lost phantom owe : ℕ} {due : List β} {l : List α} {x : α} {b : β}

theorem nil : Ledger made told 0 0 0 [] ([] : List α) :=
  ⟨rfl, fun _ _ => ⟨rfl, rfl⟩, fun _ _ => Justified.nil _⟩

/-- An entry that announces nothing keeps the order of the announcements. -/
theorem after_snoc (h : Ledger made told lost phantom owe due l) (ht : told x = none)
    (hl : lost = 0) (hp : phantom = 0) : Justified (fun pre x => ∀ b, told x = some b →
      pre.filterMap told ++ [b] <+: pre.filterMap made) (l ++ [x]) := by
  refine justified_snoc.2 ⟨h.after hl hp, fun b hb => ?_⟩
  rw [ht] at hb
  exact absurd hb (Option.some_ne_none b).symm

/-- An entry that neither changes nor announces. -/
theorem quiet (h : Ledger made told lost phantom owe due l) (hm : made x = none)
    (ht : told x = none) : Ledger made told lost phantom owe due (l ++ [x]) := by
  refine ⟨?_, ?_, fun hl hp => h.after_snoc ht hl hp⟩
  · rw [filterMap_snoc_none hm, filterMap_snoc_none ht]
    exact h.size
  · rw [filterMap_snoc_none hm, filterMap_snoc_none ht]
    exact h.seq

/-- A change that will be announced. -/
theorem make (h : Ledger made told lost phantom owe due l) (hm : made x = some b)
    (ht : told x = none) : Ledger made told lost phantom owe (due ++ [b]) (l ++ [x]) := by
  refine ⟨?_, ?_, fun hl hp => h.after_snoc ht hl hp⟩
  · have := h.size
    rw [filterMap_snoc_some hm, filterMap_snoc_none ht, List.length_append, List.length_append]
    simp only [List.length_singleton]
    omega
  · intro hl hp
    obtain ⟨ho, hseq⟩ := h.seq hl hp
    refine ⟨ho, ?_⟩
    rw [filterMap_snoc_some hm, filterMap_snoc_none ht, hseq, List.append_assoc]

/-- The announcement of the oldest change still due. -/
theorem tell (h : Ledger made told lost phantom 0 (b :: due) l) (hm : made x = none)
    (ht : told x = some b) : Ledger made told lost phantom 0 due (l ++ [x]) := by
  refine ⟨?_, ?_, ?_⟩
  · have := h.size
    rw [filterMap_snoc_none hm, filterMap_snoc_some ht, List.length_append]
    simp only [List.length_cons, List.length_nil] at this ⊢
    omega
  · intro hl hp
    refine ⟨rfl, ?_⟩
    rw [filterMap_snoc_none hm, filterMap_snoc_some ht, (h.seq hl hp).2, List.append_assoc]
    rfl
  · intro hl hp
    refine justified_snoc.2 ⟨h.after hl hp, fun b' hb => ?_⟩
    rw [ht] at hb
    cases hb
    rw [(h.seq hl hp).2]
    exact ⟨due, by simp⟩

/-- The start of a change that nobody will announce. -/
theorem expect (h : Ledger made told lost phantom 0 due l) (hm : made x = none)
    (ht : told x = none) : Ledger made told (lost + 1) phantom 1 due (l ++ [x]) := by
  refine ⟨?_, fun hl => absurd hl (by omega), fun hl => absurd hl (by omega)⟩
  have := h.size
  rw [filterMap_snoc_none hm, filterMap_snoc_none ht]
  omega

/-- The change that nobody will announce. -/
theorem lose (h : Ledger made told lost phantom 1 due l) (hm : made x = some b)
    (ht : told x = none) : Ledger made told lost phantom 0 due (l ++ [x]) := by
  have hno : lost = 0 → phantom = 0 → False := fun hl hp => absurd (h.seq hl hp).1 Nat.one_ne_zero
  refine ⟨?_, fun hl hp => (hno hl hp).elim, fun hl hp => (hno hl hp).elim⟩
  have := h.size
  rw [filterMap_snoc_some hm, filterMap_snoc_none ht, List.length_append]
  simp only [List.length_singleton]
  omega

/-- The start of an announcement without a change. -/
theorem pretend (h : Ledger made told lost phantom owe due l) (b : β) (hm : made x = none)
    (ht : told x = none) : Ledger made told lost (phantom + 1) owe (due ++ [b]) (l ++ [x]) := by
  refine ⟨?_, fun _ hp => absurd hp (by omega), fun _ hp => absurd hp (by omega)⟩
  have := h.size
  rw [filterMap_snoc_none hm, filterMap_snoc_none ht, List.length_append]
  simp only [List.length_singleton]
  omega

/-- **A settled history is announced exactly when nothing was lost and nothing made up.** -/
theorem announced_iff (h : Ledger made told lost phantom 0 [] l) (hz : lost = 0 ∨ phantom = 0) :
    Announced made told l ↔ lost = 0 ∧ phantom = 0 := by
  have hsize := h.size
  simp only [List.length_nil] at hsize
  constructor
  · intro ha
    have hlen := congrArg List.length ha.once
    omega
  · rintro ⟨hl, hp⟩
    refine ⟨?_, h.after hl hp⟩
    have := (h.seq hl hp).2
    rw [List.append_nil] at this
    exact this.symm

end Ledger

end LowPower
