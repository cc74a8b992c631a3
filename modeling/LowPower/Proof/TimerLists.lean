import LowPower.Lib.Place
import LowPower.Lib.Serial
import LowPower.Spec.Timer

/-!
# The lists behind the links

The links of `timer.c` stand for a list of timers at every level (`Rings`). Removing a timer erases
it from every list (`timerRemove_rings`), the search of `rt_timer_start` stops behind the timers that
are not later (`searchRows_returns`), and the insertion places the timer in the bottom list and in
some of the lists above it (`insertRows_rings`).
-/

namespace LowPower

variable {T : Type} {c : TimerConfig} {m : Links (Node T)} {w : Timers T}
  {lists : ℕ → List T} {t : T}

/-- The nodes of some timers at a level. -/
def rows (r : ℕ) (l : List T) : List (Node T) := l.map (Node.row · r)

@[simp]
theorem mem_rows {r : ℕ} {l : List T} {s : T} {i : ℕ} :
    Node.row s i ∈ rows r l ↔ i = r ∧ s ∈ l := by
  simp only [rows, List.mem_map, Node.row.injEq]
  grind

@[simp]
theorem head_not_mem_rows {r i : ℕ} {l : List T} : Node.head i ∉ rows r l := by simp [rows]

@[simp]
theorem list_not_mem_rows {r : ℕ} {l : List T} : Node.list ∉ rows r l := by simp [rows]

theorem rows_append (r : ℕ) (l l' : List T) : rows r (l ++ l') = rows r l ++ rows r l' :=
  List.map_append

theorem rows_cons (r : ℕ) (s : T) (l : List T) : rows r (s :: l) = .row s r :: rows r l := rfl

/-- The rings of the levels, with every row outside of its ring alone. -/
structure Rings (c : TimerConfig) (m : Links (Node T)) (lists : ℕ → List T) : Prop where
  ring : ∀ r < c.skipListLevel, m.IsRing (.head r) (rows r (lists r))
  alone : ∀ r < c.skipListLevel, ∀ s ∉ lists r, m.Alone (.row s r)
  list : m.Alone .list

/-- The nodes of level `r`. -/
def Node.AtLevel (r : ℕ) (n : Node T) : Prop := n = .head r ∨ ∃ s, n = .row s r

/-- The last node before the timers that are later. -/
def front (r : ℕ) (l : List T) : Node T :=
  (Node.head r :: rows r l).getLast (List.cons_ne_nil _ _)

theorem atLevel_of_mem {r : ℕ} {l : List T} {n : Node T} (h : n ∈ Node.head r :: rows r l) :
    n.AtLevel r := by
  rw [List.mem_cons] at h
  obtain rfl | h := h
  · exact .inl rfl
  · obtain ⟨s, -, rfl⟩ := List.mem_map.mp h
    exact .inr ⟨s, rfl⟩

theorem atLevel_unique {r i : ℕ} {n : Node T} (hr : n.AtLevel r) (hi : n.AtLevel i) : r = i := by
  obtain rfl | ⟨s, rfl⟩ := hr
  · obtain heq | ⟨s, heq⟩ := hi
    · exact Node.head.inj heq
    · cases heq
  · obtain heq | ⟨s', heq⟩ := hi
    · cases heq
    · exact (Node.row.inj heq).2

theorem front_concat (r : ℕ) (l : List T) (s : T) : front r (l ++ [s]) = .row s r := by
  simp [front, rows]

theorem front_mem (r : ℕ) (l : List T) : front r l ∈ Node.head r :: rows r l := List.getLast_mem _

theorem succ_mem {r : ℕ} {l l' : List T} {n : Node T} (h : n ∈ Node.head r :: rows r l)
    (hl : l ⊆ l') : n.succ ∈ Node.head (r + 1) :: rows (r + 1) l' := by
  rw [List.mem_cons] at h ⊢
  obtain rfl | h := h
  · exact .inl rfl
  · obtain ⟨s, hs, rfl⟩ := List.mem_map.mp h
    exact .inr (mem_rows.mpr ⟨rfl, hl hs⟩)

/-- A node of a row is the front of the timers up to it. -/
theorem exists_front {r : ℕ} {l : List T} {n : Node T} (h : n ∈ Node.head r :: rows r l) :
    ∃ l₁ l₂, l = l₁ ++ l₂ ∧ front r l₁ = n := by
  obtain ⟨a, b, hab, hn⟩ := Links.exists_cut h
  obtain ⟨l₁, l₂, hl, rfl, -⟩ := List.map_eq_append_iff.mp hab
  exact ⟨l₁, l₂, hl, hn⟩

theorem nodup_of_ring {r : ℕ} {l : List T} (h : m.IsRing (.head r) (rows r l)) : l.Nodup :=
  List.Nodup.of_map _ (List.nodup_cons.mp h.nodup).2

/-- Only the lists of the levels count. -/
theorem Rings.of_eq {lists' : ℕ → List T} (h : Rings c m lists)
    (heq : ∀ r < c.skipListLevel, lists' r = lists r) : Rings c m lists' :=
  ⟨fun r hr => heq r hr ▸ h.ring r hr, fun r hr s hs => h.alone r hr s (heq r hr ▸ hs), h.list⟩

/-! ## One level -/

/-- **An edit at one level** leaves the other levels as they are. -/
theorem Rings.edit {i : ℕ} {m' : Links (Node T)} {l : List T} (h : Rings c m lists)
    (hring : m'.IsRing (.head i) (rows i l)) (halone : ∀ s ∉ l, m'.Alone (.row s i))
    (hframe : ∀ n : Node T, ¬n.AtLevel i → m'.next n = m.next n ∧ m'.prev n = m.prev n) :
    Rings c m' (Function.update lists i l) := by
  -- a node is of one level only
  have hother : ∀ {r : ℕ} {n : Node T}, r ≠ i → n.AtLevel r →
      m'.next n = m.next n ∧ m'.prev n = m.prev n := fun hri hn =>
    hframe _ fun hi => hri (atLevel_unique hn hi)
  refine ⟨fun r hr => ?_, fun r hr s hs => ?_, ?_⟩
  · by_cases hri : r = i
    · subst hri
      rw [Function.update_self]
      exact hring
    · rw [Function.update_of_ne hri]
      exact (h.ring r hr).congr fun n hn => hother hri (atLevel_of_mem hn)
  · by_cases hri : r = i
    · subst hri
      rw [Function.update_self] at hs
      exact halone s hs
    · rw [Function.update_of_ne hri] at hs
      exact (h.alone r hr s hs).congr (hother hri (.inr ⟨s, rfl⟩))
  · have hlist : ¬(Node.list : Node T).AtLevel i := by
      rintro (heq | ⟨s, heq⟩) <;> cases heq
    exact h.list.congr (hframe .list hlist)

variable [DecidableEq T]

/-- **Removing a row** erases the timer from its level. -/
theorem Rings.remove {i : ℕ} (h : Rings c m lists) (hi : i < c.skipListLevel) (t : T) :
    Rings c (m.remove (.row t i)) (Function.update lists i ((lists i).erase t)) := by
  have hring := h.ring i hi
  by_cases ht : t ∈ lists i
  · obtain ⟨l₁, l₂, hl⟩ := List.append_of_mem ht
    have hnodup := nodup_of_ring hring
    have hrow : Node.row t i ∈ rows i (lists i) := mem_rows.mpr ⟨rfl, ht⟩
    have herase : (lists i).erase t = l₁ ++ l₂ := by
      have hnot : t ∉ l₁ := fun hmem =>
        (List.nodup_append.mp (hl ▸ hnodup)).2.2 t hmem t List.mem_cons_self rfl
      rw [hl, List.erase_append_right _ hnot, List.erase_cons_head]
    have houtside : ∀ n : Node T, n ∉ Node.head i :: rows i (lists i) →
        (m.remove (.row t i)).next n = m.next n ∧ (m.remove (.row t i)).prev n = m.prev n :=
      fun n hn => hring.remove_frame hrow hn
    refine h.edit ?_ (fun s hs => ?_) fun n hn => houtside n fun hmem => hn (atLevel_of_mem hmem)
    · rw [herase, rows_append]
      rw [hl, rows_append, rows_cons] at hring
      exact hring.remove
    · by_cases hst : s = t
      · subst hst
        exact m.remove_removed _
      · have hs' : s ∉ lists i := fun hmem => hs ((List.mem_erase_of_ne hst).mpr hmem)
        exact (h.alone i hi s hs').congr (houtside (.row s i) (by simpa using hs'))
  · -- a row outside of its ring is linked to itself, so nothing is removed
    rw [Links.remove_alone (h.alone i hi t ht), List.erase_of_not_mem ht, Function.update_eq_self]
    exact h

/-- **Inserting a row** behind the timers of `l₁`. -/
theorem Rings.insert {i : ℕ} (h : Rings c m lists) (hi : i < c.skipListLevel) {l₁ l₂ : List T}
    (hl : lists i = l₁ ++ l₂) (ht : t ∉ lists i) :
    Rings c (m.insertAfter (front i l₁) (.row t i)) (Function.update lists i (l₁ ++ t :: l₂)) := by
  have hring := h.ring i hi
  have hnew : Node.row t i ∉ Node.head i :: rows i (lists i) := by simpa using ht
  have hfront : front i l₁ ∈ Node.head i :: rows i (lists i) := by
    rw [hl, rows_append, ← List.cons_append]
    exact List.mem_append_left _ (List.getLast_mem _)
  have houtside : ∀ n : Node T, n ∉ Node.head i :: rows i (lists i) → n ≠ .row t i →
      (m.insertAfter (front i l₁) (.row t i)).next n = m.next n ∧
        (m.insertAfter (front i l₁) (.row t i)).prev n = m.prev n :=
    fun n hn hnt => hring.insertAfter_frame hfront hn hnt
  refine h.edit ?_ (fun s hs => ?_) fun n hn => houtside n (fun hmem => hn (atLevel_of_mem hmem))
    fun heq => hn (.inr ⟨t, heq⟩)
  · rw [hl, rows_append] at hring hnew
    rw [rows_append, rows_cons]
    exact hring.insertAfter hnew
  · simp only [List.mem_append, List.mem_cons, not_or] at hs
    have hs' : s ∉ lists i := by
      rw [hl, List.mem_append, not_or]
      exact ⟨hs.1, hs.2.2⟩
    exact (h.alone i hi s hs').congr
      (houtside (.row s i) (by simpa using hs') (by simpa using hs.2.1))

/-! ## All levels -/

/-- The rows below level `k` are removed. -/
theorem Rings.removeRows (h : Rings c m lists) (t : T) {k : ℕ} (hk : k ≤ c.skipListLevel) :
    Rings c ((List.range k).foldl (fun m i => m.remove (.row t i)) m)
      (fun r => if r < k then (lists r).erase t else lists r) := by
  induction k with
  | zero => simpa using h
  | succ k ih =>
    have hstep := (ih (by omega)).remove (show k < c.skipListLevel by omega) t
    have hlists : Function.update (fun r => if r < k then (lists r).erase t else lists r) k
        ((if k < k then (lists k).erase t else lists k).erase t) =
          fun r => if r < k + 1 then (lists r).erase t else lists r := by
      funext r
      by_cases hr : r = k
      · subst hr
        simp
      · rw [Function.update_of_ne hr]
        exact if_congr (by omega) rfl rfl
    rw [List.range_succ, List.foldl_append]
    exact hlists ▸ hstep

/-- **`_timer_remove`** erases the timer from every level. -/
theorem timerRemove_rings (h : Rings c w.links lists) (t : T) :
    Rings c (w.timerRemove c t).links fun r => (lists r).erase t := by
  have hall := h.removeRows t (Nat.le_refl c.skipListLevel)
  refine ⟨fun r hr => ?_, fun r hr s hs => ?_, hall.list⟩
  · have hring := hall.ring r hr
    rw [if_pos hr] at hring
    exact hring
  · exact hall.alone r hr s (by rwa [if_pos hr])

/-! ## The search -/

/-- The search stops before this timer: its deadline comes after the one given. -/
def Timers.later (w : Timers T) (deadline : U32) (s : T) : Bool :=
  (w.timer s).timeoutTick - deadline ≠ 0 && (w.timer s).timeoutTick - deadline < rtTickMax / 2

/-- **The search in one row** goes on behind the timers that are not later. -/
theorem searchRow_returns (deadline : U32) {r : ℕ} {pre mid post : List T}
    (hring : w.links.IsRing (.head r) (rows r (pre ++ (mid ++ post))))
    (hmid : ∀ s ∈ mid, w.later deadline s = false)
    (hpost : ∀ s ∈ post.head?, w.later deadline s = true) :
    Returns (fun fuel => w.searchRow deadline r fuel (front r pre)) (front r (pre ++ mid)) := by
  induction mid generalizing pre with
  | nil =>
    refine ⟨1, fun fuel hfuel => ?_⟩
    obtain ⟨k, rfl⟩ := Nat.exists_eq_add_of_le' hfuel
    change w.searchRow deadline r (k + 1) (front r pre) = some _
    rw [List.append_nil, Timers.searchRow]
    -- the search stops at the last node, or before a timer that is later
    cases post with
    | nil =>
      rw [List.nil_append, List.append_nil] at hring
      have hlast : front r pre = w.links.prev (.head r) := hring.prev_head.symm
      rw [if_pos hlast]
    | cons x post =>
      have hlater := hpost x rfl
      rw [List.nil_append, rows_append, rows_cons] at hring
      have hnext : w.links.next (front r pre) = .row x r := hring.linked_getLast.1
      have hlast : front r pre ≠ w.links.prev (.head r) := hring.getLast_ne
      rw [Timers.later, Bool.and_eq_true, decide_eq_true_eq, decide_eq_true_eq] at hlater
      rw [if_neg hlast, hnext]
      simp only [if_neg hlater.1, if_pos hlater.2]
  | cons x mid ih =>
    rw [List.forall_mem_cons] at hmid
    obtain ⟨hx, hmid⟩ := hmid
    have hpre : pre ++ (x :: mid ++ post) = (pre ++ [x]) ++ (mid ++ post) := by simp
    have hrest := ih (hpre ▸ hring) hmid
    rw [List.append_assoc, List.singleton_append, front_concat] at hrest
    -- the next timer is not later, by equal deadlines or by the sign of the difference
    rw [List.cons_append, rows_append, rows_cons] at hring
    have hnext : w.links.next (front r pre) = .row x r := hring.linked_getLast.1
    have hlast : front r pre ≠ w.links.prev (.head r) := hring.getLast_ne
    obtain ⟨n, hn⟩ := hrest
    refine ⟨n + 1, fun fuel hfuel => ?_⟩
    obtain ⟨k, rfl⟩ := Nat.exists_eq_add_of_le' (Nat.le_trans (Nat.le_add_left 1 n) hfuel)
    change w.searchRow deadline r (k + 1) (front r pre) = some _
    rw [Timers.searchRow, if_neg hlast, hnext]
    have hgo : w.searchRow deadline r k (.row x r) = some (front r (pre ++ x :: mid)) :=
      hn k (Nat.le_of_succ_le_succ hfuel)
    simp only [hgo]
    rw [Timers.later, Bool.and_eq_false_iff, decide_eq_false_iff_not, decide_eq_false_iff_not,
      not_not] at hx
    split
    · rfl
    · rename_i hne
      rw [if_neg (hx.resolve_left hne)]

/-- The timers of a list that are not later than a deadline. -/
def Timers.notLater (w : Timers T) (deadline : U32) (l : List T) : List T :=
  l.filter fun s => !w.later deadline s

/-- **The search in all rows** finds the front of the timers that are not later in each. -/
theorem searchRows_returns {deadline : U32} (h : Rings c w.links lists)
    (hsub : ∀ r, r + 1 < c.skipListLevel → (lists r).Sublist (lists (r + 1)))
    (hcut : ∀ r < c.skipListLevel,
      w.notLater deadline (lists r) ++ (lists r).filter (w.later deadline) = lists r)
    {k r : ℕ} (hk : r + k ≤ c.skipListLevel) {p : Node T}
    (hp : 0 < k → p ∈ Node.head r :: rows r (w.notLater deadline (lists r))) :
    Returns (fun fuel => w.searchRows deadline fuel k r p)
      ((List.range' r k).map fun i => front i (w.notLater deadline (lists i))) := by
  induction k generalizing r p with
  | zero => exact Returns.of_eq fun _ => rfl
  | succ k ih =>
    -- the row is entered below a timer of the row above, which is not later
    obtain ⟨pre, mid, hmid, rfl⟩ := exists_front (hp (Nat.succ_pos k))
    have hr : r < c.skipListLevel := by omega
    have hring := h.ring r hr
    rw [← hcut r hr, hmid, List.append_assoc] at hring
    have hrow := searchRow_returns deadline hring (fun s hs => ?_) fun s hs => ?_
    · rw [← hmid] at hrow
      have hnext : 0 < k → (front r (w.notLater deadline (lists r))).succ ∈
          Node.head (r + 1) :: rows (r + 1) (w.notLater deadline (lists (r + 1))) := fun hk0 =>
        succ_mem (front_mem r _) ((hsub r (by omega)).filter _).subset
      have hrest := (ih (by omega) hnext).map (front r (w.notLater deadline (lists r)) :: ·)
      rw [List.range'_succ, List.map_cons]
      exact hrow.bind hrest
    · have hs' : s ∈ w.notLater deadline (lists r) := hmid ▸ List.mem_append_right pre hs
      simpa using (List.mem_filter.mp hs').2
    · exact (List.mem_filter.mp (List.mem_of_mem_head? hs)).2

/-! ## The insertion -/

section Insert

variable {deadline : U32} {rowHead : List (Node T)}
  (hhead : ∀ r < c.skipListLevel,
    rowHead.getD r .list = front r (w.notLater deadline (lists r)))
  (hcut : ∀ r < c.skipListLevel,
    w.notLater deadline (lists r) ++ (lists r).filter (w.later deadline) = lists r)
  (ht : ∀ r < c.skipListLevel, t ∉ lists r)

include hhead hcut ht

/-- One row takes the timer. -/
theorem insertRow_rings {lists' : ℕ → List T} {r : ℕ} (h : Rings c m lists')
    (hr : r < c.skipListLevel) (heq : lists' r = lists r) :
    Rings c (m.insertAfter (rowHead.getD r .list) (.row t r))
      (Function.update lists' r (place (w.later deadline) t (lists r))) := by
  rw [hhead r hr]
  exact h.insert hr (heq.trans (hcut r hr).symm) (heq ▸ ht r hr)

/-- **The rows above the bottom one**: from some row on they take the timer. -/
theorem insertRows_rings {lists' : ℕ → List T} {r : ℕ} (tstNr : U32) (h : Rings c m lists')
    (hr : r ≤ c.skipListLevel) (heq : ∀ i < r, lists' i = lists i) :
    ∃ j ≤ r, Rings c (Timers.insertRows c rowHead t r tstNr m)
      (fun i => if j ≤ i ∧ i < r then place (w.later deadline) t (lists i) else lists' i) := by
  induction r generalizing m lists' tstNr with
  | zero => exact ⟨0, Nat.le_refl 0, by simpa [Timers.insertRows] using h⟩
  | succ r ih =>
    rw [Timers.insertRows]
    split
    · -- the rows that are left are decided by the next bits
      have hone := insertRow_rings hhead hcut ht h (show r < c.skipListLevel by omega)
        (heq r (Nat.lt_succ_self r))
      have hbelow : ∀ i < r, Function.update lists' r (place (w.later deadline) t (lists r)) i =
          lists i := by
        intro i hi
        rw [Function.update_of_ne (Nat.ne_of_lt hi)]
        exact heq i (Nat.lt_succ_of_lt hi)
      obtain ⟨j, hj, hrest⟩ := ih _ hone (by omega) hbelow
      refine ⟨j, by omega, hrest.of_eq fun i _ => ?_⟩
      by_cases hir : i = r
      · subst hir
        simp [hj]
      · rw [Function.update_of_ne hir]
        exact if_congr (by omega) rfl rfl
    · exact ⟨r + 1, Nat.le_refl _, h.of_eq fun i _ => if_neg (by omega)⟩

/-- **The insertion**: the bottom row and some of the rows above it take the timer. -/
theorem insertTimer_rings (h : Rings c w.links lists) :
    ∃ j < c.skipListLevel, Rings c (w.insertTimer c rowHead t).links
      (fun i => if j ≤ i then place (w.later deadline) t (lists i) else lists i) := by
  have hpos := c.level_pos
  have hbottom := insertRow_rings hhead hcut ht h
    (show c.skipListLevel - 1 < c.skipListLevel by omega) rfl
  have habove : ∀ i < c.skipListLevel - 1, Function.update lists (c.skipListLevel - 1)
      (place (w.later deadline) t (lists (c.skipListLevel - 1))) i = lists i := fun i hi =>
    Function.update_of_ne (Nat.ne_of_lt hi) _ _
  obtain ⟨j, hj, hall⟩ := insertRows_rings hhead hcut ht (w.randomNr + 1) hbottom
    (by omega) habove
  refine ⟨j, by omega, hall.of_eq fun i hi => ?_⟩
  by_cases hib : i = c.skipListLevel - 1
  · subst hib
    simp [hj]
  · rw [Function.update_of_ne hib]
    exact if_congr (by omega) rfl rfl

end Insert

end LowPower
