import LowPower.Proof.Timer
import LowPower.Spec.TimerCalls

/-!
# Calls from a timer callback

While a callback runs, the timer it belongs to is on the temporary list of `rt_timer_check` (`pend`).
A call on another timer does the same with and without it (`exec_pend`), and a call on the timer
itself takes it off the list first or changes no link (`exec_pend_self`). So what a callback does is
what its calls do to the timers without the temporary list (`Calls.unpend`).
-/

namespace LowPower

variable {T : Type} {c : TimerConfig} {w w' w'' : Timers T} {m : Links (Node T)}
  {lists : ℕ → List T} {t s : T} {span : ℕ}

/-- No row of the timer is in a list. -/
def Off (c : TimerConfig) (w : Timers T) (t : T) : Prop :=
  ∀ r < c.skipListLevel, w.links.Alone (.row t r)

/-- Every node lies in a ring, the temporary list is empty, and objects that are not in use are in no
list. -/
structure Sound (c : TimerConfig) (w : Timers T) : Prop where
  paired : w.links.Paired
  list : w.links.Alone .list
  unused : ∀ s, (w.timer s).type = 0 → Off c w s

/-- A timer whose callback runs: it is in no list but the temporary one. -/
structure Pending (c : TimerConfig) (span : ℕ) (w : Timers T) (t : T) : Prop where
  off : Off c w t
  type : (w.timer t).rtObjectGetType = rtObjectClassTimer
  time_pos : 1 ≤ (w.timer t).initTick.toNat
  time_le : (w.timer t).initTick.toNat ≤ span

theorem Pending.type_ne_zero (h : Pending c span w t) : (w.timer t).type ≠ 0 := by
  intro hzero
  have htype := h.type
  rw [RtTimer.rtObjectGetType, hzero] at htype
  exact absurd htype (by decide)

/-- What a call leaves as it is. -/
structure Framed (c : TimerConfig) (w w' : Timers T) (t : T) : Prop where
  rtTick : w'.rtTick = w.rtTick
  called : w'.called = w.called
  timer : ∀ s ≠ t, w'.timer s = w.timer s
  off : ∀ s ≠ t, Off c w s → Off c w' s

theorem Pending.framed (h : Pending c span w t) (hframed : Framed c w w' s) (hts : t ≠ s) :
    Pending c span w' t := by
  have htimer := hframed.timer t hts
  exact ⟨hframed.off t hts h.off, htimer ▸ h.type, htimer ▸ h.time_pos, htimer ▸ h.time_le⟩

/-- A node the search can reach: it belongs neither to the temporary list nor to the timer. -/
def Apart (c : TimerConfig) (t : T) (n : Node T) : Prop :=
  n ≠ .list ∧ ∀ r < c.skipListLevel, n ≠ .row t r

theorem Apart.head (r : ℕ) : Apart c t (.head r) := ⟨nofun, fun _ _ => nofun⟩

theorem Apart.row (hs : s ≠ t) (r : ℕ) : Apart c t (.row s r) :=
  ⟨nofun, fun _ _ heq => hs (Node.row.inj heq).1⟩

theorem Apart.succ {n : Node T} (hn : Apart c t n) : Apart c t n.succ := by
  cases n with
  | head r => exact .head (r + 1)
  | list => exact absurd rfl hn.1
  | row s r =>
    refine ⟨nofun, fun i hi heq => ?_⟩
    obtain ⟨rfl, rfl⟩ := Node.row.inj heq
    exact hn.2 r (by omega) rfl

theorem Apart.ne_bottom {n : Node T} (hn : Apart c t n) :
    n ≠ .row t (c.skipListLevel - 1) := hn.2 _ c.bottom_lt

theorem Apart.next {n : Node T} (hn : Apart c t n) (hm : w.links.Paired)
    (hlist : w.links.Alone .list) (hoff : Off c w t) : Apart c t (w.links.next n) :=
  ⟨hm.next_ne hlist hn.1, fun r hr => hm.next_ne (hoff r hr) (hn.2 r hr)⟩

theorem getD_mem {rowHead : List (Node T)} (hlen : rowHead.length = c.skipListLevel) {i : ℕ}
    (hi : i < c.skipListLevel) : rowHead.getD i .list ∈ rowHead := by
  rw [List.getD_eq_getElem?_getD, List.getElem?_eq_getElem (hlen ▸ hi), Option.getD_some]
  exact List.getElem_mem _

variable [DecidableEq T]

/-- The timer is on the temporary list. -/
def Timers.pend (c : TimerConfig) (t : T) (w : Timers T) : Timers T :=
  w.setLinks (·.insertAfter .list (.row t (c.skipListLevel - 1)))

/-! ## Removing rows -/

section Rows

variable {k : ℕ}

/-- The loop of `_timer_remove`. -/
def removeRows (t : T) (k : ℕ) (m : Links (Node T)) : Links (Node T) :=
  (List.range k).foldl (fun m i => m.remove (.row t i)) m

theorem removeRows_succ (t : T) (k : ℕ) (m : Links (Node T)) :
    removeRows t (k + 1) m = (removeRows t k m).remove (.row t k) := by
  rw [removeRows, List.range_succ, List.foldl_append]
  rfl

theorem removeRows_paired (hm : m.Paired) (t : T) (k : ℕ) : (removeRows t k m).Paired := by
  induction k with
  | zero => exact hm
  | succ k ih =>
    rw [removeRows_succ]
    exact ih.remove _

theorem removeRows_alone {n : Node T} (hm : m.Paired) (hn : m.Alone n) (t : T) (k : ℕ) :
    (removeRows t k m).Alone n := by
  induction k with
  | zero => exact hn
  | succ k ih =>
    rw [removeRows_succ]
    exact ih.remove (removeRows_paired hm t k) _

/-- The rows that are removed are alone. -/
theorem removeRows_removed (hm : m.Paired) (t : T) {i : ℕ} (hi : i < k) :
    (removeRows t k m).Alone (.row t i) := by
  induction k with
  | zero => exact absurd hi (Nat.not_lt_zero i)
  | succ k ih =>
    rw [removeRows_succ]
    rcases Nat.lt_or_ge i k with h | h
    · exact (ih h).remove (removeRows_paired hm t k) _
    · obtain rfl : i = k := by omega
      exact Links.remove_removed _ _

/-- Rows that are alone are removed without effect. -/
theorem removeRows_off (h : ∀ i < k, m.Alone (.row t i)) : removeRows t k m = m := by
  induction k with
  | zero => rfl
  | succ k ih =>
    have hrest := ih fun i hi => h i (by omega)
    rw [removeRows_succ, hrest, Links.remove_alone (h k (Nat.lt_succ_self k))]

theorem removeRows_insertAfter {p n : Node T} (hm : m.Paired) (hp : m.Alone p) (hn : m.Alone n)
    (hrow : ∀ i < k, Node.row s i ≠ p ∧ Node.row s i ≠ n) :
    removeRows s k (m.insertAfter p n) = (removeRows s k m).insertAfter p n := by
  induction k with
  | zero => rfl
  | succ k ih =>
    obtain ⟨hkp, hkn⟩ := hrow k (Nat.lt_succ_self k)
    rw [removeRows_succ, removeRows_succ, ih fun i hi => hrow i (by omega)]
    exact Links.remove_insertAfter_comm (removeRows_paired hm s k) (removeRows_alone hm hp s k)
      (removeRows_alone hm hn s k) hkp hkn

end Rows

theorem timerRemove_off (h : Off c w t) : w.timerRemove c t = w :=
  congrArg (fun m => { w with links := m }) (removeRows_off h)

theorem timerRemove_removed (hm : w.links.Paired) (t : T) : Off c (w.timerRemove c t) t :=
  fun _ hr => removeRows_removed hm t hr

/-! ## The search beside the temporary list -/

section Pend

variable (hm : w.links.Paired) (hlist : w.links.Alone .list) (hoff : Off c w t)

@[simp]
theorem pend_timer (t : T) (w : Timers T) : (w.pend c t).timer = w.timer := rfl

theorem pend_next {n : Node T} (hn : Apart c t n) : (w.pend c t).links.next n = w.links.next n :=
  Links.insertAfter_next hn.1 hn.ne_bottom

include hlist in
theorem pend_prev {n : Node T} (hn : Apart c t n) : (w.pend c t).links.prev n = w.links.prev n :=
  Links.insertAfter_prev (hlist.1.symm ▸ hn.1) hn.ne_bottom

include hm hlist hoff

theorem searchRow_pend (deadline : U32) (r fuel : ℕ) {p : Node T} (hp : Apart c t p) :
    (w.pend c t).searchRow deadline r fuel p = w.searchRow deadline r fuel p ∧
      ∀ q ∈ w.searchRow deadline r fuel p, Apart c t q := by
  induction fuel generalizing p with
  | zero => exact ⟨rfl, fun q hq => absurd hq (Option.not_mem_none q)⟩
  | succ fuel ih =>
    have hnext := pend_next (w := w) hp
    have hprev := pend_prev hlist (Apart.head (c := c) (t := t) r)
    obtain ⟨heq, hapart⟩ := ih (hp.next hm hlist hoff)
    rw [Timers.searchRow, Timers.searchRow, hnext, hprev, pend_timer, heq]
    split
    · exact ⟨rfl, fun q hq => Option.some.inj hq ▸ hp⟩
    · split
      · split_ifs
        · exact ⟨rfl, hapart⟩
        · exact ⟨rfl, fun q hq => Option.some.inj hq ▸ hp⟩
        · exact ⟨rfl, hapart⟩
      · exact ⟨rfl, fun q hq => absurd hq (Option.not_mem_none q)⟩

theorem searchRows_pend (deadline : U32) (fuel : ℕ) {k r : ℕ} {p : Node T} (hp : Apart c t p) :
    (w.pend c t).searchRows deadline fuel k r p = w.searchRows deadline fuel k r p ∧
      ∀ l ∈ w.searchRows deadline fuel k r p, l.length = k ∧ ∀ q ∈ l, Apart c t q := by
  induction k generalizing r p with
  | zero =>
    refine ⟨rfl, fun l hl => ?_⟩
    obtain rfl := Option.some.inj hl
    exact ⟨rfl, nofun⟩
  | succ k ih =>
    obtain ⟨heq, hapart⟩ := searchRow_pend hm hlist hoff deadline r fuel hp
    rw [Timers.searchRows, Timers.searchRows, heq]
    cases hq : w.searchRow deadline r fuel p with
    | none => exact ⟨rfl, nofun⟩
    | some q =>
      have hqa := hapart q hq
      obtain ⟨hrest, hrows⟩ := ih (r := r + 1) hqa.succ
      rw [Option.bind_some, Option.bind_some, hrest]
      refine ⟨rfl, fun l hl => ?_⟩
      obtain ⟨l', hl', rfl⟩ := Option.map_eq_some_iff.mp hl
      obtain ⟨hlen, hmem⟩ := hrows l' hl'
      exact ⟨congrArg (· + 1) hlen, List.forall_mem_cons.mpr ⟨hqa, hmem⟩⟩

end Pend

/-! ## The insertion beside the temporary list -/

section Insert

variable {rowHead : List (Node T)} {r : ℕ}

/-- The insertion keeps the links paired, and nodes alone that are not in its way. -/
theorem insertRows_sound (hm : m.Paired) (hs : ∀ i < r, m.Alone (.row s i))
    (hhead : ∀ i < r, ∀ j < r, rowHead.getD i .list ≠ .row s j) (tstNr : U32) :
    (Timers.insertRows c rowHead s r tstNr m).Paired ∧
      ∀ n, m.Alone n → (∀ i < r, n ≠ rowHead.getD i .list ∧ n ≠ .row s i) →
        (Timers.insertRows c rowHead s r tstNr m).Alone n := by
  induction r generalizing m tstNr with
  | zero => exact ⟨hm, fun n hn _ => hn⟩
  | succ r ih =>
    rw [Timers.insertRows]
    split
    · have hrow := hs r (Nat.lt_succ_self r)
      have hfirst := hhead r (Nat.lt_succ_self r) r (Nat.lt_succ_self r)
      have hstep := hm.insertAfter hrow hfirst
      have hbelow : ∀ i < r, (m.insertAfter (rowHead.getD r .list) (.row s r)).Alone (.row s i) := by
        intro i hi
        refine (hs i (by omega)).insertAfter hm
          (hhead r (Nat.lt_succ_self r) i (by omega)).symm fun heq => ?_
        exact absurd (Node.row.inj heq).2 (by omega)
      obtain ⟨hpaired, halone⟩ := ih hstep hbelow
        (fun i hi j hj => hhead i (by omega) j (by omega)) _
      refine ⟨hpaired, fun n hn hne => halone n ?_ fun i hi => hne i (by omega)⟩
      obtain ⟨hnp, hns⟩ := hne r (Nat.lt_succ_self r)
      exact hn.insertAfter hm hnp hns
    · exact ⟨hm, fun n hn _ => hn⟩

theorem insertRows_pend {p n : Node T} (hm : m.Paired) (hp : m.Alone p) (hn : m.Alone n)
    (hs : ∀ i < r, m.Alone (.row s i))
    (hhead : ∀ i < r, ∀ j < r, rowHead.getD i .list ≠ .row s j)
    (hhp : ∀ i < r, rowHead.getD i .list ≠ p ∧ rowHead.getD i .list ≠ n)
    (hrow : ∀ i < r, Node.row s i ≠ p ∧ Node.row s i ≠ n) (tstNr : U32) :
    Timers.insertRows c rowHead s r tstNr (m.insertAfter p n) =
      (Timers.insertRows c rowHead s r tstNr m).insertAfter p n := by
  induction r generalizing m tstNr with
  | zero => rfl
  | succ r ih =>
    have hlt := Nat.lt_succ_self r
    rw [Timers.insertRows, Timers.insertRows]
    split
    · obtain ⟨hrp, hrn⟩ := hrow r hlt
      obtain ⟨hhr, hhn⟩ := hhp r hlt
      rw [Links.insertAfter_insertAfter_comm hm hp hn hrp hrn hhr hhn]
      refine ih (hm.insertAfter (hs r hlt) (hhead r hlt r hlt)) (hp.insertAfter hm hhr.symm hrp.symm)
        (hn.insertAfter hm hhn.symm hrn.symm) (fun i hi => ?_)
        (fun i hi j hj => hhead i (by omega) j (by omega)) (fun i hi => hhp i (by omega))
        (fun i hi => hrow i (by omega)) _
      refine (hs i (by omega)).insertAfter hm (hhead r hlt i (by omega)).symm fun heq => ?_
      exact absurd (Node.row.inj heq).2 (by omega)
    · rfl

end Insert

section Start

variable {rowHead : List (Node T)} (hm : w.links.Paired)

include hm

theorem insertTimer_sound (hs : Off c w s) (hlen : rowHead.length = c.skipListLevel)
    (hapart : ∀ q ∈ rowHead, Apart c s q) :
    (w.insertTimer c rowHead s).links.Paired ∧
      ∀ n, w.links.Alone n → n ∉ rowHead → (∀ i < c.skipListLevel, n ≠ .row s i) →
        (w.insertTimer c rowHead s).links.Alone n := by
  have hbottom := c.bottom_lt
  have hhead : ∀ i < c.skipListLevel, ∀ j < c.skipListLevel,
      rowHead.getD i .list ≠ .row s j := fun i hi j hj => (hapart _ (getD_mem hlen hi)).2 j hj
  have hrow := hs _ hbottom
  have hstep := hm.insertAfter hrow (hhead _ hbottom _ hbottom)
  have hbelow : ∀ i < c.skipListLevel - 1, (w.links.insertAfter
      (rowHead.getD (c.skipListLevel - 1) .list) (.row s (c.skipListLevel - 1))).Alone
        (.row s i) := by
    intro i hi
    refine (hs i (by omega)).insertAfter hm (hhead _ hbottom i (by omega)).symm fun heq => ?_
    exact absurd (Node.row.inj heq).2 (by omega)
  obtain ⟨hpaired, halone⟩ := insertRows_sound (c := c) hstep hbelow
    (fun i hi j hj => hhead i (by omega) j (by omega)) (w.randomNr + 1)
  refine ⟨hpaired, fun n hn hnot hns => halone n ?_ fun i hi => ⟨?_, hns i (by omega)⟩⟩
  · exact hn.insertAfter hm (fun heq => hnot (heq ▸ getD_mem hlen hbottom)) (hns _ hbottom)
  · exact fun heq => hnot (heq ▸ getD_mem hlen (by omega))

theorem insertTimer_pend (hlist : w.links.Alone .list) (ht : Off c w t) (hs : Off c w s)
    (hst : s ≠ t) (hlen : rowHead.length = c.skipListLevel)
    (hapart : ∀ q ∈ rowHead, Apart c s q ∧ Apart c t q) :
    (w.pend c t).insertTimer c rowHead s = (w.insertTimer c rowHead s).pend c t := by
  have hbottom := c.bottom_lt
  have hhead : ∀ i < c.skipListLevel, ∀ j < c.skipListLevel,
      rowHead.getD i .list ≠ .row s j := fun i hi j hj => (hapart _ (getD_mem hlen hi)).1.2 j hj
  have hbeside : ∀ i < c.skipListLevel, rowHead.getD i .list ≠ .list ∧
      rowHead.getD i .list ≠ .row t (c.skipListLevel - 1) := fun i hi =>
    ⟨(hapart _ (getD_mem hlen hi)).2.1, (hapart _ (getD_mem hlen hi)).2.2 _ hbottom⟩
  have hrow : ∀ i, Node.row s i ≠ .list ∧ Node.row s i ≠ .row t (c.skipListLevel - 1) := fun i =>
    ⟨nofun, fun heq => hst (Node.row.inj heq).1⟩
  have hstep := hm.insertAfter (hs _ hbottom) (hhead _ hbottom _ hbottom)
  refine congrArg (fun m => { w with links := m, randomNr := w.randomNr + 1 }) ?_
  change Timers.insertRows c rowHead s _ _ ((w.links.insertAfter .list _).insertAfter _ _) = _
  rw [Links.insertAfter_insertAfter_comm hm hlist (ht _ hbottom) (hrow _).1 (hrow _).2
    (hbeside _ hbottom).1 (hbeside _ hbottom).2]
  refine insertRows_pend hstep (hlist.insertAfter hm (hbeside _ hbottom).1.symm nofun)
    ((ht _ hbottom).insertAfter hm (hbeside _ hbottom).2.symm (hrow _).2.symm) (fun i hi => ?_)
    (fun i hi j hj => hhead i (by omega) j (by omega)) (fun i hi => hbeside i (by omega))
    (fun i _ => hrow i) _
  refine (hs i (by omega)).insertAfter hm (hhead _ hbottom i (by omega)).symm fun heq => ?_
  exact absurd (Node.row.inj heq).2 (by omega)

/-- A start leaves the links paired, the temporary list empty and the other timers off the lists that
are off. -/
theorem rtTimerStart_sound (hlist : w.links.Alone .list) {fuel : ℕ}
    (h : w.rtTimerStart c s fuel = some w') :
    w'.links.Paired ∧ w'.links.Alone .list ∧ (∀ u ≠ s, Off c w u → Off c w' u) ∧
      Started w w' s := by
  by_cases hstart : w.Startable s
  · rw [rtTimerStart_eq hstart] at h
    obtain ⟨rowHead, hsearch, rfl⟩ := Option.map_eq_some_iff.mp h
    have hm' : (w.prepared c s).links.Paired := removeRows_paired hm s _
    have hlist' : (w.prepared c s).links.Alone .list := removeRows_alone hm hlist s _
    have hs' : Off c (w.prepared c s) s := fun r hr => removeRows_removed hm s hr
    have hrows : ∀ u, Off c (w.prepared c s) u → ∀ q ∈ rowHead, Apart c u q := fun u hu =>
      ((searchRows_pend hm' hlist' hu _ fuel (.head 0)).2 rowHead hsearch).2
    have hlen := ((searchRows_pend hm' hlist' hs' _ fuel (.head 0)).2 rowHead hsearch).1
    obtain ⟨hpaired, halone⟩ := insertTimer_sound hm' hs' hlen (hrows s hs')
    refine ⟨hpaired, halone _ hlist' (fun hmem => (hrows s hs' _ hmem).1 rfl) fun i _ => nofun,
      fun u hus hu r hr => ?_, insert_started rowHead⟩
    have hu' : Off c (w.prepared c s) u := fun i hi => removeRows_alone hm (hu i hi) s _
    exact halone _ (hu' r hr) (fun hmem => (hrows u hu' _ hmem).2 r hr rfl)
      fun i _ heq => hus (Node.row.inj heq).1
  · rw [rtTimerStart_none hstart] at h
    cases h

omit hm in
theorem rtTimerStart_type {fuel : ℕ} (h : w.rtTimerStart c s fuel = some w') : w.Startable s := by
  by_contra hnot
  rw [rtTimerStart_none hnot] at h
  cases h

/-- **A start beside the temporary list.** -/
theorem rtTimerStart_pend (hlist : w.links.Alone .list) (ht : Off c w t) (hst : s ≠ t) (fuel : ℕ) :
    (w.pend c t).rtTimerStart c s fuel = (w.rtTimerStart c s fuel).map (Timers.pend c t) := by
  by_cases hstart : w.Startable s
  · have hstart' : (w.pend c t).Startable s := ⟨hstart.type, hstart.initTick⟩
    have hrow : ∀ i < c.skipListLevel, Node.row s i ≠ .list ∧
        Node.row s i ≠ .row t (c.skipListLevel - 1) := fun i _ =>
      ⟨nofun, fun heq => hst (Node.row.inj heq).1⟩
    have hprepared : (w.pend c t).prepared c s = (w.prepared c s).pend c t :=
      congrArg (fun m => { w.prepared c s with links := m })
        (removeRows_insertAfter hm hlist (ht _ c.bottom_lt) hrow)
    have hm' : (w.prepared c s).links.Paired := removeRows_paired hm s _
    have hlist' : (w.prepared c s).links.Alone .list := removeRows_alone hm hlist s _
    have hs' : Off c (w.prepared c s) s := fun r hr => removeRows_removed hm s hr
    have ht' : Off c (w.prepared c s) t := fun r hr => removeRows_alone hm (ht r hr) s _
    obtain ⟨hsearch, hrows⟩ := searchRows_pend hm' hlist' ht' (w.newDeadline s) fuel
      (k := c.skipListLevel) (r := 0) (.head 0)
    have hself := (searchRows_pend hm' hlist' hs' (w.newDeadline s) fuel
      (k := c.skipListLevel) (r := 0) (.head 0)).2
    have hdeadline : (w.pend c t).newDeadline s = w.newDeadline s := rfl
    rw [rtTimerStart_eq hstart', rtTimerStart_eq hstart, hprepared, hdeadline, hsearch,
      Option.map_map]
    cases hfound : (w.prepared c s).searchRows (w.newDeadline s) fuel c.skipListLevel 0 (.head 0) with
    | none => rfl
    | some rowHead =>
      obtain ⟨hlen, hapart⟩ := hrows rowHead hfound
      have hboth : ∀ q ∈ rowHead, Apart c s q ∧ Apart c t q := fun q hq =>
        ⟨(hself rowHead hfound).2 q hq, hapart q hq⟩
      rw [Option.map_some, Option.map_some,
        insertTimer_pend hm' hlist' ht' hs' hst hlen hboth]
      rfl
  · have hstart' : ¬(w.pend c t).Startable s := fun h => hstart ⟨h.type, h.initTick⟩
    rw [rtTimerStart_none hstart', rtTimerStart_none hstart]
    rfl

end Start

/-! ## The other calls -/

/-- Initialising an object that is in no list changes no link. -/
theorem timerInit_links (h : Off c w t) (type : U8) (time : U32) (flag : U8) :
    (w.timerInit c t type time flag).links = w.links := by
  have hrows : ∀ k ≤ c.skipListLevel,
      (List.range k).foldl (fun m i => m.init (.row t i)) w.links = w.links := by
    intro k hk
    induction k with
    | zero => rfl
    | succ k ih =>
      rw [List.range_succ, List.foldl_append, ih (by omega)]
      exact Links.init_eq (h k (by omega))
  exact hrows _ (Nat.le_refl _)

theorem timerInit_eq (h : Off c w t) (type : U8) (time : U32) (flag : U8) :
    w.timerInit c t type time flag =
      w.setTimer t fun _ => RtTimer.timerInit type time (flag.getLsbD 1) :=
  congrArg (fun m => { w.setTimer t fun _ => RtTimer.timerInit type time (flag.getLsbD 1) with
    links := m }) (timerInit_links h type time flag)

theorem rtTimerDelete_eq (h : w.rtTimerDelete c t = some w') :
    w' = (w.removed c t).rtObjectDetach t := by
  unfold Timers.rtTimerDelete at h
  split at h
  · cases h
  · split at h
    · cases h
    · exact (Option.some.inj h).symm

/-- `rt_timer_control` writes the time and the kind of the timer only. -/
theorem rtTimerControl_cases {cmd : CInt} {arg : U32} {r : U32}
    (h : w.rtTimerControl t cmd arg = some (r, w')) :
    w' = w ∨ (cmd = rtTimerCtrlSetTime ∧ w' = w.setTimer t fun timer => { timer with initTick := arg }) ∨
      ∃ periodic, w' = w.setTimer t fun timer => { timer with periodic := periodic } := by
  unfold Timers.rtTimerControl at h
  split_ifs at h with htype hget hset hone hper hstate hactivated <;>
    obtain ⟨-, rfl⟩ := Prod.mk.inj (Option.some.inj h)
  · exact .inl rfl
  · exact .inr (.inl ⟨hset, rfl⟩)
  · exact .inr (.inr ⟨false, rfl⟩)
  · exact .inr (.inr ⟨true, rfl⟩)
  · exact .inl rfl
  · exact .inl rfl
  · exact .inl rfl

theorem setTimer_framed (t : T) (f : RtTimer → RtTimer) (w : Timers T) :
    Framed c w (w.setTimer t f) t :=
  ⟨rfl, rfl, fun _ hs => setTimer_of_ne hs f w, fun _ _ h => h⟩

/-- A change of one timer that keeps it in use or out of the lists. -/
theorem Sound.setTimer (h : Sound c w) (f : RtTimer → RtTimer)
    (ht : (f (w.timer t)).type = 0 → Off c w t) : Sound c (w.setTimer t f) := by
  refine ⟨h.paired, h.list, fun s hs => ?_⟩
  by_cases hst : s = t
  · subst hst
    rw [setTimer_self] at hs
    exact ht hs
  · rw [setTimer_of_ne hst] at hs
    exact h.unused s hs

theorem Sound.timerRemove (h : Sound c w) (t : T) :
    Sound c (w.timerRemove c t) ∧ Framed c w (w.timerRemove c t) t ∧ Off c (w.timerRemove c t) t := by
  have hoff : ∀ s, Off c w s → Off c (w.timerRemove c t) s := fun s hs r hr =>
    removeRows_alone h.paired (hs r hr) t _
  exact ⟨⟨removeRows_paired h.paired t _, removeRows_alone h.paired h.list t _,
    fun s hs => hoff s (h.unused s hs)⟩, ⟨rfl, rfl, fun _ _ => rfl, fun s _ => hoff s⟩,
    timerRemove_removed h.paired t⟩

theorem Sound.removed (h : Sound c w) (t : T) :
    Sound c (w.removed c t) ∧ Framed c w (w.removed c t) t ∧ Off c (w.removed c t) t := by
  obtain ⟨hsound, hframed, hoff⟩ := h.timerRemove t
  refine ⟨hsound.setTimer (fun timer => { timer with activated := false }) fun _ => hoff,
    ⟨rfl, rfl, fun s hs => ?_, hframed.off⟩, hoff⟩
  rw [Timers.removed, Timers.setActivated, setTimer_of_ne hs, timerRemove_timer]

/-- **Every call** keeps the links sound and touches no other timer. -/
theorem Sound.exec {call : TimerCall T} {fuel : ℕ} (h : Sound c w)
    (hexec : call.exec c fuel w = some w') : Sound c w' ∧ Framed c w w' call.timer := by
  have hinit : ∀ t type time flag, (w.timer t).type = 0 → type ≠ 0 →
      Sound c (w.timerInit c t type time flag) ∧ Framed c w (w.timerInit c t type time flag) t := by
    intro t type time flag ht htype
    rw [timerInit_eq (h.unused t ht)]
    exact ⟨h.setTimer _ fun hzero => absurd hzero htype, setTimer_framed t _ w⟩
  have hdetach : ∀ t, Sound c ((w.removed c t).rtObjectDetach t) ∧
      Framed c w ((w.removed c t).rtObjectDetach t) t := by
    intro t
    obtain ⟨hsound, hframed, hoff⟩ := h.removed t
    exact ⟨hsound.setTimer _ fun _ => hoff, hframed.rtTick, hframed.called,
      fun s hs => (setTimer_of_ne hs _ _).trans (hframed.timer s hs), hframed.off⟩
  cases call with
  | init t time flag =>
    obtain ⟨htype, hw⟩ := Option.ite_none_left_eq_some.mp hexec
    obtain rfl := Option.some.inj hw
    exact hinit t _ time flag (not_not.mp htype) (by decide)
  | create t time flag =>
    obtain ⟨htype, hw⟩ := Option.ite_none_left_eq_some.mp hexec
    obtain rfl := Option.some.inj hw
    exact hinit t _ time flag (not_not.mp htype) (by decide)
  | start t =>
    obtain ⟨hpaired, hlist, hoff, hstarted⟩ := rtTimerStart_sound h.paired h.list hexec
    have htimer : ∀ s ≠ t, w'.timer s = w.timer s := fun s hs => by
      rw [hstarted.timer, Function.update_of_ne hs]
    refine ⟨⟨hpaired, hlist, fun s hs => ?_⟩, hstarted.rtTick, hstarted.called, htimer, hoff⟩
    by_cases hst : s = t
    · -- only a timer object is started
      subst hst
      have htype := (rtTimerStart_type hexec).type
      rw [hstarted.timer, Function.update_self] at hs
      simp only at hs
      rw [RtTimer.rtObjectGetType, hs] at htype
      exact absurd htype (by decide)
    · rw [htimer s hst] at hs
      exact hoff s hst (h.unused s hs)
  | stop t =>
    obtain ⟨⟨r, w₁⟩, hr, rfl⟩ := Option.map_eq_some_iff.mp hexec
    obtain rfl | rfl := rtTimerStop_cases hr
    · exact ⟨h, rfl, rfl, fun _ _ => rfl, fun _ _ hs => hs⟩
    · obtain ⟨hsound, hframed, -⟩ := h.removed t
      exact ⟨hsound, hframed⟩
  | detach t =>
    obtain rfl := rtTimerDetach_eq hexec
    exact hdetach t
  | delete t =>
    obtain rfl := rtTimerDelete_eq hexec
    exact hdetach t
  | control t cmd arg =>
    obtain ⟨⟨r, w₁⟩, hr, rfl⟩ := Option.map_eq_some_iff.mp hexec
    obtain rfl | ⟨-, rfl⟩ | ⟨periodic, rfl⟩ := rtTimerControl_cases hr
    · exact ⟨h, rfl, rfl, fun _ _ => rfl, fun _ _ hs => hs⟩
    · dsimp only
      exact ⟨h.setTimer _ fun hzero => h.unused t hzero, setTimer_framed t _ w⟩
    · dsimp only
      exact ⟨h.setTimer _ fun hzero => h.unused t hzero, setTimer_framed t _ w⟩

/-! ## Calls beside the temporary list -/

section Beside

variable (h : Sound c w) (ht : Off c w t)

include h ht

theorem timerRemove_pend (hst : s ≠ t) :
    (w.pend c t).timerRemove c s = (w.timerRemove c s).pend c t := by
  have hrow : ∀ i < c.skipListLevel, Node.row s i ≠ .list ∧
      Node.row s i ≠ .row t (c.skipListLevel - 1) := fun i _ =>
    ⟨nofun, fun heq => hst (Node.row.inj heq).1⟩
  exact congrArg (fun m => { w with links := m })
    (removeRows_insertAfter h.paired h.list (ht _ c.bottom_lt) hrow)

/-- Removing the timer itself takes it off the temporary list. -/
theorem timerRemove_pend_self : (w.pend c t).timerRemove c t = w := by
  have hlevel : c.skipListLevel = c.skipListLevel - 1 + 1 := by
    have hpos := c.level_pos
    omega
  have hbelow : ∀ i < c.skipListLevel - 1, (w.pend c t).links.Alone (.row t i) := by
    intro i hi
    refine (ht i (by omega)).insertAfter h.paired nofun fun heq => ?_
    exact absurd (Node.row.inj heq).2 (by omega)
  have hlinks : removeRows t c.skipListLevel (w.pend c t).links = w.links := by
    rw [hlevel, removeRows_succ, removeRows_off hbelow]
    exact Links.remove_insertAfter h.list (ht _ c.bottom_lt) nofun
  exact congrArg (fun m => { w with links := m }) hlinks

/-- **A call on another timer** does the same beside the temporary list. -/
theorem exec_pend {call : TimerCall T} (hcall : call.timer ≠ t) (fuel : ℕ) :
    call.exec c fuel (w.pend c t) = (call.exec c fuel w).map (Timers.pend c t) := by
  have hremove := timerRemove_pend h ht hcall
  have hinit : ∀ type time flag, (w.timer call.timer).type = 0 →
      (w.pend c t).timerInit c call.timer type time flag =
        (w.timerInit c call.timer type time flag).pend c t := by
    intro type time flag htype
    have hoff := h.unused _ htype
    have hoff' : Off c (w.pend c t) call.timer := fun r hr =>
      (hoff r hr).insertAfter h.paired nofun fun heq => hcall (Node.row.inj heq).1
    rw [timerInit_eq hoff, timerInit_eq hoff']
    rfl
  cases call with
  | init s time flag =>
    rw [TimerCall.exec, TimerCall.exec, Timers.rtTimerInit, Timers.rtTimerInit, pend_timer]
    by_cases htype : (w.timer s).type ≠ 0
    · rw [if_pos htype, if_pos htype, Option.map_none]
    · rw [if_neg htype, if_neg htype, Option.map_some]
      exact congrArg some (hinit _ time flag (not_not.mp htype))
  | create s time flag =>
    rw [TimerCall.exec, TimerCall.exec, Timers.rtTimerCreate, Timers.rtTimerCreate, pend_timer]
    by_cases htype : (w.timer s).type ≠ 0
    · rw [if_pos htype, if_pos htype, Option.map_none]
    · rw [if_neg htype, if_neg htype, Option.map_some]
      exact congrArg some (hinit _ time flag (not_not.mp htype))
  | start s => exact rtTimerStart_pend h.paired h.list ht hcall fuel
  | stop s =>
    simp only [TimerCall.timer] at hremove
    simp only [TimerCall.exec, Timers.rtTimerStop, pend_timer, hremove]
    split_ifs <;> rfl
  | detach s =>
    simp only [TimerCall.timer] at hremove
    simp only [TimerCall.exec, Timers.rtTimerDetach, pend_timer, hremove]
    split_ifs <;> rfl
  | delete s =>
    simp only [TimerCall.timer] at hremove
    simp only [TimerCall.exec, Timers.rtTimerDelete, pend_timer, hremove]
    split_ifs <;> rfl
  | control s cmd arg =>
    rw [TimerCall.exec, TimerCall.exec, Timers.rtTimerControl, Timers.rtTimerControl, pend_timer]
    split_ifs <;> rfl

end Beside

/-- **A call on the timer itself** does what it does without the temporary list, and takes the timer
off the list or leaves it there. -/
theorem exec_pend_self (h : Sound c w) (hp : Pending c span w t) {call : TimerCall T}
    (hcall : call.timer = t) (hpromised : call.Promised span w) :
    (∀ fuel, call.exec c fuel (w.pend c t) = call.exec c fuel w) ∨
      ∀ fuel, call.exec c fuel (w.pend c t) = (call.exec c fuel w).map (Timers.pend c t) ∧
        ∀ w', call.exec c fuel w = some w' → Pending c span w' t := by
  have hremove : (w.pend c t).timerRemove c t = w.timerRemove c t :=
    (timerRemove_pend_self h hp.off).trans (timerRemove_off hp.off).symm
  cases call with
  | init u time flag =>
    obtain rfl : u = t := hcall
    have hnone : ∀ v : Timers T, v.timer = w.timer → v.rtTimerInit c u time flag = none :=
      fun v hv => if_pos (hv ▸ hp.type_ne_zero)
    exact .inl fun _ => (hnone (w.pend c u) rfl).trans (hnone w rfl).symm
  | create u time flag =>
    obtain rfl : u = t := hcall
    have hnone : ∀ v : Timers T, v.timer = w.timer → v.rtTimerCreate c u time flag = none :=
      fun v hv => if_pos (hv ▸ hp.type_ne_zero)
    exact .inl fun _ => (hnone (w.pend c u) rfl).trans (hnone w rfl).symm
  | start u =>
    obtain rfl : u = t := hcall
    refine .inl fun fuel => ?_
    rw [TimerCall.exec, TimerCall.exec, Timers.rtTimerStart, Timers.rtTimerStart, hremove, pend_timer]
  | stop u =>
    obtain rfl : u = t := hcall
    simp only [TimerCall.exec, Timers.rtTimerStop, hremove, pend_timer]
    by_cases hactivated : (w.timer u).activated = false
    · -- a timer that is not active is not taken out of any list
      refine .inr fun _ => ?_
      rw [if_neg (not_not.mpr hp.type), if_neg (not_not.mpr hp.type), if_pos hactivated,
        if_pos hactivated]
      refine ⟨rfl, fun w' hw' => ?_⟩
      obtain rfl := Option.some.inj hw'
      exact hp
    · refine .inl fun _ => ?_
      rw [if_neg hactivated, if_neg hactivated]
  | detach u =>
    obtain rfl : u = t := hcall
    refine .inl fun _ => ?_
    rw [TimerCall.exec, TimerCall.exec, Timers.rtTimerDetach, Timers.rtTimerDetach, hremove, pend_timer]
  | delete u =>
    obtain rfl : u = t := hcall
    refine .inl fun _ => ?_
    rw [TimerCall.exec, TimerCall.exec, Timers.rtTimerDelete, Timers.rtTimerDelete, hremove, pend_timer]
  | control u cmd arg =>
    obtain rfl : u = t := hcall
    refine .inr fun _ => ⟨?_, fun w' hw' => ?_⟩
    · rw [TimerCall.exec, TimerCall.exec, Timers.rtTimerControl, Timers.rtTimerControl, pend_timer]
      split_ifs <;> rfl
    · obtain ⟨⟨r, w₁⟩, hr, rfl⟩ := Option.map_eq_some_iff.mp hw'
      obtain rfl | ⟨hset, rfl⟩ | ⟨periodic, rfl⟩ := rtTimerControl_cases hr
      · exact hp
      · obtain ⟨hpos, hle⟩ := hpromised hset
        constructor
        · exact hp.off
        all_goals
          rw [setTimer_self]
        · exact hp.type
        · exact hpos
        · exact hle
      · constructor
        · exact hp.off
        all_goals
          rw [setTimer_self]
        · exact hp.type
        · exact hp.time_pos
        · exact hp.time_le

theorem Promised.pend {call : TimerCall T} (h : call.Promised span (w.pend c t)) :
    call.Promised span w := by
  cases call <;> exact h

/-- A call that keeps the temporary list and returns beside it returns without it. -/
theorem returns_of_pend (h : Sound c w) {call : TimerCall T}
    (hpend : ∀ fuel, call.exec c fuel (w.pend c t) = (call.exec c fuel w).map (Timers.pend c t))
    (hoff : ∀ fuel w', call.exec c fuel w = some w' → Off c w' t)
    (hexec : Returns (fun fuel => call.exec c fuel (w.pend c t)) w'') :
    ∃ w', Returns (fun fuel => call.exec c fuel w) w' ∧ w'' = w'.pend c t := by
  obtain ⟨n, hn⟩ := hexec
  -- what the call returns is what is left when the timer is taken off
  have hsome : ∀ fuel ≥ n, ∃ v, call.exec c fuel w = some v ∧ w'' = v.pend c t ∧
      v = w''.timerRemove c t := by
    intro fuel hfuel
    have hreturned := hn fuel hfuel
    simp only [hpend] at hreturned
    obtain ⟨v, hv, rfl⟩ := Option.map_eq_some_iff.mp hreturned
    exact ⟨v, hv, rfl, (timerRemove_pend_self (h.exec hv).1 (hoff fuel v hv)).symm⟩
  obtain ⟨v, -, heq, hv⟩ := hsome n (Nat.le_refl n)
  refine ⟨v, ⟨n, fun fuel hfuel => ?_⟩, heq⟩
  obtain ⟨v', hv', -, heq'⟩ := hsome fuel hfuel
  rw [hv, ← heq']
  exact hv'

theorem Sound.returns {call : TimerCall T} (h : Sound c w)
    (hexec : Returns (fun fuel => call.exec c fuel w) w') : Sound c w' ∧ Framed c w w' call.timer := by
  obtain ⟨n, hn⟩ := hexec
  exact h.exec (hn n (Nat.le_refl n))

/-- **The calls of a callback** do what they do without the temporary list: at the end the timer is
still on it or was taken off. -/
theorem Calls.unpend {calls : List (TimerCall T)} (h : Calls c span calls (w.pend c t) w'')
    (hs : Sound c w) (hp : Pending c span w t) :
    ∃ w', Calls c span calls w w' ∧ (w'' = w' ∨ w'' = w'.pend c t ∧ Pending c span w' t) := by
  obtain ⟨v, hv⟩ : ∃ v, v = w.pend c t := ⟨_, rfl⟩
  rw [← hv] at h
  induction h generalizing w with
  | nil => exact ⟨w, .nil w, .inr ⟨hv, hp⟩⟩
  | cons hpromised hexec hcalls ih =>
    subst hv
    rename_i call calls w₁ w₂
    have hpromised' := Promised.pend hpromised
    by_cases hcall : call.timer = t
    · rcases exec_pend_self hs hp hcall hpromised' with hself | hself
      · -- from here on the timer is off the temporary list
        simp only [hself] at hexec
        exact ⟨w₂, .cons hpromised' hexec hcalls, .inl rfl⟩
      · obtain ⟨v, hv, rfl⟩ := returns_of_pend hs (fun fuel => (hself fuel).1)
          (fun fuel v hv => ((hself fuel).2 v hv).off) hexec
        have hpending : Pending c span v t := by
          obtain ⟨n, hn⟩ := hv
          exact (hself n).2 v (hn n (Nat.le_refl n))
        obtain ⟨w', hw', hend⟩ := ih (hs.returns hv).1 hpending rfl
        exact ⟨w', .cons hpromised' hv hw', hend⟩
    · obtain ⟨v, hv, rfl⟩ := returns_of_pend hs (exec_pend hs hp.off hcall)
        (fun fuel v hv => (hs.exec hv).2.off t (Ne.symm hcall) hp.off) hexec
      obtain ⟨hsound, hframed⟩ := hs.returns hv
      obtain ⟨w', hw', hend⟩ := ih hsound (hp.framed hframed (Ne.symm hcall)) rfl
      exact ⟨w', .cons hpromised' hv hw', hend⟩

end LowPower
