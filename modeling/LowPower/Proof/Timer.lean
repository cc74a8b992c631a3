import LowPower.Proof.TimerLists
import LowPower.Spec.PmPass

/-!
# The earliest deadline

The bottom list holds the active timers in the order of their deadlines (`Listed`). Every call keeps
that as long as the deadlines lie in a window shorter than half the tick range: a removal
(`Listed.removed`), and a start, which returns (`rtTimerStart_returns`). So in every state of a run
the lists are ordered and `rt_timer_next_timeout_tick` is the earliest deadline (`timers_sorted`).
-/

namespace LowPower

/-- `RT_TICK_MAX / 2`. -/
def halfTicks : ℕ := 2 ^ 31 - 1

theorem two_halfTicks : 2 * halfTicks ≤ 2 ^ 32 := by decide

section Lists

variable {T : Type} {c : TimerConfig} {w : Timers T} {lists : ℕ → List T} {t : T}
  {Q : T → T → Prop}

@[simp]
theorem rtTickSet_rtTick (tick : U32) (w : Timers T) : (w.rtTickSet tick).rtTick = tick := rfl

@[simp]
theorem rtTickSet_timer (tick : U32) (w : Timers T) : (w.rtTickSet tick).timer = w.timer := rfl

/-- The lists of the timers: the bottom one holds the active timers by deadline, with `Q` from each
to the later ones, and every other one is a part of the list below. -/
structure Listed (c : TimerConfig) (Q : T → T → Prop) (w : Timers T) (lists : ℕ → List T) :
    Prop where
  rings : Rings c w.links lists
  sub : ∀ r, r + 1 < c.skipListLevel → (lists r).Sublist (lists (r + 1))
  active : ∀ t, t ∈ lists (c.skipListLevel - 1) ↔ (w.timer t).activated = true
  ordered : (lists (c.skipListLevel - 1)).Pairwise fun s t =>
    Serial.Le halfTicks (w.timer s).timeoutTick (w.timer t).timeoutTick ∧ Q s t

theorem TimerConfig.bottom_lt (c : TimerConfig) : c.skipListLevel - 1 < c.skipListLevel := by
  have hpos := c.level_pos
  omega

/-- Every list is a part of the bottom list. -/
theorem sublist_bottom (hsub : ∀ r, r + 1 < c.skipListLevel → (lists r).Sublist (lists (r + 1)))
    {r : ℕ} (hr : r < c.skipListLevel) : (lists r).Sublist (lists (c.skipListLevel - 1)) := by
  obtain ⟨k, hk⟩ := Nat.exists_eq_add_of_le (show r ≤ c.skipListLevel - 1 by omega)
  induction k generalizing r with
  | zero => rw [hk, Nat.add_zero]
  | succ k ih => exact (hsub r (by omega)).trans (ih (by omega) (by omega))

theorem Listed.nodup (h : Listed c Q w lists) : (lists (c.skipListLevel - 1)).Nodup :=
  nodup_of_ring (h.rings.ring _ c.bottom_lt)

/-- **The next deadline** is that of the first timer. -/
theorem Listed.nextTimeout (h : Listed c Q w lists) :
    w.rtTimerNextTimeoutTick c =
      ((lists (c.skipListLevel - 1)).map fun s => (w.timer s).timeoutTick).headD rtTickMax := by
  have hnext := (h.rings.ring _ c.bottom_lt).next_head
  rw [Timers.rtTimerNextTimeoutTick, Timers.timerListNextTimeout, hnext]
  cases lists (c.skipListLevel - 1) with
  | nil => rfl
  | cons s l => rfl

/-- The deadlines of some timers: what the models of the two frameworks keep of the timers. -/
def Timers.deadlines (w : Timers T) (l : List T) : List U32 := l.map fun s => (w.timer s).timeoutTick

/-- **The two frameworks** read the next deadline of the skip list. -/
theorem Listed.frameworks (h : Listed c Q w lists) :
    (∀ hw : Hw, hw.timers = w.deadlines (lists (c.skipListLevel - 1)) →
      hw.rtTimerNextTimeoutTick.1 = w.rtTimerNextTimeoutTick c) ∧
    ∀ (X : Type) (pw : Pm.World X), pw.timers = w.deadlines (lists (c.skipListLevel - 1)) →
      pw.rtTimerNextTimeoutTick = w.rtTimerNextTimeoutTick c := by
  refine ⟨fun hw hhw => ?_, fun X pw hpw => ?_⟩
  · rw [h.nextTimeout, Hw.rtTimerNextTimeoutTick, hhw, Timers.deadlines]
  · rw [h.nextTimeout, Pm.World.rtTimerNextTimeoutTick, hpw, Timers.deadlines]

/-- The earliest deadline, or `RT_TICK_MAX` if no timer is active. -/
def Timers.IsEarliest (w : Timers T) (deadline : U32) : Prop :=
  (∃ t, (w.timer t).activated = true ∧ (w.timer t).timeoutTick = deadline ∧
    ∀ s, (w.timer s).activated = true → Serial.Le halfTicks deadline (w.timer s).timeoutTick) ∨
  ((∀ t, (w.timer t).activated = false) ∧ deadline = rtTickMax)

theorem Listed.earliest (h : Listed c Q w lists) : w.IsEarliest (w.rtTimerNextTimeoutTick c) := by
  have hactive := h.active
  have hordered := h.ordered
  rw [h.nextTimeout]
  cases hl : lists (c.skipListLevel - 1) with
  | nil =>
    rw [hl] at hactive
    refine .inr ⟨fun t => ?_, rfl⟩
    rw [← Bool.not_eq_true, ← hactive]
    exact List.not_mem_nil
  | cons t l =>
    rw [hl] at hactive hordered
    refine .inl ⟨t, (hactive t).mp List.mem_cons_self, rfl, fun s hs => ?_⟩
    rw [← hactive, List.mem_cons] at hs
    obtain rfl | hs := hs
    · rw [Serial.Le, List.map_cons, List.headD_cons, BitVec.sub_self]
      decide
    · exact ((List.pairwise_cons.mp hordered).1 s hs).1

/-- The order within a window of deadlines. -/
theorem later_iff {base deadline : U32} {s : T}
    (hs : Serial.offset base (w.timer s).timeoutTick < halfTicks)
    (hd : Serial.offset base deadline < halfTicks) :
    w.later deadline s = true ↔
      Serial.offset base deadline < Serial.offset base (w.timer s).timeoutTick := by
  have hdiff := Serial.toNat_sub_eq base deadline (w.timer s).timeoutTick
  have hhalf : (rtTickMax / 2 : U32).toNat = 2 ^ 31 - 1 := by decide
  have hzero : (0 : U32).toNat = 0 := rfl
  unfold halfTicks at hs hd
  rw [Timers.later, Bool.and_eq_true, decide_eq_true_eq, decide_eq_true_eq, ne_eq,
    ← BitVec.toNat_inj, BitVec.lt_def, hhalf, hzero, hdiff]
  split <;> omega

/-- In the window, what comes after a later timer is later. -/
theorem later_of_le {base deadline : U32} {s u : T}
    (hs : Serial.offset base (w.timer s).timeoutTick < halfTicks)
    (hu : Serial.offset base (w.timer u).timeoutTick < halfTicks)
    (hd : Serial.offset base deadline < halfTicks)
    (hle : Serial.Le halfTicks (w.timer s).timeoutTick (w.timer u).timeoutTick)
    (hlater : w.later deadline s = true) : w.later deadline u = true := by
  rw [later_iff hs hd] at hlater
  rw [later_iff hu hd]
  rw [Serial.le_iff_offset two_halfTicks hs hu] at hle
  omega

/-- Only the links, the flags and the deadlines count. -/
theorem Listed.congr {Q' : T → T → Prop} {w' : Timers T} (h : Listed c Q w lists)
    (hlinks : w'.links = w.links)
    (hactive : ∀ s, (w'.timer s).activated = (w.timer s).activated)
    (hdeadline : ∀ s, (w'.timer s).timeoutTick = (w.timer s).timeoutTick)
    (hQ : ∀ s u, Q s u → Q' s u) : Listed c Q' w' lists := by
  refine ⟨hlinks ▸ h.rings, h.sub, fun s => ?_, h.ordered.imp fun {s u} hsu => ?_⟩
  · rw [h.active s, hactive]
  · rw [hdeadline, hdeadline]
    exact ⟨hsu.1, hQ s u hsu.2⟩

theorem Listed.rtTickSet {Q' : T → T → Prop} (h : Listed c Q w lists) (tick : U32)
    (hQ : ∀ s u, Q s u → Q' s u) : Listed c Q' (w.rtTickSet tick) lists :=
  h.congr rfl (fun _ => rfl) (fun _ => rfl) hQ

/-- Nothing is listed after the initialisation. -/
theorem boot_listed (rtTick randomNr : U32) (type : T → U8) (time : T → U32)
    (periodic : T → Bool) (Q : T → T → Prop) :
    Listed c Q (Timers.boot rtTick randomNr type time periodic) fun _ => [] := by
  have halone : ∀ n : Node T, (Links.mk id id).Alone n := fun n => ⟨rfl, rfl⟩
  refine ⟨⟨fun r _ => Links.isRing_nil_iff.mpr (halone _), fun r _ s _ => halone _, halone _⟩,
    fun r _ => List.Sublist.refl [], fun t => ?_, List.Pairwise.nil⟩
  simp [Timers.boot, RtTimer.timerInit]

variable [DecidableEq T]

/-! ## Removing a timer -/

@[simp]
theorem timerRemove_timer (t : T) (w : Timers T) : (w.timerRemove c t).timer = w.timer := rfl

/-- The removal and the cleared flag, which every call on a timer begins with. -/
def Timers.removed (c : TimerConfig) (t : T) (w : Timers T) : Timers T :=
  (w.timerRemove c t).setActivated t false

@[simp]
theorem setTimer_self (t : T) (f : RtTimer → RtTimer) (w : Timers T) :
    (w.setTimer t f).timer t = f (w.timer t) := Function.update_self t _ w.timer

@[simp]
theorem setTimer_of_ne {t s : T} (hs : s ≠ t) (f : RtTimer → RtTimer) (w : Timers T) :
    (w.setTimer t f).timer s = w.timer s := Function.update_of_ne hs _ w.timer

theorem setActivated_timer (t s : T) (b : Bool) (w : Timers T) :
    (w.setActivated t b).timer s =
      { w.timer s with activated := if s = t then b else (w.timer s).activated } := by
  by_cases hs : s = t
  · subst hs
    simp [Timers.setActivated]
  · simp [Timers.setActivated, hs]

@[simp]
theorem removed_timeoutTick (t s : T) (w : Timers T) :
    ((w.removed c t).timer s).timeoutTick = (w.timer s).timeoutTick := by
  rw [Timers.removed, setActivated_timer]
  rfl

@[simp]
theorem removed_initTick (t s : T) (w : Timers T) :
    ((w.removed c t).timer s).initTick = (w.timer s).initTick := by
  rw [Timers.removed, setActivated_timer]
  rfl

/-- **A timer that is removed** leaves the other timers as they are. -/
theorem Listed.removed (h : Listed c Q w lists) (t : T) :
    Listed c Q (w.removed c t) fun r => (lists r).erase t := by
  refine ⟨timerRemove_rings h.rings t, fun r hr => (h.sub r hr).erase t, fun s => ?_, ?_⟩
  · rw [h.nodup.mem_erase_iff, h.active s, Timers.removed, setActivated_timer]
    by_cases hs : s = t
    · simp [hs]
    · simp [hs]
  · refine (h.ordered.sublist List.erase_sublist).imp fun {s u} hsu => ?_
    rw [removed_timeoutTick, removed_timeoutTick]
    exact hsu

/-! ## Starting a timer -/

/-- The deadline a start computes. -/
def Timers.newDeadline (w : Timers T) (t : T) : U32 := w.rtTick + (w.timer t).initTick

/-- The assertions of `rt_timer_start`. -/
structure Timers.Startable (w : Timers T) (t : T) : Prop where
  type : (w.timer t).rtObjectGetType = rtObjectClassTimer
  initTick : (w.timer t).initTick.toNat < halfTicks

/-- At a start of `t` the new deadline and those of the other active timers lie in a window. -/
def Timers.FitsAt (base : U32) (w : Timers T) (t : T) : Prop :=
  Serial.offset base (w.newDeadline t) < halfTicks ∧
    ∀ s ≠ t, (w.timer s).activated = true →
      Serial.offset base (w.timer s).timeoutTick < halfTicks

/-- The timer is out of the lists and has its new deadline. -/
def Timers.prepared (c : TimerConfig) (t : T) (w : Timers T) : Timers T :=
  (w.removed c t).setTimer t fun timer => { timer with timeoutTick := w.newDeadline t }

theorem prepared_timer (t : T) (w : Timers T) :
    (w.prepared c t).timer = Function.update w.timer t
      { w.timer t with activated := false, timeoutTick := w.newDeadline t } := by
  simp [Timers.prepared, Timers.removed, Timers.setActivated, Timers.setTimer]

theorem rtTimerStart_eq (h : w.Startable t) (fuel : ℕ) :
    w.rtTimerStart c t fuel =
      ((w.prepared c t).searchRows (w.newDeadline t) fuel c.skipListLevel 0 (.head 0)).map
        fun rowHead => ((w.prepared c t).insertTimer c rowHead t).setActivated t true := by
  have hsmall : ¬¬((w.removed c t).timer t).initTick < rtTickMax / 2 := by
    rw [removed_initTick, not_not]
    exact h.initTick
  have hdeadline : ((w.prepared c t).timer t).timeoutTick = w.newDeadline t := by
    rw [prepared_timer, Function.update_self]
  have hprepared : (w.removed c t).setTimer t (fun timer =>
      { timer with timeoutTick := (w.removed c t).rtTick + timer.initTick }) = w.prepared c t := by
    rw [Timers.prepared, Timers.setTimer, Timers.setTimer, removed_initTick]
    rfl
  rw [Timers.rtTimerStart, if_neg (not_not.mpr h.type)]
  refine (if_neg hsmall).trans ?_
  change (fun w₁ : Timers T =>
    (w₁.searchRows (w₁.timer t).timeoutTick fuel c.skipListLevel 0 (.head 0)).map fun rowHead =>
      (w₁.insertTimer c rowHead t).setActivated t true) ((w.removed c t).setTimer t fun timer =>
        { timer with timeoutTick := (w.removed c t).rtTick + timer.initTick }) = _
  rw [hprepared]
  beta_reduce
  rw [hdeadline]

/-- A failed assertion never returns. -/
theorem rtTimerStart_none (h : ¬w.Startable t) (fuel : ℕ) : w.rtTimerStart c t fuel = none := by
  rw [Timers.rtTimerStart]
  split
  · rfl
  · rename_i htype
    have hlarge : ¬((w.removed c t).timer t).initTick < rtTickMax / 2 := by
      rw [removed_initTick]
      exact fun hsmall => h ⟨not_not.mp htype, hsmall⟩
    exact if_pos hlarge

theorem rtTimerStart_startable {w' : Timers T}
    (h : Returns (fun fuel => w.rtTimerStart c t fuel) w') : w.Startable t := by
  by_contra hnot
  obtain ⟨n, hn⟩ := h
  have hnone := (rtTimerStart_none hnot n).symm.trans (hn n (Nat.le_refl n))
  cases hnone

/-- What a start does to the timers, the tick and the callbacks. -/
structure Started (w w' : Timers T) (t : T) : Prop where
  rtTick : w'.rtTick = w.rtTick
  called : w'.called = w.called
  timer : w'.timer = Function.update w.timer t
    { w.timer t with activated := true, timeoutTick := w.newDeadline t }

/-- The lists after a start: from level `j` on they take the timer. -/
def startedLists (w : Timers T) (t : T) (lists : ℕ → List T) (j : ℕ) (i : ℕ) : List T :=
  if j ≤ i then place (w.later (w.newDeadline t)) t ((lists i).erase t) else (lists i).erase t

section Start

variable {base : U32} {w' : Timers T} {s u : T}

/-- A timer that stays in a list is another one, and active. -/
theorem Listed.of_mem_erase (h : Listed c Q w lists) {r : ℕ} (hr : r < c.skipListLevel)
    (hs : s ∈ (lists r).erase t) : s ≠ t ∧ (w.timer s).activated = true := by
  rw [(nodup_of_ring (h.rings.ring r hr)).mem_erase_iff] at hs
  exact ⟨hs.1, (h.active s).mp ((sublist_bottom h.sub hr).subset hs.2)⟩

theorem Listed.erased_ordered (h : Listed c Q w lists) {r : ℕ} (hr : r < c.skipListLevel) :
    ((lists r).erase t).Pairwise fun s u =>
      Serial.Le halfTicks (w.timer s).timeoutTick (w.timer u).timeoutTick ∧ Q s u :=
  h.ordered.sublist (List.erase_sublist.trans (sublist_bottom h.sub hr))

/-- **Every list is cut** where the timers that are later than the new deadline begin. -/
theorem Listed.erased_cut (h : Listed c Q w lists) (hfits : w.FitsAt base t) {r : ℕ}
    (hr : r < c.skipListLevel) :
    ((lists r).erase t).filter (fun s => !w.later (w.newDeadline t) s) ++
      ((lists r).erase t).filter (w.later (w.newDeadline t)) = (lists r).erase t := by
  refine filter_cut (h.erased_ordered hr) fun s hs u hu hsu => ?_
  obtain ⟨hst, hsa⟩ := h.of_mem_erase hr hs
  obtain ⟨hut, hua⟩ := h.of_mem_erase hr hu
  exact later_of_le (hfits.2 s hst hsa) (hfits.2 u hut hua) hfits.1 hsu.1

theorem prepared_later (hs : s ≠ t) (deadline : U32) :
    (w.prepared c t).later deadline s = w.later deadline s := by
  rw [Timers.later, Timers.later, prepared_timer, Function.update_of_ne hs]

theorem insert_started (rowHead : List (Node T)) :
    Started w (((w.prepared c t).insertTimer c rowHead t).setActivated t true) t := by
  refine ⟨rfl, rfl, ?_⟩
  have hinsert : ((w.prepared c t).insertTimer c rowHead t).timer = (w.prepared c t).timer := rfl
  funext s
  rw [setActivated_timer, hinsert, prepared_timer]
  by_cases hs : s = t
  · subst hs
    simp
  · simp [hs]

/-- **A start returns**, when its assertions hold and the deadlines lie in a window. -/
theorem rtTimerStart_returns (h : Listed c Q w lists) (hstart : w.Startable t)
    (hfits : w.FitsAt base t) :
    ∃ w', Returns (fun fuel => w.rtTimerStart c t fuel) w' ∧ Started w w' t ∧
      ∃ j < c.skipListLevel, Rings c w'.links (startedLists w t lists j) := by
  have hrings : Rings c (w.prepared c t).links fun r => (lists r).erase t :=
    timerRemove_rings h.rings t
  have hlater : ∀ r < c.skipListLevel, ∀ s ∈ (lists r).erase t,
      (w.prepared c t).later (w.newDeadline t) s = w.later (w.newDeadline t) s := fun r hr s hs =>
    prepared_later (h.of_mem_erase hr hs).1 _
  -- the search sees the deadlines of the other timers as they were
  have hcut : ∀ r < c.skipListLevel,
      (w.prepared c t).notLater (w.newDeadline t) ((lists r).erase t) ++
        ((lists r).erase t).filter ((w.prepared c t).later (w.newDeadline t)) =
          (lists r).erase t := by
    intro r hr
    rw [Timers.notLater, List.filter_congr (hlater r hr),
      List.filter_congr fun s hs => congrArg (!·) (hlater r hr s hs)]
    exact h.erased_cut hfits hr
  have hsearch := searchRows_returns hrings (fun r hr => (h.sub r hr).erase t) hcut
    (show 0 + c.skipListLevel ≤ c.skipListLevel by omega) (p := .head 0)
    fun _ => List.mem_cons_self
  have hhead : ∀ r < c.skipListLevel, ((List.range' 0 c.skipListLevel).map fun i =>
      front i ((w.prepared c t).notLater (w.newDeadline t) ((lists i).erase t))).getD r .list =
        front r ((w.prepared c t).notLater (w.newDeadline t) ((lists r).erase t)) := by
    intro r hr
    simp [List.getD_eq_getElem?_getD, hr]
  have hnot : ∀ r < c.skipListLevel, t ∉ (lists r).erase t := fun r hr ht =>
    (h.of_mem_erase hr ht).1 rfl
  have hreturns := hsearch.map fun rowHead =>
    ((w.prepared c t).insertTimer c rowHead t).setActivated t true
  simp only [← rtTimerStart_eq hstart] at hreturns
  obtain ⟨j, hj, hinsert⟩ := insertTimer_rings hhead hcut hnot hrings
  refine ⟨_, hreturns, insert_started _, j, hj, hinsert.of_eq fun i hi => ?_⟩
  rw [startedLists, place_congr (hlater i hi)]

/-- **The lists after a start**: `Q'` holds of the timers that are in the lists already, from each
that is not later to the new one, and from the new one to each that is later. -/
theorem Listed.started {Q' : T → T → Prop} {j : ℕ} (h : Listed c Q w lists)
    (hfits : w.FitsAt base t) (hstarted : Started w w' t) (hj : j < c.skipListLevel)
    (hrings : Rings c w'.links (startedLists w t lists j))
    (hkeep : ∀ s u, s ≠ t → u ≠ t → Q s u → Q' s u)
    (hbefore : ∀ s ≠ t, w.later (w.newDeadline t) s = false → Q' s t)
    (hafter : ∀ s ≠ t, w.later (w.newDeadline t) s = true → Q' t s) :
    Listed c Q' w' (startedLists w t lists j) := by
  have hcut := fun r hr => h.erased_cut hfits (r := r) hr
  have hbottom : startedLists w t lists j (c.skipListLevel - 1) =
      place (w.later (w.newDeadline t)) t ((lists (c.skipListLevel - 1)).erase t) :=
    if_pos (Nat.le_sub_one_of_lt hj)
  have hold : ∀ s ≠ t, w'.timer s = w.timer s := by
    intro s hs
    rw [hstarted.timer, Function.update_of_ne hs]
  have hnew : (w'.timer t).timeoutTick = w.newDeadline t := by
    rw [hstarted.timer, Function.update_self]
  refine ⟨hrings, fun r hr => ?_, fun s => ?_, ?_⟩
  · -- a level that takes the timer has only levels below it that take it too
    have hsub := (h.sub r hr).erase t
    rw [startedLists, startedLists]
    split
    · rw [if_pos (by omega)]
      exact place_sublist hsub _ _
    · split
      · exact hsub.trans (sublist_place (hcut (r + 1) hr))
      · exact hsub
  · rw [hbottom, (place_perm (hcut _ c.bottom_lt)).mem_iff, List.mem_cons,
      h.nodup.mem_erase_iff, h.active, hstarted.timer]
    by_cases hs : s = t
    · subst hs
      simp
    · simp [hs]
  · rw [hbottom]
    have hfit : ∀ s ∈ (lists (c.skipListLevel - 1)).erase t, s ≠ t ∧
        Serial.offset base (w.timer s).timeoutTick < halfTicks := by
      intro s hs
      obtain ⟨hst, hsa⟩ := h.of_mem_erase c.bottom_lt hs
      exact ⟨hst, hfits.2 s hst hsa⟩
    refine pairwise_place ((h.erased_ordered c.bottom_lt).imp_of_mem fun hs hu hsu => ?_)
      (fun s hs hlater => ?_) (fun s hs hlater => ?_) fun s hs u hu hsu hlater => ?_
    · rw [hold _ (hfit _ hs).1, hold _ (hfit _ hu).1]
      exact ⟨hsu.1, hkeep _ _ (hfit _ hs).1 (hfit _ hu).1 hsu.2⟩
    · obtain ⟨hst, hsw⟩ := hfit s hs
      have hle : ¬Serial.offset base (w.newDeadline t) <
          Serial.offset base (w.timer s).timeoutTick := by
        rw [← later_iff hsw hfits.1, hlater]
        exact Bool.false_ne_true
      rw [hold s hst, hnew, Serial.le_iff_offset two_halfTicks hsw hfits.1]
      exact ⟨Nat.le_of_not_lt hle, hbefore s hst hlater⟩
    · obtain ⟨hst, hsw⟩ := hfit s hs
      have hle := (later_iff hsw hfits.1).mp hlater
      rw [hold s hst, hnew, Serial.le_iff_offset two_halfTicks hfits.1 hsw]
      exact ⟨Nat.le_of_lt hle, hafter s hst hlater⟩
    · obtain ⟨hst, hsw⟩ := hfit s hs
      obtain ⟨hut, huw⟩ := hfit u hu
      rw [hold s hst, hold u hut] at hsu
      exact later_of_le hsw huw hfits.1 hsu.1 hlater

/-- A start, where only the order of the deadlines counts. -/
theorem Listed.startAny (h : Listed c (fun _ _ => True) w lists) (hstart : w.Startable t)
    (hfits : w.FitsAt base t) :
    ∃ (w' : Timers T) (lists' : ℕ → List T), Returns (fun fuel => w.rtTimerStart c t fuel) w' ∧
      Started w w' t ∧ Listed c (fun _ _ => True) w' lists' ∧
      lists' (c.skipListLevel - 1) =
        place (w.later (w.newDeadline t)) t ((lists (c.skipListLevel - 1)).erase t) := by
  obtain ⟨w', hw', hstarted, j, hj, hrings⟩ := rtTimerStart_returns h hstart hfits
  refine ⟨w', _, hw', hstarted, h.started hfits hstarted hj hrings (fun _ _ _ _ _ => trivial)
    (fun _ _ _ => trivial) (fun _ _ _ => trivial), ?_⟩
  exact if_pos (Nat.le_sub_one_of_lt hj)

end Start

/-! ## Runs -/

/-- The place of the last start of a timer among the calls, the latest of which comes first. -/
def lastStart (t : T) : List (TimerOp T) → ℕ
  | [] => 0
  | op :: ops => if op = .start t then ops.length + 1 else lastStart t ops

/-- Timers of the same deadline stand in the order of their last starts. -/
def InStartOrder (ops : List (TimerOp T)) (w : Timers T) (s t : T) : Prop :=
  (w.timer s).timeoutTick = (w.timer t).timeoutTick → lastStart s ops < lastStart t ops

/-- The runs from a state, the latest call first: every call returns, and at every start the
deadlines lie in a window. -/
inductive Runs (c : TimerConfig) (w₀ : Timers T) : List (TimerOp T) → Timers T → Prop
  | nil : Runs c w₀ [] w₀
  | cons {op : TimerOp T} {ops : List (TimerOp T)} {w w' : Timers T} (h : Runs c w₀ ops w)
      (hfits : ∀ t, op = .start t → ∃ base, w.FitsAt base t)
      (hexec : Returns (fun fuel => op.exec c fuel w) w') : Runs c w₀ (op :: ops) w'

theorem Runs.start {w₀ w' : Timers T} {ops : List (TimerOp T)} {base : U32} (h : Runs c w₀ ops w)
    (hfits : w.FitsAt base t) (hexec : Returns (fun fuel => w.rtTimerStart c t fuel) w') :
    Runs c w₀ (.start t :: ops) w' :=
  h.cons (fun _ hs => ⟨base, TimerOp.start.inj hs ▸ hfits⟩) hexec

theorem Runs.tickSet {w₀ : Timers T} {ops : List (TimerOp T)} (h : Runs c w₀ ops w) (tick : U32) :
    Runs c w₀ (.tickSet tick :: ops) (w.rtTickSet tick) :=
  h.cons (fun _ => nofun) (Returns.of_eq fun _ => rfl)

theorem lastStart_le (t : T) (ops : List (TimerOp T)) : lastStart t ops ≤ ops.length := by
  induction ops with
  | nil => exact Nat.le_refl 0
  | cons op ops ih =>
    rw [lastStart, List.length_cons]
    split <;> omega

theorem lastStart_of_ne {op : TimerOp T} (h : op ≠ .start t) (ops : List (TimerOp T)) :
    lastStart t (op :: ops) = lastStart t ops := if_neg h

theorem lastStart_self (t : T) (ops : List (TimerOp T)) :
    lastStart t (.start t :: ops) = ops.length + 1 := if_pos rfl

/-- A start keeps the lists in order, the new timer last among those of its deadline. -/
theorem Listed.start {ops : List (TimerOp T)} {w' : Timers T}
    (h : Listed c (InStartOrder ops w) w lists) (hfits : ∃ base, w.FitsAt base t)
    (hexec : Returns (fun fuel => w.rtTimerStart c t fuel) w') :
    ∃ lists, Listed c (InStartOrder (.start t :: ops) w') w' lists := by
  obtain ⟨base, hfits⟩ := hfits
  obtain ⟨w₁, hw₁, hstarted, j, hj, hrings⟩ :=
    rtTimerStart_returns h (rtTimerStart_startable hexec) hfits
  obtain rfl := hexec.unique hw₁
  have hother : ∀ s ≠ t, lastStart s (.start t :: ops) = lastStart s ops := fun s hs =>
    lastStart_of_ne (fun heq => hs (TimerOp.start.inj heq).symm) ops
  have hold : ∀ s ≠ t, w'.timer s = w.timer s := by
    intro s hs
    rw [hstarted.timer, Function.update_of_ne hs]
  refine ⟨_, h.started hfits hstarted hj hrings (fun s u hs hu hsu heq => ?_)
    (fun s hs _ _ => ?_) fun s hs hlater heq => ?_⟩
  · rw [hold s hs, hold u hu] at heq
    rw [hother s hs, hother u hu]
    exact hsu heq
  · have hle := lastStart_le s ops
    rw [hother s hs, lastStart_self]
    omega
  · -- the deadline of a later timer is another one
    rw [hold s hs, hstarted.timer, Function.update_self] at heq
    rw [Timers.later, Bool.and_eq_true, decide_eq_true_eq, ← heq] at hlater
    exact absurd (BitVec.sub_self _) hlater.1

/-- The other calls keep the order: they start no timer and move no deadline. -/
theorem InStartOrder.of_eq {op : TimerOp T} {ops : List (TimerOp T)} {w' : Timers T}
    (hop : ∀ t, op ≠ .start t)
    (hdeadline : ∀ s, (w'.timer s).timeoutTick = (w.timer s).timeoutTick) (s u : T)
    (h : InStartOrder ops w s u) : InStartOrder (op :: ops) w' s u := by
  intro heq
  rw [hdeadline, hdeadline] at heq
  rw [lastStart_of_ne (hop s), lastStart_of_ne (hop u)]
  exact h heq

/-- A stop removes an active timer and leaves an inactive one alone. -/
theorem rtTimerStop_cases {r : ℤ} {w' : Timers T} (h : w.rtTimerStop c t = some (r, w')) :
    w' = w ∨ w' = w.removed c t := by
  unfold Timers.rtTimerStop at h
  split at h
  · cases h
  · split at h
    · exact .inl (Prod.mk.inj (Option.some.inj h)).2.symm
    · exact .inr (Prod.mk.inj (Option.some.inj h)).2.symm

theorem rtTimerDetach_eq {w' : Timers T} (h : w.rtTimerDetach c t = some w') :
    w' = (w.removed c t).rtObjectDetach t := by
  unfold Timers.rtTimerDetach at h
  split at h
  · cases h
  · split at h
    · cases h
    · exact (Option.some.inj h).symm

/-- A detached timer keeps its flag and its deadline. -/
theorem rtObjectDetach_timer (t s : T) (w : Timers T) :
    ((w.rtObjectDetach t).timer s).activated = (w.timer s).activated ∧
      ((w.rtObjectDetach t).timer s).timeoutTick = (w.timer s).timeoutTick := by
  by_cases hs : s = t
  · subst hs
    simp [Timers.rtObjectDetach]
  · simp [Timers.rtObjectDetach, hs]

/-- **Every call** keeps the lists in order. -/
theorem Listed.exec {op : TimerOp T} {ops : List (TimerOp T)} {w' : Timers T}
    (h : Listed c (InStartOrder ops w) w lists)
    (hfits : ∀ t, op = .start t → ∃ base, w.FitsAt base t)
    (hexec : Returns (fun fuel => op.exec c fuel w) w') :
    ∃ lists, Listed c (InStartOrder (op :: ops) w') w' lists := by
  -- only a start moves a deadline; the other calls return at once or take the timer out
  cases op with
  | start t => exact h.start (hfits t rfl) hexec
  | stop t =>
    have hstop : (w.rtTimerStop c t).map Prod.snd = some w' := Returns.const_iff.mp hexec
    obtain ⟨⟨r, w₁⟩, hr, rfl⟩ := Option.map_eq_some_iff.mp hstop
    obtain rfl | rfl := rtTimerStop_cases hr
    · exact ⟨lists, h.congr rfl (fun _ => rfl) (fun _ => rfl)
        (InStartOrder.of_eq (fun _ => nofun) fun _ => rfl)⟩
    · exact ⟨_, (h.removed t).congr rfl (fun _ => rfl) (fun _ => rfl)
        (InStartOrder.of_eq (fun _ => nofun) fun s => removed_timeoutTick t s w)⟩
  | detach t =>
    obtain rfl := rtTimerDetach_eq (Returns.const_iff.mp hexec)
    have hsame := fun s => rtObjectDetach_timer t s (w.removed c t)
    exact ⟨_, (h.removed t).congr rfl (fun s => (hsame s).1) (fun s => (hsame s).2)
      (InStartOrder.of_eq (fun _ => nofun) fun s =>
        (hsame s).2.trans (removed_timeoutTick t s w))⟩
  | tickSet tick =>
    obtain rfl := Option.some.inj (Returns.const_iff.mp hexec)
    exact ⟨lists, h.rtTickSet tick (InStartOrder.of_eq (fun _ => nofun) fun _ => rfl)⟩

/-- **Every run** from the initialisation keeps the lists in order. -/
theorem Runs.listed {rtTick randomNr : U32} {type : T → U8} {time : T → U32} {periodic : T → Bool}
    {ops : List (TimerOp T)}
    (h : Runs c (Timers.boot rtTick randomNr type time periodic) ops w) :
    ∃ lists, Listed c (InStartOrder ops w) w lists := by
  induction h with
  | nil => exact ⟨_, boot_listed rtTick randomNr type time periodic _⟩
  | cons _ hfits hexec ih =>
    obtain ⟨lists, hlisted⟩ := ih
    exact hlisted.exec hfits hexec

theorem Listed.count (h : Listed c Q w lists) (t : T) :
    (lists (c.skipListLevel - 1)).count t = if (w.timer t).activated then 1 else 0 := by
  split
  · rename_i hactive
    exact List.count_eq_one_of_mem h.nodup ((h.active t).mpr hactive)
  · rename_i hactive
    exact List.count_eq_zero_of_not_mem fun ht => hactive ((h.active t).mp ht)

/-- **The timers of every run.** Each active timer is once in the bottom list, which is ordered by
deadline and by start, every level is a part of the one below, and the next timeout, which both
frameworks read, is the earliest deadline. A start that meets its assertions returns. -/
theorem timers_sorted {rtTick randomNr : U32} {type : T → U8} {time : T → U32}
    {periodic : T → Bool} {ops : List (TimerOp T)}
    (h : Runs c (Timers.boot rtTick randomNr type time periodic) ops w) :
    ∃ lists : ℕ → List T, Rings c w.links lists ∧
      (∀ t, (lists (c.skipListLevel - 1)).count t = if (w.timer t).activated then 1 else 0) ∧
      ((lists (c.skipListLevel - 1)).Pairwise fun s t =>
        Serial.Le halfTicks (w.timer s).timeoutTick (w.timer t).timeoutTick ∧
          ((w.timer s).timeoutTick = (w.timer t).timeoutTick →
            lastStart s ops < lastStart t ops)) ∧
      (∀ r, r + 1 < c.skipListLevel → (lists r).Sublist (lists (r + 1))) ∧
      w.IsEarliest (w.rtTimerNextTimeoutTick c) ∧
      ((∀ hw : Hw, hw.timers = w.deadlines (lists (c.skipListLevel - 1)) →
          hw.rtTimerNextTimeoutTick.1 = w.rtTimerNextTimeoutTick c) ∧
        ∀ (X : Type) (pw : Pm.World X), pw.timers = w.deadlines (lists (c.skipListLevel - 1)) →
          pw.rtTimerNextTimeoutTick = w.rtTimerNextTimeoutTick c) ∧
      ∀ t base, w.Startable t → w.FitsAt base t →
        ∃ w', Returns (fun fuel => w.rtTimerStart c t fuel) w' := by
  obtain ⟨lists, hlisted⟩ := h.listed
  refine ⟨lists, hlisted.rings, hlisted.count, hlisted.ordered, hlisted.sub, hlisted.earliest,
    hlisted.frameworks, fun t base hstart hfits => ?_⟩
  obtain ⟨w', hw', -⟩ := rtTimerStart_returns hlisted hstart hfits
  exact ⟨w', hw'⟩

/-- Two one-shot timers with the same deadline, the second one started after a jump. -/
theorem timers_sorted_two :
    ∃ (w : Timers Bool) (lists : ℕ → List Bool),
      Runs ⟨2, 1, by decide⟩ (Timers.boot 0xfffffff0 0 (fun _ => 0x0a)
        (fun t => if t then 0x20 else 0x18) fun _ => false)
        [.start false, .tickSet 0xfffffff8, .start true] w ∧
      (w.timer true).timeoutTick = 0x10 ∧ (w.timer false).timeoutTick = 0x10 ∧
      (lists 1).count true = 1 ∧ (lists 1).count false = 1 ∧
      w.IsEarliest (w.rtTimerNextTimeoutTick ⟨2, 1, by decide⟩) := by
  obtain ⟨w₀, hw₀⟩ : ∃ w₀ : Timers Bool, w₀ = Timers.boot 0xfffffff0 0 (fun _ => 0x0a)
      (fun t => if t then 0x20 else 0x18) fun _ => false := ⟨_, rfl⟩
  have hboot : Listed ⟨2, 1, by decide⟩ (InStartOrder [] w₀) w₀ fun _ => [] :=
    hw₀ ▸ boot_listed _ _ _ _ _ _
  have hfits₁ : Timers.FitsAt 0x10 w₀ true :=
    ⟨by rw [hw₀]; decide, fun _ _ hs => by rw [hw₀] at hs; cases hs⟩
  have hstart₁ : w₀.Startable true := ⟨by rw [hw₀]; decide, by rw [hw₀]; decide⟩
  obtain ⟨w₁, hw₁, hstarted₁, -⟩ := rtTimerStart_returns hboot hstart₁ hfits₁
  have hrun₂ := (Runs.nil.start hfits₁ hw₁).tickSet 0xfffffff8
  have htrue : w₁.timer true = ⟨0x0a, true, false, 0x20, 0x10⟩ := by
    rw [hstarted₁.timer, hw₀]
    decide
  have hfalse : w₁.timer false = ⟨0x0a, false, false, 0x18, 0⟩ := by
    rw [hstarted₁.timer, hw₀]
    decide
  have hdeadline : (w₁.rtTickSet 0xfffffff8).newDeadline false = 0x10 := by
    rw [Timers.newDeadline, rtTickSet_rtTick, rtTickSet_timer, hfalse]
    decide
  have hfits₂ : Timers.FitsAt 0x10 (w₁.rtTickSet 0xfffffff8) false := by
    refine ⟨by rw [hdeadline]; decide, fun s hs _ => ?_⟩
    rw [rtTickSet_timer, Bool.eq_true_of_not_eq_false hs, htrue]
    decide
  have hstart₂ : (w₁.rtTickSet 0xfffffff8).Startable false := by
    constructor <;> rw [rtTickSet_timer, hfalse] <;> decide
  rw [hw₀] at hrun₂
  obtain ⟨lists, hlisted₂⟩ := hrun₂.listed
  obtain ⟨w₃, hw₃, hstarted₃, -⟩ := rtTimerStart_returns hlisted₂ hstart₂ hfits₂
  have htrue₃ : w₃.timer true = ⟨0x0a, true, false, 0x20, 0x10⟩ := by
    rw [hstarted₃.timer, Function.update_of_ne (by decide)]
    exact htrue
  have hfalse₃ : w₃.timer false = ⟨0x0a, true, false, 0x18, 0x10⟩ := by
    rw [hstarted₃.timer, Function.update_self, hdeadline, rtTickSet_timer, hfalse]
  have hrun₃ := hrun₂.start hfits₂ hw₃
  obtain ⟨lists, -, hcount, -, -, hearliest, -⟩ := timers_sorted hrun₃
  refine ⟨w₃, lists, hrun₃, by rw [htrue₃], by rw [hfalse₃], ?_, ?_, hearliest⟩
  · exact (hcount true).trans (by rw [htrue₃, if_pos rfl])
  · exact (hcount false).trans (by rw [hfalse₃, if_pos rfl])

end Lists

end LowPower
