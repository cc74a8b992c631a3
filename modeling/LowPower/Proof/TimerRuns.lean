import LowPower.Proof.TimerCalls
import LowPower.Proof.TimerCheck

/-!
# The timers of a clocked run

Between two checks the tick moves by at most `gap`, and timers are started for at most `span` ticks.
Then every deadline lies within `gap + span` ticks after the last check (`Held`), which a call keeps
(`Held.exec`), and so do the calls of a callback (`Held.calls`). A round of `rt_timer_check` leaves
fewer due timers whatever its callback does (`Held.round`), so every check of a run returns, calls the
due timers in the order of their deadlines and leaves none that is due (`check_clocked`). Every state
of a run has its timers in order (`timers_clocked`), and a sleep up to the next timeout makes none of
them late (`sleep_in_time`).
-/

namespace LowPower

variable {T : Type} {c : TimerConfig} {w w' w'' : Timers T} {lists : ℕ → List T} {t s : T}
  {base : U32} {span gap : ℕ}

/-- A timer in the lists: it runs, for a time the callers promise, and its deadline comes after the
last check. -/
structure Armed (base now : U32) (span : ℕ) (timer : RtTimer) : Prop where
  activated : timer.activated = true
  type : timer.rtObjectGetType = rtObjectClassTimer
  time_pos : 1 ≤ timer.initTick.toNat
  time_le : timer.initTick.toNat ≤ span
  after : 1 ≤ Serial.offset base timer.timeoutTick
  fits : Serial.offset base timer.timeoutTick ≤ Serial.offset base now + span

/-- The lists of a clocked run. A timer that its own callback makes a one-shot timer may keep its
flag in no list, so being listed is what counts here. -/
structure Held (c : TimerConfig) (base : U32) (span : ℕ) (w : Timers T) (lists : ℕ → List T) :
    Prop where
  sound : Sound c w
  rings : Rings c w.links lists
  sub : ∀ r, r + 1 < c.skipListLevel → (lists r).Sublist (lists (r + 1))
  ordered : (lists (c.skipListLevel - 1)).Pairwise fun s t =>
    Serial.Le halfTicks (w.timer s).timeoutTick (w.timer t).timeoutTick
  armed : ∀ t ∈ lists (c.skipListLevel - 1), Armed base w.rtTick span (w.timer t)

theorem Held.nodup (h : Held c base span w lists) : (lists (c.skipListLevel - 1)).Nodup :=
  nodup_of_ring (h.rings.ring _ c.bottom_lt)

/-- The listed timers, in the order of their deadlines. -/
structure ByDeadline (c : TimerConfig) (w : Timers T) (l : List T) : Prop where
  ring : w.links.IsRing (.head (c.skipListLevel - 1)) (rows (c.skipListLevel - 1) l)
  ordered : l.Pairwise fun s t =>
    Serial.Le halfTicks (w.timer s).timeoutTick (w.timer t).timeoutTick

theorem Held.byDeadline (h : Held c base span w lists) :
    ByDeadline c w (lists (c.skipListLevel - 1)) :=
  ⟨h.rings.ring _ c.bottom_lt, h.ordered⟩

theorem Held.nextTimeout (h : Held c base span w lists) :
    w.rtTimerNextTimeoutTick c =
      (w.deadlines (lists (c.skipListLevel - 1))).headD rtTickMax := by
  have hnext := (h.rings.ring _ c.bottom_lt).next_head
  rw [Timers.rtTimerNextTimeoutTick, Timers.timerListNextTimeout, hnext]
  cases lists (c.skipListLevel - 1) with
  | nil => rfl
  | cons s l => rfl

/-- The clock can run to every deadline that a start may ask for. -/
def Timers.Window (base : U32) (span : ℕ) (w : Timers T) : Prop :=
  Serial.offset base w.rtTick + span < halfTicks

theorem Timers.Window.of_rtTick (hwindow : w.Window base span) (htick : w'.rtTick = w.rtTick) :
    w'.Window base span := by
  rw [Timers.Window, htick]
  exact hwindow

theorem Timers.Window.offset_newDeadline (hwindow : w.Window base span) (hstart : w.Startable t) :
    Serial.offset base (w.newDeadline t) =
      Serial.offset base w.rtTick + (w.timer t).initTick.toNat := by
  rw [Timers.Window] at hwindow
  exact LowPower.offset_newDeadline (by omega) hstart

/-- The first timer is due if any is. -/
theorem Held.head_due (h : Held c base span w lists) (hwindow : w.Window base span) {l : List T}
    (hl : lists (c.skipListLevel - 1) = t :: l) (hs : s ∈ lists (c.skipListLevel - 1))
    (hdue : w.due s = true) : w.due t = true := by
  have hordered := h.ordered
  have hfit := fun u hu => (h.armed u hu).fits
  rw [hl] at hordered hs hfit
  rw [Timers.Window] at hwindow
  rw [List.mem_cons] at hs
  obtain rfl | hs := hs
  · exact hdue
  · have ht := hfit t List.mem_cons_self
    have hs' := hfit s (List.mem_cons_of_mem t hs)
    have htick : Serial.offset base w.rtTick < halfTicks := by omega
    exact due_of_le htick (by omega) (by omega) ((List.pairwise_cons.mp hordered).1 s hs) hdue

/-- No listed deadline is before the next timeout. -/
theorem Held.next_le (h : Held c base span w lists)
    (hwindow : Serial.offset base w.rtTick + span < halfTicks)
    (hs : s ∈ lists (c.skipListLevel - 1)) :
    Serial.offset base (w.rtTimerNextTimeoutTick c) ≤ Serial.offset base (w.timer s).timeoutTick := by
  have hordered := h.ordered
  have hfit := fun u hu => (h.armed u hu).fits
  rw [h.nextTimeout, Timers.deadlines]
  cases hl : lists (c.skipListLevel - 1) with
  | nil =>
    rw [hl] at hs
    cases hs
  | cons t l =>
    rw [hl] at hordered hs hfit
    rw [List.map_cons, List.headD_cons]
    rw [List.mem_cons] at hs
    obtain rfl | hs := hs
    · exact Nat.le_refl _
    · have ht := hfit t List.mem_cons_self
      have hs' := hfit s (List.mem_cons_of_mem t hs)
      have hle := (List.pairwise_cons.mp hordered).1 s hs
      have hfirst : Serial.offset base (w.timer t).timeoutTick < halfTicks := by omega
      rwa [Serial.le_iff_offset two_halfTicks hfirst (by omega)] at hle

/-- A timer that is in no list. -/
theorem Held.not_mem (h : Held c base span w lists) (hoff : Off c w t) :
    t ∉ lists (c.skipListLevel - 1) := by
  intro ht
  have hring := h.rings.ring _ c.bottom_lt
  exact hring.next_ne (mem_rows.mpr ⟨rfl, ht⟩) (hoff _ c.bottom_lt).1

theorem boot_held (base rtTick randomNr : U32) (type : T → U8) (time : T → U32)
    (periodic : T → Bool) :
    Held c base span (Timers.boot rtTick randomNr type time periodic) fun _ => [] :=
  ⟨⟨⟨fun _ => rfl, fun _ => rfl⟩, ⟨rfl, rfl⟩, fun _ _ _ _ => ⟨rfl, rfl⟩⟩,
    (boot_listed rtTick randomNr type time periodic fun _ _ => True).rings,
    fun _ _ => List.Sublist.refl [], List.Pairwise.nil, nofun⟩

/-- The clock moves on, within its gap. -/
theorem Held.clock (h : Held c base span w lists) (n gap : ℕ)
    (hgap : Serial.offset base w.rtTick + n ≤ gap) (hsmall : gap < halfTicks) :
    Held c base span (w.rtTickSet (w.rtTick + BitVec.ofNat 32 n)) lists ∧
      Serial.offset base (w.rtTick + BitVec.ofNat 32 n) = Serial.offset base w.rtTick + n := by
  have hoffset : Serial.offset base (w.rtTick + BitVec.ofNat 32 n) =
      Serial.offset base w.rtTick + n := by
    have hsum : w.rtTick + BitVec.ofNat 32 n - base = (w.rtTick - base) + BitVec.ofNat 32 n := by
      grind
    unfold halfTicks at hsmall
    rw [Serial.offset, hsum, BitVec.toNat_add, BitVec.toNat_ofNat]
    change (Serial.offset base w.rtTick + _) % 2 ^ 32 = _
    omega
  refine ⟨⟨⟨h.sound.paired, h.sound.list, h.sound.unused⟩, h.rings, h.sub, h.ordered,
    fun s hs => ?_⟩, hoffset⟩
  obtain ⟨hactivated, htype, hpos, hle, hafter, hfit⟩ := h.armed s hs
  refine ⟨hactivated, htype, hpos, hle, hafter, ?_⟩
  rw [rtTickSet_rtTick, rtTickSet_timer, hoffset]
  omega

/-- After a check its tick is the new base. -/
theorem Held.rebase (h : Held c base span w lists) (hwindow : w.Window base span)
    (hdone : ∀ s ∈ lists (c.skipListLevel - 1), w.due s = false) :
    Held c w.rtTick span w lists := by
  refine ⟨h.sound, h.rings, h.sub, h.ordered, fun s hs => ?_⟩
  obtain ⟨hactivated, htype, hpos, hle, hafter, hfit⟩ := h.armed s hs
  have hnot := hdone s hs
  rw [Timers.Window] at hwindow
  have hnow : Serial.offset base w.rtTick < halfTicks := by omega
  rw [← Bool.not_eq_true, due_iff hnow (by omega)] at hnot
  have hoffset := Serial.toNat_sub_eq base w.rtTick (w.timer s).timeoutTick
  rw [if_pos (by omega)] at hoffset
  refine ⟨hactivated, htype, hpos, hle, ?_, ?_⟩
  all_goals
    rw [Serial.offset, hoffset]
    omega

/-- Among the due timers of a list, none comes in and only the ones of `touched` go. -/
structure DueKept (touched : Set T) (w w' : Timers T) (l l' : List T) : Prop where
  sublist : (l'.filter w'.due).Sublist (l.filter w.due)
  kept : ∀ s ∉ touched, s ∈ l.filter w.due → s ∈ l'.filter w'.due

/-- The lists are kept, and so are their due timers but the ones of `touched`. -/
def Kept (c : TimerConfig) (base : U32) (span : ℕ) (touched : Set T) (w w' : Timers T)
    (lists : ℕ → List T) : Prop :=
  ∃ lists', Held c base span w' lists' ∧
    DueKept touched w w' (lists (c.skipListLevel - 1)) (lists' (c.skipListLevel - 1))

section DueKept

variable {touched : Set T} {l l' l'' : List T}

theorem DueKept.refl (w : Timers T) (l : List T) : DueKept touched w w l l :=
  ⟨List.Sublist.refl _, fun _ _ hs => hs⟩

theorem DueKept.trans (h : DueKept touched w w' l l') (h' : DueKept touched w' w'' l' l'') :
    DueKept touched w w'' l l'' :=
  ⟨h'.sublist.trans h.sublist, fun s hs hmem => h'.kept s hs (h.kept s hs hmem)⟩

theorem DueKept.of_due (hdue : ∀ s ∈ l, w'.due s = w.due s) : DueKept touched w w' l l := by
  have hfilter := List.filter_congr hdue
  exact ⟨hfilter ▸ List.Sublist.refl _, fun s _ hmem => hfilter ▸ hmem⟩

theorem due_congr (htick : w'.rtTick = w.rtTick)
    (hdeadline : (w'.timer s).timeoutTick = (w.timer s).timeoutTick) : w'.due s = w.due s := by
  rw [Timers.due, Timers.due, htick, hdeadline]

/-- The other timers stay as they are. -/
theorem DueKept.of_same (ht : t ∈ touched) (htick : w'.rtTick = w.rtTick)
    (htimer : ∀ s ≠ t, w'.timer s = w.timer s) (hsub : (l'.filter w'.due).Sublist (l.filter w.due))
    (hmem : ∀ s ≠ t, s ∈ l → s ∈ l') : DueKept touched w w' l l' := by
  refine ⟨hsub, fun s hs hdue => ?_⟩
  have hst : s ≠ t := fun heq => hs (heq ▸ ht)
  rw [List.mem_filter] at hdue ⊢
  rw [due_congr htick (congrArg _ (htimer s hst))]
  exact ⟨hmem s hst hdue.1, hdue.2⟩

end DueKept

variable [DecidableEq T]

/-! ## Flags that follow the lists -/

/-- What a start makes of its timer. -/
def Timers.restarted (w : Timers T) (t : T) : RtTimer :=
  { w.timer t with activated := true, timeoutTick := w.newDeadline t }

/-- The timers with the flags of the listed ones set. -/
def Timers.flagged (l : List T) (w : Timers T) : Timers T :=
  { w with timer := fun t => { w.timer t with activated := decide (t ∈ l) } }

theorem Held.listed (h : Held c base span w lists) :
    Listed c (fun _ _ => True) (w.flagged (lists (c.skipListLevel - 1))) lists :=
  ⟨h.rings, h.sub, fun _ => decide_eq_true_iff.symm, h.ordered.imp fun hle => ⟨hle, trivial⟩⟩

/-- The search looks at the links and the deadlines. -/
theorem searchRow_congr {v : Timers T} (hlinks : v.links = w.links)
    (hdeadline : ∀ s, (v.timer s).timeoutTick = (w.timer s).timeoutTick) (deadline : U32)
    (r fuel : ℕ) (p : Node T) :
    v.searchRow deadline r fuel p = w.searchRow deadline r fuel p := by
  induction fuel generalizing p with
  | zero => rfl
  | succ fuel ih =>
    rw [Timers.searchRow, Timers.searchRow, hlinks]
    split
    · rfl
    · split
      · rw [hdeadline, ih]
      · rfl

theorem searchRows_congr {v : Timers T} (hlinks : v.links = w.links)
    (hdeadline : ∀ s, (v.timer s).timeoutTick = (w.timer s).timeoutTick) (deadline : U32)
    (fuel k r : ℕ) (p : Node T) :
    v.searchRows deadline fuel k r p = w.searchRows deadline fuel k r p := by
  induction k generalizing r p with
  | zero => rfl
  | succ k ih =>
    rw [Timers.searchRows, Timers.searchRows, searchRow_congr hlinks hdeadline]
    simp only [ih]

/-- **A start does not look at the flags** of the other timers. -/
theorem rtTimerStart_flagged (l : List T) (hstart : w.Startable t) (fuel : ℕ) :
    w.rtTimerStart c t fuel = ((w.flagged l).rtTimerStart c t fuel).map fun v =>
      { v with timer := Function.update w.timer t (w.restarted t) } := by
  have hstart' : (w.flagged l).Startable t := ⟨hstart.type, hstart.initTick⟩
  have hdeadline : ∀ s, (((w.flagged l).prepared c t).timer s).timeoutTick =
      ((w.prepared c t).timer s).timeoutTick := by
    intro s
    rw [prepared_timer, prepared_timer]
    by_cases hs : s = t
    · subst hs
      rw [Function.update_self, Function.update_self]
      rfl
    · rw [Function.update_of_ne hs, Function.update_of_ne hs]
      rfl
  have hnew : (w.flagged l).newDeadline t = w.newDeadline t := rfl
  rw [rtTimerStart_eq hstart, rtTimerStart_eq hstart', hnew, Option.map_map,
    searchRows_congr (w := w.prepared c t) (v := (w.flagged l).prepared c t) rfl hdeadline]
  refine congrArg (fun f => Option.map f _) (funext fun rowHead => ?_)
  exact congrArg (fun timer => { ((w.prepared c t).insertTimer c rowHead t).setActivated t true with
    timer := timer }) (insert_started rowHead).timer

/-! ## Calls -/

/-- **A promised start returns** and puts its timer at its place. -/
theorem Held.start (h : Held c base span w lists) (hwindow : w.Window base span)
    (htype : (w.timer t).rtObjectGetType = rtObjectClassTimer)
    (hpromised : (TimerCall.start t).Promised span w) :
    ∃ (w' : Timers T) (lists' : ℕ → List T), Returns (fun fuel => w.rtTimerStart c t fuel) w' ∧
      Started w w' t ∧ Held c base span w' lists' ∧
      ∃ pre post, (lists (c.skipListLevel - 1)).erase t = pre ++ post ∧
        lists' (c.skipListLevel - 1) = pre ++ t :: post := by
  obtain ⟨hpos, hle⟩ := hpromised
  have hwindow' := hwindow
  rw [Timers.Window] at hwindow'
  have hstart : w.Startable t := ⟨htype, by omega⟩
  have hoffset := hwindow.offset_newDeadline hstart
  have hfits : (w.flagged (lists (c.skipListLevel - 1))).FitsAt base t := by
    refine ⟨?_, fun s _ hs => ?_⟩
    · change Serial.offset base (w.newDeadline t) < halfTicks
      omega
    · have hfit := (h.armed s (of_decide_eq_true hs)).fits
      change Serial.offset base (w.timer s).timeoutTick < halfTicks
      omega
  obtain ⟨v, hv, hstarted, j, hj, hrings⟩ :=
    rtTimerStart_returns h.listed (t := t) ⟨hstart.type, hstart.initTick⟩ hfits
  have hlisted := h.listed.started hfits hstarted hj hrings (fun _ _ _ _ _ => trivial)
    (fun _ _ _ => trivial) (fun _ _ _ => trivial)
  have hreturns := hv.map fun v => { v with timer := Function.update w.timer t (w.restarted t) }
  simp only [← rtTimerStart_flagged (lists (c.skipListLevel - 1)) hstart] at hreturns
  have hsound : Sound c { v with timer := Function.update w.timer t (w.restarted t) } := by
    obtain ⟨n, hn⟩ := hreturns
    have hexec : (TimerCall.start t).exec c n w = some _ := hn n (Nat.le_refl n)
    exact (h.sound.exec hexec).1
  have hbottom : startedLists w t lists j (c.skipListLevel - 1) =
      place (w.later (w.newDeadline t)) t ((lists (c.skipListLevel - 1)).erase t) :=
    if_pos (Nat.le_sub_one_of_lt hj)
  refine ⟨_, startedLists w t lists j, hreturns, ⟨hstarted.rtTick, hstarted.called, rfl⟩,
    ⟨hsound, hlisted.rings, hlisted.sub, hlisted.ordered.imp fun {s u} hsu => ?_, fun s hs => ?_⟩,
    _, _, (h.listed.erased_cut hfits c.bottom_lt).symm, hbottom⟩
  · have hdeadline : ∀ s, (v.timer s).timeoutTick =
        (Function.update w.timer t (w.restarted t) s).timeoutTick := by
      intro s
      rw [hstarted.timer]
      by_cases hs : s = t
      · subst hs
        rw [Function.update_self, Function.update_self]
        rfl
      · rw [Function.update_of_ne hs, Function.update_of_ne hs]
        rfl
    have hle := hsu.1
    rw [hdeadline, hdeadline] at hle
    exact hle
  · dsimp only
    rw [hstarted.rtTick]
    change Armed base w.rtTick span _
    rw [hbottom, mem_place, h.nodup.mem_erase_iff] at hs
    obtain rfl | ⟨hst, hs⟩ := hs
    · rw [Function.update_self]
      refine ⟨rfl, htype, hpos, hle, ?_, ?_⟩
      · change 1 ≤ Serial.offset base (w.newDeadline s)
        omega
      · change Serial.offset base (w.newDeadline s) ≤ Serial.offset base w.rtTick + span
        omega
    · rw [Function.update_of_ne hst]
      exact h.armed s hs

/-- A change of a timer that is not listed, or that leaves its deadline as it is. -/
theorem Held.setTimer (h : Held c base span w lists) (f : RtTimer → RtTimer)
    (hsound : Sound c (w.setTimer t f))
    (ht : t ∈ lists (c.skipListLevel - 1) →
      (f (w.timer t)).timeoutTick = (w.timer t).timeoutTick ∧
        Armed base w.rtTick span (f (w.timer t))) :
    Held c base span (w.setTimer t f) lists := by
  have hdeadline : ∀ s ∈ lists (c.skipListLevel - 1),
      ((w.setTimer t f).timer s).timeoutTick = (w.timer s).timeoutTick := by
    intro s hs
    by_cases hst : s = t
    · subst hst
      rw [setTimer_self]
      exact (ht hs).1
    · rw [setTimer_of_ne hst]
  refine ⟨hsound, h.rings, h.sub, h.ordered.imp_of_mem fun hs hu hsu => ?_, fun s hs => ?_⟩
  · rw [hdeadline _ hs, hdeadline _ hu]
    exact hsu
  · by_cases hst : s = t
    · subst hst
      rw [setTimer_self]
      exact (ht hs).2
    · rw [setTimer_of_ne hst]
      exact h.armed s hs

theorem Held.timerRemove (h : Held c base span w lists) (t : T) :
    Held c base span (w.timerRemove c t) fun r => (lists r).erase t :=
  ⟨(h.sound.timerRemove t).1, timerRemove_rings h.rings t, fun r hr => (h.sub r hr).erase t,
    h.ordered.sublist List.erase_sublist, fun s hs => h.armed s (List.mem_of_mem_erase hs)⟩

/-- A timer that is taken out of the lists, whatever is written to it then. -/
theorem Held.taken (h : Held c base span w lists) (t : T) (f : RtTimer → RtTimer) :
    Held c base span ((w.timerRemove c t).setTimer t f) fun r => (lists r).erase t := by
  obtain ⟨hsound, -, hoff⟩ := h.sound.timerRemove t
  have hremoved := h.timerRemove t
  exact hremoved.setTimer f (hsound.setTimer f fun _ => hoff) fun hmem =>
    absurd hmem (hremoved.not_mem hoff)

section Due

variable {touched : Set T} (ht : t ∈ touched)

include ht

theorem erase_dueKept {l : List T} (hnodup : l.Nodup) (htick : w'.rtTick = w.rtTick)
    (htimer : ∀ s ≠ t, w'.timer s = w.timer s) : DueKept touched w w' l (l.erase t) := by
  refine .of_same ht htick htimer ?_ fun s hs hmem => hnodup.mem_erase_iff.mpr ⟨hs, hmem⟩
  have hdue : (l.erase t).filter w'.due = (l.erase t).filter w.due :=
    List.filter_congr fun s hs =>
      due_congr htick (congrArg _ (htimer s (hnodup.mem_erase_iff.mp hs).1))
  rw [hdue]
  exact List.erase_sublist.filter _

/-- A started timer is not due. -/
theorem Held.started_dueKept (h : Held c base span w lists) (hwindow : w.Window base span)
    (hstart : w.Startable t) (hpromised : (TimerCall.start t).Promised span w)
    (hstarted : Started w w' t) {pre post l' : List T}
    (herase : (lists (c.skipListLevel - 1)).erase t = pre ++ post) (hl' : l' = pre ++ t :: post) :
    DueKept touched w w' (lists (c.skipListLevel - 1)) l' := by
  have htimer : ∀ s ≠ t, w'.timer s = w.timer s := fun s hs => by
    rw [hstarted.timer, Function.update_of_ne hs]
  have hnot : ¬w'.due t = true := by
    have hoffset := hwindow.offset_newDeadline hstart
    obtain ⟨hpos, hle⟩ := hpromised
    have hnew : (w'.timer t).timeoutTick = w.newDeadline t := by
      rw [hstarted.timer, Function.update_self]
    rw [Timers.Window] at hwindow
    have htick : Serial.offset base w'.rtTick < halfTicks := by
      rw [hstarted.rtTick]
      omega
    rw [due_iff htick (by rw [hnew]; omega), hnew, hstarted.rtTick]
    omega
  have herased := erase_dueKept ht h.nodup hstarted.rtTick htimer
  rw [herase] at herased
  have hfilter : l'.filter w'.due = (pre ++ post).filter w'.due := by
    rw [hl', List.filter_append, List.filter_append, List.filter_cons_of_neg hnot]
  exact ⟨hfilter ▸ herased.sublist, fun s hs hmem => hfilter ▸ herased.kept s hs hmem⟩

omit ht in
theorem Held.setTimer_kept (h : Held c base span w lists) {f : RtTimer → RtTimer}
    (hsound : Sound c (w.setTimer t f))
    (hft : t ∈ lists (c.skipListLevel - 1) →
      (f (w.timer t)).timeoutTick = (w.timer t).timeoutTick ∧
        Armed base w.rtTick span (f (w.timer t))) :
    Kept c base span touched w (w.setTimer t f) lists := by
  refine ⟨lists, h.setTimer f hsound hft, .of_due fun s hs => due_congr rfl ?_⟩
  by_cases hst : s = t
  · subst hst
    rw [setTimer_self]
    exact (hft hs).1
  · rw [setTimer_of_ne hst]

theorem Held.removed_kept (h : Held c base span w lists) :
    Kept c base span touched w (w.removed c t) lists :=
  ⟨_, h.taken t fun timer => { timer with activated := false },
    erase_dueKept ht h.nodup rfl (h.sound.removed t).2.1.timer⟩

theorem Held.detach_kept (h : Held c base span w lists)
    (hsound : Sound c ((w.removed c t).rtObjectDetach t)) :
    Kept c base span touched w ((w.removed c t).rtObjectDetach t) lists := by
  have hout : t ∉ (lists (c.skipListLevel - 1)).erase t := fun hmem =>
    (h.nodup.mem_erase_iff.mp hmem).1 rfl
  have herased : DueKept touched w (w.removed c t) (lists (c.skipListLevel - 1))
      ((lists (c.skipListLevel - 1)).erase t) :=
    erase_dueKept ht h.nodup rfl (h.sound.removed t).2.1.timer
  obtain ⟨lists', hheld, hdue⟩ :=
    (h.taken t fun timer => { timer with activated := false }).setTimer_kept hsound
      fun hmem => absurd hmem hout
  exact ⟨lists', hheld, herased.trans hdue⟩

end Due

/-- **Every promised call** keeps the lists, and no timer gets due by it. -/
theorem Held.exec {touched : Set T} {call : TimerCall T} (ht : call.timer ∈ touched)
    (h : Held c base span w lists) (hwindow : w.Window base span)
    (hpromised : call.Promised span w) (hexec : Returns (fun fuel => call.exec c fuel w) w') :
    Kept c base span touched w w' lists := by
  obtain ⟨hsound, -⟩ := h.sound.returns hexec
  have hreturns := hexec
  obtain ⟨n, hn⟩ := hexec
  have hsome := hn n (Nat.le_refl n)
  cases call with
  | init t time flag =>
    obtain ⟨htype, hw⟩ := Option.ite_none_left_eq_some.mp hsome
    have hoff := h.sound.unused t (not_not.mp htype)
    obtain rfl := Option.some.inj hw
    rw [timerInit_eq hoff] at hsound ⊢
    exact h.setTimer_kept hsound fun hmem => absurd hmem (h.not_mem hoff)
  | create t time flag =>
    obtain ⟨htype, hw⟩ := Option.ite_none_left_eq_some.mp hsome
    have hoff := h.sound.unused t (not_not.mp htype)
    obtain rfl := Option.some.inj hw
    rw [timerInit_eq hoff] at hsound ⊢
    exact h.setTimer_kept hsound fun hmem => absurd hmem (h.not_mem hoff)
  | start t =>
    have hstart := rtTimerStart_type hsome
    obtain ⟨w₁, lists₁, hw₁, hstarted, hheld, pre, post, herase, hbottom⟩ :=
      h.start hwindow hstart.type hpromised
    obtain rfl := hw₁.unique hreturns
    exact ⟨lists₁, hheld, h.started_dueKept ht hwindow hstart hpromised hstarted herase hbottom⟩
  | stop t =>
    obtain ⟨⟨r, w₁⟩, hr, rfl⟩ := Option.map_eq_some_iff.mp hsome
    obtain rfl | rfl := rtTimerStop_cases hr
    · exact ⟨lists, h, .refl _ _⟩
    · exact h.removed_kept ht
  | detach t =>
    obtain rfl := rtTimerDetach_eq hsome
    exact h.detach_kept ht hsound
  | delete t =>
    obtain rfl := rtTimerDelete_eq hsome
    exact h.detach_kept ht hsound
  | control t cmd arg =>
    obtain ⟨⟨r, w₁⟩, hr, rfl⟩ := Option.map_eq_some_iff.mp hsome
    obtain rfl | ⟨hcmd, rfl⟩ | ⟨periodic, rfl⟩ := rtTimerControl_cases hr
    · exact ⟨lists, h, .refl _ _⟩
    · -- the new time counts from the next start on
      obtain ⟨hpos, hle⟩ := hpromised hcmd
      refine h.setTimer_kept (f := fun timer => { timer with initTick := arg }) hsound
        fun hmem => ⟨rfl, ?_⟩
      have harmed := h.armed t hmem
      exact ⟨harmed.activated, harmed.type, hpos, hle, harmed.after, harmed.fits⟩
    · refine h.setTimer_kept (f := fun timer => { timer with periodic := periodic }) hsound
        fun hmem => ⟨rfl, ?_⟩
      have harmed := h.armed t hmem
      exact ⟨harmed.activated, harmed.type, harmed.time_pos, harmed.time_le, harmed.after,
        harmed.fits⟩

/-- **The calls of a callback.** -/
theorem Held.calls {touched : Set T} {calls : List (TimerCall T)} (h : Held c base span w lists)
    (hwindow : w.Window base span) (hcalls : Calls c span calls w w')
    (htouched : ∀ call ∈ calls, call.timer ∈ touched) :
    Kept c base span touched w w' lists ∧ w'.rtTick = w.rtTick ∧ w'.called = w.called := by
  induction hcalls generalizing lists with
  | nil => exact ⟨⟨lists, h, .refl _ _⟩, rfl, rfl⟩
  | cons hpromised hexec _ ih =>
    rw [List.forall_mem_cons] at htouched
    obtain ⟨-, hframed⟩ := h.sound.returns hexec
    obtain ⟨lists₁, hheld, hdue⟩ := h.exec htouched.1 hwindow hpromised hexec
    obtain ⟨⟨lists₂, hheld', hdue'⟩, htick, hcalled⟩ :=
      ih hheld (hwindow.of_rtTick hframed.rtTick) htouched.2
    exact ⟨⟨lists₂, hheld', hdue.trans hdue'⟩, htick.trans hframed.rtTick,
      hcalled.trans hframed.called⟩

/-! ## One round -/

section Round

variable {callback : T → Timers T → Timers T} {touched : T → Set T}

/-- The timer whose callback is made next: out of the lists, active if it is periodic. -/
def Timers.popped (c : TimerConfig) (t : T) (w : Timers T) : Timers T :=
  { (w.timerRemove c t).setActivated t (w.timer t).periodic with called := w.called ++ [t] }

theorem popped_timer_of_ne (hs : s ≠ t) : (w.popped c t).timer s = w.timer s :=
  setTimer_of_ne hs (fun timer => { timer with activated := (w.timer t).periodic })
    (w.timerRemove c t)

theorem fireTimer_eq (hactivated : (w.timer t).activated = true) :
    w.fireTimer c callback t = callback t ((w.popped c t).pend c t) := by
  rw [Timers.fireTimer]
  split
  · -- the flag is set already
    have hsame : (w.timerRemove c t).setActivated t true = w.timerRemove c t := by
      refine congrArg (fun timer => { w.timerRemove c t with timer := timer }) ?_
      refine Function.update_eq_self_iff.mpr ?_
      rw [timerRemove_timer, ← hactivated]
    rename_i hperiodic
    rw [timerRemove_timer] at hperiodic
    rw [Timers.popped, hperiodic, hsame]
    rfl
  · rename_i hperiodic
    rw [timerRemove_timer, Bool.not_eq_true] at hperiodic
    rw [Timers.popped, hperiodic]
    rfl

theorem Held.popped (h : Held c base span w lists) (ht : t ∈ lists (c.skipListLevel - 1)) :
    Held c base span (w.popped c t) (fun r => (lists r).erase t) ∧
      Pending c span (w.popped c t) t := by
  obtain ⟨-, -, hoff⟩ := h.sound.timerRemove t
  have harmed := h.armed t ht
  have htaken := h.taken t fun timer => { timer with activated := (w.timer t).periodic }
  have htimer : (w.popped c t).timer t = { w.timer t with activated := (w.timer t).periodic } :=
    setTimer_self t (fun timer => { timer with activated := (w.timer t).periodic })
      (w.timerRemove c t)
  refine ⟨⟨⟨htaken.sound.paired, htaken.sound.list, htaken.sound.unused⟩, htaken.rings, htaken.sub,
    htaken.ordered, htaken.armed⟩, hoff, ?_, ?_, ?_⟩
  · rw [htimer]
    exact harmed.type
  · rw [htimer]
    exact harmed.time_pos
  · rw [htimer]
    exact harmed.time_le

/-- The rest of a round, once the callback is over. -/
def Timers.afterCallback (c : TimerConfig) (callback : T → Timers T → Timers T) (t : T)
    (fuel : ℕ) (w : Timers T) : Option (Timers T) :=
  if w.links.next .list = .list then w.checkLoop c callback fuel w.rtTick
  else
    let w := w.setLinks (·.remove (.row t (c.skipListLevel - 1)))
    if (w.timer t).periodic ∧ (w.timer t).activated then
      ((w.setActivated t false).rtTimerStart c t fuel).bind
        (Timers.checkLoop c callback fuel w.rtTick)
    else Timers.checkLoop c callback fuel w.rtTick w

theorem Held.checkLoop_eq (h : Held c base span w lists) {l : List T}
    (hl : lists (c.skipListLevel - 1) = t :: l) (hdue : w.due t = true) (fuel : ℕ) :
    w.checkLoop c callback (fuel + 1) w.rtTick =
      Timers.afterCallback c callback t fuel (callback t ((w.popped c t).pend c t)) := by
  have hactivated := (h.armed t (hl ▸ List.mem_cons_self)).activated
  have hhead : w.links.next (.head (c.skipListLevel - 1)) = .row t (c.skipListLevel - 1) := by
    rw [(h.rings.ring _ c.bottom_lt).next_head, hl]
    rfl
  have hsome : w.links.next (.head (c.skipListLevel - 1)) ≠ .head (c.skipListLevel - 1) := by
    rw [hhead]
    exact nofun
  have hdue' : w.rtTick - (w.timer t).timeoutTick < rtTickMax / 2 := of_decide_eq_true hdue
  rw [Timers.checkLoop, if_neg hsome, hhead]
  simp only [if_pos hdue', fireTimer_eq hactivated]
  rfl

theorem afterCallback_pend (h : Sound c w) (hoff : Off c w t) (fuel : ℕ) :
    (w.pend c t).afterCallback c callback t fuel =
      if (w.timer t).periodic ∧ (w.timer t).activated then
        ((w.setActivated t false).rtTimerStart c t fuel).bind
          (Timers.checkLoop c callback fuel w.rtTick)
      else Timers.checkLoop c callback fuel w.rtTick w := by
  have hlist : (w.pend c t).links.next .list ≠ .list := by
    simp [Timers.pend, Timers.setLinks, Links.insertAfter]
  have hremove : (w.pend c t).setLinks (·.remove (.row t (c.skipListLevel - 1))) = w :=
    congrArg (fun m => { w with links := m })
      (Links.remove_insertAfter h.list (hoff _ c.bottom_lt) (by simp))
  rw [Timers.afterCallback, if_neg hlist]
  simp only [hremove]

/-- **The end of a round**: the timer whose callback is over is on the temporary list. A periodic one
that is still active is started again. -/
theorem Held.settle (h : Held c base span w lists) (hwindow : w.Window base span)
    (hp : Pending c span w t) {u : Set T} (ht : t ∈ u) :
    ∃ w₁, Kept c base span u w w₁ lists ∧ w₁.rtTick = w.rtTick ∧ w₁.called = w.called ∧
      ∀ w', Returns (fun fuel => w₁.checkLoop c callback fuel w₁.rtTick) w' →
        Returns (fun fuel => if (w.timer t).periodic ∧ (w.timer t).activated then
          ((w.setActivated t false).rtTimerStart c t fuel).bind
            (Timers.checkLoop c callback fuel w.rtTick)
          else Timers.checkLoop c callback fuel w.rtTick w) w' := by
  by_cases hrearm : (w.timer t).periodic ∧ (w.timer t).activated
  · have hsound : Sound c (w.setActivated t false) := h.sound.setTimer _ fun _ => hp.off
    have hout := h.not_mem hp.off
    have hstopped : Held c base span (w.setActivated t false) lists :=
      h.setTimer _ hsound fun hmem => absurd hmem hout
    have htimer : (w.setActivated t false).timer t = { w.timer t with activated := false } :=
      setTimer_self t (fun timer => { timer with activated := false }) w
    have htype : ((w.setActivated t false).timer t).rtObjectGetType = rtObjectClassTimer := by
      rw [htimer]
      exact hp.type
    have hpromised : (TimerCall.start t).Promised span (w.setActivated t false) := by
      rw [TimerCall.Promised, htimer]
      exact ⟨hp.time_pos, hp.time_le⟩
    obtain ⟨w₁, lists₁, hw₁, hstarted, hheld, pre, post, herase, hbottom⟩ :=
      hstopped.start (hwindow.of_rtTick rfl) htype hpromised
    have hdue : DueKept u w w₁ (lists (c.skipListLevel - 1)) (lists₁ (c.skipListLevel - 1)) := by
      have hkept := hstopped.started_dueKept ht (hwindow.of_rtTick rfl)
        (rtTimerStart_startable hw₁) hpromised hstarted herase hbottom
      have hset : DueKept u w (w.setActivated t false) (lists (c.skipListLevel - 1))
          (lists (c.skipListLevel - 1)) := by
        refine .of_due fun s hs => due_congr rfl ?_
        have hst : s ≠ t := fun heq => hout (heq ▸ hs)
        rw [Timers.setActivated, setTimer_of_ne hst]
      exact hset.trans hkept
    refine ⟨w₁, ⟨lists₁, hheld, hdue⟩, hstarted.rtTick, hstarted.called, fun w' hw' => ?_⟩
    simp only [if_pos hrearm]
    rw [hstarted.rtTick] at hw'
    exact hw₁.bind hw'
  · refine ⟨w, ⟨lists, h, .refl w _⟩, rfl, rfl, fun w' hw' => ?_⟩
    simp only [if_neg hrearm]
    exact hw'

/-- **One round** makes the callback of the first timer, and what it does to the others is up to the
calls it makes. -/
theorem Held.round (hcallback : CallbackOk c span touched callback)
    (h : Held c base span w lists) (hwindow : w.Window base span) {l : List T}
    (hl : lists (c.skipListLevel - 1) = t :: l) (hdue : w.due t = true) :
    ∃ w₁ lists₁, Held c base span w₁ lists₁ ∧
      DueKept {s | s = t ∨ s ∈ touched t} w w₁ l (lists₁ (c.skipListLevel - 1)) ∧
      w₁.rtTick = w.rtTick ∧ w₁.called = w.called ++ [t] ∧
      ∀ w', Returns (fun fuel => w₁.checkLoop c callback fuel w₁.rtTick) w' →
        Returns (fun fuel => w.checkLoop c callback fuel w.rtTick) w' := by
  have hmem : t ∈ lists (c.skipListLevel - 1) := hl ▸ List.mem_cons_self
  obtain ⟨hheld, hpending⟩ := h.popped hmem
  obtain ⟨calls, hcalls, htouched⟩ := hcallback t ((w.popped c t).pend c t)
  obtain ⟨w₂, hcalls₂, hend⟩ := hcalls.unpend hheld.sound hpending
  have hin : ∀ call ∈ calls, call.timer ∈ {s | s = t ∨ s ∈ touched t} := fun call hcall =>
    .inr (htouched call hcall)
  obtain ⟨⟨lists₂, hheld₂, hdue₂⟩, htick, hcalled⟩ :=
    hheld.calls (hwindow.of_rtTick rfl) hcalls₂ hin
  have hpopped : DueKept {s | s = t ∨ s ∈ touched t} w (w.popped c t) l
      ((lists (c.skipListLevel - 1)).erase t) := by
    rw [hl, List.erase_cons_head]
    refine .of_due fun s hs => due_congr rfl ?_
    have hnodup := h.nodup
    rw [hl, List.nodup_cons] at hnodup
    have hst : s ≠ t := fun heq => hnodup.1 (heq ▸ hs)
    rw [popped_timer_of_ne hst]
  rcases hend with heq | ⟨heq, hpending₂⟩
  · -- the callback has taken its timer off the temporary list
    refine ⟨w₂, lists₂, hheld₂, hpopped.trans hdue₂, htick, hcalled, fun w' hw' => ?_⟩
    refine Returns.of_succ (h.checkLoop_eq hl hdue) ?_
    simp only [heq, Timers.afterCallback, if_pos hheld₂.sound.list.1]
    exact hw'
  · obtain ⟨w₁, ⟨lists₁, hheld₁, hdue₁⟩, htick₁, hcalled₁, hloop⟩ :=
      hheld₂.settle (hwindow.of_rtTick htick) hpending₂ (show t ∈ {s | s = t ∨ s ∈ touched t} from .inl rfl)
    refine ⟨w₁, lists₁, hheld₁, (hpopped.trans hdue₂).trans hdue₁, htick₁.trans htick,
      hcalled₁.trans hcalled, fun w' hw' => ?_⟩
    refine Returns.of_succ (h.checkLoop_eq hl hdue) ?_
    simp only [heq, afterCallback_pend hheld₂.sound hpending₂.off]
    exact hloop w' hw'

/-! ## All rounds -/

/-- The loop ends when no timer is due. -/
theorem Held.checkLoop_done (h : Held c base span w lists)
    (hdone : ∀ s ∈ lists (c.skipListLevel - 1), w.due s = false) :
    Returns (fun fuel => w.checkLoop c callback fuel w.rtTick) w := by
  refine Returns.of_succ (fun fuel => ?_) (Returns.of_eq fun _ => rfl)
  have hhead := (h.rings.ring _ c.bottom_lt).next_head
  rw [Timers.checkLoop, hhead]
  cases hl : lists (c.skipListLevel - 1) with
  | nil => exact if_pos rfl
  | cons t l =>
    rw [hl] at hdone
    have hdue : ¬w.rtTick - (w.timer t).timeoutTick < rtTickMax / 2 :=
      of_decide_eq_false (hdone t List.mem_cons_self)
    rw [if_neg fun heq => by cases heq]
    exact if_neg hdue

/-- **The loop** makes the callbacks of due timers, in their order, and leaves none that is due. A due
timer is passed over only if another callback touches it. -/
theorem Held.check (hcallback : CallbackOk c span touched callback)
    (h : Held c base span w lists) (hwindow : w.Window base span) :
    ∃ w' lists' fired, Returns (fun fuel => w.checkLoop c callback fuel w.rtTick) w' ∧
      Held c base span w' lists' ∧ w'.rtTick = w.rtTick ∧ w'.called = w.called ++ fired ∧
      fired.Sublist ((lists (c.skipListLevel - 1)).filter w.due) ∧
      (∀ s ∈ (lists (c.skipListLevel - 1)).filter w.due,
        (∀ u ∈ fired, u ≠ s → s ∉ touched u) → s ∈ fired) ∧
      ∀ s ∈ lists' (c.skipListLevel - 1), w'.due s = false := by
  -- by the number of due timers, which every round makes smaller
  obtain ⟨n, hn⟩ : ∃ n, ((lists (c.skipListLevel - 1)).filter w.due).length ≤ n := ⟨_, Nat.le_refl _⟩
  induction n generalizing w lists with
  | zero =>
    have hnil := List.eq_nil_of_length_eq_zero (Nat.le_zero.mp hn)
    have hdone : ∀ s ∈ lists (c.skipListLevel - 1), w.due s = false := fun s hs =>
      Bool.not_eq_true _ ▸ List.filter_eq_nil_iff.mp hnil s hs
    refine ⟨w, lists, [], h.checkLoop_done hdone, h, rfl, (List.append_nil _).symm,
      List.nil_sublist _, fun s hs _ => ?_, hdone⟩
    rw [hnil] at hs
    exact absurd hs List.not_mem_nil
  | succ n ih =>
    by_cases hsome : ∃ s ∈ lists (c.skipListLevel - 1), w.due s = true
    · obtain ⟨s, hs, hdue⟩ := hsome
      obtain ⟨t, l, hl⟩ := List.exists_cons_of_ne_nil (List.ne_nil_of_mem hs)
      have ht := h.head_due hwindow hl hs hdue
      obtain ⟨w₁, lists₁, hheld, hkept, htick, hcalled, hloop⟩ := h.round hcallback hwindow hl ht
      have hfilter : (lists (c.skipListLevel - 1)).filter w.due = t :: l.filter w.due := by
        rw [hl, List.filter_cons_of_pos ht]
      rw [hfilter, List.length_cons] at hn
      have hlength := hkept.sublist.length_le
      obtain ⟨w', lists', fired, hreturns, hheld', htick', hcalled', hsub, hall, hrest⟩ :=
        ih hheld (hwindow.of_rtTick htick) (by omega)
      refine ⟨w', lists', t :: fired, hloop w' hreturns, hheld', htick'.trans htick, ?_, ?_,
        fun s hs htouched => ?_, hrest⟩
      · rw [hcalled', hcalled, List.append_assoc, List.singleton_append]
      · rw [hfilter]
        exact (hsub.trans hkept.sublist).cons_cons t
      · rw [hfilter, List.mem_cons] at hs
        rw [List.forall_mem_cons] at htouched
        by_cases hst : s = t
        · exact hst ▸ List.mem_cons_self
        · refine List.mem_cons_of_mem t (hall s (hkept.kept s ?_ (hs.resolve_left hst)) htouched.2)
          rintro (heq | hmem)
          · exact hst heq
          · exact htouched.1 (Ne.symm hst) hmem
    · have hnil : (lists (c.skipListLevel - 1)).filter w.due = [] :=
        List.filter_eq_nil_iff.mpr fun s hs hdue => hsome ⟨s, hs, hdue⟩
      refine ih h hwindow ?_
      rw [hnil]
      exact Nat.zero_le n

end Round

/-! ## Runs -/

section Runs

variable {callback : T → Timers T → Timers T} {touched : T → Set T} {rtTick randomNr : U32}
  {type : T → U8} {time : T → U32} {periodic : T → Bool}

theorem rtTimerCheck_loop (h : Sound c w) (fuel : ℕ) :
    w.rtTimerCheck c callback fuel = w.checkLoop c callback fuel w.rtTick := by
  have hinit : w.setLinks (·.init .list) = w := by
    rw [Timers.setLinks, Links.init_eq h.list]
  rw [Timers.rtTimerCheck, hinit]

/-- **The lists of every state of a run.** -/
theorem Clocked.held (hfits : gap + span < halfTicks) (hcallback : CallbackOk c span touched callback)
    (h : Clocked c span gap callback (Timers.boot rtTick randomNr type time periodic) base w) :
    ∃ lists, Held c base span w lists ∧ Serial.offset base w.rtTick ≤ gap := by
  induction h with
  | boot =>
    refine ⟨_, boot_held _ rtTick randomNr type time periodic, ?_⟩
    rw [Serial.offset, BitVec.sub_self]
    exact Nat.zero_le gap
  | call call _ hpromised hexec ih =>
    obtain ⟨lists, hheld, hgap⟩ := ih
    obtain ⟨-, hframed⟩ := hheld.sound.returns hexec
    have hwindow : Timers.Window _ span _ := Nat.lt_of_le_of_lt (Nat.add_le_add_right hgap span) hfits
    obtain ⟨lists', hheld', -⟩ :=
      hheld.exec rfl hwindow hpromised hexec
    exact ⟨lists', hheld', hframed.rtTick ▸ hgap⟩
  | clock _ n hgap ih =>
    obtain ⟨lists, hheld, -⟩ := ih
    obtain ⟨hheld', hoffset⟩ := hheld.clock n gap hgap (by omega)
    exact ⟨lists, hheld', hoffset.trans_le hgap⟩
  | check _ hcheck ih =>
    obtain ⟨lists, hheld, hgap⟩ := ih
    have hwindow : Timers.Window _ span _ := Nat.lt_of_le_of_lt (Nat.add_le_add_right hgap span) hfits
    obtain ⟨w', lists', -, hw', hheld', htick, -, -, -, hdone⟩ := hheld.check hcallback hwindow
    simp only [← rtTimerCheck_loop hheld.sound] at hw'
    obtain rfl := hw'.unique hcheck
    refine ⟨lists', hheld'.rebase (hwindow.of_rtTick htick) hdone, ?_⟩
    rw [Serial.offset, BitVec.sub_self]
    exact Nat.zero_le gap

/-! ### Two timers

The first of two timers is for 2 ticks, and its callback stops the second, which is for 3. -/

/-- Two levels, one timer in two in the upper one. -/
abbrev twoRows : TimerConfig := ⟨2, 1, by decide⟩

def stopSecond (c : TimerConfig) (t : Bool) (w : Timers Bool) : Timers Bool :=
  if t then w else ((w.rtTimerStop c true).map Prod.snd).getD w

theorem stopSecond_ok : CallbackOk c span (fun t => {s | t = false ∧ s = true}) (stopSecond c) := by
  rintro (_ | _) w
  · cases hstop : w.rtTimerStop c true with
    | none =>
      refine ⟨[], ?_, by simp⟩
      rw [stopSecond, if_neg Bool.false_ne_true, hstop]
      exact .nil w
    | some r =>
      refine ⟨[.stop true], ?_, fun call hcall => List.mem_singleton.mp hcall ▸ ⟨rfl, rfl⟩⟩
      rw [stopSecond, if_neg Bool.false_ne_true, hstop]
      refine .cons trivial (Returns.of_eq fun fuel => ?_) (.nil _)
      rw [TimerCall.exec, hstop]
      rfl
  · exact ⟨[], .nil w, by simp⟩

def pairBoot : Timers Bool :=
  Timers.boot 0 0 (fun _ => rtObjectClassTimer) (fun t => if t then 3 else 2) fun _ => false

/-- Both are started at tick 0. -/
def pairStarted : Timers Bool :=
  let w := (pairBoot.rtTimerStart twoRows false 8).getD pairBoot
  (w.rtTimerStart twoRows true 8).getD w

theorem pairStarted_clocked (callback : Bool → Timers Bool → Timers Bool) :
    Clocked twoRows 3 3 callback pairBoot 0 pairStarted := by
  have hfirst : Returns (fun fuel => (TimerCall.start false).exec twoRows fuel pairBoot)
      ((pairBoot.rtTimerStart twoRows false 8).getD pairBoot) := .of_add 8 fun _ => rfl
  have hsecond : Returns (fun fuel => (TimerCall.start true).exec twoRows fuel
      ((pairBoot.rtTimerStart twoRows false 8).getD pairBoot)) pairStarted := .of_add 8 fun _ => rfl
  exact .call (.start true) (.call (.start false) .boot ⟨by decide, by decide⟩ hfirst)
    ⟨by decide, by decide⟩ hsecond

/-- A check at tick 2 or 3 makes the callback of the first timer only. -/
theorem pairStarted_check {n : U32} (hn : n = 2 ∨ n = 3) : ∃ w', Returns
    (fun fuel => (pairStarted.rtTickSet n).rtTimerCheck twoRows (stopSecond twoRows) fuel) w' ∧
    w'.called = [false] := by
  refine ⟨((pairStarted.rtTickSet n).rtTimerCheck twoRows (stopSecond twoRows) 8).getD pairStarted,
    .of_add 8 fun k => ?_, ?_⟩
  · rcases hn with rfl | rfl <;> rfl
  · rcases hn with rfl | rfl <;> decide +kernel

/-- The bottom row holds the two timers, the first one first. -/
theorem ByDeadline.pair {w : Timers Bool} {l : List Bool} (h : ByDeadline twoRows w l)
    (hlinks : w.links = pairStarted.links) : l = [false, true] := by
  have hring := h.ring
  rw [hlinks] at hring
  have hpair : pairStarted.links.IsRing (.head 1) (rows 1 [false, true]) :=
    ⟨by decide, by
      simp only [rows, List.map_cons, List.map_nil, List.cons_append, List.nil_append,
        List.isChain_cons_cons, List.isChain_singleton, and_true]
      exact ⟨⟨rfl, rfl⟩, ⟨rfl, rfl⟩, rfl, rfl⟩⟩
  refine List.map_injective_iff.mpr (fun s t hst => ?_) (hring.unique hpair)
  exact (Node.row.inj hst).1

/-- **Checks in a run**: whatever calls the callbacks make, every check returns. It calls due timers in
the order of their deadlines, each at most once and less than `gap` ticks late, passes over one only if
another callback touches it, and leaves none that is due. -/
theorem check_clocked (hfits : gap + span < halfTicks)
    (hcallback : CallbackOk c span touched callback)
    (h : Clocked c span gap callback (Timers.boot rtTick randomNr type time periodic) base w) :
    ∃ (w' : Timers T) (l l' fired : List T), ByDeadline c w l ∧ ByDeadline c w' l' ∧
      Returns (fun fuel => w.rtTimerCheck c callback fuel) w' ∧ w'.rtTick = w.rtTick ∧
      w'.called = w.called ++ fired ∧ fired.Sublist (l.filter w.due) ∧ fired.Nodup ∧
      (∀ s ∈ fired, (w.rtTick - (w.timer s).timeoutTick).toNat < gap) ∧
      (∀ s ∈ l, w.due s = true → (∀ u ∈ fired, u ≠ s → s ∉ touched u) → s ∈ fired) ∧
      ∀ s ∈ l', w'.due s = false := by
  obtain ⟨lists, hheld, hgap⟩ := h.held hfits hcallback
  have hwindow : w.Window base span := Nat.lt_of_le_of_lt (Nat.add_le_add_right hgap span) hfits
  obtain ⟨w', lists', fired, hreturns, hheld', htick, hcalled, hsub, hall, hdone⟩ :=
    hheld.check hcallback hwindow
  simp only [← rtTimerCheck_loop hheld.sound] at hreturns
  refine ⟨w', _, _, fired, hheld.byDeadline, hheld'.byDeadline, hreturns, htick, hcalled, hsub,
    (hheld.nodup.filter _).sublist hsub, fun s hs => ?_, fun s hs hdue htouched => ?_, hdone⟩
  · have hmem := List.mem_filter.mp (hsub.subset hs)
    have hafter := (hheld.armed s hmem.1).after
    have hfit := (hheld.armed s hmem.1).fits
    have hdue := hmem.2
    have hnow : Serial.offset base w.rtTick < halfTicks := by omega
    have hlate := Serial.toNat_sub_eq base (w.timer s).timeoutTick w.rtTick
    rw [due_iff hnow (by omega)] at hdue
    rw [if_pos hdue] at hlate
    omega
  · exact hall s (List.mem_filter.mpr ⟨hs, hdue⟩) htouched

/-- At tick 3 both timers are due: the first is called, and passes over the second, which it stops. -/
theorem check_clocked_pair :
    let w := pairStarted.rtTickSet 3
    ∃ (w' : Timers Bool) (l l' fired : List Bool), ByDeadline twoRows w l ∧ ByDeadline twoRows w' l' ∧
      l = [false, true] ∧ w.due false = true ∧ w.due true = true ∧
      Returns (fun fuel => w.rtTimerCheck twoRows (stopSecond twoRows) fuel) w' ∧
      w'.called = w.called ++ fired ∧ fired = [false] ∧ fired.Sublist (l.filter w.due) ∧
      (∀ s ∈ l, w.due s = true → (∀ u ∈ fired, u ≠ s → ¬(u = false ∧ s = true)) → s ∈ fired) ∧
      ∀ s ∈ l', w'.due s = false := by
  intro w
  have hclock := (pairStarted_clocked (stopSecond twoRows)).clock 3 (by decide)
  obtain ⟨w', l, l', fired, hl, hl', hreturns, -, hcalled, hsub, -, -, hall, hdone⟩ :=
    check_clocked (by decide) stopSecond_ok hclock
  obtain ⟨w₁, hw₁, hcalled₁⟩ := pairStarted_check (n := 3) (.inr rfl)
  obtain rfl := hreturns.unique hw₁
  exact ⟨w', l, l', fired, hl, hl', hl.pair rfl, by decide, by decide, hreturns,
    hcalled, hcalled.symm.trans hcalled₁, hsub, hall, hdone⟩

/-- **The timers of every state of a run** lie in nested lists, by deadline, no deadline is before the
last check or more than `span` ticks ahead, the next timeout is the first of them, and a promised start
returns. -/
theorem timers_clocked (hfits : gap + span < halfTicks)
    (hcallback : CallbackOk c span touched callback)
    (h : Clocked c span gap callback (Timers.boot rtTick randomNr type time periodic) base w) :
    ∃ lists : ℕ → List T, Rings c w.links lists ∧
      (∀ r, r + 1 < c.skipListLevel → (lists r).Sublist (lists (r + 1))) ∧
      ByDeadline c w (lists (c.skipListLevel - 1)) ∧
      (∀ t ∈ lists (c.skipListLevel - 1), (w.timer t).activated = true ∧
        1 ≤ Serial.offset base (w.timer t).timeoutTick ∧
        Serial.offset base (w.timer t).timeoutTick ≤ Serial.offset base w.rtTick + span) ∧
      w.rtTimerNextTimeoutTick c = (w.deadlines (lists (c.skipListLevel - 1))).headD rtTickMax ∧
      ∀ t, (w.timer t).rtObjectGetType = rtObjectClassTimer →
        (TimerCall.start t).Promised span w →
        ∃ w' l', Returns (fun fuel => w.rtTimerStart c t fuel) w' ∧ ByDeadline c w' l' ∧ t ∈ l' ∧
          (w'.timer t).timeoutTick = w.rtTick + (w.timer t).initTick := by
  obtain ⟨lists, hheld, hgap⟩ := h.held hfits hcallback
  have hwindow : w.Window base span := Nat.lt_of_le_of_lt (Nat.add_le_add_right hgap span) hfits
  refine ⟨lists, hheld.rings, hheld.sub, hheld.byDeadline, fun t ht => ?_, hheld.nextTimeout,
    fun t htype hpromised => ?_⟩
  · have harmed := hheld.armed t ht
    exact ⟨harmed.activated, harmed.after, harmed.fits⟩
  · obtain ⟨w', lists', hw', hstarted, hheld', pre, post, -, hbottom⟩ :=
      hheld.start hwindow htype hpromised
    refine ⟨w', _, hw', hheld'.byDeadline, ?_, ?_⟩
    · rw [hbottom]
      exact List.mem_append_right pre List.mem_cons_self
    · rw [hstarted.timer, Function.update_self]
      rfl

theorem timers_clocked_pair :
    ∃ lists : ℕ → List Bool, Rings twoRows pairStarted.links lists ∧ lists 1 = [false, true] ∧
      (lists 0).Sublist [false, true] ∧ ByDeadline twoRows pairStarted (lists 1) ∧
      (∀ t ∈ lists 1, (pairStarted.timer t).activated = true) ∧
      pairStarted.rtTimerNextTimeoutTick twoRows = 2 := by
  obtain ⟨lists, hrings, hsub, hby, harmed, hnext, -⟩ :=
    timers_clocked (by decide) stopSecond_ok (pairStarted_clocked (stopSecond twoRows))
  have hbottom : lists (twoRows.skipListLevel - 1) = [false, true] := hby.pair rfl
  refine ⟨lists, hrings, hbottom, hbottom ▸ hsub 0 (by decide), hby, fun t ht => (harmed t ht).1, ?_⟩
  rw [hnext, hbottom]
  decide

/-- **A sleep makes no timer late**: when the clock jumps from the tick of the last check to the next
timeout or a tick before it, and by at most `gap`, the check that follows calls only timers whose
deadline is the new tick. -/
theorem sleep_in_time (hfits : gap + span < halfTicks)
    (hcallback : CallbackOk c span touched callback)
    (h : Clocked c span gap callback (Timers.boot rtTick randomNr type time periodic) w.rtTick w)
    {n : ℕ} (hgap : n ≤ gap) (hn : n ≤ (w.rtTimerNextTimeoutTick c - w.rtTick).toNat) :
    ∃ (w' : Timers T) (fired : List T),
      Returns (fun fuel => (w.rtTickSet (w.rtTick + BitVec.ofNat 32 n)).rtTimerCheck c callback fuel)
        w' ∧ w'.rtTick = w.rtTick + BitVec.ofNat 32 n ∧ w'.called = w.called ++ fired ∧
      ∀ s ∈ fired, (w.timer s).timeoutTick = w.rtTick + BitVec.ofNat 32 n := by
  obtain ⟨lists, hheld, -⟩ := h.held hfits hcallback
  have hself : Serial.offset w.rtTick w.rtTick = 0 := congrArg BitVec.toNat (BitVec.sub_self _)
  obtain ⟨hheld', hoffset⟩ := hheld.clock n gap (by omega) (by omega)
  have hwindow : (w.rtTickSet (w.rtTick + BitVec.ofNat 32 n)).Window w.rtTick span := by
    rw [Timers.Window, rtTickSet_rtTick, hoffset]
    omega
  obtain ⟨w', lists', fired, hreturns, -, htick, hcalled, hsub, -, -⟩ :=
    hheld'.check hcallback hwindow
  simp only [← rtTimerCheck_loop hheld'.sound] at hreturns
  refine ⟨w', fired, hreturns, htick, hcalled, fun s hs => ?_⟩
  obtain ⟨hmem, hdue⟩ := List.mem_filter.mp (hsub.subset hs)
  have hfirst := hheld.next_le (by omega) hmem
  have hfit := (hheld'.armed s hmem).fits
  rw [rtTickSet_rtTick, rtTickSet_timer, hoffset] at hfit
  -- not before the next timeout, and not after the new tick
  have hnow : Serial.offset w.rtTick (w.rtTickSet (w.rtTick + BitVec.ofNat 32 n)).rtTick <
      halfTicks := by
    rw [rtTickSet_rtTick]
    omega
  rw [due_iff hnow (by rw [rtTickSet_timer]; omega), rtTickSet_rtTick, rtTickSet_timer,
    hoffset] at hdue
  have heq : Serial.offset w.rtTick (w.timer s).timeoutTick =
      Serial.offset w.rtTick (w.rtTick + BitVec.ofNat 32 n) := by
    change n ≤ Serial.offset w.rtTick (w.rtTimerNextTimeoutTick c) at hn
    omega
  have hdiff := BitVec.eq_of_toNat_eq heq
  grind

/-- A sleep to the deadline of the first timer: it is called, and nothing else is. -/
theorem sleep_in_time_two :
    ∃ (w' : Timers Bool) (fired : List Bool), pairStarted.rtTimerNextTimeoutTick twoRows = 2 ∧
      Returns (fun fuel => (pairStarted.rtTickSet 2).rtTimerCheck twoRows (stopSecond twoRows) fuel) w' ∧
      w'.rtTick = 2 ∧ w'.called = pairStarted.called ++ fired ∧ fired = [false] ∧
      ∀ s ∈ fired, (pairStarted.timer s).timeoutTick = 2 := by
  have hclocked : Clocked twoRows 3 3 (stopSecond twoRows) pairBoot pairStarted.rtTick pairStarted :=
    pairStarted_clocked (stopSecond twoRows)
  obtain ⟨w', fired, hreturns, htick, hcalled, hfired⟩ :=
    sleep_in_time (n := 2) (by decide) stopSecond_ok hclocked (by decide) (by decide)
  obtain ⟨w₁, hw₁, hcalled₁⟩ := pairStarted_check (n := 2) (.inl rfl)
  obtain rfl := hreturns.unique hw₁
  exact ⟨w', fired, by decide, hreturns, htick, hcalled, hcalled.symm.trans hcalled₁, hfired⟩

end Runs

end LowPower
