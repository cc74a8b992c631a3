import LowPower.Proof.PmSleep

/-!
# The low-power timer of a PM 2.0 pass

When the timer is started, for how long, and what is done with its count after the sleep.

* `deadline_kept_iff`: no sleep with the tick stopped lasts past an OS timer, exactly when the next
  deadline is still to come, is the earliest, and is not the marker for "no timer".
* `reads_own_timer_iff`: the count read back is that of a timer started in the same pass, exactly
  when the deadline was started for.
* `timers_checked_iff`: a pass that moved the tick checks the OS timers, exactly when the interrupt
  handlers leave the mode on the same side of `timer_mask`.
-/

namespace LowPower.Pm
namespace World

variable {X : Type} {w w' u : World X} {irq : Irq}

/-! ## The ways exclude each other -/

theorem FarDeadline.near {t : U32} (ht : w.FarDeadline t) : w.near = false :=
  (near_some ht.1).trans (decide_eq_false ht.2.2)

theorem FarDeadline.not_cutShort {t : U32} (ht : w.FarDeadline t) : ¬w.CutShort :=
  fun h => Bool.noConfusion (ht.near.symm.trans h.2.1)

theorem NullStart.not_isSome (h : w.NullStart) : ¬w.ops.timerStart.isSome = true := by
  have hnone := h.2.1
  rw [Option.isNone_iff_eq_none] at hnone
  rw [hnone]
  exact Bool.false_ne_true

theorem CutShort.not_nullStart (h : w.CutShort) : ¬w.NullStart :=
  fun h' => Bool.noConfusion (h'.2.2.1.symm.trans h.2.1)

/-- Without a deadline, or with the marker for one, there is nothing to lower the mode for. -/
theorem marker_not_cutShort (h : w.timers.head? = none ∨ w.timers.head? = some rtTickMax) :
    ¬w.CutShort := by
  intro hc
  rcases h with hh | hh
  · have hsome := near_isSome hc.2.1
    rw [hh] at hsome
    exact Bool.noConfusion hsome
  · exact hc.2.2 hh

theorem marker_not_nullStart (h : w.timers.head? = none ∨ w.timers.head? = some rtTickMax) :
    ¬w.NullStart := by
  rintro ⟨-, -, -, hsome, hne⟩
  rcases h with hh | hh
  · rw [hh] at hsome
    exact Bool.noConfusion hsome
  · exact hne hh

theorem marker_not_far (h : w.timers.head? = none ∨ w.timers.head? = some rtTickMax) (t : U32) :
    ¬w.FarDeadline t := by
  rintro ⟨ht, hne, -⟩
  rcases h with hh | hh
  · exact absurd (ht.symm.trans hh) (by simp)
  · exact hne (Option.some.inj (ht.symm.trans hh))

/-! ## Reading a pass -/

theorem mem_passPower {e : Ev} (he : e.ofPower = true) :
    e ∈ passPower irq w ↔ e ∈ w.since (w.pmChangeSleepMode irq) := by
  rw [passPower, List.mem_filter]
  exact and_iff_left he

theorem mem_sleeps {es : List Ev} {mode : U8} : mode ∈ sleeps es ↔ .sleep mode ∈ es := by
  unfold sleeps
  rw [List.mem_filterMap]
  constructor
  · rintro ⟨e, he, hem⟩
    cases e <;> simp only [reduceCtorEq, Option.some.injEq] at hem
    subst hem
    exact he
  · intro h
    exact ⟨_, h, rfl⟩

theorem mem_wakeEvs {mode : U8} {d : U32} {e : Ev} (he : e ∈ w.wakeEvs mode d) :
    e = .timerGetTick d ∨ e = .timerStop ∨ e = .rtTickSet (w.rtTick + d) := by
  unfold wakeEvs at he
  split_ifs at he <;> simp at he <;> tauto

/-- The timer starts of a pass that sleeps. -/
theorem timerStart_mem_iff (irq : Irq) (hdead : w.dead = false) (h : ¬w.Awake)
    (hr : w.suspendRet = rtEok) {start : Option U32} {mode : U8} (hp : w.plan = some (start, mode))
    (t : U32) : .timerStart t ∈ w.since (w.pmChangeSleepMode irq) ↔ start = some t := by
  obtain ⟨d, u, -, -, hpass⟩ := passPower_slept irq hdead h hr hp
  rw [← mem_passPower rfl, hpass]
  constructor
  · intro hmem
    rcases List.mem_append.1 hmem with hmem | hmem
    · rcases List.mem_append.1 hmem with hmem | hmem
      · obtain ⟨t', ht', he⟩ := List.mem_map.1 hmem
        obtain rfl : t' = t := by simpa using he
        exact Option.mem_toList.1 ht'
      · rcases List.mem_cons.1 hmem with he | hmem
        · exact Ev.noConfusion he
        · rcases mem_wakeEvs hmem with he | he | he <;> exact Ev.noConfusion he
    · rcases checkEvs_mem hmem with he | he <;> exact Ev.noConfusion he
  · rintro rfl
    simp

/-- A timer start comes before the sleep. -/
theorem timerStart_sublist (irq : Irq) (hdead : w.dead = false) (h : ¬w.Awake)
    (hr : w.suspendRet = rtEok) {t : U32} {mode : U8} (hp : w.plan = some (some t, mode)) :
    [.timerStart t, .sleep mode].Sublist (w.since (w.pmChangeSleepMode irq)) := by
  obtain ⟨d, u, -, -, hpass⟩ := passPower_slept irq hdead h hr hp
  have hsub : [.timerStart t, .sleep mode].Sublist (passPower irq w) := by
    rw [hpass]
    simp
  exact hsub.trans List.filter_sublist

/-! ## Deadlines -/

/-- The signed distance from the tick to a deadline, at most half the range away. -/
def distance (now t : U32) : ℤ := (t - now).toInt

theorem distance_le_toNat (now t : U32) : distance now t ≤ (t - now).toNat := by
  unfold distance
  rw [BitVec.toInt_eq_toNat_cond]
  split_ifs <;> omega

theorem toNat_of_distance_pos {now t : U32} (h : 0 ≤ distance now t) :
    ((t - now).toNat : ℤ) = distance now t := by
  unfold distance at *
  rw [BitVec.toInt_eq_toNat_cond] at *
  have hlt := (t - now).isLt
  split_ifs at * <;> omega

/-- Every sleep of the pass with the tick stopped was preceded by a timer start that ends by the
earliest deadline, and there is none when a deadline is already reached. -/
def DeadlineKept (irq : Irq) (w : World X) : Prop :=
  ∀ mode, .sleep mode ∈ w.since (w.pmChangeSleepMode irq) → w.pm.masked mode = true →
    (∃ t : U32, [.timerStart t, .sleep mode].Sublist (w.since (w.pmChangeSleepMode irq)) ∧
      2 ≤ t ∧ t < rtTickMax ∧ ∀ t' ∈ w.timers, (t.toNat : ℤ) ≤ distance w.rtTick t') ∧
    ¬∃ t' ∈ w.timers, distance w.rtTick t' ≤ 0

/-- The next deadline is to come, and no other one comes before it. -/
def EarliestAhead (w : World X) : Prop :=
  ∃ t, w.timers.head? = some t ∧ t ≠ rtTickMax ∧ 2 ≤ distance w.rtTick t ∧
    ∀ t' ∈ w.timers, distance w.rtTick t ≤ distance w.rtTick t'

/-- No deadline is missed from this state. -/
def MeetsDeadline (w : World X) : Prop :=
  if w.Awake then ¬w.pm.masked pmSleepModeNone = true
  else
    w.suspendRet ≠ rtEok ∨ ¬w.pm.masked w.pm.sleepMode = true ∨ w.NullStart ∨
      (w.CutShort ∧ ¬w.pm.masked pmSleepModeIdle = true) ∨ w.EarliestAhead

/-- A pass that sleeps keeps the deadlines when its only sleep does. -/
theorem deadlineKept_slept (irq : Irq) (hdead : w.dead = false) (h : ¬w.Awake)
    (hr : w.suspendRet = rtEok) {start : Option U32} {mode : U8} (hp : w.plan = some (start, mode)) :
    DeadlineKept irq w ↔ (w.pm.masked mode = true →
      (∃ t : U32, start = some t ∧ 2 ≤ t ∧ t < rtTickMax ∧
        ∀ t' ∈ w.timers, (t.toNat : ℤ) ≤ distance w.rtTick t') ∧
      ¬∃ t' ∈ w.timers, distance w.rtTick t' ≤ 0) := by
  have hsleeps := pass_sleeps irq hdead h hr
  -- the pass sleeps once
  have hone : ∀ m, .sleep m ∈ w.since (w.pmChangeSleepMode irq) ↔ m = mode := by
    intro m
    rw [← mem_sleeps, hsleeps, hp]
    simp
  unfold DeadlineKept
  constructor
  · intro hk hm
    obtain ⟨⟨t, hsub, hrest⟩, hreached⟩ := hk mode ((hone mode).2 rfl) hm
    have hmem := hsub.subset List.mem_cons_self
    exact ⟨⟨t, (timerStart_mem_iff irq hdead h hr hp t).1 hmem, hrest⟩, hreached⟩
  · intro hk m hmem hm
    obtain rfl := (hone m).1 hmem
    obtain ⟨⟨t, rfl, hrest⟩, hreached⟩ := hk hm
    exact ⟨⟨t, timerStart_sublist irq hdead h hr hp, hrest⟩, hreached⟩

/-- For a timer start at a far deadline, keeping the deadlines is being the earliest ahead. -/
theorem far_kept_iff {t : U32} (ht : w.FarDeadline t) :
    ((2 ≤ t - w.rtTick ∧ t - w.rtTick < rtTickMax ∧
        ∀ t' ∈ w.timers, ((t - w.rtTick).toNat : ℤ) ≤ distance w.rtTick t') ∧
      ¬∃ t' ∈ w.timers, distance w.rtTick t' ≤ 0) ↔ w.EarliestAhead := by
  obtain ⟨hh, hne, hfar⟩ := ht
  have hmem : t ∈ w.timers := List.mem_of_mem_head? hh
  have hfar' : 2 ≤ (t - w.rtTick).toNat := by
    have h2 := BitVec.not_lt.1 hfar
    exact h2
  have hle := distance_le_toNat w.rtTick t
  constructor
  · rintro ⟨⟨-, -, hall⟩, -⟩
    -- the start is no longer than the distance to the head, so the head is ahead
    have heq : ((t - w.rtTick).toNat : ℤ) = distance w.rtTick t := le_antisymm (hall t hmem) hle
    refine ⟨t, hh, hne, by omega, ?_⟩
    rw [← heq]
    exact hall
  · rintro ⟨s, hs, -, h2, hall⟩
    obtain rfl : s = t := Option.some.inj (hs.symm.trans hh)
    have heq : ((s - w.rtTick).toNat : ℤ) = distance w.rtTick s := toNat_of_distance_pos (by omega)
    -- a signed distance is below half the range, so the start is no marker
    have hhalf : distance w.rtTick s < 2 ^ 31 := BitVec.toInt_lt
    refine ⟨⟨hfar', ?_, ?_⟩, ?_⟩
    · show (s - w.rtTick).toNat < 4294967295
      omega
    · rw [heq]
      exact hall
    · rintro ⟨t', ht', hle'⟩
      have := hall t' ht'
      omega

/-- A near deadline is not two ticks ahead. -/
theorem EarliestAhead.not_near (h : w.EarliestAhead) : w.near = false := by
  obtain ⟨t, hh, -, h2, -⟩ := h
  have heq : ((t - w.rtTick).toNat : ℤ) = distance w.rtTick t := toNat_of_distance_pos (by omega)
  rw [near_some hh, decide_eq_false_iff_not]
  intro hn
  have hlt : (t - w.rtTick).toNat < 2 := hn
  omega

/-- **When no deadline is missed.** -/
theorem deadline_kept_iff (irq : Irq) (hdead : w.dead = false) (hactive : w.timers ≠ []) :
    DeadlineKept irq w ↔ w.MeetsDeadline := by
  unfold MeetsDeadline
  by_cases hawake : w.Awake
  · -- `ops->sleep(PM_SLEEP_MODE_NONE)` is all that happens
    have hmem : ∀ {e : Ev}, e.ofPower = true →
        (e ∈ w.since (w.pmChangeSleepMode irq) ↔ e = .sleep pmSleepModeNone) := by
      intro e he
      rw [← mem_passPower he, passPower_awake irq hawake, List.mem_singleton]
    rw [if_pos hawake]
    constructor
    · intro hk hm
      obtain ⟨⟨t, hsub, -⟩, -⟩ := hk pmSleepModeNone ((hmem rfl).2 rfl) hm
      exact Ev.noConfusion ((hmem rfl).1 (hsub.subset List.mem_cons_self))
    · intro hm m hsleep hmask
      obtain rfl : m = pmSleepModeNone := Ev.sleep.inj ((hmem rfl).1 hsleep)
      exact absurd hmask hm
  rw [if_neg hawake]
  by_cases hr : w.suspendRet = rtEok
  swap
  · refine iff_of_true ?_ (.inl hr)
    intro m hsleep
    rw [← mem_passPower rfl, passPower_refused irq hawake hr] at hsleep
    exact absurd hsleep List.not_mem_nil
  rcases plan_cases w with hm | hcut | hnull | ⟨hm, hmark⟩ | ⟨hm, hs, t, ht⟩
  · refine iff_of_true ?_ (.inr (.inl hm))
    rw [deadlineKept_slept irq hdead hawake hr (plan_unmasked hm)]
    exact fun h => absurd h hm
  · -- cut short: `PM_SLEEP_MODE_IDLE` without a timer
    rw [deadlineKept_slept irq hdead hawake hr (plan_cutShort hcut)]
    constructor
    · intro hk
      refine .inr (.inr (.inr (.inl ⟨hcut, ?_⟩)))
      intro hidle
      obtain ⟨⟨t, ht, -⟩, -⟩ := hk hidle
      exact absurd ht (by simp)
    · rintro (h | h | h | ⟨-, h⟩ | h) hidle
      · exact absurd hr h
      · exact absurd hcut.1 h
      · exact absurd h hcut.not_nullStart
      · exact absurd hidle h
      · exact Bool.noConfusion (h.not_near.symm.trans hcut.2.1)
  · refine iff_of_true ?_ (.inr (.inr (.inl hnull)))
    intro m hsleep
    rw [← mem_passPower rfl, passPower_crashed irq hawake hr (plan_nullStart hnull)] at hsleep
    exact Ev.noConfusion (List.mem_singleton.1 hsleep)
  · -- the marker: the timer is started for `RT_TICK_MAX`, or not at all
    have hmax : w.timers.head? = some rtTickMax := by
      rcases hmark with h | h
      · exact absurd (List.head?_eq_none_iff.1 h) hactive
      · exact h
    rw [deadlineKept_slept irq hdead hawake hr (plan_marker hm hmark)]
    constructor
    · intro hk
      obtain ⟨⟨t, ht, -, hlt, -⟩, -⟩ := hk hm
      split_ifs at ht
      obtain rfl := Option.some.inj ht
      exact absurd hlt (by decide)
    · rintro (h | h | h | h | ⟨t, hh, hne, -⟩)
      · exact absurd hr h
      · exact absurd hm h
      · exact absurd h (marker_not_nullStart hmark)
      · exact absurd h.1 (marker_not_cutShort hmark)
      · exact absurd (Option.some.inj (hh.symm.trans hmax)) hne
  · rw [deadlineKept_slept irq hdead hawake hr (plan_far hm ht hs), ← far_kept_iff ht]
    constructor
    · intro hk
      obtain ⟨⟨t', heq, hall⟩, hreached⟩ := hk hm
      obtain rfl := Option.some.inj heq
      exact .inr (.inr (.inr (.inr ⟨hall, hreached⟩)))
    · rintro (h | h | h | ⟨h, -⟩ | h) _
      · exact absurd hr h
      · exact absurd hm h
      · exact absurd hs h.not_isSome
      · exact absurd h ht.not_cutShort
      · exact ⟨⟨_, rfl, h.1⟩, h.2⟩

/-- `PM_SLEEP_MODE_DEEP` selected, with the given kernel clock. -/
def deepAt (rtTick : U32) (timers : List U32) : World Unit :=
  (start stillOps 0x08 0 ()).run [.call (.rtPmRelease pmSleepModeNone), .clock rtTick timers]

theorem deadline_kept_ahead :
    DeadlineKept Irq.none (deepAt 100 [200, 300]) ↔ (deepAt 100 [200, 300]).MeetsDeadline :=
  deadline_kept_iff Irq.none (by decide +kernel) (by decide +kernel)

/-- A deadline two ticks ago: the pass sleeps for almost the whole range. -/
theorem deadline_overdue : ¬DeadlineKept Irq.none (deepAt 100 [98]) := by
  intro h
  have hk := h pmSleepModeDeep (by decide +kernel) (by decide +kernel)
  exact hk.2 ⟨98, by decide +kernel, by decide +kernel⟩

/-! ## Reading the timer back -/

end World

def Ev.isTimerGetTick : Ev → Bool
  | .timerGetTick _ => true
  | .irqDisable | .irqEnable | .sleep _ | .run _ | .timerStart _ | .timerStop => false
  | .suspend _ _ _ | .resume _ _ | .frequencyChange _ _ | .notify _ _ => false
  | .rtTickSet _ | .rtTimerCheck | .undefRead | .nullCall => false

/-- The timer is read and stopped once after a finite start and never otherwise; the tick is moved
only after a finite start. -/
structure OwnTimer (es : List Ev) : Prop where
  finite : ∀ t, t ≠ rtTickMax → .timerStart t ∈ es →
    es.countP Ev.isTimerGetTick = 1 ∧ es.count .timerStop = 1 ∧
      ∀ d, .timerGetTick d ∈ es → [.timerStart t, .timerGetTick d].Sublist es
  other : (∀ t, .timerStart t ∈ es → t = rtTickMax) →
    es.countP Ev.isTimerGetTick = 0 ∧ es.count .timerStop = 0
  moved : ∀ tick, .rtTickSet tick ∈ es → ∃ t, t ≠ rtTickMax ∧ .timerStart t ∈ es

namespace World

variable {X : Type} {w w' u : World X} {irq : Irq}

/-- Only the power events matter. -/
theorem ownTimer_passPower : OwnTimer (passPower irq w) ↔ OwnTimer (w.since (w.pmChangeSleepMode irq)) := by
  have hcountP : (passPower irq w).countP Ev.isTimerGetTick =
      (w.since (w.pmChangeSleepMode irq)).countP Ev.isTimerGetTick := by
    rw [passPower, List.countP_filter]
    congr 1
    funext e
    cases e <;> rfl
  have hcount : (passPower irq w).count .timerStop =
      (w.since (w.pmChangeSleepMode irq)).count .timerStop := List.count_filter rfl
  have hpair : ∀ t d, [.timerStart t, .timerGetTick d].Sublist (passPower irq w) ↔
      [.timerStart t, .timerGetTick d].Sublist (w.since (w.pmChangeSleepMode irq)) := by
    intro t d
    constructor
    · exact fun h => h.trans List.filter_sublist
    · exact fun h => h.filter Ev.ofPower
  have hstart : ∀ t, .timerStart t ∈ passPower irq w ↔
      .timerStart t ∈ w.since (w.pmChangeSleepMode irq) := fun t => mem_passPower rfl
  have hget : ∀ d, .timerGetTick d ∈ passPower irq w ↔
      .timerGetTick d ∈ w.since (w.pmChangeSleepMode irq) := fun d => mem_passPower rfl
  have hset : ∀ t, .rtTickSet t ∈ passPower irq w ↔
      .rtTickSet t ∈ w.since (w.pmChangeSleepMode irq) := fun t => mem_passPower rfl
  constructor
  · rintro ⟨h1, h2, h3⟩
    simp only [hstart, hget, hset, hpair, hcountP, hcount] at h1 h2 h3
    exact ⟨h1, h2, h3⟩
  · rintro ⟨h1, h2, h3⟩
    simp only [← hstart, ← hget, ← hset, ← hpair, ← hcountP, ← hcount] at h1 h2 h3
    exact ⟨h1, h2, h3⟩

theorem ownTimer_of_not_read {es : List Ev} (h : ∀ e ∈ es, e = .sleep pmSleepModeNone ∨ e = .nullCall) :
    OwnTimer es := by
  have hstart : ∀ t, .timerStart t ∉ es := by
    intro t ht
    rcases h _ ht with he | he <;> exact Ev.noConfusion he
  refine ⟨fun t _ ht => absurd ht (hstart t), fun _ => ⟨?_, ?_⟩, ?_⟩
  · rw [List.countP_eq_zero]
    intro e he
    rcases h e he with rfl | rfl <;> simp [Ev.isTimerGetTick]
  · rw [List.count_eq_zero]
    intro he
    rcases h _ he with h | h <;> exact Ev.noConfusion h
  · intro tick ht
    rcases h _ ht with he | he <;> exact Ev.noConfusion he

theorem wakeEvs_reads (mode : U8) (d : U32) :
    (w.wakeEvs mode d).countP Ev.isTimerGetTick = (if w.pm.masked mode then 1 else 0) ∧
      (w.wakeEvs mode d).count .timerStop = if w.pm.masked mode then 1 else 0 := by
  unfold wakeEvs
  split_ifs <;> exact ⟨rfl, rfl⟩

theorem starts_reads (start : Option U32) :
    (start.toList.map Ev.timerStart).countP Ev.isTimerGetTick = 0 ∧
      (start.toList.map Ev.timerStart).count .timerStop = 0 := by
  cases start <;> exact ⟨rfl, rfl⟩

theorem checkEvs_reads (irq : Irq) (delta : Option U32) :
    (w.checkEvs irq delta).countP Ev.isTimerGetTick = 0 ∧
      (w.checkEvs irq delta).count .timerStop = 0 := by
  constructor
  · rw [List.countP_eq_zero]
    intro e he
    rcases checkEvs_mem he with rfl | rfl <;> simp [Ev.isTimerGetTick]
  · rw [List.count_eq_zero]
    intro he
    rcases checkEvs_mem he with h | h <;> exact Ev.noConfusion h

/-- A pass that sleeps reads its own timer when the read-back mask test and the start agree. -/
theorem ownTimer_slept (irq : Irq) (hdead : w.dead = false) (h : ¬w.Awake)
    (hr : w.suspendRet = rtEok) {start : Option U32} {mode : U8} (hp : w.plan = some (start, mode)) :
    OwnTimer (w.since (w.pmChangeSleepMode irq)) ↔
      (w.pm.masked mode = true ↔ ∃ t, t ≠ rtTickMax ∧ start = some t) := by
  have hmem : ∀ t, .timerStart t ∈ passPower irq w ↔ start = some t := by
    intro t
    rw [mem_passPower rfl]
    exact timerStart_mem_iff irq hdead h hr hp t
  obtain ⟨d, u, -, -, hpass⟩ := passPower_slept irq hdead h hr hp
  have hget : (passPower irq w).countP Ev.isTimerGetTick = if w.pm.masked mode then 1 else 0 := by
    rw [hpass, List.countP_append, List.countP_append, List.countP_cons, (starts_reads start).1,
      (wakeEvs_reads mode d).1, (checkEvs_reads irq _).1]
    simp [Ev.isTimerGetTick]
  have hstop : (passPower irq w).count .timerStop = if w.pm.masked mode then 1 else 0 := by
    rw [hpass, List.count_append, List.count_append, List.count_cons, (starts_reads start).2,
      (wakeEvs_reads mode d).2, (checkEvs_reads irq _).2]
    simp
  -- the tick is moved under the read-back test only
  have hset : ∀ tick, .rtTickSet tick ∈ passPower irq w → w.pm.masked mode = true := by
    intro tick hmem
    by_contra hm
    rw [hpass, wakeEvs, if_neg hm] at hmem
    rcases List.mem_append.1 hmem with hmem | hmem
    · simp at hmem
    · rcases checkEvs_mem hmem with he | he <;> exact Ev.noConfusion he
  rw [← ownTimer_passPower]
  constructor
  · intro hown
    constructor
    · intro hm
      by_contra hno
      have hz := (hown.other fun t ht => by
        by_contra hne
        exact hno ⟨t, hne, (hmem t).1 ht⟩).1
      rw [hget, if_pos hm] at hz
      exact absurd hz (by decide)
    · rintro ⟨t, hne, rfl⟩
      by_contra hm
      have hone := (hown.finite t hne ((hmem t).2 rfl)).1
      rw [hget, if_neg hm] at hone
      exact absurd hone (by decide)
  · intro hiff
    refine ⟨?_, ?_, ?_⟩
    · intro t hne ht
      obtain rfl := (hmem t).1 ht
      have hm := hiff.2 ⟨t, hne, rfl⟩
      refine ⟨by rw [hget, if_pos hm], by rw [hstop, if_pos hm], ?_⟩
      intro d' hd'
      -- the read-back comes after the sleep, and the start before it
      have hd : d' = d := by
        rw [hpass, wakeEvs, if_pos hm] at hd'
        rcases List.mem_append.1 hd' with hd' | hd'
        · simpa using hd'
        · rcases checkEvs_mem hd' with he | he <;> exact Ev.noConfusion he
      rw [hpass, wakeEvs, if_pos hm, hd]
      simp
    · intro hall
      have hm : ¬w.pm.masked mode = true := by
        intro hm
        obtain ⟨t, hne, hs⟩ := hiff.1 hm
        exact hne (hall t ((hmem t).2 hs))
      exact ⟨by rw [hget, if_neg hm], by rw [hstop, if_neg hm]⟩
    · intro tick htick
      obtain ⟨t, hne, hs⟩ := hiff.1 (hset tick htick)
      exact ⟨t, hne, (hmem t).2 hs⟩

/-- The timer is read exactly when it was started. -/
def ReadsOwn (w : World X) : Prop :=
  w.Awake ∨ w.suspendRet ≠ rtEok ∨ ¬w.pm.masked w.pm.sleepMode = true ∨ w.NullStart ∨
    (w.CutShort ∧ ¬w.pm.masked pmSleepModeIdle = true) ∨
    ∃ t, w.FarDeadline t ∧ t - w.rtTick ≠ rtTickMax

/-- **When the tick moves only by time measured in the same pass.** -/
theorem reads_own_timer_iff (irq : Irq) (hdead : w.dead = false) :
    OwnTimer (w.since (w.pmChangeSleepMode irq)) ↔ w.ReadsOwn := by
  by_cases hawake : w.Awake
  · refine iff_of_true ?_ (.inl hawake)
    rw [← ownTimer_passPower, passPower_awake irq hawake]
    exact ownTimer_of_not_read (by simp)
  by_cases hr : w.suspendRet = rtEok
  swap
  · refine iff_of_true ?_ (.inr (.inl hr))
    rw [← ownTimer_passPower, passPower_refused irq hawake hr]
    exact ownTimer_of_not_read (by simp)
  rcases plan_cases w with hm | hcut | hnull | ⟨hm, hmark⟩ | ⟨hm, hs, t, ht⟩
  · rw [ownTimer_slept irq hdead hawake hr (plan_unmasked hm)]
    exact iff_of_true (by simp [hm]) (.inr (.inr (.inl hm)))
  · rw [ownTimer_slept irq hdead hawake hr (plan_cutShort hcut)]
    constructor
    · intro hiff
      refine .inr (.inr (.inr (.inr (.inl ⟨hcut, ?_⟩))))
      intro hidle
      obtain ⟨t, -, ht⟩ := hiff.1 hidle
      exact absurd ht (by simp)
    · rintro (h | h | h | h | ⟨-, h⟩ | ⟨t, h, -⟩)
      · exact absurd h hawake
      · exact absurd hr h
      · exact absurd hcut.1 h
      · exact absurd h hcut.not_nullStart
      · exact iff_of_false h (by simp)
      · exact absurd hcut h.not_cutShort
  · refine iff_of_true ?_ (.inr (.inr (.inr (.inl hnull))))
    rw [← ownTimer_passPower, passPower_crashed irq hawake hr (plan_nullStart hnull)]
    exact ownTimer_of_not_read (by simp)
  · -- no deadline, or the marker: nothing was started, and yet the timer is read
    rw [ownTimer_slept irq hdead hawake hr (plan_marker hm hmark)]
    refine iff_of_false ?_ ?_
    · intro hiff
      obtain ⟨t, hne, ht⟩ := hiff.1 hm
      split_ifs at ht
      exact hne (Option.some.inj ht).symm
    · rintro (h | h | h | h | ⟨h, -⟩ | ⟨t, h, -⟩)
      · exact hawake h
      · exact h hr
      · exact h hm
      · exact marker_not_nullStart hmark h
      · exact marker_not_cutShort hmark h
      · exact marker_not_far hmark t h
  · rw [ownTimer_slept irq hdead hawake hr (plan_far hm ht hs)]
    constructor
    · intro hiff
      obtain ⟨t', hne, heq⟩ := hiff.1 hm
      rw [← Option.some.inj heq] at hne
      exact .inr (.inr (.inr (.inr (.inr ⟨t, ht, hne⟩))))
    · rintro (h | h | h | h | ⟨h, -⟩ | ⟨s, h, hne⟩)
      · exact absurd h hawake
      · exact absurd hr h
      · exact absurd hm h
      · exact absurd hs h.not_isSome
      · exact absurd h ht.not_cutShort
      · obtain rfl : s = t := Option.some.inj (h.1.symm.trans ht.1)
        exact iff_of_true hm ⟨_, hne, rfl⟩

theorem reads_own_timer_ahead :
    OwnTimer ((deepAt 100 [200]).since ((deepAt 100 [200]).pmChangeSleepMode Irq.none)) ↔
      (deepAt 100 [200]).ReadsOwn :=
  reads_own_timer_iff Irq.none (by decide +kernel)

/-- Without any OS timer the read-back is of a timer that was not started. -/
theorem reads_own_timer_none :
    ¬OwnTimer ((deepAt 100 []).since ((deepAt 100 []).pmChangeSleepMode Irq.none)) := by
  have hev : (deepAt 100 []).since ((deepAt 100 []).pmChangeSleepMode Irq.none) =
      [.irqDisable, .timerStart rtTickMax, .sleep pmSleepModeDeep, .timerGetTick 0, .timerStop,
        .irqEnable] := by decide +kernel
  rw [hev]
  intro h
  have hread := h.other fun t ht => by simpa using ht
  exact absurd hread.1 (by decide)

/-! ## Checking the OS timers -/

/-- The OS timers are checked exactly when the tick was moved, and no unassigned local is read. -/
def CheckedIfMoved (es : List Ev) : Prop :=
  (.rtTimerCheck ∈ es ↔ ∃ tick, .rtTickSet tick ∈ es) ∧ .undefRead ∉ es

/-- The requests after calls depend on the requests before them only. -/
theorem calls_requests_congr {v : World X} (hm : u.pm.modes = v.pm.modes)
    (hs : u.pm.sleepMode = v.pm.sleepMode) (hf : u.pm.fixed = v.pm.fixed) (fs : List Call) :
    (u.calls fs).pm.modes = (v.calls fs).pm.modes ∧
      (u.calls fs).pm.sleepMode = (v.calls fs).pm.sleepMode := by
  induction fs using List.reverseRecOn with
  | nil => exact ⟨hm, hs⟩
  | append_singleton fs f ih =>
    obtain ⟨him, his⟩ := ih
    have hfix : (u.calls fs).pm.fixed = (v.calls fs).pm.fixed :=
      ((calls_same fs u).fixed.trans hf).trans (calls_same fs v).fixed.symm
    rw [calls_snoc, calls_snoc]
    cases ht : f.tally with
    | none =>
      obtain ⟨hu1, hu2⟩ := call_uncounted (w := u.calls fs) ht
      obtain ⟨hv1, hv2⟩ := call_uncounted (w := v.calls fs) ht
      exact ⟨(hu1.trans him).trans hv1.symm, (hu2.trans his).trans hv2.symm⟩
    | some t =>
      obtain ⟨a, m⟩ := t
      have hflag : (u.calls fs).pm.initFlag = (v.calls fs).pm.initFlag := by
        have h := congrArg RtPm.initFlag hfix
        exact h
      by_cases hi : (u.calls fs).pm.initFlag = 0
      · rw [call_of_not_init hi, call_of_not_init (hflag.symm.trans hi)]
        exact ⟨him, his⟩
      -- both calls count, on equal counters
      have hcu := call_counted hi ht
      have hcv := call_counted (fun h => hi (hflag.trans h)) ht
      have hmodes : ((u.calls fs).call f).pm.modes = ((v.calls fs).call f).pm.modes := by
        rw [hcu.modes, hcv.modes, him]
      have hdef : ((u.calls fs).call f).pm.defaultDeepsleep =
          ((v.calls fs).call f).pm.defaultDeepsleep := by
        rw [(call_same f).defaultDeepsleep, (call_same f).defaultDeepsleep]
        have h := congrArg RtPm.defaultDeepsleep hfix
        exact h
      exact ⟨hmodes, by rw [hcu.sleepMode, hcv.sleepMode, selectSleepMode_congr hmodes hdef]⟩

/-- The mode a pass sleeps in, if it sleeps. -/
def sleepIn (w : World X) : U8 := if w.CutShort then pmSleepModeIdle else w.pm.sleepMode

theorem plan_sleepIn (hnull : ¬w.NullStart) : ∃ start, w.plan = some (start, w.sleepIn) := by
  unfold sleepIn
  split_ifs with hcut
  · exact ⟨_, plan_cutShort hcut⟩
  · exact plan_whole hcut hnull

/-- The cached mode after the calls of interrupt handlers at the end of the critical section. -/
def exitMode (irq : Irq) (w : World X) : U8 :=
  ((w.mapPm fun pm => { pm with sleepMode := w.sleepIn }).calls irq.exit).pm.sleepMode

/-- The expiry check agrees with the wake-up. -/
def ChecksMoved (irq : Irq) (w : World X) : Prop :=
  w.Awake ∨ w.suspendRet ≠ rtEok ∨ w.NullStart ∨
    w.pm.masked (exitMode irq w) = w.pm.masked w.sleepIn ∨
    (w.pm.masked w.sleepIn = true ∧ .timerGetTick 0 ∈ w.since (w.pmChangeSleepMode irq))

theorem checkedIfMoved_of_only {es : List Ev}
    (h : ∀ e ∈ es, e = .sleep pmSleepModeNone ∨ e = .nullCall) : CheckedIfMoved es := by
  refine ⟨iff_of_false ?_ ?_, ?_⟩
  · intro he
    rcases h _ he with h | h <;> exact Ev.noConfusion h
  · rintro ⟨tick, he⟩
    rcases h _ he with h | h <;> exact Ev.noConfusion h
  · intro he
    rcases h _ he with h | h <;> exact Ev.noConfusion h

theorem checkedIfMoved_passPower :
    CheckedIfMoved (passPower irq w) ↔ CheckedIfMoved (w.since (w.pmChangeSleepMode irq)) := by
  unfold CheckedIfMoved
  have hset : ∀ tick, .rtTickSet tick ∈ passPower irq w ↔
      .rtTickSet tick ∈ w.since (w.pmChangeSleepMode irq) := fun _ => mem_passPower rfl
  simp only [mem_passPower (e := .rtTimerCheck) rfl, mem_passPower (e := .undefRead) rfl, hset]

/-- A pass that sleeps checks the timers rightly when both mask tests agree, or nothing was read. -/
theorem checkedIfMoved_slept (irq : Irq) (hdead : w.dead = false) (h : ¬w.Awake)
    (hr : w.suspendRet = rtEok) (hnull : ¬w.NullStart) :
    CheckedIfMoved (w.since (w.pmChangeSleepMode irq)) ↔
      w.pm.masked (exitMode irq w) = w.pm.masked w.sleepIn ∨
        (w.pm.masked w.sleepIn = true ∧ .timerGetTick 0 ∈ w.since (w.pmChangeSleepMode irq)) := by
  obtain ⟨start, hp⟩ := plan_sleepIn hnull
  obtain ⟨d, u, hu, -, hpass⟩ := passPower_slept irq hdead h hr hp
  -- the last test is made with the mode the handlers leave
  have hexit : (u.calls irq.exit).pm.sleepMode = exitMode irq w := by
    have hc := calls_requests_congr (u := u)
      (v := w.mapPm fun pm => { pm with sleepMode := w.sleepIn }) hu.modes hu.sleepMode hu.fixed
      irq.exit
    exact hc.2
  have hmask : ∀ m, (u.calls irq.exit).pm.masked m = w.pm.masked m := by
    intro m
    have hs := (calls_same irq.exit u).timerMask
    have hw := congrArg RtPm.timerMask hu.fixed
    unfold RtPm.masked
    rw [hs]
    exact congrArg (BitVec.getLsbD · m.toNat) hw
  rw [← checkedIfMoved_passPower, ← mem_passPower (e := .timerGetTick 0) rfl, hpass]
  unfold CheckedIfMoved wakeEvs checkEvs deltaTick
  rw [hexit, hmask]
  by_cases hm : w.pm.masked w.sleepIn = true
  · -- something was read: skipping the check matters unless the count was zero
    by_cases hd : d = 0
    · subst hd
      by_cases hm' : w.pm.masked (exitMode irq w) = true <;> cases start <;> simp [hm, hm']
    · have hne : ¬d = 0#32 := hd
      have hne' : ¬0#32 = d := fun h0 => hd h0.symm
      by_cases hm' : w.pm.masked (exitMode irq w) = true <;> cases start <;>
        simp [hm, hm', hne, hne']
  · -- nothing was read: testing the local at all is an unassigned read
    by_cases hm' : w.pm.masked (exitMode irq w) = true <;> cases start <;> simp [hm, hm']

/-- **When due timers are checked after a pass that moved the tick**, whatever interrupt handlers
call as the interrupts are enabled again. -/
theorem timers_checked_iff (irq : Irq) (hdead : w.dead = false) :
    CheckedIfMoved (w.since (w.pmChangeSleepMode irq)) ↔ ChecksMoved irq w := by
  unfold ChecksMoved
  by_cases hawake : w.Awake
  · refine iff_of_true ?_ (.inl hawake)
    rw [← checkedIfMoved_passPower, passPower_awake irq hawake]
    exact checkedIfMoved_of_only (by simp)
  by_cases hr : w.suspendRet = rtEok
  swap
  · refine iff_of_true ?_ (.inr (.inl hr))
    rw [← checkedIfMoved_passPower, passPower_refused irq hawake hr]
    exact checkedIfMoved_of_only (by simp)
  by_cases hnull : w.NullStart
  · refine iff_of_true ?_ (.inr (.inr (.inl hnull)))
    rw [← checkedIfMoved_passPower, passPower_crashed irq hawake hr (plan_nullStart hnull)]
    exact checkedIfMoved_of_only (by simp)
  rw [checkedIfMoved_slept irq hdead hawake hr hnull]
  constructor
  · intro h
    exact .inr (.inr (.inr h))
  · rintro (h | h | h | h)
    · exact absurd h hawake
    · exact absurd hr h
    · exact absurd h hnull
    · exact h

/-- Interrupt handlers that call `fs` when the interrupts are enabled after the sleep. -/
def Irq.atExit (fs : List Call) : Irq := { Irq.none with exit := fs }

theorem timers_checked_quiet :
    CheckedIfMoved ((deepAt 100 [200]).since ((deepAt 100 [200]).pmChangeSleepMode Irq.none)) ↔
      ChecksMoved Irq.none (deepAt 100 [200]) :=
  timers_checked_iff Irq.none (by decide +kernel)

/-- A platform whose low-power timer always reads 5 ticks. -/
def fiveOps : RtPmOps Unit := { stillOps with timerGetTick := fun x => (5, x) }

/-- The wake-up interrupt requests `PM_SLEEP_MODE_IDLE`: the tick was moved, and no timer is
checked. -/
theorem timers_unchecked :
    let w := (start fiveOps 0x08 0 ()).run
      [.call (.rtPmRelease pmSleepModeNone), .clock 100 [200]]
    ¬CheckedIfMoved (w.since (w.pmChangeSleepMode (Irq.atExit [.rtPmRequest pmSleepModeIdle]))) := by
  intro w
  have hev : w.since (w.pmChangeSleepMode (Irq.atExit [.rtPmRequest pmSleepModeIdle])) =
      [.irqDisable, .timerStart 100, .sleep pmSleepModeDeep, .timerGetTick 5, .timerStop,
        .rtTickSet 105, .irqEnable, .irqDisable, .irqEnable] := by decide +kernel
  rw [hev]
  rintro ⟨h, -⟩
  exact absurd (h.2 ⟨105, by decide⟩) (by decide)

end World
end LowPower.Pm
