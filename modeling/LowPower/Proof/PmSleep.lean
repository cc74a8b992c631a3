import LowPower.Proof.PmPass

/-!
# The mode of a PM 2.0 sleep

What a pass does to the power state and to the clock (`Ev.ofPower`), for each way it can go.

`pm->sleep_mode` is the cached selection and also the mode of the pass, and a pass cut short by a
near deadline leaves `PM_SLEEP_MODE_IDLE` in it until a request or a release recomputes it. In a
run the cache is therefore the selection or that leftover (`run_cached`), and a pass sleeps in the
mode it should exactly when `Faithful` holds at its start (`sleeps_required_iff`).
-/

namespace LowPower.Pm

/-- The events on the power state and on the clock. -/
def Ev.ofPower : Ev → Bool
  | .sleep _ | .timerStart _ | .timerStop | .timerGetTick _ => true
  | .rtTickSet _ | .rtTimerCheck | .undefRead | .nullCall => true
  | .irqDisable | .irqEnable | .run _ | .notify _ _ => false
  | .suspend _ _ _ | .resume _ _ | .frequencyChange _ _ => false

/-- The modes slept in. -/
def sleeps (es : List Ev) : List U8 :=
  es.filterMap fun
    | .sleep mode => some mode
    | _ => none

theorem sleeps_ofPower (es : List Ev) : sleeps (es.filter Ev.ofPower) = sleeps es := by
  unfold sleeps
  rw [List.filterMap_filter]
  congr 1
  funext e
  cases e <;> rfl

namespace World

variable {X : Type} {w w' u : World X} {irq : Irq}

/-! ## Blocks without power events -/

theorem ofCall_power (e : Ev) (he : e.ofCall = true) : e.ofPower = false := by
  cases e <;> simp [Ev.ofCall, Ev.ofPower] at he ⊢

@[simp] theorem notifyEvs_power (e : NotifyEvent) (m : U8) :
    (w.notifyEvs e m).filter Ev.ofPower = [] := by
  unfold notifyEvs
  split_ifs <;> rfl

@[simp] theorem enterEvs_power : w.enterEvs.filter Ev.ofPower = [] :=
  notifyEvs_power .rtPmEnterSleep w.pm.sleepMode

@[simp] theorem suspendEvs_power (ds : List (RtDevicePm X)) (m : U8) :
    (suspendEvs ds m).filter Ev.ofPower = [] := by
  simp [suspendEvs, Ev.ofPower]

@[simp] theorem resumeEvs_power (m : U8) : (w.resumeEvs m).filter Ev.ofPower = [] := by
  simp [resumeEvs, Ev.ofPower]

@[simp] theorem wakeEvs_power (m : U8) (d : U32) :
    (w.wakeEvs m d).filter Ev.ofPower = w.wakeEvs m d := by
  unfold wakeEvs
  split_ifs <;> rfl

theorem checkEvs_mem {irq : Irq} {delta : Option U32} {e : Ev} (he : e ∈ w.checkEvs irq delta) :
    e = .rtTimerCheck ∨ e = .undefRead := by
  unfold checkEvs at he
  by_cases hm : w.pm.masked w.pm.sleepMode
  · rw [if_pos hm] at he
    cases delta with
    | none =>
      dsimp only at he
      split_ifs at he <;> simp at he <;> tauto
    | some d =>
      dsimp only at he
      split_ifs at he <;> simp at he
      exact .inl he
  · rw [if_neg hm] at he
    simp at he

@[simp] theorem checkEvs_power (irq : Irq) (delta : Option U32) :
    (w.checkEvs irq delta).filter Ev.ofPower = w.checkEvs irq delta := by
  rw [List.filter_eq_self]
  intro e he
  rcases checkEvs_mem he with rfl | rfl <;> rfl

@[simp] theorem starts_power (start : Option U32) :
    (start.toList.map Ev.timerStart).filter Ev.ofPower = start.toList.map Ev.timerStart := by
  cases start <;> rfl

/-! ## The power events of a pass -/

/-- What a pass does to the power state and to the clock. -/
def passPower (irq : Irq) (w : World X) : List Ev :=
  (w.since (w.pmChangeSleepMode irq)).filter Ev.ofPower

theorem passPower_awake (irq : Irq) (h : w.Awake) :
    passPower irq w = [.sleep pmSleepModeNone] := by
  rw [passPower, shown_awake ofCall_power irq h]
  rfl

theorem passPower_refused (irq : Irq) (h : ¬w.Awake) (hr : w.suspendRet ≠ rtEok) :
    passPower irq w = [] := by
  obtain ⟨pre, d, post, -, -, hshown⟩ := shown_refused ofCall_power irq h hr
  rw [passPower, hshown]
  simp [Ev.ofPower]

theorem passPower_crashed (irq : Irq) (h : ¬w.Awake) (hr : w.suspendRet = rtEok)
    (hp : w.plan = none) : passPower irq w = [.nullCall] := by
  rw [passPower, since_crashed irq h hr hp]
  simp [Ev.ofPower]

/-- **The power events of a pass that sleeps**: the timer start, the sleep, the read-back and the
expiry check. -/
theorem passPower_slept (irq : Irq) (hdead : w.dead = false) (h : ¬w.Awake)
    (hr : w.suspendRet = rtEok) {start : Option U32} {mode : U8} (hp : w.plan = some (start, mode)) :
    ∃ d u, SleptState w mode u ∧
      (w.pmChangeSleepMode irq).pm = (u.calls irq.exit).pm ∧
      passPower irq w = start.toList.map .timerStart ++ .sleep mode :: w.wakeEvs mode d ++
        checkEvs irq (w.deltaTick mode d) (u.calls irq.exit) := by
  obtain ⟨d, u, hu, hpm, hshown⟩ := shown_slept ofCall_power irq hdead h hr hp
  refine ⟨d, u, hu, hpm, ?_⟩
  rw [passPower, hshown]
  simp [List.filter_cons, Ev.ofPower]

/-- The modes a pass sleeps in. -/
theorem pass_sleeps (irq : Irq) (hdead : w.dead = false) (h : ¬w.Awake) (hr : w.suspendRet = rtEok) :
    sleeps (w.since (w.pmChangeSleepMode irq)) = (w.plan.map Prod.snd).toList := by
  rw [← sleeps_ofPower]
  cases hp : w.plan with
  | none => exact congrArg sleeps (passPower_crashed irq h hr hp)
  | some p =>
    obtain ⟨start, mode⟩ := p
    obtain ⟨d, u, -, -, hpass⟩ := passPower_slept irq hdead h hr hp
    refine (congrArg sleeps hpass).trans ?_
    have hstart : sleeps (start.toList.map .timerStart) = [] := by cases start <;> rfl
    have hwake : sleeps (w.wakeEvs mode d) = [] := by
      unfold wakeEvs
      split_ifs <;> rfl
    have hcheck : sleeps (checkEvs irq (w.deltaTick mode d) (u.calls irq.exit)) = [] := by
      rw [List.eq_nil_iff_forall_not_mem]
      intro m hm
      obtain ⟨e, he, hem⟩ := List.mem_filterMap.1 hm
      rcases checkEvs_mem he with rfl | rfl <;> exact absurd hem (by simp)
    unfold sleeps at *
    rw [List.filterMap_append, List.filterMap_append, List.filterMap_cons, hstart, hwake, hcheck]
    rfl

/-! ## The mode required -/

/-- The next deadline is less than `RT_PM_TICKLESS_THRESH` ticks away. -/
def near (w : World X) : Bool :=
  match w.timers.head? with
  | some t => decide (t - w.rtTick < rtPmTicklessThresh)
  | none => false

theorem near_some {t : U32} (h : w.timers.head? = some t) :
    w.near = decide (t - w.rtTick < rtPmTicklessThresh) := by
  unfold near
  rw [h]

theorem next_none (h : w.timers.head? = none) : w.rtTimerNextTimeoutTick = rtTickMax := by
  rw [rtTimerNextTimeoutTick, List.headD_eq_head?_getD, h]
  rfl

theorem next_some {t : U32} (h : w.timers.head? = some t) : w.rtTimerNextTimeoutTick = t := by
  rw [rtTimerNextTimeoutTick, List.headD_eq_head?_getD, h]
  rfl

/-- The mode a pass should sleep in. -/
def required (w : World X) : U8 :=
  if w.busy = true ∨ selectSleepMode w.pm = pmSleepModeNone then pmSleepModeNone
  else if w.pm.masked (selectSleepMode w.pm) = true ∧ w.near = true then pmSleepModeIdle
  else selectSleepMode w.pm

/-- The cache is the selection, or what a pass cut short left in it. -/
def Cached (pm : RtPm X) : Prop :=
  pm.sleepMode = selectSleepMode pm ∨
    pm.sleepMode = pmSleepModeIdle ∧ selectSleepMode pm ≠ pmSleepModeNone

/-- The next deadline is near, and equal to the marker for "no timer". -/
def MarkerDeadline (w : World X) : Prop :=
  w.pm.masked w.pm.sleepMode = true ∧ w.timers.head? = some rtTickMax ∧ w.near = true

/-- A timer is to be started, and there is no callback for it. -/
def NullStart (w : World X) : Prop :=
  w.pm.masked w.pm.sleepMode = true ∧ w.ops.timerStart.isNone = true ∧ w.near = false ∧
    w.timers.head?.isSome = true ∧ w.timers.head? ≠ some rtTickMax

instance (w : World X) : Decidable w.NullStart := inferInstanceAs (Decidable (_ ∧ _))

/-- A pass from this state sleeps in the mode it should. -/
def Faithful (w : World X) : Prop :=
  w.busy = true ∨ selectSleepMode w.pm = pmSleepModeNone ∨
    (w.pm.sleepMode = selectSleepMode w.pm ∧ ¬w.MarkerDeadline ∧ ¬w.NullStart) ∨
    (w.pm.sleepMode = pmSleepModeIdle ∧ w.pm.masked (selectSleepMode w.pm) = true ∧ w.near = true)

/-- A near deadline lowers the mode of the pass. -/
def CutShort (w : World X) : Prop :=
  w.pm.masked w.pm.sleepMode = true ∧ w.near = true ∧ w.timers.head? ≠ some rtTickMax

instance (w : World X) : Decidable w.CutShort := inferInstanceAs (Decidable (_ ∧ _))

theorem near_isSome (h : w.near = true) : w.timers.head?.isSome = true := by
  unfold near at h
  cases hh : w.timers.head? with
  | none => rw [hh] at h; exact h
  | some t => rfl

theorem plan_unmasked (h : ¬w.pm.masked w.pm.sleepMode = true) :
    w.plan = some (none, w.pm.sleepMode) := if_neg h

theorem plan_marker (h : w.pm.masked w.pm.sleepMode = true)
    (ht : w.timers.head? = none ∨ w.timers.head? = some rtTickMax) :
    w.plan = some (if w.ops.timerStart.isSome then some rtTickMax else none, w.pm.sleepMode) := by
  have hnext : w.rtTimerNextTimeoutTick = rtTickMax := by
    rcases ht with ht | ht
    · exact next_none ht
    · exact next_some ht
  rw [plan, if_pos h, if_pos hnext]

/-- The plan for a deadline that is not the marker. -/
theorem plan_deadline (h : w.pm.masked w.pm.sleepMode = true) {t : U32}
    (ht : w.timers.head? = some t) (hne : t ≠ rtTickMax) :
    w.plan =
      if t - w.rtTick < rtPmTicklessThresh then some (none, pmSleepModeIdle)
      else if w.ops.timerStart.isSome then some (some (t - w.rtTick), w.pm.sleepMode)
      else none := by
  rw [plan, if_pos h, next_some ht, if_neg hne]

theorem plan_cutShort (h : w.CutShort) : w.plan = some (none, pmSleepModeIdle) := by
  obtain ⟨hm, hn, hne⟩ := h
  obtain ⟨t, ht⟩ := Option.isSome_iff_exists.1 (near_isSome hn)
  rw [near_some ht, decide_eq_true_eq] at hn
  have hne' : t ≠ rtTickMax := by
    rintro rfl
    exact hne ht
  rw [plan_deadline hm ht hne', if_pos hn]

theorem plan_nullStart (h : w.NullStart) : w.plan = none := by
  obtain ⟨hm, hs, hn, hsome, hne⟩ := h
  obtain ⟨t, ht⟩ := Option.isSome_iff_exists.1 hsome
  rw [near_some ht, decide_eq_false_iff_not] at hn
  have hne' : t ≠ rtTickMax := by
    rintro rfl
    exact hne ht
  rw [plan_deadline hm ht hne', if_neg hn, if_neg (by simpa using hs)]

/-- The next deadline is far enough to start the low-power timer for it. -/
def FarDeadline (w : World X) (t : U32) : Prop :=
  w.timers.head? = some t ∧ t ≠ rtTickMax ∧ ¬t - w.rtTick < rtPmTicklessThresh

theorem plan_far (h : w.pm.masked w.pm.sleepMode = true) {t : U32} (ht : w.FarDeadline t)
    (hs : w.ops.timerStart.isSome = true) :
    w.plan = some (some (t - w.rtTick), w.pm.sleepMode) := by
  rw [plan_deadline h ht.1 ht.2.1, if_neg ht.2.2, if_pos hs]

/-- **The ways through the tickless block.** -/
theorem plan_cases (w : World X) :
    ¬w.pm.masked w.pm.sleepMode = true ∨ w.CutShort ∨ w.NullStart ∨
      (w.pm.masked w.pm.sleepMode = true ∧
        (w.timers.head? = none ∨ w.timers.head? = some rtTickMax)) ∨
      (w.pm.masked w.pm.sleepMode = true ∧ w.ops.timerStart.isSome = true ∧
        ∃ t, w.FarDeadline t) := by
  by_cases hm : w.pm.masked w.pm.sleepMode = true
  swap
  · exact .inl hm
  cases hh : w.timers.head? with
  | none => exact .inr (.inr (.inr (.inl ⟨hm, .inl rfl⟩)))
  | some t =>
    by_cases ht : t = rtTickMax
    · subst ht
      exact .inr (.inr (.inr (.inl ⟨hm, .inr rfl⟩)))
    have hne : w.timers.head? ≠ some rtTickMax := by
      rw [hh]
      exact fun h => ht (Option.some.inj h)
    by_cases hn : t - w.rtTick < rtPmTicklessThresh
    · exact .inr (.inl ⟨hm, (near_some hh).trans (decide_eq_true hn), hne⟩)
    by_cases hs : w.ops.timerStart.isSome = true
    · exact .inr (.inr (.inr (.inr ⟨hm, hs, t, hh, ht, hn⟩)))
    · exact .inr (.inr (.inl ⟨hm, by simpa using hs, (near_some hh).trans (decide_eq_false hn),
        by rw [hh]; rfl, hne⟩))

/-- Unless it is cut short or crashes, the pass sleeps in the mode it started with. -/
theorem plan_whole (hcut : ¬w.CutShort) (hnull : ¬w.NullStart) :
    ∃ start, w.plan = some (start, w.pm.sleepMode) := by
  rcases plan_cases w with h | h | h | ⟨hm, h⟩ | ⟨hm, hs, t, ht⟩
  · exact ⟨_, plan_unmasked h⟩
  · exact absurd h hcut
  · exact absurd h hnull
  · exact ⟨_, plan_marker hm h⟩
  · exact ⟨_, plan_far hm ht hs⟩

/-! ## One pass -/

/-- **When a pass sleeps in the mode required**, for a cache that holds the selection or the
leftover of a pass cut short. -/
theorem pass_required_iff (irq : Irq) (hdead : w.dead = false) (hr : w.suspendRet = rtEok)
    (hc : Cached w.pm) :
    sleeps (w.since (w.pmChangeSleepMode irq)) = [w.required] ↔ w.Faithful := by
  unfold required Faithful
  by_cases hstay : w.busy = true ∨ selectSleepMode w.pm = pmSleepModeNone
  · -- nothing but `PM_SLEEP_MODE_NONE` can be cached then
    have hawake : w.Awake := by
      rcases hstay with hb | hn
      · exact .inl hb
      · rcases hc with hs | hs
        · exact .inr (hs.trans hn)
        · exact absurd hn hs.2
    rw [if_pos hstay, ← sleeps_ofPower]
    refine iff_of_true (congrArg sleeps (passPower_awake irq hawake)) ?_
    tauto
  obtain ⟨hb, hn⟩ := not_or.1 hstay
  have hawake : ¬w.Awake := by
    rintro (h | h)
    · exact hb h
    · rcases hc with hs | hs
      · exact hn (hs.symm.trans h)
      · exact absurd (hs.1.symm.trans h) (by decide)
  rw [if_neg hstay, pass_sleeps irq hdead hawake hr]
  -- what is left: the pass sleeps once, in the mode of its plan
  have hone : ∀ a b : U8, ((some a).toList = [b]) ↔ a = b := fun a b => by simp
  by_cases hnull : w.NullStart
  · -- the pass ends before it sleeps
    rw [plan_nullStart hnull]
    refine iff_of_false (by simp) ?_
    rintro (h | h | ⟨-, -, h⟩ | ⟨-, -, h⟩)
    · exact hb h
    · exact hn h
    · exact h hnull
    · rw [hnull.2.2.1] at h
      exact Bool.noConfusion h
  by_cases hs : w.pm.sleepMode = selectSleepMode w.pm
  · -- the cache holds the selection
    by_cases hcut : w.CutShort
    · have hmark : ¬w.MarkerDeadline := fun h => hcut.2.2 h.2.1
      rw [plan_cutShort hcut, Option.map_some, hone, if_pos ⟨hs ▸ hcut.1, hcut.2.1⟩]
      exact iff_of_true rfl (.inr (.inr (.inl ⟨hs, hmark, hnull⟩)))
    obtain ⟨start, hp⟩ := plan_whole hcut hnull
    rw [hp, Option.map_some, hone, ← hs]
    split_ifs with hnear
    · have hmark : w.MarkerDeadline := by
        refine ⟨hnear.1, ?_, hnear.2⟩
        by_contra hne
        exact hcut ⟨hnear.1, hnear.2, hne⟩
      constructor
      · intro hidle
        exact .inr (.inr (.inr ⟨hidle, hnear⟩))
      · rintro (h | h | h | h)
        · exact absurd h hb
        · exact absurd (hs.symm.trans h) hn
        · exact absurd hmark h.2.1
        · exact h.1
    · have hmark : ¬w.MarkerDeadline := fun h => hnear ⟨h.1, h.2.2⟩
      exact iff_of_true rfl (.inr (.inr (.inl ⟨rfl, hmark, hnull⟩)))
  · -- the cache holds what a pass cut short left
    have hidle : w.pm.sleepMode = pmSleepModeIdle := by
      rcases hc with h | h
      · exact absurd h hs
      · exact h.1
    have hp : w.plan.map Prod.snd = some pmSleepModeIdle := by
      by_cases hcut : w.CutShort
      · rw [plan_cutShort hcut]
        rfl
      · obtain ⟨start, hp⟩ := plan_whole hcut hnull
        rw [hp, Option.map_some, hidle]
    rw [hp, hone]
    split_ifs with hnear
    · exact iff_of_true rfl (.inr (.inr (.inr ⟨hidle, hnear⟩)))
    · refine iff_of_false (fun h => hs (hidle.trans h)) ?_
      rintro (h | h | h | h)
      · exact hb h
      · exact hn h
      · exact hs h.1
      · exact hnear h.2

/-! ## The cache along a run -/

theorem Cached.congr {pm pm' : RtPm X} (h : Cached pm) (hm : pm'.modes = pm.modes)
    (hs : pm'.sleepMode = pm.sleepMode) (hd : pm'.defaultDeepsleep = pm.defaultDeepsleep) :
    Cached pm' := by
  unfold Cached
  rw [hs, selectSleepMode_congr hm hd]
  exact h

theorem call_cached (hi : w.pm.initFlag ≠ 0) (h : Cached w.pm) (f : Call) :
    Cached (w.call f).pm := by
  cases hf : f.tally with
  | none =>
    obtain ⟨hm, hs⟩ := call_uncounted (w := w) hf
    exact h.congr hm hs (call_same f).defaultDeepsleep
  | some v =>
    obtain ⟨a, m⟩ := v
    exact .inl (call_counted hi hf).sleepMode

/-- Suspending the devices always succeeds. -/
def SuspendsOk (ds : List (RtDevicePm X)) : Prop :=
  ∀ d ∈ ds, ∀ f, d.suspend = some f → ∀ mode x, (f mode x).1 = rtEok

theorem suspendFrom_ok {ds : List (RtDevicePm X)} (h : SuspendsOk ds) (mode : U8) (index : ℕ)
    (w : World X) : (suspendFrom mode index ds w).1 = rtEok := by
  induction ds generalizing index w with
  | nil => rfl
  | cons d ds ih =>
    have hds : SuspendsOk ds := fun d' hd' => h d' (List.mem_cons_of_mem d hd')
    unfold suspendFrom
    cases hd : d.suspend with
    | none => exact ih hds _ _
    | some f =>
      have hf := h d List.mem_cons_self f hd mode w.plat
      dsimp only
      rw [if_neg (not_not.2 hf)]
      exact ih hds _ _

/-- What holds between two steps of a run. -/
structure CacheInv (w : World X) : Prop where
  initFlag : w.pm.initFlag ≠ 0
  cached : Cached w.pm
  suspends : SuspendsOk w.pm.devicePm

theorem CacheInv.same (h : CacheInv w) (hs : Same w w') (hc : Cached w'.pm) : CacheInv w' := by
  refine ⟨?_, hc, ?_⟩
  · rw [hs.initFlag]
    exact h.initFlag
  · have hd := congrArg RtPm.devicePm hs.fixed
    intro d hmem
    exact h.suspends d (hd ▸ hmem)

theorem CacheInv.block {es : List Ev} (h : CacheInv w) (hb : Block w es w') : CacheInv w' :=
  h.same hb.same (h.cached.congr hb.modes hb.sleepMode hb.same.defaultDeepsleep)

theorem CacheInv.call (h : CacheInv w) (f : Call) : CacheInv (w.call f) :=
  h.same (call_same f) (call_cached h.initFlag h.cached f)

theorem CacheInv.calls (h : CacheInv w) (fs : List Call) : CacheInv (w.calls fs) := by
  induction fs using List.reverseRecOn with
  | nil => exact h
  | append_singleton fs f ih =>
    rw [calls_snoc]
    exact ih.call f

theorem CacheInv.suspendRet (h : CacheInv w) : w.suspendRet = rtEok := by
  refine suspendFrom_ok ?_ _ _ _
  rw [(entered_block w).devices]
  exact fun d hd => h.suspends d (List.mem_of_mem_take hd)

/-- The state in which a pass starts to change the sleep mode. -/
def atSleep (w : World X) (irq : Irq) : World X := (w.pmFrequencyScaling irq.scaling).calls irq.between

theorem CacheInv.scaling (h : CacheInv w) (irq : List Call) : CacheInv (w.pmFrequencyScaling irq) := by
  rw [pmFrequencyScaling_eq]
  split_ifs
  · obtain ⟨es, hb⟩ := scale_block (w.calls irq)
    exact (h.calls irq).block hb
  · exact h

theorem atSleep_same (irq : Irq) (w : World X) : Same w (w.atSleep irq) := by
  have hscale : Same w (w.pmFrequencyScaling irq.scaling) := by
    rw [pmFrequencyScaling_eq]
    split_ifs
    · obtain ⟨es, hb⟩ := scale_block (w.calls irq.scaling)
      exact (calls_same irq.scaling w).trans hb.same
    · exact Same.refl w
  exact hscale.trans (calls_same irq.between _)

theorem CacheInv.atSleep (h : CacheInv w) (irq : Irq) : CacheInv (w.atSleep irq) :=
  (h.scaling irq.scaling).calls irq.between

/-- **A pass keeps the invariant.** -/
theorem CacheInv.pass (h : CacheInv w) (hdead : w.dead = false) (irq : Irq) :
    CacheInv (w.pmChangeSleepMode irq) := by
  by_cases hawake : w.Awake
  · obtain ⟨u, hb, heq⟩ := pass_awake irq hawake
    rw [heq]
    exact (h.block hb).calls irq.exit
  cases hp : w.plan with
  | none =>
    obtain ⟨u, hb, heq⟩ := pass_crashed irq hawake h.suspendRet hp
    rw [heq]
    have hu := h.block hb
    exact ⟨hu.initFlag, hu.cached, hu.suspends⟩
  | some p =>
    obtain ⟨start, mode⟩ := p
    obtain ⟨d, u, -, hu, heq⟩ := pass_slept irq hdead hawake h.suspendRet hp
    -- a pass that goes to sleep has a selection other than `PM_SLEEP_MODE_NONE`
    have hne : selectSleepMode w.pm ≠ pmSleepModeNone := by
      rcases h.cached with hs | hs
      · exact fun hn => hawake (.inr (hs.trans hn))
      · exact hs.2
    have hi := congrArg RtPm.initFlag hu.fixed
    have hd := congrArg RtPm.defaultDeepsleep hu.fixed
    have hds := congrArg RtPm.devicePm hu.fixed
    have hinv : CacheInv u := by
      refine ⟨?_, ?_, ?_⟩
      · exact fun h0 => h.initFlag (hi.symm.trans h0)
      · rcases plan_mode hp with rfl | rfl
        · exact h.cached.congr hu.modes hu.sleepMode hd
        · right
          rw [selectSleepMode_congr hu.modes hd]
          exact ⟨hu.sleepMode, hne⟩
      · intro d' hmem
        exact h.suspends d' (hds ▸ hmem)
    have hall := hinv.calls irq.exit
    obtain ⟨-, hpm, -, -⟩ := timerCheck_spec irq (w.deltaTick mode d) (u.calls irq.exit)
    rw [heq]
    refine ⟨?_, ?_, ?_⟩ <;> rw [hpm]
    · exact hall.initFlag
    · exact hall.cached
    · exact hall.suspends

end World

/-- A device list whose suspend callbacks always succeed, if the step installs one. -/
def Op.SuspendsOk {X : Type} : Op X → Prop
  | .devices ds _ => World.SuspendsOk ds
  | _ => True

namespace World

variable {X : Type} {w : World X}

theorem CacheInv.step (h : CacheInv w) {e : Op X} (he : e.SuspendsOk) : CacheInv (w.step e) := by
  unfold World.step
  split_ifs with hd
  · exact h
  have hdead : w.dead = false := by simpa using hd
  cases e with
  | call f => exact h.call f
  | rtSystemPowerManager irq =>
    dsimp only
    unfold rtSystemPowerManager
    rw [if_neg h.initFlag]
    exact (h.atSleep irq).pass ((atSleep_same irq w).dead.trans hdead) irq
  | devices ds number => exact ⟨h.initFlag, h.cached, he⟩
  | notify f => exact ⟨h.initFlag, h.cached, h.suspends⟩
  | clock rtTick timers => exact ⟨h.initFlag, h.cached, h.suspends⟩
  | plat f => exact ⟨h.initFlag, h.cached, h.suspends⟩

/-- **Along every run the cache is the selection or the leftover of a pass cut short.** -/
theorem run_cached (ops : RtPmOps X) (timerMask : U8) (rtTick : U32) (x : X) {es : List (Op X)}
    (hes : ∀ e ∈ es, e.SuspendsOk) : CacheInv ((start ops timerMask rtTick x).run es) := by
  have hstart : CacheInv (start ops timerMask rtTick x) := by
    refine ⟨start_initFlag ops timerMask rtTick x, .inl (start_synced ops timerMask rtTick x), ?_⟩
    rw [start_pm]
    exact fun d hd => absurd hd List.not_mem_nil
  unfold run
  induction es using List.reverseRecOn with
  | nil => exact hstart
  | append_singleton es e ih =>
    rw [List.foldl_append]
    exact (ih fun e' he' => hes e' (List.mem_append_left _ he')).step (hes e (by simp))

/-- **When a pass sleeps in the mode the requests select**: in every run, exactly when the cache
holds the selection and the next deadline is not the marker, or a near deadline asks for
`PM_SLEEP_MODE_IDLE` anyway. -/
theorem sleeps_required_iff (ops : RtPmOps X) (timerMask : U8) (rtTick : U32) (x : X)
    {es : List (Op X)} (hes : ∀ e ∈ es, e.SuspendsOk) (irq : Irq)
    (hdead : ((start ops timerMask rtTick x).run es).dead = false) :
    let w := ((start ops timerMask rtTick x).run es).atSleep irq
    sleeps (w.since (w.pmChangeSleepMode irq)) = [w.required] ↔ w.Faithful := by
  intro w
  have hinv := (run_cached ops timerMask rtTick x hes).atSleep irq
  have hw : w.dead = false := (atSleep_same irq _).dead.trans hdead
  exact pass_required_iff irq hw hinv.suspendRet hinv.cached

/-- A platform whose low-power timer never advances. -/
def stillOps : RtPmOps Unit := { idleOps with timerStart := some fun _ x => x }

/-- A pass one tick before a deadline, and then the next deadline far away. -/
def cutShortRun : List (Op Unit) :=
  [.call (.rtPmRelease pmSleepModeNone), .clock 100 [101], .rtSystemPowerManager Irq.none,
    .clock 200 [1000]]

theorem sleeps_required_first :
    let w := ((start stillOps 0x08 0 ()).run [.call (.rtPmRelease pmSleepModeNone)]).atSleep Irq.none
    sleeps (w.since (w.pmChangeSleepMode Irq.none)) = [w.required] ↔ w.Faithful :=
  sleeps_required_iff stillOps 0x08 0 ()
    (by
      intro e he
      obtain rfl := List.mem_singleton.1 he
      trivial)
    Irq.none (by decide +kernel)

/-- The pass after one cut short sleeps in `PM_SLEEP_MODE_IDLE` although `PM_SLEEP_MODE_DEEP` is
selected and no deadline is near. -/
theorem sleeps_after_cutShort :
    let w := ((start stillOps 0x08 0 ()).run cutShortRun).atSleep Irq.none
    sleeps (w.since (w.pmChangeSleepMode Irq.none)) ≠ [w.required] := by
  decide +kernel

end World
end LowPower.Pm
