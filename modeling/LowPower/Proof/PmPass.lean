import LowPower.Proof.PmRequests

/-!
# What a pass of PM 2.0 does

The callbacks and kernel calls of `_pm_change_sleep_mode` as a list of events, block by block
(`Block`), and the four ways a pass can go:

* `awake`: a module is busy or `PM_SLEEP_MODE_NONE` is selected (`pass_awake`);
* refused: a suspend callback fails (`pass_refused`);
* crashed: the low-power timer is started through a NULL pointer (`pass_crashed`);
* slept: the rest (`pass_slept`), with the mode and the timer start given by `plan`.

`shown_awake`, `shown_refused`, `since_crashed` and `shown_slept` give the events of each through a
filter that hides the calls interrupts make on the way out.
-/

namespace LowPower.Pm
namespace World

variable {X : Type} {w w' w'' : World X}

/-! ## Events -/

/-- What was done so far. -/
def events (w : World X) : List Ev := w.trace.map Prod.fst

/-- What was done between two states of one run. -/
def since (w w' : World X) : List Ev := (w'.trace.drop w.trace.length).map Prod.fst

@[simp] theorem events_emit (e : Ev) : (w.emit e).events = w.events ++ [e] := by
  simp [events, emit]

@[simp] theorem events_callback (e : Ev) (f : X → X) :
    (w.callback e f).events = w.events ++ [e] := events_emit e

@[simp] theorem events_mapPm (f : RtPm X → RtPm X) : (w.mapPm f).events = w.events := rfl

theorem mapPm_rtTick (f : RtPm X → RtPm X) : (w.mapPm f).rtTick = w.rtTick := rfl

theorem since_eq {es : List Ev} (h : w'.events = w.events ++ es) : w.since w' = es := by
  unfold since events at *
  rw [List.map_drop, h, List.drop_left' (by simp)]

/-- A stretch of code that does `es` and leaves the requests alone. -/
structure Block (w : World X) (es : List Ev) (w' : World X) : Prop where
  events : w'.events = w.events ++ es
  same : Same w w'
  modes : w'.pm.modes = w.pm.modes
  sleepMode : w'.pm.sleepMode = w.pm.sleepMode

namespace Block

variable {es es' : List Ev}

theorem refl (w : World X) : Block w [] w := ⟨(List.append_nil _).symm, Same.refl w, rfl, rfl⟩

theorem trans (h : Block w es w') (h' : Block w' es' w'') : Block w (es ++ es') w'' := by
  refine ⟨?_, h.same.trans h'.same, h'.modes.trans h.modes, h'.sleepMode.trans h.sleepMode⟩
  rw [h'.events, h.events, List.append_assoc]

theorem emit (w : World X) (e : Ev) : Block w [e] (w.emit e) :=
  ⟨events_emit e, Same.emit w e, rfl, rfl⟩

theorem callback (w : World X) (e : Ev) (f : X → X) : Block w [e] (w.callback e f) :=
  ⟨events_callback e f, Same.callback w e f, rfl, rfl⟩

theorem masked (h : Block w es w') (m : U8) : w'.pm.masked m = w.pm.masked m := by
  unfold RtPm.masked
  rw [h.same.timerMask]

theorem notify (h : Block w es w') : w'.pm.notify = w.pm.notify := by
  have hf := congrArg RtPm.notify h.same.fixed
  exact hf

theorem devices (h : Block w es w') : w'.pm.devices = w.pm.devices := by
  have hf := congrArg RtPm.devices h.same.fixed
  exact hf

end Block

/-! ## Busy modules -/

theorem checkIdleFrom_block (is : List (Fin pmModuleMaxId)) (w : World X) :
    Block w [] (checkIdleFrom is w).2 := by
  induction is generalizing w with
  | nil => exact Block.refl w
  | cons i is ih =>
    have hset : Block w [] (w.mapPm fun pm =>
        { pm with moduleStatus := pm.moduleStatus.set i (expire w.rtTick pm.moduleStatus[i]) }) :=
      ⟨(List.append_nil _).symm, Same.mapPm rfl, rfl, rfl⟩
    unfold checkIdleFrom
    dsimp only
    split_ifs
    · exact hset
    · exact hset.trans (ih _)

theorem pmDeviceCheckIdle_block (w : World X) : Block w [] w.pmDeviceCheckIdle.2 := by
  unfold pmDeviceCheckIdle
  split_ifs
  · exact Block.refl w
  · exact checkIdleFrom_block _ w

/-! ## Notifications and devices -/

def notifyEvs (w : World X) (event : NotifyEvent) (mode : U8) : List Ev :=
  if w.pm.notify.isSome then [.notify event mode] else []

theorem pmNotify_block (event : NotifyEvent) (mode : U8) (w : World X) :
    Block w (w.notifyEvs event mode) (w.pmNotify event mode) := by
  unfold pmNotify notifyEvs
  cases w.pm.notify with
  | none => exact Block.refl w
  | some f => exact Block.callback w _ _

/-- The places of the devices that have a callback, counted from `index`. -/
def places (has : RtDevicePm X → Bool) : ℕ → List (RtDevicePm X) → List ℕ
  | _, [] => []
  | index, d :: ds => if has d then index :: places has (index + 1) ds else places has (index + 1) ds

theorem mem_places {has : RtDevicePm X → Bool} {index i : ℕ} {ds : List (RtDevicePm X)} :
    i ∈ places has index ds ↔ index ≤ i ∧ ∃ d, ds[i - index]? = some d ∧ has d = true := by
  induction ds generalizing index with
  | nil => simp [places]
  | cons d ds ih =>
    -- a place after the first is a place of the tail, one further on
    have htail : i ∈ places has (index + 1) ds ↔
        index < i ∧ ∃ d', (d :: ds)[i - index]? = some d' ∧ has d' = true := by
      rw [ih]
      constructor
      · rintro ⟨hi, d', hd', hh⟩
        have hidx : i - index = (i - (index + 1)) + 1 := by omega
        exact ⟨hi, d', by rw [hidx, List.getElem?_cons_succ]; exact hd', hh⟩
      · rintro ⟨hi, d', hd', hh⟩
        have hidx : i - index = (i - (index + 1)) + 1 := by omega
        rw [hidx, List.getElem?_cons_succ] at hd'
        exact ⟨hi, d', hd', hh⟩
    unfold places
    by_cases hd : has d = true
    · rw [if_pos hd, List.mem_cons, htail]
      constructor
      · rintro (rfl | ⟨hi, hrest⟩)
        · exact ⟨le_refl _, d, by simp, hd⟩
        · exact ⟨hi.le, hrest⟩
      · rintro ⟨hi, hrest⟩
        rcases Nat.eq_or_lt_of_le hi with h | h
        · exact .inl h.symm
        · exact .inr ⟨h, hrest⟩
    · rw [if_neg hd, htail]
      constructor
      · rintro ⟨hi, hrest⟩
        exact ⟨hi.le, hrest⟩
      · rintro ⟨hi, d', hd', hh⟩
        rcases Nat.eq_or_lt_of_le hi with h | h
        · subst h
          rw [Nat.sub_self, List.getElem?_cons_zero] at hd'
          exact absurd (Option.some.inj hd' ▸ hh) hd
        · exact ⟨h, d', hd', hh⟩

theorem mem_places_zero {has : RtDevicePm X → Bool} {i : ℕ} {ds : List (RtDevicePm X)} :
    i ∈ places has 0 ds ↔ ∃ d, ds[i]? = some d ∧ has d = true := by
  rw [mem_places]
  simp

theorem forDevices_block (sel : RtDevicePm X → Option (U8 → X → X)) (e : ℕ → U8 → Ev) (mode : U8)
    (index : ℕ) (ds : List (RtDevicePm X)) (w : World X) :
    Block w ((places (fun d => (sel d).isSome) index ds).map (e · mode))
      (forDevices sel e mode index ds w) := by
  induction ds generalizing index w with
  | nil => exact Block.refl w
  | cons d ds ih =>
    unfold forDevices places
    cases h : sel d with
    | none => exact ih _ _
    | some f => exact (Block.callback w _ _).trans (ih _ _)

def resumeEvs (w : World X) (mode : U8) : List Ev :=
  (places (fun d => d.resume.isSome) 0 w.pm.devices).map (.resume · mode)

theorem pmDeviceResume_block (mode : U8) (w : World X) :
    Block w (w.resumeEvs mode) (w.pmDeviceResume mode) := forDevices_block _ _ _ _ _ w

/-- The suspend callbacks of the devices before the first refusal, and the refusal. -/
theorem suspendFrom_block (mode : U8) (index : ℕ) (ds : List (RtDevicePm X)) (w : World X) :
    ∃ es, Block w es (suspendFrom mode index ds w).2 ∧
      ((suspendFrom mode index ds w).1 = rtEok →
        es = (places (fun d => d.suspend.isSome) index ds).map (.suspend · mode rtEok)) ∧
      ((suspendFrom mode index ds w).1 ≠ rtEok →
        ∃ pre d post, ds = pre ++ d :: post ∧ d.suspend.isSome ∧
          es = (places (fun d => d.suspend.isSome) index pre).map (.suspend · mode rtEok) ++
            [.suspend (index + pre.length) mode (suspendFrom mode index ds w).1]) := by
  induction ds generalizing index w with
  | nil => exact ⟨[], Block.refl w, fun _ => rfl, fun h => absurd rfl h⟩
  | cons d ds ih =>
    -- the place of a refusal, counted from the tail
    have hlen : ∀ pre : List (RtDevicePm X), index + 1 + pre.length = index + (d :: pre).length := by
      intro pre
      rw [List.length_cons]
      omega
    cases hd : d.suspend with
    | none =>
      obtain ⟨es, hb, hok, hbad⟩ := ih (index + 1) w
      have hstep : suspendFrom mode index (d :: ds) w = suspendFrom mode (index + 1) ds w := by
        rw [suspendFrom, hd]
      rw [hstep]
      refine ⟨es, hb, ?_, ?_⟩
      · intro h
        rw [places, hd]
        exact hok h
      · intro h
        obtain ⟨pre, d', post, rfl, hd', rfl⟩ := hbad h
        refine ⟨d :: pre, d', post, rfl, hd', ?_⟩
        rw [places, hd, hlen]
        rfl
    | some f =>
      have hcb := Block.callback w (.suspend index mode (f mode w.plat).1) fun x => (f mode x).2
      by_cases hr : (f mode w.plat).1 = rtEok
      · obtain ⟨es, hb, hok, hbad⟩ := ih (index + 1)
          (w.callback (.suspend index mode (f mode w.plat).1) fun x => (f mode x).2)
        have hstep : suspendFrom mode index (d :: ds) w = suspendFrom mode (index + 1) ds
            (w.callback (.suspend index mode (f mode w.plat).1) fun x => (f mode x).2) := by
          rw [suspendFrom, hd]
          exact if_neg (not_not.2 hr)
        rw [hstep]
        refine ⟨_, hcb.trans hb, ?_, ?_⟩
        · intro h
          rw [places, hd, hok h, hr]
          rfl
        · intro h
          obtain ⟨pre, d', post, rfl, hd', rfl⟩ := hbad h
          refine ⟨d :: pre, d', post, rfl, hd', ?_⟩
          rw [places, hd, hlen, hr]
          rfl
      · have hstep : suspendFrom mode index (d :: ds) w = ((f mode w.plat).1,
            w.callback (.suspend index mode (f mode w.plat).1) fun x => (f mode x).2) := by
          rw [suspendFrom, hd]
          exact if_pos hr
        rw [hstep]
        refine ⟨_, hcb, fun h => absurd h hr, ?_⟩
        intro _
        exact ⟨[], d, ds, rfl, by rw [hd]; rfl, rfl⟩

/-! ## Interface calls -/

end World

/-- The events an interface call can give rise to. -/
def Ev.ofCall : Ev → Bool
  | .irqDisable | .irqEnable | .run _ | .frequencyChange _ _ => true
  | .sleep _ | .timerStart _ | .timerStop | .timerGetTick _ => false
  | .suspend _ _ _ | .resume _ _ | .notify _ _ => false
  | .rtTickSet _ | .rtTimerCheck | .undefRead | .nullCall => false

namespace World

variable {X : Type} {w w' w'' : World X}

/-- `w'` was reached by events of interface calls only. -/
def OnlyCalls (w w' : World X) : Prop :=
  ∃ es : List Ev, w'.events = w.events ++ es ∧ ∀ e ∈ es, e.ofCall = true

namespace OnlyCalls

theorem refl (w : World X) : OnlyCalls w w := ⟨[], (List.append_nil _).symm, by simp⟩

theorem trans (h : OnlyCalls w w') (h' : OnlyCalls w' w'') : OnlyCalls w w'' := by
  obtain ⟨es, he, hes⟩ := h
  obtain ⟨es', he', hes'⟩ := h'
  refine ⟨es ++ es', by rw [he', he, List.append_assoc], ?_⟩
  intro e hmem
  rcases List.mem_append.1 hmem with hmem | hmem
  · exact hes e hmem
  · exact hes' e hmem

theorem emit (w : World X) {e : Ev} (he : e.ofCall = true) : OnlyCalls w (w.emit e) :=
  ⟨[e], events_emit e, by simpa using he⟩

theorem callback (w : World X) {e : Ev} (f : X → X) (he : e.ofCall = true) :
    OnlyCalls w (w.callback e f) := ⟨[e], events_callback e f, by simpa using he⟩

theorem mapPm (w : World X) (f : RtPm X → RtPm X) : OnlyCalls w (w.mapPm f) :=
  ⟨[], (List.append_nil _).symm, by simp⟩

theorem locked {body : World X → World X}
    (hb : OnlyCalls (w.emit .irqDisable) (body (w.emit .irqDisable))) :
    OnlyCalls w (w.locked body) := ((emit w rfl).trans hb).trans (emit _ rfl)

end OnlyCalls

theorem pmDeviceFrequencyChange_block (mode : U8) (w : World X) :
    Block w ((places (fun d => d.frequencyChange.isSome) 0 w.pm.devices).map (.frequencyChange · mode))
      (w.pmDeviceFrequencyChange mode) := forDevices_block _ _ _ _ _ w

theorem rtPmRunEnter_onlyCalls (mode : U8) (w : World X) : OnlyCalls w (w.rtPmRunEnter mode).2 := by
  have hfreq : ∀ w : World X, OnlyCalls w (w.pmDeviceFrequencyChange mode) := by
    intro w
    refine ⟨_, (pmDeviceFrequencyChange_block mode w).events, ?_⟩
    intro e he
    obtain ⟨i, -, rfl⟩ := List.mem_map.1 he
    rfl
  unfold rtPmRunEnter
  split_ifs
  · exact OnlyCalls.refl w
  · exact OnlyCalls.refl w
  · refine OnlyCalls.locked ?_
    dsimp only
    split_ifs
    · exact ((OnlyCalls.callback _ _ rfl).trans (hfreq _)).trans (OnlyCalls.mapPm _ _)
    · exact (OnlyCalls.mapPm _ _).trans (OnlyCalls.mapPm _ _)

theorem call_onlyCalls (f : Call) (w : World X) : OnlyCalls w (w.call f) := by
  obtain hcall | ⟨g, -, hcall⟩ | ⟨mode, rfl⟩ := call_cases f w
  · rw [hcall]
    exact OnlyCalls.refl w
  · rw [hcall]
    exact OnlyCalls.locked (OnlyCalls.mapPm _ _)
  · exact rtPmRunEnter_onlyCalls mode w

theorem calls_onlyCalls (fs : List Call) (w : World X) : OnlyCalls w (w.calls fs) := by
  induction fs using List.reverseRecOn with
  | nil => exact OnlyCalls.refl w
  | append_singleton fs f ih =>
    rw [calls_snoc]
    exact ih.trans (call_onlyCalls f _)

/-- The locked section of `_pm_frequency_scaling`. -/
def scale (w : World X) : World X :=
  w.locked fun w =>
    let w := w.opsRun w.pm.runMode
    let w := w.pmDeviceFrequencyChange w.pm.runMode
    w.mapPm fun pm => { pm with flags := pm.flags &&& ~~~rtPmFrequencyPending }

theorem pmFrequencyScaling_eq (irq : List Call) (w : World X) :
    w.pmFrequencyScaling irq =
      if w.pm.flags &&& rtPmFrequencyPending ≠ 0 then (w.calls irq).scale else w := rfl

theorem scale_block (w : World X) : ∃ es, Block w es w.scale := by
  have hrun : Block w ([.irqDisable] ++ [.run w.pm.runMode])
      ((w.emit .irqDisable).opsRun w.pm.runMode) := (Block.emit w _).trans (Block.callback _ _ _)
  have hfreq := hrun.trans (pmDeviceFrequencyChange_block w.pm.runMode _)
  have hflags : ∀ v : World X, Block v []
      (v.mapPm fun pm => { pm with flags := pm.flags &&& ~~~rtPmFrequencyPending }) :=
    fun v => ⟨(List.append_nil _).symm, Same.mapPm rfl, rfl, rfl⟩
  exact ⟨_, (hfreq.trans (hflags _)).trans (Block.emit _ .irqEnable)⟩

/-! ## The tickless block -/

/-- The timer start and the mode of the sleep, or `none` for a start through a NULL pointer. -/
def plan (w : World X) : Option (Option U32 × U8) :=
  if w.pm.masked w.pm.sleepMode then
    if w.rtTimerNextTimeoutTick = rtTickMax then
      some (if w.ops.timerStart.isSome then some rtTickMax else none, w.pm.sleepMode)
    else if w.rtTimerNextTimeoutTick - w.rtTick < rtPmTicklessThresh then
      some (none, pmSleepModeIdle)
    else if w.ops.timerStart.isSome then
      some (some (w.rtTimerNextTimeoutTick - w.rtTick), w.pm.sleepMode)
    else none
  else some (none, w.pm.sleepMode)

theorem Block.plan {es : List Ev} (h : Block w es w') : w'.plan = w.plan := by
  unfold World.plan rtTimerNextTimeoutTick
  rw [h.sleepMode, h.masked, h.same.timers, h.same.rtTick, h.same.ops]

theorem opsTimerStart_of_isSome (h : w.ops.timerStart.isSome) (t : U32) :
    ∃ f, w.opsTimerStart t = w.callback (.timerStart t) f := by
  obtain ⟨f, hf⟩ := Option.isSome_iff_exists.1 h
  refine ⟨f t, ?_⟩
  rw [opsTimerStart, hf]

theorem tickless_of_plan {start : Option U32} {mode : U8} (h : w.plan = some (start, mode)) :
    ∃ u, Block w (start.toList.map .timerStart) u ∧
      w.tickless = u.mapPm fun pm => { pm with sleepMode := mode } := by
  unfold World.plan at h
  unfold tickless
  dsimp only
  split_ifs at h ⊢ with hm hmax hsome hnear hsome
  · obtain ⟨rfl, rfl⟩ : some rtTickMax = start ∧ w.pm.sleepMode = mode := by simpa using h
    obtain ⟨f, hf⟩ := opsTimerStart_of_isSome hsome rtTickMax
    exact ⟨_, Block.callback w _ f, hf⟩
  · obtain ⟨rfl, rfl⟩ : none = start ∧ w.pm.sleepMode = mode := by simpa using h
    exact ⟨w, Block.refl w, rfl⟩
  · obtain ⟨rfl, rfl⟩ : none = start ∧ pmSleepModeIdle = mode := by simpa using h
    exact ⟨w, Block.refl w, rfl⟩
  · obtain ⟨rfl, rfl⟩ : some (w.rtTimerNextTimeoutTick - w.rtTick) = start ∧
      w.pm.sleepMode = mode := by simpa using h
    obtain ⟨f, hf⟩ := opsTimerStart_of_isSome hsome (w.rtTimerNextTimeoutTick - w.rtTick)
    exact ⟨_, Block.callback w _ f, hf⟩
  · obtain ⟨rfl, rfl⟩ : none = start ∧ w.pm.sleepMode = mode := by simpa using h
    exact ⟨w, Block.refl w, rfl⟩

theorem tickless_of_plan_none (h : w.plan = none) :
    w.tickless = { w.emit .nullCall with dead := true } := by
  unfold World.plan at h
  unfold tickless
  dsimp only
  split_ifs at h ⊢ with hm hmax hnear hsome
  have hnone : w.ops.timerStart = none := by simpa using hsome
  rw [opsTimerStart, hnone]

/-- A sleep is planned unless the pass crashes. -/
theorem plan_mode {start : Option U32} {mode : U8} (h : w.plan = some (start, mode)) :
    mode = w.pm.sleepMode ∨ mode = pmSleepModeIdle := by
  unfold World.plan at h
  split_ifs at h <;> simp only [Option.some.injEq, Prod.mk.injEq] at h
  · exact .inl h.2.symm
  · exact .inl h.2.symm
  · exact .inr h.2.symm
  · exact .inl h.2.symm
  · exact .inl h.2.symm

/-! ## Waking up -/

/-- The timer read-back, and the tick moved by what was read. -/
def wakeEvs (w : World X) (mode : U8) (d : U32) : List Ev :=
  if w.pm.masked mode then
    [.timerGetTick d, .timerStop] ++ if d ≠ 0 then [.rtTickSet (w.rtTick + d)] else []
  else []

/-- The local `delta_tick` after a sleep in `mode`. -/
def deltaTick (w : World X) (mode : U8) (d : U32) : Option U32 :=
  if w.pm.masked mode then some d else none

theorem wakeUp_spec (w : World X) :
    ∃ d, w.wakeUp.1 = w.deltaTick w.pm.sleepMode d ∧
      w.wakeUp.2.events = w.events ++ w.wakeEvs w.pm.sleepMode d ∧
      w.wakeUp.2.pm = w.pm ∧ w.wakeUp.2.ops = w.ops ∧ w.wakeUp.2.dead = w.dead := by
  obtain ⟨d, v, hread, hd⟩ : ∃ d v, w.opsTimerGetTick = (d, v) ∧
      v = w.callback (.timerGetTick d) fun x => (w.ops.timerGetTick x).2 := ⟨_, _, rfl, rfl⟩
  have hblock : Block w [.timerGetTick d, .timerStop] (v.callback .timerStop v.ops.timerStop) := by
    rw [hd]
    exact (Block.callback w _ _).trans (Block.callback _ _ _)
  have hpm : v.pm = w.pm := by rw [hd]; rfl
  have hops : v.ops = w.ops := by rw [hd]; rfl
  have hdead : v.dead = w.dead := by rw [hd]; rfl
  have htick : (v.callback .timerStop v.ops.timerStop).rtTick = w.rtTick := by rw [hd]; rfl
  refine ⟨d, ?_⟩
  unfold wakeUp deltaTick wakeEvs
  rw [hread]
  dsimp only
  split_ifs with hm hne
  · refine ⟨rfl, ?_, hpm, hops, hdead⟩
    refine (events_emit _).trans ?_
    rw [hblock.events, List.append_assoc, htick]
  · rw [List.append_nil]
    exact ⟨rfl, hblock.events, hpm, hops, hdead⟩
  · exact ⟨rfl, (List.append_nil _).symm, rfl, rfl, rfl⟩

/-- The expiry check at the end of a pass. -/
def checkEvs (irq : Irq) (delta : Option U32) (w : World X) : List Ev :=
  if w.pm.masked w.pm.sleepMode then
    match delta with
    | some d => if d ≠ 0 then [.rtTimerCheck] else []
    | none => .undefRead :: if irq.undef ≠ 0 then [.rtTimerCheck] else []
  else []

theorem timerCheck_spec (irq : Irq) (delta : Option U32) (w : World X) :
    (w.timerCheck irq delta).events = w.events ++ checkEvs irq delta w ∧
      (w.timerCheck irq delta).pm = w.pm ∧ (w.timerCheck irq delta).ops = w.ops ∧
      (w.timerCheck irq delta).dead = w.dead := by
  have hsame : w.events = w.events ++ [] := (List.append_nil _).symm
  unfold timerCheck checkEvs
  by_cases hm : w.pm.masked w.pm.sleepMode
  · rw [if_pos hm, if_pos hm]
    cases delta with
    | some d =>
      dsimp only
      split_ifs
      · exact ⟨events_emit _, rfl, rfl, rfl⟩
      · exact ⟨hsame, rfl, rfl, rfl⟩
    | none =>
      dsimp only
      split_ifs
      · refine ⟨?_, rfl, rfl, rfl⟩
        have he : ((w.emit .undefRead).rtTimerCheck irq).events =
            (w.emit .undefRead).events ++ [.rtTimerCheck] := events_emit _
        rw [he, events_emit, List.append_assoc]
        rfl
      · exact ⟨events_emit _, rfl, rfl, rfl⟩
  · rw [if_neg hm, if_neg hm]
    exact ⟨hsame, rfl, rfl, rfl⟩

/-! ## The pass -/

/-- Some module is busy at the start of a pass. -/
def busy (w : World X) : Bool := !w.rtPmEnterCritical.pmDeviceCheckIdle.1

/-- The pass only calls `ops->sleep(PM_SLEEP_MODE_NONE)`. -/
abbrev Awake (w : World X) : Prop := w.busy = true ∨ w.pm.sleepMode = pmSleepModeNone

/-- The state in which a pass starts to suspend the devices. -/
def entered (w : World X) : World X :=
  w.rtPmEnterCritical.pmDeviceCheckIdle.2.pmNotify .rtPmEnterSleep w.pm.sleepMode

/-- What suspending the devices returns. -/
def suspendRet (w : World X) : ℤ := (w.entered.pmDeviceSuspend w.pm.sleepMode).1

/-- The events up to the suspend callbacks. -/
def enterEvs (w : World X) : List Ev := .irqDisable :: w.notifyEvs .rtPmEnterSleep w.pm.sleepMode

theorem checked_block (w : World X) :
    Block w [.irqDisable] w.rtPmEnterCritical.pmDeviceCheckIdle.2 :=
  (Block.emit w _).trans (pmDeviceCheckIdle_block _)

theorem entered_block (w : World X) : Block w w.enterEvs w.entered := by
  have hb := pmNotify_block .rtPmEnterSleep w.pm.sleepMode w.rtPmEnterCritical.pmDeviceCheckIdle.2
  have hn : w.rtPmEnterCritical.pmDeviceCheckIdle.2.notifyEvs .rtPmEnterSleep w.pm.sleepMode =
      w.notifyEvs .rtPmEnterSleep w.pm.sleepMode := by
    unfold notifyEvs
    rw [(checked_block w).notify]
  rw [hn] at hb
  exact (checked_block w).trans hb

theorem notifyEvs_congr (h : w'.pm.notify = w.pm.notify) (e : NotifyEvent) (m : U8) :
    w'.notifyEvs e m = w.notifyEvs e m := by
  unfold notifyEvs
  rw [h]

theorem resumeEvs_congr (h : w'.pm.devices = w.pm.devices) (m : U8) :
    w'.resumeEvs m = w.resumeEvs m := by
  unfold resumeEvs
  rw [h]

/-- **A pass that finds a busy module or `PM_SLEEP_MODE_NONE`.** -/
theorem pass_awake (irq : Irq) (h : w.Awake) :
    ∃ u, Block w [.irqDisable, .sleep pmSleepModeNone, .irqEnable] u ∧
      w.pmChangeSleepMode irq = u.calls irq.exit := by
  have hc := checked_block w
  have hu : Block w [.irqDisable, .sleep pmSleepModeNone, .irqEnable]
      ((w.rtPmEnterCritical.pmDeviceCheckIdle.2.opsSleep pmSleepModeNone).emit .irqEnable) :=
    (hc.trans (Block.callback _ _ _)).trans (Block.emit _ _)
  refine ⟨_, hu, ?_⟩
  unfold pmChangeSleepMode
  dsimp only
  rcases h with hb | hn
  · have hidle : w.rtPmEnterCritical.pmDeviceCheckIdle.1 = false := by simpa [busy] using hb
    rw [if_pos hidle]
    rfl
  · rw [hc.sleepMode, if_pos hn, ite_self]
    rfl

/-- A pass that gets past the first two tests. -/
theorem pass_of_not_awake (irq : Irq) (h : ¬w.Awake) :
    w.pmChangeSleepMode irq =
      if w.suspendRet ≠ rtEok then
        (((w.entered.pmDeviceSuspend w.pm.sleepMode).2.pmDeviceResume w.pm.sleepMode).pmNotify
          .rtPmExitSleep w.pm.sleepMode).rtPmExitCritical irq.exit
      else (w.entered.pmDeviceSuspend w.pm.sleepMode).2.sleepSuspended irq := by
  have hidle : w.rtPmEnterCritical.pmDeviceCheckIdle.1 ≠ false := by
    intro hf
    exact h (.inl (by simp [busy, hf]))
  have hnone : w.pm.sleepMode ≠ pmSleepModeNone := fun hn => h (.inr hn)
  have hc := (checked_block w).sleepMode
  unfold pmChangeSleepMode
  dsimp only
  rw [if_neg hidle, hc, if_neg hnone]
  have he := (entered_block w).sleepMode
  have hdef : w.rtPmEnterCritical.pmDeviceCheckIdle.2.pmNotify .rtPmEnterSleep w.pm.sleepMode =
      w.entered := rfl
  rw [hdef, he]
  have hs : (w.entered.pmDeviceSuspend w.pm.sleepMode).2.pm.sleepMode = w.pm.sleepMode := by
    obtain ⟨es, hb, -⟩ := suspendFrom_block w.pm.sleepMode 0 w.entered.pm.devices w.entered
    exact hb.sleepMode.trans he
  have hr : ((w.entered.pmDeviceSuspend w.pm.sleepMode).2.pmDeviceResume w.pm.sleepMode).pm.sleepMode
      = w.pm.sleepMode := by
    rw [(pmDeviceResume_block _ _).sleepMode, hs]
  rw [hs, hr]
  rfl

/-- The suspend callbacks of a list of devices that all agree. -/
def suspendEvs (ds : List (RtDevicePm X)) (mode : U8) : List Ev :=
  (places (fun d => d.suspend.isSome) 0 ds).map (.suspend · mode rtEok)

/-- **A pass in which a device refuses to be suspended.** -/
theorem pass_refused (irq : Irq) (h : ¬w.Awake) (hr : w.suspendRet ≠ rtEok) :
    ∃ pre d post u, w.pm.devices = pre ++ d :: post ∧ d.suspend.isSome ∧
      Block w (w.enterEvs ++
          (suspendEvs pre w.pm.sleepMode ++ [.suspend pre.length w.pm.sleepMode w.suspendRet]) ++
        w.resumeEvs w.pm.sleepMode ++ w.notifyEvs .rtPmExitSleep w.pm.sleepMode ++ [.irqEnable]) u ∧
      w.pmChangeSleepMode irq = u.calls irq.exit := by
  have hent := entered_block w
  obtain ⟨es, hb, -, hbad⟩ := suspendFrom_block w.pm.sleepMode 0 w.entered.pm.devices w.entered
  obtain ⟨pre, d, post, hds, hd, rfl⟩ := hbad hr
  rw [hent.devices] at hds
  rw [Nat.zero_add] at hb
  have hsusp := hent.trans hb
  have hres := hsusp.trans (pmDeviceResume_block w.pm.sleepMode _)
  have hnot := hres.trans (pmNotify_block .rtPmExitSleep w.pm.sleepMode _)
  rw [resumeEvs_congr hsusp.devices, notifyEvs_congr hres.notify] at hnot
  refine ⟨pre, d, post, _, hds, hd, hnot.trans (Block.emit _ .irqEnable), ?_⟩
  rw [pass_of_not_awake irq h, if_pos hr]
  rfl

/-- The events of a pass up to the tickless block. -/
theorem suspended_block (hr : w.suspendRet = rtEok) :
    Block w (w.enterEvs ++ suspendEvs w.pm.devices w.pm.sleepMode)
      (w.entered.pmDeviceSuspend w.pm.sleepMode).2 := by
  have hent := entered_block w
  obtain ⟨es, hb, hok, -⟩ := suspendFrom_block w.pm.sleepMode 0 w.entered.pm.devices w.entered
  obtain rfl := hok hr
  rw [hent.devices] at hb
  have hall := hent.trans hb
  rw [← hent.devices] at hall ⊢
  exact hall

/-- **A pass that starts the low-power timer through a NULL pointer.** -/
theorem pass_crashed (irq : Irq) (h : ¬w.Awake) (hr : w.suspendRet = rtEok) (hp : w.plan = none) :
    ∃ u, Block w (w.enterEvs ++ suspendEvs w.pm.devices w.pm.sleepMode ++ [.nullCall]) u ∧
      w.pmChangeSleepMode irq = { u with dead := true } := by
  have hsusp := suspended_block hr
  have ht := tickless_of_plan_none (hsusp.plan.trans hp)
  refine ⟨_, hsusp.trans (Block.emit _ .nullCall), ?_⟩
  rw [pass_of_not_awake irq h, if_neg (not_not.2 hr), sleepSuspended]
  dsimp only
  rw [ht]
  exact if_pos rfl

/-- A state that differs from `w` in what a sleep in `mode` changes only. -/
structure SleptState (w : World X) (mode : U8) (u : World X) : Prop where
  modes : u.pm.modes = w.pm.modes
  sleepMode : u.pm.sleepMode = mode
  fixed : u.pm.fixed = w.pm.fixed
  ops : u.ops = w.ops
  dead : u.dead = w.dead

theorem SleptState.block {mode : U8} {u v : World X} {es : List Ev} (h : SleptState w mode u)
    (hb : Block u es v) : SleptState w mode v :=
  ⟨hb.modes.trans h.modes, hb.sleepMode.trans h.sleepMode, hb.same.fixed.trans h.fixed,
    hb.same.ops.trans h.ops, hb.same.dead.trans h.dead⟩

theorem SleptState.devices {mode : U8} {u : World X} (h : SleptState w mode u) :
    u.pm.devices = w.pm.devices := by
  have hf := congrArg RtPm.devices h.fixed
  exact hf

theorem SleptState.notify {mode : U8} {u : World X} (h : SleptState w mode u) :
    u.pm.notify = w.pm.notify := by
  have hf := congrArg RtPm.notify h.fixed
  exact hf

theorem SleptState.masked {mode : U8} {u : World X} (h : SleptState w mode u) (m : U8) :
    u.pm.masked m = w.pm.masked m := by
  have hf := congrArg RtPm.timerMask h.fixed
  unfold RtPm.masked
  exact congrArg (BitVec.getLsbD · m.toNat) hf

/-- The sleep proper, from the state the tickless block leaves. -/
theorem sleepSuspended_spec (irq : Irq) {a : World X} (ha : w.tickless = a) (hdead : a.dead = false)
    {mode : U8} (hm : a.pm.sleepMode = mode) :
    ∃ d u, u.events = a.events ++ ([.sleep mode] ++ a.wakeEvs mode d ++ a.resumeEvs mode ++
          a.notifyEvs .rtPmExitSleep mode ++ [.irqEnable]) ∧
      SleptState a mode u ∧
      w.sleepSuspended irq = (u.calls irq.exit).timerCheck irq (a.deltaTick mode d) := by
  subst hm
  have hsleep : Block a [.sleep a.pm.sleepMode] (a.opsSleep a.pm.sleepMode) := Block.callback a _ _
  obtain ⟨d, hd, hev, hpm, hops, hdd⟩ := wakeUp_spec (a.opsSleep a.pm.sleepMode)
  have hwoken : SleptState a a.pm.sleepMode (a.opsSleep a.pm.sleepMode).wakeUp.2 :=
    ⟨by rw [hpm]; rfl, by rw [hpm]; rfl, by rw [hpm]; rfl, hops, hdd⟩
  have hres := pmDeviceResume_block a.pm.sleepMode (a.opsSleep a.pm.sleepMode).wakeUp.2
  have hnot := hres.trans (pmNotify_block .rtPmExitSleep a.pm.sleepMode _)
  have hall := hnot.trans (Block.emit _ .irqEnable)
  rw [resumeEvs_congr hwoken.devices, notifyEvs_congr (hwoken.block hres).notify] at hall
  refine ⟨d, _, ?_, hwoken.block hall, ?_⟩
  · rw [hall.events, hev, hsleep.events]
    simp only [List.append_assoc]
    rfl
  · unfold sleepSuspended
    dsimp only
    rw [ha, if_neg (by rw [hdead]; exact Bool.false_ne_true), hwoken.sleepMode,
      (hwoken.block hres).sleepMode, hd]
    rfl

/-- **A pass that sleeps.** -/
theorem pass_slept (irq : Irq) (hdead : w.dead = false) (h : ¬w.Awake) (hr : w.suspendRet = rtEok)
    {start : Option U32} {mode : U8} (hp : w.plan = some (start, mode)) :
    ∃ d u, u.events = w.events ++ (w.enterEvs ++ suspendEvs w.pm.devices w.pm.sleepMode ++
          start.toList.map .timerStart ++ ([.sleep mode] ++ w.wakeEvs mode d ++ w.resumeEvs mode ++
          w.notifyEvs .rtPmExitSleep mode ++ [.irqEnable])) ∧
      SleptState w mode u ∧
      w.pmChangeSleepMode irq = (u.calls irq.exit).timerCheck irq (w.deltaTick mode d) := by
  have hsusp := suspended_block hr
  obtain ⟨v, hv, ht⟩ := tickless_of_plan (hsusp.plan.trans hp)
  have hb := hsusp.trans hv
  -- from here on the mode is the planned one
  have ha : SleptState w mode (v.mapPm fun pm => { pm with sleepMode := mode }) :=
    ⟨hb.modes, rfl, hb.same.fixed, hb.same.ops, hb.same.dead⟩
  obtain ⟨d, u, hev, hu, heq⟩ := sleepSuspended_spec irq ht (ha.dead.trans hdead) ha.sleepMode
  have hwake : (v.mapPm fun pm => { pm with sleepMode := mode }).wakeEvs mode d = w.wakeEvs mode d := by
    unfold wakeEvs
    rw [ha.masked, mapPm_rtTick, hb.same.rtTick]
  have hdelta : (v.mapPm fun pm => { pm with sleepMode := mode }).deltaTick mode d =
      w.deltaTick mode d := by
    unfold deltaTick
    rw [ha.masked]
  refine ⟨d, u, ?_, ?_, ?_⟩
  · rw [hev, hwake, resumeEvs_congr ha.devices, notifyEvs_congr ha.notify, events_mapPm, hb.events,
      List.append_assoc]
  · exact ⟨hu.modes.trans ha.modes, hu.sleepMode, hu.fixed.trans ha.fixed, hu.ops.trans ha.ops,
      hu.dead.trans ha.dead⟩
  · rw [pass_of_not_awake irq h, if_neg (not_not.2 hr), heq, hdelta]

/-! ## What a pass shows

Interrupts call the interface when a pass leaves its critical section. A filter that hides calls
shows the pass alone. -/

section Shown

variable {u : World X} {p : Ev → Bool} {es : List Ev}

/-- Calls made after the events `es` are hidden. -/
theorem calls_hidden (hp : ∀ e, e.ofCall = true → p e = false) (h : u.events = w.events ++ es)
    (fs : List Call) :
    ∃ es', (u.calls fs).events = w.events ++ es' ∧ es'.filter p = es.filter p := by
  obtain ⟨calls, hcalls, hof⟩ := calls_onlyCalls fs u
  have hnil : calls.filter p = [] := by
    rw [List.filter_eq_nil_iff]
    intro e he
    rw [hp e (hof e he)]
    exact Bool.false_ne_true
  refine ⟨es ++ calls, by rw [hcalls, h, List.append_assoc], ?_⟩
  rw [List.filter_append, hnil, List.append_nil]

theorem shown_awake (hp : ∀ e, e.ofCall = true → p e = false) (irq : Irq) (h : w.Awake) :
    (w.since (w.pmChangeSleepMode irq)).filter p =
      List.filter p [.irqDisable, .sleep pmSleepModeNone, .irqEnable] := by
  obtain ⟨u, hb, heq⟩ := pass_awake irq h
  obtain ⟨es, hes, hshown⟩ := calls_hidden hp hb.events irq.exit
  rw [heq, since_eq hes, hshown]

theorem shown_refused (hp : ∀ e, e.ofCall = true → p e = false) (irq : Irq) (h : ¬w.Awake)
    (hr : w.suspendRet ≠ rtEok) :
    ∃ pre d post, w.pm.devices = pre ++ d :: post ∧ d.suspend.isSome = true ∧
      (w.since (w.pmChangeSleepMode irq)).filter p = List.filter p (w.enterEvs ++
          (suspendEvs pre w.pm.sleepMode ++ [.suspend pre.length w.pm.sleepMode w.suspendRet]) ++
        w.resumeEvs w.pm.sleepMode ++ w.notifyEvs .rtPmExitSleep w.pm.sleepMode ++
        [.irqEnable]) := by
  obtain ⟨pre, d, post, u, hds, hd, hb, heq⟩ := pass_refused irq h hr
  obtain ⟨es, hes, hshown⟩ := calls_hidden hp hb.events irq.exit
  exact ⟨pre, d, post, hds, hd, by rw [heq, since_eq hes, hshown]⟩

theorem since_crashed (irq : Irq) (h : ¬w.Awake) (hr : w.suspendRet = rtEok)
    (hplan : w.plan = none) :
    w.since (w.pmChangeSleepMode irq) =
      w.enterEvs ++ suspendEvs w.pm.devices w.pm.sleepMode ++ [.nullCall] := by
  obtain ⟨u, hb, heq⟩ := pass_crashed irq h hr hplan
  have hev : (w.pmChangeSleepMode irq).events = u.events := by rw [heq]; rfl
  exact since_eq (hev.trans hb.events)

theorem shown_slept (hp : ∀ e, e.ofCall = true → p e = false) (irq : Irq) (hdead : w.dead = false)
    (h : ¬w.Awake) (hr : w.suspendRet = rtEok) {start : Option U32} {mode : U8}
    (hplan : w.plan = some (start, mode)) :
    ∃ d u, SleptState w mode u ∧ (w.pmChangeSleepMode irq).pm = (u.calls irq.exit).pm ∧
      (w.since (w.pmChangeSleepMode irq)).filter p =
        List.filter p (w.enterEvs ++ suspendEvs w.pm.devices w.pm.sleepMode ++
          start.toList.map .timerStart ++ ([.sleep mode] ++ w.wakeEvs mode d ++
          w.resumeEvs mode ++ w.notifyEvs .rtPmExitSleep mode ++ [.irqEnable])) ++
        (checkEvs irq (w.deltaTick mode d) (u.calls irq.exit)).filter p := by
  obtain ⟨d, u, hev, hu, heq⟩ := pass_slept irq hdead h hr hplan
  obtain ⟨es, hes, hshown⟩ := calls_hidden hp hev irq.exit
  obtain ⟨hcheck, hpm, -, -⟩ := timerCheck_spec irq (w.deltaTick mode d) (u.calls irq.exit)
  refine ⟨d, u, hu, by rw [heq, hpm], ?_⟩
  rw [hes, List.append_assoc] at hcheck
  rw [heq, since_eq hcheck, List.filter_append, hshown]

end Shown

end World
end LowPower.Pm
