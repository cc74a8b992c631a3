import LowPower.Proof.Asked
import LowPower.Proof.Emits
import LowPower.Proof.Wakeup

/-!
# No deadline, and a deadline that is now

`PM_TICK_MAX` stands for "no deadline", but the pass subtracts the tick from it before anything
looks at it.

* `lptimStarts_eq`: a pass calls `lptim_start` at most once, with the time to the deadline of
  `lptim_next_timeout`.
* `noDeadline_kept_iff`: when "no deadline" survives the subtraction, for the threshold check and
  for the low-power timer.
* `lptimStart_pos_iff`: when the argument of `lptim_start` is not zero, in terms of the tick and
  the deadline before the pass.
-/

namespace LowPower

variable {c : Config} {X : Type}

def Ev.startArg : Ev → Option U32
  | .lptimStart t => some t
  | .sleep _ | .freqHandle | .hook _ _ _ _ | .enter _ | .done _ | .setFreq _ _ => none
  | .lptimStop | .lptimGetTick _ | .lptimNextTimeout _ => none
  | .systickGet _ | .systickSet _ | .systickNextTimeout _ => none
  | .irqDisable _ | .irqEnable _ => none

theorem light_startArg {e : Ev} (h : e.light = true) : e.startArg = none := by
  cases e <;> first | rfl | exact Bool.noConfusion h

namespace World

variable {w w' w'' : World c X} {env : Env c X} {ts ts' : List U32}

/-! ## What a pass gives to the low-power timer -/

/-- From `w` to `w'` the low-power timer was started with the arguments `ts`. -/
def Starts (ts : List U32) (w w' : World c X) : Prop :=
  ∃ tr, w'.trace = w.trace ++ tr ∧ tr.filterMap (·.1.startArg) = ts

theorem Starts.trans (h : Starts ts w w') (h' : Starts ts' w' w'') : Starts (ts ++ ts') w w'' := by
  obtain ⟨tr, ht, hs⟩ := h
  obtain ⟨tr', ht', hs'⟩ := h'
  exact ⟨tr ++ tr', by rw [ht', ht, List.append_assoc], by rw [List.filterMap_append, hs, hs']⟩

theorem Emits.starts (h : Emits (fun e => e.startArg = none) w w') : Starts [] w w' := by
  obtain ⟨tr, ht, hq⟩ := h
  exact ⟨tr, ht, List.filterMap_eq_nil_iff.2 hq⟩

/-- The arguments of `lptim_start` in one pass. -/
def lptimStarts (env : Env c X) (w : World c X) : List U32 :=
  ((w.pmRunTickless env).trace.drop w.trace.length).filterMap (·.1.startArg)

theorem lptimStarts_of_starts (h : Starts ts w (w.pmRunTickless env)) : lptimStarts env w = ts := by
  obtain ⟨tr, ht, hs⟩ := h
  unfold lptimStarts
  rw [ht, List.drop_left, hs]

theorem lptimerStart_starts (t : U32) (w : World c X) :
    Starts (if (w.ops.bind (·.lptimStart)).isSome then [t] else []) w (w.lptimerStart t) := by
  unfold lptimerStart callOut
  cases ho : w.ops with
  | none => exact ⟨[], (List.append_nil _).symm, rfl⟩
  | some o =>
    cases hs : o.lptimStart with
    | none => simp only [Option.bind_some, hs]; exact ⟨[], (List.append_nil _).symm, rfl⟩
    | some f => simp only [Option.bind_some, hs]; exact ⟨[(.lptimStart t, w.st)], rfl, rfl⟩

/-- Before a deep sleep the low-power timer is started, if the platform has one. -/
theorem deepEnter_starts (w : World c X) : Starts
    (if c.lpmsTicklessDefaultMode ≤ w.st.sleepMode then
      if (w.ops.bind (·.lptimStart)).isSome then [w.lptimArg] else []
    else []) w w.deepEnter.2 := by
  have hreads : EmitsLight w w.lptimerNextTimeout.2.pmGetTick.2 :=
    Emits.trans (Emits.query (fun _ => by rfl) _ w) (pmGetTick_emits _)
  have hops : w.lptimerNextTimeout.2.pmGetTick.2.ops = w.ops := by
    rw [pmGetTick_ops, lptimerNextTimeout, query_ops]
  unfold deepEnter
  by_cases hdeep : c.lpmsTicklessDefaultMode ≤ w.st.sleepMode
  · have hstart := lptimerStart_starts w.lptimArg w.lptimerNextTimeout.2.pmGetTick.2
    rw [hops] at hstart
    rw [if_pos hdeep, if_pos hdeep]
    exact (hreads.mono fun _ => light_startArg).starts.trans hstart
  · rw [if_neg hdeep, if_neg hdeep]
    exact (Emits.refl _ w).starts

/-- **A pass starts the low-power timer at most once**, before a deep sleep, with the time to the
deadline of `lptim_next_timeout`. -/
theorem lptimStarts_eq (env : Env c X) (w : World c X) : lptimStarts env w =
    if w.st.enableFlag ≠ 0 ∧ c.lpmsTicklessDefaultMode ≤ w.passDecide.2.st.sleepMode ∧
      (w.ops.bind (·.lptimStart)).isSome then [w.passDecide.2.lptimArg] else [] := by
  refine lptimStarts_of_starts ?_
  by_cases hen : w.st.enableFlag = 0
  · rw [if_neg fun h => h.1 hen, pmRunTickless, if_pos hen]
    exact (Emits.refl _ w).starts
  · have hlight : ∀ {w w' : World c X}, EmitsLight w w' → Starts [] w w' := fun h =>
      (h.mono fun _ => light_startArg).starts
    have hdecide := hlight (passDecide_emits w)
    have hdeep := deepEnter_starts w.passDecide.2
    have hnotify : Starts [] w.passDecide.2.deepEnter.2 (w.told env) := by
      exact Emits.starts (notify_emits (fun _ => light_startArg) (fun _ _ => rfl) _)
    have hsleep : Starts [] (w.told env) ((w.told env).pmSleep (w.told env).st.sleepMode) :=
      (Emits.callOut (by rfl) _).starts
    have hwake : Starts [] ((w.told env).pmSleep (w.told env).st.sleepMode)
        (w.passDecide.2.passSleep env) := by
      rw [passSleep_eq]
      exact hlight ((notify_emits (fun _ he => he) (fun _ _ => rfl) _).trans (deepExit_emits _ _))
    have hfreq : Starts [] (w.passDecide.2.passSleep env) (w.pmRunTickless env) := by
      have hemit : Starts [] (w.passDecide.2.passSleep env)
          ((w.passDecide.2.passSleep env).emit .freqHandle) := (Emits.emit (by rfl) _).starts
      rw [pmRunTickless, if_neg hen]
      exact hemit.trans (hlight ((pmFreqHandle_emits _).trans (pmIrqEnable_emits _ _)))
    -- only `deepEnter` can start the timer
    have hall := (((hdecide.trans hdeep).trans hnotify).trans (hsleep.trans hwake)).trans hfreq
    rw [passDecide_ops] at hall
    rw [ite_and, if_pos hen, ite_and]
    simpa only [List.nil_append, List.append_nil] using hall

/-! ## No deadline -/

/-- No OS timer is active: `systick_next_timeout` is absent or returns `PM_TICK_MAX`. -/
def NoOsTimer (w : World c X) : Prop :=
  ∀ f, w.ops.bind (·.systickNextTimeout) = some f → (f w.checked.plat).1 = pmTickMax

/-- `lptim_next_timeout` is absent or returns `PM_TICK_MAX`. -/
def NoLptimDeadline (w : World c X) : Prop :=
  ∀ f, w.ops.bind (·.lptimNextTimeout) = some f → (f w.passDecide.2.plat).1 = pmTickMax

/-- The deadline and the tick from which the argument of `lptim_start` is taken. -/
def lptimDeadline (w : World c X) : U32 := w.passDecide.2.lptimerNextTimeout.1
def lptimTick (w : World c X) : U32 := w.passDecide.2.lptimerNextTimeout.2.pmGetTick.1

/-- The threshold limit changes the mode of the pass. -/
def ThresholdApplied (w : World c X) : Prop :=
  w.st.enableFlag ≠ 0 ∧ w.passDecide.2.st.sleepMode ≠ w.checked.st.sleepMode

/-- The votes, the busy windows and the threshold leave a mode for which the low-power timer is
started, and the platform has one. -/
def StartsLptim (w : World c X) : Prop :=
  w.st.enableFlag ≠ 0 ∧ c.lpmsTicklessDefaultMode.toNat ≤ w.passMode ∧
    (w.ops.bind (·.lptimStart)).isSome = true

theorem query_marker {sel : LpmsOps X → Option (X → U32 × X)} {e : U32 → Ev} (w : World c X)
    (h : ∀ f, w.ops.bind sel = some f → (f w.plat).1 = pmTickMax) :
    (w.query sel e pmTickMax).1 = pmTickMax := by
  unfold query
  cases hs : w.ops.bind sel with
  | none => rfl
  | some f => exact h f hs

theorem NoOsTimer.osDeadline (h : NoOsTimer w) : w.osDeadline = pmTickMax :=
  query_marker w.checked fun f hf => h f (checked_ops w ▸ hf)

theorem NoLptimDeadline.lptimDeadline (h : NoLptimDeadline w) : w.lptimDeadline = pmTickMax :=
  query_marker w.passDecide.2 fun f hf => h f (passDecide_ops w ▸ hf)

theorem mem_lptimStarts {t : U32} : t ∈ lptimStarts env w ↔
    w.StartsLptim ∧ t = w.lptimDeadline - w.lptimTick := by
  have hmode : c.lpmsTicklessDefaultMode ≤ w.passDecide.2.st.sleepMode ↔
      c.lpmsTicklessDefaultMode.toNat ≤ w.passMode := by
    rw [← passDecide_sleepMode]
    exact Iff.rfl
  rw [lptimStarts_eq]
  unfold StartsLptim
  rw [← hmode]
  split_ifs with h
  · rw [List.mem_singleton]
    exact (and_iff_right h).symm
  · exact iff_of_false List.not_mem_nil fun h' => h h'.1

theorem forall_lptimStarts {P : U32 → Prop} :
    (∀ t ∈ lptimStarts env w, P t) ↔ (w.StartsLptim → P (w.lptimDeadline - w.lptimTick)) := by
  constructor
  · exact fun h hs => h _ (mem_lptimStarts.2 ⟨hs, rfl⟩)
  · intro h t ht
    obtain ⟨hs, rfl⟩ := mem_lptimStarts.1 ht
    exact h hs

/-- The threshold limit changes the mode when the deadline is near and the mode above its own. -/
theorem thresholdApplied_iff : w.ThresholdApplied ↔ w.st.enableFlag ≠ 0 ∧
    w.osDeadline - w.osTick ≤ c.lpmsTicklessThresholdTime ∧
      c.lpmsTicklessThresholdMode.toNat < w.votedMode := by
  -- the two modes in numbers
  have hne : w.passDecide.2.st.sleepMode ≠ w.checked.st.sleepMode ↔ w.passMode ≠ w.votedMode := by
    rw [Ne, ← BitVec.toNat_inj, passDecide_sleepMode, checked_sleepMode]
  unfold ThresholdApplied
  rw [hne]
  unfold passMode
  split_ifs with hnear
  · simp only [hnear, true_and]
    refine and_congr_right fun _ => ?_
    omega
  · simp [hnear]

/-- "No deadline" is respected: no threshold limit, and no call of the low-power timer with
anything but `PM_TICK_MAX`. -/
def NoDeadlineKept (env : Env c X) (w : World c X) : Prop :=
  (w.NoOsTimer → ¬w.ThresholdApplied) ∧
    (w.NoLptimDeadline → ∀ t ∈ lptimStarts env w, t = pmTickMax)

/-- **"No deadline" across the subtraction.** From any state, with any callbacks and hooks, a pass
treats "no timer" as no deadline exactly when the threshold check runs more than the threshold
before tick `PM_TICK_MAX`, or could change nothing, and the low-power timer is started at tick 0,
or not at all. -/
theorem noDeadline_kept_iff (env : Env c X) (w : World c X) : NoDeadlineKept env w ↔
    (w.NoOsTimer → w.st.enableFlag = 0 ∨
      c.lpmsTicklessThresholdTime < pmTickMax - w.osTick ∨
        w.votedMode ≤ c.lpmsTicklessThresholdMode.toNat) ∧
    (w.NoLptimDeadline → w.lptimTick = 0 ∨ ¬w.StartsLptim) := by
  refine and_congr (imp_congr_right fun h => ?_) (imp_congr_right fun h => ?_)
  · rw [thresholdApplied_iff, h.osDeadline, not_and_or, not_and_or, not_not, BitVec.not_le, not_lt]
  · rw [forall_lptimStarts, h.lptimDeadline, imp_iff_or_not]
    exact or_congr_left (Hw.timeLeft_eq_max w.lptimTick)

/-! ## The shipped driver -/

/-- The machine enabled at a tick, with OS timers active. -/
def enabledAt (now : U32) (timers : List U32) : World Config.shipped Hw :=
  (start .shipped (pmOps .still) pmFreqHigh (Hw.boot now timers)).run .silent [.call .lpmsEnable]

/-- Without a timer: at tick 5 the low-power timer is started with the time to `PM_TICK_MAX`, and
in the last ticks before `PM_TICK_MAX` the threshold limit is applied. -/
theorem noDeadline_lost :
    ¬NoDeadlineKept .silent (enabledAt 5 []) ∧ ¬NoDeadlineKept .silent (enabledAt 0xfffffffc []) := by
  have hops : ∀ now timers, (enabledAt now timers).ops = some (pmOps .still) :=
    fun _ _ => run_ops _ _
  constructor
  · intro h
    have hnone : (enabledAt 5 []).NoLptimDeadline := by
      intro f hf
      rw [hops] at hf
      exact absurd hf (Option.some_ne_none f).symm
    -- 0xffffffff - 5
    have hstart : 0xfffffffa ∈ lptimStarts .silent (enabledAt 5 []) := by decide +kernel
    exact absurd (h.2 hnone _ hstart) (by decide)
  · intro h
    have hnone : (enabledAt 0xfffffffc []).NoOsTimer := by
      intro f hf
      rw [hops] at hf
      obtain rfl := Option.some.inj hf
      decide +kernel
    exact h.1 hnone ⟨by decide +kernel, by decide +kernel⟩

/-! ## The assertion of the driver -/

theorem pmTimerStart_live (t : U32) :
    (∀ hw : Hw, (hw.pmTimerStart t).halted = hw.halted) ↔ t ≠ 0 := by
  unfold Hw.pmTimerStart
  constructor
  · rintro h rfl
    have hboot := h (Hw.boot 0 [])
    rw [if_pos rfl] at hboot
    exact Bool.noConfusion hboot
  · intro ht hw
    rw [if_neg ht]
    split_ifs <;> rfl

/-- A pass gives `lptim_start` no 0, so `RT_ASSERT(timeout > 0)` in `pm_timer_start` does not halt
the machine. -/
def LptimStartsLive (env : Env c X) (w : World c X) : Prop :=
  ∀ t ∈ lptimStarts env w, t ≠ 0 ∧ ∀ hw : Hw, (hw.pmTimerStart t).halted = hw.halted

/-- On a steady platform the low-power timer is given the time from the tick before the pass to the
deadline told then. -/
theorem lptimStartsLive_iff (env : Env c X) (hs : w.Steady) : LptimStartsLive env w ↔
    (w.EntersDeep → (w.ops.bind (·.lptimStart)).isSome = true → w.lptimDue ≠ w.sysTick) := by
  obtain ⟨hdeadline, htick⟩ := passDecide_lptimer hs
  have hzero : w.lptimDue - w.sysTick = 0 ↔ w.lptimDue = w.sysTick := by bv_omega
  unfold LptimStartsLive
  simp only [pmTimerStart_live, and_self]
  rw [forall_lptimStarts, lptimDeadline, lptimTick, hdeadline, htick, Ne, hzero]
  unfold StartsLptim EntersDeep
  rw [passMode_eq hs]
  tauto

/-- **The assertion in `pm_timer_start`.** With any steady callbacks and any hooks, a pass calls
`lptim_start` with a positive argument unless it is deep and starts at the very tick that
`lptim_next_timeout` tells, or at `PM_TICK_MAX` where that is absent. With the driver's table and
any deadline the tick is `rt_tick`: as shipped only its last value is left out. -/
theorem lptimStart_pos_iff :
    (∀ (X : Type) (env : Env c X) (w : World c X), w.Steady →
      (LptimStartsLive env w ↔
        (w.EntersDeep → (w.ops.bind (·.lptimStart)).isSome = true → w.lptimDue ≠ w.sysTick))) ∧
    ∀ (b : Board) (due : Option U32) (env : Env c Hw) (w : World c Hw),
      w.ops = some (pmOpsDue b due) → w.plat.halted = false →
      (LptimStartsLive env w ↔ (w.EntersDeep → due.getD pmTickMax ≠ w.plat.rtTick)) := by
  refine ⟨fun X env w hs => lptimStartsLive_iff env hs, fun b due env w hops hlive => ?_⟩
  have hs : w.Steady := by
    intro ops hops'
    rw [← Option.some.inj (hops.symm.trans hops')]
    exact pmOpsDue_steady b due
  have htick : w.sysTick = w.plat.rtTick := by
    simp [sysTick, answer, hops, pmOpsDue, pmOps, Hw.liveGet, hlive, Hw.rtTickGet]
  have hdue : w.lptimDue = due.getD pmTickMax := by
    cases due <;> simp [lptimDue, answer, hops, pmOpsDue, Hw.liveGet, hlive, pmOps]
  have hstart : (w.ops.bind (·.lptimStart)).isSome = true := by rw [hops]; rfl
  rw [lptimStartsLive_iff env hs, hdue, htick]
  simp only [hstart, true_imp_iff]

/-- The shipped machine at tick 5 starts the timer with the time to the marker; with a deadline at
tick 5 it would start it with 0. -/
theorem lptimStart_pos_shipped :
    LptimStartsLive .silent (enabledAt 5 [1004]) ∧
      ¬LptimStartsLive .silent ((start .shipped (pmOpsDue .still (some 5)) pmFreqHigh
        (Hw.boot 5 [1004])).run .silent [.call .lpmsEnable]) := by
  have hdeep : ((start .shipped (pmOpsDue .still (some 5)) pmFreqHigh
      (Hw.boot 5 [1004])).run .silent [.call .lpmsEnable]).EntersDeep :=
    ⟨by decide +kernel, by decide +kernel⟩
  have hlive := fun due => (lptimStart_pos_iff (c := .shipped)).2 .still due .silent
    ((start .shipped (pmOpsDue .still due) pmFreqHigh (Hw.boot 5 [1004])).run .silent
      [.call .lpmsEnable]) (run_ops _ _) rfl
  exact ⟨(hlive none).2 fun _ => by decide,
    fun h => (hlive (some 5)).1 h hdeep rfl⟩

/-- At the last tick, with an OS timer due in 1000 ticks, the machine stops with interrupts
masked. -/
theorem lptimStart_zero_at_last_tick :
    0 ∈ lptimStarts .silent (enabledAt 0xffffffff [999]) ∧
      ((enabledAt 0xffffffff [999]).pmRunTickless .silent).plat.halted = true ∧
      ((enabledAt 0xffffffff [999]).pmRunTickless .silent).plat.primask = true := by
  decide +kernel

end World
end LowPower
