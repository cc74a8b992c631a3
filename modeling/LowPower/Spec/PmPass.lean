import LowPower.Spec.Pm

/-!
# The pass of the PM 2.0 component

`rt_system_power_manager` with `_pm_frequency_scaling` and `_pm_change_sleep_mode` (`pm.c`),
`rt_system_pm_init`, and executions: any sequence of interface calls, passes and changes of the
kernel clock and of the platform.

Interrupts are on in a pass at three points; `Irq` says what interrupt handlers call there, and
what else a pass finds outside the component.
-/

namespace LowPower.Pm

/-- The calls of interrupt handlers between the flag test and the locked section of
`_pm_frequency_scaling`, between the two halves of the pass, and when `rt_pm_exit_critical`
re-enables interrupts; the value of an unassigned local; the deadlines `rt_timer_check` leaves. -/
structure Irq where
  scaling : List Call
  between : List Call
  exit : List Call
  undef : U32
  rtTimerCheck : U32 → List U32 → List U32

/-- No interrupt, and no timer fires. -/
def Irq.none : Irq where
  scaling := []
  between := []
  exit := []
  undef := 0
  rtTimerCheck := fun _ timers => timers

namespace World

variable {X : Type}

/-! ## Blocks of the pass -/

def pmFrequencyScaling (irq : List Call) (w : World X) : World X :=
  if w.pm.flags &&& rtPmFrequencyPending ≠ 0 then
    (w.calls irq).locked fun w =>
      let w := w.opsRun w.pm.runMode
      let w := w.pmDeviceFrequencyChange w.pm.runMode
      w.mapPm fun pm => { pm with flags := pm.flags &&& ~~~rtPmFrequencyPending }
  else w

/-- `if (_pm_notify.notify) _pm_notify.notify(event, mode, _pm_notify.data);` -/
def pmNotify (event : NotifyEvent) (mode : U8) (w : World X) : World X :=
  match w.pm.notify with
  | none => w
  | some f => w.callback (.notify event mode) (f event mode)

def opsSleep (mode : U8) (w : World X) : World X := w.callback (.sleep mode) (w.ops.sleep mode)

def rtPmEnterCritical (w : World X) : World X := w.emit .irqDisable

/-- Interrupt handlers run as soon as the interrupts are on. -/
def rtPmExitCritical (irq : List Call) (w : World X) : World X := (w.emit .irqEnable).calls irq

/-- The head of `_timer_list`, or `RT_TICK_MAX` when it is empty. -/
def rtTimerNextTimeoutTick (w : World X) : U32 := w.timers.headD rtTickMax

/-- `pm->ops->timer_start(pm, timeout)` without a NULL test. -/
def opsTimerStart (timeout : U32) (w : World X) : World X :=
  match w.ops.timerStart with
  | none => { w.emit .nullCall with dead := true }
  | some f => w.callback (.timerStart timeout) (f timeout)

/-- "Tickless": the low-power timer is started for the next deadline, or the mode is lowered when
it is near. -/
def tickless (w : World X) : World X :=
  if w.pm.masked w.pm.sleepMode then
    let timeoutTick := w.rtTimerNextTimeoutTick
    if timeoutTick = rtTickMax then
      -- only here is the pointer tested
      if w.ops.timerStart.isSome then w.opsTimerStart rtTickMax else w
    else
      let timeoutTick := timeoutTick - w.rtTick
      if timeoutTick < rtPmTicklessThresh then
        w.mapPm fun pm => { pm with sleepMode := pmSleepModeIdle }
      else w.opsTimerStart timeoutTick
  else w

def opsTimerGetTick (w : World X) : U32 × World X :=
  let ret := (w.ops.timerGetTick w.plat).1
  (ret, w.callback (.timerGetTick ret) fun x => (w.ops.timerGetTick x).2)

def rtTickSet (tick : U32) (w : World X) : World X :=
  { w.emit (.rtTickSet tick) with rtTick := tick }

/-- "wake up from lower power state"; the local `delta_tick` is `none` while unassigned. -/
def wakeUp (w : World X) : Option U32 × World X :=
  if w.pm.masked w.pm.sleepMode then
    let (deltaTick, w) := w.opsTimerGetTick
    let w := w.callback .timerStop w.ops.timerStop
    (some deltaTick, if deltaTick ≠ 0 then w.rtTickSet (w.rtTick + deltaTick) else w)
  else (none, w)

def rtTimerCheck (irq : Irq) (w : World X) : World X :=
  { w.emit .rtTimerCheck with timers := irq.rtTimerCheck w.rtTick w.timers }

/-- The last test of the pass, after the critical section. -/
def timerCheck (irq : Irq) (deltaTick : Option U32) (w : World X) : World X :=
  if w.pm.masked w.pm.sleepMode then
    match deltaTick with
    | some deltaTick => if deltaTick ≠ 0 then w.rtTimerCheck irq else w
    | none =>
      let w := w.emit .undefRead
      if irq.undef ≠ 0 then w.rtTimerCheck irq else w
  else w

/-- The sleep proper, once the devices are suspended. -/
def sleepSuspended (irq : Irq) (w : World X) : World X :=
  let w := w.tickless
  if w.dead then w
  else
    let w := w.opsSleep w.pm.sleepMode
    let (deltaTick, w) := w.wakeUp
    -- the mode may no longer be the one the devices were suspended for
    let w := w.pmDeviceResume w.pm.sleepMode
    let w := w.pmNotify .rtPmExitSleep w.pm.sleepMode
    let w := w.rtPmExitCritical irq.exit
    w.timerCheck irq deltaTick

def pmChangeSleepMode (irq : Irq) (w : World X) : World X :=
  let w := w.rtPmEnterCritical
  let (idle, w) := w.pmDeviceCheckIdle
  if idle = false then (w.opsSleep pmSleepModeNone).rtPmExitCritical irq.exit
  else if w.pm.sleepMode = pmSleepModeNone then
    (w.opsSleep pmSleepModeNone).rtPmExitCritical irq.exit
  else
    let w := w.pmNotify .rtPmEnterSleep w.pm.sleepMode
    let (ret, w) := w.pmDeviceSuspend w.pm.sleepMode
    -- a refusal resumes every device, also those never asked to suspend
    if ret ≠ rtEok then
      let w := w.pmDeviceResume w.pm.sleepMode
      let w := w.pmNotify .rtPmExitSleep w.pm.sleepMode
      w.rtPmExitCritical irq.exit
    else w.sleepSuspended irq

def rtSystemPowerManager (irq : Irq) (w : World X) : World X :=
  if w.pm.initFlag = 0 then w
  else ((w.pmFrequencyScaling irq.scaling).calls irq.between).pmChangeSleepMode irq

/-! ## Initialisation -/

/-- Power-on with a callback table to be given to `rt_system_pm_init`. -/
def boot (ops : RtPmOps X) (rtTick : U32) (x : X) : World X :=
  ⟨RtPm.boot X, ops, rtTick, [], x, false, []⟩

def rtSystemPmInit (ops : RtPmOps X) (timerMask : U8) (w : World X) : World X :=
  let w := w.mapPm fun pm =>
    { pm with
      modes := Vector.replicate _ 0
      sleepMode := pm.defaultSleep }
  let w := w.mapPm fun pm =>
    if h : pm.sleepMode.toNat < pmSleepModeMax then
      { pm with modes := pm.modes.set pm.sleepMode.toNat 1 }
    else { pm with oob := true }
  let w := w.mapPm (setReqStatus ⟨pmPowerId, by decide⟩ 1)
  let w := w.mapPm fun pm =>
    { pm with
      runMode := rtPmDefaultRunMode
      timerMask := timerMask
      devicePm := []
      devicePmNumber := 0
      initFlag := 1 }
  { w with ops := ops }

/-- The state right after `rt_system_pm_init` at power-on. -/
def start (ops : RtPmOps X) (timerMask : U8) (rtTick : U32) (x : X) : World X :=
  (boot ops rtTick x).rtSystemPmInit ops timerMask

end World

/-! ## Executions -/

/-- What can happen: an interface call, a pass, new devices or a new notification callback, a
change of the kernel clock or of the platform. -/
inductive Op (X : Type) where
  | call (f : Call)
  | rtSystemPowerManager (irq : Irq)
  | devices (ds : List (RtDevicePm X)) (number : U8)
  | notify (f : Option (NotifyEvent → U8 → X → X))
  | clock (rtTick : U32) (timers : List U32)
  | plat (f : X → X)

namespace World

variable {X : Type}

/-- A dead system stays as it is. -/
def step (w : World X) (e : Op X) : World X :=
  if w.dead then w
  else
    match e with
    | .call f => w.call f
    | .rtSystemPowerManager irq => w.rtSystemPowerManager irq
    | .devices ds number => w.mapPm fun pm => { pm with devicePm := ds, devicePmNumber := number }
    | .notify f => w.mapPm fun pm => { pm with notify := f }
    | .clock rtTick timers => { w with rtTick := rtTick, timers := timers }
    | .plat f => { w with plat := f w.plat }

def run (w : World X) (es : List (Op X)) : World X := es.foldl step w

@[simp] theorem run_nil (w : World X) : w.run [] = w := rfl

@[simp] theorem run_cons (w : World X) (e : Op X) (es : List (Op X)) :
    w.run (e :: es) = (w.step e).run es := rfl

end World
end LowPower.Pm
