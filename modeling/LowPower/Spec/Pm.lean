import LowPower.Spec.Lpms

/-!
# The PM 2.0 component

`pm.c` and `pm.h`: the counters of sleep requests, the busy delays, the run modes and the
registered devices, with the static data `_pm`, `_pm_default_sleep`, `_pm_default_deepsleep`,
`_pm_notify` and `_pm_init_flag`.

The callbacks act on a platform `X` and call no function of the component. The kernel clock
(`rt_tick` and the deadlines on `_timer_list`, in list order) is part of the state. What the
component does is recorded in `World.trace`, one entry per callback, kernel call and interrupt
switch, with the static data at that moment; no code reads it.
-/

namespace LowPower.Pm

/-! ## pm.h -/

abbrev pmSleepModeNone : U8 := 0
abbrev pmSleepModeIdle : U8 := 1
abbrev pmSleepModeDeep : U8 := 3
abbrev pmSleepModeMax : ℕ := 6

abbrev pmRunModeNormalSpeed : U8 := 1
abbrev pmRunModeMax : ℕ := 4

abbrev rtPmFrequencyPending : U8 := 0x01

abbrev rtPmDefaultSleepMode : U8 := pmSleepModeNone
abbrev rtPmDefaultDeepsleepMode : U8 := pmSleepModeDeep
abbrev rtPmDefaultRunMode : U8 := pmRunModeNormalSpeed

abbrev pmPowerId : ℕ := 1
abbrev pmModuleMaxId : ℕ := 17

abbrev rtPmTicklessThresh : U32 := 2

abbrev rtTickMax : U32 := 0xffffffff
abbrev rtEok : ℤ := 0
abbrev rtEio : ℤ := 8
abbrev rtEinval : ℤ := 10

inductive NotifyEvent where
  | rtPmEnterSleep
  | rtPmExitSleep
deriving DecidableEq, Repr

structure RtPmModule where
  reqStatus : U8
  busyFlag : Bool
  timeout : U32
  startTime : U32
deriving DecidableEq, Repr

/-- `struct rt_pm_ops`; only `timer_start` is ever tested for NULL. -/
structure RtPmOps (X : Type) where
  sleep : U8 → X → X
  run : U8 → X → X
  timerStart : Option (U32 → X → X)
  timerStop : X → X
  timerGetTick : X → U32 × X

/-- A registered device with its `struct rt_device_pm_ops`. -/
structure RtDevicePm (X : Type) where
  device : ℕ
  suspend : Option (U8 → X → ℤ × X)
  resume : Option (U8 → X → X)
  frequencyChange : Option (U8 → X → X)

/-- `struct rt_pm` and the other static data of `pm.c`. The ghost flag `oob` says that a table was
indexed outside its bounds. -/
structure RtPm (X : Type) where
  modes : Vector U8 pmSleepModeMax
  sleepMode : U8
  runMode : U8
  moduleStatus : Vector RtPmModule pmModuleMaxId
  devicePmNumber : U8
  devicePm : List (RtDevicePm X)
  timerMask : U8
  flags : U8
  defaultSleep : U8
  defaultDeepsleep : U8
  notify : Option (NotifyEvent → U8 → X → X)
  initFlag : U8
  oob : Bool

/-- The static data at power-on. -/
def RtPm.boot (X : Type) : RtPm X where
  modes := Vector.replicate _ 0
  sleepMode := 0
  runMode := 0
  moduleStatus := Vector.replicate _ ⟨0, false, 0, 0⟩
  devicePmNumber := 0
  devicePm := []
  timerMask := 0
  flags := 0
  defaultSleep := rtPmDefaultSleepMode
  defaultDeepsleep := rtPmDefaultDeepsleepMode
  notify := none
  initFlag := 0
  oob := false

/-- The devices a loop over `device_pm_number` visits. -/
def RtPm.devices {X : Type} (pm : RtPm X) : List (RtDevicePm X) :=
  pm.devicePm.take pm.devicePmNumber.toNat

/-- `timer_mask & (0x01 << mode)` -/
def RtPm.masked {X : Type} (pm : RtPm X) (mode : U8) : Bool := pm.timerMask.getLsbD mode.toNat

/-- A call of the interface by a thread or an interrupt handler. -/
inductive Call where
  | rtPmRequest (mode : U8)
  | rtPmRelease (mode : U8)
  | rtPmReleaseAll (mode : U8)
  | rtPmModuleRequest (moduleId : U8) (mode : U8)
  | rtPmModuleRelease (moduleId : U8) (mode : U8)
  | rtPmModuleReleaseAll (moduleId : U8) (mode : U8)
  | rtPmModuleDelaySleep (moduleId : U8) (timeout : U32)
  | rtPmRunEnter (mode : U8)
deriving DecidableEq, Repr

/-- What the component does: callbacks (of devices by their place in the table), kernel calls, a
read of an unassigned local, a call through a NULL pointer. -/
inductive Ev where
  | irqDisable
  | irqEnable
  | sleep (mode : U8)
  | run (mode : U8)
  | timerStart (timeout : U32)
  | timerStop
  | timerGetTick (ret : U32)
  | suspend (index : ℕ) (mode : U8) (ret : ℤ)
  | resume (index : ℕ) (mode : U8)
  | frequencyChange (index : ℕ) (mode : U8)
  | notify (event : NotifyEvent) (mode : U8)
  | rtTickSet (tick : U32)
  | rtTimerCheck
  | undefRead
  | nullCall
deriving DecidableEq, Repr

/-- The whole system. After a call through a NULL pointer it is `dead`. -/
structure World (X : Type) where
  pm : RtPm X
  ops : RtPmOps X
  rtTick : U32
  timers : List U32
  plat : X
  dead : Bool
  trace : List (Ev × RtPm X)

namespace World

variable {X : Type}

def emit (w : World X) (e : Ev) : World X := { w with trace := w.trace ++ [(e, w.pm)] }

def mapPm (w : World X) (f : RtPm X → RtPm X) : World X := { w with pm := f w.pm }

/-- A callback with its entry in the record. -/
def callback (w : World X) (e : Ev) (f : X → X) : World X :=
  { w.emit e with plat := f w.plat }

/-- `level = rt_hw_interrupt_disable(); ...; rt_hw_interrupt_enable(level);` around a body. -/
def locked (w : World X) (body : World X → World X) : World X :=
  (body (w.emit .irqDisable)).emit .irqEnable

/-! ## Requests -/

/-- `_pm_select_sleep_mode` -/
def selectSleepMode (pm : RtPm X) : U8 :=
  match (List.finRange pmSleepModeMax).find? fun i => pm.modes[i] ≠ 0 with
  | some index => BitVec.ofNat 8 index.val
  | none => pm.defaultDeepsleep

def pmSelectSleepMode (w : World X) : World X :=
  w.mapPm fun pm => { pm with sleepMode := selectSleepMode pm }

/-- `if (pm->modes[mode] < 255) pm->modes[mode] ++;` -/
def incMode (mode : Fin pmSleepModeMax) (pm : RtPm X) : RtPm X :=
  if pm.modes[mode] < 255 then { pm with modes := pm.modes.set mode (pm.modes[mode] + 1) } else pm

/-- `if (pm->modes[mode] > 0) pm->modes[mode] --;` -/
def decMode (mode : Fin pmSleepModeMax) (pm : RtPm X) : RtPm X :=
  if 0 < pm.modes[mode] then { pm with modes := pm.modes.set mode (pm.modes[mode] - 1) } else pm

def clearMode (mode : Fin pmSleepModeMax) (pm : RtPm X) : RtPm X :=
  { pm with modes := pm.modes.set mode 0 }

def setReqStatus (moduleId : Fin pmModuleMaxId) (status : U8) (pm : RtPm X) : RtPm X :=
  { pm with moduleStatus :=
      pm.moduleStatus.set moduleId { pm.moduleStatus[moduleId] with reqStatus := status } }

def rtPmRequest (mode : U8) (w : World X) : World X :=
  if w.pm.initFlag = 0 then w
  else if hm : pmSleepModeMax ≤ mode.toNat then w
  else w.locked fun w => (w.mapPm (incMode ⟨mode.toNat, by omega⟩)).pmSelectSleepMode

def rtPmRelease (mode : U8) (w : World X) : World X :=
  if w.pm.initFlag = 0 then w
  else if hm : pmSleepModeMax ≤ mode.toNat then w
  else w.locked fun w => (w.mapPm (decMode ⟨mode.toNat, by omega⟩)).pmSelectSleepMode

def rtPmReleaseAll (mode : U8) (w : World X) : World X :=
  if w.pm.initFlag = 0 then w
  else if hm : pmSleepModeMax ≤ mode.toNat then w
  else w.locked fun w => (w.mapPm (clearMode ⟨mode.toNat, by omega⟩)).pmSelectSleepMode

def rtPmModuleRequest (moduleId mode : U8) (w : World X) : World X :=
  if w.pm.initFlag = 0 then w
  else if hm : pmSleepModeMax ≤ mode.toNat then w
  else if hk : pmModuleMaxId ≤ moduleId.toNat then w
  else
    w.locked fun w =>
      let w := w.mapPm (setReqStatus ⟨moduleId.toNat, by omega⟩ 0x01)
      (w.mapPm (incMode ⟨mode.toNat, by omega⟩)).pmSelectSleepMode

def rtPmModuleRelease (moduleId mode : U8) (w : World X) : World X :=
  if w.pm.initFlag = 0 then w
  else if hm : pmSleepModeMax ≤ mode.toNat then w
  else if hk : pmModuleMaxId ≤ moduleId.toNat then w
  else
    w.locked fun w =>
      let w := w.mapPm (decMode ⟨mode.toNat, by omega⟩)
      let w := w.mapPm fun pm =>
        if pm.modes.get ⟨mode.toNat, by omega⟩ = 0 then
          setReqStatus ⟨moduleId.toNat, by omega⟩ 0x00 pm
        else pm
      w.pmSelectSleepMode

/-- The module number is not checked here. -/
def rtPmModuleReleaseAll (moduleId mode : U8) (w : World X) : World X :=
  if w.pm.initFlag = 0 then w
  else if hm : pmSleepModeMax ≤ mode.toNat then w
  else
    w.locked fun w =>
      let w := w.mapPm (clearMode ⟨mode.toNat, by omega⟩)
      let w := w.mapPm fun pm =>
        if hk : moduleId.toNat < pmModuleMaxId then setReqStatus ⟨moduleId.toNat, hk⟩ 0x00 pm
        else { pm with oob := true }
      w.pmSelectSleepMode

/-! ## Busy delays -/

def delayModule (moduleId : Fin pmModuleMaxId) (timeout now : U32) (pm : RtPm X) : RtPm X :=
  let s := pm.moduleStatus[moduleId]
  let s := { s with busyFlag := true, timeout := timeout, startTime := now }
  { pm with moduleStatus := pm.moduleStatus.set moduleId s }

def rtPmModuleDelaySleep (moduleId : U8) (timeout : U32) (w : World X) : World X :=
  if w.pm.initFlag = 0 then w
  else if hk : pmModuleMaxId ≤ moduleId.toNat then w
  else
    w.locked fun w => w.mapPm (delayModule ⟨moduleId.toNat, by omega⟩ timeout w.rtTick)

/-- A busy flag whose delay is over is taken down. -/
def expire (now : U32) (s : RtPmModule) : RtPmModule :=
  if s.busyFlag ∧ s.timeout < now - s.startTime then { s with busyFlag := false, timeout := 0x00 }
  else s

/-- The loop of `_pm_device_check_idle` over the modules still to look at; `true` means idle. -/
def checkIdleFrom : List (Fin pmModuleMaxId) → World X → Bool × World X
  | [], w => (true, w)
  | i :: is, w =>
    let w := w.mapPm fun pm =>
      { pm with moduleStatus := pm.moduleStatus.set i (expire w.rtTick pm.moduleStatus[i]) }
    if w.pm.moduleStatus[i].busyFlag then (false, w) else checkIdleFrom is w

def pmDeviceCheckIdle (w : World X) : Bool × World X :=
  if w.pm.initFlag = 0 then (true, w) else checkIdleFrom (List.finRange _) w

/-! ## Devices -/

/-- `_pm_device_suspend`: up to the first refusal. -/
def suspendFrom (mode : U8) : ℕ → List (RtDevicePm X) → World X → ℤ × World X
  | _, [], w => (rtEok, w)
  | index, d :: ds, w =>
    match d.suspend with
    | none => suspendFrom mode (index + 1) ds w
    | some f =>
      let ret := (f mode w.plat).1
      let w := w.callback (.suspend index mode ret) fun x => (f mode x).2
      if ret ≠ rtEok then (ret, w) else suspendFrom mode (index + 1) ds w

def pmDeviceSuspend (mode : U8) (w : World X) : ℤ × World X := suspendFrom mode 0 w.pm.devices w

/-- A loop over the devices that calls one optional callback of each. -/
def forDevices (sel : RtDevicePm X → Option (U8 → X → X)) (e : ℕ → U8 → Ev) (mode : U8) :
    ℕ → List (RtDevicePm X) → World X → World X
  | _, [], w => w
  | index, d :: ds, w =>
    match sel d with
    | none => forDevices sel e mode (index + 1) ds w
    | some f => forDevices sel e mode (index + 1) ds (w.callback (e index mode) (f mode))

def pmDeviceResume (mode : U8) (w : World X) : World X :=
  forDevices (·.resume) .resume mode 0 w.pm.devices w

def pmDeviceFrequencyChange (mode : U8) (w : World X) : World X :=
  forDevices (·.frequencyChange) .frequencyChange mode 0 w.pm.devices w

/-! ## Run modes -/

def opsRun (mode : U8) (w : World X) : World X := w.callback (.run mode) (w.ops.run mode)

def rtPmRunEnter (mode : U8) (w : World X) : ℤ × World X :=
  if w.pm.initFlag = 0 then (-rtEio, w)
  else if pmRunModeMax < mode.toNat then (-rtEinval, w)
  else
    (rtEok, w.locked fun w =>
      let w :=
        if mode < w.pm.runMode then (w.opsRun mode).pmDeviceFrequencyChange mode
        else w.mapPm fun pm => { pm with flags := pm.flags ||| rtPmFrequencyPending }
      w.mapPm fun pm => { pm with runMode := mode })

/-! ## Calls as data -/

/-- A call of the interface; its result is dropped. -/
def call (w : World X) : Call → World X
  | .rtPmRequest m => w.rtPmRequest m
  | .rtPmRelease m => w.rtPmRelease m
  | .rtPmReleaseAll m => w.rtPmReleaseAll m
  | .rtPmModuleRequest k m => w.rtPmModuleRequest k m
  | .rtPmModuleRelease k m => w.rtPmModuleRelease k m
  | .rtPmModuleReleaseAll k m => w.rtPmModuleReleaseAll k m
  | .rtPmModuleDelaySleep k n => w.rtPmModuleDelaySleep k n
  | .rtPmRunEnter m => (w.rtPmRunEnter m).2

def calls (w : World X) (fs : List Call) : World X := fs.foldl call w

end World
end LowPower.Pm
