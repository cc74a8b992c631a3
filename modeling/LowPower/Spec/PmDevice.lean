import LowPower.Lib.Table
import LowPower.Spec.PmPass
import LowPower.Spec.Shell

/-!
# The other entry points of PM 2.0

The device table (`rt_pm_device_register`, `rt_pm_device_unregister`), the interface of the `pm`
device, the settings, the status word, the dump and the shell commands of `pm.c`, with the static
data of the `run` callback of `drv_pm.c`; then runs of all entry points.
-/

namespace LowPower.Pm

variable {X : Type}

abbrev rtPmDeviceCtrlRequest : CInt := 0x01
abbrev rtPmDeviceCtrlRelease : CInt := 0x00

/-- `PM_SLEEP_MODE_NAMES` -/
def pmSleepStr : Vector String pmSleepModeMax :=
  #v["None Mode", "Idle Mode", "LightSleep Mode", "DeepSleep Mode", "Standby Mode", "Shutdown Mode"]

/-- `PM_RUN_MODE_NAMES` -/
def pmRunStr : Vector String pmRunModeMax :=
  #v["High Speed", "Normal Speed", "Medium Speed", "Low Mode"]

/-! ## drv_pm.c -/

/-- `run_speed`: the frequency in MHz, and the mode. -/
def runSpeed : Vector (U8 × U8) pmRunModeMax := #v[(80, 0), (80, 1), (24, 2), (2, 3)]

/-- The static data of the callback `run`, with the lines it prints; `oob` is as in `RtPm`. -/
structure DrvRun where
  lastMode : U8
  lines : List (String × U8)
  oob : Bool
deriving DecidableEq, Repr

def DrvRun.boot : DrvRun where
  lastMode := 0
  lines := []
  oob := false

/-- `run`, without the clock settings. -/
def DrvRun.run (x : DrvRun) (mode : U8) : DrvRun :=
  if mode = x.lastMode then x
  else if h : mode.toNat < pmRunModeMax then
    { x with lastMode := mode, lines := x.lines ++ [(pmRunStr[mode.toNat], runSpeed[mode.toNat].1)] }
  else { x with lastMode := mode, oob := true }

namespace World

/-! ## The device table -/

/-- An entry that is taken out of the table. -/
def nullDevice : RtDevicePm X := ⟨0, none, none, none⟩

/-- `granted` says whether the allocator returns a block; a block keeps the entries before its
end. -/
def rtPmDeviceRegister (granted : Bool) (d : RtDevicePm X) (w : World X) : World X :=
  w.locked fun w => w.mapPm fun pm =>
    if granted then
      { pm with
        devicePm := pm.devicePm.take pm.devicePmNumber.toNat ++ [d]
        devicePmNumber := pm.devicePmNumber + 1 }
    else pm

def rtPmDeviceUnregister (device : ℕ) (w : World X) : World X :=
  w.locked fun w => w.mapPm fun pm =>
    match pm.devices.findIdx? (·.device = device) with
    | none => pm
    | some index =>
      let last := pm.devicePmNumber.toNat - 1
      { pm with
        devicePm := (Table.shiftDown nullDevice (last - index) index pm.devicePm).set last nullDevice
        devicePmNumber := pm.devicePmNumber - 1 }

/-! ## Settings and status -/

def rtPmNotifySet (notify : Option (NotifyEvent → U8 → X → X)) (w : World X) : World X :=
  w.mapPm fun pm => { pm with notify := notify }

def rtPmDefaultSet (sleepMode : U8) (w : World X) : World X :=
  w.mapPm fun pm => { pm with defaultSleep := sleepMode }

def rtPmModuleGetStatus (w : World X) : U32 :=
  (List.finRange pmModuleMaxId).foldl (fun (reqStatus : U32) index =>
    let s : RtPmModule := w.pm.moduleStatus[index]
    if s.reqStatus = 0x01 then reqStatus ||| (1 : U32) <<< index.val else reqStatus) 0x00

/-- The lines of `pm_dump`: name, counter and timer of each mode, the names of the current modes,
and number, busy flag, start time and timeout of the modules in use. -/
structure DumpStatus where
  modes : List (String × U8 × Bool)
  sleepMode : String
  runMode : String
  modules : List (ℕ × Bool × U32 × U32)
deriving DecidableEq, Repr

def dumpStatus (pm : RtPm X) : DumpStatus where
  modes := (List.finRange pmSleepModeMax).map fun index =>
    (pmSleepStr[index], pm.modes[index], pm.timerMask.getLsbD index.val)
  sleepMode := (pmSleepStr[pm.sleepMode.toNat]?).getD ""
  runMode := (pmRunStr[pm.runMode.toNat]?).getD ""
  modules := (List.finRange pmModuleMaxId).filterMap fun index =>
    let s := pm.moduleStatus[index]
    if s.busyFlag ∨ s.reqStatus ≠ 0x00 then some (index.val, s.busyFlag, s.startTime, s.timeout)
    else none

/-- The modes are used as indices of the name tables as they are. -/
def rtPmDumpStatus (w : World X) : DumpStatus × World X :=
  (dumpStatus w.pm, w.mapPm fun pm =>
    if pm.sleepMode.toNat < pmSleepModeMax ∧ pm.runMode.toNat < pmRunModeMax then pm
    else { pm with oob := true })

/-! ## The pm device -/

/-- The text for the caller's buffer; its length is the result. -/
def rtPmDeviceRead (pos : CInt) (w : World X) : String × World X :=
  if pos.toInt < pmSleepModeMax then
    if h : pos.toNat < pmSleepModeMax then (toString w.pm.modes[pos.toNat].toNat, w)
    -- a negative offset passes the test
    else ("", w.mapPm fun pm => { pm with oob := true })
  else ("", w)

def rtPmDeviceWrite (pos : CInt) (buffer : List U8) (w : World X) : U32 × World X :=
  match buffer with
  | request :: _ =>
    if request = 0x01 then (1, w.rtPmRequest (pos.setWidth 8))
    else if request = 0x00 then (1, w.rtPmRelease (pos.setWidth 8))
    else (1, w)
  | [] => (1, w)

def rtPmDeviceControl (cmd : CInt) (args : U32) (w : World X) : ℤ × World X :=
  if cmd = rtPmDeviceCtrlRequest then (rtEok, w.rtPmRequest (args.setWidth 8))
  else if cmd = rtPmDeviceCtrlRelease then (rtEok, w.rtPmRelease (args.setWidth 8))
  else (rtEok, w)

/-! ## Shell commands -/

/-- `int mode = 0; if (argc >= 2) mode = atoi(argv[1]);` -/
def modeArg : List CInt → CInt
  | mode :: _ => mode
  | [] => 0

/-- `int module = 0; int mode = 0;`, both read if `argc >= 3`. -/
def moduleArgs : List CInt → CInt × CInt
  | module :: mode :: _ => (module, mode)
  | _ => (0, 0)

def rtPmReleaseMode (args : List CInt) (w : World X) : World X :=
  w.rtPmRelease ((modeArg args).setWidth 8)

def rtPmReleaseModeAll (args : List CInt) (w : World X) : World X :=
  w.rtPmReleaseAll ((modeArg args).setWidth 8)

def rtPmRequestMode (args : List CInt) (w : World X) : World X :=
  w.rtPmRequest ((modeArg args).setWidth 8)

def rtModuleReleaseMode (args : List CInt) (w : World X) : World X :=
  w.rtPmModuleRelease ((moduleArgs args).1.setWidth 8) ((moduleArgs args).2.setWidth 8)

def rtModuleReleaseModeAll (args : List CInt) (w : World X) : World X :=
  w.rtPmModuleReleaseAll ((moduleArgs args).1.setWidth 8) ((moduleArgs args).2.setWidth 8)

def rtModuleRequestMode (args : List CInt) (w : World X) : World X :=
  w.rtPmModuleRequest ((moduleArgs args).1.setWidth 8) ((moduleArgs args).2.setWidth 8)

def rtModuleDelaySleep (args : List CInt) (w : World X) : World X :=
  w.rtPmModuleDelaySleep ((moduleArgs args).1.setWidth 8) (moduleArgs args).2

def rtPmRunModeSwitch (args : List CInt) (w : World X) : World X :=
  (w.rtPmRunEnter ((modeArg args).setWidth 8)).2

end World

/-- The commands of `pm.c` that change something, under the names the shell knows them by. -/
inductive Shell where
  | pmRelease
  | pmReleaseAll
  | pmRequest
  | pmModuleRelease
  | pmModuleReleaseAll
  | pmModuleRequest
  | pmModuleDelay
  | pmRun
deriving DecidableEq, Repr

namespace World

def shell (w : World X) (cmd : Shell) (args : List CInt) : World X :=
  match cmd with
  | .pmRelease => w.rtPmReleaseMode args
  | .pmReleaseAll => w.rtPmReleaseModeAll args
  | .pmRequest => w.rtPmRequestMode args
  | .pmModuleRelease => w.rtModuleReleaseMode args
  | .pmModuleReleaseAll => w.rtModuleReleaseModeAll args
  | .pmModuleRequest => w.rtModuleRequestMode args
  | .pmModuleDelay => w.rtModuleDelaySleep args
  | .pmRun => w.rtPmRunModeSwitch args

end World

/-! ## Runs of all entry points -/

/-- A change of the device table. -/
inductive TableOp (X : Type) where
  | rtPmDeviceRegister (granted : Bool) (d : RtDevicePm X)
  | rtPmDeviceUnregister (device : ℕ)

/-- An entry point with its arguments, or a change of the kernel clock or of the platform. -/
inductive Entry (X : Type) where
  | rtSystemPmInit (ops : RtPmOps X) (timerMask : U8)
  | rtPmDefaultSet (sleepMode : U8)
  | rtPmNotifySet (notify : Option (NotifyEvent → U8 → X → X))
  | table (op : TableOp X)
  | call (f : Call)
  | rtPmDeviceRead (pos : CInt)
  | rtPmDeviceWrite (pos : CInt) (buffer : List U8)
  | rtPmDeviceControl (cmd : CInt) (args : U32)
  | shell (cmd : Shell) (args : List CInt)
  | rtPmDumpStatus
  | rtSystemPowerManager (irq : Irq)
  | clock (rtTick : U32) (timers : List U32)
  | plat (f : X → X)

namespace World

def tableStep (w : World X) : TableOp X → World X
  | .rtPmDeviceRegister granted d => w.rtPmDeviceRegister granted d
  | .rtPmDeviceUnregister device => w.rtPmDeviceUnregister device

def tableRun (w : World X) (ops : List (TableOp X)) : World X := ops.foldl tableStep w

/-- A dead system stays as it is. -/
def enter (w : World X) (e : Entry X) : World X :=
  if w.dead then w
  else
    match e with
    | .rtSystemPmInit ops timerMask => w.rtSystemPmInit ops timerMask
    | .rtPmDefaultSet sleepMode => w.rtPmDefaultSet sleepMode
    | .rtPmNotifySet notify => w.rtPmNotifySet notify
    | .table op => w.tableStep op
    | .call f => w.call f
    | .rtPmDeviceRead pos => (w.rtPmDeviceRead pos).2
    | .rtPmDeviceWrite pos buffer => (w.rtPmDeviceWrite pos buffer).2
    | .rtPmDeviceControl cmd args => (w.rtPmDeviceControl cmd args).2
    | .shell cmd args => w.shell cmd args
    | .rtPmDumpStatus => w.rtPmDumpStatus.2
    | .rtSystemPowerManager irq => w.rtSystemPowerManager irq
    | .clock rtTick timers => { w with rtTick := rtTick, timers := timers }
    | .plat f => { w with plat := f w.plat }

def enters (w : World X) (es : List (Entry X)) : World X := es.foldl enter w

/-- What the driver's `run` makes of the calls it has got. -/
def driver (w : World X) : DrvRun :=
  (w.trace.filterMap fun e => match e.1 with | .run mode => some mode | _ => none).foldl DrvRun.run
    DrvRun.boot

end World
end LowPower.Pm
