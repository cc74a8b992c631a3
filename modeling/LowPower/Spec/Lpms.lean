import LowPower.Lib.BitMatrix

/-!
# The LPMS control block, its callbacks and its votes

`lpms.h` and the first half of `lpms.c`: the static data `_pm_sys`, the optional platform
callbacks `struct lpms_ops` with the wrappers that test for NULL, the sleep and frequency
votes, the busy windows and the mode selection.

The platform behind the callbacks is a type `X` with one total function per callback. What
the code does to the platform is recorded in `World.trace`, one entry per callback or hook
invocation with the static data at that moment; no code reads it.
-/

namespace LowPower

abbrev U8 := BitVec 8
abbrev U16 := BitVec 16
abbrev U32 := BitVec 32

/-- A function pointer registered with a hook list; NULL is `none`. -/
abbrev HookId := ℕ

/-! ## lpms.h -/

abbrev pmTickMax : U32 := 0xffffffff
abbrev pmFlagBusy : U8 := 0xBC
abbrev pmFlagIdle : U8 := 0xDE

abbrev lpmsEok : ℤ := 0
abbrev lpmsEfull : ℤ := 3
abbrev lpmsEnosys : ℤ := 6

abbrev pmSleepNone : U8 := 0
abbrev pmSleepIdle : U8 := 1
abbrev pmSleepLight : U8 := 2
abbrev pmSleepDeep : U8 := 3
abbrev pmSleepModeMax : ℕ := 4

abbrev pmFreqHigh : U8 := 0
abbrev pmFreqNormal : U8 := 1
abbrev pmFreqLow : U8 := 2
abbrev pmFreqModeMax : ℕ := 3

/-- The three hook lists of `lpms_notify.c`. -/
inductive HookList where
  | sleep
  | wake
  | freq
deriving DecidableEq, Repr

/-- The compile-time configuration: the enumerators of `lpms_config.h` and the `#ifndef`
macros of `lpms.h` and `lpms_notify.c`. -/
structure Config where
  pmModuleMax : ℕ
  pmBusyModuleMax : ℕ
  lpmsDefaultBusySleepMode : U8
  lpmsTicklessThresholdTime : U32
  lpmsTicklessThresholdMode : U8
  lpmsTicklessDefaultMode : U8
  lpmsHookListSize : HookList → ℕ
  module_pos : 1 ≤ pmModuleMax
  module_le : pmModuleMax ≤ 65535

/-- The values the repository ships: `PM_MODULE_MAX` and `PM_BUSY_MODULE_MAX` of
`lpms_config.h` and the defaults of every macro. -/
def Config.shipped : Config where
  pmModuleMax := 17
  pmBusyModuleMax := 2
  lpmsDefaultBusySleepMode := pmSleepNone
  lpmsTicklessThresholdTime := 6
  lpmsTicklessThresholdMode := pmSleepIdle
  lpmsTicklessDefaultMode := pmSleepLight
  lpmsHookListSize := fun _ => 4
  module_pos := by decide
  module_le := by decide

/-- `struct lpms_ops` over a platform `X`; an absent callback is `none`. -/
structure LpmsOps (X : Type) where
  sleep : Option (U8 → X → X)
  setFreq : Option (U8 → X → X)
  lptimStart : Option (U32 → X → X)
  lptimStop : Option (X → X)
  lptimGetTick : Option (X → U32 × X)
  lptimNextTimeout : Option (X → U32 × X)
  systickGet : Option (X → U32 × X)
  systickSet : Option (U32 → X → X)
  systickNextTimeout : Option (X → U32 × X)
  irqDisable : Option (X → U32 × X)
  irqEnable : Option (U32 → X → X)

/-- A platform that is only a tick counter, with every callback present. -/
def LpmsOps.clock : LpmsOps U32 where
  sleep := some fun _ tick => tick
  setFreq := some fun _ tick => tick
  lptimStart := some fun _ tick => tick
  lptimStop := some id
  lptimGetTick := some fun tick => (0, tick)
  lptimNextTimeout := some fun tick => (pmTickMax, tick)
  systickGet := some fun tick => (tick, tick)
  systickSet := some fun ticks _ => ticks
  systickNextTimeout := some fun tick => (pmTickMax, tick)
  irqDisable := some fun tick => (0, tick)
  irqEnable := some fun _ tick => tick

instance instNeZeroWord : NeZero 32 := ⟨by decide⟩

/-- The static data of LPMS: `_pm_sys` (its `ops` pointer is kept in `World`, so that this is
plain data) and the hook arrays of `lpms_notify.c`. -/
structure Lpms (c : Config) where
  initFlag : U8
  enableFlag : U8
  sleepMode : U8
  freqMode : U8
  freqFlag : U32
  sleepStatus : BitMatrix 32 (pmSleepModeMax - 1) c.pmModuleMax
  freqStatus : BitMatrix 32 (pmFreqModeMax - 1) c.pmModuleMax
  timeout : Vector U32 c.pmBusyModuleMax
  hooks : (l : HookList) → Vector (Option HookId) (c.lpmsHookListSize l)

/-- The static data at power-on. -/
def Lpms.boot (c : Config) : Lpms c where
  initFlag := 0
  enableFlag := 0
  sleepMode := 0
  freqMode := 0
  freqFlag := 0
  sleepStatus := .zero
  freqStatus := .zero
  timeout := Vector.replicate _ 0
  hooks := fun l => Vector.replicate (c.lpmsHookListSize l) none

/-- A call of the public interface, without `lpms_init` and `pm_run_tickless`. -/
inductive Call where
  | pmSleepRequest (moduleId : U16) (mode : U8)
  | pmSleepRelease (moduleId : U16) (mode : U8)
  | pmIdleLockRequest (moduleId : U16)
  | pmIdleLockRelease (moduleId : U16)
  | pmFreqRequest (moduleId : U16) (mode : U8)
  | pmFreqRelease (moduleId : U16) (mode : U8)
  | pmBusySet (moduleId : U16) (ticks : U32)
  | pmBusyClear (moduleId : U16)
  | lpmsEnable
  | lpmsDisable
  | lpmsSethook (list : HookList) (hook : Option HookId)
  | lpmsDelhook (list : HookList) (hook : Option HookId)
deriving DecidableEq, Repr

/-- The function whose body calls `_pm_set_freq`. -/
inductive FreqSite where
  | pmFreqRequest
  | pmFreqHandle
deriving DecidableEq, Repr

/-- What LPMS does: an `ops` callback with its argument or result, a hook, the entry and
return of an interface call, and the entry of `pm_freq_handle`. -/
inductive Ev where
  | sleep (mode : U8)
  | setFreq (site : FreqSite) (mode : U8)
  | lptimStart (timeout : U32)
  | lptimStop
  | lptimGetTick (ret : U32)
  | lptimNextTimeout (ret : U32)
  | systickGet (ret : U32)
  | systickSet (ticks : U32)
  | systickNextTimeout (ret : U32)
  | irqDisable (ret : U32)
  | irqEnable (level : U32)
  | hook (list : HookList) (slot : ℕ) (id : HookId) (mode : U8)
  | enter (call : Call)
  | done (call : Call)
  | freqHandle
deriving DecidableEq, Repr

/-- The whole system: static data, the callback table given to `lpms_init`, the platform, and
the record of what was done. -/
structure World (c : Config) (X : Type) where
  st : Lpms c
  ops : Option (LpmsOps X)
  plat : X
  trace : List (Ev × Lpms c)

namespace World

variable {c : Config} {X : Type}

/-- Power-on: all static data zero, no callback table. -/
def boot (c : Config) (x : X) : World c X := ⟨Lpms.boot c, none, x, []⟩

def emit (w : World c X) (e : Ev) : World c X := { w with trace := w.trace ++ [(e, w.st)] }

/-- A wrapper around a callback without result: nothing when the table or the pointer is
NULL. -/
def callOut (w : World c X) (sel : LpmsOps X → Option (X → X)) (e : Ev) : World c X :=
  match w.ops.bind sel with
  | none => w
  | some f => { w.emit e with plat := f w.plat }

/-- A wrapper around a callback with a result: a default when the table or the pointer is
NULL. -/
def query (w : World c X) (sel : LpmsOps X → Option (X → U32 × X)) (e : U32 → Ev)
    (dflt : U32) : U32 × World c X :=
  match w.ops.bind sel with
  | none => (dflt, w)
  | some f => ((f w.plat).1, { w.emit (e (f w.plat).1) with plat := (f w.plat).2 })

/-! ## Callback wrappers -/

def pmIrqDisable (w : World c X) : U32 × World c X := w.query (·.irqDisable) .irqDisable 0

def pmIrqEnable (level : U32) (w : World c X) : World c X :=
  w.callOut (fun o => o.irqEnable.map (· level)) (.irqEnable level)

def pmGetTick (w : World c X) : U32 × World c X := w.query (·.systickGet) .systickGet 0

def pmSetTick (ticks : U32) (w : World c X) : World c X :=
  w.callOut (fun o => o.systickSet.map (· ticks)) (.systickSet ticks)

def pmNextTimeout (w : World c X) : U32 × World c X :=
  w.query (·.systickNextTimeout) .systickNextTimeout pmTickMax

def lptimerNextTimeout (w : World c X) : U32 × World c X :=
  w.query (·.lptimNextTimeout) .lptimNextTimeout pmTickMax

def lptimerStart (timeout : U32) (w : World c X) : World c X :=
  w.callOut (fun o => o.lptimStart.map (· timeout)) (.lptimStart timeout)

def lptimerStop (w : World c X) : World c X := w.callOut (·.lptimStop) .lptimStop

def lptimerGetTimeout (w : World c X) : U32 × World c X :=
  w.query (·.lptimGetTick) .lptimGetTick pmTickMax

def pmSleep (sleepMode : U8) (w : World c X) : World c X :=
  w.callOut (fun o => o.sleep.map (· sleepMode)) (.sleep sleepMode)

def pmSetFreq (site : FreqSite) (freqMode : U8) (w : World c X) : World c X :=
  w.callOut (fun o => o.setFreq.map (· freqMode)) (.setFreq site freqMode)

end World
end LowPower
