import LowPower.Spec.Lpms
import Mathlib.Logic.Function.Basic

/-!
# The LPMS interface

The calls threads and interrupt handlers make: votes, busy windows, enabling, hook
registration (`lpms.c`, `lpms_notify.c`), and the two decisions `select_sleep_mode` and
`pm_check_busy` that the idle pass takes from them. Range checks come first and return
without touching anything; the proofs they leave behind index the tables.
-/

namespace LowPower

variable {c : Config} {X : Type}

/-- `sleep_status` and `freq_status` scanned row by row for a nonzero word. -/
def selectMode {R n : ℕ} (status : BitMatrix 32 R n) (dflt : U8) : U8 :=
  match status.firstRow with
  | some index => BitVec.ofNat 8 index.val
  | none => dflt

def selectFreqMode (s : Lpms c) : U8 := selectMode s.freqStatus pmFreqLow

def selectSleepMode (s : Lpms c) : U8 := selectMode s.sleepStatus pmSleepDeep

namespace World

def mapSt (w : World c X) (f : Lpms c → Lpms c) : World c X := { w with st := f w.st }

/-- `level = pm_irq_disable(); ...; pm_irq_enable(level);` around a body. -/
def locked (w : World c X) (body : World c X → World c X) : World c X :=
  let (level, w) := w.pmIrqDisable
  (body w).pmIrqEnable level

/-! ## Votes -/

def pmSleepRequest (moduleId : U16) (mode : U8) (w : World c X) : World c X :=
  if hk : c.pmModuleMax ≤ moduleId.toNat then w
  else if hm : pmSleepModeMax - 1 ≤ mode.toNat then w
  else
    w.locked fun w => w.mapSt fun s =>
      { s with sleepStatus :=
          s.sleepStatus.setBit ⟨mode.toNat, by omega⟩ ⟨moduleId.toNat, by omega⟩ }

def pmIdleLockRequest (moduleId : U16) (w : World c X) : World c X :=
  pmSleepRequest moduleId pmSleepIdle w

def pmSleepRelease (moduleId : U16) (mode : U8) (w : World c X) : World c X :=
  if hk : c.pmModuleMax ≤ moduleId.toNat then w
  else if hm : pmSleepModeMax - 1 ≤ mode.toNat then w
  else
    w.locked fun w => w.mapSt fun s =>
      { s with sleepStatus :=
          s.sleepStatus.clearBit ⟨mode.toNat, by omega⟩ ⟨moduleId.toNat, by omega⟩ }

def pmIdleLockRelease (moduleId : U16) (w : World c X) : World c X :=
  pmSleepRelease moduleId pmSleepIdle w

def pmFreqRequest (moduleId : U16) (mode : U8) (w : World c X) : World c X :=
  if hk : c.pmModuleMax ≤ moduleId.toNat then w
  else if hm : pmFreqModeMax - 1 ≤ mode.toNat then w
  else
    w.locked fun w =>
      let w := w.mapSt fun s =>
        { s with freqStatus :=
            s.freqStatus.setBit ⟨mode.toNat, by omega⟩ ⟨moduleId.toNat, by omega⟩ }
      if mode < w.st.freqMode then
        (w.pmSetFreq .pmFreqRequest mode).mapSt fun s => { s with freqMode := mode }
      else w

def pmFreqRelease (moduleId : U16) (mode : U8) (w : World c X) : World c X :=
  if hk : c.pmModuleMax ≤ moduleId.toNat then w
  else if hm : pmFreqModeMax - 1 ≤ mode.toNat then w
  else
    w.locked fun w => w.mapSt fun s =>
      { s with
        freqStatus := s.freqStatus.clearBit ⟨mode.toNat, by omega⟩ ⟨moduleId.toNat, by omega⟩
        freqFlag := 0x01 }

/-! ## Busy windows -/

def pmBusySet (moduleId : U16) (ticks : U32) (w : World c X) : World c X :=
  if hk : c.pmBusyModuleMax ≤ moduleId.toNat then w
  else if ticks < 1 ∨ pmTickMax / 2 ≤ ticks then w
  else
    w.locked fun w =>
      let (now, w) := w.pmGetTick
      w.mapSt fun s => { s with timeout := s.timeout.set moduleId.toNat (now + ticks) }

def pmBusyClear (moduleId : U16) (w : World c X) : World c X :=
  if hk : c.pmBusyModuleMax ≤ moduleId.toNat then w
  else w.locked fun w => w.mapSt fun s => { s with timeout := s.timeout.set moduleId.toNat 0 }

/-- The loop of `pm_check_busy` over the modules still to look at; the tick is read again
for each. -/
def checkBusyFrom : List (Fin c.pmBusyModuleMax) → World c X → U8 × World c X
  | [], w => (pmFlagIdle, w)
  | index :: rest, w =>
    let (now, w) := w.pmGetTick
    if now < w.st.timeout[index] then (pmFlagBusy, w) else checkBusyFrom rest w

def pmCheckBusy (w : World c X) : U8 × World c X := checkBusyFrom (List.finRange _) w

/-! ## Initialisation and enabling -/

def lpmsInit (ops : Option (LpmsOps X)) (freqMode : U8) (w : World c X) : World c X :=
  if w.st.initFlag ≠ 0 then w
  else
    { w with
      st := { w.st with
        initFlag := 0x01
        enableFlag := 0x00
        sleepMode := pmSleepDeep
        freqMode := freqMode }
      ops := ops }

def lpmsEnable (w : World c X) : World c X := w.mapSt fun s => { s with enableFlag := 0x01 }

def lpmsDisable (w : World c X) : World c X := w.mapSt fun s => { s with enableFlag := 0x00 }

/-! ## Hook registration -/

/-- The first slot of a hook list that holds `h`; NULL slots are free. -/
def firstSlot (s : Lpms c) (l : HookList) (h : Option HookId) :
    Option (Fin (c.lpmsHookListSize l)) :=
  (List.finRange _).find? fun i => (s.hooks l)[i] = h

def setSlot (s : Lpms c) (l : HookList) (i : Fin (c.lpmsHookListSize l)) (h : Option HookId) :
    Lpms c :=
  { s with hooks := Function.update s.hooks l ((s.hooks l).set i h) }

/-- `lpms_*_sethook`: the first free slot takes the hook, or the list is full. -/
def sethook (l : HookList) (hook : Option HookId) (w : World c X) : ℤ × World c X :=
  let (level, w) := w.pmIrqDisable
  match firstSlot w.st l none with
  | some i => (lpmsEok, (w.mapSt (setSlot · l i hook)).pmIrqEnable level)
  | none => (-lpmsEfull, w.pmIrqEnable level)

/-- `lpms_*_delhook`: the first slot holding the hook is freed. -/
def delhook (l : HookList) (hook : Option HookId) (w : World c X) : ℤ × World c X :=
  let (level, w) := w.pmIrqDisable
  match firstSlot w.st l hook with
  | some i => (lpmsEok, (w.mapSt (setSlot · l i none)).pmIrqEnable level)
  | none => (-lpmsEnosys, w.pmIrqEnable level)

def lpmsSleepSethook (hook : Option HookId) (w : World c X) := sethook .sleep hook w
def lpmsSleepDelhook (hook : Option HookId) (w : World c X) := delhook .sleep hook w
def lpmsWakeupSethook (hook : Option HookId) (w : World c X) := sethook .wake hook w
def lpmsWakeupDelhook (hook : Option HookId) (w : World c X) := delhook .wake hook w
def lpmsFreqSethook (hook : Option HookId) (w : World c X) := sethook .freq hook w
def lpmsFreqDelhook (hook : Option HookId) (w : World c X) := delhook .freq hook w

/-! ## Calls as data -/

/-- The body of a call; results that only tell the caller about success are dropped. -/
def exec (w : World c X) : Call → World c X
  | .pmSleepRequest k m => w.pmSleepRequest k m
  | .pmSleepRelease k m => w.pmSleepRelease k m
  | .pmIdleLockRequest k => w.pmIdleLockRequest k
  | .pmIdleLockRelease k => w.pmIdleLockRelease k
  | .pmFreqRequest k m => w.pmFreqRequest k m
  | .pmFreqRelease k m => w.pmFreqRelease k m
  | .pmBusySet k n => w.pmBusySet k n
  | .pmBusyClear k => w.pmBusyClear k
  | .lpmsEnable => w.lpmsEnable
  | .lpmsDisable => w.lpmsDisable
  | .lpmsSethook .sleep h => (w.lpmsSleepSethook h).2
  | .lpmsSethook .wake h => (w.lpmsWakeupSethook h).2
  | .lpmsSethook .freq h => (w.lpmsFreqSethook h).2
  | .lpmsDelhook .sleep h => (w.lpmsSleepDelhook h).2
  | .lpmsDelhook .wake h => (w.lpmsWakeupDelhook h).2
  | .lpmsDelhook .freq h => (w.lpmsFreqDelhook h).2

/-- A call with its entry and return recorded. -/
def call (w : World c X) (f : Call) : World c X := ((w.emit (.enter f)).exec f).emit (.done f)

end World
end LowPower
