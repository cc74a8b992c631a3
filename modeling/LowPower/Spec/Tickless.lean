import LowPower.Spec.Interface

/-!
# The idle pass of LPMS

Hook notification (`lpms_notify.c`) and `pm_run_tickless` with `pm_freq_handle` (`lpms.c`),
and executions: any sequence of interface calls, idle passes and changes of the platform.

A hook is foreign code. `Env.body` says what a registered function does each time it is
called: a list of acts, chosen from the whole state at that moment, each a re-entrant
interface call or a change of the platform.
-/

namespace LowPower

variable {c : Config} {X : Type}

/-- One step of foreign code. -/
inductive HookAct (X : Type) where
  | call (f : Call)
  | plat (f : X → X)

/-- The behaviour of the registered functions. -/
structure Env (c : Config) (X : Type) where
  body : HookList → HookId → U8 → World c X → List (HookAct X)

/-- Hooks that do nothing. -/
def Env.silent : Env c X := ⟨fun _ _ _ _ => []⟩

/-- The hooks of a list call no LPMS function. -/
def Env.Quiet (env : Env c X) (l : HookList) : Prop :=
  ∀ h m w, ∀ a ∈ env.body l h m w, ∃ f, a = .plat f

theorem Env.silent_quiet (l : HookList) : (Env.silent : Env c X).Quiet l := by
  intro h m w a ha
  exact absurd ha List.not_mem_nil

namespace World

def act (w : World c X) : HookAct X → World c X
  | .call f => w.call f
  | .plat f => { w with plat := f w.plat }

/-- `pm_hook_list_*[i](mode)`. -/
def runHook (env : Env c X) (l : HookList) (i : ℕ) (h : HookId) (mode : U8) (w : World c X) :
    World c X :=
  (env.body l h mode w).foldl act (w.emit (.hook l i h mode))

/-- One iteration of a notification loop; the slot is read when its turn comes. -/
def notifySlot (env : Env c X) (l : HookList) (mode : U8) (w : World c X)
    (i : Fin (c.lpmsHookListSize l)) : World c X :=
  match (w.st.hooks l)[i] with
  | none => w
  | some h => w.runHook env l i h mode

def notify (env : Env c X) (l : HookList) (mode : U8) (w : World c X) : World c X :=
  (List.finRange _).foldl (notifySlot env l mode) w

def lpmsNotifySleep (env : Env c X) (mode : U8) (w : World c X) := notify env .sleep mode w
def lpmsNotifyWakeup (env : Env c X) (mode : U8) (w : World c X) := notify env .wake mode w
def lpmsNotifyFreq (env : Env c X) (mode : U8) (w : World c X) := notify env .freq mode w

def pmFreqHandle (env : Env c X) (w : World c X) : World c X :=
  let w := w.emit .freqHandle
  if w.st.freqFlag = 0x01 then
    let w := w.mapSt fun s => { s with freqFlag := 0x00 }
    let freqMode := selectFreqMode w.st
    -- a release may leave the selection as it is
    if freqMode ≠ w.st.freqMode then
      let w := (w.pmSetFreq .pmFreqHandle freqMode).mapSt fun s => { s with freqMode := freqMode }
      w.lpmsNotifyFreq env w.st.freqMode
    else w
  else w

/-! ## The blocks of `pm_run_tickless` -/

/-- `if (sleep_mode < _pm_sys.sleep_mode) _pm_sys.sleep_mode = sleep_mode;` -/
def limitMode (mode : U8) (w : World c X) : World c X :=
  if mode < w.st.sleepMode then w.mapSt fun s => { s with sleepMode := mode } else w

/-- The busy check of the pass. -/
def busyLimit (w : World c X) : World c X :=
  let (flag, w) := w.pmCheckBusy
  if flag = pmFlagBusy then w.limitMode c.lpmsDefaultBusySleepMode else w

/-- "tickless threshold check" -/
def thresholdLimit (w : World c X) : World c X :=
  let (next, w) := w.pmNextTimeout
  let (now, w) := w.pmGetTick
  if next - now ≤ c.lpmsTicklessThresholdTime then w.limitMode c.lpmsTicklessThresholdMode else w

/-- Before a deep sleep: start the low-power timer; the flag says that it runs. -/
def deepEnter (w : World c X) : Bool × World c X :=
  if c.lpmsTicklessDefaultMode ≤ w.st.sleepMode then
    let (next, w) := w.lptimerNextTimeout
    let (now, w) := w.pmGetTick
    (true, w.lptimerStart (next - now))
  else (false, w)

/-- After a deep sleep: read and stop the low-power timer and compensate the system tick. -/
def deepExit (lptimFlag : Bool) (w : World c X) : World c X :=
  if c.lpmsTicklessDefaultMode ≤ w.st.sleepMode then
    if lptimFlag then
      let (delta, w) := w.lptimerGetTimeout
      let w := w.lptimerStop
      let (now, w) := w.pmGetTick
      w.pmSetTick (now + delta)
    else w
  else w

/-- Everything up to the decision: interrupts off, the votes, the busy check, the threshold. -/
def passDecide (w : World c X) : U32 × World c X :=
  let (level, w) := w.pmIrqDisable
  let w := w.mapSt fun s => { s with sleepMode := selectSleepMode s }
  (level, w.busyLimit.thresholdLimit)

/-- The sleep itself, between the notifications. -/
def passSleep (env : Env c X) (w : World c X) : World c X :=
  let (lptimFlag, w) := w.deepEnter
  let w := w.lpmsNotifySleep env w.st.sleepMode
  -- the mode is not selected again after the sleep hooks
  let w := w.pmSleep w.st.sleepMode
  let w := w.lpmsNotifyWakeup env w.st.sleepMode
  w.deepExit lptimFlag

def pmRunTickless (env : Env c X) (w : World c X) : World c X :=
  if w.st.enableFlag = 0 then w
  else
    let (level, w) := w.passDecide
    let w := w.passSleep env
    let w := w.pmFreqHandle env
    w.pmIrqEnable level

end World

/-! ## Executions -/

/-- What can happen between two idle passes, and the pass itself. -/
inductive Op (X : Type) where
  | call (f : Call)
  | pmRunTickless
  | plat (f : X → X)

namespace World

def step (env : Env c X) (w : World c X) : Op X → World c X
  | .call f => w.call f
  | .pmRunTickless => w.pmRunTickless env
  | .plat f => { w with plat := f w.plat }

def run (env : Env c X) (w : World c X) (es : List (Op X)) : World c X := es.foldl (step env) w

/-- The state right after `lpms_init` at power-on. -/
def start (c : Config) (ops : LpmsOps X) (freqMode : U8) (x : X) : World c X :=
  (boot c x).lpmsInit (some ops) freqMode

@[simp] theorem run_nil (env : Env c X) (w : World c X) : w.run env [] = w := rfl

@[simp] theorem run_cons (env : Env c X) (w : World c X) (e : Op X) (es : List (Op X)) :
    w.run env (e :: es) = (w.step env e).run env es := rfl

end World
end LowPower
