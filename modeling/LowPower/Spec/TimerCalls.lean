import LowPower.Spec.Shell
import LowPower.Spec.Timer

/-!
# The timer interface

The rest of `timer.c`: initialisation, creation and deletion of timers and `rt_timer_control`, with
all calls as data. A timer object is in the object container while its type is not 0, so
initialising one that is in there fails the assertion of `rt_object_init`.

A callback is foreign code that runs inside `rt_timer_check`: it makes any number of calls (`Calls`).
Between two checks threads make calls too, and the clock moves (`Clocked`).
-/

namespace LowPower

abbrev rtTimerFlagDeactivated : U32 := 0x0
abbrev rtTimerFlagActivated : U32 := 0x1

abbrev rtTimerCtrlSetTime : CInt := 0x0
abbrev rtTimerCtrlGetTime : CInt := 0x1
abbrev rtTimerCtrlSetOneshot : CInt := 0x2
abbrev rtTimerCtrlSetPeriodic : CInt := 0x3
abbrev rtTimerCtrlGetState : CInt := 0x4

namespace Timers

variable {T : Type} [DecidableEq T] (c : TimerConfig)

/-- `_timer_init` of an object of a type; bit 1 of the flag is `RT_TIMER_FLAG_PERIODIC`. -/
def timerInit (t : T) (type : U8) (time : U32) (flag : U8) (w : Timers T) : Timers T :=
  let w := w.setTimer t fun _ => RtTimer.timerInit type time (flag.getLsbD 1)
  w.setLinks fun m => (List.range c.skipListLevel).foldl (fun m i => m.init (.row t i)) m

def rtTimerInit (t : T) (time : U32) (flag : U8) (w : Timers T) : Option (Timers T) :=
  if (w.timer t).type ≠ 0 then none
  else some (w.timerInit c t (rtObjectClassTimer ||| rtObjectClassStatic) time flag)

/-- The new object is a `t` that is in use nowhere. -/
def rtTimerCreate (t : T) (time : U32) (flag : U8) (w : Timers T) : Option (Timers T) :=
  if (w.timer t).type ≠ 0 then none else some (w.timerInit c t rtObjectClassTimer time flag)

def rtTimerDelete (t : T) (w : Timers T) : Option (Timers T) :=
  if (w.timer t).rtObjectGetType ≠ rtObjectClassTimer then none
  else if (w.timer t).rtObjectIsSystemobject then none
  else some (((w.timerRemove c t).setActivated t false).rtObjectDetach t)

/-- `*arg` after the command, and the timers. -/
def rtTimerControl (t : T) (cmd : CInt) (arg : U32) (w : Timers T) : Option (U32 × Timers T) :=
  if (w.timer t).rtObjectGetType ≠ rtObjectClassTimer then none
  else if cmd = rtTimerCtrlGetTime then some ((w.timer t).initTick, w)
  else if cmd = rtTimerCtrlSetTime then
    some (arg, w.setTimer t fun timer => { timer with initTick := arg })
  else if cmd = rtTimerCtrlSetOneshot then
    some (arg, w.setTimer t fun timer => { timer with periodic := false })
  else if cmd = rtTimerCtrlSetPeriodic then
    some (arg, w.setTimer t fun timer => { timer with periodic := true })
  else if cmd = rtTimerCtrlGetState then
    some (if (w.timer t).activated then rtTimerFlagActivated else rtTimerFlagDeactivated, w)
  else some (arg, w)

end Timers

/-- A call of the timer interface. -/
inductive TimerCall (T : Type) where
  | init (t : T) (time : U32) (flag : U8)
  | create (t : T) (time : U32) (flag : U8)
  | start (t : T)
  | stop (t : T)
  | detach (t : T)
  | delete (t : T)
  | control (t : T) (cmd : CInt) (arg : U32)
deriving DecidableEq

namespace TimerCall

variable {T : Type} [DecidableEq T]

/-- The timer a call is made on. -/
def timer : TimerCall T → T
  | init t _ _ => t
  | create t _ _ => t
  | start t => t
  | stop t => t
  | detach t => t
  | delete t => t
  | control t _ _ => t

def exec (c : TimerConfig) (call : TimerCall T) (fuel : ℕ) (w : Timers T) : Option (Timers T) :=
  match call with
  | init t time flag => w.rtTimerInit c t time flag
  | create t time flag => w.rtTimerCreate c t time flag
  | start t => w.rtTimerStart c t fuel
  | stop t => (w.rtTimerStop c t).map Prod.snd
  | detach t => w.rtTimerDetach c t
  | delete t => w.rtTimerDelete c t
  | control t cmd arg => (w.rtTimerControl t cmd arg).map Prod.snd

/-- What the callers promise: times of at least one tick and at most `span` ticks, where a timer is
started and where the time of a timer is set. -/
def Promised (span : ℕ) (w : Timers T) : TimerCall T → Prop
  | start t => 1 ≤ (w.timer t).initTick.toNat ∧ (w.timer t).initTick.toNat ≤ span
  | control _ cmd arg => cmd = rtTimerCtrlSetTime → 1 ≤ arg.toNat ∧ arg.toNat ≤ span
  | _ => True

end TimerCall

/-! ## Foreign code -/

/-- Promised calls that return, one after the other. -/
inductive Calls {T : Type} [DecidableEq T] (c : TimerConfig) (span : ℕ) :
    List (TimerCall T) → Timers T → Timers T → Prop
  | nil (w : Timers T) : Calls c span [] w w
  | cons {call : TimerCall T} {calls : List (TimerCall T)} {w w' w'' : Timers T}
      (hpromised : call.Promised span w) (hexec : Returns (fun fuel => call.exec c fuel w) w')
      (hcalls : Calls c span calls w' w'') : Calls c span (call :: calls) w w''

/-- A callback makes promised calls only, the one of `t` on the timers of `touched t`. -/
def CallbackOk {T : Type} [DecidableEq T] (c : TimerConfig) (span : ℕ) (touched : T → Set T)
    (callback : T → Timers T → Timers T) : Prop :=
  ∀ t w, ∃ calls, Calls c span calls w (callback t w) ∧ ∀ call ∈ calls, call.timer ∈ touched t

/-! ## Runs under a clock -/

/-- The states of a system with callbacks, and the tick of the last check: from the initialisation,
threads make calls, the tick moves by at most `gap` since the last check, and checks are made. -/
inductive Clocked {T : Type} [DecidableEq T] (c : TimerConfig) (span gap : ℕ)
    (callback : T → Timers T → Timers T) (w₀ : Timers T) : U32 → Timers T → Prop
  | boot : Clocked c span gap callback w₀ w₀.rtTick w₀
  | call {base : U32} {w w' : Timers T} (call : TimerCall T)
      (h : Clocked c span gap callback w₀ base w) (hpromised : call.Promised span w)
      (hexec : Returns (fun fuel => call.exec c fuel w) w') : Clocked c span gap callback w₀ base w'
  | clock {base : U32} {w : Timers T} (h : Clocked c span gap callback w₀ base w) (n : ℕ)
      (hgap : (w.rtTick - base).toNat + n ≤ gap) :
      Clocked c span gap callback w₀ base (w.rtTickSet (w.rtTick + BitVec.ofNat 32 n))
  | check {base : U32} {w w' : Timers T} (h : Clocked c span gap callback w₀ base w)
      (hcheck : Returns (fun fuel => w.rtTimerCheck c callback fuel) w') :
      Clocked c span gap callback w₀ w'.rtTick w'

end LowPower
