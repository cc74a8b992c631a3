import LowPower.Lib.Loop
import LowPower.Lib.Ring
import LowPower.Spec.Driver

/-!
# The kernel timers

The hard timers of `timer.c`: a skip list of circular doubly linked lists, one for each level, with
its heads in `_timer_list` and the node `row[r]` of a timer in the list of level `r`. Soft timers are
not configured. A call runs with the interrupts masked, so it is one step.

A failed `RT_ASSERT` never returns (`none` for every fuel), and neither does `rt_list_entry` of a
node that belongs to no timer.
-/

namespace LowPower

/-- A list node: a head of `_timer_list`, a row of a timer, and the list of `rt_timer_check`. -/
inductive Node (T : Type) where
  | head (r : ℕ)
  | row (t : T) (r : ℕ)
  | list
deriving DecidableEq

/-- `RT_TIMER_SKIP_LIST_LEVEL` and `RT_TIMER_SKIP_LIST_MASK`. -/
structure TimerConfig where
  skipListLevel : ℕ
  skipListMask : U32
  level_pos : 1 ≤ skipListLevel

abbrev rtObjectClassTimer : U8 := 0x0a
abbrev rtObjectClassStatic : U8 := 0x80

/-- A timer: the type and the flags of its object, and its ticks. -/
structure RtTimer where
  type : U8
  activated : Bool
  periodic : Bool
  initTick : U32
  timeoutTick : U32
deriving DecidableEq, Repr

namespace RtTimer

def rtObjectGetType (timer : RtTimer) : U8 := timer.type &&& ~~~rtObjectClassStatic

def rtObjectIsSystemobject (timer : RtTimer) : Bool := timer.type &&& rtObjectClassStatic ≠ 0

/-- What `_timer_init` makes of a timer object. -/
def timerInit (type : U8) (time : U32) (periodic : Bool) : RtTimer where
  type := type
  activated := false
  periodic := periodic
  initTick := time
  timeoutTick := 0

end RtTimer

/-- The tick, the timers, the links of all nodes, `random_nr`, and the callbacks made so far. -/
structure Timers (T : Type) where
  rtTick : U32
  timer : T → RtTimer
  links : Links (Node T)
  randomNr : U32
  called : List T

/-- The node at the next level: `row_head[row_lvl] + 1`. -/
def Node.succ {T : Type} : Node T → Node T
  | .head r => .head (r + 1)
  | .row t r => .row t (r + 1)
  | .list => .list

namespace Timers

variable {T : Type} [DecidableEq T]

/-- Every list empty and every timer initialised. -/
def boot (rtTick randomNr : U32) (type : T → U8) (time : T → U32) (periodic : T → Bool) :
    Timers T where
  rtTick := rtTick
  timer t := RtTimer.timerInit (type t) (time t) (periodic t)
  links := ⟨id, id⟩
  randomNr := randomNr
  called := []

def setTimer (t : T) (f : RtTimer → RtTimer) (w : Timers T) : Timers T :=
  { w with timer := Function.update w.timer t (f (w.timer t)) }

def setLinks (f : Links (Node T) → Links (Node T)) (w : Timers T) : Timers T :=
  { w with links := f w.links }

/-- `flag |= RT_TIMER_FLAG_ACTIVATED` or `flag &= ~RT_TIMER_FLAG_ACTIVATED`. -/
def setActivated (t : T) (activated : Bool) (w : Timers T) : Timers T :=
  w.setTimer t fun timer => { timer with activated := activated }

def rtTickSet (tick : U32) (w : Timers T) : Timers T := { w with rtTick := tick }

variable (c : TimerConfig)

def timerListNextTimeout (w : Timers T) : U32 :=
  match w.links.next (.head (c.skipListLevel - 1)) with
  | .row t _ => (w.timer t).timeoutTick
  | _ => rtTickMax

def rtTimerNextTimeoutTick (w : Timers T) : U32 := w.timerListNextTimeout c

def timerRemove (t : T) (w : Timers T) : Timers T :=
  w.setLinks fun m => (List.range c.skipListLevel).foldl (fun m i => m.remove (.row t i)) m

/-! ## Starting -/

/-- The search in one row, from `row_head[row_lvl]` on: past every timer that is not later than the
deadline. -/
def searchRow (w : Timers T) (deadline : U32) (r : ℕ) : ℕ → Node T → Option (Node T)
  | 0, _ => none
  | fuel + 1, p =>
    if p = w.links.prev (.head r) then some p
    else
      match w.links.next p with
      | .row t _ =>
        if (w.timer t).timeoutTick - deadline = 0 then
          searchRow w deadline r fuel (w.links.next p)
        else if (w.timer t).timeoutTick - deadline < rtTickMax / 2 then some p
        else searchRow w deadline r fuel (w.links.next p)
      | _ => none

/-- The search in `k` rows from row `r` on: the entries of `row_head` from there. -/
def searchRows (w : Timers T) (deadline : U32) (fuel : ℕ) : ℕ → ℕ → Node T → Option (List (Node T))
  | 0, _, _ => some []
  | k + 1, r, p =>
    (searchRow w deadline r fuel p).bind fun p =>
      (searchRows w deadline fuel k (r + 1) p.succ).map (p :: ·)

/-- The rows above the bottom one: `r` rows are left, and the bits of `tst_nr` tell how many of them
take the timer. -/
def insertRows (rowHead : List (Node T)) (t : T) :
    ℕ → U32 → Links (Node T) → Links (Node T)
  | 0, _, m => m
  | r + 1, tstNr, m =>
    if tstNr &&& c.skipListMask = 0 then
      insertRows rowHead t r (tstNr >>> ((c.skipListMask + 1) >>> 1))
        (m.insertAfter (rowHead.getD r .list) (.row t r))
    else m

/-- The insertion after the search. -/
def insertTimer (rowHead : List (Node T)) (t : T) (w : Timers T) : Timers T :=
  let w := { w with randomNr := w.randomNr + 1 }
  let bottom := c.skipListLevel - 1
  w.setLinks fun m =>
    insertRows c rowHead t bottom w.randomNr
      (m.insertAfter (rowHead.getD bottom .list) (.row t bottom))

def rtTimerStart (t : T) (fuel : ℕ) (w : Timers T) : Option (Timers T) :=
  if (w.timer t).rtObjectGetType ≠ rtObjectClassTimer then none
  else
    let w := (w.timerRemove c t).setActivated t false
    if ¬(w.timer t).initTick < rtTickMax / 2 then none
    else
      let w := w.setTimer t fun timer => { timer with timeoutTick := w.rtTick + timer.initTick }
      (searchRows w (w.timer t).timeoutTick fuel c.skipListLevel 0 (.head 0)).map fun rowHead =>
        (w.insertTimer c rowHead t).setActivated t true

/-! ## Stopping -/

def rtTimerStop (t : T) (w : Timers T) : Option (ℤ × Timers T) :=
  if (w.timer t).rtObjectGetType ≠ rtObjectClassTimer then none
  else if (w.timer t).activated = false then some (-1, w)
  else some (0, (w.timerRemove c t).setActivated t false)

/-- `rt_object_detach` takes the type away. -/
def rtObjectDetach (t : T) (w : Timers T) : Timers T :=
  w.setTimer t fun timer => { timer with type := 0 }

def rtTimerDetach (t : T) (w : Timers T) : Option (Timers T) :=
  if (w.timer t).rtObjectGetType ≠ rtObjectClassTimer then none
  else if (w.timer t).rtObjectIsSystemobject = false then none
  else some (((w.timerRemove c t).setActivated t false).rtObjectDetach t)

/-! ## Checking -/

/-- The first part of a round of `rt_timer_check`: the timer moves to the temporary list and its
callback is made. -/
def fireTimer (callback : T → Timers T → Timers T) (t : T) (w : Timers T) : Timers T :=
  let w := w.timerRemove c t
  let w := if (w.timer t).periodic then w else w.setActivated t false
  let w := w.setLinks (·.insertAfter .list (.row t (c.skipListLevel - 1)))
  callback t { w with called := w.called ++ [t] }

/-- The loop of `rt_timer_check`. -/
def checkLoop (callback : T → Timers T → Timers T) : ℕ → U32 → Timers T → Option (Timers T)
  | 0, _, _ => none
  | fuel + 1, currentTick, w =>
    if w.links.next (.head (c.skipListLevel - 1)) = .head (c.skipListLevel - 1) then some w
    else
      match w.links.next (.head (c.skipListLevel - 1)) with
      | .row t _ =>
        if currentTick - (w.timer t).timeoutTick < rtTickMax / 2 then
          let w := w.fireTimer c callback t
          let currentTick := w.rtTick
          -- the callback has detached the timer, or started it again
          if w.links.next .list = .list then checkLoop callback fuel currentTick w
          else
            let w := w.setLinks (·.remove (.row t (c.skipListLevel - 1)))
            if (w.timer t).periodic ∧ (w.timer t).activated then
              ((w.setActivated t false).rtTimerStart c t fuel).bind
                (checkLoop callback fuel currentTick)
            else checkLoop callback fuel currentTick w
        else some w
      | _ => none

def rtTimerCheck (callback : T → Timers T → Timers T) (fuel : ℕ) (w : Timers T) :
    Option (Timers T) :=
  checkLoop c callback fuel w.rtTick (w.setLinks (·.init .list))

end Timers

/-- The calls on hard timers, and a new tick: the next one, or the one after a sleep. -/
inductive TimerOp (T : Type) where
  | start (t : T)
  | stop (t : T)
  | detach (t : T)
  | tickSet (tick : U32)
deriving DecidableEq

def TimerOp.exec {T : Type} [DecidableEq T] (c : TimerConfig) (op : TimerOp T) (fuel : ℕ)
    (w : Timers T) : Option (Timers T) :=
  match op with
  | .start t => w.rtTimerStart c t fuel
  | .stop t => (w.rtTimerStop c t).map Prod.snd
  | .detach t => w.rtTimerDetach c t
  | .tickSet tick => some (w.rtTickSet tick)

end LowPower
