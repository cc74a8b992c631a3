import LowPower.Spec.Tickless

/-!
# The STM32 driver below LPMS

The callback table `pm_ops` of `lpms_drv.c` with the low-power timer of `lpms_tim.c`, over the
clock hardware and the kernel clock they use: `rt_tick` (`clock.c`), the deadlines of the active
hard timers (`timer.c`), PRIMASK and the SysTick pend bit, with `SysTick_Handler`
(`drv_common.c`).

A failed `RT_ASSERT` prints and spins for ever (`rt_assert_handler`, no hook registered): the
machine is `halted` and no callback does anything more.
-/

namespace LowPower

abbrev rtTickMax : U32 := 0xffffffff
abbrev rtTickPerSecond : U32 := 1000

abbrev stm32LptimGetTickMax : U32 := 0xFFFF
abbrev stm32LptimGetCountfreq : U32 := 32768 / 32

/-- What the callbacks do to the hardware: start the LPTIM with a reload value, stop it, enter
the low-power state of a sleep mode. -/
inductive HwEv where
  | lptimStart (reload : U32)
  | lptimStop
  | sleep (mode : U8)
deriving DecidableEq, Repr

/-- The clock of the machine. `timers` holds the deadlines on `_timer_list`, in list order. -/
structure Hw where
  rtTick : U32
  timers : List U32
  osTickRemain : U32
  primask : Bool
  pendst : Bool
  reads : ℕ
  halted : Bool
  log : List HwEv
deriving DecidableEq, Repr

/-- What the code cannot choose: the LPTIM counter at the n-th reading, and the deadlines
`rt_timer_check` and the timer callbacks leave at a tick. -/
structure Board where
  counter : ℕ → U32
  rtTimerCheck : U32 → List U32 → List U32

/-- Power-on at a tick, with timers active. -/
def Hw.boot (now : U32) (timers : List U32) : Hw where
  rtTick := now
  timers := timers
  osTickRemain := 0
  primask := false
  pendst := false
  reads := 0
  halted := false
  log := []

/-- A board on which no time passes and no timer fires. -/
def Board.still : Board := ⟨fun _ => 0, fun _ timers => timers⟩

/-! ## Unit conversions -/

/-- `stm32_pm_tick_from_os_tick`, at a tick rate and a count frequency. -/
def stm32PmTickFromOsTick (perSecond freq tick : U32) : U32 := freq * tick / perSecond

/-- `stm32_os_tick_from_pm_tick`, at a tick rate and a count frequency, with its static
`os_tick_remain` before and after. -/
def stm32OsTickFromPmTick (perSecond freq osTickRemain tick : U32) : U32 × U32 :=
  ((tick * perSecond + osTickRemain) / freq, (osTickRemain + tick * perSecond) % freq)

namespace Hw

def record (hw : Hw) (e : HwEv) : Hw := { hw with log := hw.log ++ [e] }

/-! ## The kernel clock -/

def rtTickGet (hw : Hw) : U32 × Hw := (hw.rtTick, hw)

/-- The head of `_timer_list`, or `RT_TICK_MAX` when it is empty. -/
def rtTimerNextTimeoutTick (hw : Hw) : U32 × Hw := (hw.timers.headD rtTickMax, hw)

def rtTickIncrease (b : Board) (hw : Hw) : Hw :=
  { hw with rtTick := hw.rtTick + 1, timers := b.rtTimerCheck (hw.rtTick + 1) hw.timers }

def sysTickHandler (b : Board) (hw : Hw) : Hw := hw.rtTickIncrease b

/-- The processor takes a pending SysTick as soon as PRIMASK allows it. -/
def takeSysTick (b : Board) (hw : Hw) : Hw :=
  if hw.pendst ∧ ¬hw.primask then sysTickHandler b { hw with pendst := false } else hw

def rtHwInterruptDisable (hw : Hw) : U32 × Hw :=
  (if hw.primask then 1 else 0, { hw with primask := true })

def rtHwInterruptEnable (b : Board) (level : U32) (hw : Hw) : Hw :=
  { hw with primask := level.getLsbD 0 }.takeSysTick b

def rtTickSet (b : Board) (tick : U32) (hw : Hw) : Hw :=
  let (level, hw) := hw.rtHwInterruptDisable
  { hw with rtTick := tick }.rtHwInterruptEnable b level

/-! ## The callbacks -/

def stm32LptimStart (reload : U32) (hw : Hw) : Hw := hw.record (.lptimStart reload)

def stm32LptimStop (hw : Hw) : Hw := hw.record .lptimStop

def stm32LptimGetCurrentTick (b : Board) (hw : Hw) : U32 × Hw :=
  (b.counter hw.reads, { hw with reads := hw.reads + 1 })

def sleep (mode : U8) (hw : Hw) : Hw := hw.record (.sleep mode)

def stm32SetFreq (_mode : U8) (hw : Hw) : Hw := hw

def pmTimerStart (timeout : U32) (hw : Hw) : Hw :=
  -- RT_ASSERT(timeout > 0)
  if timeout = 0 then { hw with halted := true }
  else if timeout ≠ rtTickMax then
    let timeout := stm32PmTickFromOsTick rtTickPerSecond stm32LptimGetCountfreq timeout
    -- the counter has 16 bits: a longer sleep ends early
    let timeout := if stm32LptimGetTickMax ≤ timeout then stm32LptimGetTickMax else timeout
    hw.stm32LptimStart timeout
  else hw

def pmTimerStop (hw : Hw) : Hw := hw.stm32LptimStop

def pmTimerGetTick (b : Board) (hw : Hw) : U32 × Hw :=
  let (timerTick, hw) := hw.stm32LptimGetCurrentTick b
  let (ret, remain) :=
    stm32OsTickFromPmTick rtTickPerSecond stm32LptimGetCountfreq hw.osTickRemain timerTick
  (ret, { hw with osTickRemain := remain })

/-- The new tick, and a SysTick made pending. -/
def pmTickSet (b : Board) (ticks : U32) (hw : Hw) : Hw :=
  { hw.rtTickSet b ticks with pendst := true }.takeSysTick b

/-- A callback of a machine that may have halted. -/
def live (f : Hw → Hw) (hw : Hw) : Hw := if hw.halted then hw else f hw

def liveGet (f : Hw → U32 × Hw) (hw : Hw) : U32 × Hw := if hw.halted then (0, hw) else f hw

end Hw

/-- The table `pm_ops` of `lpms_drv_init`. -/
def pmOps (b : Board) : LpmsOps Hw where
  sleep := some fun mode => Hw.live (Hw.sleep mode)
  setFreq := some fun mode => Hw.live (Hw.stm32SetFreq mode)
  lptimStart := some fun timeout => Hw.live (Hw.pmTimerStart timeout)
  lptimStop := some (Hw.live Hw.pmTimerStop)
  lptimGetTick := some (Hw.liveGet (Hw.pmTimerGetTick b))
  systickGet := some (Hw.liveGet Hw.rtTickGet)
  systickSet := some fun ticks => Hw.live (Hw.pmTickSet b ticks)
  systickNextTimeout := some (Hw.liveGet Hw.rtTimerNextTimeoutTick)
  lptimNextTimeout := none
  irqDisable := some (Hw.liveGet Hw.rtHwInterruptDisable)
  irqEnable := some fun level => Hw.live (Hw.rtHwInterruptEnable b level)

end LowPower
