import LowPower.Spec.Driver

/-!
# The low-power timers

The LPTIM peripheral as the HAL drives it, the two drivers above it, and their timer callbacks:
`lpms_tim.c` with `lpms_drv.c` for LPMS, `drv_lptim.c` with `drv_pm.c` for PM 2.0. The drivers
differ in the count frequency, in which register takes the reload value and in the comparison of the
clamp.
-/

namespace LowPower

/-- The registers in use: auto-reload, compare, counter, and the compare-match flag, which is the
only interrupt enabled. -/
structure Lptim where
  enabled : Bool
  arr : U16
  cmp : U16
  cnt : U16
  cmpm : Bool
deriving DecidableEq, Repr

namespace Lptim

/-- The registers after reset. -/
def reset : Lptim := ⟨false, 0, 0, 0, false⟩

/-! ## The HAL -/

/-- `HAL_LPTIM_TimeOut_Start_IT`: continuous mode, from 0. -/
def halLptimTimeOutStartIT (period timeout : U32) (t : Lptim) : Lptim :=
  { t with
    enabled := true
    arr := period.setWidth 16
    cmp := timeout.setWidth 16
    cnt := 0
    cmpm := false }

/-- `HAL_LPTIM_ReadCounter`. -/
def halLptimReadCounter (t : Lptim) : U32 := t.cnt.setWidth 32

/-- One count of the running timer. -/
def count (t : Lptim) : Lptim :=
  if t.enabled then
    let cnt := if t.cnt = t.arr then 0 else t.cnt + 1
    { t with cnt := cnt, cmpm := t.cmpm || cnt == t.cmp }
  else t

def counts (t : Lptim) : ℕ → Lptim
  | 0 => t
  | n + 1 => (t.counts n).count

/-! ## `lpms_tim.c` -/

def stm32LptimGetCurrentTick (t : Lptim) : U32 := t.halLptimReadCounter

/-- The reload value goes to the auto-reload register, beside a fixed compare value. -/
def stm32LptimStart (reload : U32) (t : Lptim) : Lptim := t.halLptimTimeOutStartIT reload 0xff

/-! ## `drv_lptim.c` -/

def stm32l4LptimGetCurrentTick (t : Lptim) : U32 := t.halLptimReadCounter

/-- The reload value goes to the compare register; the counter runs over its full range. -/
def stm32l4LptimStart (reload : U32) (t : Lptim) : Lptim := t.halLptimTimeOutStartIT 0xFFFF reload

end Lptim

abbrev stm32l4LptimGetTickMax : U32 := 0xFFFF
abbrev stm32l4LptimGetCountfreq : U32 := 32000 / 32

/-! ## The timer callbacks -/

/-- What `pm_timer_start` comes to: a failed `RT_ASSERT`, no timer, or the LPTIM started. -/
inductive TimerStart where
  | assertFails
  | noTimer
  | start (reload : U32)
deriving DecidableEq, Repr

namespace LpmsDrv

/-- `stm32_pm_tick_from_os_tick`. -/
def stm32PmTickFromOsTick (perSecond tick : U32) : U32 :=
  LowPower.stm32PmTickFromOsTick perSecond stm32LptimGetCountfreq tick

/-- `stm32_os_tick_from_pm_tick`. -/
def stm32OsTickFromPmTick (perSecond osTickRemain tick : U32) : U32 × U32 :=
  LowPower.stm32OsTickFromPmTick perSecond stm32LptimGetCountfreq osTickRemain tick

/-- `pm_timer_start` of `lpms_drv.c`. -/
def pmTimerStart (perSecond timeout : U32) : TimerStart :=
  -- RT_ASSERT(timeout > 0)
  if timeout = 0 then .assertFails
  else if timeout ≠ rtTickMax then
    let timeout := stm32PmTickFromOsTick perSecond timeout
    .start (if stm32LptimGetTickMax ≤ timeout then stm32LptimGetTickMax else timeout)
  else .noTimer

end LpmsDrv

namespace DrvPm

/-- `stm32l4_pm_tick_from_os_tick`. -/
def stm32l4PmTickFromOsTick (perSecond tick : U32) : U32 :=
  LowPower.stm32PmTickFromOsTick perSecond stm32l4LptimGetCountfreq tick

/-- `stm32l4_os_tick_from_pm_tick`. -/
def stm32l4OsTickFromPmTick (perSecond osTickRemain tick : U32) : U32 × U32 :=
  LowPower.stm32OsTickFromPmTick perSecond stm32l4LptimGetCountfreq osTickRemain tick

/-- `pm_timer_start` of `drv_pm.c`: the clamp compares with `>`. -/
def pmTimerStart (perSecond timeout : U32) : TimerStart :=
  -- RT_ASSERT(timeout > 0)
  if timeout = 0 then .assertFails
  else if timeout ≠ rtTickMax then
    let timeout := stm32l4PmTickFromOsTick perSecond timeout
    .start (if stm32l4LptimGetTickMax < timeout then stm32l4LptimGetTickMax else timeout)
  else .noTimer

end DrvPm

end LowPower
