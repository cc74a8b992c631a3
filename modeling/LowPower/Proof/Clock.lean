import LowPower.Spec.Driver
import LowPower.Proof.Frame

/-!
# A deep pass on the clock

Over the driver's table, `pm_run_tickless` in a deep mode moves the clock hardware as
`Hw.deepPass` says, whatever the hooks do apart from the clock: `pmRunTickless_clock` is the
refinement, and `passDecide_clock`, `deepEnter_clock`, `notify_clock`, `deepExit_clock` are its
steps. Between two passes an interface call leaves the clock as it was (`call_clock`).

The clock is the hardware without the timer deadlines, which hooks and timer callbacks may
change.
-/

namespace LowPower

variable {c : Config} {b : Board} {a : Hw}

/-! ### The conversion to counts -/

/-- The conversion reduces the product modulo 2^32 before it divides. -/
theorem stm32PmTickFromOsTick_toNat (perSecond freq t : U32) :
    (stm32PmTickFromOsTick perSecond freq t).toNat =
      freq.toNat * t.toNat % 2 ^ 32 / perSecond.toNat := by
  unfold stm32PmTickFromOsTick
  rw [BitVec.toNat_udiv, BitVec.toNat_mul]

theorem clampLe_toNat (x m : U32) : (if m ≤ x then m else x).toNat = min x.toNat m.toNat := by
  split_ifs with h
  · exact (min_eq_right (BitVec.le_def.1 h)).symm
  · have hlt : ¬m.toNat ≤ x.toNat := fun hle => h (BitVec.le_def.2 hle)
    omega

namespace Hw

/-- The clock without the deadlines of the timers. -/
def clock (hw : Hw) : Hw := { hw with timers := [] }

theorem clock_rtTick (hw : Hw) : hw.clock.rtTick = hw.rtTick := by
  cases hw; rfl
theorem clock_osTickRemain (hw : Hw) : hw.clock.osTickRemain = hw.osTickRemain := by
  cases hw; rfl
theorem clock_primask (hw : Hw) : hw.clock.primask = hw.primask := by
  cases hw; rfl
theorem clock_reads (hw : Hw) : hw.clock.reads = hw.reads := by
  cases hw; rfl
theorem clock_halted (hw : Hw) : hw.clock.halted = hw.halted := by
  cases hw; rfl
theorem clock_log (hw : Hw) : hw.clock.log = hw.log := by
  cases hw; rfl

/-- After a deep sleep: read and stop the low-power timer, set the tick. -/
def wake (b : Board) (hw : Hw) : Hw :=
  let (delta, hw) := hw.pmTimerGetTick b
  let hw := hw.pmTimerStop
  hw.pmTickSet b (hw.rtTick + delta)

/-- What a pass in the deep mode `m` does to the clock. -/
def deepPass (b : Board) (m : U8) (hw : Hw) : Hw :=
  let (level, hw) := hw.rtHwInterruptDisable
  let hw := hw.pmTimerStart (pmTickMax - hw.rtTick)
  let hw := hw.live (sleep m)
  let hw := hw.live (wake b)
  hw.live (rtHwInterruptEnable b level)

/-- The clock with the interrupts off. -/
def masked (hw : Hw) : Hw := (hw.liveGet rtHwInterruptDisable).2

/-- Putting the level back restores the clock, unless a pending SysTick is served. -/
theorem unmask_masked {hw : Hw} (hp : hw.pendst = false ∨ hw.primask = true) :
    hw.masked.live (rtHwInterruptEnable b (hw.liveGet rtHwInterruptDisable).1) = hw := by
  obtain ⟨rtTick, timers, osTickRemain, primask, pendst, reads, halted, log⟩ := hw
  cases halted <;> cases primask <;> cases pendst <;>
    simp_all [masked, live, liveGet, rtHwInterruptDisable, rtHwInterruptEnable, takeSysTick]

/-- A callback that moves the clock by what the clock shows. -/
def OnClock (f : Hw → Hw) : Prop := ∀ hw : Hw, (f hw).clock = (f hw.clock).clock

def OnClockGet (f : Hw → U32 × Hw) : Prop :=
  ∀ hw : Hw, (f hw).1 = (f hw.clock).1 ∧ (f hw).2.clock = (f hw.clock).2.clock

theorem live_of_not_halted {f : Hw → Hw} {hw : Hw} (hl : hw.halted = false) :
    hw.live f = f hw := by
  unfold live
  rw [hl]
  rfl

theorem liveGet_of_not_halted {f : Hw → U32 × Hw} {hw : Hw} (hl : hw.halted = false) :
    hw.liveGet f = f hw := by
  unfold liveGet
  rw [hl]
  rfl

theorem live_of_halted {f : Hw → Hw} {hw : Hw} (hl : hw.halted = true) : hw.live f = hw :=
  if_pos hl

theorem liveGet_of_halted {f : Hw → U32 × Hw} {hw : Hw} (hl : hw.halted = true) :
    hw.liveGet f = (0, hw) := if_pos hl

theorem OnClock.live {f : Hw → Hw} (hf : OnClock f) : OnClock (Hw.live f) := by
  intro hw
  have hh : hw.clock.halted = hw.halted := rfl
  unfold Hw.live
  rw [hh]
  split_ifs
  · rfl
  · exact hf hw

theorem live_clock {f : Hw → Hw} (hf : OnClock f) (hw : Hw) :
    (hw.clock.live f).clock = (hw.live f).clock := (hf.live hw).symm

theorem OnClockGet.live {f : Hw → U32 × Hw} (hf : OnClockGet f) : OnClockGet (Hw.liveGet f) := by
  intro hw
  have hh : hw.clock.halted = hw.halted := rfl
  unfold Hw.liveGet
  rw [hh]
  split_ifs
  · exact ⟨rfl, rfl⟩
  · exact hf hw

theorem takeSysTick_onClock (b : Board) : OnClock (takeSysTick b) := by
  intro hw
  have hp : hw.clock.pendst = hw.pendst := rfl
  have hm : hw.clock.primask = hw.primask := rfl
  unfold takeSysTick
  rw [hp, hm]
  split_ifs <;> rfl

theorem rtHwInterruptEnable_onClock (b : Board) (level : U32) :
    OnClock (rtHwInterruptEnable b level) :=
  fun hw => takeSysTick_onClock b { hw with primask := level.getLsbD 0 }

theorem pmTimerStart_onClock (timeout : U32) : OnClock (pmTimerStart timeout) := by
  intro hw
  unfold pmTimerStart
  split_ifs <;> rfl

theorem pmTickSet_onClock (b : Board) (ticks : U32) : OnClock (pmTickSet b ticks) := by
  rintro ⟨rtTick, timers, osTickRemain, primask, pendst, reads, halted, log⟩
  -- the interrupts are taken by the mask and the pend bit, which the clock shows
  cases primask <;> cases pendst <;>
    simp [pmTickSet, rtTickSet, rtHwInterruptDisable, rtHwInterruptEnable, takeSysTick,
      sysTickHandler, rtTickIncrease, clock]

theorem pmTimerGetTick_onClock (b : Board) : OnClockGet (pmTimerGetTick b) := fun _ => ⟨rfl, rfl⟩

theorem rtHwInterruptDisable_onClock : OnClockGet rtHwInterruptDisable := fun _ => ⟨rfl, rfl⟩

theorem rtTickGet_onClock : OnClockGet rtTickGet := fun _ => ⟨rfl, rfl⟩

theorem sleep_onClock (m : U8) : OnClock (sleep m) := fun _ => rfl

theorem wake_onClock (b : Board) : OnClock (wake b) := fun _ => pmTickSet_onClock b _ _

/-! ### The mask stays on -/

theorem pmTimerStart_primask {hw : Hw} (hmask : hw.primask = true) (timeout : U32) :
    (hw.pmTimerStart timeout).primask = true := by
  unfold pmTimerStart
  split_ifs <;> exact hmask

theorem live_sleep_primask {hw : Hw} (hmask : hw.primask = true) (m : U8) :
    (hw.live (sleep m)).primask = true := by
  unfold live
  split_ifs <;> exact hmask

/-- With the interrupts off the pended SysTick waits. -/
theorem pmTickSet_masked {hw : Hw} (hmask : hw.primask = true) (b : Board) (ticks : U32) :
    hw.pmTickSet b ticks = { hw with rtTick := ticks, pendst := true } := by
  simp [pmTickSet, rtTickSet, rtHwInterruptDisable, rtHwInterruptEnable, takeSysTick, hmask]

theorem live_wake_primask {hw : Hw} (hmask : hw.primask = true) (b : Board) :
    (hw.live (wake b)).primask = true := by
  unfold live
  split_ifs
  · exact hmask
  · have hstop : (hw.pmTimerGetTick b).2.pmTimerStop.primask = true := hmask
    unfold wake
    dsimp only
    rw [pmTickSet_masked hstop]
    exact hstop

/-! ### What a deep pass amounts to -/

/-- The reload value `pm_timer_start` computes. -/
def reload (timeout : U32) : U32 :=
  let timeout := stm32PmTickFromOsTick rtTickPerSecond stm32LptimGetCountfreq timeout
  if stm32LptimGetTickMax ≤ timeout then stm32LptimGetTickMax else timeout

/-- The start of the low-power timer, unless the time-out is the mark for "no timer". -/
def armed (timeout : U32) : List HwEv :=
  if timeout = rtTickMax then [] else [.lptimStart (reload timeout)]

theorem pmTimerStart_eq {timeout : U32} (hpos : timeout ≠ 0) (hw : Hw) :
    hw.pmTimerStart timeout = { hw with log := hw.log ++ armed timeout } := by
  unfold pmTimerStart armed
  by_cases hmax : timeout = rtTickMax
  · rw [if_neg hpos, if_neg (not_not.2 hmax), if_pos hmax, List.append_nil]
  · rw [if_neg hpos, if_pos hmax, if_neg hmax]
    rfl

/-- The ticks slept and the new remainder, from the counter at wake-up. -/
def slept (b : Board) (hw : Hw) : U32 × U32 :=
  stm32OsTickFromPmTick rtTickPerSecond stm32LptimGetCountfreq hw.osTickRemain (b.counter hw.reads)

/-- The sleep and the wake with the interrupts off. -/
theorem sleepWake_eq {hw : Hw} (hl : hw.halted = false) (hmask : hw.primask = true) (m : U8) :
    (hw.live (sleep m)).live (wake b) = { hw with
      rtTick := hw.rtTick + (slept b hw).1
      osTickRemain := (slept b hw).2
      pendst := true
      reads := hw.reads + 1
      log := hw.log ++ [.sleep m, .lptimStop] } := by
  have hsleep : (hw.live (sleep m)).halted = false := by
    rw [live_of_not_halted hl]
    exact hl
  have hstop : ((hw.sleep m).pmTimerGetTick b).2.pmTimerStop.primask = true := hmask
  rw [live_of_not_halted hsleep, live_of_not_halted hl]
  unfold wake
  dsimp only
  rw [pmTickSet_masked hstop]
  simp only [sleep, pmTimerGetTick, stm32LptimGetCurrentTick, pmTimerStop, stm32LptimStop, record,
    slept, List.append_assoc, List.cons_append, List.nil_append]

/-- The clock when the interrupts are about to be restored. -/
def woken (b : Board) (m : U8) (hw : Hw) : Hw :=
  { hw with
    rtTick := hw.rtTick + (slept b hw).1
    osTickRemain := (slept b hw).2
    primask := true
    pendst := true
    reads := hw.reads + 1
    log := hw.log ++ armed (pmTickMax - hw.rtTick) ++ [.sleep m, .lptimStop] }

/-- **A deep pass that starts the low-power timer** advances the tick by the time slept and leaves
a SysTick to serve when the interrupts come back. -/
theorem deepPass_eq {hw : Hw} (hl : hw.halted = false) (hpos : pmTickMax - hw.rtTick ≠ 0) (m : U8) :
    hw.deepPass b m = rtHwInterruptEnable b (if hw.primask then 1 else 0) (woken b m hw) := by
  unfold deepPass rtHwInterruptDisable
  dsimp only
  rw [pmTimerStart_eq hpos, sleepWake_eq (by exact hl) rfl, live_of_not_halted (by exact hl)]
  simp only [woken, slept, List.append_assoc]

/-- At the last tick of the counter the assertion on the time-out stops the machine. -/
theorem deepPass_halts {hw : Hw} (hzero : pmTickMax - hw.rtTick = 0)
    (m : U8) : hw.deepPass b m = { hw with primask := true, halted := true } := by
  unfold deepPass
  rw [rtHwInterruptDisable]
  dsimp only
  rw [hzero]
  rfl

end Hw

/-- Hooks that leave the clock alone; they may start and stop timers. -/
def Env.KeepsClock (env : Env c Hw) : Prop :=
  ∀ l h m w f, .plat f ∈ env.body l h m w → ∀ hw, (f hw).clock = hw.clock

theorem Env.silent_keepsClock : (Env.silent : Env c Hw).KeepsClock := by
  intro l h m w f hf
  exact absurd hf List.not_mem_nil

namespace World

variable {env : Env c Hw} {w : World c Hw} {m : U8}

/-- The driver's table is in force and the clock shows `a`. -/
structure ClockAt (b : Board) (a : Hw) (w : World c Hw) : Prop where
  ops : w.ops = some (pmOps b)
  clock : w.plat.clock = a

namespace ClockAt

theorem clock_eq (h : ClockAt b a w) : a.clock = a := by
  rw [← h.clock]
  rfl

theorem emit (h : ClockAt b a w) (e : Ev) : ClockAt b a (w.emit e) := ⟨h.ops, h.clock⟩

theorem mapSt (h : ClockAt b a w) (f : Lpms c → Lpms c) : ClockAt b a (w.mapSt f) :=
  ⟨h.ops, h.clock⟩

/-! ## Callbacks -/

theorem callOut {f : Hw → Hw} (h : ClockAt b a w) (sel : LpmsOps Hw → Option (Hw → Hw))
    (hs : sel (pmOps b) = some f) (hf : Hw.OnClock f) (e : Ev) :
    ClockAt b (f a).clock (w.callOut sel e) := by
  have hbind : w.ops.bind sel = some f := by
    rw [h.ops]
    exact hs
  unfold World.callOut
  rw [hbind]
  refine ⟨h.ops, ?_⟩
  rw [← h.clock]
  exact hf w.plat

theorem query {f : Hw → U32 × Hw} (h : ClockAt b a w)
    (sel : LpmsOps Hw → Option (Hw → U32 × Hw)) (hs : sel (pmOps b) = some f)
    (hf : Hw.OnClockGet f) (e : U32 → Ev) (d : U32) :
    (w.query sel e d).1 = (f a).1 ∧ ClockAt b (f a).2.clock (w.query sel e d).2 := by
  have hbind : w.ops.bind sel = some f := by
    rw [h.ops]
    exact hs
  unfold World.query
  rw [hbind, ← h.clock]
  exact ⟨(hf w.plat).1, h.ops, (hf w.plat).2⟩

/-- A callback that only reads. -/
theorem query_read {f : Hw → U32 × Hw} (h : ClockAt b a w)
    (sel : LpmsOps Hw → Option (Hw → U32 × Hw)) (hs : sel (pmOps b) = some (Hw.liveGet f))
    (hf : ∀ hw, (f hw).2 = hw) (e : U32 → Ev) (d : U32) : ClockAt b a (w.query sel e d).2 := by
  have hbind : w.ops.bind sel = some (Hw.liveGet f) := by
    rw [h.ops]
    exact hs
  have hkeep : (w.plat.liveGet f).2 = w.plat := by
    unfold Hw.liveGet
    split_ifs
    · rfl
    · exact hf w.plat
  unfold World.query
  rw [hbind]
  refine ⟨h.ops, ?_⟩
  dsimp only
  rw [hkeep]
  exact h.clock

theorem getTick (h : ClockAt b a w) : ClockAt b a w.pmGetTick.2 :=
  h.query_read (·.systickGet) rfl (fun _ => rfl) .systickGet 0

theorem nextTimeout (h : ClockAt b a w) : ClockAt b a w.pmNextTimeout.2 :=
  h.query_read (·.systickNextTimeout) rfl (fun _ => rfl) .systickNextTimeout pmTickMax

/-- The driver has no deadline source of its own for the low-power timer. -/
theorem lptimerNextTimeout (h : ClockAt b a w) : w.lptimerNextTimeout = (pmTickMax, w) := by
  unfold World.lptimerNextTimeout World.query
  rw [show w.ops.bind (·.lptimNextTimeout) = none by rw [h.ops]; rfl]

theorem getTick_eq (h : ClockAt b a w) (hl : a.halted = false) : w.pmGetTick.1 = a.rtTick := by
  have hq := (h.query (·.systickGet) rfl Hw.rtTickGet_onClock.live .systickGet 0).1
  rw [pmGetTick, hq, Hw.liveGet, hl]
  rfl

theorem irqDisable (h : ClockAt b a w) :
    w.pmIrqDisable.1 = (a.liveGet Hw.rtHwInterruptDisable).1 ∧
      ClockAt b a.masked w.pmIrqDisable.2 := by
  obtain ⟨hlevel, hdis⟩ := h.query (·.irqDisable) rfl
    Hw.rtHwInterruptDisable_onClock.live .irqDisable 0
  have hblind : a.masked.clock = a.masked := by
    rw [← h.clock]
    unfold Hw.masked Hw.liveGet
    split_ifs <;> rfl
  rw [← Hw.masked, hblind] at hdis
  exact ⟨hlevel, hdis⟩

theorem irqEnable (h : ClockAt b a w) (level : U32) :
    ClockAt b (a.live (Hw.rtHwInterruptEnable b level)).clock (w.pmIrqEnable level) :=
  h.callOut (fun o => o.irqEnable.map (· level)) rfl
    (Hw.rtHwInterruptEnable_onClock b level).live _

theorem lptimerStart (h : ClockAt b a w) (timeout : U32) :
    ClockAt b (a.live (Hw.pmTimerStart timeout)).clock (w.lptimerStart timeout) :=
  h.callOut (fun o => o.lptimStart.map (· timeout)) rfl
    (Hw.pmTimerStart_onClock timeout).live _

theorem lptimerStop (h : ClockAt b a w) : ClockAt b (a.live Hw.pmTimerStop).clock w.lptimerStop :=
  h.callOut (·.lptimStop) rfl (Hw.OnClock.live fun _ => rfl) _

theorem lptimerGetTimeout (h : ClockAt b a w) :
    w.lptimerGetTimeout.1 = (a.liveGet (Hw.pmTimerGetTick b)).1 ∧
      ClockAt b (a.liveGet (Hw.pmTimerGetTick b)).2.clock w.lptimerGetTimeout.2 :=
  h.query (·.lptimGetTick) rfl (Hw.pmTimerGetTick_onClock b).live .lptimGetTick pmTickMax

theorem setTick (h : ClockAt b a w) (ticks : U32) :
    ClockAt b (a.live (Hw.pmTickSet b ticks)).clock (w.pmSetTick ticks) :=
  h.callOut (fun o => o.systickSet.map (· ticks)) rfl (Hw.pmTickSet_onClock b ticks).live _

theorem sleep (h : ClockAt b a w) (mode : U8) :
    ClockAt b (a.live (Hw.sleep mode)).clock (w.pmSleep mode) :=
  h.callOut (fun o => o.sleep.map (· mode)) rfl (Hw.OnClock.live fun _ => rfl) _

/-- The driver's `set_freq` does nothing. -/
theorem setFreq (h : ClockAt b a w) (site : FreqSite) (mode : U8) :
    ClockAt b a (w.pmSetFreq site mode) := by
  have hc : ClockAt b (a.live (Hw.stm32SetFreq mode)).clock (w.pmSetFreq site mode) :=
    h.callOut (fun o => o.setFreq.map (· mode)) rfl
      (Hw.OnClock.live (f := Hw.stm32SetFreq mode) fun _ => rfl) _
  have hkeep : a.live (Hw.stm32SetFreq mode) = a := by
    unfold Hw.live
    split_ifs <;> rfl
  rwa [hkeep, h.clock_eq] at hc

end ClockAt

/-! ## Interface calls -/

/-- A locked section puts the mask back, so that nothing is served in it unless a SysTick was
pending and the interrupts were on. -/
theorem locked_clock (hp : a.pendst = false ∨ a.primask = true) {body : World c Hw → World c Hw}
    (hb : ClockAt b a.masked w.pmIrqDisable.2 → ClockAt b a.masked (body w.pmIrqDisable.2))
    (h : ClockAt b a w) : ClockAt b a (w.locked body) := by
  obtain ⟨hlevel, hdis⟩ := h.irqDisable
  have hen := (hb hdis).irqEnable w.pmIrqDisable.1
  have hback : a.masked.live (Hw.rtHwInterruptEnable b w.pmIrqDisable.1) = a := by
    rw [hlevel]
    exact Hw.unmask_masked hp
  rwa [hback, h.clock_eq] at hen

/-- What an interface call keeps while no interrupt can be served: the clock and the sleep mode. -/
theorem call_body (hp : a.pendst = false ∨ a.primask = true) (m : U8) :
    BodyInv (c := c) (·.sleepMode) (fun w => ClockAt b a.masked w ∧ w.st.sleepMode = m)
      (fun w => ClockAt b a w ∧ w.st.sleepMode = m) where
  locked w body hb hw := by
    have hst : w.pmIrqDisable.2.st.sleepMode = m := by rw [pmIrqDisable_st, hw.2]
    refine ⟨locked_clock hp (fun hd => (hb _ ⟨hd, hst⟩).1) hw.1, ?_⟩
    rw [locked_st]
    exact (hb _ ⟨hw.1.irqDisable.2, hst⟩).2
  getTick w hw := ⟨hw.1.getTick, by rw [pmGetTick_st, hw.2]⟩
  mapSt w f hf hw := ⟨hw.1.mapSt f, hf.trans hw.2⟩
  unlocked w f hf hw := ⟨hw.1.mapSt f, hf.trans hw.2⟩

/-- **An interface call leaves the clock as it was**, unless a SysTick waits for interrupts to
come on. -/
theorem call_clock (hp : a.pendst = false ∨ a.primask = true) (f : Call)
    (h : ClockAt b a w ∧ w.st.sleepMode = m) :
    ClockAt b a (w.call f) ∧ (w.call f).st.sleepMode = m := by
  have hexec : ClockAt b a ((w.emit (.enter f)).exec f) ∧
      ((w.emit (.enter f)).exec f).st.sleepMode = m := by
    refine (call_body hp m).exec f (fun s s' hs => sleepMode_of_writes hs) ?_ ⟨h.1.emit _, h.2⟩
    intro _ mode _ _ _ w' _ hw'
    refine ⟨(hw'.1.setFreq .pmFreqRequest mode).mapSt _, ?_⟩
    rw [mapSt_st, pmSetFreq_st]
    exact hw'.2
  exact ⟨hexec.1.emit _, hexec.2⟩

/-- Inside a pass, hooks that keep the clock keep it and the sleep mode. -/
theorem act_clock (hk : env.KeepsClock) (hp : a.pendst = false ∨ a.primask = true) {l : HookList}
    {x : HookId} {mode : U8} {w₀ : World c Hw} {e : HookAct Hw} (he : e ∈ env.body l x mode w₀)
    (h : ClockAt b a w ∧ w.st.sleepMode = m) :
    ClockAt b a (w.act e) ∧ (w.act e).st.sleepMode = m := by
  cases e with
  | call f => exact call_clock hp f h
  | plat f => exact ⟨⟨h.1.ops, (hk _ _ _ _ f he w.plat).trans h.1.clock⟩, h.2⟩

theorem notify_clock (hk : env.KeepsClock) (hp : a.pendst = false ∨ a.primask = true)
    (l : HookList) (mode : U8) (h : ClockAt b a w ∧ w.st.sleepMode = m) :
    ClockAt b a (w.notify env l mode) ∧ (w.notify env l mode).st.sleepMode = m :=
  notify_keeps (P := fun w => ClockAt b a w ∧ w.st.sleepMode = m)
    (fun _ _ _ _ he _ hw => act_clock hk hp he hw) (fun _ _ _ hw => ⟨hw.1.emit _, hw.2⟩) h

/-! ## The blocks of a pass -/

theorem passDecide_clock (h : ClockAt b a w) :
    w.passDecide.1 = (a.liveGet Hw.rtHwInterruptDisable).1 ∧ ClockAt b a.masked w.passDecide.2 := by
  obtain ⟨hlevel, hdis⟩ := h.irqDisable
  have hdecide : DecideInv (c := c) (ClockAt b a.masked) :=
    { getTick := fun _ h => h.getTick
      nextTimeout := fun _ h => h.nextTimeout
      sleepMode := fun _ _ h => h.mapSt _ }
  exact ⟨hlevel, hdecide.passDecide hdis⟩

/-- The low-power timer is started with the time to `PM_TICK_MAX`. -/
theorem deepEnter_clock (hl : a.halted = false) (hd : c.lpmsTicklessDefaultMode ≤ w.st.sleepMode)
    (h : ClockAt b a w) :
    w.deepEnter.1 = true ∧ ClockAt b (a.pmTimerStart (pmTickMax - a.rtTick)).clock w.deepEnter.2 ∧
      w.deepEnter.2.st = w.st := by
  unfold deepEnter
  rw [if_pos hd, h.lptimerNextTimeout]
  dsimp only
  rw [h.getTick_eq hl]
  have hstart := h.getTick.lptimerStart (pmTickMax - a.rtTick)
  rw [Hw.live_of_not_halted hl] at hstart
  refine ⟨rfl, hstart, ?_⟩
  rw [lptimerStart, callOut_st, pmGetTick_st]

/-- After a deep sleep the clock wakes as `Hw.wake` says. -/
theorem deepExit_clock (hd : c.lpmsTicklessDefaultMode ≤ w.st.sleepMode) (h : ClockAt b a w) :
    ClockAt b (a.live (Hw.wake b)).clock (w.deepExit true) := by
  unfold deepExit
  rw [if_pos hd, if_pos rfl]
  dsimp only
  obtain ⟨hdelta, h1⟩ := h.lptimerGetTimeout
  have h2 := h1.lptimerStop
  have h3 := h2.getTick.setTick
    (w.lptimerGetTimeout.2.lptimerStop.pmGetTick.1 + w.lptimerGetTimeout.1)
  cases hl : a.halted with
  | true =>
    -- nothing more happens
    have hc : a.clock.halted = true := hl
    have hcc : a.clock.clock.halted = true := hl
    rw [Hw.liveGet_of_halted hl, Hw.live_of_halted hc, Hw.live_of_halted hcc] at h3
    rw [Hw.live_of_halted hl]
    exact h3
  | false =>
    have hc : (a.pmTimerGetTick b).2.clock.halted = false := hl
    have hs : (a.pmTimerGetTick b).2.clock.pmTimerStop.clock.halted = false := hl
    rw [Hw.liveGet_of_not_halted hl] at h3 hdelta h2
    rw [Hw.live_of_not_halted hc] at h3 h2
    have hnow := h2.getTick_eq hl
    rw [Hw.live_of_not_halted hs, hnow, hdelta] at h3
    rw [Hw.live_of_not_halted hl, hnow, hdelta]
    unfold Hw.wake
    dsimp only
    rw [Hw.pmTickSet_onClock] at h3 ⊢
    exact h3

/-- The sleep between its notifications, then the wake, on a masked clock. -/
theorem sleepWake_clock (hk : env.KeepsClock) (hmask : a.primask = true)
    (hd : c.lpmsTicklessDefaultMode ≤ w.st.sleepMode) (h : ClockAt b a w) :
    ClockAt b ((a.live (Hw.sleep w.st.sleepMode)).live (Hw.wake b)).clock
      (let w := w.lpmsNotifySleep env w.st.sleepMode
       let w := w.pmSleep w.st.sleepMode
       let w := w.lpmsNotifyWakeup env w.st.sleepMode
       w.deepExit true) := by
  unfold lpmsNotifySleep lpmsNotifyWakeup
  dsimp only
  -- the sleep hooks, then the sleep
  obtain ⟨h2, hm2⟩ := notify_clock hk (.inr hmask) .sleep w.st.sleepMode ⟨h, rfl⟩
  generalize w.notify env .sleep w.st.sleepMode = v2 at h2 hm2
  generalize w.st.sleepMode = m at hd hm2 ⊢
  rw [hm2]
  have h3 := h2.sleep m
  have hm3 : (v2.pmSleep m).st.sleepMode = m := by rw [pmSleep, callOut_st, hm2]
  have hp3 := Hw.live_sleep_primask hmask m
  generalize a.live (Hw.sleep m) = a3 at h3 hp3 ⊢
  generalize v2.pmSleep m = v3 at h3 hm3
  rw [hm3]
  -- the wakeup hooks, then the wake
  obtain ⟨h4, hm4⟩ := notify_clock (a := a3.clock) hk (.inr hp3) .wake m ⟨h3, hm3⟩
  generalize v3.notify env .wake m = v4 at h4 hm4
  have hd4 : c.lpmsTicklessDefaultMode ≤ v4.st.sleepMode := by
    rw [hm4]
    exact hd
  have h5 := deepExit_clock hd4 h4
  rwa [Hw.live_clock (Hw.wake_onClock b)] at h5

/-- From the start of the low-power timer to the wake, on a masked clock. -/
theorem passSleep_clock (hk : env.KeepsClock) (hmask : a.primask = true) (hl : a.halted = false)
    (hd : c.lpmsTicklessDefaultMode ≤ w.st.sleepMode) (h : ClockAt b a w) :
    ClockAt b (((a.pmTimerStart (pmTickMax - a.rtTick)).live
      (Hw.sleep w.st.sleepMode)).live (Hw.wake b)).clock (w.passSleep env) := by
  obtain ⟨hflag, h1, hst⟩ := deepEnter_clock hl hd h
  have hp1 := Hw.pmTimerStart_primask hmask (pmTickMax - a.rtTick)
  rw [← Hw.clock_primask] at hp1
  rw [← hst] at hd ⊢
  have h2 := sleepWake_clock hk hp1 hd h1
  rw [Hw.wake_onClock b |>.live, Hw.live_clock (Hw.sleep_onClock _)] at h2
  unfold passSleep
  dsimp only
  rw [hflag]
  rw [(Hw.wake_onClock b).live]
  exact h2

/-- The frequency step keeps a masked clock. -/
theorem pmFreqHandle_clock (hk : env.KeepsClock) (hp : a.pendst = false ∨ a.primask = true)
    (h : ClockAt b a w) : ClockAt b a (w.pmFreqHandle env) := by
  have hkeep : ClockAt b a (w.pmFreqHandle env) ∧
      (w.pmFreqHandle env).st.sleepMode = w.st.sleepMode := by
    refine freqHandle_keeps (P := fun v => ClockAt b a v ∧ v.st.sleepMode = w.st.sleepMode)
      (fun _ hv => ⟨hv.1.emit _, hv.2⟩) (fun _ _ hv => ⟨hv.1.mapSt _, hv.2⟩) ?_
      (fun _ _ _ _ he _ hv => act_clock hk hp he hv) (fun _ _ _ _ hv => ⟨hv.1.emit _, hv.2⟩)
      ⟨h, rfl⟩
    intro v _ hv
    refine ⟨(hv.1.setFreq _ _).mapSt _, ?_⟩
    rw [mapSt_st, pmSetFreq_st]
    exact hv.2
  exact hkeep.1

/-- **A pass in a deep mode, on the clock.** -/
theorem pmRunTickless_clock (hk : env.KeepsClock) (hl : a.halted = false)
    (hen : w.st.enableFlag ≠ 0) (hd : c.lpmsTicklessDefaultMode ≤ w.passDecide.2.st.sleepMode)
    (h : ClockAt b a w) :
    ClockAt b (a.deepPass b w.passDecide.2.st.sleepMode).clock (w.pmRunTickless env) := by
  obtain ⟨hlevel, h1⟩ := passDecide_clock h
  have hmask : a.masked = a.rtHwInterruptDisable.2 := by rw [Hw.masked, Hw.liveGet_of_not_halted hl]
  rw [Hw.liveGet_of_not_halted hl] at hlevel
  rw [hmask] at h1
  have h2 := passSleep_clock (a := a.rtHwInterruptDisable.2) hk rfl hl hd h1
  unfold pmRunTickless
  rw [if_neg hen]
  dsimp only
  have hp1 : (a.rtHwInterruptDisable.2.pmTimerStart
      (pmTickMax - a.rtHwInterruptDisable.2.rtTick)).primask = true :=
    Hw.pmTimerStart_primask rfl _
  have hp2 := Hw.live_wake_primask (Hw.live_sleep_primask hp1 w.passDecide.2.st.sleepMode) b
  rw [← Hw.clock_primask] at hp2
  have h3 := pmFreqHandle_clock hk (.inr hp2) h2
  have h4 := h3.irqEnable w.passDecide.1
  rw [Hw.live_clock (Hw.rtHwInterruptEnable_onClock b _), hlevel] at h4
  rw [hlevel]
  exact h4

end World
end LowPower
