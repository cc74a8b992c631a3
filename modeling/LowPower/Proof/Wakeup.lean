import LowPower.Proof.Clock

/-!
# The wake-up after a deep pass

Does the low-power timer wake the machine by the earliest timer deadline? The driver has no
deadline source of its own, so the time-out is the time to `PM_TICK_MAX`, whatever timers are
active: `reload_toNat` gives the count after the 32-bit conversion and the clamp,
`deepPass_log` what the pass does to the low-power timer. Together they say when the wake-up
comes in time (`pmRunTickless_wakesBy_iff`).
-/

namespace LowPower

variable {c : Config} {b : Board}

namespace Hw

/-- The ticks from now to the earliest deadline of an active timer. -/
def earliest (hw : Hw) (h : hw.timers ≠ []) : ℕ :=
  (hw.timers.map fun t => (t - hw.rtTick).toNat).min fun hnil => h (List.map_eq_nil_iff.1 hnil)

/-- The low-power timer is started before the sleep, with a count that runs out within `d`
ticks. -/
def WakesBy (d : ℕ) (es : List HwEv) : Prop :=
  ∃ n m, List.Sublist [.lptimStart n, .sleep m] es ∧
    n.toNat ≤ stm32LptimGetCountfreq.toNat * d / rtTickPerSecond.toNat

theorem wakesBy_started (d : ℕ) (n : U32) (m : U8) :
    WakesBy d [.lptimStart n, .sleep m, .lptimStop] ↔ n.toNat ≤ 1024 * d / 1000 := by
  constructor
  · rintro ⟨n', m', hsub, hle⟩
    have hmem : HwEv.lptimStart n' ∈ [HwEv.lptimStart n, .sleep m, .lptimStop] :=
      hsub.subset List.mem_cons_self
    obtain rfl : n' = n := by simpa using hmem
    exact hle
  · intro hle
    refine ⟨n, m, ?_, hle⟩
    exact List.sublist_append_left [HwEv.lptimStart n, .sleep m] [.lptimStop]

theorem not_wakesBy {d : ℕ} {es : List HwEv} (hno : ∀ n, .lptimStart n ∉ es) : ¬WakesBy d es := by
  rintro ⟨n, m, hsub, -⟩
  exact hno n (hsub.subset List.mem_cons_self)

/-! ## The count -/

/-- The conversion wraps after 2^22 ticks. -/
theorem reload_toNat (t : U32) :
    (reload t).toNat = min (1024 * (t.toNat % 2 ^ 22) / 1000) 65535 := by
  have hwrap : stm32LptimGetCountfreq.toNat * t.toNat % 2 ^ 32 = 1024 * (t.toNat % 2 ^ 22) :=
    Nat.mul_mod_mul_left 1024 t.toNat (2 ^ 22)
  unfold reload
  dsimp only
  rw [clampLe_toNat, stm32PmTickFromOsTick_toNat, hwrap]
  rfl

/-- The ticks left to `PM_TICK_MAX`, as far as the conversion sees them. -/
theorem timeLeft_mod (now : U32) :
    (pmTickMax - now).toNat % 2 ^ 22 = 2 ^ 22 - 1 - now.toNat % 2 ^ 22 := by
  have hmax : pmTickMax.toNat = 2 ^ 32 - 1 := rfl
  have hlt := now.isLt
  rw [BitVec.toNat_sub, hmax]
  omega

theorem timeLeft_eq_zero (now : U32) : pmTickMax - now = 0 ↔ now = pmTickMax := by
  constructor <;> intro h <;> bv_omega

theorem timeLeft_eq_max (now : U32) : pmTickMax - now = rtTickMax ↔ now = 0 := by
  constructor <;> intro h <;> bv_omega

/-! ## The events of the pass -/

theorem rtHwInterruptEnable_log (b : Board) (level : U32) (hw : Hw) :
    (hw.rtHwInterruptEnable b level).log = hw.log := by
  unfold rtHwInterruptEnable takeSysTick
  split_ifs <;> rfl

/-- A deep pass starts the low-power timer, sleeps and stops it; at tick 0 the time-out is the mark
for "no timer", and at the last tick the machine stops before the sleep. -/
theorem deepPass_log {hw : Hw} (hl : hw.halted = false) (m : U8) :
    (hw.deepPass b m).log = hw.log ++
      if hw.rtTick = pmTickMax then []
      else armed (pmTickMax - hw.rtTick) ++ [.sleep m, .lptimStop] := by
  split_ifs with hmax
  · rw [deepPass_halts ((timeLeft_eq_zero _).2 hmax), List.append_nil]
  · have hpos : pmTickMax - hw.rtTick ≠ 0 := fun hzero => hmax ((timeLeft_eq_zero _).1 hzero)
    rw [deepPass_eq hl hpos, rtHwInterruptEnable_log]
    simp only [woken, List.append_assoc]

/-- **Whether a deep pass wakes in time**, from the tick alone. -/
theorem deepPass_wakesBy_iff {hw : Hw} (hl : hw.halted = false) (m : U8) (d : ℕ) :
    WakesBy d ((hw.deepPass b m).log.drop hw.log.length) ↔
      hw.rtTick ≠ 0 ∧ hw.rtTick ≠ pmTickMax ∧
        (1024 * (2 ^ 22 - 1 - hw.rtTick.toNat % 2 ^ 22) / 1000 ≤ 1024 * d / 1000 ∨
          65535 ≤ 1024 * d / 1000) := by
  rw [deepPass_log hl, List.drop_left]
  by_cases hmax : hw.rtTick = pmTickMax
  · rw [if_pos hmax]
    exact iff_of_false (not_wakesBy fun _ => List.not_mem_nil) fun h => h.2.1 hmax
  rw [if_neg hmax]
  by_cases hzero : hw.rtTick = 0
  · have harm : armed (pmTickMax - hw.rtTick) = [] := by
      rw [hzero]
      rfl
    rw [harm]
    exact iff_of_false (not_wakesBy (by simp)) fun h => h.1 hzero
  · have hne : pmTickMax - hw.rtTick ≠ rtTickMax := fun he => hzero ((timeLeft_eq_max _).1 he)
    rw [armed, if_neg hne]
    have hn := reload_toNat (pmTickMax - hw.rtTick)
    rw [timeLeft_mod] at hn
    refine (wakesBy_started d _ m).trans ?_
    rw [hn]
    constructor
    · intro hle
      exact ⟨hzero, hmax, by omega⟩
    · rintro ⟨-, -, hle⟩
      omega

end Hw

namespace World

variable {env : Env c Hw} {w : World c Hw}

/-- **Wake-up by the earliest deadline.** A deep pass of the shipped driver wakes the machine by the
earliest deadline of an active timer exactly when the tick is neither 0 nor the last one and the
ticks to the next multiple of 2^22, or else the longest count, fit before the deadline. -/
theorem pmRunTickless_wakesBy_iff (hk : env.KeepsClock) (ho : w.ops = some (pmOps b))
    (hl : w.plat.halted = false) (hen : w.st.enableFlag ≠ 0)
    (hd : c.lpmsTicklessDefaultMode ≤ w.passDecide.2.st.sleepMode) (ht : w.plat.timers ≠ []) :
    Hw.WakesBy (w.plat.earliest ht) ((w.pmRunTickless env).plat.log.drop w.plat.log.length) ↔
      w.plat.rtTick ≠ 0 ∧ w.plat.rtTick ≠ pmTickMax ∧
        (1024 * (2 ^ 22 - 1 - w.plat.rtTick.toNat % 2 ^ 22) / 1000 ≤
            1024 * w.plat.earliest ht / 1000 ∨
          65535 ≤ 1024 * w.plat.earliest ht / 1000) := by
  have hpass := pmRunTickless_clock hk ((Hw.clock_halted _).trans hl) hen hd ⟨ho, rfl⟩
  have hlog := congrArg Hw.log hpass.clock
  have hiff := Hw.deepPass_wakesBy_iff (b := b) ((Hw.clock_halted _).trans hl)
    w.passDecide.2.st.sleepMode (w.plat.earliest ht)
  rw [Hw.clock_log, Hw.clock_log] at hlog
  rw [Hw.clock_log, Hw.clock_rtTick] at hiff
  rw [hlog]
  exact hiff

/-- 101 ticks before a multiple of 2^22 a timer 200 ticks ahead is met. -/
theorem pmRunTickless_wakesBy_before_wrap :
    let w := (start Config.shipped (pmOps .still) pmFreqHigh (.boot 4194203 [4194403])).run .silent
      [.call .lpmsEnable]
    Hw.WakesBy 200 ((w.pmRunTickless .silent).plat.log.drop w.plat.log.length) := by
  intro w
  have ht : w.plat.timers ≠ [] := by decide +kernel
  have hearliest : ∀ h, w.plat.earliest h = 200 := by decide +kernel
  have hiff := pmRunTickless_wakesBy_iff (b := .still) (w := w) Env.silent_keepsClock (run_ops _ _)
    (by decide +kernel) (by decide +kernel) (by decide +kernel) ht
  rw [hearliest] at hiff
  have hnow : w.plat.rtTick = 4194203 := by decide +kernel
  rw [hnow] at hiff
  exact hiff.2 (by decide)

/-- At tick 1000 with a timer 10 ticks ahead the low-power timer is started with the longest
count. -/
theorem pmRunTickless_wakes_late :
    ¬∀ (w : World Config.shipped Hw) (ht : w.plat.timers ≠ []), w.ops = some (pmOps .still) →
      w.plat.halted = false → w.st.enableFlag ≠ 0 →
      Config.shipped.lpmsTicklessDefaultMode ≤ w.passDecide.2.st.sleepMode →
      Config.shipped.lpmsTicklessThresholdTime.toNat < w.plat.earliest ht →
      w.plat.earliest ht < 2 ^ 31 →
      Hw.WakesBy (w.plat.earliest ht)
        ((w.pmRunTickless .silent).plat.log.drop w.plat.log.length) := by
  intro hclaim
  let w := (start Config.shipped (pmOps .still) pmFreqHigh (.boot 1000 [1010])).run .silent
    [.call .lpmsEnable]
  have ht : w.plat.timers ≠ [] := by decide +kernel
  have hearliest : ∀ h, w.plat.earliest h = 10 := by decide +kernel
  have hwakes := hclaim w ht (run_ops _ _) (by decide +kernel) (by decide +kernel)
    (by decide +kernel) (by rw [hearliest]; decide) (by rw [hearliest]; decide)
  have hlog : (w.pmRunTickless .silent).plat.log.drop w.plat.log.length =
      [.lptimStart 65535, .sleep pmSleepDeep, .lptimStop] := by decide +kernel
  rw [hearliest, hlog, Hw.wakesBy_started] at hwakes
  exact absurd hwakes (by decide)

end World

end LowPower
