import LowPower.Lib.Scale
import LowPower.Spec.Lptim
import LowPower.Proof.Compensation

/-!
# Timeouts and counts

`pm_timer_start` converts an OS timeout to LPTIM counts: the product with the count frequency is
formed in 32 bits, divided, and clamped to 16 bits.

* `Driver.hands_clamped`: the count handed to the timer, with the product reduced modulo 2^32.
* `Driver.pmTimerStart_count_iff`: it is the exact count unless the product has wrapped into a
  value below the range of the timer (`Convertible`).
* `fullSleeps_compensate`: full sleeps converted back, with the remainder carried.
-/

namespace LowPower

variable {perSecond freq t : U32}

/-- The two drivers. -/
inductive Driver where
  | lpmsDrv
  | drvPm
deriving DecidableEq, Repr

def Driver.countfreq : Driver → U32
  | lpmsDrv => stm32LptimGetCountfreq
  | drvPm => stm32l4LptimGetCountfreq

def Driver.pmTickFromOsTick : Driver → U32 → U32 → U32
  | lpmsDrv => LpmsDrv.stm32PmTickFromOsTick
  | drvPm => DrvPm.stm32l4PmTickFromOsTick

def Driver.osTickFromPmTick : Driver → U32 → U32 → U32 → U32 × U32
  | lpmsDrv => LpmsDrv.stm32OsTickFromPmTick
  | drvPm => DrvPm.stm32l4OsTickFromPmTick

def Driver.pmTimerStart : Driver → U32 → U32 → TimerStart
  | lpmsDrv => LpmsDrv.pmTimerStart
  | drvPm => DrvPm.pmTimerStart

/-- `pm_timer_start` hands the count `n` to the LPTIM. -/
def Driver.Hands (d : Driver) (perSecond timeout : U32) (n : ℕ) : Prop :=
  ∃ reload : U32, d.pmTimerStart perSecond timeout = .start reload ∧ reload.toNat = n

/-- The count a timeout stands for, clamped to the range of the timer. -/
def exactCount (perSecond freq timeout : U32) : ℕ :=
  min (Scale.scale freq.toNat perSecond.toNat timeout.toNat) 0xFFFF

/-- The product fits into 32 bits, or what is left of it is still above the range. -/
def Convertible (perSecond freq timeout : U32) : Prop :=
  freq.toNat * timeout.toNat < 2 ^ 32 ∨
    0xFFFF * perSecond.toNat ≤ freq.toNat * timeout.toNat % 2 ^ 32

instance : Decidable (Convertible perSecond freq t) :=
  inferInstanceAs (Decidable (_ ∨ _))

/-! ## One timeout -/

theorem clampLt_toNat (x m : U32) : (if m < x then m else x).toNat = min x.toNat m.toNat := by
  split_ifs with h
  · have hlt := BitVec.lt_def.1 h
    omega
  · have hle : ¬m.toNat < x.toNat := fun hlt => h (BitVec.lt_def.2 hlt)
    omega

namespace Driver

variable {d : Driver}

/-- The two clamps agree, whichever comparison they use. -/
theorem hands_clamped (d : Driver) (perSecond : U32) (h0 : t ≠ 0) (hmax : t ≠ rtTickMax) :
    d.Hands perSecond t (min (d.countfreq.toNat * t.toNat % 2 ^ 32 / perSecond.toNat) 0xFFFF) := by
  have hcount := stm32PmTickFromOsTick_toNat perSecond d.countfreq t
  have hmaxNat : stm32LptimGetTickMax.toNat = 0xFFFF := rfl
  rw [← hcount, ← hmaxNat]
  cases d with
  | lpmsDrv =>
    refine ⟨_, ?_, clampLe_toNat _ _⟩
    change LpmsDrv.pmTimerStart perSecond t = _
    unfold LpmsDrv.pmTimerStart
    rw [if_neg h0, if_pos hmax]
    rfl
  | drvPm =>
    refine ⟨_, ?_, clampLt_toNat _ _⟩
    change DrvPm.pmTimerStart perSecond t = _
    unfold DrvPm.pmTimerStart
    rw [if_neg h0, if_pos hmax]
    rfl

theorem Hands.unique {n n' : ℕ} (h : d.Hands perSecond t n) (h' : d.Hands perSecond t n') :
    n = n' := by
  obtain ⟨reload, heq, rfl⟩ := h
  obtain ⟨reload', heq', rfl⟩ := h'
  exact congrArg BitVec.toNat (TimerStart.start.inj (heq.symm.trans heq'))

/-- **The count is exact** unless the product has wrapped below the range of the timer. -/
theorem hands_exact_iff (d : Driver) (perSecond : U32) (h0 : t ≠ 0) (hmax : t ≠ rtTickMax) :
    d.Hands perSecond t (exactCount perSecond d.countfreq t) ↔
      Convertible perSecond d.countfreq t := by
  have hhands := hands_clamped d perSecond h0 hmax
  have hiff : min (d.countfreq.toNat * t.toNat % 2 ^ 32 / perSecond.toNat) 0xFFFF =
      exactCount perSecond d.countfreq t ↔ Convertible perSecond d.countfreq t :=
    Scale.clamped_iff perSecond.isLt
  rw [← hiff]
  constructor
  · exact hhands.unique
  · intro heq
    exact heq ▸ hhands

theorem one_le_countfreq (d : Driver) : 1000 ≤ d.countfreq.toNat := by
  cases d <;> decide

/-- **The converted timeout.** The count handed over is the exact one exactly when the timeout is
convertible; on convertible timeouts it is monotone, and at 1000 ticks a second it is not zero. -/
theorem pmTimerStart_count_iff (d : Driver) (perSecond t : U32) (h1 : 1 ≤ t)
    (hmax : t < rtTickMax) :
    (d.Hands perSecond t (exactCount perSecond d.countfreq t) ↔
        Convertible perSecond d.countfreq t) ∧
      (Convertible perSecond d.countfreq t → ∀ t' n n', 1 ≤ t' → t' ≤ t →
        Convertible perSecond d.countfreq t' → d.Hands perSecond t' n' → d.Hands perSecond t n →
        n' ≤ n) ∧
      (Convertible perSecond d.countfreq t → perSecond = 1000 → ∀ n, d.Hands perSecond t n →
        n ≠ 0) := by
  have hexact : ∀ {s : U32}, 1 ≤ s → s < rtTickMax → (d.Hands perSecond s
      (exactCount perSecond d.countfreq s) ↔ Convertible perSecond d.countfreq s) := by
    intro s hs hsmax
    refine hands_exact_iff d perSecond ?_ (BitVec.ne_of_lt hsmax)
    rintro rfl
    exact absurd hs (by decide)
  refine ⟨hexact h1 hmax, ?_, ?_⟩
  · intro hconv t' n n' h1' hle hconv' hn' hn
    have hmax' : t' < rtTickMax :=
      BitVec.lt_def.2 (lt_of_le_of_lt (BitVec.le_def.1 hle) (BitVec.lt_def.1 hmax))
    have ht' := (hexact h1' hmax').2 hconv'
    have ht := (hexact h1 hmax).2 hconv
    rw [hn'.unique ht', hn.unique ht]
    exact min_le_min_right _ (Scale.scale_mono _ _ (BitVec.le_def.1 hle))
  · rintro hconv rfl n hn
    have ht := (hexact h1 hmax).2 hconv
    have hpos : 1 ≤ t.toNat := BitVec.le_def.1 h1
    have hscale := Scale.le_scale (by decide : 0 < 1000) (one_le_countfreq d) t.toNat
    rw [hn.unique ht]
    exact (lt_min (lt_of_lt_of_le hpos hscale) (by decide)).ne'

theorem pmTimerStart_count_at_100 :
    (Driver.lpmsDrv.Hands 1000 100 (exactCount 1000 stm32LptimGetCountfreq 100) ↔
        Convertible 1000 stm32LptimGetCountfreq 100) ∧
      Convertible 1000 stm32LptimGetCountfreq 100 :=
  ⟨(pmTimerStart_count_iff .lpmsDrv 1000 100 (by decide) (by decide)).1, by decide⟩

/-- At 1024 Hz a timeout of 4194304 ticks, a bit over an hour, is converted to no count at all. -/
theorem pmTimerStart_count_wraps :
    ¬∀ (d : Driver) (perSecond t : U32), 1 ≤ t → t < rtTickMax →
      d.Hands perSecond t (exactCount perSecond d.countfreq t) := by
  intro hclaim
  have hexact := hclaim .lpmsDrv 1000 4194304 (by decide) (by decide)
  rw [hands_exact_iff _ _ (by decide) (by decide)] at hexact
  exact absurd hexact (by decide)

end Driver

/-! ## Successive sleeps -/

/-- Sleeps that last their whole timeout: each timeout is converted, counted to the end and
converted back, with the static remainder. -/
def fullSleeps (d : Driver) (perSecond : U32) : U32 → List U32 → List U32
  | _, [] => []
  | remain, t :: ts =>
    let (ret, remain) := d.osTickFromPmTick perSecond remain (d.pmTickFromOsTick perSecond t)
    ret :: fullSleeps d perSecond remain ts

section FullSleeps

variable {d : Driver} {remain : U32} {ts : List U32}

theorem fullSleeps_take (d : Driver) (perSecond remain : U32) (ts : List U32) (k : ℕ) :
    (fullSleeps d perSecond remain ts).take k = fullSleeps d perSecond remain (ts.take k) := by
  induction ts generalizing remain k with
  | nil => simp [fullSleeps]
  | cons t ts ih =>
    cases k with
    | zero => simp [fullSleeps]
    | succ k => simp [fullSleeps, ih]

/-- A short timeout is converted without wrapping. -/
theorem Driver.pmTickFromOsTick_short (d : Driver)
    (hc : Scale.scale d.countfreq.toNat 1000 t.toNat < 0xFFFF) :
    (d.pmTickFromOsTick 1000 t).toNat = Scale.scale d.countfreq.toNat 1000 t.toNat := by
  have hconv : d.pmTickFromOsTick 1000 t = stm32PmTickFromOsTick 1000 d.countfreq t := by
    cases d <;> rfl
  have hfit : d.countfreq.toNat * t.toNat < 2 ^ 32 := by
    unfold Scale.scale at hc
    rw [Nat.div_lt_iff_lt_mul (by decide)] at hc
    omega
  rw [hconv, stm32PmTickFromOsTick_toNat, Nat.mod_eq_of_lt hfit]
  rfl

/-- One full sleep pays the count it slept. -/
theorem Driver.osTickFromPmTick_full (d : Driver) (hr : remain.toNat < d.countfreq.toNat)
    (hc : Scale.scale d.countfreq.toNat 1000 t.toNat < 0xFFFF) :
    (d.osTickFromPmTick 1000 remain (d.pmTickFromOsTick 1000 t)).1.toNat =
        Carry.pay d.countfreq.toNat remain.toNat
          (1000 * Scale.scale d.countfreq.toNat 1000 t.toNat) ∧
      (d.osTickFromPmTick 1000 remain (d.pmTickFromOsTick 1000 t)).2.toNat =
        Carry.keep d.countfreq.toNat remain.toNat
          (1000 * Scale.scale d.countfreq.toNat 1000 t.toNat) := by
  have hcount := d.pmTickFromOsTick_short hc
  have hback : d.osTickFromPmTick 1000 = stm32OsTickFromPmTick 1000 d.countfreq := by
    cases d <;> rfl
  have hF : d.countfreq.toNat ≤ 1024 := by cases d <;> decide
  rw [hback, ← hcount]
  exact stm32OsTickFromPmTick_eq (by decide) hF hr (by omega)

/-- The ticks a list of full sleeps pays. -/
theorem fullSleeps_sum (d : Driver) (hr : remain.toNat < d.countfreq.toNat)
    (hc : ∀ t ∈ ts, Scale.scale d.countfreq.toNat 1000 t.toNat < 0xFFFF) :
    ((fullSleeps d 1000 remain ts).map BitVec.toNat).sum =
      Carry.paid d.countfreq.toNat remain.toNat
        ((ts.map BitVec.toNat).map fun t => 1000 * Scale.scale d.countfreq.toNat 1000 t) := by
  induction ts generalizing remain with
  | nil => rfl
  | cons t ts ih =>
    rw [List.forall_mem_cons] at hc
    obtain ⟨hpay, hkeep⟩ := d.osTickFromPmTick_full hr hc.1
    have hlt : Carry.keep d.countfreq.toNat remain.toNat
        (1000 * Scale.scale d.countfreq.toNat 1000 t.toNat) < d.countfreq.toNat :=
      Nat.mod_lt _ (lt_of_lt_of_le (by decide) d.one_le_countfreq)
    have hrest := ih (hkeep ▸ hlt) hc.2
    rw [fullSleeps, List.map_cons, List.sum_cons, hpay, hrest, hkeep]
    rfl

/-- Each result loses at most one tick. -/
theorem fullSleeps_each (d : Driver) (hr : remain.toNat < d.countfreq.toNat)
    (hc : ∀ t ∈ ts, Scale.scale d.countfreq.toNat 1000 t.toNat < 0xFFFF) :
    List.Forall₂ (fun t ret => ret.toNat ≤ t.toNat ∧ t.toNat ≤ ret.toNat + 1) ts
      (fullSleeps d 1000 remain ts) := by
  induction ts generalizing remain with
  | nil => exact .nil
  | cons t ts ih =>
    rw [List.forall_mem_cons] at hc
    obtain ⟨hpay, hkeep⟩ := d.osTickFromPmTick_full hr hc.1
    have hF := d.one_le_countfreq
    have hone := Scale.pay_scale (by decide) hF hr t.toNat
    have hlt : Carry.keep d.countfreq.toNat remain.toNat
        (1000 * Scale.scale d.countfreq.toNat 1000 t.toNat) < d.countfreq.toNat :=
      Nat.mod_lt _ (lt_of_lt_of_le (by decide) hF)
    exact .cons (hpay ▸ hone) (ih (hkeep ▸ hlt) hc.2)

/-- At 1000 counts a second every full sleep is paid in full. -/
theorem fullSleeps_drvPm (hr : remain.toNat < 1000)
    (hc : ∀ t ∈ ts, Scale.scale 1000 1000 t.toNat < 0xFFFF) :
    fullSleeps .drvPm 1000 remain ts = ts := by
  induction ts generalizing remain with
  | nil => rfl
  | cons t ts ih =>
    rw [List.forall_mem_cons] at hc
    obtain ⟨hpay, hkeep⟩ := Driver.drvPm.osTickFromPmTick_full hr hc.1
    have hone := Scale.pay_scale_self (by decide) hr t.toNat
    have hlt : Carry.keep 1000 remain.toNat (1000 * Scale.scale 1000 1000 t.toNat) < 1000 :=
      Nat.mod_lt _ (by decide)
    have hhead := BitVec.eq_of_toNat_eq (hpay.trans hone)
    rw [fullSleeps]
    exact congrArg₂ List.cons hhead (ih (hkeep ▸ hlt) hc.2)

/-- **Compensation after full sleeps.** With any remainder to start from, each sleep pays its
timeout or one tick less, and no prefix pays more than it slept; at 1000 counts a second each
pays exactly its timeout. -/
theorem fullSleeps_compensate (remain remain' : U32) (hr : remain.toNat < 1024)
    (hr' : remain'.toNat < 1000) (ts : List U32) :
    ((∀ t ∈ ts, 1024 * t.toNat / 1000 < 0xFFFF) →
      List.Forall₂ (fun t ret => ret.toNat = t.toNat ∨ ret.toNat + 1 = t.toNat) ts
          (fullSleeps .lpmsDrv 1000 remain ts) ∧
        ∀ k, (((fullSleeps .lpmsDrv 1000 remain ts).take k).map BitVec.toNat).sum ≤
          ((ts.take k).map BitVec.toNat).sum) ∧
      ((∀ t ∈ ts, 1000 * t.toNat / 1000 < 0xFFFF) → fullSleeps .drvPm 1000 remain' ts = ts) := by
  refine ⟨fun hc => ⟨?_, ?_⟩, fullSleeps_drvPm hr'⟩
  · refine (fullSleeps_each .lpmsDrv hr hc).imp fun t ret hret => ?_
    omega
  · intro k
    have htake : ∀ t ∈ ts.take k, 1024 * t.toNat / 1000 < 0xFFFF := fun t ht =>
      hc t (List.mem_of_mem_take ht)
    rw [fullSleeps_take, fullSleeps_sum .lpmsDrv hr htake]
    exact Scale.paid_scale_le (by decide) hr _

theorem fullSleeps_compensate_short :
    fullSleeps .lpmsDrv 1000 0 [100, 7, 1] = [99, 7, 1] ∧
      List.Forall₂ (fun t ret : U32 => ret.toNat = t.toNat ∨ ret.toNat + 1 = t.toNat) [100, 7, 1]
          (fullSleeps .lpmsDrv 1000 0 [100, 7, 1]) ∧
      fullSleeps .drvPm 1000 0 [100, 7, 1] = [100, 7, 1] := by
  have hboth := fullSleeps_compensate 0 0 (by decide) (by decide) [100, 7, 1]
  exact ⟨by decide, (hboth.1 (by simp)).1, hboth.2 (by simp)⟩

end FullSleeps

end LowPower
