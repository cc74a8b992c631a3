import LowPower.Lib.Counter
import LowPower.Proof.Conversion

/-!
# When the LPTIM wakes and what it reads

The running timer is a counter with auto-reload and compare match (`Lptim.counts_cnt`,
`Lptim.counts_cmpm`).

* `stm32LptimStart_iff`: the LPMS driver loads the reload value into the auto-reload register and
  255 into the compare register, so it wakes when asked only for a reload value of 255.
* `stm32l4LptimStart_wakes`: the PM driver loads them the other way round, and always does.
-/

namespace LowPower

namespace Lptim

variable {t : Lptim} {r : U32}

/-- The first interrupt comes `n` counts from here. -/
def FirstIrqAt (t : Lptim) (n : ℕ) : Prop :=
  (t.counts n).cmpm = true ∧ ∀ e < n, (t.counts e).cmpm = false

/-- The timer has just been started. -/
structure Started (t : Lptim) : Prop where
  enabled : t.enabled = true
  cnt : t.cnt = 0
  cmpm : t.cmpm = false

theorem stm32LptimStart_started (r : U32) (t : Lptim) : (t.stm32LptimStart r).Started :=
  ⟨rfl, rfl, rfl⟩

theorem stm32l4LptimStart_started (r : U32) (t : Lptim) : (t.stm32l4LptimStart r).Started :=
  ⟨rfl, rfl, rfl⟩

/-- Counting leaves the registers alone. -/
theorem counts_regs (t : Lptim) (n : ℕ) :
    (t.counts n).enabled = t.enabled ∧ (t.counts n).arr = t.arr ∧ (t.counts n).cmp = t.cmp := by
  induction n with
  | zero => exact ⟨rfl, rfl, rfl⟩
  | succ n ih =>
    rw [counts, count]
    by_cases hen : (t.counts n).enabled = true
    · rw [if_pos hen]
      exact ih
    · rw [if_neg hen]
      exact ih

/-- One count, while the counter has not run past its period. -/
theorem count_running (hen : t.enabled = true) (hle : t.cnt.toNat ≤ t.arr.toNat) :
    t.count.cnt.toNat = Counter.next t.arr.toNat t.cnt.toNat ∧
      t.count.cmpm = (t.cmpm || t.count.cnt == t.cmp) := by
  unfold count
  rw [if_pos hen]
  refine ⟨?_, rfl⟩
  have harr := t.arr.isLt
  unfold Counter.next
  by_cases hend : t.cnt = t.arr
  · rw [if_pos hend, if_pos (congrArg BitVec.toNat hend)]
    rfl
  · have hne : t.cnt.toNat ≠ t.arr.toNat := fun h => hend (BitVec.eq_of_toNat_eq h)
    rw [if_neg hend, if_neg hne, BitVec.toNat_add]
    have hone : (1 : U16).toNat = 1 := rfl
    exact Nat.mod_eq_of_lt (by omega)

/-- **The timer is the counter.** After `n` counts it shows the value of the counter, and its flag
tells whether the compare value has been reached. -/
theorem counts_counter (h : t.Started) (n : ℕ) :
    (t.counts n).cnt.toNat = Counter.value t.arr.toNat n ∧
      (t.counts n).cmpm = Counter.matched t.arr.toNat t.cmp.toNat n := by
  induction n with
  | zero => exact ⟨congrArg BitVec.toNat h.cnt, h.cmpm⟩
  | succ n ih =>
    obtain ⟨hen, harr, hcmp⟩ := counts_regs t n
    have hle := Counter.value_le t.arr.toNat n
    obtain ⟨hcnt, hflag⟩ := count_running (hen.trans h.enabled) (by rw [ih.1, harr]; exact hle)
    rw [harr, ih.1] at hcnt
    refine ⟨hcnt, ?_⟩
    have hreach : ((t.counts n).count.cnt == t.cmp) =
        (Counter.value t.arr.toNat (n + 1) == t.cmp.toNat) := by
      rw [Counter.value, ← hcnt]
      exact Bool.eq_iff_iff.2 (by rw [beq_iff_eq, beq_iff_eq, BitVec.toNat_inj])
    rw [counts, hflag, ih.2, hcmp, hreach, Counter.matched]

/-- When the first interrupt comes. -/
theorem firstIrqAt_iff (h : t.Started) (hc : 0 < t.cmp.toNat) (n : ℕ) :
    t.FirstIrqAt n ↔ t.cmp.toNat ≤ t.arr.toNat ∧ n = t.cmp.toNat := by
  have hflag : ∀ e, (t.counts e).cmpm = true ↔ t.cmp.toNat ≤ t.arr.toNat ∧ t.cmp.toNat ≤ e :=
    fun e => (counts_counter h e).2 ▸ Counter.matched_iff hc
  unfold FirstIrqAt
  simp only [← Bool.not_eq_true, hflag]
  constructor
  · rintro ⟨⟨hin, hle⟩, hbefore⟩
    refine ⟨hin, ?_⟩
    by_contra hne
    exact hbefore t.cmp.toNat (by omega) ⟨hin, le_rfl⟩
  · rintro ⟨hin, rfl⟩
    exact ⟨⟨hin, le_rfl⟩, fun e he hle => by omega⟩

/-- Within the period a reading tells the counts since the start. -/
theorem halLptimReadCounter_counts (h : t.Started) {e : ℕ} (he : e ≤ t.arr.toNat) :
    (t.counts e).halLptimReadCounter.toNat = e := by
  unfold halLptimReadCounter
  rw [BitVec.toNat_setWidth, (counts_counter h e).1, Counter.value_eq_self he]
  have := t.arr.isLt
  exact Nat.mod_eq_of_lt (by omega)

/-! ## The two drivers -/

/-- A value in the range of the timer fills its register. -/
theorem setWidth_toNat (h : r.toNat ≤ 0xFFFF) : (r.setWidth 16).toNat = r.toNat := by
  rw [BitVec.toNat_setWidth]
  exact Nat.mod_eq_of_lt (by omega)

/-- The LPMS driver interrupts at the 255th count, if the counter gets that far. -/
theorem stm32LptimStart_firstIrqAt (h2 : r.toNat ≤ 0xFFFF) (n : ℕ) :
    (t.stm32LptimStart r).FirstIrqAt n ↔ 255 ≤ r.toNat ∧ n = 255 := by
  have harr : (t.stm32LptimStart r).arr.toNat = r.toNat := setWidth_toNat h2
  have hcmp : (t.stm32LptimStart r).cmp.toNat = 255 := rfl
  rw [firstIrqAt_iff (stm32LptimStart_started r t) (by rw [hcmp]; decide), harr, hcmp]

/-- The LPMS driver reads the time slept, whatever ended the sleep. -/
theorem stm32LptimStart_reads (h2 : r.toNat ≤ 0xFFFF) {e : ℕ} (he : e ≤ r.toNat) :
    ((t.stm32LptimStart r).counts e).stm32LptimGetCurrentTick.toNat = e := by
  have harr : (t.stm32LptimStart r).arr.toNat = r.toNat := setWidth_toNat h2
  exact halLptimReadCounter_counts (stm32LptimStart_started r t) (by omega)

/-- **The LPMS timer wakes when asked** for a reload value of 255 only; what it reads at a wake-up
is right for every reload value. -/
theorem stm32LptimStart_iff (t : Lptim) (r : U32) (h1 : 1 ≤ r.toNat) (h2 : r.toNat ≤ 0xFFFF) :
    ((t.stm32LptimStart r).FirstIrqAt r.toNat ∧
        ∀ e ≤ r.toNat, ((t.stm32LptimStart r).counts e).stm32LptimGetCurrentTick.toNat = e) ↔
      r = 0xff := by
  rw [stm32LptimStart_firstIrqAt h2]
  constructor
  · rintro ⟨⟨_, heq⟩, _⟩
    exact BitVec.eq_of_toNat_eq heq
  · rintro rfl
    exact ⟨⟨le_rfl, rfl⟩, fun e he => stm32LptimStart_reads h2 he⟩

theorem stm32LptimStart_at_255 :
    (reset.stm32LptimStart 0xff).FirstIrqAt 255 ∧
      ∀ e ≤ 255, ((reset.stm32LptimStart 0xff).counts e).stm32LptimGetCurrentTick.toNat = e :=
  (stm32LptimStart_iff reset 0xff (by decide) (by decide)).2 rfl

/-- A sleep of 1024 counts is interrupted after 255. -/
theorem stm32LptimStart_wakes_early :
    ¬∀ (t : Lptim) (r : U32), 1 ≤ r.toNat → r.toNat ≤ 0xFFFF →
      (t.stm32LptimStart r).FirstIrqAt r.toNat ∧
        ∀ e ≤ r.toNat, ((t.stm32LptimStart r).counts e).stm32LptimGetCurrentTick.toNat = e := by
  intro hclaim
  have hwakes := (hclaim reset 1024 (by decide) (by decide)).1
  rw [stm32LptimStart_firstIrqAt (by decide)] at hwakes
  exact absurd hwakes.2 (by decide)

/-- **The PM timer wakes when asked**, and reads the time slept. -/
theorem stm32l4LptimStart_wakes (t : Lptim) (h1 : 1 ≤ r.toNat) (h2 : r.toNat ≤ 0xFFFF) :
    (t.stm32l4LptimStart r).FirstIrqAt r.toNat ∧
      ∀ e ≤ r.toNat, ((t.stm32l4LptimStart r).counts e).stm32l4LptimGetCurrentTick.toNat = e := by
  have harr : (t.stm32l4LptimStart r).arr.toNat = 0xFFFF := rfl
  have hcmp : (t.stm32l4LptimStart r).cmp.toNat = r.toNat := setWidth_toNat h2
  refine ⟨?_, fun e he => halLptimReadCounter_counts (stm32l4LptimStart_started r t) (by omega)⟩
  rw [firstIrqAt_iff (stm32l4LptimStart_started r t) (by omega), harr, hcmp]
  exact ⟨h2, rfl⟩

end Lptim

/-! ## A full sleep -/

/-- What either driver hands over is in the range of the timer. -/
theorem Driver.Hands.le {d : Driver} {perSecond timeout : U32} {n : ℕ}
    (h : d.Hands perSecond timeout n) : n ≤ 0xFFFF := by
  obtain ⟨reload, heq, rfl⟩ := h
  by_cases h0 : timeout = 0
  · subst h0
    cases d <;> exact TimerStart.noConfusion heq
  by_cases hmax : timeout = rtTickMax
  · subst hmax
    cases d <;> exact TimerStart.noConfusion heq
  rw [Driver.Hands.unique ⟨reload, heq, rfl⟩ (d.hands_clamped perSecond h0 hmax)]
  exact min_le_right _ _

/-- Both timers read the whole count after a sleep that lasted as long as asked. -/
theorem full_sleep_reads {d : Driver} {perSecond timeout reload : U32} (t : Lptim)
    (h : d.Hands perSecond timeout reload.toNat) :
    ((t.stm32LptimStart reload).counts reload.toNat).stm32LptimGetCurrentTick = reload ∧
      ((t.stm32l4LptimStart reload).counts reload.toNat).stm32l4LptimGetCurrentTick = reload := by
  have harr : (t.stm32l4LptimStart reload).arr.toNat = 0xFFFF := rfl
  have hle := h.le
  constructor
  · exact BitVec.eq_of_toNat_eq (Lptim.stm32LptimStart_reads hle le_rfl)
  · exact BitVec.eq_of_toNat_eq
      (Lptim.halLptimReadCounter_counts (Lptim.stm32l4LptimStart_started reload t) (by omega))

end LowPower
