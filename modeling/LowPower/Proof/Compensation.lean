import LowPower.Lib.Carry
import LowPower.Proof.Clock
import Mathlib.Algebra.BigOperators.Ring.List
import Mathlib.Algebra.Ring.Nat

/-!
# Clock compensation over runs

After a deep sleep the driver converts the LPTIM count to system ticks and carries the remainder
(`stm32OsTickFromPmTick_eq`, an instance of `Carry`), so over a run the conversions add up to the
floor of the total (`osTicks_exact`). But `pm_tick_set` also pends a SysTick, and its handler counts
one more tick when the interrupts come back: `deepPass_awake` for one pass, `run_awake` for a run of
passes and interface calls. So the tick drifts by one for each pass (`run_compensation_iff`).
-/

namespace LowPower

variable {c : Config} {b : Board}

/-- The conversion is one payment with the static remainder; nothing overflows. -/
theorem stm32OsTickFromPmTick_eq {perSecond freq remain tick : U32} (hT : perSecond.toNat ≤ 65535)
    (hF : freq.toNat ≤ 1024) (hr : remain.toNat < freq.toNat) (ht : tick.toNat ≤ 0xFFFF) :
    (stm32OsTickFromPmTick perSecond freq remain tick).1.toNat =
        Carry.pay freq.toNat remain.toNat (perSecond.toNat * tick.toNat) ∧
      (stm32OsTickFromPmTick perSecond freq remain tick).2.toNat =
        Carry.keep freq.toNat remain.toNat (perSecond.toNat * tick.toNat) := by
  have hprod : perSecond.toNat * tick.toNat ≤ 65535 * 65535 := Nat.mul_le_mul hT ht
  have hmul : (tick * perSecond).toNat = perSecond.toNat * tick.toNat := by
    rw [BitVec.toNat_mul, Nat.mul_comm, Nat.mod_eq_of_lt (by omega)]
  have hadd : (tick * perSecond + remain).toNat = perSecond.toNat * tick.toNat + remain.toNat := by
    rw [BitVec.toNat_add, hmul, Nat.mod_eq_of_lt (by omega)]
  unfold stm32OsTickFromPmTick Carry.pay Carry.keep
  rw [BitVec.toNat_udiv, BitVec.toNat_umod, BitVec.add_comm remain, hadd,
    Nat.add_comm remain.toNat]
  exact ⟨rfl, rfl⟩

/-! ## Successive conversions -/

/-- The conversions of a list of counts, one after the other: the results and the static remainder
left. -/
def osTicks (perSecond freq : U32) : U32 → List U32 → List U32 × U32
  | remain, [] => ([], remain)
  | remain, c :: cs =>
    let (ret, remain) := stm32OsTickFromPmTick perSecond freq remain c
    let (rets, remain) := osTicks perSecond freq remain cs
    (ret :: rets, remain)

section Successive

variable {perSecond freq remain : U32} {cs : List U32}

/-- The first `k` results are those of the first `k` counts. -/
theorem osTicks_take (perSecond freq remain : U32) (cs : List U32) (k : ℕ) :
    (osTicks perSecond freq remain cs).1.take k =
      (osTicks perSecond freq remain (cs.take k)).1 := by
  induction cs generalizing remain k with
  | nil => simp [osTicks]
  | cons c cs ih =>
    cases k with
    | zero => rfl
    | succ k => simp [osTicks, ih]

/-- The results add up to a stream of payments, and the remainder is the one it keeps. -/
theorem osTicks_eq (hT : perSecond.toNat ≤ 65535) (hF : freq.toNat ≤ 1024)
    (hr : remain.toNat < freq.toNat) (hc : ∀ c ∈ cs, c.toNat ≤ 0xFFFF) :
    ((osTicks perSecond freq remain cs).1.map BitVec.toNat).sum =
        Carry.paid freq.toNat remain.toNat
          ((cs.map BitVec.toNat).map fun c => perSecond.toNat * c) ∧
      (osTicks perSecond freq remain cs).2.toNat =
        Carry.kept freq.toNat remain.toNat
          ((cs.map BitVec.toNat).map fun c => perSecond.toNat * c) := by
  induction cs generalizing remain with
  | nil => exact ⟨rfl, rfl⟩
  | cons c cs ih =>
    rw [List.forall_mem_cons] at hc
    obtain ⟨hpay, hkeep⟩ := stm32OsTickFromPmTick_eq hT hF hr hc.1
    have hlt : Carry.keep freq.toNat remain.toNat (perSecond.toNat * c.toNat) < freq.toNat :=
      Nat.mod_lt _ (Nat.zero_lt_of_lt hr)
    obtain ⟨hsum, hlast⟩ := ih (hkeep ▸ hlt) hc.2
    rw [hkeep] at hsum hlast
    constructor
    · rw [osTicks, List.map_cons, List.sum_cons, hpay, hsum]
      rfl
    · exact hlast

/-- **The conversion loses nothing.** At every prefix of the counts the results add up to the floor
of the exact number of ticks, the static remainder is below the frequency, and the sum of the next
conversion fits into 32 bits. -/
theorem osTicks_exact (hT : perSecond.toNat ≤ 65535) (hF1 : 1 ≤ freq.toNat)
    (hF : freq.toNat ≤ 1024) (hc : ∀ c ∈ cs, c.toNat ≤ 0xFFFF) (k : ℕ) :
    (((osTicks perSecond freq 0 cs).1.take k).map BitVec.toNat).sum =
        perSecond.toNat * ((cs.take k).map BitVec.toNat).sum / freq.toNat ∧
      (osTicks perSecond freq 0 (cs.take k)).2.toNat < freq.toNat ∧
      ∀ c, cs[k]? = some c →
        c.toNat * perSecond.toNat + (osTicks perSecond freq 0 (cs.take k)).2.toNat < 2 ^ 32 := by
  have hzero : (0 : U32).toNat < freq.toNat := hF1
  have htake : ∀ c ∈ cs.take k, c.toNat ≤ 0xFFFF := fun c hmem => hc c (List.mem_of_mem_take hmem)
  obtain ⟨hsum, hlast⟩ := osTicks_eq hT hF hzero htake
  have hlt : (osTicks perSecond freq 0 (cs.take k)).2.toNat < freq.toNat := by
    rw [hlast]
    exact Carry.kept_lt hF1 hzero _
  refine ⟨?_, hlt, fun c hget => ?_⟩
  · rw [osTicks_take, hsum, Carry.paid_eq hF1 hzero, List.sum_map_mul_left, List.map_id']
    simp
  · have hprod : c.toNat * perSecond.toNat ≤ 0xFFFF * 65535 :=
      Nat.mul_le_mul (hc c (List.mem_of_getElem? hget)) hT
    omega

/-- Three counts at 1024 Hz and 1000 ticks a second. -/
theorem osTicks_exact_three :
    (osTicks 1000 1024 0 [1, 1023, 65535]).1 = [0, 1000, 63999] ∧
      (((osTicks 1000 1024 0 [1, 1023, 65535]).1.take 2).map BitVec.toNat).sum =
        1000 * (1 + 1023) / 1024 :=
  ⟨by decide, (osTicks_exact (by decide) (by decide) (by decide) (by simp) 2).1⟩

end Successive

namespace Hw

/-- Interrupts on, nothing pending, nothing lost: the clock of a thread that is running. -/
structure Awake (hw : Hw) : Prop where
  primask : hw.primask = false
  pendst : hw.pendst = false
  halted : hw.halted = false
  remain_lt : hw.osTickRemain.toNat < 1024

theorem Awake.clock {hw : Hw} (h : hw.Awake) : hw.clock.Awake :=
  ⟨h.primask, h.pendst, h.halted, h.remain_lt⟩

/-- A pending SysTick is served when the interrupts come back. -/
theorem rtHwInterruptEnable_pending {hw : Hw} (hp : hw.pendst = true) :
    hw.rtHwInterruptEnable b 0 = { hw with primask := false, pendst := false }.rtTickIncrease b := by
  have hbit : (0 : U32).getLsbD 0 = false := by decide
  unfold rtHwInterruptEnable takeSysTick
  rw [hbit, if_pos ⟨hp, Bool.false_ne_true⟩]
  rfl

/-- **One deep pass** adds the time slept and one tick for the SysTick it pends. -/
theorem deepPass_awake {hw : Hw} (ha : hw.Awake) (hc : ∀ i, (b.counter i).toNat ≤ 0xFFFF) (m : U8)
    (hback : (hw.deepPass b m).halted = false) :
    (hw.deepPass b m).Awake ∧
      (hw.deepPass b m).rtTick = hw.rtTick +
        BitVec.ofNat 32 (Carry.pay 1024 hw.osTickRemain.toNat (1000 * (b.counter hw.reads).toNat)) + 1 ∧
      (hw.deepPass b m).osTickRemain.toNat =
        Carry.keep 1024 hw.osTickRemain.toNat (1000 * (b.counter hw.reads).toNat) ∧
      (hw.deepPass b m).reads = hw.reads + 1 := by
  have hpos : pmTickMax - hw.rtTick ≠ 0 := by
    intro hzero
    rw [deepPass_halts hzero] at hback
    exact Bool.noConfusion hback
  have hT : rtTickPerSecond.toNat ≤ 65535 := by decide
  have hF : stm32LptimGetCountfreq.toNat ≤ 1024 := by decide
  obtain ⟨hpay, hkeep⟩ := stm32OsTickFromPmTick_eq hT hF ha.remain_lt (hc hw.reads)
  have hwoken : (woken b m hw).pendst = true := rfl
  rw [deepPass_eq ha.halted hpos, ha.primask, if_neg Bool.false_ne_true,
    rtHwInterruptEnable_pending hwoken]
  refine ⟨⟨rfl, rfl, ha.halted, ?_⟩, ?_, hkeep, rfl⟩
  · exact lt_of_eq_of_lt hkeep (Nat.mod_lt _ (by decide))
  · have hslept : (slept b hw).1 = BitVec.ofNat 32
        (Carry.pay 1024 hw.osTickRemain.toNat (1000 * (b.counter hw.reads).toNat)) := by
      apply BitVec.eq_of_toNat_eq
      rw [BitVec.toNat_ofNat]
      exact hpay ▸ (Nat.mod_eq_of_lt (slept b hw).1.isLt).symm
    rw [← hslept]
    rfl

end Hw

/-- The passes of an execution. -/
def passes (es : List (Op Hw)) : ℕ :=
  es.countP fun
    | .pmRunTickless => true
    | _ => false

/-- The LPTIM counts read by `n` passes, from the `k`-th reading on. -/
def counts (b : Board) (k n : ℕ) : List ℕ := (List.range' k n).map fun i => (b.counter i).toNat

theorem counts_succ (b : Board) (k n : ℕ) :
    counts b k (n + 1) = (b.counter k).toNat :: counts b (k + 1) n := by
  unfold counts
  rw [List.range'_succ, List.map_cons]

/-- A step of a run whose passes sleep in a deep mode and come back, and in which nothing else
moves the clock. -/
def World.DeepStep (env : Env c Hw) (w : World c Hw) : Op Hw → Prop
  | .call _ => True
  | .plat f => ∀ hw, (f hw).clock = hw.clock
  | .pmRunTickless => w.st.enableFlag ≠ 0 ∧
      c.lpmsTicklessDefaultMode ≤ w.passDecide.2.st.sleepMode ∧
      (w.pmRunTickless env).plat.halted = false

def World.DeepRun (env : Env c Hw) (w : World c Hw) : List (Op Hw) → Prop
  | [] => True
  | e :: es => w.DeepStep env e ∧ (w.step env e).DeepRun env es

namespace World

variable {env : Env c Hw} {w : World c Hw} {a : Hw}

/-- The time slept is carried over the run, and each pass adds a tick. -/
theorem run_awake (hk : env.KeepsClock) (hc : ∀ i, (b.counter i).toNat ≤ 0xFFFF)
    (es : List (Op Hw)) (ha : a.Awake) (h : ClockAt b a w) (hdeep : w.DeepRun env es) :
    (w.run env es).plat.rtTick = a.rtTick + BitVec.ofNat 32
      (Carry.paid 1024 a.osTickRemain.toNat ((counts b a.reads (passes es)).map (1000 * ·)) +
        passes es) := by
  induction es generalizing w a with
  | nil =>
    rw [run_nil, ← h.clock, Hw.clock_rtTick]
    simp [passes, counts, Carry.paid]
  | cons e es ih =>
    obtain ⟨hstep, hrest⟩ := hdeep
    rw [run_cons]
    cases e with
    | call f => exact ih ha (call_clock (.inl ha.pendst) f ⟨h, rfl⟩).1 hrest
    | plat f => exact ih ha ⟨h.ops, (hstep w.plat).trans h.clock⟩ hrest
    | pmRunTickless =>
      obtain ⟨hen, hd, hback⟩ := hstep
      have hpass := pmRunTickless_clock hk ha.halted hen hd h
      generalize w.passDecide.2.st.sleepMode = m at hpass
      have hnot : (a.deepPass b m).halted = false := by
        rw [← Hw.clock_halted, ← hpass.clock, Hw.clock_halted]
        exact hback
      obtain ⟨hawake, htick, hremain, hreads⟩ := Hw.deepPass_awake ha hc m hnot
      generalize a.deepPass b m = a' at hpass hawake htick hremain hreads
      have hrun := ih hawake.clock hpass hrest
      rw [Hw.clock_rtTick, Hw.clock_osTickRemain, Hw.clock_reads, htick, hremain, hreads] at hrun
      have hpasses : passes (Op.pmRunTickless :: es) = passes es + 1 :=
        List.countP_cons_of_pos rfl
      rw [hpasses, counts_succ, List.map_cons, Carry.paid]
      refine hrun.trans ?_
      simp only [BitVec.ofNat_add]
      ac_rfl

/-- **The compensation over a run.** After passes that sleep in a deep mode, with interface calls
in between, the tick has advanced by the floor of the time slept exactly when the number of passes
is a multiple of 2^32: each pass adds one tick. -/
theorem run_compensation_iff (hk : env.KeepsClock) (ho : w.ops = some (pmOps b))
    (ha : w.plat.Awake) (hrem : w.plat.osTickRemain = 0)
    (hc : ∀ i, (b.counter i).toNat ≤ 0xFFFF) (es : List (Op Hw)) (hdeep : w.DeepRun env es) :
    (w.run env es).plat.rtTick = w.plat.rtTick + BitVec.ofNat 32
        (1000 * (counts b w.plat.reads (passes es)).sum / 1024) ↔
      2 ^ 32 ∣ passes es := by
  have hrun := run_awake hk hc es ha.clock ⟨ho, rfl⟩ hdeep
  rw [Hw.clock_rtTick, Hw.clock_osTickRemain, Hw.clock_reads, hrem] at hrun
  have hpaid : Carry.paid 1024 (0 : U32).toNat
      ((counts b w.plat.reads (passes es)).map (1000 * ·)) =
        1000 * (counts b w.plat.reads (passes es)).sum / 1024 := by
    rw [Carry.paid_eq (by decide) (by decide), List.sum_map_mul_left, List.map_id']
    exact congrArg (· / 1024) (Nat.zero_add _)
  rw [hpaid] at hrun
  generalize 1000 * (counts b w.plat.reads (passes es)).sum / 1024 = t at hrun ⊢
  rw [hrun]
  constructor
  · intro heq
    have hnat := congrArg BitVec.toNat heq
    rw [BitVec.toNat_add, BitVec.toNat_add, BitVec.toNat_ofNat, BitVec.toNat_ofNat] at hnat
    omega
  · intro hdvd
    apply BitVec.eq_of_toNat_eq
    rw [BitVec.toNat_add, BitVec.toNat_add, BitVec.toNat_ofNat, BitVec.toNat_ofNat]
    omega

/-- One pass is not compensated exactly. -/
theorem run_compensation_one_pass :
    let w := start Config.shipped (pmOps .still) pmFreqHigh (.boot 1000 [])
    (w.run .silent [.call .lpmsEnable, .pmRunTickless]).plat.rtTick ≠ w.plat.rtTick + 0 := by
  intro w hexact
  have hdeep : w.DeepRun .silent [.call .lpmsEnable, .pmRunTickless] := by
    refine ⟨trivial, ⟨?_, ?_, ?_⟩, trivial⟩ <;> decide +kernel
  have hiff := run_compensation_iff (w := w) (b := .still) Env.silent_keepsClock rfl
    ⟨rfl, rfl, rfl, by decide⟩ rfl (fun _ => Nat.zero_le _) _ hdeep
  have hzero : BitVec.ofNat 32 (1000 * (counts .still w.plat.reads
      (passes [.call .lpmsEnable, .pmRunTickless])).sum / 1024) = 0 := by decide +kernel
  rw [hzero] at hiff
  exact absurd (hiff.1 hexact) (by decide)

/-- A pass woken after no count moves the tick from 1000 to 1001. -/
theorem run_compensation_drifts :
    ¬∀ (b : Board) (w : World Config.shipped Hw) (es : List (Op Hw)), w.ops = some (pmOps b) →
      w.plat.Awake → w.plat.osTickRemain = 0 → (∀ i, (b.counter i).toNat ≤ 0xFFFF) →
      w.DeepRun .silent es →
      (w.run .silent es).plat.rtTick = w.plat.rtTick + BitVec.ofNat 32
        (1000 * (counts b w.plat.reads (passes es)).sum / 1024) := by
  intro hclaim
  let w := start Config.shipped (pmOps .still) pmFreqHigh (.boot 1000 [])
  have hdeep : w.DeepRun .silent [.call .lpmsEnable, .pmRunTickless] := by
    refine ⟨trivial, ⟨?_, ?_, ?_⟩, trivial⟩ <;> decide +kernel
  have hexact := hclaim .still w _ rfl ⟨rfl, rfl, rfl, by decide⟩ rfl (fun _ => Nat.zero_le _) hdeep
  have htick : (w.run .silent [.call .lpmsEnable, .pmRunTickless]).plat.rtTick = 1001 := by
    decide +kernel
  rw [htick] at hexact
  exact absurd hexact (by decide)

end World

end LowPower
