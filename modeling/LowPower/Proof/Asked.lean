import LowPower.Proof.Decision
import LowPower.Spec.Driver

/-!
# What a pass is told

A pass asks for the tick and for deadlines several times while the interrupts are masked. On a steady
platform (`LpmsOps.Steady`) every answer is the one given before the pass, so the mode it decides on is
known then (`passMode_eq`), and with it what the low-power timer is started with
(`passDecide_lptimer`). The driver is steady, whatever deadline it tells (`pmOpsDue_steady`).
-/

namespace LowPower

variable {c : Config} {X : Type}

/-- The callbacks that tell the tick or a deadline. -/
def LpmsOps.asks (ops : LpmsOps X) : List (X → U32 × X) :=
  ops.systickGet.toList ++ ops.systickNextTimeout.toList ++ ops.lptimNextTimeout.toList

/-- Asking for the tick or a deadline changes no answer, and neither does masking the interrupts. -/
def LpmsOps.Steady (ops : LpmsOps X) : Prop :=
  ∀ q ∈ ops.irqDisable.toList ++ ops.asks, ∀ r ∈ ops.asks, ∀ x, (r (q x).2).1 = (r x).1

/-- The driver with a second deadline source: `lptim_next_timeout` tells `due`, or is absent as in
`pm_ops`. -/
def pmOpsDue (b : Board) (due : Option U32) : LpmsOps Hw :=
  { pmOps b with lptimNextTimeout := due.map fun d => Hw.liveGet fun hw => (d, hw) }

theorem pmOpsDue_none (b : Board) : pmOpsDue b none = pmOps b := rfl

/-- The callbacks of the driver are steady, halted or not. -/
theorem pmOpsDue_steady (b : Board) (due : Option U32) : (pmOpsDue b due).Steady := by
  have hasks : ∀ {r : Hw → U32 × Hw}, r ∈ (pmOpsDue b due).asks → r = Hw.liveGet Hw.rtTickGet ∨
      r = Hw.liveGet Hw.rtTimerNextTimeoutTick ∨ ∃ d, r = Hw.liveGet fun hw => (d, hw) := by
    intro r hr
    cases due with
    | none =>
      have hshipped : r = Hw.liveGet Hw.rtTickGet ∨ r = Hw.liveGet Hw.rtTimerNextTimeoutTick := by
        simpa [LpmsOps.asks, pmOpsDue, pmOps] using hr
      exact hshipped.imp_right .inl
    | some d =>
      have htold : r = Hw.liveGet Hw.rtTickGet ∨ r = Hw.liveGet Hw.rtTimerNextTimeoutTick ∨
          r = Hw.liveGet fun hw => (d, hw) := by
        simpa [LpmsOps.asks, pmOpsDue, pmOps] using hr
      exact htold.imp_right (.imp_right fun h => ⟨d, h⟩)
  have hread : ∀ {r : Hw → U32 × Hw}, r ∈ (pmOpsDue b due).asks → ∀ hw hw' : Hw,
      hw'.halted = hw.halted → hw'.rtTick = hw.rtTick → hw'.timers = hw.timers →
      (r hw').1 = (r hw).1 := by
    intro r hr hw hw' hhalted htick htimers
    rcases hasks hr with rfl | rfl | ⟨d, rfl⟩ <;>
      simp only [Hw.liveGet, hhalted, Hw.rtTickGet, Hw.rtTimerNextTimeoutTick, htick, htimers] <;>
      split <;> rfl
  have hdisable : (pmOpsDue b due).irqDisable = some (Hw.liveGet Hw.rtHwInterruptDisable) := rfl
  intro q hq r hr hw
  rw [hdisable, Option.toList_some, List.singleton_append, List.mem_cons] at hq
  have hkeep : (q hw).2.halted = hw.halted ∧ (q hw).2.rtTick = hw.rtTick ∧
      (q hw).2.timers = hw.timers := by
    rcases hq with rfl | hq
    · unfold Hw.liveGet
      split <;> exact ⟨rfl, rfl, rfl⟩
    · rcases hasks hq with rfl | rfl | ⟨d, rfl⟩ <;> unfold Hw.liveGet <;> split <;>
        exact ⟨rfl, rfl, rfl⟩
  exact hread hr hw _ hkeep.1 hkeep.2.1 hkeep.2.2

namespace World

variable {v w : World c X} {sel : LpmsOps X → Option (X → U32 × X)}

/-- What a callback answers now; the default when it is absent. -/
def answer (w : World c X) (sel : LpmsOps X → Option (X → U32 × X)) (dflt : U32) : U32 :=
  match w.ops.bind sel with
  | none => dflt
  | some f => (f w.plat).1

/-- The tick that `systick_get` tells. -/
def sysTick (w : World c X) : U32 := w.answer (·.systickGet) 0

/-- The deadlines that `systick_next_timeout` and `lptim_next_timeout` tell. -/
def osDue (w : World c X) : U32 := w.answer (·.systickNextTimeout) pmTickMax
def lptimDue (w : World c X) : U32 := w.answer (·.lptimNextTimeout) pmTickMax

/-- The mode that the votes, the busy windows and the next timeout select now. -/
def modeNow (w : World c X) : ℕ :=
  let voted := (selectSleepMode w.st).toNat
  let mode :=
    if ∃ k : Fin c.pmBusyModuleMax, w.sysTick < w.st.timeout[k] then
      min voted c.lpmsDefaultBusySleepMode.toNat
    else voted
  if w.osDue - w.sysTick ≤ c.lpmsTicklessThresholdTime then
    min mode c.lpmsTicklessThresholdMode.toNat
  else mode

/-- A pass that starts now goes through a deep sleep. -/
def EntersDeep (w : World c X) : Prop :=
  w.st.enableFlag ≠ 0 ∧ c.lpmsTicklessDefaultMode.toNat ≤ w.modeNow

/-- The table in force is steady. -/
def Steady (w : World c X) : Prop := ∀ ops, w.ops = some ops → ops.Steady

theorem query_answer (sel : LpmsOps X → Option (X → U32 × X)) (e : U32 → Ev) (dflt : U32)
    (w : World c X) : (w.query sel e dflt).1 = w.answer sel dflt := by
  unfold query answer
  cases w.ops.bind sel <;> rfl

/-- The same table, busy windows and answers. -/
structure Alike (v w : World c X) : Prop where
  ops : w.ops = v.ops
  timeout : w.st.timeout = v.st.timeout
  sysTick : w.sysTick = v.sysTick
  osDue : w.osDue = v.osDue
  lptimDue : w.lptimDue = v.lptimDue

namespace Alike

theorem refl (w : World c X) : Alike w w := ⟨rfl, rfl, rfl, rfl, rfl⟩

theorem mapSt (h : Alike v w) {f : Lpms c → Lpms c} (hf : (f w.st).timeout = w.st.timeout) :
    Alike v (w.mapSt f) :=
  ⟨h.ops, hf.trans h.timeout, h.sysTick, h.osDue, h.lptimDue⟩

/-- A question leaves every answer. -/
theorem query (hs : v.Steady) (h : Alike v w) (e : U32 → Ev) (dflt : U32)
    (hsel : ∀ ops f, sel ops = some f → f ∈ ops.irqDisable.toList ++ ops.asks) :
    Alike v (w.query sel e dflt).2 := by
  unfold World.query
  split
  · exact h
  rename_i q hq
  obtain ⟨ops, hops, hq⟩ := Option.bind_eq_some_iff.1 hq
  have hsteady := hs ops (h.ops ▸ hops) q (hsel ops q hq)
  have hanswer : ∀ (sel' : LpmsOps X → Option (X → U32 × X)) (d : U32),
      (∀ r, sel' ops = some r → r ∈ ops.asks) →
      World.answer { w.emit (e (q w.plat).1) with plat := (q w.plat).2 } sel' d = w.answer sel' d := by
    intro sel' d hmem
    unfold World.answer
    simp only [emit_ops, hops, Option.bind_some]
    cases hr : sel' ops with
    | none => rfl
    | some r => exact hsteady r (hmem r hr) w.plat
  refine ⟨h.ops, h.timeout, ?_, ?_, ?_⟩
  · refine (hanswer (·.systickGet) 0 fun r hr => ?_).trans h.sysTick
    simp [LpmsOps.asks, hr]
  · refine (hanswer (·.systickNextTimeout) pmTickMax fun r hr => ?_).trans h.osDue
    simp [LpmsOps.asks, hr]
  · refine (hanswer (·.lptimNextTimeout) pmTickMax fun r hr => ?_).trans h.lptimDue
    simp [LpmsOps.asks, hr]

theorem irqDisable (hs : v.Steady) (h : Alike v w) : Alike v w.pmIrqDisable.2 :=
  h.query hs _ _ fun ops f hf => by simp [hf]

theorem getTick (hs : v.Steady) (h : Alike v w) : Alike v w.pmGetTick.2 :=
  h.query hs _ _ fun ops f hf => by simp [LpmsOps.asks, hf]

theorem nextTimeout (hs : v.Steady) (h : Alike v w) : Alike v w.pmNextTimeout.2 :=
  h.query hs _ _ fun ops f hf => by simp [LpmsOps.asks, hf]

theorem lptimerNextTimeout (hs : v.Steady) (h : Alike v w) : Alike v w.lptimerNextTimeout.2 :=
  h.query hs _ _ fun ops f hf => by simp [LpmsOps.asks, hf]

theorem getTick_eq (h : Alike v w) : w.pmGetTick.1 = v.sysTick :=
  (query_answer _ _ _ w).trans h.sysTick

theorem nextTimeout_eq (h : Alike v w) : w.pmNextTimeout.1 = v.osDue :=
  (query_answer _ _ _ w).trans h.osDue

theorem lptimerNextTimeout_eq (h : Alike v w) : w.lptimerNextTimeout.1 = v.lptimDue :=
  (query_answer _ _ _ w).trans h.lptimDue

theorem decideInv (hs : v.Steady) : DecideInv (Alike v) where
  getTick _ h := h.getTick hs
  nextTimeout _ h := h.nextTimeout hs
  sleepMode _ _ h := h.mapSt rfl

end Alike

theorem voted_alike (hs : w.Steady) : Alike w w.voted := ((Alike.refl w).irqDisable hs).mapSt rfl

theorem checked_alike (hs : w.Steady) : Alike w w.checked :=
  (Alike.decideInv hs).busyLimit (voted_alike hs)

theorem passDecide_alike (hs : w.Steady) : Alike w w.passDecide.2 :=
  (Alike.decideInv hs).thresholdLimit (checked_alike hs)

/-- **The mode of a pass is known before it.** -/
theorem passMode_eq (hs : w.Steady) : w.passMode = w.modeNow := by
  have hvoted := voted_alike hs
  have hchecked := checked_alike hs
  have hbusy : w.voted.pmCheckBusy.1 = pmFlagBusy ↔
      ∃ k : Fin c.pmBusyModuleMax, w.sysTick < w.st.timeout[k] := by
    rw [checkBusy_iff (P := Alike w) (fun _ h => ⟨h.getTick_eq, h.getTick hs⟩) (fun _ h => h.timeout)
      hvoted]
  have hdeadline : w.osDeadline = w.osDue := hchecked.nextTimeout_eq
  have htick : w.osTick = w.sysTick := (hchecked.nextTimeout hs).getTick_eq
  unfold passMode votedMode modeNow
  simp only [hbusy, hdeadline, htick]

/-- **What the low-power timer is started with is known before the pass.** -/
theorem passDecide_lptimer (hs : w.Steady) :
    w.passDecide.2.lptimerNextTimeout.1 = w.lptimDue ∧
      w.passDecide.2.lptimerNextTimeout.2.pmGetTick.1 = w.sysTick := by
  have hdecide := passDecide_alike hs
  exact ⟨hdecide.lptimerNextTimeout_eq, (hdecide.lptimerNextTimeout hs).getTick_eq⟩

end World
end LowPower
