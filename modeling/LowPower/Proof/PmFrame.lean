import LowPower.Proof.PmPass

/-!
# The invariant rule of PM 2.0

A pass is made of events, of new module records, of a lowered sleep mode, of the calls of interrupt
handlers and of the switch of the run mode. A property that survives each of these survives a pass
(`PassInv.rtSystemPowerManager`).
-/

namespace LowPower.Pm

def Ev.runOf : Ev → Option U8
  | .run mode => some mode
  | _ => none

/-- Every call of an interrupt handler during the pass meets a condition. -/
def Irq.All (ok : Call → Prop) (irq : Irq) : Prop :=
  (∀ f ∈ irq.scaling, ok f) ∧ (∀ f ∈ irq.between, ok f) ∧ ∀ f ∈ irq.exit, ok f

namespace World

variable {X : Type} {w : World X}

/-- What a property must survive in the code between the calls and the switches. -/
structure PlainInv (P : World X → Prop) : Prop where
  /-- One more event; what the component does not read may change. -/
  event : ∀ {w w' : World X} {e : Ev}, e.runOf = none → w'.trace = w.trace ++ [(e, w.pm)] →
    w'.pm = w.pm → P w → P w'
  modules : ∀ {w : World X} (st : RtPm X → Vector RtPmModule pmModuleMaxId), P w →
    P (w.mapPm fun pm => { pm with moduleStatus := st pm })
  lower : ∀ {w : World X}, P w → P (w.mapPm fun pm => { pm with sleepMode := pmSleepModeIdle })

namespace PlainInv

variable {P : World X → Prop}

theorem emit (hP : PlainInv P) {e : Ev} (he : e.runOf = none) (hw : P w) : P (w.emit e) :=
  hP.event he rfl rfl hw

theorem callback (hP : PlainInv P) {e : Ev} (he : e.runOf = none) (f : X → X) (hw : P w) :
    P (w.callback e f) := hP.event he rfl rfl hw

theorem forDevices (hP : PlainInv P) (sel : RtDevicePm X → Option (U8 → X → X)) {e : ℕ → U8 → Ev}
    {mode : U8} (he : ∀ i, (e i mode).runOf = none) (index : ℕ) (ds : List (RtDevicePm X))
    (hw : P w) : P (forDevices sel e mode index ds w) := by
  induction ds generalizing index w with
  | nil => exact hw
  | cons d ds ih =>
    unfold World.forDevices
    cases sel d with
    | none => exact ih _ hw
    | some f => exact ih _ (hP.callback (he index) _ hw)

theorem resume (hP : PlainInv P) (mode : U8) (hw : P w) : P (w.pmDeviceResume mode) :=
  hP.forDevices (·.resume) (fun _ => rfl) 0 w.pm.devices hw

theorem frequencyChange (hP : PlainInv P) (mode : U8) (hw : P w) :
    P (w.pmDeviceFrequencyChange mode) :=
  hP.forDevices (·.frequencyChange) (fun _ => rfl) 0 w.pm.devices hw

theorem suspendFrom (hP : PlainInv P) (mode : U8) (index : ℕ) (ds : List (RtDevicePm X))
    (hw : P w) : P (suspendFrom mode index ds w).2 := by
  induction ds generalizing index w with
  | nil => exact hw
  | cons d ds ih =>
    unfold World.suspendFrom
    cases d.suspend with
    | none => exact ih _ hw
    | some f =>
      have hasked := hP.callback (e := .suspend index mode (f mode w.plat).1) rfl
        (fun x => (f mode x).2) hw
      dsimp only
      split_ifs
      · exact hasked
      · exact ih _ hasked

theorem notify (hP : PlainInv P) (event : NotifyEvent) (mode : U8) (hw : P w) :
    P (w.pmNotify event mode) := by
  unfold pmNotify
  cases w.pm.notify with
  | none => exact hw
  | some f => exact hP.callback rfl _ hw

theorem checkIdleFrom (hP : PlainInv P) (is : List (Fin pmModuleMaxId)) (hw : P w) :
    P (checkIdleFrom is w).2 := by
  induction is generalizing w with
  | nil => exact hw
  | cons i is ih =>
    have hset := hP.modules (fun pm => pm.moduleStatus.set i (expire w.rtTick pm.moduleStatus[i])) hw
    unfold World.checkIdleFrom
    dsimp only
    split_ifs
    · exact hset
    · exact ih hset

theorem checkIdle (hP : PlainInv P) (hw : P w) : P w.pmDeviceCheckIdle.2 := by
  unfold pmDeviceCheckIdle
  split_ifs
  · exact hw
  · exact hP.checkIdleFrom _ hw

theorem timerStart (hP : PlainInv P) (timeout : U32) (hw : P w) : P (w.opsTimerStart timeout) := by
  unfold opsTimerStart
  cases w.ops.timerStart with
  | none => exact hP.event (e := .nullCall) rfl rfl rfl hw
  | some f => exact hP.callback rfl _ hw

theorem tickless (hP : PlainInv P) (hw : P w) : P w.tickless := by
  unfold World.tickless
  dsimp only
  split_ifs
  · exact hP.timerStart _ hw
  · exact hw
  · exact hP.lower hw
  · exact hP.timerStart _ hw
  · exact hw

theorem sleep (hP : PlainInv P) (mode : U8) (hw : P w) : P (w.opsSleep mode) :=
  hP.callback rfl _ hw

theorem wakeUp (hP : PlainInv P) (hw : P w) : P w.wakeUp.2 := by
  unfold World.wakeUp
  split_ifs
  · have hread : P w.opsTimerGetTick.2 := hP.event (e := .timerGetTick _) rfl rfl rfl hw
    have hstop : P (w.opsTimerGetTick.2.callback .timerStop w.opsTimerGetTick.2.ops.timerStop) :=
      hP.callback rfl _ hread
    dsimp only
    split_ifs
    · exact hP.event (e := .rtTickSet _) rfl rfl rfl hstop
    · exact hstop
  · exact hw

theorem timerCheck (hP : PlainInv P) (irq : Irq) (delta : Option U32) (hw : P w) :
    P (w.timerCheck irq delta) := by
  have hcheck : ∀ {w : World X}, P w → P (w.rtTimerCheck irq) := fun hw =>
    hP.event (e := .rtTimerCheck) rfl rfl rfl hw
  unfold World.timerCheck
  cases delta with
  | none =>
    dsimp only
    split_ifs
    · exact hcheck (hP.emit rfl hw)
    · exact hP.emit rfl hw
    · exact hw
  | some d =>
    dsimp only
    split_ifs
    · exact hcheck hw
    · exact hw
    · exact hw

end PlainInv

/-! ## The rule -/

/-- What a property must survive to survive a pass with the accepted calls in it. -/
structure PassInv (ok : Call → Prop) (P : World X → Prop) : Prop extends PlainInv P where
  call : ∀ {w : World X} {f : Call}, ok f → P w → P (w.call f)
  scale : ∀ {w : World X}, P w → P w.scale

namespace PassInv

variable {ok : Call → Prop} {P : World X → Prop} {irq : Irq}

theorem calls (hP : PassInv ok P) {fs : List Call} (hf : ∀ f ∈ fs, ok f) (hw : P w) :
    P (w.calls fs) := by
  induction fs generalizing w with
  | nil => exact hw
  | cons f fs ih =>
    refine ih (fun g hg => hf g (List.mem_cons_of_mem f hg)) (hP.call (hf f List.mem_cons_self) hw)

theorem exitCritical (hP : PassInv ok P) {fs : List Call} (hf : ∀ f ∈ fs, ok f) (hw : P w) :
    P (w.rtPmExitCritical fs) := hP.calls hf (hP.emit rfl hw)

/-- The end of a critical section that has suspended devices. -/
theorem leave (hP : PassInv ok P) {fs : List Call} (hf : ∀ f ∈ fs, ok f) (mode mode' : U8)
    (hw : P w) :
    P (((w.pmDeviceResume mode).pmNotify .rtPmExitSleep mode').rtPmExitCritical fs) :=
  hP.exitCritical hf (hP.notify _ _ (hP.resume _ hw))

theorem sleepSuspended (hP : PassInv ok P) (hirq : irq.All ok) (hw : P w) :
    P (w.sleepSuspended irq) := by
  have ht := hP.tickless hw
  unfold World.sleepSuspended
  dsimp only
  split_ifs
  · exact ht
  · refine hP.timerCheck irq _ (hP.leave hirq.2.2 _ _ ?_)
    exact hP.wakeUp (hP.sleep _ ht)

theorem pmChangeSleepMode (hP : PassInv ok P) (hirq : irq.All ok) (hw : P w) :
    P (w.pmChangeSleepMode irq) := by
  have hidle : P w.rtPmEnterCritical.pmDeviceCheckIdle.2 := hP.checkIdle (hP.emit rfl hw)
  have hnone : ∀ {w : World X}, P w → P ((w.opsSleep pmSleepModeNone).rtPmExitCritical irq.exit) :=
    fun hw => hP.exitCritical hirq.2.2 (hP.sleep _ hw)
  unfold World.pmChangeSleepMode
  dsimp only
  split_ifs
  · exact hnone hidle
  · exact hnone hidle
  · exact hP.leave hirq.2.2 _ _ (hP.suspendFrom _ _ _ (hP.notify _ _ hidle))
  · exact hP.sleepSuspended hirq (hP.suspendFrom _ _ _ (hP.notify _ _ hidle))

theorem pmFrequencyScaling (hP : PassInv ok P) {fs : List Call} (hf : ∀ f ∈ fs, ok f) (hw : P w) :
    P (w.pmFrequencyScaling fs) := by
  rw [pmFrequencyScaling_eq]
  split_ifs
  · exact hP.scale (hP.calls hf hw)
  · exact hw

/-- **A pass keeps the property.** -/
theorem rtSystemPowerManager (hP : PassInv ok P) (hirq : irq.All ok) (hw : P w) :
    P (w.rtSystemPowerManager irq) := by
  unfold World.rtSystemPowerManager
  split_ifs
  · exact hw
  · exact hP.pmChangeSleepMode hirq (hP.calls hirq.2.1 (hP.pmFrequencyScaling hirq.1 hw))

end PassInv
end World
end LowPower.Pm
