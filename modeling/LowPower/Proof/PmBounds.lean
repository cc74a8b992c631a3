import LowPower.Lib.History
import LowPower.Proof.PmFrame
import LowPower.Spec.PmDevice

/-!
# The tables of PM 2.0

Four entry points use an argument or a stored value as an index as it is: `rt_pm_run_enter` lets
`PM_RUN_MODE_MAX` itself pass, `rt_system_pm_init` takes the mode of `rt_pm_default_set` unchecked,
`rt_pm_module_release_all` checks only the mode, and a read of the `pm` device only the upper bound
of its offset. Apart from these (`Entry.Checked`) every index lies inside its table, in every run of
all entry points with interrupts in every pass (`enters_safe_iff`).
-/

namespace LowPower.Pm

variable {X : Type}

/-! ## The conditions -/

/-- The arguments of a call that become an index are in range. -/
def Call.Checked : Call → Prop
  | .rtPmRunEnter mode => mode.toNat ≠ pmRunModeMax
  | .rtPmModuleReleaseAll moduleId mode => mode.toNat < pmSleepModeMax → moduleId.toNat < pmModuleMaxId
  | _ => True

/-- The call a shell command makes. -/
def Shell.call (cmd : Shell) (args : List CInt) : Call :=
  let mode : U8 := (World.modeArg args).setWidth 8
  let module : U8 × U8 :=
    ((World.moduleArgs args).1.setWidth 8, (World.moduleArgs args).2.setWidth 8)
  match cmd with
  | .pmRelease => .rtPmRelease mode
  | .pmReleaseAll => .rtPmReleaseAll mode
  | .pmRequest => .rtPmRequest mode
  | .pmModuleRelease => .rtPmModuleRelease module.1 module.2
  | .pmModuleReleaseAll => .rtPmModuleReleaseAll module.1 module.2
  | .pmModuleRequest => .rtPmModuleRequest module.1 module.2
  | .pmModuleDelay => .rtPmModuleDelaySleep module.1 (World.moduleArgs args).2
  | .pmRun => .rtPmRunEnter mode

/-- The index an entry point does not check is in range. Before `rt_system_pm_init` the calls
return at once. A pass comes with handler calls for each of its windows, and all of them are to be in
range, also those for a window that it does not open. -/
def Entry.Checked (pm : RtPm X) : Entry X → Prop
  | .rtSystemPmInit _ _ => pm.defaultSleep.toNat < pmSleepModeMax
  | .call f => pm.initFlag ≠ 0 → f.Checked
  | .shell cmd args => pm.initFlag ≠ 0 → (cmd.call args).Checked
  | .rtPmDeviceRead pos => 0 ≤ pos.toInt
  | .rtSystemPowerManager irq => pm.initFlag ≠ 0 → irq.All Call.Checked
  | _ => True

def Entry.isPass : Entry X → Bool
  | .rtSystemPowerManager _ => true
  | _ => false

/-- The stored indices lie inside their tables. -/
structure RtPm.InTables (pm : RtPm X) : Prop where
  sleepMode : pm.sleepMode.toNat < pmSleepModeMax
  runMode : pm.runMode.toNat < pmRunModeMax

namespace World

variable {w : World X}

/-- No table was indexed outside, here or in the driver, and the stored modes are in range now and
at every recorded point. -/
structure Safe (w : World X) : Prop where
  oob : w.pm.oob = false
  driver : w.driver.oob = false
  now : w.pm.InTables
  past : ∀ p ∈ w.trace, p.2.InTables

/-! ## The invariant -/

/-- `Safe` with what its proof needs. -/
structure Bounded (w : World X) : Prop where
  oob : w.pm.oob = false
  now : w.pm.InTables
  default : w.pm.defaultDeepsleep.toNat < pmSleepModeMax
  past : ∀ p ∈ w.trace, p.2.InTables ∧ ∀ mode, p.1.runOf = some mode → mode.toNat < pmRunModeMax

/-- The driver indexes its tables with the modes it is given. -/
theorem DrvRun_foldl_oob {x : DrvRun} (hx : x.oob = false) {modes : List U8}
    (h : ∀ mode ∈ modes, mode.toNat < pmRunModeMax) : (modes.foldl DrvRun.run x).oob = false := by
  induction modes generalizing x with
  | nil => exact hx
  | cons mode modes ih =>
    refine ih ?_ fun m hm => h m (List.mem_cons_of_mem mode hm)
    unfold DrvRun.run
    rw [dif_pos (h mode List.mem_cons_self)]
    split_ifs
    · exact hx
    · exact hx

namespace Bounded

theorem safe (h : Bounded w) : Safe w where
  oob := h.oob
  driver := by
    refine DrvRun_foldl_oob rfl fun mode hmode => ?_
    obtain ⟨p, hp, hrun⟩ := List.mem_filterMap.1 hmode
    exact (h.past p hp).2 mode hrun
  now := h.now
  past := fun p hp => (h.past p hp).1

/-- One more event at the same data. -/
theorem event {w' : World X} {e : Ev} (h : Bounded w)
    (he : ∀ mode, e.runOf = some mode → mode.toNat < pmRunModeMax)
    (ht : w'.trace = w.trace ++ [(e, w.pm)]) (hpm : w'.pm = w.pm) : Bounded w' := by
  refine ⟨hpm ▸ h.oob, hpm ▸ h.now, hpm ▸ h.default, fun p hp => ?_⟩
  rw [ht, List.mem_append, List.mem_singleton] at hp
  rcases hp with hp | rfl
  · exact h.past p hp
  · exact ⟨h.now, he⟩

/-- New data without an event. -/
theorem update {w' : World X} (h : Bounded w) (ht : w'.trace = w.trace)
    (hoob : w'.pm.oob = w.pm.oob) (hnow : w'.pm.InTables)
    (hdefault : w'.pm.defaultDeepsleep = w.pm.defaultDeepsleep) : Bounded w' :=
  ⟨hoob.trans h.oob, hnow, hdefault ▸ h.default, ht ▸ h.past⟩

theorem same {w' : World X} (h : Bounded w) (ht : w'.trace = w.trace)
    (hoob : w'.pm.oob = w.pm.oob) (hsleep : w'.pm.sleepMode = w.pm.sleepMode)
    (hrun : w'.pm.runMode = w.pm.runMode)
    (hdefault : w'.pm.defaultDeepsleep = w.pm.defaultDeepsleep) : Bounded w' :=
  h.update ht hoob ⟨hsleep ▸ h.now.sleepMode, hrun ▸ h.now.runMode⟩ hdefault

theorem plainInv : PlainInv (Bounded (X := X)) where
  event he ht hpm h := h.event (fun mode hrun => absurd (he.symm.trans hrun) (by simp)) ht hpm
  modules _ h := h.same rfl rfl rfl rfl rfl
  lower h :=
    h.update rfl rfl ⟨(by decide : pmSleepModeIdle.toNat < pmSleepModeMax), h.now.2⟩ rfl

/-! ## Calls -/

end Bounded

/-- A selection is a mode of the table. -/
theorem selectSleepMode_lt {pm : RtPm X} (h : pm.defaultDeepsleep.toNat < pmSleepModeMax) :
    (selectSleepMode pm).toNat < pmSleepModeMax := by
  have hall : ∀ m : Fin pmSleepModeMax, (BitVec.ofNat 8 m.val).toNat < pmSleepModeMax := by decide
  unfold selectSleepMode
  split
  · exact hall _
  · exact h

theorem incMode_oob (m : Fin pmSleepModeMax) (pm : RtPm X) : (incMode m pm).oob = pm.oob := by
  rw [incMode_eq]
  rfl

theorem decMode_oob (m : Fin pmSleepModeMax) (pm : RtPm X) : (decMode m pm).oob = pm.oob := by
  rw [decMode_eq]
  rfl

theorem rtPmRunEnter_oob (mode : U8) (w : World X) : (w.rtPmRunEnter mode).2.pm.oob = w.pm.oob := by
  have hdev : ∀ w : World X, (w.pmDeviceFrequencyChange mode).pm = w.pm :=
    fun w => forDevices_pm _ _ _ _ _ w
  unfold rtPmRunEnter
  split_ifs
  · rfl
  · rfl
  · dsimp only
    rw [locked_pm]
    split_ifs
    · rw [mapPm_pm, hdev]
      rfl
    · rfl

/-- **A checked call indexes no table outside.** -/
theorem call_oob {f : Call} (hf : f.Checked) (w : World X) : (w.call f).pm.oob = w.pm.oob := by
  cases f with
  | rtPmRequest mode =>
    rw [call, rtPmRequest]
    split_ifs
    · rfl
    · rfl
    · exact incMode_oob _ _
  | rtPmRelease mode =>
    rw [call, rtPmRelease]
    split_ifs
    · rfl
    · rfl
    · exact decMode_oob _ _
  | rtPmReleaseAll mode =>
    rw [call, rtPmReleaseAll]
    split_ifs <;> rfl
  | rtPmModuleRequest k mode =>
    rw [call, rtPmModuleRequest]
    split_ifs
    · rfl
    · rfl
    · rfl
    · exact incMode_oob _ _
  | rtPmModuleRelease k mode =>
    by_cases hi : w.pm.initFlag = 0
    · rw [call_of_not_init hi]
    by_cases hin : k.toNat < pmModuleMaxId ∧ mode.toNat < pmSleepModeMax
    · rw [call, rtPmModuleRelease_pm hi hin.1 hin.2]
      dsimp only [releaseModule]
      split_ifs
      · exact decMode_oob _ w.pm
      · exact decMode_oob _ w.pm
    · rw [call_rejected rfl (by simp [Call.tally]; omega)]
  | rtPmModuleReleaseAll k mode =>
    rw [call, rtPmModuleReleaseAll]
    split_ifs with hi hm hk
    · rfl
    · rfl
    · rfl
    · exact absurd (hf (not_le.1 hm)) hk
  | rtPmModuleDelaySleep k n =>
    rw [call, rtPmModuleDelaySleep]
    split_ifs <;> rfl
  | rtPmRunEnter mode => exact rtPmRunEnter_oob mode w

/-- A call leaves a selected mode in the table. -/
theorem call_sleepMode_lt (hi : w.pm.initFlag ≠ 0) (h : Bounded w) (f : Call) :
    (w.call f).pm.sleepMode.toNat < pmSleepModeMax := by
  cases hf : f.tally with
  | none =>
    rw [(call_uncounted hf).2]
    exact h.now.sleepMode
  | some v =>
    obtain ⟨a, m⟩ := v
    rw [(call_counted hi hf).sleepMode]
    apply selectSleepMode_lt
    rw [(call_same f).defaultDeepsleep]
    exact h.default

/-! ## Run modes -/

/-- A switch to a mode of the table. -/
theorem Bounded.opsRun (h : Bounded w) {mode : U8} (hm : mode.toNat < pmRunModeMax) :
    Bounded (w.opsRun mode) := by
  refine h.event (fun m hrun => ?_) rfl rfl
  obtain rfl := Option.some.inj hrun
  exact hm

theorem Bounded.rtPmRunEnter (h : Bounded w) {mode : U8} (hm : mode.toNat ≠ pmRunModeMax) :
    Bounded (w.rtPmRunEnter mode).2 := by
  have hplain := Bounded.plainInv (X := X)
  unfold World.rtPmRunEnter
  split_ifs with hi hmax
  · exact h
  · exact h
  · have hlt : mode.toNat < pmRunModeMax := lt_of_le_of_ne (not_lt.1 hmax) hm
    have hoff := hplain.emit (e := .irqDisable) rfl h
    -- the mode is stored in both branches
    have hstore : ∀ {w : World X}, Bounded w →
        Bounded (w.mapPm fun pm => { pm with runMode := mode }) := fun h =>
      h.update rfl rfl ⟨h.now.1, hlt⟩ rfl
    refine hplain.emit rfl (hstore ?_)
    split_ifs
    · exact hplain.frequencyChange mode (hoff.opsRun hlt)
    · exact hoff.same rfl rfl rfl rfl rfl

/-- **Checked calls keep the invariant.** -/
theorem Bounded.call (h : Bounded w) {f : Call} (hf : w.pm.initFlag ≠ 0 → f.Checked) :
    Bounded (w.call f) := by
  by_cases hi : w.pm.initFlag = 0
  · rw [call_of_not_init hi]
    exact h
  obtain hcall | ⟨g, hg, hcall⟩ | ⟨mode, rfl⟩ := call_cases f w
  · rw [hcall]
    exact h
  · have hpm : (w.call f).pm = g w.pm := by rw [hcall]; rfl
    have hmode := call_sleepMode_lt hi h f
    have hoob := call_oob (hf hi) w
    rw [hpm] at hmode hoob
    rw [hcall]
    have hoff := Bounded.plainInv.emit (e := .irqDisable) rfl h
    refine Bounded.plainInv.emit rfl (hoff.update rfl hoob ⟨hmode, ?_⟩ ?_)
    · change (g w.pm).runMode.toNat < pmRunModeMax
      rw [hg]
      exact h.now.runMode
    · change (g w.pm).defaultDeepsleep = _
      rw [hg]
      rfl
  · exact h.rtPmRunEnter (hf hi)

theorem Bounded.scale (h : Bounded w) : Bounded w.scale := by
  have hplain := Bounded.plainInv (X := X)
  have hoff := hplain.emit (e := .irqDisable) rfl h
  have hrun := hplain.frequencyChange w.pm.runMode (hoff.opsRun h.now.runMode)
  exact hplain.emit rfl (hrun.same rfl rfl rfl rfl rfl)

theorem bounded_inv : PassInv Call.Checked (Bounded (X := X)) where
  toPlainInv := Bounded.plainInv
  call hf h := h.call fun _ => hf
  scale h := h.scale

/-! ## Entry points -/

theorem shell_eq_call (cmd : Shell) (args : List CInt) (w : World X) :
    w.shell cmd args = w.call (cmd.call args) := by
  cases cmd <;> rfl

theorem Bounded.tableStep (h : Bounded w) (op : TableOp X) : Bounded (w.tableStep op) := by
  have hplain := Bounded.plainInv (X := X)
  have hoff := hplain.emit (e := .irqDisable) rfl h
  -- a change of the table alone
  have hbody : ∀ f : RtPm X → RtPm X, (∀ pm, (f pm).oob = pm.oob ∧ (f pm).sleepMode = pm.sleepMode ∧
      (f pm).runMode = pm.runMode ∧ (f pm).defaultDeepsleep = pm.defaultDeepsleep) →
      Bounded (w.locked (·.mapPm f)) := by
    intro f hf
    obtain ⟨hoob, hsleep, hrun, hdeep⟩ := hf w.pm
    exact hplain.emit rfl (hoff.same rfl hoob hsleep hrun hdeep)
  cases op with
  | rtPmDeviceRegister granted d =>
    refine hbody _ fun pm => ?_
    split_ifs <;> exact ⟨rfl, rfl, rfl, rfl⟩
  | rtPmDeviceUnregister device =>
    refine hbody _ fun pm => ?_
    split <;> exact ⟨rfl, rfl, rfl, rfl⟩

/-- The data after `rt_system_pm_init`; only the counters depend on the default mode. -/
theorem rtSystemPmInit_pm (ops : RtPmOps X) (timerMask : U8) (w : World X) :
    (w.rtSystemPmInit ops timerMask).pm.sleepMode = w.pm.defaultSleep ∧
      (w.rtSystemPmInit ops timerMask).pm.defaultDeepsleep = w.pm.defaultDeepsleep ∧
      (w.rtSystemPmInit ops timerMask).pm.oob =
        (if w.pm.defaultSleep.toNat < pmSleepModeMax then w.pm.oob else true) := by
  have hslot : ∀ pm : RtPm X,
      let pm' := if h : pm.sleepMode.toNat < pmSleepModeMax then
          { pm with modes := pm.modes.set pm.sleepMode.toNat 1 }
        else { pm with oob := true }
      pm'.sleepMode = pm.sleepMode ∧ pm'.defaultDeepsleep = pm.defaultDeepsleep ∧
        pm'.oob = (if pm.sleepMode.toNat < pmSleepModeMax then pm.oob else true) := by
    intro pm
    dsimp only
    split_ifs
    · exact ⟨rfl, rfl, rfl⟩
    · exact ⟨rfl, rfl, rfl⟩
  exact hslot { w.pm with modes := Vector.replicate _ 0, sleepMode := w.pm.defaultSleep }

theorem Bounded.rtSystemPmInit (h : Bounded w) (hd : w.pm.defaultSleep.toNat < pmSleepModeMax)
    (ops : RtPmOps X) (timerMask : U8) : Bounded (w.rtSystemPmInit ops timerMask) := by
  obtain ⟨hsleep, hdeep, hoob⟩ := rtSystemPmInit_pm ops timerMask w
  rw [if_pos hd] at hoob
  refine h.update rfl hoob ⟨hsleep ▸ hd, ?_⟩ hdeep
  exact (by decide : rtPmDefaultRunMode.toNat < pmRunModeMax)

theorem toNat_lt_of_toInt {pos : CInt} {n : ℕ} (h : 0 ≤ pos.toInt) (hn : pos.toInt < n) :
    pos.toNat < n := by
  have hlt := pos.isLt
  rw [BitVec.toInt_eq_toNat_cond] at h hn
  split_ifs at h hn <;> omega

/-- **Checked entry points keep the invariant.** -/
theorem Bounded.enter (h : Bounded w) {e : Entry X} (he : e.Checked w.pm) : Bounded (w.enter e) := by
  unfold World.enter
  split_ifs
  · exact h
  cases e with
  | rtSystemPmInit ops timerMask => exact h.rtSystemPmInit he ops timerMask
  | rtPmDefaultSet sleepMode => exact h.same rfl rfl rfl rfl rfl
  | rtPmNotifySet notify => exact h.same rfl rfl rfl rfl rfl
  | table op => exact h.tableStep op
  | call f => exact h.call he
  | rtPmDeviceRead pos =>
    have hpos : 0 ≤ pos.toInt := he
    change Bounded (w.rtPmDeviceRead pos).2
    unfold rtPmDeviceRead
    split_ifs with hlt hin
    · exact h
    · exact absurd (toNat_lt_of_toInt hpos hlt) hin
    · exact h
  | rtPmDeviceWrite pos buffer =>
    have hcall : ∀ f : Call, f.Checked → Bounded (w.call f) := fun f hf => h.call fun _ => hf
    change Bounded (w.rtPmDeviceWrite pos buffer).2
    unfold rtPmDeviceWrite
    cases buffer with
    | nil => exact h
    | cons request rest =>
      dsimp only
      split_ifs
      · exact hcall (.rtPmRequest _) trivial
      · exact hcall (.rtPmRelease _) trivial
      · exact h
  | rtPmDeviceControl cmd args =>
    have hcall : ∀ f : Call, f.Checked → Bounded (w.call f) := fun f hf => h.call fun _ => hf
    change Bounded (w.rtPmDeviceControl cmd args).2
    unfold rtPmDeviceControl
    split_ifs
    · exact hcall (.rtPmRequest _) trivial
    · exact hcall (.rtPmRelease _) trivial
    · exact h
  | shell cmd args =>
    change Bounded (w.shell cmd args)
    rw [shell_eq_call]
    exact h.call he
  | rtPmDumpStatus =>
    have hin : w.pm.sleepMode.toNat < pmSleepModeMax ∧ w.pm.runMode.toNat < pmRunModeMax :=
      ⟨h.now.sleepMode, h.now.runMode⟩
    have hsame : w.rtPmDumpStatus.2 = w := by
      unfold World.rtPmDumpStatus mapPm
      dsimp only
      rw [if_pos hin]
    change Bounded w.rtPmDumpStatus.2
    rw [hsame]
    exact h
  | rtSystemPowerManager irq =>
    change Bounded (w.rtSystemPowerManager irq)
    by_cases hi : w.pm.initFlag = 0
    · rw [World.rtSystemPowerManager, if_pos hi]
      exact h
    · exact bounded_inv.rtSystemPowerManager (he hi) h
  | clock rtTick timers => exact h.same rfl rfl rfl rfl rfl
  | plat f => exact h.same rfl rfl rfl rfl rfl

/-- What a call does with an index it does not check: `PM_RUN_MODE_MAX` is stored, a flag behind the
modules is written. -/
theorem not_safe_call (hi : w.pm.initFlag ≠ 0) {f : Call} (hf : ¬f.Checked) : ¬Safe (w.call f) := by
  intro hsafe
  cases f with
  | rtPmRunEnter mode =>
    have hmode : mode.toNat = pmRunModeMax := not_not.1 hf
    have hstored : (w.rtPmRunEnter mode).2.pm.runMode = mode := by
      unfold rtPmRunEnter
      rw [if_neg hi, if_neg (by omega)]
      rfl
    have hlt := hsafe.now.runMode
    change (w.rtPmRunEnter mode).2.pm.runMode.toNat < pmRunModeMax at hlt
    rw [hstored] at hlt
    omega
  | rtPmModuleReleaseAll k mode =>
    obtain ⟨hm, hk⟩ := Classical.not_imp.1 hf
    have hoob : (w.rtPmModuleReleaseAll k mode).pm.oob = true := by
      unfold rtPmModuleReleaseAll
      rw [if_neg hi, dif_neg (by omega), locked_pm]
      dsimp only [pmSelectSleepMode, mapPm_pm]
      rw [dif_neg hk]
    exact Bool.noConfusion (hoob.symm.trans hsafe.oob)
  | _ => exact hf trivial

/-- **An entry point that uses an index out of range leaves the tables**, or a mode outside them. -/
theorem not_safe_of_unchecked (hdead : w.dead = false) {e : Entry X} (hpass : e.isPass = false)
    (he : ¬e.Checked w.pm) : ¬Safe (w.enter e) := by
  have hlive : ¬w.dead = true := by simp [hdead]
  have hcall : ∀ f : Call, ¬(w.pm.initFlag ≠ 0 → f.Checked) → ¬Safe (w.call f) := by
    intro f hf
    obtain ⟨hi, hf⟩ := Classical.not_imp.1 hf
    exact not_safe_call hi hf
  intro hsafe
  unfold World.enter at hsafe
  rw [if_neg hlive] at hsafe
  cases e with
  | rtSystemPmInit ops timerMask =>
    have hout : ¬w.pm.defaultSleep.toNat < pmSleepModeMax := he
    have hoob := (rtSystemPmInit_pm ops timerMask w).2.2.symm.trans hsafe.oob
    rw [if_neg hout] at hoob
    exact Bool.noConfusion hoob
  | call f => exact hcall f he hsafe
  | shell cmd args =>
    refine hcall (cmd.call args) he ?_
    rw [← shell_eq_call]
    exact hsafe
  | rtPmDeviceRead pos =>
    have hneg : pos.toInt < 0 := not_le.1 he
    have hlt : pos.toInt < pmSleepModeMax := hneg.trans (by decide)
    have hout : ¬pos.toNat < pmSleepModeMax := by
      have hmax : pmSleepModeMax = 6 := rfl
      rw [BitVec.toInt_eq_toNat_cond] at hneg
      split_ifs at hneg <;> omega
    have hoob : (w.rtPmDeviceRead pos).2.pm.oob = true := by
      rw [rtPmDeviceRead, if_pos hlt, dif_neg hout]
      rfl
    exact Bool.noConfusion (hoob.symm.trans hsafe.oob)
  | rtSystemPowerManager irq => exact Bool.noConfusion hpass
  | _ => exact he trivial

/-! ## Runs -/

theorem boot_bounded (ops : RtPmOps X) (rtTick : U32) (x : X) : Bounded (boot ops rtTick x) where
  oob := rfl
  now := ⟨(by decide : (0 : U8).toNat < pmSleepModeMax), (by decide : (0 : U8).toNat < pmRunModeMax)⟩
  default := (by decide : rtPmDefaultDeepsleepMode.toNat < pmSleepModeMax)
  past := fun p hp => absurd hp List.not_mem_nil

theorem enters_snoc (w : World X) (es : List (Entry X)) (e : Entry X) :
    w.enters (es ++ [e]) = (w.enters es).enter e := by
  simp [enters]

/-- Every step of a run from power-on finds its unchecked index in range. -/
def StepsChecked (ops : RtPmOps X) (rtTick : U32) (x : X) : List (Entry X) → Prop :=
  Justified fun p e => e.Checked ((boot ops rtTick x).enters p).pm

theorem enters_bounded (ops : RtPmOps X) (rtTick : U32) (x : X) {es : List (Entry X)}
    (h : StepsChecked ops rtTick x es) : Bounded ((boot ops rtTick x).enters es) := by
  induction es using List.reverseRecOn with
  | nil => exact boot_bounded ops rtTick x
  | append_singleton es e ih =>
    obtain ⟨hes, he⟩ := justified_snoc.1 h
    rw [enters_snoc]
    exact (ih hes).enter he

/-- **No table is indexed outside in any run whose steps find the unchecked indices in range**, with
the calls of interrupt handlers anywhere in its passes; and after such a run any entry point but a
pass keeps it so if and only if it finds its own in range. -/
theorem enters_safe_iff (ops : RtPmOps X) (rtTick : U32) (x : X) (es : List (Entry X))
    (h : StepsChecked ops rtTick x es) :
    (∀ p, p <+: es → Safe ((boot ops rtTick x).enters p)) ∧
      ∀ e : Entry X, e.isPass = false → ((boot ops rtTick x).enters es).dead = false →
        (Safe ((boot ops rtTick x).enters (es ++ [e])) ↔
          e.Checked ((boot ops rtTick x).enters es).pm) := by
  constructor
  · rintro p ⟨q, rfl⟩
    have hp : StepsChecked ops rtTick x p := fun pre e post heq =>
      h pre e (post ++ q) (by rw [heq, List.append_assoc, List.cons_append])
    exact (enters_bounded ops rtTick x hp).safe
  · intro e hpass hdead
    rw [enters_snoc]
    constructor
    · intro hsafe
      by_contra he
      exact not_safe_of_unchecked hdead hpass he hsafe
    · intro he
      exact ((enters_bounded ops rtTick x h).enter he).safe

/-- Requests, a run mode, a pass, a read and a dump after initialisation. -/
theorem enters_safe_boot :
    Safe ((boot idleOps 0 ()).enters
      [.rtPmDefaultSet 5, .rtSystemPmInit idleOps 0x0c, .call (.rtPmRunEnter 3),
        .rtSystemPowerManager .none, .rtPmDeviceRead 5, .rtPmDumpStatus]) := by
  refine (enters_safe_iff idleOps 0 () _ ?_).1 _ (List.prefix_refl _)
  change Justified _ ([] ++ [_] ++ [_] ++ [_] ++ [_] ++ [_] ++ [_])
  simp only [justified_snoc]
  refine ⟨⟨⟨⟨⟨⟨Justified.nil _, trivial⟩, ?_⟩, ?_⟩, ?_⟩, ?_⟩, trivial⟩
  · exact (by decide : (5 : U8).toNat < pmSleepModeMax)
  · exact fun _ => (by decide : (3 : U8).toNat ≠ pmRunModeMax)
  · exact fun _ => ⟨nofun, nofun, nofun⟩
  · exact (by decide : 0 ≤ (5 : CInt).toInt)

/-- Each of the four unchecked indices leaves a table. -/
theorem enters_unsafe :
    ¬Safe ((boot idleOps 0 ()).enters [.rtSystemPmInit idleOps 0x0c, .call (.rtPmRunEnter 4)]) ∧
      ((boot idleOps 0 ()).enters [.rtSystemPmInit idleOps 0x0c, .call (.rtPmRunEnter 4),
        .rtSystemPowerManager .none]).driver.oob = true ∧
      ¬Safe ((boot idleOps 0 ()).enters [.rtPmDefaultSet 6, .rtSystemPmInit idleOps 0x0c]) ∧
      ¬Safe ((boot idleOps 0 ()).enters [.rtSystemPmInit idleOps 0x0c,
        .call (.rtPmModuleReleaseAll 17 0)]) ∧
      ¬Safe ((boot idleOps 0 ()).enters [.rtPmDeviceRead (-1)]) := by
  refine ⟨fun h => ?_, by decide +kernel, fun h => ?_, fun h => ?_, fun h => ?_⟩
  · exact absurd h.now.runMode (by decide +kernel)
  · exact absurd h.oob (by decide +kernel)
  · exact absurd h.oob (by decide +kernel)
  · exact absurd h.oob (by decide +kernel)

end World
end LowPower.Pm
