import LowPower.Lib.Tally
import LowPower.Spec.PmPass

/-!
# Sleep requests of PM 2.0

What an interface call does to the request counters and to the cached selection. A call counts for
one mode or for none (`Call.tally`); the counter of a mode moves as the bounded counter of `Tally`
does, and a call that counts recomputes the selection (`call_counted`). What a call can do at all
is said once (`call_cases`); nothing else of what a pass looks at is touched (`call_same`).

Hence a mode stays held while a request for it is unmatched, as long as no request finds 255
outstanding ones (`modes_held_iff`).
-/

namespace LowPower.Pm

variable {X : Type}

/-- The mode a call counts for, if its arguments are accepted. -/
def Call.tally : Call → Option (Tally × Fin pmSleepModeMax)
  | .rtPmRequest m => if h : m.toNat < pmSleepModeMax then some (.request, ⟨m.toNat, h⟩) else none
  | .rtPmRelease m => if h : m.toNat < pmSleepModeMax then some (.release, ⟨m.toNat, h⟩) else none
  | .rtPmReleaseAll m =>
    if h : m.toNat < pmSleepModeMax then some (.releaseAll, ⟨m.toNat, h⟩) else none
  | .rtPmModuleRequest k m =>
    if h : m.toNat < pmSleepModeMax then
      if k.toNat < pmModuleMaxId then some (.request, ⟨m.toNat, h⟩) else none
    else none
  | .rtPmModuleRelease k m =>
    if h : m.toNat < pmSleepModeMax then
      if k.toNat < pmModuleMaxId then some (.release, ⟨m.toNat, h⟩) else none
    else none
  | .rtPmModuleReleaseAll _ m =>
    if h : m.toNat < pmSleepModeMax then some (.releaseAll, ⟨m.toNat, h⟩) else none
  | .rtPmModuleDelaySleep _ _ => none
  | .rtPmRunEnter _ => none

/-- The calls that make or take back requests. -/
def Call.counts : Call → Bool
  | .rtPmModuleDelaySleep _ _ => false
  | .rtPmRunEnter _ => false
  | _ => true

/-- The request counter of a mode. -/
def RtPm.counter (pm : RtPm X) (m : Fin pmSleepModeMax) : ℕ := pm.modes[m].toNat

/-- The static data without the requests, the delays and the run mode. -/
def RtPm.fixed (pm : RtPm X) : RtPm X :=
  { pm with
    modes := Vector.replicate _ 0
    sleepMode := 0
    runMode := 0
    moduleStatus := Vector.replicate _ ⟨0, false, 0, 0⟩
    flags := 0
    oob := false }

namespace World

variable {w : World X}

/-! ## Frame facts -/

@[simp] theorem emit_pm (e : Ev) : (w.emit e).pm = w.pm := rfl
@[simp] theorem mapPm_pm (f : RtPm X → RtPm X) : (w.mapPm f).pm = f w.pm := rfl
@[simp] theorem callback_pm (e : Ev) (f : X → X) : (w.callback e f).pm = w.pm := rfl

theorem locked_pm (body : World X → World X) : (w.locked body).pm = (body (w.emit .irqDisable)).pm :=
  rfl

/-- Everything a pass looks at, apart from the requests, the delays and the run mode. -/
structure Same (w w' : World X) : Prop where
  ops : w'.ops = w.ops
  rtTick : w'.rtTick = w.rtTick
  timers : w'.timers = w.timers
  dead : w'.dead = w.dead
  fixed : w'.pm.fixed = w.pm.fixed

namespace Same

variable {w' w'' : World X}

theorem refl (w : World X) : Same w w := ⟨rfl, rfl, rfl, rfl, rfl⟩

theorem trans (h : Same w w') (h' : Same w' w'') : Same w w'' :=
  ⟨h'.ops.trans h.ops, h'.rtTick.trans h.rtTick, h'.timers.trans h.timers, h'.dead.trans h.dead,
    h'.fixed.trans h.fixed⟩

theorem emit (w : World X) (e : Ev) : Same w (w.emit e) := ⟨rfl, rfl, rfl, rfl, rfl⟩

theorem callback (w : World X) (e : Ev) (f : X → X) : Same w (w.callback e f) :=
  ⟨rfl, rfl, rfl, rfl, rfl⟩

theorem mapPm {f : RtPm X → RtPm X} (hf : (f w.pm).fixed = w.pm.fixed) : Same w (w.mapPm f) :=
  ⟨rfl, rfl, rfl, rfl, hf⟩

theorem locked {body : World X → World X} (hb : Same (w.emit .irqDisable) (body (w.emit .irqDisable))) :
    Same w (w.locked body) :=
  ((Same.emit w .irqDisable).trans hb).trans (Same.emit _ _)

theorem initFlag (h : Same w w') : w'.pm.initFlag = w.pm.initFlag := by
  have hf := congrArg RtPm.initFlag h.fixed
  exact hf

theorem timerMask (h : Same w w') : w'.pm.timerMask = w.pm.timerMask :=
  by
  have hf := congrArg RtPm.timerMask h.fixed
  exact hf

theorem defaultDeepsleep (h : Same w w') : w'.pm.defaultDeepsleep = w.pm.defaultDeepsleep :=
  by
  have hf := congrArg RtPm.defaultDeepsleep h.fixed
  exact hf

end Same

theorem forDevices_same (sel : RtDevicePm X → Option (U8 → X → X)) (e : ℕ → U8 → Ev) (mode : U8)
    (index : ℕ) (ds : List (RtDevicePm X)) (w : World X) :
    Same w (forDevices sel e mode index ds w) := by
  induction ds generalizing index w with
  | nil => exact Same.refl w
  | cons d ds ih =>
    unfold forDevices
    split
    · exact ih _ _
    · exact (Same.callback w _ _).trans (ih _ _)

theorem forDevices_pm (sel : RtDevicePm X → Option (U8 → X → X)) (e : ℕ → U8 → Ev) (mode : U8)
    (index : ℕ) (ds : List (RtDevicePm X)) (w : World X) :
    (forDevices sel e mode index ds w).pm = w.pm := by
  induction ds generalizing index w with
  | nil => rfl
  | cons d ds ih =>
    unfold forDevices
    split
    · exact ih _ _
    · exact (ih _ _).trans (callback_pm _ _)

/-! ## The counters -/

/-- The new value of a request counter. -/
def bump (x : U8) : Tally → U8
  | .request => if x < 255 then x + 1 else x
  | .release => if 0 < x then x - 1 else x
  | .releaseAll => 0

theorem bump_toNat (x : U8) (a : Tally) : (bump x a).toNat = Tally.sat 255 x.toNat a := by
  have hlt := x.isLt
  cases a with
  | request =>
    show (if x < 255 then x + 1 else x).toNat = if x.toNat < 255 then x.toNat + 1 else x.toNat
    by_cases h : x < 255
    · have h' : x.toNat < 255 := h
      rw [if_pos h, if_pos h']
      bv_omega
    · have h' : ¬x.toNat < 255 := h
      rw [if_neg h, if_neg h']
  | release =>
    show (if 0 < x then x - 1 else x).toNat = x.toNat - 1
    by_cases h : 0 < x
    · rw [if_pos h]
      bv_omega
    · rw [if_neg h]
      bv_omega
  | releaseAll => rfl

/-- The data after a request, release or release of all. -/
def tallied (pm : RtPm X) (a : Tally) (m : Fin pmSleepModeMax) : RtPm X :=
  { pm with modes := pm.modes.set m (bump pm.modes[m] a) m.isLt }

theorem set_self (pm : RtPm X) (m : Fin pmSleepModeMax) :
    { pm with modes := pm.modes.set m pm.modes[m] m.isLt } = pm := by
  have hv : pm.modes.set m pm.modes[m] m.isLt = pm.modes := Vector.set_getElem_self m.isLt
  rw [hv]

theorem incMode_eq (m : Fin pmSleepModeMax) (pm : RtPm X) : incMode m pm = tallied pm .request m := by
  unfold incMode tallied
  dsimp only [bump]
  split_ifs
  · rfl
  · exact (set_self pm m).symm

theorem decMode_eq (m : Fin pmSleepModeMax) (pm : RtPm X) : decMode m pm = tallied pm .release m := by
  unfold decMode tallied
  dsimp only [bump]
  split_ifs
  · rfl
  · exact (set_self pm m).symm

/-- The selection looks at the counters and at the default only. -/
theorem selectSleepMode_congr {pm pm' : RtPm X} (hm : pm'.modes = pm.modes)
    (hd : pm'.defaultDeepsleep = pm.defaultDeepsleep) : selectSleepMode pm' = selectSleepMode pm := by
  unfold selectSleepMode
  rw [hm, hd]

/-- The data after a call that counts. -/
structure Counted (pm : RtPm X) (a : Tally) (m : Fin pmSleepModeMax) (pm' : RtPm X) : Prop where
  modes : pm'.modes = pm.modes.set m (bump pm.modes[m] a) m.isLt
  sleepMode : pm'.sleepMode = selectSleepMode pm'
  rest : pm' = { pm with
    modes := pm'.modes
    sleepMode := pm'.sleepMode
    moduleStatus := pm'.moduleStatus
    oob := pm'.oob }

/-- The body of each call that counts. -/
theorem counted_select {pm : RtPm X} (pm' : RtPm X) {a : Tally} {m : Fin pmSleepModeMax}
    (hm : pm'.modes = pm.modes.set m (bump pm.modes[m] a) m.isLt)
    (hr : pm' = { pm with modes := pm'.modes, moduleStatus := pm'.moduleStatus, oob := pm'.oob }) :
    Counted pm a m { pm' with sleepMode := selectSleepMode pm' } := by
  refine ⟨hm, selectSleepMode_congr rfl rfl, ?_⟩
  rw [hr]

/-- **A call that counts.** -/
theorem call_counted (hi : w.pm.initFlag ≠ 0) {f : Call} {a : Tally} {m : Fin pmSleepModeMax}
    (hf : f.tally = some (a, m)) : Counted w.pm a m (w.call f).pm := by
  cases f with
  | rtPmRequest mode =>
    obtain ⟨rfl, hm, rfl⟩ := by simpa [Call.tally] using hf
    rw [call, rtPmRequest, if_neg hi, dif_neg (Nat.not_le.2 hm), locked_pm]
    refine counted_select (incMode _ w.pm) ?_ ?_ <;> rw [incMode_eq] <;> rfl
  | rtPmRelease mode =>
    obtain ⟨rfl, hm, rfl⟩ := by simpa [Call.tally] using hf
    rw [call, rtPmRelease, if_neg hi, dif_neg (Nat.not_le.2 hm), locked_pm]
    refine counted_select (decMode _ w.pm) ?_ ?_ <;> rw [decMode_eq] <;> rfl
  | rtPmReleaseAll mode =>
    obtain ⟨rfl, hm, rfl⟩ := by simpa [Call.tally] using hf
    rw [call, rtPmReleaseAll, if_neg hi, dif_neg (Nat.not_le.2 hm), locked_pm]
    exact counted_select (clearMode _ w.pm) rfl rfl
  | rtPmModuleRequest k mode =>
    obtain ⟨hk, rfl, hm, rfl⟩ := by simpa [Call.tally] using hf
    rw [call, rtPmModuleRequest, if_neg hi, dif_neg (Nat.not_le.2 hm), dif_neg (Nat.not_le.2 hk),
      locked_pm]
    refine counted_select (incMode _ (setReqStatus _ _ w.pm)) ?_ ?_ <;> rw [incMode_eq] <;> rfl
  | rtPmModuleRelease k mode =>
    obtain ⟨hk, rfl, hm, rfl⟩ := by simpa [Call.tally] using hf
    rw [call, rtPmModuleRelease, if_neg hi, dif_neg (Nat.not_le.2 hm), dif_neg (Nat.not_le.2 hk),
      locked_pm]
    refine counted_select _ ?_ ?_
    all_goals
      simp only [mapPm_pm, emit_pm, decMode_eq]
      split_ifs <;> rfl
  | rtPmModuleReleaseAll k mode =>
    obtain ⟨rfl, hm, rfl⟩ := by simpa [Call.tally] using hf
    rw [call, rtPmModuleReleaseAll, if_neg hi, dif_neg (Nat.not_le.2 hm), locked_pm]
    refine counted_select _ ?_ ?_
    all_goals
      dsimp only [mapPm_pm, emit_pm]
      split_ifs <;> rfl
  | rtPmModuleDelaySleep k n => simp [Call.tally] at hf
  | rtPmRunEnter mode => simp [Call.tally] at hf

theorem opsRun_same (mode : U8) (w : World X) : Same w (w.opsRun mode) := Same.callback w _ _

theorem pmDeviceFrequencyChange_same (mode : U8) (w : World X) :
    Same w (w.pmDeviceFrequencyChange mode) := forDevices_same _ _ _ _ _ w

theorem rtPmRunEnter_same (mode : U8) (w : World X) : Same w (w.rtPmRunEnter mode).2 := by
  unfold rtPmRunEnter
  split_ifs
  · exact Same.refl w
  · exact Same.refl w
  · dsimp only
    refine Same.locked ?_
    split_ifs
    · exact ((opsRun_same _ _).trans (pmDeviceFrequencyChange_same _ _)).trans (Same.mapPm rfl)
    · exact (Same.mapPm rfl).trans (Same.mapPm rfl)

/-- A change of the requests: the counters, the selection and the module records. -/
def OnRequests (g : RtPm X → RtPm X) : Prop := ∀ pm, g pm = { pm with
  modes := (g pm).modes
  sleepMode := (g pm).sleepMode
  moduleStatus := (g pm).moduleStatus
  oob := (g pm).oob }

/-- Each change of the requests is followed by a selection. -/
theorem OnRequests.select {g : RtPm X → RtPm X} (hg : OnRequests g) :
    OnRequests fun pm => { g pm with sleepMode := selectSleepMode (g pm) } := by
  intro pm
  dsimp only
  rw [hg pm]

theorem OnRequests.comp {g g' : RtPm X → RtPm X} (hg : OnRequests g) (hg' : OnRequests g') :
    OnRequests fun pm => g' (g pm) := by
  intro pm
  dsimp only
  rw [hg' (g pm), hg pm]

theorem onRequests_tallied (a : Tally) (m : Fin pmSleepModeMax) :
    OnRequests fun pm : RtPm X => tallied pm a m := fun _ => rfl

theorem onRequests_incMode (m : Fin pmSleepModeMax) : OnRequests (X := X) (incMode m) := by
  intro pm
  rw [incMode_eq]
  exact onRequests_tallied .request m pm

theorem onRequests_decMode (m : Fin pmSleepModeMax) : OnRequests (X := X) (decMode m) := by
  intro pm
  rw [decMode_eq]
  exact onRequests_tallied .release m pm

/-- **What a call can do**: nothing, one change of the requests in a locked section, or a change of
the run mode. -/
theorem call_cases (f : Call) (w : World X) :
    w.call f = w ∨ (∃ g, OnRequests g ∧ w.call f = w.locked (·.mapPm g)) ∨
      ∃ mode, f = .rtPmRunEnter mode := by
  cases f with
  | rtPmRequest mode =>
    rw [call, rtPmRequest]
    split_ifs
    · exact .inl rfl
    · exact .inl rfl
    · exact .inr (.inl ⟨_, (onRequests_incMode _).select, rfl⟩)
  | rtPmRelease mode =>
    rw [call, rtPmRelease]
    split_ifs
    · exact .inl rfl
    · exact .inl rfl
    · exact .inr (.inl ⟨_, (onRequests_decMode _).select, rfl⟩)
  | rtPmReleaseAll mode =>
    rw [call, rtPmReleaseAll]
    split_ifs with hi hm
    · exact .inl rfl
    · exact .inl rfl
    · have hclear : OnRequests (X := X) (clearMode ⟨mode.toNat, by omega⟩) := fun _ => rfl
      exact .inr (.inl ⟨_, hclear.select, rfl⟩)
  | rtPmModuleRequest k mode =>
    rw [call, rtPmModuleRequest]
    split_ifs with hi hm hk
    · exact .inl rfl
    · exact .inl rfl
    · exact .inl rfl
    · have hset : OnRequests (X := X) (setReqStatus ⟨k.toNat, by omega⟩ 0x01) := fun _ => rfl
      exact .inr (.inl ⟨_, (hset.comp (onRequests_incMode _)).select, rfl⟩)
  | rtPmModuleRelease k mode =>
    rw [call, rtPmModuleRelease]
    split_ifs with hi hm hk
    · exact .inl rfl
    · exact .inl rfl
    · exact .inl rfl
    · have hset : OnRequests fun pm : RtPm X =>
          if pm.modes.get ⟨mode.toNat, by omega⟩ = 0 then
            setReqStatus ⟨k.toNat, by omega⟩ 0x00 pm
          else pm := by
        intro pm
        dsimp only
        split_ifs <;> rfl
      dsimp only
      -- a name for the change, so that its test is not unfolded below
      generalize (fun pm : RtPm X => if pm.modes.get _ = 0 then setReqStatus _ 0x00 pm else pm) = g
        at hset ⊢
      exact .inr (.inl ⟨_, ((onRequests_decMode _).comp hset).select, rfl⟩)
  | rtPmModuleReleaseAll k mode =>
    rw [call, rtPmModuleReleaseAll]
    split_ifs with hi hm
    · exact .inl rfl
    · exact .inl rfl
    -- the module number is not checked, so there are two bodies
    all_goals
      have hclear : OnRequests (X := X) (clearMode ⟨mode.toNat, by omega⟩) := fun _ => rfl
    · have hset : OnRequests (X := X) (setReqStatus ⟨k.toNat, ‹_›⟩ 0x00) := fun _ => rfl
      exact .inr (.inl ⟨_, (hclear.comp hset).select, rfl⟩)
    · have hoob : OnRequests fun pm : RtPm X => { pm with oob := true } := fun _ => rfl
      exact .inr (.inl ⟨_, (hclear.comp hoob).select, rfl⟩)
  | rtPmModuleDelaySleep k n =>
    rw [call, rtPmModuleDelaySleep]
    split_ifs with hi hk
    · exact .inl rfl
    · exact .inl rfl
    · have hdelay : OnRequests (X := X) (delayModule ⟨k.toNat, by omega⟩ n w.rtTick) := fun _ => rfl
      exact .inr (.inl ⟨_, hdelay, rfl⟩)
  | rtPmRunEnter mode => exact .inr (.inr ⟨mode, rfl⟩)

/-- No call touches what else a pass looks at. -/
theorem call_same (f : Call) : Same w (w.call f) := by
  obtain hcall | ⟨g, hg, hcall⟩ | ⟨mode, rfl⟩ := call_cases f w
  · rw [hcall]
    exact Same.refl w
  · rw [hcall]
    refine Same.locked (Same.mapPm ?_)
    rw [hg]
    rfl
  · exact rtPmRunEnter_same mode w

/-- The change of the requests in `rt_pm_module_release`, before the selection. -/
def releaseModule (k : Fin pmModuleMaxId) (m : Fin pmSleepModeMax) (pm : RtPm X) : RtPm X :=
  if (decMode m pm).modes.get m = 0 then setReqStatus k 0x00 (decMode m pm) else decMode m pm

theorem rtPmModuleRelease_pm (hi : w.pm.initFlag ≠ 0) {k m : U8} (hk : k.toNat < pmModuleMaxId)
    (hm : m.toNat < pmSleepModeMax) :
    (w.rtPmModuleRelease k m).pm =
      { releaseModule ⟨k.toNat, hk⟩ ⟨m.toNat, hm⟩ w.pm with
        sleepMode := selectSleepMode (releaseModule ⟨k.toNat, hk⟩ ⟨m.toNat, hm⟩ w.pm) } := by
  unfold rtPmModuleRelease
  rw [if_neg hi, dif_neg (by omega), dif_neg (by omega)]
  rfl

/-- A change of the run mode leaves the counters and the selection alone. -/
theorem rtPmRunEnter_requests (mode : U8) (w : World X) :
    (w.rtPmRunEnter mode).2.pm.modes = w.pm.modes ∧
      (w.rtPmRunEnter mode).2.pm.sleepMode = w.pm.sleepMode := by
  have hdev : ∀ w : World X, (w.pmDeviceFrequencyChange mode).pm = w.pm :=
    fun w => forDevices_pm _ _ _ _ _ w
  unfold rtPmRunEnter
  split_ifs
  · exact ⟨rfl, rfl⟩
  · exact ⟨rfl, rfl⟩
  · dsimp only
    rw [locked_pm]
    split_ifs
    · rw [mapPm_pm, hdev]
      exact ⟨rfl, rfl⟩
    · exact ⟨rfl, rfl⟩

/-- A request or release whose arguments are out of range does nothing. -/
theorem call_rejected {f : Call} (hc : f.counts = true) (hf : f.tally = none) : w.call f = w := by
  cases f with
  | rtPmRequest mode =>
    have hm : pmSleepModeMax ≤ mode.toNat := by simpa [Call.tally] using hf
    rw [call, rtPmRequest, dif_pos hm]
    split_ifs <;> rfl
  | rtPmRelease mode =>
    have hm : pmSleepModeMax ≤ mode.toNat := by simpa [Call.tally] using hf
    rw [call, rtPmRelease, dif_pos hm]
    split_ifs <;> rfl
  | rtPmReleaseAll mode =>
    have hm : pmSleepModeMax ≤ mode.toNat := by simpa [Call.tally] using hf
    rw [call, rtPmReleaseAll, dif_pos hm]
    split_ifs <;> rfl
  | rtPmModuleRequest k mode =>
    rw [call, rtPmModuleRequest]
    split_ifs with h1 hm hk
    · rfl
    · rfl
    · rfl
    · simp [Call.tally, Nat.not_le.1 hm, Nat.not_le.1 hk] at hf
  | rtPmModuleRelease k mode =>
    rw [call, rtPmModuleRelease]
    split_ifs with h1 hm hk
    · rfl
    · rfl
    · rfl
    · simp [Call.tally, Nat.not_le.1 hm, Nat.not_le.1 hk] at hf
  | rtPmModuleReleaseAll k mode =>
    have hm : pmSleepModeMax ≤ mode.toNat := by simpa [Call.tally] using hf
    rw [call, rtPmModuleReleaseAll, dif_pos hm]
    split_ifs <;> rfl
  | rtPmModuleDelaySleep k n => exact Bool.noConfusion hc
  | rtPmRunEnter mode => exact Bool.noConfusion hc

/-- A call that counts for no mode leaves the counters and the selection alone. -/
theorem call_uncounted {f : Call} (hf : f.tally = none) :
    (w.call f).pm.modes = w.pm.modes ∧ (w.call f).pm.sleepMode = w.pm.sleepMode := by
  by_cases hc : f.counts = true
  · rw [call_rejected hc hf]
    exact ⟨rfl, rfl⟩
  cases f with
  | rtPmModuleDelaySleep k n =>
    rw [call, rtPmModuleDelaySleep]
    split_ifs <;> exact ⟨rfl, rfl⟩
  | rtPmRunEnter mode => exact rtPmRunEnter_requests mode w
  | _ => exact absurd rfl hc

/-- Before `rt_system_pm_init` no call does anything. -/
theorem call_of_not_init (h : w.pm.initFlag = 0) (f : Call) : w.call f = w := by
  cases f with
  | rtPmRunEnter mode =>
    rw [call, rtPmRunEnter, if_pos h]
  | _ => exact if_pos h

/-! ## Runs of calls -/

theorem calls_snoc (w : World X) (fs : List Call) (f : Call) :
    w.calls (fs ++ [f]) = (w.calls fs).call f := by
  simp [calls]

theorem calls_same (fs : List Call) (w : World X) : Same w (w.calls fs) := by
  induction fs using List.reverseRecOn with
  | nil => exact Same.refl w
  | append_singleton fs f ih =>
    rw [calls_snoc]
    exact ih.trans (call_same f)

theorem calls_initFlag (hi : w.pm.initFlag ≠ 0) (fs : List Call) : (w.calls fs).pm.initFlag ≠ 0 := by
  rw [(calls_same fs w).initFlag]
  exact hi

/-- What a call does to the counter of one mode. -/
def tallyOf (m : Fin pmSleepModeMax) (f : Call) : Option Tally :=
  match f.tally with
  | some (a, m') => if m' = m then some a else none
  | none => none

/-- The requests and releases of one mode in a run. -/
def tallies (m : Fin pmSleepModeMax) (fs : List Call) : List Tally := fs.filterMap (tallyOf m)

/-- The counter of a mode follows its requests and releases, up to 255. -/
theorem call_counter (hi : w.pm.initFlag ≠ 0) (m : Fin pmSleepModeMax) (f : Call) :
    (w.call f).pm.counter m =
      ((tallyOf m f).map (Tally.sat 255 (w.pm.counter m))).getD (w.pm.counter m) := by
  unfold tallyOf RtPm.counter
  cases hf : f.tally with
  | none => simp only [Option.map_none, Option.getD_none, (call_uncounted hf).1]
  | some v =>
    obtain ⟨a, m'⟩ := v
    have hmodes := (call_counted hi hf).modes
    dsimp only
    split_ifs with hm
    · subst hm
      rw [Option.map_some, Option.getD_some, ← bump_toNat, hmodes]
      simp
    · have hne : m'.val ≠ m.val := fun h => hm (Fin.ext h)
      rw [Option.map_none, Option.getD_none, hmodes]
      simp [hne]

theorem tallies_snoc (m : Fin pmSleepModeMax) (fs : List Call) (f : Call) :
    tallies m (fs ++ [f]) = tallies m fs ++ (tallyOf m f).toList := by
  rw [tallies, List.filterMap_append]
  cases hf : tallyOf m f <;> simp [tallies, hf]

/-- **The counters after a run of calls.** -/
theorem calls_counter (hi : w.pm.initFlag ≠ 0) (m : Fin pmSleepModeMax) (fs : List Call) :
    (w.calls fs).pm.counter m = (tallies m fs).foldl (Tally.sat 255) (w.pm.counter m) := by
  induction fs using List.reverseRecOn with
  | nil => rfl
  | append_singleton fs f ih =>
    rw [calls_snoc, call_counter (calls_initFlag hi fs), ih, tallies_snoc, List.foldl_append]
    cases tallyOf m f with
    | none => rfl
    | some a => rfl

/-- The cached selection agrees with the counters. -/
def Synced (pm : RtPm X) : Prop := pm.sleepMode = selectSleepMode pm

/-- **No call leaves the cache behind the counters.** -/
theorem call_synced (hi : w.pm.initFlag ≠ 0) (h : Synced w.pm) (f : Call) :
    Synced (w.call f).pm := by
  cases hf : f.tally with
  | none =>
    obtain ⟨hm, hs⟩ := call_uncounted (w := w) hf
    unfold Synced
    rw [hs, selectSleepMode_congr hm (call_same f).defaultDeepsleep]
    exact h
  | some v =>
    obtain ⟨a, m⟩ := v
    exact (call_counted hi hf).sleepMode

/-! ## Outstanding requests -/

/-- The requests of a mode outstanding after a run: one at power-on for `PM_SLEEP_MODE_NONE`. -/
def outstanding (m : Fin pmSleepModeMax) (fs : List Call) : ℕ :=
  (tallies m fs).foldl Tally.count (if m.val = pmSleepModeNone.toNat then 1 else 0)

/-- The static data after `rt_system_pm_init`. -/
theorem start_pm (ops : RtPmOps X) (timerMask : U8) (rtTick : U32) (x : X) :
    (start ops timerMask rtTick x).pm =
      { RtPm.boot X with
        modes := (Vector.replicate _ 0).set 0 1
        runMode := rtPmDefaultRunMode
        moduleStatus := (Vector.replicate _ ⟨0, false, 0, 0⟩).set 1 ⟨1, false, 0, 0⟩
        timerMask := timerMask
        initFlag := 1 } := rfl

theorem start_initFlag (ops : RtPmOps X) (timerMask : U8) (rtTick : U32) (x : X) :
    (start ops timerMask rtTick x).pm.initFlag ≠ 0 := by
  rw [start_pm]
  exact (by decide : (1 : U8) ≠ 0)

theorem start_synced (ops : RtPmOps X) (timerMask : U8) (rtTick : U32) (x : X) :
    Synced (start ops timerMask rtTick x).pm := by
  rw [start_pm]
  rfl

theorem start_counter (ops : RtPmOps X) (timerMask : U8) (rtTick : U32) (x : X)
    (m : Fin pmSleepModeMax) :
    (start ops timerMask rtTick x).pm.counter m =
      if m.val = pmSleepModeNone.toNat then 1 else 0 := by
  have hall : ∀ m : Fin pmSleepModeMax,
      ((Vector.replicate pmSleepModeMax (0 : U8)).set 0 1)[m].toNat =
        if m.val = pmSleepModeNone.toNat then 1 else 0 := by decide
  exact hall m

/-- The counters after a run from initialisation. -/
theorem start_calls_counter (ops : RtPmOps X) (timerMask : U8) (rtTick : U32) (x : X)
    (m : Fin pmSleepModeMax) (fs : List Call) :
    ((start ops timerMask rtTick x).calls fs).pm.counter m =
      (tallies m fs).foldl (Tally.sat 255) (if m.val = pmSleepModeNone.toNat then 1 else 0) := by
  rw [calls_counter (start_initFlag ops timerMask rtTick x), start_counter]

/-- The call `rt_pm_release(m)`. -/
def releaseCall (m : Fin pmSleepModeMax) : Call := .rtPmRelease (BitVec.ofNat 8 m.val)

theorem tallies_releases (m : Fin pmSleepModeMax) (p : List Call) (j : ℕ) :
    tallies m (p ++ List.replicate j (releaseCall m)) = tallies m p ++ List.replicate j .release := by
  have hall : ∀ m : Fin pmSleepModeMax, tallyOf m (releaseCall m) = some .release := by decide
  have hone := hall m
  rw [tallies, List.filterMap_append, List.filterMap_replicate_of_some hone]
  rfl

/-- Every request of a mode is made while fewer than 255 are outstanding. -/
def Unsaturated (m : Fin pmSleepModeMax) (fs : List Call) : Prop :=
  ∀ p f, p ++ [f] <+: fs → tallyOf m f = some .request → outstanding m p < 255

theorem unsaturated_iff (m : Fin pmSleepModeMax) (fs : List Call) :
    Unsaturated m fs ↔ Tally.Fits 255 (outstanding m []) (tallies m fs) := by
  induction fs using List.reverseRecOn with
  | nil =>
    refine ⟨fun _ => trivial, ?_⟩
    rintro - p f hp
    simp at hp
  | append_singleton fs g ih =>
    have hlast : Tally.Fits 255 (outstanding m fs) (tallyOf m g).toList ↔
        (tallyOf m g = some .request → outstanding m fs < 255) := by
      cases tallyOf m g <;> simp [Tally.Fits]
    have hout : (tallies m fs).foldl Tally.count (outstanding m []) = outstanding m fs := rfl
    rw [tallies_snoc, Tally.fits_append, hout, hlast, ← ih]
    constructor
    · intro h
      refine ⟨?_, h fs g (List.prefix_refl _)⟩
      intro p f hp
      exact h p f (hp.trans (List.prefix_append _ _))
    · rintro ⟨hfs, hg⟩ p f hp
      rcases List.prefix_concat_iff.1 hp with heq | hp
      · obtain ⟨rfl, hf⟩ := List.append_inj' heq rfl
        obtain rfl := List.singleton_injective hf
        exact hg
      · exact hfs p f hp

/-- **A mode is held exactly while a request for it is unmatched**, after every call of a run and
after any releases that follow, if and only if no request finds 255 outstanding ones. -/
theorem modes_held_iff (ops : RtPmOps X) (timerMask : U8) (rtTick : U32) (x : X)
    (m : Fin pmSleepModeMax) (fs : List Call) :
    Unsaturated m fs ↔ ∀ p, p <+: fs → ∀ j,
      (((start ops timerMask rtTick x).calls (p ++ List.replicate j (releaseCall m))).pm.modes[m] ≠ 0
        ↔ outstanding m (p ++ List.replicate j (releaseCall m)) ≠ 0) := by
  have hstart : outstanding m [] ≤ 255 := by
    unfold outstanding
    split_ifs <;> simp [tallies]
  -- a counter is zero as a byte exactly when it is zero as a number
  have hzero : ∀ fs : List Call,
      (((start ops timerMask rtTick x).calls fs).pm.modes[m] ≠ 0 ↔ outstanding m fs ≠ 0) ↔
        ((tallies m fs).foldl (Tally.sat 255) (outstanding m []) = 0 ↔
          (tallies m fs).foldl Tally.count (outstanding m []) = 0) := by
    intro fs
    have hc := start_calls_counter ops timerMask rtTick x m fs
    have hbyte : ((start ops timerMask rtTick x).calls fs).pm.modes[m] = 0 ↔
        ((start ops timerMask rtTick x).calls fs).pm.counter m = 0 := BitVec.toNat_eq
    rw [not_iff_not, hbyte, hc]
    rfl
  rw [unsaturated_iff, Tally.fits_iff hstart]
  constructor
  · intro h p hp j
    rw [hzero, tallies_releases]
    exact h _ (hp.filterMap _) j
  · intro h p hp j
    obtain ⟨q, hq, rfl⟩ := List.prefix_filterMap_iff.1 hp
    have hj := h q hq j
    rw [hzero, tallies_releases] at hj
    exact hj

/-- A platform on which the callbacks do nothing. -/
def idleOps : RtPmOps Unit where
  sleep := fun _ x => x
  run := fun _ x => x
  timerStart := none
  timerStop := fun x => x
  timerGetTick := fun x => (0, x)

/-- 256 requests of `PM_SLEEP_MODE_LIGHT` and 255 releases leave one request outstanding, and the
counter at zero. -/
theorem modes_held_saturated :
    let fs := List.replicate 256 (.rtPmRequest 2) ++ List.replicate 255 (.rtPmRelease 2)
    ¬(((start idleOps 0x0c 0 ()).calls fs).pm.modes[2] ≠ 0 ↔ outstanding 2 fs ≠ 0) := by
  intro fs
  have hc := start_calls_counter idleOps 0x0c 0 () 2 fs
  have hsat : (tallies 2 fs).foldl (Tally.sat 255) 0 = 0 := by decide +kernel
  have hout : outstanding 2 fs = 1 := by decide +kernel
  have hmode : ((start idleOps 0x0c 0 ()).calls fs).pm.modes[2] = 0 :=
    BitVec.eq_of_toNat_eq (hc.trans hsat)
  intro h
  have hne : outstanding 2 fs ≠ 0 := by
    rw [hout]
    decide
  exact h.2 hne hmode

end World

end LowPower.Pm
