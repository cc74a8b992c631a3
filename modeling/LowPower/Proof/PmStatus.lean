import LowPower.Lib.Accounts
import LowPower.Proof.PmDelay
import LowPower.Spec.PmDevice

/-!
# The module status word

A request raises the flag of its module. A release lowers it when the counter of the mode comes to
zero, which other modules share, and a release of all lowers it whatever the module holds in other
modes. The word therefore tells who holds a request exactly as long as the counter of a released
mode is at its last request just when the module gives back its last one (`FlagKept`,
`rtPmModuleGetStatus_iff`).
-/

namespace LowPower.Pm

variable {X : Type}

/-- What a module does to one of its modes. -/
abbrev ModuleOp := Tally × Fin pmModuleMaxId × Fin pmSleepModeMax

/-- The call behind it. -/
def ModuleOp.call : ModuleOp → Call
  | (.request, k, m) => .rtPmModuleRequest (BitVec.ofNat 8 k.val) (BitVec.ofNat 8 m.val)
  | (.release, k, m) => .rtPmModuleRelease (BitVec.ofNat 8 k.val) (BitVec.ofNat 8 m.val)
  | (.releaseAll, k, m) => .rtPmModuleReleaseAll (BitVec.ofNat 8 k.val) (BitVec.ofNat 8 m.val)

/-- The requests in force after `rt_system_pm_init`: one of `PM_POWER_ID`. -/
def powerRequest : Accounts (Fin pmModuleMaxId) (Fin pmSleepModeMax) :=
  fun k m => if k.val = pmPowerId ∧ m.val = pmSleepModeNone.toNat then 1 else 0

/-- The flag of the module is right after the step: the counter a release takes down is at its last
request exactly when the module gives back its last one, and a release of all leaves the module
nothing in other modes. -/
def FlagKept (pm : RtPm X) (l : Accounts (Fin pmModuleMaxId) (Fin pmSleepModeMax)) : ModuleOp → Prop
  | (.request, _, _) => True
  | (.release, k, m) => pm.counter m ≤ 1 ↔ l k m = 1 ∧ l.OnlyAt k m
  | (.releaseAll, k, m) => l.OnlyAt k m

namespace World

variable {w : World X}

/-! ## The status word -/

/-- One bit of the word while it is put together. -/
theorem getLsbD_statusFrom (flags : Fin pmModuleMaxId → Prop) [DecidablePred flags]
    (is : List (Fin pmModuleMaxId)) (status : U32) (k : Fin pmModuleMaxId) :
    (is.foldl (fun (status : U32) i =>
        if flags i then status ||| (1 : U32) <<< i.val else status) status).getLsbD k.val = true ↔
      status.getLsbD k.val = true ∨ (k ∈ is ∧ flags k) := by
  induction is generalizing status with
  | nil => simp
  | cons i is ih =>
    rw [List.foldl_cons, ih]
    have hk := k.isLt
    have hbit : ((1 : U32) <<< i.val).getLsbD k.val = true ↔ k = i := by
      have hall : ∀ k i : Fin pmModuleMaxId, ((1 : U32) <<< i.val).getLsbD k.val = true ↔ k = i := by
        decide +kernel
      exact hall k i
    by_cases hi : flags i
    · rw [if_pos hi, BitVec.getLsbD_or, Bool.or_eq_true, hbit, List.mem_cons]
      constructor
      · rintro ((h | rfl) | ⟨hk, hf⟩)
        · exact .inl h
        · exact .inr ⟨.inl rfl, hi⟩
        · exact .inr ⟨.inr hk, hf⟩
      · rintro (h | ⟨rfl | hk, hf⟩)
        · exact .inl (.inl h)
        · exact .inl (.inr rfl)
        · exact .inr ⟨hk, hf⟩
    · rw [if_neg hi, List.mem_cons]
      constructor
      · rintro (h | ⟨hk, hf⟩)
        · exact .inl h
        · exact .inr ⟨.inr hk, hf⟩
      · rintro (h | ⟨rfl | hk, hf⟩)
        · exact .inl h
        · exact absurd hf hi
        · exact .inr ⟨hk, hf⟩

/-- **A bit of the word is the flag of its module.** -/
theorem getLsbD_getStatus (w : World X) (k : Fin pmModuleMaxId) :
    w.rtPmModuleGetStatus.getLsbD k.val = true ↔ w.pm.moduleStatus[k].reqStatus = 0x01 := by
  have hword := getLsbD_statusFrom (fun i => w.pm.moduleStatus[i].reqStatus = 0x01)
    (List.finRange pmModuleMaxId) 0 k
  refine hword.trans ?_
  simp

/-! ## The flags -/

theorem setReqStatus_reqStatus (k k' : Fin pmModuleMaxId) (status : U8) (pm : RtPm X) :
    (setReqStatus k status pm).moduleStatus[k'].reqStatus =
      if k' = k then status else pm.moduleStatus[k'].reqStatus := by
  have hset : (setReqStatus k status pm).moduleStatus[k'] =
      if k = k' then { pm.moduleStatus[k] with reqStatus := status } else pm.moduleStatus[k'] :=
    getElem_set_module _ _ _ _
  rw [hset]
  by_cases h : k' = k
  · rw [if_pos h, if_pos h.symm]
  · rw [if_neg h, if_neg fun hk => h hk.symm]

/-- The flags after a request of a module. -/
theorem rtPmModuleRequest_flag (hi : w.pm.initFlag ≠ 0) {k m : U8} (hk : k.toNat < pmModuleMaxId)
    (hm : m.toNat < pmSleepModeMax) (k' : Fin pmModuleMaxId) :
    (w.rtPmModuleRequest k m).pm.moduleStatus[k'].reqStatus =
      if k' = ⟨k.toNat, hk⟩ then 0x01 else w.pm.moduleStatus[k'].reqStatus := by
  unfold rtPmModuleRequest
  rw [if_neg hi, dif_neg (by omega), dif_neg (by omega), locked_pm]
  dsimp only [pmSelectSleepMode, mapPm_pm]
  rw [incMode_eq]
  exact setReqStatus_reqStatus _ _ _ _

/-- A release takes the counter to zero from one or from zero. -/
theorem decMode_eq_zero_iff (m : Fin pmSleepModeMax) (pm : RtPm X) :
    (decMode m pm).modes.get m = 0 ↔ pm.counter m ≤ 1 := by
  have hget : (decMode m pm).modes.get m = bump pm.modes[m] .release := by
    rw [decMode_eq]
    exact Vector.getElem_set_self m.isLt
  have hsat : (bump pm.modes[m] .release).toNat = pm.counter m - 1 := bump_toNat _ _
  rw [hget, BitVec.toNat_eq, hsat]
  change pm.counter m - 1 = 0 ↔ pm.counter m ≤ 1
  omega

theorem decMode_moduleStatus (m : Fin pmSleepModeMax) (pm : RtPm X) :
    (decMode m pm).moduleStatus = pm.moduleStatus := by
  rw [decMode_eq]
  rfl

/-- The flags after a release: the counter decides. -/
theorem rtPmModuleRelease_flag (hi : w.pm.initFlag ≠ 0) {k m : U8} (hk : k.toNat < pmModuleMaxId)
    (hm : m.toNat < pmSleepModeMax) (k' : Fin pmModuleMaxId) :
    (w.rtPmModuleRelease k m).pm.moduleStatus[k'].reqStatus =
      if k' = ⟨k.toNat, hk⟩ ∧ w.pm.counter ⟨m.toNat, hm⟩ ≤ 1 then 0x00
      else w.pm.moduleStatus[k'].reqStatus := by
  have hzero := decMode_eq_zero_iff ⟨m.toNat, hm⟩ w.pm
  rw [rtPmModuleRelease_pm hi hk hm]
  dsimp only [releaseModule]
  by_cases hc : w.pm.counter ⟨m.toNat, hm⟩ ≤ 1
  · rw [if_pos (hzero.2 hc), setReqStatus_reqStatus, decMode_moduleStatus]
    simp only [hc, and_true]
  · rw [if_neg fun h => hc (hzero.1 h), if_neg fun h => hc h.2, decMode_moduleStatus]

/-- The flags after a release of all. -/
theorem rtPmModuleReleaseAll_flag (hi : w.pm.initFlag ≠ 0) {k m : U8}
    (hk : k.toNat < pmModuleMaxId) (hm : m.toNat < pmSleepModeMax) (k' : Fin pmModuleMaxId) :
    (w.rtPmModuleReleaseAll k m).pm.moduleStatus[k'].reqStatus =
      if k' = ⟨k.toNat, hk⟩ then 0x00 else w.pm.moduleStatus[k'].reqStatus := by
  unfold rtPmModuleReleaseAll
  rw [if_neg hi, dif_neg (by omega), locked_pm]
  dsimp only [pmSelectSleepMode, mapPm_pm]
  rw [dif_pos hk]
  exact setReqStatus_reqStatus _ _ _ _

/-- **What a call does to the flags**: only its own module, and a release only with the last request
of the mode. -/
theorem call_flag (hi : w.pm.initFlag ≠ 0) (a : Tally) (k k' : Fin pmModuleMaxId)
    (m : Fin pmSleepModeMax) :
    (w.call (ModuleOp.call (a, k, m))).pm.moduleStatus[k'].reqStatus =
      if k' = k ∧ (a = .release → w.pm.counter m ≤ 1) then (if a = .request then 0x01 else 0x00)
      else w.pm.moduleStatus[k'].reqStatus := by
  have hkall : ∀ k : Fin pmModuleMaxId, (BitVec.ofNat 8 k.val).toNat = k.val := by decide
  have hmall : ∀ m : Fin pmSleepModeMax, (BitVec.ofNat 8 m.val).toNat = m.val := by decide
  have hk : (BitVec.ofNat 8 k.val).toNat < pmModuleMaxId := by
    rw [hkall]
    exact k.isLt
  have hm : (BitVec.ofNat 8 m.val).toNat < pmSleepModeMax := by
    rw [hmall]
    exact m.isLt
  have hkself : (⟨_, hk⟩ : Fin pmModuleMaxId) = k := Fin.ext (hkall k)
  have hmself : (⟨_, hm⟩ : Fin pmSleepModeMax) = m := Fin.ext (hmall m)
  cases a with
  | request =>
    refine (rtPmModuleRequest_flag hi hk hm k').trans ?_
    rw [hkself]
    simp
  | release =>
    refine (rtPmModuleRelease_flag hi hk hm k').trans ?_
    rw [hkself, hmself]
    simp
  | releaseAll =>
    refine (rtPmModuleReleaseAll_flag hi hk hm k').trans ?_
    rw [hkself]
    simp

/-! ## Runs -/

/-- The word tells who holds a request. -/
def StatusHeld (l : Accounts (Fin pmModuleMaxId) (Fin pmSleepModeMax)) (w : World X) : Prop :=
  ∀ k : Fin pmModuleMaxId, w.rtPmModuleGetStatus.getLsbD k.val = true ↔ l.Holds k

/-- **One step**: the word stays right exactly when the step keeps the flag of its module right. -/
theorem call_statusHeld_iff {l : Accounts (Fin pmModuleMaxId) (Fin pmSleepModeMax)}
    (hi : w.pm.initFlag ≠ 0) (h : StatusHeld l w) (e : ModuleOp)
    (hcovered : e.1 = .release → l e.2.1 e.2.2 ≠ 0) :
    StatusHeld (l.post e) (w.call e.call) ↔ FlagKept w.pm l e := by
  obtain ⟨a, k, m⟩ := e
  have hflag : ∀ k, w.pm.moduleStatus[k].reqStatus = 0x01 ↔ l.Holds k :=
    fun k => (getLsbD_getStatus w k).symm.trans (h k)
  -- the other modules stay as they are on both sides
  have hown : StatusHeld (l.post (a, k, m)) (w.call (ModuleOp.call (a, k, m))) ↔
      ((w.call (ModuleOp.call (a, k, m))).pm.moduleStatus[k].reqStatus = 0x01 ↔
        (l.post (a, k, m)).Holds k) := by
    unfold StatusHeld
    simp only [getLsbD_getStatus]
    refine ⟨fun h => h k, fun hk k' => ?_⟩
    by_cases hne : k' = k
    · subst hne
      exact hk
    · rw [call_flag hi, if_neg fun hc => hne hc.1, Accounts.holds_post_of_ne a hne]
      exact hflag k'
  rw [hown, call_flag hi]
  cases a with
  | request =>
    have hup : k = k ∧ (Tally.request = .release → w.pm.counter m ≤ 1) :=
      ⟨rfl, fun h => Tally.noConfusion h⟩
    rw [if_pos hup, if_pos rfl]
    exact iff_of_true ⟨fun _ => Accounts.holds_request, fun _ => rfl⟩ trivial
  | release =>
    have hheld : l k m ≠ 0 := hcovered rfl
    have hset : w.pm.moduleStatus[k].reqStatus = 0x01 := (hflag k).2 ⟨m, hheld⟩
    rw [Accounts.holds_release hheld]
    unfold FlagKept
    by_cases hc : w.pm.counter m ≤ 1
    · rw [if_pos ⟨rfl, fun _ => hc⟩]
      simp [hc]
    · rw [if_neg fun h => hc (h.2 rfl), iff_true_left hset]
      exact (iff_false_left hc).symm
  | releaseAll =>
    have hdown : k = k ∧ (Tally.releaseAll = .release → w.pm.counter m ≤ 1) :=
      ⟨rfl, fun h => Tally.noConfusion h⟩
    rw [if_pos hdown, Accounts.holds_releaseAll]
    simp [FlagKept]

theorem start_statusHeld (ops : RtPmOps X) (timerMask : U8) (rtTick : U32) (x : X) :
    StatusHeld powerRequest (start ops timerMask rtTick x) := by
  have hall : ∀ k : Fin pmModuleMaxId,
      ((Vector.replicate pmModuleMaxId (⟨0, false, 0, 0⟩ : RtPmModule)).set 1
        ⟨1, false, 0, 0⟩)[k].reqStatus = 0x01 ↔ k.val = pmPowerId := by decide
  intro k
  rw [getLsbD_getStatus, start_pm]
  refine (hall k).trans ?_
  constructor
  · intro hk
    have hone : powerRequest k 0 = 1 := if_pos ⟨hk, rfl⟩
    exact ⟨0, by rw [hone]; exact Nat.one_ne_zero⟩
  · rintro ⟨m, hm⟩
    by_contra hk
    exact hm (if_neg fun h => hk h.1)

/-- **The status word tells after every call who holds a request, if and only if every step keeps
the flag of its module**, for modules that release only what they requested. -/
theorem rtPmModuleGetStatus_iff (ops : RtPmOps X) (timerMask : U8) (rtTick : U32) (x : X)
    (es : List ModuleOp) (hcovered : Justified powerRequest.Covered es) :
    Justified (fun p e =>
        FlagKept ((start ops timerMask rtTick x).calls (p.map ModuleOp.call)).pm
          (powerRequest.posts p) e) es ↔
      ∀ p, p <+: es → ∀ k : Fin pmModuleMaxId,
        ((start ops timerMask rtTick x).calls (p.map ModuleOp.call)).rtPmModuleGetStatus.getLsbD
            k.val = true ↔
          (powerRequest.posts p).Holds k := by
  refine justified_iff_forall_prefix (P := fun p => StatusHeld (powerRequest.posts p)
    ((start ops timerMask rtTick x).calls (p.map ModuleOp.call))) ?_ ?_
  · exact start_statusHeld ops timerMask rtTick x
  · rintro p e ⟨post, rfl⟩ hp
    have hi := calls_initFlag (start_initFlag ops timerMask rtTick x) (p.map ModuleOp.call)
    have hcov : powerRequest.Covered p e := hcovered p e post (by simp)
    have hstep := call_statusHeld_iff hi hp e hcov
    rw [Accounts.posts_snoc, List.map_append, List.map_singleton, calls_snoc]
    exact hstep

theorem rtPmModuleGetStatus_one_request :
    let es : List ModuleOp := [(.request, 2, 2), (.release, 2, 2)]
    ∀ p, p <+: es → ∀ k : Fin pmModuleMaxId,
      ((start idleOps 0x0c 0 ()).calls (p.map ModuleOp.call)).rtPmModuleGetStatus.getLsbD k.val
          = true ↔
        (powerRequest.posts p).Holds k := by
  intro es
  have hcovered : Justified powerRequest.Covered es := by
    change Justified _ ([] ++ [_] ++ [_])
    rw [justified_snoc, justified_snoc]
    exact ⟨⟨Justified.nil _, nofun⟩, fun _ => by decide⟩
  refine (rtPmModuleGetStatus_iff idleOps 0x0c 0 () es hcovered).1 ?_
  change Justified _ ([] ++ [_] ++ [_])
  rw [justified_snoc, justified_snoc]
  refine ⟨⟨Justified.nil _, trivial⟩, ?_⟩
  -- the release finds the counter at one, and nothing else held
  have hlast : ((start idleOps 0x0c 0 ()).calls
      [.rtPmModuleRequest 2 2]).pm.counter 2 ≤ 1 := by decide +kernel
  have honly : ∀ m : Fin pmSleepModeMax, m ≠ 2 → powerRequest.posts [(.request, 2, 2)] 2 m = 0 := by
    decide
  exact iff_of_true hlast ⟨by decide, honly⟩

/-- Module 2 requests two modes and releases one: its flag is lowered, though it holds the other. -/
theorem rtPmModuleGetStatus_stale :
    let es : List ModuleOp := [(.request, 2, 2), (.request, 2, 3), (.release, 2, 2)]
    Justified powerRequest.Covered es ∧
      ¬∀ p, p <+: es → ∀ k : Fin pmModuleMaxId,
        ((start idleOps 0x0c 0 ()).calls (p.map ModuleOp.call)).rtPmModuleGetStatus.getLsbD k.val
            = true ↔
          (powerRequest.posts p).Holds k := by
  intro es
  refine ⟨?_, fun h => ?_⟩
  · change Justified _ ([] ++ [_] ++ [_] ++ [_])
    rw [justified_snoc, justified_snoc, justified_snoc]
    exact ⟨⟨⟨Justified.nil _, nofun⟩, nofun⟩, fun _ => by decide⟩
  · have hbit := h es (List.prefix_refl es) 2
    have hdown : ((start idleOps 0x0c 0 ()).calls
        (es.map ModuleOp.call)).rtPmModuleGetStatus.getLsbD 2 = false := by decide +kernel
    have hheld : (powerRequest.posts es).Holds 2 := ⟨3, by decide⟩
    exact Bool.noConfusion (hdown.symm.trans (hbit.2 hheld))

end World
end LowPower.Pm
