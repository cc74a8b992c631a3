import LowPower.Lib.Window
import LowPower.Proof.PmRequests

/-!
# Busy delays of PM 2.0

A delay keeps the tick of its call and its length, and `_pm_device_check_idle` compares the length
with the ticks since. `DelayHist` is the caller's view: for each module the window its last call
opened, in unbounded time. The check takes down the flags of delays that are over, up to the first
module that is busy; a flag that is down and a delay that is over look alike to every later check
(`Delayed`), so the answers are those of the history (`delayRun_exact`).
-/

namespace LowPower.Pm

variable {X : Type}

/-- A step of a run that only uses busy delays. -/
inductive DelayOp where
  | rtPmModuleDelaySleep (moduleId : U8) (timeout : U32)
  | advance (d : ℕ)
  | checkIdle
deriving DecidableEq, Repr

/-- For each module the window of its last delay, if it had one. -/
abbrev DelayHist := Fin pmModuleMaxId → Option Window

namespace DelayHist

/-- The delay of a window lasts up to and including its length. -/
def Lasts (v : Window) : Prop := v.age ≤ v.len

instance (v : Window) : Decidable (Lasts v) := inferInstanceAs (Decidable (_ ≤ _))

/-- The last delay of some module still lasts. -/
def Busy (a : DelayHist) : Prop := ∃ k, ∃ v ∈ a k, Lasts v

instance (a : DelayHist) : Decidable a.Busy := inferInstanceAs (Decidable (∃ _, _))

/-- No window is older than the tick can tell. -/
def Recent (a : DelayHist) : Prop := ∀ k, ∀ v ∈ a k, v.age < 2 ^ 32

instance (a : DelayHist) : Decidable a.Recent := inferInstanceAs (Decidable (∀ _, ∀ _ ∈ _, _))

def delay (a : DelayHist) (k : Fin pmModuleMaxId) (now n : ℕ) : DelayHist :=
  Function.update a k (some ⟨now, n, 0⟩)

def advance (a : DelayHist) (d : ℕ) : DelayHist := fun k =>
  (a k).map fun v => { v with age := v.age + d }

end DelayHist

namespace World

variable {w : World X}

/-- A step, with the answer of a check. -/
def delayOp (w : World X) : DelayOp → Option Bool × World X
  | .rtPmModuleDelaySleep k n => (none, w.rtPmModuleDelaySleep k n)
  | .advance d => (none, { w with rtTick := w.rtTick + BitVec.ofNat 32 d })
  | .checkIdle => (some w.pmDeviceCheckIdle.1, w.pmDeviceCheckIdle.2)

/-- The answers of the checks of a run. -/
def delayRun (w : World X) : List DelayOp → List Bool
  | [] => []
  | e :: es => (w.delayOp e).1.toList ++ (w.delayOp e).2.delayRun es

end World

namespace DelayHist

/-- The tick and the history after a step; a check leaves no trace in the history. -/
def step (now : U32) (a : DelayHist) : DelayOp → U32 × DelayHist
  | .rtPmModuleDelaySleep k n =>
    (now, if hk : k.toNat < pmModuleMaxId then a.delay ⟨k.toNat, hk⟩ now.toNat n.toNat else a)
  | .advance d => (now + BitVec.ofNat 32 d, a.advance d)
  | .checkIdle => (now, a)

/-- What a check should answer. -/
def answer (a : DelayHist) : DelayOp → Option Bool
  | .checkIdle => some !decide a.Busy
  | _ => none

def answers (now : U32) (a : DelayHist) : List DelayOp → List Bool
  | [] => []
  | e :: es => (a.answer e).toList ++ (step now a e).2.answers (step now a e).1 es

/-- Each check comes less than 2^32 ticks after every module's last delay. -/
def RecentRun (now : U32) (a : DelayHist) : List DelayOp → Prop
  | [] => True
  | e :: es => (e = .checkIdle → a.Recent) ∧ (step now a e).2.RecentRun (step now a e).1 es

end DelayHist

/-- A module's record beside its window: the delay as it was stored, or over and taken down. -/
def Delayed (now : U32) (s : RtPmModule) : Option Window → Prop
  | none => s.busyFlag = false
  | some v =>
    (s.busyFlag = true ∧ s.timeout.toNat = v.len ∧ s.startTime.toNat = v.start ∧
      (v.start + v.age) % 2 ^ 32 = now.toNat) ∨
    (s.busyFlag = false ∧ ¬DelayHist.Lasts v)

namespace World

variable {w : World X} {a : DelayHist}

/-- The records of all modules beside the history. -/
structure Delays (a : DelayHist) (w : World X) : Prop where
  init : w.pm.initFlag ≠ 0
  modules : ∀ k, Delayed w.rtTick w.pm.moduleStatus[k] (a k)

/-! ## One module -/

/-- **The check of one module** takes a flag down exactly when its delay is over. -/
theorem expire_delayed {now : U32} {s : RtPmModule} {o : Option Window}
    (h : Delayed now s o) (hrecent : ∀ v ∈ o, v.age < 2 ^ 32) :
    Delayed now (expire now s) o ∧
      ((expire now s).busyFlag = true ↔ ∃ v ∈ o, DelayHist.Lasts v) := by
  unfold expire
  cases o with
  | none =>
    have hdown : s.busyFlag = false := h
    rw [if_neg fun hc => by rw [hdown] at hc; exact Bool.noConfusion hc.1]
    exact ⟨h, by simp [hdown]⟩
  | some v =>
    rcases h with ⟨hup, htimeout, hstart, hnow⟩ | ⟨hdown, hover⟩
    · have hlt := s.startTime.isLt
      have helapsed : (now - s.startTime).toNat = v.age := by
        rw [BitVec.toNat_sub, hstart]
        exact Window.elapsed_eq (by omega) (hrecent v rfl) hnow
      have hcmp : s.timeout < now - s.startTime ↔ ¬DelayHist.Lasts v := by
        unfold DelayHist.Lasts
        rw [BitVec.lt_def, helapsed, htimeout, not_le]
      by_cases hover : DelayHist.Lasts v
      · rw [if_neg fun hc => hcmp.1 hc.2 hover]
        exact ⟨.inl ⟨hup, htimeout, hstart, hnow⟩, by simp [hup, hover]⟩
      · rw [if_pos ⟨hup, hcmp.2 hover⟩]
        exact ⟨.inr ⟨rfl, hover⟩, by simp [hover]⟩
    · rw [if_neg fun hc => by rw [hdown] at hc; exact Bool.noConfusion hc.1]
      exact ⟨.inr ⟨hdown, hover⟩, by simp [hdown, hover]⟩

/-- Time passes for a window. -/
theorem delayed_advance {now : U32} {s : RtPmModule} {o : Option Window} (h : Delayed now s o)
    (d : ℕ) : Delayed (now + BitVec.ofNat 32 d) s
      (o.map fun v => { v with age := v.age + d }) := by
  cases o with
  | none => exact h
  | some v =>
    rcases h with ⟨hup, htimeout, hstart, hnow⟩ | ⟨hdown, hover⟩
    · refine .inl ⟨hup, htimeout, hstart, ?_⟩
      change (v.start + (v.age + d)) % 2 ^ 32 = _
      rw [BitVec.toNat_add, BitVec.toNat_ofNat, ← hnow, Nat.mod_add_mod, Nat.add_mod_mod,
        Nat.add_assoc]
    · refine .inr ⟨hdown, ?_⟩
      change ¬v.age + d ≤ v.len
      have hage : ¬v.age ≤ v.len := hover
      omega

/-! ## One step -/

theorem getElem_set_module (st : Vector RtPmModule pmModuleMaxId) (i j : Fin pmModuleMaxId)
    (s : RtPmModule) : (st.set i s i.isLt)[j] = if i = j then s else st[j] := by
  rw [getElem_fin, Vector.getElem_set]
  by_cases h : i = j
  · rw [if_pos h, if_pos (congrArg Fin.val h)]
  · rw [if_neg h, if_neg fun hv => h (Fin.ext hv)]
    rfl

/-- A delay call replaces the record of its module and its window. -/
theorem delayModule_delays (h : Delays a w) (k : Fin pmModuleMaxId) (n : U32) :
    Delays (a.delay k w.rtTick.toNat n.toNat) (w.mapPm (delayModule k n w.rtTick)) := by
  refine ⟨h.init, fun j => ?_⟩
  have hset : (w.mapPm (delayModule k n w.rtTick)).pm.moduleStatus[j] =
      if k = j then { w.pm.moduleStatus[k] with busyFlag := true, timeout := n, startTime := w.rtTick }
      else w.pm.moduleStatus[j] := getElem_set_module _ _ _ _
  rw [hset]
  unfold DelayHist.delay
  by_cases hj : k = j
  · subst hj
    rw [if_pos rfl, Function.update_self]
    exact .inl ⟨rfl, rfl, rfl, Nat.mod_eq_of_lt w.rtTick.isLt⟩
  · rw [if_neg hj, Function.update_of_ne (Ne.symm hj)]
    exact h.modules j

theorem rtPmModuleDelaySleep_delays (h : Delays a w) (k : U8) (n : U32) :
    (w.rtPmModuleDelaySleep k n).rtTick = w.rtTick ∧
      Delays (DelayHist.step w.rtTick a (.rtPmModuleDelaySleep k n)).2
        (w.rtPmModuleDelaySleep k n) := by
  unfold rtPmModuleDelaySleep DelayHist.step
  dsimp only
  rw [if_neg h.init]
  by_cases hk : k.toNat < pmModuleMaxId
  · rw [dif_neg (by omega), dif_pos hk]
    have hset := delayModule_delays h ⟨k.toNat, hk⟩ n
    exact ⟨rfl, hset.init, hset.modules⟩
  · rw [dif_pos (by omega), dif_neg hk]
    exact ⟨rfl, h⟩

theorem advance_delays (h : Delays a w) (d : ℕ) :
    Delays (a.advance d) { w with rtTick := w.rtTick + BitVec.ofNat 32 d } :=
  ⟨h.init, fun k => delayed_advance (h.modules k) d⟩

/-- The check of one module in its place. -/
theorem expire_delays (h : Delays a w) (hrecent : a.Recent) (i : Fin pmModuleMaxId) :
    let w' := w.mapPm fun pm =>
      { pm with moduleStatus := pm.moduleStatus.set i (expire w.rtTick pm.moduleStatus[i]) i.isLt }
    Delays a w' ∧ (w'.pm.moduleStatus[i].busyFlag = true ↔ ∃ v ∈ a i, DelayHist.Lasts v) := by
  intro w'
  obtain ⟨hdelayed, hbusy⟩ := expire_delayed (h.modules i) (hrecent i)
  have hset : ∀ j, w'.pm.moduleStatus[j] =
      if i = j then expire w.rtTick w.pm.moduleStatus[i] else w.pm.moduleStatus[j] :=
    fun j => getElem_set_module _ _ _ _
  refine ⟨⟨h.init, fun j => ?_⟩, ?_⟩
  · rw [hset]
    by_cases hj : i = j
    · subst hj
      rw [if_pos rfl]
      exact hdelayed
    · rw [if_neg hj]
      exact h.modules j
  · rw [hset, if_pos rfl]
    exact hbusy

/-- **The loop of the check**: it stops at the first module that is busy, and what it takes down
or leaves standing makes no difference. -/
theorem checkIdleFrom_delays (hrecent : a.Recent) (is : List (Fin pmModuleMaxId))
    (h : Delays a w) :
    (checkIdleFrom is w).2.rtTick = w.rtTick ∧ Delays a (checkIdleFrom is w).2 ∧
      ((checkIdleFrom is w).1 = false ↔ ∃ k ∈ is, ∃ v ∈ a k, DelayHist.Lasts v) := by
  induction is generalizing w with
  | nil => exact ⟨rfl, h, by simp [checkIdleFrom]⟩
  | cons i is ih =>
    obtain ⟨hdelays, hbusy⟩ := expire_delays h hrecent i
    unfold checkIdleFrom
    dsimp only at hdelays hbusy ⊢
    split_ifs with hup
    · exact ⟨rfl, hdelays, by simpa using .inl (hbusy.1 hup)⟩
    · obtain ⟨htick, hrest, hanswer⟩ := ih hdelays
      refine ⟨htick, hrest, hanswer.trans ?_⟩
      have hover : ¬∃ v ∈ a i, DelayHist.Lasts v := fun hlasts => hup (hbusy.2 hlasts)
      constructor
      · rintro ⟨k, hk, hlasts⟩
        exact ⟨k, List.mem_cons_of_mem i hk, hlasts⟩
      · rintro ⟨k, hk, hlasts⟩
        rcases List.mem_cons.1 hk with rfl | hk
        · exact absurd hlasts hover
        · exact ⟨k, hk, hlasts⟩

theorem pmDeviceCheckIdle_delays (hrecent : a.Recent) (h : Delays a w) :
    w.pmDeviceCheckIdle.2.rtTick = w.rtTick ∧ Delays a w.pmDeviceCheckIdle.2 ∧
      w.pmDeviceCheckIdle.1 = !decide a.Busy := by
  obtain ⟨htick, hdelays, hanswer⟩ := checkIdleFrom_delays hrecent (List.finRange _) h
  unfold pmDeviceCheckIdle
  rw [if_neg h.init]
  refine ⟨htick, hdelays, ?_⟩
  have hbusy : (checkIdleFrom (List.finRange pmModuleMaxId) w).1 = false ↔ a.Busy := by
    rw [hanswer]
    simp [DelayHist.Busy]
  by_cases hb : a.Busy
  · rw [hbusy.2 hb, decide_eq_true hb]
    rfl
  · rw [decide_eq_false hb]
    exact Bool.eq_true_of_not_eq_false fun hf => hb (hbusy.1 hf)

/-- One step of a run. -/
theorem delayOp_delays (h : Delays a w) (e : DelayOp) (hrecent : e = .checkIdle → a.Recent) :
    (w.delayOp e).2.rtTick = (DelayHist.step w.rtTick a e).1 ∧
      Delays (DelayHist.step w.rtTick a e).2 (w.delayOp e).2 ∧
      (w.delayOp e).1 = a.answer e := by
  cases e with
  | rtPmModuleDelaySleep k n =>
    obtain ⟨htick, hdelays⟩ := rtPmModuleDelaySleep_delays h k n
    exact ⟨htick, hdelays, rfl⟩
  | advance d => exact ⟨rfl, advance_delays h d, rfl⟩
  | checkIdle =>
    obtain ⟨htick, hdelays, hanswer⟩ := pmDeviceCheckIdle_delays (hrecent rfl) h
    exact ⟨htick, hdelays, congrArg some hanswer⟩

/-- **The answers of a run** are those of the history. -/
theorem delayRun_answers (es : List DelayOp) (h : Delays a w) (hrecent : a.RecentRun w.rtTick es) :
    w.delayRun es = a.answers w.rtTick es := by
  induction es generalizing w a with
  | nil => rfl
  | cons e es ih =>
    obtain ⟨hnow, hrest⟩ := hrecent
    obtain ⟨htick, hdelays, hanswer⟩ := delayOp_delays h e hnow
    rw [← htick] at hrest
    rw [delayRun, DelayHist.answers, hanswer, ih hdelays hrest, htick]

/-- No module is delayed at power-on. -/
theorem start_delays (ops : RtPmOps X) (timerMask : U8) (rtTick : U32) (x : X) :
    Delays (fun _ => none) (start ops timerMask rtTick x) := by
  refine ⟨start_initFlag ops timerMask rtTick x, ?_⟩
  have hdown : ∀ k : Fin pmModuleMaxId,
      ((Vector.replicate pmModuleMaxId (RtPmModule.mk 0 false 0 0)).set 1
        ⟨1, false, 0, 0⟩)[k].busyFlag = false := by decide
  exact hdown

/-- **The busy delay is exact across the wrap of the tick.** In every run of delays, tick advances
and checks in which each check comes less than 2^32 ticks after every module's last delay, each
check answers "busy" exactly when the last delay of some module still lasts. -/
theorem delayRun_exact (ops : RtPmOps X) (timerMask : U8) (rtTick : U32) (x : X)
    (es : List DelayOp) (hrecent : DelayHist.RecentRun rtTick (fun _ => none) es) :
    (start ops timerMask rtTick x).delayRun es =
      DelayHist.answers rtTick (fun _ => none) es :=
  delayRun_answers es (start_delays ops timerMask rtTick x) hrecent

/-- A delay of ten ticks from just before the wrap, checked while it lasts and after it. -/
theorem delayRun_exact_wrap :
    let ops : RtPmOps ℕ := ⟨fun _ x => x, fun _ x => x, none, id, fun x => (0, x)⟩
    let es : List DelayOp :=
      [.rtPmModuleDelaySleep 2 10, .advance 10, .checkIdle, .advance 1, .checkIdle]
    (start ops 0 0xfffffffa 0).delayRun es = [false, true] := by
  intro ops es
  have hrecent : DelayHist.RecentRun 0xfffffffa (fun _ => none) es := by
    refine ⟨nofun, nofun, fun _ => ?_, nofun, fun _ => ?_, trivial⟩ <;> decide +kernel
  rw [delayRun_exact ops 0 0xfffffffa 0 es hrecent]
  decide +kernel

end World

end LowPower.Pm
