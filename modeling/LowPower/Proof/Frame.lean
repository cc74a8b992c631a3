import LowPower.Lib.History
import LowPower.Spec.Tickless

/-!
# Frame facts and the invariant rule of a pass

Callback wrappers leave the static data and the callback table alone and add at most one
entry to the record. Five rules say what a property of worlds must survive to be kept by

* a callback (`PlainInv`);
* the decision of a pass (`DecideInv`);
* a call that writes only fields outside a view of the static data (`BodyInv`, `ViewInv`);
* a pass up to its frequency step (`SleepInv`);
* a whole pass and every execution (`PassInv.pmRunTickless`, `PassInv.run`).

The invariants of the later modules discharge their fields and never unfold the pass.
-/

namespace LowPower

variable {c : Config} {X : Type}

/-- Events that carry no vote, no frequency change and no frequency announcement. -/
def Ev.Plain : Ev → Prop
  | .setFreq _ _ | .enter _ | .done _ | .hook .freq _ _ _ | .freqHandle => False
  | _ => True

/-- The fields a call may write, apart from the frequency mode. -/
def Call.Writes (f : Call) (s s' : Lpms c) : Prop :=
  match f with
  | .pmSleepRequest _ _ | .pmSleepRelease _ _ | .pmIdleLockRequest _ | .pmIdleLockRelease _ =>
    s' = { s with sleepStatus := s'.sleepStatus }
  | .pmFreqRequest _ _ => s' = { s with freqStatus := s'.freqStatus }
  | .pmFreqRelease _ _ => s' = { s with freqStatus := s'.freqStatus, freqFlag := s'.freqFlag }
  | .pmBusySet _ _ | .pmBusyClear _ => s' = { s with timeout := s'.timeout }
  | .lpmsEnable | .lpmsDisable => s' = { s with enableFlag := s'.enableFlag }
  | .lpmsSethook l _ | .lpmsDelhook l _ =>
    s' = { s with hooks := s'.hooks } ∧ ∀ l' ≠ l, s'.hooks l' = s.hooks l'

theorem sleepMode_of_writes {f : Call} {s s' : Lpms c} (h : f.Writes s s') :
    s'.sleepMode = s.sleepMode := by
  cases f with
  | lpmsSethook l hook => rw [h.1]
  | lpmsDelhook l hook => rw [h.1]
  | _ => rw [h]

namespace World

variable {w : World c X}

@[simp] theorem emit_st (e : Ev) : (w.emit e).st = w.st := rfl
@[simp] theorem emit_ops (e : Ev) : (w.emit e).ops = w.ops := rfl
@[simp] theorem emit_plat (e : Ev) : (w.emit e).plat = w.plat := rfl
@[simp] theorem emit_trace (e : Ev) : (w.emit e).trace = w.trace ++ [(e, w.st)] := rfl

@[simp] theorem mapSt_st (f : Lpms c → Lpms c) : (w.mapSt f).st = f w.st := rfl
@[simp] theorem mapSt_ops (f : Lpms c → Lpms c) : (w.mapSt f).ops = w.ops := rfl
@[simp] theorem mapSt_plat (f : Lpms c → Lpms c) : (w.mapSt f).plat = w.plat := rfl
@[simp] theorem mapSt_trace (f : Lpms c → Lpms c) : (w.mapSt f).trace = w.trace := rfl

@[simp] theorem callOut_st (sel : LpmsOps X → Option (X → X)) (e : Ev) :
    (w.callOut sel e).st = w.st := by
  unfold callOut; split <;> rfl

@[simp] theorem callOut_ops (sel : LpmsOps X → Option (X → X)) (e : Ev) :
    (w.callOut sel e).ops = w.ops := by
  unfold callOut; split <;> rfl

@[simp] theorem query_st (sel : LpmsOps X → Option (X → U32 × X)) (e : U32 → Ev) (d : U32) :
    (w.query sel e d).2.st = w.st := by
  unfold query; split <;> rfl

@[simp] theorem query_ops (sel : LpmsOps X → Option (X → U32 × X)) (e : U32 → Ev) (d : U32) :
    (w.query sel e d).2.ops = w.ops := by
  unfold query; split <;> rfl

@[simp] theorem pmIrqDisable_st : w.pmIrqDisable.2.st = w.st := query_st _ _ _
@[simp] theorem pmIrqDisable_ops : w.pmIrqDisable.2.ops = w.ops := query_ops _ _ _
@[simp] theorem pmIrqEnable_st (level : U32) : (w.pmIrqEnable level).st = w.st := callOut_st _ _
@[simp] theorem pmIrqEnable_ops (level : U32) : (w.pmIrqEnable level).ops = w.ops := callOut_ops _ _
@[simp] theorem pmGetTick_st : w.pmGetTick.2.st = w.st := query_st _ _ _
@[simp] theorem pmGetTick_ops : w.pmGetTick.2.ops = w.ops := query_ops _ _ _
@[simp] theorem pmSetFreq_st (site : FreqSite) (m : U8) : (w.pmSetFreq site m).st = w.st :=
  callOut_st _ _
@[simp] theorem pmSetFreq_ops (site : FreqSite) (m : U8) : (w.pmSetFreq site m).ops = w.ops :=
  callOut_ops _ _

theorem locked_st (body : World c X → World c X) :
    (w.locked body).st = (body w.pmIrqDisable.2).st := by
  simp [locked]

theorem locked_mapSt_st (f : Lpms c → Lpms c) : (w.locked (·.mapSt f)).st = f w.st := by
  simp [locked_st]

end World

/-! ## Plain steps -/

namespace World

variable {w : World c X}

/-- A property that survives changes of the platform and plain record entries. -/
structure PlainInv (P : World c X → Prop) : Prop where
  plat : ∀ w x, P w → P { w with plat := x }
  emit : ∀ w e, e.Plain → P w → P (w.emit e)

namespace PlainInv

variable {P : World c X → Prop}

theorem callOut (hP : PlainInv P) (sel : LpmsOps X → Option (X → X)) {e : Ev} (he : e.Plain)
    (hw : P w) : P (w.callOut sel e) := by
  unfold World.callOut
  split
  · exact hw
  · exact hP.plat _ _ (hP.emit _ _ he hw)

theorem query (hP : PlainInv P) (sel : LpmsOps X → Option (X → U32 × X)) {e : U32 → Ev}
    (he : ∀ r, (e r).Plain) (d : U32) (hw : P w) : P (w.query sel e d).2 := by
  unfold World.query
  split
  · exact hw
  · exact hP.plat _ _ (hP.emit _ _ (he _) hw)

theorem irqDisable (hP : PlainInv P) (hw : P w) : P w.pmIrqDisable.2 :=
  hP.query _ (e := .irqDisable) (fun _ => trivial) _ hw

theorem irqEnable (hP : PlainInv P) (level : U32) (hw : P w) : P (w.pmIrqEnable level) :=
  hP.callOut _ (e := .irqEnable level) trivial hw

theorem getTick (hP : PlainInv P) (hw : P w) : P w.pmGetTick.2 :=
  hP.query _ (e := .systickGet) (fun _ => trivial) _ hw

theorem setTick (hP : PlainInv P) (ticks : U32) (hw : P w) : P (w.pmSetTick ticks) :=
  hP.callOut _ (e := .systickSet ticks) trivial hw

theorem nextTimeout (hP : PlainInv P) (hw : P w) : P w.pmNextTimeout.2 :=
  hP.query _ (e := .systickNextTimeout) (fun _ => trivial) _ hw

theorem lptimerNextTimeout (hP : PlainInv P) (hw : P w) : P w.lptimerNextTimeout.2 :=
  hP.query _ (e := .lptimNextTimeout) (fun _ => trivial) _ hw

theorem lptimerStart (hP : PlainInv P) (timeout : U32) (hw : P w) : P (w.lptimerStart timeout) :=
  hP.callOut _ (e := .lptimStart timeout) trivial hw

theorem lptimerGetTimeout (hP : PlainInv P) (hw : P w) : P w.lptimerGetTimeout.2 :=
  hP.query _ (e := .lptimGetTick) (fun _ => trivial) _ hw

theorem lptimerStop (hP : PlainInv P) (hw : P w) : P w.lptimerStop :=
  hP.callOut _ (e := .lptimStop) trivial hw

theorem sleep (hP : PlainInv P) (mode : U8) (hw : P w) : P (w.pmSleep mode) :=
  hP.callOut _ (e := .sleep mode) trivial hw

end PlainInv

/-! ## The decision -/

/-- The busy check only reads the tick. -/
theorem checkBusy_keeps {P : World c X → Prop} (hget : ∀ w, P w → P w.pmGetTick.2) (hw : P w) :
    P w.pmCheckBusy.2 := by
  unfold pmCheckBusy
  generalize List.finRange c.pmBusyModuleMax = is
  induction is generalizing w with
  | nil => exact hw
  | cons i is ih =>
    unfold checkBusyFrom
    dsimp only
    split
    · exact hget _ hw
    · exact ih (hget _ hw)

/-- **The check finds a module whose deadline lies ahead of the tick**, when the tick stands still
during the scan. -/
theorem checkBusy_iff {P : World c X → Prop} {now : U32} {timeout : Vector U32 c.pmBusyModuleMax}
    (hget : ∀ w, P w → w.pmGetTick.1 = now ∧ P w.pmGetTick.2)
    (htimeout : ∀ w, P w → w.st.timeout = timeout) (hw : P w) :
    w.pmCheckBusy.1 = pmFlagBusy ↔ ∃ k : Fin c.pmBusyModuleMax, now < timeout[k] := by
  have hloop : ∀ (is : List (Fin c.pmBusyModuleMax)) (w : World c X), P w →
      ((checkBusyFrom is w).1 = pmFlagBusy ↔ ∃ k ∈ is, now < timeout[k]) := by
    intro is
    induction is with
    | nil =>
      intro w _
      simp [checkBusyFrom]
    | cons k is ih =>
      intro w hw
      obtain ⟨hnow, hnext⟩ := hget w hw
      unfold checkBusyFrom
      dsimp only
      rw [hnow, htimeout _ hnext]
      split_ifs with hlt
      · exact iff_of_true rfl ⟨k, List.mem_cons_self, hlt⟩
      · rw [ih _ hnext]
        constructor
        · rintro ⟨j, hj, hjlt⟩
          exact ⟨j, List.mem_cons_of_mem k hj, hjlt⟩
        · rintro ⟨j, hj, hjlt⟩
          rcases List.mem_cons.1 hj with rfl | hj
          · exact absurd hjlt hlt
          · exact ⟨j, hj, hjlt⟩
  unfold pmCheckBusy
  rw [hloop _ w hw]
  simp

/-- What the decision of a pass does once the interrupts are off: it reads the tick and the next
timeout, and stores a sleep mode. -/
structure DecideInv (P : World c X → Prop) : Prop where
  getTick : ∀ w, P w → P w.pmGetTick.2
  nextTimeout : ∀ w, P w → P w.pmNextTimeout.2
  sleepMode : ∀ w m, P w → P (w.mapSt fun s => { s with sleepMode := m })

namespace DecideInv

variable {P : World c X → Prop}

theorem limitMode (hP : DecideInv P) (mode : U8) (hw : P w) : P (w.limitMode mode) := by
  unfold World.limitMode
  split
  · exact hP.sleepMode _ _ hw
  · exact hw

theorem busyLimit (hP : DecideInv P) (hw : P w) : P w.busyLimit := by
  have hbusy := checkBusy_keeps hP.getTick hw
  unfold World.busyLimit
  dsimp only
  split
  · exact hP.limitMode _ hbusy
  · exact hbusy

theorem thresholdLimit (hP : DecideInv P) (hw : P w) : P w.thresholdLimit := by
  have hreads := hP.getTick _ (hP.nextTimeout _ hw)
  unfold World.thresholdLimit
  dsimp only
  split
  · exact hP.limitMode _ hreads
  · exact hreads

theorem passDecide (hP : DecideInv P) (hw : P w.pmIrqDisable.2) : P w.passDecide.2 := by
  have hvoted := hP.sleepMode _ (selectSleepMode w.pmIrqDisable.2.st) hw
  exact hP.thresholdLimit (hP.busyLimit hvoted)

end DecideInv

/-! ## What each call leaves alone

A property that survives every change a view `φ` of the static data does not see survives each
call that writes only fields outside the view. -/

/-- A property `P` outside and a property `Q` inside locked sections, kept by what calls do there:
reading the tick, and every change of the static data outside a view. -/
structure BodyInv {α : Type*} (φ : Lpms c → α) (Q P : World c X → Prop) : Prop where
  locked : ∀ w body, (∀ w, Q w → Q (body w)) → P w → P (w.locked body)
  getTick : ∀ w, Q w → Q w.pmGetTick.2
  mapSt : ∀ w f, φ (f w.st) = φ w.st → Q w → Q (w.mapSt f)
  unlocked : ∀ w f, φ (f w.st) = φ w.st → P w → P (w.mapSt f)

theorem sethook_locked (l : HookList) (hook : Option HookId) : (w.sethook l hook).2 =
    w.locked fun w => match firstSlot w.st l none with
      | some i => w.mapSt (setSlot · l i hook)
      | none => w := by
  unfold sethook locked
  dsimp only
  cases firstSlot w.pmIrqDisable.2.st l none <;> rfl

theorem delhook_locked (l : HookList) (hook : Option HookId) : (w.delhook l hook).2 =
    w.locked fun w => match firstSlot w.st l hook with
      | some i => w.mapSt (setSlot · l i none)
      | none => w := by
  unfold delhook locked
  dsimp only
  cases firstSlot w.pmIrqDisable.2.st l hook <;> rfl

namespace BodyInv

variable {α : Type*} {φ : Lpms c → α} {Q P : World c X → Prop}

theorem pmSleepRequest (hP : BodyInv φ Q P) (hφ : ∀ s b, φ { s with sleepStatus := b } = φ s)
    (k : U16) (m : U8) (hw : P w) : P (w.pmSleepRequest k m) := by
  unfold World.pmSleepRequest
  split_ifs
  · exact hw
  · exact hw
  · exact hP.locked _ _ (fun w => hP.mapSt w _ (hφ _ _)) hw

theorem pmSleepRelease (hP : BodyInv φ Q P) (hφ : ∀ s b, φ { s with sleepStatus := b } = φ s)
    (k : U16) (m : U8) (hw : P w) : P (w.pmSleepRelease k m) := by
  unfold World.pmSleepRelease
  split_ifs
  · exact hw
  · exact hw
  · exact hP.locked _ _ (fun w => hP.mapSt w _ (hφ _ _)) hw

theorem pmFreqRequest (hP : BodyInv φ Q P) (hφ : ∀ s b, φ { s with freqStatus := b } = φ s)
    (k : U16) (m : U8) (hset : k.toNat < c.pmModuleMax → m.toNat < pmFreqModeMax - 1 →
      ∀ w : World c X, m < w.st.freqMode → Q w → Q ((w.pmSetFreq .pmFreqRequest m).mapSt
        fun s => { s with freqMode := m }))
    (hw : P w) : P (w.pmFreqRequest k m) := by
  unfold World.pmFreqRequest
  split_ifs with hk hm
  · exact hw
  · exact hw
  · refine hP.locked _ _ (fun w hw => ?_) hw
    dsimp only
    split_ifs with hlt
    · exact hset (by omega) (by omega) _ hlt (hP.mapSt _ _ (hφ _ _) hw)
    · exact hP.mapSt _ _ (hφ _ _) hw

theorem pmFreqRelease (hP : BodyInv φ Q P)
    (hφ : ∀ s b f, φ { s with freqStatus := b, freqFlag := f } = φ s) (k : U16) (m : U8)
    (hw : P w) : P (w.pmFreqRelease k m) := by
  unfold World.pmFreqRelease
  split_ifs
  · exact hw
  · exact hw
  · exact hP.locked _ _ (fun w => hP.mapSt w _ (hφ _ _ _)) hw

theorem pmBusySet (hP : BodyInv φ Q P) (hφ : ∀ s t, φ { s with timeout := t } = φ s) (k : U16)
    (n : U32) (hw : P w) : P (w.pmBusySet k n) := by
  unfold World.pmBusySet
  split_ifs
  · exact hw
  · exact hw
  · exact hP.locked _ _ (fun w hw => hP.mapSt _ _ (hφ _ _) (hP.getTick w hw)) hw

theorem pmBusyClear (hP : BodyInv φ Q P) (hφ : ∀ s t, φ { s with timeout := t } = φ s) (k : U16)
    (hw : P w) : P (w.pmBusyClear k) := by
  unfold World.pmBusyClear
  split_ifs
  · exact hw
  · exact hP.locked _ _ (fun w => hP.mapSt w _ (hφ _ _)) hw

theorem sethook (hP : BodyInv φ Q P) {l : HookList}
    (hφ : ∀ s i h, φ (setSlot s l i h) = φ s) (hook : Option HookId) (hw : P w) :
    P (w.sethook l hook).2 := by
  rw [sethook_locked]
  refine hP.locked _ _ (fun w hw => ?_) hw
  split
  · exact hP.mapSt _ _ (hφ _ _ _) hw
  · exact hw

theorem delhook (hP : BodyInv φ Q P) {l : HookList}
    (hφ : ∀ s i h, φ (setSlot s l i h) = φ s) (hook : Option HookId) (hw : P w) :
    P (w.delhook l hook).2 := by
  rw [delhook_locked]
  refine hP.locked _ _ (fun w hw => ?_) hw
  split
  · exact hP.mapSt _ _ (hφ _ _ _) hw
  · exact hw

/-- **A call keeps what does not see the fields it writes.** The change of frequency inside
`pm_freq_request` is a case of its own. -/
theorem exec (hP : BodyInv φ Q P) (f : Call) (hφ : ∀ s s', f.Writes s s' → φ s' = φ s)
    (hset : ∀ k m, f = .pmFreqRequest k m → k.toNat < c.pmModuleMax →
      m.toNat < pmFreqModeMax - 1 → ∀ w : World c X, m < w.st.freqMode → Q w →
      Q ((w.pmSetFreq .pmFreqRequest m).mapSt fun s => { s with freqMode := m }))
    (hw : P w) : P (w.exec f) := by
  have hslot : ∀ l, (∀ s s' : Lpms c, (s' = { s with hooks := s'.hooks } ∧
      ∀ l' ≠ l, s'.hooks l' = s.hooks l') → φ s' = φ s) → ∀ s i h, φ (setSlot s l i h) = φ s :=
    fun l hφ s i h => hφ _ _ ⟨rfl, fun l' hl => Function.update_of_ne hl _ _⟩
  cases f with
  | pmSleepRequest k m => exact hP.pmSleepRequest (fun _ _ => hφ _ _ rfl) k m hw
  | pmSleepRelease k m => exact hP.pmSleepRelease (fun _ _ => hφ _ _ rfl) k m hw
  | pmIdleLockRequest k => exact hP.pmSleepRequest (fun _ _ => hφ _ _ rfl) k pmSleepIdle hw
  | pmIdleLockRelease k => exact hP.pmSleepRelease (fun _ _ => hφ _ _ rfl) k pmSleepIdle hw
  | pmFreqRequest k m => exact hP.pmFreqRequest (fun _ _ => hφ _ _ rfl) k m (hset k m rfl) hw
  | pmFreqRelease k m => exact hP.pmFreqRelease (fun _ _ _ => hφ _ _ rfl) k m hw
  | pmBusySet k n => exact hP.pmBusySet (fun _ _ => hφ _ _ rfl) k n hw
  | pmBusyClear k => exact hP.pmBusyClear (fun _ _ => hφ _ _ rfl) k hw
  | lpmsEnable => exact hP.unlocked w (fun s => { s with enableFlag := 0x01 }) (hφ _ _ rfl) hw
  | lpmsDisable => exact hP.unlocked w (fun s => { s with enableFlag := 0x00 }) (hφ _ _ rfl) hw
  | lpmsSethook l h => cases l <;> exact hP.sethook (hslot _ hφ) h hw
  | lpmsDelhook l h => cases l <;> exact hP.delhook (hslot _ hφ) h hw

end BodyInv

/-- A property that survives plain steps and every change of the static data outside a view. -/
structure ViewInv {α : Type*} (φ : Lpms c → α) (P : World c X → Prop) : Prop
    extends PlainInv P where
  mapSt : ∀ w f, φ (f w.st) = φ w.st → P w → P (w.mapSt f)

namespace ViewInv

variable {α : Type*} {φ : Lpms c → α} {P : World c X → Prop}

/-- What the view shows. -/
theorem view (φ : Lpms c → α) (a : α) : ViewInv (X := X) φ (fun w => φ w.st = a) where
  plat _ _ h := h
  emit _ _ _ h := h
  mapSt _ _ hf h := hf.trans h

theorem body (hP : ViewInv φ P) : BodyInv φ P P where
  locked _ _ hb hw := hP.irqEnable _ (hb _ (hP.irqDisable hw))
  getTick _ hw := hP.getTick hw
  mapSt := hP.mapSt
  unlocked := hP.mapSt

end ViewInv

/-- No call changes the mode of the pass. -/
theorem call_sleepMode (f : Call) (w : World c X) : (w.call f).st.sleepMode = w.st.sleepMode := by
  have hset : ∀ (k : U16) (m : U8) (w' : World c X), w'.st.sleepMode = w.st.sleepMode →
      ((w'.pmSetFreq .pmFreqRequest m).mapSt fun s => { s with freqMode := m }).st.sleepMode =
        w.st.sleepMode := by
    intro k m w' h
    rw [mapSt_st, pmSetFreq_st]
    exact h
  exact (ViewInv.view (·.sleepMode) w.st.sleepMode).body.exec f
    (fun _ _ h => sleepMode_of_writes h) (fun k m _ _ _ w' _ h => hset k m w' h)
    (w := w.emit (.enter f)) rfl

/-! ## Readings of the record

`sel` reads something off some events. The entries of a call are plain, but for its start, its
return and a change of frequency between them. -/

section Reading

variable {β : Type*} {sel : Ev → Option β}

theorem emit_unread {e : Ev} (he : sel e = none) (w : World c X) :
    (w.emit e).trace.filterMap (sel ·.1) = w.trace.filterMap (sel ·.1) :=
  filterMap_snoc_none he

theorem pmSetFreq_unread (sel : Ev → Option β) {site : FreqSite} {m : U8}
    (he : sel (.setFreq site m) = none) (w : World c X) :
    (w.pmSetFreq site m).trace.filterMap (sel ·.1) = w.trace.filterMap (sel ·.1) := by
  unfold pmSetFreq callOut
  split
  · rfl
  · exact emit_unread he w

theorem exec_unread (hplain : ∀ e, e.Plain → sel e = none)
    (hset : ∀ site m, sel (.setFreq site m) = none) (f : Call) (w : World c X) :
    (w.exec f).trace.filterMap (sel ·.1) = w.trace.filterMap (sel ·.1) := by
  have hP : ViewInv (fun _ : Lpms c => ()) fun w' : World c X =>
      w'.trace.filterMap (sel ·.1) = w.trace.filterMap (sel ·.1) :=
    { plat := fun _ _ h => h
      emit := fun w' e he h => (emit_unread (hplain e he) w').trans h
      mapSt := fun _ _ _ h => h }
  exact hP.body.exec f (fun _ _ _ => rfl)
    (fun _ m _ _ _ w' _ h => (pmSetFreq_unread sel (hset _ m) w').trans h) rfl

/-- A call adds to a reading what its return adds. -/
theorem call_reading (hplain : ∀ e, e.Plain → sel e = none)
    (hset : ∀ site m, sel (.setFreq site m) = none) (f : Call) (henter : sel (.enter f) = none)
    (w : World c X) : (w.call f).trace.filterMap (sel ·.1) =
      w.trace.filterMap (sel ·.1) ++ (sel (.done f)).toList := by
  unfold World.call
  rw [emit_trace, filterMap_snoc, exec_unread hplain hset, emit_unread henter]

end Reading

/-! ## The blocks of a pass -/

/-- Foreign code keeps what each of its acts keeps. -/
theorem acts_keeps {P : World c X → Prop} {as : List (HookAct X)}
    (hact : ∀ a ∈ as, ∀ w, P w → P (act w a)) (hw : P w) : P (as.foldl act w) := by
  induction as generalizing w with
  | nil => exact hw
  | cons a as ih =>
    exact ih (fun b hb => hact b (List.mem_cons_of_mem a hb)) (hact a List.mem_cons_self w hw)

/-- A notification loop, with a property `P` between the hooks and a property `Q` while one runs:
its entry leads from `P` to `Q`, what it does keeps `Q`, and its return leads back. -/
theorem notifySlots_within {env : Env c X} {P Q : World c X → Prop} {l : HookList} {mode : U8}
    {is : List (Fin (c.lpmsHookListSize l))}
    (hemit : ∀ w, ∀ i ∈ is, ∀ h, P w → Q (w.emit (.hook l i h mode)))
    (hact : ∀ h w₀, ∀ a ∈ env.body l h mode w₀, ∀ w, Q w → Q (act w a))
    (hback : ∀ w, Q w → P w) (hw : P w) : P (is.foldl (notifySlot env l mode) w) := by
  induction is generalizing w with
  | nil => exact hw
  | cons i is ih =>
    rw [List.foldl_cons]
    refine ih (fun w j hj => hemit w j (List.mem_cons_of_mem i hj)) ?_
    unfold notifySlot
    split
    · exact hw
    · exact hback _ (acts_keeps (hact _ _) (hemit _ i List.mem_cons_self _ hw))

/-- A property kept by what the hooks of a list do, and by their entries, is kept by the
notification of any slots. -/
theorem notifySlots_keeps {env : Env c X} {P : World c X → Prop} {l : HookList} {mode : U8}
    {is : List (Fin (c.lpmsHookListSize l))}
    (hact : ∀ h m w₀, ∀ a ∈ env.body l h m w₀, ∀ w, P w → P (act w a))
    (hemit : ∀ w, ∀ i ∈ is, ∀ h, P w → P (w.emit (.hook l i h mode))) (hw : P w) :
    P (is.foldl (notifySlot env l mode) w) :=
  notifySlots_within hemit (fun h => hact h mode) (fun _ h => h) hw

theorem notify_keeps {env : Env c X} {P : World c X → Prop} {l : HookList} {mode : U8}
    (hact : ∀ h m w₀, ∀ a ∈ env.body l h m w₀, ∀ w, P w → P (act w a))
    (hemit : ∀ w i h, P w → P (w.emit (.hook l i h mode))) (hw : P w) : P (w.notify env l mode) :=
  notifySlots_keeps hact (fun w i _ h => hemit w i h) hw

/-- The frequency step keeps what its two writes and the frequency hooks keep. -/
theorem freqHandle_keeps {env : Env c X} {P : World c X → Prop}
    (henter : ∀ w, P w → P (w.emit .freqHandle))
    (hflag : ∀ w, w.st.freqFlag = 0x01 → P w → P (w.mapSt fun s => { s with freqFlag := 0x00 }))
    (hset : ∀ w, selectFreqMode w.st ≠ w.st.freqMode → P w →
      P ((w.pmSetFreq .pmFreqHandle (selectFreqMode w.st)).mapSt
        fun s => { s with freqMode := selectFreqMode w.st }))
    (hact : ∀ h m w₀, ∀ a ∈ env.body .freq h m w₀, ∀ w, P w → P (act w a))
    (hemit : ∀ w i h m, P w → P (w.emit (.hook .freq i h m))) (hw : P w) :
    P (w.pmFreqHandle env) := by
  have h0 := henter w hw
  unfold pmFreqHandle
  dsimp only
  split_ifs with hf hne
  · exact notify_keeps hact (fun w i h => hemit w i h _) (hset _ hne (hflag _ hf h0))
  · exact hflag _ hf h0
  · exact h0

/-- A property that survives plain steps and a new sleep mode. -/
structure SleepInv (P : World c X → Prop) : Prop extends PlainInv P where
  sleepMode : ∀ w m, P w → P (w.mapSt fun s => { s with sleepMode := m })

namespace SleepInv

variable {env : Env c X} {P : World c X → Prop}

/-- What a view of the static data without the sleep mode shows. -/
theorem view {α : Type*} {φ : Lpms c → α} (hφ : ∀ s m, φ { s with sleepMode := m } = φ s) (a : α) :
    SleepInv (X := X) (fun w => φ w.st = a) where
  toPlainInv := (ViewInv.view φ a).toPlainInv
  sleepMode _ _ h := (hφ _ _).trans h

theorem decideInv (hP : SleepInv P) : DecideInv P where
  getTick _ hw := hP.getTick hw
  nextTimeout _ hw := hP.nextTimeout hw
  sleepMode := hP.sleepMode

theorem passDecide (hP : SleepInv P) (hw : P w) : P w.passDecide.2 :=
  hP.decideInv.passDecide (hP.irqDisable hw)

theorem deepEnter (hP : SleepInv P) (hw : P w) : P w.deepEnter.2 := by
  unfold World.deepEnter
  split
  · exact hP.lptimerStart _ (hP.getTick (hP.lptimerNextTimeout hw))
  · exact hw

theorem deepExit (hP : SleepInv P) (flag : Bool) (hw : P w) : P (w.deepExit flag) := by
  unfold World.deepExit
  split
  · split
    · exact hP.setTick _ (hP.getTick (hP.lptimerStop (hP.lptimerGetTimeout hw)))
    · exact hw
  · exact hw

/-- The sleep keeps what the sleep and wakeup hooks keep. -/
theorem passSleep (hP : SleepInv P)
    (hact : ∀ l ≠ .freq, ∀ h m w₀, ∀ a ∈ env.body l h m w₀, ∀ w, P w → P (act w a)) (hw : P w) :
    P (w.passSleep env) := by
  unfold World.passSleep
  apply hP.deepExit
  apply notify_keeps (hact .wake (by decide)) (fun w i h => hP.emit w (.hook .wake i h _) trivial)
  apply hP.sleep
  apply notify_keeps (hact .sleep (by decide)) (fun w i h => hP.emit w (.hook .sleep i h _) trivial)
  exact hP.deepEnter hw

/-- Hooks that call no LPMS function only change the platform. -/
theorem quiet_act (hP : SleepInv P) {l : HookList} (hq : env.Quiet l) :
    ∀ h m w₀, ∀ a ∈ env.body l h m w₀, ∀ w, P w → P (act w a) := by
  intro h m w₀ a ha w hw
  obtain ⟨f, rfl⟩ := hq h m w₀ a ha
  exact hP.plat _ _ hw

end SleepInv

/-! ## The invariant rule -/

/-- What a property must survive to survive a pass: plain steps, a new sleep mode, the calls
of hooks, and the frequency step as a whole. -/
structure PassInv (env : Env c X) (P : World c X → Prop) : Prop extends SleepInv P where
  call : ∀ w f, P w → P (w.call f)
  freqHandle : ∀ w, P w → P (w.pmFreqHandle env)

namespace PassInv

variable {env : Env c X} {P : World c X → Prop}

/-- Foreign code keeps the property. -/
theorem act (hP : PassInv env P) (a : HookAct X) (hw : P w) : P (w.act a) := by
  cases a with
  | call f => exact hP.call _ _ hw
  | plat f => exact hP.plat _ _ hw

/-- **A pass keeps the property.** -/
theorem pmRunTickless (hP : PassInv env P) (hw : P w) : P (w.pmRunTickless env) := by
  unfold World.pmRunTickless
  split
  · exact hw
  · apply hP.irqEnable
    apply hP.freqHandle
    apply hP.passSleep (fun _ _ _ _ _ a _ w hw => hP.act a hw)
    exact hP.passDecide hw

theorem step (hP : PassInv env P) (e : Op X) (hw : P w) : P (w.step env e) := by
  cases e with
  | call f => exact hP.call _ _ hw
  | pmRunTickless => exact hP.pmRunTickless hw
  | plat f => exact hP.plat _ _ hw

/-- **Every execution keeps the property.** -/
theorem run (hP : PassInv env P) (es : List (Op X)) (hw : P w) : P (w.run env es) := by
  induction es generalizing w with
  | nil => exact hw
  | cons e es ih => exact ih (hP.step e hw)

end PassInv
/-- The callback table given to `lpms_init` stays. -/
theorem run_ops (env : Env c X) (es : List (Op X)) : (w.run env es).ops = w.ops := by
  have hv : ViewInv (fun _ : Lpms c => ()) (fun w' : World c X => w'.ops = w.ops) :=
    { plat := fun _ _ h => h, emit := fun _ _ _ h => h, mapSt := fun _ _ _ h => h }
  have hset : ∀ site m, ∀ w' : World c X, w'.ops = w.ops →
      ((w'.pmSetFreq site m).mapSt fun s => { s with freqMode := m }).ops = w.ops := by
    intro site m w' h
    rw [mapSt_ops, pmSetFreq, callOut_ops, h]
  have hcall : ∀ (w' : World c X) f, w'.ops = w.ops → (w'.call f).ops = w.ops :=
    fun w' f h => hv.body.exec f (fun _ _ _ => rfl) (fun _ m _ _ _ w' _ => hset _ m w')
      (w := w'.emit (.enter f)) h
  have hact : ∀ (a : HookAct X) (w' : World c X), w'.ops = w.ops → (w'.act a).ops = w.ops := by
    intro a w' h
    cases a with
    | call f => exact hcall w' f h
    | plat f => exact h
  exact PassInv.run (P := fun w' => w'.ops = w.ops)
    { toPlainInv := hv.toPlainInv
      sleepMode := fun _ _ h => h
      call := hcall
      freqHandle := fun w' h => freqHandle_keeps (P := fun w' => w'.ops = w.ops) (fun _ h => h)
        (fun _ _ h => h) (fun w' _ => hset _ _ w') (fun _ _ _ a _ => hact a) (fun _ _ _ _ h => h) h } es rfl

/-! ## Passes with quiet hooks -/

variable {env : Env c X}

/-- The frequency step with quiet hooks, on the static data: a raised flag is taken down and
the selected mode is set. -/
theorem pmFreqHandle_st (hq : env.Quiet .freq) :
    (w.pmFreqHandle env).st =
      if w.st.freqFlag = 0x01 then
        { w.st with freqFlag := 0x00, freqMode := selectFreqMode w.st }
      else w.st := by
  unfold pmFreqHandle
  dsimp only
  rw [emit_st]
  split_ifs with hflag hne
  · refine notify_keeps (P := fun w' => w'.st = _) ?_ (fun _ _ _ h => h) ?_
    · intro h m w₀ a ha w' hw'
      obtain ⟨f, rfl⟩ := hq h m w₀ a ha
      exact hw'
    · rw [mapSt_st, pmSetFreq, callOut_st]
      rfl
  · -- the selected mode is already in force
    have hmode : selectFreqMode w.st = w.st.freqMode := not_not.1 hne
    rw [hmode]
    rfl
  · rfl

/-- Up to its frequency step, a pass with quiet hooks changes nothing but the sleep mode. -/
theorem passSleep_view {α : Type*} {φ : Lpms c → α} (hφ : ∀ s m, φ { s with sleepMode := m } = φ s)
    (hq : ∀ l ≠ .freq, env.Quiet l) : φ (w.passDecide.2.passSleep env).st = φ w.st := by
  have hP := SleepInv.view (X := X) hφ (φ w.st)
  exact hP.passSleep (fun l hl => hP.quiet_act (hq l hl)) (hP.passDecide rfl)

end World
end LowPower
