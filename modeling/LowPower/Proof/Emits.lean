import LowPower.Proof.Frame

/-!
# What each block of a pass records

`Emits q w w'`: from `w` to `w'` the record only grew, by entries whose event satisfies `q`.
Most blocks record light events only (`Ev.light`). The others have their place in the pass:
`lptim_start` in `deepEnter`, the sleep hooks in `lpms_notify_sleep`, `sleep` in `pm_sleep`, and
the entry of `pm_freq_handle` after them.
-/

namespace LowPower

variable {c : Config} {X : Type}

/-- Events that occur at many places of a run. -/
def Ev.light : Ev → Bool
  | .sleep _ | .lptimStart _ | .freqHandle | .hook .sleep _ _ _ => false
  | .hook .wake _ _ _ | .hook .freq _ _ _ | .enter _ | .done _ | .setFreq _ _ => true
  | .lptimStop | .lptimGetTick _ | .lptimNextTimeout _ => true
  | .systickGet _ | .systickSet _ | .systickNextTimeout _ => true
  | .irqDisable _ | .irqEnable _ => true

namespace World

variable {w w' w'' : World c X} {env : Env c X} {q q' : Ev → Prop}

/-- From `w` to `w'` the record grew by events with `q`. -/
def Emits (q : Ev → Prop) (w w' : World c X) : Prop :=
  ∃ tr, w'.trace = w.trace ++ tr ∧ ∀ p ∈ tr, q p.1

/-- Only light events were recorded. -/
abbrev EmitsLight (w w' : World c X) : Prop := Emits (fun e => e.light = true) w w'

namespace Emits

theorem refl (q : Ev → Prop) (w : World c X) : Emits q w w := ⟨[], (List.append_nil _).symm, by simp⟩

theorem trans (h : Emits q w w') (h' : Emits q w' w'') : Emits q w w'' := by
  obtain ⟨tr, ht, hq⟩ := h
  obtain ⟨tr', ht', hq'⟩ := h'
  refine ⟨tr ++ tr', by rw [ht', ht, List.append_assoc], ?_⟩
  intro p hp
  rcases List.mem_append.1 hp with hp | hp
  · exact hq p hp
  · exact hq' p hp

theorem mono (h : Emits q w w') (hq : ∀ e, q e → q' e) : Emits q' w w' := by
  obtain ⟨tr, ht, hp⟩ := h
  exact ⟨tr, ht, fun p hmem => hq _ (hp p hmem)⟩

theorem of_trace (h : w'.trace = w.trace) : Emits q w w' :=
  ⟨[], by rw [h, List.append_nil], by simp⟩

theorem mapSt (f : Lpms c → Lpms c) (w : World c X) : Emits q w (w.mapSt f) := of_trace rfl

theorem emit {e : Ev} (he : q e) (w : World c X) : Emits q w (w.emit e) :=
  ⟨[(e, w.st)], rfl, by simpa using he⟩

theorem callOut {sel : LpmsOps X → Option (X → X)} {e : Ev} (he : q e) (w : World c X) :
    Emits q w (w.callOut sel e) := by
  unfold World.callOut
  split
  · exact refl q w
  · exact (emit he w).trans (of_trace rfl)

theorem query {sel : LpmsOps X → Option (X → U32 × X)} {e : U32 → Ev} (he : ∀ r, q (e r)) (d : U32)
    (w : World c X) : Emits q w (w.query sel e d).2 := by
  unfold World.query
  split
  · exact refl q w
  · exact (emit (he _) w).trans (of_trace rfl)

end Emits

/-! ## Calls and notifications -/

theorem pmIrqDisable_emits (w : World c X) : EmitsLight w w.pmIrqDisable.2 :=
  Emits.query (fun _ => by rfl) _ w

theorem pmIrqEnable_emits (level : U32) (w : World c X) : EmitsLight w (w.pmIrqEnable level) :=
  Emits.callOut (by rfl) w

theorem pmGetTick_emits (w : World c X) : EmitsLight w w.pmGetTick.2 :=
  Emits.query (fun _ => by rfl) _ w

theorem pmSetFreq_emits (site : FreqSite) (mode : U8) (w : World c X) :
    EmitsLight w (w.pmSetFreq site mode) := Emits.callOut (by rfl) w

/-- A call records the callbacks of its locked section and the change of frequency. -/
theorem exec_emits_of (hdis : ∀ r, q (.irqDisable r)) (hen : ∀ level, q (.irqEnable level))
    (hget : ∀ r, q (.systickGet r)) (hset : ∀ site m, q (.setFreq site m)) (f : Call)
    (w : World c X) : Emits q w (w.exec f) := by
  have hbody : BodyInv (fun _ : Lpms c => ()) (Emits q w) (Emits q w) :=
    { locked := fun w' body hb hw =>
        (hb _ (hw.trans (Emits.query hdis _ w'))).trans (Emits.callOut (hen _) _)
      getTick := fun w' hw => hw.trans (Emits.query hget _ w')
      mapSt := fun w' f _ hw => hw.trans (Emits.mapSt f w')
      unlocked := fun w' f _ hw => hw.trans (Emits.mapSt f w') }
  refine hbody.exec f (fun _ _ _ => rfl) ?_ (Emits.refl _ w)
  intro k m _ _ _ w' _ hw
  exact (hw.trans (Emits.callOut (hset _ _) w')).trans (Emits.mapSt _ _)

theorem exec_emits (f : Call) (w : World c X) : EmitsLight w (w.exec f) :=
  exec_emits_of (fun _ => rfl) (fun _ => rfl) (fun _ => rfl) (fun _ _ => rfl) f w

theorem call_emits (f : Call) (w : World c X) : EmitsLight w (w.call f) :=
  ((Emits.emit (by rfl) w).trans (exec_emits f _)).trans (Emits.emit (by rfl) _)

theorem act_emits (a : HookAct X) (w : World c X) : EmitsLight w (w.act a) := by
  cases a with
  | call f => exact call_emits f w
  | plat f => exact Emits.of_trace rfl

/-- A notification records its hooks, and what they call. -/
theorem notify_emits (hlight : ∀ e, e.light = true → q e) {l : HookList} {mode : U8}
    (hhook : ∀ i h, q (.hook l i h mode)) (w : World c X) : Emits q w (w.notify env l mode) := by
  refine notify_keeps (P := Emits q w) ?_ ?_ (Emits.refl q w)
  · intro h m w₀ a _ w' hw
    exact hw.trans ((act_emits a w').mono hlight)
  · intro w' i h hw
    exact hw.trans (Emits.emit (hhook i h) w')

/-! ## The blocks of the pass -/

theorem passDecide_emits (w : World c X) : EmitsLight w w.passDecide.2 := by
  have hdecide : DecideInv (EmitsLight w) :=
    { getTick := fun w' hw => hw.trans (pmGetTick_emits w')
      nextTimeout := fun w' hw => hw.trans (Emits.query (fun _ => by rfl) _ w')
      sleepMode := fun w' _ hw => hw.trans (Emits.mapSt _ w') }
  exact hdecide.passDecide (pmIrqDisable_emits w)

/-- The argument of `lptim_start` in a pass that has decided. -/
def lptimArg (w : World c X) : U32 := w.lptimerNextTimeout.1 - w.lptimerNextTimeout.2.pmGetTick.1

/-- Before a deep sleep the low-power timer is started, once; before another it is not. -/
theorem deepEnter_emits (w : World c X) :
    Emits (fun e => e.light = true ∨
      (c.lpmsTicklessDefaultMode ≤ w.st.sleepMode ∧ e = .lptimStart w.lptimArg)) w w.deepEnter.2 := by
  unfold deepEnter
  dsimp only
  split_ifs with hdeep
  · have hreads : EmitsLight w w.lptimerNextTimeout.2.pmGetTick.2 :=
      Emits.trans (Emits.query (fun _ => by rfl) _ w) (pmGetTick_emits _)
    exact (hreads.mono fun _ he => .inl he).trans (Emits.callOut (.inr ⟨hdeep, rfl⟩) _)
  · exact Emits.refl _ w

theorem deepExit_emits (flag : Bool) (w : World c X) : EmitsLight w (w.deepExit flag) := by
  unfold deepExit
  split
  · split
    · have hstop : EmitsLight w w.lptimerGetTimeout.2.lptimerStop :=
        Emits.trans (Emits.query (fun _ => by rfl) _ w) (Emits.callOut (by rfl) _)
      exact (hstop.trans (pmGetTick_emits _)).trans (Emits.callOut (by rfl) _)
    · exact Emits.refl _ w
  · exact Emits.refl _ w

/-- After its entry the frequency step records light events only. -/
theorem pmFreqHandle_emits (w : World c X) :
    EmitsLight (w.emit .freqHandle) (w.pmFreqHandle env) := by
  unfold pmFreqHandle
  dsimp only
  split_ifs
  · refine Emits.trans ?_ (notify_emits (fun _ he => he) (fun _ _ => rfl) _)
    exact ((Emits.mapSt _ _).trans (pmSetFreq_emits _ _ _)).trans (Emits.mapSt _ _)
  · exact Emits.mapSt _ _
  · exact Emits.refl _ _

/-! ## The pass in stages -/

/-- The state in which a pass calls the sleep hooks. -/
def decided (w : World c X) : World c X := w.passDecide.2.deepEnter.2

/-- The state in which a pass puts the device to sleep. -/
def told (env : Env c X) (w : World c X) : World c X :=
  w.decided.lpmsNotifySleep env w.decided.st.sleepMode

theorem decided_emits (w : World c X) :
    Emits (fun e => e.light = true ∨ ∃ t, e = .lptimStart t) w w.decided :=
  ((passDecide_emits w).mono fun _ he => .inl he).trans
    ((deepEnter_emits _).mono fun _ he => he.imp_right fun he => ⟨_, he.2⟩)

theorem decided_sleepMode (w : World c X) : w.decided.st.sleepMode = w.passDecide.2.st.sleepMode := by
  unfold decided deepEnter
  split_ifs
  · dsimp only
    rw [lptimerStart, callOut_st, pmGetTick_st, lptimerNextTimeout, query_st]
  · rfl

theorem passSleep_eq (w : World c X) : w.passDecide.2.passSleep env =
    (((w.told env).pmSleep (w.told env).st.sleepMode).lpmsNotifyWakeup env
      ((w.told env).pmSleep (w.told env).st.sleepMode).st.sleepMode).deepExit
        w.passDecide.2.deepEnter.1 := rfl

end World
end LowPower
