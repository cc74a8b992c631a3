import LowPower.Proof.Emits
import LowPower.Proof.TickPort

/-!
# Absent callbacks and the OS tick

Every callback of `struct lpms_ops` may be absent, and the wrappers then answer with a default. In
a pass the defaults meet in two places. The compensation after a deep sleep reads an absent
`systick_get` as 0 and an absent `lptim_get_tick` as `PM_TICK_MAX` (`deepExit_tick`). And setting
the tick may pend a SysTick, which counts one more tick where the interrupts come on.

* `pmRunTickless_tick`: the tick after a pass.
* `run_settled`: what holds of the platform before every pass of a run.
* `pmRunTickless_tick_iff`: when a pass leaves the tick as it was, or adds the ticks slept.
-/

namespace LowPower

variable {c : Config} {X : Type}

namespace World

variable {t : TickPort X} {o : Option (LpmsOps X)} {env : Env c X} {w : World c X} {s : TickState 32}

/-! ## The blocks of a pass -/

/-- The state in which a pass leaves its sleep: the wakeup hooks have run, the low-power timer has
not been read. -/
def woken (env : Env c X) (w : World c X) : World c X :=
  let w := w.passDecide.2.deepEnter.2
  let w := w.lpmsNotifySleep env w.st.sleepMode
  let w := w.pmSleep w.st.sleepMode
  w.lpmsNotifyWakeup env w.st.sleepMode

/-- A pass up to the last `pm_irq_enable`. -/
def passBody (env : Env c X) (w : World c X) : World c X :=
  (w.passDecide.2.passSleep env).pmFreqHandle env

theorem pmRunTickless_passBody (env : Env c X) (hen : w.st.enableFlag ≠ 0) :
    w.pmRunTickless env = (w.passBody env).pmIrqEnable w.passDecide.1 := by
  unfold pmRunTickless
  rw [if_neg hen]
  rfl

theorem notify_sleepMode (l : HookList) (m : U8) (w : World c X) :
    (w.notify env l m).st.sleepMode = w.st.sleepMode := by
  refine notify_keeps (P := fun w' => w'.st.sleepMode = w.st.sleepMode) ?_ (fun _ _ _ h => h) rfl
  intro h m w₀ a _ w' hw
  cases a with
  | call f => exact (call_sleepMode f w').trans hw
  | plat f => exact hw

theorem deepEnter_st (w : World c X) : w.deepEnter.2.st = w.st := by
  unfold deepEnter lptimerNextTimeout lptimerStart
  split_ifs
  · dsimp only
    rw [callOut_st, pmGetTick_st, query_st]
  · rfl

theorem woken_sleepMode (env : Env c X) (w : World c X) :
    (w.woken env).st.sleepMode = w.passDecide.2.st.sleepMode := by
  unfold woken lpmsNotifySleep lpmsNotifyWakeup pmSleep
  dsimp only
  rw [notify_sleepMode, callOut_st, notify_sleepMode, deepEnter_st]

/-- The pass stops the machine: it starts the low-power timer with a time-out that does. -/
def StopsAt (t : TickPort X) (w : World c X) : Prop :=
  ((w.ops.bind (·.lptimStart)).isSome && t.stops (w.lptimDue - w.sysTick)) = true

/-- The pass gets to set the tick. -/
def SetsTick (t : TickPort X) (w : World c X) : Prop :=
  (t.view w.plat).halted = false ∧ w.EntersDeep ∧ ¬w.StopsAt t ∧
    (w.ops.bind (·.systickSet)).isSome = true

/-- The value the compensation writes, with the defaults of absent callbacks. -/
def compensated (o : Option (LpmsOps X)) (now : U32) (x : X) : U32 :=
  (if (o.bind (·.systickGet)).isSome then now else 0) +
    match o.bind (·.lptimGetTick) with
    | some f => (f x).1
    | none => pmTickMax

/-- The SysTicks that setting the tick pends and the pass serves. -/
def served (t : TickPort X) (w : World c X) : U32 :=
  if t.pends && TickState.comesOn (disables w.ops) (enables w.ops) (t.view w.plat).masked then 1 else 0

section Compensation

variable (hp : t.Meets o)
include hp

theorem passDecide_tick (h : TickAt t o s w) :
    TickAt t o (s.inside (disables o)) w.passDecide.2 ∧
      (s.halted = false → t.level w.passDecide.1 = (disables o && s.masked)) := by
  have hdecide : DecideInv (c := c) (TickAt t o (s.inside (disables o))) :=
    { getTick := fun _ h => h.getTick hp
      nextTimeout := fun _ h => h.nextTimeout hp
      sleepMode := fun _ _ h => h.mapSt _ }
  obtain ⟨hdis, hlevel⟩ := h.irqDisable hp
  exact ⟨hdecide.passDecide hdis, hlevel⟩

theorem deepEnter_tick (hd : c.lpmsTicklessDefaultMode ≤ w.st.sleepMode) (h : TickAt t o s w) :
    TickAt t o (s.stop ((o.bind (·.lptimStart)).isSome && t.stops w.lptimArg)) w.deepEnter.2 := by
  unfold deepEnter
  rw [if_pos hd]
  exact ((h.lptimerNextTimeout hp).getTick hp).lptimerStart hp _

/-- **The compensation in closed form.** -/
theorem deepExit_tick (hs : s.Settled (disables o) (enables o)) (h : TickAt t o s w)
    (hd : c.lpmsTicklessDefaultMode ≤ w.st.sleepMode) :
    TickAt t o (if (o.bind (·.systickSet)).isSome then
      s.setTick t.pends (compensated o s.tick w.plat) else s) (w.deepExit true) := by
  have hread := (h.lptimerGetTimeout hp).lptimerStop hp
  have hset := (hread.getTick hp).setTick hp hs
    (w.lptimerGetTimeout.2.lptimerStop.pmGetTick.1 + w.lptimerGetTimeout.1)
  have hdelta : w.lptimerGetTimeout.1 = match o.bind (·.lptimGetTick) with
      | some f => (f w.plat).1
      | none => pmTickMax := by
    unfold lptimerGetTimeout query
    rw [h.ops]
    cases o.bind (·.lptimGetTick) <;> rfl
  unfold deepExit
  rw [if_pos hd, if_pos rfl]
  cases hhalted : s.halted with
  | true =>
    -- a stopped machine sets nothing, whatever the value
    have hkeep : ∀ n, s.setTick t.pends n = s := fun n => if_pos hhalted
    rw [hkeep] at hset ⊢
    exact hset
  | false =>
    rw [hread.getTick_eq hp hs hhalted, hdelta] at hset
    dsimp only
    rw [hread.getTick_eq hp hs hhalted, hdelta]
    exact hset

theorem steady (ho : w.ops = o) : w.Steady := fun ops hops => hp.steady ops (ho ▸ hops)

/-- A pass is deep exactly when it was to be so before it started. -/
theorem deep_iff (ho : w.ops = o) (hen : w.st.enableFlag ≠ 0) :
    c.lpmsTicklessDefaultMode ≤ w.passDecide.2.st.sleepMode ↔ w.EntersDeep := by
  unfold EntersDeep
  rw [BitVec.le_def, passDecide_sleepMode, passMode_eq (steady hp ho), and_iff_right hen]

/-- The sleep of a pass, deep or not. -/
theorem sleep_tick (hh : t.Hooks env) (hin : s.Inside (disables o))
    (h : TickAt t o s w.passDecide.2.deepEnter.2) : TickAt t o s (w.woken env) := by
  have hsleep := notify_tick hp hin hh .sleep w.passDecide.2.deepEnter.2.st.sleepMode h
  exact notify_tick hp hin hh .wake _ (hsleep.sleep hp _)

/-- The tick when a pass leaves its sleep. -/
theorem woken_tick (hh : t.Hooks env) (ho : w.ops = o) (hen : w.st.enableFlag ≠ 0) :
    (w.EntersDeep → TickAt t o (((t.view w.plat).inside (disables o)).stop
      ((o.bind (·.lptimStart)).isSome && t.stops (w.lptimDue - w.sysTick))) (w.woken env)) ∧
    (¬w.EntersDeep → TickAt t o ((t.view w.plat).inside (disables o)) (w.woken env)) := by
  have hin := (t.view w.plat).inside_Inside (disables o)
  have hdecide := (passDecide_tick hp (⟨ho, .inl rfl⟩ : TickAt t o (t.view w.plat) w)).1
  constructor
  · intro hdeep
    have henter := deepEnter_tick hp ((deep_iff hp ho hen).2 hdeep) hdecide
    obtain ⟨hdue, htick⟩ := passDecide_lptimer (steady hp ho)
    rw [lptimArg, hdue, htick] at henter
    exact sleep_tick hp hh hin.stop henter
  · intro hshallow
    have henter : w.passDecide.2.deepEnter.2 = w.passDecide.2 := by
      unfold deepEnter
      rw [if_neg fun hd => hshallow ((deep_iff hp ho hen).1 hd)]
    exact sleep_tick hp hh hin (henter.symm ▸ hdecide)

/-- The tick before the last `pm_irq_enable`. -/
theorem passBody_tick (hh : t.Hooks env) (ho : w.ops = o) (hs : t.Settled o w.plat)
    (hen : w.st.enableFlag ≠ 0) :
    (w.SetsTick t → TickAt t o (((t.view w.plat).inside (disables o)).setTick t.pends
      (compensated o (t.view w.plat).tick (w.woken env).plat)) (w.passBody env)) ∧
    (¬w.SetsTick t → ∃ b, TickAt t o (((t.view w.plat).inside (disables o)).stop b)
      (w.passBody env)) := by
  subst ho
  obtain ⟨hdeepwoken, hshallow⟩ := woken_tick hp hh rfl hen
  have hin := (t.view w.plat).inside_Inside (disables w.ops)
  have hsleep : w.passDecide.2.passSleep env = (w.woken env).deepExit w.passDecide.2.deepEnter.1 :=
    rfl
  unfold passBody
  rw [hsleep]
  by_cases hdeep : w.EntersDeep
  · have hd := (deep_iff hp rfl hen).2 hdeep
    have hflag : w.passDecide.2.deepEnter.1 = true := by
      unfold deepEnter
      rw [if_pos hd]
    have hexit := deepExit_tick hp hs.inside.stop (hdeepwoken hdeep) ((woken_sleepMode env w).symm ▸ hd)
    rw [hflag]
    constructor
    · rintro ⟨-, -, hruns, hset⟩
      rw [Bool.eq_false_of_not_eq_true hruns, TickState.stop_false, TickState.inside_tick,
        if_pos hset] at hexit
      exact pmFreqHandle_tick hp hin.setTick hh hexit
    · intro hsets
      refine ⟨(w.ops.bind (·.lptimStart)).isSome && t.stops (w.lptimDue - w.sysTick), ?_⟩
      -- nothing sets the tick, or the machine has stopped
      have hkeep := pmFreqHandle_tick hp (s := ((t.view w.plat).inside (disables w.ops)).stop
        ((w.ops.bind (·.lptimStart)).isSome && t.stops (w.lptimDue - w.sysTick))) hin.stop hh
        (w := (w.woken env).deepExit true)
      apply hkeep
      split_ifs at hexit with hset
      · have hstopped : (((t.view w.plat).inside (disables w.ops)).stop
            ((w.ops.bind (·.lptimStart)).isSome && t.stops (w.lptimDue - w.sysTick))).halted = true := by
          rw [TickState.stop_halted, TickState.inside_halted]
          by_contra hlive
          rw [Bool.or_eq_true, not_or] at hlive
          exact hsets ⟨Bool.eq_false_of_not_eq_true hlive.1, hdeep, hlive.2, hset⟩
        rw [TickState.setTick_halted hstopped] at hexit
        exact hexit
      · exact hexit
  · have hexit : (w.woken env).deepExit w.passDecide.2.deepEnter.1 = w.woken env := by
      unfold deepExit
      rw [woken_sleepMode, if_neg fun hd => hdeep ((deep_iff hp rfl hen).1 hd)]
    rw [hexit]
    refine ⟨fun hsets => absurd hsets.2.1 hdeep, fun _ => ⟨false, ?_⟩⟩
    rw [TickState.stop_false]
    exact pmFreqHandle_tick hp hin hh (hshallow hdeep)

/-- The last `pm_irq_enable` of a pass. -/
theorem TickAt.finish (h : TickAt t o s w) {level : U32} {m : Bool} (hserved : s.Served)
    (hhalt : s.halted = true → s.Settled (disables o) (enables o))
    (hl : s.halted = false → t.level level = (disables o && m)) :
    (t.view (w.pmIrqEnable level).plat).tick = (s.release (disables o) (enables o) m).tick ∧
      t.Settled o (w.pmIrqEnable level).plat := by
  unfold TickPort.Settled
  cases hhalted : s.halted with
  | false =>
    rw [h.irqEnable hp hhalted (hl hhalted)]
    exact ⟨rfl, TickState.release_settled hserved hhalted m⟩
  | true =>
    have hopens := (h.irqEnable_halted hp level hhalted).opens
    have hkeep : s.release (disables o) (enables o) m = s := by
      unfold TickState.release TickState.unmask TickState.live
      rw [if_pos hhalted, ite_self]
    rw [hkeep]
    exact ⟨hopens.tick (hhalt hhalted), hopens.settled (hhalt hhalted)⟩

/-- **The tick after a pass**: as before, or what the compensation of a deep pass wrote and the
SysTick it pended. -/
theorem pmRunTickless_tick (hh : t.Hooks env) (ho : w.ops = o) (hs : t.Settled o w.plat)
    (hen : w.st.enableFlag ≠ 0) :
    ((w.SetsTick t → (t.view (w.pmRunTickless env).plat).tick =
        compensated o (t.view w.plat).tick (w.woken env).plat + w.served t) ∧
      (¬w.SetsTick t → (t.view (w.pmRunTickless env).plat).tick = (t.view w.plat).tick)) ∧
    t.Settled o (w.pmRunTickless env).plat := by
  obtain ⟨hsets, hkeeps⟩ := passBody_tick hp hh ho hs hen
  have hl := (passDecide_tick hp (⟨ho, .inl rfl⟩ : TickAt t o (t.view w.plat) w)).2
  rw [pmRunTickless_passBody env hen]
  by_cases h : w.SetsTick t
  · have hlive : ∀ n, (((t.view w.plat).inside (disables o)).setTick t.pends n).halted = false :=
      fun n => (TickState.halted_setTick n).trans ((TickState.inside_halted _ _).trans h.1)
    have hfinish := (hsets h).finish hp (TickState.setTick_served hs.inside.served)
      (fun hhalted => Bool.noConfusion ((hlive _).symm.trans hhalted)) (fun _ => hl h.1)
    rw [TickState.release_set hs h.1] at hfinish
    subst ho
    exact ⟨⟨fun _ => hfinish.1, fun hnot => absurd h hnot⟩, hfinish.2⟩
  · obtain ⟨b, hbody⟩ := hkeeps h
    have hstart : (((t.view w.plat).inside (disables o)).stop b).halted = false →
        (t.view w.plat).halted = false := by
      rw [TickState.stop_halted, TickState.inside_halted, Bool.or_eq_false_iff]
      exact And.left
    have hfinish := hbody.finish hp hs.inside.stop.served (fun _ => hs.inside.stop)
      (fun hlive => hl (hstart hlive))
    rw [TickState.release_inside hs] at hfinish
    exact ⟨⟨fun h' => absurd h' h, fun _ => hfinish.1⟩, hfinish.2⟩

end Compensation

/-- When the compensation is right: the pass does not set the tick, or both what the tick was and
what was slept are told and no SysTick is served on top. With one of them missing, or a SysTick
served, the result can only agree by chance. -/
def Compensates (t : TickPort X) (env : Env c X) (w : World c X) : Prop :=
  ¬w.SetsTick t ∨
    match w.ops.bind (·.systickGet), w.ops.bind (·.lptimGetTick) with
    | some _, some f => w.served t = 0 ∨ (f (w.woken env).plat).1 + 1 = 0
    | some _, none => w.served t = 1
    | none, some f => (t.view w.plat).tick = w.served t ∨
        (f (w.woken env).plat).1 + w.served t = (t.view w.plat).tick
    | none, none => (t.view w.plat).tick = pmTickMax + w.served t

/-- A pass leaves the tick as it was, or adds what a present `lptim_get_tick` reports. -/
def KeepsTime (t : TickPort X) (env : Env c X) (w : World c X) : Prop :=
  (t.view (w.pmRunTickless env).plat).tick = (t.view w.plat).tick ∨
    ∃ f, w.ops.bind (·.lptimGetTick) = some f ∧
      (t.view (w.pmRunTickless env).plat).tick = (t.view w.plat).tick + (f (w.woken env).plat).1

theorem served_eq (t : TickPort X) (w : World c X) : w.served t = 0 ∨ w.served t = 1 := by
  unfold served
  split_ifs
  · exact .inr rfl
  · exact .inl rfl

/-- A wrong value is the tick before, or that plus the ticks slept, only by chance. -/
theorem keepsTime_iff (hp : t.Meets w.ops) (hh : t.Hooks env) (hs : t.Settled w.ops w.plat)
    (hen : w.st.enableFlag ≠ 0) : w.KeepsTime t env ↔ w.Compensates t env := by
  obtain ⟨hsets, hkeeps⟩ := (pmRunTickless_tick hp hh rfl hs hen).1
  unfold KeepsTime Compensates
  by_cases h : w.SetsTick t
  · rw [hsets h]
    have hserved := served_eq t w
    unfold compensated
    generalize (t.view w.plat).tick = now
    generalize (w.woken env).plat = x
    generalize w.served t = k at hserved
    simp only [h, not_true_eq_false, false_or]
    cases hget : w.ops.bind (·.systickGet) with
    | none =>
      cases hlptim : w.ops.bind (·.lptimGetTick) with
      | none =>
        simp only [Option.isSome_none, Bool.false_eq_true, if_false, reduceCtorEq, false_and,
          exists_false, or_false]
        constructor <;> intro heq <;> bv_omega
      | some f =>
        simp only [Option.isSome_none, Bool.false_eq_true, if_false, Option.some.injEq,
          exists_eq_left']
        generalize (f x).1 = d
        constructor <;> rintro (heq | heq)
        · exact .inr (by bv_omega)
        · exact .inl (by bv_omega)
        · exact .inr (by bv_omega)
        · exact .inl (by bv_omega)
    | some f' =>
      cases hlptim : w.ops.bind (·.lptimGetTick) with
      | none =>
        simp only [Option.isSome_some, if_true, reduceCtorEq, false_and, exists_false, or_false]
        -- `PM_TICK_MAX` added is one taken away
        rcases hserved with rfl | rfl
        · exact iff_of_false (by bv_omega) (by decide)
        · exact iff_of_true (by bv_omega) rfl
      | some f =>
        simp only [Option.isSome_some, if_true, Option.some.injEq, exists_eq_left']
        generalize (f x).1 = d
        rcases hserved with rfl | rfl
        · exact iff_of_true (.inr (by bv_omega)) (.inl rfl)
        · constructor
          · rintro (heq | heq)
            · exact .inr (by bv_omega)
            · exact absurd heq (by bv_omega)
          · rintro (heq | heq)
            · exact absurd heq (by decide)
            · exact .inl (by bv_omega)
  · rw [hkeeps h]
    exact iff_of_true (.inl rfl) (.inl h)

/-- **Every run leaves the platform settled.** -/
theorem run_settled (hp : t.Meets o) (hh : t.Hooks env) (es : List (Op X))
    (hes : t.KeepsSettled o es) (h : w.ops = o ∧ t.Settled o w.plat) :
    (w.run env es).ops = o ∧ t.Settled o (w.run env es).plat := by
  induction es generalizing w with
  | nil => exact h
  | cons e es ih =>
    refine ih (fun f hf => hes f (List.mem_cons_of_mem e hf)) ?_
    cases e with
    | call f => exact call_settled hp f h
    | plat f => exact ⟨h.1, hes f List.mem_cons_self _ h.2⟩
    | pmRunTickless =>
      refine ⟨(run_ops env [.pmRunTickless] (w := w)).trans h.1, ?_⟩
      show t.Settled o (w.pmRunTickless env).plat
      by_cases hen : w.st.enableFlag = 0
      · rw [pmRunTickless, if_pos hen]
        exact h.2
      · exact (pmRunTickless_tick hp hh h.1 h.2 hen).2

/-- **Absent callbacks and the clock.** With any part of a table or none at all, after any run, an
enabled pass leaves the tick as it was or adds what a present `lptim_get_tick` reports exactly when
it sets no tick, or no callback that the compensation rests on is missing and no SysTick is served
on top. -/
theorem pmRunTickless_tick_iff (t : TickPort X) (o : Option (LpmsOps X)) (env : Env c X) (f0 : U8)
    (x : X) (es : List (Op X)) (hp : t.Meets o) (hh : t.Hooks env) (hx : t.Settled o x)
    (hes : t.KeepsSettled o es) :
    let w := ((boot c x).lpmsInit o f0).run env es
    w.st.enableFlag ≠ 0 → (w.KeepsTime t env ↔ w.Compensates t env) := by
  intro w hen
  obtain ⟨ho, hs⟩ := run_settled hp hh es hes (⟨rfl, hx⟩ :
    ((boot c x).lpmsInit o f0).ops = o ∧ t.Settled o ((boot c x).lpmsInit o f0).plat)
  exact keepsTime_iff (ho.symm ▸ hp) hh (ho.symm ▸ hs) hen

/-! ## The driver -/

/-- The machine at a tick with a table enabled, and after a pass. -/
def enabledWith (ops : LpmsOps Hw) (now : U32) : World Config.shipped Hw :=
  ((boot .shipped (Hw.boot now [])).lpmsInit (some ops) pmFreqHigh).run .silent [.call .lpmsEnable]

theorem enabledWith_ops (ops : LpmsOps Hw) (now : U32) : (enabledWith ops now).ops = some ops := rfl

theorem enabledWith_plat (ops : LpmsOps Hw) (now : U32) :
    (enabledWith ops now).plat = Hw.boot now [] := rfl

/-- Without `irq_enable` a deep pass at tick 100 that sleeps for 1000 ticks is compensated; with the
whole table it is not. -/
theorem pmRunTickless_tick_1100 :
    let b : Board := ⟨fun _ => 1024, fun _ timers => timers⟩
    (enabledWith { pmOps b with irqEnable := none } 100).KeepsTime hwTick .silent ∧
      ¬(enabledWith (pmOps b) 100).KeepsTime hwTick .silent := by
  intro b
  have hiff : ∀ ops : LpmsOps Hw, ops.Part (pmOps b) →
      (enabledWith ops 100).st.enableFlag ≠ 0 →
      ((enabledWith ops 100).KeepsTime hwTick .silent ↔
        (enabledWith ops 100).Compensates hwTick .silent) := fun ops hpart =>
    pmRunTickless_tick_iff hwTick (some ops) .silent pmFreqHigh (Hw.boot 100 []) [.call .lpmsEnable]
      (pmOps_meets (pmOpsDue_none b ▸ hpart)) (fun _ _ _ _ _ hf => absurd hf List.not_mem_nil)
      ⟨fun hp => Bool.noConfusion hp, fun _ _ => rfl⟩
      (fun f hf => by simp at hf)
  constructor
  · have hpart : ({ pmOps b with irqEnable := none } : LpmsOps Hw).Part (pmOps b) :=
      { LpmsOps.Part.refl (pmOps b) with irqEnable := by rintro _ ⟨⟩ }
    exact (hiff _ hpart (by decide +kernel)).2 (.inr (.inl (by decide +kernel)))
  · intro hkeeps
    have hsets : (enabledWith (pmOps b) 100).SetsTick hwTick :=
      ⟨by decide +kernel, ⟨by decide +kernel, by decide +kernel⟩,
        by unfold StopsAt; decide +kernel, by decide +kernel⟩
    rcases (hiff _ (LpmsOps.Part.refl _) (by decide +kernel)).1 hkeeps with hnot | hserved | hslept
    · exact hnot hsets
    · exact absurd hserved (by decide +kernel)
    · exact absurd hslept (by decide +kernel)

/-- A pass at tick 100 ends at a tick that is neither 100 nor what the sleep makes of it. -/
def Moves (ops : LpmsOps Hw) (now : U32) : Prop :=
  ((enabledWith ops 100).pmRunTickless .silent).plat.rtTick = now ∧
    ¬(enabledWith ops 100).KeepsTime hwTick .silent

theorem moves_of {ops : LpmsOps Hw} {now : U32}
    (htick : ((enabledWith ops 100).pmRunTickless .silent).plat.rtTick = now) (hne : now ≠ 100)
    (hslept : ∀ f, ops.lptimGetTick = some f →
      100 + (f ((enabledWith ops 100).woken .silent).plat).1 ≠ now) : Moves ops now := by
  have hview : ∀ hw, (hwTick.view hw).tick = hw.rtTick := fun _ => rfl
  refine ⟨htick, ?_⟩
  unfold KeepsTime
  rw [hview, hview, htick, enabledWith_plat, enabledWith_ops]
  rintro (hsame | ⟨f, hf, hadd⟩)
  · exact hne hsame
  · exact hslept f hf hadd.symm

/-- Over the driver, at tick 100 and with no tick slept: with the whole table the tick ends at 101,
without `systick_get` at 1, and without `lptim_get_tick` and `irq_enable` at 99. -/
theorem pmRunTickless_tick_back :
    Moves (pmOps .still) 101 ∧ Moves { pmOps .still with systickGet := none } 1 ∧
      Moves { pmOps .still with lptimGetTick := none, irqEnable := none } 99 := by
  refine ⟨moves_of (by decide +kernel) (by decide) fun f hf => ?_,
    moves_of (by decide +kernel) (by decide) fun f hf => ?_,
    moves_of (by decide +kernel) (by decide) (by rintro f ⟨⟩)⟩
  · obtain rfl := Option.some.inj hf
    decide +kernel
  · obtain rfl := Option.some.inj hf
    decide +kernel

end World

end LowPower
