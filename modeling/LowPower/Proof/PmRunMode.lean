import LowPower.Proof.PmFrame

/-!
# Run modes of PM 2.0

`hwMode` is the last mode given to `ops->run`. A request for a faster mode runs at once, one for a
slower mode waits for the idle thread with `RT_PM_FREQUENCY_PENDING` set.

* `Settled`: outside a locked section the hardware is never slower than `run_mode`, and at
  `run_mode` when nothing is pending.
* `Quiet`: code that leaves the run mode, the flag and the hardware alone; `settled_inv` says that
  all but the two switches is such code.
* `runMode_safe`: in every run, with interrupts anywhere, all this holds at every recorded point
  but the device callbacks of a switch, and each switch is announced to every device before the
  interrupts are enabled again.
-/

namespace LowPower.Pm

def Ev.isFrequencyChange : Ev → Bool
  | .frequencyChange _ _ => true
  | _ => false

/-- The last mode given to `ops->run`. -/
def hwMode (es : List Ev) : U8 := (es.filterMap Ev.runOf).getLast?.getD rtPmDefaultRunMode

/-- `RT_PM_FREQUENCY_PENDING` is set. -/
def RtPm.Pending {X : Type} (pm : RtPm X) : Prop := pm.flags &&& rtPmFrequencyPending ≠ 0

theorem pending_set (flags : U8) : (flags ||| rtPmFrequencyPending) &&& rtPmFrequencyPending ≠ 0 := by
  intro h
  have hbit := congrArg (·.getLsbD 0) h
  simp at hbit

theorem pending_clear (flags : U8) :
    (flags &&& ~~~rtPmFrequencyPending) &&& rtPmFrequencyPending = 0 := by
  have hmask : ~~~rtPmFrequencyPending &&& rtPmFrequencyPending = 0 := by decide
  rw [BitVec.and_assoc, hmask]
  exact BitVec.and_zero

theorem hwMode_snoc_run (es : List Ev) (mode : U8) : hwMode (es ++ [.run mode]) = mode := by
  simp [hwMode, Ev.runOf]

theorem hwMode_append {es es' : List Ev} (h : ∀ e ∈ es', e.runOf = none) :
    hwMode (es ++ es') = hwMode es := by
  unfold hwMode
  rw [List.filterMap_append, List.filterMap_eq_nil_iff.2 h, List.append_nil]

section Trace

variable {X : Type} {tr tr' : List (Ev × RtPm X)} {p : Ev × RtPm X}

/-- What holds at one recorded point, after the events `es`. The devices hear of a faster mode
before it is stored in `run_mode`. -/
structure PointOk (es : List Ev) (p : Ev × RtPm X) : Prop where
  le : hwMode (es ++ [p.1]) ≤ p.2.runMode
  eq : p.1.isFrequencyChange = false → ¬p.2.Pending → hwMode es = p.2.runMode

def TraceOk (tr : List (Ev × RtPm X)) : Prop :=
  ∀ a p b, tr = a ++ p :: b → PointOk (a.map Prod.fst) p

theorem TraceOk.append (h : TraceOk tr)
    (h' : ∀ a p b, tr' = a ++ p :: b → PointOk (tr.map Prod.fst ++ a.map Prod.fst) p) :
    TraceOk (tr ++ tr') := by
  intro a q b heq
  rcases List.append_eq_append_iff.1 heq with ⟨c, rfl, hc⟩ | ⟨c, rfl, hc⟩
  · rw [List.map_append]
    exact h' c q b hc
  · cases c with
    | nil =>
      rw [List.append_nil, List.nil_append] at *
      have hq := h' [] q b hc.symm
      rw [List.map_nil, List.append_nil] at hq
      exact hq
    | cons r c =>
      obtain ⟨rfl, -⟩ := List.cons.inj hc
      exact h a q c rfl

theorem TraceOk.snoc (h : TraceOk tr) (hp : PointOk (tr.map Prod.fst) p) : TraceOk (tr ++ [p]) := by
  refine h.append fun a q b heq => ?_
  have ha : a = [] := by
    cases a with
    | nil => rfl
    | cons r a => simp at heq
  subst ha
  obtain ⟨rfl, -⟩ := List.cons.inj heq
  simpa using hp

/-- Points without a switch are judged by the mode the hardware is in already. -/
theorem TraceOk.append_of_no_run (h : TraceOk tr) (hrun : ∀ q ∈ tr', q.1.runOf = none)
    (hpoint : ∀ q ∈ tr', hwMode (tr.map Prod.fst) ≤ q.2.runMode ∧
      (q.1.isFrequencyChange = false → ¬q.2.Pending → hwMode (tr.map Prod.fst) = q.2.runMode)) :
    TraceOk (tr ++ tr') := by
  refine h.append fun a q b heq => ?_
  have hmem : q ∈ tr' := by rw [heq]; simp
  have ha : ∀ e ∈ a.map Prod.fst, e.runOf = none := by
    refine List.forall_mem_map.2 fun r hr => hrun r ?_
    rw [heq]
    exact List.mem_append_left _ hr
  obtain ⟨hle, hstep⟩ := hpoint q hmem
  constructor
  · rw [hwMode_append (by simpa using hrun q hmem), hwMode_append ha]
    exact hle
  · rw [hwMode_append ha]
    exact hstep

/-- Every switch of the hardware is announced to every device with the callback before the
interrupts are enabled again. -/
def Followed (tr : List (Ev × RtPm X)) : Prop :=
  ∀ a mode pm b, tr = a ++ (.run mode, pm) :: b →
    ∃ c d, b.map Prod.fst = c ++ .irqEnable :: d ∧ .irqEnable ∉ c ∧
      ∀ (i : ℕ) dev, pm.devices[i]? = some dev → dev.frequencyChange.isSome = true →
        .frequencyChange i mode ∈ c

theorem Followed.append (h : Followed tr) (h' : Followed tr') : Followed (tr ++ tr') := by
  intro a mode pm b heq
  rcases List.append_eq_append_iff.1 heq with ⟨c, rfl, hc⟩ | ⟨c, rfl, hc⟩
  · exact h' c mode pm b hc
  · cases c with
    | nil =>
      rw [List.nil_append] at hc
      exact h' [] mode pm b hc.symm
    | cons r c =>
      obtain ⟨rfl, hrest⟩ := List.cons.inj hc
      have hbc : b = c ++ tr' := hrest
      obtain ⟨e, d, hb, hno, hall⟩ := h a mode pm c rfl
      refine ⟨e, d ++ tr'.map Prod.fst, ?_, hno, hall⟩
      rw [hbc, List.map_append, hb, List.append_assoc, List.cons_append]

theorem followed_of_no_run (h : ∀ q ∈ tr, q.1.runOf = none) : Followed tr := by
  intro a mode pm b heq
  have hmem : (Ev.run mode, pm) ∈ tr := by
    rw [heq]
    simp
  exact absurd (h _ hmem) (by simp [Ev.runOf])

/-- A section that switches once and announces it. -/
theorem followed_section {mode : U8} {pm pm' : RtPm X}
    (hfreq : ∀ q ∈ tr, q.1.isFrequencyChange = true)
    (hall : ∀ (i : ℕ) dev, pm.devices[i]? = some dev → dev.frequencyChange.isSome = true →
      Ev.frequencyChange i mode ∈ tr.map Prod.fst) :
    Followed ((.run mode, pm) :: (tr ++ [(.irqEnable, pm')])) := by
  intro a m q b heq
  cases a with
  | nil =>
    rw [List.nil_append] at heq
    obtain ⟨hhead, hb⟩ := List.cons.inj heq
    obtain ⟨hm, rfl⟩ := Prod.mk.inj hhead
    obtain rfl := Ev.run.inj hm
    refine ⟨tr.map Prod.fst, [], by simp [← hb], ?_, hall⟩
    intro hmem
    obtain ⟨q, hq, he⟩ := List.mem_map.1 hmem
    have hchange := hfreq q hq
    rw [he] at hchange
    exact absurd hchange Bool.false_ne_true
  | cons r a =>
    -- no other event of the section is a switch
    obtain ⟨-, hrest⟩ := List.cons.inj heq
    have hmem : (Ev.run m, q) ∈ tr ++ [(Ev.irqEnable, pm')] := by
      rw [hrest]
      simp
    rcases List.mem_append.1 hmem with hmem | hmem
    · exact absurd (hfreq _ hmem) Bool.false_ne_true
    · exact absurd (List.mem_singleton.1 hmem) (by simp)

end Trace

namespace World

variable {X : Type} {w w' w'' : World X}

/-! ## Code that does not switch -/

/-- No switch, and the run mode and the flag stay. -/
def Quiet (w w' : World X) : Prop :=
  ∃ tr, w'.trace = w.trace ++ tr ∧
    (∀ p ∈ tr, p.1.runOf = none ∧ p.2.runMode = w.pm.runMode ∧ p.2.flags = w.pm.flags) ∧
    w'.pm.runMode = w.pm.runMode ∧ w'.pm.flags = w.pm.flags

namespace Quiet

theorem refl (w : World X) : Quiet w w := ⟨[], (List.append_nil _).symm, by simp, rfl, rfl⟩

theorem trans (h : Quiet w w') (h' : Quiet w' w'') : Quiet w w'' := by
  obtain ⟨tr, ht, hp, hr, hf⟩ := h
  obtain ⟨tr', ht', hp', hr', hf'⟩ := h'
  refine ⟨tr ++ tr', by rw [ht', ht, List.append_assoc], ?_, hr'.trans hr, hf'.trans hf⟩
  intro p hmem
  rcases List.mem_append.1 hmem with hmem | hmem
  · exact hp p hmem
  · obtain ⟨h1, h2, h3⟩ := hp' p hmem
    exact ⟨h1, h2.trans hr, h3.trans hf⟩

/-- One more event; what the component does not read may change. -/
theorem event {e : Ev} (he : e.runOf = none) (ht : w'.trace = w.trace ++ [(e, w.pm)])
    (hpm : w'.pm = w.pm) : Quiet w w' :=
  ⟨[(e, w.pm)], ht, by simpa using he, by rw [hpm], by rw [hpm]⟩

theorem emit (w : World X) {e : Ev} (he : e.runOf = none) : Quiet w (w.emit e) :=
  event he rfl rfl

theorem mapPm (w : World X) {f : RtPm X → RtPm X} (hr : (f w.pm).runMode = w.pm.runMode)
    (hf : (f w.pm).flags = w.pm.flags) : Quiet w (w.mapPm f) :=
  ⟨[], (List.append_nil _).symm, by simp, hr, hf⟩

theorem locked {body : World X → World X}
    (hb : Quiet (w.emit .irqDisable) (body (w.emit .irqDisable))) : Quiet w (w.locked body) :=
  ((emit w rfl).trans hb).trans (emit _ rfl)

end Quiet

/-! ## The invariant between steps -/

structure Settled (w : World X) : Prop where
  trace : TraceOk w.trace
  followed : Followed w.trace
  le : hwMode w.events ≤ w.pm.runMode
  eq : ¬w.pm.Pending → hwMode w.events = w.pm.runMode

theorem Settled.quiet (h : Settled w) (hq : Quiet w w') : Settled w' := by
  obtain ⟨tr, ht, hp, hr, hf⟩ := hq
  have hnorun : ∀ e ∈ tr.map Prod.fst, e.runOf = none := by
    intro e he
    obtain ⟨p, hmem, rfl⟩ := List.mem_map.1 he
    exact (hp p hmem).1
  have hev : w'.events = w.events ++ tr.map Prod.fst := by
    unfold World.events
    rw [ht, List.map_append]
  have hhw : hwMode w'.events = hwMode w.events := by rw [hev, hwMode_append hnorun]
  -- the flag is what it was at every new point
  have hpend : ∀ pm : RtPm X, pm.flags = w.pm.flags → (pm.Pending ↔ w.pm.Pending) := by
    intro pm h
    unfold RtPm.Pending
    rw [h]
  refine ⟨?_, ?_, ?_, ?_⟩
  · rw [ht]
    refine h.trace.append_of_no_run (fun p hmem => (hp p hmem).1) fun p hmem => ?_
    obtain ⟨-, hmode, hflags⟩ := hp p hmem
    rw [hmode]
    exact ⟨h.le, fun _ hno => h.eq fun hp' => hno ((hpend p.2 hflags).2 hp')⟩
  · rw [ht]
    exact h.followed.append (followed_of_no_run fun q hq => (hp q hq).1)
  · rw [hhw, hr]
    exact h.le
  · intro hno
    rw [hhw, hr]
    exact h.eq fun hp' => hno ((hpend w'.pm hf).2 hp')

/-! ## The two switches -/

/-- `ops->run(mode)` and its announcement, inside a locked section. -/
def switch (mode : U8) (w : World X) : World X :=
  ((w.emit .irqDisable).opsRun mode).pmDeviceFrequencyChange mode

theorem forDevices_trace (sel : RtDevicePm X → Option (U8 → X → X)) (e : ℕ → U8 → Ev) (mode : U8)
    (index : ℕ) (ds : List (RtDevicePm X)) (w : World X) :
    ∃ tr, (forDevices sel e mode index ds w).trace = w.trace ++ tr ∧ (∀ p ∈ tr, p.2 = w.pm) ∧
      tr.map Prod.fst = (places (fun d => (sel d).isSome) index ds).map (e · mode) := by
  induction ds generalizing index w with
  | nil => exact ⟨[], (List.append_nil _).symm, by simp, rfl⟩
  | cons d ds ih =>
    unfold forDevices places
    cases h : sel d with
    | none => exact ih _ _
    | some f =>
      obtain ⟨tr, ht, hp, hm⟩ := ih (index + 1) (w.callback (e index mode) (f mode))
      refine ⟨(e index mode, w.pm) :: tr, ?_, ?_, ?_⟩
      · rw [ht]
        simp [World.callback, World.emit]
      · intro p hmem
        rcases List.mem_cons.1 hmem with rfl | hmem
        · rfl
        · exact hp p hmem
      · rw [List.map_cons, hm]
        rfl

theorem switch_trace (mode : U8) (w : World X) :
    ∃ tr, (w.switch mode).trace = w.trace ++ ((.irqDisable, w.pm) :: (.run mode, w.pm) :: tr) ∧
      (w.switch mode).pm = w.pm ∧ (∀ p ∈ tr, p.2 = w.pm) ∧
      tr.map Prod.fst = (places (fun d => d.frequencyChange.isSome) 0 w.pm.devices).map
        (.frequencyChange · mode) := by
  obtain ⟨tr, ht, hp, hm⟩ := forDevices_trace (·.frequencyChange) .frequencyChange mode 0
    w.pm.devices ((w.emit .irqDisable).opsRun mode)
  refine ⟨tr, ?_, forDevices_pm _ _ _ _ _ _, hp, hm⟩
  refine ht.trans ?_
  simp [opsRun, World.callback, World.emit]

/-- **A switch to a mode that is not slower than the requested one**, up to the point where the
interrupts are enabled; `f` is what the section does to the static data after the switch. -/
theorem Settled.switched (h : Settled w) {mode : U8} (hle : mode ≤ w.pm.runMode)
    (f : RtPm X → RtPm X) (hf : (f w.pm).runMode = mode) :
    Settled (((w.switch mode).mapPm f).emit .irqEnable) := by
  obtain ⟨tr, ht, hpm, hp, hm⟩ := switch_trace mode w
  have hchange : ∀ p ∈ tr, p.1.isFrequencyChange = true ∧ p.1.runOf = none := by
    intro p hmem
    have he : p.1 ∈ tr.map Prod.fst := List.mem_map_of_mem hmem
    rw [hm] at he
    obtain ⟨i, -, hi⟩ := List.mem_map.1 he
    rw [← hi]
    exact ⟨rfl, rfl⟩
  have hrun : ∀ p ∈ tr ++ [(Ev.irqEnable, f w.pm)], p.1.runOf = none := by
    intro p hmem
    rcases List.mem_append.1 hmem with hmem | hmem
    · exact (hchange p hmem).2
    · rw [List.mem_singleton.1 hmem]
      rfl
  have htrace : (((w.switch mode).mapPm f).emit .irqEnable).trace =
      w.trace ++ [(Ev.irqDisable, w.pm)] ++ [(Ev.run mode, w.pm)] ++
        (tr ++ [(Ev.irqEnable, f w.pm)]) := by
    show (w.switch mode).trace ++ [(Ev.irqEnable, f (w.switch mode).pm)] = _
    rw [ht, hpm]
    simp
  have hlocked := h.quiet (Quiet.emit w (e := .irqDisable) rfl)
  have hswitched : TraceOk (w.trace ++ [(Ev.irqDisable, w.pm)] ++ [(Ev.run mode, w.pm)]) := by
    refine hlocked.trace.snoc ⟨?_, fun _ hno => hlocked.eq hno⟩
    rw [hwMode_snoc_run]
    exact hle
  -- after the switch the hardware is in `mode`
  have hhw : hwMode ((w.trace ++ [(Ev.irqDisable, w.pm)] ++ [(Ev.run mode, w.pm)]).map Prod.fst) =
      mode := by
    rw [List.map_append]
    exact hwMode_snoc_run _ mode
  have hend : hwMode (((w.switch mode).mapPm f).emit .irqEnable).events = mode := by
    unfold World.events
    rw [htrace, List.map_append, hwMode_append (List.forall_mem_map.2 hrun), hhw]
  have hpm' : (((w.switch mode).mapPm f).emit .irqEnable).pm.runMode = mode := by
    show (f (w.switch mode).pm).runMode = mode
    rw [hpm, hf]
  refine ⟨?_, ?_, ?_, fun _ => hend.trans hpm'.symm⟩
  · rw [htrace]
    refine hswitched.append_of_no_run hrun fun p hmem => ?_
    rw [hhw]
    rcases List.mem_append.1 hmem with hmem | hmem
    · rw [hp p hmem]
      exact ⟨hle, fun hno => absurd (hno.symm.trans (hchange p hmem).1) Bool.false_ne_true⟩
    · -- the interrupts go on with `run_mode` and the hardware in step
      rw [List.mem_singleton.1 hmem]
      exact ⟨BitVec.le_of_eq hf.symm, fun _ _ => hf.symm⟩
  · -- the only switch of the section is followed by its announcements
    have hsection : Followed ((Ev.run mode, w.pm) :: (tr ++ [(Ev.irqEnable, f w.pm)])) := by
      refine followed_section (fun p hmem => (hchange p hmem).1) fun i dev hd hfc => ?_
      rw [hm]
      exact List.mem_map.2 ⟨i, mem_places_zero.2 ⟨dev, hd, hfc⟩, rfl⟩
    have hdisable : Followed [(Ev.irqDisable, w.pm)] := followed_of_no_run (by simp [Ev.runOf])
    have hall := h.followed.append (hdisable.append hsection)
    rw [htrace]
    simpa using hall
  · rw [hend, hpm']
    exact BitVec.le_refl mode

/-! ## Calls and passes -/

theorem Settled.postponed (h : Settled w) (f : RtPm X → RtPm X)
    (hle : w.pm.runMode ≤ (f w.pm).runMode) (hp : (f w.pm).Pending) : Settled (w.mapPm f) :=
  ⟨h.trace, h.followed, BitVec.le_trans h.le hle, fun hno => absurd hp hno⟩

theorem Settled.rtPmRunEnter (h : Settled w) (mode : U8) : Settled (w.rtPmRunEnter mode).2 := by
  have hlocked := h.quiet (Quiet.emit w (e := .irqDisable) rfl)
  unfold World.rtPmRunEnter locked
  split_ifs
  · exact h
  · exact h
  · dsimp only
    split_ifs with hfast
    · exact h.switched (BitVec.le_of_lt hfast) _ rfl
    · have hpost := hlocked.postponed
        (fun pm => { pm with flags := pm.flags ||| rtPmFrequencyPending, runMode := mode })
        (BitVec.not_lt.1 hfast) (pending_set _)
      exact hpost.quiet (Quiet.emit _ rfl)

theorem scale_eq (w : World X) :
    w.scale = ((w.switch w.pm.runMode).mapPm fun pm =>
      { pm with flags := pm.flags &&& ~~~rtPmFrequencyPending }).emit .irqEnable := rfl

theorem Settled.scale (h : Settled w) : Settled w.scale := by
  rw [scale_eq]
  exact h.switched (BitVec.le_refl _) _ rfl

theorem scale_not_pending (w : World X) : ¬w.scale.pm.Pending := by
  rw [scale_eq]
  exact fun h => h (pending_clear _)

theorem call_quiet (f : Call) (hf : ∀ mode, f ≠ .rtPmRunEnter mode) (w : World X) :
    Quiet w (w.call f) := by
  obtain hcall | ⟨g, hg, hcall⟩ | ⟨mode, rfl⟩ := call_cases f w
  · rw [hcall]
    exact Quiet.refl w
  · rw [hcall]
    refine Quiet.locked (Quiet.mapPm _ ?_ ?_)
    · rw [hg]
    · rw [hg]
  · exact absurd rfl (hf mode)

theorem Settled.call (h : Settled w) (f : Call) : Settled (w.call f) := by
  by_cases hf : ∃ mode, f = .rtPmRunEnter mode
  · obtain ⟨mode, rfl⟩ := hf
    exact h.rtPmRunEnter mode
  · exact h.quiet (call_quiet f (fun mode he => hf ⟨mode, he⟩) w)

theorem pmFrequencyScaling_not_pending (irq : List Call) (w : World X) :
    ¬(w.pmFrequencyScaling irq).pm.Pending := by
  rw [pmFrequencyScaling_eq]
  split_ifs with hp
  · exact scale_not_pending _
  · exact hp

/-- Between the switches the invariant lasts. -/
theorem settled_inv : PassInv (fun _ => True) (Settled (X := X)) where
  event he ht hpm h := h.quiet (Quiet.event he ht hpm)
  modules _ h := h.quiet (Quiet.mapPm _ rfl rfl)
  lower h := h.quiet (Quiet.mapPm _ rfl rfl)
  call _ h := h.call _
  scale h := h.scale

/-! ## Runs -/

theorem Settled.step (h : Settled w) (e : Op X) : Settled (w.step e) := by
  have hstays : ∀ {w' : World X}, w'.trace = w.trace → w'.pm.runMode = w.pm.runMode →
      w'.pm.flags = w.pm.flags → Settled w' := fun ht hr hf =>
    h.quiet ⟨[], by rw [ht, List.append_nil], by simp, hr, hf⟩
  unfold World.step
  split_ifs
  · exact h
  · cases e with
    | call f => exact h.call f
    | rtSystemPowerManager irq =>
      exact settled_inv.rtSystemPowerManager ⟨by simp, by simp, by simp⟩ h
    | devices ds number => exact hstays rfl rfl rfl
    | notify f => exact hstays rfl rfl rfl
    | clock rtTick timers => exact hstays rfl rfl rfl
    | plat f => exact hstays rfl rfl rfl

theorem Settled.run (h : Settled w) (es : List (Op X)) : Settled (w.run es) := by
  induction es generalizing w with
  | nil => exact h
  | cons e es ih => exact ih (h.step e)

theorem start_settled (ops : RtPmOps X) (timerMask : U8) (rtTick : U32) (x : X) :
    Settled (start ops timerMask rtTick x) := by
  have hmode : (start ops timerMask rtTick x).pm.runMode = rtPmDefaultRunMode := by
    rw [start_pm]
  have hnil : TraceOk ([] : List (Ev × RtPm X)) := fun a p b heq => absurd heq.symm (by simp)
  refine ⟨hnil, followed_of_no_run fun q hq => absurd hq (List.not_mem_nil), ?_, ?_⟩
  · rw [hmode]
    exact BitVec.le_refl _
  · exact fun _ => hmode.symm

/-- **Run modes are safe and never lost.** In every run, with interface calls anywhere and from
interrupt handlers at every point of a pass, the hardware is never slower than `run_mode`; with
nothing pending it is at `run_mode`, but for the device callbacks of a switch; every switch is
announced to every device that has the callback before the interrupts are enabled again. A
completed `_pm_frequency_scaling` leaves nothing pending. -/
theorem runMode_safe (ops : RtPmOps X) (timerMask : U8) (rtTick : U32) (x : X) (es : List (Op X)) :
    let w := (start ops timerMask rtTick x).run es
    TraceOk w.trace ∧ Followed w.trace ∧ hwMode w.events ≤ w.pm.runMode ∧
      (¬w.pm.Pending → hwMode w.events = w.pm.runMode) ∧
      ∀ irq : List Call, ¬(w.pmFrequencyScaling irq).pm.Pending ∧
        hwMode (w.pmFrequencyScaling irq).events = (w.pmFrequencyScaling irq).pm.runMode := by
  intro w
  have h : Settled w := (start_settled ops timerMask rtTick x).run es
  refine ⟨h.trace, h.followed, h.le, h.eq, fun irq => ?_⟩
  have hclear := pmFrequencyScaling_not_pending irq w
  have hscaled := settled_inv.pmFrequencyScaling (fun f (_ : f ∈ irq) => trivial) h
  exact ⟨hclear, hscaled.eq hclear⟩

/-! ## The window inside a switch -/

def speedUpOps : RtPmOps Unit where
  sleep := fun _ x => x
  run := fun _ x => x
  timerStart := none
  timerStop := id
  timerGetTick := fun x => (0, x)

/-- A request for the fastest mode, with one device that listens. -/
def speedUpRun : World Unit :=
  (start speedUpOps 0 0 ()).run
    [.devices [⟨0, none, none, some fun _ x => x⟩] 1, .call (.rtPmRunEnter 0)]

/-- The device is called with nothing pending and the hardware in mode 0, while `run_mode` still
reads 1. -/
theorem speedUp_before_store :
    ∃ a p b, speedUpRun.trace = a ++ p :: b ∧ p.1 = .frequencyChange 0 0 ∧ ¬p.2.Pending ∧
      hwMode (a.map Prod.fst) ≠ p.2.runMode := by
  refine ⟨speedUpRun.trace.take 2, (.frequencyChange 0 0, _), speedUpRun.trace.drop 3, rfl, rfl,
    ?_, ?_⟩
  · exact fun h => h (by decide +kernel)
  · decide +kernel

end World
end LowPower.Pm
