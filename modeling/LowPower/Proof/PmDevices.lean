import LowPower.Proof.PmTimer

/-!
# Devices and notifications around a PM 2.0 sleep

A pass suspends the devices in order up to the first refusal, and resumes every device whatever
happened. `Balanced` is what a driver may count on: it is resumed if and only if it was put to
sleep, once, after every suspend and for the same mode, and the application hears of the end of
what it heard the beginning of. `balanced_iff` says when a pass is balanced: when no device at or
after a refusing one has a resume callback, and when no near deadline lowers the mode between the
suspends and the resumes.
-/

namespace LowPower.Pm

/-- The events of devices and of the notification callback. -/
def Ev.ofDevice : Ev → Bool
  | .suspend _ _ _ | .resume _ _ | .notify _ _ => true
  | .irqDisable | .irqEnable | .run _ | .frequencyChange _ _ | .sleep _ => false
  | .timerStart _ | .timerStop | .timerGetTick _ => false
  | .rtTickSet _ | .rtTimerCheck | .undefRead | .nullCall => false

def Ev.resumeOf (i : ℕ) : Ev → Option U8
  | .resume j mode => if j = i then some mode else none
  | _ => none

def Ev.note : Ev → Option (NotifyEvent × U8)
  | .notify event mode => some (event, mode)
  | _ => none

/-- The modes for which a device is resumed. -/
def resumes (i : ℕ) (es : List Ev) : List U8 := es.filterMap (Ev.resumeOf i)

/-- The notifications made. -/
def notes (es : List Ev) : List (NotifyEvent × U8) := es.filterMap Ev.note

namespace World

variable {X : Type} {w w' u : World X} {irq : Irq}

/-- The suspend loop got past this device, and the device did not refuse. -/
def PutToSleep (w : World X) (es : List Ev) (i : ℕ) : Prop :=
  ¬w.Awake ∧ ∀ j d, j ≤ i → w.pm.devices[j]? = some d → d.suspend.isSome = true →
    .suspend j w.pm.sleepMode rtEok ∈ es

/-- The events `es` of a pass are balanced. -/
structure Balanced (w : World X) (es : List Ev) : Prop where
  asleep : ∀ i d, w.pm.devices[i]? = some d → d.resume.isSome = true → w.PutToSleep es i →
    resumes i es = [w.pm.sleepMode]
  awake : ∀ i d, w.pm.devices[i]? = some d → d.resume.isSome = true → ¬w.PutToSleep es i →
    resumes i es = []
  order : ∀ i m j m' r, ¬[.resume i m, .suspend j m' r].Sublist es
  notes : notes es = [] ∨ ∃ m, notes es = [(.rtPmEnterSleep, m), (.rtPmExitSleep, m)]

/-! ## Device events only -/

theorem filterMap_ofDevice {β : Type} {f : Ev → Option β} (hf : ∀ e, e.ofDevice = false → f e = none)
    (es : List Ev) : (es.filter Ev.ofDevice).filterMap f = es.filterMap f := by
  rw [List.filterMap_filter]
  congr 1
  funext e
  split_ifs with h
  · rfl
  · rw [hf e (by simpa using h)]

theorem resumes_ofDevice (i : ℕ) (es : List Ev) : resumes i (es.filter Ev.ofDevice) = resumes i es :=
  filterMap_ofDevice (fun e he => by cases e <;> first | rfl | exact Bool.noConfusion he) es

theorem notes_ofDevice (es : List Ev) : Pm.notes (es.filter Ev.ofDevice) = Pm.notes es :=
  filterMap_ofDevice (fun e he => by cases e <;> first | rfl | exact Bool.noConfusion he) es

theorem putToSleep_ofDevice (es : List Ev) (i : ℕ) :
    w.PutToSleep (es.filter Ev.ofDevice) i ↔ w.PutToSleep es i := by
  have hmem : ∀ j, .suspend j w.pm.sleepMode rtEok ∈ es.filter Ev.ofDevice ↔
      .suspend j w.pm.sleepMode rtEok ∈ es := by
    intro j
    rw [List.mem_filter]
    exact and_iff_left rfl
  unfold PutToSleep
  simp only [hmem]

theorem balanced_ofDevice (es : List Ev) : w.Balanced (es.filter Ev.ofDevice) ↔ w.Balanced es := by
  have horder : ∀ i m j m' r, [.resume i m, .suspend j m' r].Sublist (es.filter Ev.ofDevice) ↔
      [.resume i m, .suspend j m' r].Sublist es := by
    intro i m j m' r
    constructor
    · exact fun h => h.trans List.filter_sublist
    · exact fun h => h.filter Ev.ofDevice
  constructor
  · rintro ⟨h1, h2, h3, h4⟩
    simp only [resumes_ofDevice, notes_ofDevice, putToSleep_ofDevice, horder] at h1 h2 h3 h4
    exact ⟨h1, h2, h3, h4⟩
  · rintro ⟨h1, h2, h3, h4⟩
    refine ⟨?_, ?_, ?_, ?_⟩ <;>
      simp only [resumes_ofDevice, notes_ofDevice, putToSleep_ofDevice, horder]
    · exact h1
    · exact h2
    · exact h3
    · exact h4

/-! ## Places in the device table -/

theorem places_nodup (has : RtDevicePm X → Bool) (index : ℕ) (ds : List (RtDevicePm X)) :
    (places has index ds).Nodup := by
  induction ds generalizing index with
  | nil => exact List.nodup_nil
  | cons d ds ih =>
    unfold places
    split_ifs
    · refine List.nodup_cons.2 ⟨?_, ih _⟩
      intro hmem
      have hle := (mem_places.1 hmem).1
      omega
    · exact ih _

/-- A device in a duplicate-free list of places is resumed once, any other never. -/
theorem resumes_map {l : List ℕ} (hl : l.Nodup) (i : ℕ) (mode : U8) :
    resumes i (l.map (.resume · mode)) = if i ∈ l then [mode] else [] := by
  induction l with
  | nil => rfl
  | cons j l ih =>
    obtain ⟨hj, hl'⟩ := List.nodup_cons.1 hl
    have hcons : resumes i ((j :: l).map (.resume · mode)) =
        (if j = i then [mode] else []) ++ resumes i (l.map (.resume · mode)) := by
      unfold resumes
      rw [List.map_cons, List.filterMap_cons, Ev.resumeOf]
      split_ifs <;> rfl
    rw [hcons, ih hl']
    by_cases hji : j = i
    · subst hji
      simp [hj]
    · simp [hji, Ne.symm hji]

/-! ## The device events of a pass -/

/-- What a pass does to the devices and to the application. -/
def passDevice (irq : Irq) (w : World X) : List Ev :=
  (w.since (w.pmChangeSleepMode irq)).filter Ev.ofDevice

theorem ofCall_device (e : Ev) (he : e.ofCall = true) : e.ofDevice = false := by
  cases e <;> simp [Ev.ofCall, Ev.ofDevice] at he ⊢

@[simp] theorem notifyEvs_device (e : NotifyEvent) (m : U8) :
    (w.notifyEvs e m).filter Ev.ofDevice = w.notifyEvs e m := by
  unfold notifyEvs
  split_ifs <;> rfl

@[simp] theorem enterEvs_device :
    w.enterEvs.filter Ev.ofDevice = w.notifyEvs .rtPmEnterSleep w.pm.sleepMode :=
  notifyEvs_device .rtPmEnterSleep w.pm.sleepMode

@[simp] theorem suspendEvs_device (ds : List (RtDevicePm X)) (m : U8) :
    (suspendEvs ds m).filter Ev.ofDevice = suspendEvs ds m := by
  rw [List.filter_eq_self]
  intro e he
  obtain ⟨j, -, rfl⟩ := List.mem_map.1 he
  rfl

@[simp] theorem resumeEvs_device (m : U8) :
    (w.resumeEvs m).filter Ev.ofDevice = w.resumeEvs m := by
  rw [List.filter_eq_self]
  intro e he
  obtain ⟨j, -, rfl⟩ := List.mem_map.1 he
  rfl

@[simp] theorem wakeEvs_device (m : U8) (d : U32) : (w.wakeEvs m d).filter Ev.ofDevice = [] := by
  unfold wakeEvs
  split_ifs <;> rfl

@[simp] theorem checkEvs_device (irq : Irq) (delta : Option U32) :
    (w.checkEvs irq delta).filter Ev.ofDevice = [] := by
  rw [List.filter_eq_nil_iff]
  intro e he
  rcases checkEvs_mem he with rfl | rfl <;> exact Bool.false_ne_true

@[simp] theorem starts_device (start : Option U32) :
    (start.toList.map Ev.timerStart).filter Ev.ofDevice = [] := by
  cases start <;> rfl

theorem passDevice_awake (irq : Irq) (h : w.Awake) : passDevice irq w = [] := by
  rw [passDevice, shown_awake ofCall_device irq h]
  rfl

theorem passDevice_refused (irq : Irq) (h : ¬w.Awake) (hr : w.suspendRet ≠ rtEok) :
    ∃ pre d post, w.pm.devices = pre ++ d :: post ∧ d.suspend.isSome = true ∧
      passDevice irq w = w.notifyEvs .rtPmEnterSleep w.pm.sleepMode ++
        (suspendEvs pre w.pm.sleepMode ++ [.suspend pre.length w.pm.sleepMode w.suspendRet]) ++
        w.resumeEvs w.pm.sleepMode ++ w.notifyEvs .rtPmExitSleep w.pm.sleepMode := by
  obtain ⟨pre, d, post, hds, hd, hshown⟩ := shown_refused ofCall_device irq h hr
  refine ⟨pre, d, post, hds, hd, ?_⟩
  rw [passDevice, hshown]
  simp [List.filter_cons, Ev.ofDevice]

theorem passDevice_crashed (irq : Irq) (h : ¬w.Awake) (hr : w.suspendRet = rtEok)
    (hp : w.plan = none) :
    passDevice irq w = w.notifyEvs .rtPmEnterSleep w.pm.sleepMode ++
      suspendEvs w.pm.devices w.pm.sleepMode := by
  rw [passDevice, since_crashed irq h hr hp]
  simp [Ev.ofDevice]

theorem passDevice_slept (irq : Irq) (hdead : w.dead = false) (h : ¬w.Awake)
    (hr : w.suspendRet = rtEok) {start : Option U32} {mode : U8} (hp : w.plan = some (start, mode)) :
    passDevice irq w = w.notifyEvs .rtPmEnterSleep w.pm.sleepMode ++
      suspendEvs w.pm.devices w.pm.sleepMode ++ w.resumeEvs mode ++
      w.notifyEvs .rtPmExitSleep mode := by
  obtain ⟨d, u, -, -, hshown⟩ := shown_slept ofCall_device irq hdead h hr hp
  rw [passDevice, hshown]
  simp [Ev.ofDevice]

/-! ## The shape of a pass -/

section Shape

variable {n₁ s r n₂ : List Ev}

/-- Notifications, suspends, resumes and notifications, in this order. -/
structure Shape (n₁ s r n₂ : List Ev) : Prop where
  note₁ : ∀ e ∈ n₁, ∃ event m, e = .notify event m
  suspend : ∀ e ∈ s, ∃ j m ret, e = .suspend j m ret
  resume : ∀ e ∈ r, ∃ j m, e = .resume j m
  note₂ : ∀ e ∈ n₂, ∃ event m, e = .notify event m

theorem Shape.resumes (h : Shape n₁ s r n₂) (i : ℕ) :
    Pm.resumes i (n₁ ++ s ++ r ++ n₂) = Pm.resumes i r := by
  have h1 : Pm.resumes i n₁ = [] := by
    refine List.filterMap_eq_nil_iff.2 fun e he => ?_
    obtain ⟨event, m, rfl⟩ := h.note₁ e he
    rfl
  have h2 : Pm.resumes i s = [] := by
    refine List.filterMap_eq_nil_iff.2 fun e he => ?_
    obtain ⟨j, m, ret, rfl⟩ := h.suspend e he
    rfl
  have h3 : Pm.resumes i n₂ = [] := by
    refine List.filterMap_eq_nil_iff.2 fun e he => ?_
    obtain ⟨event, m, rfl⟩ := h.note₂ e he
    rfl
  unfold Pm.resumes at *
  rw [List.filterMap_append, List.filterMap_append, List.filterMap_append, h1, h2, h3,
    List.nil_append, List.nil_append, List.append_nil]

theorem Shape.notes (h : Shape n₁ s r n₂) :
    Pm.notes (n₁ ++ s ++ r ++ n₂) = Pm.notes n₁ ++ Pm.notes n₂ := by
  have h1 : Pm.notes s = [] := by
    refine List.filterMap_eq_nil_iff.2 fun e he => ?_
    obtain ⟨j, m, ret, rfl⟩ := h.suspend e he
    rfl
  have h2 : Pm.notes r = [] := by
    refine List.filterMap_eq_nil_iff.2 fun e he => ?_
    obtain ⟨j, m, rfl⟩ := h.resume e he
    rfl
  unfold Pm.notes at *
  rw [List.filterMap_append, List.filterMap_append, List.filterMap_append, h1, h2, List.append_nil,
    List.append_nil]

/-- No suspend comes after a resume. -/
theorem Shape.order (h : Shape n₁ s r n₂) (i : ℕ) (m : U8) (j : ℕ) (m' : U8) (ret : ℤ) :
    ¬[.resume i m, .suspend j m' ret].Sublist (n₁ ++ s ++ r ++ n₂) := by
  intro hsub
  rw [List.append_assoc] at hsub
  obtain ⟨l₁, l₂, heq, hl₁, hl₂⟩ := List.sublist_append_iff.1 hsub
  -- the resume is not in the first half, so the suspend would be in the second
  have hfirst : l₁ = [] := by
    cases l₁ with
    | nil => rfl
    | cons e l =>
      obtain rfl : e = .resume i m := (List.cons.inj heq).1.symm
      rcases List.mem_append.1 (hl₁.subset List.mem_cons_self) with hmem | hmem
      · obtain ⟨event, m₀, he⟩ := h.note₁ _ hmem
        exact Ev.noConfusion he
      · obtain ⟨j₀, m₀, ret₀, he⟩ := h.suspend _ hmem
        exact Ev.noConfusion he
  rw [hfirst, List.nil_append] at heq
  have hmem : Ev.suspend j m' ret ∈ l₂ := by
    rw [← heq]
    simp
  rcases List.mem_append.1 (hl₂.subset hmem) with hmem | hmem
  · obtain ⟨j₀, m₀, he⟩ := h.resume _ hmem
    exact Ev.noConfusion he
  · obtain ⟨event, m₀, he⟩ := h.note₂ _ hmem
    exact Ev.noConfusion he

end Shape

theorem mem_notifyEvs {e : Ev} {event : NotifyEvent} {m : U8} (he : e ∈ w.notifyEvs event m) :
    e = .notify event m := by
  unfold notifyEvs at he
  split_ifs at he
  · exact List.mem_singleton.1 he
  · exact absurd he List.not_mem_nil

theorem notes_notifyEvs (event : NotifyEvent) (m : U8) :
    Pm.notes (w.notifyEvs event m) = if w.pm.notify.isSome then [(event, m)] else [] := by
  unfold notifyEvs
  split_ifs <;> rfl

theorem mem_suspendEvs {ds : List (RtDevicePm X)} {m m' : U8} {j : ℕ} {r : ℤ} :
    .suspend j m' r ∈ suspendEvs ds m ↔
      m' = m ∧ r = rtEok ∧ ∃ d, ds[j]? = some d ∧ d.suspend.isSome = true := by
  unfold suspendEvs
  rw [List.mem_map]
  constructor
  · rintro ⟨i, hi, he⟩
    obtain ⟨rfl, rfl, rfl⟩ := Ev.suspend.inj he
    exact ⟨rfl, rfl, mem_places_zero.1 hi⟩
  · rintro ⟨rfl, rfl, hd⟩
    exact ⟨j, mem_places_zero.2 hd, rfl⟩

theorem shape_pass {s r n₂ : List Ev} (hs : ∀ e ∈ s, ∃ j m ret, e = .suspend j m ret)
    (hr : r = [] ∨ ∃ m, r = w.resumeEvs m) (hn : n₂ = [] ∨ ∃ event m, n₂ = w.notifyEvs event m)
    (event : NotifyEvent) (m : U8) : Shape (w.notifyEvs event m) s r n₂ := by
  refine ⟨fun e he => ⟨_, _, mem_notifyEvs he⟩, hs, ?_, ?_⟩
  · intro e he
    rcases hr with rfl | ⟨m', rfl⟩
    · exact absurd he List.not_mem_nil
    · obtain ⟨j, -, rfl⟩ := List.mem_map.1 he
      exact ⟨j, m', rfl⟩
  · intro e he
    rcases hn with rfl | ⟨event', m', rfl⟩
    · exact absurd he List.not_mem_nil
    · exact ⟨event', m', mem_notifyEvs he⟩

theorem suspendEvs_shape (ds : List (RtDevicePm X)) (m : U8) :
    ∀ e ∈ suspendEvs ds m, ∃ j m' ret, e = .suspend j m' ret := by
  intro e he
  obtain ⟨j, -, rfl⟩ := List.mem_map.1 he
  exact ⟨j, m, rtEok, rfl⟩

/-- A device with a resume callback is resumed whenever the resume loop runs. -/
theorem resumes_resumeEvs {i : ℕ} {d : RtDevicePm X} (hd : w.pm.devices[i]? = some d)
    (hres : d.resume.isSome = true) (m : U8) : resumes i (w.resumeEvs m) = [m] := by
  unfold resumeEvs
  rw [resumes_map (places_nodup _ _ _), if_pos (mem_places_zero.2 ⟨d, hd, hres⟩)]

/-! ## When a pass is balanced -/

/-- There is no resume callback and no notification callback. -/
def NothingToUndo (w : World X) : Prop :=
  w.pm.notify = none ∧ ∀ (i : ℕ) d, w.pm.devices[i]? = some d → d.resume = none

/-- No device at or after one that refused to be suspended has a resume callback. -/
def RefusalHarmless (irq : Irq) (w : World X) : Prop :=
  ∀ k r, .suspend k w.pm.sleepMode r ∈ w.since (w.pmChangeSleepMode irq) → r ≠ rtEok →
    ∀ j d, k ≤ j → w.pm.devices[j]? = some d → d.resume = none

/-- Suspends and resumes match in the pass. -/
def BalancedWhen (irq : Irq) (w : World X) : Prop :=
  w.Awake ∨ (w.suspendRet ≠ rtEok ∧ RefusalHarmless irq w) ∨
    (w.suspendRet = rtEok ∧ ¬w.NullStart ∧ w.sleepIn = w.pm.sleepMode) ∨
    (w.suspendRet = rtEok ∧ w.NothingToUndo)

/-- A pass that suspends every device and does not undo it for the same mode is balanced only if
there is nothing to undo. -/
theorem balanced_of_suspended {r n₂ : List Ev} (hawake : ¬w.Awake)
    (hr : r = [] ∨ ∃ m, r = w.resumeEvs m) (hn : n₂ = [] ∨ ∃ event m, n₂ = w.notifyEvs event m) :
    w.Balanced (w.notifyEvs .rtPmEnterSleep w.pm.sleepMode ++
        suspendEvs w.pm.devices w.pm.sleepMode ++ r ++ n₂) ↔
      (∀ i d, w.pm.devices[i]? = some d → d.resume.isSome = true →
        resumes i r = [w.pm.sleepMode]) ∧
      (w.pm.notify.isSome = true →
        Pm.notes n₂ = [(NotifyEvent.rtPmExitSleep, w.pm.sleepMode)]) := by
  have hshape := shape_pass (w := w) (suspendEvs_shape w.pm.devices w.pm.sleepMode) hr hn
    .rtPmEnterSleep w.pm.sleepMode
  -- every suspend callback succeeded, so every device counts as put to sleep
  have hput : ∀ i, w.PutToSleep (w.notifyEvs .rtPmEnterSleep w.pm.sleepMode ++
      suspendEvs w.pm.devices w.pm.sleepMode ++ r ++ n₂) i := by
    refine fun i => ⟨hawake, fun j d _ hd hsus => ?_⟩
    have hmem : .suspend j w.pm.sleepMode rtEok ∈ suspendEvs w.pm.devices w.pm.sleepMode :=
      mem_suspendEvs.2 ⟨rfl, rfl, d, hd, hsus⟩
    exact List.mem_append_left _ (List.mem_append_left _ (List.mem_append_right _ hmem))
  have hnone : w.pm.notify.isSome = false → Pm.notes n₂ = [] := by
    intro hno
    rcases hn with rfl | ⟨event, m, rfl⟩
    · rfl
    · rw [notes_notifyEvs, hno]
      rfl
  constructor
  · rintro ⟨hasleep, -, -, hnotes⟩
    constructor
    · intro i d hd hres
      rw [← hasleep i d hd hres (hput i), hshape.resumes]
    · intro hsome
      rw [hshape.notes, notes_notifyEvs, if_pos hsome] at hnotes
      rcases hnotes with h | ⟨m, h⟩
      · exact absurd h (by simp)
      · obtain ⟨hm, htail⟩ := List.cons.inj h
        have hmode : w.pm.sleepMode = m := congrArg Prod.snd hm
        rw [hmode]
        exact htail
  · rintro ⟨hres, hnot⟩
    refine ⟨?_, ?_, hshape.order, ?_⟩
    · intro i d hd hsome _
      rw [hshape.resumes]
      exact hres i d hd hsome
    · intro i d hd hsome hno
      exact absurd (hput i) hno
    · rw [hshape.notes, notes_notifyEvs]
      split_ifs with hsome
      · right
        rw [hnot hsome]
        exact ⟨_, rfl⟩
      · left
        rw [hnone (by simpa using hsome)]
        rfl

theorem nothingToUndo_iff :
    w.NothingToUndo ↔ w.pm.notify.isSome = false ∧
      ∀ (i : ℕ) d, w.pm.devices[i]? = some d → d.resume.isSome = false := by
  unfold NothingToUndo
  simp

/-! ### A refused pass -/

section Refused

variable {pre post : List (RtDevicePm X)} {d : RtDevicePm X}

/-- The device events of a pass that a device behind `pre` refuses. -/
def refusedEvs (w : World X) (pre : List (RtDevicePm X)) : List Ev :=
  w.notifyEvs .rtPmEnterSleep w.pm.sleepMode ++
    (suspendEvs pre w.pm.sleepMode ++ [.suspend pre.length w.pm.sleepMode w.suspendRet]) ++
    w.resumeEvs w.pm.sleepMode ++ w.notifyEvs .rtPmExitSleep w.pm.sleepMode

/-- Its suspend callbacks are those of `pre`, and the refusal. -/
theorem mem_refusedEvs {j : ℕ} {r : ℤ} :
    .suspend j w.pm.sleepMode r ∈ w.refusedEvs pre ↔
      (r = rtEok ∧ ∃ d, pre[j]? = some d ∧ d.suspend.isSome = true) ∨
        (j = pre.length ∧ r = w.suspendRet) := by
  unfold refusedEvs
  simp only [List.mem_append, mem_suspendEvs, List.mem_singleton, Ev.suspend.injEq, true_and]
  constructor
  · rintro (((h | h) | h) | h)
    · exact absurd (mem_notifyEvs h) (by simp)
    · exact h
    · obtain ⟨i, -, he⟩ := List.mem_map.1 h
      exact Ev.noConfusion he
    · exact absurd (mem_notifyEvs h) (by simp)
  · intro h
    exact .inl (.inl (.inr h))

/-- A device is put to sleep if it comes before the refusal. -/
theorem putToSleep_refusedEvs (hawake : ¬w.Awake) (hr : w.suspendRet ≠ rtEok)
    (hds : w.pm.devices = pre ++ d :: post) (hd : d.suspend.isSome = true) (i : ℕ) :
    w.PutToSleep (w.refusedEvs pre) i ↔ i < pre.length := by
  constructor
  · rintro ⟨-, hall⟩
    by_contra hge
    have hk : w.pm.devices[pre.length]? = some d := by
      rw [hds, List.getElem?_append_right (le_refl _), Nat.sub_self, List.getElem?_cons_zero]
    have hmem := hall pre.length d (Nat.le_of_not_lt hge) hk hd
    rcases mem_refusedEvs.1 hmem with ⟨-, d', hd', -⟩ | ⟨-, h⟩
    · rw [List.getElem?_eq_none (le_refl _)] at hd'
      exact absurd hd' (by simp)
    · exact hr h.symm
  · intro hi
    refine ⟨hawake, fun j d' hj hd' hsus' => mem_refusedEvs.2 (.inl ⟨rfl, d', ?_, hsus'⟩)⟩
    rw [hds, List.getElem?_append_left (by omega)] at hd'
    exact hd'

/-- The only refusal of the pass comes right behind `pre`. -/
theorem refusalHarmless_iff (hr : w.suspendRet ≠ rtEok)
    (hpass : passDevice irq w = w.refusedEvs pre) :
    RefusalHarmless irq w ↔
      ∀ j d, pre.length ≤ j → w.pm.devices[j]? = some d → d.resume = none := by
  have hmem : ∀ k r, .suspend k w.pm.sleepMode r ∈ w.since (w.pmChangeSleepMode irq) ↔
      .suspend k w.pm.sleepMode r ∈ w.refusedEvs pre := by
    intro k r
    rw [← hpass, passDevice, List.mem_filter]
    exact (and_iff_left rfl).symm
  unfold RefusalHarmless
  simp only [hmem]
  constructor
  · intro h
    exact h pre.length w.suspendRet (mem_refusedEvs.2 (.inr ⟨rfl, rfl⟩)) hr
  · rintro h k r hk hne j d' hj hd'
    rcases mem_refusedEvs.1 hk with ⟨hok, -⟩ | ⟨rfl, -⟩
    · exact absurd hok hne
    · exact h j d' hj hd'

/-- A refused pass is balanced when the devices it did not put to sleep have no resume callback. -/
theorem balanced_refused (irq : Irq) (hawake : ¬w.Awake) (hr : w.suspendRet ≠ rtEok) :
    w.Balanced (w.since (w.pmChangeSleepMode irq)) ↔ RefusalHarmless irq w := by
  obtain ⟨pre, d, post, hds, hd, hpass⟩ := passDevice_refused irq hawake hr
  change passDevice irq w = w.refusedEvs pre at hpass
  have hsus : ∀ e ∈ suspendEvs pre w.pm.sleepMode ++
      [.suspend pre.length w.pm.sleepMode w.suspendRet], ∃ j m ret, e = .suspend j m ret := by
    intro e he
    rcases List.mem_append.1 he with he | he
    · exact suspendEvs_shape _ _ e he
    · exact ⟨_, _, _, List.mem_singleton.1 he⟩
  have hshape := shape_pass (w := w) hsus (.inr ⟨w.pm.sleepMode, rfl⟩)
    (.inr ⟨.rtPmExitSleep, w.pm.sleepMode, rfl⟩) .rtPmEnterSleep w.pm.sleepMode
  have hput := putToSleep_refusedEvs hawake hr hds hd
  rw [refusalHarmless_iff hr hpass, ← balanced_ofDevice]
  change w.Balanced (passDevice irq w) ↔ _
  rw [hpass]
  constructor
  · rintro ⟨-, hawk, -, -⟩ j d' hj hd'
    by_contra hne
    have hsome : d'.resume.isSome = true := Option.isSome_iff_ne_none.2 hne
    have hnil := hawk j d' hd' hsome fun hp => absurd ((hput j).1 hp) (Nat.not_lt.2 hj)
    rw [refusedEvs, hshape.resumes, resumes_resumeEvs hd' hsome] at hnil
    exact absurd hnil (by simp)
  · intro h
    refine ⟨?_, ?_, hshape.order, ?_⟩
    · intro i d' hd' hsome _
      rw [refusedEvs, hshape.resumes, resumes_resumeEvs hd' hsome]
    · intro i d' hd' hsome hno
      have hge : pre.length ≤ i := Nat.not_lt.1 fun hlt => hno ((hput i).2 hlt)
      rw [h i d' hge hd'] at hsome
      exact Bool.noConfusion hsome
    · rw [refusedEvs, hshape.notes, notes_notifyEvs, notes_notifyEvs]
      split_ifs
      · exact .inr ⟨_, rfl⟩
      · exact .inl rfl

end Refused

/-! ### The other passes -/

/-- A pass that crashes leaves everything as it put it. -/
theorem balanced_crashed (irq : Irq) (hawake : ¬w.Awake) (hr : w.suspendRet = rtEok)
    (hp : w.plan = none) :
    w.Balanced (w.since (w.pmChangeSleepMode irq)) ↔ w.NothingToUndo := by
  have hpass := passDevice_crashed irq hawake hr hp
  rw [← List.append_nil (suspendEvs _ _), ← List.append_nil (_ ++ (_ ++ _)), ← List.append_assoc] at hpass
  rw [← balanced_ofDevice]
  change w.Balanced (passDevice irq w) ↔ _
  rw [hpass, balanced_of_suspended hawake (.inl rfl) (.inl rfl), nothingToUndo_iff]
  constructor
  · rintro ⟨hres, hnot⟩
    constructor
    · by_contra h
      exact absurd (hnot (Bool.of_not_eq_false h)) (by simp [Pm.notes])
    · intro i d hd
      by_contra h
      exact absurd (hres i d hd (Bool.of_not_eq_false h)) (by simp [resumes])
  · rintro ⟨hnot, hres⟩
    refine ⟨fun i d hd h => ?_, fun h => ?_⟩
    · exact Bool.noConfusion ((hres i d hd).symm.trans h)
    · exact Bool.noConfusion (hnot.symm.trans h)

/-- A pass that sleeps is balanced when it sleeps in the mode it suspended for. -/
theorem balanced_slept (irq : Irq) (hdead : w.dead = false) (hawake : ¬w.Awake)
    (hr : w.suspendRet = rtEok) {start : Option U32} {mode : U8} (hp : w.plan = some (start, mode)) :
    w.Balanced (w.since (w.pmChangeSleepMode irq)) ↔ mode = w.pm.sleepMode ∨ w.NothingToUndo := by
  have hpass := passDevice_slept irq hdead hawake hr hp
  rw [← balanced_ofDevice]
  change w.Balanced (passDevice irq w) ↔ _
  rw [hpass, balanced_of_suspended hawake (.inr ⟨mode, rfl⟩) (.inr ⟨_, mode, rfl⟩), nothingToUndo_iff]
  constructor
  · rintro ⟨hres, hnot⟩
    by_cases hmode : mode = w.pm.sleepMode
    · exact .inl hmode
    refine .inr ⟨?_, ?_⟩
    · by_contra h
      have hn := hnot (Bool.of_not_eq_false h)
      rw [notes_notifyEvs, if_pos (Bool.of_not_eq_false h)] at hn
      exact hmode (by simpa using hn)
    · intro i d hd
      by_contra h
      have hsome : d.resume.isSome = true := Bool.of_not_eq_false h
      have hone := hres i d hd hsome
      rw [resumes_resumeEvs hd hsome] at hone
      exact hmode (by simpa using hone)
  · rintro (rfl | ⟨hnot, hres⟩)
    · refine ⟨fun i d hd h => resumes_resumeEvs hd h _, fun h => ?_⟩
      rw [notes_notifyEvs, if_pos h]
    · refine ⟨fun i d hd h => ?_, fun h => ?_⟩
      · exact Bool.noConfusion ((hres i d hd).symm.trans h)
      · exact Bool.noConfusion (hnot.symm.trans h)

/-- **When suspends and resumes match.** -/
theorem balanced_iff (irq : Irq) (hdead : w.dead = false) :
    w.Balanced (w.since (w.pmChangeSleepMode irq)) ↔ BalancedWhen irq w := by
  unfold BalancedWhen
  by_cases hawake : w.Awake
  · refine iff_of_true ?_ (.inl hawake)
    rw [← balanced_ofDevice]
    change w.Balanced (passDevice irq w)
    rw [passDevice_awake irq hawake]
    refine ⟨?_, fun _ _ _ _ _ => rfl, fun i m j m' r hsub => ?_, .inl rfl⟩
    · exact fun i d _ _ hput => absurd hawake hput.1
    · exact absurd hsub (by simp)
  by_cases hr : w.suspendRet = rtEok
  swap
  · rw [balanced_refused irq hawake hr]
    constructor
    · exact fun h => .inr (.inl ⟨hr, h⟩)
    · rintro (h | ⟨-, h⟩ | ⟨h, -⟩ | ⟨h, -⟩)
      · exact absurd h hawake
      · exact h
      · exact absurd h hr
      · exact absurd h hr
  by_cases hnull : w.NullStart
  · rw [balanced_crashed irq hawake hr (plan_nullStart hnull)]
    constructor
    · exact fun h => .inr (.inr (.inr ⟨hr, h⟩))
    · rintro (h | ⟨h, -⟩ | ⟨-, h, -⟩ | ⟨-, h⟩)
      · exact absurd h hawake
      · exact absurd hr h
      · exact absurd hnull h
      · exact h
  obtain ⟨start, hp⟩ := plan_sleepIn hnull
  rw [balanced_slept irq hdead hawake hr hp]
  constructor
  · rintro (h | h)
    · exact .inr (.inr (.inl ⟨hr, hnull, h⟩))
    · exact .inr (.inr (.inr ⟨hr, h⟩))
  · rintro (h | ⟨h, -⟩ | ⟨-, -, h⟩ | ⟨-, h⟩)
    · exact absurd h hawake
    · exact absurd hr h
    · exact .inl h
    · exact .inr h

/-- A device with both callbacks; `ret` is what its suspend returns. -/
def plainDevice (ret : ℤ) : RtDevicePm Unit where
  device := 0
  suspend := some fun _ x => (ret, x)
  resume := some fun _ x => x
  frequencyChange := none

/-- `PM_SLEEP_MODE_DEEP` selected at tick 100, with these deadlines and devices. -/
def withDevices (timers : List U32) (ds : List (RtDevicePm Unit)) : World Unit :=
  (deepAt 100 timers).step (.devices ds (BitVec.ofNat 8 ds.length))

theorem balanced_plain :
    (withDevices [200] [plainDevice rtEok]).Balanced
        ((withDevices [200] [plainDevice rtEok]).since
          ((withDevices [200] [plainDevice rtEok]).pmChangeSleepMode Irq.none)) ↔
      BalancedWhen Irq.none (withDevices [200] [plainDevice rtEok]) :=
  balanced_iff Irq.none (by decide +kernel)

/-- A near deadline: the device is suspended for `PM_SLEEP_MODE_DEEP` and resumed for
`PM_SLEEP_MODE_IDLE`. -/
theorem balanced_lowered :
    let w := withDevices [101] [plainDevice rtEok]
    ¬w.Balanced (w.since (w.pmChangeSleepMode Irq.none)) := by
  intro w
  have hev : w.since (w.pmChangeSleepMode Irq.none) =
      [.irqDisable, .suspend 0 pmSleepModeDeep rtEok, .sleep pmSleepModeIdle,
        .resume 0 pmSleepModeIdle, .irqEnable] := by decide +kernel
  have hmode : w.pm.sleepMode = pmSleepModeDeep := by decide +kernel
  have hawake : ¬w.Awake := by
    unfold Awake
    decide +kernel
  have hget : w.pm.devices[0]? = some (plainDevice rtEok) := rfl
  rw [hev]
  intro h
  have hone := h.asleep 0 _ hget rfl ⟨hawake, fun j d hj _ _ => by
    obtain rfl : j = 0 := Nat.le_zero.1 hj
    rw [hmode]
    decide⟩
  rw [hmode] at hone
  exact absurd hone (by decide)

/-- A device that refuses to be suspended is resumed all the same. -/
example :
    (withDevices [200] [plainDevice (-rtEio)]).since
        ((withDevices [200] [plainDevice (-rtEio)]).pmChangeSleepMode Irq.none) =
      [.irqDisable, .suspend 0 pmSleepModeDeep (-rtEio), .resume 0 pmSleepModeDeep, .irqEnable] := by
  decide +kernel

end World
end LowPower.Pm
