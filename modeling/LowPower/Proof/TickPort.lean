import LowPower.Lib.Pended
import LowPower.Proof.Asked
import LowPower.Proof.Clock

/-!
# Platforms that show a tick

A `TickPort` views a platform as a tick behind the interrupt mask (`Lib/Pended`), and a table meets
it when each callback that is there does to the tick what its name says (`TickPort.Meets`). Any part
of such a table meets it too, and so does no table at all. The driver does, with any of its
callbacks left out (`pmOps_meets`): there `pm_tick_set` pends a SysTick.

Inside a pass an interface call leaves the tick alone (`call_tick`), and between passes it lets
nothing wait (`call_settled`).
-/

namespace LowPower

variable {c : Config} {X : Type}

/-- A view of a platform; which levels mask the interrupts when they are put back, whether
`systick_set` pends a SysTick, and with which time-outs `lptim_start` stops the machine. -/
structure TickPort (X : Type) where
  view : X → TickState 32
  level : U32 → Bool
  pends : Bool
  stops : U32 → Bool

/-- A table that can mask the interrupts, or unmask them. -/
def disables (o : Option (LpmsOps X)) : Bool := (o.bind (·.irqDisable)).isSome
def enables (o : Option (LpmsOps X)) : Bool := (o.bind (·.irqEnable)).isSome

/-- The callbacks that are there do to the tick what their names say, and the others leave it
alone. -/
structure TickPort.Meets (t : TickPort X) (o : Option (LpmsOps X)) : Prop where
  steady : ∀ ops, o = some ops → ops.Steady
  irqDisable : ∀ f, o.bind (·.irqDisable) = some f → ∀ x, t.view (f x).2 = (t.view x).mask ∧
    ((t.view x).halted = false → t.level (f x).1 = (t.view x).masked)
  irqDisable_absent : o.bind (·.irqDisable) = none → t.level 0 = false
  irqEnable : ∀ level f, o.bind (fun o => o.irqEnable.map (· level)) = some f →
    ∀ x, t.view (f x) = (t.view x).unmask (t.level level)
  systickGet : ∀ f, o.bind (·.systickGet) = some f → ∀ x, t.view (f x).2 = t.view x ∧
    ((t.view x).halted = false → (f x).1 = (t.view x).tick)
  systickSet : ∀ n f, o.bind (fun o => o.systickSet.map (· n)) = some f →
    ∀ x, (t.view x).Served → t.view (f x) = (t.view x).setTick t.pends n
  lptimStart : ∀ n f, o.bind (fun o => o.lptimStart.map (· n)) = some f →
    ∀ x, t.view (f x) = (t.view x).stop (t.stops n)
  lptimStop : ∀ f, o.bind (·.lptimStop) = some f → ∀ x, t.view (f x) = t.view x
  lptimGetTick : ∀ f, o.bind (·.lptimGetTick) = some f → ∀ x, t.view (f x).2 = t.view x
  lptimNextTimeout : ∀ f, o.bind (·.lptimNextTimeout) = some f → ∀ x, t.view (f x).2 = t.view x
  systickNextTimeout :
    ∀ f, o.bind (·.systickNextTimeout) = some f → ∀ x, t.view (f x).2 = t.view x
  sleep : ∀ m f, o.bind (fun o => o.sleep.map (· m)) = some f → ∀ x, t.view (f x) = t.view x
  setFreq : ∀ m f, o.bind (fun o => o.setFreq.map (· m)) = some f → ∀ x, t.view (f x) = t.view x

theorem isSome_bind_map {A B : Type} {o : Option (LpmsOps X)} (sel : LpmsOps X → Option (A → B))
    (a : A) : (o.bind fun ops => (sel ops).map (· a)).isSome = (o.bind sel).isSome := by
  cases o with
  | none => rfl
  | some ops => simp

/-- Hooks that leave the tick and the interrupts to LPMS. -/
def TickPort.Hooks (t : TickPort X) (env : Env c X) : Prop :=
  ∀ l h m w f, .plat f ∈ env.body l h m w → ∀ x, t.view (f x) = t.view x

/-- The platform between passes. No SysTick waits while the interrupts are on; under a table that can
unmask the interrupts but not mask them none waits at all, for whoever masks them for himself takes
what waits before he calls it. -/
def TickPort.Settled (t : TickPort X) (o : Option (LpmsOps X)) (x : X) : Prop :=
  (t.view x).Settled (disables o) (enables o)

/-- What moves the platform between the calls of a run leaves it settled. -/
def TickPort.KeepsSettled (t : TickPort X) (o : Option (LpmsOps X)) (es : List (Op X)) : Prop :=
  ∀ f, .plat f ∈ es → ∀ x, t.Settled o x → t.Settled o (f x)

/-! ## Parts of a table -/

/-- A table with some of its pointers NULL. -/
structure LpmsOps.Part (ops' ops : LpmsOps X) : Prop where
  sleep : ∀ f, ops'.sleep = some f → ops.sleep = some f
  setFreq : ∀ f, ops'.setFreq = some f → ops.setFreq = some f
  lptimStart : ∀ f, ops'.lptimStart = some f → ops.lptimStart = some f
  lptimStop : ∀ f, ops'.lptimStop = some f → ops.lptimStop = some f
  lptimGetTick : ∀ f, ops'.lptimGetTick = some f → ops.lptimGetTick = some f
  lptimNextTimeout : ∀ f, ops'.lptimNextTimeout = some f → ops.lptimNextTimeout = some f
  systickGet : ∀ f, ops'.systickGet = some f → ops.systickGet = some f
  systickSet : ∀ f, ops'.systickSet = some f → ops.systickSet = some f
  systickNextTimeout : ∀ f, ops'.systickNextTimeout = some f → ops.systickNextTimeout = some f
  irqDisable : ∀ f, ops'.irqDisable = some f → ops.irqDisable = some f
  irqEnable : ∀ f, ops'.irqEnable = some f → ops.irqEnable = some f

theorem LpmsOps.Part.refl (ops : LpmsOps X) : ops.Part ops := by
  constructor <;> exact fun _ h => h

namespace TickPort.Meets

variable {t : TickPort X} {ops ops' : LpmsOps X}

/-- No table at all. -/
theorem none (hl : t.level 0 = false) : t.Meets none where
  steady := by rintro _ ⟨⟩
  irqDisable := by rintro _ ⟨⟩
  irqDisable_absent _ := hl
  irqEnable := by rintro _ _ ⟨⟩
  systickGet := by rintro _ ⟨⟩
  systickSet := by rintro _ _ ⟨⟩
  lptimStart := by rintro _ _ ⟨⟩
  lptimStop := by rintro _ ⟨⟩
  lptimGetTick := by rintro _ ⟨⟩
  lptimNextTimeout := by rintro _ ⟨⟩
  systickNextTimeout := by rintro _ ⟨⟩
  sleep := by rintro _ _ ⟨⟩
  setFreq := by rintro _ _ ⟨⟩

/-- A part of a table does no more than the table. -/
theorem part (h : t.Meets (some ops)) (hpart : ops'.Part ops) (hl : t.level 0 = false) :
    t.Meets (some ops') := by
  have hlist : ∀ {A : Type} {a b : Option A}, (∀ f, a = some f → b = some f) →
      ∀ f ∈ a.toList, f ∈ b.toList := by
    intro A a b hab f hf
    rw [Option.mem_toList] at hf ⊢
    exact hab f hf
  have hmap : ∀ {A B : Type} {a b : Option (A → B)} (n : A), (∀ f, a = some f → b = some f) →
      ∀ f, a.map (· n) = some f → b.map (· n) = some f := by
    intro A B a b n hab f hf
    obtain ⟨g, hg, rfl⟩ := Option.map_eq_some_iff.1 hf
    rw [hab g hg]
    rfl
  have hasks : ∀ f ∈ ops'.asks, f ∈ ops.asks := by
    intro f hf
    unfold LpmsOps.asks at hf ⊢
    rw [List.mem_append, List.mem_append] at hf ⊢
    exact hf.imp (Or.imp (hlist hpart.systickGet f) (hlist hpart.systickNextTimeout f))
      (hlist hpart.lptimNextTimeout f)
  exact
    { steady := by
        rintro _ ⟨⟩ q hq r hr
        refine h.steady ops rfl q ?_ r (hasks r hr)
        rw [List.mem_append] at hq ⊢
        exact hq.imp (hlist hpart.irqDisable q) (hasks q)
      irqDisable := fun f hf => h.irqDisable f (hpart.irqDisable f hf)
      irqDisable_absent := fun _ => hl
      irqEnable := fun level f hf => h.irqEnable level f (hmap level hpart.irqEnable f hf)
      systickGet := fun f hf => h.systickGet f (hpart.systickGet f hf)
      systickSet := fun n f hf => h.systickSet n f (hmap n hpart.systickSet f hf)
      lptimStart := fun n f hf => h.lptimStart n f (hmap n hpart.lptimStart f hf)
      lptimStop := fun f hf => h.lptimStop f (hpart.lptimStop f hf)
      lptimGetTick := fun f hf => h.lptimGetTick f (hpart.lptimGetTick f hf)
      lptimNextTimeout := fun f hf => h.lptimNextTimeout f (hpart.lptimNextTimeout f hf)
      systickNextTimeout := fun f hf => h.systickNextTimeout f (hpart.systickNextTimeout f hf)
      sleep := fun m f hf => h.sleep m f (hmap m hpart.sleep f hf)
      setFreq := fun m f hf => h.setFreq m f (hmap m hpart.setFreq f hf) }

end TickPort.Meets

/-! ## The driver -/

/-- The clock of the driver: `pm_tick_set` pends a SysTick, and `pm_timer_start` stops the machine
when it is given 0. -/
def hwTick : TickPort Hw where
  view hw := ⟨hw.rtTick, hw.primask, hw.pendst, hw.halted⟩
  level level := level.getLsbD 0
  pends := true
  stops n := n = 0

namespace Hw

variable {b : Board} {hw : Hw}

/-- A callback of a machine that has not stopped. -/
theorem view_live {f : Hw → Hw} {g : TickState 32 → TickState 32}
    (h : hw.halted = false → hwTick.view (f hw) = g (hwTick.view hw)) :
    hwTick.view (hw.live f) = (hwTick.view hw).live g := by
  have hhalted : (hwTick.view hw).halted = hw.halted := rfl
  unfold live TickState.live
  rw [hhalted]
  split_ifs with hstop
  · rfl
  · exact h (Bool.eq_false_of_not_eq_true hstop)

theorem view_live_keep {f : Hw → Hw} (h : ∀ hw, hwTick.view (f hw) = hwTick.view hw) (hw : Hw) :
    hwTick.view (hw.live f) = hwTick.view hw := by
  unfold live
  split_ifs
  · rfl
  · exact h hw

theorem view_liveGet_keep {f : Hw → U32 × Hw} (h : ∀ hw, hwTick.view (f hw).2 = hwTick.view hw)
    (hw : Hw) : hwTick.view (hw.liveGet f).2 = hwTick.view hw := by
  unfold liveGet
  split_ifs
  · rfl
  · exact h hw

theorem view_takeSysTick (hw : Hw) : hwTick.view (hw.takeSysTick b) = (hwTick.view hw).serve := by
  obtain ⟨rtTick, timers, osTickRemain, primask, pendst, reads, halted, log⟩ := hw
  cases primask <;> cases pendst <;> rfl

theorem view_irqDisable (hw : Hw) :
    hwTick.view (hw.liveGet rtHwInterruptDisable).2 = (hwTick.view hw).mask ∧
      ((hwTick.view hw).halted = false →
        hwTick.level (hw.liveGet rtHwInterruptDisable).1 = (hwTick.view hw).masked) := by
  obtain ⟨rtTick, timers, osTickRemain, primask, pendst, reads, halted, log⟩ := hw
  cases halted with
  | true => exact ⟨rfl, fun hlive => Bool.noConfusion hlive⟩
  | false =>
    refine ⟨rfl, fun _ => ?_⟩
    have hlevel : ∀ m : Bool, (if m then 1 else 0 : U32).getLsbD 0 = m := by decide
    exact hlevel primask

/-- With nothing to serve, `pm_tick_set` sets the tick and pends a SysTick. -/
theorem view_pmTickSet (hs : (hwTick.view hw).Served) (n : U32) :
    hwTick.view (hw.pmTickSet b n) =
      ({ hwTick.view hw with tick := n, pending := true } : TickState 32).serve := by
  obtain ⟨rtTick, timers, osTickRemain, primask, pendst, reads, halted, log⟩ := hw
  have hserved : pendst = true → primask = true := hs
  unfold pmTickSet
  rw [view_takeSysTick]
  refine congrArg TickState.serve ?_
  unfold rtTickSet rtHwInterruptDisable rtHwInterruptEnable takeSysTick
  cases primask with
  | true => simp [hwTick]
  | false =>
    obtain rfl : pendst = false := by simpa using hserved
    simp [hwTick]

theorem view_pmTimerStart (hlive : hw.halted = false) (n : U32) :
    hwTick.view (hw.pmTimerStart n) = { hwTick.view hw with halted := hwTick.stops n } := by
  unfold pmTimerStart
  split_ifs with hzero
  · rw [hzero]
    rfl
  · have hruns : hwTick.stops n = false := decide_eq_false hzero
    rw [hruns, ← hlive]
    rfl
  · have hruns : hwTick.stops n = false := decide_eq_false hzero
    rw [hruns, ← hlive]
    rfl

end Hw

/-- **The driver shows its tick**, with any of its callbacks left out and any deadline told. -/
theorem pmOps_meets {b : Board} {due : Option U32} {ops : LpmsOps Hw} (h : ops.Part (pmOpsDue b due)) :
    hwTick.Meets (some ops) := by
  refine TickPort.Meets.part ?_ h rfl
  exact
    { steady := by
        rintro _ ⟨⟩
        exact pmOpsDue_steady b due
      irqDisable := by
        rintro _ ⟨⟩
        exact Hw.view_irqDisable
      irqDisable_absent := fun _ => rfl
      irqEnable := by
        rintro level _ ⟨⟩ hw
        exact Hw.view_live fun _ => Hw.view_takeSysTick _
      systickGet := by
        rintro _ ⟨⟩ hw
        refine ⟨Hw.view_liveGet_keep (fun _ => rfl) hw, fun hlive => ?_⟩
        rw [Hw.liveGet_of_not_halted hlive]
        rfl
      systickSet := by
        rintro n _ ⟨⟩ hw hserved
        refine Hw.view_live fun _ => ?_
        rw [Hw.view_pmTickSet hserved]
        rw [show hwTick.pends = true from rfl, Bool.or_true]
      lptimStart := by
        rintro n _ ⟨⟩ hw
        exact Hw.view_live fun hlive => Hw.view_pmTimerStart hlive n
      lptimStop := by
        rintro _ ⟨⟩
        exact Hw.view_live_keep fun _ => rfl
      lptimGetTick := by
        rintro _ ⟨⟩
        exact Hw.view_liveGet_keep fun _ => rfl
      lptimNextTimeout := by
        intro f hf
        obtain ⟨d, -, rfl⟩ := Option.map_eq_some_iff.1 hf
        exact Hw.view_liveGet_keep fun _ => rfl
      systickNextTimeout := by
        rintro _ ⟨⟩
        exact Hw.view_liveGet_keep fun _ => rfl
      sleep := by
        rintro m _ ⟨⟩
        exact Hw.view_live_keep fun _ => rfl
      setFreq := by
        rintro m _ ⟨⟩
        exact Hw.view_live_keep fun _ => rfl }

/-! ## The tick inside a section -/

namespace World

variable {t : TickPort X} {o : Option (LpmsOps X)} {env : Env c X} {w : World c X} {s : TickState 32}

/-- The table `o` is in force, and the platform shows `s`, up to sections that could only unmask. -/
structure TickAt (t : TickPort X) (o : Option (LpmsOps X)) (s : TickState 32) (w : World c X) : Prop where
  ops : w.ops = o
  opens : s.Opens (disables o) (enables o) (t.view w.plat)

namespace TickAt

theorem emit (h : TickAt t o s w) (e : Ev) : TickAt t o s (w.emit e) := ⟨h.ops, h.opens⟩

theorem mapSt (h : TickAt t o s w) (f : Lpms c → Lpms c) : TickAt t o s (w.mapSt f) :=
  ⟨h.ops, h.opens⟩

theorem plat {f : X → X} (h : TickAt t o s w) (hf : ∀ x, t.view (f x) = t.view x) :
    TickAt t o s { w with plat := f w.plat } :=
  ⟨h.ops, (hf w.plat).symm ▸ h.opens⟩

/-! ### Callbacks -/

/-- A callback that moves the view along. -/
theorem callOut {s' : TickState 32} (h : TickAt t o s w) {sel : LpmsOps X → Option (X → X)} (e : Ev)
    (habsent : o.bind sel = none → s' = s)
    (hs : ∀ f, o.bind sel = some f → s'.Opens (disables o) (enables o) (t.view (f w.plat))) :
    TickAt t o s' (w.callOut sel e) := by
  have hops := h.ops
  unfold World.callOut
  split
  · rename_i hnone
    rw [habsent (hops ▸ hnone)]
    exact h
  · rename_i f hf
    exact ⟨hops, hs f (hops ▸ hf)⟩

theorem callOut_keep (h : TickAt t o s w) {sel : LpmsOps X → Option (X → X)} (e : Ev)
    (hs : ∀ f, o.bind sel = some f → ∀ x, t.view (f x) = t.view x) :
    TickAt t o s (w.callOut sel e) :=
  h.callOut e (fun _ => rfl) fun f hf => (hs f hf w.plat).symm ▸ h.opens

theorem query_keep (h : TickAt t o s w) {sel : LpmsOps X → Option (X → U32 × X)} (e : U32 → Ev)
    (d : U32) (hs : ∀ f, o.bind sel = some f → ∀ x, t.view (f x).2 = t.view x) :
    TickAt t o s (w.query sel e d).2 := by
  unfold World.query
  split
  · exact h
  · rename_i f hf
    exact (h.emit _).plat (hs f (h.ops ▸ hf))

section Meets

variable (hp : t.Meets o)
include hp

theorem getTick (h : TickAt t o s w) : TickAt t o s w.pmGetTick.2 :=
  h.query_keep _ _ fun f hf x => (hp.systickGet f hf x).1

theorem nextTimeout (h : TickAt t o s w) : TickAt t o s w.pmNextTimeout.2 :=
  h.query_keep _ _ hp.systickNextTimeout

theorem lptimerNextTimeout (h : TickAt t o s w) : TickAt t o s w.lptimerNextTimeout.2 :=
  h.query_keep _ _ hp.lptimNextTimeout

theorem lptimerGetTimeout (h : TickAt t o s w) : TickAt t o s w.lptimerGetTimeout.2 :=
  h.query_keep _ _ hp.lptimGetTick

theorem lptimerStop (h : TickAt t o s w) : TickAt t o s w.lptimerStop :=
  h.callOut_keep _ hp.lptimStop

theorem sleep (h : TickAt t o s w) (m : U8) : TickAt t o s (w.pmSleep m) :=
  h.callOut_keep _ (hp.sleep m)

theorem setFreq (h : TickAt t o s w) (site : FreqSite) (m : U8) :
    TickAt t o s (w.pmSetFreq site m) :=
  h.callOut_keep _ (hp.setFreq m)

/-- Starting the low-power timer may stop the machine. -/
theorem lptimerStart (h : TickAt t o s w) (n : U32) :
    TickAt t o (s.stop ((o.bind (·.lptimStart)).isSome && t.stops n)) (w.lptimerStart n) := by
  rw [← isSome_bind_map (·.lptimStart) n]
  refine h.callOut _ (fun hnone => ?_) fun f hf => ?_
  · rw [hnone]
    exact s.stop_false
  · rw [hf, hp.lptimStart n f hf]
    exact h.opens.stop

/-- Setting the tick. -/
theorem setTick (hs : s.Settled (disables o) (enables o)) (h : TickAt t o s w) (n : U32) :
    TickAt t o (if (o.bind (·.systickSet)).isSome then s.setTick t.pends n else s)
      (w.pmSetTick n) := by
  rw [← isSome_bind_map (·.systickSet) n]
  refine h.callOut _ (fun hnone => ?_) fun f hf => ?_
  · rw [hnone]
    rfl
  · rw [hf, hp.systickSet n f hf _ (h.opens.served hs.served)]
    exact h.opens.setTick hs

/-- Reading the tick. -/
theorem getTick_eq (hs : s.Settled (disables o) (enables o)) (hlive : s.halted = false)
    (h : TickAt t o s w) :
    w.pmGetTick.1 = if (o.bind (·.systickGet)).isSome then s.tick else 0 := by
  unfold pmGetTick World.query
  rw [h.ops]
  split
  · rename_i hnone
    rw [hnone]
    rfl
  · rename_i f hf
    rw [hf, ← h.opens.tick hs]
    exact (hp.systickGet f hf _).2 (h.opens.halted.trans hlive)

/-- Masking the interrupts. -/
theorem irqDisable (h : TickAt t o s w) : TickAt t o (s.inside (disables o)) w.pmIrqDisable.2 ∧
    (s.halted = false → t.level w.pmIrqDisable.1 = (disables o && s.masked)) := by
  have hops := h.ops
  unfold pmIrqDisable query
  rw [hops]
  split
  · rename_i hnone
    have hd : disables o = false := by
      unfold disables
      rw [hnone]
      rfl
    rw [hd]
    exact ⟨h, fun _ => hp.irqDisable_absent hnone⟩
  · rename_i f hf
    have hd : disables o = true := by
      unfold disables
      rw [hf]
      rfl
    -- the table masks, so no section could only unmask
    have hview : t.view w.plat = s := by
      rcases h.opens with heq | ⟨hd', -⟩
      · exact heq
      · exact absurd (hd.symm.trans hd') Bool.noConfusion
    obtain ⟨hmask, hlevel⟩ := hp.irqDisable f hf w.plat
    rw [hview] at hmask hlevel
    rw [hd]
    exact ⟨⟨hops, .inl hmask⟩, hlevel⟩

/-- Putting a level back. -/
theorem irqEnable_view (ho : w.ops = o) (level : U32) : t.view (w.pmIrqEnable level).plat =
    if enables o then (t.view w.plat).unmask (t.level level) else t.view w.plat := by
  have hen : enables o = (o.bind fun o => o.irqEnable.map (· level)).isSome :=
    (isSome_bind_map (·.irqEnable) level).symm
  unfold pmIrqEnable World.callOut
  rw [hen, ho]
  split
  · rename_i hnone
    rw [hnone]
    rfl
  · rename_i f hf
    rw [hf]
    exact hp.irqEnable level f hf w.plat

/-- The end of a section that found the interrupts as `m`. -/
theorem irqEnable (h : TickAt t o s w) {level : U32} {m : Bool} (hlive : s.halted = false)
    (hl : t.level level = (disables o && m)) :
    t.view (w.pmIrqEnable level).plat = s.release (disables o) (enables o) m := by
  have hrel := h.opens.release (h.opens.halted.trans hlive) m
  rw [irqEnable_view hp h.ops, hl, ← hrel]
  rfl

theorem irqEnable_halted (h : TickAt t o s w) (level : U32) (hhalted : s.halted = true) :
    TickAt t o s (w.pmIrqEnable level) := by
  have hview := irqEnable_view hp h.ops level
  have hkeep : (t.view w.plat).unmask (t.level level) = t.view w.plat := by
    have hstopped : (t.view w.plat).halted = true := h.opens.halted.trans hhalted
    unfold TickState.unmask TickState.live
    rw [if_pos hstopped]
  rw [hkeep, ite_self] at hview
  exact ⟨(pmIrqEnable_ops level).trans h.ops, hview.symm ▸ h.opens⟩

/-- A section inside a pass. -/
theorem locked (hin : s.Inside (disables o)) {body : World c X → World c X}
    (hb : ∀ w, TickAt t o s w → TickAt t o s (body w)) (h : TickAt t o s w) :
    TickAt t o s (w.locked body) := by
  obtain ⟨hdis, hlevel⟩ := h.irqDisable hp
  rw [hin.eq] at hdis
  have hbody := hb _ hdis
  unfold World.locked
  dsimp only
  cases hhalted : s.halted with
  | true => exact hbody.irqEnable_halted hp _ hhalted
  | false =>
    have hview := hbody.irqEnable hp hhalted (hlevel hhalted)
    refine ⟨(pmIrqEnable_ops _).trans hbody.ops, hview ▸ ?_⟩
    exact hin.release hhalted

end Meets

end TickAt

section Pass

variable (hp : t.Meets o)
include hp

/-! ### Calls and notifications -/

/-- A call inside a pass leaves the tick alone. -/
theorem call_tick (hin : s.Inside (disables o)) (f : Call) (h : TickAt t o s w) :
    TickAt t o s (w.call f) := by
  have hbody : BodyInv (c := c) (fun _ => ()) (TickAt t o s) (TickAt t o s) :=
    { locked := fun _ _ hb hw => hw.locked hp hin hb
      getTick := fun _ hw => hw.getTick hp
      mapSt := fun _ f _ hw => hw.mapSt f
      unlocked := fun _ f _ hw => hw.mapSt f }
  have hexec : TickAt t o s ((w.emit (.enter f)).exec f) :=
    hbody.exec f (fun _ _ _ => rfl) (fun _ m _ _ _ _ _ hw => (hw.setFreq hp _ m).mapSt _) (h.emit _)
  exact hexec.emit _

theorem act_tick (hin : s.Inside (disables o)) (hh : t.Hooks env) {l : HookList} {x : HookId} {m : U8}
    {w₀ : World c X} {a : HookAct X} (ha : a ∈ env.body l x m w₀) (h : TickAt t o s w) :
    TickAt t o s (w.act a) := by
  cases a with
  | call f => exact call_tick hp hin f h
  | plat f => exact h.plat (hh _ _ _ _ f ha)

theorem notify_tick (hin : s.Inside (disables o)) (hh : t.Hooks env) (l : HookList) (m : U8)
    (h : TickAt t o s w) : TickAt t o s (w.notify env l m) :=
  notify_keeps (fun _ _ _ _ ha _ hw => act_tick hp hin hh ha hw) (fun _ _ _ hw => hw.emit _) h

theorem pmFreqHandle_tick (hin : s.Inside (disables o)) (hh : t.Hooks env) (h : TickAt t o s w) :
    TickAt t o s (w.pmFreqHandle env) :=
  freqHandle_keeps (fun _ hw => hw.emit _) (fun _ _ hw => hw.mapSt _)
    (fun _ _ hw => (hw.setFreq hp _ _).mapSt _) (fun _ _ _ _ ha _ hw => act_tick hp hin hh ha hw)
    (fun _ _ _ _ hw => hw.emit _) h

end Pass

/-- Calls outside a pass keep the platform settled. -/
theorem call_settled (hp : t.Meets o) (f : Call) (h : w.ops = o ∧ t.Settled o w.plat) :
    (w.call f).ops = o ∧ t.Settled o (w.call f).plat := by
  have hdis : ∀ w : World c X, w.ops = o ∧ t.Settled o w.plat →
      w.pmIrqDisable.2.ops = o ∧ t.Settled o w.pmIrqDisable.2.plat := by
    rintro w ⟨ho, hs⟩
    refine ⟨pmIrqDisable_ops.trans ho, ?_⟩
    have hinside := ((⟨ho, .inl rfl⟩ : TickAt t o (t.view w.plat) w).irqDisable hp).1.opens
    exact hinside.settled hs.inside
  have hen : ∀ (w : World c X) level, w.ops = o ∧ t.Settled o w.plat →
      (w.pmIrqEnable level).ops = o ∧ t.Settled o (w.pmIrqEnable level).plat := by
    rintro w level ⟨ho, hs⟩
    refine ⟨(pmIrqEnable_ops level).trans ho, ?_⟩
    unfold TickPort.Settled
    rw [TickAt.irqEnable_view hp ho]
    split_ifs
    · exact hs.unmask _
    · exact hs
  have hkeep : ∀ {w w' : World c X}, (w.ops = o ∧ t.Settled o w.plat) →
      (TickAt t o (t.view w.plat) w → TickAt t o (t.view w.plat) w') →
      w'.ops = o ∧ t.Settled o w'.plat := by
    rintro w w' ⟨ho, hs⟩ hstep
    obtain ⟨ho', hopens⟩ := hstep ⟨ho, .inl rfl⟩
    exact ⟨ho', hopens.settled hs⟩
  have hbody : BodyInv (c := c) (fun _ => ()) (fun w => w.ops = o ∧ t.Settled o w.plat)
      (fun w => w.ops = o ∧ t.Settled o w.plat) :=
    { locked := fun _ _ hb hw => hen _ _ (hb _ (hdis _ hw))
      getTick := fun _ hw => hkeep hw fun h => h.getTick hp
      mapSt := fun _ _ _ hw => hw
      unlocked := fun _ _ _ hw => hw }
  exact hbody.exec f (fun _ _ _ => rfl)
    (fun _ m _ _ _ w _ hw => hkeep hw fun h => (h.setFreq hp _ m).mapSt _)
    (w := w.emit (.enter f)) h

end World
end LowPower
