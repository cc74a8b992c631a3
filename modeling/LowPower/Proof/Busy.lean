import LowPower.Lib.Window
import LowPower.Proof.Frame
import LowPower.Spec.Driver

/-!
# Busy windows

A module is busy while its stored deadline lies ahead of the tick. `BusyHist` is the
caller's view: for each module the window its last accepted call opened, and how many ticks
have passed since. A run of `pm_busy_set`, `pm_busy_clear` and tick advances keeps each stored
deadline equal to the end of the window modulo 2^32 (`Tracks.step`), so `pm_check_busy` compares
as `Window` says: exact on one side of the wrap of the tick, wrong across it
(`pmCheckBusy_exact_iff`).
-/

namespace LowPower

variable {c : Config} {X : Type}

/-- A platform with a free-running tick `clk` while `ok`: `systick_get` reads it, and it stands still
until the interrupts are put back, when a SysTick that waited may count. -/
structure LpmsOps.Ticks (ops : LpmsOps X) (clk : X → U32) (ok : X → Prop) : Prop where
  get : ∃ g, ops.systickGet = some g ∧
    ∀ x, ok x → (g x).1 = clk x ∧ clk (g x).2 = clk x ∧ ok (g x).2
  irqDisable : ∀ f, ops.irqDisable = some f → ∀ x, ok x → clk (f x).2 = clk x ∧ ok (f x).2
  irqEnable : ∀ f, ops.irqEnable = some f → ∀ level x, ok x → ok (f level x)

/-- The driver's tick runs freely until the machine stops. -/
theorem pmOps_ticks (b : Board) : (pmOps b).Ticks (·.rtTick) (·.halted = false) where
  get := by
    refine ⟨_, rfl, fun hw hlive => ?_⟩
    unfold Hw.liveGet
    rw [if_neg (hlive ▸ Bool.false_ne_true)]
    exact ⟨rfl, rfl, hlive⟩
  irqDisable := by
    rintro f ⟨⟩ hw hlive
    unfold Hw.liveGet
    rw [if_neg (hlive ▸ Bool.false_ne_true)]
    exact ⟨rfl, hlive⟩
  irqEnable := by
    rintro f ⟨⟩ level hw hlive
    show (hw.live (Hw.rtHwInterruptEnable b level)).halted = false
    unfold Hw.live Hw.rtHwInterruptEnable Hw.takeSysTick
    split_ifs <;> exact hlive

/-- The steps of a run that only uses busy windows. -/
inductive BusyOp (clk : X → U32) (ok : X → Prop) where
  | pmBusySet (moduleId : U16) (ticks : U32)
  | pmBusyClear (moduleId : U16)
  | advance (d : ℕ) (f : X → X) (hf : ∀ x, ok x → clk (f x) = clk x + BitVec.ofNat 32 d ∧ ok (f x))

/-- The tick and, for each module, the window opened by its last call. -/
structure BusyHist where
  now : U32
  last : ℕ → Option Window

/-- A module and a length that `pm_busy_set` accepts. -/
abbrev BusyArgs (c : Config) (k : U16) (n : U32) : Prop :=
  k.toNat < c.pmBusyModuleMax ∧ 1 ≤ n ∧ n < pmTickMax / 2

/-- The last call on module `k` left the window `v`, or none. -/
def BusyHist.put (a : BusyHist) (k : ℕ) (v : Option Window) : BusyHist :=
  { a with last := Function.update a.last k v }

@[simp] theorem BusyHist.put_last (a : BusyHist) (k : ℕ) (v : Option Window) :
    (a.put k v).last k = v := by
  simp [BusyHist.put]

theorem BusyHist.put_last_of_ne (a : BusyHist) {j k : ℕ} (h : j ≠ k) (v : Option Window) :
    (a.put k v).last j = a.last j := by
  simp [BusyHist.put, h]

/-- `d` ticks pass. -/
def BusyHist.advance (a : BusyHist) (d : ℕ) : BusyHist where
  now := a.now + BitVec.ofNat 32 d
  last k := (a.last k).map fun v => { v with age := v.age + d }

/-- One step, after which the tick is `now`: a call may let in a SysTick that waited. -/
def BusyHist.step (c : Config) {clk : X → U32} {ok : X → Prop} (a : BusyHist) (now : U32) :
    BusyOp clk ok → BusyHist
  | .pmBusySet k n =>
    (if BusyArgs c k n then a.put k.toNat (some ⟨a.now.toNat, n.toNat, 0⟩) else a).advance
      (now - a.now).toNat
  | .pmBusyClear k =>
    (if k.toNat < c.pmBusyModuleMax then a.put k.toNat none else a).advance (now - a.now).toNat
  | .advance d _ _ => a.advance d

/-- The deadline stored for a module. -/
def deadline : Option Window → ℕ
  | none => 0
  | some v => (v.start + v.len) % 2 ^ 32

namespace World

variable {w : World c X} {clk : X → U32} {ok : X → Prop} {ops : LpmsOps X}

def busyStep (w : World c X) : BusyOp clk ok → World c X
  | .pmBusySet k n => w.pmBusySet k n
  | .pmBusyClear k => w.pmBusyClear k
  | .advance _ f _ => { w with plat := f w.plat }

/-- The system and the caller's view of it, step by step. -/
def busyRun (r : World c X × BusyHist) (e : BusyOp clk ok) : World c X × BusyHist :=
  (r.1.busyStep e, r.2.step c (clk (r.1.busyStep e).plat) e)

/-! ## Reading the tick -/

theorem pmGetTick_ticks (ht : ops.Ticks clk ok) (ho : w.ops = some ops) (hok : ok w.plat) :
    w.pmGetTick.1 = clk w.plat ∧ clk w.pmGetTick.2.plat = clk w.plat ∧ ok w.pmGetTick.2.plat := by
  obtain ⟨g, hg, hclk⟩ := ht.get
  unfold pmGetTick query
  rw [show w.ops.bind (·.systickGet) = some g by rw [ho]; exact hg]
  exact hclk w.plat hok

theorem pmIrqDisable_ticks (ht : ops.Ticks clk ok) (ho : w.ops = some ops) (hok : ok w.plat) :
    clk w.pmIrqDisable.2.plat = clk w.plat ∧ ok w.pmIrqDisable.2.plat := by
  unfold pmIrqDisable query
  split
  · exact ⟨rfl, hok⟩
  · rename_i f hf
    rw [ho] at hf
    exact ht.irqDisable f hf w.plat hok

theorem pmIrqEnable_ticks (ht : ops.Ticks clk ok) (ho : w.ops = some ops) (hok : ok w.plat)
    (level : U32) : ok (w.pmIrqEnable level).plat := by
  unfold pmIrqEnable callOut
  split
  · exact hok
  · rename_i f hf
    rw [ho] at hf
    obtain ⟨f', hf', rfl⟩ := Option.map_eq_some_iff.1 hf
    exact ht.irqEnable f' hf' level w.plat hok

/-- **The check finds a module whose deadline lies ahead of the tick.** -/
theorem pmCheckBusy_iff (ht : ops.Ticks clk ok) (ho : w.ops = some ops) (hok : ok w.plat) :
    w.pmCheckBusy.1 = pmFlagBusy ↔
      ∃ k : Fin c.pmBusyModuleMax, clk w.plat < w.st.timeout[k] := by
  refine checkBusy_iff (P := fun w' => w'.ops = some ops ∧ ok w'.plat ∧ clk w'.plat = clk w.plat ∧
    w'.st.timeout = w.st.timeout) ?_ (fun _ h => h.2.2.2) ⟨ho, hok, rfl, rfl⟩
  rintro w' ⟨ho', hok', hclk, hst⟩
  obtain ⟨hnow, hkeep, hnext⟩ := pmGetTick_ticks ht ho' hok'
  exact ⟨hnow.trans hclk, pmGetTick_ops.trans ho', hnext, hkeep.trans hclk,
    (congrArg Lpms.timeout pmGetTick_st).trans hst⟩

/-! ## The stored deadlines follow the windows -/

/-- The state agrees with the caller's view. -/
structure Tracks (ops : LpmsOps X) (clk : X → U32) (ok : X → Prop) (w : World c X) (a : BusyHist) :
    Prop where
  table : w.ops = some ops
  ok : ok w.plat
  now : clk w.plat = a.now
  stored : ∀ k : Fin c.pmBusyModuleMax, w.st.timeout[k].toNat = deadline (a.last k)
  module : ∀ k v, a.last k = some v → k < c.pmBusyModuleMax
  window : ∀ k v, a.last k = some v → v.start < 2 ^ 32 ∧ 2 * v.len < 2 ^ 32 ∧
    (v.start + v.age) % 2 ^ 32 = a.now.toNat

/-- Time passes. -/
theorem Tracks.advance {a : BusyHist} (h : Tracks ops clk ok w a) {w' : World c X} {d : ℕ}
    (htable : w'.ops = some ops) (hok : ok w'.plat) (hst : w'.st.timeout = w.st.timeout)
    (hnow : clk w'.plat = clk w.plat + BitVec.ofNat 32 d) : Tracks ops clk ok w' (a.advance d) := by
  have hlast : ∀ k u, (a.last k).map (fun v => { v with age := v.age + d }) = some u →
      ∃ v, a.last k = some v ∧ u = { v with age := v.age + d } := by
    intro k u hu
    obtain ⟨v, hv, rfl⟩ := Option.map_eq_some_iff.1 hu
    exact ⟨v, hv, rfl⟩
  refine ⟨htable, hok, ?_, fun k => ?_, fun k u hu => ?_, fun k u hu => ?_⟩
  · exact hnow.trans (by rw [h.now]; rfl)
  · rw [hst]
    refine (h.stored k).trans ?_
    show deadline (a.last k) = deadline ((a.last k).map _)
    cases a.last k <;> rfl
  · obtain ⟨v, hv, -⟩ := hlast k u hu
    exact h.module k v hv
  · obtain ⟨v, hv, rfl⟩ := hlast k u hu
    obtain ⟨h1, h2, h3⟩ := h.window k v hv
    refine ⟨h1, h2, ?_⟩
    show (v.start + (v.age + d)) % 2 ^ 32 = (a.now + BitVec.ofNat 32 d).toNat
    rw [BitVec.toNat_add, BitVec.toNat_ofNat, ← h3]
    omega

/-- The end of a call, which may let in a SysTick that waited. -/
theorem Tracks.finish {a : BusyHist} (h : Tracks ops clk ok w a) {w' : World c X}
    (htable : w'.ops = some ops) (hok : ok w'.plat) (hst : w'.st.timeout = w.st.timeout) :
    Tracks ops clk ok w' (a.advance (clk w'.plat - a.now).toNat) := by
  refine h.advance htable hok hst ?_
  rw [h.now, BitVec.ofNat_toNat, BitVec.setWidth_eq, BitVec.add_comm, BitVec.sub_add_cancel]

/-- What an accepted `pm_busy_set` or `pm_busy_clear` stores. -/
theorem Tracks.store {a : BusyHist} (h : Tracks ops clk ok w a) {w' : World c X}
    {k : Fin c.pmBusyModuleMax} {t : U32} {v : Option Window} (htable : w'.ops = some ops)
    (hok : ok w'.plat) (hnow : clk w'.plat = clk w.plat) (hst : w'.st.timeout = w.st.timeout.set k t)
    (ht : t.toNat = deadline v) (hv : ∀ u, v = some u → u.start < 2 ^ 32 ∧ 2 * u.len < 2 ^ 32 ∧
      (u.start + u.age) % 2 ^ 32 = a.now.toNat) :
    Tracks ops clk ok w' (a.put k v) := by
  refine ⟨htable, hok, hnow.trans h.now, fun j => ?_, fun j u hu => ?_, fun j u hu => ?_⟩
  · rw [hst]
    by_cases hj : j = k
    · subst hj
      simp [ht]
    · have hne : (j : ℕ) ≠ k := fun he => hj (Fin.ext he)
      rw [a.put_last_of_ne hne, ← h.stored j]
      simp [Vector.getElem_set_ne, Ne.symm hne]
  · by_cases hj : j = k
    · subst hj
      exact k.isLt
    · rw [a.put_last_of_ne hj] at hu
      exact h.module j u hu
  · by_cases hj : j = k
    · subst hj
      rw [BusyHist.put_last] at hu
      exact hv u hu
    · rw [a.put_last_of_ne hj] at hu
      exact h.window j u hu

theorem Tracks.pmBusySet (ht : ops.Ticks clk ok) {a : BusyHist} (h : Tracks ops clk ok w a) (k : U16)
    (n : U32) : Tracks ops clk ok (w.pmBusySet k n)
      (a.step c (clk (w.pmBusySet k n).plat) (.pmBusySet k n : BusyOp clk ok)) := by
  simp only [BusyHist.step]
  have hmax : (pmTickMax / 2).toNat = 2147483647 := by decide
  by_cases hargs : BusyArgs c k n
  · obtain ⟨hk, h1, h2⟩ := hargs
    have hn1 : 1 ≤ n.toNat := h1
    have hn2 : n.toNat < 2147483647 := hmax ▸ (show n.toNat < (pmTickMax / 2).toNat from h2)
    have hrange : ¬ (n < 1 ∨ pmTickMax / 2 ≤ n) := by
      rw [not_or, BitVec.not_lt, BitVec.not_le]
      exact ⟨h1, h2⟩
    rw [if_pos ⟨hk, h1, h2⟩]
    -- interrupts off, the tick read, the deadline stored, interrupts on
    have hw : w.pmBusySet k n = (w.pmIrqDisable.2.pmGetTick.2.mapSt fun s =>
        { s with timeout := s.timeout.set k.toNat (w.pmIrqDisable.2.pmGetTick.1 + n) }).pmIrqEnable
          w.pmIrqDisable.1 := by
      unfold World.pmBusySet
      rw [dif_neg (by omega), if_neg hrange]
      rfl
    obtain ⟨hd, hdok⟩ := pmIrqDisable_ticks ht h.table h.ok
    have hdo : w.pmIrqDisable.2.ops = some ops := by rw [pmIrqDisable_ops, h.table]
    obtain ⟨hg, hgk, hgok⟩ := pmGetTick_ticks ht hdo hdok
    have hgo : w.pmIrqDisable.2.pmGetTick.2.ops = some ops := by rw [pmGetTick_ops, hdo]
    have hput : Tracks ops clk ok (w.pmIrqDisable.2.pmGetTick.2.mapSt fun s =>
        { s with timeout := s.timeout.set k.toNat (w.pmIrqDisable.2.pmGetTick.1 + n) })
        (a.put k.toNat (some ⟨a.now.toNat, n.toNat, 0⟩)) := by
      refine h.store (k := ⟨k.toNat, hk⟩) (t := a.now + n) hgo hgok (hgk.trans hd) ?_ ?_ ?_
      · rw [mapSt_st, pmGetTick_st, pmIrqDisable_st, hg, hd, h.now]
      · rw [BitVec.toNat_add]
        rfl
      · rintro u ⟨⟩
        have := a.now.isLt
        exact ⟨this, by dsimp only; omega, Nat.mod_eq_of_lt this⟩
    rw [hw]
    exact hput.finish ((pmIrqEnable_ops _).trans hput.table) (pmIrqEnable_ticks ht hput.table hput.ok _)
      (congrArg Lpms.timeout (pmIrqEnable_st _))
  · have hsame : w.pmBusySet k n = w := by
      unfold World.pmBusySet
      split_ifs with hk hn
      · rfl
      · rfl
      · rw [not_or, BitVec.not_lt, BitVec.not_le] at hn
        exact absurd ⟨by omega, hn.1, hn.2⟩ hargs
    rw [if_neg hargs, hsame]
    exact h.finish h.table h.ok rfl

theorem Tracks.pmBusyClear (ht : ops.Ticks clk ok) {a : BusyHist} (h : Tracks ops clk ok w a)
    (k : U16) : Tracks ops clk ok (w.pmBusyClear k)
      (a.step c (clk (w.pmBusyClear k).plat) (.pmBusyClear k : BusyOp clk ok)) := by
  simp only [BusyHist.step]
  by_cases hk : k.toNat < c.pmBusyModuleMax
  · have hw : w.pmBusyClear k = (w.pmIrqDisable.2.mapSt fun s =>
        { s with timeout := s.timeout.set k.toNat 0 }).pmIrqEnable w.pmIrqDisable.1 := by
      unfold World.pmBusyClear
      rw [dif_neg (by omega)]
      rfl
    have hdo : w.pmIrqDisable.2.ops = some ops := by rw [pmIrqDisable_ops, h.table]
    obtain ⟨hd, hdok⟩ := pmIrqDisable_ticks ht h.table h.ok
    have hput : Tracks ops clk ok (w.pmIrqDisable.2.mapSt fun s =>
        { s with timeout := s.timeout.set k.toNat 0 }) (a.put k.toNat none) := by
      refine h.store (k := ⟨k.toNat, hk⟩) (t := 0) (v := none) hdo hdok hd ?_ rfl (by rintro u ⟨⟩)
      rw [mapSt_st, pmIrqDisable_st]
    rw [if_pos hk, hw]
    exact hput.finish ((pmIrqEnable_ops _).trans hput.table) (pmIrqEnable_ticks ht hput.table hput.ok _)
      (congrArg Lpms.timeout (pmIrqEnable_st _))
  · have hsame : w.pmBusyClear k = w := by
      unfold World.pmBusyClear
      rw [dif_pos (by omega)]
    rw [if_neg hk, hsame]
    exact h.finish h.table h.ok rfl

/-- **Step lemma.** Each step keeps the stored deadlines equal to the ends of the windows. -/
theorem Tracks.step (ht : ops.Ticks clk ok) {a : BusyHist} (h : Tracks ops clk ok w a)
    (e : BusyOp clk ok) : Tracks ops clk ok (busyRun (w, a) e).1 (busyRun (w, a) e).2 := by
  cases e with
  | pmBusySet k n => exact h.pmBusySet ht k n
  | pmBusyClear k => exact h.pmBusyClear ht k
  | advance d f hf =>
    obtain ⟨hnow, hok⟩ := hf w.plat h.ok
    exact h.advance h.table hok rfl hnow

theorem Tracks.run (ht : ops.Ticks clk ok) {r : World c X × BusyHist} (h : Tracks ops clk ok r.1 r.2)
    (es : List (BusyOp clk ok)) : Tracks ops clk ok (es.foldl busyRun r).1 (es.foldl busyRun r).2 := by
  induction es generalizing r with
  | nil => exact h
  | cons e es ih => exact ih (h.step ht e)

theorem Tracks.start (c : Config) (ops : LpmsOps X) (clk : X → U32) {ok : X → Prop} (f0 : U8) {x : X}
    (hx : ok x) : Tracks ops clk ok (start c ops f0 x) ⟨clk x, fun _ => none⟩ where
  table := rfl
  ok := hx
  now := rfl
  stored k := by
    show (Vector.replicate c.pmBusyModuleMax (0 : U32))[k].toNat = 0
    simp
  module k v hv := nomatch hv
  window k v hv := nomatch hv

/-- **When the busy windows are exact.** Over any run from `lpms_init` on a platform with a
free-running tick, checked less than 2^31 ticks after each module's last `pm_busy_set`: a module
keeps the system busy exactly while its window is open, if and only if the end of the window and
the check lie on the same side of the wrap of the tick; and `pm_check_busy` says whether some
window is open if and only if all windows lie on the side of the check, or one that does is
open. -/
theorem pmCheckBusy_exact_iff (c : Config) (ops : LpmsOps X) (clk : X → U32) (ok : X → Prop)
    (ht : ops.Ticks clk ok) (f0 : U8) (x : X) (hx : ok x) (es : List (BusyOp clk ok)) :
    let r := es.foldl busyRun (start c ops f0 x, ⟨clk x, fun _ => none⟩)
    let w := r.1
    let last := r.2.last
    (∀ k v, last k = some v → v.age < 2 ^ 31) →
      (∀ (k : Fin c.pmBusyModuleMax) v, last k = some v →
        ((clk w.plat < w.st.timeout[k] ↔ v.age < v.len) ↔
          (v.start + v.len < 2 ^ 32 ↔ v.start + v.age < 2 ^ 32))) ∧
      ((w.pmCheckBusy.1 = pmFlagBusy ↔ ∃ k v, last k = some v ∧ v.age < v.len) ↔
        (∃ k v, last k = some v ∧ (v.start + v.len < 2 ^ 32 ↔ v.start + v.age < 2 ^ 32) ∧
          v.age < v.len) ∨
        ∀ k v, last k = some v → (v.start + v.len < 2 ^ 32 ↔ v.start + v.age < 2 ^ 32)) := by
  intro r w last hage
  have h : Tracks ops clk ok w r.2 := (Tracks.start c ops clk f0 hx).run ht es
  -- each window reads the tick at its age
  have hreads : ∀ k v, last k = some v → v.Reads (2 ^ 32) (clk w.plat).toNat := by
    intro k v hv
    obtain ⟨h1, h2, h3⟩ := h.window k v hv
    have := hage k v hv
    exact ⟨h1, h2, by omega, h3.trans (by rw [h.now])⟩
  -- the comparison of the code is that of the window
  have hcmp : ∀ (k : Fin c.pmBusyModuleMax), clk w.plat < w.st.timeout[k] ↔
      ∃ v, last k = some v ∧ (clk w.plat).toNat < (v.start + v.len) % 2 ^ 32 := by
    intro k
    rw [BitVec.lt_def, h.stored k]
    show _ < deadline (last k) ↔ _
    cases hl : last k with
    | none => simp [deadline]
    | some v => simp [deadline]
  constructor
  · intro k v hv
    refine Iff.trans ?_ (Window.compare_exact_iff (hreads k v hv))
    rw [hcmp k, hv]
    simp only [Option.some.injEq, exists_eq_left']
    rfl
  · have hall : ∀ v ∈ {v | ∃ k, last k = some v}, v.Reads (2 ^ 32) (clk w.plat).toNat := by
      rintro v ⟨k, hv⟩
      exact hreads k v hv
    -- for all windows at once
    have hany := Window.any_compare_iff hall
    have hbusy : w.pmCheckBusy.1 = pmFlagBusy ↔
        ∃ v ∈ {v | ∃ k, last k = some v}, (clk w.plat).toNat < (v.start + v.len) % 2 ^ 32 := by
      rw [pmCheckBusy_iff ht h.table h.ok]
      constructor
      · rintro ⟨k, hk⟩
        obtain ⟨v, hv, hlt⟩ := (hcmp k).1 hk
        exact ⟨v, ⟨k, hv⟩, hlt⟩
      · rintro ⟨v, ⟨k, hv⟩, hlt⟩
        exact ⟨⟨k, h.module k v hv⟩, (hcmp _).2 ⟨v, hv, hlt⟩⟩
    have hsome : ∀ P : Window → Prop, (∃ v ∈ {v | ∃ k, last k = some v}, P v) ↔
        ∃ k v, last k = some v ∧ P v := by
      intro P
      constructor
      · rintro ⟨v, ⟨k, hv⟩, hp⟩
        exact ⟨k, v, hv, hp⟩
      · rintro ⟨k, v, hv, hp⟩
        exact ⟨v, ⟨k, hv⟩, hp⟩
    have hside : (∀ v ∈ {v | ∃ k, last k = some v}, v.SameSide (2 ^ 32)) ↔
        ∀ k v, last k = some v → v.SameSide (2 ^ 32) :=
      ⟨fun h k v hv => h v ⟨k, hv⟩, fun h v ⟨k, hv⟩ => h k v hv⟩
    rw [← hbusy, hside, hsome, hsome] at hany
    exact hany

/-- Over the driver: set at tick 100 for 10 ticks while a SysTick waits, and checked 9 ticks later,
far from the wrap: busy. -/
theorem pmCheckBusy_exact_before_wrap :
    let es : List (BusyOp Hw.rtTick (·.halted = false)) :=
      [.pmBusySet 0 10, .advance 8 (fun hw => { hw with rtTick := hw.rtTick + 8 }) fun _ h => ⟨rfl, h⟩]
    let w := start Config.shipped (pmOps .still) pmFreqHigh { Hw.boot 100 [] with pendst := true }
    (es.foldl busyRun (w, ⟨100, fun _ => none⟩)).1.pmCheckBusy.1 = pmFlagBusy := by
  intro es w
  have hlast : ∀ k v, (es.foldl busyRun (w, ⟨100, fun _ => none⟩)).2.last k = some v →
      k = 0 ∧ v = ⟨100, 10, 9⟩ := by
    intro k v hv
    rcases k with _ | k
    · -- one tick at the unmask, then eight
      have hage : 0 + ((w.pmBusySet 0 10).plat.rtTick - 100).toNat + 8 = 9 := by decide +kernel
      exact ⟨rfl, (Option.some.inj hv).symm.trans (congrArg (Window.mk 100 10) hage)⟩
    · exact nomatch hv
  have h := pmCheckBusy_exact_iff Config.shipped (pmOps .still) Hw.rtTick (·.halted = false)
    (pmOps_ticks .still) pmFreqHigh { Hw.boot 100 [] with pendst := true } rfl es
    (fun k v hv => by rw [(hlast k v hv).2]; decide)
  refine (h.2.2 (.inr fun k v hv => ?_)).2 ⟨0, ⟨100, 10, 9⟩, rfl, by decide⟩
  rw [(hlast k v hv).2]
  decide

/-- Set at the last tick before the wrap for one tick: the deadline is stored as 0 and the
module is not busy at all. Set nine ticks before the wrap for five, and checked after it: the
window is closed and the module is busy. -/
theorem pmCheckBusy_wrong_across_wrap :
    let set := (start Config.shipped .clock pmFreqHigh 0xffffffff).pmBusySet 0 1
    let late := ((start Config.shipped .clock pmFreqHigh 0xfffffff6).pmBusySet 0 5).busyStep
      (.advance 12 (· + 12) (fun _ _ => ⟨rfl, trivial⟩) : BusyOp id fun _ => True)
    ¬ (set.pmCheckBusy.1 = pmFlagBusy ↔ 0 < 1) ∧ ¬ (late.pmCheckBusy.1 = pmFlagBusy ↔ 12 < 5) := by
  decide +kernel

end World
end LowPower
