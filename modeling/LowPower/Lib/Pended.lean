import Mathlib.Data.Bool.Basic
import Mathlib.Data.Nat.Notation
import Mathlib.Tactic.SplitIfs

/-!
# A tick behind the interrupt mask

A tick is counted by an interrupt, which waits while the interrupts are masked and counts once when
they come on. Code that sets the tick in a masked section may pend the interrupt as well.

Sections nest, and either half of one may be missing: `Opens` is what sections that can only unmask
leave, `release` the end of a section. A section that masks and lets nothing in keeps the tick
(`release_inside`); one that sets the tick and pends an interrupt is one ahead where the interrupt
comes on by its end (`release_set`).
-/

namespace LowPower

/-- The tick, whether the interrupts are masked and an interrupt is pending, and whether the machine
has stopped. -/
structure TickState (len : ℕ) where
  tick : BitVec len
  masked : Bool
  pending : Bool
  halted : Bool
deriving DecidableEq

namespace TickState

variable {len : ℕ} {dis en pends b : Bool} {n : BitVec len} {s s' : TickState len}

/-- A pending interrupt counts as soon as the interrupts are on. -/
def serve (s : TickState len) : TickState len :=
  if s.pending ∧ ¬s.masked then { s with tick := s.tick + 1, pending := false } else s

/-- A machine that has stopped does nothing more. -/
def live (f : TickState len → TickState len) (s : TickState len) : TickState len :=
  if s.halted then s else f s

def mask (s : TickState len) : TickState len := s.live fun s => { s with masked := true }

def unmask (m : Bool) (s : TickState len) : TickState len :=
  s.live fun s => { s with masked := m }.serve

/-- The tick is set, and an interrupt pended if `pends`. -/
def setTick (pends : Bool) (n : BitVec len) (s : TickState len) : TickState len :=
  s.live fun s => { s with tick := n, pending := s.pending || pends }.serve

def stop (b : Bool) (s : TickState len) : TickState len := s.live fun s => { s with halted := b }

/-- In a section that starts by masking the interrupts. -/
def inside (dis : Bool) (s : TickState len) : TickState len := if dis then s.mask else s

theorem stop_false (s : TickState len) : s.stop false = s := by
  obtain ⟨tick, masked, pending, halted⟩ := s
  cases halted <;> rfl

theorem stop_halted (b : Bool) (s : TickState len) : (s.stop b).halted = (s.halted || b) := by
  obtain ⟨tick, masked, pending, halted⟩ := s
  cases halted <;> rfl

theorem serve_halted (s : TickState len) : s.serve.halted = s.halted := by
  unfold serve
  split_ifs <;> rfl

theorem serve_pending (h : s.pending = false) : s.serve.pending = false := by
  unfold serve
  split_ifs
  · rfl
  · exact h

theorem halted_setTick (n : BitVec len) : (s.setTick pends n).halted = s.halted := by
  unfold setTick live
  split_ifs
  · rfl
  · exact serve_halted _

theorem setTick_halted (h : s.halted = true) : s.setTick pends n = s := if_pos h

theorem inside_tick (dis : Bool) (s : TickState len) : (s.inside dis).tick = s.tick := by
  obtain ⟨tick, masked, pending, halted⟩ := s
  cases dis <;> cases halted <;> rfl

theorem inside_halted (dis : Bool) (s : TickState len) : (s.inside dis).halted = s.halted := by
  obtain ⟨tick, masked, pending, halted⟩ := s
  cases dis <;> cases halted <;> rfl

/-- Nothing is pending while the interrupts are on. -/
def Served (s : TickState len) : Prop := s.pending = true → s.masked = true

/-! ## Sections

`dis` and `en` say whether a section can mask the interrupts, and put the mask back. -/

/-- Between sections: where they can only unmask, no interrupt waits. -/
structure Settled (dis en : Bool) (s : TickState len) : Prop where
  served : s.Served
  waits : dis = false → en = true → s.pending = false

/-- At the end of a section that found the interrupts as `m`. -/
def release (dis en m : Bool) (s : TickState len) : TickState len :=
  if en then s.unmask (dis && m) else s

/-- The interrupts are on. -/
def opened (s : TickState len) : TickState len := { s with masked := false }.serve

/-- `s'` is `s`, or `s` after a section that could only unmask. -/
def Opens (dis en : Bool) (s s' : TickState len) : Prop :=
  s' = s ∨ dis = false ∧ en = true ∧ s' = s.opened

/-- What is pended in a section that found the interrupts as `m` is served by its end. -/
def comesOn (dis en m : Bool) : Bool := if dis then en && !m else en || !m

theorem serve_served (s : TickState len) : s.serve.Served := by
  unfold serve
  split_ifs with h
  · exact fun hp => Bool.noConfusion hp
  · intro hp
    by_contra hm
    exact h ⟨hp, hm⟩

theorem Served.stop (h : s.Served) : (s.stop b).Served := by
  unfold TickState.stop live
  split_ifs <;> exact h

theorem Served.unmask (h : s.Served) (m : Bool) : (s.unmask m).Served := by
  unfold TickState.unmask live
  split_ifs
  · exact h
  · exact serve_served _

theorem setTick_served (h : s.Served) : (s.setTick pends n).Served := by
  unfold setTick live
  split_ifs
  · exact h
  · exact serve_served _

theorem Settled.mask (h : Settled true en s) : Settled true en s.mask := by
  refine ⟨?_, fun hd => Bool.noConfusion hd⟩
  unfold TickState.mask live
  split_ifs
  · exact h.served
  · exact fun _ => rfl

theorem Settled.inside (h : Settled dis en s) : Settled dis en (s.inside dis) := by
  cases dis with
  | false => exact h
  | true => exact h.mask

theorem Settled.unmask (h : Settled dis en s) (m : Bool) : Settled dis en (s.unmask m) := by
  refine ⟨h.served.unmask m, fun hd he => ?_⟩
  have hpending := h.waits hd he
  unfold TickState.unmask live
  split_ifs
  · exact hpending
  · exact serve_pending hpending

theorem Settled.stop (h : Settled dis en s) : Settled dis en (s.stop b) := by
  refine ⟨h.served.stop, fun hd he => ?_⟩
  have hpending := h.waits hd he
  unfold TickState.stop live
  split_ifs <;> exact hpending

/-- A section that could only unmask has served nothing. -/
theorem Opens.tick (hs : Settled dis en s) (h : Opens dis en s s') : s'.tick = s.tick := by
  rcases h with rfl | ⟨hd, he, rfl⟩
  · rfl
  · have hpending := hs.waits hd he
    simp [opened, serve, hpending]

theorem Opens.halted (h : Opens dis en s s') : s'.halted = s.halted := by
  rcases h with rfl | ⟨-, -, rfl⟩
  · rfl
  · exact serve_halted _

theorem Opens.served (hs : s.Served) (h : Opens dis en s s') : s'.Served := by
  rcases h with rfl | ⟨-, -, rfl⟩
  · exact hs
  · exact serve_served _

/-- The state inside a section. -/
def Inside (dis : Bool) (s : TickState len) : Prop := dis = true → s.halted = false → s.masked = true

theorem inside_Inside (dis : Bool) (s : TickState len) : Inside dis (s.inside dis) := by
  rintro rfl
  show s.mask.halted = false → s.mask.masked = true
  unfold mask live
  split_ifs with hhalted
  · exact fun hlive => Bool.noConfusion (hhalted.symm.trans hlive)
  · exact fun _ => rfl

theorem Inside.eq (h : Inside dis s) : s.inside dis = s := by
  obtain ⟨tick, masked, pending, halted⟩ := s
  cases dis with
  | false => rfl
  | true =>
    cases halted with
    | true => rfl
    | false => simp [inside, mask, live, show masked = true from h rfl rfl]

theorem Inside.stop (h : Inside dis s) : Inside dis (s.stop b) := by
  intro hd
  unfold TickState.stop live
  split_ifs with hhalted
  · exact h hd
  · exact fun _ => h hd (Bool.not_eq_true _ ▸ hhalted)

theorem Inside.setTick (h : Inside dis s) : Inside dis (s.setTick pends n) := by
  obtain ⟨tick, masked, pending, halted⟩ := s
  intro hd
  cases halted with
  | true => exact fun hlive => Bool.noConfusion hlive
  | false =>
    obtain rfl : masked = true := h hd rfl
    simp [TickState.setTick, live, serve]

theorem Opens.stop (h : Opens dis en s s') : Opens dis en (s.stop b) (s'.stop b) := by
  rcases h with rfl | ⟨hd, he, rfl⟩
  · exact .inl rfl
  · refine .inr ⟨hd, he, ?_⟩
    obtain ⟨tick, masked, pending, halted⟩ := s
    cases halted <;> cases pending <;> rfl

/-- Setting the tick commutes with a section that found nothing to serve. -/
theorem Opens.setTick (hs : Settled dis en s) (h : Opens dis en s s') :
    Opens dis en (s.setTick pends n) (s'.setTick pends n) := by
  rcases h with rfl | ⟨hd, he, rfl⟩
  · exact .inl rfl
  · refine .inr ⟨hd, he, ?_⟩
    have hpending := hs.waits hd he
    obtain ⟨tick, masked, pending, halted⟩ := s
    obtain rfl : pending = false := hpending
    cases masked <;> cases halted <;> cases pends <;> simp [opened, serve, TickState.setTick, live]

/-! ## The end of a section -/

/-- Whatever the section found, its end lets in what waits. -/
theorem Opens.release (hd : s'.halted = false) (h : Opens dis en s s') (m : Bool) :
    s'.release dis en m = s.release dis en m := by
  rcases h with rfl | ⟨rfl, rfl, rfl⟩
  · rfl
  · obtain ⟨tick, masked, pending, halted⟩ := s
    cases halted <;> cases pending <;>
      simp_all [TickState.release, TickState.unmask, opened, serve, live]

/-- A section inside a section changes nothing, unless it could only unmask. -/
theorem Inside.release (h : Inside dis s) (hlive : s.halted = false) :
    Opens dis en s (s.release dis en s.masked) := by
  obtain ⟨tick, masked, pending, halted⟩ := s
  obtain rfl : halted = false := hlive
  unfold Opens
  cases dis with
  | false => cases en <;> simp [TickState.release, TickState.unmask, live, opened]
  | true =>
    obtain rfl : masked = true := h rfl rfl
    cases en <;> simp [TickState.release, TickState.unmask, live, serve]

/-- A section that only masked, and may have stopped the machine, lets nothing in. -/
theorem release_inside (hs : Settled dis en s) :
    (((s.inside dis).stop b).release dis en s.masked).tick = s.tick := by
  obtain ⟨tick, masked, pending, halted⟩ := s
  have hserved : pending = true → masked = true := hs.served
  have hwaits : dis = false → en = true → pending = false := hs.waits
  -- the tick only moves where something waits and is let in, which the two facts exclude
  cases dis <;> cases en <;> cases b <;> cases halted <;> cases pending <;> cases masked <;>
    simp_all [release, unmask, stop, inside, mask, live, serve]

/-- The end of a section that set the tick. -/
theorem release_set (hs : Settled dis en s) (hlive : s.halted = false) :
    (((s.inside dis).setTick pends n).release dis en s.masked).tick =
      n + if pends && comesOn dis en s.masked then 1 else 0 := by
  obtain ⟨tick, masked, pending, halted⟩ := s
  have hserved : pending = true → masked = true := hs.served
  have hwaits : dis = false → en = true → pending = false := hs.waits
  obtain rfl : halted = false := hlive
  cases dis <;> cases en <;> cases pends <;> cases pending <;> cases masked <;>
    simp_all [release, unmask, setTick, inside, mask, live, serve, comesOn]

theorem Opens.settled (hs : Settled dis en s) (h : Opens dis en s s') : Settled dis en s' := by
  refine ⟨h.served hs.served, fun hd he => ?_⟩
  have hpending := hs.waits hd he
  rcases h with rfl | ⟨-, -, rfl⟩
  · exact hpending
  · simp [opened, serve, hpending]

theorem release_settled (hs : s.Served) (hlive : s.halted = false) (m : Bool) :
    Settled dis en (s.release dis en m) := by
  obtain ⟨tick, masked, pending, halted⟩ := s
  obtain rfl : halted = false := hlive
  refine ⟨?_, ?_⟩
  · unfold release
    split_ifs
    · exact hs.unmask _
    · exact hs
  · rintro rfl rfl
    cases pending <;> rfl

end TickState

end LowPower
