import LowPower.Proof.Frame

/-!
# The mode a pass decides on

The votes select a mode, and a busy module and a near deadline can only lower it
(`passDecide_sleepMode`). `passMode` and `votedMode` are that mode as a number, with and without
the threshold.
-/

namespace LowPower

variable {c : Config} {X : Type}

namespace World

/-- The state after the votes are read, before the busy check. -/
def voted (w : World c X) : World c X :=
  w.pmIrqDisable.2.mapSt fun s => { s with sleepMode := selectSleepMode s }

/-- The state after the votes and the busy check, before the threshold check. -/
def checked (w : World c X) : World c X := w.voted.busyLimit

/-- The mode that the votes and the busy windows select. -/
def votedMode (w : World c X) : ℕ :=
  if w.voted.pmCheckBusy.1 = pmFlagBusy then
    min (selectSleepMode w.st).toNat c.lpmsDefaultBusySleepMode.toNat
  else (selectSleepMode w.st).toNat

/-- The tick and the deadline of the OS timers, as the threshold check reads them. -/
def osDeadline (w : World c X) : U32 := w.checked.pmNextTimeout.1
def osTick (w : World c X) : U32 := w.checked.pmNextTimeout.2.pmGetTick.1

/-- The mode that the votes, the busy windows and the threshold select. -/
def passMode (w : World c X) : ℕ :=
  if w.osDeadline - w.osTick ≤ c.lpmsTicklessThresholdTime then
    min w.votedMode c.lpmsTicklessThresholdMode.toNat
  else w.votedMode

/-- A busy module can only lower the mode. -/
theorem votedMode_le (w : World c X) : w.votedMode ≤ (selectSleepMode w.st).toNat := by
  unfold votedMode
  split_ifs
  · exact Nat.min_le_left _ _
  · exact Nat.le_refl _

/-- So can a near deadline. -/
theorem passMode_le (w : World c X) : w.passMode ≤ w.votedMode := by
  unfold passMode
  split_ifs
  · exact Nat.min_le_left _ _
  · exact Nat.le_refl _

theorem limitMode_toNat (m : U8) (w : World c X) :
    (w.limitMode m).st.sleepMode.toNat = min w.st.sleepMode.toNat m.toNat := by
  unfold limitMode
  split_ifs with hlt
  · have hlt' : m.toNat < w.st.sleepMode.toNat := hlt
    show m.toNat = _
    omega
  · have hlt' : ¬m.toNat < w.st.sleepMode.toNat := hlt
    omega

theorem checked_sleepMode (w : World c X) : w.checked.st.sleepMode.toNat = w.votedMode := by
  have hst : w.voted.pmCheckBusy.2.st = w.voted.st :=
    checkBusy_keeps (P := fun w' => w'.st = w.voted.st) (fun _ h => pmGetTick_st.trans h) rfl
  have hvoted : w.voted.st.sleepMode = selectSleepMode w.st := by
    unfold voted
    rw [mapSt_st, pmIrqDisable_st]
  unfold checked busyLimit votedMode
  dsimp only
  split_ifs
  · rw [limitMode_toNat, hst, hvoted]
  · rw [hst, hvoted]

theorem passDecide_sleepMode (w : World c X) : w.passDecide.2.st.sleepMode.toNat = w.passMode := by
  have hst : w.checked.pmNextTimeout.2.pmGetTick.2.st = w.checked.st := by
    rw [pmGetTick_st, pmNextTimeout, query_st]
  have hpass : w.passDecide.2 = w.checked.thresholdLimit := rfl
  rw [hpass]
  unfold thresholdLimit passMode osDeadline osTick
  dsimp only
  split_ifs
  · rw [limitMode_toNat, hst, checked_sleepMode]
  · rw [hst, checked_sleepMode]

/-! ## What the decision leaves alone -/

theorem passDecide_ops (w : World c X) : w.passDecide.2.ops = w.ops := by
  have hP : SleepInv fun w' : World c X => w'.ops = w.ops :=
    { plat := fun _ _ h => h, emit := fun _ _ _ h => h, sleepMode := fun _ _ h => h }
  exact hP.passDecide rfl

theorem checked_ops (w : World c X) : w.checked.ops = w.ops := by
  have hP : SleepInv fun w' : World c X => w'.ops = w.ops :=
    { plat := fun _ _ h => h, emit := fun _ _ _ h => h, sleepMode := fun _ _ h => h }
  exact hP.decideInv.busyLimit (hP.sleepMode _ _ (hP.irqDisable rfl))

end World
end LowPower
