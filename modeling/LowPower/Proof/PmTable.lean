import LowPower.Lib.History
import LowPower.Proof.PmDevices
import LowPower.Spec.PmDevice

/-!
# The device table of PM 2.0

The table against the list of the registrations in force (`registered`). The number of entries is
a byte, so the registration that finds 255 entries leaves an empty table; without such a
registration the table is the list, in order, after every step (`devices_registered_iff`), and
the loops over the table ask every registration once (`Visited`).
-/

namespace LowPower.Pm

variable {X : Type}

/-- The effect of a call on the list of registrations. -/
def TableOp.apply (t : List (RtDevicePm X)) : TableOp X → List (RtDevicePm X)
  | .rtPmDeviceRegister granted d => if granted then t ++ [d] else t
  | .rtPmDeviceUnregister device => t.eraseP (·.device = device)

/-- The registrations that succeeded and were not removed, oldest first. -/
def registered (ops : List (TableOp X)) : List (RtDevicePm X) := ops.foldl TableOp.apply []

theorem registered_snoc (ops : List (TableOp X)) (op : TableOp X) :
    registered (ops ++ [op]) = op.apply (registered ops) := by
  simp [registered]

/-- The registration finds a number of entries that leaves room for one more in a byte. -/
def Fits (ops : List (TableOp X)) : TableOp X → Prop
  | .rtPmDeviceRegister granted _ => granted = true → (registered ops).length < 255
  | .rtPmDeviceUnregister _ => True

namespace World

variable {w : World X}

/-! ## The table as a list -/

/-- The block holds the entries that count. -/
def Allocated (pm : RtPm X) : Prop := pm.devicePmNumber.toNat ≤ pm.devicePm.length

theorem length_devices (h : Allocated w.pm) : w.pm.devices.length = w.pm.devicePmNumber.toNat := by
  unfold RtPm.devices
  rw [List.length_take]
  exact min_eq_left h

/-- A granted registration at less than 255 entries appends one. -/
theorem register_devices (h : Allocated w.pm) (d : RtDevicePm X)
    (hfit : w.pm.devicePmNumber.toNat < 255) :
    (w.rtPmDeviceRegister true d).pm.devices = w.pm.devices ++ [d] := by
  have hnumber : (w.pm.devicePmNumber + 1).toNat = w.pm.devicePmNumber.toNat + 1 := by bv_omega
  have hlen := length_devices h
  unfold RtPm.devices at hlen
  change (w.pm.devicePm.take w.pm.devicePmNumber.toNat ++ [d]).take (w.pm.devicePmNumber + 1).toNat = _
  rw [hnumber]
  apply List.take_of_length_le
  rw [List.length_append, hlen, List.length_singleton]

/-- At 255 entries the number of entries comes back to zero. -/
theorem register_devices_full (d : RtDevicePm X) (hfull : w.pm.devicePmNumber.toNat = 255) :
    (w.rtPmDeviceRegister true d).pm.devices = [] := by
  have hnumber : (w.pm.devicePmNumber + 1).toNat = 0 := by bv_omega
  change (w.pm.devicePm.take w.pm.devicePmNumber.toNat ++ [d]).take (w.pm.devicePmNumber + 1).toNat = _
  rw [hnumber, List.take_zero]

theorem register_allocated (h : Allocated w.pm) (granted : Bool) (d : RtDevicePm X) :
    Allocated (w.rtPmDeviceRegister granted d).pm := by
  cases granted with
  | false => exact h
  | true =>
    have hlen := length_devices h
    unfold RtPm.devices at hlen
    change (w.pm.devicePmNumber + 1).toNat ≤
      (w.pm.devicePm.take w.pm.devicePmNumber.toNat ++ [d]).length
    rw [List.length_append, hlen, List.length_singleton]
    bv_omega

/-- **An unregistration removes the first entry of its device**, if there is one. -/
theorem unregister_devices (h : Allocated w.pm) (device : ℕ) :
    (w.rtPmDeviceUnregister device).pm.devices = w.pm.devices.eraseP (·.device = device) ∧
      Allocated (w.rtPmDeviceUnregister device).pm := by
  rw [List.eraseP_eq_eraseIdx, rtPmDeviceUnregister, locked_pm, mapPm_pm, emit_pm]
  cases hfind : w.pm.devices.findIdx? (·.device = device) with
  | none => exact ⟨rfl, h⟩
  | some index =>
    have hindex : index < w.pm.devicePmNumber.toNat := by
      obtain ⟨hlt, -⟩ := List.findIdx?_eq_some_iff_getElem.1 hfind
      rw [length_devices h] at hlt
      exact hlt
    have hnumber : (w.pm.devicePmNumber - 1).toNat = w.pm.devicePmNumber.toNat - 1 := by bv_omega
    refine ⟨?_, ?_⟩
    · change List.take (w.pm.devicePmNumber - 1).toNat _ = _
      rw [hnumber]
      exact Table.take_shiftDown nullDevice hindex h nullDevice
    · change (w.pm.devicePmNumber - 1).toNat ≤ List.length _
      rw [hnumber, List.length_set, Table.length_shiftDown]
      exact (Nat.sub_le _ _).trans h

/-! ## The loops over the table -/

/-- How often a loop asks the entry at a place: once if it has the callback. -/
def asked (has : RtDevicePm X → Bool) (t : List (RtDevicePm X)) (i : ℕ) : ℕ :=
  if (t[i]?).any has then 1 else 0

/-- A suspend callback was asked at this place, whatever it answered. -/
def suspendAt (i : ℕ) : Ev → Bool
  | .suspend j _ _ => j = i
  | _ => false

/-- The loops over the table ask every registration of a list once: `resume` and
`frequency_change` always, `suspend` up to the entry that refuses. -/
structure Visited (w : World X) (t : List (RtDevicePm X)) : Prop where
  resume : ∀ mode i, (w.since (w.pmDeviceResume mode)).count (.resume i mode) =
    asked (fun d => d.resume.isSome) t i
  frequencyChange : ∀ mode i,
    (w.since (w.pmDeviceFrequencyChange mode)).count (.frequencyChange i mode) =
      asked (fun d => d.frequencyChange.isSome) t i
  suspend : ∀ mode, ∃ n, ((w.pmDeviceSuspend mode).1 = rtEok → n = t.length) ∧
    ∀ i, (w.since (w.pmDeviceSuspend mode).2).countP (suspendAt i) =
      if i < n then asked (fun d => d.suspend.isSome) t i else 0

theorem count_places (has : RtDevicePm X → Bool) (t : List (RtDevicePm X)) (i : ℕ) :
    (places has 0 t).count i = asked has t i := by
  rw [(places_nodup has 0 t).count]
  have hmem : i ∈ places has 0 t ↔ (t[i]?).any has = true := by
    rw [mem_places_zero]
    cases t[i]? <;> simp
  unfold asked
  simp only [hmem]

/-- The events of a loop that asks each place with one event of its own. -/
theorem countP_places (has : RtDevicePm X → Bool) (t : List (RtDevicePm X)) (i : ℕ) {e : ℕ → Ev}
    {q : Ev → Bool} (hq : ∀ j, q (e j) = (j == i)) :
    ((places has 0 t).map e).countP q = asked has t i := by
  rw [List.countP_map, ← count_places]
  exact List.countP_congr fun j _ => by rw [Function.comp_apply, hq]

theorem asked_of_le (has : RtDevicePm X → Bool) {t : List (RtDevicePm X)} {i : ℕ}
    (h : t.length ≤ i) : asked has t i = 0 := by
  rw [asked, List.getElem?_eq_none h]
  rfl

theorem visited (w : World X) : Visited w w.pm.devices where
  resume mode i := by
    rw [since_eq (pmDeviceResume_block mode w).events]
    exact countP_places _ _ i fun j => by simp
  frequencyChange mode i := by
    rw [since_eq (pmDeviceFrequencyChange_block mode w).events]
    exact countP_places _ _ i fun j => by simp
  suspend mode := by
    obtain ⟨es, hblock, hok, hbad⟩ := suspendFrom_block mode 0 w.pm.devices w
    have hsince : w.since (w.pmDeviceSuspend mode).2 = es := since_eq hblock.events
    rw [hsince]
    have hcount : ∀ (t : List (RtDevicePm X)) (i : ℕ),
        ((places (fun d => d.suspend.isSome) 0 t).map (.suspend · mode rtEok)).countP
          (suspendAt i) = asked (fun d => d.suspend.isSome) t i :=
      fun t i => countP_places _ t i fun j => rfl
    by_cases hr : (w.pmDeviceSuspend mode).1 = rtEok
    · refine ⟨_, fun _ => rfl, fun i => ?_⟩
      rw [hok hr, hcount]
      split_ifs with hi
      · rfl
      · exact asked_of_le _ (not_lt.1 hi)
    · obtain ⟨pre, d, post, hds, hd, hes⟩ := hbad hr
      refine ⟨pre.length + 1, fun h => absurd h hr, fun i => ?_⟩
      rw [hes, List.countP_append, hcount, List.countP_singleton, hds, Nat.zero_add]
      simp only [suspendAt, decide_eq_true_eq]
      rcases lt_trichotomy i pre.length with hi | rfl | hi
      · rw [if_neg hi.ne', if_pos (by omega), asked, asked, List.getElem?_append_left hi,
          Nat.add_zero]
      · rw [asked_of_le _ (le_refl _), if_pos rfl, if_pos (by omega), asked]
        simp [hd]
      · rw [asked_of_le _ hi.le, if_neg hi.ne, if_neg (by omega)]

/-! ## Runs -/

theorem tableRun_snoc (w : World X) (ops : List (TableOp X)) (op : TableOp X) :
    w.tableRun (ops ++ [op]) = (w.tableRun ops).tableStep op := by
  simp [tableRun]

theorem tableRun_allocated (h : Allocated w.pm) (ops : List (TableOp X)) :
    Allocated (w.tableRun ops).pm := by
  induction ops using List.reverseRecOn with
  | nil => exact h
  | append_singleton ops op ih =>
    rw [tableRun_snoc]
    cases op with
    | rtPmDeviceRegister granted d => exact register_allocated ih granted d
    | rtPmDeviceUnregister device => exact (unregister_devices ih device).2

/-- **One step**: the table stays the list exactly when the step fits. -/
theorem tableStep_iff {ops : List (TableOp X)} (h : Allocated w.pm)
    (heq : w.pm.devices = registered ops) (op : TableOp X) :
    (w.tableStep op).pm.devices = registered (ops ++ [op]) ↔ Fits ops op := by
  rw [registered_snoc, ← heq]
  cases op with
  | rtPmDeviceRegister granted d =>
    cases granted with
    | false => exact iff_of_true rfl Bool.noConfusion
    | true =>
      have hlen : (registered ops).length = w.pm.devicePmNumber.toNat := by
        rw [← heq]
        exact length_devices h
      have hbyte := w.pm.devicePmNumber.isLt
      change (w.rtPmDeviceRegister true d).pm.devices = w.pm.devices ++ [d] ↔
        (true = true → (registered ops).length < 255)
      rw [hlen]
      by_cases hfit : w.pm.devicePmNumber.toNat < 255
      · exact iff_of_true (register_devices h d hfit) fun _ => hfit
      · rw [register_devices_full d (by omega)]
        exact iff_of_false (by simp) fun hf => hfit (hf rfl)
  | rtPmDeviceUnregister device => exact iff_of_true (unregister_devices h device).1 trivial

/-- **The table is the list of registrations after every step, if and only if no granted
registration finds 255 entries**; and the loops over it visit the list. -/
theorem devices_registered_iff (ops : RtPmOps X) (timerMask : U8) (rtTick : U32) (x : X)
    (os : List (TableOp X)) :
    Justified Fits os ↔ ∀ p, p <+: os →
      ((start ops timerMask rtTick x).tableRun p).pm.devices = registered p ∧
        Visited ((start ops timerMask rtTick x).tableRun p) (registered p) := by
  have hstart : Allocated (start ops timerMask rtTick x).pm := Nat.le_refl 0
  have hvisited : ∀ p, ((start ops timerMask rtTick x).tableRun p).pm.devices = registered p →
      Visited ((start ops timerMask rtTick x).tableRun p) (registered p) := by
    intro p hp
    rw [← hp]
    exact visited _
  simp only [and_iff_left_of_imp (hvisited _)]
  refine justified_iff_forall_prefix rfl fun p op _ hp => ?_
  rw [tableRun_snoc]
  exact tableStep_iff (tableRun_allocated hstart p) hp op

/-- After 256 granted registrations the table is empty. -/
theorem devices_registered_full :
    let os : List (TableOp Unit) := List.replicate 256 (.rtPmDeviceRegister true ⟨1, none, none, none⟩)
    ((start idleOps 0x0c 0 ()).tableRun os).pm.devices ≠ registered os := by
  intro os h
  have hempty : ((start idleOps 0x0c 0 ()).tableRun os).pm.devices.length = 0 := by decide +kernel
  have hlen : (registered os).length = 256 := by decide +kernel
  rw [h, hlen] at hempty
  exact absurd hempty (by decide)

end World
end LowPower.Pm
