import LowPower.Lib.Announce
import LowPower.Proof.Freq

/-!
# Announcing frequency changes

`pm_freq_handle` changes the frequency and then calls the frequency hooks; `pm_freq_request`
changes it and calls nobody. A `Ledger` over the record of any window of an execution counts
the two kinds of changes: an up-shift is lost, a deferred change is made, and the hook in a
slot is told (`AnnInv`). So a hook that stays registered sees exactly the changes of the
window when no request in it shifts up (`freqHook_announced_iff`). On a platform without
`set_freq` nothing is ever changed, and a deferred change is announced all the same.
-/

namespace LowPower

variable {c : Config} {X : Type}

/-- The mode with which slot `i` of the frequency hooks calls `h`. -/
def Ev.announcedMode (i : ℕ) (h : HookId) : Ev → Option U8
  | .hook .freq j h' m => if j = i ∧ h' = h then some m else none
  | _ => none

/-- An accepted frequency request for a mode faster than the one in force, at its entry. -/
def upShift (e : Ev × Lpms c) : Bool :=
  match e.1 with
  | .enter (.pmFreqRequest k m) =>
    decide (FreqPair c (k.toNat, m.toNat)) && decide (m < e.2.freqMode)
  | _ => false

/-- An entry of `pm_freq_handle` with the flag up and another mode selected. -/
def downShift (e : Ev × Lpms c) : Bool :=
  match e.1 with
  | .freqHandle => decide (e.2.freqFlag = 0x01) && decide (selectFreqMode e.2 ≠ e.2.freqMode)
  | _ => false

/-- Slot `i` of the frequency hooks holds `h`. -/
def Registered (i : Fin (c.lpmsHookListSize .freq)) (h : HookId) (s : Lpms c) : Prop :=
  (s.hooks .freq)[i] = some h

/-- The changes nobody announces. -/
def lostOf (B : Bool) (win : List (Ev × Lpms c)) : ℕ := if B then win.countP upShift else 0

/-- The announcements without a change. -/
def phantomOf (B : Bool) (win : List (Ev × Lpms c)) : ℕ := if B then 0 else win.countP downShift

theorem lostOf_snoc (B : Bool) (win : List (Ev × Lpms c)) (x : Ev × Lpms c) :
    lostOf B (win ++ [x]) = if B && upShift x then lostOf B win + 1 else lostOf B win := by
  cases B <;> cases h : upShift x <;> simp [lostOf, List.countP_append, h]

theorem phantomOf_snoc (B : Bool) (win : List (Ev × Lpms c)) (x : Ev × Lpms c) :
    phantomOf B (win ++ [x]) = if !B && downShift x then phantomOf B win + 1 else phantomOf B win := by
  cases B <;> cases h : downShift x <;> simp [phantomOf, List.countP_append, h]

namespace World

/-- The ledger of the record since `tr0`, for the hook `h` in slot `i`, as long as it stays
there; `B` says whether the platform has `set_freq`. -/
structure AnnInv (B : Bool) (tr0 : List (Ev × Lpms c)) (i : Fin (c.lpmsHookListSize .freq))
    (h : HookId) (owe : ℕ) (due : List U8) (w : World c X) : Prop where
  ops : (w.ops.bind (·.setFreq)).isSome = B
  book : ∃ win, w.trace = tr0 ++ win ∧ ((∀ e ∈ win, Registered i h e.2) →
    Ledger (fun e => e.1.setMode) (fun e => e.1.announcedMode i h) (lostOf B win) (phantomOf B win)
      owe due win)

variable {w : World c X} {env : Env c X} {B : Bool} {tr0 : List (Ev × Lpms c)}
  {i : Fin (c.lpmsHookListSize .freq)} {h : HookId} {owe owe' : ℕ} {due due' : List U8}

/-- One more entry, by a rule of the ledger. -/
theorem AnnInv.emit (hA : AnnInv B tr0 i h owe due w) (e : Ev)
    (hL : ∀ win : List (Ev × Lpms c), Registered i h w.st →
      Ledger (fun e => e.1.setMode) (fun e => e.1.announcedMode i h) (lostOf B win)
        (phantomOf B win) owe due win →
      Ledger (fun e => e.1.setMode) (fun e => e.1.announcedMode i h) (lostOf B (win ++ [(e, w.st)]))
        (phantomOf B (win ++ [(e, w.st)])) owe' due' (win ++ [(e, w.st)])) :
    AnnInv B tr0 i h owe' due' (w.emit e) := by
  obtain ⟨hops, win, htr, hled⟩ := hA
  refine ⟨hops, win ++ [(e, w.st)], ?_, fun hreg => ?_⟩
  · rw [emit_trace, htr, List.append_assoc]
  · rw [List.forall_mem_append] at hreg
    exact hL win (hreg.2 _ List.mem_cons_self) (hled hreg.1)

/-- An entry that neither changes nor announces, and starts no shift that counts. -/
theorem AnnInv.emit_quiet (hA : AnnInv B tr0 i h owe due w) {e : Ev} (hs : e.setMode = none)
    (ha : e.announcedMode i h = none) (hu : (B && upShift (e, w.st)) = false)
    (hd : (!B && downShift (e, w.st)) = false) : AnnInv B tr0 i h owe due (w.emit e) := by
  refine hA.emit e fun win _ hled => ?_
  rw [lostOf_snoc, phantomOf_snoc, hu, hd]
  exact hled.quiet hs ha

theorem AnnInv.viewInv (B : Bool) (tr0 : List (Ev × Lpms c)) (i : Fin (c.lpmsHookListSize .freq))
    (h : HookId) (owe : ℕ) (due : List U8) :
    ViewInv (X := X) (fun _ : Lpms c => ()) (AnnInv B tr0 i h owe due) where
  plat _ _ hA := ⟨hA.ops, hA.book⟩
  emit w e he hA := by
    have hu : upShift (e, w.st) = false := by
      cases e <;> first | rfl | exact he.elim
    have hd : downShift (e, w.st) = false := by
      cases e <;> first | rfl | exact he.elim
    refine hA.emit_quiet ?_ ?_ (by rw [hu, Bool.and_false]) (by rw [hd, Bool.and_false])
    · cases e <;> first | rfl | exact he.elim
    · cases e with
      | hook l j h' m => cases l <;> first | rfl | exact he.elim
      | _ => rfl
  mapSt _ _ _ hA := ⟨hA.ops, hA.book⟩

/-! ## Changes of the frequency -/

theorem pmSetFreq_absent (hops : (w.ops.bind (·.setFreq)).isSome = false) (site : FreqSite)
    (m : U8) : w.pmSetFreq site m = w := by
  cases ho : w.ops with
  | none => simp [pmSetFreq, callOut, ho]
  | some o =>
    have hf : o.setFreq = none := by simpa [ho] using hops
    simp [pmSetFreq, callOut, ho, hf]

theorem pmSetFreq_present (hops : (w.ops.bind (·.setFreq)).isSome = true) (site : FreqSite)
    (m : U8) : ∃ x, w.pmSetFreq site m = { w.emit (.setFreq site m) with plat := x } := by
  cases ho : w.ops with
  | none => simp [ho] at hops
  | some o =>
    obtain ⟨f, hf⟩ : ∃ f, o.setFreq = some f := by
      simpa [ho, Option.isSome_iff_exists] using hops
    exact ⟨f m w.plat, by simp [pmSetFreq, callOut, ho, hf]⟩

/-- `set_freq` by a rule of the ledger. -/
theorem AnnInv.setFreq (hA : AnnInv true tr0 i h owe due w) (site : FreqSite) (m : U8)
    (hL : ∀ (win : List (Ev × Lpms c)) (x : Ev × Lpms c), x.1.setMode = some m →
      x.1.announcedMode i h = none → upShift x = false → downShift x = false →
      Ledger (fun e => e.1.setMode) (fun e => e.1.announcedMode i h) (lostOf true win)
        (phantomOf true win) owe due win →
      Ledger (fun e => e.1.setMode) (fun e => e.1.announcedMode i h) (lostOf true (win ++ [x]))
        (phantomOf true (win ++ [x])) owe' due' (win ++ [x])) :
    AnnInv true tr0 i h owe' due' (w.pmSetFreq site m) := by
  obtain ⟨x, hx⟩ := pmSetFreq_present hA.ops site m
  rw [hx]
  exact (AnnInv.viewInv true tr0 i h owe' due').plat _ _
    (hA.emit (.setFreq site m) fun win _ => hL win _ rfl rfl rfl rfl)

theorem upShift_enter {f : Call} {s : Lpms c} (h : upShift (Ev.enter f, s) = true) :
    ∃ k m, f = .pmFreqRequest k m ∧ FreqPair c (k.toNat, m.toNat) ∧ m < s.freqMode := by
  cases f <;> simp only [upShift, Bool.false_eq_true, Bool.and_eq_true, decide_eq_true_eq] at h
  exact ⟨_, _, rfl, h.1, h.2⟩

/-- A request that shifts up: the change is made and nobody is told. -/
theorem AnnInv.exec_upShift (hA : AnnInv true tr0 i h 0 [] w) {k : U16} {m : U8}
    (hpair : FreqPair c (k.toNat, m.toNat)) (hlt : m < w.st.freqMode) :
    AnnInv true tr0 i h 0 [] ((w.emit (.enter (.pmFreqRequest k m))).pmFreqRequest k m) := by
  have hup : upShift (Ev.enter (.pmFreqRequest k m), w.st) = true := by
    simp only [upShift, Bool.and_eq_true, decide_eq_true_eq]
    exact ⟨hpair, hlt⟩
  have h1 : AnnInv true tr0 i h 1 [] (w.emit (.enter (.pmFreqRequest k m))) := by
    refine hA.emit _ fun win _ hled => ?_
    rw [lostOf_snoc, phantomOf_snoc, hup]
    exact hled.expect rfl rfl
  have hst : (w.emit (.enter (.pmFreqRequest k m))).st = w.st := rfl
  generalize w.emit (.enter (.pmFreqRequest k m)) = w1 at h1 hst
  unfold pmFreqRequest
  rw [dif_neg (by omega), dif_neg (by omega)]
  unfold locked
  dsimp only
  rw [if_pos (by simpa [pmIrqDisable, hst] using hlt)]
  refine (AnnInv.viewInv true tr0 i h 0 []).irqEnable _ ?_
  refine (AnnInv.viewInv true tr0 i h 0 []).mapSt _ _ rfl ?_
  have hV := AnnInv.viewInv (c := c) (X := X) true tr0 i h 1 []
  refine AnnInv.setFreq (hV.mapSt _ _ rfl (hV.irqDisable h1)) _ _ fun win x hm ha hu hd hled => ?_
  rw [lostOf_snoc, phantomOf_snoc, hu, hd]
  exact hled.lose hm ha

/-- A call that makes no change with `set_freq`. -/
theorem AnnInv.exec_quiet (hA : AnnInv B tr0 i h 0 [] w) {f : Call}
    (hup : (B && upShift (Ev.enter f, w.st)) = false) :
    AnnInv B tr0 i h 0 [] ((w.emit (.enter f)).exec f) := by
  have hV := AnnInv.viewInv (c := c) (X := X) B tr0 i h 0 []
  have h1 : AnnInv B tr0 i h 0 [] (w.emit (.enter f)) := hA.emit_quiet rfl rfl hup
    (by rw [show downShift (Ev.enter f, w.st) = false from rfl, Bool.and_false])
  -- with `set_freq` present the frequency mode does not move
  have hP : ViewInv (X := X) (fun s : Lpms c => s.freqMode) (fun w' =>
      AnnInv B tr0 i h 0 [] w' ∧ (B = true → w'.st.freqMode = w.st.freqMode)) :=
    { plat := fun w' x hw' => ⟨hV.plat _ _ hw'.1, hw'.2⟩
      emit := fun w' e he hw' => ⟨hV.emit _ _ he hw'.1, hw'.2⟩
      mapSt := fun w' g hg hw' => ⟨hV.mapSt _ _ rfl hw'.1, fun hB => hg.trans (hw'.2 hB)⟩ }
  refine (hP.body.exec f ?_ (fun k m hf hk hm w' hlt hw' => ?_) ⟨h1, fun _ => rfl⟩).1
  · intro s s' hs
    cases f <;> simp only [Call.Writes] at hs <;> first | rw [hs] | rw [hs.1]
  · cases B with
    | false =>
      rw [pmSetFreq_absent hw'.1.ops]
      exact ⟨hV.mapSt _ _ rfl hw'.1, fun hB => absurd hB Bool.false_ne_true⟩
    | true =>
      exfalso
      rw [hw'.2 rfl] at hlt
      rw [hf] at hup
      simp only [upShift, Bool.true_and, Bool.and_eq_false_iff, decide_eq_false_iff_not] at hup
      rcases hup with hup | hup
      · exact hup ⟨hk, hm⟩
      · exact hup hlt

/-- **Step lemma: every interface call settles the ledger.** -/
theorem AnnInv.call (hA : AnnInv B tr0 i h 0 [] w) (f : Call) : AnnInv B tr0 i h 0 [] (w.call f) := by
  suffices hexec : AnnInv B tr0 i h 0 [] ((w.emit (.enter f)).exec f) from
    hexec.emit_quiet (e := .done f) rfl rfl (by rw [show upShift _ = false from rfl, Bool.and_false])
      (by rw [show downShift _ = false from rfl, Bool.and_false])
  cases hup : B && upShift (Ev.enter f, w.st) with
  | false => exact hA.exec_quiet hup
  | true =>
    rw [Bool.and_eq_true] at hup
    obtain ⟨rfl, hup⟩ := hup
    obtain ⟨k, m, rfl, hpair, hlt⟩ := upShift_enter hup
    exact hA.exec_upShift hpair hlt

/-! ## Announcements -/

/-- Before a notification with one change due: the window shows the slot as it is now. -/
def Seen (tr0 : List (Ev × Lpms c)) (i : Fin (c.lpmsHookListSize .freq)) (h : HookId)
    (w : World c X) : Prop :=
  ∀ win, w.trace = tr0 ++ win → (∀ e ∈ win, Registered i h e.2) → Registered i h w.st

/-- A hook entry of another slot. -/
theorem AnnInv.emit_hook_ne (hA : AnnInv B tr0 i h owe due w) {j : Fin (c.lpmsHookListSize .freq)}
    (hne : j ≠ i) (h' : HookId) (m : U8) :
    AnnInv B tr0 i h owe due (w.emit (.hook .freq j h' m)) := by
  refine hA.emit_quiet rfl ?_ (by rw [show upShift _ = false from rfl, Bool.and_false])
    (by rw [show downShift _ = false from rfl, Bool.and_false])
  have hval : (j : ℕ) ≠ i := fun hj => hne (Fin.ext hj)
  simp [Ev.announcedMode, hval]

/-- The hook entry of the slot itself pays the oldest announcement due. -/
theorem AnnInv.emit_hook {m : U8} (hA : AnnInv B tr0 i h 0 (m :: due) w) :
    AnnInv B tr0 i h 0 due (w.emit (.hook .freq i h m)) := by
  refine hA.emit _ fun win _ hled => ?_
  rw [lostOf_snoc, phantomOf_snoc, show upShift _ = false from rfl, show downShift _ = false from rfl,
    Bool.and_false, Bool.and_false]
  exact hled.tell rfl (by simp [Ev.announcedMode])

/-- Foreign code that calls no LPMS function. -/
theorem AnnInv.quiet_act {P : Lpms c → Prop} (hq : env.Quiet .freq) :
    ∀ h' m' w₀, ∀ a ∈ env.body .freq h' m' w₀, ∀ w : World c X,
      AnnInv B tr0 i h owe due w ∧ P w.st → AnnInv B tr0 i h owe due (w.act a) ∧ P (w.act a).st := by
  intro h' m' w₀ a ha w hw
  obtain ⟨f, rfl⟩ := hq h' m' w₀ a ha
  exact ⟨⟨hw.1.ops, hw.1.book⟩, hw.2⟩

/-- **A notification tells the registered hook exactly once**: at its own slot, which occurs
once in the loop. -/
theorem AnnInv.notify_registered (hq : env.Quiet .freq) {m : U8} (hA : AnnInv B tr0 i h 0 [m] w)
    (hr : Registered i h w.st) : AnnInv B tr0 i h 0 [] (w.notify env .freq m) := by
  obtain ⟨l1, l2, hl⟩ := List.append_of_mem (List.mem_finRange i)
  have hnd : (l1 ++ i :: l2).Nodup := hl ▸ List.nodup_finRange _
  have hnot : ∀ j ∈ l1 ++ l2, j ≠ i := by
    have hperm : (l1 ++ i :: l2).Perm (i :: (l1 ++ l2)) := List.perm_middle
    rintro j hj rfl
    exact (List.nodup_cons.1 (hperm.nodup hnd)).1 hj
  unfold notify
  rw [hl, List.foldl_append, List.foldl_cons]
  -- the slots before
  have h1 : AnnInv B tr0 i h 0 [m] (l1.foldl (notifySlot env .freq m) w) ∧
      Registered i h (l1.foldl (notifySlot env .freq m) w).st :=
    notifySlots_keeps (P := fun w => AnnInv B tr0 i h 0 [m] w ∧ Registered i h w.st)
      (AnnInv.quiet_act hq)
      (fun w j hj h' hw => ⟨hw.1.emit_hook_ne (hnot j (List.mem_append_left l2 hj)) h' m, hw.2⟩)
      ⟨hA, hr⟩
  generalize l1.foldl (notifySlot env .freq m) w = w1 at h1
  -- the slot itself
  have h2 : AnnInv B tr0 i h 0 [] (notifySlot env .freq m w1 i) := by
    have hslot : (w1.st.hooks .freq)[i] = some h := h1.2
    unfold notifySlot
    rw [hslot]
    dsimp only
    unfold runHook
    refine acts_keeps (fun a ha w hw => ?_) h1.1.emit_hook
    obtain ⟨f, rfl⟩ := hq h m w1 a ha
    exact ⟨hw.ops, hw.book⟩
  -- the slots after
  exact (notifySlots_keeps (P := fun w => AnnInv B tr0 i h 0 [] w ∧ True)
    (AnnInv.quiet_act (P := fun _ => True) hq)
    (fun w j hj h' hw => ⟨hw.1.emit_hook_ne (hnot j (List.mem_append_right l1 hj)) h' m, trivial⟩)
    ⟨h2, trivial⟩).1

/-- Where the slot held something else, the window does not count. -/
theorem AnnInv.of_not_seen {win : List (Ev × Lpms c)}
    (hops : (w.ops.bind (·.setFreq)).isSome = B) (htr : w.trace = tr0 ++ win)
    (hnot : ¬ ∀ e ∈ win, Registered i h e.2) : AnnInv B tr0 i h owe due w :=
  ⟨hops, win, htr, fun hreg => absurd hreg hnot⟩

theorem AnnInv.notify (hq : env.Quiet .freq) {m : U8} (hA : AnnInv B tr0 i h 0 [m] w)
    (hseen : Seen tr0 i h w) : AnnInv B tr0 i h 0 [] (w.notify env .freq m) := by
  by_cases hr : Registered i h w.st
  · exact hA.notify_registered hq hr
  · obtain ⟨win, htr, -⟩ := hA.book
    have hnot : ¬ ∀ e ∈ win, Registered i h e.2 := fun hreg => hr (hseen win htr hreg)
    have hkeep : ((w.notify env .freq m).ops.bind (·.setFreq)).isSome = B ∧
        ∃ win, (w.notify env .freq m).trace = tr0 ++ win ∧ ¬ ∀ e ∈ win, Registered i h e.2 := by
      refine notify_keeps (P := fun w' => (w'.ops.bind (·.setFreq)).isSome = B ∧
        ∃ win, w'.trace = tr0 ++ win ∧ ¬ ∀ e ∈ win, Registered i h e.2) ?_ ?_ ⟨hA.ops, win, htr, hnot⟩
      · intro h' m' w₀ a ha w' hw'
        obtain ⟨f, rfl⟩ := hq h' m' w₀ a ha
        exact hw'
      · rintro w' j h' ⟨hops, win', htr', hnot'⟩
        refine ⟨hops, win' ++ [(.hook .freq j h' m, w'.st)], ?_, fun hreg => hnot' fun e he => ?_⟩
        · rw [emit_trace, htr', List.append_assoc]
        · exact hreg e (List.mem_append_left _ he)
    obtain ⟨hops, win', htr', hnot'⟩ := hkeep
    exact AnnInv.of_not_seen hops htr' hnot'

/-- The entry of the frequency step shows the slot to the window. -/
theorem AnnInv.seen (hA : AnnInv B tr0 i h owe due w) {w' : World c X}
    {post : List (Ev × Lpms c)} (htr : w'.trace = w.trace ++ (.freqHandle, w.st) :: post)
    (hhooks : w'.st.hooks .freq = w.st.hooks .freq) : Seen tr0 i h w' := by
  intro win hwin hreg
  obtain ⟨win0, htr0, -⟩ := hA.book
  rw [htr, htr0, List.append_assoc] at hwin
  have hmem : (Ev.freqHandle, w.st) ∈ win := by
    rw [← List.append_cancel_left hwin]
    exact List.mem_append_right win0 List.mem_cons_self
  unfold Registered
  rw [hhooks]
  exact hreg _ hmem

theorem downShift_freqHandle {s : Lpms c} : downShift (Ev.freqHandle, s) = true ↔
    s.freqFlag = 0x01 ∧ selectFreqMode s ≠ s.freqMode := by
  simp only [downShift, Bool.and_eq_true, decide_eq_true_eq]

/-- A deferred change: made where the platform has `set_freq`, due in any case. -/
theorem AnnInv.setSelected (hA : AnnInv B tr0 i h 0 [] w)
    (hd : downShift (Ev.freqHandle, w.st) = true) (f g : Lpms c → Lpms c) :
    AnnInv B tr0 i h 0 [selectFreqMode w.st] ((((w.emit .freqHandle).mapSt f).pmSetFreq
      .pmFreqHandle (selectFreqMode w.st)).mapSt g) := by
  have hV := fun due => AnnInv.viewInv (c := c) (X := X) B tr0 i h 0 due
  refine (hV _).mapSt _ _ rfl ?_
  cases B with
  | false =>
    have h1 : AnnInv false tr0 i h 0 [selectFreqMode w.st] (w.emit .freqHandle) := by
      refine hA.emit _ fun win _ hled => ?_
      rw [lostOf_snoc, phantomOf_snoc, hd]
      exact hled.pretend _ rfl rfl
    rw [pmSetFreq_absent (w := (w.emit .freqHandle).mapSt f) h1.ops]
    exact (hV _).mapSt _ _ rfl h1
  | true =>
    have h1 : AnnInv true tr0 i h 0 [] (w.emit .freqHandle) := hA.emit_quiet rfl rfl rfl rfl
    refine AnnInv.setFreq ((hV _).mapSt _ f rfl h1) _ _ fun win x hm ha hu hd hled => ?_
    rw [lostOf_snoc, phantomOf_snoc, hu, hd]
    exact hled.make hm ha

/-- **Step lemma: the frequency step settles the ledger.** -/
theorem AnnInv.freqHandle (hq : env.Quiet .freq) (hA : AnnInv B tr0 i h 0 [] w) :
    AnnInv B tr0 i h 0 [] (w.pmFreqHandle env) := by
  have hquiet (hd : ¬ downShift (Ev.freqHandle, w.st) = true) :
      AnnInv B tr0 i h 0 [] (w.emit .freqHandle) := by
    rw [Bool.not_eq_true] at hd
    exact hA.emit_quiet rfl rfl (by rw [show upShift _ = false from rfl, Bool.and_false])
      (by rw [hd, Bool.and_false])
  unfold pmFreqHandle
  dsimp only
  split_ifs with hflag hne
  · refine AnnInv.notify hq (hA.setSelected (downShift_freqHandle.2 ⟨hflag, hne⟩) _ _) ?_
    have htr : ∃ post, (((w.emit .freqHandle).mapSt fun s => { s with freqFlag := 0x00 }).pmSetFreq
        .pmFreqHandle (selectFreqMode w.st)).trace = w.trace ++ (.freqHandle, w.st) :: post := by
      unfold pmSetFreq callOut
      split
      · exact ⟨[], rfl⟩
      · exact ⟨_, List.append_assoc _ _ _⟩
    obtain ⟨post, htr⟩ := htr
    refine hA.seen htr ?_
    rw [mapSt_st, pmSetFreq, callOut_st]
    rfl
  · refine (AnnInv.viewInv B tr0 i h 0 []).mapSt _ _ rfl (hquiet fun hd => ?_)
    exact hne (downShift_freqHandle.1 hd).2
  · exact hquiet fun hd => hflag (downShift_freqHandle.1 hd).1

theorem AnnInv.passInv (hq : env.Quiet .freq) (B : Bool) (tr0 : List (Ev × Lpms c))
    (i : Fin (c.lpmsHookListSize .freq)) (h : HookId) :
    PassInv env (AnnInv (X := X) B tr0 i h 0 []) where
  toPlainInv := (AnnInv.viewInv B tr0 i h 0 []).toPlainInv
  sleepMode _ _ hA := (AnnInv.viewInv B tr0 i h 0 []).mapSt _ _ rfl hA
  call _ f hA := hA.call f
  freqHandle _ hA := hA.freqHandle hq

theorem lostOf_eq_zero {win : List (Ev × Lpms c)} :
    lostOf B win = 0 ↔ (B = true → ∀ e ∈ win, upShift e = false) := by
  cases B <;> simp [lostOf, List.countP_eq_zero]

theorem phantomOf_eq_zero {win : List (Ev × Lpms c)} :
    phantomOf B win = 0 ↔ (B = false → ∀ e ∈ win, downShift e = false) := by
  cases B <;> simp [phantomOf, List.countP_eq_zero]

/-- **When every frequency change is announced.** In every execution after `lpms_init`, and
every window of it in which slot `i` of the frequency hooks holds `h`: the calls of the hook
repeat the calls of `set_freq`, each after its own, exactly when no request of the window
shifts up; without `set_freq`, exactly when the idle passes of the window defer no change. -/
theorem freqHook_announced_iff (c : Config) (env : Env c X) (hq : env.Quiet .freq)
    (ops : LpmsOps X) (f0 : U8) (x : X) (es es' : List (Op X))
    (i : Fin (c.lpmsHookListSize .freq)) (h : HookId) :
    let w := (start c ops f0 x).run env es
    let win := (w.run env es').trace.drop w.trace.length
    (∀ e ∈ win, Registered i h e.2) →
      (Announced (fun e => e.1.setMode) (fun e => e.1.announcedMode i h) win ↔
        (ops.setFreq.isSome = true → ∀ e ∈ win, upShift e = false) ∧
        (ops.setFreq.isSome = false → ∀ e ∈ win, downShift e = false)) := by
  intro w win hreg
  have hops : (w.ops.bind (·.setFreq)).isSome = ops.setFreq.isSome := by
    rw [run_ops]
    rfl
  have hstart : AnnInv ops.setFreq.isSome w.trace i h 0 [] w := by
    refine ⟨hops, [], (List.append_nil _).symm, fun _ => ?_⟩
    cases ops.setFreq.isSome <;> exact Ledger.nil
  have hrun : AnnInv ops.setFreq.isSome w.trace i h 0 [] (w.run env es') :=
    (AnnInv.passInv hq _ _ i h).run es' hstart
  obtain ⟨win', htr, hled⟩ := hrun.book
  have hwin : win = win' := by
    show (w.run env es').trace.drop w.trace.length = win'
    rw [htr, List.drop_left]
  rw [hwin] at hreg ⊢
  have hz : lostOf ops.setFreq.isSome win' = 0 ∨ phantomOf ops.setFreq.isSome win' = 0 := by
    cases ops.setFreq.isSome
    · exact .inl rfl
    · exact .inr rfl
  rw [(hled hreg).announced_iff hz, lostOf_eq_zero, phantomOf_eq_zero]

/-- A deferred down-shift: the system is brought up before the hook is registered, the window
has the release and the pass. -/
theorem freqHook_announced_release :
    let w := (start Config.shipped .clock pmFreqLow 0).run (.silent : Env Config.shipped U32)
      [.call .lpmsEnable, .call (.pmFreqRequest 3 pmFreqHigh), .call (.lpmsSethook .freq (some 7))]
    let win := (w.run .silent [.call (.pmFreqRelease 3 pmFreqHigh), .pmRunTickless]).trace.drop
      w.trace.length
    win.filterMap (fun e => e.1.setMode) = [pmFreqLow] ∧
      Announced (fun e => e.1.setMode) (fun e => e.1.announcedMode 0 7) win :=
  ⟨by decide +kernel,
    (freqHook_announced_iff Config.shipped .silent (Env.silent_quiet .freq) .clock pmFreqLow 0
      [.call .lpmsEnable, .call (.pmFreqRequest 3 pmFreqHigh), .call (.lpmsSethook .freq (some 7))]
      [.call (.pmFreqRelease 3 pmFreqHigh), .pmRunTickless] ⟨0, by decide⟩ 7
      (by unfold Registered; decide +kernel)).2 ⟨fun _ => by decide +kernel, fun h => nomatch h⟩⟩

/-- An up-shift: the hook is registered, one request raises the frequency, nobody is told. -/
theorem freqHook_upShift_silent :
    let w := (start Config.shipped .clock pmFreqLow 0).run (.silent : Env Config.shipped U32)
      [.call (.lpmsSethook .freq (some 7))]
    let win := (w.run .silent [.call (.pmFreqRequest 3 pmFreqHigh)]).trace.drop w.trace.length
    (∀ e ∈ win, (e.2.hooks .freq)[0] = some 7) ∧
      ¬ win.filterMap (fun e => e.1.announcedMode 0 7) = win.filterMap (fun e => e.1.setMode) := by
  decide +kernel

end World
end LowPower
