import LowPower.Proof.Freq

/-!
# Convergence of the frequency at idle

The idle pass recomputes the frequency only when `freq_flag` is raised, and only
`pm_freq_release` raises it. So `freq_mode` and the selected mode agree, or the flag is up
(`Synced`), once the votes have caught up with the initial mode (`CaughtUp`): some release
was accepted, or some request at least as fast as the initial mode. Before that the system
stays at the initial mode (`SyncInv.fresh`), and no pass lowers it (`freqMode_pass_iff`).
-/

namespace LowPower

open Vote

variable {c : Config} {X : Type}

/-- An accepted release, or an accepted request at least as fast as the initial mode. -/
def CaughtUp (c : Config) (f0 : U8) (H : List (Vote ℕ ℕ)) : Prop :=
  ∃ v ∈ H, FreqPair c v.pair ∧ (v.isRequest = true → v.pair.2 ≤ f0.toNat)

/-- The flag is raised, or the mode in force is the selected one. -/
def Synced (s : Lpms c) : Prop := s.freqFlag = 0x01 ∨ s.freqMode = selectFreqMode s

namespace World

variable {w : World c X} {env : Env c X} {f0 : U8}

/-! ## What the votes do to the flag and the two modes -/

/-- An accepted request takes the minimum on both sides and leaves the flag. -/
theorem pmFreqRequest_sync {k : U16} {m : U8} (h : FreqPair c (k.toNat, m.toNat)) :
    (w.pmFreqRequest k m).st.freqFlag = w.st.freqFlag ∧
    (w.pmFreqRequest k m).st.freqMode.toNat = min w.st.freqMode.toNat m.toNat ∧
    (selectFreqMode (w.pmFreqRequest k m).st).toNat = min (selectFreqMode w.st).toNat m.toNat := by
  refine ⟨?_, ?_, ?_⟩
  · exact (ViewInv.view (·.freqFlag) w.st.freqFlag).body.pmFreqRequest (fun _ _ => rfl) k m
      (fun _ _ w' _ h => by simpa [pmSetFreq] using h) rfl
  · unfold pmFreqRequest
    rw [dif_neg (by omega), dif_neg (by omega), locked_st]
    dsimp only
    split_ifs with hm
    · have : m.toNat < w.st.freqMode.toNat := by simpa [pmIrqDisable, BitVec.lt_def] using hm
      simp only [mapSt_st]
      omega
    · have : ¬ m.toNat < w.st.freqMode.toNat := by simpa [pmIrqDisable, BitVec.lt_def] using hm
      simp only [mapSt_st, pmIrqDisable, query_st]
      omega
  · have h1 := selectMode_selects (by decide) (w.pmFreqRequest k m).st.freqStatus pmFreqLow
    rw [pmFreqRequest_freqStatus, applyIn, pair_request, if_pos h] at h1
    have h2 := selectMode_selects (by decide) w.st.freqStatus pmFreqLow
    have hm : m.toNat ≤ pmFreqLow.toNat := by
      have := h.2
      simp only [pmFreqModeMax] at this
      have : pmFreqLow.toNat = 2 := rfl
      omega
    exact h1.unique (h2.request k.toNat hm)

/-- An accepted release raises the flag. -/
theorem pmFreqRelease_flag {k : U16} {m : U8} (h : FreqPair c (k.toNat, m.toNat)) :
    (w.pmFreqRelease k m).st.freqFlag = 0x01 := by
  unfold pmFreqRelease
  rw [dif_neg (by omega), dif_neg (by omega), locked_mapSt_st]

/-- A vote out of range changes nothing. -/
theorem exec_of_not_freqPair {f : Call} {v : Vote ℕ ℕ} (hf : f.freqVote = some v)
    (hv : ¬ FreqPair c v.pair) : w.exec f = w := by
  have hreq : ∀ (k : U16) (m : U8), ¬ FreqPair c (k.toNat, m.toNat) →
      w.pmFreqRequest k m = w ∧ w.pmFreqRelease k m = w := by
    intro k m hkm
    simp only [FreqPair, not_and_or, not_lt] at hkm
    unfold pmFreqRequest pmFreqRelease
    rcases hkm with hk | hm
    · rw [dif_pos hk, dif_pos hk]; exact ⟨rfl, rfl⟩
    · constructor <;> split_ifs <;> rfl
  cases f <;> simp only [Call.freqVote, Option.some.injEq, reduceCtorEq] at hf <;> subst hf
  · exact (hreq _ _ hv).1
  · exact (hreq _ _ hv).2

/-- The part of the static data that the frequency step reads. -/
def freqView (s : Lpms c) := (s.freqMode, s.freqStatus, s.freqFlag)

theorem synced_congr {s s' : Lpms c} (h : freqView s' = freqView s) : Synced s' ↔ Synced s := by
  simp only [freqView, Prod.mk.injEq] at h
  unfold Synced selectFreqMode
  rw [h.1, h.2.1, h.2.2]

/-- Calls that make no frequency vote leave the view alone. -/
theorem exec_freqView_of_none {f : Call} (hf : f.freqVote = none) :
    freqView (w.exec f).st = freqView w.st := by
  refine (ViewInv.view freqView (freqView w.st)).body.exec f ?_ ?_ rfl
  · intro s s' h
    cases f <;> simp only [Call.freqVote, reduceCtorEq, Call.Writes] at hf h <;>
      first | rw [h, freqView, freqView] | rw [h.1, freqView, freqView]
  · rintro k m rfl
    simp [Call.freqVote] at hf

/-! ## The invariant -/

/-- The votes have caught up and the flag tells the truth, or the system is still at its
initial mode. -/
structure SyncInv (f0 : U8) (w : World c X) : Prop where
  inv : FreqInv f0 w
  synced : f0 = pmFreqLow ∨ CaughtUp c f0 (freqHistory w.trace) → Synced w.st
  fresh : ¬ CaughtUp c f0 (freqHistory w.trace) → w.st.freqFlag = 0x00 ∧ w.st.freqMode = f0

/-- An entry that neither sets the frequency nor completes a vote. -/
theorem SyncInv.emit_quiet {e : Ev} (hs : e.setMode = none) (hv : e.freqVote = none)
    (h : SyncInv f0 w) : SyncInv f0 (w.emit e) := by
  have hh : freqHistory (w.emit e).trace = freqHistory w.trace := emit_unread hv w
  refine ⟨h.inv.emit_quiet hs hv, ?_, ?_⟩
  · rw [hh]
    exact h.synced
  · rw [hh]
    exact h.fresh

/-- A raised flag means that the votes have caught up. -/
theorem SyncInv.caughtUp_of_flag (h : SyncInv f0 w) (hflag : w.st.freqFlag = 0x01) :
    CaughtUp c f0 (freqHistory w.trace) := by
  by_contra hc
  rw [(h.fresh hc).1] at hflag
  exact absurd hflag (by decide)

theorem SyncInv.viewInv (f0 : U8) : ViewInv (X := X) (freqView (c := c)) (SyncInv f0) where
  plat _ _ h := ⟨(FreqInv.viewInv f0).plat _ _ h.inv, h.synced, h.fresh⟩
  emit w e he h := by
    refine h.emit_quiet ?_ ?_
    · cases e <;> first | rfl | exact he.elim
    · cases e <;> first | rfl | exact he.elim
  mapSt w f hf h := by
    refine ⟨(FreqInv.viewInv f0).mapSt _ _ ?_ h.inv, ?_, ?_⟩
    · simp only [freqView, Prod.mk.injEq] at hf ⊢
      exact ⟨hf.1, hf.2.1⟩
    · rw [mapSt_st, synced_congr hf]
      exact h.synced
    · simp only [freqView, Prod.mk.injEq] at hf
      rw [mapSt_st, hf.1, hf.2.2]
      exact h.fresh

theorem caughtUp_snoc {H : List (Vote ℕ ℕ)} {v : Vote ℕ ℕ} :
    CaughtUp c f0 (H ++ [v]) ↔
      CaughtUp c f0 H ∨ (FreqPair c v.pair ∧ (v.isRequest = true → v.pair.2 ≤ f0.toNat)) := by
  unfold CaughtUp
  simp only [List.mem_append, List.mem_singleton, or_and_right, exists_or, exists_eq_left]

/-- A request takes the minimum on both sides; the first one at least as fast as the initial
mode makes them meet. -/
theorem SyncInv.call_request (h : SyncInv f0 w) {k : U16} {m : U8}
    (hv : FreqPair c (k.toNat, m.toNat)) : SyncInv f0 (w.call (.pmFreqRequest k m)) := by
  obtain ⟨hflag, hmode, hsel⟩ := pmFreqRequest_sync (w := w.emit (.enter (.pmFreqRequest k m))) hv
  rw [emit_st] at hflag hmode hsel
  change (w.call (.pmFreqRequest k m)).st.freqFlag = _ at hflag
  change (w.call (.pmFreqRequest k m)).st.freqMode.toNat = _ at hmode
  change (selectFreqMode (w.call (.pmFreqRequest k m)).st).toNat = _ at hsel
  have hhist : freqHistory (w.call (.pmFreqRequest k m)).trace =
      freqHistory w.trace ++ [.request k.toNat m.toNat] := call_freqHistory _ w
  refine ⟨h.inv.call _, fun hc => ?_, fun hc => ?_⟩
  · have hold : Synced w.st ∨ m.toNat ≤ w.st.freqMode.toNat := by
      rw [hhist, caughtUp_snoc, ← or_assoc] at hc
      rcases hc with hc | ⟨-, hm⟩
      · exact .inl (h.synced hc)
      · by_cases hc : CaughtUp c f0 (freqHistory w.trace)
        · exact .inl (h.synced (.inr hc))
        · rw [(h.fresh hc).2]
          exact .inr (hm rfl)
    have hle := h.inv.le_select
    rcases hold with (hf1 | heq) | hm
    · exact .inl (hflag.trans hf1)
    · refine .inr (BitVec.eq_of_toNat_eq ?_)
      rw [hmode, hsel, heq]
    · refine .inr (BitVec.eq_of_toNat_eq ?_)
      omega
  · rw [hhist, caughtUp_snoc, not_or] at hc
    obtain ⟨hf0, hm0⟩ := h.fresh hc.1
    have hlt : ¬ m.toNat ≤ f0.toNat := fun hm => hc.2 ⟨hv, fun _ => hm⟩
    refine ⟨hflag.trans hf0, BitVec.eq_of_toNat_eq ?_⟩
    rw [hmode, hm0]
    omega

/-- A release raises the flag. -/
theorem SyncInv.call_release (h : SyncInv f0 w) {k : U16} {m : U8}
    (hv : FreqPair c (k.toNat, m.toNat)) : SyncInv f0 (w.call (.pmFreqRelease k m)) := by
  have hflag : (w.call (.pmFreqRelease k m)).st.freqFlag = 0x01 := pmFreqRelease_flag hv
  refine ⟨h.inv.call _, fun _ => .inl hflag, fun hc => absurd ?_ hc⟩
  have hhist : freqHistory (w.call (.pmFreqRelease k m)).trace =
      freqHistory w.trace ++ [.release k.toNat m.toNat] := call_freqHistory _ w
  rw [hhist, caughtUp_snoc]
  exact .inr ⟨hv, fun hr => by simp at hr⟩

/-- A call that makes no accepted vote leaves both sides alone. -/
theorem SyncInv.call_of_view (h : SyncInv f0 w) {f : Call}
    (hview : freqView (w.call f).st = freqView w.st)
    (hf : ∀ v, f.freqVote = some v → ¬ FreqPair c v.pair) : SyncInv f0 (w.call f) := by
  have hcu : CaughtUp c f0 (freqHistory (w.call f).trace) ↔ CaughtUp c f0 (freqHistory w.trace) := by
    rw [call_freqHistory]
    cases hv : f.freqVote with
    | none => rw [Option.toList_none, List.append_nil]
    | some v =>
      rw [Option.toList_some, caughtUp_snoc]
      exact or_iff_left fun hp => hf v hv hp.1
  refine ⟨h.inv.call f, ?_, ?_⟩
  · rw [hcu, synced_congr hview]
    exact h.synced
  · simp only [freqView, Prod.mk.injEq] at hview
    rw [hcu, hview.1, hview.2.2]
    exact h.fresh

/-- **Step lemma: every interface call keeps the invariant.** -/
theorem SyncInv.call (h : SyncInv f0 w) (f : Call) : SyncInv f0 (w.call f) := by
  cases hf : f.freqVote with
  | none => exact h.call_of_view (exec_freqView_of_none hf) (by simp [hf])
  | some v =>
    by_cases hv : FreqPair c v.pair
    · cases f <;> simp only [Call.freqVote, Option.some.injEq, reduceCtorEq] at hf <;> subst hf
      · exact h.call_request hv
      · exact h.call_release hv
    · refine h.call_of_view ?_ (by simpa [hf] using hv)
      unfold World.call
      rw [emit_st, exec_of_not_freqPair hf hv, emit_st]

theorem SyncInv.act (h : SyncInv f0 w) (a : HookAct X) : SyncInv f0 (w.act a) := by
  cases a with
  | call f => exact h.call f
  | plat f => exact (SyncInv.viewInv f0).plat _ _ h

/-- **Step lemma: the frequency step keeps the invariant.** A raised flag means that the votes
have caught up; the step makes the two modes equal before the hooks run. -/
theorem SyncInv.freqHandle (h : SyncInv f0 w) (env : Env c X) : SyncInv f0 (w.pmFreqHandle env) := by
  have h0 := h.emit_quiet (e := .freqHandle) rfl rfl
  unfold pmFreqHandle
  generalize w.emit .freqHandle = w0 at h0
  dsimp only
  split_ifs with hflag hne
  · -- the flag was up, so the votes have caught up
    have hcu := h0.caughtUp_of_flag hflag
    have h1 := (FreqInv.viewInv f0).mapSt w0 (fun s => { s with freqFlag := 0x00 }) rfl h0.inv
    have hset := h1.setSelected hne
    refine notify_keeps (fun _ _ _ a _ _ h => h.act a) (fun _ _ _ h => h.emit_quiet rfl rfl) ?_
    refine ⟨hset.inv ?_, fun _ => .inr ?_, fun hc => absurd ?_ hc⟩
    · rw [mapSt_st, pmSetFreq, callOut_st]
      exact h1.votes
    · rw [mapSt_st, pmSetFreq, callOut_st]
      rfl
    · rw [hset.hist]
      exact hcu
  · have hcu := h0.caughtUp_of_flag hflag
    have h1 := (FreqInv.viewInv f0).mapSt w0 (fun s => { s with freqFlag := 0x00 }) rfl h0.inv
    exact ⟨h1, fun _ => .inr (not_not.1 hne).symm, fun hc => absurd hcu hc⟩
  · exact h0

theorem SyncInv.passInv (env : Env c X) (f0 : U8) : PassInv env (SyncInv f0) where
  toPlainInv := (SyncInv.viewInv f0).toPlainInv
  sleepMode w m h := (SyncInv.viewInv f0).mapSt w (fun s => { s with sleepMode := m }) rfl h
  call _ f h := h.call f
  freqHandle _ h := h.freqHandle env

theorem SyncInv.init (ops : LpmsOps X) (hf0 : f0.toNat ≤ pmFreqLow.toNat) (x : X) :
    SyncInv f0 (start c ops f0 x) := by
  have hinv := FreqInv.init (c := c) ops hf0 x
  have hnot : ¬ CaughtUp c f0 (freqHistory (start c ops f0 x).trace) := by
    rintro ⟨v, hv, -⟩
    exact absurd hv List.not_mem_nil
  have hsel : selectFreqMode (start c ops f0 x).st = pmFreqLow := by
    have h0 : votesOf (start c ops f0 x).st.freqStatus = ∅ := votesOf_zero
    rcases selectMode_selects (by decide) (start c ops f0 x).st.freqStatus pmFreqLow with
      ⟨⟨p, hp, -⟩, -⟩ | ⟨-, he⟩
    · rw [h0] at hp
      exact absurd hp (Set.notMem_empty p)
    · exact BitVec.eq_of_toNat_eq he
  refine ⟨hinv, fun hc => .inr ?_, fun _ => ⟨rfl, rfl⟩⟩
  rcases hc with rfl | hc
  · exact hsel.symm
  · exact absurd hc hnot

/-- As long as the votes have not caught up, the selected mode is slower than the initial
one. -/
theorem SyncInv.lt_select (h : SyncInv f0 w) (hc : ¬ CaughtUp c f0 (freqHistory w.trace))
    (hf0 : f0.toNat < pmFreqLow.toNat) : f0.toNat < (selectFreqMode w.st).toNat := by
  rcases selectMode_selects (by decide) w.st.freqStatus pmFreqLow with
    ⟨⟨⟨k, m⟩, hkm, hm⟩, -⟩ | ⟨-, he⟩
  · obtain ⟨hpair, hheld⟩ := (h.inv.votes _).1 hkm
    obtain ⟨v, hv, hvp⟩ := mem_of_held hheld
    by_contra hle
    refine hc ⟨v, hv, by rw [hvp]; exact hpair, fun _ => ?_⟩
    rw [hvp]
    unfold selectFreqMode at hle
    omega
  · unfold selectFreqMode
    omega

/-! ## Convergence -/

/-- A pass with quiet hooks on the part of the static data that the frequency step reads. -/
theorem freqView_pass (hq : ∀ l, env.Quiet l) (hen : w.st.enableFlag ≠ 0) :
    freqView (w.pmRunTickless env).st =
      if w.st.freqFlag = 0x01 then (selectFreqMode w.st, w.st.freqStatus, 0x00)
      else freqView w.st := by
  have hview : freqView (w.passDecide.2.passSleep env).st = freqView w.st :=
    passSleep_view (fun _ _ => rfl) fun l _ => hq l
  have hst : (w.pmRunTickless env).st = ((w.passDecide.2.passSleep env).pmFreqHandle env).st := by
    unfold pmRunTickless
    rw [if_neg hen]
    exact callOut_st _ _
  rw [hst, pmFreqHandle_st (hq .freq)]
  generalize (w.passDecide.2.passSleep env).st = s at hview
  simp only [freqView, Prod.mk.injEq] at hview
  obtain ⟨h1, h2, h3⟩ := hview
  unfold selectFreqMode
  rw [h3]
  split_ifs
  · simp only [freqView, h2]
  · simp only [freqView, h1, h2, h3]

/-- After a pass with quiet hooks the mode in force is the selected one exactly when the flag
was up or the two modes agreed before. -/
theorem freqMode_pass_synced (hq : ∀ l, env.Quiet l) (hen : w.st.enableFlag ≠ 0) :
    (w.pmRunTickless env).st.freqMode = selectFreqMode (w.pmRunTickless env).st ↔ Synced w.st := by
  have h := freqView_pass hq hen
  unfold Synced
  split_ifs at h with hflag
  · simp only [freqView, Prod.mk.injEq] at h
    unfold selectFreqMode
    rw [h.1, h.2.1]
    exact iff_of_true rfl (.inl hflag)
  · simp only [freqView, Prod.mk.injEq] at h
    unfold selectFreqMode
    rw [h.1, h.2.1]
    exact (or_iff_right hflag).symm

/-- **Convergence at idle.** In every execution after `lpms_init` with a valid mode, an
enabled pass with quiet hooks leaves the system at the selected frequency exactly when it was
initialised at the low frequency or the votes have caught up. -/
theorem freqMode_pass_iff (c : Config) (env env' : Env c X) (ops : LpmsOps X) (f0 : U8) (x : X)
    (hf0 : f0 = pmFreqHigh ∨ f0 = pmFreqNormal ∨ f0 = pmFreqLow) (es : List (Op X))
    (hen : ((start c ops f0 x).run env es).st.enableFlag ≠ 0) (hq : ∀ l, env'.Quiet l) :
    let w := (start c ops f0 x).run env es
    (w.pmRunTickless env').st.freqMode = selectFreqMode (w.pmRunTickless env').st ↔
      f0 = pmFreqLow ∨ ∃ v ∈ freqHistory w.trace,
        FreqPair c v.pair ∧ (v.isRequest = true → v.pair.2 ≤ f0.toNat) := by
  intro w
  have hlow : f0.toNat ≤ pmFreqLow.toNat := by
    rcases hf0 with rfl | rfl | rfl <;> decide
  have h : SyncInv f0 w := (SyncInv.passInv env f0).run es (SyncInv.init ops hlow x)
  rw [freqMode_pass_synced hq hen]
  constructor
  · intro hs
    by_contra hc
    rw [not_or] at hc
    obtain ⟨hflag, hmode⟩ := h.fresh hc.2
    rcases hs with hs | hs
    · rw [hflag] at hs
      exact absurd hs (by decide)
    · have hlt : f0.toNat < pmFreqLow.toNat :=
        lt_of_le_of_ne hlow fun he => hc.1 (BitVec.eq_of_toNat_eq he)
      have := h.lt_select hc.2 hlt
      rw [← hs, hmode] at this
      omega
  · exact h.synced

/-- A system initialised at the low frequency, one request and one release: the next pass
returns to the low frequency. -/
theorem freqMode_pass_after_release :
    let w := (start Config.shipped .clock pmFreqLow 0).run (.silent : Env Config.shipped U32)
      [.call .lpmsEnable, .call (.pmFreqRequest 40 pmFreqHigh), .call (.pmFreqRequest 3 pmFreqHigh),
        .call (.pmFreqRelease 3 pmFreqHigh)]
    w.st.freqMode = pmFreqHigh ∧
      (w.pmRunTickless .silent).st.freqMode = selectFreqMode (w.pmRunTickless .silent).st :=
  ⟨by decide +kernel,
    (freqMode_pass_iff Config.shipped .silent .silent .clock pmFreqLow 0 (by decide) _
      (by decide +kernel) Env.silent_quiet).2 (.inl rfl)⟩

/-- Initialised at the high frequency, with no vote at all: the pass leaves it there. -/
theorem freqMode_pass_stays_high :
    let w := (start Config.shipped .clock pmFreqHigh 0).run (.silent : Env Config.shipped U32)
      [.call .lpmsEnable]
    ¬ (w.pmRunTickless .silent).st.freqMode = selectFreqMode (w.pmRunTickless .silent).st := by
  decide +kernel

end World
end LowPower
