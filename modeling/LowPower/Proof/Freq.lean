import LowPower.Lib.History
import LowPower.Proof.Votes

/-!
# The frequency in force

The mode in force is the last one given to `set_freq` (`inForce`). Raising it is immediate,
in `pm_freq_request`; lowering it waits for the idle pass. The invariant `FreqInv` ties the
vote matrix, `freq_mode` and the callback history together:

* `FreqCore`: what the record must justify, for a fixed history of completed votes;
* one lemma per place that calls `set_freq` (`FreqCore.setFreq`, `FreqCore.exec`,
  `FreqInv.setSelected`), with hooks free to vote in the middle of the pass;
* `freqMode_run`: the system never runs slower than an outstanding request.
-/

namespace LowPower

open Vote

variable {c : Config} {X : Type}

/-! ## Frequency votes -/

/-- The frequency vote a call makes, whether or not its arguments are in range. -/
def Call.freqVote : Call → Option (Vote ℕ ℕ)
  | .pmFreqRequest k m => some (.request k.toNat m.toNat)
  | .pmFreqRelease k m => some (.release k.toNat m.toNat)
  | _ => none

/-- The pairs the frequency votes accept: a configured module and a mode below `PM_FREQ_LOW`. -/
abbrev FreqPair (c : Config) (p : ℕ × ℕ) : Prop :=
  p.1 < c.pmModuleMax ∧ p.2 < pmFreqModeMax - 1

/-- The frequency vote completed by an entry. -/
def Ev.freqVote : Ev → Option (Vote ℕ ℕ)
  | .done f => f.freqVote
  | _ => none

/-- The mode an entry gives to `set_freq`. -/
def Ev.setMode : Ev → Option U8
  | .setFreq _ m => some m
  | _ => none

/-- The frequency votes of the calls that have returned. -/
def freqHistory (tr : List (Ev × Lpms c)) : List (Vote ℕ ℕ) := tr.filterMap (·.1.freqVote)

/-- The mode given to `set_freq` last, or the initial mode. -/
def inForce (f0 : U8) (tr : List (Ev × Lpms c)) : U8 := latest (·.1.setMode) f0 tr

/-- Between two events: `freq_mode` is the mode in force, and no outstanding request is for
a faster one. -/
structure FreqPoint (f0 : U8) (tr : List (Ev × Lpms c)) (s : Lpms c) : Prop where
  mode : s.freqMode = inForce f0 tr
  fast : ∀ k < c.pmModuleMax, ∀ m, Held (freqHistory tr) (k, m) → s.freqMode.toNat ≤ m

/-- What an entry of the record must satisfy, given the entries before it. -/
structure FreqEntry (f0 : U8) (pre : List (Ev × Lpms c)) (e : Ev × Lpms c) : Prop where
  point : FreqPoint f0 pre e.2
  change : ∀ site m, e.1 = .setFreq site m → m ≠ inForce f0 pre
  raise : ∀ site m, e.1 = .setFreq site m → m < inForce f0 pre → site = .pmFreqRequest
  lower : ∀ site m, e.1 = .setFreq site m → inForce f0 pre < m → site = .pmFreqHandle

section Snoc

variable {f0 : U8} {tr : List (Ev × Lpms c)} {s : Lpms c}

theorem inForce_snoc (e : Ev) : inForce f0 (tr ++ [(e, s)]) = e.setMode.getD (inForce f0 tr) :=
  latest_snoc _ _ _ _

theorem freqHistory_snoc (e : Ev) :
    freqHistory (tr ++ [(e, s)]) = freqHistory tr ++ e.freqVote.toList :=
  filterMap_snoc _ _ _

end Snoc

theorem Ev.Plain.freqVote {e : Ev} (h : e.Plain) : e.freqVote = none := by
  cases e <;> first | rfl | exact h.elim

namespace World

/-- The platform can change its frequency. -/
def HasSetFreq (w : World c X) : Prop := (w.ops.bind (·.setFreq)).isSome = true

/-- What the record says about the frequency, for a fixed history `H` of completed votes; the
callback history counts where the platform has `set_freq`. -/
structure FreqCore (f0 : U8) (H : List (Vote ℕ ℕ)) (w : World c X) : Prop where
  hist : freqHistory w.trace = H
  low : w.st.freqMode.toNat ≤ pmFreqLow.toNat
  fast : ∀ k < c.pmModuleMax, ∀ m, Held H (k, m) → w.st.freqMode.toNat ≤ m
  mode : w.HasSetFreq → w.st.freqMode = inForce f0 w.trace
  past : w.HasSetFreq → Justified (FreqEntry f0) w.trace

/-- Between two calls: the matrix moreover holds the history. -/
structure FreqInv (f0 : U8) (w : World c X) : Prop where
  core : FreqCore f0 (freqHistory w.trace) w
  votes : Holds (FreqPair c) (votesOf w.st.freqStatus) (freqHistory w.trace)

variable {w : World c X} {env : Env c X} {f0 : U8} {H : List (Vote ℕ ℕ)}

/-! ## The record stays justified -/

theorem FreqCore.point (h : FreqCore f0 H w) (hs : w.HasSetFreq) :
    FreqPoint f0 w.trace w.st := by
  refine ⟨h.mode hs, ?_⟩
  rw [h.hist]
  exact h.fast

/-- An entry that neither sets the frequency nor completes a vote. -/
theorem FreqCore.emit_quiet {e : Ev} (hs : e.setMode = none) (hv : e.freqVote = none)
    (h : FreqCore f0 H w) : FreqCore f0 H (w.emit e) := by
  have hno : ∀ {site m}, e ≠ .setFreq site m := by
    rintro site m rfl
    exact Option.some_ne_none _ hs
  have hmode : inForce f0 (w.emit e).trace = inForce f0 w.trace := by
    rw [emit_trace, inForce_snoc, hs, Option.getD_none]
  have hhist : freqHistory (w.emit e).trace = freqHistory w.trace := emit_unread hv w
  refine ⟨hhist.trans h.hist, h.low, h.fast, fun ho => ?_, fun ho => ?_⟩
  · rw [hmode]
    exact h.mode ho
  · exact justified_snoc.2 ⟨h.past ho, h.point ho, fun _ _ he => absurd he hno,
      fun _ _ he => absurd he hno, fun _ _ he => absurd he hno⟩

theorem FreqCore.viewInv (f0 : U8) (H : List (Vote ℕ ℕ)) :
    ViewInv (X := X) (fun s : Lpms c => s.freqMode) (FreqCore f0 H) where
  plat w x h := ⟨h.hist, h.low, h.fast, h.mode, h.past⟩
  emit w e he h := by
    refine h.emit_quiet ?_ he.freqVote
    cases e <;> first | rfl | exact he.elim
  mapSt w f hf h := by
    refine ⟨h.hist, ?_, ?_, fun ho => ?_, h.past⟩
    · rw [mapSt_st, hf]
      exact h.low
    · rw [mapSt_st, hf]
      exact h.fast
    · rw [mapSt_st, hf]
      exact h.mode ho

/-- **A change of frequency**, to a mode no slower than any outstanding request and from the
right place, keeps the record justified. -/
theorem FreqCore.setFreq {site : FreqSite} {m : U8} (h : FreqCore f0 H w)
    (hne : m ≠ w.st.freqMode) (hup : m < w.st.freqMode → site = .pmFreqRequest)
    (hdown : w.st.freqMode < m → site = .pmFreqHandle) (hlow : m.toNat ≤ pmFreqLow.toNat)
    (hfast : ∀ k < c.pmModuleMax, ∀ m', Held H (k, m') → m.toNat ≤ m') :
    FreqCore f0 H ((w.pmSetFreq site m).mapSt fun s => { s with freqMode := m }) := by
  cases hf : w.ops.bind (·.setFreq) with
  | none =>
    have hw : w.pmSetFreq site m = w := by
      cases ho : w.ops <;> simp_all [pmSetFreq, callOut]
    -- without `set_freq` nothing is promised about the record
    have hno : ¬ w.HasSetFreq := by simp [HasSetFreq, hf]
    rw [hw]
    exact ⟨h.hist, hlow, hfast, fun ho => absurd ho hno, fun ho => absurd ho hno⟩
  | some f =>
    have hw : w.pmSetFreq site m = { w.emit (.setFreq site m) with plat := f m w.plat } := by
      cases ho : w.ops <;> simp_all [pmSetFreq, callOut]
    have ho : w.HasSetFreq := by simp [HasSetFreq, hf]
    rw [hw]
    have hmode := h.mode ho
    have hh : freqHistory (w.trace ++ [(Ev.setFreq site m, w.st)]) = H := by
      rw [freqHistory_snoc, h.hist]
      exact List.append_nil H
    refine ⟨hh, hlow, hfast, fun _ => (inForce_snoc (.setFreq site m)).symm,
      fun _ => justified_snoc.2 ⟨h.past ho, h.point ho, ?_, ?_, ?_⟩⟩
    · rintro site' m' he
      cases he
      rw [← hmode]
      exact hne
    · rintro site' m' he hlt
      cases he
      rw [← hmode] at hlt
      exact hup hlt
    · rintro site' m' he hlt
      cases he
      rw [← hmode] at hlt
      exact hdown hlt

/-! ## The calls -/

/-- The body of a call keeps the record justified; `pm_freq_request` may raise the
frequency. -/
theorem FreqCore.exec (h : FreqCore f0 H w) (f : Call) : FreqCore f0 H (w.exec f) := by
  refine (FreqCore.viewInv f0 H).body.exec f ?_ (fun _ m _ _ _ w hm h => ?_) h
  · intro s s' hw
    cases f <;> simp only [Call.Writes] at hw <;> first | rw [hw] | rw [hw.1]
  · have hlt : m.toNat < w.st.freqMode.toNat := hm
    refine h.setFreq (fun he => ?_) (fun _ => rfl) (fun hgt => ?_) ?_ ?_
    · subst he
      omega
    · have : w.st.freqMode.toNat < m.toNat := hgt
      omega
    · have := h.low
      omega
    · intro k' hk' m' hm'
      have := h.fast k' hk' m' hm'
      omega

theorem pmFreqRequest_freqStatus (k : U16) (m : U8) :
    votesOf (w.pmFreqRequest k m).st.freqStatus =
      applyIn (FreqPair c) (votesOf w.st.freqStatus) (.request k.toNat m.toNat) := by
  unfold pmFreqRequest applyIn
  by_cases hk : c.pmModuleMax ≤ k.toNat
  · rw [dif_pos hk, if_neg (by simp only [pair_request]; omega)]
  by_cases hm : pmFreqModeMax - 1 ≤ m.toNat
  · rw [dif_neg hk, dif_pos hm, if_neg (by simp only [pair_request]; omega)]
  rw [dif_neg hk, dif_neg hm, if_pos (by simp only [pair_request]; omega), locked_st]
  refine Eq.trans ?_ (votesOf_setBit _ ⟨m.toNat, by omega⟩ ⟨k.toNat, by omega⟩)
  dsimp only
  split_ifs <;> simp [pmSetFreq, pmIrqDisable]

theorem pmFreqRelease_freqStatus (k : U16) (m : U8) :
    votesOf (w.pmFreqRelease k m).st.freqStatus =
      applyIn (FreqPair c) (votesOf w.st.freqStatus) (.release k.toNat m.toNat) := by
  unfold pmFreqRelease applyIn
  by_cases hk : c.pmModuleMax ≤ k.toNat
  · rw [dif_pos hk, if_neg (by simp only [pair_release]; omega)]
  by_cases hm : pmFreqModeMax - 1 ≤ m.toNat
  · rw [dif_neg hk, dif_pos hm, if_neg (by simp only [pair_release]; omega)]
  rw [dif_neg hk, dif_neg hm, if_pos (by simp only [pair_release]; omega), locked_mapSt_st]
  exact votesOf_clearBit _ _ _

/-- After an accepted request the system runs at least as fast. -/
theorem pmFreqRequest_freqMode_le {k : U16} {m : U8} (h : FreqPair c (k.toNat, m.toNat)) :
    (w.pmFreqRequest k m).st.freqMode.toNat ≤ m.toNat := by
  unfold pmFreqRequest
  rw [dif_neg (by omega), dif_neg (by omega), locked_st]
  dsimp only
  split_ifs with hm
  · simp
  · rw [BitVec.not_lt] at hm
    exact hm

/-- Calls that make no frequency vote leave the frequency matrix alone. -/
theorem exec_freqStatus_of_none {f : Call} (hf : f.freqVote = none) :
    (w.exec f).st.freqStatus = w.st.freqStatus := by
  refine (ViewInv.view (·.freqStatus) w.st.freqStatus).body.exec f ?_ ?_ rfl
  · intro s s' h
    cases f <;> simp only [Call.freqVote, reduceCtorEq, Call.Writes] at hf h <;> first | rw [h] | rw [h.1]
  · intro k m _ _ _ w' _ h
    simpa [pmSetFreq] using h

/-- What a call did to the frequency, seen when it returns. -/
theorem exec_freqVote {f : Call} {v : Vote ℕ ℕ} (hf : f.freqVote = some v) :
    votesOf (w.exec f).st.freqStatus = applyIn (FreqPair c) (votesOf w.st.freqStatus) v ∧
      (v.isRequest = true → FreqPair c v.pair → (w.exec f).st.freqMode.toNat ≤ v.pair.2) := by
  cases f <;> simp only [Call.freqVote, Option.some.injEq, reduceCtorEq] at hf <;> subst hf
  · exact ⟨pmFreqRequest_freqStatus _ _, fun _ h => pmFreqRequest_freqMode_le h⟩
  · exact ⟨pmFreqRelease_freqStatus _ _, fun h => by simp at h⟩

/-- A call that has returned adds its vote to the history. -/
theorem call_freqHistory (f : Call) (w : World c X) :
    freqHistory (w.call f).trace = freqHistory w.trace ++ f.freqVote.toList :=
  call_reading (fun _ he => he.freqVote) (fun _ _ => rfl) f rfl w

/-- **Step lemma: every interface call keeps the invariant.** -/
theorem FreqInv.call (h : FreqInv f0 w) (f : Call) : FreqInv f0 (w.call f) := by
  have h1 : FreqCore f0 (freqHistory w.trace) ((w.emit (.enter f)).exec f) :=
    (h.core.emit_quiet rfl rfl).exec f
  generalize hw' : (w.emit (.enter f)).exec f = w' at h1
  have hcall : w.call f = w'.emit (.done f) := by rw [← hw']; rfl
  have hhist := call_freqHistory f w
  have hvotes : Holds (FreqPair c) (votesOf (w.call f).st.freqStatus) (freqHistory (w.call f).trace) := by
    rw [hhist, hcall, emit_st, ← hw']
    cases hf : f.freqVote with
    | none =>
      rw [exec_freqStatus_of_none hf, Option.toList_none, List.append_nil]
      exact h.votes
    | some v =>
      rw [(exec_freqVote hf).1]
      exact h.votes.snoc v
  refine ⟨⟨rfl, ?_, ?_, fun ho => ?_, fun ho => ?_⟩, hvotes⟩
  · rw [hcall]
    exact h1.low
  · -- the vote just completed is the only new one
    rw [hhist]
    intro k hk m hm
    rw [hcall, emit_st]
    cases hf : f.freqVote with
    | none => exact h1.fast k hk m (by simpa [hf] using hm)
    | some v =>
      rw [hf, Option.toList_some, held_snoc] at hm
      rcases hm with ⟨hv, hr⟩ | ⟨-, hm⟩
      · by_cases hpair : FreqPair c v.pair
        · have := (exec_freqVote (w := w.emit (.enter f)) hf).2 hr hpair
          rw [hw', hv] at this
          exact this
        · rw [hv] at hpair
          have hlow : w'.st.freqMode.toNat ≤ 2 := h1.low
          have hm2 : 2 ≤ m := by
            by_contra hlt
            exact hpair ⟨hk, by simp only [pmFreqModeMax]; omega⟩
          omega
      · exact h1.fast k hk m hm
  · rw [hcall] at ho ⊢
    rw [emit_trace, inForce_snoc]
    exact h1.mode ho
  · rw [hcall] at ho ⊢
    rw [emit_trace]
    exact justified_snoc.2 ⟨h1.past ho, h1.point ho, by simp, by simp, by simp⟩

/-! ## The idle pass -/

theorem FreqCore.inv (h : FreqCore f0 H w)
    (hv : Holds (FreqPair c) (votesOf w.st.freqStatus) H) : FreqInv f0 w := by
  obtain rfl := h.hist
  exact ⟨h, hv⟩

theorem FreqInv.emit_quiet {e : Ev} (hs : e.setMode = none) (hv : e.freqVote = none)
    (h : FreqInv f0 w) : FreqInv f0 (w.emit e) :=
  (h.core.emit_quiet hs hv).inv h.votes

theorem FreqInv.viewInv (f0 : U8) :
    ViewInv (X := X) (fun s : Lpms c => (s.freqMode, s.freqStatus)) (FreqInv f0) where
  plat _ _ h := ((FreqCore.viewInv f0 _).plat _ _ h.core).inv h.votes
  emit _ _ he h := ((FreqCore.viewInv f0 _).emit _ _ he h.core).inv h.votes
  mapSt w f hf h := by
    simp only [Prod.mk.injEq] at hf
    refine ((FreqCore.viewInv f0 _).mapSt w f hf.1 h.core).inv ?_
    rw [mapSt_st, hf.2]
    exact h.votes

/-- The selected mode is the slowest that serves every vote: it is no faster than the mode
in force. -/
theorem FreqInv.le_select (h : FreqInv f0 w) :
    w.st.freqMode.toNat ≤ (selectFreqMode w.st).toNat := by
  rcases selectMode_selects (by decide) w.st.freqStatus pmFreqLow with ⟨⟨⟨k, m⟩, hkm, hm⟩, -⟩ | ⟨-, he⟩
  · obtain ⟨hpair, hheld⟩ := (h.votes _).1 hkm
    have := h.core.fast k hpair.1 m hheld
    unfold selectFreqMode
    omega
  · have := h.core.low
    unfold selectFreqMode
    omega

/-- The selected mode serves every outstanding request, in range or not. -/
theorem FreqInv.select_le (h : FreqInv f0 w) :
    (selectFreqMode w.st).toNat ≤ pmFreqLow.toNat ∧
      ∀ k < c.pmModuleMax, ∀ m, Held (freqHistory w.trace) (k, m) →
        (selectFreqMode w.st).toNat ≤ m := by
  have hsel := selectMode_selects (by decide) w.st.freqStatus pmFreqLow
  have hlow : (selectFreqMode w.st).toNat ≤ 2 := by
    rcases hsel with ⟨⟨⟨k, m⟩, hkm, hm⟩, -⟩ | ⟨-, he⟩
    · have : m < pmFreqModeMax - 1 := (lt_of_mem_votesOf hkm).2
      simp only [pmFreqModeMax] at this
      unfold selectFreqMode
      omega
    · exact le_of_eq he
  refine ⟨hlow, fun k hk m hm => ?_⟩
  by_cases hm2 : m < pmFreqModeMax - 1
  · exact hsel.le (p := (k, m)) ((h.votes _).2 ⟨⟨hk, hm2⟩, hm⟩)
  · simp only [pmFreqModeMax] at hm2
    omega

/-- Foreign code may vote, and keeps the invariant. -/
theorem FreqInv.act (h : FreqInv f0 w) (a : HookAct X) : FreqInv f0 (w.act a) := by
  cases a with
  | call f => exact h.call f
  | plat f => exact (FreqInv.viewInv f0).plat _ _ h

/-- Setting the selected mode in the idle pass: it is slower than the mode in force, and
serves every outstanding request. -/
theorem FreqInv.setSelected (h : FreqInv f0 w) (hne : selectFreqMode w.st ≠ w.st.freqMode) :
    FreqCore f0 (freqHistory w.trace) ((w.pmSetFreq .pmFreqHandle (selectFreqMode w.st)).mapSt
      fun s => { s with freqMode := selectFreqMode w.st }) := by
  have hlt : w.st.freqMode.toNat < (selectFreqMode w.st).toNat :=
    lt_of_le_of_ne h.le_select fun he => hne (BitVec.eq_of_toNat_eq he).symm
  refine h.core.setFreq hne (fun hgt => ?_) (fun _ => rfl) h.select_le.1 h.select_le.2
  have : (selectFreqMode w.st).toNat < w.st.freqMode.toNat := hgt
  omega

/-- **Step lemma: the frequency step keeps the invariant**, whatever the frequency hooks
vote. -/
theorem FreqInv.freqHandle (h : FreqInv f0 w) (env : Env c X) :
    FreqInv f0 (w.pmFreqHandle env) := by
  refine freqHandle_keeps (fun _ h => h.emit_quiet rfl rfl)
    (fun w _ => (FreqInv.viewInv f0).mapSt w _ rfl) (fun w hne h => ?_)
    (fun _ _ _ a _ _ h => h.act a) (fun _ _ _ _ h => h.emit_quiet rfl rfl) h
  refine (h.setSelected hne).inv ?_
  rw [mapSt_st, pmSetFreq, callOut_st]
  exact h.votes

theorem FreqInv.passInv (env : Env c X) (f0 : U8) : PassInv env (FreqInv f0) where
  toPlainInv := (FreqInv.viewInv f0).toPlainInv
  sleepMode w m h := (FreqInv.viewInv f0).mapSt w (fun s => { s with sleepMode := m }) rfl h
  call _ f h := h.call f
  freqHandle _ h := h.freqHandle env

theorem FreqInv.init (ops : LpmsOps X) (hf0 : f0.toNat ≤ pmFreqLow.toNat) (x : X) :
    FreqInv f0 (start c ops f0 x) := by
  refine ⟨⟨rfl, hf0, ?_, fun _ => rfl, fun _ => Justified.nil _⟩, ?_⟩
  · intro k _ m hm
    exact absurd hm (not_held_nil _)
  · have h0 : votesOf (start c ops f0 x).st.freqStatus = ∅ := votesOf_zero
    rw [h0]
    exact Holds.nil _

/-- **Never slower than asked.** In every execution after `lpms_init`, with hooks that may
vote in the middle of a pass, before every event and at the end: `freq_mode` is the mode last
given to `set_freq` and is at most every mode outstanding; `set_freq` is never given the mode
in force, is given a faster one only by `pm_freq_request` and a slower one only by the idle
pass. -/
theorem freqMode_run (c : Config) (env : Env c X) (ops : LpmsOps X) (f0 : U8) (x : X)
    (hops : ops.setFreq.isSome = true)
    (hf0 : f0 = pmFreqHigh ∨ f0 = pmFreqNormal ∨ f0 = pmFreqLow) (es : List (Op X)) :
    let w := (start c ops f0 x).run env es
    FreqPoint f0 w.trace w.st ∧ Justified (FreqEntry f0) w.trace := by
  intro w
  have hlow : f0.toNat ≤ pmFreqLow.toNat := by
    rcases hf0 with rfl | rfl | rfl <;> decide
  have h : FreqInv f0 w := (FreqInv.passInv env f0).run es (FreqInv.init ops hlow x)
  have ho : w.HasSetFreq := by
    unfold HasSetFreq
    rw [run_ops]
    exact hops
  exact ⟨h.core.point ho, h.core.past ho⟩

/-- A wakeup hook votes for the high frequency in the middle of a pass: the mode follows at
once, and a release is served by the next pass. -/
theorem freqMode_run_vote_in_hook :
    let env : Env Config.shipped U32 := ⟨fun _ _ _ _ => [.call (.pmFreqRequest 3 pmFreqHigh)]⟩
    let es : List (Op U32) := [.call (.lpmsSethook .wake (some 1)), .call .lpmsEnable, .pmRunTickless,
      .call (.pmFreqRelease 3 pmFreqHigh)]
    let w := (start Config.shipped .clock pmFreqLow 0).run env es
    w.st.freqMode = pmFreqHigh ∧ FreqPoint pmFreqLow w.trace w.st ∧
      Justified (FreqEntry pmFreqLow) w.trace :=
  ⟨by decide +kernel, freqMode_run _ _ _ _ _ rfl (by decide) _⟩

end World
end LowPower
