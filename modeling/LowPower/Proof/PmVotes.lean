import LowPower.Proof.Votes
import LowPower.Proof.PmRequests

/-!
# Counters against a vote matrix

The same paired requests and releases, made of LPMS (`pm_sleep_request`) and of PM 2.0
(`rt_pm_module_request`). LPMS keeps a bit per module and mode, PM 2.0 one counter per mode, shared
by all modules.

* `Agree`: every counter is the number of modules whose bit is set, and the cached selection is
  the one the counters give.
* `agree_snoc`: one more paired operation keeps it. Neither the bound 255 nor the floor at zero is
  met, since at most 17 modules vote.
* `frameworks_agree`: the two frameworks select the same mode after every operation.
-/

namespace LowPower.Pm

open Vote LowPower.Pm.World

variable {X Y : Type}

/-- The modules with their bit set for a mode. -/
def modulesFor (s : Lpms .shipped) (m : ℕ) : Finset ℕ :=
  (Finset.range Config.shipped.pmModuleMax).filter fun k => s.sleepStatus.test m k

theorem coe_modulesFor (s : Lpms .shipped) (m : ℕ) :
    (modulesFor s m : Set ℕ) = voters (votesOf s.sleepStatus) m := by
  ext k
  simp only [modulesFor, Finset.coe_filter, Finset.mem_range, Set.mem_ofPred_eq, voters, mem_votesOf]
  constructor
  · rintro ⟨-, hk⟩
    exact hk
  · intro hk
    exact ⟨(lt_of_mem_votesOf hk).1, hk⟩

theorem voters_finite (s : Lpms .shipped) (m : ℕ) : (voters (votesOf s.sleepStatus) m).Finite := by
  rw [← coe_modulesFor]
  exact (modulesFor s m).finite_toSet

theorem card_modulesFor (s : Lpms .shipped) (m : ℕ) :
    (modulesFor s m).card = (voters (votesOf s.sleepStatus) m).ncard := by
  rw [← coe_modulesFor, Set.ncard_coe_finset]

theorem card_modulesFor_le (s : Lpms .shipped) (m : ℕ) : (modulesFor s m).card ≤ 17 := by
  have h := Finset.card_filter_le (Finset.range Config.shipped.pmModuleMax)
    fun k => s.sleepStatus.test m k
  rw [Finset.card_range] at h
  exact h

/-! ## The two calls -/

/-- A vote as a call of LPMS. -/
def lpmsCall : Vote ℕ ℕ → LowPower.Call
  | .request k m => .pmSleepRequest (BitVec.ofNat 16 k) (BitVec.ofNat 8 m)
  | .release k m => .pmSleepRelease (BitVec.ofNat 16 k) (BitVec.ofNat 8 m)

/-- The same vote as a call of PM 2.0. -/
def pmCall : Vote ℕ ℕ → Call
  | .request k m => .rtPmModuleRequest (BitVec.ofNat 8 k) (BitVec.ofNat 8 m)
  | .release k m => .rtPmModuleRelease (BitVec.ofNat 8 k) (BitVec.ofNat 8 m)

/-- LPMS after the votes, from power-on. -/
def lpmsAfter (x : X) (vs : List (Vote ℕ ℕ)) : LowPower.World .shipped X :=
  (vs.map lpmsCall).foldl LowPower.World.exec (.boot .shipped x)

/-- PM 2.0 after the votes, from initialisation and the release of the power-on request. -/
def pmAfter (ops : RtPmOps Y) (timerMask : U8) (rtTick : U32) (y : Y) (vs : List (Vote ℕ ℕ)) :
    World Y :=
  ((start ops timerMask rtTick y).call (.rtPmRelease pmSleepModeNone)).calls (vs.map pmCall)

/-- A vote both frameworks accept: a module below 17 and a mode among NONE, IDLE and LIGHT. -/
def Accepted (v : Vote ℕ ℕ) : Prop := v.pair.1 < 17 ∧ v.pair.2 < 3

/-- The arguments of the calls are the numbers of the vote. -/
theorem toNat_args {k m : ℕ} (hk : k < 17) (hm : m < 3) :
    (BitVec.ofNat 16 k).toNat = k ∧ (BitVec.ofNat 8 k).toNat = k ∧ (BitVec.ofNat 8 m).toNat = m := by
  simp only [BitVec.toNat_ofNat]
  omega

theorem lpmsCall_sleepVote {v : Vote ℕ ℕ} (hv : Accepted v) : (lpmsCall v).sleepVote = some v := by
  obtain ⟨hk, hm⟩ := hv
  cases v with
  | request k m =>
    obtain ⟨h16, -, h8⟩ := toNat_args (k := k) (m := m) hk hm
    simp only [lpmsCall, LowPower.Call.sleepVote, h16, h8]
  | release k m =>
    obtain ⟨h16, -, h8⟩ := toNat_args (k := k) (m := m) hk hm
    simp only [lpmsCall, LowPower.Call.sleepVote, h16, h8]

/-- What a vote does to a counter. -/
def tallyOfVote (v : Vote ℕ ℕ) : Tally := if v.isRequest then .request else .release

theorem mode_lt {m : ℕ} (h : m < 3) : m < pmSleepModeMax := h.trans (by decide)

theorem pmCall_tally {v : Vote ℕ ℕ} (hv : Accepted v) :
    (pmCall v).tally = some (tallyOfVote v, ⟨v.pair.2, mode_lt hv.2⟩) := by
  obtain ⟨hk, hm⟩ := hv
  cases v with
  | request k m =>
    obtain ⟨-, hk', hm'⟩ := toNat_args (k := k) (m := m) hk hm
    simp only [pmCall, Call.tally]
    rw [dif_pos (by rw [hm']; exact mode_lt hm), if_pos (by rw [hk']; exact hk)]
    simp only [hm']
    rfl
  | release k m =>
    obtain ⟨-, hk', hm'⟩ := toNat_args (k := k) (m := m) hk hm
    simp only [pmCall, Call.tally]
    rw [dif_pos (by rw [hm']; exact mode_lt hm), if_pos (by rw [hk']; exact hk)]
    simp only [hm']
    rfl

theorem pmCall_tallyOf {v : Vote ℕ ℕ} (hv : Accepted v) (m : Fin pmSleepModeMax) :
    tallyOf m (pmCall v) = if v.pair.2 = m.val then some (tallyOfVote v) else none := by
  unfold tallyOf
  rw [pmCall_tally hv]
  dsimp only
  congr 1
  rw [Fin.ext_iff]

/-! ## The simulation -/

/-- The two frameworks after the same votes. -/
structure Agree (vs : List (Vote ℕ ℕ)) (l : LowPower.World .shipped X) (p : World Y) : Prop where
  held : Holds (SleepPair .shipped) (votesOf l.st.sleepStatus) vs
  counter : ∀ m, p.pm.counter m = (modulesFor l.st m.val).card
  synced : World.Synced p.pm
  default : p.pm.defaultDeepsleep = pmSleepModeDeep
  initFlag : p.pm.initFlag ≠ 0

theorem agree_nil (ops : RtPmOps Y) (timerMask : U8) (rtTick : U32) (x : X) (y : Y) :
    Agree [] (lpmsAfter x []) (pmAfter ops timerMask rtTick y []) := by
  have hi := start_initFlag ops timerMask rtTick y
  have hstart : votesOf (lpmsAfter x []).st.sleepStatus = ∅ := votesOf_zero
  have hnil : pmAfter ops timerMask rtTick y [] =
      (start ops timerMask rtTick y).call (.rtPmRelease 0) := rfl
  refine ⟨?_, ?_, ?_, ?_, ?_⟩
  · rw [hstart]
    exact Holds.nil _
  · intro m
    have hnone : (pmAfter ops timerMask rtTick y []).pm.counter m = 0 := by
      refine (start_calls_counter ops timerMask rtTick y m [.rtPmRelease 0]).trans ?_
      revert m
      decide
    rw [hnone, card_modulesFor, hstart]
    simp [voters]
  · rw [hnil]
    exact call_synced hi (start_synced ops timerMask rtTick y) _
  · rw [hnil, (call_same (.rtPmRelease 0)).defaultDeepsleep, start_pm]
    rfl
  · exact calls_initFlag (w := start ops timerMask rtTick y) hi [.rtPmRelease 0]

/-- **One more paired operation keeps the agreement.** -/
theorem agree_snoc {vs : List (Vote ℕ ℕ)} {v : Vote ℕ ℕ} {l : LowPower.World .shipped X}
    {p : World Y} (hv : Accepted v) (hp : Paired (vs ++ [v])) (h : Agree vs l p) :
    Agree (vs ++ [v]) (l.exec (lpmsCall v)) (p.call (pmCall v)) := by
  have hq : SleepPair .shipped v.pair := hv
  have hvotes : votesOf (l.exec (lpmsCall v)).st.sleepStatus =
      apply (votesOf l.st.sleepStatus) v := by
    rw [LowPower.World.exec_sleepVotes, lpmsCall_sleepVote hv, Option.map_some, Option.getD_some, applyIn,
      if_pos hq]
  -- a paired vote always changes the set: a request is on a pair not in force
  have hnew : v.isRequest = true ↔ v.pair ∉ votesOf l.st.sleepStatus := by
    rw [hp.isRequest_iff, h.held v.pair]
    exact ⟨fun hn hh => hn hh.2, fun hn hh => hn ⟨hq, hh⟩⟩
  refine ⟨?_, ?_, call_synced h.initFlag h.synced _, ?_, ?_⟩
  · rw [hvotes]
    have hsnoc := h.held.snoc v
    rwa [applyIn, if_pos hq] at hsnoc
  · intro m
    rw [call_counter h.initFlag, pmCall_tallyOf hv, h.counter, card_modulesFor (l.exec _).st, hvotes]
    have hle := card_modulesFor_le l.st m.val
    have hcard := card_modulesFor l.st m.val
    by_cases hm : v.pair.2 = m.val
    · rw [if_pos hm, Option.map_some, Option.getD_some]
      cases v with
      | request k m' =>
        obtain rfl : m' = m.val := hm
        rw [ncard_voters_request (voters_finite l.st _) (hnew.1 rfl), ← hcard]
        exact if_pos (by omega)
      | release k m' =>
        obtain rfl : m' = m.val := hm
        have hmem : (k, m.val) ∈ votesOf l.st.sleepStatus := by
          by_contra hno
          exact Bool.noConfusion (hnew.2 hno)
        rw [ncard_voters_release hmem, ← hcard]
        rfl
    · rw [if_neg hm, voters_apply_of_ne hm, ← hcard]
      rfl
  · rw [(call_same _).defaultDeepsleep, h.default]
  · exact calls_initFlag h.initFlag [pmCall v]

/-- **The simulation along a run.** -/
theorem agree_run (ops : RtPmOps Y) (timerMask : U8) (rtTick : U32) (x : X) (y : Y)
    {vs : List (Vote ℕ ℕ)} (hv : ∀ v ∈ vs, Accepted v) (hp : Paired vs) :
    Agree vs (lpmsAfter x vs) (pmAfter ops timerMask rtTick y vs) := by
  induction vs using List.reverseRecOn with
  | nil => exact agree_nil ops timerMask rtTick x y
  | append_singleton vs v ih =>
    have hl : lpmsAfter x (vs ++ [v]) = (lpmsAfter x vs).exec (lpmsCall v) := by
      simp [lpmsAfter]
    have hpm : pmAfter ops timerMask rtTick y (vs ++ [v]) =
        (pmAfter ops timerMask rtTick y vs).call (pmCall v) := by
      rw [pmAfter, List.map_append, List.map_singleton, calls_snoc]
      rfl
    rw [hl, hpm]
    have hvs := ih (fun v' hv' => hv v' (List.mem_append_left _ hv')) hp.init
    exact agree_snoc (hv v (by simp)) hp hvs

/-! ## The selection -/

/-- The selection of PM 2.0 returns the least mode with a counter that is not zero. -/
theorem selectSleepMode_selects {V : Set (ℕ × ℕ)} {pm : RtPm Y}
    (hc : ∀ m : Fin pmSleepModeMax, pm.modes[m] ≠ 0 ↔ ∃ k, (k, m.val) ∈ V)
    (hV : ∀ q ∈ V, q.2 < pmSleepModeMax) :
    Selects V pm.defaultDeepsleep.toNat (World.selectSleepMode pm).toNat := by
  unfold World.selectSleepMode
  cases h : (List.finRange pmSleepModeMax).find? fun i => pm.modes[i] ≠ 0 with
  | some i =>
    left
    obtain ⟨hi, j, hj, hget, hlt⟩ := List.find?_eq_some_iff_getElem.1 h
    have hji : j = i.val := by rw [← hget]; simp
    have hnat : (BitVec.ofNat 8 i.val).toNat = i.val := by
      have hlt6 := i.isLt
      rw [BitVec.toNat_ofNat]
      exact Nat.mod_eq_of_lt (hlt6.trans (by decide))
    obtain ⟨k, hk⟩ := (hc i).1 (by simpa using hi)
    simp only [hnat]
    refine ⟨⟨(k, i.val), hk, rfl⟩, ?_⟩
    rintro m ⟨⟨k', m'⟩, hm, rfl⟩
    by_contra hsmall
    have hm6 : m' < pmSleepModeMax := hV _ hm
    have hzero := hlt m' (by simp only [not_le] at hsmall; omega)
    rw [List.getElem_finRange] at hzero
    exact (hc ⟨m', hm6⟩).2 ⟨k', hm⟩ (by simpa using hzero)
  | none =>
    right
    refine ⟨?_, rfl⟩
    rw [List.find?_eq_none] at h
    ext ⟨k, m⟩
    simp only [Set.mem_empty_iff_false, iff_false]
    intro hm
    have hm6 : m < pmSleepModeMax := hV _ hm
    exact h ⟨m, hm6⟩ (List.mem_finRange _) (by simpa using (hc ⟨m, hm6⟩).2 ⟨k, hm⟩)

/-- **LPMS and PM 2.0 agree on paired use**: after every operation the modes selected are equal,
and each counter is the number of modules with their bit set. -/
theorem frameworks_agree (ops : RtPmOps Y) (timerMask : U8) (rtTick : U32) (x : X) (y : Y)
    {vs : List (Vote ℕ ℕ)} (hv : ∀ v ∈ vs, Accepted v) (hp : Paired vs) :
    ∀ p, p <+: vs →
      (pmAfter ops timerMask rtTick y p).pm.sleepMode = LowPower.selectSleepMode (lpmsAfter x p).st ∧
      ∀ m : Fin pmSleepModeMax, (pmAfter ops timerMask rtTick y p).pm.modes[m].toNat =
        (modulesFor (lpmsAfter x p).st m.val).card := by
  rintro p ⟨s, rfl⟩
  have hpp : Paired p := by
    intro q
    have hq := hp q
    rw [kinds_append] at hq
    exact alternating_append hq
  have h := agree_run ops timerMask rtTick x y (fun v hv' => hv v (List.mem_append_left _ hv')) hpp
  refine ⟨?_, h.counter⟩
  have hcount : ∀ m : Fin pmSleepModeMax, (pmAfter ops timerMask rtTick y p).pm.modes[m] ≠ 0 ↔
      ∃ k, (k, m.val) ∈ votesOf (lpmsAfter x p).st.sleepStatus := by
    intro m
    have hne : (pmAfter ops timerMask rtTick y p).pm.modes[m] = 0 ↔
        (pmAfter ops timerMask rtTick y p).pm.counter m = 0 := BitVec.toNat_eq
    rw [Ne, hne, h.counter, card_modulesFor, Set.ncard_eq_zero (voters_finite _ _), ← Ne,
      ← Set.nonempty_iff_ne_empty]
    rfl
  have hlt : ∀ q ∈ votesOf (lpmsAfter x p).st.sleepStatus, q.2 < pmSleepModeMax :=
    fun q hq => mode_lt (lt_of_mem_votesOf hq).2
  have hpm := selectSleepMode_selects hcount hlt
  rw [h.default] at hpm
  have hlpms := selectMode_selects (by decide) (lpmsAfter x p).st.sleepStatus pmSleepDeep
  rw [h.synced]
  exact BitVec.eq_of_toNat_eq (hpm.unique hlpms)

/-- Two modules on two modes, and the first one taken back. -/
theorem frameworks_agree_two :
    let vs := [.request 3 1, .request 5 2, .release 3 1]
    (pmAfter idleOps 0x0c 0 () vs).pm.sleepMode = LowPower.selectSleepMode (lpmsAfter () vs).st ∧
      ∀ m : Fin pmSleepModeMax, (pmAfter idleOps 0x0c 0 () vs).pm.modes[m].toNat =
        (modulesFor (lpmsAfter () vs).st m.val).card := by
  intro vs
  have hv : ∀ v ∈ vs, Accepted v := by
    simp [vs, Accepted]
  have hp : Paired vs := by
    intro q
    by_cases h1 : (3, 1) = q
    · subst h1
      simp [vs, kinds, Alternating]
    by_cases h2 : (5, 2) = q
    · subst h2
      simp [vs, kinds, Alternating]
    simp [vs, kinds, Alternating, h1, h2]
  exact frameworks_agree idleOps 0x0c 0 () () hv hp vs (List.prefix_refl _)

end LowPower.Pm
