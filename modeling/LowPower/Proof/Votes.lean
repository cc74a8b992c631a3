import LowPower.Lib.Votes
import LowPower.Proof.Frame

/-!
# The vote matrices are sets of pairs

`votesOf` reads a status matrix as the set of (module, mode) pairs whose bit is set. An
accepted request inserts its pair, an accepted release removes it, and nothing else moves
(`exec_sleepVotes`); the selection returns the least mode voted for
(`selectMode_selects`). Over a whole history the sleep votes in force are the last
calls on each pair (`sleepVotes_run`), so these decide the mode.
-/

namespace LowPower

open Vote

variable {c : Config} {X : Type}

section Matrix

variable {R n : ℕ}

/-- The (module, mode) pairs whose bit is set. -/
def votesOf (status : BitMatrix 32 R n) : Set (ℕ × ℕ) := {p | status.test p.2 p.1 = true}

theorem mem_votesOf {status : BitMatrix 32 R n} {k m : ℕ} :
    (k, m) ∈ votesOf status ↔ status.test m k = true := Iff.rfl

theorem votesOf_zero : votesOf (.zero : BitMatrix 32 R n) = ∅ := by
  ext ⟨k, m⟩; simp [mem_votesOf]

theorem votesOf_setBit (status : BitMatrix 32 R n) (r : Fin R) (k : Fin n) :
    votesOf (status.setBit r k) = apply (votesOf status) (.request k.val r.val) := by
  ext ⟨k', m'⟩
  simp only [mem_votesOf, BitMatrix.test_setBit, apply, Set.mem_insert_iff, Prod.mk.injEq]
  by_cases h : m' = r ∧ k' = k
  · simp [h]
  · have h' : ¬(k' = k ∧ m' = r) := fun hh => h hh.symm
    simp [h, h']

theorem votesOf_clearBit (status : BitMatrix 32 R n) (r : Fin R) (k : Fin n) :
    votesOf (status.clearBit r k) = apply (votesOf status) (.release k.val r.val) := by
  ext ⟨k', m'⟩
  simp only [mem_votesOf, BitMatrix.test_clearBit, apply, Set.mem_sdiff, Set.mem_singleton_iff,
    Prod.mk.injEq]
  by_cases h : m' = r ∧ k' = k
  · simp [h]
  · have h' : ¬(k' = k ∧ m' = r) := fun hh => h hh.symm
    simp [h, h']

/-- A vote in force is a vote of a configured module on a configured mode. -/
theorem lt_of_mem_votesOf {status : BitMatrix 32 R n} {k m : ℕ} (h : (k, m) ∈ votesOf status) :
    k < n ∧ m < R := by
  rw [mem_votesOf] at h
  constructor
  · by_contra hk
    rw [BitMatrix.test_of_col_le m (by omega)] at h
    exact Bool.noConfusion h
  · by_contra hm
    rw [BitMatrix.test_of_row_le k (by omega)] at h
    exact Bool.noConfusion h

/-- **The selection returns the least mode voted for, or the default.** -/
theorem selectMode_selects (hR : R < 256) (status : BitMatrix 32 R n) (dflt : U8) :
    Selects (votesOf status) dflt.toNat (selectMode status dflt).toNat := by
  unfold selectMode
  cases h : status.firstRow with
  | some r =>
    left
    obtain ⟨⟨k, -, hk⟩, hlt⟩ := BitMatrix.firstRow_eq_some h
    have hr : (BitVec.ofNat 8 r.val).toNat = r.val := by
      rw [BitVec.toNat_ofNat]
      exact Nat.mod_eq_of_lt (by omega)
    simp only [hr]
    constructor
    · exact ⟨(k, r.val), hk, rfl⟩
    · rintro m ⟨⟨k', m'⟩, hm, rfl⟩
      by_contra hlt'
      have := hlt m' (by simpa using hlt') k'
      rw [mem_votesOf, this] at hm
      exact Bool.noConfusion hm
  | none =>
    right
    refine ⟨?_, rfl⟩
    ext ⟨k, m⟩
    simp [mem_votesOf, BitMatrix.firstRow_eq_none.1 h m k]

end Matrix

/-! ## Sleep votes -/

/-- The sleep vote a call makes, whether or not its arguments are in range. -/
def Call.sleepVote : Call → Option (Vote ℕ ℕ)
  | .pmSleepRequest k m => some (.request k.toNat m.toNat)
  | .pmSleepRelease k m => some (.release k.toNat m.toNat)
  | .pmIdleLockRequest k => some (.request k.toNat pmSleepIdle.toNat)
  | .pmIdleLockRelease k => some (.release k.toNat pmSleepIdle.toNat)
  | _ => none

/-- The pairs the sleep votes accept: a configured module and a mode below `PM_SLEEP_DEEP`. -/
abbrev SleepPair (c : Config) (p : ℕ × ℕ) : Prop :=
  p.1 < c.pmModuleMax ∧ p.2 < pmSleepModeMax - 1

namespace World

variable {w : World c X}

theorem pmSleepRequest_votes (k : U16) (m : U8) :
    votesOf (w.pmSleepRequest k m).st.sleepStatus =
      applyIn (SleepPair c) (votesOf w.st.sleepStatus) (.request k.toNat m.toNat) := by
  unfold pmSleepRequest applyIn
  by_cases hk : c.pmModuleMax ≤ k.toNat
  · rw [dif_pos hk, if_neg (by simp only [pair_request]; omega)]
  by_cases hm : pmSleepModeMax - 1 ≤ m.toNat
  · rw [dif_neg hk, dif_pos hm, if_neg (by simp only [pair_request]; omega)]
  rw [dif_neg hk, dif_neg hm, if_pos (by simp only [pair_request]; omega), locked_mapSt_st]
  exact votesOf_setBit _ _ _

theorem pmSleepRelease_votes (k : U16) (m : U8) :
    votesOf (w.pmSleepRelease k m).st.sleepStatus =
      applyIn (SleepPair c) (votesOf w.st.sleepStatus) (.release k.toNat m.toNat) := by
  unfold pmSleepRelease applyIn
  by_cases hk : c.pmModuleMax ≤ k.toNat
  · rw [dif_pos hk, if_neg (by simp only [pair_release]; omega)]
  by_cases hm : pmSleepModeMax - 1 ≤ m.toNat
  · rw [dif_neg hk, dif_pos hm, if_neg (by simp only [pair_release]; omega)]
  rw [dif_neg hk, dif_neg hm, if_pos (by simp only [pair_release]; omega), locked_mapSt_st]
  exact votesOf_clearBit _ _ _

/-- Calls that make no sleep vote leave the sleep matrix alone. -/
theorem exec_sleepStatus_of_none {f : Call} (hf : f.sleepVote = none) :
    (w.exec f).st.sleepStatus = w.st.sleepStatus := by
  refine (ViewInv.view (·.sleepStatus) w.st.sleepStatus).body.exec f ?_ ?_ rfl
  · intro s s' h
    cases f <;> simp only [Call.sleepVote, reduceCtorEq, Call.Writes] at hf h <;> first | rw [h] | rw [h.1]
  · intro k m _ _ _ w' _ h
    simpa [pmSetFreq] using h

/-- **A call moves the sleep votes exactly as its vote says.** -/
theorem exec_sleepVotes (f : Call) :
    votesOf (w.exec f).st.sleepStatus =
      (f.sleepVote.map (applyIn (SleepPair c) (votesOf w.st.sleepStatus))).getD
        (votesOf w.st.sleepStatus) := by
  cases hf : f.sleepVote with
  | none => simp only [Option.map_none, Option.getD_none, exec_sleepStatus_of_none hf]
  | some v =>
    simp only [Option.map_some, Option.getD_some]
    cases f <;> simp only [Call.sleepVote, Option.some.injEq, reduceCtorEq] at hf <;> subst hf
    · exact pmSleepRequest_votes _ _
    · exact pmSleepRelease_votes _ _
    · exact pmSleepRequest_votes _ _
    · exact pmSleepRelease_votes _ _

/-- The sleep votes a history of calls makes. -/
def sleepHistory (cs : List Call) : List (Vote ℕ ℕ) := cs.filterMap Call.sleepVote

/-- **Refinement.** From power-on, a vote is in force exactly when it is in range and its
last call was a request. -/
theorem sleepVotes_run (x : X) (cs : List Call) :
    Holds (SleepPair c) (votesOf (cs.foldl exec (boot c x)).st.sleepStatus) (sleepHistory cs) := by
  induction cs using List.reverseRecOn with
  | nil =>
    have h0 : votesOf (boot c x).st.sleepStatus = ∅ := votesOf_zero
    rw [List.foldl_nil, h0]
    exact Holds.nil _
  | append_singleton cs f ih =>
    rw [List.foldl_append, List.foldl_cons, List.foldl_nil, exec_sleepVotes]
    cases hf : f.sleepVote with
    | none =>
      have hh : sleepHistory (cs ++ [f]) = sleepHistory cs := by
        simp [sleepHistory, List.filterMap_append, hf]
      rw [hh]
      exact ih
    | some v =>
      have hh : sleepHistory (cs ++ [f]) = sleepHistory cs ++ [v] := by
        simp [sleepHistory, List.filterMap_append, hf]
      rw [hh]
      exact ih.snoc v

/-- A call outside the table returns at its range check. -/
theorem exec_of_not_sleepPair {f : Call} {v : Vote ℕ ℕ} (hf : f.sleepVote = some v)
    (hv : ¬ SleepPair c v.pair) : w.exec f = w := by
  have hreq : ∀ (k : U16) (m : U8), ¬ SleepPair c (k.toNat, m.toNat) →
      w.pmSleepRequest k m = w ∧ w.pmSleepRelease k m = w := by
    intro k m hkm
    simp only [SleepPair, not_and_or, not_lt] at hkm
    unfold pmSleepRequest pmSleepRelease
    rcases hkm with hk | hm
    · rw [dif_pos hk, dif_pos hk]; exact ⟨rfl, rfl⟩
    · constructor <;> split_ifs <;> rfl
  cases f <;> simp only [Call.sleepVote, Option.some.injEq, reduceCtorEq] at hf <;> subst hf
  · exact (hreq _ _ hv).1
  · exact (hreq _ _ hv).2
  · exact (hreq _ _ hv).1
  · exact (hreq _ _ hv).2

/-- **Sleep votes are a set of pairs.** After any history of calls from power-on the
selected sleep mode is the least mode for which some module's last call was a request, and
`PM_SLEEP_DEEP` when there is none; a call out of range changes nothing; and a call never
moves the vote of another pair. -/
theorem selectSleepMode_run (c : Config) (x : X) (cs : List Call) :
    let w := cs.foldl exec (boot c x)
    Selects {p : ℕ × ℕ | p.1 < c.pmModuleMax ∧ p.2 < pmSleepDeep.toNat ∧ Held (sleepHistory cs) p}
        pmSleepDeep.toNat (selectSleepMode w.st).toNat ∧
      (∀ f v, f.sleepVote = some v →
        ¬(v.pair.1 < c.pmModuleMax ∧ v.pair.2 < pmSleepDeep.toNat) → w.exec f = w) ∧
      ∀ f v, f.sleepVote = some v → ∀ k m, (k, m) ≠ v.pair →
        (w.exec f).st.sleepStatus.test m k = w.st.sleepStatus.test m k := by
  intro w
  refine ⟨?_, fun f v hf hv => exec_of_not_sleepPair hf hv, ?_⟩
  · have hV : votesOf w.st.sleepStatus =
        {p : ℕ × ℕ | p.1 < c.pmModuleMax ∧ p.2 < pmSleepDeep.toNat ∧ Held (sleepHistory cs) p} := by
      ext p
      rw [sleepVotes_run x cs p, and_assoc]
      rfl
    rw [← hV]
    exact selectMode_selects (by decide) _ _
  · intro f v hf k m hne
    have h := exec_sleepVotes (w := w) f
    rw [hf, Option.map_some, Option.getD_some, applyIn] at h
    rw [Bool.eq_iff_iff, ← mem_votesOf, ← mem_votesOf, h]
    split_ifs
    · rw [mem_apply]
      simp [Ne.symm hne]
    · rfl

end World
end LowPower
