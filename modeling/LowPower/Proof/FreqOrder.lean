import LowPower.Proof.Converge

/-!
# Frequency votes in any order

Between two passes the frequency control is a function of the votes alone: the matrix follows the
last vote on each pair, the mode is the least mode asked for, the flag says whether anything was
released (`Batch`). None of these depends on the order of calls on different pairs.

* `FreqView.after`: one vote or one frequency step, on what the frequency step reads.
* `Replays`: a world is where the votes and frequency steps in its record lead; every pass keeps
  it (`replays_inv`), so that equal views and equal votes of the hooks give equal views.
* `freqBatch_order`: the reorderings of a batch of votes, and the pass after it.
-/

namespace LowPower

open Vote

variable {c : Config} {X : Type}

/-- What moves the frequency control. -/
inductive FreqOp where
  | request (k : U16) (m : U8)
  | release (k : U16) (m : U8)
  | handle
deriving DecidableEq, Repr

/-- The data of `freqView`. -/
abbrev FreqView (c : Config) := U8 × BitMatrix 32 (pmFreqModeMax - 1) c.pmModuleMax × U32

/-- One vote, or one frequency step. -/
def FreqView.after (v : FreqView c) : FreqOp → FreqView c
  | .request k m =>
    if h : FreqPair c (k.toNat, m.toNat) then
      (if m < v.1 then m else v.1, v.2.1.setBit ⟨m.toNat, h.2⟩ ⟨k.toNat, h.1⟩, v.2.2)
    else v
  | .release k m =>
    if h : FreqPair c (k.toNat, m.toNat) then
      (v.1, v.2.1.clearBit ⟨m.toNat, h.2⟩ ⟨k.toNat, h.1⟩, 0x01)
    else v
  | .handle => if v.2.2 = 0x01 then (selectMode v.2.1 pmFreqLow, v.2.1, 0x00) else v

def Call.freqOp : Call → Option FreqOp
  | .pmFreqRequest k m => some (.request k m)
  | .pmFreqRelease k m => some (.release k m)
  | .pmSleepRequest _ _ | .pmSleepRelease _ _ | .pmIdleLockRequest _ | .pmIdleLockRelease _ => none
  | .pmBusySet _ _ | .pmBusyClear _ | .lpmsEnable | .lpmsDisable => none
  | .lpmsSethook _ _ | .lpmsDelhook _ _ => none

def Ev.freqOp : Ev → Option FreqOp
  | .done f => f.freqOp
  | .freqHandle => some .handle
  | .enter _ | .hook _ _ _ _ | .sleep _ | .setFreq _ _ => none
  | .lptimStart _ | .lptimStop | .lptimGetTick _ | .lptimNextTimeout _ => none
  | .systickGet _ | .systickSet _ | .systickNextTimeout _ => none
  | .irqDisable _ | .irqEnable _ => none

/-- The votes completed and the frequency steps begun. -/
def freqOps (tr : List (Ev × Lpms c)) : List FreqOp := tr.filterMap (·.1.freqOp)

theorem freqOps_snoc (tr : List (Ev × Lpms c)) (p : Ev × Lpms c) :
    freqOps (tr ++ [p]) = freqOps tr ++ p.1.freqOp.toList :=
  filterMap_snoc _ _ _

theorem Ev.Plain.freqOp {e : Ev} (h : e.Plain) : e.freqOp = none := by
  cases e <;> first | rfl | exact h.elim

namespace World

variable {w w' w'' : World c X} {env : Env c X}

/-! ## Replaying the record -/

/-- From `w` to `w'` the frequency control went where the votes and steps recorded lead. -/
def Replays (w w' : World c X) : Prop :=
  ∃ ops, freqOps w'.trace = freqOps w.trace ++ ops ∧
    freqView w'.st = ops.foldl FreqView.after (freqView w.st)

theorem Replays.refl (w : World c X) : Replays w w := ⟨[], (List.append_nil _).symm, rfl⟩

theorem Replays.trans (h : Replays w w') (h' : Replays w' w'') : Replays w w'' := by
  obtain ⟨ops, ht, hv⟩ := h
  obtain ⟨ops', ht', hv'⟩ := h'
  refine ⟨ops ++ ops', by rw [ht', ht, List.append_assoc], ?_⟩
  rw [List.foldl_append, ← hv, hv']

/-- Nothing that matters to the frequency control. -/
theorem Replays.of_same (ht : freqOps w'.trace = freqOps w.trace)
    (hv : freqView w'.st = freqView w.st) : Replays w w' :=
  ⟨[], by rw [ht, List.append_nil], hv⟩

theorem emit_freqOps {e : Ev} (he : e.freqOp = none) (w : World c X) :
    freqOps (w.emit e).trace = freqOps w.trace :=
  emit_unread he w

theorem pmSetFreq_freqOps (site : FreqSite) (m : U8) (w : World c X) :
    freqOps (w.pmSetFreq site m).trace = freqOps w.trace :=
  pmSetFreq_unread Ev.freqOp rfl w

theorem pmFreqRequest_view (k : U16) (m : U8) (w : World c X) :
    freqView (w.pmFreqRequest k m).st = FreqView.after (freqView w.st) (.request k m) := by
  unfold FreqView.after
  dsimp only
  by_cases h : FreqPair c (k.toNat, m.toNat)
  · have hread : w.pmIrqDisable.2.st = w.st := pmIrqDisable_st
    rw [dif_pos h]
    unfold pmFreqRequest
    rw [dif_neg (by omega), dif_neg (by omega), locked_st]
    dsimp only
    rw [mapSt_st, hread]
    by_cases hlt : m < w.st.freqMode
    · have hmin : (if m < (freqView w.st).1 then m else (freqView w.st).1) = m := if_pos hlt
      rw [hmin, if_pos hlt, mapSt_st, pmSetFreq_st, mapSt_st, hread]
      rfl
    · have hmin : (if m < (freqView w.st).1 then m else (freqView w.st).1) = w.st.freqMode :=
        if_neg hlt
      rw [hmin, if_neg hlt, mapSt_st, hread]
      rfl
  · rw [dif_neg h]
    exact congrArg (fun w => freqView (World.st w))
      (exec_of_not_freqPair (f := .pmFreqRequest k m) rfl h)

theorem pmFreqRelease_view (k : U16) (m : U8) (w : World c X) :
    freqView (w.pmFreqRelease k m).st = FreqView.after (freqView w.st) (.release k m) := by
  unfold FreqView.after
  dsimp only
  by_cases h : FreqPair c (k.toNat, m.toNat)
  · rw [dif_pos h]
    unfold pmFreqRelease
    rw [dif_neg (by omega), dif_neg (by omega), locked_mapSt_st]
    rfl
  · rw [dif_neg h]
    exact congrArg (fun w => freqView (World.st w))
      (exec_of_not_freqPair (f := .pmFreqRelease k m) rfl h)

/-- **A call moves the frequency control by its vote.** -/
theorem exec_freqView (f : Call) (w : World c X) :
    freqView (w.exec f).st = f.freqOp.toList.foldl FreqView.after (freqView w.st) := by
  have hnone : f.freqVote = none → f.freqOp = none →
      freqView (w.exec f).st = f.freqOp.toList.foldl FreqView.after (freqView w.st) := by
    intro hv hop
    rw [exec_freqView_of_none hv, hop]
    rfl
  cases f with
  | pmFreqRequest k m => exact pmFreqRequest_view k m w
  | pmFreqRelease k m => exact pmFreqRelease_view k m w
  | _ => exact hnone rfl rfl

theorem call_freqOps (f : Call) (w : World c X) :
    freqOps (w.call f).trace = freqOps w.trace ++ f.freqOp.toList :=
  call_reading (fun _ he => he.freqOp) (fun _ _ => rfl) f rfl w

theorem call_replays (f : Call) (w : World c X) : Replays w (w.call f) :=
  ⟨f.freqOp.toList, call_freqOps f w, exec_freqView f (w.emit (.enter f))⟩

theorem act_replays (a : HookAct X) (w : World c X) : Replays w (w.act a) := by
  cases a with
  | call f => exact call_replays f w
  | plat f => exact Replays.of_same rfl rfl

theorem after_handle (s : Lpms c) : FreqView.after (freqView s) .handle =
    if s.freqFlag = 0x01 then (selectFreqMode s, s.freqStatus, 0x00) else freqView s := rfl

theorem pmFreqHandle_replays (w : World c X) : Replays w (w.pmFreqHandle env) := by
  have hops : freqOps (w.emit .freqHandle).trace = freqOps w.trace ++ [.handle] := by
    rw [emit_trace, freqOps_snoc]
    rfl
  unfold pmFreqHandle
  dsimp only
  rw [emit_st]
  split_ifs with hflag hne
  · refine notify_keeps (P := Replays w) (fun _ _ _ a _ w' h => h.trans (act_replays a w'))
      (fun w' i x h => h.trans (Replays.of_same (emit_freqOps rfl w') rfl)) ?_
    refine ⟨[.handle], ?_, ?_⟩
    · exact (pmSetFreq_freqOps _ _ _).trans hops
    · rw [List.foldl_cons, List.foldl_nil, after_handle, if_pos hflag, mapSt_st, pmSetFreq_st]
      rfl
  · have hsel : selectFreqMode w.st = w.st.freqMode := not_not.1 hne
    refine ⟨[.handle], hops, ?_⟩
    rw [List.foldl_cons, List.foldl_nil, after_handle, if_pos hflag, hsel]
    rfl
  · refine ⟨[.handle], hops, ?_⟩
    rw [List.foldl_cons, List.foldl_nil, after_handle, if_neg hflag]
    rfl

/-- **Every pass replays its votes and frequency steps.** -/
theorem replays_inv (env : Env c X) (w : World c X) : PassInv env (Replays w) where
  plat _ _ h := h
  emit w' _ he h := h.trans (Replays.of_same (emit_freqOps he.freqOp w') rfl)
  sleepMode _ _ h := h
  call w' f h := h.trans (call_replays f w')
  freqHandle w' h := h.trans (pmFreqHandle_replays w')

end World

/-! ## A batch of votes -/

/-- The frequency votes of a list of calls. -/
def freqVotes (cs : List Call) : List (Vote ℕ ℕ) := cs.filterMap Call.freqVote

/-- The effect of accepted votes, without their order on different pairs. -/
structure Batch (v v' : FreqView c) (vs : List (Vote ℕ ℕ)) : Prop where
  votes : votesOf v'.2.1 = vs.foldl apply (votesOf v.2.1)
  mode : IsLeast (insert v.1.toNat {m | ∃ k, .request k m ∈ vs}) v'.1.toNat
  flag : v'.2.2 = if vs.all isRequest then v.2.2 else 0x01

namespace Batch

variable {v v' u : FreqView c} {vs vs' : List (Vote ℕ ℕ)} {k : U16} {m : U8}

theorem nil (v : FreqView c) : Batch v v [] := by
  refine ⟨rfl, ?_, rfl⟩
  simp

theorem request (h : Batch v v' vs) (hp : FreqPair c (k.toNat, m.toNat)) :
    Batch v (FreqView.after v' (.request k m)) (vs ++ [.request k.toNat m.toNat]) := by
  have hafter : FreqView.after v' (.request k m) = (if m < v'.1 then m else v'.1,
      v'.2.1.setBit ⟨m.toNat, hp.2⟩ ⟨k.toNat, hp.1⟩, v'.2.2) := dif_pos hp
  rw [hafter]
  refine ⟨?_, ?_, ?_⟩
  · rw [votesOf_setBit, h.votes, List.foldl_append]
    rfl
  · have hmin : (if m < v'.1 then m else v'.1).toNat = min m.toNat v'.1.toNat := by
      split_ifs with hlt
      · have hlt' : m.toNat < v'.1.toNat := hlt
        omega
      · have hlt' : ¬m.toNat < v'.1.toNat := hlt
        omega
    -- one more mode to take the least of
    have hset : insert v.1.toNat {m' | ∃ k', Vote.request k' m' ∈ vs ++ [.request k.toNat m.toNat]} =
        insert m.toNat (insert v.1.toNat {m' | ∃ k', Vote.request k' m' ∈ vs}) := by
      ext m'
      simp only [Set.mem_insert_iff, Set.mem_ofPred_eq, List.mem_append, List.mem_singleton,
        Vote.request.injEq, exists_or, exists_eq_left]
      tauto
    rw [hset, hmin]
    exact h.mode.insert m.toNat
  · rw [h.flag, List.all_append]
    simp

theorem release (h : Batch v v' vs) (hp : FreqPair c (k.toNat, m.toNat)) :
    Batch v (FreqView.after v' (.release k m)) (vs ++ [.release k.toNat m.toNat]) := by
  have hafter : FreqView.after v' (.release k m) = (v'.1,
      v'.2.1.clearBit ⟨m.toNat, hp.2⟩ ⟨k.toNat, hp.1⟩, 0x01) := dif_pos hp
  rw [hafter]
  refine ⟨?_, ?_, ?_⟩
  · rw [votesOf_clearBit, h.votes, List.foldl_append]
    rfl
  · have hset : {m' | ∃ k', Vote.request k' m' ∈ vs ++ [.release k.toNat m.toNat]} =
        {m' | ∃ k', Vote.request k' m' ∈ vs} := by
      ext m'
      simp
    rw [hset]
    exact h.mode
  · rw [List.all_append]
    simp

/-- **The effect of a batch is determined by its votes on each pair.** -/
theorem unique (h : Batch v v' vs) (h' : Batch v u vs') (hmem : ∀ x, x ∈ vs ↔ x ∈ vs')
    (hkinds : ∀ p, kinds vs p = kinds vs' p) : v' = u := by
  have hmode : v'.1 = u.1 := by
    have hset : {m | ∃ k, Vote.request k m ∈ vs} = {m | ∃ k, Vote.request k m ∈ vs'} := by
      ext m
      simp only [Set.mem_ofPred_eq, hmem]
    have hleast := h.mode
    rw [hset] at hleast
    exact BitVec.eq_of_toNat_eq (hleast.unique h'.mode)
  have hvotes : v'.2.1 = u.2.1 := by
    refine BitMatrix.ext_test fun r k => ?_
    -- being held depends on the votes on the pair alone
    have hheld : Held vs (k, r) ↔ Held vs' (k, r) := by
      unfold Held
      rw [hkinds]
    rw [Bool.eq_iff_iff, ← mem_votesOf, ← mem_votesOf, h.votes, h'.votes, mem_foldl_apply,
      mem_foldl_apply, hheld, hkinds]
  have hflag : v'.2.2 = u.2.2 := by
    have hall : vs.all isRequest = vs'.all isRequest := by
      rw [Bool.eq_iff_iff, List.all_eq_true, List.all_eq_true]
      simp only [hmem]
    rw [h.flag, h'.flag, hall]
  exact Prod.ext hmode (Prod.ext hvotes hflag)

end Batch

/-- A frequency vote in range. -/
def Call.FreqAccepted (c : Config) (f : Call) : Prop :=
  ∃ v, f.freqVote = some v ∧ FreqPair c v.pair

/-- The calls in another order, but the same on every (module, mode) pair. -/
structure Reordering (cs cs' : List Call) : Prop where
  perm : cs.Perm cs'
  pairs : ∀ p : ℕ × ℕ, cs.filter (fun f => f.freqVote.map pair = some p) =
    cs'.filter fun f => f.freqVote.map pair = some p

theorem kinds_freqVotes (cs : List Call) (p : ℕ × ℕ) : kinds (freqVotes cs) p =
    (freqVotes (cs.filter fun f => f.freqVote.map pair = some p)).map isRequest := by
  induction cs with
  | nil => rfl
  | cons f cs ih =>
    unfold freqVotes kinds at *
    cases hf : f.freqVote with
    | none => simpa [hf] using ih
    | some v => by_cases hv : v.pair = p <;> simpa [hf, hv] using ih

namespace World

variable {w w' : World c X} {env env' : Env c X}

theorem calls_batch (w : World c X) {cs : List Call} (hcs : ∀ f ∈ cs, f.FreqAccepted c) :
    Batch (freqView w.st) (freqView (cs.foldl call w).st) (freqVotes cs) := by
  induction cs using List.reverseRecOn with
  | nil => exact Batch.nil _
  | append_singleton cs f ih =>
    obtain ⟨v, hf, hp⟩ := hcs f (by simp)
    have hvotes : freqVotes (cs ++ [f]) = freqVotes cs ++ [v] := filterMap_snoc_some hf
    have hview := exec_freqView f ((cs.foldl call w).emit (.enter f))
    have hih := ih fun g hg => hcs g (List.mem_append_left _ hg)
    rw [List.foldl_append, List.foldl_cons, List.foldl_nil, hvotes]
    -- the return of a call changes nothing, so its body is what counts
    change Batch _ (freqView (((cs.foldl call w).emit (.enter f)).exec f).st) _
    rw [hview]
    cases f <;> simp only [Call.freqVote, Option.some.injEq, reduceCtorEq] at hf <;> subst hf
    · exact hih.request hp
    · exact hih.release hp

/-! ## The next pass -/

/-- The frequency votes of the hooks and the frequency step of a pass, in order. -/
def passOps (env : Env c X) (w : World c X) : List FreqOp :=
  (freqOps (w.pmRunTickless env).trace).drop (freqOps w.trace).length

/-- **A pass moves the frequency control by its votes and its frequency step.** -/
theorem freqView_pass_eq (env : Env c X) (w : World c X) :
    freqView (w.pmRunTickless env).st = (passOps env w).foldl FreqView.after (freqView w.st) := by
  obtain ⟨ops, ht, hv⟩ := (replays_inv env w).pmRunTickless (Replays.refl w)
  have hops : passOps env w = ops := by
    unfold passOps
    rw [ht, List.drop_left]
  rw [hv, hops]

/-- Hooks that make no frequency vote. -/
def NoFreqVote (env : Env c X) : Prop :=
  ∀ l h m w f, HookAct.call f ∈ env.body l h m w → f.freqVote = none

theorem freqOp_of_none {f : Call} (h : f.freqVote = none) : f.freqOp = none := by
  cases f <;> first | rfl | exact absurd h (by simp [Call.freqVote])

/-- Such hooks leave nothing but the frequency step. -/
theorem passOps_eq (henv : NoFreqVote env) (w : World c X) :
    passOps env w = if w.st.enableFlag = 0 then [] else [.handle] := by
  -- what a hook does adds no vote to the record
  have hact : ∀ (H : List FreqOp) l h m w₀, ∀ a ∈ env.body l h m w₀, ∀ w' : World c X,
      freqOps w'.trace = H → freqOps (w'.act a).trace = H := by
    intro H l h m w₀ a ha w' hw'
    cases a with
    | plat f => exact hw'
    | call f =>
      show freqOps (w'.call f).trace = H
      rw [call_freqOps, freqOp_of_none (henv l h m w₀ f ha), Option.toList_none, List.append_nil]
      exact hw'
  have hplain : ∀ H : List FreqOp, SleepInv fun w' : World c X => freqOps w'.trace = H := fun H =>
    { plat := fun _ _ h => h
      emit := fun w' _ he h => (emit_freqOps he.freqOp w').trans h
      sleepMode := fun _ _ h => h }
  unfold passOps
  by_cases hen : w.st.enableFlag = 0
  · rw [pmRunTickless, if_pos hen, if_pos hen, List.drop_length]
  · have hslept : freqOps (w.passDecide.2.passSleep env).trace = freqOps w.trace :=
      (hplain _).passSleep (fun l _ => hact _ l) ((hplain _).passDecide rfl)
    have hhandle : freqOps ((w.passDecide.2.passSleep env).pmFreqHandle env).trace =
        freqOps w.trace ++ [.handle] := by
      have hemit : freqOps ((w.passDecide.2.passSleep env).emit .freqHandle).trace =
          freqOps w.trace ++ [.handle] := by
        rw [emit_trace, freqOps_snoc, hslept]
        rfl
      unfold pmFreqHandle
      dsimp only
      split_ifs
      · refine notify_keeps (P := fun w' => freqOps w'.trace = _) (hact _ .freq)
          (fun w' i x h => (emit_freqOps rfl w').trans h) ?_
        exact (pmSetFreq_freqOps _ _ _).trans hemit
      · exact hemit
      · exact hemit
    have hpass : freqOps (w.pmRunTickless env).trace = freqOps w.trace ++ [.handle] := by
      rw [pmRunTickless, if_neg hen]
      exact (hplain _).irqEnable _ hhandle
    rw [if_neg hen, hpass, List.drop_left]

theorem calls_enableFlag (w : World c X) {cs : List Call} (hcs : ∀ f ∈ cs, f.FreqAccepted c) :
    (cs.foldl call w).st.enableFlag = w.st.enableFlag := by
  induction cs generalizing w with
  | nil => rfl
  | cons f cs ih =>
    obtain ⟨v, hf, -⟩ := hcs f List.mem_cons_self
    rw [List.foldl_cons, ih _ fun g hg => hcs g (List.mem_cons_of_mem f hg)]
    refine (ViewInv.view (·.enableFlag) w.st.enableFlag).body.exec f ?_ ?_ (w := w.emit (.enter f)) rfl
    · intro s s' h
      cases f <;> simp only [Call.freqVote, reduceCtorEq, Call.Writes] at hf h <;> rw [h]
    · intro k m _ _ _ w' _ h
      rw [mapSt_st, pmSetFreq_st]
      exact h

/-- **Votes between two passes in any order.** Every reordering of a batch of accepted frequency
votes that keeps the order on each (module, mode) pair leads to the same matrix, mode and flag;
the mode is the least of the previous one and the modes requested. The pass after it leads to the
same frequency, for hooks that make the same frequency votes, and so for hooks that make none. -/
theorem freqBatch_order (w : World c X) {cs cs' : List Call}
    (hcs : ∀ f ∈ cs, f.FreqAccepted c) (hre : Reordering cs cs') :
    let u := cs.foldl call w
    let u' := cs'.foldl call w
    u'.st.freqStatus = u.st.freqStatus ∧ u'.st.freqMode = u.st.freqMode ∧
    u'.st.freqFlag = u.st.freqFlag ∧
    IsLeast (insert w.st.freqMode.toNat {m | ∃ k, .request k m ∈ freqVotes cs}) u.st.freqMode.toNat ∧
    (∀ env env' : Env c X, passOps env' u' = passOps env u →
      (u'.pmRunTickless env').st.freqMode = (u.pmRunTickless env).st.freqMode) ∧
    ∀ env env' : Env c X, NoFreqVote env → NoFreqVote env' →
      (u'.pmRunTickless env').st.freqMode = (u.pmRunTickless env).st.freqMode := by
  intro u u'
  have hcs' : ∀ f ∈ cs', f.FreqAccepted c := fun f hf => hcs f (hre.perm.mem_iff.2 hf)
  have hmem : ∀ v, v ∈ freqVotes cs' ↔ v ∈ freqVotes cs := fun v =>
    (hre.perm.filterMap Call.freqVote).mem_iff.symm
  have hkinds : ∀ p, kinds (freqVotes cs') p = kinds (freqVotes cs) p := by
    intro p
    rw [kinds_freqVotes, kinds_freqVotes, hre.pairs p]
  -- both orders lead to the same view
  have hview : freqView u'.st = freqView u.st :=
    (calls_batch w hcs').unique (calls_batch w hcs) hmem hkinds
  have hpass : ∀ env env' : Env c X, passOps env' u' = passOps env u →
      (u'.pmRunTickless env').st.freqMode = (u.pmRunTickless env).st.freqMode := by
    intro env env' hops
    have heq : freqView (u'.pmRunTickless env').st = freqView (u.pmRunTickless env).st := by
      rw [freqView_pass_eq, freqView_pass_eq, hops, hview]
    exact congrArg Prod.fst heq
  refine ⟨congrArg (·.2.1) hview, congrArg (·.1) hview, congrArg (·.2.2) hview,
    (calls_batch w hcs).mode, hpass, fun env env' henv henv' => hpass env env' ?_⟩
  rw [passOps_eq henv', passOps_eq henv, calls_enableFlag w hcs, calls_enableFlag w hcs']

/-- A module requests the high frequency and takes it back while another one requests normal
speed, in two orders: the next pass goes to normal speed. -/
theorem freqBatch_order_two :
    let w := (start Config.shipped .clock pmFreqLow 0).run (.silent : Env Config.shipped U32)
      [.call .lpmsEnable]
    let cs := [.pmFreqRequest 0 pmFreqHigh, .pmFreqRelease 0 pmFreqHigh, .pmFreqRequest 1 pmFreqNormal]
    let cs' := [.pmFreqRequest 1 pmFreqNormal, .pmFreqRequest 0 pmFreqHigh, .pmFreqRelease 0 pmFreqHigh]
    (cs.foldl call w).st.freqMode = pmFreqHigh ∧
      ((cs.foldl call w).pmRunTickless .silent).st.freqMode = pmFreqNormal ∧
      ((cs'.foldl call w).pmRunTickless .silent).st.freqMode =
        ((cs.foldl call w).pmRunTickless .silent).st.freqMode := by
  intro w cs cs'
  have hquiet : NoFreqVote (.silent : Env Config.shipped U32) := by
    intro l h m w f hf
    exact absurd hf List.not_mem_nil
  have hcs : ∀ f ∈ cs, f.FreqAccepted Config.shipped := by
    intro f hf
    simp only [cs, List.mem_cons, List.not_mem_nil, or_false] at hf
    rcases hf with rfl | rfl | rfl
    · exact ⟨_, rfl, by decide⟩
    · exact ⟨_, rfl, by decide⟩
    · exact ⟨_, rfl, by decide⟩
  have hre : Reordering cs cs' := by
    refine ⟨by decide, fun p => ?_⟩
    by_cases h0 : (0, 0) = p
    · subst h0
      decide
    · by_cases h1 : (1, 1) = p
      · subst h1
        decide
      · simp [cs, cs', Call.freqVote, h0, h1]
  obtain ⟨-, -, -, -, -, hpass⟩ := freqBatch_order w hcs hre
  exact ⟨by decide +kernel, by decide +kernel, hpass .silent .silent hquiet hquiet⟩

end World
end LowPower
