import LowPower.Lib.History
import LowPower.Proof.Decision
import LowPower.Proof.Emits
import LowPower.Proof.Votes

/-!
# Votes at the instant of sleeping

The mode of a pass is selected before the sleep hooks run and used after them. Every vote made up
to the selection is respected; a vote that a sleep hook makes is not looked at before the sleep.

* `VotesHold`: the matrix is the set of outstanding requests, in every run (`votesHold_inv`).
* `notified`: what happened since the pass began to notify its sleep hooks.
* `sleeps_respect_votes_iff`: a sleep violates no outstanding request exactly when the calls of
  the sleep hooks leave no request below its mode.
-/

namespace LowPower

open Vote

variable {c : Config} {X : Type}

/-! ## Reading the record -/

/-- The sleep vote completed by an entry. -/
def Ev.sleepVote : Ev → Option (Vote ℕ ℕ)
  | .done f => f.sleepVote
  | .enter _ | .freqHandle | .hook _ _ _ _ | .sleep _ | .setFreq _ _ => none
  | .lptimStart _ | .lptimStop | .lptimGetTick _ | .lptimNextTimeout _ => none
  | .systickGet _ | .systickSet _ | .systickNextTimeout _ => none
  | .irqDisable _ | .irqEnable _ => none

/-- The sleep votes of the calls that have returned. -/
def sleepRecord (tr : List (Ev × Lpms c)) : List (Vote ℕ ℕ) := tr.filterMap (·.1.sleepVote)

/-- One more entry: the first sleep hook opens a notification, the frequency step ends the pass. -/
def note (tr : List (Ev × Lpms c)) (p : Ev × Lpms c) : List (Ev × Lpms c) :=
  match p.1 with
  | .freqHandle => []
  | .hook .sleep _ _ _ => tr ++ [p]
  | _ => if tr = [] then [] else tr ++ [p]

/-- The entries since the pass began to notify its sleep hooks. -/
def notified (tr : List (Ev × Lpms c)) : List (Ev × Lpms c) := tr.foldl note []

/-- No request that the calls of `tr` leave outstanding is for a mode below `m`. -/
def Respects (tr : List (Ev × Lpms c)) (m : U8) : Prop :=
  ∀ p, SleepPair c p → Held (sleepRecord tr) p → m.toNat ≤ p.2

/-- A sleep hook makes this vote when it is told `m`. -/
def FromHook (env : Env c X) (m : U8) (v : Vote ℕ ℕ) : Prop :=
  ∃ h w f, HookAct.call f ∈ env.body .sleep h m w ∧ f.sleepVote = some v

/-- What holds when the device is put to sleep in mode `m`, given the record before: the matrix
is the set of outstanding requests, the votes noted are votes of sleep hooks told `m`, and these
alone decide whether a request is violated. -/
structure SleepEntry (env : Env c X) (pre : List (Ev × Lpms c)) (m : U8) (s : Lpms c) : Prop where
  votes : Holds (SleepPair c) (votesOf s.sleepStatus) (sleepRecord pre)
  source : ∀ v ∈ sleepRecord (notified pre), FromHook env m v
  respects : Respects pre m ↔ Respects (notified pre) m

/-- Every entry of a sleep is as it should be. -/
def SleepsJustified (env : Env c X) (tr : List (Ev × Lpms c)) : Prop :=
  Justified (fun pre e => ∀ m, e.1 = .sleep m → SleepEntry env pre m e.2) tr

section Record

variable {tr : List (Ev × Lpms c)} {p : Ev × Lpms c}

theorem sleepRecord_snoc (tr : List (Ev × Lpms c)) (p : Ev × Lpms c) :
    sleepRecord (tr ++ [p]) = sleepRecord tr ++ p.1.sleepVote.toList :=
  filterMap_snoc _ _ _

theorem notified_snoc (tr : List (Ev × Lpms c)) (p : Ev × Lpms c) :
    notified (tr ++ [p]) = note (notified tr) p := by
  simp [notified]

/-- Inside a notification everything is noted, up to the frequency step. -/
theorem note_open (htr : tr ≠ []) (hp : p.1 ≠ .freqHandle) : note tr p = tr ++ [p] := by
  unfold note
  split
  · contradiction
  · rfl
  · exact if_neg htr

theorem note_hook {l : HookList} {i : ℕ} {h : HookId} {m : U8} (hp : p.1 = .hook l i h m)
    (hl : l = .sleep) : note tr p = tr ++ [p] := by
  subst hl
  unfold note
  rw [hp]

/-- Outside a notification only a sleep hook is noted. -/
theorem note_closed (hp : ∀ i h m, p.1 ≠ .hook .sleep i h m) : note [] p = [] := by
  unfold note
  split
  · rfl
  · exact absurd ‹_› (hp _ _ _)
  · rfl

/-- What leaves a record of votes open makes no difference to what is respected. -/
theorem Respects.split {pre tail : List (Ev × Lpms c)} {m : U8} {H : List (Vote ℕ ℕ)}
    (hrec : sleepRecord pre = H ++ sleepRecord tail)
    (hH : ∀ p, SleepPair c p → Held H p → m.toNat ≤ p.2) :
    Respects pre m ↔ Respects tail m := by
  unfold Respects
  rw [hrec]
  constructor
  · intro h p hp hheld
    exact h p hp (held_append.2 (.inl hheld))
  · intro h p hp hheld
    rcases held_append.1 hheld with hheld | ⟨-, hheld⟩
    · exact h p hp hheld
    · exact hH p hp hheld

end Record

theorem Ev.Plain.sleepVote {e : Ev} (h : e.Plain) : e.sleepVote = none := by
  cases e <;> first | rfl | exact h.elim

theorem Ev.Plain.ne_freqHandle {e : Ev} (h : e.Plain) : e ≠ .freqHandle := by
  rintro rfl
  exact h

namespace World

variable {w w' : World c X} {env : Env c X} {H : List (Vote ℕ ℕ)}

/-! ## The matrix is the set of outstanding requests -/

def VotesHold (w : World c X) : Prop :=
  Holds (SleepPair c) (votesOf w.st.sleepStatus) (sleepRecord w.trace)

theorem emit_sleepRecord {e : Ev} (he : e.sleepVote = none) (w : World c X) :
    sleepRecord (w.emit e).trace = sleepRecord w.trace :=
  emit_unread he w

theorem pmSetFreq_sleepRecord (site : FreqSite) (m : U8) (w : World c X) :
    sleepRecord (w.pmSetFreq site m).trace = sleepRecord w.trace :=
  pmSetFreq_unread Ev.sleepVote rfl w

theorem call_sleepRecord (f : Call) (w : World c X) :
    sleepRecord (w.call f).trace = sleepRecord w.trace ++ f.sleepVote.toList :=
  call_reading (fun _ he => he.sleepVote) (fun _ _ => rfl) f rfl w

theorem VotesHold.congr (h : VotesHold w) (hst : w'.st.sleepStatus = w.st.sleepStatus)
    (hrec : sleepRecord w'.trace = sleepRecord w.trace) : VotesHold w' := by
  unfold VotesHold
  rw [hst, hrec]
  exact h

/-- A call adds its vote to the record and to the matrix. -/
theorem VotesHold.call (h : VotesHold w) (f : Call) : VotesHold (w.call f) := by
  have hst : (w.call f).st = ((w.emit (.enter f)).exec f).st := rfl
  unfold VotesHold
  rw [call_sleepRecord, hst, exec_sleepVotes]
  cases f.sleepVote with
  | none =>
    rw [Option.toList_none, List.append_nil]
    exact h
  | some v => exact h.snoc v

theorem votesHold_inv (env : Env c X) : PassInv env (VotesHold (c := c) (X := X)) := by
  have hset : ∀ (site : FreqSite) (m : U8) (w : World c X), VotesHold w →
      VotesHold ((w.pmSetFreq site m).mapSt fun s => { s with freqMode := m }) := by
    intro site m w h
    refine h.congr ?_ (pmSetFreq_sleepRecord site m w)
    rw [mapSt_st, pmSetFreq_st]
  have hcall : ∀ (w : World c X) f, VotesHold w → VotesHold (w.call f) := fun w f h => h.call f
  have hact : ∀ (a : HookAct X) (w : World c X), VotesHold w → VotesHold (w.act a) := by
    intro a w h
    cases a with
    | call f => exact h.call f
    | plat f => exact h
  exact
    { plat := fun _ _ h => h
      emit := fun w e he h => h.congr rfl (emit_sleepRecord he.sleepVote w)
      sleepMode := fun _ _ h => h
      call := hcall
      freqHandle := fun w h => freqHandle_keeps (fun w h => h.congr rfl (emit_sleepRecord rfl w))
        (fun _ _ h => h) (fun w _ h => hset _ _ w h) (fun _ _ _ a _ w h => hact a w h)
        (fun w _ _ _ h => h.congr rfl (emit_sleepRecord rfl w)) h }

/-! ## A notification -/

/-- A notification is open, and its calls have made the votes `H`. -/
def Noted (H : List (Vote ℕ ℕ)) (w : World c X) : Prop :=
  notified w.trace ≠ [] ∧ sleepRecord (notified w.trace) = H

theorem Noted.emit (h : Noted H w) {e : Ev} (he : e ≠ .freqHandle) :
    Noted (H ++ e.sleepVote.toList) (w.emit e) := by
  have hopen : notified (w.emit e).trace = notified w.trace ++ [(e, w.st)] := by
    rw [emit_trace, notified_snoc, note_open h.1 he]
  constructor
  · rw [hopen]
    simp
  · rw [hopen, sleepRecord_snoc, h.2]

theorem noted_inv (H : List (Vote ℕ ℕ)) :
    ViewInv (fun _ : Lpms c => ()) (Noted (c := c) (X := X) H) where
  plat _ _ h := h
  emit w e he h := by
    have hemit := h.emit he.ne_freqHandle
    rwa [he.sleepVote, Option.toList_none, List.append_nil] at hemit
  mapSt _ _ _ h := h

theorem Noted.exec (h : Noted H w) (f : Call) : Noted H (w.exec f) := by
  refine (noted_inv H).body.exec f (fun _ _ _ => rfl) ?_ h
  intro k m _ _ _ w' _ h'
  show Noted H (w'.pmSetFreq .pmFreqRequest m)
  unfold pmSetFreq callOut
  split
  · exact h'
  · have hemit := h'.emit (e := .setFreq .pmFreqRequest m) (by simp)
    rwa [show (Ev.setFreq .pmFreqRequest m).sleepVote = none from rfl, Option.toList_none,
      List.append_nil] at hemit

theorem Noted.call (h : Noted H w) (f : Call) : Noted (H ++ f.sleepVote.toList) (w.call f) := by
  have henter := h.emit (e := .enter f) (by simp)
  rw [show (Ev.enter f).sleepVote = none from rfl, Option.toList_none, List.append_nil] at henter
  exact (henter.exec f).emit (e := .done f) (by simp)

/-! ## A pass -/

theorem Emits.justified (h : SleepsJustified env w.trace)
    (he : Emits (fun e => ∀ m, e ≠ .sleep m) w w') : SleepsJustified env w'.trace := by
  obtain ⟨tr, ht, hq⟩ := he
  rw [ht]
  exact h.append fun pre x hx m hm => absurd hm (hq x hx m)

theorem Emits.closed (h : notified w.trace = [])
    (he : Emits (fun e => ∀ i h m, e ≠ .hook .sleep i h m) w w') : notified w'.trace = [] := by
  obtain ⟨tr, ht, hq⟩ := he
  rw [ht]
  clear ht
  induction tr using List.reverseRecOn with
  | nil => rwa [List.append_nil]
  | append_singleton tr p ih =>
    rw [← List.append_assoc, notified_snoc, ih fun q hmem => hq q (List.mem_append_left _ hmem)]
    exact note_closed (hq p (by simp))

theorem light_ne_sleep {e : Ev} (he : e.light = true) (m : U8) : e ≠ .sleep m := by
  rintro rfl
  exact Bool.noConfusion he

theorem light_ne_hook {e : Ev} (he : e.light = true) (i : ℕ) (h : HookId) (m : U8) :
    e ≠ .hook .sleep i h m := by
  rintro rfl
  exact Bool.noConfusion he

/-- **The selection respects every outstanding request.** -/
theorem passDecide_respects (w : World c X) {p : ℕ × ℕ} (hp : p ∈ votesOf w.st.sleepStatus) :
    w.passDecide.2.st.sleepMode.toNat ≤ p.2 := by
  have hsel : (selectSleepMode w.st).toNat ≤ p.2 :=
    (selectMode_selects (by decide) w.st.sleepStatus pmSleepDeep).le hp
  rw [passDecide_sleepMode]
  exact (passMode_le w).trans ((votedMode_le w).trans hsel)

/-- In a notification that opened with the votes `H` made. -/
structure Notifying (env : Env c X) (m : U8) (H : List (Vote ℕ ℕ)) (w : World c X) : Prop where
  split : sleepRecord w.trace = H ++ sleepRecord (notified w.trace)
  source : ∀ v ∈ sleepRecord (notified w.trace), FromHook env m v
  mode : w.st.sleepMode = m

theorem Notifying.hook {m : U8} (h : Notifying env m H w) (i : ℕ) (id : HookId) :
    Notifying env m H (w.emit (.hook .sleep i id m)) ∧
      notified (w.emit (.hook .sleep i id m)).trace ≠ [] := by
  have hnote : notified (w.emit (.hook .sleep i id m)).trace =
      notified w.trace ++ [(.hook .sleep i id m, w.st)] := by
    rw [emit_trace, notified_snoc]
    exact note_hook rfl rfl
  have hrec : sleepRecord (notified (w.emit (.hook .sleep i id m)).trace) =
      sleepRecord (notified w.trace) := by
    rw [hnote, sleepRecord_snoc]
    exact List.append_nil _
  refine ⟨⟨?_, ?_, h.mode⟩, by rw [hnote]; simp⟩
  · rw [hrec, emit_sleepRecord rfl]
    exact h.split
  · rw [hrec]
    exact h.source

/-- What a running sleep hook does. -/
theorem Notifying.act {m : U8} (h : Notifying env m H w) (hopen : notified w.trace ≠ [])
    {x : HookId} {w₀ : World c X} {a : HookAct X} (ha : a ∈ env.body .sleep x m w₀) :
    Notifying env m H (w.act a) ∧ notified (w.act a).trace ≠ [] := by
  cases a with
  | plat f => exact ⟨⟨h.split, h.source, h.mode⟩, hopen⟩
  | call f =>
    have hnoted : Noted _ (w.call f) := Noted.call ⟨hopen, rfl⟩ f
    refine ⟨⟨?_, ?_, (call_sleepMode f w).trans h.mode⟩, hnoted.1⟩
    · show sleepRecord (w.call f).trace = H ++ sleepRecord (notified (w.call f).trace)
      rw [hnoted.2, call_sleepRecord, h.split, List.append_assoc]
    · intro v hv
      rw [show sleepRecord (notified (w.act (.call f)).trace) = _ from hnoted.2] at hv
      rcases List.mem_append.1 hv with hv | hv
      · exact h.source v hv
      · exact ⟨x, w₀, f, ha, by simpa using hv⟩

/-- **A notification of the sleep hooks.** -/
theorem notify_notifying {m : U8} (hclosed : notified w.trace = []) (hm : w.st.sleepMode = m) :
    Notifying env m (sleepRecord w.trace) (w.lpmsNotifySleep env m) := by
  have hstart : Notifying env m (sleepRecord w.trace) w := by
    refine ⟨?_, ?_, hm⟩
    · rw [hclosed]
      exact (List.append_nil _).symm
    · rw [hclosed]
      exact fun v hv => absurd hv List.not_mem_nil
  exact notifySlots_within
    (Q := fun w' => Notifying env m (sleepRecord w.trace) w' ∧ notified w'.trace ≠ [])
    (fun w' i _ x h => h.hook i x) (fun x w₀ a ha w' h => h.1.act h.2 ha) (fun _ h => h.1) hstart

/-! ## Runs -/

/-- Between two steps: the matrix is the set of outstanding requests, every sleep so far is
justified, and no notification is open. -/
structure VotesKept (env : Env c X) (w : World c X) : Prop where
  votes : VotesHold w
  past : SleepsJustified env w.trace
  closed : notified w.trace = []

theorem VotesKept.call (h : VotesKept env w) (f : Call) : VotesKept env (w.call f) :=
  ⟨h.votes.call f, ((call_emits f w).mono fun _ => light_ne_sleep).justified h.past,
    ((call_emits f w).mono fun _ => light_ne_hook).closed h.closed⟩

theorem VotesKept.decided (h : VotesKept env w) : VotesKept env w.decided := by
  have hP := votesHold_inv (X := X) env
  refine ⟨hP.deepEnter (hP.passDecide h.votes), ?_, ?_⟩
  · refine ((decided_emits w).mono ?_).justified h.past
    rintro e (he | ⟨t, rfl⟩) m
    · exact light_ne_sleep he m
    · exact Ev.noConfusion
  · refine ((decided_emits w).mono ?_).closed h.closed
    rintro e (he | ⟨t, rfl⟩) i x m
    · exact light_ne_hook he i x m
    · exact Ev.noConfusion

/-- **What holds when the device is put to sleep.** -/
theorem VotesKept.told (h : VotesKept env w) :
    SleepEntry env (w.told env).trace (w.told env).st.sleepMode (w.told env).st := by
  have hdec := h.decided
  have hP := votesHold_inv (X := X) env
  have hnote : Notifying env w.decided.st.sleepMode (sleepRecord w.decided.trace) (w.told env) :=
    notify_notifying hdec.closed rfl
  have hvotes : VotesHold (w.told env) :=
    notify_keeps (fun _ _ _ a _ w h => hP.act a h) (fun w i x h => hP.emit w _ trivial h) hdec.votes
  -- up to the sleep hooks no vote is made
  have hsame : votesOf w.decided.st.sleepStatus = votesOf w.st.sleepStatus := by
    have hview := SleepInv.view (X := X) (φ := fun s : Lpms c => s.sleepStatus)
      (fun _ _ => rfl) w.st.sleepStatus
    have heq : w.decided.st.sleepStatus = w.st.sleepStatus := hview.deepEnter (hview.passDecide rfl)
    rw [heq]
  -- and the hooks do not change the mode
  have hmode : (w.told env).st.sleepMode = w.decided.st.sleepMode := hnote.mode
  rw [hmode]
  refine ⟨hvotes, hnote.source, Respects.split hnote.split fun p hp hheld => ?_⟩
  have hmem : p ∈ votesOf w.st.sleepStatus := hsame ▸ (hdec.votes p).2 ⟨hp, hheld⟩
  rw [decided_sleepMode]
  exact passDecide_respects w hmem

theorem VotesKept.asleep (h : VotesKept env w) :
    SleepsJustified env ((w.told env).pmSleep (w.told env).st.sleepMode).trace := by
  have htold : SleepsJustified env (w.told env).trace := by
    refine Emits.justified h.decided.past ?_
    exact notify_emits (fun _ he => light_ne_sleep he) (fun _ _ _ => Ev.noConfusion) _
  unfold pmSleep callOut
  split
  · exact htold
  · refine justified_snoc.2 ⟨htold, fun m hm => ?_⟩
    obtain rfl := Ev.sleep.inj hm
    exact h.told

/-- **A pass keeps the invariant.** -/
theorem VotesKept.pmRunTickless (h : VotesKept env w) : VotesKept env (w.pmRunTickless env) := by
  have hP := votesHold_inv (X := X) env
  by_cases hen : w.st.enableFlag = 0
  · rw [World.pmRunTickless, if_pos hen]
    exact h
  have hpass : w.pmRunTickless env =
      ((w.passDecide.2.passSleep env).pmFreqHandle env).pmIrqEnable w.passDecide.1 := by
    rw [World.pmRunTickless, if_neg hen]
  have hend : EmitsLight ((w.passDecide.2.passSleep env).emit .freqHandle) (w.pmRunTickless env) := by
    rw [hpass]
    exact (pmFreqHandle_emits _).trans (pmIrqEnable_emits _ _)
  refine ⟨hP.pmRunTickless h.votes, ?_, ?_⟩
  · -- after the sleep itself no other is recorded
    have hwake : EmitsLight ((w.told env).pmSleep (w.told env).st.sleepMode)
        (w.passDecide.2.passSleep env) := by
      rw [passSleep_eq]
      exact (notify_emits (fun _ he => he) (fun _ _ => rfl) _).trans (deepExit_emits _ _)
    have hslept := Emits.justified h.asleep (hwake.mono fun _ => light_ne_sleep)
    have hfreq := Emits.justified hslept (Emits.emit (e := .freqHandle) (fun _ => Ev.noConfusion) _)
    exact Emits.justified hfreq (hend.mono fun _ => light_ne_sleep)
  · -- the entry of the frequency step closes the notification
    refine Emits.closed ?_ (hend.mono fun _ => light_ne_hook)
    rw [emit_trace, notified_snoc]
    rfl

theorem VotesKept.step (h : VotesKept env w) (e : Op X) : VotesKept env (w.step env e) := by
  cases e with
  | call f => exact h.call f
  | pmRunTickless => exact h.pmRunTickless
  | plat f => exact ⟨h.votes, h.past, h.closed⟩

theorem VotesKept.run (h : VotesKept env w) (es : List (Op X)) : VotesKept env (w.run env es) := by
  induction es generalizing w with
  | nil => exact h
  | cons e es ih => exact ih (h.step e)

theorem VotesKept.start (ops : LpmsOps X) (freqMode : U8) (x : X) :
    VotesKept env (start c ops freqMode x) := by
  have hst : (World.start c ops freqMode x).st.sleepStatus = .zero := rfl
  refine ⟨?_, Justified.nil _, rfl⟩
  unfold VotesHold
  rw [hst, votesOf_zero]
  exact Holds.nil _

/-- **Sleeps and votes.** In every run, with arbitrary sleep hooks, whenever the device is put to
sleep the matrix is the set of outstanding requests, and the mode violates none of them exactly
when the calls the sleep hooks made in this notification leave no request below it. -/
theorem sleeps_respect_votes_iff (env : Env c X) (ops : LpmsOps X) (freqMode : U8) (x : X)
    (es : List (Op X)) : SleepsJustified env ((start c ops freqMode x).run env es).trace :=
  ((VotesKept.start ops freqMode x).run es).past

/-- A sleep hook that asks for a lower mode, whatever it is told. -/
def vetoEnv : Env Config.shipped U32 where
  body l _ _ _ := if l = .sleep then [.call (.pmSleepRequest 0 pmSleepIdle)] else []

def vetoRun : World Config.shipped U32 :=
  (start .shipped .clock pmFreqHigh 0).run vetoEnv
    [.call (.lpmsSethook .sleep (some 1)), .call .lpmsEnable, .pmRunTickless]

/-- The hook asks for `PM_SLEEP_IDLE`, and the device sleeps in `PM_SLEEP_DEEP`. -/
theorem sleeps_violate_vote_in_hook :
    ∃ pre s post, vetoRun.trace = pre ++ (.sleep pmSleepDeep, s) :: post ∧
      (0, pmSleepIdle.toNat) ∈ votesOf s.sleepStatus ∧ ¬Respects pre pmSleepDeep := by
  have hlen : 19 < vetoRun.trace.length := by decide +kernel
  have hsleep : (vetoRun.trace.get ⟨19, hlen⟩).1 = .sleep pmSleepDeep := by decide +kernel +revert
  refine ⟨vetoRun.trace.take 19, (vetoRun.trace.get ⟨19, hlen⟩).2, vetoRun.trace.drop 20, ?_, ?_,
    fun h => ?_⟩
  · rw [← hsleep]
    have hdrop := List.drop_eq_getElem_cons hlen
    exact (List.take_append_drop 19 _).symm.trans (congrArg _ hdrop)
  · rw [mem_votesOf]
    decide +kernel +revert
  · have hle := h (0, pmSleepIdle.toNat) (by decide) (by decide +kernel)
    exact absurd hle (by decide)

/-- **Hooks that do not vote below the mode they are told.** Then no sleep violates a request. -/
theorem sleeps_respect_votes {env : Env c X}
    (henv : ∀ h m w f, HookAct.call f ∈ env.body .sleep h m w → ∀ k m',
      f.sleepVote = some (.request k m') → m.toNat ≤ m')
    (ops : LpmsOps X) (freqMode : U8) (x : X) (es : List (Op X)) :
    Justified (fun pre e => ∀ m, e.1 = .sleep m → Respects pre m)
      ((start c ops freqMode x).run env es).trace := by
  refine ((VotesKept.start ops freqMode x).run es).past.mono fun pre e h m hm => ?_
  have hentry := h m hm
  rw [hentry.respects]
  intro p _ hheld
  obtain ⟨y, w, f, hf, hv⟩ := hentry.source _ (request_mem_of_held hheld)
  exact henv y m w f hf p.1 p.2 hv

end World
end LowPower
