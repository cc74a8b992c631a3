import LowPower.Proof.Frame
import Mathlib.Order.Bounds.Basic

/-!
# One idle pass, event by event

With every callback present and quiet hooks, `pm_run_tickless` is a straight line. `Does w w' es`
says that a block leads from `w` to `w'` and records exactly the events `es`; blocks compose
(`Does.trans`). The blocks of the pass (`passDecide_does`, `passSleep_does`,
`pmFreqHandle_does`) give the whole pass: the deepest allowed mode, the low-power timer, the
notifications and the sleep in order, between one interrupt disable and one restore
(`pmRunTickless_events`).
-/

namespace LowPower

variable {c : Config} {X : Type}

/-- An `ops` table with all callbacks present. -/
structure LpmsOps.Full (o : LpmsOps X) : Prop where
  sleep : o.sleep.isSome = true
  setFreq : o.setFreq.isSome = true
  lptimStart : o.lptimStart.isSome = true
  lptimStop : o.lptimStop.isSome = true
  lptimGetTick : o.lptimGetTick.isSome = true
  lptimNextTimeout : o.lptimNextTimeout.isSome = true
  systickGet : o.systickGet.isSome = true
  systickSet : o.systickSet.isSome = true
  systickNextTimeout : o.systickNextTimeout.isSome = true
  irqDisable : o.irqDisable.isSome = true
  irqEnable : o.irqEnable.isSome = true

theorem LpmsOps.clock_full : LpmsOps.clock.Full :=
  ⟨rfl, rfl, rfl, rfl, rfl, rfl, rfl, rfl, rfl, rfl, rfl⟩

/-- The calls of the hooks of a list, slot by slot. -/
def hookCalls (s : Lpms c) (l : HookList) (mode : U8) : List Ev :=
  (List.finRange (c.lpmsHookListSize l)).filterMap fun i =>
    (s.hooks l)[i].map fun h => .hook l i h mode

/-- Some of the ticks read, each compared with the deadline of the module whose turn it was,
shows a module busy. -/
def BusyRead (s : Lpms c) (is : List (Fin c.pmBusyModuleMax)) (reads : List U32) : Prop :=
  ∃ p ∈ reads.zip is, p.1 < s.timeout[p.2]

/-- The modes a pass must not exceed: the votes, the busy mode, the threshold mode. -/
def limits (s : Lpms c) (busy near : Prop) : Set ℕ :=
  {n | n = (selectSleepMode s).toNat ∨ (busy ∧ n = c.lpmsDefaultBusySleepMode.toNat) ∨
    (near ∧ n = c.lpmsTicklessThresholdMode.toNat)}

namespace World

variable {w w' w'' : World c X} {o : LpmsOps X} {env : Env c X} {es es' : List Ev} {s : Lpms c}

/-- The events recorded so far. -/
def events (w : World c X) : List Ev := w.trace.map Prod.fst

/-- From `w` to `w'` by the events `es`, with static data `s` at the end. -/
structure Does (w w' : World c X) (es : List Ev) (s : Lpms c) : Prop where
  events : w'.events = w.events ++ es
  ops : w'.ops = w.ops
  st : w'.st = s

theorem Does.refl (w : World c X) : Does w w [] w.st := ⟨(List.append_nil _).symm, rfl, rfl⟩

/-- Blocks compose. -/
theorem Does.trans {s' : Lpms c} (h : Does w w' es s) (h' : Does w' w'' es' s') :
    Does w w'' (es ++ es') s' :=
  ⟨by rw [h'.events, h.events, List.append_assoc], h'.ops.trans h.ops, h'.st⟩

theorem Does.mapSt (h : Does w w' es s) (f : Lpms c → Lpms c) : Does w (w'.mapSt f) es (f s) :=
  ⟨h.events, h.ops, by rw [mapSt_st, h.st]⟩

/-! ## Callbacks -/

theorem callOut_does {sel : LpmsOps X → Option (X → X)} (ho : w.ops = some o)
    (hs : (sel o).isSome = true) (e : Ev) : Does w (w.callOut sel e) [e] w.st := by
  obtain ⟨f, hf⟩ := Option.isSome_iff_exists.1 hs
  have hw : w.callOut sel e = { w.emit e with plat := f w.plat } := by
    unfold callOut
    rw [show w.ops.bind sel = some f by rw [ho]; exact hf]
  rw [hw]
  exact ⟨by simp [World.events, World.emit], rfl, rfl⟩

theorem query_does {sel : LpmsOps X → Option (X → U32 × X)} (ho : w.ops = some o)
    (hs : (sel o).isSome = true) (e : U32 → Ev) (d : U32) :
    Does w (w.query sel e d).2 [e (w.query sel e d).1] w.st := by
  obtain ⟨f, hf⟩ := Option.isSome_iff_exists.1 hs
  have hw : w.query sel e d =
      ((f w.plat).1, { w.emit (e (f w.plat).1) with plat := (f w.plat).2 }) := by
    unfold query
    rw [show w.ops.bind sel = some f by rw [ho]; exact hf]
  rw [hw]
  exact ⟨by simp [World.events, World.emit], rfl, rfl⟩

/-! ## Notifications -/

/-- **A notification with quiet hooks calls each registered hook once, in slot order.** -/
theorem notify_does {l : HookList} (hq : env.Quiet l) (mode : U8) (w : World c X) :
    Does w (w.notify env l mode) (hookCalls w.st l mode) w.st := by
  have hloop : ∀ (is : List (Fin (c.lpmsHookListSize l))) (w' : World c X), w'.st = w.st →
      Does w' (is.foldl (notifySlot env l mode) w') (is.filterMap fun i =>
        (w.st.hooks l)[i].map fun h => .hook l i h mode) w.st := by
    intro is
    induction is with
    | nil =>
      intro w' hst
      exact hst ▸ Does.refl w'
    | cons i is ih =>
      intro w' hst
      rw [List.foldl_cons]
      cases hi : (w.st.hooks l)[i] with
      | none =>
        have hskip : notifySlot env l mode w' i = w' := by
          unfold notifySlot
          rw [hst, hi]
        rw [hskip, List.filterMap_cons_none (by rw [hi]; rfl)]
        exact ih w' hst
      | some h =>
        have hcall : Does w' (notifySlot env l mode w' i) [.hook l i h mode] w.st := by
          unfold notifySlot
          rw [hst, hi]
          refine acts_keeps (P := fun v => Does w' v [.hook l i h mode] w.st) ?_ ?_
          · intro a ha v hv
            obtain ⟨f, rfl⟩ := hq h mode w' a ha
            exact ⟨hv.events, hv.ops, hv.st⟩
          · exact ⟨by simp [World.events, World.emit], rfl, hst⟩
        rw [List.filterMap_cons_some (b := .hook l i h mode) (by rw [hi]; rfl)]
        exact hcall.trans (ih _ hcall.st)
  exact hloop _ w rfl

/-! ## The decision -/

/-- The busy check reads the tick once for each module it looks at, and stops at the first busy
one. -/
theorem pmCheckBusy_does (ho : w.ops = some o) (hf : o.Full) : ∃ reads : List U32,
    Does w w.pmCheckBusy.2 (reads.map .systickGet) w.st ∧
    (w.pmCheckBusy.1 = pmFlagBusy ↔ BusyRead w.st (List.finRange _) reads) ∧
    (¬ BusyRead w.st (List.finRange _) reads → reads.length = c.pmBusyModuleMax) := by
  have hloop : ∀ (is : List (Fin c.pmBusyModuleMax)) (w' : World c X), w'.ops = some o →
      w'.st = w.st → ∃ reads : List U32,
        Does w' (checkBusyFrom is w').2 (reads.map .systickGet) w.st ∧
        ((checkBusyFrom is w').1 = pmFlagBusy ↔ BusyRead w.st is reads) ∧
        (¬ BusyRead w.st is reads → reads.length = is.length) := by
    intro is
    induction is with
    | nil =>
      intro w' _ hst
      refine ⟨[], hst ▸ Does.refl w', ?_, fun _ => rfl⟩
      refine iff_of_false (by simp [checkBusyFrom]) ?_
      rintro ⟨p, hp, -⟩
      simp at hp
    | cons k is ih =>
      intro w' ho' hst
      have hget : Does w' w'.pmGetTick.2 [.systickGet w'.pmGetTick.1] w'.st :=
        query_does ho' hf.systickGet .systickGet 0
      rw [hst] at hget
      unfold checkBusyFrom
      dsimp only
      rw [hget.st]
      split_ifs with hlt
      · have hbusy : BusyRead w.st (k :: is) [w'.pmGetTick.1] :=
          ⟨(w'.pmGetTick.1, k), by simp, hlt⟩
        exact ⟨[w'.pmGetTick.1], hget, iff_of_true rfl hbusy, fun hn => absurd hbusy hn⟩
      · obtain ⟨reads, hdoes, hiff, hlen⟩ := ih w'.pmGetTick.2 (hget.ops.trans ho') hget.st
        -- the module just read is not busy
        have hcons : BusyRead w.st (k :: is) (w'.pmGetTick.1 :: reads) ↔ BusyRead w.st is reads := by
          unfold BusyRead
          rw [List.zip_cons_cons]
          constructor
          · rintro ⟨p, hp, hplt⟩
            rcases List.mem_cons.1 hp with rfl | hp
            · exact absurd hplt hlt
            · exact ⟨p, hp, hplt⟩
          · rintro ⟨p, hp, hplt⟩
            exact ⟨p, List.mem_cons_of_mem _ hp, hplt⟩
        refine ⟨w'.pmGetTick.1 :: reads, hget.trans hdoes, hiff.trans hcons.symm, fun hn => ?_⟩
        rw [List.length_cons, List.length_cons, hlen fun hb => hn (hcons.2 hb)]
  obtain ⟨reads, hdoes, hiff, hlen⟩ := hloop (List.finRange _) w ho rfl
  exact ⟨reads, hdoes, hiff, fun hn => by rw [hlen hn, List.length_finRange]⟩

/-- A limit lowers the mode to at most its own. -/
theorem limitMode_does (mode : U8) (w : World c X) :
    ∃ m : U8, Does w (w.limitMode mode) [] { w.st with sleepMode := m } ∧
      m.toNat = min w.st.sleepMode.toNat mode.toNat := by
  unfold limitMode
  split_ifs with hlt
  · have hlt' : mode.toNat < w.st.sleepMode.toNat := hlt
    exact ⟨mode, (Does.refl w).mapSt _, by omega⟩
  · have hlt' : ¬ mode.toNat < w.st.sleepMode.toNat := hlt
    exact ⟨w.st.sleepMode, Does.refl w, by omega⟩

/-- The mode `m` is `top`, brought down to `mode` if `cond` holds. -/
def Lowered (cond : Prop) (mode top m : ℕ) : Prop :=
  (cond ∧ m = min top mode) ∨ (¬cond ∧ m = top)

theorem busyLimit_does (ho : w.ops = some o) (hf : o.Full) :
    ∃ (reads : List U32) (m : U8),
      Does w w.busyLimit (reads.map .systickGet) { w.st with sleepMode := m } ∧
      (¬ BusyRead w.st (List.finRange _) reads → reads.length = c.pmBusyModuleMax) ∧
      Lowered (BusyRead w.st (List.finRange _) reads) c.lpmsDefaultBusySleepMode.toNat
        w.st.sleepMode.toNat m.toNat := by
  obtain ⟨reads, hcheck, hbusy, hlen⟩ := pmCheckBusy_does ho hf
  refine ⟨reads, ?_⟩
  unfold busyLimit
  dsimp only
  split_ifs with hflag
  · obtain ⟨m, hlim, hm⟩ := limitMode_does c.lpmsDefaultBusySleepMode w.pmCheckBusy.2
    rw [hcheck.st] at hlim hm
    have hall := hcheck.trans hlim
    rw [List.append_nil] at hall
    exact ⟨m, hall, hlen, .inl ⟨hbusy.1 hflag, hm⟩⟩
  · exact ⟨w.st.sleepMode, hcheck, hlen, .inr ⟨fun hb => hflag (hbusy.2 hb), rfl⟩⟩

theorem thresholdLimit_does (ho : w.ops = some o) (hf : o.Full) :
    ∃ (next now : U32) (m : U8),
      Does w w.thresholdLimit [.systickNextTimeout next, .systickGet now]
        { w.st with sleepMode := m } ∧
      Lowered (next - now ≤ c.lpmsTicklessThresholdTime) c.lpmsTicklessThresholdMode.toNat
        w.st.sleepMode.toNat m.toNat := by
  have hnext : Does w w.pmNextTimeout.2 [.systickNextTimeout w.pmNextTimeout.1] w.st :=
    query_does ho hf.systickNextTimeout .systickNextTimeout pmTickMax
  have hnow : Does w.pmNextTimeout.2 w.pmNextTimeout.2.pmGetTick.2
      [.systickGet w.pmNextTimeout.2.pmGetTick.1] w.pmNextTimeout.2.st :=
    query_does (hnext.ops.trans ho) hf.systickGet .systickGet 0
  rw [hnext.st] at hnow
  have hreads := hnext.trans hnow
  refine ⟨w.pmNextTimeout.1, w.pmNextTimeout.2.pmGetTick.1, ?_⟩
  unfold thresholdLimit
  dsimp only
  split_ifs with hnear
  · obtain ⟨m, hlim, hm⟩ := limitMode_does c.lpmsTicklessThresholdMode
      w.pmNextTimeout.2.pmGetTick.2
    rw [hreads.st] at hlim hm
    exact ⟨m, hreads.trans hlim, .inl ⟨hnear, hm⟩⟩
  · exact ⟨w.st.sleepMode, hreads, .inr ⟨hnear, rfl⟩⟩

/-- Lowered twice, the mode is the least of the limits. -/
theorem isLeast_limits {s : Lpms c} {busy near : Prop} {m₁ m : ℕ}
    (h₁ : Lowered busy c.lpmsDefaultBusySleepMode.toNat (selectSleepMode s).toNat m₁)
    (h : Lowered near c.lpmsTicklessThresholdMode.toNat m₁ m) :
    IsLeast (limits s busy near) m := by
  constructor
  · unfold limits
    rcases h₁ with ⟨hb, hm₁⟩ | ⟨hb, hm₁⟩ <;> rcases h with ⟨hn, hm⟩ | ⟨hn, hm⟩ <;>
      simp only [Set.mem_ofPred_eq, hb, hn, true_and, false_and] <;> omega
  · rintro n (rfl | ⟨hb, rfl⟩ | ⟨hn, rfl⟩)
    · rcases h₁ with ⟨-, hm₁⟩ | ⟨-, hm₁⟩ <;> rcases h with ⟨-, hm⟩ | ⟨-, hm⟩ <;> omega
    · rcases h₁ with ⟨-, hm₁⟩ | ⟨hb', -⟩
      · rcases h with ⟨-, hm⟩ | ⟨-, hm⟩ <;> omega
      · exact absurd hb hb'
    · rcases h with ⟨-, hm⟩ | ⟨hn', -⟩
      · omega
      · exact absurd hn hn'

/-- Votes, busy windows and threshold: the pass settles on the least of its limits. -/
theorem passDecide_does (ho : w.ops = some o) (hf : o.Full) :
    ∃ (reads : List U32) (next now : U32) (m : U8),
      Does w w.passDecide.2 ([.irqDisable w.passDecide.1] ++ reads.map .systickGet ++
        [.systickNextTimeout next, .systickGet now]) { w.st with sleepMode := m } ∧
      (¬ BusyRead w.st (List.finRange _) reads → reads.length = c.pmBusyModuleMax) ∧
      IsLeast (limits w.st (BusyRead w.st (List.finRange _) reads)
        (next - now ≤ c.lpmsTicklessThresholdTime)) m.toNat := by
  have hdisable : Does w w.pmIrqDisable.2 [.irqDisable w.pmIrqDisable.1] w.st :=
    query_does ho hf.irqDisable .irqDisable 0
  have hvoted := hdisable.mapSt fun s => { s with sleepMode := selectSleepMode s }
  have hlevel : w.passDecide.1 = w.pmIrqDisable.1 := rfl
  have hrest : w.passDecide.2 = (w.pmIrqDisable.2.mapSt
      fun s => { s with sleepMode := selectSleepMode s }).busyLimit.thresholdLimit := rfl
  rw [hlevel, hrest]
  generalize w.pmIrqDisable.2.mapSt (fun s => { s with sleepMode := selectSleepMode s }) = v
    at hvoted
  obtain ⟨reads, m₁, hbusy, hlen, hm₁⟩ := busyLimit_does (hvoted.ops.trans ho) hf
  obtain ⟨next, now, m, hnear, hm⟩ :=
    thresholdLimit_does (hbusy.ops.trans (hvoted.ops.trans ho)) hf
  rw [hbusy.st] at hnear hm
  rw [hvoted.st] at hbusy hlen hm₁ hnear
  exact ⟨reads, next, now, m, (hvoted.trans hbusy).trans hnear, hlen, isLeast_limits hm₁ hm⟩

/-! ## The sleep and the frequency step -/

/-- Before a deep sleep the low-power timer is started. -/
theorem deepEnter_does (ho : w.ops = some o) (hf : o.Full) : ∃ next now : U32,
    Does w w.deepEnter.2 (if c.lpmsTicklessDefaultMode ≤ w.st.sleepMode then
      [.lptimNextTimeout next, .systickGet now, .lptimStart (next - now)] else []) w.st ∧
    w.deepEnter.1 = decide (c.lpmsTicklessDefaultMode ≤ w.st.sleepMode) := by
  unfold deepEnter
  dsimp only
  split_ifs with hdeep
  · have h1 : Does w w.lptimerNextTimeout.2 [.lptimNextTimeout w.lptimerNextTimeout.1] w.st :=
      query_does ho hf.lptimNextTimeout .lptimNextTimeout pmTickMax
    have h2 : Does w.lptimerNextTimeout.2 w.lptimerNextTimeout.2.pmGetTick.2
        [.systickGet w.lptimerNextTimeout.2.pmGetTick.1] w.lptimerNextTimeout.2.st :=
      query_does (h1.ops.trans ho) hf.systickGet .systickGet 0
    rw [h1.st] at h2
    have h12 := h1.trans h2
    have h3 : ∀ t, Does w.lptimerNextTimeout.2.pmGetTick.2
        (w.lptimerNextTimeout.2.pmGetTick.2.lptimerStart t) [.lptimStart t]
        w.lptimerNextTimeout.2.pmGetTick.2.st := fun t =>
      callOut_does (h12.ops.trans ho) (by simpa using hf.lptimStart) (.lptimStart t)
    rw [h12.st] at h3
    exact ⟨_, _, h12.trans (h3 _), by simp [hdeep]⟩
  · exact ⟨0, 0, Does.refl w, by simp [hdeep]⟩

/-- After a deep sleep the low-power timer is read and stopped and the system tick set. -/
theorem deepExit_does (ho : w.ops = some o) (hf : o.Full) : ∃ delta now : U32,
    Does w (w.deepExit (decide (c.lpmsTicklessDefaultMode ≤ w.st.sleepMode)))
      (if c.lpmsTicklessDefaultMode ≤ w.st.sleepMode then
        [.lptimGetTick delta, .lptimStop, .systickGet now, .systickSet (now + delta)] else []) w.st := by
  unfold deepExit
  by_cases hdeep : c.lpmsTicklessDefaultMode ≤ w.st.sleepMode
  · simp only [hdeep, decide_true, if_true]
    have h1 : Does w w.lptimerGetTimeout.2 [.lptimGetTick w.lptimerGetTimeout.1] w.st :=
      query_does ho hf.lptimGetTick .lptimGetTick pmTickMax
    have h2 : Does w.lptimerGetTimeout.2 w.lptimerGetTimeout.2.lptimerStop [.lptimStop]
        w.lptimerGetTimeout.2.st := callOut_does (h1.ops.trans ho) hf.lptimStop .lptimStop
    rw [h1.st] at h2
    have h12 := h1.trans h2
    generalize w.lptimerGetTimeout.2.lptimerStop = v at h12
    have h3 : Does v v.pmGetTick.2 [.systickGet v.pmGetTick.1] v.st :=
      query_does (h12.ops.trans ho) hf.systickGet .systickGet 0
    rw [h12.st] at h3
    have h123 := h12.trans h3
    have h4 : ∀ t, Does v.pmGetTick.2 (v.pmGetTick.2.pmSetTick t) [.systickSet t] v.pmGetTick.2.st :=
      fun t => callOut_does (h123.ops.trans ho) (by simpa using hf.systickSet) (.systickSet t)
    rw [h123.st] at h4
    exact ⟨_, _, h123.trans (h4 _)⟩
  · simp only [hdeep, if_false]
    exact ⟨0, 0, Does.refl w⟩

/-- The sleep between its notifications and, for a deep sleep, the low-power timer. -/
theorem passSleep_does (ho : w.ops = some o) (hf : o.Full) (hq : ∀ l, env.Quiet l) :
    ∃ next now delta now' : U32, Does w (w.passSleep env)
      ((if c.lpmsTicklessDefaultMode ≤ w.st.sleepMode then
          [.lptimNextTimeout next, .systickGet now, .lptimStart (next - now)] else []) ++
        hookCalls w.st .sleep w.st.sleepMode ++ [.sleep w.st.sleepMode] ++
        hookCalls w.st .wake w.st.sleepMode ++
        (if c.lpmsTicklessDefaultMode ≤ w.st.sleepMode then
          [.lptimGetTick delta, .lptimStop, .systickGet now', .systickSet (now' + delta)] else []))
      w.st := by
  obtain ⟨next, now, h1, hflag⟩ := deepEnter_does ho hf
  unfold passSleep
  dsimp only
  rw [hflag]
  generalize w.deepEnter.2 = v at h1
  have h2 : Does v (v.lpmsNotifySleep env v.st.sleepMode) _ _ := notify_does (hq .sleep) _ v
  rw [h1.st] at h2 ⊢
  have h12 := h1.trans h2
  generalize v.lpmsNotifySleep env w.st.sleepMode = v2 at h12
  have h3 : Does v2 (v2.pmSleep v2.st.sleepMode) [.sleep v2.st.sleepMode] v2.st :=
    callOut_does (h12.ops.trans ho) (by simpa using hf.sleep) _
  rw [h12.st] at h3 ⊢
  have h123 := h12.trans h3
  generalize v2.pmSleep w.st.sleepMode = v3 at h123
  have h4 : Does v3 (v3.lpmsNotifyWakeup env v3.st.sleepMode) _ _ := notify_does (hq .wake) _ v3
  rw [h123.st] at h4 ⊢
  have h1234 := h123.trans h4
  generalize v3.lpmsNotifyWakeup env w.st.sleepMode = v4 at h1234
  obtain ⟨delta, now', h5⟩ := deepExit_does (h1234.ops.trans ho) hf
  rw [h1234.st] at h5
  exact ⟨next, now, delta, now', h1234.trans h5⟩

/-- What the frequency step calls: `set_freq` and the frequency hooks, if the flag is up and
another mode is selected. -/
def freqCalls (s : Lpms c) : List Ev :=
  if s.freqFlag = 0x01 ∧ selectFreqMode s ≠ s.freqMode then
    .setFreq .pmFreqHandle (selectFreqMode s) :: hookCalls s .freq (selectFreqMode s)
  else []

theorem pmFreqHandle_does (ho : w.ops = some o) (hf : o.Full) (hq : env.Quiet .freq) :
    Does w (w.pmFreqHandle env) (.freqHandle :: freqCalls w.st) (w.pmFreqHandle env).st := by
  have h0 : Does w (w.emit .freqHandle) [.freqHandle] w.st :=
    ⟨by simp [World.events, World.emit], rfl, rfl⟩
  -- the final data is whatever it is; the events are what matters
  suffices h : ∃ s, Does w (w.pmFreqHandle env) (.freqHandle :: freqCalls w.st) s by
    obtain ⟨s, h⟩ := h
    exact ⟨h.events, h.ops, rfl⟩
  unfold pmFreqHandle freqCalls
  dsimp only
  rw [h0.st]
  by_cases hflag : w.st.freqFlag = 0x01
  · have h1 := h0.mapSt fun s => { s with freqFlag := 0x00 }
    have hsel : selectFreqMode ((w.emit .freqHandle).mapSt fun s => { s with freqFlag := 0x00 }).st =
        selectFreqMode w.st := rfl
    have hmode : ((w.emit .freqHandle).mapSt fun s => { s with freqFlag := 0x00 }).st.freqMode =
        w.st.freqMode := rfl
    rw [if_pos hflag, hsel, hmode]
    generalize (w.emit .freqHandle).mapSt (fun s => { s with freqFlag := 0x00 }) = v at h1
    by_cases hne : selectFreqMode w.st = w.st.freqMode
    · rw [if_neg (not_not.2 hne), if_neg (fun hc => hc.2 hne)]
      exact ⟨_, h1⟩
    · rw [if_pos hne, if_pos ⟨hflag, hne⟩]
      have h2 : Does v (v.pmSetFreq .pmFreqHandle (selectFreqMode w.st))
          [.setFreq .pmFreqHandle (selectFreqMode w.st)] v.st :=
        callOut_does (h1.ops.trans ho) (by simpa using hf.setFreq) _
      rw [h1.st] at h2
      have h12 := (h1.trans h2).mapSt fun s => { s with freqMode := selectFreqMode w.st }
      have h3 : Does _ _ _ _ := notify_does hq (selectFreqMode w.st)
        ((v.pmSetFreq .pmFreqHandle (selectFreqMode w.st)).mapSt
          fun s => { s with freqMode := selectFreqMode w.st })
      rw [h12.st] at h3
      exact ⟨_, h12.trans h3⟩
  · rw [if_neg hflag, if_neg fun hc => hflag hc.1]
    exact ⟨_, h0⟩

/-- **One idle pass.** Enabled, with all callbacks present and quiet hooks, `pm_run_tickless`
picks the least of its limits and does, in this order and once each: interrupts off; the reads of
the decision; the start of the low-power timer, for a deep mode; the sleep hooks; the sleep; the
wakeup hooks; the stop of the timer and the compensation, for a deep mode; the frequency step;
interrupts back to the saved level. No vote and no busy deadline moves. -/
theorem pmRunTickless_events (hen : w.st.enableFlag ≠ 0) (ho : w.ops = some o) (hf : o.Full)
    (hq : ∀ l, env.Quiet l) :
    ∃ (level : U32) (reads : List U32) (next now : U32) (m : U8) (lpNext lpNow delta now' : U32),
      (w.pmRunTickless env).events = w.events ++
        ([.irqDisable level] ++ reads.map .systickGet ++ [.systickNextTimeout next, .systickGet now] ++
        (if c.lpmsTicklessDefaultMode ≤ m then
          [.lptimNextTimeout lpNext, .systickGet lpNow, .lptimStart (lpNext - lpNow)] else []) ++
        hookCalls w.st .sleep m ++ [.sleep m] ++ hookCalls w.st .wake m ++
        (if c.lpmsTicklessDefaultMode ≤ m then
          [.lptimGetTick delta, .lptimStop, .systickGet now', .systickSet (now' + delta)] else []) ++
        .freqHandle :: freqCalls w.st ++ [.irqEnable level]) ∧
      (¬ BusyRead w.st (List.finRange _) reads → reads.length = c.pmBusyModuleMax) ∧
      IsLeast (limits w.st (BusyRead w.st (List.finRange _) reads)
        (next - now ≤ c.lpmsTicklessThresholdTime)) m.toNat ∧
      (w.pmRunTickless env).st.sleepStatus = w.st.sleepStatus ∧
      (w.pmRunTickless env).st.freqStatus = w.st.freqStatus ∧
      (w.pmRunTickless env).st.timeout = w.st.timeout := by
  obtain ⟨reads, next, now, m, h1, hlen, hleast⟩ := passDecide_does ho hf
  obtain ⟨lpNext, lpNow, delta, now', h2⟩ := passSleep_does (h1.ops.trans ho) hf hq
  rw [h1.st] at h2
  have h12 := h1.trans h2
  have hst3 := pmFreqHandle_st (w := w.passDecide.2.passSleep env) (hq .freq)
  have h3 := pmFreqHandle_does (h12.ops.trans ho) hf (hq .freq)
  rw [h12.st] at h3 hst3
  have h123 := h12.trans h3
  have h4 : Does ((w.passDecide.2.passSleep env).pmFreqHandle env)
      (((w.passDecide.2.passSleep env).pmFreqHandle env).pmIrqEnable w.passDecide.1)
      [.irqEnable w.passDecide.1] _ :=
    callOut_does (h123.ops.trans ho) (by simpa using hf.irqEnable) _
  have hpass : w.pmRunTickless env =
      ((w.passDecide.2.passSleep env).pmFreqHandle env).pmIrqEnable w.passDecide.1 := by
    unfold pmRunTickless
    rw [if_neg hen]
  have hall := h123.trans h4
  rw [← hpass] at hall
  refine ⟨w.passDecide.1, reads, next, now, m, lpNext, lpNow, delta, now', ?_, hlen, hleast, ?_, ?_, ?_⟩
  · rw [hall.events]
    simp only [List.append_assoc, List.cons_append, List.nil_append]
    rfl
  · rw [hall.st, hst3]
    split_ifs <;> rfl
  · rw [hall.st, hst3]
    split_ifs <;> rfl
  · rw [hall.st, hst3]
    split_ifs <;> rfl

/-- With no vote, no busy window and a timer far ahead, the pass sleeps in `PM_SLEEP_DEEP`. -/
theorem pmRunTickless_events_deep :
    let w := (start Config.shipped .clock pmFreqHigh 0).run (.silent : Env Config.shipped U32)
      [.call (.lpmsSethook .sleep (some 1)), .call .lpmsEnable]
    .sleep pmSleepDeep ∈ (w.pmRunTickless .silent).events ∧
      (w.pmRunTickless .silent).st.sleepStatus = w.st.sleepStatus := by
  intro w
  have ho : w.ops = some .clock := run_ops _ _
  obtain ⟨_, _, _, _, _, _, _, _, _, -, -, -, hsleep, -, -⟩ :=
    pmRunTickless_events (by decide +kernel : w.st.enableFlag ≠ 0) ho LpmsOps.clock_full
      (Env.silent_quiet : ∀ l, (Env.silent : Env Config.shipped U32).Quiet l)
  exact ⟨by decide +kernel, hsleep⟩

end World
end LowPower
