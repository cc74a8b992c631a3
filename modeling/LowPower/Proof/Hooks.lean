import LowPower.Lib.Slots
import LowPower.Proof.Emits

/-!
# The hook lists as bounded multisets

`lpms_notify.c` keeps each list in an array of slots. Registering and deleting refine the
operations of a bounded multiset, with their results (`hookOps_bags`). A notification walks over
the slots while the hooks it calls may register and delete: a hook that is not touched keeps its
slots, so each of its registrations is called once (`notify_calls`).
-/

namespace LowPower

variable {c : Config} {X : Type}

/-! ## The abstract lists -/

/-- A registration or deletion of a hook that is not NULL. -/
inductive HookOp where
  | sethook (l : HookList) (h : HookId)
  | delhook (l : HookList) (h : HookId)
deriving DecidableEq, Repr

/-- For each list the hooks registered and not yet deleted, with multiplicity. -/
abbrev Bags := HookList → Multiset HookId

namespace Bags

def op (size : HookList → ℕ) (b : Bags) : HookOp → ℤ × Bags
  | .sethook l h =>
    if (b l).card < size l then (lpmsEok, Function.update b l (h ::ₘ b l)) else (-lpmsEfull, b)
  | .delhook l h =>
    if h ∈ b l then (lpmsEok, Function.update b l ((b l).erase h)) else (-lpmsEnosys, b)

def ops (size : HookList → ℕ) (b : Bags) : List HookOp → List ℤ × Bags
  | [] => ([], b)
  | e :: es => ((b.op size e).1 :: ((b.op size e).2.ops size es).1, ((b.op size e).2.ops size es).2)

end Bags

namespace World

variable {w : World c X} {l : HookList}

/-- What is registered. -/
def registered (w : World c X) : Bags := fun l => Slots.bag (w.st.hooks l)

def hookOp (w : World c X) : HookOp → ℤ × World c X
  | .sethook .sleep h => w.lpmsSleepSethook (some h)
  | .sethook .wake h => w.lpmsWakeupSethook (some h)
  | .sethook .freq h => w.lpmsFreqSethook (some h)
  | .delhook .sleep h => w.lpmsSleepDelhook (some h)
  | .delhook .wake h => w.lpmsWakeupDelhook (some h)
  | .delhook .freq h => w.lpmsFreqDelhook (some h)

def hookOps (w : World c X) : List HookOp → List ℤ × World c X
  | [] => ([], w)
  | e :: es => ((w.hookOp e).1 :: ((w.hookOp e).2.hookOps es).1, ((w.hookOp e).2.hookOps es).2)

/-! ## One call -/

theorem sethook_eq (l : HookList) (hook : Option HookId) (w : World c X) :
    (w.sethook l hook).1 = (if (Slots.find (w.st.hooks l) none).isSome then lpmsEok else -lpmsEfull) ∧
      (w.sethook l hook).2.st = match Slots.find (w.st.hooks l) none with
        | some i => setSlot w.st l i hook
        | none => w.st := by
  have hfirst : firstSlot w.pmIrqDisable.2.st l none = Slots.find (w.st.hooks l) none := by
    rw [pmIrqDisable_st]
    rfl
  unfold sethook
  dsimp only
  rw [hfirst]
  cases Slots.find (w.st.hooks l) none with
  | none => exact ⟨rfl, by rw [pmIrqEnable_st, pmIrqDisable_st]⟩
  | some i => exact ⟨rfl, by rw [pmIrqEnable_st, mapSt_st, pmIrqDisable_st]⟩

theorem delhook_eq (l : HookList) (hook : Option HookId) (w : World c X) :
    (w.delhook l hook).1 =
        (if (Slots.find (w.st.hooks l) hook).isSome then lpmsEok else -lpmsEnosys) ∧
      (w.delhook l hook).2.st = match Slots.find (w.st.hooks l) hook with
        | some i => setSlot w.st l i none
        | none => w.st := by
  have hfirst : firstSlot w.pmIrqDisable.2.st l hook = Slots.find (w.st.hooks l) hook := by
    rw [pmIrqDisable_st]
    rfl
  unfold delhook
  dsimp only
  rw [hfirst]
  cases Slots.find (w.st.hooks l) hook with
  | none => exact ⟨rfl, by rw [pmIrqEnable_st, pmIrqDisable_st]⟩
  | some i => exact ⟨rfl, by rw [pmIrqEnable_st, mapSt_st, pmIrqDisable_st]⟩

theorem setSlot_hooks (s : Lpms c) (l : HookList) (i : Fin (c.lpmsHookListSize l))
    (hook : Option HookId) :
    (setSlot s l i hook).hooks = Function.update s.hooks l ((s.hooks l).set i hook i.isLt) := rfl

theorem registered_congr {w' : World c X} (hst : w'.st = w.st) : w'.registered = w.registered := by
  unfold registered
  rw [hst]

/-- The bags after a slot of one list is written. -/
theorem registered_setSlot {w' : World c X} {i : Fin (c.lpmsHookListSize l)} {hook : Option HookId}
    (hst : w'.st = setSlot w.st l i hook) :
    w'.registered = Function.update w.registered l (Slots.bag ((w.st.hooks l).set i hook i.isLt)) := by
  funext l'
  unfold registered
  rw [hst, setSlot_hooks]
  by_cases hl : l' = l
  · subst hl
    rw [Function.update_self, Function.update_self]
  · rw [Function.update_of_ne hl, Function.update_of_ne hl]

/-- Registering refines the abstract operation. -/
theorem sethook_bags (l : HookList) (h : HookId) (w : World c X) :
    (w.sethook l (some h)).1 = (w.registered.op c.lpmsHookListSize (.sethook l h)).1 ∧
      (w.sethook l (some h)).2.registered =
        (w.registered.op c.lpmsHookListSize (.sethook l h)).2 := by
  obtain ⟨hret, hst⟩ := sethook_eq l (some h) w
  have hroom : (w.registered l).card < c.lpmsHookListSize l ↔
      (Slots.find (w.st.hooks l) none).isSome := by
    rw [Slots.find_isSome_iff, Slots.exists_free_iff]
    rfl
  unfold Bags.op
  dsimp only
  rw [hret]
  cases hfind : Slots.find (w.st.hooks l) none with
  | none =>
    rw [hfind] at hst hroom
    have hfull : ¬(w.registered l).card < c.lpmsHookListSize l := fun hlt =>
      Bool.noConfusion (hroom.1 hlt)
    rw [if_neg hfull]
    exact ⟨rfl, registered_congr hst⟩
  | some i =>
    rw [hfind] at hst hroom
    rw [if_pos (hroom.2 rfl)]
    refine ⟨rfl, (registered_setSlot hst).trans ?_⟩
    rw [Slots.bag_put (Slots.find_some hfind)]
    rfl

/-- Deleting refines the abstract operation. -/
theorem delhook_bags (l : HookList) (h : HookId) (w : World c X) :
    (w.delhook l (some h)).1 = (w.registered.op c.lpmsHookListSize (.delhook l h)).1 ∧
      (w.delhook l (some h)).2.registered =
        (w.registered.op c.lpmsHookListSize (.delhook l h)).2 := by
  obtain ⟨hret, hst⟩ := delhook_eq l (some h) w
  have hin : h ∈ w.registered l ↔ (Slots.find (w.st.hooks l) (some h)).isSome := by
    rw [Slots.find_isSome_iff, ← Slots.mem_bag]
    rfl
  unfold Bags.op
  dsimp only
  rw [hret]
  cases hfind : Slots.find (w.st.hooks l) (some h) with
  | none =>
    rw [hfind] at hst hin
    have hout : h ∉ w.registered l := fun hmem => Bool.noConfusion (hin.1 hmem)
    rw [if_neg hout]
    exact ⟨rfl, registered_congr hst⟩
  | some i =>
    rw [hfind] at hst hin
    rw [if_pos (hin.2 rfl)]
    refine ⟨rfl, (registered_setSlot hst).trans ?_⟩
    rw [Slots.bag_take (Slots.find_some hfind)]
    rfl

theorem hookOp_bags (w : World c X) (e : HookOp) :
    (w.hookOp e).1 = (w.registered.op c.lpmsHookListSize e).1 ∧
      (w.hookOp e).2.registered = (w.registered.op c.lpmsHookListSize e).2 := by
  cases e with
  | sethook l h => cases l <;> exact sethook_bags _ h w
  | delhook l h => cases l <;> exact delhook_bags _ h w

/-- **Registrations and deletions refine the bags**, with every result. -/
theorem hookOps_bags (w : World c X) (es : List HookOp) :
    (w.hookOps es).1 = (w.registered.ops c.lpmsHookListSize es).1 ∧
      (w.hookOps es).2.registered = (w.registered.ops c.lpmsHookListSize es).2 := by
  induction es generalizing w with
  | nil => exact ⟨rfl, rfl⟩
  | cons e es ih =>
    obtain ⟨hret, hreg⟩ := hookOp_bags w e
    obtain ⟨hrets, hregs⟩ := ih (w.hookOp e).2
    rw [hreg] at hrets hregs
    rw [hookOps, Bags.ops, hret, hrets]
    exact ⟨rfl, hregs⟩

/-- A failed call changes nothing, and no call changes another list. -/
theorem hookOp_frame (w : World c X) (e : HookOp) :
    ((w.hookOp e).1 ≠ lpmsEok → (w.hookOp e).2.st = w.st) ∧
      ∀ l', (match e with | .sethook l _ | .delhook l _ => l' ≠ l) →
        (w.hookOp e).2.st.hooks l' = w.st.hooks l' := by
  have hslot : ∀ {l : HookList} {ret fail : ℤ} {s' : Lpms c}
      (found : Option (Fin (c.lpmsHookListSize l))) (hook : Option HookId),
      ret = (if found.isSome then lpmsEok else fail) →
      (s' = match found with | some i => setSlot w.st l i hook | none => w.st) →
      (ret ≠ lpmsEok → s' = w.st) ∧ ∀ l' ≠ l, s'.hooks l' = w.st.hooks l' := by
    intro l ret fail s' found hook hret hst
    cases found with
    | none => exact ⟨fun _ => hst, fun l' _ => by rw [hst]⟩
    | some i =>
      refine ⟨fun hne => absurd hret hne, fun l' hl => ?_⟩
      rw [hst]
      exact Function.update_of_ne hl _ _
  cases e with
  | sethook l h =>
    obtain ⟨hret, hst⟩ := sethook_eq l (some h) w
    cases l <;> exact hslot _ _ hret hst
  | delhook l h =>
    obtain ⟨hret, hst⟩ := delhook_eq l (some h) w
    cases l <;> exact hslot _ _ hret hst

end World

/-! ## A notification -/

/-- The mode with which list `l` calls `h`. -/
def Ev.calledMode (l : HookList) (h : HookId) : Ev → Option U8
  | .hook l' _ h' m => if l' = l ∧ h' = h then some m else none
  | _ => none

/-- The callbacks of the platform. -/
def Ev.callback : Ev → Bool
  | .hook _ _ _ _ | .enter _ | .done _ | .freqHandle => false
  | _ => true

def callsTo (l : HookList) (h : HookId) (tr : List (Ev × Lpms c)) : List U8 :=
  tr.filterMap fun p => p.1.calledMode l h

/-- Nobody registers or deletes `h` in the list `l`. -/
def Untouched (l : HookList) (h : HookId) (tr : List (Ev × Lpms c)) : Prop :=
  ∀ p ∈ tr, p.1 ≠ .enter (.lpmsSethook l (some h)) ∧ p.1 ≠ .enter (.lpmsDelhook l (some h))

/-- The slots that hold `h` are the same. -/
def SameSlots (l : HookList) (h : HookId) (s s' : Lpms c) : Prop :=
  ∀ i : Fin (c.lpmsHookListSize l), (s'.hooks l)[i] = some h ↔ (s.hooks l)[i] = some h

theorem Untouched.of_append {l : HookList} {h : HookId} {tr tr' : List (Ev × Lpms c)}
    (hu : Untouched l h (tr ++ tr')) : Untouched l h tr ∧ Untouched l h tr' :=
  ⟨fun p hp => hu p (List.mem_append_left _ hp), fun p hp => hu p (List.mem_append_right _ hp)⟩

namespace World

variable {w : World c X} {l : HookList} {h : HookId} {env : Env c X} {mode : U8}

theorem sameSlots_setSlot {s : Lpms c} {l l' : HookList} {h : HookId}
    {i : Fin (c.lpmsHookListSize l')} {hook : Option HookId}
    (hold : l' = l → (s.hooks l')[i] ≠ some h) (hnew : l' = l → hook ≠ some h) :
    SameSlots l h s (setSlot s l' i hook) := by
  intro j
  rw [setSlot_hooks]
  by_cases hl : l = l'
  · subst hl
    rw [Function.update_self]
    by_cases hj : i = j
    · subst hj
      have hread : ((s.hooks l).set i hook)[i] = hook := by simp
      rw [hread]
      exact iff_of_false (hnew rfl) (hold rfl)
    · have hne : i.val ≠ j.val := fun h => hj (Fin.ext h)
      rw [getElem_fin, getElem_fin, Vector.getElem_set_ne _ _ hne]
  · rw [Function.update_of_ne hl]

/-- A call that neither registers nor deletes `h` in `l` keeps its slots. -/
theorem exec_sameSlots {f : Call} (hset : f ≠ .lpmsSethook l (some h))
    (hdel : f ≠ .lpmsDelhook l (some h)) (w : World c X) : SameSlots l h w.st (w.exec f).st := by
  have hother : (∀ s s' : Lpms c, f.Writes s s' → s'.hooks l = s.hooks l) →
      SameSlots l h w.st (w.exec f).st := by
    intro hφ i
    have hview := (ViewInv.view (fun s : Lpms c => s.hooks l) (w.st.hooks l)).body.exec f hφ
      (fun _ m _ _ _ w' _ hw' => by rw [mapSt_st, pmSetFreq_st]; exact hw') (w := w) rfl
    have hview : (w.exec f).st.hooks l = w.st.hooks l := hview
    rw [hview]
  have hsethook : ∀ l' hook, f = .lpmsSethook l' hook →
      SameSlots l h w.st (w.sethook l' hook).2.st := by
    intro l' hook hf
    rw [(sethook_eq l' hook w).2]
    cases hfind : Slots.find (w.st.hooks l') none with
    | none => exact fun i => Iff.rfl
    | some i =>
      refine sameSlots_setSlot (fun _ => ?_) (fun hl hhook => ?_)
      · rw [Slots.find_some hfind]
        exact (Option.some_ne_none h).symm
      · exact hset (by rw [hf, hl, hhook])
  have hdelhook : ∀ l' hook, f = .lpmsDelhook l' hook →
      SameSlots l h w.st (w.delhook l' hook).2.st := by
    intro l' hook hf
    rw [(delhook_eq l' hook w).2]
    cases hfind : Slots.find (w.st.hooks l') hook with
    | none => exact fun i => Iff.rfl
    | some i =>
      refine sameSlots_setSlot (fun hl => ?_) (fun _ => (Option.some_ne_none h).symm)
      rw [Slots.find_some hfind]
      rintro rfl
      exact hdel (by rw [hf, hl])
  cases f with
  | lpmsSethook l' hook => cases l' <;> exact hsethook _ hook rfl
  | lpmsDelhook l' hook => cases l' <;> exact hdelhook _ hook rfl
  | _ => exact hother fun s s' hs => by rw [hs]

theorem callback_calledMode {e : Ev} (he : e.callback = true) : e.calledMode l h = none := by
  cases e <;> first | rfl | exact Bool.noConfusion he

/-- From `w` to `w'` the record grew; unless `h` was touched, its slots are the same and it was
called with the modes `ms`. -/
def Called (l : HookList) (h : HookId) (ms : List U8) (w w' : World c X) : Prop :=
  ∃ tr, w'.trace = w.trace ++ tr ∧
    (Untouched l h tr → SameSlots l h w.st w'.st ∧ callsTo l h tr = ms)

/-- Nothing recorded, no call. -/
theorem Called.of_same {w' : World c X} (hst : w'.st = w.st) (ht : w'.trace = w.trace) :
    Called l h [] w w' := by
  refine ⟨[], by rw [ht, List.append_nil], fun _ => ⟨fun _ => ?_, rfl⟩⟩
  rw [hst]

theorem Called.trans {w' w'' : World c X} {ms ms' : List U8} (h1 : Called l h ms w w')
    (h2 : Called l h ms' w' w'') : Called l h (ms ++ ms') w w'' := by
  obtain ⟨tr, ht, hcalls⟩ := h1
  obtain ⟨tr', ht', hcalls'⟩ := h2
  refine ⟨tr ++ tr', by rw [ht', ht, List.append_assoc], fun hu => ?_⟩
  obtain ⟨hsame, hms⟩ := hcalls hu.of_append.1
  obtain ⟨hsame', hms'⟩ := hcalls' hu.of_append.2
  refine ⟨fun i => (hsame' i).trans (hsame i), ?_⟩
  rw [callsTo, List.filterMap_append]
  exact congrArg₂ (· ++ ·) hms hms'

theorem call_called (l : HookList) (h : HookId) (f : Call) (w : World c X) :
    Called l h [] w (w.call f) := by
  obtain ⟨tr, ht, hq⟩ := exec_emits_of (q := fun e => e.callback = true) (fun _ => rfl)
    (fun _ => rfl) (fun _ => rfl) (fun _ _ => rfl) f (w.emit (.enter f))
  refine ⟨(.enter f, w.st) :: tr ++ [(.done f, ((w.emit (.enter f)).exec f).st)], ?_, fun hu => ?_⟩
  · unfold World.call
    rw [emit_trace, ht, emit_trace]
    simp
  · have henter := hu (.enter f, w.st) (by simp)
    refine ⟨exec_sameSlots (fun hf => henter.1 (by rw [hf])) (fun hf => henter.2 (by rw [hf]))
      (w.emit (.enter f)), ?_⟩
    have htr : tr.filterMap (fun p => p.1.calledMode l h) = [] :=
      List.filterMap_eq_nil_iff.2 fun p hp => callback_calledMode (hq p hp)
    have hcalls : callsTo l h ((.enter f, w.st) :: tr ++
        [(.done f, ((w.emit (.enter f)).exec f).st)]) =
          tr.filterMap (fun p => p.1.calledMode l h) ++ [] := by
      rw [callsTo, List.cons_append, List.filterMap_cons, List.filterMap_append]
      rfl
    rw [hcalls, htr]
    rfl

theorem acts_called (l : HookList) (h : HookId) (as : List (HookAct X)) (w : World c X) :
    Called l h [] w (as.foldl act w) := by
  induction as generalizing w with
  | nil => exact Called.of_same rfl rfl
  | cons a as ih =>
    have hact : Called l h [] w (act w a) := by
      cases a with
      | call f => exact call_called l h f w
      | plat f => exact Called.of_same rfl rfl
    rw [List.foldl_cons]
    exact hact.trans (ih _)

/-- One slot of the notification. -/
theorem notifySlot_called (env : Env c X) (mode : U8) (i : Fin (c.lpmsHookListSize l))
    (w : World c X) :
    Called l h (List.replicate (if (w.st.hooks l)[i] = some h then 1 else 0) mode) w
      (notifySlot env l mode w i) := by
  unfold notifySlot
  cases hslot : (w.st.hooks l)[i] with
  | none => exact Called.of_same rfl rfl
  | some h' =>
    have hentry : Called l h (List.replicate (if some h' = some h then 1 else 0) mode) w
        (w.emit (.hook l i h' mode)) := by
      refine ⟨[(.hook l i h' mode, w.st)], rfl, fun _ => ⟨fun _ => Iff.rfl, ?_⟩⟩
      by_cases hh : h' = h <;> simp [callsTo, Ev.calledMode, hh]
    have hboth := hentry.trans (acts_called l h (env.body l h' mode w) _)
    rwa [List.append_nil] at hboth

/-- **Slot by slot**: each slot that held `h` when the notification began calls it once. -/
theorem notifySlots_called (env : Env c X) (mode : U8) (is : List (Fin (c.lpmsHookListSize l)))
    (w : World c X) :
    Called l h (List.replicate (is.countP fun i => (w.st.hooks l)[i] = some h) mode) w
      (is.foldl (notifySlot env l mode) w) := by
  induction is generalizing w with
  | nil => exact Called.of_same rfl rfl
  | cons i is ih =>
    obtain ⟨tr, ht, hcalls⟩ := notifySlot_called (h := h) env mode i w
    obtain ⟨tr', ht', hcalls'⟩ := ih (notifySlot env l mode w i)
    rw [List.foldl_cons]
    refine ⟨tr ++ tr', by rw [ht', ht, List.append_assoc], fun hu => ?_⟩
    obtain ⟨hsame, hms⟩ := hcalls hu.of_append.1
    obtain ⟨hsame', hms'⟩ := hcalls' hu.of_append.2
    refine ⟨fun j => (hsame' j).trans (hsame j), ?_⟩
    -- the slots still to come hold what they held
    have hcount : (is.countP fun j => ((notifySlot env l mode w i).st.hooks l)[j] = some h) =
        is.countP fun j => (w.st.hooks l)[j] = some h :=
      List.countP_congr fun j _ => by simpa using hsame j
    rw [callsTo, List.filterMap_append, List.countP_cons]
    rw [hcount] at hms'
    refine (congrArg₂ (· ++ ·) hms hms').trans ?_
    simp only [decide_eq_true_eq]
    rw [List.replicate_append_replicate, Nat.add_comm]

/-- **A notification calls each registration once**, whatever the hooks register and delete. -/
theorem notify_calls (env : Env c X) (l : HookList) (mode : U8) (h : HookId) (w : World c X)
    {tr : List (Ev × Lpms c)} (ht : (w.notify env l mode).trace = w.trace ++ tr)
    (hu : Untouched l h tr) :
    callsTo l h tr = List.replicate ((w.registered l).count h) mode := by
  obtain ⟨tr', ht', hcalls⟩ := notifySlots_called (h := h) env mode (List.finRange _) w
  have htr : tr = tr' := List.append_cancel_left (ht.symm.trans ht')
  subst htr
  rw [(hcalls hu).2, registered, Slots.count_bag]

/-- Nothing is registered at power-on. -/
theorem start_registered (c : Config) (ops : LpmsOps X) (freqMode : U8) (x : X) :
    (start c ops freqMode x).registered = fun _ => 0 := by
  funext l
  have hhooks : (start c ops freqMode x).st.hooks l = Vector.replicate _ none := rfl
  unfold registered
  rw [hhooks]
  exact Slots.bag_replicate _

/-- **The hook lists are bounded multisets with safe notification.** From every state, any sequence
of registrations and deletions gives the results and the contents of the bounded multisets; a call
that fails changes nothing and no call changes another list; and a notification calls a hook that
nobody touches during it as often as it is registered, with the given mode. -/
theorem hooks_bounded_multisets (w : World c X) :
    (∀ es, (w.hookOps es).1 = (w.registered.ops c.lpmsHookListSize es).1 ∧
        (w.hookOps es).2.registered = (w.registered.ops c.lpmsHookListSize es).2) ∧
      (∀ l h, ((w.hookOp (.sethook l h)).1 ≠ lpmsEok → (w.hookOp (.sethook l h)).2.st = w.st) ∧
        ((w.hookOp (.delhook l h)).1 ≠ lpmsEok → (w.hookOp (.delhook l h)).2.st = w.st) ∧
        ∀ l' ≠ l, (w.hookOp (.sethook l h)).2.st.hooks l' = w.st.hooks l' ∧
          (w.hookOp (.delhook l h)).2.st.hooks l' = w.st.hooks l') ∧
      ∀ (env : Env c X) l mode h,
        ∃ tr, (w.notify env l mode).trace = w.trace ++ tr ∧
          (Untouched l h tr →
            callsTo l h tr = List.replicate ((w.registered l).count h) mode) := by
  refine ⟨hookOps_bags w, fun l h => ?_, fun env l mode h => ?_⟩
  · obtain ⟨hset, hothers⟩ := hookOp_frame w (.sethook l h)
    obtain ⟨hdel, hothers'⟩ := hookOp_frame w (.delhook l h)
    exact ⟨hset, hdel, fun l' hl => ⟨hothers l' hl, hothers' l' hl⟩⟩
  · obtain ⟨tr, ht, _⟩ := notifySlots_called (h := h) env mode (List.finRange _) w
    exact ⟨tr, ht, notify_calls env l mode h w ht⟩

end World

end LowPower
