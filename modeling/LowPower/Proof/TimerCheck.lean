import LowPower.Proof.Timer

/-!
# The timers after a jump of the clock

A round of `rt_timer_check` takes the first timer out of the lists, makes its callback and, if the
timer is periodic, starts it again (`checkLoop_oneShot`, `checkLoop_periodic`). Within a window of
deadlines that also holds the new tick, the due timers are the first ones of the bottom list and a
timer that is armed again is not due, so the loop makes one round for each due timer
(`checkLoop_returns`) and no timer is lost (`rtTimerCheck_drains`).
-/

namespace LowPower

variable {T : Type} {c : TimerConfig} {w : Timers T} {lists : ℕ → List T} {t s : T}
  {Q : T → T → Prop} {base : U32}

/-- What `rt_timer_check` tests: the deadline is reached, by less than half the tick range. -/
def Timers.due (w : Timers T) (t : T) : Bool := w.rtTick - (w.timer t).timeoutTick < rtTickMax / 2

/-- The new tick, the deadlines and the deadlines that are armed again lie in a window. -/
structure Timers.CheckFits (base : U32) (w : Timers T) : Prop where
  tick : Serial.offset base w.rtTick < halfTicks
  old : ∀ t, (w.timer t).activated = true →
    Serial.offset base (w.timer t).timeoutTick < halfTicks
  rearmed : ∀ t, (w.timer t).activated = true → w.due t = true → (w.timer t).periodic = true →
    Serial.offset base (w.newDeadline t) < halfTicks

/-- A due periodic timer can be armed again, for a later tick. -/
def Timers.CanRearm (w : Timers T) : Prop :=
  ∀ t, (w.timer t).activated = true → w.due t = true → (w.timer t).periodic = true →
    w.Startable t ∧ 1 ≤ (w.timer t).initTick.toNat

/-- What the check makes of a due timer. -/
def Timers.settled (w : Timers T) (t : T) : RtTimer :=
  if (w.timer t).periodic then
    { w.timer t with activated := true, timeoutTick := w.newDeadline t }
  else { w.timer t with activated := false }

theorem due_iff (htick : Serial.offset base w.rtTick < halfTicks)
    (ht : Serial.offset base (w.timer t).timeoutTick < halfTicks) :
    w.due t = true ↔
      Serial.offset base (w.timer t).timeoutTick ≤ Serial.offset base w.rtTick := by
  rw [← Serial.le_iff_offset two_halfTicks ht htick]
  exact decide_eq_true_iff

/-- A timer that is armed again has its new deadline after the tick. -/
theorem offset_newDeadline (htick : Serial.offset base w.rtTick < halfTicks)
    (hstart : w.Startable t) :
    Serial.offset base (w.newDeadline t) =
      Serial.offset base w.rtTick + (w.timer t).initTick.toNat := by
  have hinit := hstart.initTick
  have hsum : w.newDeadline t - base = (w.rtTick - base) + (w.timer t).initTick := by
    rw [Timers.newDeadline]
    grind
  unfold halfTicks at htick hinit
  rw [Serial.offset, hsum, BitVec.toNat_add]
  change (Serial.offset base w.rtTick + _) % 2 ^ 32 = _
  omega

/-- In an ordered list the due timers come first. -/
theorem due_of_le (htick : Serial.offset base w.rtTick < halfTicks)
    (hs : Serial.offset base (w.timer s).timeoutTick < halfTicks)
    (ht : Serial.offset base (w.timer t).timeoutTick < halfTicks)
    (hle : Serial.Le halfTicks (w.timer s).timeoutTick (w.timer t).timeoutTick)
    (hdue : w.due t = true) : w.due s = true := by
  rw [due_iff htick ht] at hdue
  rw [due_iff htick hs]
  rw [Serial.le_iff_offset two_halfTicks hs ht] at hle
  omega

/-- A timer that is due is not later than the deadline of one that is armed again. -/
theorem not_later_of_due (hfits : w.CheckFits base) (hcan : w.CanRearm)
    (ht : (w.timer t).activated = true) (htdue : w.due t = true)
    (hp : (w.timer t).periodic = true) (hs : (w.timer s).activated = true)
    (hsdue : w.due s = true) : w.later (w.newDeadline t) s = false := by
  obtain ⟨hstart, -⟩ := hcan t ht htdue hp
  have hoffset := offset_newDeadline hfits.tick hstart
  have hold := hfits.old s hs
  rw [due_iff hfits.tick hold] at hsdue
  rw [← Bool.not_eq_true, later_iff hold (hfits.rearmed t ht htdue hp), hoffset]
  omega

variable [DecidableEq T]

/-! ## One round -/

section Round

variable {callback : T → Timers T → Timers T}

/-- The timer is out of the lists and inactive, and its callback is made. -/
def Timers.fired (c : TimerConfig) (t : T) (w : Timers T) : Timers T :=
  { w.removed c t with called := w.called ++ [t] }

theorem fired_timer (t s : T) (w : Timers T) :
    (w.fired c t).timer s =
      { w.timer s with activated := if s = t then false else (w.timer s).activated } :=
  setActivated_timer t s false (w.timerRemove c t)

theorem Listed.fired (h : Listed c Q w lists) (t : T) :
    Listed c Q (w.fired c t) fun r => (lists r).erase t :=
  (h.removed t).congr rfl (fun _ => rfl) (fun _ => rfl) fun _ _ hsu => hsu

/-- The temporary list leaves no trace. -/
theorem Listed.temporary (h : Listed c Q w lists) (t : T) :
    ((w.timerRemove c t).links.insertAfter .list (.row t (c.skipListLevel - 1))).remove
      (.row t (c.skipListLevel - 1)) = (w.timerRemove c t).links := by
  have hrings := timerRemove_rings h.rings t
  have hout : t ∉ (lists (c.skipListLevel - 1)).erase t := fun ht =>
    (h.of_mem_erase c.bottom_lt ht).1 rfl
  exact Links.remove_insertAfter hrings.list (hrings.alone _ c.bottom_lt t hout) nofun

/-- The loop ends at a first timer that is not due. -/
theorem checkLoop_done (h : Listed c Q w lists)
    (hrest : ∀ s ∈ (lists (c.skipListLevel - 1)).head?, w.due s = false) :
    Returns (fun fuel => w.checkLoop c callback fuel w.rtTick) w := by
  refine Returns.of_succ (fun fuel => ?_) (Returns.of_eq fun _ => rfl)
  have hhead := (h.rings.ring _ c.bottom_lt).next_head
  rw [Timers.checkLoop, hhead]
  cases hl : lists (c.skipListLevel - 1) with
  | nil => exact if_pos rfl
  | cons t l =>
    rw [hl] at hrest
    have hdue : ¬w.rtTick - (w.timer t).timeoutTick < rtTickMax / 2 :=
      of_decide_eq_false (hrest t rfl)
    rw [if_neg nofun]
    exact if_neg hdue

variable (hcallback : ∀ t w, callback t w = w)

include hcallback

/-- The timer, out of the lists and off the temporary list, once its callback is made. -/
theorem fireTimer_remove (h : Listed c Q w lists) (t : T) :
    (w.fireTimer c callback t).setLinks (·.remove (.row t (c.skipListLevel - 1))) =
      if (w.timer t).periodic then { w.timerRemove c t with called := w.called ++ [t] }
      else w.fired c t := by
  rw [Timers.fireTimer, hcallback, timerRemove_timer]
  split
  · exact congrArg (fun m => { w.timerRemove c t with links := m, called := w.called ++ [t] })
      (h.temporary t)
  · exact congrArg (fun m => { w.removed c t with links := m, called := w.called ++ [t] })
      (h.temporary t)

theorem fireTimer_list (t : T) :
    (w.fireTimer c callback t).links.next .list = .row t (c.skipListLevel - 1) := by
  rw [Timers.fireTimer, hcallback]
  simp [Timers.setLinks, Links.insertAfter]

theorem fireTimer_rtTick (t : T) : (w.fireTimer c callback t).rtTick = w.rtTick := by
  rw [Timers.fireTimer, hcallback]
  split <;> rfl

/-- **One round**: the first timer is due. -/
theorem checkLoop_round {l : List T} (h : Listed c Q w lists)
    (hl : lists (c.skipListLevel - 1) = t :: l) (hdue : w.due t = true) (fuel : ℕ) :
    w.checkLoop c callback (fuel + 1) w.rtTick =
      if (w.timer t).periodic then
        ((w.fired c t).rtTimerStart c t fuel).bind (Timers.checkLoop c callback fuel w.rtTick)
      else Timers.checkLoop c callback fuel w.rtTick (w.fired c t) := by
  have hhead : w.links.next (.head (c.skipListLevel - 1)) = .row t (c.skipListLevel - 1) := by
    rw [(h.rings.ring _ c.bottom_lt).next_head, hl]
    rfl
  have hactive : (w.timer t).activated = true := (h.active t).mp (hl ▸ List.mem_cons_self)
  have hsome : w.links.next (.head (c.skipListLevel - 1)) ≠ .head (c.skipListLevel - 1) := by
    rw [hhead]
    exact nofun
  have hlist : (w.fireTimer c callback t).links.next .list ≠ .list := by
    rw [fireTimer_list hcallback]
    exact nofun
  have hdue' : w.rtTick - (w.timer t).timeoutTick < rtTickMax / 2 := of_decide_eq_true hdue
  rw [Timers.checkLoop, if_neg hsome, hhead]
  simp only [if_pos hdue', if_neg hlist, fireTimer_remove hcallback h, fireTimer_rtTick hcallback]
  -- the callback has not touched the flags, so only the kind of timer decides
  by_cases hperiodic : (w.timer t).periodic = true
  · have hrearm : (w.timer t).periodic = true ∧ (w.timer t).activated = true :=
      ⟨hperiodic, hactive⟩
    simp only [if_pos hperiodic, timerRemove_timer, if_pos hrearm]
    rfl
  · have hnot : ¬(((w.fired c t).timer t).periodic = true ∧
        ((w.fired c t).timer t).activated = true) := by
      rintro ⟨-, hflag⟩
      rw [fired_timer, if_pos rfl] at hflag
      exact absurd hflag Bool.false_ne_true
    simp only [if_neg hperiodic, if_neg hnot]

end Round

/-! ## All rounds -/

/-- A round is over: the timer is as the check leaves it, and the others are as they were. -/
structure Settled (w w' : Timers T) (t : T) : Prop where
  rtTick : w'.rtTick = w.rtTick
  called : w'.called = w.called ++ [t]
  timer : w'.timer = Function.update w.timer t (w.settled t)

section Settled

variable {w' : Timers T} (h : Settled w w' t)

include h

theorem Settled.of_ne (hs : s ≠ t) : w'.timer s = w.timer s := by
  rw [h.timer, Function.update_of_ne hs]

theorem Settled.due_of_ne (hs : s ≠ t) : w'.due s = w.due s := by
  rw [Timers.due, Timers.due, h.of_ne hs, h.rtTick]

/-- The timer of the round is not due again. -/
theorem Settled.not_due (hfits : w.CheckFits base) (hcan : w.CanRearm)
    (hactive : (w.timer t).activated = true) (hdue : w.due t = true)
    (hactive' : (w'.timer t).activated = true) : w'.due t = false := by
  rw [h.timer, Function.update_self, Timers.settled] at hactive'
  by_cases hp : (w.timer t).periodic = true
  · -- the new deadline is at least one tick ahead
    obtain ⟨hstart, hpos⟩ := hcan t hactive hdue hp
    have hnew : (w'.timer t).timeoutTick = w.newDeadline t := by
      rw [h.timer, Function.update_self, Timers.settled, if_pos hp]
    have hoffset := offset_newDeadline hfits.tick hstart
    rw [← Bool.not_eq_true, due_iff (h.rtTick ▸ hfits.tick) (hnew ▸ hfits.rearmed t hactive hdue hp),
      h.rtTick, hnew, hoffset]
    omega
  · rw [if_neg hp] at hactive'
    cases hactive'

/-- The window and the periods are kept. -/
theorem Settled.fits (hfits : w.CheckFits base) (hcan : w.CanRearm)
    (hactive : (w.timer t).activated = true) (hdue : w.due t = true) :
    w'.CheckFits base ∧ w'.CanRearm := by
  have hother : ∀ s, (w'.timer s).activated = true → w'.due s = true → s ≠ t := by
    rintro s hs hsdue rfl
    rw [h.not_due hfits hcan hactive hdue hs] at hsdue
    cases hsdue
  refine ⟨⟨h.rtTick ▸ hfits.tick, fun s hs => ?_, fun s hs hsdue hp => ?_⟩,
    fun s hs hsdue hp => ?_⟩
  · by_cases hst : s = t
    · subst hst
      rw [h.timer, Function.update_self, Timers.settled] at hs ⊢
      split
      · exact hfits.rearmed s hactive hdue ‹_›
      · exact hfits.old s hactive
    · rw [h.of_ne hst] at hs ⊢
      exact hfits.old s hs
  · have hst := hother s hs hsdue
    rw [h.due_of_ne hst] at hsdue
    rw [Timers.newDeadline, h.rtTick, h.of_ne hst]
    rw [h.of_ne hst] at hs hp
    exact hfits.rearmed s hs hsdue hp
  · have hst := hother s hs hsdue
    rw [h.due_of_ne hst] at hsdue
    rw [h.of_ne hst] at hs hp ⊢
    obtain ⟨hstart, hpos⟩ := hcan s hs hsdue hp
    refine ⟨⟨?_, ?_⟩, hpos⟩
    · rw [h.of_ne hst]
      exact hstart.type
    · rw [h.of_ne hst]
      exact hstart.initTick

end Settled

section Loop

variable {callback : T → Timers T → Timers T} (hcallback : ∀ t w, callback t w = w)

/-- A one-shot timer is settled once its callback is made. -/
theorem fired_settled (hp : (w.timer t).periodic = false) : Settled w (w.fired c t) t := by
  refine ⟨rfl, rfl, funext fun s => ?_⟩
  rw [fired_timer]
  by_cases hs : s = t
  · subst hs
    simp [Timers.settled, hp]
  · simp [hs]

/-- A periodic timer is settled once it is started again. -/
theorem started_settled {w' : Timers T} (hp : (w.timer t).periodic = true)
    (hstarted : Started (w.fired c t) w' t) : Settled w w' t := by
  have hdeadline : (w.fired c t).newDeadline t = w.newDeadline t := by
    rw [Timers.newDeadline, fired_timer]
    rfl
  refine ⟨hstarted.rtTick, hstarted.called, ?_⟩
  rw [hstarted.timer, hdeadline]
  funext s
  by_cases hs : s = t
  · subst hs
    simp [fired_timer, Timers.settled, hp]
  · simp [fired_timer, hs]

theorem fired_later (deadline : U32) : (w.fired c t).later deadline = w.later deadline := by
  funext s
  rw [Timers.later, Timers.later, fired_timer]

include hcallback in
/-- **One round** settles the first timer and leaves the due ones behind it at the front. -/
theorem round_returns {ds rest : List T} (h : Listed c (fun _ _ => True) w lists)
    (hfits : w.CheckFits base) (hcan : w.CanRearm)
    (hl : lists (c.skipListLevel - 1) = t :: (ds ++ rest))
    (hdue : ∀ s ∈ t :: ds, w.due s = true) :
    ∃ (w₁ : Timers T) (lists₁ : ℕ → List T) (rest₁ : List T), Settled w w₁ t ∧
      Listed c (fun _ _ => True) w₁ lists₁ ∧ lists₁ (c.skipListLevel - 1) = ds ++ rest₁ ∧
      (∀ s ∈ rest₁, s = t ∨ s ∈ rest) ∧
      ∀ w', Returns (fun fuel => w₁.checkLoop c callback fuel w.rtTick) w' →
        Returns (fun fuel => w.checkLoop c callback fuel w.rtTick) w' := by
  have hfired := h.fired t
  have herase : (lists (c.skipListLevel - 1)).erase t = ds ++ rest := by
    rw [hl, List.erase_cons_head]
  have hround := checkLoop_round hcallback h hl (hdue t List.mem_cons_self)
  -- a one-shot timer stays out of the lists, a periodic one is started again
  have hactive : ∀ s ∈ t :: ds, (w.timer s).activated = true := fun s hs =>
    (h.active s).mp (hl ▸ List.mem_append_left rest hs)
  cases hp : (w.timer t).periodic with
  | false =>
    rw [hp] at hround
    exact ⟨w.fired c t, _, rest, fired_settled hp, hfired, herase, fun s hs => .inr hs,
      fun w' hw' => Returns.of_succ hround hw'⟩
  | true =>
    rw [hp] at hround
    obtain ⟨hstart, -⟩ := hcan t (hactive t List.mem_cons_self) (hdue t List.mem_cons_self) hp
    have hdeadline : (w.fired c t).newDeadline t = w.newDeadline t := by
      rw [Timers.newDeadline, fired_timer]
      rfl
    have hstart' : (w.fired c t).Startable t := by
      constructor
      · rw [fired_timer]
        exact hstart.type
      · rw [fired_timer]
        exact hstart.initTick
    have hfits' : Timers.FitsAt base (w.fired c t) t := by
      refine ⟨?_, fun s hs hsa => ?_⟩
      · rw [hdeadline]
        exact hfits.rearmed t (hactive t List.mem_cons_self) (hdue t List.mem_cons_self) hp
      · rw [fired_timer, if_neg hs] at hsa
        rw [fired_timer]
        exact hfits.old s hsa
    obtain ⟨w₁, lists₁, hw₁, hstarted, hlisted, hbottom⟩ := hfired.startAny hstart' hfits'
    have hnot : t ∉ ds ++ rest := by
      have hnodup := h.nodup
      rw [hl] at hnodup
      exact (List.nodup_cons.mp hnodup).1
    rw [herase, List.erase_of_not_mem hnot, hdeadline, fired_later, place_append fun s hs =>
      not_later_of_due hfits hcan (hactive t List.mem_cons_self) (hdue t List.mem_cons_self) hp
        (hactive s (List.mem_cons_of_mem t hs)) (hdue s (List.mem_cons_of_mem t hs))] at hbottom
    exact ⟨w₁, lists₁, _, started_settled hp hstarted, hlisted, hbottom,
      fun s hs => mem_place.mp hs, fun w' hw' => Returns.of_succ hround (hw₁.bind hw')⟩

include hcallback in
/-- **The loop** settles every due timer of the front, in order, and ends with none that is due. -/
theorem checkLoop_returns {ds rest : List T} (h : Listed c (fun _ _ => True) w lists)
    (hfits : w.CheckFits base) (hcan : w.CanRearm)
    (hl : lists (c.skipListLevel - 1) = ds ++ rest) (hdue : ∀ s ∈ ds, w.due s = true)
    (hrest : ∀ s ∈ rest, w.due s = false) :
    ∃ (w' : Timers T) (lists' : ℕ → List T),
      Returns (fun fuel => w.checkLoop c callback fuel w.rtTick) w' ∧ w'.rtTick = w.rtTick ∧
      w'.called = w.called ++ ds ∧
      (∀ s, w'.timer s = if s ∈ ds then w.settled s else w.timer s) ∧
      Listed c (fun _ _ => True) w' lists' ∧
      ∀ s ∈ lists' (c.skipListLevel - 1), w'.due s = false := by
  induction ds generalizing w lists rest with
  | nil =>
    rw [List.nil_append] at hl
    have hhead : ∀ s ∈ (lists (c.skipListLevel - 1)).head?, w.due s = false := fun s hs =>
      hrest s (hl ▸ List.mem_of_mem_head? hs)
    refine ⟨w, lists, checkLoop_done h hhead, rfl, (List.append_nil _).symm, fun s => ?_, h,
      hl ▸ hrest⟩
    rw [if_neg List.not_mem_nil]
  | cons t ds ih =>
    have hactive : (w.timer t).activated = true :=
      (h.active t).mp (hl ▸ List.mem_cons_self)
    have hnodup := h.nodup
    rw [hl, List.cons_append, List.nodup_cons] at hnodup
    have hnot : t ∉ ds := fun ht => hnodup.1 (List.mem_append_left rest ht)
    obtain ⟨w₁, lists₁, rest₁, hsettled, hlisted, hbottom, hmem, hloop⟩ :=
      round_returns hcallback h hfits hcan hl hdue
    obtain ⟨hfits₁, hcan₁⟩ := hsettled.fits hfits hcan hactive (hdue t List.mem_cons_self)
    have hdue₁ : ∀ s ∈ ds, w₁.due s = true := by
      intro s hs
      rw [hsettled.due_of_ne (fun heq => hnot (heq ▸ hs))]
      exact hdue s (List.mem_cons_of_mem t hs)
    -- what the round puts behind the due timers is not due, the timer of the round included
    have hrest₁ : ∀ s ∈ rest₁, w₁.due s = false := by
      intro s hs
      have hsa : (w₁.timer s).activated = true :=
        (hlisted.active s).mp (hbottom ▸ List.mem_append_right ds hs)
      by_cases hst : s = t
      · subst hst
        exact hsettled.not_due hfits hcan hactive (hdue s List.mem_cons_self) hsa
      · rw [hsettled.due_of_ne hst]
        exact hrest s ((hmem s hs).resolve_left hst)
    obtain ⟨w', lists', hreturns, htick, hcalled, htimer, hlisted', hdone⟩ :=
      ih hlisted hfits₁ hcan₁ hbottom hdue₁ hrest₁
    rw [hsettled.rtTick] at hreturns htick
    refine ⟨w', lists', hloop w' hreturns, htick, ?_, fun s => ?_, hlisted', hdone⟩
    · rw [hcalled, hsettled.called, List.append_assoc, List.singleton_append]
    · rw [htimer s]
      by_cases hst : s = t
      · subst hst
        rw [if_neg hnot, if_pos List.mem_cons_self, hsettled.timer, Function.update_self]
      · have hsame : w₁.settled s = w.settled s := by
          rw [Timers.settled, Timers.settled, Timers.newDeadline, Timers.newDeadline,
            hsettled.of_ne hst, hsettled.rtTick]
        rw [hsame, hsettled.of_ne hst]
        exact if_congr (by simp [hst]) rfl rfl

/-- The temporary list is empty before the check. -/
theorem rtTimerCheck_eq (h : Listed c Q w lists) (fuel : ℕ) :
    w.rtTimerCheck c callback fuel = w.checkLoop c callback fuel w.rtTick := by
  have hinit : w.setLinks (·.init .list) = w := by
    rw [Timers.setLinks, Links.init_eq h.rings.list]
  rw [Timers.rtTimerCheck, hinit]

end Loop

/-! ## A jump of the clock -/

/-- Two timers, started at tick 0 in the order of their deadlines. -/
theorem exists_two (c : TimerConfig) (time : Bool → U32) (periodic : Bool → Bool)
    (htime : ∀ t, (time t).toNat < halfTicks) (hle : time true ≤ time false) :
    ∃ (w : Timers Bool) (lists : ℕ → List Bool),
      Runs c (Timers.boot 0 0 (fun _ => rtObjectClassTimer) time periodic)
        [.start false, .start true] w ∧
      Listed c (fun _ _ => True) w lists ∧ lists (c.skipListLevel - 1) = [true, false] ∧
      w.called = [] ∧ ∀ t, w.timer t = ⟨rtObjectClassTimer, true, periodic t, time t, time t⟩ := by
  obtain ⟨w₀, hw₀⟩ : ∃ w₀ : Timers Bool,
      w₀ = Timers.boot 0 0 (fun _ => rtObjectClassTimer) time periodic := ⟨_, rfl⟩
  have hboot : Listed c (fun _ _ => True) w₀ fun _ => ([] : List Bool) :=
    hw₀ ▸ boot_listed _ _ _ _ _ _
  have htimer₀ : ∀ t, w₀.timer t = ⟨rtObjectClassTimer, false, periodic t, time t, 0⟩ := by
    rw [hw₀]
    exact fun t => rfl
  have hdeadline₀ : ∀ t, w₀.newDeadline t = time t := by
    intro t
    rw [Timers.newDeadline, htimer₀, hw₀]
    exact BitVec.zero_add _
  have hoffset : ∀ t, Serial.offset 0 (time t) < halfTicks := by
    intro t
    rw [Serial.offset_zero]
    exact htime t
  have htype : rtObjectClassTimer &&& ~~~rtObjectClassStatic = rtObjectClassTimer := by decide
  have hstart₀ : w₀.Startable true := ⟨by rw [htimer₀]; exact htype, by rw [htimer₀]; exact htime true⟩
  have hfits₀ : w₀.FitsAt 0 true :=
    ⟨hdeadline₀ true ▸ hoffset true, fun s _ hs => by rw [htimer₀] at hs; cases hs⟩
  obtain ⟨w₁, lists₁, hw₁, hstarted₁, hlisted₁, hl₁⟩ := hboot.startAny hstart₀ hfits₀
  have htrue₁ : w₁.timer true =
      ⟨rtObjectClassTimer, true, periodic true, time true, time true⟩ := by
    rw [hstarted₁.timer, Function.update_self, htimer₀, hdeadline₀]
  have hfalse₁ : w₁.timer false = ⟨rtObjectClassTimer, false, periodic false, time false, 0⟩ := by
    rw [hstarted₁.timer, Function.update_of_ne Bool.false_ne_true, htimer₀]
  have hdeadline₁ : w₁.newDeadline false = time false := by
    rw [Timers.newDeadline, hstarted₁.rtTick, hfalse₁, hw₀]
    exact BitVec.zero_add _
  have hstart₁ : w₁.Startable false :=
    ⟨by rw [hfalse₁]; exact htype, by rw [hfalse₁]; exact htime false⟩
  have hfits₁ : w₁.FitsAt 0 false := by
    refine ⟨hdeadline₁ ▸ hoffset false, fun s hs _ => ?_⟩
    rw [Bool.eq_true_of_not_eq_false hs, htrue₁]
    exact hoffset true
  obtain ⟨w₂, lists₂, hw₂, hstarted₂, hlisted₂, hl₂⟩ := hlisted₁.startAny hstart₁ hfits₁
  have hnot : w₁.later (time false) true = false := by
    have hfit : Serial.offset 0 (w₁.timer true).timeoutTick < halfTicks := by
      rw [htrue₁]
      exact hoffset true
    have hle' : (time true).toNat ≤ (time false).toNat := hle
    rw [← Bool.not_eq_true, later_iff hfit (hoffset false), htrue₁, Serial.offset_zero,
      Serial.offset_zero]
    exact Nat.not_lt.mpr hle'
  have hrun := (Runs.nil.start hfits₀ hw₁).start hfits₁ hw₂
  refine ⟨w₂, lists₂, hw₀ ▸ hrun, hlisted₂, ?_, ?_, fun t => ?_⟩
  · rw [hl₂, hl₁, hdeadline₁]
    simp [place, hnot]
  · rw [hstarted₂.called, hstarted₁.called, hw₀]
    rfl
  · cases t with
    | false => rw [hstarted₂.timer, Function.update_self, hfalse₁, hdeadline₁]
    | true => rw [hstarted₂.timer, Function.update_of_ne (by decide), htrue₁]

/-- **A jump of the clock loses no timer.** When the new tick, the deadlines and the deadlines that
are armed again lie in a window, the check after the jump makes the callback of every due timer
once, in the order of the list, and leaves none that is due. -/
theorem rtTimerCheck_drains {callback : T → Timers T → Timers T} {tick : U32}
    (h : Listed c Q w lists) (hfits : (w.rtTickSet tick).CheckFits base)
    (hcan : (w.rtTickSet tick).CanRearm) (hcallback : ∀ t w, callback t w = w) :
    ∃ (w' : Timers T) (lists' : ℕ → List T),
      Returns (fun fuel => (w.rtTickSet tick).rtTimerCheck c callback fuel) w' ∧
      w'.rtTick = tick ∧
      (∃ fired, w'.called = w.called ++ fired ∧
        fired = (lists (c.skipListLevel - 1)).filter (w.rtTickSet tick).due ∧
        (∀ t, fired.count t =
          if (w.timer t).activated ∧ (w.rtTickSet tick).due t then 1 else 0) ∧
        fired.Pairwise fun s t =>
          Serial.Le halfTicks (w.timer s).timeoutTick (w.timer t).timeoutTick) ∧
      (∀ t, (w.timer t).activated = true → (w.rtTickSet tick).due t = true →
        w'.timer t =
          if (w.timer t).periodic then
            { w.timer t with activated := true, timeoutTick := tick + (w.timer t).initTick }
          else { w.timer t with activated := false }) ∧
      (∀ t, ¬((w.timer t).activated = true ∧ (w.rtTickSet tick).due t = true) →
        w'.timer t = w.timer t) ∧
      (∀ t, (w'.timer t).activated = true → w'.due t = false) ∧
      Listed c (fun _ _ => True) w' lists' := by
  have hlisted : Listed c (fun _ _ => True) (w.rtTickSet tick) lists :=
    h.rtTickSet tick fun _ _ _ => trivial
  -- the bottom list is cut where the timers that are not due begin
  have hcut : (lists (c.skipListLevel - 1)).filter (w.rtTickSet tick).due ++
      (lists (c.skipListLevel - 1)).filter (fun s => !(w.rtTickSet tick).due s) =
        lists (c.skipListLevel - 1) := by
    have hordered : (lists (c.skipListLevel - 1)).filter (fun s => !!(w.rtTickSet tick).due s) ++
        (lists (c.skipListLevel - 1)).filter (fun s => !(w.rtTickSet tick).due s) =
          lists (c.skipListLevel - 1) := filter_cut hlisted.ordered fun s hs u hu hsu hlater => ?_
    · simpa using hordered
    · have hsa := hfits.old s ((hlisted.active s).mp hs)
      have hua := hfits.old u ((hlisted.active u).mp hu)
      rw [Bool.not_eq_true'] at hlater ⊢
      rw [← Bool.not_eq_true] at hlater ⊢
      exact fun hdue => hlater (due_of_le hfits.tick hsa hua hsu.1 hdue)
  obtain ⟨w', lists', hreturns, htick, hcalled, htimer, hlisted', hdone⟩ :=
    checkLoop_returns hcallback hlisted hfits hcan hcut.symm
      (fun s hs => (List.mem_filter.mp hs).2) fun s hs => by simpa using (List.mem_filter.mp hs).2
  have hmem : ∀ t, t ∈ (lists (c.skipListLevel - 1)).filter (w.rtTickSet tick).due ↔
      (w.timer t).activated = true ∧ (w.rtTickSet tick).due t = true := by
    intro t
    rw [List.mem_filter, h.active]
  refine ⟨w', lists', ?_, htick, ⟨_, hcalled, rfl, fun t => ?_, ?_⟩, fun t hactive hdue => ?_,
    fun t hnot => ?_, fun t hactive => hdone t ((hlisted'.active t).mpr hactive), hlisted'⟩
  · simp only [rtTimerCheck_eq hlisted]
    exact hreturns
  · have hnodup := h.nodup.filter (w.rtTickSet tick).due
    split
    · exact List.count_eq_one_of_mem hnodup ((hmem t).mpr ‹_›)
    · exact List.count_eq_zero_of_not_mem fun ht => ‹¬_› ((hmem t).mp ht)
  · exact (h.ordered.sublist List.filter_sublist).imp fun hsu => hsu.1
  · rw [htimer, if_pos ((hmem t).mpr ⟨hactive, hdue⟩)]
    rfl
  · rw [htimer, if_neg fun ht => hnot ((hmem t).mp ht)]
    rfl

/-- A jump longer than both times: the periodic timer is armed again, the one-shot timer is not. -/
theorem rtTimerCheck_drains_two :
    ∃ w w' : Timers Bool,
      Runs ⟨2, 1, by decide⟩ (Timers.boot 0 0 (fun _ => rtObjectClassTimer)
        (fun t => if t then 3 else 5) id) [.start false, .start true] w ∧
      Returns (fun fuel => (w.rtTickSet 1000).rtTimerCheck ⟨2, 1, by decide⟩ (fun _ w => w) fuel)
        w' ∧
      w'.called = [true, false] ∧
      w'.timer true = ⟨rtObjectClassTimer, true, true, 3, 1003⟩ ∧
      w'.timer false = ⟨rtObjectClassTimer, false, false, 5, 5⟩ := by
  obtain ⟨w, lists, hrun, hlisted, hl, hcalled, htimer⟩ :=
    exists_two ⟨2, 1, by decide⟩ (fun t => if t then 3 else 5) id
      (by decide) (by decide)
  have hdue : ∀ t, (w.rtTickSet 1000).due t = true := by
    intro t
    rw [Timers.due, rtTickSet_rtTick, rtTickSet_timer, htimer]
    cases t <;> decide
  have hfits : (w.rtTickSet 1000).CheckFits 0 := by
    refine ⟨by rw [rtTickSet_rtTick]; decide, fun t _ => ?_, fun t _ _ _ => ?_⟩
    · rw [rtTickSet_timer, htimer]
      cases t <;> decide
    · rw [Timers.newDeadline, rtTickSet_rtTick, rtTickSet_timer, htimer]
      cases t <;> decide
  have hcan : (w.rtTickSet 1000).CanRearm := by
    intro t _ _ _
    refine ⟨⟨?_, ?_⟩, ?_⟩ <;> rw [rtTickSet_timer, htimer] <;> cases t <;> decide
  obtain ⟨w', -, hreturns, -, ⟨fired, hfired, rfl, -, -⟩, hsettled, -, -, -⟩ :=
    rtTimerCheck_drains hlisted hfits hcan fun _ _ => rfl
  have hactive : ∀ t, (w.timer t).activated = true := fun t => by rw [htimer]
  refine ⟨w, w', hrun, hreturns, ?_, ?_, ?_⟩
  · have hall : [true, false].filter (w.rtTickSet 1000).due = [true, false] :=
      List.filter_eq_self.mpr fun t _ => hdue t
    rw [hfired, hcalled, hl, hall, List.nil_append]
  · rw [hsettled true (hactive true) (hdue true), htimer]
    rfl
  · rw [hsettled false (hactive false) (hdue false), htimer]
    rfl

/-- Two inputs outside of the window. After a jump past half the range the first timer no longer
looks due and hides the second one; and a period past half the range fails the assertion when the
timer is armed again. -/
theorem rtTimerCheck_stuck :
    (∃ (w : Timers Bool) (lists : ℕ → List Bool),
      Runs ⟨1, 1, by decide⟩ (Timers.boot 0 0 (fun _ => rtObjectClassTimer)
        (fun t => if t then 10 else 15) fun _ => false) [.start false, .start true] w ∧
      Listed ⟨1, 1, by decide⟩ (fun _ _ => True) w lists ∧
      (∀ t, (w.timer t).activated = true ∧ (w.timer t).periodic = false ∧
        1 ≤ (w.timer t).initTick.toNat ∧
        Serial.offset 10 (w.timer t).timeoutTick < halfTicks) ∧
      Returns (fun fuel => (w.rtTickSet 0x80000009).rtTimerCheck ⟨1, 1, by decide⟩ (fun _ w => w)
        fuel) (w.rtTickSet 0x80000009) ∧
      (w.rtTickSet 0x80000009).due false = true) ∧
    ∃ (w : Timers Bool) (lists : ℕ → List Bool),
      Listed ⟨1, 1, by decide⟩ (fun _ _ => True) w lists ∧
      (∀ t, (w.timer t).activated = true ∧ (w.timer t).periodic = t ∧
        1 ≤ (w.timer t).initTick.toNat ∧
        Serial.offset (-6) (w.timer t).timeoutTick < halfTicks) ∧
      (w.rtTickSet 10).due true = true ∧
      Serial.offset (-6) ((w.rtTickSet 10).newDeadline true) < halfTicks ∧
      ∀ fuel, (w.rtTickSet 10).rtTimerCheck ⟨1, 1, by decide⟩ (fun _ w => w) fuel = none := by
  constructor
  · obtain ⟨w, lists, hrun, hlisted, hl, -, htimer⟩ :=
      exists_two ⟨1, 1, by decide⟩ (fun t => if t then 10 else 15) (fun _ => false)
        (by decide) (by decide)
    have hjump : Listed ⟨1, 1, by decide⟩ (fun _ _ => True) (w.rtTickSet 0x80000009) lists :=
      hlisted.rtTickSet _ fun _ _ _ => trivial
    have hfirst : (w.rtTickSet 0x80000009).due true = false := by
      rw [Timers.due, rtTickSet_rtTick, rtTickSet_timer, htimer]
      decide
    refine ⟨w, lists, hrun, hlisted, fun t => ?_, ?_, ?_⟩
    · rw [htimer]
      cases t <;> decide
    · simp only [rtTimerCheck_eq hjump]
      refine checkLoop_done hjump fun s hs => ?_
      rw [hl] at hs
      obtain rfl := Option.some.inj hs
      exact hfirst
    · rw [Timers.due, rtTickSet_rtTick, rtTickSet_timer, htimer]
      decide
  · obtain ⟨w, lists, -, hlisted, hl, -, htimer⟩ :=
      exists_two ⟨1, 1, by decide⟩ (fun t => if t then 10 else 15) id
        (by decide) (by decide)
    -- `rt_timer_control` sets the longer period of a timer that runs
    have hset : ∀ t, (w.setTimer true fun timer => { timer with initTick := -16 }).timer t =
        ⟨rtObjectClassTimer, true, t, if t then -16 else 15, if t then 10 else 15⟩ := by
      intro t
      cases t with
      | false => exact htimer false
      | true =>
        rw [setTimer_self, htimer]
        rfl
    obtain ⟨w₁, hw₁⟩ : ∃ w₁, w₁ = w.setTimer true fun timer => { timer with initTick := -16 } :=
      ⟨_, rfl⟩
    rw [← hw₁] at hset
    have hlisted₁ : Listed ⟨1, 1, by decide⟩ (fun _ _ => True) w₁ lists := by
      refine hlisted.congr (by rw [hw₁]; rfl) (fun t => ?_) (fun t => ?_) fun _ _ _ => trivial
      · rw [hset, htimer]
      · rw [hset, htimer]
    have hjump : Listed ⟨1, 1, by decide⟩ (fun _ _ => True) (w₁.rtTickSet 10) lists :=
      hlisted₁.rtTickSet _ fun _ _ _ => trivial
    have hdue : (w₁.rtTickSet 10).due true = true := by
      rw [Timers.due, rtTickSet_rtTick, rtTickSet_timer, hset]
      decide
    refine ⟨w₁, lists, hlisted₁, fun t => ?_, hdue, ?_, fun fuel => ?_⟩
    · rw [hset]
      cases t <;> decide
    · rw [Timers.newDeadline, rtTickSet_rtTick, rtTickSet_timer, hset]
      decide
    · rw [rtTimerCheck_eq hjump]
      cases fuel with
      | zero => rfl
      | succ fuel =>
        have hperiodic : ((w₁.rtTickSet 10).timer true).periodic = true := by
          rw [rtTickSet_timer, hset]
        have hfail : ¬((w₁.rtTickSet 10).fired ⟨1, 1, by decide⟩ true).Startable true := by
          rintro ⟨-, hinit⟩
          rw [fired_timer, rtTickSet_timer, hset] at hinit
          exact absurd hinit (by decide)
        rw [checkLoop_round (fun _ _ => rfl) hjump hl hdue, if_pos hperiodic,
          rtTimerStart_none hfail, Option.bind_none]

end LowPower
