import LowPower.Proof.Converge
import LowPower.Proof.PmRequests
import LowPower.Spec.PmDevice

/-!
# Numbers from outside

The numbers on a shell command line, and the offset of a write to the `pm` device, are converted to
8 or 16 bits before they are checked. A number outside the range therefore does nothing exactly
when what is left of it after the conversion is outside the range too
(`outside_unchanged_iff`), and `pm_module_release_all` never looks at its module.
-/

namespace LowPower

/-- A number as it was entered is below `n`, and not negative. -/
def InRange (n : ℕ) (v : CInt) : Prop := 0 ≤ v.toInt ∧ v.toInt < n

/-! ## LPMS -/

/-- The commands that change a vote. -/
def Shell.votes : List Shell := [.pmsSleepRequest, .pmsSleepRelease, .pmsFreqRequest, .pmsFreqRelease]

/-- The number of modes that can be voted for. -/
def Shell.modes : Shell → ℕ
  | .pmsFreqRequest => pmFreqModeMax - 1
  | .pmsFreqRelease => pmFreqModeMax - 1
  | _ => pmSleepModeMax - 1

/-- The range checks of the function behind a command. -/
def Shell.Accepts (cmd : Shell) (c : Config) (module : U16) (mode : U8) : Prop :=
  module.toNat < c.pmModuleMax ∧ mode.toNat < cmd.modes

namespace World

variable {c : Config} {X : Type}

/-- What LPMS can get into from power-on. -/
inductive Reachable (env : Env c X) : World c X → Prop
  | boot (x : X) : Reachable env (World.boot c x)
  | lpmsInit {w : World c X} (ops : Option (LpmsOps X)) (freqMode : U8) :
    Reachable env w → Reachable env (w.lpmsInit ops freqMode)
  | step {w : World c X} (e : Op X) : Reachable env w → Reachable env (w.step env e)

/-- What the range checks reject changes nothing at all. -/
theorem shell_rejected {cmd : Shell} (hcmd : cmd ∈ Shell.votes) {module mode : CInt}
    (h : ¬cmd.Accepts c (module.setWidth 16) (mode.setWidth 8)) (rest : List CInt) (w : World c X) :
    w.shell cmd (module :: mode :: rest) = w := by
  simp only [Shell.votes, List.mem_cons, List.not_mem_nil, or_false] at hcmd
  obtain rfl | rfl | rfl | rfl := hcmd
  · exact exec_of_not_sleepPair (f := .pmSleepRequest _ _) rfl h
  · exact exec_of_not_sleepPair (f := .pmSleepRelease _ _) rfl h
  · exact exec_of_not_freqPair (f := .pmFreqRequest _ _) rfl h
  · exact exec_of_not_freqPair (f := .pmFreqRelease _ _) rfl h

/-- A request of a pair that is not in force, and a release of one that is, change the data. -/
theorem st_ne_of_vote {w w' : World c X} (V : Lpms c → Set (ℕ × ℕ)) {v : Vote ℕ ℕ}
    (h : V w'.st = Vote.apply (V w.st) v) (hv : v.isRequest = true ↔ v.pair ∉ V w.st) :
    w'.st ≠ w.st := by
  intro heq
  have hmem : v.pair ∈ V w.st ↔ v.isRequest = true := by
    rw [← heq, h, Vote.mem_apply]
    simp
  exact iff_not_self (hmem.trans hv)

/-- What they accept changes some state: a request the first one, a release the state after the
request. -/
theorem exists_shell_changes {cmd : Shell} (hcmd : cmd ∈ Shell.votes) (module mode : CInt)
    (h : cmd.Accepts c (module.setWidth 16) (mode.setWidth 8)) (rest : List CInt) (env : Env c X)
    (x : X) :
    ∃ w : World c X, Reachable env w ∧ (w.shell cmd (module :: mode :: rest)).st ≠ w.st := by
  have hboot : Reachable env (World.boot c x) := .boot x
  have hsleep : votesOf (World.boot c x).st.sleepStatus = ∅ := votesOf_zero
  have hfreq : votesOf (World.boot c x).st.freqStatus = ∅ := votesOf_zero
  revert h
  set k : U16 := module.setWidth 16
  set m : U8 := mode.setWidth 8
  intro h
  simp only [Shell.votes, List.mem_cons, List.not_mem_nil, or_false] at hcmd
  -- the votes after the request, from the first state
  obtain rfl | rfl | rfl | rfl := hcmd
  · have hpair : SleepPair c (Vote.request k.toNat m.toNat).pair := h
    have hvotes := (pmSleepRequest_votes (w := World.boot c x) k m).trans (if_pos hpair)
    refine ⟨_, hboot, st_ne_of_vote (votesOf ·.sleepStatus) hvotes ?_⟩
    simp [hsleep]
  · have hpair : SleepPair c (Vote.request k.toNat m.toNat).pair := h
    set w := (World.boot c x).step env (.call (.pmSleepRequest k m)) with hw
    have hbefore : votesOf w.st.sleepStatus = Vote.apply ∅ (.request k.toNat m.toNat) := by
      rw [← hsleep]
      exact (pmSleepRequest_votes k m).trans (if_pos hpair)
    have hvotes := (pmSleepRelease_votes (w := w) k m).trans (if_pos hpair)
    refine ⟨w, hboot.step _, st_ne_of_vote (votesOf ·.sleepStatus) hvotes ?_⟩
    simp [hbefore, Vote.apply]
  · have hpair : FreqPair c (Vote.request k.toNat m.toNat).pair := h
    have hvotes := (pmFreqRequest_freqStatus (w := World.boot c x) k m).trans (if_pos hpair)
    refine ⟨_, hboot, st_ne_of_vote (votesOf ·.freqStatus) hvotes ?_⟩
    simp [hfreq]
  · have hpair : FreqPair c (Vote.request k.toNat m.toNat).pair := h
    set w := (World.boot c x).step env (.call (.pmFreqRequest k m)) with hw
    have hbefore : votesOf w.st.freqStatus = Vote.apply ∅ (.request k.toNat m.toNat) := by
      rw [← hfreq]
      exact (pmFreqRequest_freqStatus k m).trans (if_pos hpair)
    have hvotes := (pmFreqRelease_freqStatus (w := w) k m).trans (if_pos hpair)
    refine ⟨w, hboot.step _, st_ne_of_vote (votesOf ·.freqStatus) hvotes ?_⟩
    simp [hbefore, Vote.apply]

end World

/-! ## PM 2.0 -/

namespace Pm

variable {X : Type}

/-- The commands that take a mode. -/
def Shell.modeCommands : List Shell := [.pmRequest, .pmRelease, .pmReleaseAll]

/-- The commands that take a module and a mode. -/
def Shell.moduleCommands : List Shell := [.pmModuleRequest, .pmModuleRelease, .pmModuleReleaseAll]

/-- The range checks of the function behind a command of `moduleCommands`. -/
def Shell.Accepts (cmd : Shell) (module mode : U8) : Prop :=
  mode.toNat < pmSleepModeMax ∧ (cmd ≠ .pmModuleReleaseAll → module.toNat < pmModuleMaxId)

namespace World

/-- What PM 2.0 can get into from power-on. -/
def Reachable (w : World X) : Prop :=
  ∃ ops rtTick x es, w = (boot ops rtTick x).enters es

/-- A request or release changes nothing in any state exactly when its arguments are rejected. -/
theorem call_unchanged_iff {f : Call} (hc : f.counts = true) :
    (∀ (X : Type) (w : World X), Reachable w → (w.call f).pm = w.pm) ↔ f.tally = none := by
  constructor
  · intro h
    by_contra htally
    obtain ⟨⟨a, m⟩, hf⟩ := Option.ne_none_iff_exists'.1 htally
    set r : Call := .rtPmRequest (BitVec.ofNat 8 m.val) with hr
    have hall : ∀ m : Fin pmSleepModeMax,
        tallyOf m (.rtPmRequest (BitVec.ofNat 8 m.val)) = some .request := by decide
    have htr : tallyOf m r = some .request := hall m
    have htf : tallyOf m f = some a := by simp [tallyOf, hf]
    have hone : tallies m [r] = [.request] := by simp [tallies, htr]
    have htwo : tallies m [r, f] = [.request, a] := by simp [tallies, htr, htf]
    -- a request of the mode, and then the call: the counter moves from one or two
    have hbefore := start_calls_counter idleOps 0 0 () m [r]
    have hafter := start_calls_counter idleOps 0 0 () m [r, f]
    rw [hone] at hbefore
    rw [htwo] at hafter
    have hsame := h Unit ((start idleOps 0 0 ()).calls [r])
      ⟨idleOps, 0, (), [.rtSystemPmInit idleOps 0, .call r], rfl⟩
    have hcounter : ((start idleOps 0 0 ()).calls [r, f]).pm.counter m =
        ((start idleOps 0 0 ()).calls [r]).pm.counter m := congrArg (RtPm.counter · m) hsame
    rw [hbefore, hafter] at hcounter
    cases a <;> split_ifs at hcounter <;> simp [Tally.sat] at hcounter
  · intro hf X w _
    rw [call_rejected hc hf]

theorem rtPmRequest_tally (m : U8) :
    (Call.rtPmRequest m).tally = none ↔ ¬m.toNat < pmSleepModeMax := by
  simp [Call.tally]

theorem rtPmRelease_tally (m : U8) :
    (Call.rtPmRelease m).tally = none ↔ ¬m.toNat < pmSleepModeMax := by
  simp [Call.tally]

/-- A command with a mode does nothing exactly when the low byte of the mode is out of range. -/
theorem modeCommand_unchanged_iff {cmd : Shell} (hcmd : cmd ∈ Shell.modeCommands) (mode : CInt)
    (rest : List CInt) :
    (∀ (X : Type) (w : World X), Reachable w → (w.shell cmd (mode :: rest)).pm = w.pm) ↔
      ¬(mode.setWidth 8).toNat < pmSleepModeMax := by
  simp only [Shell.modeCommands, List.mem_cons, List.not_mem_nil, or_false] at hcmd
  obtain rfl | rfl | rfl := hcmd
  · exact (call_unchanged_iff rfl).trans (rtPmRequest_tally _)
  · exact (call_unchanged_iff rfl).trans (rtPmRelease_tally _)
  · refine (call_unchanged_iff (f := .rtPmReleaseAll (mode.setWidth 8)) rfl).trans ?_
    simp [Call.tally]

/-- A command with a module and a mode does nothing exactly when the low bytes are rejected. -/
theorem moduleCommand_unchanged_iff {cmd : Shell} (hcmd : cmd ∈ Shell.moduleCommands)
    (module mode : CInt) (rest : List CInt) :
    (∀ (X : Type) (w : World X), Reachable w →
        (w.shell cmd (module :: mode :: rest)).pm = w.pm) ↔
      ¬cmd.Accepts (module.setWidth 8) (mode.setWidth 8) := by
  simp only [Shell.moduleCommands, List.mem_cons, List.not_mem_nil, or_false] at hcmd
  obtain rfl | rfl | rfl := hcmd
  · refine (call_unchanged_iff
      (f := .rtPmModuleRequest (module.setWidth 8) (mode.setWidth 8)) rfl).trans ?_
    simp [Call.tally, Shell.Accepts]
  · refine (call_unchanged_iff
      (f := .rtPmModuleRelease (module.setWidth 8) (mode.setWidth 8)) rfl).trans ?_
    simp [Call.tally, Shell.Accepts]
  · refine (call_unchanged_iff
      (f := .rtPmModuleReleaseAll (module.setWidth 8) (mode.setWidth 8)) rfl).trans ?_
    simp [Call.tally, Shell.Accepts]

/-- A write does nothing exactly when it asks for nothing or the low byte of its offset is out of
range. -/
theorem rtPmDeviceWrite_unchanged_iff (pos : CInt) (buffer : List U8) :
    (∀ (X : Type) (w : World X), Reachable w → (w.rtPmDeviceWrite pos buffer).2.pm = w.pm) ↔
      ¬((buffer.head? = some 0x01 ∨ buffer.head? = some 0x00) ∧
        (pos.setWidth 8).toNat < pmSleepModeMax) := by
  have hrequest := (call_unchanged_iff (f := .rtPmRequest (pos.setWidth 8)) rfl).trans
    (rtPmRequest_tally _)
  have hrelease := (call_unchanged_iff (f := .rtPmRelease (pos.setWidth 8)) rfl).trans
    (rtPmRelease_tally _)
  cases buffer with
  | nil => simp [rtPmDeviceWrite]
  | cons request rest =>
    rw [List.head?_cons]
    by_cases h1 : request = 0x01
    · subst h1
      have hbyte : some (0x01 : U8) = some 0x01 ∨ some (0x01 : U8) = some 0x00 := .inl rfl
      rw [and_iff_right hbyte]
      exact hrequest
    by_cases h0 : request = 0x00
    · subst h0
      have hbyte : some (0x00 : U8) = some 0x01 ∨ some (0x00 : U8) = some 0x00 := .inr rfl
      rw [and_iff_right hbyte]
      exact hrelease
    · have hnone : ¬(some request = some 0x01 ∨ some request = some 0x00) := by
        simpa using ⟨h1, h0⟩
      refine iff_of_true (fun X w _ => ?_) fun h => hnone h.1
      rw [rtPmDeviceWrite, if_neg h1, if_neg h0]

end World
end Pm

/-! ## What is out of range does nothing -/

/-- **A number out of range does nothing, if and only if its conversion is not accepted**: for
every command line of a vote of LPMS, of a request or release of PM 2.0, and for every write to the
`pm` device. -/
theorem outside_unchanged_iff (c : Config) (module mode pos : CInt) (rest : List CInt)
    (buffer : List U8) :
    (∀ cmd ∈ Shell.votes,
      (¬(InRange c.pmModuleMax module ∧ InRange cmd.modes mode) →
          ∀ (X : Type) (env : Env c X) (w : World c X), World.Reachable env w →
            (w.shell cmd (module :: mode :: rest)).st = w.st) ↔
        (cmd.Accepts c (module.setWidth 16) (mode.setWidth 8) →
          InRange c.pmModuleMax module ∧ InRange cmd.modes mode)) ∧
    (∀ cmd ∈ Pm.Shell.modeCommands,
      (¬InRange Pm.pmSleepModeMax mode →
          ∀ (X : Type) (w : Pm.World X), Pm.World.Reachable w →
            (w.shell cmd (mode :: rest)).pm = w.pm) ↔
        ((mode.setWidth 8).toNat < Pm.pmSleepModeMax → InRange Pm.pmSleepModeMax mode)) ∧
    (∀ cmd ∈ Pm.Shell.moduleCommands,
      (¬(InRange Pm.pmModuleMaxId module ∧ InRange Pm.pmSleepModeMax mode) →
          ∀ (X : Type) (w : Pm.World X), Pm.World.Reachable w →
            (w.shell cmd (module :: mode :: rest)).pm = w.pm) ↔
        (cmd.Accepts (module.setWidth 8) (mode.setWidth 8) →
          InRange Pm.pmModuleMaxId module ∧ InRange Pm.pmSleepModeMax mode)) ∧
    ((¬InRange Pm.pmSleepModeMax pos →
          ∀ (X : Type) (w : Pm.World X), Pm.World.Reachable w →
            (w.rtPmDeviceWrite pos buffer).2.pm = w.pm) ↔
        ((buffer.head? = some 0x01 ∨ buffer.head? = some 0x00) ∧
            (pos.setWidth 8).toNat < Pm.pmSleepModeMax →
          InRange Pm.pmSleepModeMax pos)) := by
  refine ⟨?_, ?_, ?_, ?_⟩
  · intro cmd hcmd
    have hiff : (∀ (X : Type) (env : Env c X) (w : World c X), World.Reachable env w →
        (w.shell cmd (module :: mode :: rest)).st = w.st) ↔
          ¬cmd.Accepts c (module.setWidth 16) (mode.setWidth 8) := by
      constructor
      · intro hsame haccepts
        obtain ⟨w, hw, hne⟩ :=
          World.exists_shell_changes hcmd module mode haccepts rest (Env.silent (X := Unit)) ()
        exact hne (hsame Unit _ w hw)
      · intro hrejected X env w _
        rw [World.shell_rejected hcmd hrejected]
    rw [hiff]
    exact not_imp_not
  · intro cmd hcmd
    rw [Pm.World.modeCommand_unchanged_iff hcmd]
    exact not_imp_not
  · intro cmd hcmd
    rw [Pm.World.moduleCommand_unchanged_iff hcmd]
    exact not_imp_not
  · rw [Pm.World.rtPmDeviceWrite_unchanged_iff]
    exact not_imp_not

/-- `pms_sleep_request 65536 0`, `pm_request 256`, `pm_module_release_all 17 0` and a write of 1 at
offset 256 act on module 0 or mode 0. -/
theorem outside_acts :
    (¬InRange Config.shipped.pmModuleMax 65536 ∧
      ¬∀ (X : Type) (env : Env Config.shipped X) (w : World Config.shipped X),
        World.Reachable env w → (w.shell .pmsSleepRequest [65536, 0]).st = w.st) ∧
    (¬InRange Pm.pmSleepModeMax 256 ∧
      ¬∀ (X : Type) (w : Pm.World X), Pm.World.Reachable w →
        (w.shell .pmRequest [256]).pm = w.pm) ∧
    (¬InRange Pm.pmModuleMaxId 17 ∧
      ¬∀ (X : Type) (w : Pm.World X), Pm.World.Reachable w →
        (w.shell .pmModuleReleaseAll [17, 0]).pm = w.pm) ∧
    (¬InRange Pm.pmSleepModeMax 256 ∧
      ¬∀ (X : Type) (w : Pm.World X), Pm.World.Reachable w →
        (w.rtPmDeviceWrite 256 [1]).2.pm = w.pm) := by
  refine ⟨⟨by simp [InRange, Config.shipped], ?_⟩, ⟨by simp [InRange], ?_⟩, ⟨by simp [InRange], ?_⟩,
    by simp [InRange], ?_⟩
  · intro h
    have haccepts : Shell.pmsSleepRequest.Accepts Config.shipped 0 0 := ⟨by decide, by decide⟩
    have hcmd : Shell.pmsSleepRequest ∈ Shell.votes := List.mem_cons_self
    obtain ⟨w, hw, hne⟩ :=
      World.exists_shell_changes hcmd 65536 0 haccepts [] (Env.silent (X := Unit)) ()
    exact hne (h Unit _ w hw)
  · rw [Pm.World.modeCommand_unchanged_iff (by simp [Pm.Shell.modeCommands])]
    decide
  · rw [Pm.World.moduleCommand_unchanged_iff (by simp [Pm.Shell.moduleCommands])]
    simp [Pm.Shell.Accepts]
  · rw [Pm.World.rtPmDeviceWrite_unchanged_iff]
    decide

end LowPower
