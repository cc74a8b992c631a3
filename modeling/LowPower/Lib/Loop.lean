import Mathlib.Algebra.Group.Nat.Defs
import Mathlib.Data.Nat.Basic
import Mathlib.Logic.Function.Iterate

/-!
# Loops that may not end

A loop of the source runs on fuel and gives nothing when the fuel is used up. It returns a value
when every large enough fuel gives that value (`Returns`), which at most one value does. A loop
returns what its rounds lead to (`Returns.loop_step`, `Returns.loop_count`), and a loop that counts
up to a last value makes one round for each value (`Returns.for_le`).
-/

namespace LowPower

variable {α β σ : Type}

/-- Every large enough fuel gives `a`. -/
def Returns (f : ℕ → Option α) (a : α) : Prop := ∃ n, ∀ fuel ≥ n, f fuel = some a

/-- `while (cond) step`; the body gets the fuel for loops of its own. -/
def loop (cond : σ → Bool) (step : ℕ → σ → Option σ) : ℕ → σ → Option σ
  | 0, _ => none
  | fuel + 1, s => if cond s then (step fuel s).bind (loop cond step fuel) else some s

namespace Returns

variable {f : ℕ → Option α} {a b : α}

theorem of_eq (h : ∀ fuel, f fuel = some a) : Returns f a := ⟨0, fun fuel _ => h fuel⟩

/-- `n` units of fuel are enough. -/
theorem of_add (n : ℕ) (h : ∀ k, f (k + n) = some a) : Returns f a := by
  refine ⟨n, fun fuel hfuel => ?_⟩
  obtain ⟨k, rfl⟩ := Nat.exists_eq_add_of_le' hfuel
  exact h k

theorem unique (ha : Returns f a) (hb : Returns f b) : a = b := by
  obtain ⟨n, hn⟩ := ha
  obtain ⟨m, hm⟩ := hb
  have heq : some a = some b := by
    rw [← hn (max n m) (Nat.le_max_left n m), hm (max n m) (Nat.le_max_right n m)]
  exact Option.some.inj heq

/-- A call that gives the same whatever the fuel returns just that. -/
theorem const_iff {o : Option α} : Returns (fun _ => o) a ↔ o = some a :=
  ⟨fun ⟨n, hn⟩ => hn n (Nat.le_refl n), fun h => of_eq fun _ => h⟩

/-- A call that passes one unit of fuel less to another one. -/
theorem of_succ {g : ℕ → Option α} (h : ∀ fuel, f (fuel + 1) = g fuel) (hg : Returns g a) :
    Returns f a := by
  obtain ⟨n, hn⟩ := hg
  refine ⟨n + 1, fun fuel hfuel => ?_⟩
  obtain ⟨k, rfl⟩ := Nat.exists_eq_add_of_le' (Nat.le_trans (Nat.le_add_left 1 n) hfuel)
  rw [h k, hn k (Nat.le_of_succ_le_succ hfuel)]

theorem bind {g : α → ℕ → Option β} {c : β} (hf : Returns f a) (hg : Returns (g a) c) :
    Returns (fun fuel => (f fuel).bind fun x => g x fuel) c := by
  obtain ⟨n, hn⟩ := hf
  obtain ⟨m, hm⟩ := hg
  refine ⟨max n m, fun fuel hfuel => ?_⟩
  change (f fuel).bind (fun x => g x fuel) = some c
  rw [hn fuel (Nat.le_trans (Nat.le_max_left n m) hfuel), Option.bind_some,
    hm fuel (Nat.le_trans (Nat.le_max_right n m) hfuel)]

theorem map (hf : Returns f a) (g : α → β) : Returns (fun fuel => (f fuel).map g) (g a) := by
  obtain ⟨n, hn⟩ := hf
  refine ⟨n, fun fuel hfuel => ?_⟩
  change (f fuel).map g = some (g a)
  rw [hn fuel hfuel, Option.map_some]

variable {cond : σ → Bool} {step : ℕ → σ → Option σ} {s t u : σ}

theorem loop_done (h : cond s = false) : Returns (fun fuel => loop cond step fuel s) s := by
  refine ⟨1, fun fuel hfuel => ?_⟩
  obtain ⟨k, rfl⟩ := Nat.exists_eq_add_of_le' hfuel
  change loop cond step (k + 1) s = some s
  rw [loop, h, if_neg Bool.false_ne_true]

/-- One round, and the rest of the loop. -/
theorem loop_step (hcond : cond s = true) (hstep : Returns (fun fuel => step fuel s) t)
    (hrest : Returns (fun fuel => loop cond step fuel t) u) :
    Returns (fun fuel => loop cond step fuel s) u := by
  obtain ⟨n, hn⟩ := hstep
  obtain ⟨m, hm⟩ := hrest
  refine ⟨max n m + 1, fun fuel hfuel => ?_⟩
  obtain ⟨k, rfl⟩ := Nat.exists_eq_add_of_le' (Nat.le_trans (Nat.le_add_left 1 _) hfuel)
  have hk : max n m ≤ k := Nat.le_of_succ_le_succ hfuel
  change loop cond step (k + 1) s = some u
  have hround : step k s = some t := hn k (Nat.le_trans (Nat.le_max_left n m) hk)
  rw [loop, hcond, if_pos rfl, hround, Option.bind_some]
  exact hm k (Nat.le_trans (Nat.le_max_right n m) hk)

/-- **A loop whose state is known after each round** returns the state after the last one. -/
theorem loop_count {f : ℕ → σ} {n : ℕ} (hcond : ∀ k < n, cond (f k) = true)
    (hstep : ∀ k < n, Returns (fun fuel => step fuel (f k)) (f (k + 1)))
    (hend : cond (f n) = false) : Returns (fun fuel => loop cond step fuel (f 0)) (f n) := by
  induction n generalizing f with
  | zero => exact loop_done hend
  | succ n ih =>
    have hrest : Returns (fun fuel => loop cond step fuel (f (0 + 1))) (f (n + 1)) :=
      ih (f := fun k => f (k + 1)) (fun k hk => hcond (k + 1) (by omega))
        (fun k hk => hstep (k + 1) (by omega)) hend
    exact loop_step (hcond 0 (by omega)) (hstep 0 (by omega)) hrest

/-- **A loop over the counters from `a` to `b`.** -/
theorem for_le {w : ℕ} {a b : BitVec w} (hab : a ≤ b) (hb : b.toNat + 1 < 2 ^ w)
    {g : ℕ → BitVec w × σ → Option (BitVec w × σ)} {body : σ → σ}
    (hstep : ∀ i s, Returns (fun fuel => g fuel (i, s)) (i + 1, body s)) (s : σ) :
    Returns (fun fuel => loop (fun p => decide (p.1 ≤ b)) g fuel (a, s))
      (b + 1, body^[b.toNat - a.toNat + 1] s) := by
  have hle : a.toNat ≤ b.toNat := hab
  have hcount : ∀ k ≤ b.toNat - a.toNat + 1, (a + BitVec.ofNat w k).toNat = a.toNat + k := by
    intro k hk
    rw [BitVec.toNat_add, BitVec.toNat_ofNat, Nat.mod_eq_of_lt (show k < 2 ^ w by omega),
      Nat.mod_eq_of_lt (by omega)]
  have hone : (1 : BitVec w) = BitVec.ofNat w 1 := rfl
  have hzero : (a, s) = (a + BitVec.ofNat w 0, body^[0] s) := by simp
  have hlast : b + 1 = a + BitVec.ofNat w (b.toNat - a.toNat + 1) := by
    apply BitVec.eq_of_toNat_eq
    rw [hcount _ (Nat.le_refl _), hone, BitVec.toNat_add, BitVec.toNat_ofNat,
      Nat.mod_eq_of_lt (show 1 < 2 ^ w by omega), Nat.mod_eq_of_lt hb]
    omega
  rw [hzero, hlast]
  apply loop_count (f := fun k => (a + BitVec.ofNat w k, body^[k] s))
  · intro k hk
    rw [decide_eq_true_eq, BitVec.le_def, hcount k (by omega)]
    omega
  · intro k hk
    have hround := hstep (a + BitVec.ofNat w k) (body^[k] s)
    rw [hone, BitVec.add_assoc, ← BitVec.ofNat_add, ← Function.iterate_succ_apply' body] at hround
    exact hround
  · rw [decide_eq_false_iff_not, BitVec.le_def, hcount _ (Nat.le_refl _)]
    omega

end Returns

end LowPower
