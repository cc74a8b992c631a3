import Mathlib.Order.Bounds.Basic
import Mathlib.Data.List.Chain
import Mathlib.Data.Set.Card

/-!
# Votes without reference counts

Voters of type `κ` ask for modes of type `μ`. A vote on a pair is in force from its
request to the next release of the same pair; requests do not count, so the votes in
force form a plain set of pairs. Two readings of a history agree: the set built by the
accepted operations one by one, and `Held`, which looks at the last vote on a pair only
(`Holds.snoc`).

* `Selects V top m`: `m` is the least mode voted for in `V`, or `top` when there is none;
  one more request takes the minimum (`Selects.request`).
* `Paired`: on every pair, requests and releases alternate, starting with a request;
  then a vote is a request exactly when its pair is not in force (`Paired.isRequest_iff`).
* `voters V m`: the voters of a mode; a vote that changes `V` moves their number by one.
-/

namespace LowPower

/-- One vote of voter `k` on mode `m`. -/
inductive Vote (κ μ : Type*) where
  | request (k : κ) (m : μ)
  | release (k : κ) (m : μ)
deriving DecidableEq

namespace Vote

variable {κ μ : Type*}

/-- The pair a vote is about. -/
def pair : Vote κ μ → κ × μ
  | request k m => (k, m)
  | release k m => (k, m)

def isRequest : Vote κ μ → Bool
  | request _ _ => true
  | release _ _ => false

/-- The effect of a vote on the set of pairs in force. -/
def apply (V : Set (κ × μ)) : Vote κ μ → Set (κ × μ)
  | request k m => insert (k, m) V
  | release k m => V \ {(k, m)}

/-- The effect of a vote when only the pairs satisfying `q` are accepted. -/
def applyIn (q : κ × μ → Prop) [DecidablePred q] (V : Set (κ × μ)) (v : Vote κ μ) :
    Set (κ × μ) :=
  if q v.pair then apply V v else V

@[simp] theorem pair_request (k : κ) (m : μ) : (request k m).pair = (k, m) := rfl

@[simp] theorem pair_release (k : κ) (m : μ) : (release k m).pair = (k, m) := rfl

@[simp] theorem isRequest_request (k : κ) (m : μ) : (request k m).isRequest = true := rfl

@[simp] theorem isRequest_release (k : κ) (m : μ) : (release k m).isRequest = false := rfl

/-- A vote decides its own pair and no other. -/
theorem mem_apply {V : Set (κ × μ)} {v : Vote κ μ} {p : κ × μ} :
    p ∈ apply V v ↔ (v.pair = p ∧ v.isRequest = true) ∨ (v.pair ≠ p ∧ p ∈ V) := by
  cases v with
  | request k m =>
    by_cases h : (k, m) = p
    · simp [apply, h]
    · simp [apply, h, Ne.symm h]
  | release k m =>
    by_cases h : (k, m) = p
    · simp [apply, h]
    · simp [apply, h, Ne.symm h]

/-! ## Reading the last vote on a pair -/

variable [DecidableEq κ] [DecidableEq μ]

/-- The votes on a pair, in order: `true` for a request, `false` for a release. -/
def kinds (vs : List (Vote κ μ)) (p : κ × μ) : List Bool :=
  (vs.filter (fun v => v.pair = p)).map isRequest

/-- The last vote on the pair is a request. -/
def Held (vs : List (Vote κ μ)) (p : κ × μ) : Prop := (kinds vs p).getLast? = some true

instance (vs : List (Vote κ μ)) (p : κ × μ) : Decidable (Held vs p) :=
  inferInstanceAs (Decidable (_ = _))

@[simp] theorem kinds_nil (p : κ × μ) : kinds ([] : List (Vote κ μ)) p = [] := rfl

theorem kinds_append (vs ws : List (Vote κ μ)) (p : κ × μ) :
    kinds (vs ++ ws) p = kinds vs p ++ kinds ws p := by
  simp [kinds]

theorem kinds_singleton (v : Vote κ μ) (p : κ × μ) :
    kinds [v] p = if v.pair = p then [v.isRequest] else [] := by
  by_cases h : v.pair = p <;> simp [kinds, h]

@[simp] theorem not_held_nil (p : κ × μ) : ¬ Held ([] : List (Vote κ μ)) p := by simp [Held]

/-- One more vote: its own pair follows it, every other pair stays. -/
theorem held_snoc {vs : List (Vote κ μ)} {v : Vote κ μ} {p : κ × μ} :
    Held (vs ++ [v]) p ↔ (v.pair = p ∧ v.isRequest = true) ∨ (v.pair ≠ p ∧ Held vs p) := by
  unfold Held
  rw [kinds_append, kinds_singleton]
  by_cases h : v.pair = p <;> simp [h]

/-- The later votes on a pair decide, if there are any. -/
theorem held_append {vs ws : List (Vote κ μ)} {p : κ × μ} :
    Held (vs ++ ws) p ↔ Held ws p ∨ (kinds ws p = [] ∧ Held vs p) := by
  unfold Held
  rw [kinds_append]
  cases h : kinds ws p using List.reverseRecOn with
  | nil => simp
  | append_singleton bs b => simp [← List.append_assoc]

/-- A vote in force was requested. -/
theorem request_mem_of_held {vs : List (Vote κ μ)} {p : κ × μ} (h : Held vs p) :
    .request p.1 p.2 ∈ vs := by
  have hmem := List.mem_of_getLast? h
  obtain ⟨v, hv, hreq⟩ := List.mem_map.1 hmem
  rw [List.mem_filter, decide_eq_true_eq] at hv
  obtain ⟨hv, rfl⟩ := hv
  cases v with
  | request k m => exact hv
  | release k m => exact Bool.noConfusion hreq

/-- A vote in force was made. -/
theorem mem_of_held {vs : List (Vote κ μ)} {p : κ × μ} (h : Held vs p) :
    ∃ v ∈ vs, v.pair = p := ⟨_, request_mem_of_held h, rfl⟩

/-- **The set after a batch of votes**: on each pair the last vote decides, if there is one. -/
theorem mem_foldl_apply {V : Set (κ × μ)} {vs : List (Vote κ μ)} {p : κ × μ} :
    p ∈ vs.foldl apply V ↔ Held vs p ∨ (kinds vs p = [] ∧ p ∈ V) := by
  induction vs using List.reverseRecOn with
  | nil => simp
  | append_singleton vs v ih =>
    rw [List.foldl_append, List.foldl_cons, List.foldl_nil, mem_apply, held_snoc, ih, kinds_append,
      kinds_singleton]
    by_cases hv : v.pair = p <;> simp [hv]

/-- `V` holds the accepted pairs whose last vote in the history is a request. -/
def Holds (q : κ × μ → Prop) (V : Set (κ × μ)) (vs : List (Vote κ μ)) : Prop :=
  ∀ p, p ∈ V ↔ q p ∧ Held vs p

theorem Holds.nil (q : κ × μ → Prop) : Holds q ∅ ([] : List (Vote κ μ)) := by
  intro p
  simp

/-- **A set of pairs that follows the accepted votes one by one holds the last votes.** -/
theorem Holds.snoc {q : κ × μ → Prop} [DecidablePred q] {V : Set (κ × μ)}
    {vs : List (Vote κ μ)} (h : Holds q V vs) (v : Vote κ μ) :
    Holds q (applyIn q V v) (vs ++ [v]) := by
  intro p
  rw [held_snoc]
  unfold applyIn
  split_ifs with hv
  · rw [mem_apply, h p]
    constructor
    · rintro (⟨rfl, hr⟩ | ⟨hne, hq, hh⟩)
      · exact ⟨hv, .inl ⟨rfl, hr⟩⟩
      · exact ⟨hq, .inr ⟨hne, hh⟩⟩
    · rintro ⟨hq, hr | ⟨hne, hh⟩⟩
      · exact .inl hr
      · exact .inr ⟨hne, hq, hh⟩
  · -- a refused vote is on a pair that is not accepted, so `p` is another one
    rw [h p]
    constructor
    · rintro ⟨hq, hh⟩
      exact ⟨hq, .inr ⟨fun he => hv (he ▸ hq), hh⟩⟩
    · rintro ⟨hq, ⟨he, -⟩ | ⟨-, hh⟩⟩
      · exact absurd (he ▸ hq) hv
      · exact ⟨hq, hh⟩

/-! ## Paired use -/

/-- The list alternates, starting with `b`. -/
def Alternating : Bool → List Bool → Prop
  | _, [] => True
  | b, x :: xs => x = b ∧ Alternating (!b) xs

/-- On every pair, requests and releases strictly alternate, starting with a request. -/
def Paired (vs : List (Vote κ μ)) : Prop := ∀ p, Alternating true (kinds vs p)

theorem alternating_append {b : Bool} {xs ys : List Bool} (h : Alternating b (xs ++ ys)) :
    Alternating b xs := by
  induction xs generalizing b with
  | nil => trivial
  | cons x xs ih => exact ⟨h.1, ih h.2⟩

/-- The next element of an alternating list is the negation of the last one. -/
theorem alternating_snoc {b x : Bool} {xs : List Bool} (h : Alternating b (xs ++ [x])) :
    x = (xs.getLast?.map not).getD b := by
  induction xs generalizing b with
  | nil => exact h.1
  | cons y ys ih =>
    obtain ⟨rfl, h2⟩ := h
    have hx := ih h2
    cases ys with
    | nil => simpa using hx
    | cons z zs =>
      rw [List.getLast?_eq_some_getLast (List.cons_ne_nil z zs)] at hx
      rw [List.getLast?_cons_cons, List.getLast?_eq_some_getLast (List.cons_ne_nil z zs)]
      exact hx

theorem Paired.init {vs : List (Vote κ μ)} {v : Vote κ μ} (h : Paired (vs ++ [v])) : Paired vs := by
  intro p
  have hp := h p
  rw [kinds_append] at hp
  exact alternating_append hp

/-- **Under paired use, a vote is a request exactly when its pair is not in force.** -/
theorem Paired.isRequest_iff {vs : List (Vote κ μ)} {v : Vote κ μ} (h : Paired (vs ++ [v])) :
    v.isRequest = true ↔ ¬ Held vs v.pair := by
  have hp := h v.pair
  rw [kinds_append, kinds_singleton, if_pos rfl] at hp
  have hx := alternating_snoc hp
  unfold Held
  rw [hx]
  cases hl : (kinds vs v.pair).getLast? with
  | none => simp
  | some b => cases b <;> simp

/-! ## Counting voters -/

section Voters

variable {κ μ : Type*}

/-- The voters with a vote in force on a mode. -/
def voters (V : Set (κ × μ)) (m : μ) : Set κ := {k | (k, m) ∈ V}

theorem voters_apply_of_ne {V : Set (κ × μ)} {v : Vote κ μ} {m : μ} (h : v.pair.2 ≠ m) :
    voters (apply V v) m = voters V m := by
  ext k
  have hne : v.pair ≠ (k, m) := fun hp => h (congrArg Prod.snd hp)
  simp [voters, mem_apply, hne]

/-- A vote on a pair not in force counts one voter more. -/
theorem ncard_voters_request {V : Set (κ × μ)} {k : κ} {m : μ} (hfin : (voters V m).Finite)
    (hk : (k, m) ∉ V) : (voters (apply V (.request k m)) m).ncard = (voters V m).ncard + 1 := by
  have hins : voters (apply V (.request k m)) m = insert k (voters V m) := by
    ext k'
    simp [voters, apply]
  have hk' : k ∉ voters V m := hk
  rw [hins, Set.ncard_insert_of_notMem hk' hfin]

/-- Taking back a vote in force counts one voter less. -/
theorem ncard_voters_release {V : Set (κ × μ)} {k : κ} {m : μ} (hk : (k, m) ∈ V) :
    (voters (apply V (.release k m)) m).ncard = (voters V m).ncard - 1 := by
  have hdiff : voters (apply V (.release k m)) m = voters V m \ {k} := by
    ext k'
    simp [voters, apply]
  have hk' : k ∈ voters V m := hk
  rw [hdiff, Set.ncard_sdiff_singleton_of_mem hk']

end Voters

end Vote

/-! ## Selection -/

section Select

variable {κ μ : Type*} [PartialOrder μ]

/-- `m` is the least mode voted for, or `top` when there is no vote. -/
def Selects (V : Set (κ × μ)) (top m : μ) : Prop :=
  IsLeast (Prod.snd '' V) m ∨ (V = ∅ ∧ m = top)

/-- **Selection is a function of the votes.** -/
theorem Selects.unique {V : Set (κ × μ)} {top m m' : μ} (h : Selects V top m)
    (h' : Selects V top m') : m = m' := by
  rcases h with h | ⟨hV, rfl⟩
  · rcases h' with h' | ⟨hV, -⟩
    · exact h.unique h'
    · subst hV; simp [IsLeast] at h
  · rcases h' with h' | ⟨-, rfl⟩
    · subst hV; simp [IsLeast] at h'
    · rfl

/-- The selected mode is no larger than any mode voted for. -/
theorem Selects.le {V : Set (κ × μ)} {top m : μ} (h : Selects V top m) {p : κ × μ} (hp : p ∈ V) :
    m ≤ p.2 := by
  rcases h with h | ⟨hV, -⟩
  · exact h.2 ⟨p, hp, rfl⟩
  · subst hV; exact absurd hp (Set.notMem_empty p)

end Select

/-- One more request takes the minimum. -/
theorem Selects.request {κ μ : Type*} [LinearOrder μ] {V : Set (κ × μ)} {top x m : μ}
    (h : Selects V top x) (k : κ) (hm : m ≤ top) :
    Selects (Vote.apply V (.request k m)) top (min x m) := by
  left
  rw [Vote.apply, Set.image_insert_eq, min_comm]
  rcases h with h | ⟨rfl, rfl⟩
  · exact h.insert m
  · rw [Set.image_empty, min_eq_left hm, insert_empty_eq]
    exact isLeast_singleton

end LowPower
