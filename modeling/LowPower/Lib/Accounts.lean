import LowPower.Lib.History
import LowPower.Lib.Tally

/-!
# Accounts by owner and place

Owners of type `κ` hold requests at places of type `μ`, and take back what they hold one by one or
all of one place at once (`post`). What an owner still holds after taking something back depends on
its own account alone (`holds_release`, `holds_releaseAll`).
-/

namespace LowPower

/-- The number of requests of each owner at each place. -/
def Accounts (κ μ : Type*) := κ → μ → ℕ

namespace Accounts

variable {κ μ : Type*} [DecidableEq κ] [DecidableEq μ]

/-- One entry: what is done, by whom and where. -/
def post (l : Accounts κ μ) (e : Tally × κ × μ) : Accounts κ μ :=
  fun k m => if k = e.2.1 ∧ m = e.2.2 then Tally.count (l k m) e.1 else l k m

def posts (l : Accounts κ μ) (es : List (Tally × κ × μ)) : Accounts κ μ := es.foldl post l

/-- The owner holds something somewhere. -/
def Holds (l : Accounts κ μ) (k : κ) : Prop := ∃ m, l k m ≠ 0

/-- The owner holds nothing at any other place. -/
def OnlyAt (l : Accounts κ μ) (k : κ) (m : μ) : Prop := ∀ m', m' ≠ m → l k m' = 0

/-- An owner takes one request back only where it holds one. -/
def Covered (l : Accounts κ μ) (es : List (Tally × κ × μ)) (e : Tally × κ × μ) : Prop :=
  e.1 = .release → l.posts es e.2.1 e.2.2 ≠ 0

variable {l : Accounts κ μ} {k : κ} {m : μ}

theorem posts_snoc (es : List (Tally × κ × μ)) (e : Tally × κ × μ) :
    l.posts (es ++ [e]) = (l.posts es).post e := by
  simp [posts]

theorem post_self (a : Tally) : l.post (a, k, m) k m = Tally.count (l k m) a :=
  if_pos ⟨rfl, rfl⟩

theorem post_place_ne (a : Tally) {m' : μ} (h : m' ≠ m) : l.post (a, k, m) k m' = l k m' :=
  if_neg fun hc => h hc.2

/-- An entry is about its owner only. -/
theorem holds_post_of_ne (a : Tally) {k' : κ} (h : k' ≠ k) :
    (l.post (a, k, m)).Holds k' ↔ l.Holds k' := by
  have hrow : ∀ m', l.post (a, k, m) k' m' = l k' m' := fun m' => if_neg fun hc => h hc.1
  unfold Holds
  simp only [hrow]

/-- The owner of an entry holds nothing exactly when the entry leaves nothing and nothing is held
elsewhere. -/
theorem not_holds_post (a : Tally) :
    ¬(l.post (a, k, m)).Holds k ↔ Tally.count (l k m) a = 0 ∧ l.OnlyAt k m := by
  unfold Holds OnlyAt
  simp only [not_exists, not_not]
  constructor
  · intro h
    have hself := h m
    rw [post_self] at hself
    refine ⟨hself, fun m' hm => ?_⟩
    exact (post_place_ne a hm).symm.trans (h m')
  · rintro ⟨hself, hrest⟩ m'
    by_cases hm : m' = m
    · subst hm
      rw [post_self]
      exact hself
    · rw [post_place_ne a hm]
      exact hrest m' hm

theorem holds_request : (l.post (.request, k, m)).Holds k := by
  by_contra h
  have hzero := ((not_holds_post .request).1 h).1
  exact Nat.succ_ne_zero _ hzero

theorem holds_release (h : l k m ≠ 0) :
    (l.post (.release, k, m)).Holds k ↔ ¬(l k m = 1 ∧ l.OnlyAt k m) := by
  rw [← not_iff_not, not_holds_post, not_not]
  have hone : Tally.count (l k m) .release = 0 ↔ l k m = 1 := by
    change l k m - 1 = 0 ↔ l k m = 1
    omega
  rw [hone]

theorem holds_releaseAll : (l.post (.releaseAll, k, m)).Holds k ↔ ¬l.OnlyAt k m := by
  rw [← not_iff_not, not_holds_post, not_not]
  exact and_iff_right rfl

end Accounts

end LowPower
