import Mathlib.Data.List.Basic
import Mathlib.Data.List.Nodup

/-!
# Lists of what was used last

A list holds at most `n` elements of different keys, the one used last first. Using an element puts
it at the front in place of the one of its key (`touch`); elements of other keys can be added behind
(`merge`). Both keep the keys different (`distinct_touch`, `distinct_merge`) and the list short.
Programs find the element first: `touch_of_found` and `touch_of_new` are their two cases.
-/

namespace LowPower

namespace Recent

variable {α κ : Type} [DecidableEq κ] {key : α → κ} {n : ℕ} {x y : α} {l pre post : List α}

/-- Used last, for lists of at most `n` elements. -/
def touch (key : α → κ) (n : ℕ) (x : α) (l : List α) : List α :=
  (x :: l.filter fun y => key y ≠ key x).take n

/-- Elements of new keys go behind, while there is room. -/
def merge (key : α → κ) (n : ℕ) : List α → List α → List α
  | [], l => l
  | x :: new, l => merge key n new (if l.length < n ∧ key x ∉ l.map key then l ++ [x] else l)

/-- The keys are different. -/
def Distinct (key : α → κ) (l : List α) : Prop := (l.map key).Nodup

theorem length_touch (x : α) (l : List α) : (touch key n x l).length ≤ n := List.length_take_le n _

theorem distinct_touch (h : Distinct key l) (x : α) : Distinct key (touch key n x l) := by
  have hsub : ((l.filter fun y => key y ≠ key x).map key).Sublist (l.map key) :=
    List.filter_sublist.map key
  have hfirst : key x ∉ (l.filter fun y => key y ≠ key x).map key := by
    rintro hmem
    obtain ⟨y, hy, heq⟩ := List.mem_map.mp hmem
    exact of_decide_eq_true (List.mem_filter.mp hy).2 heq
  have hall : Distinct key (x :: l.filter fun y => key y ≠ key x) :=
    List.nodup_cons.mpr ⟨hfirst, h.sublist hsub⟩
  exact List.Nodup.sublist ((List.take_sublist n _).map key) hall

/-- **The element is there**: it comes out of its place. -/
theorem touch_of_found (h : Distinct key (pre ++ y :: post)) (hkey : key y = key x)
    (hlen : (pre ++ y :: post).length ≤ n) :
    touch key n x (pre ++ y :: post) = x :: (pre ++ post) := by
  have hnodup := h
  rw [Distinct, List.map_append, List.map_cons, List.nodup_middle, List.nodup_cons] at hnodup
  have hother : ∀ z ∈ pre ++ post, key z ≠ key x := by
    intro z hz heq
    refine hnodup.1 ?_
    rw [← List.map_append, hkey, ← heq]
    exact List.mem_map_of_mem hz
  have hkeep : ∀ l' : List α, (∀ z ∈ l', z ∈ pre ++ post) → (l'.filter fun y => key y ≠ key x) = l' :=
    fun l' hl' => List.filter_eq_self.mpr fun z hz => decide_eq_true (hother z (hl' z hz))
  rw [touch, List.filter_append, List.filter_cons_of_neg (by simp [hkey]),
    hkeep pre fun z hz => List.mem_append_left post hz,
    hkeep post fun z hz => List.mem_append_right pre hz]
  refine List.take_of_length_le ?_
  rw [List.length_append, List.length_cons] at hlen
  rw [List.length_cons, List.length_append]
  omega

/-- **The element is new**: the others move, and the last one may go. -/
theorem touch_of_new (h : key x ∉ l.map key) : touch key n x l = (x :: l).take n := by
  have hkeep : (l.filter fun y => key y ≠ key x) = l :=
    List.filter_eq_self.mpr fun z hz =>
      decide_eq_true fun heq => h (heq ▸ List.mem_map_of_mem hz)
  rw [touch, hkeep]

theorem merge_cons_of_new (new : List α) (hroom : l.length < n) (h : key x ∉ l.map key) :
    merge key n (x :: new) l = merge key n new (l ++ [x]) := by
  rw [merge, if_pos ⟨hroom, h⟩]

theorem merge_cons_of_mem (new : List α) (h : key x ∈ l.map key) :
    merge key n (x :: new) l = merge key n new l := by
  rw [merge, if_neg fun hroom => hroom.2 h]

theorem length_merge (new : List α) (h : l.length ≤ n) : (merge key n new l).length ≤ n := by
  induction new generalizing l with
  | nil => exact h
  | cons x new ih =>
    rw [merge]
    refine ih ?_
    split
    · rename_i hroom
      rw [List.length_append, List.length_singleton]
      omega
    · exact h

theorem distinct_merge (new : List α) (h : Distinct key l) : Distinct key (merge key n new l) := by
  induction new generalizing l with
  | nil => exact h
  | cons x new ih =>
    rw [merge]
    refine ih ?_
    split
    · rename_i hroom
      rw [Distinct, List.map_append, List.map_singleton]
      exact List.nodup_append.mpr ⟨h, List.nodup_singleton _, fun a ha b hb heq =>
        hroom.2 (List.mem_singleton.mp hb ▸ heq ▸ ha)⟩
    · exact h

/-- Nothing is added to a full list. -/
theorem merge_full (new : List α) (h : n ≤ l.length) : merge key n new l = l := by
  induction new with
  | nil => rfl
  | cons x new ih => rw [merge, if_neg (fun hroom => by omega), ih]

end Recent

end LowPower
