import Mathlib.Algebra.Group.Int.Defs
import Mathlib.Algebra.GroupWithZero.Nat

/-!
# Indices that are in bounds

A vector of length `n` is indexed by `Fin n` without a side condition: statements about `v[i]`
carry no proof of a bound, and `getElem_fin` gives the plain access back.
-/

namespace LowPower

variable {α : Type*} {n : ℕ}

instance (priority := high) instGetElemFin : GetElem (Vector α n) (Fin n) α fun _ _ => True where
  getElem v i _ := v.get i

@[simp]
theorem getElem_fin (v : Vector α n) (i : Fin n) : v[i] = v[i.val] := rfl

end LowPower
