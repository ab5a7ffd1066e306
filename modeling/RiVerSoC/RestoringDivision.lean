/-
Restoring division of natural numbers.

A divider that shifts its divisor down holds, before the weight `m` is tried, the
quotient and the remainder of the dividend by `2 * m`.  One comparison turns them
into those by `m`:

* `halve_of_lt` — the weight does not fit: a 0 enters the quotient;
* `halve_of_le` — it fits: a 1 enters, and the weight is subtracted.
-/
import Mathlib.Data.Nat.Init
import Mathlib.Tactic.Ring

namespace RestoringDivision

variable {a m : ℕ}

theorem halve_of_lt (hm : 0 < m) (h : a % (2 * m) < m) :
    a / m = 2 * (a / (2 * m)) ∧ a % m = a % (2 * m) := by
  rw [Nat.div_mod_unique hm]
  refine ⟨?_, h⟩
  calc a % (2 * m) + m * (2 * (a / (2 * m)))
      = a % (2 * m) + 2 * m * (a / (2 * m)) := by ring
    _ = a := Nat.mod_add_div a (2 * m)

theorem halve_of_le (hm : 0 < m) (h : m ≤ a % (2 * m)) :
    a / m = 2 * (a / (2 * m)) + 1 ∧ a % m = a % (2 * m) - m := by
  have hlt : a % (2 * m) < 2 * m := Nat.mod_lt a (by omega)
  rw [Nat.div_mod_unique hm]
  refine ⟨?_, by omega⟩
  calc a % (2 * m) - m + m * (2 * (a / (2 * m)) + 1)
      = (a % (2 * m) - m + m) + 2 * m * (a / (2 * m)) := by ring
    _ = a % (2 * m) + 2 * m * (a / (2 * m)) := by rw [Nat.sub_add_cancel h]
    _ = a := Nat.mod_add_div a (2 * m)

end RestoringDivision
