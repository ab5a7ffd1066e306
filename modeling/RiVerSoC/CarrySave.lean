/-
Carry-save addition.

A heap holds the rows that are still to be added.  An adder takes three of them out
and puts two back, their bitwise sum and their carries; the sum of the heap stays
what it was.

* `sum_add_carries` — the two words of an adder have the sum of its three;
* `sum_compressAll` — a sequence of adders keeps the sum of the heap;
* `sum_rows` — the rows of a product of two words add up to the product.
-/
import Mathlib.Algebra.BigOperators.Group.List.Basic
import Mathlib.Data.BitVec
import Mathlib.Data.List.Perm.Subperm

namespace CarrySave

/-! ### One adder -/

theorem xor_mod_two (a b : ℕ) : (a ^^^ b) % 2 = (a + b) % 2 := by
  have hiff := Nat.xor_mod_two_eq_one (a := a) (b := b)
  omega

theorem and_mod_two (a b : ℕ) : (a &&& b) % 2 = a % 2 * (b % 2) := by
  have hiff := Nat.and_mod_two_eq_one (a := a) (b := b)
  rcases Nat.mod_two_eq_zero_or_one a with ha | ha
  · rw [ha, Nat.zero_mul]
    omega
  · rw [ha, Nat.one_mul]
    omega

/-- A half adder. -/
theorem xor_add_two_mul_and (a b : ℕ) : (a ^^^ b) + 2 * (a &&& b) = a + b := by
  induction a using Nat.strongRecOn generalizing b with
  | ind a ih =>
    rcases Nat.eq_zero_or_pos a with rfl | ha
    · rw [Nat.zero_xor, Nat.zero_and, Nat.mul_zero, Nat.add_comm]
    · have hdiv := ih (a / 2) (by omega) (b / 2)
      rw [← Nat.xor_div_two, ← Nat.and_div_two] at hdiv
      have hxor := xor_mod_two a b
      have hand := and_mod_two a b
      rcases Nat.mod_two_eq_zero_or_one a with ha' | ha'
      · rw [ha', Nat.zero_mul] at hand
        omega
      · rw [ha', Nat.one_mul] at hand
        omega

variable {w : ℕ}

theorem xor_add_and_shiftLeft (a b : BitVec w) : (a ^^^ b) + (a &&& b) <<< 1 = a + b := by
  apply BitVec.eq_of_toNat_eq
  rw [BitVec.toNat_add, BitVec.toNat_shiftLeft, BitVec.toNat_xor, BitVec.toNat_and,
    BitVec.toNat_add, Nat.shiftLeft_eq, pow_one, Nat.mul_comm, Nat.add_mod_mod,
    xor_add_two_mul_and]

/-- The carries of an adder: where two of the three rows have a bit. -/
theorem sum_add_carries (a b c : BitVec w) :
    (a ^^^ b ^^^ c) + ((a &&& b) ||| ((a ^^^ b) &&& c)) <<< 1 = a + b + c := by
  have hdisjoint : (a &&& b) &&& ((a ^^^ b) &&& c) = 0#w := by
    ext i
    simp only [BitVec.getElem_and, BitVec.getElem_xor, BitVec.getElem_zero]
    cases a[i] <;> cases b[i] <;> rfl
  rw [← BitVec.add_eq_or_of_and_eq_zero _ _ hdisjoint, BitVec.shiftLeft_add_distrib]
  calc (a ^^^ b ^^^ c) + ((a &&& b) <<< 1 + ((a ^^^ b) &&& c) <<< 1)
      = (a &&& b) <<< 1 + ((a ^^^ b ^^^ c) + ((a ^^^ b) &&& c) <<< 1) := by ac_rfl
    _ = (a &&& b) <<< 1 + ((a ^^^ b) + c) := by rw [xor_add_and_shiftLeft]
    _ = ((a ^^^ b) + (a &&& b) <<< 1) + c := by ac_rfl
    _ = a + b + c := by rw [xor_add_and_shiftLeft]

/-! ### Heaps -/

/-- Three rows and the two that replace them. -/
structure Adder (R : Type*) where
  a : R
  b : R
  c : R
  sum : R
  shf : R

section Heap

variable {R V : Type*} [DecidableEq R] [AddCommMonoid V]

/-- The rows of an adder are taken out of the heap, if they are there, and its results
put in. -/
def compress (m : Adder R) (h : List R) : Option (List R) :=
  if ∀ r ∈ [m.a, m.b, m.c], [m.a, m.b, m.c].count r ≤ h.count r then
    some (m.sum :: m.shf :: h.diff [m.a, m.b, m.c])
  else none

def compressAll : List (Adder R) → List R → Option (List R)
  | [], h => some h
  | m :: ms, h => (compress m h).bind (compressAll ms)

variable {ρ : R → V}

theorem sum_compress {m : Adder R} (hm : ρ m.sum + ρ m.shf = ρ m.a + ρ m.b + ρ m.c)
    {h h' : List R} (hc : compress m h = some h') : (h'.map ρ).sum = (h.map ρ).sum := by
  unfold compress at hc
  split_ifs at hc with hin
  obtain rfl := Option.some.inj hc
  have hperm := List.subperm_append_diff_self_of_count_le hin
  rw [← (hperm.map ρ).sum_eq, List.map_append, List.sum_append, List.map_cons, List.map_cons,
    List.sum_cons, List.sum_cons, ← add_assoc, hm]
  simp [add_assoc]

/-- A sequence of adders keeps the sum of the heap. -/
theorem sum_compressAll {ms : List (Adder R)}
    (hms : ∀ m ∈ ms, ρ m.sum + ρ m.shf = ρ m.a + ρ m.b + ρ m.c) :
    ∀ {h h' : List R}, compressAll ms h = some h' → (h'.map ρ).sum = (h.map ρ).sum := by
  induction ms with
  | nil =>
    intro h h' hc
    rw [Option.some.inj hc]
  | cons m ms ih =>
    intro h h' hc
    obtain ⟨g, hg, hrest⟩ := Option.bind_eq_some_iff.mp hc
    rw [ih (fun n hn => hms n (List.mem_cons_of_mem m hn)) hrest]
    exact sum_compress (hms m List.mem_cons_self) hg

end Heap

/-! ### Partial products -/

/-- The row of bit `k`. -/
def row (x y : BitVec w) (k : ℕ) : BitVec w := if y.getLsbD k then x <<< k else 0#w

theorem sum_range_rows (x y : BitVec w) (s : ℕ) :
    ((List.range (s + 1)).map (row x y)).sum = x.mulRec y s := by
  induction s with
  | zero => simp [row, BitVec.mulRec_zero_eq]
  | succ s ih =>
    rw [List.range_succ, List.map_append, List.sum_append, ih, BitVec.mulRec_succ_eq]
    simp [row]

/-- The rows of the low `s + 1` bits add up to the product by them. -/
theorem sum_rows (x y : BitVec w) (s : ℕ) :
    ((List.range (s + 1)).map (row x y)).sum = x * (y.setWidth (s + 1)).setWidth w := by
  rw [sum_range_rows, BitVec.mulRec_eq_mul_signExtend_setWidth]

end CarrySave
