/-
Words that are packed field by field.

A field is a range of bits of a word, with bounds in either order: bit `n` of its value is
`n` places above the right bound, or below it when the bounds are reversed.  Packing assigns
the fields one after another, and fails at one that is not inside the word.

* `getLsbD_write`, `getLsbD_read` — what an assignment and a read do to each bit;
* `pack_eq_some` — packing succeeds when every field is inside the word;
* `read_pack` — fields that share no bit are read back as they were assigned.
-/
import Mathlib.Tactic.SplitIfs
import RiVerSoC.BitRange

namespace BitFields

open BitRange

/-- The bits between `left` and `right`. -/
structure Range where
  left : ℕ
  right : ℕ
deriving DecidableEq, Repr

namespace Range

variable (r : Range)

def hi : ℕ := max r.left r.right

def lo : ℕ := min r.left r.right

def width : ℕ := r.hi + 1 - r.lo

/-- The bit of the word that holds bit `n` of the value. -/
def place (n : ℕ) : ℕ := if r.right ≤ r.left then r.right + n else r.right - n

/-- The bit of the value that bit `i` of the word holds. -/
def offset (i : ℕ) : ℕ := if r.right ≤ r.left then i - r.right else r.right - i

def Covers (i : ℕ) : Prop := r.lo ≤ i ∧ i ≤ r.hi

def Within (size : ℕ) : Prop := r.hi < size

def Disjoint (s : Range) : Prop := r.hi < s.lo ∨ s.hi < r.lo

instance (i : ℕ) : Decidable (r.Covers i) := inferInstanceAs (Decidable (_ ∧ _))

instance (size : ℕ) : Decidable (r.Within size) := inferInstanceAs (Decidable (_ < _))

instance (s : Range) : Decidable (r.Disjoint s) := inferInstanceAs (Decidable (_ ∨ _))

variable {r}

theorem covers_place {n : ℕ} (h : n < r.width) : r.Covers (r.place n) := by
  simp only [width, Covers, place, hi, lo] at h ⊢
  split_ifs <;> omega

theorem offset_place {n : ℕ} (h : n < r.width) : r.offset (r.place n) = n := by
  simp only [width, offset, place, hi, lo] at h ⊢
  split_ifs <;> omega

theorem not_covers_of_disjoint {s : Range} {i : ℕ} (h : r.Disjoint s) (hi : r.Covers i) :
    ¬ s.Covers i := by
  simp only [Disjoint, Covers] at h hi ⊢
  omega

end Range

/-- The ranges are inside a word and share no bit. -/
structure Layout (size : ℕ) (rs : List Range) : Prop where
  within : ∀ r ∈ rs, r.Within size
  disjoint : rs.Pairwise Range.Disjoint

/-- An assignment to a range; the value is extended by zeros, or cut, to its width. -/
structure Assign where
  range : Range
  width : ℕ
  value : BitVec width

/-- `word.range(left, right) = value`. -/
def range {n : ℕ} (left right : ℕ) (value : BitVec n) : Assign := ⟨⟨left, right⟩, n, value⟩

/-- `word[i] = b`. -/
def bit (i : ℕ) (b : Bool) : Assign := ⟨⟨i, i⟩, 1, BitVec.ofBool b⟩

variable {size : ℕ}

def Assign.write (a : Assign) (x : BitVec size) : BitVec size :=
  if a.range.right ≤ a.range.left then
    set x a.range.left a.range.right (a.value.setWidth size)
  else
    set x a.range.right a.range.left ((a.value.setWidth a.range.width).reverse.setWidth size)

/-- The assignments in order. -/
def pack (x : BitVec size) : List Assign → Option (BitVec size)
  | [] => some x
  | a :: as => if a.range.Within size then pack (a.write x) as else none

/-- `word.range(left, right)`, read as a value of `n` bits. -/
def read (x : BitVec size) (r : Range) (n : ℕ) : BitVec n :=
  if r.right ≤ r.left then (x.extractLsb' r.right r.width).setWidth n
  else (x.extractLsb' r.left r.width).reverse.setWidth n

/-- `word[i]`. -/
def readBit (x : BitVec size) (i : ℕ) : Bool := x.getLsbD i

/-! ### Bits -/

theorem getLsbD_write {a : Assign} (h : a.range.Within size) (x : BitVec size) (i : ℕ) :
    (a.write x).getLsbD i =
      if a.range.Covers i then a.value.getLsbD (a.range.offset i) else x.getLsbD i := by
  have hwithin := h
  simp only [Range.Within, Range.hi] at hwithin
  by_cases hdir : a.range.right ≤ a.range.left
  · have hcovers : a.range.Covers i ↔ a.range.right ≤ i ∧ i ≤ a.range.left := by
      simp only [Range.Covers, Range.hi, Range.lo]
      omega
    rw [Assign.write, if_pos hdir, getLsbD_set _ _ (by omega), Range.offset, if_pos hdir]
    by_cases hi : a.range.right ≤ i ∧ i ≤ a.range.left
    · rw [if_pos hi, if_pos (hcovers.mpr hi), BitVec.getLsbD_setWidth, decide_eq_true (by omega),
        Bool.true_and]
    · rw [if_neg hi, if_neg (mt hcovers.mp hi)]
  · have hcovers : a.range.Covers i ↔ a.range.left ≤ i ∧ i ≤ a.range.right := by
      simp only [Range.Covers, Range.hi, Range.lo]
      omega
    have hwidth : a.range.width = a.range.right + 1 - a.range.left := by
      simp only [Range.width, Range.hi, Range.lo]
      omega
    rw [Assign.write, if_neg hdir, getLsbD_set _ _ (by omega), Range.offset, if_neg hdir]
    by_cases hi : a.range.left ≤ i ∧ i ≤ a.range.right
    · -- bit `i - left` of the reversed value is its bit `right - i`
      rw [if_pos hi, if_pos (hcovers.mpr hi), BitVec.getLsbD_setWidth, decide_eq_true (by omega),
        Bool.true_and, BitVec.getLsbD_reverse, BitVec.getMsbD_eq_getLsbD, hwidth,
        decide_eq_true (by omega), Bool.true_and, BitVec.getLsbD_setWidth,
        decide_eq_true (by omega), Bool.true_and]
      congr 1
      omega
    · rw [if_neg hi, if_neg (mt hcovers.mp hi)]

theorem getLsbD_read (x : BitVec size) (r : Range) {n i : ℕ} (hn : i < n) :
    (read x r n).getLsbD i = (decide (i < r.width) && x.getLsbD (r.place i)) := by
  by_cases hdir : r.right ≤ r.left
  · rw [read, if_pos hdir, Range.place, if_pos hdir, BitVec.getLsbD_setWidth, decide_eq_true hn,
      Bool.true_and, BitVec.getLsbD_extractLsb']
  · rw [read, if_neg hdir, Range.place, if_neg hdir, BitVec.getLsbD_setWidth, decide_eq_true hn,
      Bool.true_and, BitVec.getLsbD_reverse, BitVec.getMsbD_eq_getLsbD]
    by_cases hi : i < r.width
    · have hplace : r.left + (r.width - 1 - i) = r.right - i := by
        simp only [Range.width, Range.hi, Range.lo] at hi ⊢
        omega
      rw [decide_eq_true hi, Bool.true_and, BitVec.getLsbD_extractLsb', decide_eq_true (by omega),
        Bool.true_and, Bool.true_and, hplace]
    · rw [decide_eq_false hi, Bool.false_and, Bool.false_and]

/-! ### Packing -/

theorem pack_eq_some {as : List Assign} :
    ∀ {x : BitVec size}, (∀ a ∈ as, a.range.Within size) → ∃ y, pack x as = some y := by
  induction as with
  | nil =>
    intro x _
    exact ⟨x, rfl⟩
  | cons a as ih =>
    intro x h
    obtain ⟨y, hy⟩ := ih (x := a.write x) fun b hb => h b (List.mem_cons_of_mem a hb)
    exact ⟨y, by rw [pack, if_pos (h a List.mem_cons_self), hy]⟩

theorem Layout.pack_eq_some {as : List Assign} (h : Layout size (as.map Assign.range)) :
    ∃ y : BitVec size, pack 0 as = some y :=
  BitFields.pack_eq_some fun a ha => h.within a.range (List.mem_map_of_mem ha)

/-- A bit that no field covers. -/
theorem getLsbD_pack_of_not_covers {as : List Assign} {i : ℕ} :
    ∀ {x y : BitVec size}, pack x as = some y → (∀ a ∈ as, ¬ a.range.Covers i) →
      y.getLsbD i = x.getLsbD i := by
  induction as with
  | nil =>
    intro x y hy _
    rw [Option.some.inj hy]
  | cons a as ih =>
    intro x y hy h
    rw [pack] at hy
    split_ifs at hy with hin
    rw [ih hy fun b hb => h b (List.mem_cons_of_mem a hb), getLsbD_write hin,
      if_neg (h a List.mem_cons_self)]

/-- A bit of one of several disjoint fields: no later assignment touches it. -/
theorem getLsbD_pack {as : List Assign} {a : Assign} {i : ℕ} (hi : a.range.Covers i) :
    ∀ {x y : BitVec size}, pack x as = some y →
      as.Pairwise (fun a b => a.range.Disjoint b.range) → a ∈ as →
      y.getLsbD i = a.value.getLsbD (a.range.offset i) := by
  induction as with
  | nil =>
    intro x y _ _ ha
    exact absurd ha List.not_mem_nil
  | cons b as ih =>
    intro x y hy hdisjoint ha
    obtain ⟨hb, hrest⟩ := List.pairwise_cons.mp hdisjoint
    rw [pack] at hy
    split_ifs at hy with hin
    rcases List.mem_cons.mp ha with rfl | ha
    · rw [getLsbD_pack_of_not_covers hy fun c hc => Range.not_covers_of_disjoint (hb c hc) hi,
        getLsbD_write hin, if_pos hi]
    · exact ih hy hrest ha

/-- A value that fits its range is read back. -/
theorem read_pack {as : List Assign} {x y : BitVec size} (hy : pack x as = some y)
    (h : (as.map Assign.range).Pairwise Range.Disjoint) {a : Assign} (ha : a ∈ as)
    (hfits : a.value.toNat < 2 ^ a.range.width) : read y a.range a.width = a.value := by
  apply BitVec.eq_of_getLsbD_eq
  intro i hi
  rw [getLsbD_read y a.range hi]
  by_cases hir : i < a.range.width
  · rw [decide_eq_true hir, Bool.true_and,
      getLsbD_pack (Range.covers_place hir) hy (List.pairwise_map.mp h) ha, Range.offset_place hir]
  · have hlow : a.value.toNat < 2 ^ i :=
      Nat.lt_of_lt_of_le hfits (Nat.pow_le_pow_right (by decide) (Nat.le_of_not_lt hir))
    rw [decide_eq_false hir, Bool.false_and, BitVec.getLsbD, Nat.testBit_lt_two_pow hlow]

theorem readBit_pack {as : List Assign} {x y : BitVec size} (hy : pack x as = some y)
    (h : (as.map Assign.range).Pairwise Range.Disjoint) {i : ℕ} {b : Bool} (ha : bit i b ∈ as) :
    readBit y i = b := by
  have hcovers : (bit i b).range.Covers i := ⟨Nat.min_le_left i i, Nat.le_max_left i i⟩
  rw [readBit, getLsbD_pack hcovers hy (List.pairwise_map.mp h) ha]
  simp [bit, Range.offset]

end BitFields
