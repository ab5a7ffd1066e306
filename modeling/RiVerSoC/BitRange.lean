/-
Bit ranges of machine words.

`get x hi lo` reads the bits `lo … hi` of a word and `set x hi lo v` replaces
them by the low bits of `v`, both with bounds that may be computed at run time.
Bits are the interface: `getLsbD_get` and `getLsbD_set` say what each bit of the
result is, and

* `extractLsb'_set`, `extractLsb'_set_of_disjoint` — what a field reads after another one, or
  itself, was written;
* `set_fill_get` — a word filled with one bit into whose low bits a field is
  copied is the extension of that field;
* `extend_inj` — two fields have the same extension only when they are equal.
-/
import Mathlib.Algebra.Group.Nat.Defs

namespace BitRange

variable {w : ℕ}

/-- The word whose low `n` bits are set. -/
def ones (w n : ℕ) : BitVec w := BitVec.ofNat w (2 ^ n - 1)

@[simp] theorem getLsbD_ones (n i : ℕ) :
    (ones w n).getLsbD i = (decide (i < w) && decide (i < n)) := by
  simp [ones, BitVec.getLsbD_ofNat, Nat.testBit_two_pow_sub_one]

@[simp] theorem getElem_ones {n i : ℕ} (hi : i < w) : (ones w n)[i] = decide (i < n) := by
  rw [← BitVec.getLsbD_eq_getElem, getLsbD_ones, decide_eq_true hi, Bool.true_and]

/-- The bits `lo … hi` of `x`, moved down to bit 0. -/
def get (x : BitVec w) (hi lo : ℕ) : BitVec w := (x >>> lo) &&& ones w (hi + 1 - lo)

@[simp] theorem getLsbD_get (x : BitVec w) (hi lo i : ℕ) :
    (get x hi lo).getLsbD i = (decide (lo + i ≤ hi) && x.getLsbD (lo + i)) := by
  by_cases hx : x.getLsbD (lo + i)
  · have hw : lo + i < w := BitVec.lt_of_getLsbD hx
    rw [Bool.eq_iff_iff]
    simp [get, hx]
    omega
  · simp [get, hx]

/-- `x` with its bits `lo … hi` replaced by the low bits of `v`. -/
def set (x : BitVec w) (hi lo : ℕ) (v : BitVec w) : BitVec w :=
  (x &&& ~~~(ones w (hi + 1 - lo) <<< lo)) ||| ((v &&& ones w (hi + 1 - lo)) <<< lo)

theorem getLsbD_set (x v : BitVec w) {hi lo i : ℕ} (hw : hi < w) :
    (set x hi lo v).getLsbD i =
      if lo ≤ i ∧ i ≤ hi then v.getLsbD (i - lo) else x.getLsbD i := by
  by_cases hiw : i < w
  · by_cases hlo : lo ≤ i
    · have hlt : ¬ i < lo := Nat.not_lt.mpr hlo
      by_cases hhi : i ≤ hi
      · simp [set, hiw, hlo, hhi, hlt, show i - lo < w by omega,
          show i - lo < hi + 1 - lo by omega]
      · simp [set, hiw, hlo, hhi, hlt, show ¬ i - lo < hi + 1 - lo by omega]
    · simp [set, hiw, hlo, show i < lo by omega]
  · have hnot : ¬ (lo ≤ i ∧ i ≤ hi) := by omega
    rw [if_neg hnot, BitVec.getLsbD_of_ge _ _ (by omega), BitVec.getLsbD_of_ge _ _ (by omega)]

/-- A field next to the bits that are replaced. -/
theorem extractLsb'_set_of_disjoint (x v : BitVec w) {hi lo start n : ℕ} (hw : hi < w)
    (h : start + n ≤ lo ∨ hi < start) :
    (set x hi lo v).extractLsb' start n = x.extractLsb' start n := by
  apply BitVec.eq_of_getLsbD_eq
  intro i hin
  have hnot : ¬ (lo ≤ start + i ∧ start + i ≤ hi) := by omega
  rw [BitVec.getLsbD_extractLsb', BitVec.getLsbD_extractLsb', getLsbD_set x v hw, if_neg hnot]

/-- The field that is replaced. -/
theorem extractLsb'_set (x : BitVec w) {hi lo n : ℕ} (v : BitVec n) (hw : hi < w)
    (h : hi + 1 = lo + n) : (set x hi lo (v.setWidth w)).extractLsb' lo n = v := by
  apply BitVec.eq_of_getLsbD_eq
  intro i hin
  have hrange : lo ≤ lo + i ∧ lo + i ≤ hi := by omega
  rw [BitVec.getLsbD_extractLsb', getLsbD_set _ _ hw, if_pos hrange, Nat.add_sub_cancel_left,
    BitVec.getLsbD_setWidth, decide_eq_true hin, decide_eq_true (by omega), Bool.true_and,
    Bool.true_and]

/-- `x` with bit `i` replaced. -/
def setBit (x : BitVec w) (i : ℕ) (b : Bool) : BitVec w :=
  set x i i ((BitVec.ofBool b).setWidth w)

theorem getLsbD_set_of_disjoint (x v : BitVec w) {hi lo i : ℕ} (hw : hi < w)
    (h : i < lo ∨ hi < i) : (set x hi lo v).getLsbD i = x.getLsbD i := by
  rw [getLsbD_set x v hw, if_neg (by omega)]

theorem getLsbD_setBit (x : BitVec w) (b : Bool) {i : ℕ} (hw : i < w) :
    (setBit x i b).getLsbD i = b := by
  rw [setBit, getLsbD_set _ _ hw, if_pos ⟨Nat.le_refl i, Nat.le_refl i⟩, Nat.sub_self,
    BitVec.getLsbD_setWidth, decide_eq_true (by omega), Bool.true_and]
  cases b <;> rfl

theorem getLsbD_setBit_of_ne (x : BitVec w) (b : Bool) {i j : ℕ} (hw : i < w) (h : j ≠ i) :
    (setBit x i b).getLsbD j = x.getLsbD j :=
  getLsbD_set_of_disjoint x _ hw (by omega)

theorem extractLsb'_setBit_of_disjoint (x : BitVec w) (b : Bool) {i start n : ℕ} (hw : i < w)
    (h : start + n ≤ i ∨ i < start) :
    (setBit x i b).extractLsb' start n = x.extractLsb' start n :=
  extractLsb'_set_of_disjoint x _ hw h

/-- A field whose low bit is replaced. -/
theorem extractLsb'_setBit (x : BitVec w) (b : Bool) {i n : ℕ} (hw : i < w) (hn : 0 < n) :
    (setBit x i b).extractLsb' i n = setBit (x.extractLsb' i n) 0 b := by
  apply BitVec.eq_of_getLsbD_eq
  intro j hj
  rw [BitVec.getLsbD_extractLsb', decide_eq_true hj, Bool.true_and]
  by_cases h0 : j = 0
  · rw [h0, Nat.add_zero, getLsbD_setBit x b hw, getLsbD_setBit _ b hn]
  · rw [getLsbD_setBit_of_ne x b hw (by omega), getLsbD_setBit_of_ne _ b hn h0,
      BitVec.getLsbD_extractLsb', decide_eq_true hj, Bool.true_and]

/-- A field of `n` bits, sign- or zero-extended to a word. -/
def extend (w : ℕ) (signed : Bool) {n : ℕ} (x : BitVec n) : BitVec w :=
  if signed then x.signExtend w else x.setWidth w

theorem getLsbD_extend (signed : Bool) {n : ℕ} (x : BitVec n) (i : ℕ) :
    (extend w signed x).getLsbD i =
      (decide (i < w) && if i < n then x.getLsbD i else signed && x.getLsbD (n - 1)) := by
  cases signed with
  | false =>
    by_cases hi : i < n
    · simp [extend, hi]
    · simp [extend, hi, BitVec.getLsbD_of_ge x i (Nat.not_lt.mp hi)]
  | true => simp [extend, BitVec.getLsbD_signExtend, BitVec.msb_eq_getLsbD_last]

theorem extend_inj {signed : Bool} {n : ℕ} (hn : n ≤ w) {x y : BitVec n} :
    extend w signed x = extend w signed y ↔ x = y := by
  constructor
  · intro h
    apply BitVec.eq_of_getLsbD_eq
    intro i hi
    have hbit := congrArg (fun z => z.getLsbD i) h
    simpa only [getLsbD_extend, if_pos hi, decide_eq_true (Nat.lt_of_lt_of_le hi hn),
      Bool.true_and] using hbit
  · rintro rfl
    rfl

/-- Filling a word with one bit and copying a field of `n` bits into its low bits
extends the field. -/
theorem set_fill_get {n lo : ℕ} (hn : 0 < n) (hlo : lo + n ≤ w) (signed : Bool) (x : BitVec w) :
    set (if signed && x.getLsbD (lo + n - 1) then BitVec.allOnes w else 0) (n - 1) 0
        (get x (lo + n - 1) lo) =
      extend w signed (x.extractLsb' lo n) := by
  have hlast : lo + (n - 1) = lo + n - 1 := by omega
  apply BitVec.eq_of_getLsbD_eq
  intro i hi
  rw [getLsbD_set _ _ (by omega), getLsbD_extend, decide_eq_true hi, Bool.true_and]
  by_cases hin : i < n
  · rw [if_pos (by omega), if_pos hin, getLsbD_get, BitVec.getLsbD_extractLsb', Nat.sub_zero,
      decide_eq_true hin, decide_eq_true (by omega)]
  · rw [if_neg (by omega), if_neg hin, BitVec.getLsbD_extractLsb', hlast,
      decide_eq_true (by omega), Bool.true_and]
    cases hs : signed && x.getLsbD (lo + n - 1)
    · exact BitVec.getLsbD_zero
    · exact (BitVec.getLsbD_allOnes).trans (decide_eq_true hi)

end BitRange
