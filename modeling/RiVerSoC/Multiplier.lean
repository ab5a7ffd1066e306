/-
The product of a multiplication.

`x0_multiplier` turns the operands into five rows, `x1_multiplier` adds these to two
and `x2_multiplier` adds the two and selects a word.

* `sum_products` — the partial products add up to the product of the operands;
* `sum_process` — neither of the carry-save stages changes the sum;
* `product_eq` — with the operands and the signs that `operation` chooses, the
  64-bit product is that of the instruction;
* `multiply_eq` — what `x2_multiplier` delivers is the result of the instruction.
-/
import Mathlib.Data.List.FinRange
import RiVerSoC.CarrySave
import RiVerSoC.Decode
import RiVerSoC.X0Multiplier

namespace RiVerSoC

namespace X1Multiplier

open X0Multiplier

/-- The word `x12x2_din_sx1`: the flags and the rows of stage 8. -/
structure X12X2 where
  signedRes : Bool
  selectHigherBits : Bool
  shf : BitVec 64
  sum : BitVec 64
deriving DecidableEq, Repr, Inhabited

/-- Stage 6. -/
def csa1 (x : X02X1) : BitVec 64 × BitVec 64 := csa x.m0 x.m1 x.m2

/-- Stage 7. -/
def csa3 (x : X02X1) : BitVec 64 × BitVec 64 := csa (csa1 x).1 (csa1 x).2 x.m3

/-- Stage 8. -/
def csa4 (x : X02X1) : BitVec 64 × BitVec 64 := csa (csa3 x).1 (csa3 x).2 x.m4

/-- `fifo_concat`. -/
def fifoConcat (x : X02X1) : X12X2 where
  signedRes := x.signedRes
  selectHigherBits := x.selectHigherBits
  shf := (csa4 x).2
  sum := (csa4 x).1

end X1Multiplier

namespace X2Multiplier

open X1Multiplier

/-- The last addition. -/
def add (x : X12X2) : BitVec 64 := x.sum + x.shf

/-- `process`. -/
def process (x : X12X2) : BitVec 32 :=
  if x.selectHigherBits then (add x).extractLsb' 32 32 else (add x).extractLsb' 0 32

end X2Multiplier

namespace Multiplier

open X0Multiplier Decode

/-- The three stages on one pair of operands. -/
def multiply (i : Inputs) : BitVec 32 := X2Multiplier.process (X1Multiplier.fifoConcat (scratch i))

/-! ### Carry-save stages -/

theorem csa_sum (a b c : BitVec 64) : (csa a b c).1 + (csa a b c).2 = a + b + c :=
  CarrySave.sum_add_carries a b c

/-- A method as an adder of rows. -/
def adder (m : Csa) : CarrySave.Adder Row := ⟨m.a, m.b, m.c, m.sum, m.shf⟩

theorem driver_sum : ∀ m ∈ csas, driver m.sum = some m := by decide +kernel

theorem driver_shf : ∀ m ∈ csas, driver m.shf = some m := by decide +kernel

theorem sum_ne_shf : ∀ m ∈ csas, m.sum ≠ m.shf := by decide +kernel

/-- A method keeps the sum of its rows. -/
theorem value_adder (i : Inputs) {m : Csa} (hm : m ∈ csas) :
    net.value i m.sum + net.value i m.shf =
      net.value i m.a + net.value i m.b + net.value i m.c := by
  have hsum : net.value i m.sum =
      (csa (net.value i m.a) (net.value i m.b) (net.value i m.c)).1 := by
    refine (congrFun (net.step_value i) m.sum).symm.trans ?_
    change cell m.sum i (net.value i) = _
    unfold cell
    rw [driver_sum m hm]
    exact if_pos rfl
  have hshf : net.value i m.shf =
      (csa (net.value i m.a) (net.value i m.b) (net.value i m.c)).2 := by
    refine (congrFun (net.step_value i) m.shf).symm.trans ?_
    change cell m.shf i (net.value i) = _
    unfold cell
    rw [driver_shf m hm]
    exact if_neg (sum_ne_shf m hm)
  rw [hsum, hshf, csa_sum]

/-- The rows that `operation` writes. -/
def products : List Row := (List.finRange 32).map Row.product

/-- Each partial product enters the tree once, and the five rows of the packed word
are what is left of them. -/
theorem compressAll_products :
    CarrySave.compressAll (csas.map adder) products =
      some [.productS5 2, .productS5 3, .productS5 0, .productS5 1, .productS3 9] := by
  decide +kernel

theorem sum_scratch (i : Inputs) :
    (scratch i).m0 + (scratch i).m1 + (scratch i).m2 + (scratch i).m3 + (scratch i).m4 =
      (products.map (net.value i)).sum := by
  have hadders : ∀ a ∈ csas.map adder, net.value i a.sum + net.value i a.shf =
      net.value i a.a + net.value i a.b + net.value i a.c := by
    intro a ha
    obtain ⟨m, hm, rfl⟩ := List.mem_map.mp ha
    exact value_adder i hm
  rw [← CarrySave.sum_compressAll hadders compressAll_products]
  change net.value i (.productS5 0) + net.value i (.productS5 1) + net.value i (.productS5 2) +
    net.value i (.productS5 3) + net.value i (.productS3 9) = _
  simp only [List.map_cons, List.map_nil, List.sum_cons, List.sum_nil, add_zero]
  ac_rfl

/-- The stages of `x1_multiplier` leave the sum of the five rows. -/
theorem add_fifoConcat (x : X02X1) :
    X2Multiplier.add (X1Multiplier.fifoConcat x) = x.m0 + x.m1 + x.m2 + x.m3 + x.m4 :=
  calc (X1Multiplier.csa4 x).1 + (X1Multiplier.csa4 x).2
      = (X1Multiplier.csa3 x).1 + (X1Multiplier.csa3 x).2 + x.m4 := csa_sum _ _ _
    _ = (X1Multiplier.csa1 x).1 + (X1Multiplier.csa1 x).2 + x.m3 + x.m4 := by
        rw [X1Multiplier.csa3, csa_sum]
    _ = x.m0 + x.m1 + x.m2 + x.m3 + x.m4 := by rw [X1Multiplier.csa1, csa_sum]

/-! ### Partial products -/

/-- An operand with the extension that the rows have. -/
def extend (x : BitVec 32) (signed : Bool) : BitVec 64 :=
  if signed then x.signExtend 64 else x.setWidth 64

theorem getLsbD_extend (x : BitVec 32) (signed : Bool) {j : ℕ} (hj : j < 64) :
    (extend x signed).getLsbD j = if j < 32 then x.getLsbD j else signed && x.msb := by
  unfold extend
  cases signed with
  | false =>
    rw [if_neg Bool.false_ne_true, BitVec.getLsbD_setWidth, decide_eq_true hj, Bool.true_and]
    split_ifs with hlow
    · rfl
    · exact BitVec.getLsbD_of_ge x j (by omega)
  | true =>
    rw [if_pos rfl, BitVec.getLsbD_signExtend, decide_eq_true hj, Bool.true_and, Bool.true_and]

/-- Filling the bits above an operand with its sign extends it. -/
theorem extend_shiftLeft (x : BitVec 32) (signed : Bool) (k : ℕ) :
    (x.setWidth 64 <<< k ||| if signed && x.msb then BitVec.allOnes 64 <<< (k + 32) else 0) =
      extend x signed <<< k := by
  apply BitVec.eq_of_getLsbD_eq
  intro j hj
  have hfill : (if signed && x.msb then BitVec.allOnes 64 <<< (k + 32) else 0#64).getLsbD j =
      (signed && x.msb && decide (k + 32 ≤ j)) := by
    cases signed && x.msb with
    | false => rw [if_neg Bool.false_ne_true, BitVec.getLsbD_zero, Bool.false_and]
    | true =>
      rw [if_pos rfl, BitVec.getLsbD_shiftLeft, BitVec.getLsbD_allOnes, decide_eq_true hj]
      grind
  rw [BitVec.getLsbD_or, BitVec.getLsbD_shiftLeft, BitVec.getLsbD_shiftLeft,
    getLsbD_extend x signed (show j - k < 64 by omega), BitVec.getLsbD_setWidth, decide_eq_true hj]
  refine (congrArg _ hfill).trans ?_
  by_cases hlow : j < k
  · have h32 : ¬ k + 32 ≤ j := by omega
    simp [hlow, h32]
  · by_cases hmid : j - k < 32
    · have h32 : ¬ k + 32 ≤ j := by omega
      have h64 : j - k < 64 := by omega
      simp [hlow, hmid, h32, h64]
    · have h32 : k + 32 ≤ j := by omega
      simp [hlow, hmid, h32, BitVec.getLsbD_of_ge x (j - k) (by omega)]

theorem prod_eq_row (op1 op2 : BitVec 32) (signed : Bool) (k : Fin 32) :
    prod op1 op2 signed k = CarrySave.row (extend op1 signed) (op2.setWidth 64) k := by
  unfold prod CarrySave.row
  rw [extend_shiftLeft, BitVec.getLsbD_setWidth]
  have hk : decide (k.val < 64) = true := by
    rw [decide_eq_true_eq]
    omega
  rw [hk, Bool.true_and]
  rfl

theorem value_product (i : Inputs) (k : Fin 32) :
    net.value i (.product k) = prod (operands i).1 (operands i).2.1 (operands i).2.2 k := by
  have hdriver : driver (.product k) = none := by
    revert k
    decide +kernel
  refine (congrFun (net.step_value i) (.product k)).symm.trans ?_
  change cell (.product k) i (net.value i) = _
  unfold cell
  rw [hdriver]

/-- The partial products add up to the product of the operands. -/
theorem sum_products (i : Inputs) :
    (products.map (net.value i)).sum =
      extend (operands i).1 (operands i).2.2 * (operands i).2.1.setWidth 64 := by
  have hrows : products.map (net.value i) =
      (List.range 32).map (CarrySave.row (extend (operands i).1 (operands i).2.2)
        ((operands i).2.1.setWidth 64)) := by
    rw [products, List.map_map, ← List.map_coe_finRange_eq_range, List.map_map]
    refine List.map_congr_left ?_
    intro k _
    exact (value_product i k).trans (prod_eq_row _ _ _ k)
  rw [hrows, CarrySave.sum_rows, BitVec.setWidth_setWidth_of_le _ (by decide : 31 + 1 ≤ 64)]
  rfl

/-! ### The instructions -/

/-- The multiplications of RV32M. -/
inductive MulInst where
  | mul
  | mulh
  | mulhsu
  | mulhu
deriving DecidableEq, Repr

namespace MulInst

/-- The flag of `decoding_instruction`. -/
def flag : MulInst → Insts → Bool
  | mul, n => n.mul
  | mulh, n => n.mulh
  | mulhsu, n => n.mulhsu
  | mulhu, n => n.mulhu

/-- The command that DEC sends with the instruction. -/
def exeCmd : MulInst → BitVec 2
  | mul => 1
  | mulh => 2
  | mulhsu => 0
  | mulhu => 3

/-- The product of the two registers, each taken as signed or as unsigned. -/
def product : MulInst → BitVec 32 → BitVec 32 → ℤ
  | mul, op1, op2 => op1.toInt * op2.toInt
  | mulh, op1, op2 => op1.toInt * op2.toInt
  | mulhsu, op1, op2 => op1.toInt * op2.toNat
  | mulhu, op1, op2 => op1.toNat * op2.toNat

/-- The word that RV32M writes to the destination. -/
def result : MulInst → BitVec 32 → BitVec 32 → BitVec 32
  | mul, op1, op2 => BitVec.ofInt 32 (mul.product op1 op2)
  | m, op1, op2 => BitVec.ofInt 32 (m.product op1 op2 / 2 ^ 32)

end MulInst

/-- The commands are those of `decoding_instruction`. -/
theorem command_of_flag {m : MulInst} {ir : BitVec 32}
    (h : m.flag (decodingInstruction ir) = true) :
    command (decodingInstruction ir) = m.exeCmd := by
  cases m <;>
    (simp only [MulInst.flag, decodingInstruction, has7, Bool.and_eq_true, beq_iff_eq] at h
     obtain ⟨⟨hop, hf7⟩, hf3⟩ := h
     simp [command, decodingInstruction, has3, has7, hop, hf7, hf3, MulInst.exeCmd])

theorem extend_true (x : BitVec 32) : extend x true = BitVec.ofInt 64 x.toInt := rfl

theorem setWidth_eq_ofInt (x : BitVec 32) : x.setWidth 64 = BitVec.ofInt 64 x.toNat := by
  rw [BitVec.ofInt_natCast, BitVec.ofNat_toNat]

theorem extend_false (x : BitVec 32) : extend x false = BitVec.ofInt 64 x.toNat :=
  setWidth_eq_ofInt x

/-- Two's complement of a negative operand. -/
theorem toNat_not_add_one {x : BitVec 32} (h : x.msb = true) :
    ((~~~x + 1).toNat : ℤ) = -x.toInt := by
  have hmsb := BitVec.msb_eq_decide x
  rw [h] at hmsb
  have hge : 2 ^ 31 ≤ x.toNat := of_decide_eq_true hmsb.symm
  have hlt := x.isLt
  have hone : (1 : BitVec 32).toNat = 1 := rfl
  rw [BitVec.toInt_eq_msb_cond, if_pos h, BitVec.toNat_add, BitVec.toNat_not, hone]
  omega

/-- An operand that is not negative is the same number signed and unsigned. -/
theorem toInt_of_msb_false {x : BitVec 32} (h : x.msb = false) : x.toInt = x.toNat := by
  rw [BitVec.toInt_eq_msb_cond, h]
  rfl

/-- With the operands of `operation`, the product is that of the instruction. -/
theorem product_eq (m : MulInst) (op1 op2 : BitVec 32) :
    extend (operands ⟨op1, op2, m.exeCmd⟩).1 (operands ⟨op1, op2, m.exeCmd⟩).2.2 *
        (operands ⟨op1, op2, m.exeCmd⟩).2.1.setWidth 64 =
      BitVec.ofInt 64 (m.product op1 op2) := by
  have hsigned : ∀ {cmd : BitVec 2}, cmd = 2 ∨ cmd = 1 →
      extend (operands ⟨op1, op2, cmd⟩).1 (operands ⟨op1, op2, cmd⟩).2.2 *
          (operands ⟨op1, op2, cmd⟩).2.1.setWidth 64 =
        BitVec.ofInt 64 (op1.toInt * op2.toInt) := by
    intro cmd hcmd
    have hne : (cmd != 3) = true := by
      rcases hcmd with rfl | rfl <;> rfl
    simp only [operands, if_pos hcmd, hne]
    rw [BitVec.ofInt_mul]
    cases h1 : op1.msb <;> cases h2 : op2.msb <;>
      simp only [Bool.and_self, Bool.and_true, Bool.and_false, Bool.not_true,
        Bool.not_false, if_true, if_false, Bool.false_eq_true]
    · rw [extend_true, setWidth_eq_ofInt, toInt_of_msb_false h2]
    · rw [extend_true, setWidth_eq_ofInt, toInt_of_msb_false h1, mul_comm]
    · rw [extend_true, setWidth_eq_ofInt, toInt_of_msb_false h2]
    · rw [extend_false, setWidth_eq_ofInt, toNat_not_add_one h1, toNat_not_add_one h2,
        ← BitVec.ofInt_mul, ← BitVec.ofInt_mul, neg_mul_neg]
  cases m with
  | mul => exact hsigned (.inr rfl)
  | mulh => exact hsigned (.inl rfl)
  | mulhsu =>
    change extend op1 true * op2.setWidth 64 = BitVec.ofInt 64 (op1.toInt * op2.toNat)
    rw [extend_true, setWidth_eq_ofInt, BitVec.ofInt_mul]
  | mulhu =>
    change extend op1 false * op2.setWidth 64 = BitVec.ofInt 64 (op1.toNat * op2.toNat)
    rw [extend_false, setWidth_eq_ofInt, BitVec.ofInt_mul]

theorem extractLsb_low (z : ℤ) : (BitVec.ofInt 64 z).extractLsb' 0 32 = BitVec.ofInt 32 z := by
  apply BitVec.eq_of_toNat_eq
  rw [BitVec.extractLsb'_toNat, BitVec.toNat_ofInt, BitVec.toNat_ofInt]
  omega

theorem extractLsb_high (z : ℤ) :
    (BitVec.ofInt 64 z).extractLsb' 32 32 = BitVec.ofInt 32 (z / 2 ^ 32) := by
  apply BitVec.eq_of_toNat_eq
  rw [BitVec.extractLsb'_toNat, BitVec.toNat_ofInt, BitVec.toNat_ofInt, Nat.shiftRight_eq_div_pow]
  omega

theorem process_scratch (m : MulInst) (op1 op2 : BitVec 32) :
    X2Multiplier.process (X1Multiplier.fifoConcat (scratch ⟨op1, op2, m.exeCmd⟩)) =
      m.result op1 op2 := by
  have hadd : X2Multiplier.add (X1Multiplier.fifoConcat (scratch ⟨op1, op2, m.exeCmd⟩)) =
      BitVec.ofInt 64 (m.product op1 op2) := by
    rw [add_fifoConcat, sum_scratch, sum_products, product_eq]
  have hselect : (X1Multiplier.fifoConcat (scratch ⟨op1, op2, m.exeCmd⟩)).selectHigherBits =
      (m.exeCmd != 1) := rfl
  unfold X2Multiplier.process
  rw [hselect, hadd]
  cases m with
  | mul => exact extractLsb_low _
  | mulh => exact extractLsb_high _
  | mulhsu => exact extractLsb_high _
  | mulhu => exact extractLsb_high _

/-- The three stages compute every multiplication. -/
theorem multiply_eq (m : MulInst) (op1 op2 : BitVec 32) :
    multiply ⟨op1, op2, m.exeCmd⟩ = m.result op1 op2 := process_scratch m op1 op2

end Multiplier

end RiVerSoC
