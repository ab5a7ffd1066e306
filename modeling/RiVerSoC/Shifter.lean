/-
The two shifters.

CORE writes a shift out, a case for each amount; the small core makes it of a logical shift and a
shifted fill.

* `shifterSll_eq`, `shifterSr_eq` — the cases of CORE are the shifts;
* `Mini.shifterSr_eq` — the fill of the small core does not ask for the sign;
* `agree_iff` — so the two agree just where that does not matter.
-/
import RiVerSoC.BitRange
import RiVerSoC.MiniPipeline

namespace RiVerSoC

namespace Shifter

open BitRange

/-- The shifts of the instruction set. -/
inductive Shift
  | sll
  | srl
  | sra
deriving DecidableEq, Repr

/-- `CMD_SE`. -/
def Shift.cmd : Shift → BitVec 2
  | .sll => 0
  | .srl => 1
  | .sra => 2

def Shift.result (c : Shift) (din : BitVec 32) (amount : BitVec 5) : BitVec 32 :=
  match c with
  | .sll => din <<< amount.toNat
  | .srl => din >>> amount.toNat
  | .sra => din.sshiftRight amount.toNat

/-! ### The shifter of CORE -/

/-- The ranges of one case: where bits of `din` go and which ones these are, and the other bits. -/
structure Ranges where
  dst : ℕ × ℕ
  src : ℕ × ℕ
  fill : ℕ × ℕ
deriving DecidableEq, Repr

/-- The cases of `shifter_sll` from 1 on. -/
def sllCases : List Ranges :=
  [⟨(31, 1), (30, 0), (0, 0)⟩, ⟨(31, 2), (29, 0), (1, 0)⟩, ⟨(31, 3), (28, 0), (2, 0)⟩,
    ⟨(31, 4), (27, 0), (3, 0)⟩, ⟨(31, 5), (26, 0), (4, 0)⟩, ⟨(31, 6), (25, 0), (5, 0)⟩,
    ⟨(31, 7), (24, 0), (6, 0)⟩, ⟨(31, 8), (23, 0), (7, 0)⟩, ⟨(31, 9), (22, 0), (8, 0)⟩,
    ⟨(31, 10), (21, 0), (9, 0)⟩, ⟨(31, 11), (20, 0), (10, 0)⟩, ⟨(31, 12), (19, 0), (11, 0)⟩,
    ⟨(31, 13), (18, 0), (12, 0)⟩, ⟨(31, 14), (17, 0), (13, 0)⟩, ⟨(31, 15), (16, 0), (14, 0)⟩,
    ⟨(31, 16), (15, 0), (15, 0)⟩, ⟨(31, 17), (14, 0), (16, 0)⟩, ⟨(31, 18), (13, 0), (17, 0)⟩,
    ⟨(31, 19), (12, 0), (18, 0)⟩, ⟨(31, 20), (11, 0), (19, 0)⟩, ⟨(31, 21), (10, 0), (20, 0)⟩,
    ⟨(31, 22), (9, 0), (21, 0)⟩, ⟨(31, 23), (8, 0), (22, 0)⟩, ⟨(31, 24), (7, 0), (23, 0)⟩,
    ⟨(31, 25), (6, 0), (24, 0)⟩, ⟨(31, 26), (5, 0), (25, 0)⟩, ⟨(31, 27), (4, 0), (26, 0)⟩,
    ⟨(31, 28), (3, 0), (27, 0)⟩, ⟨(31, 29), (2, 0), (28, 0)⟩, ⟨(31, 30), (1, 0), (29, 0)⟩,
    ⟨(31, 31), (0, 0), (30, 0)⟩]

/-- The cases of `shifter_sr` from 1 on. -/
def srCases : List Ranges :=
  [⟨(30, 0), (31, 1), (31, 31)⟩, ⟨(29, 0), (31, 2), (31, 30)⟩, ⟨(28, 0), (31, 3), (31, 29)⟩,
    ⟨(27, 0), (31, 4), (31, 28)⟩, ⟨(26, 0), (31, 5), (31, 27)⟩, ⟨(25, 0), (31, 6), (31, 26)⟩,
    ⟨(24, 0), (31, 7), (31, 25)⟩, ⟨(23, 0), (31, 8), (31, 24)⟩, ⟨(22, 0), (31, 9), (31, 23)⟩,
    ⟨(21, 0), (31, 10), (31, 22)⟩, ⟨(20, 0), (31, 11), (31, 21)⟩, ⟨(19, 0), (31, 12), (31, 20)⟩,
    ⟨(18, 0), (31, 13), (31, 19)⟩, ⟨(17, 0), (31, 14), (31, 18)⟩, ⟨(16, 0), (31, 15), (31, 17)⟩,
    ⟨(15, 0), (31, 16), (31, 16)⟩, ⟨(14, 0), (31, 17), (31, 15)⟩, ⟨(13, 0), (31, 18), (31, 14)⟩,
    ⟨(12, 0), (31, 19), (31, 13)⟩, ⟨(11, 0), (31, 20), (31, 12)⟩, ⟨(10, 0), (31, 21), (31, 11)⟩,
    ⟨(9, 0), (31, 22), (31, 10)⟩, ⟨(8, 0), (31, 23), (31, 9)⟩, ⟨(7, 0), (31, 24), (31, 8)⟩,
    ⟨(6, 0), (31, 25), (31, 7)⟩, ⟨(5, 0), (31, 26), (31, 6)⟩, ⟨(4, 0), (31, 27), (31, 5)⟩,
    ⟨(3, 0), (31, 28), (31, 4)⟩, ⟨(2, 0), (31, 29), (31, 3)⟩, ⟨(1, 0), (31, 30), (31, 2)⟩,
    ⟨(0, 0), (31, 31), (31, 1)⟩]

def shifterSll (din : BitVec 32) (shiftVal : BitVec 5) : BitVec 32 :=
  match shiftVal.toNat with
  | 0 => set 0 31 0 (get din 31 0)
  | k + 1 =>
    match sllCases[k]? with
    | some r => set (set 0 r.dst.1 r.dst.2 (get din r.src.1 r.src.2)) r.fill.1 r.fill.2 0
    | none => 0

def shifterSr (din : BitVec 32) (shiftVal : BitVec 5) (sra : Bool) : BitVec 32 :=
  let shiftin : BitVec 32 := if sra && din.getLsbD 31 then 0xFFFFFFFF else 0
  match shiftVal.toNat with
  | 0 => set 0 31 0 (get din 31 0)
  | k + 1 =>
    match srCases[k]? with
    | some r =>
      set (set 0 r.fill.1 r.fill.2 (get shiftin r.fill.1 r.fill.2)) r.dst.1 r.dst.2
        (get din r.src.1 r.src.2)
    | none => 0

/-- `DOUT_SE`, with the signals of `decode_cmd`. -/
def dout (cmd : BitVec 2) (din : BitVec 32) (shiftVal : BitVec 5) : BitVec 32 :=
  if (Exe.decodeCmd cmd).1 then shifterSll din shiftVal
  else shifterSr din shiftVal (Exe.decodeCmd cmd).2.2

theorem sllCases_get : ∀ k < 31, sllCases[k]? = some ⟨(31, k + 1), (30 - k, 0), (k, 0)⟩ := by
  decide

theorem srCases_get : ∀ k < 31, srCases[k]? = some ⟨(30 - k, 0), (31, k + 1), (31, 31 - k)⟩ := by
  decide

variable (din : BitVec 32) (shiftVal : BitVec 5)

/-- Case 0 copies. -/
theorem set_get_all : set 0 31 0 (get din 31 0) = din := by
  apply BitVec.eq_of_getLsbD_eq
  intro i hi
  rw [getLsbD_set _ _ (by decide), if_pos (by omega), getLsbD_get, Nat.zero_add, Nat.sub_zero,
    decide_eq_true (by omega), Bool.true_and]

theorem shifterSll_eq : shifterSll din shiftVal = din <<< shiftVal.toNat := by
  have hlt := shiftVal.isLt
  rw [shifterSll]
  generalize shiftVal.toNat = n at hlt ⊢
  cases n with
  | zero => exact (set_get_all din).trans (BitVec.shiftLeft_zero din).symm
  | succ k =>
    dsimp only
    rw [sllCases_get k (by omega)]
    dsimp only
    apply BitVec.eq_of_getLsbD_eq
    intro i hi
    rw [getLsbD_set _ _ (by omega), getLsbD_set _ _ (by omega), BitVec.getLsbD_shiftLeft,
      decide_eq_true hi, Bool.true_and]
    -- the zeros that come in, and the bits of `din` above them
    by_cases hik : i < k + 1
    · rw [if_pos (by omega), decide_eq_true hik]
      exact BitVec.getLsbD_zero
    · rw [if_neg (by omega), if_pos (by omega), getLsbD_get, decide_eq_false hik, Nat.zero_add,
        decide_eq_true (by omega)]
      rfl

/-- The bits of a shift to the right: those of `din`, and above them the fill. -/
theorem getLsbD_shifterSr (sra : Bool) {i : ℕ} (hi : i < 32) :
    (shifterSr din shiftVal sra).getLsbD i =
      if shiftVal.toNat + i < 32 then din.getLsbD (shiftVal.toNat + i) else sra && din.msb := by
  have hlt := shiftVal.isLt
  rw [shifterSr]
  generalize shiftVal.toNat = n at hlt ⊢
  cases n with
  | zero =>
    dsimp only
    rw [set_get_all, if_pos (by omega), Nat.zero_add]
  | succ k =>
    dsimp only
    rw [srCases_get k (by omega)]
    dsimp only
    rw [getLsbD_set _ _ (by omega), getLsbD_set _ _ (by omega)]
    by_cases hik : k + 1 + i < 32
    · rw [if_pos (by omega), if_pos hik, getLsbD_get, Nat.sub_zero, decide_eq_true (by omega),
        Bool.true_and]
    · rw [if_neg (by omega), if_pos (by omega), if_neg hik, getLsbD_get, decide_eq_true (by omega),
        Bool.true_and, BitVec.msb_eq_getLsbD_last]
      cases sra && din.getLsbD 31 with
      | true =>
        rw [if_pos rfl, show (0xFFFFFFFF : BitVec 32) = BitVec.allOnes 32 from rfl,
          BitVec.getLsbD_allOnes, decide_eq_true (by omega)]
      | false => exact BitVec.getLsbD_zero

theorem shifterSr_eq (sra : Bool) : shifterSr din shiftVal sra =
    if sra then din.sshiftRight shiftVal.toNat else din >>> shiftVal.toNat := by
  apply BitVec.eq_of_getLsbD_eq
  intro i hi
  rw [getLsbD_shifterSr din shiftVal sra hi]
  cases sra with
  | true => rw [if_pos rfl, BitVec.getLsbD_sshiftRight, decide_eq_false (by omega)]; rfl
  | false =>
    rw [if_neg Bool.false_ne_true, BitVec.getLsbD_ushiftRight]
    split_ifs with hin
    · rfl
    · exact (BitVec.getLsbD_of_ge din _ (by omega)).symm

/-- The shifter of CORE computes the shifts of the instruction set. -/
theorem dout_eq (c : Shift) : dout c.cmd din shiftVal = c.result din shiftVal := by
  cases c with
  | sll => exact shifterSll_eq din shiftVal
  | srl => exact shifterSr_eq din shiftVal false
  | sra => exact shifterSr_eq din shiftVal true

/-- EXE is modelled with the shifts for the cases. -/
theorem exe_shifter_eq (sra : Bool) : Exe.shifterSll din shiftVal = shifterSll din shiftVal ∧
    Exe.shifterSr din shiftVal sra = shifterSr din shiftVal sra := by
  refine ⟨(shifterSll_eq din shiftVal).symm, ?_⟩
  rw [shifterSr_eq, Exe.shifterSr]
  cases sra with
  | false => rfl
  | true =>
    rw [if_pos rfl]
    cases hmsb : din.msb with
    | true => rfl
    | false => exact (BitVec.sshiftRight_eq_of_msb_false hmsb).symm

end Shifter

/-! ### The shifter of the small core -/

namespace Mini

namespace Shifter

open RiVerSoC.Shifter (Shift)

/-- `sll_dout_se`; the kernel shifts in 64 bits. -/
def shifterSll (din : BitVec 32) (shiftVal : BitVec 5) : BitVec 32 :=
  (din.setWidth 64 <<< shiftVal.toNat).setWidth 32

/-- `sr_dout_se`. -/
def shifterSr (cmd : BitVec 2) (din : BitVec 32) (shiftVal : BitVec 5) : BitVec 32 :=
  let shiftin : BitVec 32 := if cmd = 2 then 0xFFFFFFFF else 0
  (din.setWidth 64 >>> shiftVal.toNat ||| shiftin.setWidth 64 <<< (32 - shiftVal.toNat)).setWidth 32

/-- `DOUT_SE`. -/
def dout (cmd : BitVec 2) (din : BitVec 32) (shiftVal : BitVec 5) : BitVec 32 :=
  if cmd = 0 then shifterSll din shiftVal else shifterSr cmd din shiftVal

variable (din : BitVec 32) (shiftVal : BitVec 5)

theorem shifterSll_eq : shifterSll din shiftVal = din <<< shiftVal.toNat := by
  apply BitVec.eq_of_getLsbD_eq
  intro i hi
  rw [shifterSll, BitVec.getLsbD_setWidth, BitVec.getLsbD_shiftLeft, BitVec.getLsbD_shiftLeft,
    BitVec.getLsbD_setWidth, decide_eq_true hi, decide_eq_true (show i < 64 by omega),
    decide_eq_true (show i - shiftVal.toNat < 64 by omega)]
  simp only [Bool.true_and]

/-- The bits of a shift to the right: the fill is there whenever the command is 2. -/
theorem getLsbD_shifterSr (cmd : BitVec 2) {i : ℕ} (hi : i < 32) :
    (shifterSr cmd din shiftVal).getLsbD i =
      if shiftVal.toNat + i < 32 then din.getLsbD (shiftVal.toNat + i) else cmd == 2 := by
  have hlt := shiftVal.isLt
  rw [shifterSr, BitVec.getLsbD_setWidth, BitVec.getLsbD_or, BitVec.getLsbD_ushiftRight,
    BitVec.getLsbD_shiftLeft, BitVec.getLsbD_setWidth, BitVec.getLsbD_setWidth, decide_eq_true hi,
    decide_eq_true (show i < 64 by omega), decide_eq_true (show shiftVal.toNat + i < 64 by omega)]
  by_cases hin : shiftVal.toNat + i < 32
  · -- the fill has been shifted beyond this bit, out of the word for amount 0
    rw [if_pos hin, decide_eq_true (show i < 32 - shiftVal.toNat by omega)]
    simp only [Bool.true_and, Bool.not_true, Bool.false_and, Bool.or_false]
  · rw [if_neg hin, decide_eq_false (show ¬ i < 32 - shiftVal.toNat by omega),
      BitVec.getLsbD_of_ge din _ (by omega),
      decide_eq_true (show i - (32 - shiftVal.toNat) < 64 by omega)]
    simp only [Bool.true_and, Bool.not_false, Bool.false_or]
    by_cases hcmd : cmd = 2
    · rw [if_pos hcmd, hcmd, beq_self_eq_true,
        show (0xFFFFFFFF : BitVec 32) = BitVec.allOnes 32 from rfl, BitVec.getLsbD_allOnes,
        decide_eq_true (by omega)]
    · rw [if_neg hcmd, beq_false_of_ne hcmd]
      exact BitVec.getLsbD_zero

/-- The two shifters agree, and their result is that of the instruction set. -/
def Agree (c : Shift) (din : BitVec 32) (shiftVal : BitVec 5) : Prop :=
  RiVerSoC.Shifter.dout c.cmd din shiftVal = dout c.cmd din shiftVal ∧
    dout c.cmd din shiftVal = c.result din shiftVal

theorem agree_iff_bits (c : Shift) (hc : c ≠ .sll) :
    Agree c din shiftVal ↔ ∀ i < 32, 32 ≤ shiftVal.toNat + i →
      (c.cmd == 2) = (c.cmd == 2 && din.msb) := by
  have hmini : dout c.cmd din shiftVal = shifterSr c.cmd din shiftVal := by
    cases c with
    | sll => exact absurd rfl hc
    | srl => rfl
    | sra => rfl
  have hcore : RiVerSoC.Shifter.dout c.cmd din shiftVal =
      RiVerSoC.Shifter.shifterSr din shiftVal (c.cmd == 2) := by
    cases c with
    | sll => exact absurd rfl hc
    | srl => rfl
    | sra => rfl
  rw [Agree, ← RiVerSoC.Shifter.dout_eq, hmini, hcore]
  constructor
  · rintro ⟨-, heq⟩ i hi hout
    have hbit := congrArg (BitVec.getLsbD · i) heq
    rw [getLsbD_shifterSr din shiftVal _ hi, RiVerSoC.Shifter.getLsbD_shifterSr din shiftVal _ hi,
      if_neg (by omega), if_neg (by omega)] at hbit
    exact hbit
  · intro h
    have heq : RiVerSoC.Shifter.shifterSr din shiftVal (c.cmd == 2) =
        shifterSr c.cmd din shiftVal := by
      apply BitVec.eq_of_getLsbD_eq
      intro i hi
      rw [getLsbD_shifterSr din shiftVal _ hi, RiVerSoC.Shifter.getLsbD_shifterSr din shiftVal _ hi]
      split_ifs with hin
      · rfl
      · exact (h i hi (by omega)).symm
    exact ⟨heq, heq.symm⟩

/-- The shifters agree unless a value that is not negative is shifted arithmetically. -/
theorem agree_iff (c : Shift) (din : BitVec 32) (shiftVal : BitVec 5) :
    Agree c din shiftVal ↔ ¬ (c = .sra ∧ shiftVal ≠ 0 ∧ din.msb = false) := by
  cases c with
  | sll =>
    refine iff_of_true ⟨?_, shifterSll_eq din shiftVal⟩ fun h => absurd h.1 (by decide)
    exact (RiVerSoC.Shifter.shifterSll_eq din shiftVal).trans (shifterSll_eq din shiftVal).symm
  | srl =>
    refine iff_of_true ?_ fun h => absurd h.1 (by decide)
    exact (agree_iff_bits din shiftVal .srl (by decide)).mpr fun _ _ _ => rfl
  | sra =>
    rw [agree_iff_bits din shiftVal .sra (by decide)]
    constructor
    · rintro h ⟨-, hne, hmsb⟩
      have hpos : shiftVal.toNat ≠ 0 := fun h0 => hne (BitVec.eq_of_toNat_eq h0)
      have h31 := h 31 (by decide) (by omega)
      rw [hmsb] at h31
      exact absurd h31 (by decide)
    · intro h i hi hout
      -- a bit that comes from outside is there for a shift by 1 or more only
      have hne : shiftVal ≠ 0 := by
        rintro rfl
        rw [show (0 : BitVec 5).toNat = 0 from rfl] at hout
        omega
      have hmsb : din.msb = true := by
        rw [← Bool.not_eq_false]
        exact fun hmsb => h ⟨rfl, hne, hmsb⟩
      rw [hmsb, Bool.and_true]

/-- `1 >> 1`, arithmetically. -/
theorem not_agree_one : ¬ Agree .sra 1#32 1#5 := by
  rintro ⟨-, h⟩
  revert h
  decide

/-- The pipeline of the small core has this shifter. -/
theorem shifterOut_eq (w : Handed) (op1 op2 : BitVec 32) :
    Pipeline.shifterOut w op1 op2 = dout w.exeCmd op1 (op2.setWidth 5) := by
  have hval : (op2.extractLsb' 0 5).toNat = (op2.setWidth 5).toNat := by
    rw [BitVec.extractLsb'_toNat, BitVec.toNat_setWidth, Nat.shiftRight_zero]
  have hlt := (op2.setWidth 5).isLt
  rw [Pipeline.shifterOut, dout, hval, shifterSll_eq]
  by_cases h0 : w.exeCmd = 0
  · rw [if_pos h0, if_pos h0]
  · rw [if_neg h0, if_neg h0]
    apply BitVec.eq_of_getLsbD_eq
    intro i hi
    rw [getLsbD_shifterSr op1 _ _ hi, BitVec.getLsbD_or, BitVec.getLsbD_ushiftRight,
      BitVec.getLsbD_shiftLeft, decide_eq_true hi, Bool.true_and]
    by_cases hin : (op2.setWidth 5).toNat + i < 32
    · rw [if_pos hin, decide_eq_true (show i < 32 - (op2.setWidth 5).toNat by omega), Bool.not_true,
        Bool.false_and, Bool.or_false]
    · rw [if_neg hin, decide_eq_false (show ¬ i < 32 - (op2.setWidth 5).toNat by omega),
        BitVec.getLsbD_of_ge op1 _ (by omega), Bool.not_false, Bool.true_and, Bool.false_or]
      by_cases hcmd : w.exeCmd = 2
      · rw [if_pos hcmd, hcmd, beq_self_eq_true, BitVec.getLsbD_allOnes, decide_eq_true (by omega)]
      · rw [if_neg hcmd, beq_false_of_ne hcmd]
        exact BitVec.getLsbD_zero

end Shifter

end Mini

end RiVerSoC
