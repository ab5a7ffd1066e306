/-
The successor of an instruction.

* `taken`, `nextPc` — the branch conditions and the successor, as the instruction set has them;
* `branchTaken_eq_taken` — the 33-bit difference of DEC decides the branch conditions;
* `pcOut_eq_nextPc` — jump and offset of a legal instruction lead to its successor, when
  READ_PC is four bytes behind it.
-/
import RiVerSoC.Decode

namespace RiVerSoC

namespace Decode

/-! ### The instruction set -/

/-- The branch condition of a function. -/
def taken (f : BitVec 3) (a b : BitVec 32) : Bool :=
  if f = 0b000 then a == b
  else if f = 0b001 then a != b
  else if f = 0b100 then a.slt b
  else if f = 0b101 then !a.slt b
  else if f = 0b110 then a.ult b
  else if f = 0b111 then !a.ult b
  else false

/-- The address of the instruction behind `ir`, which is at `pc` and has the operands `a` and
`b`. -/
def nextPc (ir pc a b : BitVec 32) : BitVec 32 :=
  if opcode ir = 0b1101111 then pc + immJ ir
  else if opcode ir = 0b1100111 then (a + immI ir) &&& ~~~1
  else if opcode ir = 0b1100011 ∧ taken (funct3 ir) a b = true then pc + immB ir
  else pc + 4

/-! ### The comparison -/

section Comparison

variable (a b : BitVec 32)

theorem sub_eq_zero_iff : (a.setWidth 33 - b.setWidth 33 == 0) = (a == b) := by
  rw [Bool.eq_iff_iff, beq_iff_eq, beq_iff_eq]
  constructor
  · intro h
    bv_omega
  · rintro rfl
    exact BitVec.sub_self _

/-- Bit 31 of the difference is the borrow, for operands of one sign. -/
theorem getLsbD_sub (h : a.msb = b.msb) :
    (a.setWidth 33 - b.setWidth 33).getLsbD 31 = a.ult b := by
  have ha := a.isLt
  have hb := b.isLt
  rw [BitVec.msb_eq_decide, BitVec.msb_eq_decide, decide_eq_decide] at h
  rw [BitVec.getLsbD, Nat.testBit_eq_decide_div_mod_eq, BitVec.ult, decide_eq_decide,
    BitVec.toNat_sub, BitVec.toNat_setWidth, BitVec.toNat_setWidth]
  omega

theorem ult_of_msb_ne (h : a.msb ≠ b.msb) : a.ult b = b.msb := by
  have ha := a.isLt
  have hb := b.isLt
  rw [BitVec.msb_eq_decide, BitVec.msb_eq_decide, Ne, decide_eq_decide] at h
  rw [BitVec.ult, BitVec.msb_eq_decide, decide_eq_decide]
  omega

/-- The comparison of `bltu`. -/
theorem ult_eq : (if (a.msb != b.msb) = true then b.msb
    else (a.setWidth 33 - b.setWidth 33).getLsbD 31) = a.ult b := by
  by_cases h : a.msb = b.msb
  · rw [h, bne_self_eq_false, if_neg Bool.false_ne_true, getLsbD_sub a b h]
  · rw [if_pos (bne_iff_ne.mpr h), ult_of_msb_ne a b h]

/-- The comparison of `blt`. -/
theorem slt_eq : (if (a.msb != b.msb) = true then a.msb
    else (a.setWidth 33 - b.setWidth 33).getLsbD 31) = a.slt b := by
  rw [BitVec.slt_eq_ult]
  by_cases h : a.msb = b.msb
  · rw [h, bne_self_eq_false, if_neg Bool.false_ne_true, getLsbD_sub a b h, Bool.false_xor]
  · rw [if_pos (bne_iff_ne.mpr h), ult_of_msb_ne a b h]
    revert h
    cases a.msb <;> cases b.msb <;> decide

/-- The comparison of `bgeu`. -/
theorem uge_eq : (if (a.msb != b.msb) = true then a.msb
    else !(a.setWidth 33 - b.setWidth 33).getLsbD 31) = !a.ult b := by
  rw [← ult_eq]
  cases a.msb <;> cases b.msb <;> rfl

/-- The comparison of `bge`. -/
theorem sge_eq : (if (a.msb != b.msb) = true then b.msb
    else !(a.setWidth 33 - b.setWidth 33).getLsbD 31) = !a.slt b := by
  rw [← slt_eq]
  cases a.msb <;> cases b.msb <;> rfl

end Comparison

variable {ir : BitVec 32} {n : Insts} {t : Types}

/-- The condition that DEC computes for a branch with a known function. -/
theorem branchTaken_eq_taken (hop : opcode ir = 0b1100011)
    (hf : funct3 ir ≠ 2 ∧ funct3 ir ≠ 3) (a b : BitVec 32) (u : Bool) :
    branchTaken (decodingInstruction ir) a b u = taken (funct3 ir) a b := by
  have hcases : funct3 ir = 0 ∨ funct3 ir = 1 ∨ funct3 ir = 4 ∨ funct3 ir = 5 ∨ funct3 ir = 6 ∨
      funct3 ir = 7 := by
    revert hf
    generalize funct3 ir = f
    revert f
    decide
  have hflag : ∀ f3, has3 ir 0b1100011 f3 = (funct3 ir == f3) := fun f3 => by
    rw [has3, hop, beq_self_eq_true, Bool.true_and]
  rcases hcases with h | h | h | h | h | h <;>
    simp only [branchTaken, decodingInstruction, hflag, h, taken, BitVec.reduceBEq,
      BitVec.reduceEq, Bool.false_eq_true, if_true, if_false]
  · exact sub_eq_zero_iff a b
  · exact congrArg (!·) (sub_eq_zero_iff a b)
  · exact slt_eq a b
  · exact sge_eq a b
  · exact ult_eq a b
  · exact uge_eq a b

/-! ### Jumps -/

theorem toNat_and_not_one (a : BitVec 32) : (a &&& ~~~(1 : BitVec 32)).toNat = a.toNat / 2 * 2 := by
  have hshift : a &&& ~~~(1 : BitVec 32) = a >>> 1 <<< 1 := by
    ext k hk
    cases k with
    | zero => simp
    | succ k =>
      have hone : (1#32)[k + 1] = false := by simp
      rw [BitVec.getElem_and, BitVec.getElem_not, show (1 : BitVec 32)[k + 1] = false from hone]
      simp [Nat.add_comm 1 k, BitVec.getLsbD_eq_getElem hk]
  rw [hshift, BitVec.toNat_shiftLeft, BitVec.toNat_ushiftRight, Nat.shiftRight_eq_div_pow,
    Nat.shiftLeft_eq]
  have := a.isLt
  omega

/-- The target of `jalr`, which DEC computes from the difference to its address. -/
theorem jalr_target {pc a imm : BitVec 32}
    (heven : (pc + ((imm + (a - (pc + 4) + 4)) &&& ~~~(1 : BitVec 32))).toNat % 4 = 0) :
    pc + ((imm + (a - (pc + 4) + 4)) &&& ~~~(1 : BitVec 32)) =
      (a + imm) &&& ~~~(1 : BitVec 32) := by
  have hoff : imm + (a - (pc + 4) + 4) = a + imm - pc := by bv_omega
  rw [hoff] at heven ⊢
  have := pc.isLt
  have := (a + imm).isLt
  apply BitVec.eq_of_toNat_eq
  rw [BitVec.toNat_add, toNat_and_not_one, BitVec.toNat_sub] at heven ⊢
  rw [toNat_and_not_one]
  omega

/-- A system instruction that is none of those decoded; `not_jump_var` is not assigned. -/
def otherSystem (t : Types) (n : Insts) : Bool :=
  t.system && !n.csr && !(n.ecall || n.ebreak || n.sret || n.mret)

/-- The successor in terms of the formats. -/
theorem nextPc_eq (ht : t = decodingInstructionType ir) (pc a b : BitVec 32) :
    nextPc ir pc a b =
      if t.j = true then pc + immJ ir
      else if t.jalr = true then (a + immI ir) &&& ~~~1
      else if t.b = true ∧ taken (funct3 ir) a b = true then pc + immB ir
      else pc + 4 := by
  subst ht
  simp only [nextPc, decodingInstructionType, beq_iff_eq]

/-- Jump and offset of a legal instruction lead to its successor. -/
theorem pcOut_eq_nextPc (hn : n = decodingInstruction ir) (ht : t = decodingInstructionType ir)
    (s : Sources) (u : Uninit) (old : Operation) (hpc : s.readPc = s.pcIf2dec + 4)
    (hfull : s.if2decEmpty = false)
    (hlegal : (postRegReadDecoding ir t n s u old).illegalInstruction = false)
    (hu : otherSystem t n = true → u.jump = false)
    (haligned : (postRegReadDecoding ir t n s u old).jump = true →
      (s.pcIf2dec + (postRegReadDecoding ir t n s u old).offsetBranch).toNat % 4 = 0) :
    (if (postRegReadDecoding ir t n s u old).jump then
      s.pcIf2dec + (postRegReadDecoding ir t n s u old).offsetBranch
      else s.pcIf2dec + 4) = nextPc ir s.pcIf2dec s.rdata1 s.rdata2 := by
  have hfunction : (operation ir t n s u old).2 = false ∧ illegalFunction ir t = false := by
    have hor : (((operation ir t n s u old).2 || illegalFunction ir t) && !s.if2decEmpty) = false :=
      hlegal
    rwa [hfull, Bool.not_false, Bool.and_true, Bool.or_eq_false_iff] at hor
  obtain ⟨f, hf⟩ := exists_format ir
  rw [nextPc_eq ht]
  have hf' : t = f.types := ht.trans hf
  cases f with
  | r | i | s | u | m =>
    subst hf'
    rfl
  | b =>
    -- the two free function codes are reported, so that DEC decides as the branch does
    have hop : opcode ir = 0b1100011 := beq_iff_eq.mp (congrArg Types.b hf)
    have hf3 : funct3 ir ≠ 2 ∧ funct3 ir ≠ 3 := by
      have hb := hfunction.2
      rw [hf'] at hb
      change (funct3 ir == 2 || funct3 ir == 3) = false at hb
      rwa [Bool.or_eq_false_iff, beq_eq_false_iff_ne, beq_eq_false_iff_ne] at hb
    have hjump : (postRegReadDecoding ir t n s u old).jump =
        taken (funct3 ir) s.rdata1 s.rdata2 := by
      rw [← branchTaken_eq_taken hop hf3 s.rdata1 s.rdata2 u.branch, ← hn, hf']
      rfl
    have hoffset : (postRegReadDecoding ir t n s u old).offsetBranch = immB ir := by
      rw [hf']
      rfl
    rw [hjump, hoffset, hf', if_neg (show ¬ (Format.types .b).j = true by decide),
      if_neg (show ¬ (Format.types .b).jalr = true by decide)]
    simp [show (Format.types .b).b = true by decide]
  | j =>
    subst hf'
    rfl
  | jalr =>
    have hjump : (postRegReadDecoding ir t n s u old).jump = true := by
      rw [hf']
      rfl
    have hoffset : (postRegReadDecoding ir t n s u old).offsetBranch =
        (immI ir + (s.rdata1 - (s.pcIf2dec + 4) + 4)) &&& ~~~1 := by
      rw [← hpc, hf']
      rfl
    -- only at an aligned target is the rounded offset that of the rounded target
    have heven := haligned hjump
    rw [hoffset] at heven
    rw [hjump, hoffset, if_pos rfl, jalr_target heven, hf']
    rfl
  | system =>
    have hjump : (postRegReadDecoding ir t n s u old).jump = false := by
      subst hf'
      change (if n.csr = true then (csrOperation ir n s, false)
        else if (n.ecall || n.ebreak || n.sret || n.mret) = true then (idle, false)
        else (otherSystemOperation u old, false)).1.jump = false
      split_ifs with hcsr hknown
      · rfl
      · rfl
      · -- no other system instruction assigns the jump
        refine hu ?_
        rw [otherSystem, Bool.eq_false_iff.mpr hcsr, Bool.eq_false_iff.mpr hknown]
        rfl
    rw [hjump, hf']
    rfl
  | other =>
    have hjump : (postRegReadDecoding ir t n s u old).jump = false := by
      -- without a format only `fence` is not reported
      have hknown := hfunction.1
      subst hf'
      change (if n.fence = true then (idle, false)
        else ({ idle with jump := u.jump }, true)).2 = false at hknown
      change (if n.fence = true then (idle, false)
        else ({ idle with jump := u.jump }, true)).1.jump = false
      split_ifs at hknown ⊢ with hfence
      rfl
    rw [hjump, hf']
    rfl

end Decode

end RiVerSoC
