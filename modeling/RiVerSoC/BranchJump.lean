/-
Branches and jumps.

* `Resolves` — what the instruction set asks of a branch or a jump: the decision, the program
  counter and the link;
* `jalr_target_iff` — DEC compensates for the two program counters, and clears bit 0 of the
  difference and not of the target;
* `resolves_iff` — so a branch or a jump is resolved unless it is a `jalr` at an odd address.
-/
import RiVerSoC.AluInstructions
import RiVerSoC.PcInc

namespace RiVerSoC

namespace BranchJump

open Decode

/-- The legal words: a branch, `jal` or `jalr`. -/
def legal (ir : BitVec 32) : Prop :=
  opcode ir = 0b1100011 ∧ funct3 ir ≠ 2 ∧ funct3 ir ≠ 3 ∨ opcode ir = 0b1101111 ∨
    opcode ir = 0b1100111 ∧ funct3 ir = 0

instance (ir : BitVec 32) : Decidable (legal ir) := inferInstanceAs (Decidable (_ ∨ _))

/-- The instruction set takes it. -/
def isTaken (ir a b : BitVec 32) : Bool := opcode ir != 0b1100011 || taken (funct3 ir) a b

/-- The operation of DEC, the program counter of `pc_inc` and the result of EXE are those of the
instruction set: `pc_inc` goes to the target of a jump that is taken, and behind one that is not
it goes on from READ_PC, which is `pc + 4`. -/
structure Resolves (ir pc a b : BitVec 32) (o : Operation) (p : Pc.Outputs) (link : BitVec 32) :
    Prop where
  jump : o.jump = isTaken ir a b
  redirect : o.jump = true → p.writePcEnable = true ∧ p.writePc = nextPc ir pc a b
  straight : o.jump = false → p.writePcEnable = true ∧ p.writePc = pc + 4 + 4
  link : opcode ir ≠ 0b1100011 → link = pc + 4

variable {ir : BitVec 32}

/-- The target of `jalr` comes out at the even addresses. -/
theorem jalr_target_iff (pc a imm : BitVec 32) :
    pc + ((imm + (a - (pc + 4) + 4)) &&& ~~~(1 : BitVec 32)) = (a + imm) &&& ~~~(1 : BitVec 32) ↔
      pc.toNat % 2 = 0 := by
  have hoff : imm + (a - (pc + 4) + 4) = a + imm - pc := by bv_omega
  have hpc := pc.isLt
  have hx := (a + imm).isLt
  rw [hoff, ← BitVec.toNat_inj, BitVec.toNat_add, toNat_and_not_one, BitVec.toNat_sub,
    toNat_and_not_one]
  omega

/-- What DEC makes of a branch or a jump. -/
def operationOf (ir : BitVec 32) (s : Sources) (u : Uninit) (old : Operation) : Operation :=
  postRegReadDecoding ir (decodingInstructionType ir) (decodingInstruction ir) s u old

/-- What `pc_inc` sees when the instruction leaves DEC, without a prediction and without a trap. -/
def leaving (s : Sources) (o : Operation) (p : Pc.Inputs) : Pc.Inputs :=
  { p with
    readPc := s.readPc
    offsetBranch := o.offsetBranch
    jump := o.jump
    if2decEmpty := false
    pcIf2dec := s.pcIf2dec
    exceptionSm := false
    dec2ifFull := false
    stallSd := false
    predTaken := false }

/-- A jump goes to the offset from the address of the instruction. -/
theorem redirect_of_jump {s : Sources} {o : Operation} (h : o.jump = true) (p : Pc.Inputs)
    (old : Pc.Outputs) :
    (Pc.pcInc (leaving s o p) old).writePcEnable = true ∧
      (Pc.pcInc (leaving s o p) old).writePc = s.pcIf2dec + o.offsetBranch := by
  have hadd : Pc.addOffsetToPc (leaving s o p) = true := by
    rw [Pc.addOffsetToPc]
    exact (Bool.and_true _).trans h
  rw [Pc.pcInc, if_neg (show ¬ (leaving s o p).exceptionSm = true from Bool.false_ne_true),
    Pc.withoutTrap, Pc.redirects, Pc.pcOut, hadd]
  exact ⟨rfl, rfl⟩

/-- Behind a branch that is not taken the program counter goes on. -/
theorem straight_of_not_jump {s : Sources} {o : Operation} (h : o.jump = false) (p : Pc.Inputs)
    (old : Pc.Outputs) :
    (Pc.pcInc (leaving s o p) old).writePcEnable = true ∧
      (Pc.pcInc (leaving s o p) old).writePc = s.readPc + 4 := by
  have hadd : Pc.addOffsetToPc (leaving s o p) = false := by
    rw [Pc.addOffsetToPc]
    exact (Bool.and_true _).trans h
  rw [Pc.pcInc, if_neg (show ¬ (leaving s o p).exceptionSm = true from Bool.false_ne_true),
    Pc.withoutTrap, Pc.redirects, Pc.pcOut, hadd]
  exact ⟨rfl, rfl⟩

/-- The operation of a branch. -/
theorem operationOf_b (hop : opcode ir = 0b1100011) (hf : funct3 ir ≠ 2 ∧ funct3 ir ≠ 3)
    (s : Sources) (u : Uninit) (old : Operation) :
    (operationOf ir s u old).jump = taken (funct3 ir) s.rdata1 s.rdata2 ∧
      (operationOf ir s u old).offsetBranch = immB ir := by
  have ht : decodingInstructionType ir = Format.types .b := by
    simp [decodingInstructionType, hop]
    decide
  rw [operationOf, ht, ← branchTaken_eq_taken hop hf s.rdata1 s.rdata2 u.branch]
  exact ⟨rfl, rfl⟩

/-- The operation of a jump: the address behind it is what EXE adds 0 to. -/
structure JumpOperation (ir : BitVec 32) (s : Sources) (o : Operation) : Prop where
  jump : o.jump = true
  offsetBranch : o.offsetBranch =
    if opcode ir = 0b1101111 then immJ ir
    else (immI ir + (s.rdata1 - s.readPc + 4)) &&& ~~~1
  op1 : o.op1 = s.readPc
  op2 : o.op2 = 0
  exeCmd : o.exeCmd = 0
  selectTypeOperations : o.selectTypeOperations = 1
  negOp2 : o.negOp2 = false

theorem operationOf_jump (hop : opcode ir = 0b1101111 ∨ opcode ir = 0b1100111) (s : Sources)
    (u : Uninit) (old : Operation) : JumpOperation ir s (operationOf ir s u old) := by
  rcases hop with hop | hop
  · have ht : decodingInstructionType ir = Format.types .j := by
      simp [decodingInstructionType, hop]
      decide
    rw [operationOf, ht]
    exact ⟨rfl, (if_pos hop).symm, rfl, rfl, rfl, rfl, rfl⟩
  · have ht : decodingInstructionType ir = Format.types .jalr := by
      simp [decodingInstructionType, hop]
      decide
    have hno : ¬ opcode ir = 0b1101111 := by
      rw [hop]
      decide
    rw [operationOf, ht]
    exact ⟨rfl, (if_neg hno).symm, rfl, rfl, rfl, rfl, rfl⟩

/-- EXE hands the link on. -/
theorem exeRes_of_jump (hop : opcode ir = 0b1101111 ∨ opcode ir = 0b1100111) {s : Sources}
    {o : Operation} (h : JumpOperation ir s o) {i : Exe.Inputs} {f : Dec.Fetch} {g : Regs}
    {z : Dec.Hazards} {csrRdata : BitVec 32}
    (hrd : i.rd = Dec.concatDec2exe false f (decodingInstruction ir) g z o csrRdata)
    (exeResSe : BitVec 32) : AluInstructions.exeRes i exeResSe = s.readPc := by
  have hflags : ((decodingInstruction ir).slt || (decodingInstruction ir).slti) = false ∧
      ((decodingInstruction ir).sltu || (decodingInstruction ir).sltiu) = false := by
    rcases hop with hop | hop <;> simp [decodingInstruction, has3, has7, hop]
  have hc : AluInstructions.controlIn i.rd = AluInstructions.control 0b000 false := by
    rw [hrd, Dec.concatDec2exe, if_neg Bool.false_ne_true, AluInstructions.controlIn]
    dsimp only
    rw [h.exeCmd, h.selectTypeOperations, h.negOp2, hflags.1, hflags.2]
    rfl
  have hops : i.rd.op1 = s.readPc ∧ i.rd.op2 = 0 := by
    rw [hrd, Dec.concatDec2exe, if_neg Bool.false_ne_true]
    exact ⟨h.op1, h.op2⟩
  rw [AluInstructions.exeRes_of_control hc, hops.1, hops.2]
  exact BitVec.add_zero _

/-- A branch or a jump is resolved unless it is a `jalr` at an odd address. -/
theorem resolves_iff (hl : legal ir) (s : Sources) (hpc : s.readPc = s.pcIf2dec + 4) (u : Uninit)
    (old : Operation) (p : Pc.Inputs) (oldPc : Pc.Outputs) (f : Dec.Fetch) (g : Regs)
    (z : Dec.Hazards) (csrRdata : BitVec 32) (i : Exe.Inputs) (exeResSe : BitVec 32) :
    Resolves ir s.pcIf2dec s.rdata1 s.rdata2 (operationOf ir s u old)
        (Pc.pcInc (leaving s (operationOf ir s u old) p) oldPc)
        (AluInstructions.exeRes
          { i with
            rd := Dec.concatDec2exe false f (decodingInstruction ir) g z (operationOf ir s u old)
              csrRdata }
          exeResSe) ↔
      (opcode ir = 0b1100111 → s.pcIf2dec.toNat % 2 = 0) := by
  rcases hl with ⟨hop, hf⟩ | hop | ⟨hop, -⟩
  · -- a branch, which has no link
    obtain ⟨hjump, hoffset⟩ := operationOf_b hop hf s u old
    refine iff_of_true ⟨?_, fun hj => ?_, fun hj => ?_, fun hno => absurd hop hno⟩ fun hj => ?_
    · rw [hjump, isTaken, hop]
      rfl
    · obtain ⟨hen, hwrite⟩ := redirect_of_jump hj p oldPc
      rw [hjump] at hj
      refine ⟨hen, hwrite.trans ?_⟩
      rw [hoffset, nextPc, hop, hj]
      rfl
    · rw [← hpc]
      exact straight_of_not_jump hj p oldPc
    · rw [hop] at hj
      exact absurd hj (by decide)
  · -- `jal`
    have h := operationOf_jump (.inl hop) s u old
    refine iff_of_true ⟨?_, fun hj => ?_, fun hj => ?_, fun _ => ?_⟩ fun hj => ?_
    · rw [h.jump, isTaken, hop]
      rfl
    · obtain ⟨hen, hwrite⟩ := redirect_of_jump hj p oldPc
      refine ⟨hen, hwrite.trans ?_⟩
      rw [h.offsetBranch, nextPc, if_pos hop, if_pos hop]
    · exact absurd (hj.symm.trans h.jump) Bool.false_ne_true
    · rw [exeRes_of_jump (.inl hop) h rfl, hpc]
    · rw [hop] at hj
      exact absurd hj (by decide)
  · -- `jalr`, whose offset is rounded and not its target
    have h := operationOf_jump (.inr hop) s u old
    have hno : ¬ opcode ir = 0b1101111 := by
      rw [hop]
      decide
    obtain ⟨hen, hwrite⟩ := redirect_of_jump h.jump p oldPc
    have htarget := jalr_target_iff s.pcIf2dec s.rdata1 (immI ir)
    rw [h.offsetBranch, if_neg hno, hpc] at hwrite
    have hnext : nextPc ir s.pcIf2dec s.rdata1 s.rdata2 = (s.rdata1 + immI ir) &&& ~~~1 := by
      rw [nextPc, if_neg hno, if_pos hop]
    constructor
    · intro hr _
      rw [← htarget, ← hnext, ← (hr.redirect h.jump).2, hwrite]
    · intro heven
      refine ⟨?_, fun _ => ⟨hen, ?_⟩, fun hj => ?_, fun _ => ?_⟩
      · rw [h.jump, isTaken, hop]
        rfl
      · rw [hwrite, hnext]
        exact htarget.mpr (heven hop)
      · exact absurd (hj.symm.trans h.jump) Bool.false_ne_true
      · rw [exeRes_of_jump (.inr hop) h rfl, hpc]

/-- `jal x1, 8` at 0x10054. -/
theorem resolves_iff_jal :
    let s : Sources := ⟨0, 0, 0x10054#32, 0x10058#32, 0, false⟩
    Resolves 0x008000EF#32 0x10054#32 0 0 (operationOf 0x008000EF#32 s default default)
      (Pc.pcInc (leaving s (operationOf 0x008000EF#32 s default default) default) default)
      (AluInstructions.exeRes
        { (default : Exe.Inputs) with
          rd := Dec.concatDec2exe false default (decodingInstruction 0x008000EF#32) default default
            (operationOf 0x008000EF#32 s default default) 0 }
        0) :=
  (resolves_iff (by decide) ⟨0, 0, 0x10054#32, 0x10058#32, 0, false⟩ rfl default default default
    default default default default 0 default 0).mpr (fun h => absurd h (by decide))

/-- `jalr x0, 0(x0)` at 1 goes to -1. -/
theorem not_resolves_jalr :
    let s : Sources := ⟨0, 0, 1#32, 5#32, 0, false⟩
    ¬ Resolves 0x00000067#32 1#32 0 0 (operationOf 0x00000067#32 s default default)
      (Pc.pcInc (leaving s (operationOf 0x00000067#32 s default default) default) default)
      (AluInstructions.exeRes
        { (default : Exe.Inputs) with
          rd := Dec.concatDec2exe false default (decodingInstruction 0x00000067#32) default default
            (operationOf 0x00000067#32 s default default) 0 }
        0) := by
  intro s h
  have hwrite := (h.redirect (by decide)).2
  revert hwrite
  decide

end BranchJump

end RiVerSoC
