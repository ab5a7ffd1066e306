/-
The decoder: what DEC makes of an instruction word.

* `decodingInstructionType`, `decodingInstruction` — the format and the instruction;
* `preRegReadDecoding` — the registers it reads and writes, the CSR it addresses;
* `postRegReadDecoding` — the operands and the command for EXE.

A signal that is not written in some branch keeps its value (`old`), and a local flag
that a branch leaves uninitialised has any value (`Uninit`).
-/
import Mathlib.Tactic.SplitIfs

namespace RiVerSoC

namespace Decode

def opcode (ir : BitVec 32) : BitVec 7 := ir.extractLsb' 0 7
def rd (ir : BitVec 32) : BitVec 5 := ir.extractLsb' 7 5
def funct3 (ir : BitVec 32) : BitVec 3 := ir.extractLsb' 12 3
def rs1 (ir : BitVec 32) : BitVec 5 := ir.extractLsb' 15 5
def rs2 (ir : BitVec 32) : BitVec 5 := ir.extractLsb' 20 5
def funct7 (ir : BitVec 32) : BitVec 7 := ir.extractLsb' 25 7
def funct12 (ir : BitVec 32) : BitVec 12 := ir.extractLsb' 20 12

/-! ### Formats -/

/-- The signals `*_type_inst_sd`. -/
structure Types where
  r : Bool
  i : Bool
  s : Bool
  b : Bool
  u : Bool
  j : Bool
  jalr : Bool
  system : Bool
  m : Bool
deriving DecidableEq, Repr, Inhabited

def decodingInstructionType (ir : BitVec 32) : Types where
  r := opcode ir == 0b0110011 && funct7 ir != 0b0000001
  i := opcode ir == 0b0010011 || opcode ir == 0b0000011
  s := opcode ir == 0b0100011
  b := opcode ir == 0b1100011
  u := opcode ir == 0b0110111 || opcode ir == 0b0010111
  j := opcode ir == 0b1101111
  jalr := opcode ir == 0b1100111
  system := opcode ir == 0b1110011
  m := opcode ir == 0b0110011 && funct7 ir == 0b0000001

/-! ### Instructions -/

/-- The signals `*_i_sd`. -/
structure Insts where
  add : Bool
  slt : Bool
  sltu : Bool
  and : Bool
  or : Bool
  xor : Bool
  sll : Bool
  srl : Bool
  sub : Bool
  sra : Bool
  addi : Bool
  slti : Bool
  sltiu : Bool
  andi : Bool
  ori : Bool
  xori : Bool
  fence : Bool
  slli : Bool
  srli : Bool
  srai : Bool
  lw : Bool
  lh : Bool
  lhu : Bool
  lb : Bool
  lbu : Bool
  beq : Bool
  bne : Bool
  blt : Bool
  bge : Bool
  bltu : Bool
  bgeu : Bool
  lui : Bool
  auipc : Bool
  jal : Bool
  jalr : Bool
  sw : Bool
  sh : Bool
  sb : Bool
  ecall : Bool
  ebreak : Bool
  csrrw : Bool
  csrrs : Bool
  csrrc : Bool
  csrrwi : Bool
  csrrsi : Bool
  csrrci : Bool
  mret : Bool
  sret : Bool
  mul : Bool
  mulh : Bool
  mulhsu : Bool
  mulhu : Bool
  div : Bool
  divu : Bool
  rem : Bool
  remu : Bool
deriving DecidableEq, Repr, Inhabited

/-- The opcode and the function of an instruction. -/
def has3 (ir : BitVec 32) (op : BitVec 7) (f3 : BitVec 3) : Bool :=
  opcode ir == op && funct3 ir == f3

/-- The opcode and both functions of an instruction. -/
def has7 (ir : BitVec 32) (op : BitVec 7) (f7 : BitVec 7) (f3 : BitVec 3) : Bool :=
  opcode ir == op && funct7 ir == f7 && funct3 ir == f3

def decodingInstruction (ir : BitVec 32) : Insts where
  add := has7 ir 0b0110011 0b0000000 0b000
  slt := has7 ir 0b0110011 0b0000000 0b010
  sltu := has7 ir 0b0110011 0b0000000 0b011
  and := has7 ir 0b0110011 0b0000000 0b111
  or := has7 ir 0b0110011 0b0000000 0b110
  xor := has7 ir 0b0110011 0b0000000 0b100
  sll := has7 ir 0b0110011 0b0000000 0b001
  srl := has7 ir 0b0110011 0b0000000 0b101
  sub := has7 ir 0b0110011 0b0100000 0b000
  sra := has7 ir 0b0110011 0b0100000 0b101
  addi := has3 ir 0b0010011 0b000
  slti := has3 ir 0b0010011 0b010
  sltiu := has3 ir 0b0010011 0b011
  andi := has3 ir 0b0010011 0b111
  ori := has3 ir 0b0010011 0b110
  xori := has3 ir 0b0010011 0b100
  fence := has3 ir 0b0001111 0b000
  slli := has7 ir 0b0010011 0b0000000 0b001
  srli := has7 ir 0b0010011 0b0000000 0b101
  srai := has7 ir 0b0010011 0b0100000 0b101
  lw := has3 ir 0b0000011 0b010
  lh := has3 ir 0b0000011 0b001
  lhu := has3 ir 0b0000011 0b101
  lb := has3 ir 0b0000011 0b000
  lbu := has3 ir 0b0000011 0b100
  beq := has3 ir 0b1100011 0b000
  bne := has3 ir 0b1100011 0b001
  blt := has3 ir 0b1100011 0b100
  bge := has3 ir 0b1100011 0b101
  bltu := has3 ir 0b1100011 0b110
  bgeu := has3 ir 0b1100011 0b111
  lui := opcode ir == 0b0110111
  auipc := opcode ir == 0b0010111
  jal := opcode ir == 0b1101111
  jalr := opcode ir == 0b1100111
  sw := has3 ir 0b0100011 0b010
  sh := has3 ir 0b0100011 0b001
  sb := has3 ir 0b0100011 0b000
  ecall := has3 ir 0b1110011 0b000 && funct12 ir == 0b000000000000
  ebreak := has3 ir 0b1110011 0b000 && funct12 ir == 0b000000000001
  csrrw := has3 ir 0b1110011 0b001
  csrrs := has3 ir 0b1110011 0b010
  csrrc := has3 ir 0b1110011 0b011
  csrrwi := has3 ir 0b1110011 0b101
  csrrsi := has3 ir 0b1110011 0b110
  csrrci := has3 ir 0b1110011 0b111
  mret := ir == 0b00110000001000000000000001110011
  sret := ir == 0b00010000001000000000000001110011
  mul := has7 ir 0b0110011 0b0000001 0b000
  mulh := has7 ir 0b0110011 0b0000001 0b001
  mulhsu := has7 ir 0b0110011 0b0000001 0b010
  mulhu := has7 ir 0b0110011 0b0000001 0b011
  div := has7 ir 0b0110011 0b0000001 0b100
  divu := has7 ir 0b0110011 0b0000001 0b101
  rem := has7 ir 0b0110011 0b0000001 0b110
  remu := has7 ir 0b0110011 0b0000001 0b111

def Insts.csr (n : Insts) : Bool :=
  n.csrrw || n.csrrs || n.csrrc || n.csrrwi || n.csrrsi || n.csrrci

def Insts.load (n : Insts) : Bool := n.lw || n.lh || n.lhu || n.lb || n.lbu

def Insts.multInst (n : Insts) : Bool := n.mul || n.mulh || n.mulhsu || n.mulhu

def Insts.divInst (n : Insts) : Bool := n.div || n.divu || n.rem || n.remu

/-! ### Registers -/

/-- The signals that `pre_reg_read_decoding` writes. -/
structure Regs where
  radr1 : BitVec 6
  radr2 : BitVec 6
  adrDest : BitVec 6
  /-- The address on the read port of the CSR file. -/
  csrRadrPort : BitVec 12
  /-- The address that goes to MEM with the instruction. -/
  csrRadr : BitVec 12
  envCallUMode : Bool
  envCallSMode : Bool
  envCallMMode : Bool
  envCallWrongMode : Bool
deriving DecidableEq, Repr, Inhabited

/-- `radr1_var`. -/
def radr1 (t : Types) (n : Insts) (ir : BitVec 32) : BitVec 6 :=
  if t.r || t.i || t.s || t.b then (rs1 ir).setWidth 6
  else if t.u || t.j then 0
  else if t.jalr || t.m then (rs1 ir).setWidth 6
  else if t.system && (n.csrrw || n.csrrs || n.csrrc) then (rs1 ir).setWidth 6
  else 0

/-- `radr2_var`. -/
def radr2 (t : Types) (ir : BitVec 32) : BitVec 6 :=
  if t.r then (rs2 ir).setWidth 6
  else if t.i then 0
  else if t.s || t.b then (rs2 ir).setWidth 6
  else if t.u || t.j || t.jalr then 0
  else if t.m then (rs2 ir).setWidth 6
  else 0

/-- `adr_dest_var`. -/
def adrDest (t : Types) (n : Insts) (ir : BitVec 32) : BitVec 6 :=
  if t.r || t.i then (rd ir).setWidth 6
  else if t.s || t.b then 0
  else if t.u || t.j || t.jalr || t.m then (rd ir).setWidth 6
  else if t.system && n.csr then (rd ir).setWidth 6
  else 0

/-- Every write to `env_call_s_mode_sd` and `env_call_wrong_mode` is overwritten by 0 in
the same activation. -/
def preRegReadDecoding (ir : BitVec 32) (t : Types) (n : Insts) (currentMode : BitVec 2)
    (old : Regs) : Regs where
  radr1 := radr1 t n ir
  radr2 := radr2 t ir
  adrDest := adrDest t n ir
  csrRadrPort :=
    if t.r || t.i || t.s || t.b || t.u || t.j || t.jalr then 0
    else if t.m then old.csrRadrPort
    else if t.system && n.csr then funct12 ir
    else old.csrRadrPort
  csrRadr :=
    if t.r || t.i || t.s || t.b || t.u || t.j || t.jalr || t.m then old.csrRadr
    else if t.system && n.csr then funct12 ir
    else old.csrRadr
  envCallUMode := if t.system && n.ecall then currentMode == 0 else n.ecall && old.envCallUMode
  envCallSMode := n.ecall && !t.system && old.envCallSMode
  envCallMMode := if t.system && n.ecall then currentMode == 3 else n.ecall && old.envCallMMode
  envCallWrongMode := false

/-! ### Operands and command -/

/-- The immediates, sign-extended. -/
def immI (ir : BitVec 32) : BitVec 32 := (funct12 ir).signExtend 32

def immS (ir : BitVec 32) : BitVec 32 := (funct7 ir ++ rd ir).signExtend 32

def immU (ir : BitVec 32) : BitVec 32 := ir.extractLsb' 12 20 ++ (0 : BitVec 12)

def immB (ir : BitVec 32) : BitVec 32 :=
  (ir.extractLsb' 31 1 ++ ir.extractLsb' 7 1 ++ ir.extractLsb' 25 6 ++ ir.extractLsb' 8 4 ++
    (0 : BitVec 1)).signExtend 32

def immJ (ir : BitVec 32) : BitVec 32 :=
  (ir.extractLsb' 31 1 ++ ir.extractLsb' 12 8 ++ ir.extractLsb' 20 1 ++ ir.extractLsb' 21 10 ++
    (0 : BitVec 1)).signExtend 32

/-- The immediate of `csrrwi`, `csrrsi` and `csrrci`. -/
def uimm (ir : BitVec 32) : BitVec 32 := (rs1 ir).setWidth 32

/-- The signals that `post_reg_read_decoding` writes. -/
structure Operation where
  csrWenable : Bool
  memLoad : Bool
  memStore : Bool
  memSize : BitVec 2
  memSignExtend : Bool
  exeCmd : BitVec 2
  selectTypeOperations : BitVec 4
  negOp2 : Bool
  op1 : BitVec 32
  op2 : BitVec 32
  wb : Bool
  memData : BitVec 32
  offsetBranch : BitVec 32
  jump : Bool
  illegalInstruction : Bool
  blockBp : Bool
deriving DecidableEq, Repr, Inhabited

/-- What `post_reg_read_decoding` reads besides the decoded instruction. -/
structure Sources where
  rdata1 : BitVec 32
  rdata2 : BitVec 32
  pcIf2dec : BitVec 32
  readPc : BitVec 32
  csrRdataSc : BitVec 32
  if2decEmpty : Bool
deriving DecidableEq, Repr, Inhabited

/-- The local flags `dec2exe_wb_var`, `not_jump_var` and `branch` where they are not
assigned. -/
structure Uninit where
  wb : Bool
  jump : Bool
  branch : Bool
deriving DecidableEq, Repr, Inhabited

/-- The size and the sign extension of a load. -/
def loadFormat (n : Insts) : BitVec 2 × Bool :=
  if n.lw then (0, false)
  else if n.lh || n.lhu then (1, !n.lhu)
  else if n.lb || n.lbu then (2, !n.lbu)
  else (0, false)

/-- `exe_cmd_sd` of the R, I, U and M formats. -/
def command (n : Insts) : BitVec 2 :=
  if n.and || n.andi || n.srl || n.srli || n.mul || n.div then 1
  else if n.or || n.ori || n.sra || n.srai || n.mulh || n.divu then 2
  else if n.xor || n.xori || n.mulhu || n.rem then 3
  else 0

/-- `select_type_operations_sd` of the R, I, U and M formats. -/
def unit (n : Insts) : BitVec 4 :=
  if n.divInst then 8
  else if n.multInst then 4
  else if n.sll || n.slli || n.srl || n.srli || n.sra || n.srai then 2
  else 1

/-- The branch condition; `res_comparaison` has 33 bits. -/
def branchTaken (n : Insts) (op1 op2 : BitVec 32) (uninit : Bool) : Bool :=
  let resComparaison := op1.setWidth 33 - op2.setWidth 33
  let differentSign := op1.msb != op2.msb
  let equal := resComparaison == 0
  if n.bne then !equal
  else if n.beq then equal
  else if n.blt then if differentSign then op1.msb else resComparaison.getLsbD 31
  else if n.bltu then if differentSign then op2.msb else resComparaison.getLsbD 31
  else if n.bge then if differentSign then op2.msb else !resComparaison.getLsbD 31
  else if n.bgeu then if differentSign then op1.msb else !resComparaison.getLsbD 31
  else uninit

/-- An operation without any effect. -/
def idle : Operation := { (default : Operation) with selectTypeOperations := 1 }

/-- The formats R, I, U and M. -/
def registerOperation (ir : BitVec 32) (t : Types) (n : Insts) (s : Sources) : Operation :=
  { idle with
    memLoad := n.load
    memSize := if n.load then (loadFormat n).1 else 0
    memSignExtend := if n.load then (loadFormat n).2 else false
    exeCmd := command n
    selectTypeOperations := unit n
    negOp2 := n.sub || n.slt || n.slti || n.sltu || n.sltiu
    op1 := if t.i then s.rdata1 else if t.u then immU ir else s.rdata1
    op2 := if t.i then immI ir else if t.u && n.auipc then s.pcIf2dec else s.rdata2
    wb := true }

/-- The format S, where `mem_sign_extend_sd` is not written and `dec2exe_wb_var` not
assigned. -/
def storeOperation (ir : BitVec 32) (n : Insts) (s : Sources) (u : Uninit) (old : Operation) :
    Operation :=
  { idle with
    memStore := n.sw || n.sh || n.sb
    memSize := if n.sw then 0 else if n.sh then 1 else if n.sb then 2 else 0
    memSignExtend := old.memSignExtend
    op1 := s.rdata1
    op2 := immS ir
    wb := u.wb
    memData := s.rdata2 }

def branchOperation (ir : BitVec 32) (n : Insts) (s : Sources) (u : Uninit) : Operation :=
  { idle with
    op1 := s.rdata1
    op2 := s.rdata2
    wb := true
    offsetBranch := immB ir
    jump := branchTaken n s.rdata1 s.rdata2 u.branch }

def jumpOperation (ir : BitVec 32) (t : Types) (s : Sources) : Operation :=
  { idle with
    op1 := s.readPc
    wb := true
    offsetBranch :=
      if t.jalr then (immI ir + (s.rdata1 - s.readPc + 4)) &&& ~~~1 else immJ ir
    jump := true }

/-- The CSR instructions: the source is complemented for `csrrc` and `csrrci`. -/
def csrOperation (ir : BitVec 32) (n : Insts) (s : Sources) : Operation :=
  { idle with
    csrWenable := true
    exeCmd := if n.csrrc || n.csrrci then 1 else if n.csrrw || n.csrrwi then 0 else 2
    op1 :=
      if n.csrrw || n.csrrc || n.csrrs then if !n.csrrc then s.rdata1 else ~~~s.rdata1
      else if !n.csrrci then uimm ir else ~~~uimm ir
    op2 := if n.csrrs || n.csrrc || n.csrrsi || n.csrrci then s.csrRdataSc else 0
    wb := true }

/-- A system instruction that is none of those decoded leaves most signals alone. -/
def otherSystemOperation (u : Uninit) (old : Operation) : Operation :=
  { idle with
    csrWenable := old.csrWenable
    exeCmd := old.exeCmd
    negOp2 := old.negOp2
    wb := u.wb
    jump := u.jump }

/-- `illegal_inst` for a word with a known format. -/
def illegalFunction (ir : BitVec 32) (t : Types) : Bool :=
  if t.r then funct7 ir != 0 && funct7 ir != 0b0100000
  else if t.b then funct3 ir == 2 || funct3 ir == 3
  else if t.s then decide (2 < funct3 ir)
  else t.system && funct3 ir == 4

/-- The operation and whether the format is unknown. -/
def operation (ir : BitVec 32) (t : Types) (n : Insts) (s : Sources) (u : Uninit)
    (old : Operation) : Operation × Bool :=
  if t.r || t.i || t.u || t.m then (registerOperation ir t n s, false)
  else if t.s then (storeOperation ir n s u old, false)
  else if t.b then (branchOperation ir n s u, false)
  else if t.jalr || t.j then (jumpOperation ir t s, false)
  else if t.system then
    if n.csr then (csrOperation ir n s, false)
    else if n.ecall || n.ebreak || n.sret || n.mret then (idle, false)
    else (otherSystemOperation u old, false)
  else if n.fence then (idle, false)
  else ({ idle with jump := u.jump }, true)

def postRegReadDecoding (ir : BitVec 32) (t : Types) (n : Insts) (s : Sources) (u : Uninit)
    (old : Operation) : Operation :=
  let o := operation ir t n s u old
  { o.1 with
    illegalInstruction := (o.2 || illegalFunction ir t) && !s.if2decEmpty
    blockBp := t.jalr }

/-! ### Formats exclude each other -/

/-- The formats; `other` stands for the words of no known format. -/
inductive Format where
  | r | i | s | b | u | j | jalr | system | m | other
deriving DecidableEq, Repr

def Format.types : Format → Types
  | .r => { (default : Types) with r := true }
  | .i => { (default : Types) with i := true }
  | .s => { (default : Types) with s := true }
  | .b => { (default : Types) with b := true }
  | .u => { (default : Types) with u := true }
  | .j => { (default : Types) with j := true }
  | .jalr => { (default : Types) with jalr := true }
  | .system => { (default : Types) with system := true }
  | .m => { (default : Types) with m := true }
  | .other => default

/-- A word has one format. -/
theorem exists_format (ir : BitVec 32) : ∃ f : Format, decodingInstructionType ir = f.types := by
  by_cases hr : opcode ir = 0b0110011
  · by_cases hm : funct7 ir = 0b0000001
    · exact ⟨.m, by simp [decodingInstructionType, hr, hm]; decide⟩
    · refine ⟨.r, ?_⟩
      rw [decodingInstructionType, hr, bne, beq_false_of_ne hm]
      decide
  by_cases hi : opcode ir = 0b0010011 ∨ opcode ir = 0b0000011
  · exact ⟨.i, by rcases hi with hi | hi <;> simp [decodingInstructionType, hi] <;> decide⟩
  by_cases hs : opcode ir = 0b0100011
  · exact ⟨.s, by simp [decodingInstructionType, hs]; decide⟩
  by_cases hb : opcode ir = 0b1100011
  · exact ⟨.b, by simp [decodingInstructionType, hb]; decide⟩
  by_cases hu : opcode ir = 0b0110111 ∨ opcode ir = 0b0010111
  · exact ⟨.u, by rcases hu with hu | hu <;> simp [decodingInstructionType, hu] <;> decide⟩
  by_cases hj : opcode ir = 0b1101111
  · exact ⟨.j, by simp [decodingInstructionType, hj]; decide⟩
  by_cases hjalr : opcode ir = 0b1100111
  · exact ⟨.jalr, by simp [decodingInstructionType, hjalr]; decide⟩
  by_cases hsys : opcode ir = 0b1110011
  · exact ⟨.system, by simp [decodingInstructionType, hsys]; decide⟩
  obtain ⟨hi1, hi2⟩ := not_or.mp hi
  obtain ⟨hu1, hu2⟩ := not_or.mp hu
  refine ⟨.other, ?_⟩
  rw [decodingInstructionType, beq_false_of_ne hr, beq_false_of_ne hi1, beq_false_of_ne hi2,
    beq_false_of_ne hs, beq_false_of_ne hb, beq_false_of_ne hu1, beq_false_of_ne hu2,
    beq_false_of_ne hj, beq_false_of_ne hjalr, beq_false_of_ne hsys]
  rfl

/-! ### Operands that come from registers -/

section Operands

variable {ir : BitVec 32}

theorem system_of_csrrc (h : (decodingInstruction ir).csrrc = true) :
    (decodingInstructionType ir).system = true := (Bool.and_eq_true_iff.mp h).1

theorem i_of_load (h : (decodingInstruction ir).load = true) :
    (decodingInstructionType ir).i = true := by
  have hop : opcode ir = 0b0000011 := by
    simp only [Insts.load, decodingInstruction, has3, Bool.or_eq_true, Bool.and_eq_true,
      beq_iff_eq] at h
    rcases h with (((h | h) | h) | h) | h <;> exact h.1
  simp [decodingInstructionType, hop]

theorem store_of_s (hs : (decodingInstructionType ir).s = true)
    (hlegal : illegalFunction ir (decodingInstructionType ir) = false) :
    ((decodingInstruction ir).sw || (decodingInstruction ir).sh || (decodingInstruction ir).sb) =
      true := by
  have hop : opcode ir = 0b0100011 := beq_iff_eq.mp hs
  have hle : ¬ 2 < funct3 ir := by
    simpa [illegalFunction, decodingInstructionType, hop] using hlegal
  have hcases : funct3 ir = 0 ∨ funct3 ir = 1 ∨ funct3 ir = 2 := by
    revert hle
    generalize funct3 ir = f
    revert f
    decide
  rcases hcases with hf | hf | hf <;> simp [decodingInstruction, has3, hop, hf]

variable {t : Types} {n : Insts}

/-- The first operand of an instruction with a first register, `jalr` apart. -/
theorem op1_of_radr1 (hn : n = decodingInstruction ir) (ht : t = decodingInstructionType ir)
    (hr : radr1 t n ir ≠ 0) (hj : t.jalr = false) (s : Sources) (u : Uninit) (old : Operation) :
    (postRegReadDecoding ir t n s u old).op1 = if n.csrrc then ~~~s.rdata1 else s.rdata1 := by
  have hcsrrc : n.csrrc = true → t.system = true := by
    subst hn ht
    exact system_of_csrrc
  obtain ⟨f, hf⟩ := exists_format ir
  rw [← ht] at hf
  subst hf
  cases f with
  | r | i | s | b | m =>
    have hno : n.csrrc = false := by
      cases hc : n.csrrc
      · rfl
      · exact absurd (hcsrrc hc) (by decide)
    rw [hno, if_neg Bool.false_ne_true]
    rfl
  | system =>
    have hcsr : (n.csrrw || n.csrrs || n.csrrc) = true := by
      change (if (true && (n.csrrw || n.csrrs || n.csrrc)) = true then (rs1 ir).setWidth 6
        else (0 : BitVec 6)) ≠ 0 at hr
      cases hc : n.csrrw || n.csrrs || n.csrrc
      · rw [hc] at hr
        exact absurd rfl hr
      · rfl
    have hall : n.csr = true := by
      simp only [Insts.csr, hcsr, Bool.true_or]
    have hop : (postRegReadDecoding ir (Format.types .system) n s u old).op1 =
        (csrOperation ir n s).op1 := by
      change (if n.csr = true then (csrOperation ir n s, false)
        else if (n.ecall || n.ebreak || n.sret || n.mret) = true then (idle, false)
        else (otherSystemOperation u old, false)).1.op1 = _
      rw [if_pos hall]
    rw [hop, csrOperation]
    have hcsr' : (n.csrrw || n.csrrc || n.csrrs) = true := by
      rw [Bool.or_assoc, Bool.or_comm n.csrrc, ← Bool.or_assoc]
      exact hcsr
    rw [if_pos hcsr']
    cases n.csrrc <;> rfl
  | jalr => exact absurd hj (by decide)
  | u | j | other => exact absurd rfl hr

/-- The second operand, or the data of a store, of a legal instruction with a second
register. -/
theorem op2_of_radr2 (hn : n = decodingInstruction ir) (ht : t = decodingInstructionType ir)
    (hr : radr2 t ir ≠ 0) (s : Sources) (u : Uninit) (old : Operation)
    (hfull : s.if2decEmpty = false)
    (hlegal : (postRegReadDecoding ir t n s u old).illegalInstruction = false) :
    (if (postRegReadDecoding ir t n s u old).memStore then
      (postRegReadDecoding ir t n s u old).memData
      else (postRegReadDecoding ir t n s u old).op2) = s.rdata2 := by
  obtain ⟨f, hf⟩ := exists_format ir
  rw [← ht] at hf
  cases f with
  | r | b | m =>
    subst hf
    rfl
  | s =>
    have hfunction : illegalFunction ir t = false := by
      have hor : (((operation ir t n s u old).2 || illegalFunction ir t) &&
          !s.if2decEmpty) = false := hlegal
      rw [hfull, Bool.not_false, Bool.and_true] at hor
      exact (Bool.or_eq_false_iff.mp hor).2
    have hstore : (n.sw || n.sh || n.sb) = true := by
      subst hn
      rw [ht] at hf hfunction
      exact store_of_s (by rw [hf]; rfl) hfunction
    subst hf
    exact if_pos hstore
  | i | u | j | jalr | system | other =>
    subst hf
    exact absurd rfl hr

theorem csrrc_of_not_system (hn : n = decodingInstruction ir) (ht : t = decodingInstructionType ir)
    (h : t.system = false) : n.csrrc = false := by
  subst hn ht
  cases hc : (decodingInstruction ir).csrrc with
  | false => rfl
  | true => exact absurd (h.symm.trans (system_of_csrrc hc)) Bool.false_ne_true

theorem load_of_not_i (hn : n = decodingInstruction ir) (ht : t = decodingInstructionType ir)
    (h : t.i = false) : n.load = false := by
  subst hn ht
  cases hl : (decodingInstruction ir).load with
  | false => rfl
  | true => exact absurd (h.symm.trans (i_of_load hl)) Bool.false_ne_true

/-- An instruction with a second register is neither `csrrc` nor a load. -/
theorem not_csrrc_of_radr2 (hn : n = decodingInstruction ir) (ht : t = decodingInstructionType ir)
    (hr : radr2 t ir ≠ 0) (s : Sources) (u : Uninit) (old : Operation) :
    n.csrrc = false ∧ (postRegReadDecoding ir t n s u old).memLoad = false := by
  have hcsrrc := csrrc_of_not_system hn ht
  have hload := load_of_not_i hn ht
  obtain ⟨f, hf⟩ := exists_format ir
  rw [← ht] at hf
  subst hf
  cases f with
  | r | m => exact ⟨hcsrrc rfl, hload rfl⟩
  | b | s => exact ⟨hcsrrc rfl, rfl⟩
  | i | u | j | jalr | system | other => exact absurd rfl hr

theorem codes_of_divInst (h : (decodingInstruction ir).divInst = true) :
    opcode ir = 0b0110011 ∧ funct7 ir = 0b0000001 := by
  simp only [Insts.divInst, decodingInstruction, has7, Bool.or_eq_true, Bool.and_eq_true,
    beq_iff_eq] at h
  rcases h with ((h | h) | h) | h <;> exact h.1

theorem m_of_divInst (h : (decodingInstruction ir).divInst = true) :
    (decodingInstructionType ir).m = true := by
  simp [decodingInstructionType, codes_of_divInst h]

theorem unit_eq_eight : unit n = 8 ↔ n.divInst = true := by
  unfold unit
  cases n.divInst <;> simp
  split_ifs <;> decide

/-- A division works on the values of its two registers. -/
theorem of_division (hn : n = decodingInstruction ir) (ht : t = decodingInstructionType ir)
    (s : Sources) (u : Uninit) (old : Operation)
    (h : (postRegReadDecoding ir t n s u old).selectTypeOperations = 8) :
    n.csrrc = false ∧ (postRegReadDecoding ir t n s u old).memLoad = false ∧
      (postRegReadDecoding ir t n s u old).memStore = false ∧
      (postRegReadDecoding ir t n s u old).blockBp = false ∧
      (postRegReadDecoding ir t n s u old).op1 = s.rdata1 ∧
      (postRegReadDecoding ir t n s u old).op2 = s.rdata2 := by
  -- every other format has the unit 1
  have hone : ¬ (1 : BitVec 4) = 8 := by decide
  have hcsrrc := csrrc_of_not_system hn ht
  have hload := load_of_not_i hn ht
  have hdiv : n.divInst = true → t.m = true := by
    subst hn ht
    exact m_of_divInst
  obtain ⟨f, hf⟩ := exists_format ir
  rw [← ht] at hf
  subst hf
  cases f with
  | m => exact ⟨hcsrrc rfl, hload rfl, rfl, rfl, rfl, rfl⟩
  | r | i | u => exact absurd (hdiv (unit_eq_eight.mp h)) (by decide)
  | system =>
    change (if n.csr = true then (csrOperation ir n s, false)
      else if (n.ecall || n.ebreak || n.sret || n.mret) = true then (idle, false)
      else (otherSystemOperation u old, false)).1.selectTypeOperations = 8 at h
    split_ifs at h <;> exact absurd h hone
  | other =>
    change (if n.fence = true then (idle, false)
      else ({ idle with jump := u.jump }, true)).1.selectTypeOperations = 8 at h
    split_ifs at h <;> exact absurd h hone
  | s | b | j | jalr => exact absurd h hone

/-- `ebreak` writes no register. -/
theorem wb_of_ebreak (hn : n = decodingInstruction ir) (ht : t = decodingInstructionType ir)
    (s : Sources) (u : Uninit) (old : Operation) (h : n.ebreak = true) :
    (postRegReadDecoding ir t n s u old).wb = false := by
  have hcodes : (opcode ir = 0b1110011 ∧ funct3 ir = 0b000) ∧ funct12 ir = 0b000000000001 := by
    rw [hn] at h
    simpa only [decodingInstruction, has3, Bool.and_eq_true, beq_iff_eq] using h
  obtain ⟨⟨hop, hf3⟩, -⟩ := hcodes
  have hsystem : t = Format.types .system := by
    rw [ht, decodingInstructionType, hop]
    rfl
  have hcsr : n.csr = false := by
    simp [hn, Insts.csr, decodingInstruction, has3, hop, hf3]
  subst hsystem
  change (if n.csr = true then (csrOperation ir n s, false)
    else if (n.ecall || n.ebreak || n.sret || n.mret) = true then (idle, false)
    else (otherSystemOperation u old, false)).1.wb = false
  rw [hcsr, if_neg Bool.false_ne_true, h, Bool.or_true, Bool.true_or, Bool.true_or, if_pos rfl]
  rfl

end Operands

end Decode

end RiVerSoC
