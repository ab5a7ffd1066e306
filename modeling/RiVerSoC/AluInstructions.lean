/-
The register instructions from DEC through EXE.

* `aluResult` — their results, as the instruction set has them;
* `controlOf_r`, `controlOf_i` — the command of DEC in terms of the function;
* `executes` — a command, its unit and the negation of the second operand make the function;
* `exeRes_eq_aluResult` — DEC and EXE together compute the result.
-/
import RiVerSoC.Dec
import RiVerSoC.NextPc
import RiVerSoC.Shifter

namespace RiVerSoC

namespace AluInstructions

open Decode

/-! ### The instruction set -/

/-- The function of an instruction; `alt` chooses the second one of a code. -/
def arith (f : BitVec 3) (alt : Bool) (a b : BitVec 32) : BitVec 32 :=
  if f = 0b000 then if alt then a - b else a + b
  else if f = 0b001 then a <<< (b.setWidth 5).toNat
  else if f = 0b010 then if a.slt b then 1 else 0
  else if f = 0b011 then if a.ult b then 1 else 0
  else if f = 0b100 then a ^^^ b
  else if f = 0b101 then
    if alt then a.sshiftRight (b.setWidth 5).toNat else a >>> (b.setWidth 5).toNat
  else if f = 0b110 then a ||| b
  else a &&& b

/-- The result of a legal arithmetic, logic, compare, shift, `lui` or `auipc` word at `pc`, whose
registers have the values `a` and `b`. -/
def aluResult (ir pc a b : BitVec 32) : Option (BitVec 32) :=
  if opcode ir = 0b0110011 then
    if funct7 ir = 0 then some (arith (funct3 ir) false a b)
    else if funct7 ir = 0b0100000 ∧ (funct3 ir = 0b000 ∨ funct3 ir = 0b101) then
      some (arith (funct3 ir) true a b)
    else none
  else if opcode ir = 0b0010011 then
    if funct3 ir = 0b001 ∧ funct7 ir ≠ 0 then none
    else if funct3 ir = 0b101 ∧ funct7 ir ≠ 0 then
      if funct7 ir = 0b0100000 then some (arith (funct3 ir) true a (immI ir)) else none
    else some (arith (funct3 ir) false a (immI ir))
  else if opcode ir = 0b0110111 then some (immU ir)
  else if opcode ir = 0b0010111 then some (pc + immU ir)
  else none

/-! ### DEC -/

/-- The signals that choose what EXE computes. -/
structure Control where
  cmd : BitVec 2
  unit : BitVec 4
  neg : Bool
  slt : Bool
  sltu : Bool
deriving DecidableEq, Repr

/-- Those of DEC. -/
def controlOf (n : Insts) : Control where
  cmd := command n
  unit := Decode.unit n
  neg := n.sub || n.slt || n.slti || n.sltu || n.sltiu
  slt := n.slt || n.slti
  sltu := n.sltu || n.sltiu

/-- Those of a function. -/
def control (f : BitVec 3) (alt : Bool) : Control :=
  if f = 0b000 then ⟨0, 1, alt, false, false⟩
  else if f = 0b001 then ⟨0, 2, false, false, false⟩
  else if f = 0b010 then ⟨0, 1, true, true, false⟩
  else if f = 0b011 then ⟨0, 1, true, false, true⟩
  else if f = 0b100 then ⟨3, 1, false, false, false⟩
  else if f = 0b101 then ⟨if alt then 2 else 1, 2, false, false, false⟩
  else if f = 0b110 then ⟨2, 1, false, false, false⟩
  else ⟨1, 1, false, false, false⟩

variable {ir : BitVec 32}

theorem controlOf_r (hop : opcode ir = 0b0110011) {alt : Bool}
    (hf : funct7 ir = if alt then 0b0100000 else 0)
    (halt : alt = true → funct3 ir = 0b000 ∨ funct3 ir = 0b101) :
    controlOf (decodingInstruction ir) = control (funct3 ir) alt := by
  simp only [controlOf, command, Decode.unit, Insts.divInst, Insts.multInst, decodingInstruction,
    has3, has7, hop, hf]
  clear hf hop
  revert halt
  generalize funct3 ir = f
  revert f alt
  decide

/-- With an immediate, only the shifts have a second function. -/
theorem controlOf_i (hop : opcode ir = 0b0010011)
    (hf : funct3 ir = 0b001 ∨ funct3 ir = 0b101 → funct7 ir = 0 ∨ funct7 ir = 0b0100000)
    (hsll : funct3 ir = 0b001 → funct7 ir = 0) :
    controlOf (decodingInstruction ir) =
      control (funct3 ir) (funct3 ir == 0b101 && funct7 ir == 0b0100000) := by
  simp only [controlOf, command, Decode.unit, Insts.divInst, Insts.multInst, decodingInstruction,
    has3, has7, hop]
  clear hop
  revert hf hsll
  generalize funct3 ir = f
  generalize funct7 ir = g
  revert f g
  decide

theorem controlOf_u (hop : opcode ir = 0b0110111 ∨ opcode ir = 0b0010111) :
    controlOf (decodingInstruction ir) = control 0b000 false := by
  rcases hop with hop | hop <;>
    simp [controlOf, command, Decode.unit, Insts.divInst, Insts.multInst, decodingInstruction, has3,
      has7, hop, control]

/-! ### EXE -/

/-- `exe_res_se` for the word in DEC2EXE, when no bypass changes its operands. -/
def exeRes (i : Exe.Inputs) (old : BitVec 32) : BitVec 32 :=
  let pre := Exe.preprocessOp i.rd.negOp2 i.rd.op2
  (Exe.selectExecRes i i.rd.op1 i.rd.op2 (Exe.alu i.rd.exeCmd i.rd.op1 pre.1 i.rd.negOp2)
    (Shifter.dout i.rd.exeCmd i.rd.op1 pre.2) old).exeResSe

section Compare

variable (a b : BitVec 32)

/-- A complemented operand and a carry make a difference. -/
theorem alu_sub : Exe.alu 0 a (~~~b) true = a - b := by
  change a + ~~~b + 1#32 = a - b
  rw [BitVec.sub_eq_add_neg, BitVec.neg_eq_not_add, BitVec.add_assoc]

theorem alu_add : Exe.alu 0 a b false = a + b := BitVec.add_zero (a + b)

/-- The sign of the difference, for operands of one sign. -/
theorem msb_sub (h : a.msb = b.msb) : (a - b).msb = a.ult b := by
  have ha := a.isLt
  have hb := b.isLt
  rw [BitVec.msb_eq_decide, BitVec.msb_eq_decide, decide_eq_decide] at h
  rw [BitVec.msb_eq_decide, BitVec.ult, decide_eq_decide, BitVec.toNat_sub]
  omega

/-- The comparison, with the answers for operands of different signs. -/
theorem lessThan_eq (x y : BitVec 32) : Exe.lessThan a b x y (a - b) =
    if a.msb = b.msb then if a.ult b then 1 else 0 else if a.msb then x else y := by
  unfold Exe.lessThan
  by_cases h : a.msb = b.msb
  · rw [if_pos h, if_neg (by rw [h]; exact and_not_self), if_neg (by rw [h]; exact not_and_self),
      msb_sub a b h]
    split_ifs with heq hlt hlt
    · rw [heq, BitVec.ult, decide_eq_true_eq] at hlt
      exact absurd hlt (Nat.lt_irrefl _)
    · rfl
    · rw [hlt]
      rfl
    · rw [Bool.eq_false_iff.mpr hlt]
      rfl
  · rw [if_neg h]
    revert h
    cases a.msb <;> cases b.msb <;> simp

theorem lessThan_slt : Exe.lessThan a b 1 0 (a - b) = if a.slt b then 1 else 0 := by
  rw [lessThan_eq, BitVec.slt_eq_ult]
  by_cases h : a.msb = b.msb
  · rw [if_pos h, h, bne_self_eq_false, Bool.false_xor]
  · rw [if_neg h, ult_of_msb_ne a b h]
    revert h
    cases a.msb <;> cases b.msb <;> simp

theorem lessThan_ult : Exe.lessThan a b 0 1 (a - b) = if a.ult b then 1 else 0 := by
  rw [lessThan_eq]
  by_cases h : a.msb = b.msb
  · rw [if_pos h]
  · rw [if_neg h, ult_of_msb_ne a b h]
    revert h
    cases a.msb <;> cases b.msb <;> simp

end Compare

/-- What EXE makes of a command for the ALU or the shifter. -/
def compute (c : Control) (a b : BitVec 32) : BitVec 32 :=
  let aluOut := Exe.alu c.cmd a (if c.neg then ~~~b else b) c.neg
  if c.unit = 2 then Shifter.dout c.cmd a (b.setWidth 5)
  else if c.slt then Exe.lessThan a b 1 0 aluOut
  else if c.sltu then Exe.lessThan a b 0 1 aluOut
  else aluOut

/-- The signals in the word for EXE. -/
def controlIn (w : Dec2Exe) : Control :=
  ⟨w.exeCmd, w.selectTypeOperations, w.negOp2, w.slt, w.sltu⟩

theorem exeRes_eq_compute {i : Exe.Inputs}
    (hunit : i.rd.selectTypeOperations = 1 ∨ i.rd.selectTypeOperations = 2) (old : BitVec 32) :
    exeRes i old = compute (controlIn i.rd) i.rd.op1 i.rd.op2 := by
  have h8 : ¬ i.rd.selectTypeOperations = 8 := by
    rcases hunit with h | h <;> rw [h] <;> decide
  unfold exeRes compute Exe.selectExecRes controlIn
  dsimp only
  rw [if_neg h8]
  rcases hunit with h | h
  · have h2 : ¬ i.rd.selectTypeOperations = 2 := by
      rw [h]
      decide
    rw [if_neg h2, if_pos h, if_neg h2]
    -- the flags of an access do not matter to its address
    cases i.rd.slt <;> cases i.rd.sltu <;> cases i.rd.memLoad <;> cases i.rd.memStore <;> rfl
  · rw [if_pos h, if_pos h]
    rfl

/-- The command of a function makes it. -/
theorem compute_control (f : BitVec 3) (alt : Bool) (a b : BitVec 32) :
    compute (control f alt) a b = arith f alt a b := by
  have hf : ∀ f : BitVec 3, f = 0 ∨ f = 1 ∨ f = 2 ∨ f = 3 ∨ f = 4 ∨ f = 5 ∨ f = 6 ∨ f = 7 := by
    decide
  rcases hf f with rfl | rfl | rfl | rfl | rfl | rfl | rfl | rfl
  · cases alt with
    | false => exact alu_add a b
    | true => exact alu_sub a b
  · exact Shifter.dout_eq a (b.setWidth 5) .sll
  · change Exe.lessThan a b 1 0 (Exe.alu 0 a (~~~b) true) = _
    rw [alu_sub, lessThan_slt]
    rfl
  · change Exe.lessThan a b 0 1 (Exe.alu 0 a (~~~b) true) = _
    rw [alu_sub, lessThan_ult]
    rfl
  · rfl
  · cases alt with
    | false => exact Shifter.dout_eq a (b.setWidth 5) .srl
    | true => exact Shifter.dout_eq a (b.setWidth 5) .sra
  · rfl
  · rfl

theorem unit_control (f : BitVec 3) (alt : Bool) :
    (control f alt).unit = 1 ∨ (control f alt).unit = 2 := by
  revert f alt
  decide

/-! ### DEC and EXE -/

/-- DEC presents a function and its operands. -/
theorem exeRes_of_control {i : Exe.Inputs} {f : BitVec 3} {alt : Bool}
    (h : controlIn i.rd = control f alt) (old : BitVec 32) :
    exeRes i old = arith f alt i.rd.op1 i.rd.op2 := by
  have hunit : i.rd.selectTypeOperations = (control f alt).unit := congrArg Control.unit h
  rw [exeRes_eq_compute (by rw [hunit]; exact unit_control f alt), h, compute_control]

/-- The word for EXE has the command of an instruction of format `t`, and its operands. -/
structure Presents (w : Dec2Exe) (ir : BitVec 32) (t : Types) (s : Sources) : Prop where
  command : controlIn w = controlOf (decodingInstruction ir)
  op1 : w.op1 = if t.i then s.rdata1 else if t.u then immU ir else s.rdata1
  op2 : w.op2 = if t.i then immI ir
    else if t.u && (decodingInstruction ir).auipc then s.pcIf2dec else s.rdata2

/-- The word that DEC packs for the formats R, I and U. -/
theorem presents_decWord (ir : BitVec 32) {t : Types} (hrt : (t.r || t.i || t.u || t.m) = true)
    (s : Sources) (u : Uninit) (old : Operation) (f : Dec.Fetch) (g : Regs) (h : Dec.Hazards)
    (csrRdata : BitVec 32) :
    Presents (Dec.concatDec2exe false f (decodingInstruction ir) g h
      (postRegReadDecoding ir t (decodingInstruction ir) s u old) csrRdata) ir t s := by
  have hop : operation ir t (decodingInstruction ir) s u old =
      (registerOperation ir t (decodingInstruction ir) s, false) := if_pos hrt
  rw [Dec.concatDec2exe, if_neg Bool.false_ne_true, postRegReadDecoding, hop]
  exact ⟨rfl, rfl, rfl⟩

/-- The formats of the opcodes. -/
theorem types_r (hop : opcode ir = 0b0110011) : (decodingInstructionType ir).i = false ∧
    (decodingInstructionType ir).u = false ∧
      ((decodingInstructionType ir).r || (decodingInstructionType ir).m) = true := by
  refine ⟨?_, ?_, ?_⟩
  · simp [decodingInstructionType, hop]
  · simp [decodingInstructionType, hop]
  · rw [decodingInstructionType, hop]
    change ((funct7 ir != 0b0000001) || (funct7 ir == 0b0000001)) = true
    rw [bne]
    cases funct7 ir == 0b0000001 <;> rfl

theorem types_i (hop : opcode ir = 0b0010011) : (decodingInstructionType ir).i = true := by
  simp [decodingInstructionType, hop]

theorem types_u (hop : opcode ir = 0b0110111 ∨ opcode ir = 0b0010111) :
    (decodingInstructionType ir).i = false ∧ (decodingInstructionType ir).u = true ∧
      radr2 (decodingInstructionType ir) ir = 0 := by
  rcases hop with hop | hop <;> simp [decodingInstructionType, radr2, hop]

/-- The instructions with a result of the ALU or the shifter are of these formats. -/
theorem types_of_aluResult {pc a b v : BitVec 32} (hv : aluResult ir pc a b = some v) :
    ((decodingInstructionType ir).r || (decodingInstructionType ir).i ||
      (decodingInstructionType ir).u || (decodingInstructionType ir).m) = true := by
  unfold aluResult at hv
  by_cases hopr : opcode ir = 0b0110011
  · obtain ⟨hi, hu, hrm⟩ := types_r hopr
    rw [hi, hu, Bool.or_false, Bool.or_false, hrm]
  by_cases hopi : opcode ir = 0b0010011
  · rw [types_i hopi, Bool.or_true, Bool.true_or, Bool.true_or]
  rw [if_neg hopr, if_neg hopi] at hv
  have hopu : opcode ir = 0b0110111 ∨ opcode ir = 0b0010111 := by
    split_ifs at hv with hlui hauipc
    · exact .inl hlui
    · exact .inr hauipc
  rw [(types_u hopu).2.1, Bool.or_true, Bool.true_or]

section Presented

variable {s : Sources} {i : Exe.Inputs} (hp : Presents i.rd ir (decodingInstructionType ir) s)

include hp

/-- EXE on an instruction of the R format, where `alt` says that it is of the second function. -/
theorem exeRes_r (exeResSe : BitVec 32) (alt : Bool) (hop : opcode ir = 0b0110011)
    (hf : funct7 ir = if alt then 0b0100000 else 0)
    (halt : alt = true → funct3 ir = 0b000 ∨ funct3 ir = 0b101) :
    exeRes i exeResSe = arith (funct3 ir) alt s.rdata1 s.rdata2 := by
  obtain ⟨hi, hu, -⟩ := types_r hop
  obtain ⟨hc, h1, h2⟩ := hp
  rw [controlOf_r hop hf halt] at hc
  rw [hi, hu, if_neg Bool.false_ne_true, if_neg Bool.false_ne_true] at h1
  rw [hi, hu, if_neg Bool.false_ne_true, Bool.false_and, if_neg Bool.false_ne_true] at h2
  rw [exeRes_of_control hc, h1, h2]

/-- EXE on an instruction with an immediate operand. -/
theorem exeRes_i (exeResSe : BitVec 32) (hop : opcode ir = 0b0010011) {alt : Bool}
    (halt : alt = (funct3 ir == 0b101 && funct7 ir == 0b0100000))
    (hf : funct3 ir = 0b001 ∨ funct3 ir = 0b101 → funct7 ir = 0 ∨ funct7 ir = 0b0100000)
    (hsll : funct3 ir = 0b001 → funct7 ir = 0) :
    exeRes i exeResSe = arith (funct3 ir) alt s.rdata1 (immI ir) := by
  have hi := types_i hop
  obtain ⟨hc, h1, h2⟩ := hp
  rw [controlOf_i hop hf hsll, ← halt] at hc
  rw [hi, if_pos rfl] at h1 h2
  rw [exeRes_of_control hc, h1, h2]

/-- EXE on `lui` and `auipc`. -/
theorem exeRes_u (exeResSe : BitVec 32) (hop : opcode ir = 0b0110111 ∨ opcode ir = 0b0010111) :
    exeRes i exeResSe =
      immU ir + if (decodingInstruction ir).auipc then s.pcIf2dec else s.rdata2 := by
  obtain ⟨hi, hu, -⟩ := types_u hop
  obtain ⟨hc, h1, h2⟩ := hp
  rw [controlOf_u hop] at hc
  rw [hi, hu, if_neg Bool.false_ne_true, if_pos rfl] at h1
  rw [hi, hu, if_neg Bool.false_ne_true, Bool.true_and] at h2
  rw [exeRes_of_control hc, h1, h2]
  rfl

/-- EXE makes the result of the instruction set of what DEC presents. -/
theorem exeRes_of_presents (hx0 : radr2 (decodingInstructionType ir) ir = 0 → s.rdata2 = 0)
    {v : BitVec 32} (hv : aluResult ir s.pcIf2dec s.rdata1 s.rdata2 = some v)
    (exeResSe : BitVec 32) : exeRes i exeResSe = v := by
  unfold aluResult at hv
  split_ifs at hv with hopr hf7 halt hopi hsll hsr hsra hlui hauipc
  · rw [exeRes_r hp exeResSe false hopr hf7 (fun h => absurd h Bool.false_ne_true),
      Option.some.inj hv]
  · rw [exeRes_r hp exeResSe true hopr halt.1 (fun _ => halt.2), Option.some.inj hv]
  · -- the shift with the second function
    have halt : true = (funct3 ir == 0b101 && funct7 ir == 0b0100000) := by
      rw [hsr.1, hsra]
      rfl
    rw [exeRes_i hp exeResSe hopi halt (fun _ => .inr hsra)
      (fun h => absurd (h.symm.trans hsr.1) (by decide)), Option.some.inj hv]
  · have hzero : funct3 ir = 0b101 → funct7 ir = 0 := fun h5 => by
      by_contra h7
      exact hsr ⟨h5, h7⟩
    have hzero' : funct3 ir = 0b001 → funct7 ir = 0 := fun h1 => by
      by_contra h7
      exact hsll ⟨h1, h7⟩
    have halt : false = (funct3 ir == 0b101 && funct7 ir == 0b0100000) := by
      rw [eq_comm, Bool.and_eq_false_iff]
      by_cases h5 : funct3 ir = 0b101
      · right
        rw [hzero h5]
        rfl
      · left
        exact beq_false_of_ne h5
    rw [exeRes_i hp exeResSe hopi halt (fun h => .inl (h.elim hzero' hzero)) hzero',
      Option.some.inj hv]
  · -- `lui` adds `x0`, which DEC reads as its second source
    have hno : (decodingInstruction ir).auipc = false := by
      simp [decodingInstruction, hlui]
    rw [exeRes_u hp exeResSe (.inl hlui), hno, if_neg Bool.false_ne_true,
      hx0 (types_u (.inl hlui)).2.2, Option.some.inj hv.symm]
    exact BitVec.add_zero _
  · have hyes : (decodingInstruction ir).auipc = true := by
      simp [decodingInstruction, hauipc]
    rw [exeRes_u hp exeResSe (.inr hauipc), hyes, if_pos rfl, BitVec.add_comm, Option.some.inj hv]

end Presented

/-- DEC and EXE together compute the result of the instruction set. -/
theorem exeRes_eq_aluResult {t : Types} (ht : t = decodingInstructionType ir) (s : Sources)
    (u : Uninit) (old : Operation) (f : Dec.Fetch) (g : Regs) (h : Dec.Hazards)
    (csrRdata : BitVec 32) {i : Exe.Inputs}
    (hrd : i.rd = Dec.concatDec2exe false f (decodingInstruction ir) g h
      (postRegReadDecoding ir t (decodingInstruction ir) s u old) csrRdata)
    (hx0 : radr2 t ir = 0 → s.rdata2 = 0) {v : BitVec 32}
    (hv : aluResult ir s.pcIf2dec s.rdata1 s.rdata2 = some v) (exeResSe : BitVec 32) :
    exeRes i exeResSe = v := by
  subst ht
  have hp : Presents i.rd ir (decodingInstructionType ir) s := by
    rw [hrd]
    exact presents_decWord ir (types_of_aluResult hv) s u old f g h csrRdata
  exact exeRes_of_presents hp hx0 hv exeResSe

/-- `add x3, x1, x2`, of 1 and 2. -/
theorem exeRes_eq_aluResult_add :
    exeRes { (default : Exe.Inputs) with
      rd := Dec.concatDec2exe false default (decodingInstruction 0x002081B3#32) default default
        (postRegReadDecoding 0x002081B3#32 (decodingInstructionType 0x002081B3#32)
          (decodingInstruction 0x002081B3#32)
          { (default : Sources) with rdata1 := 1, rdata2 := 2 } default default) 0 } 0 = 3 :=
  exeRes_eq_aluResult rfl { (default : Sources) with rdata1 := 1, rdata2 := 2 } default default
    default default default 0 rfl (fun h => absurd h (by decide)) (by decide) 0

end AluInstructions

end RiVerSoC
