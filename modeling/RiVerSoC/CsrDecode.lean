/-
The CSR instructions in DEC and EXE.

DEC complements the source of `csrrc` and `csrrci`, so that EXE only has to take the
conjunction with the old value.

* `modify` — what a CSR instruction makes of the old value, from the encoding;
* `CsrWord` — the word in DEC2EXE for a CSR instruction; `csrWord_decWord` — DEC builds it;
* `exeRes_of_csrWord` — EXE computes `modify` from an exact operand.
-/
import RiVerSoC.Forwarding

namespace RiVerSoC

namespace Zicsr

open Decode (funct3 funct12 rs1 rd uimm decodingInstruction decodingInstructionType)

/-- The instruction is one of the six. -/
def isCsr (ir : BitVec 32) : Bool := (decodingInstruction ir).csr

/-- The source is the immediate. -/
def immediate (ir : BitVec 32) : Bool := (funct3 ir).getLsbD 2

/-- The source register, and none for an immediate. -/
def sourceReg (ir : BitVec 32) : BitVec 6 := if immediate ir then 0 else (rs1 ir).setWidth 6

/-- The source, where `rs1` is the value of the source register. -/
def source (ir rs1 : BitVec 32) : BitVec 32 := if immediate ir then uimm ir else rs1

/-- `csrrw`, `csrrs` and `csrrc`, or their immediate forms. -/
def modify (ir rs1 old : BitVec 32) : BitVec 32 :=
  if (funct3 ir).setWidth 2 = 1#2 then source ir rs1
  else if (funct3 ir).setWidth 2 = 2#2 then old ||| source ir rs1
  else old &&& ~~~(source ir rs1)

/-- The instruction clears bits. -/
def clears (ir : BitVec 32) : Bool := (funct3 ir).setWidth 2 == 3#2

variable {ir : BitVec 32}

theorem csr_cases (h : isCsr ir = true) : Decode.opcode ir = 0b1110011 ∧
    (funct3 ir = 1 ∨ funct3 ir = 2 ∨ funct3 ir = 3 ∨ funct3 ir = 5 ∨ funct3 ir = 6 ∨
      funct3 ir = 7) := by
  simp only [isCsr, Decode.Insts.csr, decodingInstruction, Decode.has3, Bool.or_eq_true,
    Bool.and_eq_true, beq_iff_eq] at h
  rcases h with ((((h | h) | h) | h) | h) | h <;> simp [h]

/-- What the decoding of a CSR instruction raises. -/
structure CsrInsts (ir : BitVec 32) (t : Decode.Types) (n : Decode.Insts) : Prop where
  types : t = Decode.Format.system.types
  csr : n.csr = true
  multInst : n.multInst = false
  slt : (n.slt || n.slti) = false
  sltu : (n.sltu || n.sltiu) = false
  register : (n.csrrw || n.csrrs || n.csrrc) = !immediate ir
  write : (n.csrrw || n.csrrwi) = ((funct3 ir).setWidth 2 == 1#2)
  read : (n.csrrs || n.csrrc || n.csrrsi || n.csrrci) = !((funct3 ir).setWidth 2 == 1#2)
  clear : (n.csrrc || n.csrrci) = clears ir
  csrrc : n.csrrc = (clears ir && !immediate ir)
  csrrci : n.csrrci = (clears ir && immediate ir)

theorem types_of_system (h : (decodingInstructionType ir).system = true) :
    decodingInstructionType ir = Decode.Format.system.types := by
  obtain ⟨f, hf⟩ := Decode.exists_format ir
  rw [hf] at h ⊢
  cases f with
  | system => rfl
  | r | i | s | b | u | j | jalr | m | other => exact absurd h (by decide)

theorem csrInsts (h : isCsr ir = true) :
    CsrInsts ir (decodingInstructionType ir) (decodingInstruction ir) := by
  obtain ⟨hop, hf⟩ := csr_cases h
  rcases hf with hf | hf | hf | hf | hf | hf <;>
    exact
      { types := types_of_system (beq_iff_eq.mpr hop)
        csr := h
        multInst := by simp [Decode.Insts.multInst, decodingInstruction, Decode.has7, hop]
        slt := by simp [decodingInstruction, Decode.has3, Decode.has7, hop]
        sltu := by simp [decodingInstruction, Decode.has3, Decode.has7, hop]
        register := by simp [decodingInstruction, Decode.has3, immediate, hop, hf]
        write := by simp [decodingInstruction, Decode.has3, hop, hf]
        read := by simp [decodingInstruction, Decode.has3, hop, hf]
        clear := by simp [decodingInstruction, Decode.has3, clears, hop, hf]
        csrrc := by simp [decodingInstruction, Decode.has3, clears, immediate, hop, hf]
        csrrci := by simp [decodingInstruction, Decode.has3, clears, immediate, hop, hf] }

/-! ### DEC -/

open Backend (State Cycle complement)

/-- The word in DEC2EXE is the one of the CSR instruction `ir`, which has read `old`. -/
structure CsrWord (w : Dec2Exe) (ir old : BitVec 32) : Prop where
  csrWenable : w.csrWenable = true
  csrWadr : w.csrWadr = funct12 ir
  csrRdata : w.csrRdata = old
  dest : w.dest = (rd ir).setWidth 6
  wb : w.wb = true
  memLoad : w.memLoad = false
  memStore : w.memStore = false
  slt : w.slt = false
  sltu : w.sltu = false
  negOp2 : w.negOp2 = false
  selectTypeOperations : w.selectTypeOperations = 1
  blockBp : w.blockBp = false
  radr1 : w.radr1 = sourceReg ir
  radr2 : w.radr2 = 0
  csrrcI : w.csrrcI = (clears ir && !immediate ir)
  exeCmd : w.exeCmd = if clears ir then 1 else if (funct3 ir).setWidth 2 == 1#2 then 0 else 2
  op1 : w.radr1 = 0 → w.op1 = complement (clears ir) (source ir 0)
  op2 : w.op2 = if (funct3 ir).setWidth 2 == 1#2 then 0 else old

variable {s : State} {i : Cycle}

/-- What DEC makes of a CSR instruction before it reads registers. -/
theorem operation_of_csrInsts {t : Decode.Types} {n : Decode.Insts} (h : CsrInsts ir t n)
    (c : Decode.Sources) (u : Decode.Uninit) (old : Decode.Operation) :
    Decode.operation ir t n c u old = (Decode.csrOperation ir n c, false) := by
  rw [h.types]
  exact if_pos h.csr

theorem csrOperation_op1 {t : Decode.Types} {n : Decode.Insts} (h : CsrInsts ir t n)
    (c : Decode.Sources) :
    (Decode.csrOperation ir n c).op1 =
      complement (clears ir) (if immediate ir then uimm ir else c.rdata1) := by
  have hreg : (n.csrrw || n.csrrc || n.csrrs) = !immediate ir := by
    rw [← h.register, Bool.or_assoc, Bool.or_comm n.csrrc, ← Bool.or_assoc]
  rw [Decode.csrOperation, hreg, h.csrrc, h.csrrci, complement]
  cases immediate ir <;> cases clears ir <;> rfl

theorem csrOperation_op2 {t : Decode.Types} {n : Decode.Insts} (h : CsrInsts ir t n)
    (c : Decode.Sources) :
    (Decode.csrOperation ir n c).op2 =
      if (funct3 ir).setWidth 2 == 1#2 then 0 else c.csrRdataSc := by
  rw [Decode.csrOperation, h.read]
  cases (funct3 ir).setWidth 2 == 1#2 <;> rfl

/-- The word that DEC offers for a CSR instruction. -/
theorem csrWord_decWord (hx : i.exceptionSm = false) (h : isCsr i.ir = true)
    (hzero : s.registers.read 0 = 0) : CsrWord (Backend.decWord s i) i.ir i.csrRdataSc := by
  have hn := csrInsts h
  have hoperation := operation_of_csrInsts hn
    { rdata1 := (Backend.decSig s i).haz.rdata1
      rdata2 := (Backend.decSig s i).haz.rdata2
      pcIf2dec := i.fetch.pcIf2dec
      readPc := i.readPc
      csrRdataSc := i.csrRdataSc
      if2decEmpty := i.if2decEmpty } i.uninit s.operation
  have htypes : (Backend.decSig s i).types = Decode.Format.system.types := hn.types
  -- the form with an immediate reads no register
  have hregs : (Backend.decSig s i).radr.1 = sourceReg i.ir := by
    change Decode.radr1 (decodingInstructionType i.ir) (decodingInstruction i.ir) i.ir = _
    rw [hn.types]
    change (if (true && _) = true then _ else _) = _
    rw [hn.register, Bool.true_and, sourceReg]
    cases immediate i.ir <;> rfl
  have hword : Backend.decWord s i = Dec.concatDec2exe false i.fetch (Backend.decInsts s i)
      (Backend.decRegs s i) (Backend.decSig s i).haz (Backend.decOperation s i) i.csrRdataSc := by
    rw [Backend.decWord, hx]
  rw [hword]
  exact
    { csrWenable := congrArg (fun o => o.1.csrWenable) hoperation
      csrWadr := by
        change (Decode.preRegReadDecoding _ (decodingInstructionType i.ir) _ i.currentMode
          s.regs).csrRadr = _
        rw [hn.types]
        exact if_pos hn.csr
      csrRdata := rfl
      dest := by
        change Decode.adrDest (decodingInstructionType i.ir) _ _ = _
        rw [hn.types]
        exact if_pos hn.csr
      wb := congrArg (fun o => o.1.wb) hoperation
      memLoad := congrArg (fun o => o.1.memLoad) hoperation
      memStore := congrArg (fun o => o.1.memStore) hoperation
      slt := hn.slt
      sltu := hn.sltu
      negOp2 := congrArg (fun o => o.1.negOp2) hoperation
      selectTypeOperations := congrArg (fun o => o.1.selectTypeOperations) hoperation
      blockBp := congrArg Decode.Types.jalr hn.types
      radr1 := hregs
      radr2 := by
        change Decode.radr2 (decodingInstructionType i.ir) _ = _
        rw [hn.types]
        rfl
      csrrcI := hn.csrrc
      exeCmd := by
        refine (congrArg (fun o => o.1.exeCmd) hoperation).trans ?_
        change (if (_ || _) = true then _ else if (_ || _) = true then _ else _) = _
        rw [hn.clear, hn.write]
      op1 := by
        intro h0
        refine ((congrArg (fun o => o.1.op1) hoperation).trans (csrOperation_op1 hn _)).trans ?_
        rw [source]
        cases himm : immediate i.ir with
        | true => rfl
        | false =>
          -- x0 is read as 0, whenever `bypasses` has run last
          have hr0 : (Backend.decSig s i).radr.1 = 0 := h0
          have hdata : (Backend.decSig s i).haz.rdata1 = 0 := by
            obtain ⟨p, old, hhaz⟩ := (Backend.decStage s i).atRest.haz_eq
            refine (congrArg Dec.Hazards.rdata1 hhaz).trans ?_
            change (Dec.bypass _ _ (Backend.decSig s i).radr.1
              (s.registers.read (Backend.decSig s i).radr.1) _).1 = 0
            rw [hr0, hzero]
            rfl
          change complement _ (Backend.decSig s i).haz.rdata1 = complement _ 0
          rw [hdata]
      op2 := (congrArg (fun o => o.1.op2) hoperation).trans (csrOperation_op2 hn _) }

/-! ### EXE -/

theorem op2Se_of_csrWord {old : BitVec 32} (h : CsrWord s.rd ir old) :
    (Backend.exeSig s i).byp.op2Se = s.rd.op2 := (Backend.op2Se_of_none (Or.inl h.radr2)).1

/-- A CSR instruction takes its result from the ALU, and raises no exception in EXE. -/
theorem res_of_csrWord {old : BitVec 32} (h : CsrWord s.rd ir old) :
    (Backend.exeSig s i).res =
      ⟨Exe.alu s.rd.exeCmd (Backend.exeSig s i).byp.op1Se s.rd.op2 false,
        false, false, false, false⟩ := by
  have haluOut : (Backend.exeSig s i).aluOutSe =
      Exe.alu s.rd.exeCmd (Backend.exeSig s i).byp.op1Se s.rd.op2 false := by
    change Exe.alu s.rd.exeCmd _ (Exe.preprocessOp s.rd.negOp2 (Backend.exeSig s i).byp.op2Se).1
      s.rd.negOp2 = _
    rw [h.negOp2, op2Se_of_csrWord h]
    rfl
  obtain ⟨j, op1, op2, old, hres⟩ := (Backend.exeStage s i).atRest.res_eq
  rw [← haluOut]
  refine Eq.trans hres ?_
  have hunit : ((Backend.exeInputs s i).selecting j).rd.selectTypeOperations = 1 :=
    h.selectTypeOperations
  have hslt : ((Backend.exeInputs s i).selecting j).rd.slt = false := h.slt
  have hsltu : ((Backend.exeInputs s i).selecting j).rd.sltu = false := h.sltu
  have hload : ((Backend.exeInputs s i).selecting j).rd.memLoad = false := h.memLoad
  have hstore : ((Backend.exeInputs s i).selecting j).rd.memStore = false := h.memStore
  change Exe.selectExecRes ((Backend.exeInputs s i).selecting j) _ _ _ _ _ = _
  unfold Exe.selectExecRes
  rw [hunit, hslt, hsltu, hload, hstore]
  rfl

theorem kind_cases (h : isCsr ir = true) : (funct3 ir).setWidth 2 = 1#2 ∨
    (funct3 ir).setWidth 2 = 2#2 ∨ (funct3 ir).setWidth 2 = 3#2 := by
  obtain ⟨-, hf⟩ := csr_cases h
  rcases hf with hf | hf | hf | hf | hf | hf <;> rw [hf] <;> decide

/-- The ALU modifies the old value, given the source. -/
theorem alu_of_csrWord {w : Dec2Exe} {old : BitVec 32} (hcsr : isCsr ir = true)
    (h : CsrWord w ir old) (v : BitVec 32) :
    Exe.alu w.exeCmd (complement (clears ir) (source ir v)) w.op2 false = modify ir v old := by
  rw [h.exeCmd, h.op2, modify]
  unfold clears
  rcases kind_cases hcsr with hkind | hkind | hkind
  · rw [hkind]
    change source ir v + 0#32 + 0#32 = source ir v
    rw [BitVec.add_zero, BitVec.add_zero]
  · rw [hkind]
    exact BitVec.or_comm _ _
  · rw [hkind]
    exact BitVec.and_comm _ _

/-- With an exact operand EXE writes the modified value. -/
theorem dinSe_of_csrWord {old v : BitVec 32} (hx : i.exceptionSm = false) (hcsr : isCsr ir = true)
    (h : CsrWord s.rd ir old) (hexc : s.rd.exception = false)
    (hop1 : (Backend.exeSig s i).byp.op1Se = complement (clears ir) (source ir v)) :
    (Backend.exeSig s i).exe2memDinSe.exeRes = modify ir v old ∧
      (Backend.exeSig s i).exe2memDinSe.exception = false ∧
      (Backend.exeSig s i).exe2memDinSe.wb = true := by
  have hres := res_of_csrWord (i := i) h
  rw [hop1, alu_of_csrWord hcsr h] at hres
  have hexc' : (Backend.exeSig s i).exceptionSe = false := by
    change (s.rd.exception || (Backend.exeSig s i).res.flagged) = false
    rw [hexc, hres]
    rfl
  obtain ⟨j, hj⟩ := Backend.dinSe_eq_fifoConcat (s := s) hx
  rw [hj, hexc', hres]
  exact ⟨rfl, rfl, h.wb⟩

end Zicsr

end RiVerSoC
