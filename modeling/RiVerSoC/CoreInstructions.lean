/-
The instructions of RV32IM on the core.

* `decodedIn` — what DEC makes of an instruction whose registers are read one instruction at a
  time;
* `exeWord_decWord` — the machine that takes one instruction at a time executes just that;
* `Deviates` — the loads that miss their lane, and a product or a quotient that the multiplier or
  the divider has not got;
* `executes_rv32im_iff` — an instruction has its effect exactly when none of them is there, or its
  destination is x0.
-/
import RiVerSoC.BackendRefine
import RiVerSoC.DivideResult
import RiVerSoC.Multiplier
import RiVerSoC.AccessDecode

namespace RiVerSoC

open Decode AluInstructions

/-! ### RV32IM -/

/-- The value that an instruction of RV32M gives to its destination. -/
def rv32mResult (f : BitVec 3) (x y : BitVec 32) : BitVec 32 :=
  if f = 0b000 then Multiplier.MulInst.mul.result x y
  else if f = 0b001 then Multiplier.MulInst.mulh.result x y
  else if f = 0b010 then Multiplier.MulInst.mulhsu.result x y
  else if f = 0b011 then Multiplier.MulInst.mulhu.result x y
  else Diviseur.rv32m f x y

/-- The registers and the RAM after the word `ir` at `pc`, RV32M included. -/
def Rv32i.effectM (ir pc : BitVec 32) (a : Arch) : Option Arch :=
  if opcode ir = 0b0110011 ∧ funct7 ir = 1 then
    some { a with
      registers := a.registers.write ((rd ir).setWidth 6)
        (rv32mResult (funct3 ir) (a.registers.read ((rs1 ir).setWidth 6))
          (a.registers.read ((rs2 ir).setWidth 6))) }
  else Rv32i.effect ir pc a

namespace Backend

/-! ### What DEC makes of an instruction -/

section Decoded

variable (s : State) (i : Cycle) (g : Registers)

/-- The sources, with the registers as they are in `g`. -/
def sourcesIn : Sources where
  rdata1 := g.read (radr1 (decodingInstructionType i.ir) (decodingInstruction i.ir) i.ir)
  rdata2 := g.read (radr2 (decodingInstructionType i.ir) i.ir)
  pcIf2dec := i.fetch.pcIf2dec
  readPc := i.readPc
  csrRdataSc := i.csrRdataSc
  if2decEmpty := i.if2decEmpty

/-- The signals of `post_reg_read_decoding` for them. -/
def decodedIn : Operation :=
  postRegReadDecoding i.ir (decodingInstructionType i.ir) (decodingInstruction i.ir)
    (sourcesIn i g) i.uninit s.operation

/-- The word for EXE. -/
def wordIn : Dec2Exe :=
  Dec.concatDec2exe false i.fetch (decInsts s i) (decRegs s i) (decSig s i).haz
    (decodedIn s i g) i.csrRdataSc

end Decoded

theorem operation_system (ir : BitVec 32) (n : Insts) (c : Sources) (u : Uninit)
    (old : Operation) : operation ir (Format.types .system) n c u old =
      if n.csr then (csrOperation ir n c, false)
      else if n.ecall || n.ebreak || n.sret || n.mret then (idle, false)
      else (otherSystemOperation u old, false) := rfl

theorem operation_other (ir : BitVec 32) (n : Insts) (c : Sources) (u : Uninit) (old : Operation) :
    operation ir (Format.types .other) n c u old =
      if n.fence then (idle, false) else ({ idle with jump := u.jump }, true) := rfl

/-- Only the operands, the target and the direction of a jump depend on the registers. -/
theorem postRegReadDecoding_congr (ir : BitVec 32) (c c' : Sources) (u : Uninit) (old : Operation)
    (hempty : c.if2decEmpty = c'.if2decEmpty) :
    let o := postRegReadDecoding ir (decodingInstructionType ir) (decodingInstruction ir) c u old
    let o' := postRegReadDecoding ir (decodingInstructionType ir) (decodingInstruction ir) c' u old
    o = { o' with
      op1 := o.op1
      op2 := o.op2
      memData := o.memData
      offsetBranch := o.offsetBranch
      jump := o.jump } := by
  dsimp only
  unfold postRegReadDecoding
  obtain ⟨f, hf⟩ := exists_format ir
  generalize decodingInstruction ir = n
  rw [hf, hempty]
  cases f with
  | r | i | s | b | u | j | jalr | m => rfl
  | system =>
    rw [operation_system, operation_system]
    split_ifs <;> rfl
  | other =>
    rw [operation_other, operation_other]

/-- The first operand depends on the first register only, and that of a jump not even on it. -/
theorem op1_congr (ir : BitVec 32) {c c' : Sources} (u : Uninit) (old : Operation)
    (hread : c.readPc = c'.readPc)
    (hr : c.rdata1 = c'.rdata1 ∨ (decodingInstructionType ir).jalr = true) :
    (postRegReadDecoding ir (decodingInstructionType ir) (decodingInstruction ir) c u old).op1 =
      (postRegReadDecoding ir (decodingInstructionType ir) (decodingInstruction ir) c' u
        old).op1 := by
  obtain ⟨r1, r2, pc, readPc, csr, empty⟩ := c
  obtain ⟨r1', r2', pc', readPc', csr', empty'⟩ := c'
  dsimp only at hread hr
  subst hread
  obtain ⟨f, hf⟩ := exists_format ir
  generalize decodingInstruction ir = n
  rw [hf] at hr ⊢
  cases f with
  | u | j | jalr => rfl
  | r | i | s | b | m =>
    obtain rfl := hr.resolve_right Bool.false_ne_true
    rfl
  | system =>
    obtain rfl := hr.resolve_right Bool.false_ne_true
    unfold postRegReadDecoding
    rw [operation_system, operation_system]
    split_ifs <;> rfl
  | other =>
    unfold postRegReadDecoding
    rw [operation_other, operation_other]

/-- The second operand and the data of a store depend on the second register only; the offset of a
store does not. -/
theorem op2_congr (ir : BitVec 32) {c c' : Sources} (u : Uninit) (old : Operation)
    (hpc : c.pcIf2dec = c'.pcIf2dec) (hcsr : c.csrRdataSc = c'.csrRdataSc)
    (hr : c.rdata2 = c'.rdata2 ∨ (decodingInstructionType ir).jalr = true ∨
      (decodingInstructionType ir).s = true) :
    (postRegReadDecoding ir (decodingInstructionType ir) (decodingInstruction ir) c u old).op2 =
      (postRegReadDecoding ir (decodingInstructionType ir) (decodingInstruction ir) c' u
        old).op2 := by
  obtain ⟨r1, r2, pc, readPc, csr, empty⟩ := c
  obtain ⟨r1', r2', pc', readPc', csr', empty'⟩ := c'
  dsimp only at hpc hcsr hr
  subst hpc hcsr
  obtain ⟨f, hf⟩ := exists_format ir
  generalize decodingInstruction ir = n
  rw [hf] at hr ⊢
  have hsame : f ≠ .jalr → f ≠ .s → r2 = r2' := by
    intro hj hs
    refine hr.resolve_right ?_
    rintro (h | h)
    · revert h hj
      cases f <;> decide
    · revert h hs
      cases f <;> decide
  cases f with
  | s | j | jalr => rfl
  | r | i | u | b | m =>
    obtain rfl := hsame (by decide) (by decide)
    rfl
  | system =>
    unfold postRegReadDecoding
    rw [operation_system, operation_system]
    split_ifs <;> rfl
  | other =>
    unfold postRegReadDecoding
    rw [operation_other, operation_other]

/-- Only a store has data. -/
theorem memData_of_not_s (ir : BitVec 32) (c : Sources) (u : Uninit) (old : Operation)
    (hs : (decodingInstructionType ir).s = false) :
    (postRegReadDecoding ir (decodingInstructionType ir) (decodingInstruction ir) c u old).memData =
      0 := by
  obtain ⟨f, hf⟩ := exists_format ir
  generalize decodingInstruction ir = n
  rw [hf] at hs ⊢
  cases f with
  | r | i | u | b | m | j | jalr => rfl
  | s => exact absurd hs.symm Bool.false_ne_true
  | system =>
    unfold postRegReadDecoding
    rw [operation_system]
    split_ifs <;> rfl
  | other =>
    unfold postRegReadDecoding
    rw [operation_other]
    split_ifs <;> rfl

theorem memData_of_s {ir : BitVec 32} (hs : (decodingInstructionType ir).s = true) (c : Sources)
    (u : Uninit) (old : Operation) :
    (postRegReadDecoding ir (decodingInstructionType ir) (decodingInstruction ir) c u old).memData =
      c.rdata2 := by
  obtain ⟨f, hf⟩ := exists_format ir
  rw [hf] at hs ⊢
  cases f with
  | s => rfl
  | r | i | u | b | m | j | jalr | system | other => exact absurd hs Bool.false_ne_true

theorem jalr_of_s {ir : BitVec 32} (hs : (decodingInstructionType ir).s = true) :
    (decodingInstructionType ir).jalr = false := by
  obtain ⟨f, hf⟩ := exists_format ir
  rw [hf] at hs ⊢
  cases f with
  | s => rfl
  | r | i | u | b | m | j | jalr | system | other => exact absurd hs Bool.false_ne_true

/-! ### The operands -/

section Word

variable {s : State} {i : Cycle} {x : Executed} {g : Registers}

theorem decOperation_eq (s : State) (i : Cycle) (g : Registers) : decOperation s i =
    { decodedIn s i g with
      op1 := (decOperation s i).op1
      op2 := (decOperation s i).op2
      memData := (decOperation s i).memData
      offsetBranch := (decOperation s i).offsetBranch
      jump := (decOperation s i).jump } :=
  postRegReadDecoding_congr i.ir _ (sourcesIn i g) i.uninit s.operation rfl

/-- DEC reads x0 as it is in the register file, whenever `bypasses` has run last. -/
theorem rdata_of_zero (hzero : s.registers.read 0 = 0) :
    ((decSig s i).radr.1 = 0 → (decSig s i).haz.rdata1 = 0) ∧
      ((decSig s i).radr.2 = 0 → (decSig s i).haz.rdata2 = 0) := by
  obtain ⟨p, old, hhaz⟩ := (decStage s i).atRest.haz_eq
  have hbypass : ∀ (q : Dec.Stages) (csrrc : Bool) (r : BitVec 6) (old : BitVec 32), r = 0 →
      (Dec.bypass q csrrc r (s.registers.read r) old).1 = 0 := by
    intro q csrrc r old hr
    rw [hr, Dec.bypass, if_pos rfl]
    exact hzero
  exact ⟨fun hr => (congrArg Dec.Hazards.rdata1 hhaz).trans (hbypass _ _ _ _ hr),
    fun hr => (congrArg Dec.Hazards.rdata2 hhaz).trans (hbypass _ _ _ _ hr)⟩

/-- The word that DEC sends without an exception. -/
structure Sends (s : State) (i : Cycle) (x : Executed) : Prop where
  trap : i.exceptionSm = false
  word : x.word = decWord s i
  full : i.if2decEmpty = false
  zero : s.registers.read 0 = 0
  legal : x.word.exception = false

variable (h : Sends s i x)

include h

theorem illegalInstruction_of_sends : (decOperation s i).illegalInstruction = false := by
  obtain ⟨-, -, -, -, -, -, -, -, -, hlegal⟩ := decWord_eq (s := s) h.trap
  have hexc := h.legal
  rw [h.word] at hexc
  exact hlegal hexc

theorem illegalFunction_of_sends :
    illegalFunction i.ir (decodingInstructionType i.ir) = false := by
  have hor : ((_ || illegalFunction i.ir (decodingInstructionType i.ir)) && !i.if2decEmpty) =
      false := illegalInstruction_of_sends h
  rw [h.full, Bool.not_false, Bool.and_true] at hor
  exact (Bool.or_eq_false_iff.mp hor).2

/-- The words of the store format are the stores. -/
theorem memStore_of_sends :
    (decodedIn s i g).memStore = (decodingInstructionType i.ir).s := by
  have hstore : (decodingInstructionType i.ir).s = true → _ :=
    fun hs => store_of_s hs (illegalFunction_of_sends h)
  rw [decodedIn]
  generalize decodingInstruction i.ir = n at hstore ⊢
  obtain ⟨f, hf⟩ := exists_format i.ir
  rw [hf] at hstore ⊢
  unfold postRegReadDecoding
  cases f with
  | s => exact hstore rfl
  | r | i | u | b | m | j | jalr => rfl
  | system =>
    rw [operation_system]
    split_ifs <;> rfl
  | other =>
    rw [operation_other]
    split_ifs <;> rfl

theorem op1Se_decWord (hg : g.read 0 = 0) :
    (x.operands g).op1Se = (decodedIn s i g).op1 := by
  obtain ⟨hradr1, -, hcsrrc, hblock, hop1, -⟩ := decWord_eq (s := s) h.trap
  rw [Executed.operands]
  dsimp only
  rw [h.word, hradr1, hcsrrc, hblock, hop1]
  split_ifs with hnone
  · refine op1_congr i.ir _ _ rfl (hnone.imp_left fun hr => ?_)
    -- x0 is 0 for DEC too
    refine ((rdata_of_zero h.zero).1 hr).trans ?_
    change 0 = g.read (decSig s i).radr.1
    rw [hr, hg]
  · obtain ⟨hr, hj⟩ := not_or.mp hnone
    exact (@op1_of_radr1 i.ir _ _ rfl rfl hr (Bool.eq_false_iff.mpr hj) (sourcesIn i g) _ _).symm

theorem op2Se_decWord (hg : g.read 0 = 0) :
    (x.operands g).op2Se = (decodedIn s i g).op2 ∧
      (x.operands g).bpMemDataSd = (decodedIn s i g).memData := by
  obtain ⟨-, hradr2, -, hblock, -, hop2, hdata, hstore, -⟩ := decWord_eq (s := s) h.trap
  have hmemStore : (decOperation s i).memStore = (decodedIn s i g).memStore := by
    rw [decOperation_eq s i g]
  have hillegal : (decodedIn s i g).illegalInstruction = false := by
    have hdec := illegalInstruction_of_sends h
    rwa [decOperation_eq s i g] at hdec
  have hzero : (decSig s i).radr.2 = 0 →
      (decSig s i).haz.rdata2 = (sourcesIn i g).rdata2 := by
    intro hr
    refine ((rdata_of_zero h.zero).2 hr).trans ?_
    change 0 = g.read (decSig s i).radr.2
    rw [hr, hg]
  have hregister : (decSig s i).radr.2 ≠ 0 →
      (if (decodedIn s i g).memStore then (decodedIn s i g).memData else (decodedIn s i g).op2) =
        g.read (decSig s i).radr.2 :=
    fun hr => @op2_of_radr2 i.ir _ _ rfl rfl hr (sourcesIn i g) _ _ h.full hillegal
  rw [Executed.operands]
  dsimp only
  rw [h.word, hradr2, hblock, hop2, hdata, hstore, hmemStore]
  -- the register goes to the data of a store, and to the operand otherwise
  constructor
  · split_ifs with hnone
    · refine op2_congr i.ir _ _ rfl rfl ?_
      rcases hnone with hr | hj | hst
      · exact Or.inl (hzero hr)
      · exact Or.inr (Or.inl hj)
      · exact Or.inr (Or.inr ((memStore_of_sends h).symm.trans hst))
    · obtain ⟨hr, -, hst⟩ := by simpa only [not_or] using hnone
      have hread := hregister hr
      rw [if_neg hst] at hread
      exact hread.symm
  · split_ifs with hnone
    · cases hs : (decodingInstructionType i.ir).s with
      | false => exact (memData_of_not_s _ _ _ _ hs).trans (memData_of_not_s _ _ _ _ hs).symm
      | true =>
        rw [decOperation, decodedIn]
        refine (memData_of_s hs _ _ _).trans ((hzero ?_).trans (memData_of_s hs _ _ _).symm)
        rcases hnone with hr | hj | hst
        · exact hr
        · exact absurd (hj.symm.trans (jalr_of_s hs)) (by decide)
        · exact absurd (hst.symm.trans ((memStore_of_sends h).trans hs)) (by decide)
    · obtain ⟨hr, -, hst⟩ := by simpa only [not_or] using hnone
      have hread := hregister hr
      rw [if_pos (by simpa using hst)] at hread
      exact hread.symm

end Word

/-! ### EXE -/

/-- `exe_res_se` and the flags, for the operands in DEC2EXE. -/
def outcome (j : Exe.Inputs) (old : BitVec 32) : Exe.ExeRes :=
  let pre := Exe.preprocessOp j.rd.negOp2 j.rd.op2
  Exe.selectExecRes j j.rd.op1 j.rd.op2 (Exe.alu j.rd.exeCmd j.rd.op1 pre.1 j.rd.negOp2)
    (Shifter.dout j.rd.exeCmd j.rd.op1 pre.2) old

/-- What EXE would see, with the registers as they are in `g`. -/
def inputsIn (s : State) (i : Cycle) (x : Executed) (g : Registers) : Exe.Inputs :=
  { x.inputs with rd := wordIn s i g }

section Exe

variable {s : State} {i : Cycle} {x : Executed} {a : Arch}

/-- Only the operands of the word depend on the registers. -/
theorem decWord_eq_wordIn (hx : i.exceptionSm = false) (g : Registers) : ∃ op1 op2 memData,
    decWord s i = { wordIn s i g with op1 := op1, op2 := op2, memData := memData } := by
  refine ⟨(decOperation s i).op1, (decOperation s i).op2, (decOperation s i).memData, ?_⟩
  rw [decWord, Dec.concatDec2exe, hx, if_neg Bool.false_ne_true, decOperation_eq s i g]
  rfl

theorem evaluate_eq_outcome (j : Exe.Inputs) (old : BitVec 32) :
    (Exe.evaluate j ⟨j.rd.op1, j.rd.op2, j.rd.memData, false, true, true⟩ old).exe2memDinSe =
      Exe.fifoConcat j j.rd.memData (outcome j old) (Exe.exceptionSe j (outcome j old))
        (Exe.effects j (Exe.exceptionSe j (outcome j old))) := by
  have hres : (Exe.evaluate j ⟨j.rd.op1, j.rd.op2, j.rd.memData, false, true, true⟩ old).res =
      outcome j old := by
    unfold Exe.evaluate outcome Shifter.dout
    dsimp only
    rw [(Shifter.exe_shifter_eq _ _ false).1, (Shifter.exe_shifter_eq _ _ _).2]
  rw [← hres]
  rfl

/-- An instruction is executed as DEC and EXE would, were the registers read one instruction at a
time. -/
theorem exeWord_decWord (h : Sends s i x) (ha : a.registers.read 0 = 0) : a.exeWord x =
    Exe.fifoConcat (inputsIn s i x a.registers) (decodedIn s i a.registers).memData
      (outcome (inputsIn s i x a.registers) x.exeResSe)
      (outcome (inputsIn s i x a.registers) x.exeResSe).flagged
      (if (outcome (inputsIn s i x a.registers) x.exeResSe).flagged then (false, false, false)
        else ((decodedIn s i a.registers).wb, (decodedIn s i a.registers).memLoad,
          (decodedIn s i a.registers).memStore)) := by
  have h1 := op1Se_decWord (g := a.registers) h ha
  obtain ⟨h2, hdata⟩ := op2Se_decWord (g := a.registers) h ha
  obtain ⟨op1, op2, memData, hword⟩ := decWord_eq_wordIn (s := s) h.trap a.registers
  have hoperands : x.operands a.registers =
      ⟨(wordIn s i a.registers).op1, (wordIn s i a.registers).op2,
        (wordIn s i a.registers).memData, false, true, true⟩ := by
    have heta : x.operands a.registers =
        ⟨(x.operands a.registers).op1Se, (x.operands a.registers).op2Se,
          (x.operands a.registers).bpMemDataSd, false, true, true⟩ := rfl
    rw [heta, h1, h2, hdata]
    rfl
  have hlegal := h.legal
  rw [h.word, hword] at hlegal
  have hexc : Exe.exceptionSe (inputsIn s i x a.registers)
      (outcome (inputsIn s i x a.registers) x.exeResSe) =
        (outcome (inputsIn s i x a.registers) x.exeResSe).flagged := by
    rw [Exe.exceptionSe, show (inputsIn s i x a.registers).rd.exception = false from hlegal,
      Bool.false_or]
  have heval := evaluate_eq_outcome (inputsIn s i x a.registers) x.exeResSe
  rw [hexc] at heval
  refine Eq.trans ?_ heval
  rw [Arch.exeWord, hoperands, Executed.inputs, h.word, hword]
  rfl

end Exe

/-! ### One instruction -/

section Execute

variable {s : State} {i : Cycle} {x : Executed} {a : Arch}

/-- The destination of an instruction. -/
abbrev destOf (ir : BitVec 32) : BitVec 6 :=
  adrDest (decodingInstructionType ir) (decodingInstruction ir) ir

theorem flagged_of_no_access {j : Exe.Inputs} (hl : j.rd.memLoad = false)
    (hs : j.rd.memStore = false) (old : BitVec 32) : (outcome j old).flagged = false := by
  unfold outcome Exe.selectExecRes
  simp only [hl, hs, Bool.false_eq_true, if_false]
  split_ifs <;> rfl

/-- Without an access the result goes to the destination. -/
theorem execute_of_no_access (h : Sends s i x) (ha : a.registers.read 0 = 0)
    (hl : (decodedIn s i a.registers).memLoad = false)
    (hs : (decodedIn s i a.registers).memStore = false) : a.execute x =
      ⟨if (decodedIn s i a.registers).wb then
        a.registers.write (destOf i.ir)
          (if (decodedIn s i a.registers).csrWenable then i.csrRdataSc
            else if (decodingInstruction i.ir).multInst then x.product
            else (outcome (inputsIn s i x a.registers) x.exeResSe).exeResSe)
      else a.registers, a.ram⟩ := by
  have hword := exeWord_decWord (a := a) h ha
  have hflag := flagged_of_no_access (j := inputsIn s i x a.registers) hl hs x.exeResSe
  rw [hflag, if_neg Bool.false_ne_true, hl, hs] at hword
  have hram : (a.answer x).1 = a.ram := by
    rw [Arch.answer, hword, ramAccess]
    rfl
  have hdest : regOf ((destOf i.ir).setWidth 5) = destOf i.ir := regOf_adrDest _ _ _
  rw [Arch.execute, hram, Arch.memWord, hword, writeBack]
  change (⟨if ((decodedIn s i a.registers).wb || false) = true then
    a.registers.write (regOf ((destOf i.ir).setWidth 5)) _ else a.registers, a.ram⟩ : Arch) = _
  rw [hdest, Bool.or_false]
  rfl

end Execute

/-! ### Results of the ALU, the multiplier and the divider -/

section Classes

variable {s : State} {i : Cycle} {x : Executed} {a : Arch}

/-- The formats R, I, U and M write what EXE or the multiplier has. -/
theorem execute_of_register (h : Sends s i x) (ha : a.registers.read 0 = 0) {f : Format}
    (hf : decodingInstructionType i.ir = f.types) (hr : f = .r ∨ f = .i ∨ f = .u ∨ f = .m)
    (hl : (decodingInstruction i.ir).load = false) : a.execute x =
      ⟨a.registers.write ((rd i.ir).setWidth 6)
        (if (decodingInstruction i.ir).multInst then x.product
          else exeRes (inputsIn s i x a.registers) x.exeResSe), a.ram⟩ := by
  have hdecoded : (decodedIn s i a.registers).wb = true ∧
      (decodedIn s i a.registers).memLoad = (decodingInstruction i.ir).load ∧
      (decodedIn s i a.registers).memStore = false ∧
      (decodedIn s i a.registers).csrWenable = false := by
    rw [decodedIn, hf]
    rcases hr with rfl | rfl | rfl | rfl <;> exact ⟨rfl, rfl, rfl, rfl⟩
  have hdest : destOf i.ir = (rd i.ir).setWidth 6 := by
    rw [destOf, hf]
    rcases hr with rfl | rfl | rfl | rfl <;> rfl
  obtain ⟨hwb, hload, hstore, hcsr⟩ := hdecoded
  rw [execute_of_no_access h ha (hload.trans hl) hstore, hwb, if_pos rfl, hcsr,
    if_neg Bool.false_ne_true, hdest]
  rfl

/-- What the formats of the ALU instructions read. -/
theorem alu_formats {ir pc v : BitVec 32} (g : Registers)
    (hv : aluResult ir pc (g.read ((rs1 ir).setWidth 6)) (g.read ((rs2 ir).setWidth 6)) = some v) :
    ∃ f : Format, decodingInstructionType ir = f.types ∧ (f = .r ∨ f = .i ∨ f = .u ∨ f = .m) ∧
      (decodingInstruction ir).load = false ∧ (decodingInstruction ir).multInst = false ∧
      aluResult ir pc (g.read (radr1 f.types (decodingInstruction ir) ir))
        (g.read (radr2 f.types ir)) = some v := by
  by_cases hopr : opcode ir = 0b0110011
  · have hf7 : funct7 ir = 0 ∨ funct7 ir = 0b0100000 := by
      rw [aluResult, if_pos hopr] at hv
      split_ifs at hv with hzero halt
      · exact Or.inl hzero
      · exact Or.inr halt.1
    refine ⟨.r, ?_, Or.inl rfl, ?_, ?_, hv⟩
    · rcases hf7 with hf7 | hf7 <;> simp [decodingInstructionType, hopr, hf7] <;> rfl
    · simp [decodingInstruction, Insts.load, has3, hopr]
    · rcases hf7 with hf7 | hf7 <;> simp [decodingInstruction, Insts.multInst, has7, hf7]
  by_cases hopi : opcode ir = 0b0010011
  · refine ⟨.i, ?_, Or.inr (Or.inl rfl), ?_, ?_, ?_⟩
    · simp [decodingInstructionType, hopi]
      rfl
    · simp [decodingInstruction, Insts.load, has3, hopi]
    · simp [decodingInstruction, Insts.multInst, has7, hopi]
    · -- the immediate takes the place of the second register
      rw [aluResult, if_neg hopr, if_pos hopi] at hv ⊢
      exact hv
  have hopu : opcode ir = 0b0110111 ∨ opcode ir = 0b0010111 := by
    rw [aluResult, if_neg hopr, if_neg hopi] at hv
    split_ifs at hv with hlui hauipc
    · exact Or.inl hlui
    · exact Or.inr hauipc
  refine ⟨.u, ?_, Or.inr (Or.inr (Or.inl rfl)), ?_, ?_, ?_⟩
  · rcases hopu with hop | hop <;> simp [decodingInstructionType, hop] <;> rfl
  · rcases hopu with hop | hop <;> simp [decodingInstruction, Insts.load, has3, hop]
  · rcases hopu with hop | hop <;> simp [decodingInstruction, Insts.multInst, has7, hop]
  · rw [aluResult, if_neg hopr, if_neg hopi] at hv ⊢
    exact hv

/-- `ebreak_i_sd`, which may be an old one, does not choose the result. -/
theorem controlIn_wordIn (s : State) (i : Cycle) (g : Registers) : controlIn (wordIn s i g) =
    ⟨(decodedIn s i g).exeCmd, (decodedIn s i g).selectTypeOperations, (decodedIn s i g).negOp2,
      (decodingInstruction i.ir).slt || (decodingInstruction i.ir).slti,
      (decodingInstruction i.ir).sltu || (decodingInstruction i.ir).sltiu⟩ := rfl

theorem presents_wordIn (s : State) (i : Cycle) (g : Registers)
    (hrt : ((decodingInstructionType i.ir).r || (decodingInstructionType i.ir).i ||
      (decodingInstructionType i.ir).u || (decodingInstructionType i.ir).m) = true) :
    Presents (wordIn s i g) i.ir (decodingInstructionType i.ir) (sourcesIn i g) := by
  obtain ⟨hcommand, hop1, hop2⟩ := presents_decWord i.ir hrt (sourcesIn i g) i.uninit s.operation
    i.fetch (decRegs s i) (decSig s i).haz i.csrRdataSc
  exact ⟨hcommand, hop1, hop2⟩

theorem execute_alu (h : Sends s i x) (ha : a.registers.read 0 = 0) {v : BitVec 32}
    (hv : aluResult i.ir i.fetch.pcIf2dec (a.registers.read ((rs1 i.ir).setWidth 6))
      (a.registers.read ((rs2 i.ir).setWidth 6)) = some v) :
    a.execute x = ⟨a.registers.write ((rd i.ir).setWidth 6) v, a.ram⟩ := by
  obtain ⟨f, hf, hr, hl, hm, hv'⟩ := alu_formats a.registers hv
  rw [execute_of_register h ha hf hr hl, hm, if_neg Bool.false_ne_true]
  rw [← hf] at hv'
  have hx0 : radr2 (decodingInstructionType i.ir) i.ir = 0 →
      (sourcesIn i a.registers).rdata2 = 0 := by
    intro hzero
    rw [sourcesIn, hzero]
    exact ha
  rw [exeRes_of_presents (i := inputsIn s i x a.registers)
    (presents_wordIn s i a.registers (types_of_aluResult hv')) hx0 hv']

/-- A multiplication writes what the multiplier has, a division what the divider has. -/
theorem execute_m (h : Sends s i x) (ha : a.registers.read 0 = 0)
    (hop : opcode i.ir = 0b0110011) (hf7 : funct7 i.ir = 1) :
    a.execute x = ⟨a.registers.write ((rd i.ir).setWidth 6)
      (if (funct3 i.ir).ult 4 then x.product else x.dividerRes), a.ram⟩ := by
  have hf : decodingInstructionType i.ir = Format.types .m := by
    simp [decodingInstructionType, hop, hf7]
    rfl
  have hl : (decodingInstruction i.ir).load = false := by
    simp [decodingInstruction, Insts.load, has3, hop]
  have hmult : (decodingInstruction i.ir).multInst = (funct3 i.ir).ult 4 := by
    simp only [decodingInstruction, Insts.multInst, has7, hop, hf7]
    generalize funct3 i.ir = f
    revert f
    decide
  have hdiv : (decodingInstruction i.ir).divInst = !(funct3 i.ir).ult 4 := by
    simp only [decodingInstruction, Insts.divInst, has7, hop, hf7]
    generalize funct3 i.ir = f
    revert f
    decide
  rw [execute_of_register h ha hf (Or.inr (Or.inr (Or.inr rfl))) hl, hmult]
  cases hlt : (funct3 i.ir).ult 4 with
  | true => rfl
  | false =>
    have hunit : (inputsIn s i x a.registers).rd.selectTypeOperations = 8 := by
      rw [inputsIn, wordIn, Dec.concatDec2exe, if_neg Bool.false_ne_true]
      dsimp only
      rw [decodedIn, hf]
      exact unit_eq_eight.mpr (hdiv.trans (by rw [hlt]; rfl))
    rw [if_neg Bool.false_ne_true, if_neg Bool.false_ne_true, exeRes, Exe.selectExecRes,
      if_pos hunit]
    rfl

end Classes

/-! ### Jumps, branches and `fence` -/

section Transfers

variable {s : State} {i : Cycle} {x : Executed} {a : Arch}

/-- A jump writes the address behind it. -/
theorem execute_jump (h : Sends s i x) (ha : a.registers.read 0 = 0)
    (hop : opcode i.ir = 0b1101111 ∨ opcode i.ir = 0b1100111) :
    a.execute x = ⟨a.registers.write ((rd i.ir).setWidth 6) i.readPc, a.ram⟩ := by
  obtain ⟨f, hf, hj⟩ : ∃ f : Format, decodingInstructionType i.ir = f.types ∧
      (f = .j ∨ f = .jalr) := by
    rcases hop with hop | hop
    · exact ⟨.j, by simp [decodingInstructionType, hop]; rfl, Or.inl rfl⟩
    · exact ⟨.jalr, by simp [decodingInstructionType, hop]; rfl, Or.inr rfl⟩
  have hdecoded : (decodedIn s i a.registers).wb = true ∧
      (decodedIn s i a.registers).memLoad = false ∧
      (decodedIn s i a.registers).memStore = false ∧
      (decodedIn s i a.registers).csrWenable = false := by
    rw [decodedIn, hf]
    rcases hj with rfl | rfl <;> exact ⟨rfl, rfl, rfl, rfl⟩
  have hinsts : (decodingInstruction i.ir).multInst = false ∧
      ((decodingInstruction i.ir).slt || (decodingInstruction i.ir).slti) = false ∧
      ((decodingInstruction i.ir).sltu || (decodingInstruction i.ir).sltiu) = false := by
    rcases hop with hop | hop <;>
      simp [decodingInstruction, Insts.multInst, has3, has7, hop]
  obtain ⟨hwb, hload, hstore, hcsr⟩ := hdecoded
  obtain ⟨hm, hslt, hsltu⟩ := hinsts
  have hdest : destOf i.ir = (rd i.ir).setWidth 6 := by
    rw [destOf, hf]
    rcases hj with rfl | rfl <;> rfl
  have hword : controlIn (wordIn s i a.registers) = control 0b000 false ∧
      (wordIn s i a.registers).op1 = i.readPc ∧ (wordIn s i a.registers).op2 = 0 := by
    rw [controlIn_wordIn, hslt, hsltu, decodedIn, hf, wordIn, decodedIn, hf]
    rcases hj with rfl | rfl <;> exact ⟨rfl, rfl, rfl⟩
  have hres : exeRes (inputsIn s i x a.registers) x.exeResSe = i.readPc := by
    rw [exeRes_of_control (i := inputsIn s i x a.registers) hword.1]
    change (wordIn s i a.registers).op1 + (wordIn s i a.registers).op2 = _
    rw [hword.2.1, hword.2.2]
    exact BitVec.add_zero _
  rw [execute_of_no_access h ha hload hstore, hwb, if_pos rfl, hcsr, if_neg Bool.false_ne_true, hm,
    if_neg Bool.false_ne_true, hdest]
  exact congrArg (fun v => (⟨a.registers.write _ v, a.ram⟩ : Arch)) hres

/-- A branch has x0 as its destination. -/
theorem execute_branch (h : Sends s i x) (ha : a.registers.read 0 = 0)
    (hop : opcode i.ir = 0b1100011) : a.execute x = a := by
  have hf : decodingInstructionType i.ir = Format.types .b := by
    simp [decodingInstructionType, hop]
    rfl
  have hload : (decodedIn s i a.registers).memLoad = false := by
    rw [decodedIn, hf]
    rfl
  have hstore : (decodedIn s i a.registers).memStore = false := by
    rw [decodedIn, hf]
    rfl
  have hdest : destOf i.ir = 0 := by
    rw [destOf, hf]
    rfl
  rw [execute_of_no_access h ha hload hstore, hdest]
  split_ifs <;> rfl

/-- `fence` has no effect. -/
theorem execute_fence (h : Sends s i x) (ha : a.registers.read 0 = 0)
    (hop : opcode i.ir = 0b0001111) (hf3 : funct3 i.ir = 0) : a.execute x = a := by
  have hf : decodingInstructionType i.ir = Format.types .other := by
    simp [decodingInstructionType, hop]
    rfl
  have hfence : (decodingInstruction i.ir).fence = true := by
    simp [decodingInstruction, has3, hop, hf3]
  have hdecoded : (decodedIn s i a.registers).memLoad = false ∧
      (decodedIn s i a.registers).memStore = false ∧ (decodedIn s i a.registers).wb = false := by
    rw [decodedIn, hf]
    unfold postRegReadDecoding
    rw [operation_other, if_pos hfence]
    exact ⟨rfl, rfl, rfl⟩
  obtain ⟨hload, hstore, hwb⟩ := hdecoded
  rw [execute_of_no_access h ha hload hstore, hwb]
  rfl

end Transfers

/-! ### Loads and stores -/

section Accesses

variable {s : State} {i : Cycle} {x : Executed} {a : Arch}

/-- EXE computes the address of an access and checks it. -/
theorem outcome_of_access {j : Exe.Inputs} (hc : controlIn j.rd = control 0b000 false)
    (hacc : (j.rd.memLoad || j.rd.memStore) = true) (old : BitVec 32) :
    (outcome j old).exeResSe = j.rd.op1 + j.rd.op2 ∧
      (outcome j old).flagged = (Exe.missaligned j.rd.memSize (j.rd.op1 + j.rd.op2) ||
        Exe.accessFault j (j.rd.op1 + j.rd.op2)) := by
  have hres : (outcome j old).exeResSe = j.rd.op1 + j.rd.op2 := exeRes_of_control hc old
  refine ⟨hres, ?_⟩
  have hunit : j.rd.selectTypeOperations = 1 := congrArg Control.unit hc
  have hslt : j.rd.slt = false := congrArg Control.slt hc
  have hsltu : j.rd.sltu = false := congrArg Control.sltu hc
  rw [← hres]
  unfold outcome Exe.selectExecRes
  rw [hunit, hslt, hsltu]
  cases hl : j.rd.memLoad with
  | true => simp [Exe.ExeRes.flagged]
  | false =>
    rw [hl, Bool.false_or] at hacc
    simp [Exe.ExeRes.flagged, hacc, Bool.or_comm]

theorem missaligned_of_mod {size : BitVec 2} {adr : BitVec 32} {n : ℕ} (hn : Access.bytes size = n)
    (hmod : adr.toNat % n = 0) : Exe.missaligned size adr = false := by
  rw [Bool.eq_false_iff]
  intro hmiss
  exact (Access.missaligned_iff size adr).mp hmiss (by rw [hn]; exact hmod)

/-- An access that raises no exception reaches MEM with its address, its data and its effects. -/
theorem exeWord_of_access (h : Sends s i x) (ha : a.registers.read 0 = 0)
    (hc : controlIn (wordIn s i a.registers) = control 0b000 false)
    (hacc : ((decodedIn s i a.registers).memLoad || (decodedIn s i a.registers).memStore) = true)
    {adr : BitVec 32}
    (hadr : (decodedIn s i a.registers).op1 + (decodedIn s i a.registers).op2 = adr)
    (hmiss : Exe.missaligned (decodedIn s i a.registers).memSize adr = false)
    (hfault : Exe.accessFault x.inputs adr = false) :
    let w := a.exeWord x
    w.exeRes = adr ∧ w.memData = (decodedIn s i a.registers).memData ∧
      w.memSize = (decodedIn s i a.registers).memSize ∧
      w.memSignExtend = (decodedIn s i a.registers).memSignExtend ∧
      w.memLoad = (decodedIn s i a.registers).memLoad ∧
      w.memStore = (decodedIn s i a.registers).memStore ∧
      w.wb = (decodedIn s i a.registers).wb ∧ w.dest = destOf i.ir ∧
      w.csrWenable = (decodedIn s i a.registers).csrWenable ∧
      w.multInst = (decodingInstruction i.ir).multInst := by
  have hsum : (inputsIn s i x a.registers).rd.op1 + (inputsIn s i x a.registers).rd.op2 = adr :=
    hadr
  obtain ⟨hres, hflag⟩ := outcome_of_access (j := inputsIn s i x a.registers) hc hacc x.exeResSe
  rw [hsum] at hres hflag
  have hnone : (outcome (inputsIn s i x a.registers) x.exeResSe).flagged = false := by
    rw [hflag, Bool.or_eq_false_iff]
    exact ⟨hmiss, hfault⟩
  have hword := exeWord_decWord (a := a) h ha
  rw [hnone, if_neg Bool.false_ne_true] at hword
  dsimp only
  rw [hword]
  exact ⟨hres, rfl, rfl, rfl, rfl, rfl, rfl, rfl, rfl, rfl⟩

theorem has3_of_opcode {ir : BitVec 32} {op : BitVec 7} (hop : opcode ir = op) (f : BitVec 3) :
    has3 ir op f = (funct3 ir == f) := by
  rw [has3, hop, beq_self_eq_true, Bool.true_and]

/-- A load writes what `sign_extend` makes of the word at its address. -/
theorem execute_load (h : Sends s i x) (ha : a.registers.read 0 = 0) (hop : opcode i.ir = 0b0000011)
    (hf : funct3 i.ir = 0 ∨ funct3 i.ir = 1 ∨ funct3 i.ir = 2 ∨ funct3 i.ir = 4 ∨ funct3 i.ir = 5)
    {adr : BitVec 32} (hadr : a.registers.read ((rs1 i.ir).setWidth 6) + immI i.ir = adr)
    (hmiss : Exe.missaligned
      (if funct3 i.ir = 0b010 then 0 else if funct3 i.ir = 0b001 ∨ funct3 i.ir = 0b101 then 1
        else 2) adr = false)
    (hfault : Exe.accessFault x.inputs adr = false) :
    (a.exeWord x).exeRes = adr ∧
      (a.exeWord x).memSize = (if funct3 i.ir = 0b010 then 0
        else if funct3 i.ir = 0b001 ∨ funct3 i.ir = 0b101 then 1 else 2) ∧
      (a.exeWord x).memSignExtend = (funct3 i.ir == 0b000 || funct3 i.ir == 0b001) ∧
      a.execute x = ⟨a.registers.write ((rd i.ir).setWidth 6)
        (loadData (a.exeWord x) (a.ram (wordAdr adr))), a.ram⟩ := by
  have ht : decodingInstructionType i.ir = Format.types .i := by
    simp [decodingInstructionType, hop]
    rfl
  -- what DEC makes of the function
  have hdecoded : (decodedIn s i a.registers).memLoad = true ∧
      (decodedIn s i a.registers).memStore = false ∧
      (decodedIn s i a.registers).csrWenable = false ∧
      (decodedIn s i a.registers).memSize = (if funct3 i.ir = 0b010 then 0
        else if funct3 i.ir = 0b001 ∨ funct3 i.ir = 0b101 then 1 else 2) ∧
      (decodedIn s i a.registers).memSignExtend = (funct3 i.ir == 0b000 || funct3 i.ir == 0b001) ∧
      (decodedIn s i a.registers).op1 = a.registers.read ((rs1 i.ir).setWidth 6) ∧
      (decodedIn s i a.registers).op2 = immI i.ir ∧ (decodedIn s i a.registers).wb = true := by
    have hload : (decodingInstruction i.ir).load = true ∧
        (loadFormat (decodingInstruction i.ir)).1 = (if funct3 i.ir = 0b010 then 0
          else if funct3 i.ir = 0b001 ∨ funct3 i.ir = 0b101 then 1 else 2) ∧
        (loadFormat (decodingInstruction i.ir)).2 =
          (funct3 i.ir == 0b000 || funct3 i.ir == 0b001) := by
      simp only [decodingInstruction, Insts.load, loadFormat, has3_of_opcode hop]
      rcases hf with h | h | h | h | h <;> rw [h] <;> exact ⟨rfl, rfl, rfl⟩
    obtain ⟨hl, hsize, hsign⟩ := hload
    rw [decodedIn, ht]
    refine ⟨hl, rfl, rfl, ?_, ?_, ?_, rfl, rfl⟩
    · exact (if_pos hl).trans hsize
    · exact (if_pos hl).trans hsign
    · change (sourcesIn i a.registers).rdata1 = _
      rw [sourcesIn, ht]
      rfl
  obtain ⟨hload, hstore, hcsr, hsize, hsign, hop1, hop2, hwb⟩ := hdecoded
  have hmult : (decodingInstruction i.ir).multInst = false := by
    simp [decodingInstruction, Insts.multInst, has7, hop]
  have hc : controlIn (wordIn s i a.registers) = control 0b000 false := by
    refine (presents_wordIn s i a.registers (by rw [ht]; rfl)).command.trans ?_
    simp [controlOf, command, Decode.unit, Insts.divInst, Insts.multInst, decodingInstruction, has3,
      has7, hop, AluInstructions.control]
  obtain ⟨hres, -, hsize', hsign', hload', hstore', hwb', hdest, hcsr', hmult'⟩ :=
    exeWord_of_access h ha hc (by rw [hload]; rfl) (by rw [hop1, hop2]; exact hadr)
      (by rw [hsize]; exact hmiss) hfault
  refine ⟨hres, hsize'.trans hsize, hsign'.trans hsign, ?_⟩
  have hanswer : a.answer x = (a.ram, a.ram (wordAdr adr)) := by
    rw [Arch.answer, ramAccess, memPreprocess]
    dsimp only
    rw [hstore', hstore, Bool.false_and, if_neg Bool.false_ne_true, if_neg Bool.false_ne_true, hres,
      wordAdr, wordAdr, BitVec.and_assoc, BitVec.and_self]
  have hreg : regOf ((destOf i.ir).setWidth 5) = (rd i.ir).setWidth 6 := by
    rw [regOf_adrDest, ht]
    rfl
  rw [Arch.execute, hanswer, Arch.memWord, hanswer, writeBack, memWordOf]
  dsimp only
  rw [hload', hload, Bool.or_true, if_pos rfl, hdest, hreg, wdata]
  dsimp only
  rw [hcsr', hcsr, hmult', hmult, if_neg Bool.false_ne_true, if_neg Bool.false_ne_true, signExtend,
    hload', hload, if_pos rfl]

/-- A store leaves the registers, and the RAM serves its word. -/
theorem execute_store (h : Sends s i x) (ha : a.registers.read 0 = 0)
    (hop : opcode i.ir = 0b0100011)
    (hf : funct3 i.ir = 0 ∨ funct3 i.ir = 1 ∨ funct3 i.ir = 2)
    {adr : BitVec 32} (hadr : a.registers.read ((rs1 i.ir).setWidth 6) + immS i.ir = adr)
    (hmiss : Exe.missaligned
      (if funct3 i.ir = 0b010 then 0 else if funct3 i.ir = 0b001 then 1 else 2) adr = false)
    (hfault : Exe.accessFault x.inputs adr = false) :
    (a.exeWord x).exeRes = adr ∧
      (a.exeWord x).memData = a.registers.read ((rs2 i.ir).setWidth 6) ∧
      (a.exeWord x).memStore = true ∧
      (a.exeWord x).memSize =
        (if funct3 i.ir = 0b010 then 0 else if funct3 i.ir = 0b001 then 1 else 2) ∧
      a.execute x =
        ⟨a.registers, (ramAccess a.ram (memPreprocess (a.exeWord x) false false)).1⟩ := by
  have ht : decodingInstructionType i.ir = Format.types .s := by
    simp [decodingInstructionType, hop]
    rfl
  have hdecoded : (decodedIn s i a.registers).memLoad = false ∧
      (decodedIn s i a.registers).memStore = true ∧
      (decodedIn s i a.registers).memSize =
        (if funct3 i.ir = 0b010 then 0 else if funct3 i.ir = 0b001 then 1 else 2) ∧
      (decodedIn s i a.registers).op1 = a.registers.read ((rs1 i.ir).setWidth 6) ∧
      (decodedIn s i a.registers).op2 = immS i.ir ∧
      (decodedIn s i a.registers).memData = a.registers.read ((rs2 i.ir).setWidth 6) := by
    have hstore : ((decodingInstruction i.ir).sw || (decodingInstruction i.ir).sh ||
          (decodingInstruction i.ir).sb) = true ∧
        (if (decodingInstruction i.ir).sw then 0 else if (decodingInstruction i.ir).sh then 1
          else if (decodingInstruction i.ir).sb then 2 else 0 : BitVec 2) =
          (if funct3 i.ir = 0b010 then 0 else if funct3 i.ir = 0b001 then 1 else 2) := by
      simp only [decodingInstruction, has3_of_opcode hop]
      rcases hf with h | h | h <;> rw [h] <;> exact ⟨rfl, rfl⟩
    rw [decodedIn, ht]
    refine ⟨rfl, hstore.1, hstore.2, ?_, rfl, ?_⟩
    · change (sourcesIn i a.registers).rdata1 = _
      rw [sourcesIn, ht]
      rfl
    · change (sourcesIn i a.registers).rdata2 = _
      rw [sourcesIn, ht]
      rfl
  obtain ⟨hload, hstore, hsize, hop1, hop2, hdata⟩ := hdecoded
  have hinsts : ((decodingInstruction i.ir).slt || (decodingInstruction i.ir).slti) = false ∧
      ((decodingInstruction i.ir).sltu || (decodingInstruction i.ir).sltiu) = false := by
    simp [decodingInstruction, has3, has7, hop]
  have hc : controlIn (wordIn s i a.registers) = control 0b000 false := by
    rw [controlIn_wordIn, hinsts.1, hinsts.2, decodedIn, ht]
    rfl
  obtain ⟨hres, hdata', hsize', -, hload', hstore', -, hdest, -, -⟩ :=
    exeWord_of_access h ha hc (by rw [hload, hstore]; rfl) (by rw [hop1, hop2]; exact hadr)
      (by rw [hsize]; exact hmiss) hfault
  refine ⟨hres, hdata'.trans hdata, hstore'.trans hstore, hsize'.trans hsize, ?_⟩
  have hreg : regOf ((destOf i.ir).setWidth 5) = 0 := by
    rw [regOf_adrDest, ht]
    rfl
  have hwrite : writeBack a.registers (a.memWord x) x.product = a.registers := by
    unfold writeBack Arch.memWord memWordOf
    dsimp only
    rw [hdest, hreg]
    split_ifs <;> rfl
  rw [Arch.execute, hwrite]
  rfl

end Accesses

/-! ### The instruction set -/

section InstructionSet

variable {s : State} {i : Cycle} {x : Executed} {a a' : Arch}

/-- User mode does not reach the address of the access. -/
def Faults (x : Executed) (ir : BitVec 32) (a : Arch) : Prop :=
  (opcode ir = 0b0000011 ∧
      Exe.accessFault x.inputs (a.registers.read ((rs1 ir).setWidth 6) + immI ir) = true) ∨
    (opcode ir = 0b0100011 ∧
      Exe.accessFault x.inputs (a.registers.read ((rs1 ir).setWidth 6) + immS ir) = true)

/-- The destination gets another value: a load misses its lane, or the unit of RV32M has not the
value that is due. -/
def Deviates (x : Executed) (ir : BitVec 32) (a : Arch) : Prop :=
  (opcode ir = 0b0000011 ∧
      Rv32i.Misses (funct3 ir) (a.registers.read ((rs1 ir).setWidth 6) + immI ir)
        (a.ram (wordAdr (a.registers.read ((rs1 ir).setWidth 6) + immI ir)))) ∨
    (opcode ir = 0b0110011 ∧ funct7 ir = 1 ∧
      (if (funct3 ir).ult 4 then x.product else x.dividerRes) ≠
        rv32mResult (funct3 ir) (a.registers.read ((rs1 ir).setWidth 6))
          (a.registers.read ((rs2 ir).setWidth 6)))

instance (x : Executed) (ir : BitVec 32) (a : Arch) : Decidable (Faults x ir a) :=
  inferInstanceAs (Decidable (_ ∨ _))

instance (x : Executed) (ir : BitVec 32) (a : Arch) : Decidable (Deviates x ir a) :=
  inferInstanceAs (Decidable (_ ∨ _))

/-- Only loads and RV32M deviate. -/
theorem not_deviates {ir : BitVec 32} (hl : opcode ir ≠ 0b0000011)
    (hm : ¬(opcode ir = 0b0110011 ∧ funct7 ir = 1)) : ¬ Deviates x ir a := by
  rintro (h | ⟨hop, hf7, -⟩)
  · exact hl h.1
  · exact hm ⟨hop, hf7⟩

theorem executes_iff_load (h : Sends s i x) (ha : a.registers.read 0 = 0)
    (hfault : ¬ Faults x i.ir a) (hop : opcode i.ir = 0b0000011)
    (heffect : Rv32i.effect i.ir i.fetch.pcIf2dec a = some a') :
    a.execute x = a' ↔ rd i.ir = 0 ∨ ¬ Deviates x i.ir a := by
  rw [Rv32i.effect, if_pos hop, Option.map_eq_some_iff] at heffect
  obtain ⟨v, hv, rfl⟩ := heffect
  -- the function is one of the five, and the address is aligned for it
  have hvalid : (funct3 i.ir = 0 ∨ funct3 i.ir = 1 ∨ funct3 i.ir = 2 ∨ funct3 i.ir = 4 ∨
      funct3 i.ir = 5) ∧ Exe.missaligned (if funct3 i.ir = 0b010 then 0
        else if funct3 i.ir = 0b001 ∨ funct3 i.ir = 0b101 then 1 else 2)
      (a.registers.read ((rs1 i.ir).setWidth 6) + immI i.ir) = false := by
    have hsome := hv
    unfold Rv32i.loadResult at hsome
    dsimp only at hsome
    split_ifs at hsome with h0 h1 h2 h4 h5
    · rw [h0]
      exact ⟨by decide, missaligned_of_mod (n := 1) rfl (Nat.mod_one _)⟩
    · rw [h1.1]
      exact ⟨by decide, missaligned_of_mod (n := 2) rfl h1.2⟩
    · rw [h2.1]
      exact ⟨by decide, missaligned_of_mod (n := 4) rfl h2.2⟩
    · rw [h4]
      exact ⟨by decide, missaligned_of_mod (n := 1) rfl (Nat.mod_one _)⟩
    · rw [h5.1]
      exact ⟨by decide, missaligned_of_mod (n := 2) rfl h5.2⟩
  have hreach : Exe.accessFault x.inputs
      (a.registers.read ((rs1 i.ir).setWidth 6) + immI i.ir) = false := by
    rw [Bool.eq_false_iff]
    exact fun hno => hfault (Or.inl ⟨hop, hno⟩)
  obtain ⟨hadr, hsize, hsign, hexecute⟩ :=
    execute_load h ha hop hvalid.1 rfl hvalid.2 hreach
  have hdeviates : Deviates x i.ir a ↔ Rv32i.Misses (funct3 i.ir)
      (a.registers.read ((rs1 i.ir).setWidth 6) + immI i.ir)
      (a.ram (wordAdr (a.registers.read ((rs1 i.ir).setWidth 6) + immI i.ir))) := by
    simp [Deviates, hop]
  rw [hexecute, put_eq_iff, loadData_iff hv hadr hsize hsign, hdeviates]

theorem executes_store (h : Sends s i x) (ha : a.registers.read 0 = 0)
    (hfault : ¬ Faults x i.ir a) (hop : opcode i.ir = 0b0100011)
    (heffect : Rv32i.effect i.ir i.fetch.pcIf2dec a = some a') : a.execute x = a' := by
  rw [Rv32i.effect, if_neg (by rw [hop]; decide), if_pos hop, Option.map_eq_some_iff] at heffect
  obtain ⟨word, hword, rfl⟩ := heffect
  have hvalid : (funct3 i.ir = 0 ∨ funct3 i.ir = 1 ∨ funct3 i.ir = 2) ∧
      Exe.missaligned (if funct3 i.ir = 0b010 then 0 else if funct3 i.ir = 0b001 then 1 else 2)
        (a.registers.read ((rs1 i.ir).setWidth 6) + immS i.ir) = false := by
    have hsome := hword
    unfold Rv32i.storeResult at hsome
    dsimp only at hsome
    split_ifs at hsome with h0 h1 h2
    · rw [h0]
      exact ⟨by decide, missaligned_of_mod (n := 1) rfl (Nat.mod_one _)⟩
    · rw [h1.1]
      exact ⟨by decide, missaligned_of_mod (n := 2) rfl h1.2⟩
    · rw [h2.1]
      exact ⟨by decide, missaligned_of_mod (n := 4) rfl h2.2⟩
  have hreach : Exe.accessFault x.inputs
      (a.registers.read ((rs1 i.ir).setWidth 6) + immS i.ir) = false := by
    rw [Bool.eq_false_iff]
    exact fun hno => hfault (Or.inr ⟨hop, hno⟩)
  obtain ⟨hadr, hdata, hstore, hsize, hexecute⟩ :=
    execute_store h ha hop hvalid.1 rfl hvalid.2 hreach
  rw [hexecute, ramAccess_storeResult hword a.ram rfl hadr hdata hstore hsize]

theorem executes_iff_m (h : Sends s i x) (ha : a.registers.read 0 = 0)
    (hop : opcode i.ir = 0b0110011) (hf7 : funct7 i.ir = 1) :
    a.execute x = ⟨a.registers.write ((rd i.ir).setWidth 6)
      (rv32mResult (funct3 i.ir) (a.registers.read ((rs1 i.ir).setWidth 6))
        (a.registers.read ((rs2 i.ir).setWidth 6))), a.ram⟩ ↔
      rd i.ir = 0 ∨ ¬ Deviates x i.ir a := by
  rw [execute_m h ha hop hf7, put_eq_iff]
  refine or_congr_right ?_
  simp [Deviates, hop, hf7]

/-- Loads and RV32M apart, an instruction has its effect. -/
theorem executes_other (h : Sends s i x) (ha : a.registers.read 0 = 0)
    (hread : i.readPc = i.fetch.pcIf2dec + 4) (hfault : ¬ Faults x i.ir a)
    (hload : opcode i.ir ≠ 0b0000011)
    (heffect : Rv32i.effect i.ir i.fetch.pcIf2dec a = some a') : a.execute x = a' := by
  by_cases hstore : opcode i.ir = 0b0100011
  · exact executes_store h ha hfault hstore heffect
  rw [Rv32i.effect, if_neg hload, if_neg hstore] at heffect
  dsimp only at heffect
  split_ifs at heffect with hbranch hf hjump hfence
  · rw [execute_branch h ha hbranch, Option.some.inj heffect]
  · rw [execute_jump h ha (hjump.imp id And.left), hread, ← Option.some.inj heffect]
  · rw [execute_fence h ha hfence.1 hfence.2, Option.some.inj heffect]
  · obtain ⟨v, hv, rfl⟩ := Option.map_eq_some_iff.mp heffect
    exact execute_alu h ha hv

end InstructionSet

/-- The core does to the registers and the RAM what RV32IM says of an instruction that DEC sends,
exactly when no load misses its lane and the multiplier and the divider have the value that is due,
or the destination is x0. -/
theorem executes_rv32im_iff {s : State} {i : Cycle} {x : Executed} {a a' : Arch}
    (h : Sends s i x) (ha : a.registers.read 0 = 0)
    (hread : i.readPc = i.fetch.pcIf2dec + 4) (hfault : ¬ Faults x i.ir a)
    (heffect : Rv32i.effectM i.ir i.fetch.pcIf2dec a = some a') :
    a.execute x = a' ↔ rd i.ir = 0 ∨ ¬ Deviates x i.ir a := by
  rw [Rv32i.effectM] at heffect
  by_cases hm : opcode i.ir = 0b0110011 ∧ funct7 i.ir = 1
  · rw [if_pos hm] at heffect
    rw [← Option.some.inj heffect]
    exact executes_iff_m h ha hm.1 hm.2
  rw [if_neg hm] at heffect
  by_cases hload : opcode i.ir = 0b0000011
  · exact executes_iff_load h ha hfault hload heffect
  -- nothing else deviates
  exact iff_of_true (executes_other h ha hread hfault hload heffect)
    (Or.inr (not_deviates hload hm))

/-- `lb x3, 5(x0)`, in DEC of a core after reset. -/
def lbCycle : Cycle :=
  { (default : Cycle) with
    ir := 0x00500183
    currentMode := 3
    readPc := 0x10058
    fetch := { (default : Dec.Fetch) with pcIf2dec := 0x10054 } }

/-- The load in EXE. -/
def lbExecuted : Executed :=
  { (default : Executed) with
    word := decWord reset lbCycle
    currentMode := 3 }

/-- The byte at 5 is 1, that at 4 is 0. -/
def lbArch : Arch := Arch.start fun _ => 0x100

theorem execute_lb_ne :
    lbArch.execute lbExecuted ≠ ⟨lbArch.registers.write 3 1, lbArch.ram⟩ := by
  intro h
  have hsends : Sends reset lbCycle lbExecuted := by
    constructor <;> decide +kernel
  have hor := (executes_rv32im_iff hsends (a := lbArch) (by decide +kernel) rfl (by decide +kernel)
    rfl).mp h
  exact absurd hor (by decide +kernel)

end Backend

end RiVerSoC
