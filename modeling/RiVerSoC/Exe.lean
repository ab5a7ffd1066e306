/-
The methods of the EXE stage as functions of the signals that they read.

* `bypasses` — the operands: the word from DEC, or the results that EXE2MEM and
  MEM2WBK show;
* `alu`, `shifterSll`, `shifterSr`, `selectExecRes` — the result and the flags of a
  misaligned or forbidden access;
* `exceptionSe`, `effects`, `fifoConcat` — the word that is offered to EXE2MEM.

A method that writes nothing to a signal in one of its branches keeps the value of the
signal, which is then an argument of the function.
-/
import Mathlib.Tactic.SplitIfs
import RiVerSoC.StageWords

namespace RiVerSoC

namespace Exe

/-- What the stage sees: the words that the FIFOs around it show, and the signals from
MEM, the CSR file and the divider. -/
structure Inputs where
  rd : Dec2Exe
  re : Exe2Mem
  exe2memEmpty : Bool
  rm : Mem2Wbk
  mem2wbkEmpty : Bool
  currentMode : BitVec 2
  kernelAdr : BitVec 32
  exceptionSm : Bool
  dividerRes : BitVec 32
deriving DecidableEq, Repr, Inhabited

/-- `MEM_DEST_RM`, a port of the width of the other register numbers. -/
def Inputs.memDest (i : Inputs) : BitVec 6 := i.rm.dest.setWidth 6

/-! ### Operands -/

/-- The signals that `bypasses` writes. -/
structure Bypassed where
  op1Se : BitVec 32
  op2Se : BitVec 32
  bpMemDataSd : BitVec 32
  blocked : Bool
  r1ValidSe : Bool
  r2ValidSe : Bool
deriving DecidableEq, Repr, Inhabited

/-- A load in EXE2MEM blocks the operand that it will write. -/
def loadAhead (i : Inputs) (radr : BitVec 6) : Prop :=
  i.re.dest = radr ∧ i.re.memLoad ∧ ¬ i.exe2memEmpty

instance (i : Inputs) (radr : BitVec 6) : Decidable (loadAhead i radr) :=
  inferInstanceAs (Decidable (_ ∧ _))

/-- The chain on rs1: `op1_se`, `blocked` and `r1_valid_se`. -/
def bypassRs1 (i : Inputs) (op1Se : BitVec 32) : BitVec 32 × Bool × Bool :=
  if i.rd.radr1 = 0 ∨ i.rd.blockBp then (i.rd.op1, false, true)
  else if i.re.dest = i.rd.radr1 ∧ i.re.csrWenable then (i.re.csrRdata, false, true)
  else if i.re.dest = i.rd.radr1 ∧ ¬ i.re.memLoad then
    (if i.rd.csrrcI then ~~~i.re.exeRes else i.re.exeRes, false, !i.re.multInst || i.exe2memEmpty)
  else if i.memDest = i.rd.radr1 ∧ i.rm.csrWenable then (i.rm.csrRdata, false, true)
  else if i.memDest = i.rd.radr1 then
    (if i.rd.csrrcI then ~~~i.rm.memRes else i.rm.memRes, false, !i.rm.multInst || i.mem2wbkEmpty)
  else if loadAhead i i.rd.radr1 then (op1Se, true, true)
  else (i.rd.op1, false, true)

/-- The chain on rs2: `op2_se`, `bp_mem_data_sd` and `blocked`; a store takes the bypassed
value as its data and keeps the offset of its address. -/
def bypassRs2 (i : Inputs) (op2Se : BitVec 32) : BitVec 32 × BitVec 32 × Bool :=
  if i.rd.radr2 = 0 ∨ i.rd.memLoad ∨ i.rd.blockBp then (i.rd.op2, i.rd.memData, false)
  else if i.re.dest = i.rd.radr2 ∧ ¬ i.re.memLoad ∧ ¬ i.re.multInst then
    let bpValue :=
      if i.re.csrWenable then i.re.csrRdata
      else if i.rd.csrrcI then ~~~i.re.exeRes
      else i.re.exeRes
    if i.rd.memStore then (i.rd.op2, bpValue, false) else (bpValue, i.rd.memData, false)
  else if i.memDest = i.rd.radr2 ∧ ¬ i.rm.multInst then
    -- `bp_value` is computed here, too, but not used
    if i.rd.memStore then (i.rd.op2, i.rm.memRes, false) else (i.rm.memRes, i.rd.memData, false)
  else if loadAhead i i.rd.radr2 then (op2Se, i.rd.memData, true)
  else (i.rd.op2, i.rd.memData, false)

def bypasses (i : Inputs) (old : Bypassed) : Bypassed where
  op1Se := (bypassRs1 i old.op1Se).1
  op2Se := (bypassRs2 i old.op2Se).1
  bpMemDataSd := (bypassRs2 i old.op2Se).2.1
  blocked := (bypassRs1 i old.op1Se).2.1 || (bypassRs2 i old.op2Se).2.2
  r1ValidSe := (bypassRs1 i old.op1Se).2.2
  r2ValidSe := true

/-! ### Results -/

/-- `preprocess_op`: `alu_in_op2_se` and `shift_val_se`. -/
def preprocessOp (negOp2 : Bool) (op2 : BitVec 32) : BitVec 32 × BitVec 5 :=
  (if negOp2 then ~~~op2 else op2, op2.setWidth 5)

def alu (cmd : BitVec 2) (op1 op2 : BitVec 32) (cin : Bool) : BitVec 32 :=
  if cmd = 0 then op1 + op2 + (BitVec.ofBool cin).setWidth 32
  else if cmd = 1 then op1 &&& op2
  else if cmd = 2 then op1 ||| op2
  else op1 ^^^ op2

/-- `sll_se`, `srl_se` and `sra_se`. -/
def decodeCmd (cmd : BitVec 2) : Bool × Bool × Bool :=
  if cmd = 0 then (true, false, false)
  else if cmd = 1 then (false, true, false)
  else (false, false, true)

def shifterSll (din : BitVec 32) (shiftVal : BitVec 5) : BitVec 32 := din <<< shiftVal

def shifterSr (din : BitVec 32) (shiftVal : BitVec 5) (sra : Bool) : BitVec 32 :=
  if sra ∧ din.msb then din.sshiftRight' shiftVal else din >>> shiftVal

/-- `exe_res_se` and the flags, in the order in which `select_exec_res` clears them. -/
structure ExeRes where
  exeResSe : BitVec 32
  loadAdressMissaligned : Bool
  loadAccessFault : Bool
  storeAdressMissaligned : Bool
  storeAccessFault : Bool
deriving DecidableEq, Repr, Inhabited

def ExeRes.flags (r : ExeRes) : Bool × Bool × Bool × Bool :=
  (r.loadAdressMissaligned, r.loadAccessFault, r.storeAccessFault, r.storeAdressMissaligned)

def ExeRes.flagged (r : ExeRes) : Bool :=
  r.loadAdressMissaligned || r.loadAccessFault || r.storeAccessFault || r.storeAdressMissaligned

/-- The comparison of `SLT_RD`; that of `SLTU_RD` has the operands of different signs the
other way round. -/
def lessThan (op1 op2 : BitVec 32) (negative positive : BitVec 32) (aluOut : BitVec 32) :
    BitVec 32 :=
  if op1.msb ∧ ¬ op2.msb then negative
  else if ¬ op1.msb ∧ op2.msb then positive
  else if op1 = op2 then 0
  else (BitVec.ofBool aluOut.msb).setWidth 32

/-- The address of an access is not a multiple of its size. -/
def missaligned (memSize : BitVec 2) (adr : BitVec 32) : Bool :=
  (adr &&& 3 != 0 && memSize == 0) || (adr &&& 1 != 0 && memSize == 1)

/-- An access in user mode above the kernel address. -/
def accessFault (i : Inputs) (adr : BitVec 32) : Bool :=
  i.currentMode == 0 && decide (i.kernelAdr < adr)

def selectExecRes (i : Inputs) (op1 op2 aluOut shifterOut : BitVec 32) (exeResSe : BitVec 32) :
    ExeRes :=
  if i.rd.selectTypeOperations = 8 then ⟨i.dividerRes, false, false, false, false⟩
  else if i.rd.selectTypeOperations = 2 then ⟨shifterOut, false, false, false, false⟩
  else if i.rd.selectTypeOperations = 1 then
    if i.rd.slt then ⟨lessThan op1 op2 1 0 aluOut, false, false, false, false⟩
    else if i.rd.sltu then ⟨lessThan op1 op2 0 1 aluOut, false, false, false, false⟩
    else if i.rd.memLoad then
      ⟨aluOut, missaligned i.rd.memSize aluOut, accessFault i aluOut, false, false⟩
    else if i.rd.memStore then
      ⟨aluOut, false, false, missaligned i.rd.memSize aluOut, accessFault i aluOut⟩
    else ⟨aluOut, false, false, false, false⟩
  else ⟨exeResSe, false, false, false, false⟩

/-! ### The word for MEM -/

/-- `exception_se`. -/
def exceptionSe (i : Inputs) (r : ExeRes) : Bool := i.rd.exception || r.flagged

/-- `wb_re`, `mem_load_re` and `mem_store_re`: an exception takes the effects away. -/
def effects (i : Inputs) (exceptionSe : Bool) : Bool × Bool × Bool :=
  if exceptionSe then (false, false, false) else (i.rd.wb, i.rd.memLoad, i.rd.memStore)

/-- The word offered while MEM takes a trap. -/
def trapWord (pc : BitVec 32) : Exe2Mem := { (default : Exe2Mem) with wb := true, pc := pc }

def fifoConcat (i : Inputs) (bpMemDataSd : BitVec 32) (r : ExeRes) (exceptionSe : Bool)
    (effects : Bool × Bool × Bool) : Exe2Mem :=
  if i.exceptionSm then trapWord i.rd.pc
  else
    { exeRes := r.exeResSe
      memData := bpMemDataSd
      dest := i.rd.dest
      memSize := i.rd.memSize
      wb := effects.1
      memLoad := effects.2.1
      memStore := effects.2.2
      memSignExtend := i.rd.memSignExtend
      pc := i.rd.pc
      csrWenable := i.rd.csrWenable
      csrWadr := i.rd.csrWadr
      csrRdata := i.rd.csrRdata
      envCallSMode := i.rd.envCallSMode
      envCallWrongMode := i.rd.envCallWrongMode
      illegalInstruction := i.rd.illegalInstruction
      instructionAdressMissaligned := i.rd.adressMissaligned
      envCallUMode := i.rd.envCallUMode
      envCallMMode := i.rd.envCallMMode
      exception := exceptionSe
      loadAdressMissaligned := r.loadAdressMissaligned
      loadAccessFault := r.loadAccessFault
      mret := i.rd.mret
      storeAdressMissaligned := r.storeAdressMissaligned
      storeAccessFault := r.storeAccessFault
      instructionAccessFault := i.rd.instructionAccessFault
      ebreak := i.rd.ebreak
      multInst := i.rd.multInst
      pcBranchValue := i.rd.pcBranchValue }

/-! ### Blocked operands -/

theorem bypassRs1_latch (i : Inputs) (old : BitVec 32) :
    bypassRs1 i (bypassRs1 i old).1 = bypassRs1 i old := by
  unfold bypassRs1
  split_ifs <;> rfl

theorem bypassRs2_latch (i : Inputs) (old : BitVec 32) :
    bypassRs2 i (bypassRs2 i old).1 = bypassRs2 i old := by
  unfold bypassRs2
  split_ifs <;> rfl

/-- Running `bypasses` again changes nothing. -/
theorem bypasses_latch (i : Inputs) (old : Bypassed) :
    bypasses i (bypasses i old) = bypasses i old := by
  simp only [bypasses, bypassRs1_latch, bypassRs2_latch]

/-- Only a blocked operand depends on the operand before. -/
theorem bypassRs1_congr {i : Inputs} {old : BitVec 32} (h : (bypassRs1 i old).2.1 = false)
    (old' : BitVec 32) : bypassRs1 i old' = bypassRs1 i old := by
  unfold bypassRs1 at h ⊢
  split_ifs at h ⊢ <;> rfl

theorem bypassRs2_congr {i : Inputs} {old : BitVec 32} (h : (bypassRs2 i old).2.2 = false)
    (old' : BitVec 32) : bypassRs2 i old' = bypassRs2 i old := by
  unfold bypassRs2 at h ⊢
  split_ifs at h ⊢ <;> rfl

theorem bypasses_congr {i : Inputs} {old : Bypassed} (h : (bypasses i old).blocked = false)
    (old' : Bypassed) : bypasses i old' = bypasses i old := by
  have h' : ((bypassRs1 i old.op1Se).2.1 || (bypassRs2 i old.op2Se).2.2) = false := h
  obtain ⟨h1, h2⟩ := Bool.or_eq_false_iff.mp h'
  simp only [bypasses, bypassRs1_congr h1 old'.op1Se, bypassRs2_congr h2 old'.op2Se]

theorem selectExecRes_latch (i : Inputs) (op1 op2 aluOut shifterOut old : BitVec 32) :
    selectExecRes i op1 op2 aluOut shifterOut
      (selectExecRes i op1 op2 aluOut shifterOut old).exeResSe =
      selectExecRes i op1 op2 aluOut shifterOut old := by
  unfold selectExecRes
  split_ifs <;> rfl

/-- The instruction takes its result from the divider, the shifter or the ALU; a
multiplication takes it from none of them. -/
def HasResult (i : Inputs) : Prop :=
  i.rd.selectTypeOperations = 8 ∨ i.rd.selectTypeOperations = 2 ∨ i.rd.selectTypeOperations = 1

instance (i : Inputs) : Decidable (HasResult i) := inferInstanceAs (Decidable (_ ∨ _))

theorem selectExecRes_congr {i : Inputs} (h : HasResult i)
    (op1 op2 aluOut shifterOut old old' : BitVec 32) :
    selectExecRes i op1 op2 aluOut shifterOut old =
      selectExecRes i op1 op2 aluOut shifterOut old' := by
  unfold selectExecRes
  rcases h with h | h | h <;> simp [h]

theorem selectExecRes_keeps {i : Inputs} (h : ¬ HasResult i)
    (op1 op2 aluOut shifterOut old : BitVec 32) :
    (selectExecRes i op1 op2 aluOut shifterOut old).exeResSe = old := by
  obtain ⟨h8, h2, h1⟩ : i.rd.selectTypeOperations ≠ 8 ∧ i.rd.selectTypeOperations ≠ 2 ∧
      i.rd.selectTypeOperations ≠ 1 := by
    simpa only [HasResult, not_or] using h
  rw [selectExecRes, if_neg h8, if_neg h2, if_neg h1]

end Exe

end RiVerSoC
