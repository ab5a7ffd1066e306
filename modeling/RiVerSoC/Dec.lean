/-
The operands and the stall of DEC, and the word that it offers to DEC2EXE.

* `bypasses` — the operands, taken from the registers or from the results in EXE2MEM and
  MEM2WBK, and the hazards with loads and multiplications;
* `stall` — whether the instruction has to stay in DEC;
* `concatDec2exe` — the word for EXE.

An operand that is not valid keeps the value that it had before.
-/
import RiVerSoC.Decode
import RiVerSoC.StageWords

namespace RiVerSoC

namespace Dec

/-- What `bypasses` sees of the pipeline. -/
structure Stages where
  rd : Dec2Exe
  dec2exeEmpty : Bool
  re : Exe2Mem
  exe2memEmpty : Bool
  rm : Mem2Wbk
  mem2wbkEmpty : Bool
deriving DecidableEq, Repr, Inhabited

/-- `DEST_RM`, a port of the width of the other register numbers. -/
def Stages.destRm (p : Stages) : BitVec 6 := p.rm.dest.setWidth 6

/-! ### Matches -/

/-- The instruction in EXE writes the register. -/
def Stages.inExe (p : Stages) (radr : BitVec 6) : Bool := radr == p.rd.dest && !p.dec2exeEmpty

/-- The instruction in MEM writes the register. -/
def Stages.inMem (p : Stages) (radr : BitVec 6) : Bool := radr == p.re.dest && !p.exe2memEmpty

/-- The instruction in WBK writes the register. -/
def Stages.inWbk (p : Stages) (radr : BitVec 6) : Bool := radr == p.destRm && !p.mem2wbkEmpty

/-! ### Operands -/

/-- The value of a bypass: the old value of the CSR, or the result, complemented for
`csrrc`. -/
def bypassed (csrWenable : Bool) (csrRdata : BitVec 32) (csrrc : Bool) (res : BitVec 32) :
    BitVec 32 :=
  if csrWenable then csrRdata else if csrrc then ~~~res else res

/-- One of the two chains: the operand and whether it is valid. -/
def bypass (p : Stages) (csrrc : Bool) (radr : BitVec 6) (rdataSr : BitVec 32)
    (old : BitVec 32) : BitVec 32 × Bool :=
  if radr = 0 then (rdataSr, true)
  else if p.inExe radr then (old, false)
  else if p.inMem radr && p.re.memLoad then (old, false)
  else if p.inMem radr && p.re.multInst then (old, false)
  else if p.inWbk radr && p.rm.multInst then (old, false)
  else if p.inMem radr then (bypassed p.re.csrWenable p.re.csrRdata csrrc p.re.exeRes, true)
  else if p.inWbk radr then (bypassed p.rm.csrWenable p.rm.csrRdata csrrc p.rm.memRes, true)
  else (rdataSr, true)

/-- A load in EXE writes the register. -/
def loadInExe (p : Stages) (radr : BitVec 6) : Bool := p.inExe radr && p.rd.memLoad

/-- A multiplication in flight writes the register. -/
def multInFlight (p : Stages) (radr : BitVec 6) : Bool :=
  p.inExe radr && p.rd.multInst || p.inMem radr && p.re.multInst ||
    p.inWbk radr && p.rm.multInst

/-- The signals that `bypasses` writes. -/
structure Hazards where
  rdata1 : BitVec 32
  rdata2 : BitVec 32
  r1Valid : Bool
  r2Valid : Bool
  blockInDec : Bool
  dependenceOnMult : Bool
deriving DecidableEq, Repr, Inhabited

def bypasses (p : Stages) (csrrc : Bool) (radr1 radr2 : BitVec 6) (rdata1Sr rdata2Sr : BitVec 32)
    (old : Hazards) : Hazards where
  rdata1 := (bypass p csrrc radr1 rdata1Sr old.rdata1).1
  r1Valid := (bypass p csrrc radr1 rdata1Sr old.rdata1).2
  rdata2 := (bypass p csrrc radr2 rdata2Sr old.rdata2).1
  r2Valid := (bypass p csrrc radr2 rdata2Sr old.rdata2).2
  blockInDec := loadInExe p radr1 || loadInExe p radr2
  dependenceOnMult := multInFlight p radr1 || multInFlight p radr2

/-! ### Stall -/

def csrInProgress (p : Stages) : Bool :=
  p.rd.csrWenable && !p.dec2exeEmpty || p.re.csrWenable && !p.exe2memEmpty

/-- `stall_sd`; the branches and the jumps need their operands here. -/
def stall (csrInProgress : Bool) (t : Decode.Types) (h : Hazards)
    (if2decEmpty dec2exeFull : Bool) : Bool :=
  csrInProgress ||
    (!h.r1Valid || !h.r2Valid) && (t.b || t.jalr || t.j || h.blockInDec || h.dependenceOnMult) ||
    if2decEmpty || dec2exeFull

/-! ### The word for EXE -/

/-- The signals of the fetch side that `concat_dec2exe` packs. -/
structure Fetch where
  pcIf2dec : BitVec 32
  pcBranchValue : BitVec 32
  instructionAdressMissaligned : Bool
  instructionAccessFault : Bool
deriving DecidableEq, Repr, Inhabited

/-- The word offered while MEM takes a trap. -/
def trapWord (pc : BitVec 32) : Dec2Exe := { (default : Dec2Exe) with pc := pc }

def concatDec2exe (exceptionSm : Bool) (f : Fetch) (n : Decode.Insts) (g : Decode.Regs)
    (h : Hazards) (o : Decode.Operation) (csrRdataSc : BitVec 32) : Dec2Exe :=
  if exceptionSm then trapWord f.pcIf2dec
  else
    { csrrcI := n.csrrc
      pcBranchValue := f.pcBranchValue
      multInst := n.multInst
      ebreak := n.ebreak
      instructionAccessFault := f.instructionAccessFault
      mret := n.mret
      blockBp := o.blockBp
      exception := o.illegalInstruction || f.instructionAdressMissaligned || g.envCallUMode ||
        g.envCallMMode || g.envCallSMode || g.envCallWrongMode || n.mret ||
        f.instructionAccessFault || n.ebreak
      envCallWrongMode := g.envCallWrongMode
      envCallUMode := g.envCallUMode
      illegalInstruction := o.illegalInstruction
      adressMissaligned := f.instructionAdressMissaligned
      envCallMMode := g.envCallMMode
      envCallSMode := g.envCallSMode
      csrRdata := csrRdataSc
      csrWenable := o.csrWenable
      csrWadr := g.csrRadr
      pc := f.pcIf2dec
      r1Valid := h.r1Valid
      r2Valid := h.r2Valid
      radr1 := g.radr1
      radr2 := g.radr2
      exeCmd := o.exeCmd
      op1 := o.op1
      op2 := o.op2
      negOp2 := o.negOp2
      wb := o.wb
      memData := o.memData
      memLoad := o.memLoad
      memStore := o.memStore
      memSignExtend := o.memSignExtend
      memSize := o.memSize
      selectTypeOperations := o.selectTypeOperations
      dest := g.adrDest
      slt := n.slt || n.slti
      sltu := n.sltu || n.sltiu }

/-! ### Latched operands -/

section Latch

variable (p : Stages) (csrrc : Bool) (radr : BitVec 6) (rdataSr : BitVec 32)

theorem bypass_latch (old : BitVec 32) :
    bypass p csrrc radr rdataSr (bypass p csrrc radr rdataSr old).1 =
      bypass p csrrc radr rdataSr old := by
  unfold bypass
  split_ifs <;> rfl

theorem bypass_valid_congr (old old' : BitVec 32) :
    (bypass p csrrc radr rdataSr old').2 = (bypass p csrrc radr rdataSr old).2 := by
  unfold bypass
  split_ifs <;> rfl

/-- A valid operand does not depend on the one before. -/
theorem bypass_congr {old : BitVec 32} (h : (bypass p csrrc radr rdataSr old).2 = true)
    (old' : BitVec 32) : bypass p csrrc radr rdataSr old' = bypass p csrrc radr rdataSr old := by
  unfold bypass at h ⊢
  split_ifs at h ⊢ <;> rfl

end Latch

theorem bypasses_latch (p : Stages) (csrrc : Bool) (radr1 radr2 : BitVec 6)
    (rdata1Sr rdata2Sr : BitVec 32) (old : Hazards) :
    bypasses p csrrc radr1 radr2 rdata1Sr rdata2Sr
      (bypasses p csrrc radr1 radr2 rdata1Sr rdata2Sr old) =
      bypasses p csrrc radr1 radr2 rdata1Sr rdata2Sr old := by
  simp only [bypasses, bypass_latch]

end Dec

end RiVerSoC
