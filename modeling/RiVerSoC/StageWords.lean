/-
The words that the pipeline FIFOs carry.

Each stage packs its results into one bit vector, pushes it into a FIFO and
unpacks what the FIFO shows on the other side.  The structures below hold the
fields of those bit vectors, in the order in which the packing methods list them.
-/

namespace RiVerSoC

/-- The word that `concat_dec2exe` packs for EXE. -/
structure Dec2Exe where
  csrrcI : Bool
  pcBranchValue : BitVec 32
  multInst : Bool
  ebreak : Bool
  instructionAccessFault : Bool
  mret : Bool
  blockBp : Bool
  exception : Bool
  envCallWrongMode : Bool
  envCallUMode : Bool
  illegalInstruction : Bool
  adressMissaligned : Bool
  envCallMMode : Bool
  envCallSMode : Bool
  csrRdata : BitVec 32
  csrWenable : Bool
  csrWadr : BitVec 12
  pc : BitVec 32
  r1Valid : Bool
  r2Valid : Bool
  radr1 : BitVec 6
  radr2 : BitVec 6
  exeCmd : BitVec 2
  op1 : BitVec 32
  op2 : BitVec 32
  negOp2 : Bool
  wb : Bool
  memData : BitVec 32
  memLoad : Bool
  memStore : Bool
  memSignExtend : Bool
  memSize : BitVec 2
  selectTypeOperations : BitVec 4
  dest : BitVec 6
  slt : Bool
  sltu : Bool
deriving DecidableEq, Repr, Inhabited

/-- The word that EXE's `fifo_concat` packs for MEM. -/
structure Exe2Mem where
  exeRes : BitVec 32
  memData : BitVec 32
  dest : BitVec 6
  memSize : BitVec 2
  wb : Bool
  memLoad : Bool
  memStore : Bool
  memSignExtend : Bool
  pc : BitVec 32
  csrWenable : Bool
  csrWadr : BitVec 12
  csrRdata : BitVec 32
  envCallSMode : Bool
  envCallWrongMode : Bool
  illegalInstruction : Bool
  instructionAdressMissaligned : Bool
  envCallUMode : Bool
  envCallMMode : Bool
  exception : Bool
  loadAdressMissaligned : Bool
  loadAccessFault : Bool
  mret : Bool
  storeAdressMissaligned : Bool
  storeAccessFault : Bool
  instructionAccessFault : Bool
  ebreak : Bool
  multInst : Bool
  pcBranchValue : BitVec 32
deriving DecidableEq, Repr, Inhabited

/-- The word that `mem2wbk_concat` packs for WBK. -/
structure Mem2Wbk where
  memRes : BitVec 32
  dest : BitVec 5
  wb : Bool
  pc : BitVec 32
  csrWenable : Bool
  csrRdata : BitVec 32
  multInst : Bool
deriving DecidableEq, Repr, Inhabited

end RiVerSoC
