/-
The small core behind its fetch stage, cycle by cycle.

The methods of DEC, EXE, MEM and WBK are taken when they have settled; what a method leaves
alone in some branch keeps its value (`old`), and what one reads without waking on it is given
(`bypassesRun`, `offsetRead`).  Words of the R format that are no instruction are decoded when
they come, although `post_reg_read_decoding` does not wake on `r_type_inst_sd` alone.

* `postRegReadDecoding` — the operands and the command of an instruction;
* `decBypass`, `exeBypasses` — the values that DEC and EXE take from the stages behind them;
* `step` — one clock edge.
-/
import RiVerSoC.Backend
import RiVerSoC.MiniPcInc

namespace RiVerSoC

namespace Mini

/-! ### Decoding -/

/-- `r_type_inst_sd`. -/
def rTypeInst (ir : BitVec 32) : Bool :=
  Decode.opcode ir == 0b0110011 && Decode.funct7 ir != 0b0000001

/-- `i_type_inst_sd`. -/
def iTypeInst (ir : BitVec 32) : Bool :=
  Decode.opcode ir == 0b0010011 || Decode.opcode ir == 0b0000011

/-- `s_type_inst_sd`. -/
def sTypeInst (ir : BitVec 32) : Bool := Decode.opcode ir == 0b0100011

/-- `u_type_inst_sd`. -/
def uTypeInst (ir : BitVec 32) : Bool :=
  Decode.opcode ir == 0b0110111 || Decode.opcode ir == 0b0010111

/-- `radr1_var`. -/
def radr1 (ir : BitVec 32) : BitVec 6 :=
  if rTypeInst ir || iTypeInst ir || sTypeInst ir || bTypeInst ir then (Decode.rs1 ir).setWidth 6
  else if uTypeInst ir || jTypeInst ir then 0
  else if jalrTypeInst ir then (Decode.rs1 ir).setWidth 6
  else 0

/-- `radr2_var`. -/
def radr2 (ir : BitVec 32) : BitVec 6 :=
  if rTypeInst ir then (Decode.rs2 ir).setWidth 6
  else if iTypeInst ir then 0
  else if sTypeInst ir || bTypeInst ir then (Decode.rs2 ir).setWidth 6
  else 0

/-- `adr_dest_var`. -/
def adrDest (ir : BitVec 32) : BitVec 6 :=
  if rTypeInst ir || iTypeInst ir then (Decode.rd ir).setWidth 6
  else if sTypeInst ir || bTypeInst ir then 0
  else if uTypeInst ir || jTypeInst ir || jalrTypeInst ir then (Decode.rd ir).setWidth 6
  else 0

/-- An instruction without any effect. -/
def idle (ir : BitVec 32) : Decoded where
  offsetBranch := 0
  jump := false
  blockBp := jalrTypeInst ir
  radr1 := radr1 ir
  radr2 := radr2 ir
  exeCmd := 0
  exeOp1 := 0
  exeOp2 := 0
  exeNegOp2 := false
  exeWb := false
  memData := 0
  memLoad := false
  memStore := false
  memSignExtend := false
  memSize := 0
  optype := 0
  adrDest := adrDest ir
  slt := (Decode.decodingInstruction ir).slt || (Decode.decodingInstruction ir).slti
  sltu := (Decode.decodingInstruction ir).sltu || (Decode.decodingInstruction ir).sltiu

/-- The formats R, I and U. -/
def dataOperation (ir rdata1 rdata2 pcRi : BitVec 32) : Decoded :=
  let n := Decode.decodingInstruction ir
  { idle ir with
    exeOp1 := if iTypeInst ir then rdata1 else if uTypeInst ir then Decode.immU ir else rdata1
    exeOp2 :=
      if iTypeInst ir then Decode.immI ir
      else if uTypeInst ir then if n.auipc then pcRi else rdata2
      else rdata2
    memLoad := n.load
    memSize := if n.lw then 0 else if n.lh || n.lhu then 1 else if n.lb || n.lbu then 2 else 0
    memSignExtend := n.lb || n.lh
    exeWb := true
    exeNegOp2 := n.sub || n.slt || n.slti || n.sltu || n.sltiu
    exeCmd :=
      if n.and || n.andi || n.srl || n.srli || n.sltu || n.sltiu then 1
      else if n.or || n.ori || n.sra || n.srai then 2
      else if n.xor || n.xori then 3
      else 0
    optype :=
      if n.sll || n.slli || n.srl || n.srli || n.sra || n.srai then 1
      else if n.slti || n.slt || n.sltu || n.sltiu then 2
      else 0 }

/-- The format S, where `mem_sign_extend_sd` is not written. -/
def storeOperation (ir rdata1 rdata2 : BitVec 32) (old : Decoded) : Decoded :=
  let n := Decode.decodingInstruction ir
  { idle ir with
    exeOp1 := rdata1
    exeOp2 := Decode.immS ir
    memData := rdata2
    memStore := true
    exeWb := true
    memSize := if n.sw then 0 else if n.sh then 1 else if n.sb then 2 else old.memSize
    memSignExtend := old.memSignExtend }

def branchOperation (ir rdata1 rdata2 pcRi : BitVec 32) : Decoded :=
  { idle ir with
    exeOp1 := rdata1
    exeOp2 := rdata2
    exeWb := true
    offsetBranch := Loop.offsetBranch ir rdata1 pcRi
    jump := Loop.jump ir rdata1 rdata2 }

def jumpOperation (ir rdata1 rdata2 readPc pcRi : BitVec 32) : Decoded :=
  { idle ir with
    exeOp1 := readPc
    exeWb := true
    offsetBranch := Loop.offsetBranch ir rdata1 pcRi
    jump := Loop.jump ir rdata1 rdata2 }

/-- `post_reg_read_decoding`, with the registers of `pre_reg_read_decoding`; `fence` and the
words of no format are idle. -/
def postRegReadDecoding (ir rdata1 rdata2 readPc pcRi : BitVec 32) (old : Decoded) : Decoded :=
  if rTypeInst ir || iTypeInst ir || uTypeInst ir then dataOperation ir rdata1 rdata2 pcRi
  else if sTypeInst ir then storeOperation ir rdata1 rdata2 old
  else if bTypeInst ir then branchOperation ir rdata1 rdata2 pcRi
  else if jalrTypeInst ir || jTypeInst ir then jumpOperation ir rdata1 rdata2 readPc pcRi
  else idle ir

example (readPc pcRi : BitVec 32) (old : Decoded) :
    postRegReadDecoding 0x00000063 0 0 readPc pcRi old = branchOnX0 0 true := rfl

/-- The signals that `concat_dec2exe` has read: it does not wake on `offset_branch_sd`, which
comes last when the operand of a `jalr` is late. -/
def packed (ir offsetRead : BitVec 32) (d : Decoded) : Decoded :=
  { d with offsetBranch := if jalrTypeInst ir then offsetRead else d.offsetBranch }

/-! ### The machine -/

/-- The word that EXE's `fifo_concat` packs for MEM. -/
structure Exe2Mem where
  exeRes : BitVec 32
  memData : BitVec 32
  dest : BitVec 6
  memSize : BitVec 2
  wb : Bool
  memLoad : Bool
  memStore : Bool
  memSignExtend : Bool
deriving DecidableEq, Repr, Inhabited

/-- The word that `mem2wbk_concat` packs for WBK. -/
structure Mem2Wbk where
  memRes : BitVec 32
  dest : BitVec 5
  wb : Bool
deriving DecidableEq, Repr, Inhabited

/-- What the pipeline is given in one cycle: the outputs of IF2DEC and PB_IF2DEC, the program
counter, whether a signal on the list of `decod::bypasses` has changed, the `offset_branch_sd`
that `concat_dec2exe` has read with a `jalr`, and the answer of the data memory. -/
structure Cycle where
  delivered : Delivered
  if2decEmpty : Bool
  readPc : BitVec 32
  bypassesRun : Bool
  offsetRead : BitVec 32
  mcacheStall : Bool
  mcacheResult : BitVec 32
deriving DecidableEq, Repr, Inhabited

/-- The clocked state, and the signals that some method leaves alone in some branch. -/
structure Pipeline where
  dec2exe : Fifo Handed
  exe2mem : Fifo Exe2Mem
  mem2wbk : Fifo Mem2Wbk
  registers : Registers
  rdata1 : BitVec 32
  rdata2 : BitVec 32
  blockInDec : Bool
  decoded : Decoded
  op1 : BitVec 32
  op2 : BitVec 32
  exeRes : BitVec 32

namespace Pipeline

def reset : Pipeline where
  dec2exe := default
  exe2mem := default
  mem2wbk := default
  registers := Vector.replicate 33 0
  rdata1 := 0
  rdata2 := 0
  blockInDec := false
  decoded := default
  op1 := 0
  op2 := 0
  exeRes := 0

variable (s : Pipeline) (i : Cycle)

/-- The `*_RD` signals. -/
abbrev rd : Handed := s.dec2exe.dout

/-- The `*_RE` signals. -/
abbrev re : Exe2Mem := s.exe2mem.dout

/-- The `*_RM` signals. -/
abbrev rm : Mem2Wbk := s.mem2wbk.dout

/-- `DEST_RM`. -/
def destRm : BitVec 6 := s.rm.dest.setWidth 6

/-! ### MEM and WBK -/

/-- `MEM2WBK_POP_SW`. -/
def wbkPop : Bool := !s.mem2wbk.isEmpty

/-- `EXE2MEM_POP_SM` and `mem2wbk_push_sm`. -/
def memPush : Bool := !(i.mcacheStall || s.mem2wbk.isFull s.wbkPop || s.exe2mem.isEmpty)

/-- `dout` of `sign_extend`. -/
def loaded (w : Exe2Mem) (din : BitVec 32) : BitVec 32 :=
  let rangeStart :=
    match (w.exeRes.extractLsb' 0 3).toNat with
    | 0 => 0
    | 1 => 8
    | 2 => 16
    | 3 => 24
    | _ => 0
  let rangeSize := if w.memSize = 2 then 7 else if w.memSize = 1 then 15 else 31
  let rangeEnd := min 31 (rangeStart + rangeSize)
  let dout : BitVec 32 :=
    if w.memSignExtend && din.getLsbD rangeEnd then BitVec.allOnes 32 else 0
  BitRange.set dout rangeSize 0 (BitRange.get din rangeEnd rangeStart)

/-- `mem2wbk_concat`. -/
def memWord : Mem2Wbk where
  memRes := if s.re.memLoad then loaded s.re i.mcacheResult else s.re.exeRes
  dest := s.re.dest.setWidth 5
  wb := s.re.wb || s.re.memLoad

/-- `WENABLE_SW`. -/
def wenable : Bool := s.rm.wb && !s.mem2wbk.isEmpty

/-- The write port of the registers. -/
def written : Registers :=
  if s.wenable && s.destRm != 32 then s.registers.write s.destRm s.rm.memRes else s.registers

/-! ### EXE -/

/-- The outputs of `exec::bypasses`. -/
structure Operands where
  invalid : Bool
  op1 : BitVec 32
  op2 : BitVec 32
  memData : BitVec 32
deriving DecidableEq, Repr, Inhabited

/-- The register is written by a load in MEM. -/
def loadInMem (r : BitVec 6) : Bool := r == s.re.dest && s.re.memLoad && !s.exe2mem.isEmpty

def inMem (r : BitVec 6) : Bool := r == s.re.dest && !s.exe2mem.isEmpty

def inWbk (r : BitVec 6) : Bool := r == s.destRm && !s.mem2wbk.isEmpty

/-- The block of the first source; its flag is overwritten by the second block. -/
def exeRs1 : BitVec 32 :=
  if s.rd.bpRadr1 == 0 || s.rd.blockBp then s.rd.op1
  else if s.loadInMem s.rd.bpRadr1 then s.op1
  else if s.inMem s.rd.bpRadr1 then s.re.exeRes
  else if s.inWbk s.rd.bpRadr1 then s.rm.memRes
  else s.rd.op1

/-- A value for the second source, or for the data of a store. -/
def withSource (v : BitVec 32) : BitVec 32 × BitVec 32 :=
  if s.rd.memStore then (s.rd.op2, v) else (v, s.rd.memData)

/-- The block of the second source: the flag, `op2_se` and `mem_data_se`. -/
def exeRs2 : Bool × BitVec 32 × BitVec 32 :=
  if s.rd.bpRadr2 == 0 || s.rd.blockBp then (false, s.rd.op2, s.rd.memData)
  else if s.loadInMem s.rd.bpRadr2 then (true, s.op2, s.rd.memData)
  else if s.inMem s.rd.bpRadr2 then (false, s.withSource s.re.exeRes)
  else if s.inWbk s.rd.bpRadr2 then (false, s.withSource s.rm.memRes)
  else (false, s.rd.op2, s.rd.memData)

def exeBypasses : Operands where
  invalid := s.exeRs2.1
  op1 := s.exeRs1
  op2 := s.exeRs2.2.1
  memData := s.exeRs2.2.2

/-- `preprocess_op` and the ALU. -/
def aluOut (w : Handed) (op1 op2 : BitVec 32) : BitVec 32 :=
  let op2 := if w.negOp2 then ~~~op2 else op2
  if w.exeCmd = 0 then op1 + op2 + (BitVec.ofBool w.negOp2).setWidth 32
  else if w.exeCmd = 1 then op1 &&& op2
  else if w.exeCmd = 2 then op1 ||| op2
  else op1 ^^^ op2

/-- The shifter. -/
def shifterOut (w : Handed) (op1 op2 : BitVec 32) : BitVec 32 :=
  let shiftVal := (op2.extractLsb' 0 5).toNat
  let shiftin : BitVec 32 := if w.exeCmd = 2 then BitVec.allOnes 32 else 0
  if w.exeCmd = 0 then op1 <<< shiftVal else (op1 >>> shiftVal) ||| (shiftin <<< (32 - shiftVal))

/-- `select_exec_res`. -/
def selectExecRes (w : Handed) (op1 op2 old : BitVec 32) : BitVec 32 :=
  let alu := aluOut w op1 op2
  if w.optype = 1 then shifterOut w op1 op2
  else if w.optype = 0 then alu
  else if w.optype = 2 then
    if w.exeCmd = 0 then
      if op1.msb && !op2.msb then 1
      else if !op1.msb && op2.msb then 0
      else if op1 == op2 then 0
      else (BitVec.ofBool alu.msb).setWidth 32
    else if w.exeCmd = 1 then
      if op1.msb && !op2.msb then 0
      else if !op1.msb && op2.msb then 1
      else if op1 == op2 then 0
      else (BitVec.ofBool alu.msb).setWidth 32
    else old
  else old

/-- `exe_res_se`. -/
def exeResSe : BitVec 32 := selectExecRes s.rd s.exeBypasses.op1 s.exeBypasses.op2 s.exeRes

/-- `exe2mem_push_se` and `DEC2EXE_POP_SE`. -/
def exePush : Bool :=
  !(s.exe2mem.isFull (s.memPush i) || s.dec2exe.isEmpty || s.exeBypasses.invalid)

/-- `fifo_concat`. -/
def exeWord : Exe2Mem where
  exeRes := s.exeResSe
  memData := s.exeBypasses.memData
  dest := s.rd.exeDest
  memSize := s.rd.memSize
  wb := s.rd.wb
  memLoad := s.rd.memLoad
  memStore := s.rd.memStore
  memSignExtend := s.rd.memSignExtend

/-! ### DEC -/

/-- One block of `decod::bypasses`: whether the source is not ready, and its value. -/
def decSource (r : BitVec 6) (old : BitVec 32) : Bool × BitVec 32 :=
  if r == 0 then (false, s.registers.read r)
  else if r == s.rd.exeDest && !s.dec2exe.isEmpty then (true, old)
  else if s.loadInMem r then (true, old)
  else if s.inMem r then (false, s.re.exeRes)
  else if s.inWbk r then (false, s.rm.memRes)
  else (false, s.registers.read r)

/-- `rdata1_sd`. -/
def rdata1Sd : BitVec 32 := (s.decSource (radr1 i.delivered.instr) s.rdata1).2

/-- `rdata2_sd`. -/
def rdata2Sd : BitVec 32 := (s.decSource (radr2 i.delivered.instr) s.rdata2).2

/-- `invalid_operand_sd`; the second block only sets it. -/
def invalidOperandSd : Bool :=
  (s.decSource (radr1 i.delivered.instr) s.rdata1).1 ||
    (s.decSource (radr2 i.delivered.instr) s.rdata2).1

/-- `block_in_dec_sd`; `MEM_LOAD_RD` is not on the list of `bypasses`, so that the flag can be
an old one. -/
def blockInDecSd : Bool :=
  if i.bypassesRun then
    (radr1 i.delivered.instr == s.rd.exeDest || radr2 i.delivered.instr == s.rd.exeDest) &&
      s.rd.memLoad && !s.dec2exe.isEmpty
  else s.blockInDec

/-- `stall_sd`. -/
def stallSd : Bool :=
  s.invalidOperandSd i || s.blockInDecSd i || i.if2decEmpty || s.dec2exe.isFull (s.exePush i)

def decodedSd : Decoded :=
  postRegReadDecoding i.delivered.instr (s.rdata1Sd i) (s.rdata2Sd i) i.readPc i.delivered.pc
    s.decoded

/-- What DEC2EXE shows of the word that DEC packs. -/
def decWord : Handed :=
  unconcatDec2exe
    (concatDec2exe i.delivered (packed i.delivered.instr i.offsetRead (s.decodedSd i)))

/-! ### The clock -/

def step : Pipeline where
  dec2exe := s.dec2exe.clock (!s.stallSd i) (s.exePush i) (s.decWord i)
  exe2mem := s.exe2mem.clock (s.exePush i) (s.memPush i) s.exeWord
  mem2wbk := s.mem2wbk.clock (s.memPush i) s.wbkPop (s.memWord i)
  registers := s.written
  rdata1 := s.rdata1Sd i
  rdata2 := s.rdata2Sd i
  blockInDec := s.blockInDecSd i
  decoded := s.decodedSd i
  op1 := s.exeBypasses.op1
  op2 := s.exeBypasses.op2
  exeRes := s.exeResSe

end Pipeline

end Mini

end RiVerSoC
