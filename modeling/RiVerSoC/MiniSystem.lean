/-
The small core with the RAM of `main.cpp`, and the machine that executes one instruction at a
time.

* `System.step` — one cycle of the pipeline and of the RAM;
* `execute` — an instruction that goes through DEC, EXE, MEM and WBK at once;
* `exeWord_of_inv`, `written_eq` — EXE and WBK of the pipeline do what they do there.
-/
import RiVerSoC.MiniInterlock
import RiVerSoC.Rv32i

namespace RiVerSoC

namespace Mini

/-! ### MEM and the RAM -/

/-- The data of `mem_preprocess`. -/
def storeData (w : Exe2Mem) : BitVec 32 :=
  let din := w.memData
  let start := rangeStart (w.exeRes.extractLsb' 0 2).toNat
  let size := rangeSize w.memSize
  let last := min 31 (start + size)
  let dout := if w.memSignExtend && din.getLsbD last then BitVec.allOnes 32 else 0
  BitRange.set dout last start (BitRange.get din size 0)

/-- `mem_preprocess`; an address is valid when EXE2MEM has a word. -/
def memPreprocess (w : Exe2Mem) (exe2memEmpty : Bool) : McacheRequest where
  data := storeData w
  adr := if w.memStore then w.exeRes else w.exeRes &&& 0xFFFFFFFC#32
  load := w.memLoad
  store := w.memStore
  adrValid := !exe2memEmpty
  memSize := w.memSize
  wb := w.wb || w.memLoad

/-- `mem2wbk_concat`, for the answer `result`. -/
def memWordOf (w : Exe2Mem) (result : BitVec 32) : Mem2Wbk where
  memRes := if w.memLoad then Pipeline.loaded w result else w.exeRes
  dest := w.dest.setWidth 5
  wb := w.wb || w.memLoad

/-- The write of WBK. -/
def writeBack (g : Registers) (w : Mem2Wbk) : Registers :=
  if w.wb && w.dest.setWidth 6 != (32 : BitVec 6) then g.write (w.dest.setWidth 6) w.memRes else g

/-! ### The system -/

/-- The core behind its fetch stage, with the RAM. -/
structure System where
  pipe : Pipeline
  ram : Ram

/-- What the system is given in one cycle. -/
structure Feed where
  delivered : Delivered
  if2decEmpty : Bool
  readPc : BitVec 32
  bypassesRun : Bool
  offsetRead : BitVec 32
  mcacheStall : Bool
deriving DecidableEq, Repr, Inhabited

namespace System

variable (m : System) (i : Feed)

def request : McacheRequest := memPreprocess m.pipe.re m.pipe.exe2mem.isEmpty

def cycle : Cycle where
  delivered := i.delivered
  if2decEmpty := i.if2decEmpty
  readPc := i.readPc
  bypassesRun := i.bypassesRun
  offsetRead := i.offsetRead
  mcacheStall := i.mcacheStall
  mcacheResult := (ramCycle m.ram m.request).2

def step : System where
  pipe := m.pipe.step (m.cycle i)
  ram := (ramCycle m.ram m.request).1

def reset (ram : Ram) : System := ⟨Pipeline.reset, ram⟩

end System

/-! ### One instruction at a time -/

/-- What an instruction is executed with beside the registers and the RAM: what DEC gets from
fetch, the program counter, the offset that is packed with a `jalr`, and the signals that the
decoder leaves alone. -/
structure Issued where
  delivered : Delivered
  readPc : BitVec 32
  offsetRead : BitVec 32
  old : Decoded
deriving DecidableEq, Repr, Inhabited

abbrev Arch := RiVerSoC.Arch

namespace Issued

variable (x : Issued) (g : Registers)

/-- The signals of DEC, for the registers `g`. -/
def decoded : Decoded :=
  postRegReadDecoding x.delivered.instr (g.read (radr1 x.delivered.instr))
    (g.read (radr2 x.delivered.instr)) x.readPc x.delivered.pc x.old

def handed : Handed :=
  unconcatDec2exe
    (concatDec2exe x.delivered (packed x.delivered.instr x.offsetRead (x.decoded g)))

end Issued

/-- What EXE makes of the operands in DEC2EXE. -/
def exeOf (w : Handed) : Exe2Mem where
  exeRes := Pipeline.selectExecRes w w.op1 w.op2 0
  memData := w.memData
  dest := w.exeDest
  memSize := w.memSize
  wb := w.wb
  memLoad := w.memLoad
  memStore := w.memStore
  memSignExtend := w.memSignExtend

namespace Arch

variable (a : Arch) (x : Issued)

/-- The word of the instruction in EXE2MEM. -/
def exeWord : Exe2Mem := exeOf (x.handed a.registers)

/-- The RAM after the instruction, and its answer. -/
def answer : Ram × BitVec 32 := ramAccess a.ram (memPreprocess (a.exeWord x) false)

/-- The word of the instruction in MEM2WBK. -/
def memWord : Mem2Wbk := memWordOf (a.exeWord x) (a.answer x).2

def execute : Arch := ⟨writeBack a.registers (a.memWord x), (a.answer x).1⟩

end Arch

/-! ### The stages -/

section Stages

/-- The commands that EXE has a result for. -/
def Commands (optype : BitVec 3) (exeCmd : BitVec 2) : Prop :=
  optype = 0 ∨ optype = 1 ∨ (optype = 2 ∧ (exeCmd = 0 ∨ exeCmd = 1))

/-- Such a command leaves nothing of an earlier result. -/
theorem selectExecRes_of_commands {w : Handed} (h : Commands w.optype w.exeCmd)
    (op1 op2 old old' : BitVec 32) :
    Pipeline.selectExecRes w op1 op2 old = Pipeline.selectExecRes w op1 op2 old' := by
  unfold Pipeline.selectExecRes
  rcases h with h | h | ⟨h, hc⟩
  · rw [h]
    rfl
  · rw [h]
    rfl
  · rcases hc with hc | hc <;> rw [h, hc] <;> rfl

theorem commands_dataOperation (ir rdata1 rdata2 pcRi : BitVec 32) :
    Commands (((dataOperation ir rdata1 rdata2 pcRi).optype.setWidth 4).setWidth 3)
      (dataOperation ir rdata1 rdata2 pcRi).exeCmd := by
  -- a code of funct3 has one function
  cases hr : (Decode.opcode ir == 0b0110011) <;> cases hi : (Decode.opcode ir == 0b0010011) <;>
    cases hplain : (Decode.funct7 ir == 0) <;> cases halt : (Decode.funct7 ir == 0b0100000) <;>
    simp only [dataOperation, Decode.decodingInstruction, Decode.has3, Decode.has7, Commands, hr,
      hi, hplain, halt] <;>
    generalize Decode.funct3 ir = f <;>
    revert f <;>
    decide

/-- The decoder gives no other command. -/
theorem commands_decoded (x : Issued) (g : Registers) :
    Commands (((x.decoded g).optype.setWidth 4).setWidth 3) (x.decoded g).exeCmd := by
  unfold Issued.decoded postRegReadDecoding
  split_ifs
  · exact commands_dataOperation ..
  all_goals exact Or.inl rfl

theorem commands_handed (x : Issued) (g : Registers) :
    Commands (x.handed g).optype (x.handed g).exeCmd := by
  have hword : x.handed g = _ :=
    unconcat_concat x.delivered (packed x.delivered.instr x.offsetRead (x.decoded g))
  rw [hword]
  exact commands_decoded x g

variable {s : Pipeline} {i : Cycle}

namespace Pipeline

/-- With its operands ready, EXE finds them in DEC2EXE again. -/
theorem exeBypasses_of_inv (h : Inv s) (hv : s.dec2exe.v = true) :
    s.exeBypasses = ⟨false, s.rd.op1, s.rd.op2, s.rd.memData⟩ := by
  have hrs1 : s.exeRs1 = s.rd.op1 := by
    by_cases h0 : (s.rd.bpRadr1 == 0 || s.rd.blockBp) = true
    · rw [exeRs1, if_pos h0]
    · rw [Bool.or_eq_true, beq_iff_eq, not_or, Bool.not_eq_true] at h0
      exact exeRs1_of_ready (h.op1 hv h0.1 h0.2)
  have hrs2 : s.exeRs2 = (false, s.rd.op2, s.rd.memData) := by
    by_cases h0 : s.rd.bpRadr2 = 0
    · rw [exeRs2, h0]
      rfl
    · exact exeRs2_of_ready (h.op2 hv h0)
  rw [exeBypasses, hrs1, hrs2]

theorem exeWord_of_inv (h : Inv s) (hv : s.dec2exe.v = true)
    (hc : Commands s.rd.optype s.rd.exeCmd) : s.exeWord = exeOf s.rd := by
  have hres : s.exeResSe = selectExecRes s.rd s.rd.op1 s.rd.op2 0 := by
    rw [exeResSe, exeBypasses_of_inv h hv]
    exact selectExecRes_of_commands hc ..
  rw [exeWord, hres, exeBypasses_of_inv h hv]
  rfl

/-- EXE waits for MEM only. -/
theorem exePush_of_inv (h : Inv s) :
    s.exePush i = (s.dec2exe.v && !s.exe2mem.isFull (s.memPush i)) := by
  unfold exePush Fifo.isEmpty
  cases hv : s.dec2exe.v with
  | false => simp
  | true =>
    rw [exeBypasses_of_inv h hv]
    simp

/-- MEM waits for the memory only. -/
theorem memPush_eq : s.memPush i = (s.exe2mem.v && !i.mcacheStall) := by
  unfold memPush wbkPop Fifo.isFull Fifo.isEmpty
  cases s.exe2mem.v <;> cases s.mem2wbk.v <;> cases i.mcacheStall <;> rfl

theorem written_eq :
    s.written = if s.mem2wbk.v then writeBack s.registers s.rm else s.registers := by
  unfold written wenable writeBack destRm Fifo.isEmpty
  cases s.mem2wbk.v <;> simp

end Pipeline

end Stages

end Mini

end RiVerSoC
