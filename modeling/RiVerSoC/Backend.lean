/-
The pipeline behind the fetch stage, cycle by cycle.

The three FIFOs DEC2EXE, EXE2MEM and MEM2WBK hold the instructions in flight; in one cycle
the methods of DEC, EXE, MEM and WBK settle, and the clock edge moves the words.  The methods
that read more than wakes them keep what they have read last: DEC and EXE go from one cycle to
the next by the delta cycles of their own modules, WBK by those of its only method.

* `Cycle` — what the pipeline is given in one cycle: the word in IF2DEC, the answers of the
  data cache, the CSR file, the divider and the multiplier, and the trap signal;
* `decSig`, `exeSig`, `memWord`, `wbkSig` — the signals of the four stages;
* `step` — one clock edge.
-/
import RiVerSoC.DecDelta
import RiVerSoC.ExeDelta
import RiVerSoC.Fifo
import RiVerSoC.MemAccess

namespace RiVerSoC

/-- The register file, with the program counter in its last place. -/
abbrev Registers := Vector (BitVec 32) 33

/-- A read port. -/
def Registers.read (g : Registers) (radr : BitVec 6) : BitVec 32 := g[radr.toNat]?.getD 0

/-- The write port of WBK. -/
def Registers.write (g : Registers) (wadr : BitVec 6) (wdata : BitVec 32) : Registers :=
  if wadr = 0 then g else g.setIfInBounds wadr.toNat wdata

namespace Backend

/-- What the pipeline is given in one cycle. -/
structure Cycle where
  ir : BitVec 32
  if2decEmpty : Bool
  readPc : BitVec 32
  fetch : Dec.Fetch
  csrRdataSc : BitVec 32
  currentMode : BitVec 2
  kernelAdr : BitVec 32
  uninit : Decode.Uninit
  /-- `concat_dec2exe` runs after `ebreak_i_sd` has moved, also when `exe_wb_sd` stays. -/
  ebreakHeard : Bool
  exceptionSm : Bool
  dividerRes : BitVec 32
  divBusy : Bool
  /-- What the multiplier delivers in WBK for the instruction that is in EXE now. -/
  product : BitVec 32
  mcacheStall : Bool
  mcacheResult : BitVec 32
deriving DecidableEq, Repr, Inhabited

/-! ### WBK -/

/-- The value that `wbk_method` writes to `WDATA_SW`. -/
def wdata (w : Mem2Wbk) (x2Res : BitVec 32) : BitVec 32 :=
  if w.csrWenable then w.csrRdata else if w.multInst then x2Res else w.memRes

/-- What `wbk_method` reads, and `WDATA_SW`; the other signals that it writes show what is on
its sensitivity list. -/
structure WbkSig where
  rm : Mem2Wbk
  mem2wbkEmpty : Bool
  x2Res : BitVec 32
  wdataSw : BitVec 32
deriving DecidableEq, Repr, Inhabited

/-- The sensitivity list of `wbk_method`: neither `CSR_WENABLE_RM` nor `CSR_RDATA_RM` is
on it. -/
def wbkListed (w : WbkSig) : List ℕ :=
  [w.rm.memRes.toNat, w.rm.dest.toNat, w.rm.wb.toNat, w.mem2wbkEmpty.toNat, w.x2Res.toNat,
    w.rm.multInst.toNat]

abbrev wbkM : Delta.Method WbkSig (BitVec 32) :=
  .listening wbkListed (fun w => wdata w.rm w.x2Res) WbkSig.wdataSw

/-! ### The state -/

/-- The clocked state, and the signals that some method leaves alone. -/
structure State where
  dec2exe : Fifo Dec2Exe
  exe2mem : Fifo Exe2Mem
  mem2wbk : Fifo Mem2Wbk
  registers : Registers
  /-- The signals of the hazard detection of DEC, of EXE and of WBK in the cycle before. -/
  dec : Dec.Stage
  exe : Exe.Stage
  wbk : WbkSig
  regs : Decode.Regs
  operation : Decode.Operation
  /-- What `concat_dec2exe` has read last of `ebreak_i_sd`. -/
  ebreak : Bool
  /-- The multiplier's words for the instructions in MEM and in WBK. -/
  productMem : BitVec 32
  productWbk : BitVec 32

/-- Everything is empty and 0. -/
def reset : State where
  dec2exe := default
  exe2mem := default
  mem2wbk := default
  registers := Vector.replicate 33 0
  dec := Dec.Stage.reset
  exe := Exe.Stage.reset
  wbk := { rm := default, mem2wbkEmpty := true, x2Res := 0, wdataSw := 0 }
  regs := default
  operation := default
  ebreak := false
  productMem := 0
  productWbk := 0

variable (s : State) (i : Cycle)

/-! ### MEM and WBK -/

/-- `MEM2WBK_POP_SW`. -/
def wbkPop : Bool := !s.mem2wbk.isEmpty

/-- `EXE2MEM_POP_SM` and `mem2wbk_push_sm`. -/
def memPush : Bool :=
  !(i.mcacheStall || s.mem2wbk.isFull (wbkPop s) || s.exe2mem.isEmpty)

/-- `mem2wbk_concat`, with the data of `sign_extend`.  `PC_EXE2MEM_RE` does not wake it, and
nothing reads the program counter in MEM2WBK. -/
def memWord : Mem2Wbk where
  memRes := signExtend s.exe2mem.dout i.mcacheResult
  dest := s.exe2mem.dout.dest.setWidth 5
  wb := s.exe2mem.dout.wb || s.exe2mem.dout.memLoad
  pc := s.exe2mem.dout.pc
  csrWenable := s.exe2mem.dout.csrWenable
  csrRdata := s.exe2mem.dout.csrRdata
  multInst := s.exe2mem.dout.multInst

/-- What WBK sees, with `WDATA_SW` from the cycle before. -/
def wbkInputs : WbkSig where
  rm := s.mem2wbk.dout
  mem2wbkEmpty := s.mem2wbk.isEmpty
  x2Res := s.productWbk
  wdataSw := s.wbk.wdataSw

/-- The signals of WBK; its only method reads nothing that it writes, and one delta cycle is
enough. -/
def wbkSig : WbkSig := { wbkInputs s with wdataSw := wbkM.fire s.wbk (wbkInputs s) }

/-- `WENABLE_SW`. -/
def wenable : Bool := s.mem2wbk.dout.wb && !s.mem2wbk.isEmpty

/-! ### EXE -/

/-- What EXE sees. -/
def exeInputs : Exe.Inputs where
  rd := s.dec2exe.dout
  re := s.exe2mem.dout
  exe2memEmpty := s.exe2mem.isEmpty
  rm := s.mem2wbk.dout
  mem2wbkEmpty := s.mem2wbk.isEmpty
  currentMode := i.currentMode
  kernelAdr := i.kernelAdr
  exceptionSm := i.exceptionSm
  dividerRes := i.dividerRes

/-- EXE after the delta cycles of this cycle, and its signals. -/
def exeStage : Exe.Stage := s.exe.settle (exeInputs s i)

def exeSig : Exe.Sig := (exeStage s i).sig

/-- The stall of `manage_fifo`. -/
def exeStall : Bool :=
  s.exe2mem.isFull (memPush s i) || s.dec2exe.isEmpty || (exeSig s i).byp.blocked ||
    !(exeSig s i).byp.r1ValidSe || !(exeSig s i).byp.r2ValidSe || i.divBusy

/-- `exe2mem_push_se` and `DEC2EXE_POP_SE`. -/
def exePush : Bool := i.exceptionSm || !exeStall s i

/-! ### DEC -/

/-- What the hazard detection of DEC sees. -/
def decContents : Dec.Contents where
  ir := i.ir
  if2decEmpty := i.if2decEmpty
  stages :=
    { rd := s.dec2exe.dout
      dec2exeEmpty := s.dec2exe.isEmpty
      re := s.exe2mem.dout
      exe2memEmpty := s.exe2mem.isEmpty
      rm := s.mem2wbk.dout
      mem2wbkEmpty := s.mem2wbk.isEmpty }
  dec2exeFull := s.dec2exe.isFull (exePush s i)
  registers := s.registers

/-- The hazard detection after the delta cycles of this cycle, and its signals. -/
def decStage : Dec.Stage := s.dec.settle (decContents s i)

def decSig : Dec.Sig := (decStage s i).sig

/-- The signals of `pre_reg_read_decoding`. -/
def decRegs : Decode.Regs :=
  Decode.preRegReadDecoding i.ir (decSig s i).types (decSig s i).insts i.currentMode s.regs

/-- The signals of `post_reg_read_decoding`. -/
def decOperation : Decode.Operation :=
  Decode.postRegReadDecoding i.ir (decSig s i).types (decSig s i).insts
    { rdata1 := (decSig s i).haz.rdata1
      rdata2 := (decSig s i).haz.rdata2
      pcIf2dec := i.fetch.pcIf2dec
      readPc := i.readPc
      csrRdataSc := i.csrRdataSc
      if2decEmpty := i.if2decEmpty } i.uninit s.operation

/-- What `concat_dec2exe` reads of `ebreak_i_sd`, which does not wake it; a new value of
`exe_wb_sd` comes later and does. -/
def ebreakSd : Bool :=
  if i.ebreakHeard || (decOperation s i).wb != s.operation.wb then (decSig s i).insts.ebreak
  else s.ebreak

/-- The instruction that `concat_dec2exe` sees. -/
def decInsts : Decode.Insts := { (decSig s i).insts with ebreak := ebreakSd s i }

/-- `dec2exe_in_sd`. -/
def decWord : Dec2Exe :=
  Dec.concatDec2exe i.exceptionSm i.fetch (decInsts s i) (decRegs s i) (decSig s i).haz
    (decOperation s i) i.csrRdataSc

/-- `dec2exe_push_sd`. -/
def decPush : Bool := i.exceptionSm || !(decSig s i).stallSd

/-! ### The clock edge -/

def step : State where
  dec2exe := s.dec2exe.clock (decPush s i) (exePush s i) (decWord s i)
  exe2mem := s.exe2mem.clock (exePush s i) (memPush s i) (exeSig s i).exe2memDinSe
  mem2wbk := s.mem2wbk.clock (memPush s i) (wbkPop s) (memWord s i)
  registers :=
    if wenable s then
      s.registers.write (s.mem2wbk.dout.dest.setWidth 6) (wbkSig s).wdataSw
    else s.registers
  dec := decStage s i
  exe := exeStage s i
  wbk := wbkSig s
  regs := decRegs s i
  operation := decOperation s i
  ebreak := ebreakSd s i
  productMem := if s.exe2mem.loads (exePush s i) (memPush s i) then i.product else s.productMem
  productWbk := if memPush s i then s.productMem else s.productWbk

/-! ### The delta cycles -/

variable {s i}

/-- The signals of EXE are those on which its methods settle, from the signals of the cycle
before. -/
theorem exeSig_eq_apply : exeSig s i = Exe.apply s.exe.sig (exeInputs s i) :=
  s.exe.sig_settle (exeInputs s i)

theorem decSig_eq_apply : decSig s i = Dec.apply s.dec.sig (decContents s i) :=
  s.dec.sig_settle (decContents s i)

end Backend

end RiVerSoC
