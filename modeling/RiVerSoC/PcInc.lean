/-
`pc_inc`, the method of DEC that chooses the next program counter.

* `pcOut` — the program counter after the instruction in DEC, or after the prefetched one;
* `trapVector` — where a trap goes;
* `pcInc` — one activation: the redirect, the flags of the redirect, and the FIFOs around
  the fetch stage;
* `Front` — the core with the program counter.
-/
import RiVerSoC.Core

namespace RiVerSoC

namespace Pc

/-- What `pc_inc` reads. -/
structure Inputs where
  readPc : BitVec 32
  offsetBranch : BitVec 32
  jump : Bool
  if2decEmpty : Bool
  pcIf2dec : BitVec 32
  exceptionSm : Bool
  mretSm : Bool
  returnAdress : BitVec 32
  mtvec : BitVec 32
  mcauseWdata : BitVec 32
  dec2ifFull : Bool
  stallSd : Bool
  predTaken : Bool
  predBranchAdr : BitVec 32
  predSuccessRd : Bool
  predFailedRd : Bool
  kernelAdr : BitVec 32
  currentMode : BitVec 2
deriving DecidableEq, Repr, Inhabited

/-- What `pc_inc` writes; `dec2exe_push_sd` is that of DEC. -/
structure Outputs where
  branchAdr : BitVec 32
  resPc : BitVec 32
  writePc : BitVec 32
  writePcEnable : Bool
  dec2ifPush : Bool
  if2decPop : Bool
  if2decFlush : Bool
  predSuccess : Bool
  predFailed : Bool
  pcBranchValue : BitVec 32
  instructionAdressMissaligned : Bool
  instructionAccessFault : Bool
deriving DecidableEq, Repr, Inhabited

variable (i : Inputs) (old : Outputs)

/-- `add_offset_to_pc`. -/
def addOffsetToPc : Bool := i.jump && !i.if2decEmpty

/-- `pc_out`. -/
def pcOut : BitVec 32 :=
  if !addOffsetToPc i && !i.dec2ifFull then
    if i.predTaken && i.stallSd && !(i.predSuccessRd || i.predFailedRd) then i.predBranchAdr + 4
    else if i.predTaken && !i.stallSd then i.pcIf2dec + 4
    else i.readPc + 4
  else if addOffsetToPc i && !i.dec2ifFull && !i.stallSd then
    if i.predTaken then i.predBranchAdr + 4 else i.pcIf2dec + i.offsetBranch
  else i.readPc

/-- The redirect is made. -/
def redirects : Bool :=
  !addOffsetToPc i && !i.dec2ifFull || addOffsetToPc i && !i.dec2ifFull && !i.stallSd

/-- `pred_success_sd` and `pred_failed_sd`. -/
def prediction : Bool × Bool :=
  if !addOffsetToPc i && !i.dec2ifFull then (false, i.predTaken && !i.if2decEmpty)
  else if addOffsetToPc i && !i.dec2ifFull && !i.stallSd then (i.predTaken, false)
  else (false, false)

/-- `IF2DEC_POP_SD` and `IF2DEC_FLUSH_SD`. -/
def if2decGestion : Bool × Bool :=
  if i.stallSd then (false, false)
  else if i.predTaken then (true, !i.jump)
  else (true, i.jump)

/-- The address of the handler, none for the reserved modes of mtvec. -/
def trapVector : Option (BitVec 32) :=
  if i.mtvec.extractLsb' 0 2 = 0 then some (i.mtvec &&& ~~~3)
  else if i.mtvec.extractLsb' 0 2 = 1 then some ((i.mcauseWdata <<< 2) + (i.mtvec &&& ~~~3))
  else none

/-- Where a trap or a return from a trap goes. -/
def trapTarget : Option (BitVec 32) := if i.mretSm then some i.returnAdress else trapVector i

def underTrap : Outputs :=
  let o :=
    match trapTarget i with
    | some target => { old with resPc := target, writePc := target, writePcEnable := true }
    | none => old
  { o with
    branchAdr := i.pcIf2dec + i.offsetBranch
    if2decPop := true
    if2decFlush := false
    dec2ifPush := true }

def withoutTrap : Outputs where
  branchAdr := i.pcIf2dec + i.offsetBranch
  resPc := pcOut i
  writePc := pcOut i
  writePcEnable := redirects i
  dec2ifPush := redirects i
  if2decPop := (if2decGestion i).1
  if2decFlush := (if2decGestion i).2
  predSuccess := (prediction i).1
  predFailed := (prediction i).2
  pcBranchValue := pcOut i
  instructionAdressMissaligned := pcOut i &&& 3 != 0
  instructionAccessFault := decide (i.kernelAdr < pcOut i) && i.currentMode != 3

/-- One activation. -/
def pcInc : Outputs := if i.exceptionSm then underTrap i old else withoutTrap i

/-- A return from a trap goes to `RETURN_ADRESS_SM`. -/
theorem writePc_of_mret (hx : i.exceptionSm = true) (hm : i.mretSm = true) :
    (pcInc i old).writePc = i.returnAdress ∧ (pcInc i old).writePcEnable = true := by
  rw [pcInc, if_pos hx, underTrap, trapTarget, if_pos hm]
  exact ⟨rfl, rfl⟩

end Pc

/-! ### The core with the program counter -/

namespace Front

/-- What the core is given in one cycle.  The program counter and the flags of the fetch in
`core` are not used. -/
structure Cycle where
  core : Core.Cycle
  dec2ifFull : Bool
  predTaken : Bool
  predBranchAdr : BitVec 32
  predSuccessRd : Bool
  predFailedRd : Bool
deriving DecidableEq, Repr, Inhabited

structure State where
  core : Core.State
  /-- The register of the program counter. -/
  pc : BitVec 32
  signals : Pc.Outputs

def reset (procId pcInit : BitVec 32) : State := ⟨Core.reset procId, pcInit, default⟩

variable (s : State) (i : Cycle)

/-- The cycle with the program counter that DEC reads. -/
def fetched : Core.Cycle := { i.core with pipe := { i.core.pipe with readPc := s.pc } }

/-- What `pc_inc` sees. -/
def pcInputs : Pc.Inputs where
  readPc := s.pc
  offsetBranch := (Backend.decOperation s.core.pipe (Core.cycle s.core (fetched s i))).offsetBranch
  jump := (Backend.decOperation s.core.pipe (Core.cycle s.core (fetched s i))).jump
  if2decEmpty := i.core.pipe.if2decEmpty
  pcIf2dec := i.core.pipe.fetch.pcIf2dec
  exceptionSm := (Core.memOut s.core i.core).exceptionSm
  mretSm := (Core.memOut s.core i.core).mretSm
  returnAdress := (Core.memOut s.core i.core).returnAdressSm
  mtvec := s.core.file.get Csr.mtvec
  mcauseWdata := (Core.memOut s.core i.core).trap.mcauseWdataSm
  dec2ifFull := i.dec2ifFull
  stallSd := (Backend.decSig s.core.pipe (Core.cycle s.core (fetched s i))).stallSd
  predTaken := i.predTaken
  predBranchAdr := i.predBranchAdr
  predSuccessRd := i.predSuccessRd
  predFailedRd := i.predFailedRd
  kernelAdr := s.core.file.get Csr.kernelAdr
  currentMode := (Core.memOut s.core i.core).currentModeSm

/-- The signals of `pc_inc`. -/
def signals : Pc.Outputs := Pc.pcInc (pcInputs s i) s.signals

/-- The cycle as the core sees it. -/
def cycle : Core.Cycle :=
  { fetched s i with
    pipe :=
      { (fetched s i).pipe with
        fetch :=
          { pcIf2dec := i.core.pipe.fetch.pcIf2dec
            pcBranchValue := (signals s i).pcBranchValue
            instructionAdressMissaligned := (signals s i).instructionAdressMissaligned
            instructionAccessFault := (signals s i).instructionAccessFault } } }

def step : State where
  core := Core.step s.core (cycle s i)
  pc := if (signals s i).writePcEnable then (signals s i).writePc else s.pc
  signals := signals s i

end Front

end RiVerSoC
