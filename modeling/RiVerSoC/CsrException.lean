/-
`csr_exception`, the method of MEM that takes traps.

Its outputs are signals that keep their values where a branch does not write them, and a
signal that the method writes is read back with the value from before the activation.

* `csrException` — one activation;
* `settle` — the activations of one cycle: the method wakes on its own `EXCEPTION_SM`;
* `port_settle`, `exceptionSm_settle`, `currentModeSm_settle` — what the activations agree on.
-/
import RiVerSoC.Csr
import RiVerSoC.StageWords

namespace RiVerSoC

namespace Mem

/-- What the method reads. -/
structure Inputs where
  re : Exe2Mem
  busError : Bool
  mip : BitVec 32
  mie : BitVec 32
  mstatus : BitVec 32
  mepc : BitVec 32
deriving DecidableEq, Repr, Inhabited

/-- What the method writes; nothing writes `MIP_WDATA_RM`. -/
structure Outputs where
  saveRestoreSm : Bool
  mppSm : BitVec 2
  mpieSm : Bool
  mieSm : Bool
  trap : Csr.TrapData
  currentModeSm : BitVec 2
  exceptionSm : Bool
  port : Csr.Port
  mretSm : Bool
  returnAdressSm : BitVec 32
deriving DecidableEq, Repr, Inhabited

/-- `mstatus_new`, from the signals as they were before the activation. -/
def mstatusNew (mstatus : BitVec 32) (old : Outputs) : BitVec 32 :=
  BitVec.ofBool old.saveRestoreSm ++ mstatus.extractLsb' 13 18 ++ old.mppSm ++
    mstatus.extractLsb' 8 3 ++ BitVec.ofBool old.mpieSm ++ mstatus.extractLsb' 4 3 ++
    BitVec.ofBool old.mieSm ++ mstatus.extractLsb' 0 3

/-- The part that all the branches of a trap have. -/
def save (i : Inputs) (saveRestore mie : Bool) (old : Outputs) : Outputs :=
  { old with
    saveRestoreSm := saveRestore
    mppSm := old.currentModeSm
    mpieSm := i.mstatus.getLsbD 3
    mieSm := mie
    trap := { old.trap with mstatusWdataRm := mstatusNew i.mstatus old }
    exceptionSm := true }

/-- A branch of a trap into machine mode. -/
def enter (i : Inputs) (saveRestore : Bool) (mtval mcause : BitVec 32) (old : Outputs) : Outputs :=
  let o := save i saveRestore false old
  { o with
    trap := { o.trap with mepcWdataRm := i.re.pc, mtvalWdataSm := mtval, mcauseWdataSm := mcause }
    currentModeSm := 3 }

/-- `MCAUSE_WDATA_SM` of an interrupt: the operator between the number and the interrupt bit
is an and. -/
def interruptCause (trapToHandle old : BitVec 32) : BitVec 32 :=
  if trapToHandle.getLsbD 11 then 11 &&& 1#32 <<< 31
  else if trapToHandle.getLsbD 3 then 3 &&& 1#32 <<< 31
  else if trapToHandle.getLsbD 7 then 7 &&& 1#32 <<< 31
  else if trapToHandle.getLsbD 9 then 9 &&& 1#32 <<< 31
  else if trapToHandle.getLsbD 1 then 1 &&& 1#32 <<< 31
  else if trapToHandle.getLsbD 5 then 5 &&& 1#32 <<< 31
  else old

/-- The interrupts that are pending and enabled. -/
def trapToHandle (i : Inputs) : BitVec 32 := i.mip &&& i.mie

/-- The write port of a word without a trap. -/
def writePort (w : Exe2Mem) : Csr.Port :=
  if w.csrWenable then ⟨w.csrWadr, w.exeRes, true⟩ else ⟨0, 0, false⟩

def withoutException (i : Inputs) (old : Outputs) : Outputs :=
  if trapToHandle i ≠ 0 then
    enter i true 0 (interruptCause (trapToHandle i) old.trap.mcauseWdataSm) old
  else { old with port := writePort i.re, exceptionSm := false }

def mret (i : Inputs) (old : Outputs) : Outputs :=
  let o := save i false true old
  { o with
    trap := { o.trap with mepcWdataRm := i.re.pc, mtvalWdataSm := 0 }
    currentModeSm := 0
    returnAdressSm := i.mepc
    mretSm := true }

def withException (i : Inputs) (old : Outputs) : Outputs :=
  if i.busError then save i false false old
  else if i.re.envCallWrongMode then enter i false 0 24 old
  else if i.re.mret then mret i old
  else if i.re.storeAccessFault then enter i false i.re.exeRes 7 old
  else if i.re.loadAccessFault then enter i false i.re.exeRes 5 old
  else if i.re.storeAdressMissaligned then enter i false i.re.exeRes 6 old
  else if i.re.loadAdressMissaligned then enter i false i.re.exeRes 4 old
  else if i.re.envCallMMode then enter i true 0 11 old
  else if i.re.envCallSMode then enter i true 0 9 old
  else if i.re.envCallUMode then enter i true 0 8 old
  else if i.re.ebreak then enter i true i.re.pc 3 old
  else if i.re.instructionAdressMissaligned then enter i false i.re.pcBranchValue 0 old
  else if i.re.illegalInstruction then enter i false 0 2 old
  else if i.re.instructionAccessFault then enter i false 0 1 old
  else { old with exceptionSm := true }

/-- One activation. -/
def csrException (i : Inputs) (old : Outputs) : Outputs :=
  if i.re.exception || i.busError then
    { withException i old with
      mretSm := if i.re.mret then (withException i old).mretSm else false }
  else { withoutException i old with mretSm := false }

/-- The activations of a cycle in which the method is woken. -/
def settle (i : Inputs) (old : Outputs) : Outputs :=
  if (csrException i old).exceptionSm = old.exceptionSm then csrException i old
  else csrException i (csrException i old)

/-- The signals that wake the method, `EXCEPTION_SM` apart; `MIE_VALUE_RC` and `EBREAK_RE`
are missing. -/
def Inputs.sensitive (i : Inputs) : Inputs :=
  { i with
    mie := 0
    re :=
      { (default : Exe2Mem) with
        exception := i.re.exception
        csrWenable := i.re.csrWenable
        pc := i.re.pc
        csrWadr := i.re.csrWadr
        exeRes := i.re.exeRes
        instructionAccessFault := i.re.instructionAccessFault
        illegalInstruction := i.re.illegalInstruction
        instructionAdressMissaligned := i.re.instructionAdressMissaligned
        envCallUMode := i.re.envCallUMode
        envCallSMode := i.re.envCallSMode
        envCallMMode := i.re.envCallMMode
        loadAdressMissaligned := i.re.loadAdressMissaligned
        storeAdressMissaligned := i.re.storeAdressMissaligned
        loadAccessFault := i.re.loadAccessFault
        storeAccessFault := i.re.storeAccessFault
        mret := i.re.mret
        envCallWrongMode := i.re.envCallWrongMode } }

/-- The signals of a cycle, where `seen` woke the method the last time. -/
def outputs (i seen : Inputs) (old : Outputs) : Outputs :=
  if i.sensitive = seen then old else settle i old

/-- The signals after reset. -/
def reset : Outputs := { (default : Outputs) with currentModeSm := 3 }

/-! ### What an activation decides -/

/-- The method finds a trap. -/
def traps (i : Inputs) : Bool := i.re.exception || i.busError || trapToHandle i != 0

variable (i : Inputs) (old : Outputs)

/-- Every branch raises `EXCEPTION_SM`, and leaves the write port and `MIP_WDATA_RM` alone. -/
theorem withException_eq :
    (withException i old).exceptionSm = true ∧ (withException i old).port = old.port ∧
      (withException i old).trap.mipWdataRm = old.trap.mipWdataRm := by
  unfold withException
  iterate 14
    refine iteInduction (motive := fun o : Outputs => o.exceptionSm = true ∧ o.port = old.port ∧
      o.trap.mipWdataRm = old.trap.mipWdataRm) (fun _ => ⟨rfl, rfl, rfl⟩) (fun _ => ?_)
  exact ⟨rfl, rfl, rfl⟩

/-- Without an exception, only an interrupt raises `EXCEPTION_SM`, and keeps the write port. -/
theorem withoutException_eq :
    (withoutException i old).exceptionSm = (trapToHandle i != 0) ∧
      (withoutException i old).port =
        if (trapToHandle i != 0) = true then old.port else writePort i.re := by
  unfold withoutException
  by_cases hirq : trapToHandle i = 0
  · rw [if_neg (not_not.mpr hirq), hirq]
    exact ⟨rfl, rfl⟩
  · rw [if_pos hirq, bne_iff_ne.mpr hirq]
    exact ⟨rfl, rfl⟩

theorem exceptionSm_csrException : (csrException i old).exceptionSm = traps i := by
  unfold csrException traps
  by_cases hexc : (i.re.exception || i.busError) = true
  · rw [if_pos hexc, hexc, Bool.true_or]
    exact (withException_eq i old).1
  · rw [if_neg hexc, Bool.eq_false_iff.mpr hexc, Bool.false_or]
    exact (withoutException_eq i old).1

/-- The write port of a cycle with a trap is the one before. -/
theorem port_csrException :
    (csrException i old).port = if traps i then old.port else writePort i.re := by
  unfold csrException traps
  by_cases hexc : (i.re.exception || i.busError) = true
  · rw [if_pos hexc, hexc, Bool.true_or, if_pos rfl]
    exact (withException_eq i old).2.1
  · rw [if_neg hexc, Bool.eq_false_iff.mpr hexc, Bool.false_or]
    exact (withoutException_eq i old).2

/-- A trap enters machine mode, a return enters another one, and a bus error neither. -/
theorem currentModeSm_withException :
    (withException i old).currentModeSm = old.currentModeSm ∨
      (withException i old).currentModeSm = 3 ∨ i.re.mret = true := by
  unfold withException
  iterate 14
    refine iteInduction (motive := fun o : Outputs => o.currentModeSm = old.currentModeSm ∨
      o.currentModeSm = 3 ∨ i.re.mret = true)
      (fun h => by first | exact .inl rfl | exact .inr (.inl rfl) | exact .inr (.inr h))
      (fun _ => ?_)
  exact .inl rfl

theorem currentModeSm_csrException :
    (csrException i old).currentModeSm = old.currentModeSm ∨
      (csrException i old).currentModeSm = 3 ∨ i.re.exception = true ∧ i.re.mret = true := by
  unfold csrException
  by_cases hexc : (i.re.exception || i.busError) = true
  · rw [if_pos hexc]
    cases hbus : i.busError with
    | true =>
      refine .inl ?_
      change (withException i old).currentModeSm = _
      rw [withException, if_pos hbus]
      rfl
    | false =>
      rw [hbus, Bool.or_false] at hexc
      rcases currentModeSm_withException i old with h | h | h
      · exact .inl h
      · exact .inr (.inl h)
      · exact .inr (.inr ⟨hexc, h⟩)
  · rw [if_neg hexc]
    unfold withoutException
    by_cases hirq : trapToHandle i = 0
    · rw [if_neg (not_not.mpr hirq)]
      exact .inl rfl
    · rw [if_pos hirq]
      exact .inr (.inl rfl)

/-- Without a trap the mode stays. -/
theorem currentModeSm_settle_of_not_traps (h : traps i = false) :
    (settle i old).currentModeSm = old.currentModeSm := by
  have hact : ∀ o : Outputs, (csrException i o).currentModeSm = o.currentModeSm := by
    intro o
    obtain ⟨hexc, hirq⟩ := Bool.or_eq_false_iff.mp h
    rw [csrException, if_neg (by rw [hexc]; exact Bool.false_ne_true), withoutException,
      if_neg (not_not.mpr (bne_eq_false_iff_eq.mp hirq))]
  unfold settle
  split_ifs
  · exact hact old
  · rw [hact, hact]

/-- The mode changes by the entry into a trap or by a return only. -/
theorem currentModeSm_settle :
    (settle i old).currentModeSm = old.currentModeSm ∨ (settle i old).currentModeSm = 3 ∨
      i.re.exception = true ∧ i.re.mret = true := by
  unfold settle
  split_ifs
  · exact currentModeSm_csrException i old
  · rcases currentModeSm_csrException i (csrException i old) with h | h | h
    · rw [h]
      exact currentModeSm_csrException i old
    · exact .inr (.inl h)
    · exact .inr (.inr h)

theorem mipWdataRm_csrException :
    (csrException i old).trap.mipWdataRm = old.trap.mipWdataRm := by
  unfold csrException
  by_cases hexc : (i.re.exception || i.busError) = true
  · rw [if_pos hexc]
    exact (withException_eq i old).2.2
  · rw [if_neg hexc]
    unfold withoutException
    by_cases hirq : trapToHandle i = 0
    · rw [if_neg (not_not.mpr hirq)]
    · rw [if_pos hirq]
      rfl

theorem mipWdataRm_settle : (settle i old).trap.mipWdataRm = old.trap.mipWdataRm := by
  unfold settle
  split_ifs
  · exact mipWdataRm_csrException i old
  · rw [mipWdataRm_csrException, mipWdataRm_csrException]

theorem exceptionSm_settle : (settle i old).exceptionSm = traps i := by
  unfold settle
  split_ifs
  · exact exceptionSm_csrException i old
  · exact exceptionSm_csrException i _

theorem port_settle : (settle i old).port = if traps i then old.port else writePort i.re := by
  unfold settle
  split_ifs with hsame htraps htraps
  · rw [port_csrException, if_pos htraps]
  · rw [port_csrException, if_neg htraps]
  · rw [port_csrException, if_pos htraps, port_csrException, if_pos htraps]
  · rw [port_csrException, if_neg htraps]

end Mem

end RiVerSoC
