/-
`fetch_method`, the method of the fetch stage.

* `If2Dec`, `Dec2If` — the words of the FIFOs around it;
* `fetchMethod` — one activation;
* `fetchMethod_of_trap`, `fetchMethod_of_not_trap` — what it decides.

The bits of the branch predictor that the core does not read in DEC are left out, and
`pb_taken` is an input.
-/
import Mathlib.Tactic.SplitIfs

namespace RiVerSoC

/-- The word that the fetch stage packs for DEC. -/
structure If2Dec where
  predTarget : BitVec 32
  predMiss : Bool
  instr : BitVec 32
  pc : BitVec 32
  /-- The word is the one that the stage offers during a trap; no signal tells. -/
  nop : Bool
deriving DecidableEq, Repr, Inhabited

/-- Bit 96. -/
def If2Dec.predTaken (w : If2Dec) : Bool := w.predTarget.msb

/-- Bits 95 to 64. -/
def If2Dec.predBranchAdr (w : If2Dec) : BitVec 32 :=
  w.predTarget.extractLsb' 0 31 ++ BitVec.ofBool w.predMiss

/-- The word that `concat_dec2if` packs for the fetch stage. -/
structure Dec2If where
  predFailed : Bool
  predSuccess : Bool
  pc : BitVec 32
deriving DecidableEq, Repr, Inhabited

namespace Ifetch

/-- What `fetch_method` reads; it does not wake on the last three. -/
structure Inputs where
  instSic : BitVec 32
  stallSic : Bool
  dec2ifEmpty : Bool
  pcRd : BitVec 32
  if2decFlush : Bool
  pbTaken : Bool
  predMiss : Bool
  predTarget : BitVec 32
  exceptionSm : Bool
  if2decFull : Bool
  if2decOut : If2Dec
deriving DecidableEq, Repr, Inhabited

/-- What `fetch_method` writes; `shown` stands for the signals that it takes from
`if2dec_out`. -/
structure Outputs where
  pcSi : BitVec 32
  pcValidSi : Bool
  if2decIn : If2Dec
  if2decPush : Bool
  dec2ifPop : Bool
  shown : If2Dec
deriving DecidableEq, Repr, Inhabited

def nopEncoding : BitVec 32 := 0x13

variable (i : Inputs) (old : Outputs)

/-- The program counter of the fetch: the predicted one, or that from DEC. -/
def fetchPc : BitVec 32 := if i.pbTaken && i.predMiss then i.predTarget else i.pcRd

/-- The stall for the instruction cache, for IF2DEC or for DEC2IF. -/
def stall : Bool := i.stallSic || i.if2decFull || i.dec2ifEmpty

/-- One activation; a trap leaves the signals from `if2dec_out` alone. -/
def fetchMethod : Outputs :=
  if !i.exceptionSm then
    { pcSi := fetchPc i
      pcValidSi := !i.if2decFlush && !i.dec2ifEmpty
      if2decIn := ⟨i.predTarget, i.predMiss, i.instSic, fetchPc i, false⟩
      if2decPush := !i.if2decFlush && !stall i
      dec2ifPop := i.if2decFlush || !stall i
      shown := i.if2decOut }
  else
    { pcSi := fetchPc i
      pcValidSi := false
      if2decIn := ⟨0, false, nopEncoding, fetchPc i, true⟩
      if2decPush := true
      dec2ifPop := true
      shown := old.shown }

variable {i}

theorem fetchMethod_of_trap (hx : i.exceptionSm = true) :
    (fetchMethod i old).if2decPush = true ∧ (fetchMethod i old).dec2ifPop = true ∧
      (fetchMethod i old).if2decIn = ⟨0, false, nopEncoding, fetchPc i, true⟩ := by
  rw [fetchMethod, if_neg (by rw [hx]; decide)]
  exact ⟨rfl, rfl, rfl⟩

theorem fetchMethod_of_not_trap (hx : i.exceptionSm = false) :
    (fetchMethod i old).if2decPush = (!i.if2decFlush && !stall i) ∧
      (fetchMethod i old).dec2ifPop = (i.if2decFlush || !stall i) ∧
      (fetchMethod i old).if2decIn = ⟨i.predTarget, i.predMiss, i.instSic, fetchPc i, false⟩ ∧
      (fetchMethod i old).shown = i.if2decOut := by
  rw [fetchMethod, if_pos (by rw [hx]; decide)]
  exact ⟨rfl, rfl, rfl, rfl⟩

end Ifetch

end RiVerSoC
