/-
The core with the fetch stage.

`fetch_method` does not wake on `EXCEPTION_SM`, `if2dec_full` and `if2dec_out`, and `pc_inc`,
which hands on whether DEC2IF is empty, does not wake on that.  What their last activations
have read is an input of the cycle.

* `Sight` — which value of a signal an activation has read;
* `fetch`, `front` — the signals of the fetch stage, and what they make of the cycle for the
  core;
* `step` — one clock edge.
-/
import RiVerSoC.Fifo
import RiVerSoC.Ifetch
import RiVerSoC.InFlight
import RiVerSoC.PcInc

namespace RiVerSoC

namespace Cpu

/-- The value of a signal that the last activation of a method has read: that of this cycle,
that of the cycle before, or, when nothing has woken the method, what it had read then. -/
inductive Sight where
  | present | before | kept
deriving DecidableEq, Repr, Inhabited

def Sight.choose {α : Type*} (present before kept : α) : Sight → α
  | .present => present
  | .before => before
  | .kept => kept

/-- The signals that `fetch_method` reads and does not wake on. -/
structure Unlisted where
  exceptionSm : Bool
  if2decFull : Bool
  if2decOut : If2Dec
deriving DecidableEq, Repr, Inhabited

/-- What `fetch_method` has read of them. -/
structure Sights where
  exceptionSm : Sight
  if2decFull : Sight
  if2decOut : Sight
deriving DecidableEq, Repr, Inhabited

/-- What the core is given in one cycle.  The fetch side of `core` and the bus error are not
used, since nothing drives `BUS_ERROR_SX`; the stall of the data cache is that of a load or
a store. -/
structure Cycle where
  core : Core.Cycle
  instSic : BitVec 32
  stallSic : Bool
  pbTaken : Bool
  predMiss : Bool
  predTarget : BitVec 32
  sights : Sights
  /-- The last activation of `pc_inc` has read `dec2if_empty_sd` of this cycle. -/
  emptySeen : Bool
deriving DecidableEq, Repr, Inhabited

structure State where
  front : Front.State
  if2dec : Fifo If2Dec
  dec2if : Fifo Dec2If
  fetch : Ifetch.Outputs
  /-- The signals in the cycle before, and what `fetch_method` had read of them then. -/
  before : Unlisted
  seen : Unlisted
  /-- `DEC2IF_EMPTY_SD` in the cycle before. -/
  dec2ifEmpty : Bool

def reset (procId pcInit : BitVec 32) : State where
  front := Front.reset procId pcInit
  if2dec := default
  dec2if := default
  fetch := default
  before := default
  seen := default
  dec2ifEmpty := true

variable (s : State) (i : Cycle)

/-- The pipeline behind the fetch stage. -/
abbrev State.pipe (s : State) : Backend.State := s.front.core.pipe

/-- The cycle for the core, the fetch side apart. -/
def coreCycle : Core.Cycle :=
  { i.core with
    busError := false
    pipe :=
      { i.core.pipe with
        mcacheStall := i.core.pipe.mcacheStall && (s.pipe.re.memLoad || s.pipe.re.memStore) } }

/-- `EXCEPTION_SM`. -/
def exceptionSm : Bool := (Core.memOut s.front.core (coreCycle s i)).exceptionSm

/-- The word that DEC sees: `fetch_method` hands it on when it sees no trap. -/
def shown : If2Dec :=
  if i.sights.exceptionSm.choose (exceptionSm s i) s.before.exceptionSm s.seen.exceptionSm then
    s.fetch.shown
  else i.sights.if2decOut.choose s.if2dec.dout s.before.if2decOut s.seen.if2decOut

/-- The cycle for the core. -/
def frontCycle (dec2ifFull : Bool) : Front.Cycle where
  core :=
    { coreCycle s i with
      pipe :=
        { (coreCycle s i).pipe with
          ir := (shown s i).instr
          if2decEmpty := s.if2dec.isEmpty
          fetch := { (default : Dec.Fetch) with pcIf2dec := (shown s i).pc } } }
  dec2ifFull := dec2ifFull
  predTaken := (shown s i).predTaken
  predBranchAdr := (shown s i).predBranchAdr
  predSuccessRd := s.dec2if.dout.predSuccess
  predFailedRd := s.dec2if.dout.predFailed

/-- `IF2DEC_POP_SD` and `IF2DEC_FLUSH_SD`, for which `dec2if_full_sd` does not matter. -/
def if2decGestion : Bool × Bool :=
  ((Front.signals s.front (frontCycle s i false)).if2decPop,
    (Front.signals s.front (frontCycle s i false)).if2decFlush)

/-- The signals that `fetch_method` does not wake on. -/
def unlisted : Unlisted where
  exceptionSm := exceptionSm s i
  if2decFull := s.if2dec.isFull (if2decGestion s i).1
  if2decOut := s.if2dec.dout

/-- What `fetch_method` has read of them. -/
def seen : Unlisted where
  exceptionSm :=
    i.sights.exceptionSm.choose (exceptionSm s i) s.before.exceptionSm s.seen.exceptionSm
  if2decFull :=
    i.sights.if2decFull.choose (unlisted s i).if2decFull s.before.if2decFull s.seen.if2decFull
  if2decOut := i.sights.if2decOut.choose s.if2dec.dout s.before.if2decOut s.seen.if2decOut

/-- `DEC2IF_EMPTY_SD`. -/
def dec2ifEmpty : Bool := if i.emptySeen then s.dec2if.isEmpty else s.dec2ifEmpty

/-- What `fetch_method` reads. -/
def fetchInputs : Ifetch.Inputs where
  instSic := i.instSic
  stallSic := i.stallSic
  dec2ifEmpty := dec2ifEmpty s i
  pcRd := s.dec2if.dout.pc
  if2decFlush := (if2decGestion s i).2
  pbTaken := i.pbTaken
  predMiss := i.predMiss
  predTarget := i.predTarget
  exceptionSm := (seen s i).exceptionSm
  if2decFull := (seen s i).if2decFull
  if2decOut := (seen s i).if2decOut

/-- The signals of the fetch stage. -/
def fetch : Ifetch.Outputs := Ifetch.fetchMethod (fetchInputs s i) s.fetch

/-- The cycle for the core, with the FIFOs as they are. -/
def front : Front.Cycle := frontCycle s i (s.dec2if.isFull (fetch s i).dec2ifPop)

/-- The signals of `pc_inc`. -/
def signals : Pc.Outputs := Front.signals s.front (front s i)

/-- The word for DEC2IF. -/
def dec2ifIn : Dec2If := ⟨(signals s i).predFailed, (signals s i).predSuccess, (signals s i).resPc⟩

/-- The cycle as the stages see it. -/
def cycle : Backend.Cycle := Core.cycle s.front.core (Front.cycle s.front (front s i))

def step : State where
  front := Front.step s.front (front s i)
  if2dec := s.if2dec.clock (fetch s i).if2decPush (signals s i).if2decPop (fetch s i).if2decIn
  dec2if := s.dec2if.clock (signals s i).dec2ifPush (fetch s i).dec2ifPop (dec2ifIn s i)
  fetch := fetch s i
  before := unlisted s i
  seen := seen s i
  dec2ifEmpty := dec2ifEmpty s i

/-! ### The signals of one cycle -/

variable {s i}

theorem shown_fetch : (fetch s i).shown = shown s i := by
  unfold fetch Ifetch.fetchMethod shown
  change (if !(seen s i).exceptionSm then _ else _ : Ifetch.Outputs).shown =
    if (seen s i).exceptionSm then s.fetch.shown else (seen s i).if2decOut
  cases (seen s i).exceptionSm <;> rfl

theorem signals_of_not_trap (hx : exceptionSm s i = false) :
    signals s i = Pc.withoutTrap (Front.pcInputs s.front (front s i)) := by
  change (if exceptionSm s i then _ else _) = _
  rw [hx, if_neg Bool.false_ne_true]

theorem stallSd_pcInputs : (Front.pcInputs s.front (front s i)).stallSd =
    (Backend.decSig s.pipe (cycle s i)).stallSd := rfl

/-- Whether DEC2IF is full does not matter for IF2DEC. -/
theorem gestion_signals :
    (signals s i).if2decPop = (if2decGestion s i).1 ∧
      (signals s i).if2decFlush = (if2decGestion s i).2 := by
  have hpc : ∀ full, (Front.signals s.front (frontCycle s i full)).if2decPop =
      (if2decGestion s i).1 ∧
      (Front.signals s.front (frontCycle s i full)).if2decFlush = (if2decGestion s i).2 := by
    intro full
    unfold if2decGestion Front.signals Pc.pcInc
    change (if exceptionSm s i then _ else _ : Pc.Outputs).if2decPop =
        (if exceptionSm s i then _ else _ : Pc.Outputs).if2decPop ∧
      (if exceptionSm s i then _ else _ : Pc.Outputs).if2decFlush =
        (if exceptionSm s i then _ else _ : Pc.Outputs).if2decFlush
    cases exceptionSm s i <;> exact ⟨rfl, rfl⟩
  exact hpc _

end Cpu

end RiVerSoC
