/-
The pipeline behind the fetch stage with the CSR file.

* `Cycle` — what it is given in one cycle;
* `memOut`, `cycle` — the signals of MEM, and what they make of the cycle for the stages;
* `step` — one clock edge;
* `Latched`, `latched_step` — the signals of MEM are those of the word that woke it;
* `file_of_trap`, `file_of_not_trap` — what changes the CSRs.
-/
import RiVerSoC.Backend
import RiVerSoC.CsrException

namespace RiVerSoC

namespace Core

/-- What the core is given in one cycle.  The trap, the mode, the kernel address and the CSR
data in `pipe` are not used: the core has its own. -/
structure Cycle where
  pipe : Backend.Cycle
  busError : Bool
  timerInt : Bool
  timeRt : BitVec 64
deriving DecidableEq, Repr, Inhabited

structure State where
  pipe : Backend.State
  file : Csr.File
  mem : Mem.Outputs
  /-- The signals that `csr_exception` is sensitive to, in the cycle before. -/
  seen : Mem.Inputs

def reset (procId : BitVec 32) : State where
  pipe := Backend.reset
  file := Csr.reset procId
  mem := Mem.reset
  seen := default

variable (s : State) (i : Cycle)

/-- What `csr_exception` sees. -/
def memInputs : Mem.Inputs where
  re := s.pipe.exe2mem.dout
  busError := i.busError
  mip := s.file.get Csr.mip
  mie := s.file.get Csr.mie
  mstatus := s.file.get Csr.mstatus
  mepc := s.file.get Csr.mepc

/-- The signals of `csr_exception`. -/
def memOut : Mem.Outputs := Mem.outputs (memInputs s i) s.seen s.mem

/-- The cycle as the stages see it, the CSR data apart. -/
def modeCycle : Backend.Cycle :=
  { i.pipe with
    exceptionSm := (memOut s i).exceptionSm
    currentMode := (memOut s i).currentModeSm
    kernelAdr := s.file.get Csr.kernelAdr }

/-- The cycle as the stages see it. -/
def cycle : Backend.Cycle :=
  { modeCycle s i with
    csrRdataSc := s.file.read i.timeRt (Backend.decRegs s.pipe (modeCycle s i)).csrRadrPort }

def step : State where
  pipe := Backend.step s.pipe (cycle s i)
  file := Csr.clock s.file (memOut s i).port i.timerInt (memOut s i).exceptionSm (memOut s i).trap
  mem := memOut s i
  seen := (memInputs s i).sensitive

/-! ### The signals of MEM -/

/-- What stands on the write port has been written to the registers that a trap leaves alone. -/
def PortWritten (s : State) : Prop :=
  s.mem.port.csrEnableSm = true → ∀ k ∈ Csr.writeIndex s.mem.port.csrWadrSm,
    ¬ Csr.savedAtTrap k → s.file.get k = s.mem.port.csrWdataSm

/-- Without a trap, the write port is that of the word which woke the method last. -/
def Latched (s : State) : Prop :=
  s.mem.exceptionSm = false →
    s.seen.re.exception = false ∧ s.mem.port = Mem.writePort s.seen.re

theorem latched_reset (procId : BitVec 32) : Latched (reset procId) := fun _ => ⟨rfl, rfl⟩

variable {s i}

theorem not_exception_of_not_traps {j : Mem.Inputs} (h : Mem.traps j = false) :
    j.re.exception = false := by
  unfold Mem.traps at h
  simp only [Bool.or_eq_false_iff] at h
  exact h.1.1

/-- Without a trap, the write port is that of the word in EXE2MEM. -/
theorem memOut_of_not_trap (h : Latched s) (hx : (memOut s i).exceptionSm = false) :
    s.pipe.exe2mem.dout.exception = false ∧
      (memOut s i).port = Mem.writePort s.pipe.exe2mem.dout := by
  unfold memOut Mem.outputs at hx ⊢
  by_cases hsame : (memInputs s i).sensitive = s.seen
  · rw [if_pos hsame] at hx ⊢
    obtain ⟨hexc, hport⟩ := h hx
    rw [← hsame] at hexc hport
    exact ⟨hexc, hport⟩
  · rw [if_neg hsame] at hx ⊢
    rw [Mem.exceptionSm_settle] at hx
    rw [Mem.port_settle, if_neg (by rw [hx]; exact Bool.false_ne_true)]
    exact ⟨not_exception_of_not_traps hx, rfl⟩

/-- During a trap the write port keeps its values. -/
theorem port_of_trap (hx : (memOut s i).exceptionSm = true) : (memOut s i).port = s.mem.port := by
  unfold memOut Mem.outputs at hx ⊢
  by_cases hsame : (memInputs s i).sensitive = s.seen
  · rw [if_pos hsame]
  · rw [if_neg hsame] at hx ⊢
    rw [Mem.exceptionSm_settle] at hx
    rw [Mem.port_settle, if_pos hx]

/-- Without a trap the mode stays. -/
theorem currentModeSm_of_not_trap (hx : (memOut s i).exceptionSm = false) :
    (memOut s i).currentModeSm = s.mem.currentModeSm := by
  unfold memOut Mem.outputs at hx ⊢
  by_cases hsame : (memInputs s i).sensitive = s.seen
  · rw [if_pos hsame]
  · rw [if_neg hsame] at hx ⊢
    rw [Mem.exceptionSm_settle] at hx
    exact Mem.currentModeSm_settle_of_not_traps _ _ hx

/-- The mode changes by the entry into a trap or by a return only. -/
theorem currentModeSm_memOut : (memOut s i).currentModeSm = s.mem.currentModeSm ∨
    (memOut s i).currentModeSm = 3 ∨
      s.pipe.exe2mem.dout.exception = true ∧ s.pipe.exe2mem.dout.mret = true := by
  unfold memOut Mem.outputs
  split_ifs
  · exact .inl rfl
  · exact Mem.currentModeSm_settle _ _

theorem latched_step (h : Latched s) : Latched (step s i) :=
  fun hx => memOut_of_not_trap h hx

theorem portWritten_reset (procId : BitVec 32) : PortWritten (reset procId) :=
  fun h => absurd h Bool.false_ne_true

theorem portWritten_step : PortWritten (step s i) := by
  intro hen k hk hsaved
  have hget : (step s i).file.get k = _ := Csr.get_clock_of_not_saved _ _ _ _ _ hsaved
  exact hget.trans (if_pos ⟨hen, hk⟩)

/-- A trap changes no register but those that it saves. -/
theorem file_of_trap (h : PortWritten s) (hx : (memOut s i).exceptionSm = true) :
    (step s i).file = Csr.hardware s.file s.file i.timerInt true (memOut s i).trap := by
  have hfile : (step s i).file = Csr.hardware s.file (if (memOut s i).port.csrEnableSm then
      s.file.write (memOut s i).port.csrWadrSm (memOut s i).port.csrWdataSm else s.file)
      i.timerInt true (memOut s i).trap := by
    change Csr.clock s.file (memOut s i).port i.timerInt (memOut s i).exceptionSm _ = _
    rw [Csr.clock, hx]
  rw [hfile, port_of_trap hx]
  refine Csr.hardware_trap_congr _ _ _ fun k hk => ?_
  split_ifs with hen
  · cases hw : Csr.writeIndex s.mem.port.csrWadrSm with
    | none => rw [Csr.File.write_of_none _ hw]
    | some l =>
      rw [Csr.File.get_write _ hw]
      split_ifs with hl
      · subst hl
        exact (h hen l hw hk).symm
      · rfl
  · rfl

/-- Without a trap, the file changes by the word in EXE2MEM and by the timer. -/
theorem file_of_not_trap (h : Latched s) (hx : (memOut s i).exceptionSm = false) :
    (step s i).file = Csr.hardware s.file
      (if s.pipe.exe2mem.dout.csrWenable then
        s.file.write s.pipe.exe2mem.dout.csrWadr s.pipe.exe2mem.dout.exeRes else s.file)
      i.timerInt false (memOut s i).trap := by
  obtain ⟨-, hport⟩ := memOut_of_not_trap h hx
  change Csr.clock s.file (memOut s i).port i.timerInt (memOut s i).exceptionSm _ = _
  rw [Csr.clock, hport, hx, Mem.writePort]
  cases s.pipe.exe2mem.dout.csrWenable <;> rfl

/-- Nothing writes `MIP_WDATA_RM`. -/
theorem mipWdataRm_memOut : (memOut s i).trap.mipWdataRm = s.mem.trap.mipWdataRm := by
  unfold memOut Mem.outputs
  split_ifs
  · rfl
  · exact Mem.mipWdataRm_settle _ _

end Core

end RiVerSoC
