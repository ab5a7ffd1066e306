/-
What the entry into a trap saves.

`csr_exception` writes the new mstatus from signals that it writes in the same activation: the
first activation of a trap uses what the trap before has left, the second one, which its own
`EXCEPTION_SM` wakes, is right, and in a further cycle the mode is the one that the trap has
set.

* `Saved` — the new mstatus; `saved_mstatusNew` — when the signals are those of the trap;
* `settle_of_rise` — the two activations of the first cycle of a trap;
* `each_saves` — along every run whose traps are exceptions of one cycle, the CSRs get the
  program counter, the cause and the mstatus of the trapping instruction.
-/
import RiVerSoC.Interrupts

namespace RiVerSoC

namespace TrapEntry

open RiVerSoC.Core (State Cycle memInputs memOut)
open Mem (Inputs Outputs csrException enter mstatusNew settle withException)

/-- All the fields of mstatus but SD, MPP, MPIE and MIE. -/
def otherFields : BitVec 32 := 0x7FFFE777

/-- The new mstatus `w` saves the mode and the mstatus `v`, the bit SD apart. -/
structure Saved (v : BitVec 32) (mode : BitVec 2) (w : BitVec 32) : Prop where
  mpp : w.extractLsb' 11 2 = mode
  mpie : w.getLsbD 7 = v.getLsbD 3
  mie : w.getLsbD 3 = false
  other : w &&& otherFields = v &&& otherFields

theorem getLsbD_mstatusNew (v : BitVec 32) (o : Outputs) {k : ℕ} (hk : k < 31) :
    (mstatusNew v o).getLsbD k =
      if k = 3 then o.mieSm else if k = 7 then o.mpieSm
      else if k = 11 ∨ k = 12 then o.mppSm.getLsbD (k - 11) else v.getLsbD k := by
  unfold mstatusNew
  simp only [BitVec.getLsbD_append, BitVec.getLsbD_extractLsb', BitVec.getLsbD_ofBool]
  -- one case for each field, from the lowest
  obtain h | rfl | h | rfl | h | h | h : k < 3 ∨ k = 3 ∨ (4 ≤ k ∧ k < 7) ∨ k = 7 ∨
      (8 ≤ k ∧ k < 11) ∨ (k = 11 ∨ k = 12) ∨ 13 ≤ k := by omega
  · rw [if_pos h, decide_eq_true h, Bool.true_and, Nat.zero_add, if_neg (by omega),
      if_neg (by omega), if_neg (by omega)]
  · rfl
  · rw [if_neg (by omega), if_neg (by omega), if_pos (by omega), decide_eq_true (by omega),
      Bool.true_and, show 4 + (k - 3 - 1) = k by omega, if_neg (by omega), if_neg (by omega),
      if_neg (by omega)]
  · rfl
  · rw [if_neg (by omega), if_neg (by omega), if_neg (by omega), if_neg (by omega),
      if_pos (by omega), decide_eq_true (by omega), Bool.true_and,
      show 8 + (k - 3 - 1 - 3 - 1) = k by omega, if_neg (by omega), if_neg (by omega),
      if_neg (by omega)]
  · rw [if_neg (by omega), if_neg (by omega), if_neg (by omega), if_neg (by omega),
      if_neg (by omega), if_pos (by omega), if_neg (by omega), if_neg (by omega), if_pos h,
      show k - 3 - 1 - 3 - 1 - 3 = k - 11 by omega]
  · rw [if_neg (by omega), if_neg (by omega), if_neg (by omega), if_neg (by omega),
      if_neg (by omega), if_neg (by omega), if_pos (by omega), decide_eq_true (by omega),
      Bool.true_and, show 13 + (k - 3 - 1 - 3 - 1 - 3 - 2) = k by omega, if_neg (by omega),
      if_neg (by omega), if_neg (by omega)]

/-- The new mstatus is right when the signals are those of the trap. -/
theorem saved_mstatusNew {v : BitVec 32} {o : Outputs} (hmpie : o.mpieSm = v.getLsbD 3)
    (hmie : o.mieSm = false) : Saved v o.mppSm (mstatusNew v o) where
  mpp := by
    refine BitVec.eq_of_getLsbD_eq ?_
    intro k hk
    rw [BitVec.getLsbD_extractLsb', decide_eq_true hk, Bool.true_and,
      getLsbD_mstatusNew v o (by omega), if_neg (by omega), if_neg (by omega), if_pos (by omega),
      Nat.add_sub_cancel_left]
  mpie := by rw [getLsbD_mstatusNew v o (by decide), if_neg (by decide), if_pos rfl, hmpie]
  mie := by rw [getLsbD_mstatusNew v o (by decide), if_pos rfl, hmie]
  other := by
    have hfields : ∀ k < 32, otherFields.getLsbD k = true →
        k < 31 ∧ k ≠ 3 ∧ k ≠ 7 ∧ ¬ (k = 11 ∨ k = 12) := by decide
    refine BitVec.eq_of_getLsbD_eq ?_
    intro k hk
    rw [BitVec.getLsbD_and, BitVec.getLsbD_and]
    cases hf : otherFields.getLsbD k with
    | false => rw [Bool.and_false, Bool.and_false]
    | true =>
      obtain ⟨h31, h3, h7, hmpp⟩ := hfields k hk hf
      rw [getLsbD_mstatusNew v o h31, if_neg h3, if_neg h7, if_neg hmpp]

/-! ### Activations -/

/-- The cause of an exception, the flags in the order of the code. -/
def flagCause (w : Exe2Mem) : Option (BitVec 32) :=
  if w.envCallWrongMode then some 24
  else if w.mret then none
  else if w.storeAccessFault then some 7
  else if w.loadAccessFault then some 5
  else if w.storeAdressMissaligned then some 6
  else if w.loadAdressMissaligned then some 4
  else if w.envCallMMode then some 11
  else if w.envCallSMode then some 9
  else if w.envCallUMode then some 8
  else if w.ebreak then some 3
  else if w.instructionAdressMissaligned then some 0
  else if w.illegalInstruction then some 2
  else if w.instructionAccessFault then some 1
  else none

/-- A branch enters machine mode with the cause `h`, if there is one. -/
def Enters (j : Inputs) (h : Option (BitVec 32)) (branch : Outputs → Outputs) : Prop :=
  ∀ c ∈ h, ∃ saveRestore mtval, ∀ old, branch old = enter j saveRestore mtval c old

theorem enters_ite {j : Inputs} {h : Option (BitVec 32)} {branch : Outputs → Outputs} (p : Bool)
    (saveRestore : Bool) (mtval c : BitVec 32) (hrest : Enters j h branch) :
    Enters j (if p then some c else h)
      (fun old => if p then enter j saveRestore mtval c old else branch old) := by
  cases p with
  | false => exact hrest
  | true =>
    intro c' hc
    cases hc
    exact ⟨saveRestore, mtval, fun _ => rfl⟩

theorem enters_ite_none {j : Inputs} {h : Option (BitVec 32)} {branch : Outputs → Outputs}
    (p : Bool) (other : Outputs → Outputs) (hrest : Enters j h branch) :
    Enters j (if p then none else h) (fun old => if p then other old else branch old) := by
  cases p with
  | false => exact hrest
  | true =>
    intro c hc
    cases hc

/-- Every flag selects a branch into machine mode with its cause. -/
theorem enters_withException {j : Inputs} (hbus : j.busError = false) :
    Enters j (flagCause j.re) (fun old => withException j old) := by
  unfold flagCause withException
  simp only [hbus, Bool.false_eq_true, if_false]
  refine enters_ite _ _ _ _ ?_
  refine enters_ite_none _ _ ?_
  iterate 11 refine enters_ite _ _ _ _ ?_
  intro c hc
  cases hc

/-- One activation for an exception with a flag. -/
theorem csrException_of_flag {j : Inputs} {c : BitVec 32} (hbus : j.busError = false)
    (hexc : j.re.exception = true) (hc : flagCause j.re = some c) (old : Outputs) :
    (csrException j old).trap.mepcWdataRm = j.re.pc ∧
      (csrException j old).trap.mcauseWdataSm = c ∧
      (csrException j old).trap.mstatusWdataRm = mstatusNew j.mstatus old ∧
      (csrException j old).mppSm = old.currentModeSm ∧
      (csrException j old).mpieSm = j.mstatus.getLsbD 3 ∧
      (csrException j old).mieSm = false ∧ (csrException j old).currentModeSm = 3 := by
  obtain ⟨saveRestore, mtval, hbranch⟩ := enters_withException hbus c hc
  have hold : withException j old = enter j saveRestore mtval c old := hbranch old
  rw [csrException, if_pos (by rw [hexc]; rfl), hold]
  exact ⟨rfl, rfl, rfl, rfl, rfl, rfl, rfl⟩

/-- The first cycle of a trap has two activations. -/
theorem settle_of_rise {j : Inputs} {old : Outputs} (hold : old.exceptionSm = false)
    (htraps : Mem.traps j = true) : settle j old = csrException j (csrException j old) := by
  rw [settle, if_neg]
  rw [Mem.exceptionSm_csrException, htraps, hold]
  decide

/-! ### The trap in the core -/

/-- The core, with the mode and the mstatus that the trap in MEM has interrupted. -/
structure Machine where
  core : State
  mode : BitVec 2
  mstatus : BitVec 32

def reset (procId : BitVec 32) : Machine := ⟨Core.reset procId, 3, 0⟩

variable (m : Machine) (i : Cycle)

/-- The mode and the mstatus before the first of the cycles in which the trap is presented. -/
def interrupted : BitVec 2 × BitVec 32 :=
  if m.core.mem.exceptionSm then (m.mode, m.mstatus)
  else (m.core.mem.currentModeSm, m.core.file.get Csr.mstatus)

def step : Machine := ⟨Core.step m.core i, (interrupted m).1, (interrupted m).2⟩

/-- The cause of the trap in MEM, if there is one: that of the exception, or of the
interrupt. -/
def trapCause (s : State) (i : Cycle) : Option (BitVec 32) :=
  if i.busError then none
  else if s.pipe.exe2mem.dout.exception then flagCause s.pipe.exe2mem.dout
  else (Interrupt.highest (s.file.get Csr.mip &&& s.file.get Csr.mie)).map
    fun n => BitVec.ofNat 32 (2 ^ 31 + n)

/-- The edge saves the state that the trap interrupts. -/
def Saves : Prop :=
  (memOut m.core i).exceptionSm = true → ∀ c ∈ trapCause m.core i,
    (step m i).core.file.get Csr.mepc = m.core.pipe.exe2mem.dout.pc ∧
    (step m i).core.file.get Csr.mcause = c ∧
    Saved (interrupted m).2 (interrupted m).1 ((step m i).core.file.get Csr.mstatus)

/-- The trap is an exception, and this is its first cycle. -/
def OneCycle : Prop :=
  (memOut m.core i).exceptionSm = true → (trapCause m.core i).isSome = true →
    m.core.pipe.exe2mem.dout.exception = true ∧ m.core.mem.exceptionSm = false

instance (v : BitVec 32) (mode : BitVec 2) (w : BitVec 32) : Decidable (Saved v mode w) :=
  decidable_of_iff
    (w.extractLsb' 11 2 = mode ∧ w.getLsbD 7 = v.getLsbD 3 ∧ w.getLsbD 3 = false ∧
      w &&& otherFields = v &&& otherFields)
    ⟨fun h => ⟨h.1, h.2.1, h.2.2.1, h.2.2.2⟩, fun h => ⟨h.mpp, h.mpie, h.mie, h.other⟩⟩

instance : Decidable (Saves m i) := inferInstanceAs (Decidable (_ → _))

instance : Decidable (OneCycle m i) := inferInstanceAs (Decidable (_ → _))

variable {m i}

/-- `EXCEPTION_SM` wakes the method when it rises. -/
theorem memOut_of_rise {s : State} {i : Cycle} (hx : (memOut s i).exceptionSm = true)
    (hfirst : s.mem.exceptionSm = false) :
    memOut s i = csrException (memInputs s i) (csrException (memInputs s i) s.mem) := by
  have hwoken : ¬ (memInputs s i).sensitive = s.seen := by
    intro hsame
    have hout : memOut s i = s.mem := if_pos hsame
    rw [hout, hfirst] at hx
    exact absurd hx Bool.false_ne_true
  have hout : memOut s i = settle (memInputs s i) s.mem := if_neg hwoken
  rw [hout, Mem.exceptionSm_settle] at hx
  rw [hout, settle_of_rise hfirst hx]

theorem saves_of_oneCycle (h : OneCycle m i) : Saves m i := by
  intro hx c hc
  obtain ⟨hexc, hfirst⟩ := h hx (Option.isSome_iff_exists.mpr ⟨c, hc⟩)
  have hbus : i.busError = false := by
    cases hb : i.busError with
    | false => rfl
    | true =>
      rw [trapCause, hb, if_pos rfl] at hc
      cases hc
  have hflag : flagCause m.core.pipe.exe2mem.dout = some c := by
    rw [trapCause, hbus, if_neg Bool.false_ne_true, hexc, if_pos rfl] at hc
    exact hc
  have hout := memOut_of_rise hx hfirst
  obtain ⟨-, -, -, hmpp, hmpie, hmie, -⟩ :=
    csrException_of_flag (j := memInputs m.core i) hbus hexc hflag m.core.mem
  obtain ⟨hmepc, hmcause, hmstatus, -⟩ := csrException_of_flag (j := memInputs m.core i) hbus hexc
    hflag (csrException (memInputs m.core i) m.core.mem)
  rw [← hout] at hmepc hmcause hmstatus
  obtain ⟨hs, -, he, hca, -⟩ := Csr.get_clock_trap m.core.file (memOut m.core i).port i.timerInt
    (memOut m.core i).trap
  have hfile : (step m i).core.file = Csr.clock m.core.file (memOut m.core i).port i.timerInt true
      (memOut m.core i).trap := by
    rw [← hx]
    rfl
  have hinterrupted : interrupted m = (m.core.mem.currentModeSm, m.core.file.get Csr.mstatus) :=
    if_neg (by rw [hfirst]; exact Bool.false_ne_true)
  rw [hfile, hs, he, hca, hinterrupted]
  refine ⟨hmepc, hmcause, ?_⟩
  rw [hmstatus, ← hmpp]
  exact saved_mstatusNew hmpie hmie

/-- Along every run whose traps are exceptions that are presented for one cycle, each of them
saves the program counter, the cause and the mstatus of the trapping instruction. -/
theorem each_saves (procId : BitVec 32) (is : List Cycle)
    (h : Run.Each OneCycle step (reset procId) is) : Run.Each Saves step (reset procId) is :=
  Run.each_mono (fun _ _ => saves_of_oneCycle) h

/-- `ecall`, in machine mode. -/
def ecall : List Cycle :=
  [0x00000073, 0x13, 0x13, 0x13].map fun ir =>
    { (default : Cycle) with pipe := { (default : Backend.Cycle) with ir := ir } }

theorem each_saves_ecall : Run.Each Saves step (reset 0) ecall :=
  each_saves 0 _ (by decide +kernel)

/-- No interrupt with a number is taken. -/
def Undisturbed (s : State) (i : Cycle) : Prop :=
  Interrupt.takes s i = true →
    Interrupt.highest (s.file.get Csr.mip &&& s.file.get Csr.mie) = none

instance (s : State) (i : Cycle) : Decidable (Undisturbed s i) :=
  inferInstanceAs (Decidable (_ → _))

/-- An interrupt writes the cause 0. -/
theorem undisturbed_of_saves (h : Saves m i) : Undisturbed m.core i := by
  intro ht
  obtain ⟨-, hexc, -⟩ := Interrupt.takes_iff.mp ht
  obtain ⟨hexc, hbus⟩ := Bool.or_eq_false_iff.mp hexc
  have hexc' : m.core.pipe.exe2mem.dout.exception = false := hexc
  have hbus' : i.busError = false := hbus
  cases hn : Interrupt.highest (m.core.file.get Csr.mip &&& m.core.file.get Csr.mie) with
  | none => rfl
  | some n =>
    have hc : trapCause m.core i = some (BitVec.ofNat 32 (2 ^ 31 + n)) := by
      rw [trapCause, hbus', hexc', if_neg Bool.false_ne_true, if_neg Bool.false_ne_true, hn]
      rfl
    obtain ⟨-, hcause, -⟩ := h (Interrupt.exceptionSm_of_takes ht) _ hc
    have hzero : (step m i).core.file.get Csr.mcause = 0 := Interrupt.mcause_of_takes ht hn
    exact absurd (hcause.symm.trans hzero) (Interrupt.ofNat_ne_zero_of_highest hn)

theorem not_undisturbed_softwareInterrupt :
    ¬ Run.Each Undisturbed Core.step (Core.reset 0) Interrupt.softwareInterrupt := by
  decide +kernel

theorem core_step (m : Machine) (i : Cycle) : (step m i).core = Core.step m.core i := rfl

theorem not_saves_softwareInterrupt :
    ¬ Run.Each Saves step (reset 0) Interrupt.softwareInterrupt := by
  intro h
  have hcause : Run.Each (fun m i => Undisturbed m.core i) step (reset 0)
      Interrupt.softwareInterrupt := Run.each_mono (fun _ _ => undisturbed_of_saves) h
  exact not_undisturbed_softwareInterrupt
    ((Run.each_map Machine.core Undisturbed step Core.step core_step _ _).mp hcause)

end TrapEntry

end RiVerSoC
