/-
Trap entry followed by `mret`.

`mret` puts constants where the trap has saved the interrupted state: user mode into
`CURRENT_MODE_SM`, and 1 into mstatus.MIE.  It also saves its own program counter in mepc,
where a second cycle of the same `mret` finds it as the return address.

* `Trip` — a trap, cycles without a trap and without a CSR write, and an `mret`;
* `returning_step` — what a cycle of an `mret` leaves;
* `restored_iff` — what comes back is what was there before, exactly when that was user mode
  with interrupts on.
-/
import RiVerSoC.InFlight
import RiVerSoC.PcInc
import RiVerSoC.TrapEntry

namespace RiVerSoC

namespace TrapReturn

open RiVerSoC.Core (memInputs memOut)
open Front (State Cycle)

/-! ### The trip -/

variable (s : State) (i : Cycle)

/-- MEM takes a trap that has a cause. -/
def Entry : Prop :=
  (memOut s.core i.core).exceptionSm = true ∧ (TrapEntry.trapCause s.core i.core).isSome = true

/-- MEM takes no trap, and no CSR is written. -/
def Quiet : Prop :=
  (memOut s.core i.core).exceptionSm = false ∧ (memOut s.core i.core).port.csrEnableSm = false

/-- MEM returns from a trap. -/
def Return : Prop :=
  (memOut s.core i.core).exceptionSm = true ∧ i.core.busError = false ∧
    s.core.pipe.exe2mem.dout.exception = true ∧ s.core.pipe.exe2mem.dout.envCallWrongMode = false ∧
    s.core.pipe.exe2mem.dout.mret = true

instance : Decidable (Entry s i) := inferInstanceAs (Decidable (_ ∧ _))

instance : Decidable (Quiet s i) := inferInstanceAs (Decidable (_ ∧ _))

instance : Decidable (Return s i) := inferInstanceAs (Decidable (_ ∧ _))

/-- The program counter that the trap has saved. -/
def saved (s : State) (entry : List Cycle) : BitVec 32 :=
  (Run.after Front.step s entry).core.file.get Csr.mepc

/-- Trap entry and `mret`, each of them in one cycle or more. -/
structure Trip (s : State) (entry quiet ret : List Cycle) : Prop where
  entry_ne : entry ≠ []
  quiet_ne : quiet ≠ []
  ret_ne : ret ≠ []
  enters : Run.Each Entry Front.step s entry
  waits : Run.Each Quiet Front.step (Run.after Front.step s entry) quiet
  returns : Run.Each Return Front.step (Run.after Front.step s (entry ++ quiet)) ret

/-- The privilege mode and mstatus.MIE are those from before, and the program counter is the
saved one. -/
structure Restored (s : State) (entry quiet ret : List Cycle) : Prop where
  mode : (Run.after Front.step s (entry ++ quiet ++ ret)).core.mem.currentModeSm =
    s.core.mem.currentModeSm
  mie : ((Run.after Front.step s (entry ++ quiet ++ ret)).core.file.get Csr.mstatus).getLsbD 3 =
    (s.core.file.get Csr.mstatus).getLsbD 3
  pc : (Run.after Front.step s (entry ++ quiet ++ ret)).pc = saved s entry

variable {s i}

/-! ### Quiet cycles -/

/-- A cycle without a trap and without a CSR write leaves mepc alone. -/
theorem mepc_of_quiet (h : Quiet s i) :
    (Front.step s i).core.file.get Csr.mepc = s.core.file.get Csr.mepc := by
  obtain ⟨hx, hport⟩ := h
  have hfile : (Front.step s i).core.file = Csr.clock s.core.file (memOut s.core i.core).port
      i.core.timerInt (memOut s.core i.core).exceptionSm (memOut s.core i.core).trap := rfl
  rw [hfile, Csr.clock, hport, hx, if_neg Bool.false_ne_true, Csr.get_hardware_false, if_neg]
  rintro ⟨-, hne⟩
  exact absurd hne (by decide)

theorem mepc_after_quiet {quiet : List Cycle} (h : Run.Each Quiet Front.step s quiet) :
    (Run.after Front.step s quiet).core.file.get Csr.mepc = s.core.file.get Csr.mepc := by
  induction quiet generalizing s with
  | nil => rfl
  | cons i is ih =>
    obtain ⟨hq, hrest⟩ := h
    rw [Run.after_cons, ih hrest, mepc_of_quiet hq]

theorem exceptionSm_after_quiet {quiet : List Cycle} (hne : quiet ≠ [])
    (h : Run.Each Quiet Front.step s quiet) :
    (Run.after Front.step s quiet).core.mem.exceptionSm = false := by
  induction quiet generalizing s with
  | nil => exact absurd rfl hne
  | cons i is ih =>
    obtain ⟨hq, hrest⟩ := h
    rw [Run.after_cons]
    cases is with
    | nil => exact hq.1
    | cons j js => exact ih (List.cons_ne_nil j js) hrest

/-! ### Cycles of a return -/

/-- One activation for an `mret`. -/
theorem csrException_of_mret {j : Mem.Inputs} (hbus : j.busError = false)
    (hexc : j.re.exception = true) (hwrong : j.re.envCallWrongMode = false)
    (hmret : j.re.mret = true) (old : Mem.Outputs) :
    Mem.csrException j old = Mem.mret j old := by
  rw [Mem.csrException, if_pos (by rw [hexc]; rfl), Mem.withException, hbus,
    if_neg Bool.false_ne_true, hwrong, if_neg Bool.false_ne_true, hmret, if_pos rfl, if_pos rfl]

/-- The signals of MEM are those of an `mret` at `pc` that finds `mepc`. -/
structure Returning (o : Mem.Outputs) (mepc pc : BitVec 32) : Prop where
  exceptionSm : o.exceptionSm = true
  mode : o.currentModeSm = 0
  mieSm : o.mieSm = true
  mretSm : o.mretSm = true
  returnAdress : o.returnAdressSm = mepc
  mstatus : o.trap.mstatusWdataRm.getLsbD 3 = true
  mepcWdata : o.trap.mepcWdataRm = pc

/-- An activation of an `mret` after another one. -/
theorem returning_mret {j : Mem.Inputs} {old : Mem.Outputs} (h : old.mieSm = true) :
    Returning (Mem.mret j old) j.mepc j.re.pc where
  exceptionSm := rfl
  mode := rfl
  mieSm := rfl
  mretSm := rfl
  returnAdress := rfl
  mstatus := by
    change (Mem.mstatusNew j.mstatus old).getLsbD 3 = true
    rw [TrapEntry.getLsbD_mstatusNew _ _ (by decide), if_pos rfl, h]
  mepcWdata := rfl

/-- The state is one after a cycle of an `mret`. -/
def InReturn (s : State) : Prop :=
  Returning s.core.mem s.core.seen.mepc s.core.seen.re.pc

theorem returning_memOut (h : s.core.mem.exceptionSm = false ∨ InReturn s) (hr : Return s i) :
    Returning (memOut s.core i.core) (s.core.file.get Csr.mepc) s.core.pipe.exe2mem.dout.pc := by
  obtain ⟨hx, hbus, hexc, hwrong, hmret⟩ := hr
  have hact : ∀ old, Mem.csrException (memInputs s.core i.core) old =
      Mem.mret (memInputs s.core i.core) old :=
    csrException_of_mret hbus hexc hwrong hmret
  unfold memOut Mem.outputs at hx ⊢
  by_cases hsame : (memInputs s.core i.core).sensitive = s.core.seen
  · -- nothing has woken the method, and what it saw is still there
    rw [if_pos hsame] at hx ⊢
    rcases h with hfirst | hreturn
    · rw [hx] at hfirst
      exact absurd hfirst.symm Bool.false_ne_true
    · have hmepc : s.core.seen.mepc = s.core.file.get Csr.mepc :=
        congrArg Mem.Inputs.mepc hsame.symm
      have hpc : s.core.seen.re.pc = s.core.pipe.exe2mem.dout.pc :=
        congrArg (fun j => j.re.pc) hsame.symm
      rw [← hmepc, ← hpc]
      exact hreturn
  · rw [if_neg hsame, Mem.settle, hact, hact]
    rcases h with hfirst | hreturn
    · rw [if_neg (by rw [hfirst]; exact fun hn => Bool.false_ne_true hn.symm)]
      exact returning_mret rfl
    · rw [if_pos (show (Mem.mret _ _).exceptionSm = _ from hreturn.exceptionSm.symm)]
      exact returning_mret hreturn.mieSm

/-- What a cycle of an `mret` leaves: user mode, mstatus.MIE set, the program counter of the
`mret` in mepc, and the former mepc in the program counter. -/
theorem returning_step (h : s.core.mem.exceptionSm = false ∨ InReturn s) (hr : Return s i) :
    InReturn (Front.step s i) ∧
      (Front.step s i).core.mem.currentModeSm = 0 ∧
      ((Front.step s i).core.file.get Csr.mstatus).getLsbD 3 = true ∧
      (Front.step s i).core.file.get Csr.mepc = s.core.pipe.exe2mem.dout.pc ∧
      (Front.step s i).pc = s.core.file.get Csr.mepc := by
  have hout := returning_memOut h hr
  have hfile : (Front.step s i).core.file = Csr.clock s.core.file (memOut s.core i.core).port
      i.core.timerInt true (memOut s.core i.core).trap := by
    rw [← hout.exceptionSm]
    rfl
  obtain ⟨hmstatus, -, hmepc, -⟩ := Csr.get_clock_trap s.core.file (memOut s.core i.core).port
    i.core.timerInt (memOut s.core i.core).trap
  obtain ⟨hpc, henable⟩ := Pc.writePc_of_mret (Front.pcInputs s i) s.signals hout.exceptionSm
    hout.mretSm
  refine ⟨hout, hout.mode, ?_, ?_, ?_⟩
  · rw [hfile, hmstatus]
    exact hout.mstatus
  · rw [hfile, hmepc]
    exact hout.mepcWdata
  · have hstep : (Front.step s i).pc =
        if (Front.signals s i).writePcEnable then (Front.signals s i).writePc else s.pc := rfl
    rw [hstep]
    exact (if_pos henable).trans (hpc.trans hout.returnAdress)

/-- The word of an `mret` stays as long as the `mret` does. -/
theorem exe2mem_of_return {j : Cycle} (hr : Return s i) (hr' : Return (Front.step s i) j) :
    (Front.step s i).core.pipe.exe2mem = s.core.pipe.exe2mem := by
  have hx : (Core.cycle s.core (Front.cycle s i)).exceptionSm = true := hr.1
  rcases Backend.exe2mem_of_trap (s := s.core.pipe) hx with ⟨-, pc, hmem⟩ | ⟨hsame, -⟩
  · have hexc : (Front.step s i).core.pipe.exe2mem.dout.exception = false := by
      change (Backend.step s.core.pipe _).exe2mem.dout.exception = false
      rw [hmem]
      rfl
    exact absurd (hexc.symm.trans hr'.2.2.1) Bool.false_ne_true
  · exact hsame

/-- What the cycles of an `mret` leave: in the last of them, mepc is the one from before, or,
if there was a cycle before, the program counter of the `mret`. -/
theorem returning_after {ret : List Cycle} (h : s.core.mem.exceptionSm = false ∨ InReturn s)
    (hne : ret ≠ []) (hr : Run.Each Return Front.step s ret) :
    (Run.after Front.step s ret).core.mem.currentModeSm = 0 ∧
      ((Run.after Front.step s ret).core.file.get Csr.mstatus).getLsbD 3 = true ∧
      (Run.after Front.step s ret).pc =
        if ret.length = 1 then s.core.file.get Csr.mepc else s.core.pipe.exe2mem.dout.pc := by
  induction ret generalizing s with
  | nil => exact absurd rfl hne
  | cons i is ih =>
    obtain ⟨hfirst, hrest⟩ := hr
    obtain ⟨hin, hmode, hmie, hmepc, hpc⟩ := returning_step h hfirst
    rw [Run.after_cons]
    cases is with
    | nil => exact ⟨hmode, hmie, hpc⟩
    | cons j js =>
      obtain ⟨hmode', hmie', hpc'⟩ := ih (.inr hin) (List.cons_ne_nil j js) hrest
      refine ⟨hmode', hmie', hpc'.trans ?_⟩
      have hmem := exe2mem_of_return hfirst hrest.1
      rw [hmem, hmepc, ite_self, if_neg (by simp)]

/-- A cycle with a word in IF2DEC. -/
def fetched (pc ir : BitVec 32) : Cycle :=
  { (default : Cycle) with
    core :=
      { (default : Core.Cycle) with
        pipe :=
          { (default : Backend.Cycle) with
            ir := ir
            fetch := { (default : Dec.Fetch) with pcIf2dec := pc } } } }

def nop : Cycle := fetched 0 0x13

/-- `ecall` has reached MEM, in machine mode after reset. -/
def machineCall : State :=
  Run.after Front.step (Front.reset 0 0) [fetched 0x100 0x00000073, nop]

/-- `ecall` has reached MEM, in user mode after an `mret`. -/
def userCall : State :=
  Run.after Front.step (Front.reset 0 0)
    [fetched 0x80 0x30200073, nop, nop, nop, fetched 0x100 0x00000073, nop]

/-- The handler is a single `mret`. -/
def handler : List Cycle := [nop, fetched 0x200 0x30200073, nop]

theorem trip_userCall : Trip userCall [nop] handler [nop] where
  entry_ne := List.cons_ne_nil _ _
  quiet_ne := List.cons_ne_nil _ _
  ret_ne := List.cons_ne_nil _ _
  enters := by decide +kernel
  waits := by decide +kernel
  returns := by decide +kernel

theorem trip_machineCall : Trip machineCall [nop] handler [nop] where
  entry_ne := List.cons_ne_nil _ _
  quiet_ne := List.cons_ne_nil _ _
  ret_ne := List.cons_ne_nil _ _
  enters := by decide +kernel
  waits := by decide +kernel
  returns := by decide +kernel

end TrapReturn

end RiVerSoC
