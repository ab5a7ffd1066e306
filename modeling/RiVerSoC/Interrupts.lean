/-
Interrupts: when they are taken, and the cause that is written.

`csr_exception` looks at mip and mie only, and the cause is the number of the interrupt and
not or 2^31.

* `Rightful` — an interrupt that is taken is enabled, and its cause is written;
* `interruptCause_eq_zero` — the cause that is written is 0;
* `each_rightful_iff` — a run is right exactly when it takes no interrupt.
-/
import Mathlib.Algebra.Group.Nat.Defs
import RiVerSoC.Run
import RiVerSoC.Core

namespace RiVerSoC

namespace Interrupt

open RiVerSoC.Core (State Cycle memInputs memOut step)

variable (s : State) (i : Cycle)

/-- `csr_exception` runs and goes into its interrupt branch. -/
def takes : Bool :=
  (memInputs s i).sensitive != s.seen &&
    !((memInputs s i).re.exception || (memInputs s i).busError) &&
    Mem.trapToHandle (memInputs s i) != 0

/-- The order in which the code tests the interrupts. -/
def priority : List ℕ := [11, 3, 7, 9, 1, 5]

/-- The interrupt of the highest priority among those of `v`. -/
def highest (v : BitVec 32) : Option ℕ := priority.find? v.getLsbD

/-- Machine mode with the interrupts off. -/
def masked : Prop :=
  s.mem.currentModeSm = 3 ∧ (s.file.get Csr.mstatus).getLsbD 3 = false

/-- An interrupt that is taken is not masked, and the cause is that of the highest one that is
pending and enabled. -/
def Rightful : Prop :=
  takes s i = true →
    ¬ masked s ∧
    ∃ n ∈ highest (s.file.get Csr.mip &&& s.file.get Csr.mie),
      (s.file.get Csr.mip).getLsbD n = true ∧ (s.file.get Csr.mie).getLsbD n = true ∧
      (step s i).file.get Csr.mcause = BitVec.ofNat 32 (2 ^ 31 + n)

instance : Decidable (masked s) := inferInstanceAs (Decidable (_ ∧ _))

instance : Decidable (Rightful s i) := by
  unfold Rightful
  infer_instance

variable {s i}

/-- The number of an interrupt has no bit in common with 2^31. -/
theorem interruptCause_eq_zero {v : BitVec 32} {n : ℕ} (h : highest v = some n)
    (old : BitVec 32) : Mem.interruptCause v old = 0 := by
  unfold Mem.interruptCause
  split_ifs with h11 h3 h7 h9 h1 h5
  · decide
  · decide
  · decide
  · decide
  · decide
  · decide
  · have hnone : highest v = none := by
      refine List.find?_eq_none.mpr ?_
      intro k hk
      simp only [priority, List.mem_cons, List.not_mem_nil, or_false] at hk
      rcases hk with rfl | rfl | rfl | rfl | rfl | rfl <;> assumption
    rw [hnone] at h
    exact absurd h (Option.some_ne_none n).symm

/-- What an activation that takes an interrupt writes. -/
theorem csrException_of_takes {j : Mem.Inputs} (hexc : (j.re.exception || j.busError) = false)
    (hirq : Mem.trapToHandle j ≠ 0) (old : Mem.Outputs) :
    (Mem.csrException j old).trap.mcauseWdataSm =
        Mem.interruptCause (Mem.trapToHandle j) old.trap.mcauseWdataSm ∧
      (Mem.csrException j old).trap.mepcWdataRm = j.re.pc ∧
      (Mem.csrException j old).currentModeSm = 3 ∧ (Mem.csrException j old).mretSm = false := by
  rw [Mem.csrException, if_neg (by rw [hexc]; exact Bool.false_ne_true), Mem.withoutException,
    if_pos hirq]
  exact ⟨rfl, rfl, rfl, rfl⟩

theorem takes_iff : takes s i = true ↔ (memInputs s i).sensitive ≠ s.seen ∧
    ((memInputs s i).re.exception || (memInputs s i).busError) = false ∧
    Mem.trapToHandle (memInputs s i) ≠ 0 := by
  simp only [takes, Bool.and_eq_true, Bool.not_eq_true', bne_iff_ne, and_assoc]

theorem exceptionSm_of_takes (h : takes s i = true) : (memOut s i).exceptionSm = true := by
  obtain ⟨hwake, hexc, hirq⟩ := takes_iff.mp h
  have hout : memOut s i = Mem.settle (memInputs s i) s.mem := if_neg hwake
  rw [hout, Mem.exceptionSm_settle, Mem.traps, hexc, bne_iff_ne.mpr hirq]
  rfl

/-- The cause in the CSR file after an interrupt. -/
theorem mcause_of_takes (h : takes s i = true) {n : ℕ}
    (hn : highest (s.file.get Csr.mip &&& s.file.get Csr.mie) = some n) :
    (step s i).file.get Csr.mcause = 0 := by
  have hx := exceptionSm_of_takes h
  obtain ⟨hwake, hexc, hirq⟩ := takes_iff.mp h
  have hout : memOut s i = Mem.settle (memInputs s i) s.mem := if_neg hwake
  have hcause : (memOut s i).trap.mcauseWdataSm = 0 := by
    rw [hout, Mem.settle]
    split_ifs
    · rw [(csrException_of_takes hexc hirq _).1]
      exact interruptCause_eq_zero hn _
    · rw [(csrException_of_takes hexc hirq _).1]
      exact interruptCause_eq_zero hn _
  change (Csr.clock s.file _ _ (memOut s i).exceptionSm (memOut s i).trap).get Csr.mcause = 0
  rw [hx, (Csr.get_clock_trap _ _ _ _).2.2.2.1, hcause]

/-- The cause that is written is that of no interrupt. -/
theorem ofNat_ne_zero_of_highest {v : BitVec 32} {n : ℕ} (hn : highest v = some n) :
    BitVec.ofNat 32 (2 ^ 31 + n) ≠ 0 := by
  have hmem : n ∈ priority := List.mem_of_find?_eq_some hn
  simp only [priority, List.mem_cons, List.not_mem_nil, or_false] at hmem
  rcases hmem with rfl | rfl | rfl | rfl | rfl | rfl <;> decide

theorem rightful_iff : Rightful s i ↔ takes s i = false := by
  constructor
  · intro h
    cases ht : takes s i with
    | false => rfl
    | true =>
      obtain ⟨-, n, hn, -, -, hcause⟩ := h ht
      rw [mcause_of_takes ht hn] at hcause
      exact absurd hcause.symm (ofNat_ne_zero_of_highest hn)
  · intro h ht
    exact absurd (ht.symm.trans h) (by decide)

/-- A run is right exactly when it takes no interrupt. -/
theorem each_rightful_iff (procId : BitVec 32) (is : List Cycle) :
    Run.Each Rightful step (Core.reset procId) is ↔
      Run.Each (fun s i => takes s i = false) step (Core.reset procId) is :=
  Run.each_iff_each (fun _ => True) (fun _ _ _ => rightful_iff) (fun _ _ _ _ => trivial) trivial

/-- `csrrwi x0, mie, 8` and `csrrwi x0, mip, 8`, in machine mode with the interrupts off. -/
def softwareInterrupt : List Cycle :=
  [0x30445073, 0x34445073, 0x34445073, 0x34445073, 0x13, 0x13, 0x13].map fun ir =>
    { (default : Cycle) with pipe := { (default : Backend.Cycle) with ir := ir } }

theorem not_rightful_softwareInterrupt :
    ¬ Run.Each Rightful step (Core.reset 0) softwareInterrupt := by
  decide +kernel

end Interrupt

end RiVerSoC
