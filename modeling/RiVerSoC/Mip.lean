/-
The interrupts that are pending.

Three agents write mip on a clock edge: the timer, the CSR instruction in MEM and the entry
into a trap, which writes the `MIP_WDATA_RM` that nothing drives.

* `Kept` — the edge loses no update of mip;
* `Spared` — no agent is in the way of another one;
* `each_kept_iff` — a run loses no update exactly when every edge is spared.
-/
import RiVerSoC.Run
import RiVerSoC.Core

namespace RiVerSoC

namespace Mip

open RiVerSoC.Core (State Cycle memOut step)

variable (s : State) (i : Cycle)

/-- `ACK_SP`: every request of the timer is acknowledged. -/
def ackSp : Bool := i.timerInt

def mip : BitVec 32 := s.file.get Csr.mip

/-- EXE2MEM shows a write of mip. -/
def shows : Bool := s.pipe.exe2mem.dout.csrWenable && s.pipe.exe2mem.dout.csrWadr == 0x344

/-- A CSR instruction in MEM commits a write of mip. -/
def commits : Bool := shows s && s.pipe.exe2mem.v && !(memOut s i).exceptionSm

/-- The value that the CSR instruction leaves. -/
def committed : BitVec 32 := if commits s i then s.pipe.exe2mem.dout.exeRes else mip s

/-- mip is what the CSR instruction leaves, with the bit of the timer if its request is
acknowledged; in particular an acknowledged interrupt stays pending until software clears
it. -/
def Kept : Prop :=
  mip (step s i) = (if ackSp i then Csr.timerBit (committed s i) else committed s i) ∧
  ((ackSp i = true ∨
      (mip s).getLsbD 7 = true ∧
        ¬ (commits s i = true ∧ s.pipe.exe2mem.dout.exeRes.getLsbD 7 = false)) →
    (mip (step s i)).getLsbD 7 = true)

/-- A trap finds nothing pending; the timer finds no write of mip that says anything else; and
no write of mip is repeated after mip has changed. -/
def Spared : Prop :=
  if (memOut s i).exceptionSm then mip s = 0 ∧ i.timerInt = false
  else if i.timerInt then
    commits s i = true → Csr.timerBit s.pipe.exe2mem.dout.exeRes = Csr.timerBit (mip s)
  else
    shows s = true → s.pipe.exe2mem.v = false → s.pipe.exe2mem.dout.exeRes = mip s

instance : Decidable (Kept s i) := inferInstanceAs (Decidable (_ ∧ _))

instance : Decidable (Spared s i) := by
  unfold Spared
  infer_instance

/-- What holds in every cycle of a run. -/
structure Inv (s : State) : Prop where
  latched : Core.Latched s
  mipWdataRm : s.mem.trap.mipWdataRm = 0

theorem inv_reset (procId : BitVec 32) : Inv (Core.reset procId) where
  latched := Core.latched_reset procId
  mipWdataRm := rfl

variable {s i}

theorem inv_step (h : Inv s) : Inv (step s i) where
  latched := Core.latched_step h.latched
  mipWdataRm := Core.mipWdataRm_memOut.trans h.mipWdataRm

/-! ### The edge -/

theorem mip_of_trap (h : Inv s) (hx : (memOut s i).exceptionSm = true) : mip (step s i) = 0 := by
  have hdata : (memOut s i).trap.mipWdataRm = 0 := Core.mipWdataRm_memOut.trans h.mipWdataRm
  change (Csr.clock s.file _ _ (memOut s i).exceptionSm (memOut s i).trap).get Csr.mip = 0
  rw [hx, (Csr.get_clock_trap _ _ _ _).2.1, hdata]

/-- The write port, without a trap. -/
theorem get_port (s : State) :
    ((if (Mem.writePort s.pipe.exe2mem.dout).csrEnableSm then
      s.file.write (Mem.writePort s.pipe.exe2mem.dout).csrWadrSm
        (Mem.writePort s.pipe.exe2mem.dout).csrWdataSm else s.file).get Csr.mip) =
      if shows s then s.pipe.exe2mem.dout.exeRes else mip s := by
  unfold Mem.writePort shows
  cases s.pipe.exe2mem.dout.csrWenable with
  | false => rfl
  | true =>
    rw [Bool.true_and, if_pos rfl, if_pos rfl]
    by_cases hadr : s.pipe.exe2mem.dout.csrWadr = 0x344
    · rw [hadr, beq_self_eq_true, if_pos rfl, Csr.File.get_write s.file rfl, if_pos rfl]
    · rw [beq_false_of_ne hadr, if_neg Bool.false_ne_true]
      cases hk : Csr.writeIndex s.pipe.exe2mem.dout.csrWadr with
      | none => rw [Csr.File.write_of_none _ hk, mip]
      | some k =>
        rw [Csr.File.get_write _ hk, if_neg, mip]
        intro heq
        exact hadr (Csr.writeIndex_eq_mip (hk.trans (congrArg some heq)))

theorem mip_of_not_trap (h : Inv s) (hx : (memOut s i).exceptionSm = false) :
    mip (step s i) = if i.timerInt then Csr.timerBit (mip s)
      else if shows s then s.pipe.exe2mem.dout.exeRes else mip s := by
  obtain ⟨-, hport⟩ := Core.memOut_of_not_trap h.latched hx
  change (Csr.clock s.file (memOut s i).port i.timerInt (memOut s i).exceptionSm _).get Csr.mip = _
  rw [Csr.clock, hx, hport, Csr.get_hardware_false, get_port]
  cases i.timerInt with
  | true => rw [if_pos ⟨rfl, rfl⟩, if_pos rfl, mip]
  | false =>
    rw [if_neg (fun hn => Bool.false_ne_true hn.1), if_neg Bool.false_ne_true]

theorem getLsbD_timerBit (v : BitVec 32) : (Csr.timerBit v).getLsbD 7 = true := by
  rw [Csr.timerBit, BitVec.getLsbD_or]
  exact Bool.or_true _

/-- A kept value keeps the interrupt of the timer. -/
theorem pending_of_value
    (h : mip (step s i) = if ackSp i then Csr.timerBit (committed s i) else committed s i)
    (hp : ackSp i = true ∨ (mip s).getLsbD 7 = true ∧
      ¬ (commits s i = true ∧ s.pipe.exe2mem.dout.exeRes.getLsbD 7 = false)) :
    (mip (step s i)).getLsbD 7 = true := by
  rw [h]
  by_cases hack : ackSp i = true
  · rw [if_pos hack]
    exact getLsbD_timerBit _
  · obtain ⟨hbit, hclear⟩ := hp.resolve_left hack
    rw [if_neg hack, committed]
    split_ifs with hc
    · by_contra hno
      exact hclear ⟨hc, Bool.eq_false_iff.mpr hno⟩
    · exact hbit

theorem kept_iff_value : Kept s i ↔
    mip (step s i) = if ackSp i then Csr.timerBit (committed s i) else committed s i :=
  ⟨fun h => h.1, fun h => ⟨h, pending_of_value h⟩⟩

theorem timerBit_ne_zero (v : BitVec 32) : Csr.timerBit v ≠ 0 := by
  intro h
  have hbit := getLsbD_timerBit v
  rw [h] at hbit
  exact absurd hbit (by decide)

theorem kept_iff (h : Inv s) : Kept s i ↔ Spared s i := by
  rw [kept_iff_value, Spared, committed, ackSp]
  cases hx : (memOut s i).exceptionSm with
  | true =>
    have hno : commits s i = false := by
      rw [commits, hx, Bool.not_true, Bool.and_false]
    rw [mip_of_trap h hx, hno, if_pos rfl, if_neg Bool.false_ne_true]
    constructor
    · intro hv
      cases ht : i.timerInt with
      | true =>
        rw [ht, if_pos rfl] at hv
        exact absurd hv.symm (timerBit_ne_zero _)
      | false =>
        rw [ht, if_neg Bool.false_ne_true] at hv
        exact ⟨hv.symm, rfl⟩
    · rintro ⟨hv, ht⟩
      rw [ht, if_neg Bool.false_ne_true, hv]
  | false =>
    rw [mip_of_not_trap h hx, if_neg Bool.false_ne_true]
    cases i.timerInt with
    | true =>
      rw [if_pos rfl, if_pos rfl, if_pos rfl]
      cases commits s i with
      | true => exact ⟨fun hv _ => hv.symm, fun hv => (hv rfl).symm⟩
      | false => exact ⟨fun _ hc => absurd hc Bool.false_ne_true, fun _ => rfl⟩
    | false =>
      rw [if_neg Bool.false_ne_true, if_neg Bool.false_ne_true, if_neg Bool.false_ne_true, commits,
        hx, Bool.not_false, Bool.and_true]
      cases shows s <;> cases s.pipe.exe2mem.v <;> simp

/-! ### Whole runs -/

/-- A run loses no update of mip exactly when every edge is spared. -/
theorem each_kept_iff (procId : BitVec 32) (is : List Cycle) :
    Run.Each Kept step (Core.reset procId) is ↔ Run.Each Spared step (Core.reset procId) is :=
  Run.each_iff_each Inv (fun _ _ h => kept_iff h) (fun _ _ h _ => inv_step h) (inv_reset procId)

/-- `ecall`, and the timer on the edge on which MEM takes the trap. -/
def ecallTimer : List Cycle :=
  [{ (default : Cycle) with pipe := { (default : Backend.Cycle) with ir := 0x00000073 } },
    { (default : Cycle) with pipe := { (default : Backend.Cycle) with if2decEmpty := true } },
    { (default : Cycle) with
      pipe := { (default : Backend.Cycle) with if2decEmpty := true }
      timerInt := true }]

/-- The request is acknowledged, and the trap clears mip. -/
theorem not_kept_ecallTimer : ¬ Run.Each Kept step (Core.reset 0) ecallTimer := by
  decide +kernel

end Mip

end RiVerSoC
