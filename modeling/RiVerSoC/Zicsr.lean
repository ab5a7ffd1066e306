/-
Read-modify-write of the CSRs through the pipeline.

A reference CSR file executes the CSR instructions one after the other, in program order:
each one when EXE pushes it, on the exact value of its source register and on the old value
that the reference had when the instruction left DEC.

* `Follows` — the instruction writes what the reference writes, its write arrives, and its
  destination register receives the old value;
* `inv_step` — the CSR file is the reference but for the instruction in MEM;
* `each_follows` — along every run with sound sources in which no trap is taken on a CSR
  instruction, every CSR instruction follows the reference.
-/
import RiVerSoC.Core
import RiVerSoC.CsrDecode

namespace RiVerSoC

namespace Zicsr

open Decode (funct12 rs1 rd)
open Backend (Pushes memPush exePush decPush exeSig)

/-- The core, with the reference. -/
structure Machine where
  core : Core.State
  captured : Bool × Bool
  /-- The instruction in DEC2EXE; none of the six for the word that a trap puts there. -/
  ir : BitVec 32
  /-- What the reference had in its CSR when it left DEC. -/
  old : BitVec 32
  reference : Csr.File

def Machine.tracked (m : Machine) : Backend.Tracked := ⟨m.core.pipe, m.captured⟩

abbrev Machine.pipe (m : Machine) : Backend.State := m.core.pipe

def reset (procId : BitVec 32) : Machine where
  core := Core.reset procId
  captured := (false, false)
  ir := 0
  old := 0
  reference := Csr.reset procId

variable (m : Machine) (i : Core.Cycle)

/-- The cycle as the stages see it. -/
def cycle : Backend.Cycle := Core.cycle m.core i

/-- The value of the source register. -/
def sourceValue (r : BitVec 6) : BitVec 32 :=
  if r = 0 then 0 else Backend.expected m.pipe (cycle m i) r

/-- EXE pushes a CSR instruction. -/
def PushesCsr : Prop := Pushes m.pipe (cycle m i) ∧ isCsr m.ir = true

instance : Decidable (PushesCsr m i) := inferInstanceAs (Decidable (_ ∧ _))

/-- What the CSR instruction in EXE writes. -/
def modified : BitVec 32 := modify m.ir (sourceValue m i (sourceReg m.ir)) m.old

/-- The hardware writes the reference, too. -/
def hardware : Csr.File :=
  Csr.hardware m.reference m.reference i.timerInt (Core.memOut m.core i).exceptionSm
    (Core.memOut m.core i).trap

def step : Machine where
  core := Core.step m.core i
  captured := (m.tracked.step (cycle m i)).captured
  ir :=
    if m.pipe.dec2exe.loads (decPush m.pipe (cycle m i)) (exePush m.pipe (cycle m i)) then
      if (cycle m i).exceptionSm then 0 else i.pipe.ir
    else m.ir
  old :=
    if m.pipe.dec2exe.loads (decPush m.pipe (cycle m i)) (exePush m.pipe (cycle m i)) then
      m.reference.read i.timeRt (funct12 i.pipe.ir)
    else m.old
  reference :=
    if PushesCsr m i then (hardware m i).write (funct12 m.ir) (modified m i) else hardware m i

/-- The CSR instruction in MEM, whose write has not been made. -/
def waits (s : Backend.State) : Bool := s.exe2mem.v && s.re.csrWenable && !s.re.exception

/-- The CSR instructions follow the reference. -/
def Follows : Prop :=
  (PushesCsr m i →
    (exeSig m.pipe (cycle m i)).exe2memDinSe.csrWenable = true ∧
    (exeSig m.pipe (cycle m i)).exe2memDinSe.csrWadr = funct12 m.ir ∧
    (exeSig m.pipe (cycle m i)).exe2memDinSe.exeRes = modified m i ∧
    (exeSig m.pipe (cycle m i)).exe2memDinSe.dest = (rd m.ir).setWidth 6 ∧
    (exeSig m.pipe (cycle m i)).exe2memDinSe.wb = true ∧
    (exeSig m.pipe (cycle m i)).exe2memDinSe.csrRdata = m.old) ∧
  (waits m.pipe = true → ∀ k ∈ Csr.writeIndex m.pipe.re.csrWadr,
    (step m i).core.file.get k = m.pipe.re.exeRes) ∧
  (Backend.wenable m.pipe = true → m.pipe.rm.csrWenable = true →
    Backend.regOf m.pipe.rm.dest ≠ 0 →
    (step m i).pipe.registers.read (Backend.regOf m.pipe.rm.dest) = m.pipe.rm.csrRdata)

/-- WBK writes what it is to write, the source of a CSR instruction is right and EXE has
looked at it, a word that writes a CSR is one of the six, and nothing takes the write away:
neither a trap on the CSR instruction nor a timer interrupt on mip. -/
def Sound : Prop :=
  Backend.WbkFresh m.pipe ∧
  (Pushes m.pipe (cycle m i) →
    (m.pipe.rd.csrWenable = true → isCsr m.ir = true) ∧
    (isCsr m.ir = true → m.pipe.rd.radr1 ≠ 0 →
      Backend.OperandsFresh m.pipe (cycle m i) ∧ Backend.SoundRs1 m.tracked)) ∧
  (waits m.pipe = true → (cycle m i).exceptionSm = false) ∧
  (i.timerInt = true → m.pipe.re.csrWenable = true →
    Csr.writeIndex m.pipe.re.csrWadr ≠ some Csr.mip)

instance : Decidable (Follows m i) := inferInstanceAs (Decidable (_ ∧ _))

instance : Decidable (Sound m i) := inferInstanceAs (Decidable (_ ∧ _))

/-! ### The invariant -/

/-- What holds in every cycle of a run. -/
structure Inv (m : Machine) : Prop where
  forwarding : Backend.Inv m.tracked
  latched : Core.Latched m.core
  zero : m.pipe.registers.read 0 = 0
  word : m.pipe.dec2exe.v = true → m.pipe.rd.exception = false → isCsr m.ir = true →
    CsrWord m.pipe.rd m.ir m.old
  agrees : m.reference = if waits m.pipe then
    m.core.file.write m.pipe.re.csrWadr m.pipe.re.exeRes else m.core.file
  /-- A CSR instruction that EXE2MEM only shows any more has been executed. -/
  shown : m.pipe.exe2mem.v = false → m.pipe.re.csrWenable = true → m.pipe.re.exception = false →
    Csr.Written m.core.file m.pipe.re.csrWadr m.pipe.re.exeRes
  /-- What stands on the write port has been written, and perhaps overwritten by a trap. -/
  port : m.core.mem.port.csrEnableSm = true →
    Csr.Written m.core.file m.core.mem.port.csrWadrSm m.core.mem.port.csrWdataSm ∨
    m.core.mem.exceptionSm = true ∧
      ∃ k, Csr.writeIndex m.core.mem.port.csrWadrSm = some k ∧ Csr.savedAtTrap k

theorem read_zero_reset : Backend.reset.registers.read 0 = 0 := by decide

theorem inv_reset (procId : BitVec 32) : Inv (reset procId) where
  forwarding := Backend.inv_reset
  latched := Core.latched_reset procId
  zero := read_zero_reset
  word h := absurd h Bool.false_ne_true
  agrees := rfl
  shown _ h := absurd h Bool.false_ne_true
  port h := absurd h Bool.false_ne_true

variable {m i}

/-- What the write port makes of the file without a trap: the reference. -/
theorem reference_eq (h : Inv m) (hx : m.pipe.re.exception = false) :
    m.reference = if m.pipe.re.csrWenable then
      m.core.file.write m.pipe.re.csrWadr m.pipe.re.exeRes else m.core.file := by
  rw [h.agrees, waits, hx, Bool.not_false, Bool.and_true]
  cases hv : m.pipe.exe2mem.v with
  | true => rw [Bool.true_and]
  | false =>
    rw [Bool.false_and, if_neg Bool.false_ne_true]
    cases hw : m.pipe.re.csrWenable with
    | false => rfl
    | true => exact (h.shown hv hw hx).symm

/-- Without a trap the CSR file becomes what the hardware makes of the reference. -/
theorem file_step_of_not_trap (h : Inv m) (hs : Sound m i)
    (hx : (Core.memOut m.core i).exceptionSm = false) :
    (step m i).core.file = hardware m i := by
  obtain ⟨hexc, hport⟩ := Core.memOut_of_not_trap h.latched hx
  have hfile : (step m i).core.file = Csr.hardware m.core.file m.reference i.timerInt
      (Core.memOut m.core i).exceptionSm (Core.memOut m.core i).trap := by
    change Csr.clock m.core.file (Core.memOut m.core i).port i.timerInt _ _ = _
    rw [Csr.clock, hport, reference_eq h hexc, Mem.writePort]
    change Csr.hardware _ (if (if m.pipe.re.csrWenable = true then _ else _ : Csr.Port).csrEnableSm
      = true then _ else _) _ _ _ = _
    cases m.pipe.re.csrWenable <;> rfl
  rw [hfile, hardware, hx]
  -- the bits of mip that the timer reads are those of the reference
  refine Csr.File.ext_get fun k _ => ?_
  rw [Csr.get_hardware_false, Csr.get_hardware_false]
  by_cases ht : i.timerInt = true
  · have hmip : m.reference.get Csr.mip = m.core.file.get Csr.mip := by
      rw [reference_eq h hexc]
      cases hw : m.pipe.re.csrWenable with
      | false => rfl
      | true =>
        have hne := hs.2.2.2 ht hw
        rw [if_pos rfl]
        cases hk : Csr.writeIndex m.pipe.re.csrWadr with
        | none => rw [Csr.File.write_of_none _ hk]
        | some l =>
          rw [Csr.File.get_write _ hk, if_neg]
          intro hl
          exact hne (hk.trans (congrArg some hl))
    rw [hmip]
  · rw [if_neg (fun hn => ht hn.1), if_neg (fun hn => ht hn.1)]

/-- A CSR instruction in EXE2MEM, whether it waits or is only shown any more, has been
executed after a cycle without a trap. -/
theorem written_step (h : Inv m) (hs : Sound m i)
    (hx : (Core.memOut m.core i).exceptionSm = false) (hw : m.pipe.re.csrWenable = true) :
    Csr.Written (step m i).core.file m.pipe.re.csrWadr m.pipe.re.exeRes := by
  obtain ⟨hexc, -⟩ := Core.memOut_of_not_trap h.latched hx
  rw [file_step_of_not_trap h hs hx, hardware, reference_eq h hexc, if_pos hw, hx]
  exact Csr.written_hardware _ _ (fun ht => hs.2.2.2 ht hw) _ _

/-- In a trap the reference is the CSR file, and both take what the trap writes. -/
theorem file_step_of_trap (h : Inv m) (hs : Sound m i)
    (hx : (Core.memOut m.core i).exceptionSm = true) :
    (step m i).core.file = hardware m i := by
  have hwaits : waits m.pipe = false := by
    cases hw : waits m.pipe
    · rfl
    · exact absurd (hx.symm.trans (hs.2.2.1 hw)) (by decide)
  have href : m.reference = m.core.file := by
    rw [h.agrees, hwaits, if_neg Bool.false_ne_true]
  change Csr.clock m.core.file (Core.memOut m.core i).port i.timerInt _ _ = _
  rw [Csr.clock, hardware, href, Core.port_of_trap hx]
  cases hen : m.core.mem.port.csrEnableSm with
  | false => rw [if_neg Bool.false_ne_true]
  | true =>
    rw [if_pos rfl]
    rcases h.port hen with hwritten | ⟨-, k, hk, hsaved⟩
    · rw [hwritten]
    · -- what stands on the port is overwritten once more
      rw [hx]
      refine Csr.hardware_trap_congr _ _ _ fun l hl => ?_
      rw [Csr.File.get_write _ hk, if_neg]
      intro heq
      exact hl (heq ▸ hsaved)

theorem file_step (h : Inv m) (hs : Sound m i) : (step m i).core.file = hardware m i := by
  cases hx : (Core.memOut m.core i).exceptionSm with
  | false => exact file_step_of_not_trap h hs hx
  | true => exact file_step_of_trap h hs hx

/-! ### Steps of the words -/

/-- A trap puts a word into EXE2MEM that writes no CSR, or leaves a valid word there. -/
theorem exe2mem_of_trap (hx : (cycle m i).exceptionSm = true) :
    (m.pipe.exe2mem.loads (exePush m.pipe (cycle m i)) (memPush m.pipe (cycle m i)) = true ∧
      (step m i).pipe.re.csrWenable = false) ∨
    (step m i).pipe.exe2mem = m.pipe.exe2mem ∧ m.pipe.exe2mem.v = true := by
  rcases Backend.exe2mem_of_trap (s := m.pipe) hx with ⟨hl, hmem⟩ | hsame
  · refine .inl ⟨hl, ?_⟩
    obtain ⟨pc, hpc⟩ := hmem
    have hre : (step m i).pipe.re = Exe.trapWord pc := congrArg Fifo.dout hpc
    rw [hre]
    rfl
  · exact .inr hsame

/-- A CSR write that waits after a cycle without a trap has just been pushed, or was there
before. -/
theorem waits_step (hs : Sound m i) (hx : (cycle m i).exceptionSm = false)
    (hpush : ¬ PushesCsr m i) (hw : waits (step m i).pipe = true) :
    m.pipe.re.csrWenable = true ∧ (step m i).pipe.re = m.pipe.re := by
  unfold waits at hw
  simp only [Bool.and_eq_true, Bool.not_eq_true'] at hw
  obtain ⟨⟨-, hcsr⟩, hexc⟩ := hw
  cases hl : m.pipe.exe2mem.loads (exePush m.pipe (cycle m i)) (memPush m.pipe (cycle m i)) with
  | false =>
    have hre : (step m i).pipe.re = m.pipe.re := Backend.re_of_not_loads hl
    rw [hre] at hcsr
    exact ⟨hcsr, hre⟩
  | true =>
    have hre : (step m i).pipe.re = (exeSig m.pipe (cycle m i)).exe2memDinSe :=
      Backend.re_of_loads hl
    obtain ⟨-, hwen, -, -, hexc'⟩ := Backend.dinSe_of_not_trap (s := m.pipe) hx
    rw [hre, hwen] at hcsr
    rw [hre, hexc', Bool.or_eq_false_iff] at hexc
    have hp : Pushes m.pipe (cycle m i) := ⟨(Bool.and_eq_true_iff.mp hl).1, hx, hexc.1⟩
    exact absurd ⟨hp, (hs.2.1 hp).1 hcsr⟩ hpush

/-! ### CSR instructions in EXE -/

/-- The operand of a CSR instruction with a sound source. -/
theorem op1_of_pushesCsr (h : Inv m) (hs : Sound m i) (hp : PushesCsr m i)
    (hword : CsrWord m.pipe.rd m.ir m.old) :
    (exeSig m.pipe (cycle m i)).byp.op1Se =
      Backend.complement (clears m.ir) (source m.ir (sourceValue m i (sourceReg m.ir))) := by
  obtain ⟨hpush, hcsr⟩ := hp
  by_cases hr : m.pipe.rd.radr1 = 0
  · -- x0 or an immediate: the operand is the one from DEC
    have hop : (exeSig m.pipe (cycle m i)).byp.op1Se = m.pipe.rd.op1 :=
      Backend.op1Se_of_none (Or.inl hr)
    have hreg : sourceReg m.ir = 0 := hword.radr1.symm.trans hr
    rw [hop, hword.op1 hr, sourceValue, if_pos hreg]
  · have hreg : sourceReg m.ir ≠ 0 := fun h0 => hr (hword.radr1.trans h0)
    have himm : immediate m.ir = false := by
      cases himm : immediate m.ir
      · rfl
      · exact absurd (if_pos himm) hreg
    obtain ⟨hfresh, hsource⟩ := (hs.2.1 hpush).2 hcsr hr
    have hop := Backend.op1_eq_expected h.forwarding hpush hfresh hr hword.blockBp hsource
    have hvalue : m.pipe.rd.radr1 = sourceReg m.ir := hword.radr1
    refine Eq.trans hop ?_
    change Backend.complement m.pipe.rd.csrrcI
      (Backend.expected m.pipe (cycle m i) m.pipe.rd.radr1) = _
    rw [hword.csrrcI, himm, Bool.not_false, Bool.and_true, hvalue, source, himm,
      if_neg Bool.false_ne_true, sourceValue, if_neg hreg]

/-- A CSR instruction with a sound source writes what the reference writes. -/
theorem dinSe_of_pushesCsr (h : Inv m) (hs : Sound m i) (hp : PushesCsr m i) :
    CsrWord m.pipe.rd m.ir m.old ∧
      (exeSig m.pipe (cycle m i)).exe2memDinSe.exeRes = modified m i ∧
      (exeSig m.pipe (cycle m i)).exe2memDinSe.exception = false ∧
      (exeSig m.pipe (cycle m i)).exe2memDinSe.wb = true := by
  have hpush : Pushes m.pipe (cycle m i) := hp.1
  obtain ⟨hexe, hx, hexc⟩ := hpush
  have hv : m.pipe.dec2exe.v = true := Backend.v_of_exePush hx hexe
  have hword := h.word hv hexc hp.2
  exact ⟨hword, dinSe_of_csrWord hx hp.2 hword hexc (op1_of_pushesCsr h hs hp hword)⟩

/-! ### Steps of the invariant -/

/-- What EXE2MEM holds after EXE has pushed a CSR instruction. -/
theorem exe2mem_of_pushesCsr (hp : PushesCsr m i) :
    (step m i).pipe.exe2mem = ⟨(exeSig m.pipe (cycle m i)).exe2memDinSe, true⟩ := by
  obtain ⟨⟨hpush, hx, -⟩, -⟩ := hp
  have hl := (Backend.loads_of_not_trap (s := m.pipe) hx).trans hpush
  exact Backend.exe2mem_of_loads hl

theorem agrees_step (h : Inv m) (hs : Sound m i) :
    (step m i).reference = if waits (step m i).pipe then
      (step m i).core.file.write (step m i).pipe.re.csrWadr (step m i).pipe.re.exeRes
      else (step m i).core.file := by
  have href : (step m i).reference =
      if PushesCsr m i then (hardware m i).write (funct12 m.ir) (modified m i)
      else hardware m i := rfl
  rw [href, ← file_step h hs]
  by_cases hp : PushesCsr m i
  · -- the reference writes, and the instruction waits in MEM
    obtain ⟨hword, hres, hexc, -⟩ := dinSe_of_pushesCsr h hs hp
    obtain ⟨-, hwen, hwadr, -⟩ := Backend.dinSe_of_not_trap (s := m.pipe) hp.1.2.1
    have hmem := exe2mem_of_pushesCsr hp
    have hre : (step m i).pipe.re = (exeSig m.pipe (cycle m i)).exe2memDinSe :=
      congrArg Fifo.dout hmem
    have hwaits : waits (step m i).pipe = true := by
      rw [waits, hre, hmem, hwen, hexc, hword.csrWenable]
      rfl
    rw [if_pos hp, hwaits, if_pos rfl, hre, hres, hwadr, hword.csrWadr]
  · rw [if_neg hp]
    cases hw : waits (step m i).pipe with
    | false => rw [if_neg Bool.false_ne_true]
    | true =>
      rw [if_pos rfl]
      cases hx : (cycle m i).exceptionSm with
      | false =>
        obtain ⟨hcsr, hre⟩ := waits_step hs hx hp hw
        rw [hre]
        exact (written_step h hs hx hcsr).symm
      | true =>
        -- a word without a CSR write is there, or one that did not wait before
        unfold waits at hw
        rcases exe2mem_of_trap (m := m) hx with ⟨-, hno⟩ | ⟨hsame, -⟩
        · rw [hno, Bool.and_false, Bool.false_and] at hw
          exact absurd hw Bool.false_ne_true
        · rw [Backend.State.re, hsame] at hw
          exact absurd ((hs.2.2.1 hw).symm.trans hx) (by decide)

theorem shown_step (h : Inv m) (hs : Sound m i) (hv : (step m i).pipe.exe2mem.v = false)
    (hcsr : (step m i).pipe.re.csrWenable = true) :
    Csr.Written (step m i).core.file (step m i).pipe.re.csrWadr (step m i).pipe.re.exeRes := by
  cases hl : m.pipe.exe2mem.loads (exePush m.pipe (cycle m i)) (memPush m.pipe (cycle m i)) with
  | true =>
    have hmem : (step m i).pipe.exe2mem = ⟨(exeSig m.pipe (cycle m i)).exe2memDinSe, true⟩ :=
      Backend.exe2mem_of_loads hl
    rw [hmem] at hv
    exact absurd hv.symm Bool.false_ne_true
  | false =>
    have hre : (step m i).pipe.re = m.pipe.re := Backend.re_of_not_loads hl
    rw [hre] at hcsr ⊢
    cases hx : (cycle m i).exceptionSm with
    | false => exact written_step h hs hx hcsr
    | true =>
      rcases exe2mem_of_trap (m := m) hx with ⟨hloads, -⟩ | ⟨hsame, hv'⟩
      · exact absurd (hl.symm.trans hloads) (by decide)
      · rw [hsame, hv'] at hv
        exact absurd hv.symm Bool.false_ne_true

theorem port_step (h : Inv m) (hs : Sound m i)
    (hen : (step m i).core.mem.port.csrEnableSm = true) :
    Csr.Written (step m i).core.file (step m i).core.mem.port.csrWadrSm
        (step m i).core.mem.port.csrWdataSm ∨
      (step m i).core.mem.exceptionSm = true ∧
        ∃ k, Csr.writeIndex (step m i).core.mem.port.csrWadrSm = some k ∧ Csr.savedAtTrap k := by
  have hmem : (step m i).core.mem = Core.memOut m.core i := rfl
  rw [hmem] at hen ⊢
  cases hx : (Core.memOut m.core i).exceptionSm with
  | false =>
    obtain ⟨-, hport⟩ := Core.memOut_of_not_trap h.latched hx
    rw [hport, Mem.writePort] at hen ⊢
    cases hw : m.pipe.exe2mem.dout.csrWenable with
    | false =>
      rw [hw] at hen
      exact absurd hen Bool.false_ne_true
    | true => exact .inl (written_step h hs hx hw)
  | true =>
    rw [Core.port_of_trap hx] at hen ⊢
    cases hk : Csr.writeIndex m.core.mem.port.csrWadrSm with
    | none => exact .inl (Csr.File.write_of_none _ hk _)
    | some k =>
      by_cases hsaved : Csr.savedAtTrap k
      · exact .inr ⟨rfl, k, rfl, hsaved⟩
      · refine .inl ?_
        change Csr.Written (Csr.clock m.core.file (Core.memOut m.core i).port _ _ _) _ _
        rw [Csr.clock, Core.port_of_trap hx, hen, if_pos rfl, hx]
        exact Csr.written_hardware_trap _ _ _ hk hsaved _ _

/-- No CSR write waits when an instruction leaves DEC. -/
theorem not_waits_of_decPush (hx : (cycle m i).exceptionSm = false)
    (hpush : decPush m.pipe (cycle m i) = true) : waits m.pipe = false := by
  obtain ⟨-, hmem⟩ := Backend.not_csr_of_decPush (s := m.pipe) hx hpush
  rw [Bool.and_comm] at hmem
  rw [waits, hmem, Bool.false_and]

/-- DEC reads the old value of the reference. -/
theorem csrRdataSc_eq (h : Inv m) (hx : (cycle m i).exceptionSm = false)
    (hpush : decPush m.pipe (cycle m i) = true) (hcsr : isCsr i.pipe.ir = true) :
    (cycle m i).csrRdataSc = m.reference.read i.timeRt (funct12 i.pipe.ir) := by
  have href : m.reference = m.core.file := by
    rw [h.agrees, not_waits_of_decPush hx hpush, if_neg Bool.false_ne_true]
  have hn := csrInsts hcsr
  have hport : (Backend.decRegs m.pipe (Core.modeCycle m.core i)).csrRadrPort =
      funct12 i.pipe.ir := by
    change (Decode.preRegReadDecoding i.pipe.ir (Decode.decodingInstructionType i.pipe.ir)
      (Decode.decodingInstruction i.pipe.ir) (Core.modeCycle m.core i).currentMode
      m.pipe.regs).csrRadrPort = _
    rw [hn.types]
    exact if_pos hn.csr
  change m.core.file.read i.timeRt
    (Backend.decRegs m.pipe (Core.modeCycle m.core i)).csrRadrPort = _
  rw [hport, href]

theorem word_step (h : Inv m) (hv : (step m i).pipe.dec2exe.v = true)
    (hexc : (step m i).pipe.rd.exception = false) (hcsr : isCsr (step m i).ir = true) :
    CsrWord (step m i).pipe.rd (step m i).ir (step m i).old := by
  have hir : (step m i).ir =
      if m.pipe.dec2exe.loads (decPush m.pipe (cycle m i)) (exePush m.pipe (cycle m i)) then
        if (cycle m i).exceptionSm then 0 else i.pipe.ir
      else m.ir := rfl
  have hold : (step m i).old =
      if m.pipe.dec2exe.loads (decPush m.pipe (cycle m i)) (exePush m.pipe (cycle m i)) then
        m.reference.read i.timeRt (funct12 i.pipe.ir)
      else m.old := rfl
  rcases Backend.stays_or_loads (t := m.tracked) (i := cycle m i) hv with
    ⟨hl, hv', -, hrd, -⟩ | ⟨hl, hpush, hrd⟩
  · have hno : ¬ m.pipe.dec2exe.loads (decPush m.pipe (cycle m i)) (exePush m.pipe (cycle m i)) =
        true := Bool.eq_false_iff.mp hl
    have hrd' : (step m i).pipe.rd = m.pipe.rd := hrd
    rw [hir, if_neg hno] at hcsr ⊢
    rw [hrd'] at hexc ⊢
    rw [hold, if_neg hno]
    exact h.word hv' hexc hcsr
  · have hyes : m.pipe.dec2exe.loads (decPush m.pipe (cycle m i)) (exePush m.pipe (cycle m i)) =
        true := hl
    rw [hir, if_pos hyes] at hcsr ⊢
    have hrd' : (step m i).pipe.rd = Backend.decWord m.pipe (cycle m i) := hrd
    cases hx : (cycle m i).exceptionSm with
    | true =>
      rw [hx, if_pos rfl] at hcsr
      exact absurd hcsr (by decide)
    | false =>
      rw [hx, if_neg Bool.false_ne_true] at hcsr
      rw [if_neg Bool.false_ne_true, hrd', hold, if_pos hyes, ← csrRdataSc_eq h hx hpush hcsr]
      exact csrWord_decWord hx hcsr h.zero

theorem zero_step (h : Inv m) : (step m i).pipe.registers.read 0 = 0 := by
  have hregs : (step m i).pipe.registers = if Backend.wenable m.pipe then
      m.pipe.registers.write (Backend.regOf m.pipe.rm.dest)
        (Backend.wbkSig m.pipe).wdataSw else m.pipe.registers := rfl
  rw [hregs]
  split_ifs
  · rw [Registers.read_zero_write]
    exact h.zero
  · exact h.zero

theorem inv_step (h : Inv m) (hs : Sound m i) : Inv (step m i) where
  forwarding := Backend.inv_step h.forwarding hs.1 (cycle m i)
  latched := Core.latched_step h.latched
  zero := zero_step h
  word := word_step h
  agrees := agrees_step h hs
  shown hv hcsr _ := shown_step h hs hv hcsr
  port := port_step h hs

/-! ### Whole runs -/

theorem follows_of_sound (h : Inv m) (hs : Sound m i) : Follows m i := by
  refine ⟨?_, ?_, ?_⟩
  · intro hp
    obtain ⟨hword, hres, -, hwb⟩ := dinSe_of_pushesCsr h hs hp
    obtain ⟨-, hwen, hwadr, hrdata, -⟩ := Backend.dinSe_of_not_trap (s := m.pipe) hp.1.2.1
    have hdest := Backend.dest_dinSe m.pipe (cycle m i)
    rw [hp.1.2.1, if_neg Bool.false_ne_true] at hdest
    exact ⟨hwen.trans hword.csrWenable, hwadr.trans hword.csrWadr, hres,
      hdest.trans hword.dest, hwb, hrdata.trans hword.csrRdata⟩
  · intro hw k hk
    have hx := hs.2.2.1 hw
    unfold waits at hw
    simp only [Bool.and_eq_true] at hw
    exact (Csr.written_iff _ hk _).mp (written_step h hs hx hw.1.2)
  · intro hwen hcsr hdest
    have hregs := Backend.registers_step (s := m.pipe) (i := cycle m i) hs.1 hdest
    refine hregs.trans ?_
    rw [Backend.committed, hwen, beq_self_eq_true, Bool.true_and, if_pos rfl, Backend.wdata, hcsr,
      if_pos rfl]

/-- Along every run with sound sources in which nothing takes a CSR write away, every CSR
instruction writes what the reference writes, and its destination receives the old value. -/
theorem each_follows (procId : BitVec 32) (is : List Core.Cycle)
    (h : Run.Each Sound step (reset procId) is) : Run.Each Follows step (reset procId) is :=
  Run.each_of_inv (fun _ _ => follows_of_sound) (fun _ _ => inv_step) (inv_reset procId) h

/-- A cycle with the word in IF2DEC. -/
def fetched (ir : BitVec 32) : Core.Cycle :=
  { (default : Core.Cycle) with pipe := { (default : Backend.Cycle) with ir := ir } }

/-- `csrrwi x0, mscratch, 7`, `csrrs x5, mscratch, x0` and `csrrc x8, mscratch, x5`, each of
which waits in DEC for the one before. -/
def clearBits : List Core.Cycle :=
  [fetched 0x3403D073, fetched 0x340022F3, fetched 0x340022F3, fetched 0x340022F3,
    fetched 0x3402B473, fetched 0x3402B473, fetched 0x3402B473, fetched 0x3402B473]

theorem each_follows_set : Run.Each Follows step (reset 0) (clearBits.take 7) :=
  each_follows 0 _ (by decide +kernel)

/-- EXE2MEM still shows `csrrs` when `csrrc` is in EXE: its old value is taken without the
complement, and `csrrc` writes 7 and not 0. -/
theorem not_follows_clearBits : ¬ Run.Each Follows step (reset 0) clearBits := by
  decide +kernel

end Zicsr

end RiVerSoC
