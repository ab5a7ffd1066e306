/-
The kernel address.

EXE compares the address of a load or a store with the kernel address, DEC that of the next
fetch; both let user mode reach the kernel address itself.  The size of the access and the kernel
address do not wake `select_exec_res`: an access that differs from the one before in these only
is not looked at, and has its flags.

* `Protected` — a request is aligned and, in user mode, below the kernel address; any other
  access, and any redirect of user mode that leaves its memory, raises an exception;
* `Inv` — the request in MEM was allowed when EXE checked it, and the mode and the kernel
  address are still those of the check;
* `Guarded` — user mode does not touch the kernel address itself, and EXE looks at every access,
  but for those that need no refusal or get the one of the access before;
* `each_protected_iff` — a run is protected exactly when it is guarded in each of its cycles.
-/
import RiVerSoC.AccessDecode
import RiVerSoC.PcInc

namespace RiVerSoC

namespace Protection

open Access
open RiVerSoC.Core (memInputs memOut)
open Backend (decPush exePush memPush decWord exeSig)
open Front (State Cycle)

/-- An access of the mode may be made, where the memory of the kernel starts at `kernel`. -/
structure Allowed (mode : BitVec 2) (kernel : BitVec 32) (memSize : BitVec 2) (a : BitVec 32) :
    Prop where
  aligned : a.toNat % bytes memSize = 0
  below : mode = 0 → a < kernel

instance (mode : BitVec 2) (kernel : BitVec 32) (memSize : BitVec 2) (a : BitVec 32) :
    Decidable (Allowed mode kernel memSize a) :=
  decidable_of_iff (a.toNat % bytes memSize = 0 ∧ (mode = 0 → a < kernel))
    ⟨fun h => ⟨h.1, h.2⟩, fun h => ⟨h.aligned, h.below⟩⟩

variable (s : State) (i : Cycle)

/-- The start of the kernel. -/
def kernel (c : Core.State) : BitVec 32 := c.file.get Csr.kernelAdr

/-- The mode of the cycle. -/
def mode : BitVec 2 := (memOut s.core i.core).currentModeSm

/-- The cycle as the stages see it. -/
def cycle : Backend.Cycle := Core.cycle s.core (Front.cycle s i)

/-- EXE hands a load or a store on to MEM. -/
def PushesAccess : Prop :=
  exePush s.core.pipe (cycle s i) = true ∧ (cycle s i).exceptionSm = false ∧
    accesses s.core.pipe.rd = true

/-- DEC redirects the fetch, in user mode. -/
def RedirectsUser : Prop :=
  (cycle s i).exceptionSm = false ∧ mode s i = 0 ∧ (Front.signals s i).writePcEnable = true

/-- The access in EXE may be made. -/
def MayAccess : Prop :=
  Allowed (mode s i) (kernel s.core) s.core.pipe.rd.memSize (adr s.core.pipe (cycle s i))

/-- User mode accesses the kernel address itself. -/
def AtKernel : Prop :=
  mode s i = 0 ∧ (adr s.core.pipe (cycle s i)).toNat % bytes s.core.pipe.rd.memSize = 0 ∧
    adr s.core.pipe (cycle s i) = kernel s.core

instance : Decidable (PushesAccess s i) := inferInstanceAs (Decidable (_ ∧ _))

instance : Decidable (MayAccess s i) := inferInstanceAs (Decidable (Allowed _ _ _ _))

instance : Decidable (AtKernel s i) := inferInstanceAs (Decidable (_ ∧ _))

instance : Decidable (RedirectsUser s i) := inferInstanceAs (Decidable (_ ∧ _))

/-- The memory is protected in the cycle. -/
def Protected : Prop :=
  (requests s.core.pipe.re = true →
    Allowed (mode s i) (kernel s.core) s.core.pipe.re.memSize s.core.pipe.re.exeRes) ∧
  (PushesAccess s i → ¬ MayAccess s i →
    requests (exeSig s.core.pipe (cycle s i)).exe2memDinSe = false ∧
      (exeSig s.core.pipe (cycle s i)).exe2memDinSe.exception = true) ∧
  (RedirectsUser s i → kernel s.core ≤ (Front.signals s i).writePc →
    ((Front.signals s i).instructionAccessFault ||
      (Front.signals s i).instructionAdressMissaligned) = true ∧
    (decPush s.core.pipe (cycle s i) = true →
      (decWord s.core.pipe (cycle s i)).exception = true))

/-- An access without another exception that EXE looks at is not one of user mode to the kernel
address itself; one that it does not look at may be made, or the access before was refused.  No
aligned redirect of user mode goes to the kernel address itself. -/
def Guarded : Prop :=
  (PushesAccess s i → s.core.pipe.rd.exception = false →
    if Checked s.core.pipe (cycle s i) then ¬ AtKernel s i
    else MayAccess s i ∨ s.core.pipe.exe.sig.res.flagged = true) ∧
  (RedirectsUser s i → (Front.signals s i).writePc.toNat % 4 = 0 →
    (Front.signals s i).writePc ≠ kernel s.core)

instance : Decidable (Protected s i) := inferInstanceAs (Decidable (_ ∧ _))

instance : Decidable (Guarded s i) := inferInstanceAs (Decidable (_ ∧ _))

/-! ### The invariant -/

/-- What holds in every cycle of a run. -/
structure Inv (c : Core.State) : Prop where
  latched : Core.Latched c
  word : accesses c.pipe.rd = true → AccessWord c.pipe.rd
  exception : c.pipe.re.exception = true → requests c.pipe.re = false
  csr : requests c.pipe.re = true → c.pipe.re.csrWenable = false
  /-- No access is behind a CSR instruction in MEM. -/
  behind : c.pipe.exe2mem.v = true → c.pipe.re.csrWenable = true → c.pipe.dec2exe.v = true →
    accesses c.pipe.rd = false
  /-- A write of the kernel address that EXE2MEM only shows any more has been made. -/
  shown : c.pipe.exe2mem.v = false → c.pipe.re.csrWenable = true →
    Csr.writeIndex c.pipe.re.csrWadr = some Csr.kernelAdr → kernel c = c.pipe.re.exeRes
  portWritten : Core.PortWritten c

/-- The access in MEM is allowed. -/
def Granted (c : Core.State) : Prop :=
  requests c.pipe.re = true →
    Allowed c.mem.currentModeSm (kernel c) c.pipe.re.memSize c.pipe.re.exeRes

theorem inv_reset (procId pcInit : BitVec 32) : Inv (Front.reset procId pcInit).core where
  latched := Core.latched_reset procId
  word h := absurd h Bool.false_ne_true
  exception h := absurd h Bool.false_ne_true
  csr h := absurd h Bool.false_ne_true
  behind h := absurd h Bool.false_ne_true
  shown _ h := absurd h Bool.false_ne_true
  portWritten := Core.portWritten_reset procId

theorem granted_reset (procId pcInit : BitVec 32) : Granted (Front.reset procId pcInit).core :=
  fun h => absurd h Bool.false_ne_true

variable {s i}

/-! ### The kernel address and the mode -/

theorem not_saved_kernelAdr : ¬ Csr.savedAtTrap Csr.kernelAdr := by
  unfold Csr.savedAtTrap
  decide

theorem kernel_step : kernel (Front.step s i).core =
    if (memOut s.core i.core).port.csrEnableSm = true ∧
      Csr.writeIndex (memOut s.core i.core).port.csrWadrSm = some Csr.kernelAdr then
      (memOut s.core i.core).port.csrWdataSm else kernel s.core :=
  Csr.get_clock_of_not_saved _ _ _ _ _ not_saved_kernelAdr

/-- The write port of a trap writes what is there. -/
theorem kernel_of_trap (h : Inv s.core) (hx : (memOut s.core i.core).exceptionSm = true) :
    kernel (Front.step s i).core = kernel s.core := by
  rw [kernel_step, Core.port_of_trap hx]
  split_ifs with hport
  · exact (h.portWritten hport.1 _ hport.2 not_saved_kernelAdr).symm
  · rfl

/-- Without a trap, the kernel address changes by the word in EXE2MEM only. -/
theorem kernel_of_not_trap (h : Inv s.core) (hx : (memOut s.core i.core).exceptionSm = false) :
    kernel (Front.step s i).core =
      if s.core.pipe.re.csrWenable = true ∧
        Csr.writeIndex s.core.pipe.re.csrWadr = some Csr.kernelAdr then s.core.pipe.re.exeRes
      else kernel s.core := by
  obtain ⟨-, hport⟩ := Core.memOut_of_not_trap h.latched hx
  rw [kernel_step, hport, Mem.writePort]
  cases s.core.pipe.re.csrWenable with
  | true => rfl
  | false =>
    rw [if_neg Bool.false_ne_true, if_neg (fun hn => Bool.false_ne_true hn.1),
      if_neg (fun hn => Bool.false_ne_true hn.1)]

/-- The mode becomes user mode by an `mret` only. -/
theorem mode_eq_zero (hmode : mode s i = 0) :
    s.core.mem.currentModeSm = 0 ∨ s.core.pipe.re.exception = true := by
  unfold mode memOut Mem.outputs at hmode
  split_ifs at hmode
  · exact .inl hmode
  · rcases Mem.currentModeSm_settle (memInputs s.core i.core) s.core.mem with h | h | h
    · exact .inl (h.symm.trans hmode)
    · exact absurd (h.symm.trans hmode) (by decide)
    · exact .inr h.1

/-! ### Steps -/

theorem exe2mem_cases (s : State) (i : Cycle) :
    ((cycle s i).exceptionSm = false ∧ exePush s.core.pipe (cycle s i) = true ∧
      (Front.step s i).core.pipe.exe2mem = ⟨(exeSig s.core.pipe (cycle s i)).exe2memDinSe, true⟩) ∨
    ((cycle s i).exceptionSm = true ∧
      ∃ pc, (Front.step s i).core.pipe.exe2mem = ⟨Exe.trapWord pc, true⟩) ∨
    ((cycle s i).exceptionSm = true ∧
      (Front.step s i).core.pipe.exe2mem = s.core.pipe.exe2mem ∧ s.core.pipe.exe2mem.v = true) ∨
    ((cycle s i).exceptionSm = false ∧ exePush s.core.pipe (cycle s i) = false ∧
      (Front.step s i).core.pipe.exe2mem.dout = s.core.pipe.exe2mem.dout ∧
      (Front.step s i).core.pipe.exe2mem.v =
        (s.core.pipe.exe2mem.v && !memPush s.core.pipe (cycle s i))) :=
  Backend.exe2mem_cases s.core.pipe (cycle s i)

theorem dec2exe_cases (s : State) (i : Cycle) :
    (decPush s.core.pipe (cycle s i) = true ∧
      (Front.step s i).core.pipe.dec2exe = ⟨decWord s.core.pipe (cycle s i), true⟩) ∨
    ((cycle s i).exceptionSm = false ∧ decPush s.core.pipe (cycle s i) = false ∧
      (Front.step s i).core.pipe.dec2exe.dout = s.core.pipe.dec2exe.dout ∧
      (Front.step s i).core.pipe.dec2exe.v =
        (s.core.pipe.dec2exe.v && !exePush s.core.pipe (cycle s i))) :=
  Backend.dec2exe_cases s.core.pipe (cycle s i)

theorem word_step (h : Inv s.core)
    (hacc : accesses (Front.step s i).core.pipe.dec2exe.dout = true) :
    AccessWord (Front.step s i).core.pipe.dec2exe.dout := by
  rcases dec2exe_cases s i with ⟨-, hrd⟩ | ⟨-, -, hrd, -⟩
  · rw [hrd] at hacc ⊢
    exact accessWord_decWord hacc
  · rw [hrd] at hacc ⊢
    exact h.word hacc

theorem requests_trapWord (pc : BitVec 32) : requests (Exe.trapWord pc) = false := rfl

theorem exception_step (h : Inv s.core)
    (hexc : (Front.step s i).core.pipe.exe2mem.dout.exception = true) :
    requests (Front.step s i).core.pipe.exe2mem.dout = false := by
  rcases exe2mem_cases s i with ⟨hx, -, hmem⟩ | ⟨-, pc, hmem⟩ | ⟨-, hmem, -⟩ | ⟨-, -, hre, -⟩
  · rw [hmem] at hexc ⊢
    exact requests_of_exception hx hexc
  · rw [hmem]
    exact requests_trapWord _
  · rw [hmem] at hexc ⊢
    exact h.exception hexc
  · rw [hre] at hexc ⊢
    exact h.exception hexc

/-- What EXE hands on as a request is a load or a store without an exception. -/
theorem access_of_requests (hx : (cycle s i).exceptionSm = false)
    (hreq : requests (exeSig s.core.pipe (cycle s i)).exe2memDinSe = true) :
    accesses s.core.pipe.rd = true ∧ s.core.pipe.rd.exception = false := by
  obtain ⟨-, -, -, h⟩ := dinSe_eq (s := s.core.pipe) hx
  rw [h] at hreq
  obtain ⟨hexc, hacc⟩ := Bool.and_eq_true_iff.mp hreq
  rw [Bool.not_eq_true', Bool.or_eq_false_iff] at hexc
  exact ⟨hacc, hexc.1⟩

theorem csr_step (h : Inv s.core)
    (hreq : requests (Front.step s i).core.pipe.exe2mem.dout = true) :
    (Front.step s i).core.pipe.exe2mem.dout.csrWenable = false := by
  rcases exe2mem_cases s i with ⟨hx, -, hmem⟩ | ⟨-, pc, hmem⟩ | ⟨-, hmem, -⟩ | ⟨-, -, hre, -⟩
  · rw [hmem] at hreq ⊢
    obtain ⟨-, hwen, -⟩ := Backend.dinSe_of_not_trap (s := s.core.pipe) hx
    exact hwen.trans (h.word (access_of_requests hx hreq).1).csrWenable
  · rw [hmem, requests_trapWord] at hreq
    exact absurd hreq Bool.false_ne_true
  · rw [hmem] at hreq ⊢
    exact h.csr hreq
  · rw [hre] at hreq ⊢
    exact h.csr hreq

theorem behind_step (h : Inv s.core) (hv : (Front.step s i).core.pipe.exe2mem.v = true)
    (hcsr : (Front.step s i).core.pipe.exe2mem.dout.csrWenable = true)
    (hv' : (Front.step s i).core.pipe.dec2exe.v = true) :
    accesses (Front.step s i).core.pipe.dec2exe.dout = false := by
  rcases dec2exe_cases s i with ⟨hdec, hrd⟩ | ⟨hx, -, hrd, hvrd⟩
  · rw [hrd]
    cases hx : (cycle s i).exceptionSm with
    | true =>
      rw [Backend.decWord_of_exceptionSm hx]
      rfl
    | false =>
      -- a CSR instruction in EXE or in MEM keeps DEC from pushing
      exfalso
      obtain ⟨hexe, hmem⟩ := Backend.not_csr_of_decPush (s := s.core.pipe) hx hdec
      rcases exe2mem_cases s i with ⟨-, hpush, hre⟩ | ⟨hx', -⟩ | ⟨hx', -⟩ | ⟨-, -, hre, hvre⟩
      · rw [hre] at hcsr
        obtain ⟨-, hwen, -⟩ := Backend.dinSe_of_not_trap (s := s.core.pipe) hx
        rw [← hwen, hcsr, Backend.v_of_exePush hx hpush] at hexe
        exact Bool.false_ne_true hexe.symm
      · exact Bool.false_ne_true (hx.symm.trans hx')
      · exact Bool.false_ne_true (hx.symm.trans hx')
      · rw [hvre] at hv
        rw [hre] at hcsr
        rw [hcsr, (Bool.and_eq_true_iff.mp hv).1] at hmem
        exact Bool.false_ne_true hmem.symm
  · rw [hvrd] at hv'
    obtain ⟨hvold, hpush⟩ := Bool.and_eq_true_iff.mp hv'
    rw [Bool.not_eq_true'] at hpush
    rw [hrd]
    rcases exe2mem_cases s i with ⟨-, hpush', -⟩ | ⟨hx', -⟩ | ⟨hx', -⟩ | ⟨-, -, hre, hvre⟩
    · exact absurd (hpush.symm.trans hpush') Bool.false_ne_true
    · exact absurd (hx.symm.trans hx') Bool.false_ne_true
    · exact absurd (hx.symm.trans hx') Bool.false_ne_true
    · rw [hvre] at hv
      rw [hre] at hcsr
      exact h.behind (Bool.and_eq_true_iff.mp hv).1 hcsr hvold

theorem shown_step (h : Inv s.core) (hv : (Front.step s i).core.pipe.exe2mem.v = false)
    (hcsr : (Front.step s i).core.pipe.exe2mem.dout.csrWenable = true)
    (hadr : Csr.writeIndex (Front.step s i).core.pipe.exe2mem.dout.csrWadr = some Csr.kernelAdr) :
    kernel (Front.step s i).core = (Front.step s i).core.pipe.exe2mem.dout.exeRes := by
  rcases exe2mem_cases s i with ⟨-, -, hmem⟩ | ⟨-, pc, hmem⟩ | ⟨-, hmem, hv'⟩ | ⟨hx, -, hre, -⟩
  · rw [hmem] at hv
    exact absurd hv.symm Bool.false_ne_true
  · rw [hmem] at hv
    exact absurd hv.symm Bool.false_ne_true
  · rw [hmem, hv'] at hv
    exact absurd hv.symm Bool.false_ne_true
  · rw [hre] at hcsr hadr ⊢
    rw [kernel_of_not_trap h hx, if_pos ⟨hcsr, hadr⟩]

theorem inv_step (h : Inv s.core) : Inv (Front.step s i).core where
  latched := Core.latched_step h.latched
  word := word_step h
  exception := exception_step h
  csr := csr_step h
  behind := behind_step h
  shown := shown_step h
  portWritten := Core.portWritten_step

theorem granted_step (h : Inv s.core) (hp : Protected s i) : Granted (Front.step s i).core := by
  obtain ⟨hmem, hexe, -⟩ := hp
  have hmode : (Front.step s i).core.mem.currentModeSm = mode s i := rfl
  intro hreq
  rw [hmode]
  rcases exe2mem_cases s i with ⟨hx, hpush, hre⟩ | ⟨-, pc, hre⟩ | ⟨hx, hre, -⟩ | ⟨hx, -, hre, -⟩
  · rw [Backend.State.re, hre] at hreq ⊢
    obtain ⟨hacc, hexc⟩ := access_of_requests hx hreq
    obtain ⟨hres, hsize, -⟩ := dinSe_of_access hx (h.word hacc) hacc hexc
    -- the kernel address is not being written
    have hkernel : kernel (Front.step s i).core = kernel s.core := by
      rw [kernel_of_not_trap h hx]
      split_ifs with hwrite
      · cases hv : s.core.pipe.exe2mem.v with
        | true =>
          have hno := h.behind hv hwrite.1 (Backend.v_of_exePush hx hpush)
          exact absurd (hno.symm.trans hacc) Bool.false_ne_true
        | false => exact (h.shown hv hwrite.1 hwrite.2).symm
      · rfl
    change Allowed (mode s i) (kernel (Front.step s i).core)
      (exeSig s.core.pipe (cycle s i)).exe2memDinSe.memSize
      (exeSig s.core.pipe (cycle s i)).exe2memDinSe.exeRes
    rw [hkernel, hres, hsize]
    by_contra hno
    have hsuppressed := (hexe ⟨hpush, hx, hacc⟩ hno).1
    exact Bool.false_ne_true (hsuppressed.symm.trans hreq)
  · rw [Backend.State.re, hre] at hreq
    exact absurd hreq Bool.false_ne_true
  · rw [Backend.State.re, hre] at hreq ⊢
    rw [kernel_of_trap h hx]
    exact hmem hreq
  · rw [Backend.State.re, hre] at hreq ⊢
    rw [kernel_of_not_trap h hx, h.csr hreq, if_neg (fun hn => Bool.false_ne_true hn.1)]
    exact hmem hreq

/-! ### One cycle -/

/-- The request in MEM is allowed. -/
theorem allowed_of_granted (h : Inv s.core) (hg : Granted s.core)
    (hreq : requests s.core.pipe.re = true) :
    Allowed (mode s i) (kernel s.core) s.core.pipe.re.memSize s.core.pipe.re.exeRes := by
  refine ⟨(hg hreq).aligned, ?_⟩
  intro hmode
  rcases mode_eq_zero hmode with hold | hexc
  · exact (hg hreq).below hold
  · exact absurd ((h.exception hexc).symm.trans hreq) Bool.false_ne_true

/-- EXE refuses what it looks at and may not be made, but for the kernel address itself. -/
theorem refused_iff (hc : Checked s.core.pipe (cycle s i)) :
    refused s.core.pipe (cycle s i) = true ↔ ¬ MayAccess s i ∧ ¬ AtKernel s i := by
  have hfault : Exe.accessFault (Backend.exeInputs s.core.pipe (cycle s i))
      (adr s.core.pipe (cycle s i)) = true ↔
      mode s i = 0 ∧ kernel s.core < adr s.core.pipe (cycle s i) := by
    change (mode s i == 0 && decide (kernel s.core < _)) = true ↔ _
    rw [Bool.and_eq_true, beq_iff_eq, decide_eq_true_iff]
  have hallowed : MayAccess s i ↔
      (adr s.core.pipe (cycle s i)).toNat % bytes s.core.pipe.rd.memSize = 0 ∧
        (mode s i = 0 → adr s.core.pipe (cycle s i) < kernel s.core) :=
    ⟨fun h => ⟨h.aligned, h.below⟩, fun h => ⟨h.1, h.2⟩⟩
  rw [refused, if_pos hc, Bool.or_eq_true, missaligned_iff, hfault, hallowed, AtKernel]
  generalize adr s.core.pipe (cycle s i) = a
  generalize kernel s.core = k
  by_cases hal : a.toNat % bytes s.core.pipe.rd.memSize = 0
  · by_cases hm : mode s i = 0
    · simp only [hal, hm, ne_eq, not_true_eq_false, false_or, true_and, forall_const]
      simp only [BitVec.lt_def, ← BitVec.toNat_inj]
      omega
    · exact iff_of_false (fun h => h.elim (fun h => h hal) (fun h => hm h.1))
        (fun h => h.1 ⟨hal, fun h0 => absurd h0 hm⟩)
  · simp [hal]

theorem not_mayAccess_of_atKernel (h : AtKernel s i) : ¬ MayAccess s i := by
  intro hmay
  have hlt := hmay.below h.1
  rw [h.2.2] at hlt
  exact absurd hlt (BitVec.lt_irrefl _)

/-- EXE refuses every access that may not be made exactly when it is guarded. -/
theorem refuses_iff (s : State) (i : Cycle) :
    (¬ MayAccess s i → refused s.core.pipe (cycle s i) = true) ↔
      if Checked s.core.pipe (cycle s i) then ¬ AtKernel s i
      else MayAccess s i ∨ s.core.pipe.exe.sig.res.flagged = true := by
  split_ifs with hc
  · rw [refused_iff hc]
    exact ⟨fun h hat => (h (not_mayAccess_of_atKernel hat)).2 hat, fun h hno => ⟨hno, h⟩⟩
  · rw [refused, if_neg hc]
    exact Decidable.or_iff_not_imp_left.symm

/-- DEC flags what leaves the memory of user mode, but for the kernel address itself. -/
theorem fault_iff (h : RedirectsUser s i) :
    ((Front.signals s i).instructionAccessFault ||
      (Front.signals s i).instructionAdressMissaligned) = true ↔
      kernel s.core < (Front.signals s i).writePc ∨ (Front.signals s i).writePc.toNat % 4 ≠ 0 := by
  obtain ⟨hx, hmode, -⟩ := h
  have hsignals : Front.signals s i = Pc.withoutTrap (Front.pcInputs s i) :=
    if_neg (by
      rw [show (Front.pcInputs s i).exceptionSm = false from hx]
      exact Bool.false_ne_true)
  have hmode' : (Front.pcInputs s i).currentMode = 0 := hmode
  rw [hsignals, Bool.or_eq_true]
  change (decide (kernel s.core < _) && (Front.pcInputs s i).currentMode != 3) = true ∨
    (_ &&& 3 != 0) = true ↔ _
  rw [hmode', Bool.and_eq_true, decide_eq_true_iff, bne_iff_ne, bne_iff_ne, ne_eq,
    ne_eq, and_three_eq_zero]
  exact or_congr_left (and_iff_left (by decide))

/-- A flagged redirect makes an exception of the instruction. -/
theorem exception_of_fault (h : RedirectsUser s i)
    (hfault : ((Front.signals s i).instructionAccessFault ||
      (Front.signals s i).instructionAdressMissaligned) = true) :
    (decWord s.core.pipe (cycle s i)).exception = true :=
  Backend.exception_decWord h.1 hfault

/-- The cycle is protected exactly when it is guarded. -/
theorem protected_iff (h : Inv s.core) (hg : Granted s.core) :
    Protected s i ↔ Guarded s i := by
  constructor
  · rintro ⟨-, hexe, hdec⟩
    refine ⟨?_, ?_⟩
    · intro hp hexc
      obtain ⟨-, -, hrefused, -⟩ := dinSe_of_access hp.2.1 (h.word hp.2.2) hp.2.2 hexc
      exact (refuses_iff s i).mp fun hno => hrefused.symm.trans (hexe hp hno).2
    · intro hr hal heq
      have hfault := (hdec hr (by rw [heq]; exact BitVec.le_refl _)).1
      rcases (fault_iff hr).mp hfault with hlt | hmis
      · rw [heq] at hlt
        exact absurd hlt (BitVec.lt_irrefl _)
      · exact hmis hal
  · rintro ⟨hexe, hdec⟩
    refine ⟨allowed_of_granted h hg, ?_, ?_⟩
    · intro hp hno
      cases hexc : s.core.pipe.rd.exception with
      | true =>
        -- an exception of DEC takes the request away as well
        obtain ⟨-, -, hexception, -⟩ := dinSe_eq (s := s.core.pipe) hp.2.1
        rw [hexc, Bool.true_or] at hexception
        exact ⟨requests_of_exception hp.2.1 hexception, hexception⟩
      | false =>
        obtain ⟨-, -, hexception, hreq⟩ := dinSe_of_access hp.2.1 (h.word hp.2.2) hp.2.2 hexc
        have hrefused := (refuses_iff s i).mpr (hexe hp hexc) hno
        rw [hrefused] at hexception hreq
        exact ⟨hreq, hexception⟩
    · intro hr hle
      have hfault := (fault_iff hr).mpr (by
        by_cases hal : (Front.signals s i).writePc.toNat % 4 = 0
        · have hne := hdec hr hal
          rw [ne_eq, ← BitVec.toNat_inj] at hne
          rw [BitVec.le_def] at hle
          exact .inl (BitVec.lt_def.mpr (by omega))
        · exact .inr hal)
      exact ⟨hfault, fun _ => exception_of_fault hr hfault⟩

/-! ### Whole runs -/

/-- A run is protected exactly when it is guarded in each of its cycles. -/
theorem each_protected_iff (procId pcInit : BitVec 32) (is : List Cycle) :
    Run.Each Protected Front.step (Front.reset procId pcInit) is ↔
      Run.Each Guarded Front.step (Front.reset procId pcInit) is :=
  Run.each_iff_each (fun s => Inv s.core ∧ Granted s.core) (fun _ _ h => protected_iff h.1 h.2)
    (fun _ _ h hp => ⟨inv_step h.1, granted_step h.1 hp⟩)
    ⟨inv_reset procId pcInit, granted_reset procId pcInit⟩

/-- A cycle with a word in IF2DEC, and a fetch that waits. -/
def waiting (ir : BitVec 32) : Cycle :=
  { (default : Cycle) with
    core := { (default : Core.Cycle) with pipe := { (default : Backend.Cycle) with ir := ir } }
    dec2ifFull := true }

/-- `csrrwi x0, 0x800, 16`, `mret`, and then `lw x1, 16(x0)` in user mode. -/
def boundaryLoad : List Cycle :=
  [0x80085073, 0x30200073, 0x30200073, 0x30200073, 0x13, 0x13, 0x01002083, 0x13].map waiting

theorem not_protected_boundaryLoad :
    ¬ Run.Each Protected Front.step (Front.reset 0 0) boundaryLoad := by
  decide +kernel

/-- `lb x1, 1(x0)`, and then `lw x1, 1(x0)`, which nothing makes EXE look at. -/
def wordBehindByte : List Cycle :=
  [0x13, 0x00100083, 0x00102083, 0x13, 0x13].map waiting

theorem not_protected_wordBehindByte :
    ¬ Run.Each Protected Front.step (Front.reset 0 0) wordBehindByte := by
  decide +kernel

end Protection

end RiVerSoC
