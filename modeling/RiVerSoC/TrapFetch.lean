/-
From a trap to its handler.

In the cycle of a trap the fetch stage puts a `nop` into IF2DEC, and `pc_inc` the address of
the handler into DEC2IF.

* `Watches` — the fetch stage sees the trap, and then what the FIFOs do;
* `Waits` — nothing is in flight but what does nothing, and the next fetch is at the address;
* `waits_of_trap`, `waits_step` — this holds from the trap until DEC pushes an instruction;
* `pc_of_issues` — and that instruction is the one at the address.
-/
import RiVerSoC.AccessDecode
import RiVerSoC.Numbered

namespace RiVerSoC

namespace TrapFetch

open Backend (decPush exePush memPush decWord exeSig decSig)
open Cpu (Cycle signals_of_not_trap stallSd_pcInputs)
open Numbered (Machine step trap issues vector accesses cycle Idle IsNop)

variable (m : Machine) (i : Cycle)

/-- `fetch_method` has read the signals of the cycle, and nothing is predicted. -/
def Sees : Prop := Cpu.seen m.cpu i = Cpu.unlisted m.cpu i ∧ (i.pbTaken && i.predMiss) = false

/-- The fetch stage sees a trap, and after a trap what the FIFOs do, until DEC has an instruction
again. -/
def Watches : Prop :=
  (trap m i = true → (Cpu.seen m.cpu i).exceptionSm = true) ∧
    (trap m i = false → m.awaiting.isSome = true → Sees m i)

instance : Decidable (Sees m i) := inferInstanceAs (Decidable (_ ∧ _))

instance : Decidable (Watches m i) := inferInstanceAs (Decidable ((_ → _) ∧ (_ → _ → _)))

/-- The instruction at the address has still to be fetched. -/
structure Unfetched (s : Cpu.State) (v : BitVec 32) : Prop where
  dec2if : s.dec2if.v = true ∧ s.dec2if.dout.pc = v
  pc : s.front.pc = v
  if2dec : s.if2dec.dout.nop = true

/-- The instruction at the address is the one in IF2DEC. -/
structure InIf2Dec (s : Cpu.State) (v : BitVec 32) : Prop where
  valid : s.if2dec.v = true
  nop : s.if2dec.dout.nop = false
  pc : s.if2dec.dout.pc = v

/-- The mode may fetch the instruction at the address, and the one behind it. -/
structure Fetchable (mode : BitVec 2) (kernelAdr v : BitVec 32) : Prop where
  aligned : v.toNat % 4 = 0
  reach : mode = 3 ∨ v.toNat + 4 ≤ kernelAdr.toNat

/-- The core waits for the instruction at the address. -/
structure Waits (s : Cpu.State) (v : BitVec 32) : Prop where
  fetchable : Fetchable s.front.core.mem.currentModeSm (s.front.core.file.get Csr.kernelAdr) v
  csr : s.pipe.re.csrWenable = false
  idle : Idle s.pipe.rd
  rd : s.pipe.rd.exception = false
  re : s.pipe.re.exception = false
  place : Unfetched s v ∨ InIf2Dec s v

/-- A trap does not leave an exception in MEM. -/
def Over (m : Machine) : Prop :=
  m.cpu.front.core.mem.exceptionSm = true → m.pipe.re.exception = false

/-- What holds in every cycle. -/
structure Inv (m : Machine) : Prop where
  base : Numbered.Inv m
  isOver : Over m
  waits : ∀ v ∈ m.awaiting, Waits m.cpu v

theorem inv_reset (procId pcInit : BitVec 32) : Inv (Numbered.reset procId pcInit) where
  base := Numbered.inv_reset procId pcInit
  isOver _ := rfl
  waits _ h := absurd h (Option.not_mem_none _)

/-! ### Signals of a cycle without a trap -/

section Signals

variable {s : Cpu.State} {i : Cycle}

theorem shown_of_seen (hx : Cpu.exceptionSm s i = false) (h : Cpu.seen s i = Cpu.unlisted s i) :
    Cpu.shown s i = s.if2dec.dout := by
  have hexc : (Cpu.seen s i).exceptionSm = false := by rw [h]; exact hx
  have hout : (Cpu.seen s i).if2decOut = s.if2dec.dout := by rw [h]; rfl
  change (if (Cpu.seen s i).exceptionSm then s.fetch.shown else (Cpu.seen s i).if2decOut) = _
  rw [hexc, hout]
  rfl

/-- A word that DEC keeps stays in IF2DEC. -/
theorem if2decGestion_of_stall (hx : Cpu.exceptionSm s i = false)
    (hstall : (decSig s.pipe (Cpu.cycle s i)).stallSd = true) :
    Cpu.if2decGestion s i = (false, false) := by
  have hgestion := Cpu.gestion_signals (s := s) (i := i)
  rw [signals_of_not_trap hx] at hgestion
  have hnone : Pc.if2decGestion (Front.pcInputs s.front (Cpu.front s i)) = (false, false) := by
    rw [Pc.if2decGestion, stallSd_pcInputs, hstall, if_pos rfl]
  exact Prod.ext (hgestion.1.symm.trans (congrArg Prod.fst hnone))
    (hgestion.2.symm.trans (congrArg Prod.snd hnone))

/-- What the fetch stage does when it reads the signals of the cycle. -/
theorem fetch_of_seen (hx : Cpu.exceptionSm s i = false) (h : Cpu.seen s i = Cpu.unlisted s i)
    (hflush : (Cpu.if2decGestion s i).2 = false) (hpred : (i.pbTaken && i.predMiss) = false) :
    (Cpu.fetch s i).if2decPush = (Cpu.fetch s i).dec2ifPop ∧
      ((Cpu.fetch s i).if2decPush = true → s.if2dec.isFull (Cpu.if2decGestion s i).1 = false) ∧
      (Cpu.fetch s i).if2decIn.pc = s.dec2if.dout.pc ∧ (Cpu.fetch s i).if2decIn.nop = false := by
  have hexc : (Cpu.fetchInputs s i).exceptionSm = false := by
    change (Cpu.seen s i).exceptionSm = false
    rw [h]
    exact hx
  obtain ⟨hpush, hpop, hin, -⟩ := Ifetch.fetchMethod_of_not_trap s.fetch hexc
  have hfull : (Cpu.fetchInputs s i).if2decFull = s.if2dec.isFull (Cpu.if2decGestion s i).1 := by
    change (Cpu.seen s i).if2decFull = _
    rw [h]
    rfl
  rw [show (Cpu.fetchInputs s i).if2decFlush = false from hflush, Bool.not_false,
    Bool.true_and] at hpush
  rw [show (Cpu.fetchInputs s i).if2decFlush = false from hflush, Bool.false_or] at hpop
  refine ⟨hpush.trans hpop.symm, ?_, ?_, ?_⟩
  · intro hp
    rw [show (Cpu.fetch s i).if2decPush = _ from hpush, Bool.not_eq_true', Ifetch.stall,
      Bool.or_eq_false_iff, Bool.or_eq_false_iff, hfull] at hp
    exact hp.1.2
  · have hpred' : ((Cpu.fetchInputs s i).pbTaken && (Cpu.fetchInputs s i).predMiss) = false := hpred
    rw [show (Cpu.fetch s i).if2decIn = _ from hin, Ifetch.fetchPc, hpred']
    rfl
  · rw [show (Cpu.fetch s i).if2decIn = _ from hin]

end Signals

/-! ### The `nop` in DEC -/

section Nop

variable {s : Cpu.State} {i : Cycle} {v : BitVec 32}

/-- The `nop` does not change the course of the program counter. -/
theorem pc_of_nop (hx : Cpu.exceptionSm s i = false)
    (hir : (Cpu.shown s i).instr = Ifetch.nopEncoding) (htarget : (Cpu.shown s i).predTarget = 0) :
    Pc.redirects (Front.pcInputs s.front (Cpu.front s i)) =
        !s.dec2if.isFull (Cpu.fetch s i).dec2ifPop ∧
      (Cpu.if2decGestion s i).2 = false ∧
      (Pc.pcOut (Front.pcInputs s.front (Cpu.front s i)) = s.front.pc + 4 ∨
        Pc.pcOut (Front.pcInputs s.front (Cpu.front s i)) = s.front.pc) := by
  have hjump : (Front.pcInputs s.front (Cpu.front s i)).jump = false :=
    (Numbered.decWord_of_nop (s := s.pipe)
      (c := Core.cycle s.front.core (Front.fetched s.front (Cpu.front s i))) hx hir).2.2.1
  have htaken : (Front.pcInputs s.front (Cpu.front s i)).predTaken = false := by
    change (Cpu.shown s i).predTarget.msb = false
    rw [htarget]
    rfl
  have hadd : Pc.addOffsetToPc (Front.pcInputs s.front (Cpu.front s i)) = false := by
    rw [Pc.addOffsetToPc, hjump, Bool.false_and]
  refine ⟨?_, ?_, ?_⟩
  · rw [Pc.redirects, hadd, Bool.not_false, Bool.true_and, Bool.false_and, Bool.false_and,
      Bool.or_false]
    rfl
  · have hgestion := (Cpu.gestion_signals (s := s) (i := i)).2
    rw [signals_of_not_trap hx] at hgestion
    rw [← hgestion]
    change (Pc.if2decGestion _).2 = false
    unfold Pc.if2decGestion
    rw [htaken, hjump, if_neg Bool.false_ne_true]
    split_ifs <;> rfl
  · simp only [Pc.pcOut, hadd, htaken, Bool.not_false, Bool.true_and, Bool.false_and,
      Bool.false_eq_true, if_false]
    split_ifs
    · exact .inl rfl
    · exact .inr rfl

/-- The address behind one that the mode may fetch is no fault. -/
theorem not_fault_of_fetchable {mode : BitVec 2} {kernelAdr pc : BitVec 32}
    (h : Fetchable mode kernelAdr v) (hpc : pc = v + 4 ∨ pc = v) :
    (pc &&& 3 != 0 || decide (kernelAdr < pc) && mode != 3) = false := by
  have h4 : (4 : BitVec 32).toNat = 4 := rfl
  have haligned := h.aligned
  have hpc4 : pc.toNat % 4 = 0 := by
    rcases hpc with rfl | rfl
    · rw [BitVec.toNat_add, h4]
      omega
    · exact haligned
  rw [(Access.and_three_eq_zero pc).mpr hpc4, bne_self_eq_false, Bool.false_or]
  rcases h.reach with hmode | hreach
  · rw [hmode, bne_self_eq_false, Bool.and_false]
  · have hk := kernelAdr.isLt
    have hle : ¬ kernelAdr < pc := by
      rw [BitVec.lt_def]
      rcases hpc with rfl | rfl
      · rw [BitVec.toNat_add, h4, Nat.mod_eq_of_lt (by omega)]
        omega
      · omega
    rw [decide_eq_false hle, Bool.false_and]

/-- The `nop` is no exception. -/
theorem decWord_of_unfetched (hf : Numbered.Fetched s)
    (hebreak : s.pipe.ebreak = true → s.pipe.operation.wb = false) (hw : Waits s v)
    (hu : Unfetched s v) (hx : Cpu.exceptionSm s i = false)
    (h : Cpu.seen s i = Cpu.unlisted s i) :
    Idle (decWord s.pipe (Cpu.cycle s i)) ∧
      (decWord s.pipe (Cpu.cycle s i)).exception = false := by
  obtain ⟨hir, htarget⟩ := hf.if2dec hu.if2dec
  rw [← shown_of_seen hx h] at hir htarget
  obtain ⟨hidle, hexc, -⟩ := Numbered.decWord_of_nop (s := s.pipe) (c := Cpu.cycle s i) hx hir
  refine ⟨hidle, hexc.trans ?_⟩
  obtain ⟨-, -, hpc⟩ := pc_of_nop hx hir htarget
  have hmode : (Front.pcInputs s.front (Cpu.front s i)).currentMode =
      s.front.core.mem.currentModeSm := Core.currentModeSm_of_not_trap hx
  rw [Numbered.ebreakSd_of_nop (c := Cpu.cycle s i) hebreak hx hir, Bool.or_false]
  change ((Cpu.signals s i).instructionAdressMissaligned ||
    (Cpu.signals s i).instructionAccessFault) = false
  rw [signals_of_not_trap hx, Pc.withoutTrap, hmode]
  rw [hu.pc] at hpc
  exact not_fault_of_fetchable hw.fetchable hpc

end Nop

/-! ### The cycle of a trap -/

variable {m i}

theorem rd_of_trap (hx : trap m i = true) :
    (step m i).pipe.rd = Dec.trapWord (Cpu.shown m.cpu i).pc := by
  have hx' : (cycle m i).exceptionSm = true := hx
  have hpipe : (step m i).pipe.rd = (Backend.step m.pipe (cycle m i)).dec2exe.dout := rfl
  rcases Backend.dec2exe_cases m.pipe (cycle m i) with ⟨-, hrd⟩ | ⟨hno, -⟩
  · rw [hpipe, hrd]
    exact Backend.decWord_of_exceptionSm hx'
  · exact absurd (hx'.symm.trans hno) (by decide)

/-- An access may stay in MEM under a trap; it is no exception, and writes no CSR. -/
theorem re_of_trap (h : Numbered.Inv m) (hx : trap m i = true) :
    (step m i).pipe.re.exception = false ∧ (step m i).pipe.re.csrWenable = false ∧
      ((step m i).mem.dout = none ∨ accesses (step m i) = true) := by
  have hx' : (cycle m i).exceptionSm = true := hx
  have hexe : exePush m.pipe (cycle m i) = true := by rw [exePush, hx', Bool.true_or]
  have hpipe : (step m i).pipe.exe2mem = (Backend.step m.pipe (cycle m i)).exe2mem := rfl
  cases hl : m.pipe.exe2mem.loads (exePush m.pipe (cycle m i)) (memPush m.pipe (cycle m i)) with
  | true =>
    have hmem : (step m i).mem = ⟨if trap m i then none else m.dec.dout, true⟩ :=
      Fifo.clock_of_load ((Fifo.loads_congr h.beside.mem).trans hl)
    obtain ⟨pc, hpc⟩ := Backend.dinSe_of_trap (s := m.pipe) hx'
    rw [Backend.State.re, hpipe, Backend.exe2mem_of_loads hl, hpc, hmem, hx]
    exact ⟨rfl, rfl, .inl rfl⟩
  | false =>
    rw [Fifo.loads, hexe, Bool.true_and, Bool.or_eq_false_iff, Bool.not_eq_false'] at hl
    obtain ⟨hpush, hv⟩ := hl
    have hstay : (Backend.step m.pipe (cycle m i)).exe2mem = m.pipe.exe2mem :=
      Fifo.clock_of_stays hv hpush
    have hacc : accesses m = true := by
      by_contra hacc
      rw [Bool.not_eq_true] at hacc
      exact absurd ((Numbered.memPush_of_not_accesses hv hacc).symm.trans hpush) (by decide)
    have hacc' : (m.pipe.re.memLoad || m.pipe.re.memStore) = true := hacc
    rw [accesses, Backend.State.re, hpipe, hstay]
    refine ⟨?_, ?_, .inr hacc⟩
    · by_contra hexc
      rw [Bool.not_eq_false] at hexc
      obtain ⟨-, hload, hstore⟩ := h.words.exception hexc
      rw [hload, hstore] at hacc'
      exact absurd hacc' Bool.false_ne_true
    · by_contra hcsr
      rw [Bool.not_eq_false] at hcsr
      obtain ⟨hload, hstore⟩ := h.words.csrRe hcsr
      rw [hload, hstore] at hacc'
      exact absurd hacc' Bool.false_ne_true

/-- A trap leaves the kernel address alone. -/
theorem kernelAdr_of_trap (h : Numbered.Inv m) (hx : trap m i = true) :
    (step m i).cpu.front.core.file.get Csr.kernelAdr =
      m.cpu.front.core.file.get Csr.kernelAdr := by
  have hsaved : ¬ Csr.savedAtTrap Csr.kernelAdr := by
    unfold Csr.savedAtTrap
    decide
  have hfile : (step m i).cpu.front.core.file = _ := Core.file_of_trap h.portWritten hx
  rw [hfile, Csr.hardware, if_pos rfl, Csr.get_enterTrap_of_not_saved _ _ hsaved]
  split_ifs
  · exact (Csr.File.get_set _ (by decide) _).trans (if_neg (by decide))
  · rfl

/-- The addresses of the handlers are multiples of 4. -/
theorem aligned_of_trapVector {j : Pc.Inputs} {v : BitVec 32} (h : Pc.trapVector j = some v) :
    v.toNat % 4 = 0 := by
  have hbase : (j.mtvec &&& ~~~3).toNat % 4 = 0 := by
    refine (Access.and_three_eq_zero _).mp ?_
    rw [BitVec.and_assoc, show (~~~3 &&& 3 : BitVec 32) = 0 from rfl]
    exact BitVec.and_zero
  unfold Pc.trapVector at h
  split_ifs at h
  · rw [← Option.some.inj h]
    exact hbase
  · rw [← Option.some.inj h, BitVec.toNat_add, BitVec.toNat_shiftLeft, Nat.shiftLeft_eq]
    omega

theorem signals_of_trap (hx : trap m i = true) {v : BitVec 32}
    (hv : Pc.trapTarget (Front.pcInputs m.cpu.front (Cpu.front m.cpu i)) = some v) :
    (Cpu.signals m.cpu i).dec2ifPush = true ∧ (Cpu.signals m.cpu i).resPc = v ∧
      (Cpu.signals m.cpu i).writePcEnable = true ∧ (Cpu.signals m.cpu i).writePc = v ∧
      (Cpu.signals m.cpu i).if2decPop = true := by
  have hsig : Cpu.signals m.cpu i =
      Pc.underTrap (Front.pcInputs m.cpu.front (Cpu.front m.cpu i)) m.cpu.front.signals := by
    change (if Cpu.exceptionSm m.cpu i then _ else _) = _
    rw [show Cpu.exceptionSm m.cpu i = true from hx, if_pos rfl]
  rw [hsig, Pc.underTrap, hv]
  exact ⟨rfl, rfl, rfl, rfl, rfl⟩

/-- After a trap that the fetch stage sees, the core waits for the instruction where the trap
goes. -/
theorem waits_of_trap (h : Numbered.Inv m) (hsees : (Cpu.seen m.cpu i).exceptionSm = true)
    (hx : trap m i = true) {v : BitVec 32}
    (hv : Pc.trapTarget (Front.pcInputs m.cpu.front (Cpu.front m.cpu i)) = some v)
    (hfetch : Fetchable (Numbered.memOut m i).currentModeSm
      (m.cpu.front.core.file.get Csr.kernelAdr) v) :
    Waits (step m i).cpu v := by
  obtain ⟨hd2iPush, hres, hen, hwrite, hi2dPop⟩ := signals_of_trap hx hv
  obtain ⟨hi2dPush, hd2iPop, hin⟩ :=
    Ifetch.fetchMethod_of_trap (i := Cpu.fetchInputs m.cpu i) m.cpu.fetch hsees
  have hif2dec : (step m i).cpu.if2dec = ⟨(Cpu.fetch m.cpu i).if2decIn, true⟩ := by
    refine Fifo.clock_of_load ?_
    rw [Fifo.loads, hi2dPop, show (Cpu.fetch m.cpu i).if2decPush = true from hi2dPush]
    rfl
  have hdec2if : (step m i).cpu.dec2if = ⟨Cpu.dec2ifIn m.cpu i, true⟩ := by
    refine Fifo.clock_of_load ?_
    rw [Fifo.loads, hd2iPush, show (Cpu.fetch m.cpu i).dec2ifPop = true from hd2iPop]
    rfl
  obtain ⟨hexc, hcsr, -⟩ := re_of_trap h hx
  refine ⟨?_, hcsr, ?_, ?_, hexc, .inl ⟨⟨?_, ?_⟩, ?_, ?_⟩⟩
  · rw [kernelAdr_of_trap h hx]
    exact hfetch
  · rw [show (step m i).cpu.pipe.rd = _ from rd_of_trap hx]
    exact ⟨rfl, rfl, rfl, rfl⟩
  · rw [show (step m i).cpu.pipe.rd = _ from rd_of_trap hx]
    rfl
  · rw [hdec2if]
  · rw [hdec2if]
    exact hres
  · change (if (Cpu.signals m.cpu i).writePcEnable then (Cpu.signals m.cpu i).writePc
      else m.cpu.front.pc) = v
    rw [hen, if_pos rfl, hwrite]
  · rw [hif2dec, show (Cpu.fetch m.cpu i).if2decIn = _ from hin]

/-- The handler of a trap into machine mode can be fetched. -/
theorem waits_of_vector (h : Numbered.Inv m) (hsees : (Cpu.seen m.cpu i).exceptionSm = true)
    (hx : trap m i = true) {v : BitVec 32} (hv : v ∈ vector m i) : Waits (step m i).cpu v := by
  unfold vector at hv
  split_ifs at hv with hmode
  · refine waits_of_trap h hsees hx ?_ ⟨aligned_of_trapVector hv, .inl hmode.1⟩
    have hmret : (Front.pcInputs m.cpu.front (Cpu.front m.cpu i)).mretSm = false := hmode.2
    rw [Pc.trapTarget, hmret, if_neg Bool.false_ne_true]
    exact hv
  · exact absurd hv (Option.not_mem_none _)

/-! ### The cycles after a trap -/

/-- Only an access is an exception by its address. -/
theorem not_flagged_of_idle {j : Exe.Inputs} (h : Idle j.rd)
    (op1 op2 aluOut shifterOut old : BitVec 32) :
    (Exe.selectExecRes j op1 op2 aluOut shifterOut old).flagged = false := by
  unfold Exe.selectExecRes
  simp only [h.memLoad, h.memStore, Bool.false_eq_true, if_false]
  split_ifs <;> rfl

/-- DEC pushes no instruction during a trap. -/
theorem not_trap_of_issues (hissues : issues m i = true) : trap m i = false := by
  by_contra hx
  rw [Bool.not_eq_false] at hx
  rw [issues, Numbered.decTag, hx, Bool.true_or, if_pos rfl] at hissues
  exact absurd hissues (by simp)

/-- The instruction that DEC pushes first is the one at the address. -/
theorem pc_of_issues (hs : Sees m i) {v : BitVec 32} (h : Waits m.cpu v)
    (hissues : issues m i = true) : (Cpu.shown m.cpu i).pc = v := by
  have hx := not_trap_of_issues hissues
  obtain ⟨hseen, -⟩ := hs
  have hshown := shown_of_seen (s := m.cpu) hx hseen
  rcases h.place with hu | hi
  · rw [issues, Numbered.decTag, hshown, hu.if2dec, Bool.or_true, if_pos rfl] at hissues
    exact absurd hissues (by simp)
  · rw [hshown]
    exact hi.pc

/-- What DEC pushes while the core waits is the `nop`. -/
theorem idle_of_decPush (h : Numbered.Inv m) (hs : Sees m i) {v : BitVec 32}
    (hwaits : Waits m.cpu v) (hx : trap m i = false) (hissues : issues m i = false)
    (hpush : decPush m.pipe (cycle m i) = true) :
    Idle (decWord m.pipe (cycle m i)) ∧ (decWord m.pipe (cycle m i)).exception = false := by
  obtain ⟨hseen, -⟩ := hs
  rcases hwaits.place with hu | hi
  · exact decWord_of_unfetched h.fetched h.ebreak hwaits hu hx hseen
  · rw [issues, hpush, Numbered.decTag, hx, shown_of_seen (s := m.cpu) hx hseen, hi.nop] at hissues
    exact absurd hissues (by simp)

/-- The FIFOs around the fetch stage keep the address, or the instruction at it. -/
theorem place_step (h : Numbered.Inv m) (hs : Sees m i) {v : BitVec 32}
    (hwaits : Waits m.cpu v) (hx : trap m i = false) (hissues : issues m i = false) :
    Unfetched (step m i).cpu v ∨ InIf2Dec (step m i).cpu v := by
  obtain ⟨hseen, hpred⟩ := hs
  have hshown := shown_of_seen (s := m.cpu) hx hseen
  have hif2dec : (step m i).cpu.if2dec = m.cpu.if2dec.clock (Cpu.fetch m.cpu i).if2decPush
      (Cpu.signals m.cpu i).if2decPop (Cpu.fetch m.cpu i).if2decIn := rfl
  have hdec2if : (step m i).cpu.dec2if = m.cpu.dec2if.clock (Cpu.signals m.cpu i).dec2ifPush
      (Cpu.fetch m.cpu i).dec2ifPop (Cpu.dec2ifIn m.cpu i) := rfl
  rw [Cpu.gestion_signals.1] at hif2dec
  rcases hwaits.place with hu | hi
  · obtain ⟨hir, htarget⟩ := h.fetched.if2dec hu.if2dec
    rw [← hshown] at hir htarget
    obtain ⟨hredirects, hflush, -⟩ := pc_of_nop (s := m.cpu) hx hir htarget
    obtain ⟨hsame, hroom, hpc, hnop⟩ := fetch_of_seen (s := m.cpu) hx hseen hflush hpred
    cases hpush : (Cpu.fetch m.cpu i).if2decPush with
    | true =>
      -- the instruction is fetched
      right
      have hload : (step m i).cpu.if2dec = ⟨(Cpu.fetch m.cpu i).if2decIn, true⟩ := by
        rw [hif2dec]
        exact Fifo.clock_of_load ((Fifo.loads_of_not_full (hroom hpush)).trans hpush)
      refine ⟨?_, ?_, ?_⟩
      · rw [hload]
      · rw [hload]
        exact hnop
      · rw [hload]
        exact hpc.trans hu.dec2if.2
    | false =>
      -- the fetch stage stalls, and so does `pc_inc`
      left
      have hpop : (Cpu.fetch m.cpu i).dec2ifPop = false := hsame.symm.trans hpush
      have hredirects' : Pc.redirects (Front.pcInputs m.cpu.front (Cpu.front m.cpu i)) = false := by
        rw [hredirects, hpop, Fifo.isFull, hu.dec2if.1]
        rfl
      have hsig := signals_of_not_trap (s := m.cpu) hx
      have hstay : (step m i).cpu.dec2if = m.cpu.dec2if := by
        rw [hdec2if]
        exact Fifo.clock_of_stays hu.dec2if.1 hpop
      refine ⟨?_, ?_, ?_⟩
      · rw [hstay]
        exact hu.dec2if
      · change (if (Cpu.signals m.cpu i).writePcEnable then _ else m.cpu.front.pc) = v
        rw [hsig, Pc.withoutTrap, hredirects', if_neg Bool.false_ne_true]
        exact hu.pc
      · rw [hif2dec, hpush, Fifo.dout_clock_of_not_load (by rfl)]
        exact hu.if2dec
  · -- DEC keeps the instruction
    right
    have hstall : (decSig m.pipe (cycle m i)).stallSd = true := by
      have hpush : decPush m.pipe (cycle m i) = false := by
        by_contra hpush
        rw [Bool.not_eq_false] at hpush
        rw [issues, hpush, Numbered.decTag, hx, hshown, hi.nop] at hissues
        exact absurd hissues (by simp)
      rw [decPush, Bool.or_eq_false_iff, Bool.not_eq_false'] at hpush
      exact hpush.2
    have hgestion := if2decGestion_of_stall (s := m.cpu) hx hstall
    have hstay : (step m i).cpu.if2dec = m.cpu.if2dec := by
      rw [hif2dec, hgestion]
      exact Fifo.clock_of_stays hi.valid rfl
    exact ⟨by rw [hstay]; exact hi.valid, by rw [hstay]; exact hi.nop, by rw [hstay]; exact hi.pc⟩

theorem waits_step (h : Numbered.Inv m) (hs : Sees m i) {v : BitVec 32}
    (hwaits : Waits m.cpu v) (hx : trap m i = false) (hissues : issues m i = false) :
    Waits (step m i).cpu v := by
  have hx' : (cycle m i).exceptionSm = false := hx
  -- nothing in MEM writes a CSR, so that the kernel start stays
  have hkernel : (step m i).cpu.front.core.file.get Csr.kernelAdr =
      m.cpu.front.core.file.get Csr.kernelAdr := by
    have hfile : (step m i).cpu.front.core.file = _ := Core.file_of_not_trap h.latched hx
    rw [hfile, show m.cpu.front.core.pipe.exe2mem.dout.csrWenable = false from hwaits.csr,
      Csr.get_hardware_false, if_neg (fun hmip => absurd hmip.2 (by decide))]
    rfl
  have hfetch : Fetchable (step m i).cpu.front.core.mem.currentModeSm
      ((step m i).cpu.front.core.file.get Csr.kernelAdr) v := by
    have hmode : (step m i).cpu.front.core.mem.currentModeSm =
        m.cpu.front.core.mem.currentModeSm := Core.currentModeSm_of_not_trap hx
    rw [hkernel, hmode]
    exact hwaits.fetchable
  have hrd : Idle (step m i).pipe.rd ∧ (step m i).pipe.rd.exception = false := by
    have hpipe : (step m i).pipe.rd = (Backend.step m.pipe (cycle m i)).dec2exe.dout := rfl
    rw [hpipe]
    rcases Backend.dec2exe_cases m.pipe (cycle m i) with ⟨hpush, hrd⟩ | ⟨-, -, hrd, -⟩
    · rw [hrd]
      exact idle_of_decPush h hs hwaits hx hissues hpush
    · rw [hrd]
      exact ⟨hwaits.idle, hwaits.rd⟩
  have hre : (step m i).pipe.re.exception = false ∧ (step m i).pipe.re.csrWenable = false := by
    have hpipe : (step m i).pipe.re = (Backend.step m.pipe (cycle m i)).exe2mem.dout := rfl
    rw [hpipe]
    rcases Backend.exe2mem_cases m.pipe (cycle m i) with ⟨-, -, hre⟩ | ⟨ht, -⟩ | ⟨ht, -⟩ |
      ⟨-, -, hre, -⟩
    · obtain ⟨-, hcsr, -, -, hexc⟩ := Backend.dinSe_of_not_trap (s := m.pipe) hx'
      rw [hre]
      refine ⟨hexc.trans ?_, hcsr.trans hwaits.idle.csrWenable⟩
      rw [show m.pipe.rd.exception = false from hwaits.rd, Bool.false_or]
      obtain ⟨j, op1, op2, old, hres⟩ := (Backend.exeStage m.pipe (cycle m i)).atRest.res_eq
      rw [exeSig, hres]
      exact not_flagged_of_idle ⟨hwaits.idle.memLoad, hwaits.idle.memStore,
        hwaits.idle.csrWenable, hwaits.idle.dest⟩ op1 op2 _ _ old
    · exact absurd (ht.symm.trans hx') (by decide)
    · exact absurd (ht.symm.trans hx') (by decide)
    · rw [hre]
      exact ⟨hwaits.re, hwaits.csr⟩
  exact ⟨hfetch, hre.2, hrd.1, hrd.2, hre.1, place_step h hs hwaits hx hissues⟩

theorem inv_step (h : Inv m) (hw : Watches m i) : Inv (step m i) where
  base := Numbered.inv_step h.base
  isOver hx := (re_of_trap h.base hx).1
  waits := by
    intro v hv
    change v ∈ (if trap m i then vector m i else if issues m i then none else m.awaiting) at hv
    cases hx : trap m i with
    | true =>
      rw [hx, if_pos rfl] at hv
      exact waits_of_vector h.base (hw.1 hx) hx hv
    | false =>
      rw [hx, if_neg Bool.false_ne_true] at hv
      cases hissues : issues m i with
      | true =>
        rw [hissues, if_pos rfl] at hv
        exact absurd hv (Option.not_mem_none _)
      | false =>
        rw [hissues, if_neg Bool.false_ne_true] at hv
        have hs : Sees m i := hw.2 hx (Option.isSome_iff_exists.mpr ⟨v, hv⟩)
        exact waits_step h.base hs (h.waits v hv) hx hissues

end TrapFetch

end RiVerSoC
