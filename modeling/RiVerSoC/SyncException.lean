/-
Exceptions are precise.

* `Excepts` — the instruction in MEM carries the flag of an exception;
* `Precise` — it and all that are younger have no effect, all that are older are completed, and
  the next instruction is the one at the trap vector;
* `Handled` — the fetch stage sees the trap, and the instruction is not at once a return;
* `each_precise` — along every run with the second, every step has the first;
* `not_each_precise_unseen` — a fetch stage that does not see the trap executes an instruction
  behind the exception.
-/
import RiVerSoC.TrapEntry
import RiVerSoC.TrapFetch

namespace RiVerSoC

namespace SyncException

open Cpu (Cycle)
open Numbered (Machine step reset trap issues vector memOut writesBack accesses writesCsr drops
  inert cycle)
open TrapFetch (Watches)

/-- The flags of the exceptions; a return from a trap is none. -/
def flagged (w : Exe2Mem) : Bool :=
  w.envCallWrongMode || w.storeAccessFault || w.loadAccessFault || w.storeAdressMissaligned ||
    w.loadAdressMissaligned || w.envCallMMode || w.envCallSMode || w.envCallUMode || w.ebreak ||
    w.instructionAdressMissaligned || w.illegalInstruction || w.instructionAccessFault

/-- Those that DEC finds. -/
def flaggedInDec (w : Dec2Exe) : Bool :=
  w.envCallWrongMode || w.envCallMMode || w.envCallSMode || w.envCallUMode || w.ebreak ||
    w.adressMissaligned || w.illegalInstruction || w.instructionAccessFault

variable (m : Machine) (i : Cycle)

/-- The instruction in MEM carries the flag of an exception. -/
def Excepts : Prop := m.pipe.exe2mem.v = true ∧ flagged m.pipe.re = true

/-- The exceptions are precise in this cycle. -/
structure Precise : Prop where
  /-- What a trap has dropped has written no register and no CSR and accessed no memory. -/
  killed : ∀ n ∈ (step m i).killed, n ∉ (step m i).acted
  /-- Nothing else writes or accesses them. -/
  numbered : (writesBack m = true → m.wbk.dout.isSome = true) ∧
    ((accesses m || writesCsr m i) = true → m.mem.dout.isSome = true)
  /-- In the cycle of a trap the CSRs change by the entry into the trap only. -/
  file : trap m i = true → (step m i).cpu.front.core.file =
    Csr.hardware m.cpu.front.core.file m.cpu.front.core.file i.core.timerInt true (memOut m i).trap
  /-- An exception is a trap, and drops the instruction and all that are younger. -/
  younger : Excepts m → trap m i = true ∧
    ∀ n ∈ m.mem.dout, ∀ k, n ≤ k → k < m.pcs.length → k ∈ (step m i).killed
  /-- Those that are older have been completed, or dropped by an earlier trap. -/
  older : Excepts m → ∀ n ∈ m.mem.dout, ∀ k < n, k ∈ (step m i).retired ∨ k ∈ m.killed
  /-- From now on the core waits for the instruction at the trap vector. -/
  vector : Excepts m → (step m i).awaiting =
    Pc.trapVector (Front.pcInputs m.cpu.front (Cpu.front m.cpu i))
  /-- The next instruction in DEC is the one that the core waits for. -/
  next : ∀ v ∈ m.awaiting, ¬ Excepts m ∧ (issues m i = true → (Cpu.shown m.cpu i).pc = v)

/-- The fetch stage sees what it has to, and an exception is not at once a return. -/
def Handled : Prop := Watches m i ∧ (Excepts m → m.pipe.re.mret = false)

instance : Decidable (Excepts m) := inferInstanceAs (Decidable (_ ∧ _))

instance : Decidable (Handled m i) := inferInstanceAs (Decidable (_ ∧ (_ → _)))

/-- A flag makes an exception, also in the word that EXE offers. -/
structure Flags (p : Backend.State) : Prop where
  rd : flaggedInDec p.rd = true → p.rd.exception = true
  re : flagged p.re = true → p.re.exception = true
  dinSe : flagged p.exe.sig.exe2memDinSe = true → p.exe.sig.exe2memDinSe.exception = true

/-- What holds in every cycle. -/
structure Inv (m : Machine) : Prop where
  base : TrapFetch.Inv m
  flags : Flags m.pipe

theorem inv_reset (procId pcInit : BitVec 32) : Inv (reset procId pcInit) where
  base := TrapFetch.inv_reset procId pcInit
  flags := ⟨fun h => absurd h Bool.false_ne_true, fun h => absurd h Bool.false_ne_true,
    fun h => absurd h Bool.false_ne_true⟩

variable {m i}

/-! ### Flags -/

section Words

variable {s : Backend.State} {c : Backend.Cycle}

theorem exception_decWord (h : flaggedInDec (Backend.decWord s c) = true) :
    (Backend.decWord s c).exception = true := by
  cases hx : c.exceptionSm with
  | true =>
    rw [Backend.decWord_of_exceptionSm hx] at h
    exact absurd h Bool.false_ne_true
  | false =>
    rw [Numbered.decWord_of_not_trap hx] at h ⊢
    simp only [flaggedInDec, Dec.concatDec2exe, Bool.false_eq_true, if_false,
      Bool.or_eq_true] at h ⊢
    tauto

/-- What `fifo_concat` makes of a word. -/
theorem exception_fifoConcat {j : Exe.Inputs}
    (hflags : flaggedInDec j.rd = true → j.rd.exception = true) (bpMemDataSd : BitVec 32)
    (r : Exe.ExeRes) (eff : Bool × Bool × Bool)
    (h : flagged (Exe.fifoConcat j bpMemDataSd r (Exe.exceptionSe j r) eff) = true) :
    (Exe.fifoConcat j bpMemDataSd r (Exe.exceptionSe j r) eff).exception = true := by
  cases hx : j.exceptionSm with
  | true =>
    rw [Exe.fifoConcat, if_pos hx] at h
    exact absurd h Bool.false_ne_true
  | false =>
    simp only [flagged, Exe.fifoConcat, hx, Bool.false_eq_true, if_false, Bool.or_eq_true] at h
    simp only [flaggedInDec, Bool.or_eq_true] at hflags
    simp only [Exe.fifoConcat, hx, Bool.false_eq_true, if_false, Exe.exceptionSe,
      Exe.ExeRes.flagged, Bool.or_eq_true]
    tauto

/-- A word that `fifo_concat` has kept was an exception when it was made. -/
theorem exception_dinSe (hflags : Flags s)
    (h : flagged (Backend.exeSig s c).exe2memDinSe = true) :
    (Backend.exeSig s c).exe2memDinSe.exception = true := by
  rcases Backend.dinSe_cases s c with hword | hword <;> rw [hword] at h ⊢
  · exact exception_fifoConcat (j := Backend.exeInputs s c) hflags.rd _ _ _ h
  · exact hflags.dinSe h

theorem flags_step (h : Flags s) : Flags (Backend.step s c) where
  rd := by
    refine Fifo.pair_clock (P := fun w _ => flaggedInDec w = true → w.exception = true)
      (g := s.dec2exe) (b := Backend.decWord s c) rfl h.rd ?_
    exact fun _ => exception_decWord
  re := by
    refine Fifo.pair_clock (P := fun w _ => flagged w = true → w.exception = true)
      (g := s.exe2mem) (b := (Backend.exeSig s c).exe2memDinSe) rfl h.re ?_
    exact fun _ => exception_dinSe h
  dinSe := exception_dinSe h

end Words

theorem isSome_ite {α : Type*} (b : Bool) (a : α) (o : Option α) :
    (if b then some a else o).isSome = (b || o.isSome) := by
  cases b <;> rfl

/-- A flag has a cause. -/
theorem exists_flagCause {w : Exe2Mem} (h : flagged w = true) (hmret : w.mret = false) :
    ∃ c, TrapEntry.flagCause w = some c := by
  refine Option.isSome_iff_exists.mp (Eq.trans ?_ h)
  simp only [TrapEntry.flagCause, hmret, Bool.false_eq_true, if_false, isSome_ite,
    Option.isSome_none, Bool.or_false, flagged, Bool.or_assoc]

/-! ### The trap -/

theorem trap_of_excepts (h : Inv m) (he : Excepts m) : trap m i = true := by
  by_contra hx
  rw [Bool.not_eq_true] at hx
  obtain ⟨hexc, -⟩ := Core.memOut_of_not_trap h.base.base.latched hx
  exact absurd ((h.flags.re he.2).symm.trans hexc) (by decide)

/-- An exception enters machine mode. -/
theorem vector_of_excepts (h : Inv m) (he : Excepts m) (hmret : m.pipe.re.mret = false) :
    vector m i = Pc.trapVector (Front.pcInputs m.cpu.front (Cpu.front m.cpu i)) := by
  have hx : trap m i = true := trap_of_excepts h he
  have hexc := h.flags.re he.2
  have hfirst : m.cpu.front.core.mem.exceptionSm = false := by
    by_contra hold
    rw [Bool.not_eq_false] at hold
    exact absurd (hexc.symm.trans (h.base.isOver hold)) (by decide)
  obtain ⟨c, hc⟩ := exists_flagCause he.2 hmret
  have hout :=
    TrapEntry.memOut_of_rise (s := m.cpu.front.core) (i := Cpu.coreCycle m.cpu i) hx hfirst
  obtain ⟨-, -, -, -, -, -, hmode⟩ :=
    TrapEntry.csrException_of_flag (j := Core.memInputs m.cpu.front.core (Cpu.coreCycle m.cpu i))
      rfl hexc hc (Mem.csrException (Core.memInputs m.cpu.front.core (Cpu.coreCycle m.cpu i))
        m.cpu.front.core.mem)
  rw [← hout] at hmode
  have hmretSm : (memOut m i).mretSm = false := by
    rw [memOut, hout, Mem.csrException, if_pos (by
      rw [show (Core.memInputs m.cpu.front.core (Cpu.coreCycle m.cpu i)).re.exception = true
        from hexc, Bool.true_or])]
    exact if_neg (by
      rw [show (Core.memInputs m.cpu.front.core (Cpu.coreCycle m.cpu i)).re.mret = false
        from hmret]
      exact Bool.false_ne_true)
  rw [vector, if_pos ⟨hmode, hmretSm⟩]

/-- An exception is dropped. -/
theorem drops_of_excepts (h : Inv m) (he : Excepts m) (hmret : m.pipe.re.mret = false) :
    drops m i = true := by
  obtain ⟨hwb, hload, hstore⟩ := h.base.base.words.exception (h.flags.re he.2)
  have hacc : accesses m = false := by rw [accesses, hload, hstore]; rfl
  rw [drops, trap_of_excepts h he, Numbered.memPush_of_not_accesses he.1 hacc, inert, hload, hstore,
    hwb, hmret]
  rfl

theorem precise_step (h : Inv m) (hh : Handled m i) : Precise m i where
  killed _ := Numbered.not_acted_of_killed (Numbered.inv_step h.base.base)
  numbered := Numbered.isSome_of_acting h.base.base
  file hx := Core.file_of_trap h.base.base.portWritten hx
  younger := by
    intro he
    refine ⟨trap_of_excepts h he, ?_⟩
    intro n hn k hk hlt
    exact Numbered.younger_step h.base.base (h.base.base.beside.mem.trans he.1) hn
      (drops_of_excepts h he (hh.2 he)) hk hlt
  older := by
    intro he n hn k hk
    exact Numbered.older_step h.base.base (h.base.base.beside.mem.trans he.1) hn hk
  vector := by
    intro he
    have hawaiting : (step m i).awaiting = vector m i :=
      if_pos (trap_of_excepts h he)
    rw [hawaiting]
    exact vector_of_excepts h he (hh.2 he)
  next := by
    intro v hv
    have hwaits := h.base.waits v hv
    refine ⟨?_, ?_⟩
    · intro he
      exact absurd ((h.flags.re he.2).symm.trans hwaits.re) (by decide)
    · intro hissues
      have hx := TrapFetch.not_trap_of_issues hissues
      exact TrapFetch.pc_of_issues (hh.1.2 hx (Option.isSome_iff_exists.mpr ⟨v, hv⟩)) hwaits hissues

theorem inv_step (h : Inv m) (hh : Handled m i) : Inv (step m i) where
  base := TrapFetch.inv_step h.base hh.1
  flags := flags_step h.flags

/-- Along every run in which the fetch stage sees the traps and then what the FIFOs do, every
exception that is no return is precise. -/
theorem each_precise (procId pcInit : BitVec 32) (is : List Cycle)
    (h : Run.Each Handled step (reset procId pcInit) is) :
    Run.Each Precise step (reset procId pcInit) is :=
  Run.each_of_inv (fun _ _ => precise_step) (fun _ _ => inv_step) (inv_reset procId pcInit) h

/-- A fetch of the word, where `fetch_method` reads `EXCEPTION_SM` of this cycle or of the one
before. -/
def fetched (instSic : BitVec 32) (exceptionSm : Cpu.Sight) : Cycle :=
  { (default : Cycle) with
    instSic := instSic
    sights := ⟨exceptionSm, .present, .present⟩
    emptySeen := true }

/-- `ecall` in machine mode, and instructions behind it that are all the same. -/
def ecall (exceptionSm : Cpu.Sight) : List Cycle :=
  [fetched 0x00108093 .present, fetched 0x00000073 .present, fetched 0x00108093 .present,
    fetched 0x00108093 .present, fetched 0x00108093 exceptionSm, fetched 0x00500113 .present,
    fetched 0x00500113 .present]

theorem each_precise_ecall : Run.Each Precise step (reset 0 0) (ecall .present) :=
  each_precise 0 0 _ (by decide +kernel)

/-- Nothing that wakes `fetch_method` changes after `EXCEPTION_SM` has risen. -/
theorem not_each_precise_ecall : ¬ Run.Each Precise step (reset 0 0) (ecall .before) := by
  intro h
  have hnext := (h.2.2.2.2.2.1.next 0 (by decide +kernel)).2 (by decide +kernel)
  exact absurd hnext (by decide +kernel)

end SyncException

end RiVerSoC
