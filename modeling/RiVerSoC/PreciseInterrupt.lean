/-
Interrupts are precise.

An interrupt saves the program counter of the word in MEM, whatever that word is: one that has
left MEM already, one of a trap, or an instruction that goes on and completes.  Nor need the
program counter be that of the instruction: `PC_DEC2EXE_RD` does not wake `fifo_concat`, and
behind an equal instruction the word keeps the older address.

* `Interrupts` — MEM takes an interrupt;
* `Precise` — mepc is the address of an instruction that does nothing and none of whose
  successors does anything, all that are older are completed, and after the return the next
  instruction is the one at mepc;
* `Resumable` — EXE2MEM holds an instruction that has nothing to do in MEM and WBK, with its own
  address;
* `each_interrupt_precise` — along every run with the second, every step has the first;
* `not_each_interrupt_precise_addi` — an addition that is interrupted is executed, and mepc is its
  address;
* `not_each_interrupt_precise_nop` — behind equal instructions mepc is the address of one that
  has been completed.
-/
import RiVerSoC.Interrupts
import RiVerSoC.TrapFetch
import RiVerSoC.TrapReturn

namespace RiVerSoC

namespace PreciseInterrupt

open Cpu (Cycle)
open Backend (exePush memPush)
open Numbered (trap issues vector memOut accesses drops inert cycle)
open TrapFetch (Fetchable Sees Waits Watches)

/-- `fifo_concat` is woken, or shows the address in DEC2EXE already. -/
def PcFresh (s : Backend.State) (c : Backend.Cycle) : Prop :=
  Exe.ConcatRuns s.exe.sig (Backend.exeInputs s c) ∨ s.exe.sig.exe2memDinSe.pc = s.rd.pc

instance (s : Backend.State) (c : Backend.Cycle) : Decidable (PcFresh s c) :=
  inferInstanceAs (Decidable (_ ∨ _))

/-- The numbered instructions, and where the next one has to come from after a return. -/
structure Machine where
  base : Numbered.Machine
  /-- Beside EXE2MEM: the word has been offered with the address in DEC2EXE. -/
  heard : Fifo Bool
  returning : Option (BitVec 32)

def reset (procId pcInit : BitVec 32) : Machine := ⟨Numbered.reset procId pcInit, default, none⟩

variable (m : Machine) (i : Cycle)

abbrev Machine.pipe (m : Machine) : Backend.State := m.base.pipe

/-- A CSR. -/
def csr (k : ℕ) : BitVec 32 := m.base.cpu.front.core.file.get k

/-- MEM takes an interrupt: a trap for a word that is no exception. -/
def Interrupts : Prop := trap m.base i = true ∧ m.pipe.re.exception = false

/-- The instruction in MEM is a return from a trap. -/
def Returns : Prop := m.pipe.re.exception = true ∧ m.pipe.re.mret = true

instance : Decidable (Interrupts m i) := inferInstanceAs (Decidable (_ ∧ _))

instance : Decidable (Returns m) := inferInstanceAs (Decidable (_ ∧ _))

def step : Machine where
  base := Numbered.step m.base i
  heard := m.heard.clock (exePush m.pipe (cycle m.base i)) (memPush m.pipe (cycle m.base i))
    (decide (PcFresh m.pipe (cycle m.base i)))
  returning :=
    if trap m.base i then if Returns m then some (csr m Csr.mepc) else none
    else if issues m.base i then none
    else m.returning

/-- Interrupts are precise in this cycle. -/
structure Precise : Prop where
  /-- What a trap has dropped has written no register and no CSR and accessed no memory. -/
  killed : ∀ n ∈ (step m i).base.killed, n ∉ (step m i).base.acted
  /-- An interrupt saves the address of an instruction.  It and the younger ones are dropped,
  and the older ones have been completed, or dropped by an earlier trap. -/
  point : Interrupts m i → ∃ n, m.base.pcs[n]? = some (csr (step m i) Csr.mepc) ∧
    (∀ k, n ≤ k → k < m.base.pcs.length → k ∈ (step m i).base.killed) ∧
    ∀ k < n, k ∈ (step m i).base.retired ∨ k ∈ m.base.killed
  /-- From an interrupt the core goes on at the trap vector, and from a return at mepc. -/
  vector : Interrupts m i → (step m i).base.awaiting =
    Pc.trapVector (Front.pcInputs m.base.cpu.front (Cpu.front m.base.cpu i))
  next : issues m.base i = true →
    (∀ v ∈ m.base.awaiting, (Cpu.shown m.base.cpu i).pc = v) ∧
      ∀ v ∈ m.returning, (Cpu.shown m.base.cpu i).pc = v

/-- An interrupt finds an instruction in EXE2MEM that writes no register and accesses no memory,
and that `fifo_concat` has given its address; the fetch stage sees the traps, and then what the
FIFOs do; and a return goes where user mode may fetch. -/
def Resumable : Prop :=
  (Interrupts m i →
    m.pipe.exe2mem.v = true ∧ m.base.mem.dout.isSome = true ∧ inert m.pipe.re = true ∧
      m.heard.dout = true) ∧
  Watches m.base i ∧ (trap m.base i = false → m.returning.isSome = true → Sees m.base i) ∧
  (Returns m → Fetchable 0 (csr m Csr.kernelAdr) (csr m Csr.mepc))

instance (mode : BitVec 2) (kernelAdr v : BitVec 32) : Decidable (Fetchable mode kernelAdr v) :=
  decidable_of_iff (v.toNat % 4 = 0 ∧ (mode = 3 ∨ v.toNat + 4 ≤ kernelAdr.toNat))
    ⟨fun h => ⟨h.1, h.2⟩, fun h => ⟨h.aligned, h.reach⟩⟩

instance : Decidable (Resumable m i) :=
  inferInstanceAs (Decidable ((_ → _) ∧ _ ∧ (_ → _ → _) ∧ (_ → _)))

/-- What the words say about a return. -/
structure Marked (p : Backend.State) : Prop extends Backend.NoWrongMode p where
  mretRd : p.rd.mret = true → p.rd.exception = true
  mretRe : p.re.mret = true → p.re.exception = true

/-- What holds in every cycle. -/
structure Inv (m : Machine) : Prop where
  base : TrapFetch.Inv m.base
  marked : Marked m.pipe
  heard : m.heard.v = m.pipe.exe2mem.v
  /-- The address in EXE2MEM is that of the instruction. -/
  pc : m.heard.dout = true → ∀ n ∈ m.base.mem.dout, m.base.pcs[n]? = some m.pipe.re.pc
  /-- A trap leaves nothing in MEM but a word without a number, or an access. -/
  after : m.base.cpu.front.core.mem.exceptionSm = true →
    m.base.mem.dout = none ∨ accesses m.base = true
  returning : ∀ v ∈ m.returning, Waits m.base.cpu v

theorem inv_reset (procId pcInit : BitVec 32) : Inv (reset procId pcInit) where
  base := TrapFetch.inv_reset procId pcInit
  marked := ⟨Backend.noWrongMode_reset, fun h => absurd h Bool.false_ne_true,
    fun h => absurd h Bool.false_ne_true⟩
  heard := rfl
  pc h := absurd h Bool.false_ne_true
  after h := absurd h Bool.false_ne_true
  returning _ h := absurd h (Option.not_mem_none _)

variable {m i}

/-! ### The words of a return -/

theorem marked_step {p : Backend.State} {c : Backend.Cycle} (h : Marked p) :
    Marked (Backend.step p c) where
  toNoWrongMode := Backend.noWrongMode_step c h.toNoWrongMode
  mretRd := by
    refine Fifo.pair_clock (P := fun w _ => w.mret = true → w.exception = true) (g := p.dec2exe)
      (b := Backend.decWord p c) rfl h.mretRd ?_
    intro _ hmret
    cases hx : c.exceptionSm with
    | true =>
      rw [Backend.decWord_of_exceptionSm hx] at hmret
      exact absurd hmret Bool.false_ne_true
    | false =>
      rw [Numbered.decWord_of_not_trap hx] at hmret ⊢
      change (_ || (Backend.decInsts p c).mret || _ || _) = true
      rw [show (Backend.decInsts p c).mret = true from hmret, Bool.or_true, Bool.true_or,
        Bool.true_or]
  mretRe := by
    refine Fifo.pair_clock (P := fun w _ => w.mret = true → w.exception = true) (g := p.exe2mem)
      (b := (Backend.exeSig p c).exe2memDinSe) rfl h.mretRe ?_
    intro _ hmret
    cases hx : c.exceptionSm with
    | true =>
      obtain ⟨pc, hpc⟩ := Backend.dinSe_of_trap (s := p) hx
      rw [hpc] at hmret
      exact absurd hmret Bool.false_ne_true
    | false =>
      obtain ⟨-, -, -, -, hexc⟩ := Backend.dinSe_of_not_trap (s := p) hx
      obtain ⟨-, -, -, -, hmret'⟩ := Numbered.effects_dinSe (s := p) hx
      rw [hexc, h.mretRd (hmret'.symm.trans hmret), Bool.true_or]

/-! ### The address -/

theorem pc_dinSe {p : Backend.State} {c : Backend.Cycle} (h : PcFresh p c) :
    (Backend.exeSig p c).exe2memDinSe.pc = p.rd.pc := by
  change (Exe.writtenWord p.exe.sig (Backend.exeInputs p c)).pc = p.rd.pc
  unfold Exe.writtenWord
  split_ifs with hruns
  · unfold Exe.fifoConcat
    split_ifs <;> rfl
  · exact h.resolve_left hruns

theorem pc_step (h : Inv m) : (step m i).heard.dout = true →
    ∀ n ∈ (step m i).base.mem.dout, (step m i).base.pcs[n]? = some (step m i).pipe.re.pc := by
  -- the ghost and the word move as one
  have hpair : (step m i).heard.pair (step m i).pipe.exe2mem =
      (m.heard.pair m.pipe.exe2mem).clock (exePush m.pipe (cycle m.base i))
        (memPush m.pipe (cycle m.base i)) (decide (PcFresh m.pipe (cycle m.base i)),
          (Backend.exeSig m.pipe (cycle m.base i)).exe2memDinSe) := Fifo.clock_pair h.heard
  change ((step m i).heard.pair (step m i).pipe.exe2mem).dout.1 = true →
    ∀ n ∈ (step m i).base.mem.dout, (step m i).base.pcs[n]? =
      some ((step m i).heard.pair (step m i).pipe.exe2mem).dout.2.pc
  rw [hpair]
  refine Fifo.pair_clock (P := fun t (w : Bool × Exe2Mem) => w.1 = true →
      ∀ n ∈ t, (step m i).base.pcs[n]? = some w.2.pc)
    (h.base.base.beside.mem.trans h.heard.symm)
    (fun hheard n hn => Numbered.pcs_step (h.pc hheard n hn)) ?_
  intro _ hfresh n hn
  cases hx : trap m.base i with
  | true =>
    rw [hx, if_pos rfl] at hn
    exact absurd hn (Option.not_mem_none _)
  | false =>
    rw [hx, if_neg Bool.false_ne_true] at hn
    exact (Numbered.pcs_step (h.base.base.words.pcRd n hn)).trans
      (congrArg some (pc_dinSe (of_decide_eq_true hfresh)).symm)

/-! ### The interrupt -/

/-- What an interrupt that finds an instruction with nothing left to do writes. -/
theorem memOut_of_interrupts (h : Inv m) (hr : Resumable m i) (hi : Interrupts m i) :
    (memOut m.base i).trap.mepcWdataRm = m.pipe.re.pc ∧
      (memOut m.base i).currentModeSm = 3 ∧ (memOut m.base i).mretSm = false := by
  obtain ⟨-, hsome, hinert, -⟩ := hr.1 hi
  have hfirst : m.base.cpu.front.core.mem.exceptionSm = false := by
    by_contra hold
    rw [Bool.not_eq_false] at hold
    rcases h.after hold with hnone | hacc
    · rw [hnone] at hsome
      exact absurd hsome (by decide)
    · have hacc' : (m.pipe.re.memLoad || m.pipe.re.memStore) = true := hacc
      rw [inert, ← Bool.not_or, hacc'] at hinert
      exact absurd hinert Bool.false_ne_true
  have hout := TrapEntry.memOut_of_rise (s := m.base.cpu.front.core)
    (i := Cpu.coreCycle m.base.cpu i) hi.1 hfirst
  have hexc : ((Core.memInputs m.base.cpu.front.core (Cpu.coreCycle m.base.cpu i)).re.exception ||
      (Core.memInputs m.base.cpu.front.core (Cpu.coreCycle m.base.cpu i)).busError) = false :=
    Bool.or_eq_false_iff.mpr ⟨hi.2, rfl⟩
  have hirq : Mem.trapToHandle
      (Core.memInputs m.base.cpu.front.core (Cpu.coreCycle m.base.cpu i)) ≠ 0 := by
    have htraps := hi.1
    rw [trap, memOut, hout, Mem.exceptionSm_csrException, Mem.traps, hexc, Bool.false_or,
      bne_iff_ne] at htraps
    exact htraps
  rw [memOut, hout]
  exact (Interrupt.csrException_of_takes hexc hirq _).2

theorem drops_of_interrupts (h : Inv m) (hr : Resumable m i) (hi : Interrupts m i) :
    drops m.base i = true := by
  obtain ⟨hv, -, hinert, -⟩ := hr.1 hi
  have hmret : m.pipe.re.mret = false := by
    by_contra hmret
    rw [Bool.not_eq_false] at hmret
    exact absurd ((h.marked.mretRe hmret).symm.trans hi.2) (by decide)
  have hacc : accesses m.base = false := by
    have hinert' := hinert
    rw [inert, ← Bool.not_or, Bool.and_eq_true, Bool.not_eq_true'] at hinert'
    exact hinert'.1
  rw [drops, hi.1, Numbered.memPush_of_not_accesses hv hacc, hinert, hmret]
  rfl

theorem mepc_step (hx : trap m.base i = true) :
    csr (step m i) Csr.mepc = (memOut m.base i).trap.mepcWdataRm := by
  have hx' : (Core.memOut m.base.cpu.front.core (Cpu.coreCycle m.base.cpu i)).exceptionSm = true :=
    hx
  change (Csr.clock m.base.cpu.front.core.file _ _
    (Core.memOut m.base.cpu.front.core (Cpu.coreCycle m.base.cpu i)).exceptionSm _).get Csr.mepc = _
  rw [hx']
  exact (Csr.get_clock_trap _ _ _ _).2.2.1

theorem precise_step (h : Inv m) (hr : Resumable m i) : Precise m i where
  killed _ := Numbered.not_acted_of_killed (Numbered.inv_step h.base.base)
  point := by
    intro hi
    obtain ⟨hv, hsome, -, hheard⟩ := hr.1 hi
    obtain ⟨n, hn⟩ := Option.isSome_iff_exists.mp hsome
    have hv' : m.base.mem.v = true := h.base.base.beside.mem.trans hv
    refine ⟨n, ?_, ?_, ?_⟩
    · rw [mepc_step hi.1, (memOut_of_interrupts h hr hi).1]
      exact h.pc hheard n hn
    · intro k hk hlt
      exact Numbered.younger_step h.base.base hv' hn (drops_of_interrupts h hr hi) hk hlt
    · intro k hk
      exact Numbered.older_step h.base.base hv' hn hk
  vector := by
    intro hi
    have hawaiting : (step m i).base.awaiting = vector m.base i := if_pos hi.1
    rw [hawaiting, vector, if_pos (memOut_of_interrupts h hr hi).2]
  next := by
    intro hissues
    have hx := TrapFetch.not_trap_of_issues hissues
    refine ⟨?_, ?_⟩
    · intro v hv
      have hs : Sees m.base i := hr.2.1.2 hx (Option.isSome_iff_exists.mpr ⟨v, hv⟩)
      exact TrapFetch.pc_of_issues hs (h.base.waits v hv) hissues
    · intro v hv
      have hs : Sees m.base i := hr.2.2.1 hx (Option.isSome_iff_exists.mpr ⟨v, hv⟩)
      exact TrapFetch.pc_of_issues hs (h.returning v hv) hissues

/-! ### The return -/

/-- After a return the core waits for the instruction at mepc. -/
theorem waits_of_returns (h : Inv m) (hr : Resumable m i) (hx : trap m.base i = true)
    (hret : Returns m) : Waits (step m i).base.cpu (csr m Csr.mepc) := by
  have hfirst : m.base.cpu.front.core.mem.exceptionSm = false := by
    by_contra hold
    rw [Bool.not_eq_false] at hold
    exact absurd (hret.1.symm.trans (h.base.isOver hold)) (by decide)
  have hreturn : TrapReturn.Return m.base.cpu.front (Cpu.front m.base.cpu i) :=
    ⟨hx, rfl, hret.1, h.marked.re, hret.2⟩
  have hout := TrapReturn.returning_memOut (.inl hfirst) hreturn
  refine TrapFetch.waits_of_trap h.base.base (hr.2.1.1 hx) hx ?_ ?_
  · have hmret : (Front.pcInputs m.base.cpu.front (Cpu.front m.base.cpu i)).mretSm = true :=
      hout.mretSm
    have hadr : (Front.pcInputs m.base.cpu.front (Cpu.front m.base.cpu i)).returnAdress =
        csr m Csr.mepc := hout.returnAdress
    rw [Pc.trapTarget, hmret, if_pos rfl, hadr]
  · rw [show (memOut m.base i).currentModeSm = 0 from hout.mode]
    exact hr.2.2.2 hret

theorem inv_step (h : Inv m) (hr : Resumable m i) : Inv (step m i) where
  base := TrapFetch.inv_step h.base hr.2.1
  marked := marked_step h.marked
  heard := Fifo.v_clock_congr h.heard
  pc := pc_step h
  after hx := (TrapFetch.re_of_trap h.base.base hx).2.2
  returning := by
    intro v hv
    change v ∈ (if trap m.base i then if Returns m then some (csr m Csr.mepc) else none
      else if issues m.base i then none else m.returning) at hv
    cases hx : trap m.base i with
    | true =>
      rw [hx, if_pos rfl] at hv
      split_ifs at hv with hret
      · rw [← Option.some.inj hv]
        exact waits_of_returns h hr hx hret
      · exact absurd hv (Option.not_mem_none _)
    | false =>
      rw [hx, if_neg Bool.false_ne_true] at hv
      cases hissues : issues m.base i with
      | true =>
        rw [hissues, if_pos rfl] at hv
        exact absurd hv (Option.not_mem_none _)
      | false =>
        rw [hissues, if_neg Bool.false_ne_true] at hv
        have hs : Sees m.base i := hr.2.2.1 hx (Option.isSome_iff_exists.mpr ⟨v, hv⟩)
        exact TrapFetch.waits_step h.base.base hs (h.returning v hv) hx hissues

/-- Along every run in which the interrupts find instructions that can be executed again, and
the fetch stage sees the traps, every interrupt is precise. -/
theorem each_interrupt_precise (procId pcInit : BitVec 32) (is : List Cycle)
    (h : Run.Each Resumable step (reset procId pcInit) is) :
    Run.Each Precise step (reset procId pcInit) is :=
  Run.each_of_inv (fun _ _ => precise_step) (fun _ _ => inv_step) (inv_reset procId pcInit) h

/-- A fetch of the word, and the request of the timer. -/
def fetched (instSic : BitVec 32) (timerInt : Bool) : Cycle :=
  { (default : Cycle) with
    core := { (default : Core.Cycle) with timerInt := timerInt }
    instSic := instSic
    emptySeen := true }

/-- `addi x1, x0, 128` and `csrrw x0, mie, x1`, then the same word again and again with a request
of the timer, and an `mret`. -/
def timer (word : BitVec 32) : List Cycle :=
  [fetched 0x13 false, fetched 0x08000093 false, fetched 0x30409073 false, fetched word false,
    fetched word false, fetched word false, fetched word false, fetched word false,
    fetched word true, fetched word false, fetched word false, fetched word false,
    fetched 0x30200073 false, fetched word false, fetched word false, fetched word false,
    fetched word false, fetched word false]

/-- `auipc x0, 0` has another result at every address. -/
theorem each_interrupt_precise_auipc : Run.Each Precise step (reset 0 0) (timer 0x17) :=
  each_interrupt_precise 0 0 _ (by decide +kernel)

/-- What is dropped begins at mepc. -/
theorem Precise.exists_killed (h : Precise m i) (hi : Interrupts m i) :
    ∃ n, n < m.base.pcs.length ∧ (m.base.pcs[n]? = some (csr (step m i) Csr.mepc) ∧
      ∀ k, k < m.base.pcs.length → n ≤ k → k ∈ (step m i).base.killed) := by
  obtain ⟨n, hpc, hkilled, -⟩ := h.point hi
  exact ⟨n, (List.getElem?_eq_some_iff.mp hpc).1, hpc, fun k hk hn => hkilled k hn hk⟩

/-- The interrupt finds the `addi x2, x2, 1` at 0x10 in MEM, and drops nothing but the next
one. -/
theorem not_each_interrupt_precise_addi :
    ¬ Run.Each Precise step (reset 0 0) (timer 0x00110113) := by
  intro h
  have hkilled := h.2.2.2.2.2.2.2.2.2.1.exists_killed (by decide +kernel)
  exact absurd hkilled (by decide +kernel)

/-- The interrupt finds the `nop` at 0x10 in MEM, with the address of the one at 0x0c. -/
theorem not_each_interrupt_precise_nop : ¬ Run.Each Precise step (reset 0 0) (timer 0x13) := by
  intro h
  have hkilled := h.2.2.2.2.2.2.2.2.2.1.exists_killed (by decide +kernel)
  exact absurd hkilled (by decide +kernel)

end PreciseInterrupt

end RiVerSoC
