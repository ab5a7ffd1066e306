/-
The core executes its instructions one after the other.

The pipeline behind the fetch stage is taken with the RAM that `core_tb` has without data cache,
and compared with a machine that takes one instruction from DEC2EXE through EXE, MEM and WBK at
once.

* `Executed`, `execute` — an instruction that EXE pushes, and what it does to registers and RAM;
* `Stands` — the registers, the RAM and the word in MEM in terms of this machine;
* `exeWord_eq` — with sound sources EXE makes of an instruction what the machine makes of it;
* `executes_sound` — every run with sound sources is an execution of the instructions that EXE
  pushes.
-/
import RiVerSoC.Forwarding
import RiVerSoC.Rv32i

namespace RiVerSoC

namespace Backend

/-! ### One instruction at a time -/

/-- An instruction that EXE pushes: the word from DEC, and what EXE has from the other units. -/
structure Executed where
  word : Dec2Exe
  currentMode : BitVec 2
  kernelAdr : BitVec 32
  dividerRes : BitVec 32
  product : BitVec 32
  /-- The result before, which stays when the instruction has none. -/
  exeResSe : BitVec 32
deriving DecidableEq, Repr, Inhabited

abbrev Arch := RiVerSoC.Arch

/-- `mem2wbk_concat`, for the answer `result`. -/
def memWordOf (w : Exe2Mem) (result : BitVec 32) : Mem2Wbk where
  memRes := signExtend w result
  dest := w.dest.setWidth 5
  wb := w.wb || w.memLoad
  pc := w.pc
  csrWenable := w.csrWenable
  csrRdata := w.csrRdata
  multInst := w.multInst

/-- The write of WBK, for the word of the multiplier. -/
def writeBack (g : Registers) (w : Mem2Wbk) (x2Res : BitVec 32) : Registers :=
  if w.wb then g.write (regOf w.dest) (wdata w x2Res) else g

namespace Executed

variable (x : Executed) (g : Registers)

/-- The operands: those that DEC took from the instruction, and the registers for the others. -/
def operands : Exe.Bypassed where
  op1Se :=
    if x.word.radr1 = 0 ∨ x.word.blockBp = true then x.word.op1
    else complement x.word.csrrcI (g.read x.word.radr1)
  op2Se :=
    if x.word.radr2 = 0 ∨ x.word.blockBp = true ∨ x.word.memStore = true then x.word.op2
    else g.read x.word.radr2
  bpMemDataSd :=
    if x.word.radr2 = 0 ∨ x.word.blockBp = true ∨ x.word.memStore = false then x.word.memData
    else g.read x.word.radr2
  blocked := false
  r1ValidSe := true
  r2ValidSe := true

/-- What EXE sees, the FIFOs behind it apart. -/
def inputs : Exe.Inputs :=
  { (default : Exe.Inputs) with
    rd := x.word
    currentMode := x.currentMode
    kernelAdr := x.kernelAdr
    dividerRes := x.dividerRes }

end Executed

namespace Arch

variable (a : Arch) (x : Executed)

/-- The word of the instruction in EXE2MEM. -/
def exeWord : Exe2Mem :=
  (Exe.evaluate x.inputs (x.operands a.registers) x.exeResSe).exe2memDinSe

/-- The RAM after the instruction, and its answer. -/
def answer : Ram × BitVec 32 := ramAccess a.ram (memPreprocess (a.exeWord x) false false)

/-- The word of the instruction in MEM2WBK. -/
def memWord : Mem2Wbk := memWordOf (a.exeWord x) (a.answer x).2

def execute : Arch := ⟨writeBack a.registers (a.memWord x) x.product, (a.answer x).1⟩

/-- The state before the first instruction. -/
def start (ram : Ram) : Arch := ⟨Vector.replicate 33 0, ram⟩

/-- The state after some instructions. -/
def after (q : List Executed) : Arch := Run.after execute a q

end Arch

/-- The word in DEC2EXE, with what `fifo_concat` does not listen to as it has read it. -/
def heard (s : State) (i : Cycle) : Dec2Exe :=
  { s.rd with
    pc := (exeSig s i).exe2memDinSe.pc
    envCallSMode := (exeSig s i).exe2memDinSe.envCallSMode
    envCallWrongMode := (exeSig s i).exe2memDinSe.envCallWrongMode
    ebreak := (exeSig s i).exe2memDinSe.ebreak
    pcBranchValue := (exeSig s i).exe2memDinSe.pcBranchValue }

/-- The instruction that EXE pushes. -/
def pushed (s : State) (i : Cycle) : Executed :=
  ⟨heard s i, i.currentMode, i.kernelAdr, i.dividerRes, i.product, s.exe.sig.res.exeResSe⟩

/-- Neither the registers nor the RAM depend on what `fifo_concat` does not listen to. -/
theorem Arch.execute_pushed (a : Arch) (s : State) (i : Cycle) :
    a.execute (pushed s i) = a.execute { pushed s i with word := s.rd } := rfl

/-! ### The system -/

/-- The pipeline behind the fetch stage with the RAM. -/
structure System where
  tracked : Tracked
  ram : Ram

namespace System

variable (m : System) (i : Cycle)

abbrev pipe : State := m.tracked.base

def request : McacheRequest :=
  memPreprocess m.pipe.re m.pipe.exe2mem.isEmpty m.pipe.rm.multInst

/-- The cycle with the answer of the RAM. -/
def cycle : Cycle := { i with mcacheResult := (ramCycle m.ram m.request).2 }

def step : System where
  tracked := m.tracked.step (m.cycle i)
  ram := (ramCycle m.ram m.request).1

def reset (ram : Ram) : System := ⟨Tracked.reset, ram⟩

/-- The instruction that EXE pushes. -/
def executed : List Executed :=
  if Pushes m.pipe (m.cycle i) then
    [pushed m.pipe (m.cycle i)]
  else []

/-- The operands of the pushed instruction have sound sources, and its result is from them. -/
def SoundSources : Prop :=
  Sound m.tracked (m.cycle i) ∧ (Pushes m.pipe (m.cycle i) → ResultFresh m.pipe (m.cycle i))

instance : Decidable (m.SoundSources i) := inferInstanceAs (Decidable (_ ∧ _))

/-- The registers with what WBK is to write. -/
def written : Registers :=
  if wenable m.pipe then writeBack m.pipe.registers m.pipe.rm m.pipe.productWbk
  else m.pipe.registers

end System

/-- A word that changes neither a register nor the RAM. -/
def Silent (w : Exe2Mem) : Prop :=
  w.memStore = false ∧ ((w.wb || w.memLoad) = true → w.dest = 0)

namespace System

/-- The instruction `q` in MEM, if there is one, is to be executed next: those before it have been
executed, up to WBK. -/
structure Stands (m : System) (a : Arch) (q : List Executed) : Prop where
  inv : Inv m.tracked
  written : m.written = a.registers
  mem : (∃ x, q = [x] ∧ m.pipe.exe2mem.v = true ∧ m.pipe.re = a.exeWord x ∧
      m.pipe.productMem = x.product) ∨
    (q = [] ∧ (m.pipe.exe2mem.v = true → Silent m.pipe.re))
  /-- The RAM serves a store before its instruction leaves MEM. -/
  ram : m.ram = a.ram ∨ m.ram = (a.after q).ram
  /-- The word that has left MEM is served again. -/
  again : m.pipe.exe2mem.v = false →
    ∀ multInstRm, (ramAccess m.ram (memPreprocess m.pipe.re true multInstRm)).1 = m.ram

end System

/-! ### EXE -/

section Exe

theorem evaluate_congr (j j' : Exe.Inputs) {byp byp' : Exe.Bypassed} (hrd : j.rd = j'.rd)
    (hmode : j.currentMode = j'.currentMode) (hadr : j.kernelAdr = j'.kernelAdr)
    (hdiv : j.dividerRes = j'.dividerRes) (hx : j.exceptionSm = j'.exceptionSm)
    (h1 : byp.op1Se = byp'.op1Se) (h2 : byp.op2Se = byp'.op2Se)
    (hdata : byp.bpMemDataSd = byp'.bpMemDataSd) (old : BitVec 32) :
    (Exe.evaluate j byp old).exe2memDinSe = (Exe.evaluate j' byp' old).exe2memDinSe := by
  cases j
  cases j'
  cases byp
  cases byp'
  dsimp only at hrd hmode hadr hdiv hx h1 h2 hdata
  subst hrd hmode hadr hdiv hx h1 h2 hdata
  rfl

variable {t : Tracked} {i : Cycle}

/-- A store takes the offset of its address from the instruction. -/
theorem op2Se_of_store {s : State} (hf : OperandsFresh s i) (hstore : s.rd.memStore = true)
    (hfree : (Exe.bypassRs2 (exeInputs s i) s.exe.sig.byp.op2Se).2.2 = false) :
    (exeSig s i).byp.op2Se = s.rd.op2 := by
  refine (congrArg Exe.Bypassed.op2Se (byp_eq hf)).trans ?_
  change (Exe.bypassRs2 (exeInputs s i) s.exe.sig.byp.op2Se).1 = _
  rw [bypassRs2_eq, withBypassed, withBypassed, if_pos hstore, if_pos hstore] at hfree ⊢
  split_ifs at hfree ⊢ <;> rfl

/-- Another instruction keeps the data that it has none of. -/
theorem bpMemDataSd_of_not_store {s : State} (hf : OperandsFresh s i)
    (hstore : s.rd.memStore = false) : (exeSig s i).byp.bpMemDataSd = s.rd.memData := by
  have hno : ¬ s.rd.memStore = true := by
    rw [hstore]
    exact Bool.false_ne_true
  refine (congrArg Exe.Bypassed.bpMemDataSd (byp_eq hf)).trans ?_
  change (Exe.bypassRs2 (exeInputs s i) s.exe.sig.byp.op2Se).2.1 = _
  rw [bypassRs2_eq, withBypassed, withBypassed, if_neg hno, if_neg hno]
  split_ifs <;> rfl

/-- With sound sources EXE has the operands that are in the registers once the instruction in MEM
has written its own. -/
theorem operands_eq (h : Inv t) (hp : Pushes t.base i) (hs : Sound t i) {g : Registers}
    (hg : ∀ r, r ≠ 0 → expected t.base i r = g.read r) :
    (exeSig t.base i).byp.op1Se = ((pushed t.base i).operands g).op1Se ∧
      (exeSig t.base i).byp.op2Se = ((pushed t.base i).operands g).op2Se ∧
      (exeSig t.base i).byp.bpMemDataSd = ((pushed t.base i).operands g).bpMemDataSd := by
  obtain ⟨hs1, hs2⟩ := hs.2 hp
  constructor
  · by_cases hnone : t.base.rd.radr1 = 0 ∨ t.base.rd.blockBp = true
    · exact (op1Se_of_none hnone).trans (if_pos hnone).symm
    · obtain ⟨hr, hb⟩ := not_or.mp hnone
      have hb' : t.base.rd.blockBp = false := Bool.eq_false_iff.mpr hb
      obtain ⟨hf, hsource⟩ := hs1 hr hb'
      refine (op1_eq_expected h hp hf hr hb' hsource).trans ?_
      rw [hg _ hr]
      exact (if_neg hnone).symm
  · by_cases hnone : t.base.rd.radr2 = 0 ∨ t.base.rd.blockBp = true
    · obtain ⟨hop2, hdata⟩ := op2Se_of_none (i := i) hnone
      refine ⟨hop2.trans (if_pos (hnone.imp_right Or.inl)).symm, ?_⟩
      exact hdata.trans (if_pos (hnone.imp_right Or.inl)).symm
    · obtain ⟨hr, hb⟩ := not_or.mp hnone
      have hb' : t.base.rd.blockBp = false := Bool.eq_false_iff.mpr hb
      obtain ⟨hf, hsource⟩ := hs2 hr hb'
      have hexact := op2_eq_expected h hp hf hr hb' hsource
      rw [hg _ hr, operand2] at hexact
      -- the register has the data of a store, and the second operand of the others
      cases hstore : t.base.rd.memStore with
      | true =>
        rw [hstore, if_pos rfl] at hexact
        have hfree := (free_of_exePush hp.2.1 hp.1 hf).2
        refine ⟨(op2Se_of_store hf hstore hfree).trans (if_pos (Or.inr (Or.inr hstore))).symm, ?_⟩
        refine hexact.trans (if_neg ?_).symm
        rintro (h0 | h0 | h0)
        · exact hr h0
        · exact hb h0
        · exact absurd (hstore.symm.trans h0) (by decide)
      | false =>
        rw [hstore, if_neg Bool.false_ne_true] at hexact
        refine ⟨hexact.trans (if_neg ?_).symm,
          (bpMemDataSd_of_not_store hf hstore).trans (if_pos (Or.inr (Or.inr hstore))).symm⟩
        rintro (h0 | h0 | h0)
        · exact hr h0
        · exact hb h0
        · exact absurd (hstore.symm.trans h0) (by decide)

/-- The word for MEM from the operands that `bypasses` has left. -/
theorem dinSe_eq_evaluate {s : State} (hx : i.exceptionSm = false) (hf : ResultFresh s i) :
    (exeSig s i).exe2memDinSe =
      (Exe.evaluate { exeInputs s i with rd := heard s i } (exeSig s i).byp
        s.exe.sig.res.exeResSe).exe2memDinSe := by
  obtain ⟨j, hj⟩ := exists_dinSe s i
  have hheard : heard s i = ((exeInputs s i).concatenating j).rd := by
    have hno : ¬ ((exeInputs s i).concatenating j).exceptionSm = true := by
      change ¬ i.exceptionSm = true
      rw [hx]
      exact Bool.false_ne_true
    rw [Exe.fifoConcat, if_neg hno] at hj
    rw [heard, hj]
    rfl
  have hexc : (exeSig s i).exceptionSe = Exe.exceptionSe (exeInputs s i) (exeSig s i).res := rfl
  rw [hj, hheard, hexc, res_eq hf]
  rfl

/-- EXE makes of an instruction what the machine makes of it. -/
theorem exeWord_eq (h : Inv t) (hp : Pushes t.base i) (hs : Sound t i)
    (hres : ResultFresh t.base i) {a : Arch}
    (ha : ∀ r, r ≠ 0 → expected t.base i r = a.registers.read r) :
    (exeSig t.base i).exe2memDinSe = a.exeWord (pushed t.base i) := by
  obtain ⟨h1, h2, hdata⟩ := operands_eq h hp hs ha
  rw [dinSe_eq_evaluate hp.2.1 hres]
  exact evaluate_congr { exeInputs t.base i with rd := heard t.base i } (pushed t.base i).inputs
    rfl rfl rfl rfl hp.2.1 h1 h2 hdata _

end Exe

/-! ### MEM and WBK -/

namespace System

section Stages

variable {m : System} {i : Cycle} {a : Arch} {q : List Executed}

theorem registers_step (i : Cycle) (hw : WbkFresh m.pipe) :
    (m.step i).pipe.registers = m.written := by
  have hstep : (m.step i).pipe.registers =
      if wenable m.pipe then
        m.pipe.registers.write (regOf m.pipe.rm.dest) (wbkSig m.pipe).wdataSw
      else m.pipe.registers := rfl
  rw [hstep, written, writeBack]
  cases hwen : wenable m.pipe with
  | true =>
    have hwb : m.pipe.rm.wb = true := (Bool.and_eq_true_iff.mp hwen).1
    rw [if_pos rfl, if_pos rfl, if_pos hwb, wdataSw_eq hw hwen]
  | false => rfl

/-- What WBK writes in the cycle after. -/
theorem written_step (i : Cycle) (hw : WbkFresh m.pipe) : (m.step i).written =
    if memPush m.pipe (m.cycle i) then
      writeBack m.written (memWord m.pipe (m.cycle i)) m.pipe.productMem
    else m.written := by
  rw [written, registers_step i hw]
  cases hp : memPush m.pipe (m.cycle i) with
  | true =>
    have hrm : (m.step i).pipe.mem2wbk = _ := mem2wbk_of_memPush hp
    have hprod : (m.step i).pipe.productWbk = m.pipe.productMem := if_pos hp
    have hwen : wenable (m.step i).pipe = (memWord m.pipe (m.cycle i)).wb := by
      rw [wenable, Fifo.isEmpty, hrm]
      exact Bool.and_true _
    rw [if_pos rfl, hwen, State.rm, hrm, hprod, writeBack]
    split_ifs <;> rfl
  | false =>
    have hv : (m.step i).pipe.mem2wbk.v = false := mem2wbk_v_of_not_memPush hp
    have hwen : wenable (m.step i).pipe = false := by
      rw [wenable, Fifo.isEmpty, hv]
      exact Bool.and_false _
    rw [hwen, if_neg Bool.false_ne_true, if_neg Bool.false_ne_true]

theorem read_writeBack (g : Registers) (w : Mem2Wbk) (x2Res : BitVec 32) {r : BitVec 6}
    (hr : r ≠ 0) : (writeBack g w x2Res).read r =
      if w.wb = true ∧ regOf w.dest = r then wdata w x2Res else g.read r := by
  unfold writeBack
  cases hwb : w.wb with
  | true =>
    rw [if_pos rfl, Registers.read_write _ (regOf_lt _) hr]
    simp
  | false => simp

/-- The registers with the write of WBK are those that the bypasses take as committed. -/
theorem read_written (m : System) {r : BitVec 6} (hr : r ≠ 0) :
    m.written.read r = committed m.pipe r := by
  rw [written, committed]
  cases hwen : wenable m.pipe with
  | true =>
    have hwb : m.pipe.rm.wb = true := (Bool.and_eq_true_iff.mp hwen).1
    rw [if_pos rfl, read_writeBack _ _ _ hr, hwb]
    simp
  | false => rfl

/-- A silent word writes nothing. -/
theorem writeBack_of_silent {w : Exe2Mem} (h : Silent w) (g : Registers)
    (result x2Res : BitVec 32) : writeBack g (memWordOf w result) x2Res = g := by
  unfold writeBack
  split_ifs with hwb
  · have hdest : regOf (memWordOf w result).dest = 0 := by
      rw [memWordOf, h.2 hwb]
      rfl
    rw [hdest]
    exact if_pos rfl
  · rfl

/-- Whether the word is still in MEM or only served again, its request is the same. -/
theorem request_eq (w : Exe2Mem) {empty multInstRm : Bool} (h : (!empty || !multInstRm) = true) :
    memPreprocess w empty multInstRm = memPreprocess w false false := by
  unfold memPreprocess
  rw [h]
  rfl

/-- Served for the first time or again, the request of MEM does to the RAM what its instruction
does. -/
theorem Stands.ramCycle_eq (h : Stands m a q) :
    (ramCycle m.ram m.request).1 = (a.after q).ram ∧
      ∀ x, q = [x] → (ramCycle m.ram m.request).2 = (a.answer x).2 := by
  rw [RiVerSoC.ramCycle_eq]
  rcases h.mem with ⟨x, rfl, hv, hre, -⟩ | ⟨rfl, hsilent⟩
  · have hreq : m.request = memPreprocess (a.exeWord x) false false := by
      rw [request, hre, Fifo.isEmpty, hv]
      exact request_eq _ rfl
    have hanswer : ramAccess m.ram m.request = a.answer x := by
      rcases h.ram with hram | hram
      · rw [hram, hreq]
        rfl
      · rw [hram, hreq]
        exact ramAccess_ramAccess ..
    rw [hanswer]
    refine ⟨rfl, ?_⟩
    rintro y hy
    rw [(List.cons.inj hy).1]
  · refine ⟨?_, fun x hx => absurd hx.symm (List.cons_ne_nil _ _)⟩
    have hram : m.ram = a.ram := h.ram.elim id id
    have hsame : (ramAccess m.ram m.request).1 = m.ram := by
      cases hv : m.pipe.exe2mem.v with
      | true =>
        have hstore : m.request.store = false := (hsilent hv).1
        rw [ramAccess, hstore, Bool.false_and]
        rfl
      | false =>
        rw [request, Fifo.isEmpty, hv]
        exact h.again hv _
    rw [hsame, hram]
    rfl

/-- The word of MEM2WBK is that of the machine. -/
theorem Stands.memWord_eq (h : Stands m a q) {x : Executed} (hq : q = [x]) :
    memWord m.pipe (m.cycle i) = a.memWord x ∧ m.pipe.productMem = x.product := by
  rcases h.mem with ⟨y, hy, -, hre, hprod⟩ | ⟨hnil, -⟩
  · obtain rfl : x = y := (List.cons.inj (hq.symm.trans hy)).1
    have hanswer : (m.cycle i).mcacheResult = (a.answer x).2 := h.ramCycle_eq.2 x hq
    have hword : memWord m.pipe (m.cycle i) =
        memWordOf m.pipe.re (m.cycle i).mcacheResult := rfl
    rw [hword, hanswer, hre]
    exact ⟨rfl, hprod⟩
  · exact absurd (hq.symm.trans hnil) (List.cons_ne_nil _ _)

/-- The write of the word in MEM is that of its instruction. -/
theorem Stands.writeBack_eq (h : Stands m a q) (hv : m.pipe.exe2mem.v = true) :
    writeBack m.written (memWord m.pipe (m.cycle i)) m.pipe.productMem =
      (a.after q).registers := by
  rcases h.mem with ⟨x, hq, -, -, -⟩ | ⟨rfl, hsilent⟩
  · obtain ⟨hword, hprod⟩ := h.memWord_eq (i := i) hq
    rw [hword, hprod, h.written, hq]
    rfl
  · exact (writeBack_of_silent (hsilent hv) _ _ _).trans h.written

/-- A register has, for the bypasses, the value that the instruction in MEM leaves. -/
theorem Stands.expected_eq (h : Stands m a q) {r : BitVec 6} (hr : r ≠ 0) :
    expected m.pipe (m.cycle i) r = (a.after q).registers.read r := by
  rw [Backend.expected_eq, ← read_written m hr]
  cases hv : m.pipe.exe2mem.v with
  | true =>
    rw [← h.writeBack_eq (i := i) hv, read_writeBack _ _ _ hr]
    simp
  | false =>
    have hq : q = [] := by
      rcases h.mem with ⟨_, _, hv', _⟩ | ⟨hq, _⟩
      · exact absurd (hv.symm.trans hv') (by decide)
      · exact hq
    rw [Bool.false_and, Bool.false_and, if_neg Bool.false_ne_true, h.written, hq]
    rfl

end Stages

/-! ### One cycle -/

section Step

variable {m : System} {i : Cycle} {a : Arch} {q : List Executed}

/-- What has left MEM in the cycle. -/
def left (m : System) (i : Cycle) (q : List Executed) : List Executed :=
  if memPush m.pipe (m.cycle i) then q else []

/-- What stays there. -/
def kept (m : System) (i : Cycle) (q : List Executed) : List Executed :=
  if memPush m.pipe (m.cycle i) then [] else q

theorem left_append_kept (m : System) (i : Cycle) (q : List Executed) :
    left m i q ++ kept m i q = q := by
  unfold left kept
  split_ifs
  · exact List.append_nil q
  · rfl

theorem kept_of_room (h : Stands m a q)
    (hroom : (memPush m.pipe (m.cycle i) || !m.pipe.exe2mem.v) = true) : kept m i q = [] := by
  rw [Bool.or_eq_true, Bool.not_eq_true'] at hroom
  unfold kept
  rcases hroom with hp | hv
  · exact if_pos hp
  · rcases h.mem with ⟨_, _, hv', _⟩ | ⟨hq, _⟩
    · exact absurd (hv.symm.trans hv') (by decide)
    · rw [hq, ite_self]

/-- The registers and the RAM after the cycle, behind those that have left MEM. -/
theorem Stands.written_step (h : Stands m a q) (hw : WbkFresh m.pipe) :
    (m.step i).written = (a.after (left m i q)).registers := by
  rw [System.written_step i hw, left]
  cases hp : memPush m.pipe (m.cycle i) with
  | true =>
    rw [if_pos rfl, if_pos rfl]
    exact h.writeBack_eq (v_of_memPush hp)
  | false =>
    rw [if_neg Bool.false_ne_true, if_neg Bool.false_ne_true]
    exact h.written

/-- An instruction with an exception from DEC is offered without any effect. -/
theorem silent_of_exception {s : State} {c : Cycle} (hx : c.exceptionSm = false)
    (hexc : s.rd.exception = true) : Silent (exeSig s c).exe2memDinSe := by
  have heffects : Exe.effects (exeInputs s c) (exeSig s c).exceptionSe = (false, false, false) := by
    have hse : (exeSig s c).exceptionSe = true := by
      change (s.rd.exception || _) = true
      rw [hexc, Bool.true_or]
    rw [Exe.effects, hse, if_pos rfl]
  obtain ⟨j, hj⟩ := dinSe_eq_fifoConcat (s := s) hx
  rw [hj, heffects]
  exact ⟨rfl, fun h => absurd h Bool.false_ne_true⟩

theorem silent_trapWord (pc : BitVec 32) : Silent (Exe.trapWord pc) := ⟨rfl, fun _ => rfl⟩

/-- EXE has put a word into EXE2MEM. -/
theorem Stands.mem_of_loads (h : Stands m a q) (hs : m.SoundSources i)
    (hl : m.pipe.exe2mem.loads (exePush m.pipe (m.cycle i)) (memPush m.pipe (m.cycle i)) = true) :
    (∃ x, kept m i q ++ m.executed i = [x] ∧ (m.step i).pipe.exe2mem.v = true ∧
        (m.step i).pipe.re = (a.after (left m i q)).exeWord x ∧
        (m.step i).pipe.productMem = x.product) ∨
      (kept m i q ++ m.executed i = [] ∧
        ((m.step i).pipe.exe2mem.v = true → Silent (m.step i).pipe.re)) := by
  have hkept := kept_of_room h (Bool.and_eq_true_iff.mp hl).2
  have hleft : left m i q = q := by
    have happend := left_append_kept m i q
    rwa [hkept, List.append_nil] at happend
  have hmem : (m.step i).pipe.exe2mem = _ := exe2mem_of_loads hl
  have hprod : (m.step i).pipe.productMem = i.product := if_pos hl
  rw [hkept, List.nil_append, hleft, State.re, hmem, hprod, executed]
  by_cases hp : Pushes m.pipe (m.cycle i)
  · left
    refine ⟨_, if_pos hp, rfl, ?_, rfl⟩
    exact exeWord_eq h.inv hp hs.1 (hs.2 hp) fun r hr => h.expected_eq hr
  · right
    refine ⟨if_neg hp, fun _ => ?_⟩
    cases hx : (m.cycle i).exceptionSm with
    | true =>
      obtain ⟨pc, hpc⟩ := dinSe_of_trap (s := m.pipe) hx
      rw [hpc]
      exact silent_trapWord pc
    | false =>
      refine silent_of_exception hx ?_
      by_contra hexc
      exact hp ⟨(Bool.and_eq_true_iff.mp hl).1, hx, Bool.eq_false_iff.mpr hexc⟩

/-- Without a new word EXE has pushed nothing. -/
theorem executed_of_not_loads (hl : m.pipe.exe2mem.loads (exePush m.pipe (m.cycle i))
    (memPush m.pipe (m.cycle i)) = false) : m.executed i = [] := by
  refine if_neg fun hp => ?_
  have hloads := loads_of_not_trap (s := m.pipe) hp.2.1
  exact absurd (hl.symm.trans (hloads.trans hp.1)) (by decide)

theorem Stands.mem_of_not_loads (h : Stands m a q)
    (hl : m.pipe.exe2mem.loads (exePush m.pipe (m.cycle i)) (memPush m.pipe (m.cycle i)) = false) :
    (∃ x, kept m i q ++ m.executed i = [x] ∧ (m.step i).pipe.exe2mem.v = true ∧
        (m.step i).pipe.re = (a.after (left m i q)).exeWord x ∧
        (m.step i).pipe.productMem = x.product) ∨
      (kept m i q ++ m.executed i = [] ∧
        ((m.step i).pipe.exe2mem.v = true → Silent (m.step i).pipe.re)) := by
  have hre : (m.step i).pipe.re = m.pipe.re := re_of_not_loads hl
  have hv : (m.step i).pipe.exe2mem.v = (m.pipe.exe2mem.v && !memPush m.pipe (m.cycle i)) :=
    exe2mem_v_of_not_loads hl
  have hprod : (m.step i).pipe.productMem = m.pipe.productMem :=
    if_neg (by rw [hl]; exact Bool.false_ne_true)
  rw [executed_of_not_loads hl, List.append_nil, hre, hv, hprod, left, kept]
  cases hp : memPush m.pipe (m.cycle i) with
  | true =>
    right
    refine ⟨rfl, fun hno => ?_⟩
    rw [Bool.not_true, Bool.and_false] at hno
    exact absurd hno Bool.false_ne_true
  | false =>
    rw [Bool.not_false, Bool.and_true]
    exact h.mem

/-- The word that has left MEM does nothing more to the RAM. -/
theorem Stands.again_step (h : Stands m a q) (hv : (m.step i).pipe.exe2mem.v = false)
    (multInstRm : Bool) :
    (ramAccess (m.step i).ram (memPreprocess (m.step i).pipe.re true multInstRm)).1 =
      (m.step i).ram := by
  have hl : m.pipe.exe2mem.loads (exePush m.pipe (m.cycle i))
      (memPush m.pipe (m.cycle i)) = false := by
    by_contra hl
    have hmem : (m.step i).pipe.exe2mem = _ := exe2mem_of_loads (by simpa using hl)
    rw [hmem] at hv
    exact absurd hv.symm Bool.false_ne_true
  have hre : (m.step i).pipe.re = m.pipe.re := re_of_not_loads hl
  have hram : (m.step i).ram = (ramAccess m.ram m.request).1 := by
    rw [← RiVerSoC.ramCycle_eq]
    rfl
  rw [hre, hram]
  cases hvm : m.pipe.exe2mem.v with
  | false =>
    have hsame : (ramAccess m.ram m.request).1 = m.ram := by
      rw [request, Fifo.isEmpty, hvm]
      exact h.again hvm _
    rw [hsame]
    exact h.again hvm _
  | true =>
    cases multInstRm with
    | true => rw [ramAccess_of_not_valid _ _ rfl]
    | false =>
      have hreq : m.request = memPreprocess m.pipe.re true false := by
        rw [request, Fifo.isEmpty, hvm]
        exact (request_eq _ rfl).trans (request_eq _ rfl).symm
      rw [← hreq, ramAccess_ramAccess]

theorem Stands.step (h : Stands m a q) (hs : m.SoundSources i) :
    Stands (m.step i) (a.after (left m i q)) (kept m i q ++ m.executed i) where
  inv := inv_step h.inv hs.1.1 _
  written := h.written_step hs.1.1
  mem := by
    cases hl : m.pipe.exe2mem.loads (exePush m.pipe (m.cycle i)) (memPush m.pipe (m.cycle i)) with
    | true => exact h.mem_of_loads hs hl
    | false => exact h.mem_of_not_loads hl
  ram := by
    have hram : (m.step i).ram = _ := h.ramCycle_eq.1
    rw [hram, left, kept]
    cases hp : memPush m.pipe (m.cycle i) with
    | true => exact Or.inl rfl
    | false =>
      rw [if_neg Bool.false_ne_true, if_neg Bool.false_ne_true]
      cases hl : m.pipe.exe2mem.loads (exePush m.pipe (m.cycle i)) (memPush m.pipe (m.cycle i)) with
      | true =>
        -- EXE sends a word although MEM keeps its place: there was none
        left
        have hkept := kept_of_room h (Bool.and_eq_true_iff.mp hl).2
        rw [kept, hp, if_neg Bool.false_ne_true] at hkept
        rw [hkept]
      | false =>
        right
        rw [executed_of_not_loads hl, List.append_nil]
        rfl
  again := fun hv multInstRm => h.again_step hv multInstRm

theorem executes_step (hs : m.SoundSources i) :
    Run.ExecutesStep Arch.execute (fun m i => m.executed i) Stands System.step m i := by
  intro a q h
  refine ⟨left m i q, kept m i q ++ m.executed i, h.step hs, ?_⟩
  rw [← List.append_assoc, left_append_kept]

end Step

/-! ### Runs -/

theorem stands_reset (ram : Ram) : Stands (reset ram) (Arch.start ram) [] where
  inv := inv_reset
  written := rfl
  mem := Or.inr ⟨rfl, fun h => absurd h Bool.false_ne_true⟩
  ram := Or.inl rfl
  again := fun _ _ => by
    rw [ramAccess, show (memPreprocess _ _ _).store = false from rfl, Bool.false_and]
    rfl

/-- In every run in which the pushed instructions have sound sources, traps and exceptions
included, the registers and the RAM are those of a machine that executes these instructions one
after the other, but for the one in MEM. -/
theorem executes_sound (ram : Ram) (is : List Cycle)
    (h : Run.Each SoundSources step (reset ram) is) :
    ∃ done waiting,
      Stands (Run.after step (reset ram) is) ((Arch.start ram).after done) waiting ∧
        done ++ waiting = Run.collect executed step (reset ram) is :=
  Run.executes_after (stands_reset ram)
    (Run.each_mono (fun _ _ hs => executes_step hs) h)

/-- `addi x6, x0, 8`, a store of x6 to its own address, a load from there and an addition that
waits for it. -/
def storing : List Cycle :=
  [0x00800313, 0x00632023, 0x00032383, 0x00038433, 0x00038433, 0x00038433, 0x00038433,
    0x00038433].map fetched

theorem executes_sound_storing : ∃ done waiting,
    Stands (Run.after step (reset fun _ => 0) storing) ((Arch.start fun _ => 0).after done)
      waiting ∧ done ++ waiting = Run.collect executed step (reset fun _ => 0) storing :=
  executes_sound _ storing (by decide +kernel)

end System

end Backend

end RiVerSoC
