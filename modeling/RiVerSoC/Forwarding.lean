/-
Operand forwarding.

EXE takes an operand from EXE2MEM, from MEM2WBK, or as DEC captured it.  Each source is
right under its own conditions, which depend on the kind of the producer only, once the method
that reads it has been woken by it.

* `captured_eq` — a captured operand is the value that is known in DEC;
* `op1_eq_expected`, `op2_eq_expected` — with sound sources, an instruction that EXE pushes
  has the values that the youngest older writers of its registers write back;
* `each_exact` — along every run with sound sources every pushed operand is exact.
-/
import RiVerSoC.InFlight

namespace RiVerSoC

namespace Backend

/-! ### Captured operands -/

/-- The pipeline, and for each operand of the word in DEC2EXE whether DEC captured it from a
source that delivers it. -/
structure Tracked where
  base : State
  captured : Bool × Bool

/-- DEC may capture the operand: it is valid, a bypassed word writes the register back, and
`csrrc` takes a bypassed value from CSR instructions only, because DEC complements the
results of the others on the way and once more as an operand. -/
def captures (p : Dec.Stages) (csrrc : Bool) (radr : BitVec 6) : Bool :=
  (Dec.bypass p csrrc radr 0 0).2 &&
    if p.inMem radr then p.re.wb && (!csrrc || p.re.csrWenable)
    else if p.inWbk radr then p.rm.wb && (!csrrc || p.rm.csrWenable)
    else true

def Tracked.step (t : Tracked) (i : Cycle) : Tracked where
  base := Backend.step t.base i
  captured :=
    if t.base.dec2exe.loads (decPush t.base i) (exePush t.base i) then
      (decide (HazardsFresh t.base i) && captures (decContents t.base i).stages
          (decSig t.base i).insts.csrrc (decSig t.base i).radr.1,
        decide (HazardsFresh t.base i) && captures (decContents t.base i).stages
          (decSig t.base i).insts.csrrc (decSig t.base i).radr.2)
    else t.captured

def Tracked.reset : Tracked := ⟨Backend.reset, (false, false)⟩

/-! ### Sound sources -/

/-- A load in EXE2MEM that has not left writes the register. -/
def loadAhead (s : State) (r : BitVec 6) : Bool :=
  s.re.dest == r && s.re.memLoad && s.exe2mem.v

/-- A multiplication in EXE2MEM that has not left writes the register. -/
def multAhead (s : State) (r : BitVec 6) : Bool :=
  s.re.dest == r && s.re.multInst && s.exe2mem.v

/-- The source of the first operand is right: the branches are those of `bypasses`. -/
def SoundRs1 (t : Tracked) : Prop :=
  let s := t.base
  let r := s.rd.radr1
  if s.re.dest = r ∧ s.re.csrWenable then (s.re.wb || s.re.memLoad) ∧ ¬ s.rd.csrrcI
  else if s.re.dest = r ∧ ¬ s.re.memLoad then s.re.wb ∧ ¬ s.re.multInst
  else if regOf s.rm.dest = r ∧ s.rm.csrWenable then
    s.rm.wb ∧ ¬ s.rd.csrrcI ∧ ¬ loadAhead s r
  else if regOf s.rm.dest = r then s.rm.wb ∧ ¬ s.rm.multInst ∧ ¬ loadAhead s r
  else t.captured.1

/-- The source of the second operand is right. -/
def SoundRs2 (t : Tracked) : Prop :=
  let s := t.base
  let r := s.rd.radr2
  if s.re.dest = r ∧ ¬ s.re.memLoad ∧ ¬ s.re.multInst then s.re.wb = true
  else if regOf s.rm.dest = r ∧ ¬ s.rm.multInst then
    s.rm.wb ∧ ¬ s.rm.csrWenable ∧ ¬ loadAhead s r ∧ ¬ multAhead s r
  else t.captured.2 = true

instance (t : Tracked) : Decidable (SoundRs1 t) := by unfold SoundRs1; infer_instance

instance (t : Tracked) : Decidable (SoundRs2 t) := by unfold SoundRs2; infer_instance

/-- EXE pushes an instruction, without a trap and without an exception from DEC. -/
def Pushes (s : State) (i : Cycle) : Prop :=
  exePush s i = true ∧ i.exceptionSm = false ∧ s.rd.exception = false

instance (s : State) (i : Cycle) : Decidable (Pushes s i) := inferInstanceAs (Decidable (_ ∧ _))

/-- WBK writes what it is to write, and the operands of a pushed instruction have sound
sources, which EXE has looked at. -/
def Sound (t : Tracked) (i : Cycle) : Prop :=
  WbkFresh t.base ∧ (Pushes t.base i →
    (t.base.rd.radr1 ≠ 0 → t.base.rd.blockBp = false → OperandsFresh t.base i ∧ SoundRs1 t) ∧
    (t.base.rd.radr2 ≠ 0 → t.base.rd.blockBp = false → OperandsFresh t.base i ∧ SoundRs2 t))

instance (t : Tracked) (i : Cycle) : Decidable (Sound t i) := inferInstanceAs (Decidable (_ ∧ _))

/-! ### Exact operands -/

/-- `csrrc` works on the complement of its register. -/
def complement (csrrc : Bool) (v : BitVec 32) : BitVec 32 := if csrrc then ~~~v else v

/-- The data of a store, or the second operand. -/
def operand2 (w : Dec2Exe) (op2Se bpMemDataSd : BitVec 32) : BitVec 32 :=
  if w.memStore then bpMemDataSd else op2Se

/-- The operands of a pushed instruction that come from registers are the values that the
youngest older writers write back. -/
def Exact (t : Tracked) (i : Cycle) : Prop :=
  Pushes t.base i →
    (t.base.rd.radr1 ≠ 0 → t.base.rd.blockBp = false →
      (exeSig t.base i).byp.op1Se =
        complement t.base.rd.csrrcI (expected t.base i t.base.rd.radr1)) ∧
    (t.base.rd.radr2 ≠ 0 → t.base.rd.blockBp = false →
      operand2 t.base.rd (exeSig t.base i).byp.op2Se (exeSig t.base i).byp.bpMemDataSd =
        expected t.base i t.base.rd.radr2)

instance (t : Tracked) (i : Cycle) : Decidable (Exact t i) := inferInstanceAs (Decidable (_ → _))

/-! ### DEC -/

variable {s : State} {i : Cycle}

theorem inMem_iff {r : BitVec 6} :
    (decContents s i).stages.inMem r = true ↔ s.exe2mem.v = true ∧ s.re.dest = r := by
  change (r == s.re.dest && !!s.exe2mem.v) = true ↔ _
  rw [Bool.not_not, Bool.and_eq_true, beq_iff_eq, and_comm, eq_comm (a := r)]

theorem inWbk_iff {r : BitVec 6} :
    (decContents s i).stages.inWbk r = true ↔ s.mem2wbk.v = true ∧ regOf s.rm.dest = r := by
  change (r == regOf s.rm.dest && !!s.mem2wbk.v) = true ↔ _
  rw [Bool.not_not, Bool.and_eq_true, beq_iff_eq, and_comm, eq_comm (a := r)]

theorem known_of_not_mem {r : BitVec 6} (h : ¬ (s.exe2mem.v = true ∧ s.re.dest = r)) :
    known s r = committed s r := by
  rw [known, if_neg]
  intro hm
  obtain ⟨hv, hd⟩ := Bool.and_eq_true_iff.mp hm
  exact h ⟨hv, beq_iff_eq.mp hd⟩

/-- A bypassed value that DEC complements for `csrrc` is the old value of a CSR. -/
theorem bypassed_eq {csrWenable csrrc : Bool} (h : (!csrrc || csrWenable) = true)
    (csrRdata res : BitVec 32) :
    Dec.bypassed csrWenable csrRdata csrrc res = if csrWenable then csrRdata else res := by
  unfold Dec.bypassed
  cases csrWenable with
  | true => rfl
  | false =>
    cases csrrc with
    | true => exact absurd h (by decide)
    | false => rfl

/-- A captured operand is the value that is known in DEC, and no instruction in EXE writes
its register. -/
theorem captured_eq {r : BitVec 6} {csrrc : Bool} (hr : r ≠ 0)
    (hcap : captures (decContents s i).stages csrrc r = true) (old : BitVec 32) :
    (Dec.bypass (decContents s i).stages csrrc r (s.registers.read r) old).1 = known s r ∧
      Delivers s r ∧ (decContents s i).stages.inExe r = false := by
  obtain ⟨hvalid, hsource⟩ := Bool.and_eq_true_iff.mp hcap
  unfold Dec.bypass at hvalid ⊢
  rw [if_neg hr] at hvalid ⊢
  -- an operand that is not valid is not captured
  split_ifs at hvalid ⊢ with hexe hload hmultM hmultW hmem hwbk
  · obtain ⟨hv, hdest⟩ := inMem_iff.mp hmem
    rw [if_pos hmem] at hsource
    obtain ⟨hwb, hcsrrc⟩ := Bool.and_eq_true_iff.mp hsource
    rw [hmem, Bool.true_and, Bool.not_eq_true] at hload hmultM
    refine ⟨?_, fun _ _ => ⟨hload, hmultM, hwb⟩, Bool.eq_false_iff.mpr hexe⟩
    rw [known, hv, hdest, beq_self_eq_true, Bool.true_and, if_pos rfl]
    exact bypassed_eq hcsrrc _ _
  · obtain ⟨hv, hdest⟩ := inWbk_iff.mp hwbk
    rw [if_neg hmem, if_pos hwbk] at hsource
    obtain ⟨hwb, hcsrrc⟩ := Bool.and_eq_true_iff.mp hsource
    rw [hwbk, Bool.true_and, Bool.not_eq_true] at hmultW
    have hnot : ¬ (s.exe2mem.v = true ∧ s.re.dest = r) := fun h => hmem (inMem_iff.mpr h)
    refine ⟨?_, fun hv' hd => absurd ⟨hv', hd⟩ hnot, Bool.eq_false_iff.mpr hexe⟩
    have hmult : s.rm.multInst = false := hmultW
    have hwrites : (wenable s && regOf s.rm.dest == r) = true := by
      have hwb' : s.mem2wbk.dout.wb = true := hwb
      rw [wenable, hwb', Fifo.isEmpty, hv, hdest, beq_self_eq_true]
      rfl
    rw [known_of_not_mem hnot, committed, if_pos hwrites, wdata, hmult]
    exact bypassed_eq hcsrrc _ _
  · have hnot : ¬ (s.exe2mem.v = true ∧ s.re.dest = r) := fun h => hmem (inMem_iff.mpr h)
    have hnotW : ¬ (s.mem2wbk.v = true ∧ regOf s.rm.dest = r) := fun h => hwbk (inWbk_iff.mpr h)
    refine ⟨?_, fun hv' hd => absurd ⟨hv', hd⟩ hnot, Bool.eq_false_iff.mpr hexe⟩
    rw [known_of_not_mem hnot, committed, if_neg]
    intro h
    obtain ⟨hwen, hdest⟩ := Bool.and_eq_true_iff.mp h
    refine hnotW ⟨?_, beq_iff_eq.mp hdest⟩
    have hempty := (Bool.and_eq_true_iff.mp hwen).2
    rwa [Fifo.isEmpty, Bool.not_not] at hempty

/-- When an instruction leaves DEC, nothing that writes a register which it captures
enters MEM. -/
theorem dest_ne_of_not_inExe {r : BitVec 6} (hx : i.exceptionSm = false)
    (hexe : (decContents s i).stages.inExe r = false)
    (hload : s.exe2mem.loads (exePush s i) (memPush s i) = true) :
    (exeSig s i).exe2memDinSe.dest ≠ r := by
  rw [dest_dinSe, hx, if_neg Bool.false_ne_true]
  have hpush : exePush s i = true := (Bool.and_eq_true_iff.mp hload).1
  have hv : s.dec2exe.v = true := v_of_exePush hx hpush
  intro heq
  have hexe' : (r == s.rd.dest && !!s.dec2exe.v) = false := hexe
  rw [hv, heq, beq_self_eq_true] at hexe'
  exact absurd hexe' (by decide)

/-! ### The invariant -/

/-- A second register belongs to neither `csrrc` nor a load. -/
structure SecondRegister (s : State) : Prop where
  csrrc : s.rd.csrrcI = false
  load : s.rd.memLoad = false

/-- What holds in every cycle of a run. -/
structure Inv (t : Tracked) : Prop where
  retained : Retained t.base
  op1 : t.base.dec2exe.v = true → t.captured.1 = true → t.base.rd.radr1 ≠ 0 →
    t.base.rd.blockBp = false →
    t.base.rd.op1 = complement t.base.rd.csrrcI (known t.base t.base.rd.radr1) ∧
      Delivers t.base t.base.rd.radr1
  op2 : t.base.dec2exe.v = true → t.captured.2 = true → t.base.rd.radr2 ≠ 0 →
    t.base.rd.exception = false →
    operand2 t.base.rd t.base.rd.op2 t.base.rd.memData =
        known t.base t.base.rd.radr2 ∧ Delivers t.base t.base.rd.radr2
  second : t.base.dec2exe.v = true → t.base.rd.radr2 ≠ 0 → SecondRegister t.base

theorem inv_reset : Inv Tracked.reset where
  retained := retained_reset
  op1 h := absurd h (by decide)
  op2 h := absurd h (by decide)
  second h := absurd h (by decide)

/-- The word that DEC offers, when MEM takes no trap. -/
theorem decWord_eq (hx : i.exceptionSm = false) :
    (decWord s i).radr1 = (decSig s i).radr.1 ∧ (decWord s i).radr2 = (decSig s i).radr.2 ∧
      (decWord s i).csrrcI = (decSig s i).insts.csrrc ∧
      (decWord s i).blockBp = (decSig s i).types.jalr ∧
      (decWord s i).op1 = (decOperation s i).op1 ∧ (decWord s i).op2 = (decOperation s i).op2 ∧
      (decWord s i).memData = (decOperation s i).memData ∧
      (decWord s i).memStore = (decOperation s i).memStore ∧
      (decWord s i).memLoad = (decOperation s i).memLoad ∧
      ((decWord s i).exception = false → (decOperation s i).illegalInstruction = false) := by
  unfold decWord Dec.concatDec2exe
  rw [hx, if_neg Bool.false_ne_true]
  refine ⟨rfl, rfl, rfl, rfl, rfl, rfl, rfl, rfl, rfl, ?_⟩
  intro h
  simp only [Bool.or_eq_false_iff] at h
  exact h.1.1.1.1.1.1.1.1

/-- The word offered under a trap reads no register. -/
theorem decWord_of_trap (hx : i.exceptionSm = true) :
    (decWord s i).radr1 = 0 ∧ (decWord s i).radr2 = 0 := by
  unfold decWord Dec.concatDec2exe
  rw [if_pos hx]
  exact ⟨rfl, rfl⟩

theorem if2decEmpty_of_decPush (hx : i.exceptionSm = false) (hpush : decPush s i = true) :
    i.if2decEmpty = false := by
  have hstall : Dec.stall _ _ _ i.if2decEmpty _ = false := stallSd_of_decPush hx hpush
  unfold Dec.stall at hstall
  simp only [Bool.or_eq_false_iff] at hstall
  exact hstall.1.2

section Step

variable {t : Tracked}

/-- An instruction that stays in EXE keeps a known operand. -/
theorem known_of_stays {r : BitVec 6} (h : Inv t) (hw : WbkFresh t.base)
    (hpush : exePush t.base i = false) (hr : r ≠ 0) (hs : Delivers t.base r) :
    known (Backend.step t.base i) r = known t.base r ∧ Delivers (Backend.step t.base i) r := by
  refine known_step h.retained hw hr hs ?_
  intro hload
  rw [hpush] at hload
  exact absurd hload Bool.false_ne_true

/-- An instruction that leaves DEC has a known operand. -/
theorem known_of_captured {r : BitVec 6} {csrrc : Bool} (h : Inv t) (hw : WbkFresh t.base)
    (hx : i.exceptionSm = false) (hr : r ≠ 0)
    (hcap : captures (decContents t.base i).stages csrrc r = true) (old : BitVec 32) :
    (Dec.bypass (decContents t.base i).stages csrrc r (t.base.registers.read r) old).1 =
        known (Backend.step t.base i) r ∧ Delivers (Backend.step t.base i) r := by
  obtain ⟨hvalue, hdelivers, hexe⟩ := captured_eq hr hcap old
  obtain ⟨hknown, hdelivers'⟩ :=
    known_step h.retained hw hr hdelivers (dest_ne_of_not_inExe hx hexe)
  exact ⟨hvalue.trans hknown.symm, hdelivers'⟩

/-- Either the instruction in EXE stays there, or DEC has sent another one. -/
theorem stays_or_loads (hv : (Backend.step t.base i).dec2exe.v = true) :
    (t.base.dec2exe.loads (decPush t.base i) (exePush t.base i) = false ∧
      t.base.dec2exe.v = true ∧ exePush t.base i = false ∧
      (Backend.step t.base i).rd = t.base.rd ∧ (t.step i).captured = t.captured) ∨
    (t.base.dec2exe.loads (decPush t.base i) (exePush t.base i) = true ∧
      decPush t.base i = true ∧ (Backend.step t.base i).rd = decWord t.base i) := by
  cases hl : t.base.dec2exe.loads (decPush t.base i) (exePush t.base i) with
  | false =>
    have hv' : (t.base.dec2exe.v && !exePush t.base i) = true :=
      (Fifo.v_clock_of_not_load hl).symm.trans hv
    obtain ⟨hv1, hpush⟩ := Bool.and_eq_true_iff.mp hv'
    refine .inl ⟨rfl, hv1, ?_, Fifo.dout_clock_of_not_load hl, ?_⟩
    · exact Bool.not_eq_true' _ ▸ hpush
    · rw [Tracked.step, if_neg (by rw [hl]; exact Bool.false_ne_true)]
  | true =>
    exact .inr ⟨rfl, (Bool.and_eq_true_iff.mp hl).1, congrArg Fifo.dout (Fifo.clock_of_load hl)⟩

theorem op1_step (h : Inv t) (hw : WbkFresh t.base)
    (hv : (Backend.step t.base i).dec2exe.v = true)
    (hcap : (t.step i).captured.1 = true) (hr : (Backend.step t.base i).rd.radr1 ≠ 0)
    (hblock : (Backend.step t.base i).rd.blockBp = false) :
    (Backend.step t.base i).rd.op1 = complement (Backend.step t.base i).rd.csrrcI
        (known (Backend.step t.base i) (Backend.step t.base i).rd.radr1) ∧
      Delivers (Backend.step t.base i) (Backend.step t.base i).rd.radr1 := by
  rcases stays_or_loads hv with ⟨-, hv1, hpush, hrd, hcaptured⟩ | ⟨hl, -, hrd⟩
  · rw [hcaptured] at hcap
    rw [hrd] at hr hblock ⊢
    obtain ⟨hop, hdelivers⟩ := h.op1 hv1 hcap hr hblock
    obtain ⟨hknown, hdelivers'⟩ := known_of_stays h hw hpush hr hdelivers
    exact ⟨by rw [hknown]; exact hop, hdelivers'⟩
  · rw [hrd] at hr hblock ⊢
    have hx : i.exceptionSm = false := by
      cases hx : i.exceptionSm
      · rfl
      · exact absurd (decWord_of_trap hx).1 hr
    obtain ⟨hradr, -, hcsrrc, hjalr, hop, -⟩ := decWord_eq (s := t.base) hx
    rw [Tracked.step, if_pos hl] at hcap
    obtain ⟨hfresh, hcap⟩ := Bool.and_eq_true_iff.mp hcap
    obtain ⟨old, hhaz⟩ := haz_eq (of_decide_eq_true hfresh)
    rw [hradr] at hr ⊢
    rw [hjalr] at hblock
    rw [hop, hcsrrc]
    obtain ⟨hvalue, hdelivers⟩ := known_of_captured h hw hx hr hcap old.rdata1
    have hrdata : (decSig t.base i).haz.rdata1 =
        known (Backend.step t.base i) (decSig t.base i).radr.1 :=
      (congrArg Dec.Hazards.rdata1 hhaz).trans hvalue
    refine ⟨?_, hdelivers⟩
    rw [← hrdata]
    exact Decode.op1_of_radr1 rfl rfl hr hblock _ _ _

theorem op2_step (h : Inv t) (hw : WbkFresh t.base)
    (hv : (Backend.step t.base i).dec2exe.v = true)
    (hcap : (t.step i).captured.2 = true) (hr : (Backend.step t.base i).rd.radr2 ≠ 0)
    (hexc : (Backend.step t.base i).rd.exception = false) :
    (if (Backend.step t.base i).rd.memStore then (Backend.step t.base i).rd.memData
        else (Backend.step t.base i).rd.op2) =
        known (Backend.step t.base i) (Backend.step t.base i).rd.radr2 ∧
      Delivers (Backend.step t.base i) (Backend.step t.base i).rd.radr2 := by
  rcases stays_or_loads hv with ⟨-, hv1, hpush, hrd, hcaptured⟩ | ⟨hl, hdec, hrd⟩
  · rw [hcaptured] at hcap
    rw [hrd] at hr hexc ⊢
    obtain ⟨hop, hdelivers⟩ := h.op2 hv1 hcap hr hexc
    obtain ⟨hknown, hdelivers'⟩ := known_of_stays h hw hpush hr hdelivers
    exact ⟨by rw [hknown]; exact hop, hdelivers'⟩
  · rw [hrd] at hr hexc ⊢
    have hx : i.exceptionSm = false := by
      cases hx : i.exceptionSm
      · rfl
      · exact absurd (decWord_of_trap hx).2 hr
    obtain ⟨-, hradr, -, -, -, hop, hdata, hstore, -, hlegal⟩ := decWord_eq (s := t.base) hx
    rw [Tracked.step, if_pos hl] at hcap
    obtain ⟨hfresh, hcap⟩ := Bool.and_eq_true_iff.mp hcap
    obtain ⟨old, hhaz⟩ := haz_eq (of_decide_eq_true hfresh)
    rw [hradr] at hr ⊢
    rw [hop, hdata, hstore]
    obtain ⟨hvalue, hdelivers⟩ := known_of_captured h hw hx hr hcap old.rdata2
    have hrdata : (decSig t.base i).haz.rdata2 =
        known (Backend.step t.base i) (decSig t.base i).radr.2 :=
      (congrArg Dec.Hazards.rdata2 hhaz).trans hvalue
    refine ⟨?_, hdelivers⟩
    rw [← hrdata]
    exact Decode.op2_of_radr2 rfl rfl hr _ _ _ (if2decEmpty_of_decPush hx hdec) (hlegal hexc)

theorem second_step (h : Inv t) (hv : (Backend.step t.base i).dec2exe.v = true)
    (hr : (Backend.step t.base i).rd.radr2 ≠ 0) : SecondRegister (Backend.step t.base i) := by
  rcases stays_or_loads hv with ⟨-, hv1, -, hrd, -⟩ | ⟨-, -, hrd⟩
  · rw [hrd] at hr
    obtain ⟨hcsrrc, hload⟩ := h.second hv1 hr
    exact ⟨by rw [hrd]; exact hcsrrc, by rw [hrd]; exact hload⟩
  · rw [hrd] at hr
    have hx : i.exceptionSm = false := by
      cases hx : i.exceptionSm
      · rfl
      · exact absurd (decWord_of_trap hx).2 hr
    obtain ⟨-, hradr, hcsrrc, -, -, -, -, -, hload, -⟩ := decWord_eq (s := t.base) hx
    rw [hradr] at hr
    obtain ⟨hno, hnoload⟩ := Decode.not_csrrc_of_radr2 (n := (decSig t.base i).insts)
      (t := (decSig t.base i).types) rfl rfl hr _ i.uninit t.base.operation
    exact ⟨by rw [hrd, hcsrrc]; exact hno, by rw [hrd, hload]; exact hnoload⟩

theorem inv_step (h : Inv t) (hw : WbkFresh t.base) (i : Cycle) : Inv (t.step i) where
  retained := retained_step i h.retained hw
  op1 := op1_step h hw
  op2 := op2_step h hw
  second := second_step h

end Step

/-! ### EXE -/

section Sources

variable {t : Tracked}

/-- A load that has not left MEM is the word that EXE sees there. -/
theorem not_loadAhead {r : BitVec 6} (h : loadAhead s r = false) (hdest : s.re.dest = r)
    (hload : s.re.memLoad = true) : s.exe2mem.v = false := by
  rw [loadAhead, hdest, hload, beq_self_eq_true, Bool.true_and, Bool.true_and] at h
  exact h

/-- The word in MEM does not write the register that the branches for MEM2WBK see. -/
theorem not_re_of_not_loadAhead {r : BitVec 6} (hskip : ¬ (s.re.dest = r ∧ ¬ s.re.memLoad = true))
    (h : loadAhead s r = false) : s.exe2mem.v = true → s.re.dest ≠ r := by
  intro hv hdest
  have hload : s.re.memLoad = true := by
    by_contra hno
    exact hskip ⟨hdest, hno⟩
  rw [not_loadAhead h hdest hload] at hv
  exact absurd hv Bool.false_ne_true

/-- A captured value is what the youngest older writer writes back, once no word in MEM
writes the register. -/
theorem known_eq_expected {r : BitVec 6} (h : Retained s)
    (hre : s.exe2mem.v = true → s.re.dest ≠ r) : known s r = expected s i r := by
  rw [expected_of_not_re h hre]
  exact known_of_not_mem fun hm => hre hm.1 hm.2

/-- The chain on rs1 over the contents of the three FIFOs. -/
theorem bypassRs1_eq (s : State) (i : Cycle) (old : BitVec 32) :
    Exe.bypassRs1 (exeInputs s i) old =
      if s.rd.radr1 = 0 ∨ s.rd.blockBp = true then (s.rd.op1, false, true)
      else if s.re.dest = s.rd.radr1 ∧ s.re.csrWenable = true then (s.re.csrRdata, false, true)
      else if s.re.dest = s.rd.radr1 ∧ ¬ s.re.memLoad = true then
        (complement s.rd.csrrcI s.re.exeRes, false, !s.re.multInst || s.exe2mem.isEmpty)
      else if regOf s.rm.dest = s.rd.radr1 ∧ s.rm.csrWenable = true then
        (s.rm.csrRdata, false, true)
      else if regOf s.rm.dest = s.rd.radr1 then
        (complement s.rd.csrrcI s.rm.memRes, false, !s.rm.multInst || s.mem2wbk.isEmpty)
      else if Exe.loadAhead (exeInputs s i) s.rd.radr1 then (old, true, true)
      else (s.rd.op1, false, true) := rfl

/-- What the chain on rs2 takes from a word that EXE2MEM or MEM2WBK shows. -/
def withBypassed (w : Dec2Exe) (bpValue : BitVec 32) : BitVec 32 × BitVec 32 × Bool :=
  if w.memStore then (w.op2, bpValue, false) else (bpValue, w.memData, false)

/-- The chain on rs2 over the contents of the three FIFOs. -/
theorem bypassRs2_eq (s : State) (i : Cycle) (old : BitVec 32) :
    Exe.bypassRs2 (exeInputs s i) old =
      if s.rd.radr2 = 0 ∨ s.rd.memLoad = true ∨ s.rd.blockBp = true then
        (s.rd.op2, s.rd.memData, false)
      else if s.re.dest = s.rd.radr2 ∧ ¬ s.re.memLoad = true ∧ ¬ s.re.multInst = true then
        withBypassed s.rd
          (Dec.bypassed s.re.csrWenable s.re.csrRdata s.rd.csrrcI s.re.exeRes)
      else if regOf s.rm.dest = s.rd.radr2 ∧ ¬ s.rm.multInst = true then
        withBypassed s.rd s.rm.memRes
      else if Exe.loadAhead (exeInputs s i) s.rd.radr2 then (old, s.rd.memData, true)
      else (s.rd.op2, s.rd.memData, false) := rfl

theorem operand2_withBypassed (w : Dec2Exe) (v : BitVec 32) :
    operand2 w (withBypassed w v).1 (withBypassed w v).2.1 = v := by
  unfold operand2 withBypassed
  cases w.memStore <;> rfl

/-- A first operand that is not blocked. -/
theorem op1Se_of_free (h : Inv t) (hv : t.base.dec2exe.v = true) (hf : OperandsFresh t.base i)
    (hfree : (Exe.bypassRs1 (exeInputs t.base i) t.base.exe.sig.byp.op1Se).2.1 = false)
    (hr : t.base.rd.radr1 ≠ 0) (hblock : t.base.rd.blockBp = false) (hs : SoundRs1 t) :
    (exeSig t.base i).byp.op1Se =
      complement t.base.rd.csrrcI (expected t.base i t.base.rd.radr1) := by
  have hop : (exeSig t.base i).byp.op1Se =
      (Exe.bypassRs1 (exeInputs t.base i) t.base.exe.sig.byp.op1Se).1 :=
    congrArg Exe.Bypassed.op1Se (byp_eq hf)
  have hskip : ¬ (t.base.rd.radr1 = 0 ∨ t.base.rd.blockBp = true) := by
    rw [hblock]
    exact fun h0 => h0.elim hr Bool.false_ne_true
  rw [hop]
  unfold SoundRs1 at hs
  dsimp only at hs
  rw [bypassRs1_eq, if_neg hskip] at hfree ⊢
  split_ifs at hs hfree ⊢ with hmemCsr hmem hwbkCsr hwbk hahead
  · -- a CSR instruction in MEM gives the old value of its CSR, which nothing complements
    obtain ⟨hwb, hcsrrc⟩ := hs
    obtain ⟨hdest, hcsr⟩ := hmemCsr
    rw [expected_of_re h.retained hr hdest hwb (.inr hcsr) (.inr hcsr), hcsr]
    rw [complement, if_neg hcsrrc]
    rfl
  · -- the result in EXE2MEM
    obtain ⟨hwb, hmult⟩ := hs
    obtain ⟨hdest, hload⟩ := hmem
    have hcsr : t.base.re.csrWenable = false := Bool.eq_false_iff.mpr fun hc => hmemCsr ⟨hdest, hc⟩
    rw [expected_of_re h.retained hr hdest (Bool.or_eq_true_iff.mpr (.inl hwb))
      (.inl (Bool.eq_false_iff.mpr hload)) (.inl (Bool.eq_false_iff.mpr hmult)), hcsr]
    rfl
  · -- a CSR instruction in WBK, with nothing younger for the register
    obtain ⟨hwb, hcsrrc, hno⟩ := hs
    obtain ⟨hdest, hcsr⟩ := hwbkCsr
    have hre := not_re_of_not_loadAhead hmem (Bool.eq_false_iff.mpr hno)
    rw [expected_of_not_re h.retained hre, committed_of_rm h.retained hr hdest hwb, wdata, hcsr]
    rw [complement, if_neg hcsrrc]
    rfl
  · -- the result in MEM2WBK
    obtain ⟨hwb, hmult, hno⟩ := hs
    have hcsr : t.base.rm.csrWenable = false := Bool.eq_false_iff.mpr fun hc => hwbkCsr ⟨hwbk, hc⟩
    have hre := not_re_of_not_loadAhead hmem (Bool.eq_false_iff.mpr hno)
    rw [expected_of_not_re h.retained hre, committed_of_rm h.retained hr hwbk hwb, wdata, hcsr,
      Bool.eq_false_iff.mpr hmult]
    rfl
  · -- the operand is not blocked
    have hre : t.base.exe2mem.v = true → t.base.re.dest ≠ t.base.rd.radr1 := by
      intro hv' hdest
      by_cases hload : t.base.re.memLoad = true
      · refine hahead ⟨hdest, hload, ?_⟩
        change ¬ (!t.base.exe2mem.v) = true
        rw [hv']
        decide
      · exact hmem ⟨hdest, hload⟩
    rw [(h.op1 hv hs hr hblock).1, known_eq_expected h.retained hre]

/-- A second operand that is not blocked. -/
theorem operand2_of_free (h : Retained t.base) (hsecond : SecondRegister t.base)
    (hf : OperandsFresh t.base i)
    (hcaptured : t.captured.2 = true →
      operand2 t.base.rd t.base.rd.op2 t.base.rd.memData = known t.base t.base.rd.radr2 ∧
        Delivers t.base t.base.rd.radr2)
    (hfree : (Exe.bypassRs2 (exeInputs t.base i) t.base.exe.sig.byp.op2Se).2.2 = false)
    (hr : t.base.rd.radr2 ≠ 0) (hblock : t.base.rd.blockBp = false) (hs : SoundRs2 t) :
    operand2 t.base.rd (exeSig t.base i).byp.op2Se (exeSig t.base i).byp.bpMemDataSd =
      expected t.base i t.base.rd.radr2 := by
  obtain ⟨hcsrrc, hload⟩ := hsecond
  have hop : operand2 t.base.rd (exeSig t.base i).byp.op2Se (exeSig t.base i).byp.bpMemDataSd =
      operand2 t.base.rd (Exe.bypassRs2 (exeInputs t.base i) t.base.exe.sig.byp.op2Se).1
        (Exe.bypassRs2 (exeInputs t.base i) t.base.exe.sig.byp.op2Se).2.1 := by
    rw [byp_eq hf]
    rfl
  have hskip : ¬ (t.base.rd.radr2 = 0 ∨ t.base.rd.memLoad = true ∨ t.base.rd.blockBp = true) := by
    rw [hload, hblock]
    rintro (h0 | h0 | h0)
    · exact hr h0
    · exact Bool.false_ne_true h0
    · exact Bool.false_ne_true h0
  rw [hop]
  unfold SoundRs2 at hs
  dsimp only at hs
  rw [bypassRs2_eq, if_neg hskip] at hfree ⊢
  split_ifs at hs hfree ⊢ with hmem hwbk hahead
  · -- the result in EXE2MEM
    obtain ⟨hdest, hload', hmult'⟩ := hmem
    rw [operand2_withBypassed, bypassed_eq (by rw [hcsrrc]; rfl),
      expected_of_re h hr hdest (Bool.or_eq_true_iff.mpr (.inl hs))
        (.inl (Bool.eq_false_iff.mpr hload')) (.inl (Bool.eq_false_iff.mpr hmult'))]
  · -- the result in MEM2WBK, when neither a load nor a multiplication is ahead of it
    obtain ⟨hwb, hcsr, hno, hnomult⟩ := hs
    obtain ⟨hdest, hmult'⟩ := hwbk
    have hre : t.base.exe2mem.v = true → t.base.re.dest ≠ t.base.rd.radr2 := by
      intro hv' hdest'
      have hload' : t.base.re.memLoad = true := by
        by_contra hnl
        refine hmem ⟨hdest', hnl, fun hm => hnomult ?_⟩
        rw [multAhead, hdest', hm, hv', beq_self_eq_true]
        rfl
      rw [not_loadAhead (Bool.eq_false_iff.mpr hno) hdest' hload'] at hv'
      exact absurd hv' Bool.false_ne_true
    rw [operand2_withBypassed, expected_of_not_re h hre,
      committed_of_rm h hr hdest hwb, wdata, Bool.eq_false_iff.mpr hcsr,
      Bool.eq_false_iff.mpr hmult']
    rfl
  · -- the operand that DEC has captured
    have hre : t.base.exe2mem.v = true → t.base.re.dest ≠ t.base.rd.radr2 := by
      intro hv' hdest
      by_cases hload' : t.base.re.memLoad = true
      · refine hahead ⟨hdest, hload', ?_⟩
        change ¬ (!t.base.exe2mem.v) = true
        rw [hv']
        decide
      · -- a captured operand does not wait for a multiplication
        obtain ⟨-, hno, -⟩ := (hcaptured hs).2 hv' hdest
        exact hmem ⟨hdest, hload', Bool.eq_false_iff.mp hno⟩
    rw [← known_eq_expected h hre]
    exact (hcaptured hs).1

/-- The operands of a pushed instruction are not blocked. -/
theorem free_of_exePush (hx : i.exceptionSm = false) (hpush : exePush s i = true)
    (hf : OperandsFresh s i) :
    (Exe.bypassRs1 (exeInputs s i) s.exe.sig.byp.op1Se).2.1 = false ∧
      (Exe.bypassRs2 (exeInputs s i) s.exe.sig.byp.op2Se).2.2 = false := by
  obtain ⟨-, -, hblocked, -⟩ := not_stall_of_exePush hx hpush
  rw [byp_eq hf] at hblocked
  exact Bool.or_eq_false_iff.mp hblocked

theorem op1_eq_expected (h : Inv t) (hp : Pushes t.base i) (hf : OperandsFresh t.base i)
    (hr : t.base.rd.radr1 ≠ 0) (hblock : t.base.rd.blockBp = false) (hs : SoundRs1 t) :
    (exeSig t.base i).byp.op1Se =
      complement t.base.rd.csrrcI (expected t.base i t.base.rd.radr1) := by
  have hv : t.base.dec2exe.v = true := v_of_exePush hp.2.1 hp.1
  exact op1Se_of_free h hv hf (free_of_exePush hp.2.1 hp.1 hf).1 hr hblock hs

theorem op2_eq_expected (h : Inv t) (hp : Pushes t.base i) (hf : OperandsFresh t.base i)
    (hr : t.base.rd.radr2 ≠ 0) (hblock : t.base.rd.blockBp = false) (hs : SoundRs2 t) :
    operand2 t.base.rd (exeSig t.base i).byp.op2Se (exeSig t.base i).byp.bpMemDataSd =
      expected t.base i t.base.rd.radr2 := by
  obtain ⟨hpush, hx, hexc⟩ := hp
  have hv : t.base.dec2exe.v = true := v_of_exePush hx hpush
  exact operand2_of_free h.retained (h.second hv hr) hf (fun hcap => h.op2 hv hcap hr hexc)
    (free_of_exePush hx hpush hf).2 hr hblock hs

end Sources

/-! ### Whole runs -/

theorem exact_of_sound (t : Tracked) (i : Cycle) (h : Inv t) (hs : Sound t i) :
    Exact t i := by
  intro hp
  obtain ⟨hs1, hs2⟩ := hs.2 hp
  constructor
  · intro hr hblock
    obtain ⟨hf, hsource⟩ := hs1 hr hblock
    exact op1_eq_expected h hp hf hr hblock hsource
  · intro hr hblock
    obtain ⟨hf, hsource⟩ := hs2 hr hblock
    exact op2_eq_expected h hp hf hr hblock hsource

/-- Along every run in which the pushed instructions have sound sources, every operand that
comes from a register is the value that the youngest older writer writes back. -/
theorem each_exact (is : List Cycle) (h : Run.Each Sound Tracked.step Tracked.reset is) :
    Run.Each Exact Tracked.step Tracked.reset is :=
  Run.each_of_inv exact_of_sound (fun _ i h hs => inv_step h hs.1 i) inv_reset h

/-- A cycle with the word in IF2DEC. -/
def fetched (ir : BitVec 32) : Cycle := { (default : Cycle) with ir := ir, currentMode := 3 }

/-- `addi x6, x0, 6`, `addi x7, x0, 7`, `mul x5, x6, x7` and `add x8, x5, x0`, which waits in
DEC until x5 is in the registers. -/
def mulUse : List Cycle :=
  [fetched 0x00600313, fetched 0x00700393, fetched 0x027302b3,
    { fetched 0x00028433 with product := 42 }, fetched 0x00028433, fetched 0x00028433,
    fetched 0x00028433, fetched 0x00028433]

theorem each_exact_mul : Run.Each Exact Tracked.step Tracked.reset (mulUse.take 7) :=
  each_exact _ (by decide +kernel)

/-- EXE2MEM still shows the multiplication when `add` is in EXE, which takes its `EXE_RES`
and not the product. -/
theorem not_exact_mulUse : ¬ Run.Each Exact Tracked.step Tracked.reset mulUse := by
  decide +kernel

end Backend

end RiVerSoC
