/-
The start of the divider.

`manage_divider` raises `START_SE` for any division in EXE, although `manage_fifo` may be waiting
for the operands of the division at that moment.

* `Divided.step` — the pipeline together with its divider;
* `op1_of_division`, `op2_of_division` — with sound sources the operands of a division in EXE
  are what their youngest older writers write back;
* `expected_stays` — such a value stays the same while the division is in EXE;
* `each_starts_delivered` — along every run with sound sources the divider starts on delivered
  operands, which do not move until it is done.
-/
import RiVerSoC.Diviseur
import RiVerSoC.Forwarding

namespace RiVerSoC

namespace Backend

/-! ### The pipeline and its divider -/

/-- The pipeline, its divider, and whether a division that was started in the last cycle is
still in EXE. -/
structure Divided where
  tracked : Tracked
  divider : Diviseur.Sig
  running : Bool

namespace Divided

def reset : Divided := ⟨Tracked.reset, Diviseur.reset, false⟩

variable (m : Divided) (i : Cycle)

abbrev base : State := m.tracked.base

/-- What EXE presents to the divider. -/
def presented : Diviseur.Inputs where
  op1 := (exeSig m.base i).byp.op1Se
  op2 := (exeSig m.base i).byp.op2Se
  cmd := m.base.rd.exeCmd
  selectTypeOperations := m.base.rd.selectTypeOperations
  dec2exeEmpty := m.base.dec2exe.isEmpty

/-- The signals of the divider. -/
def divided : Diviseur.Sig := Diviseur.clockCycle m.divider (m.presented i)

/-- `START_SE`. -/
def startSe : Bool := (m.divided i).startSe

/-- The cycle with the answers of the divider. -/
def answered : Cycle :=
  { i with
    divBusy := (m.divided i).mae.busySe
    dividerRes := (m.divided i).dividerResOutput }

def step : Divided where
  tracked := m.tracked.step (m.answered i)
  divider := m.divided i
  running := m.startSe i && !exePush m.base (m.answered i)

end Divided

/-! ### Delivered operands -/

/-- A load or a multiplication in MEM has the register as its destination; the value of a CSR
instruction is known in any case. -/
def Pending (s : State) (r : BitVec 6) : Prop :=
  s.exe2mem.v = true ∧ s.re.dest = r ∧ s.re.csrWenable = false ∧
    (s.re.memLoad = true ∨ s.re.multInst = true)

instance (s : State) (r : BitVec 6) : Decidable (Pending s r) :=
  inferInstanceAs (Decidable (_ ∧ _))

/-- The divider starts only when both operands are what the youngest older writers of their
registers write back, and no such writer is pending. -/
def StartsDelivered (m : Divided) (i : Cycle) : Prop :=
  m.startSe i = true →
    (m.base.rd.radr1 ≠ 0 → ¬ Pending m.base m.base.rd.radr1 ∧
      (exeSig m.base i).byp.op1Se = expected m.base i m.base.rd.radr1) ∧
    (m.base.rd.radr2 ≠ 0 → ¬ Pending m.base m.base.rd.radr2 ∧
      (exeSig m.base i).byp.op2Se = expected m.base i m.base.rd.radr2)

/-- The operands of a started division are those of the cycle before. -/
def HoldsOperands (m : Divided) (i : Cycle) : Prop :=
  m.running = true → (exeSig m.base i).byp.op1Se = m.base.exe.sig.byp.op1Se ∧
    (exeSig m.base i).byp.op2Se = m.base.exe.sig.byp.op2Se

instance (m : Divided) (i : Cycle) : Decidable (StartsDelivered m i) :=
  inferInstanceAs (Decidable (_ → _))

instance (m : Divided) (i : Cycle) : Decidable (HoldsOperands m i) :=
  inferInstanceAs (Decidable (_ → _))

/-- A division is in EXE. -/
def Dividing (s : State) : Prop := s.dec2exe.v = true ∧ s.rd.selectTypeOperations = 8

instance (s : State) : Decidable (Dividing s) := inferInstanceAs (Decidable (_ ∧ _))

/-- `bypasses` has looked at the operands, before the divider answers and after it. -/
def Looks (m : Divided) (i : Cycle) : Prop :=
  OperandsFresh m.base i ∧ OperandsFresh m.base (m.answered i)

instance (m : Divided) (i : Cycle) : Decidable (Looks m i) := inferInstanceAs (Decidable (_ ∧ _))

/-- WBK writes what it is to write, and the operands of a division in EXE have sound sources,
which EXE has looked at. -/
def SoundDivision (m : Divided) (i : Cycle) : Prop :=
  WbkFresh m.base ∧ (Dividing m.base →
    (m.base.rd.radr1 ≠ 0 → Looks m i ∧ SoundRs1 m.tracked) ∧
    (m.base.rd.radr2 ≠ 0 → Looks m i ∧ SoundRs2 m.tracked))

instance (m : Divided) (i : Cycle) : Decidable (SoundDivision m i) :=
  inferInstanceAs (Decidable (_ ∧ _))

/-! ### A division in DEC2EXE -/

/-- What DEC hands on with a division. -/
structure Plain (w : Dec2Exe) : Prop where
  csrrcI : w.csrrcI = false
  memLoad : w.memLoad = false
  memStore : w.memStore = false
  blockBp : w.blockBp = false

variable {s : State} {i : Cycle} {t : Tracked}

theorem division_decWord (h : (decWord s i).selectTypeOperations = 8) :
    Plain (decWord s i) ∧ (decWord s i).op2 = (decSig s i).haz.rdata2 := by
  cases hx : i.exceptionSm with
  | true =>
    rw [decWord_of_exceptionSm hx] at h
    exact absurd h (by decide : ¬ (0 : BitVec 4) = 8)
  | false =>
    obtain ⟨-, -, hcsrrc, -, -, hop, -, hstore, hload, -⟩ := decWord_eq (s := s) hx
    have hblock : (decWord s i).blockBp = (decOperation s i).blockBp := by
      rw [decWord, Dec.concatDec2exe, hx, if_neg Bool.false_ne_true]
    have hselect : (decOperation s i).selectTypeOperations = 8 := by
      rw [decWord, Dec.concatDec2exe, hx, if_neg Bool.false_ne_true] at h
      exact h
    obtain ⟨hcsrrc', hload', hstore', hblock', -, hop'⟩ :=
      Decode.of_division (n := (decSig s i).insts) (t := (decSig s i).types) rfl rfl _ i.uninit
        s.operation hselect
    exact ⟨⟨hcsrrc.trans hcsrrc', hload.trans hload', hstore.trans hstore', hblock.trans hblock'⟩,
      hop.trans hop'⟩

/-! ### Exact operands -/

theorem not_pending_of_ne {r : BitVec 6} (h : s.exe2mem.v = true → s.re.dest ≠ r) :
    ¬ Pending s r := fun hp => h hp.1 hp.2.1

theorem not_pending_of_delivers {r : BitVec 6} (h : Delivers s r) : ¬ Pending s r := by
  rintro ⟨hv, hdest, -, hkind⟩
  obtain ⟨hload, hmult, -⟩ := h hv hdest
  rw [hload, hmult, or_self] at hkind
  exact Bool.false_ne_true hkind

theorem not_loadAhead_of_delivers {r : BitVec 6} (h : Delivers s r) :
    ¬ Exe.loadAhead (exeInputs s i) r := by
  rintro ⟨hdest, hload, hfull⟩
  have hv : s.exe2mem.v = true := by
    change ¬ (!s.exe2mem.v) = true at hfull
    rwa [Bool.not_eq_true, Bool.not_eq_false'] at hfull
  exact Bool.false_ne_true ((h hv hdest).1.symm.trans hload)

/-- A first register with a sound source is neither blocked nor pending. -/
theorem free_rs1 (hr : t.base.rd.radr1 ≠ 0) (hblock : t.base.rd.blockBp = false)
    (hd : t.captured.1 = true → Delivers t.base t.base.rd.radr1) (hs : SoundRs1 t) :
    (Exe.bypassRs1 (exeInputs t.base i) t.base.exe.sig.byp.op1Se).2.1 = false ∧
      ¬ Pending t.base t.base.rd.radr1 := by
  have hskip : ¬ (t.base.rd.radr1 = 0 ∨ t.base.rd.blockBp = true) := by
    rw [hblock]
    exact fun h0 => h0.elim hr Bool.false_ne_true
  unfold SoundRs1 at hs
  dsimp only at hs
  rw [bypassRs1_eq, if_neg hskip]
  split_ifs at hs ⊢ with hmemCsr hmem hwbkCsr hwbk hahead
  · exact ⟨rfl, fun hp => Bool.false_ne_true (hp.2.2.1.symm.trans hmemCsr.2)⟩
  · exact ⟨rfl, fun hp => hp.2.2.2.elim hmem.2 hs.2⟩
  · exact ⟨rfl, not_pending_of_ne (not_re_of_not_loadAhead hmem (Bool.eq_false_iff.mpr hs.2.2))⟩
  · exact ⟨rfl, not_pending_of_ne (not_re_of_not_loadAhead hmem (Bool.eq_false_iff.mpr hs.2.2))⟩
  · exact absurd hahead (not_loadAhead_of_delivers (hd hs))
  · exact ⟨rfl, not_pending_of_delivers (hd hs)⟩

/-- A second register with a sound source. -/
theorem free_rs2 (hr : t.base.rd.radr2 ≠ 0) (hblock : t.base.rd.blockBp = false)
    (hsecond : SecondRegister t.base)
    (hd : t.captured.2 = true → Delivers t.base t.base.rd.radr2) (hs : SoundRs2 t) :
    (Exe.bypassRs2 (exeInputs t.base i) t.base.exe.sig.byp.op2Se).2.2 = false ∧
      ¬ Pending t.base t.base.rd.radr2 := by
  have hskip : ¬ (t.base.rd.radr2 = 0 ∨ t.base.rd.memLoad = true ∨ t.base.rd.blockBp = true) := by
    rw [hsecond.load, hblock, or_self]
    exact fun h0 => h0.elim hr Bool.false_ne_true
  have hflag : ∀ v, (withBypassed t.base.rd v).2.2 = false := by
    intro v
    unfold withBypassed
    split_ifs <;> rfl
  unfold SoundRs2 at hs
  dsimp only at hs
  rw [bypassRs2_eq, if_neg hskip]
  split_ifs at hs ⊢ with hmem hwbk hahead
  · exact ⟨hflag _, fun hp => hp.2.2.2.elim hmem.2.1 hmem.2.2⟩
  · refine ⟨hflag _, ?_⟩
    rintro ⟨hv, hdest, -, hkind⟩
    -- neither a load nor a multiplication of the register is there
    obtain ⟨-, -, hnoload, hnomult⟩ := hs
    rcases hkind with hload | hm
    · exact Bool.false_ne_true
        ((not_loadAhead (Bool.eq_false_iff.mpr hnoload) hdest hload).symm.trans hv)
    · refine hnomult ?_
      rw [multAhead, hdest, hm, hv, beq_self_eq_true]
      rfl
  · exact absurd hahead (not_loadAhead_of_delivers (hd hs))
  · exact ⟨rfl, not_pending_of_delivers (hd hs)⟩

/-! ### The value of a register while EXE waits -/

/-- Two accounts of one word, which is no load, write back the same. -/
theorem wdata_congr {w : Exe2Mem} {m m' : Mem2Wbk} (h : SameWord w m) (h' : SameWord w m')
    (hload : w.csrWenable = true ∨ w.memLoad = false) (x2Res : BitVec 32) :
    wdata m x2Res = wdata m' x2Res := by
  rw [wdata, wdata, h.csrWenable, h'.csrWenable, h.csrRdata, h'.csrRdata, h.multInst, h'.multInst]
  rcases hload with hcsr | hload
  · rw [hcsr, if_pos rfl, if_pos rfl]
  · rw [h.memRes hload, h'.memRes hload]

/-- What a register is going to hold does not change while EXE pushes nothing. -/
theorem expected_stays {r : BitVec 6} (hr : r ≠ 0) (h : Retained s) (hw : WbkFresh s)
    (hpush : exePush s i = false) (hp : ¬ Pending s r) (i' : Cycle) :
    expected (step s i) i' r = expected s i r := by
  have hl : s.exe2mem.loads (exePush s i) (memPush s i) = false := by
    rw [hpush]
    rfl
  have hre : (step s i).re = s.re := re_of_not_loads hl
  have hsame : SameWord s.re (memWord (step s i) i') := hre ▸ sameWord_memWord
  have hprod : (step s i).productMem = s.productMem :=
    if_neg (by rw [hl]; exact Bool.false_ne_true)
  rw [expected_eq, expected_eq, exe2mem_v_of_not_loads hl, committed_step hw hr, hsame.wb,
    hsame.dest, hprod, sameWord_memWord.wb, sameWord_memWord.dest, h.dest]
  by_cases hv : s.exe2mem.v = true ∧ s.re.dest = r
  · obtain ⟨hv, hdest⟩ := hv
    have hvalue : wdata (memWord (step s i) i') s.productMem =
        wdata (memWord s i) s.productMem := by
      refine wdata_congr hsame sameWord_memWord ?_ _
      cases hcsr : s.re.csrWenable with
      | true => exact Or.inl rfl
      | false =>
        refine Or.inr (Bool.eq_false_iff.mpr fun hload => ?_)
        exact hp ⟨hv, hdest, hcsr, Or.inl hload⟩
    -- the word is still in MEM, or it has gone to WBK
    rw [hv, hvalue]
    cases memPush s i <;> cases (s.re.wb || s.re.memLoad) <;> simp
  · have hmatch : (s.exe2mem.v && s.re.dest == r) = false := by
      rw [Bool.eq_false_iff, Ne, Bool.and_eq_true, beq_iff_eq]
      exact hv
    have hgone : (memPush s i && s.re.dest == r) = false := by
      rw [Bool.eq_false_iff, Ne, Bool.and_eq_true, beq_iff_eq]
      exact fun hd => hv ⟨v_of_memPush hd.1, hd.2⟩
    rw [Bool.and_right_comm, Bool.and_right_comm s.exe2mem.v, hmatch, Bool.false_and,
      Bool.false_and, if_neg Bool.false_ne_true, Bool.and_right_comm, hgone, Bool.false_and,
      if_neg Bool.false_ne_true, Bool.and_right_comm, hmatch, Bool.false_and,
      if_neg Bool.false_ne_true]

/-! ### The invariant -/

/-- The operand that was presented in the last cycle is the one of the register. -/
def Held (s : State) (r : BitVec 6) (op opSe : BitVec 32) : Prop :=
  if r = 0 then opSe = op else ∀ i, opSe = expected s i r

/-- What holds in every cycle of a run. -/
structure Divided.Inv (m : Divided) : Prop where
  base : Backend.Inv m.tracked
  divider : m.divider.startSe = true → Diviseur.Divides m.divider.inp
  plain : m.base.rd.selectTypeOperations = 8 → Plain m.base.rd
  op2 : Dividing m.base → m.tracked.captured.2 = true → m.base.rd.radr2 ≠ 0 →
    m.base.rd.op2 = known m.base m.base.rd.radr2 ∧ Delivers m.base m.base.rd.radr2
  running : m.running = true → Dividing m.base ∧
    Held m.base m.base.rd.radr1 m.base.rd.op1 m.base.exe.sig.byp.op1Se ∧
    Held m.base m.base.rd.radr2 m.base.rd.op2 m.base.exe.sig.byp.op2Se

variable {m : Divided}

theorem divided_reset : Divided.reset.Inv where
  base := inv_reset
  divider h := absurd h (by decide)
  plain h := absurd h (by decide)
  op2 h := absurd h (by decide)
  running h := absurd h (by decide)

/-- The first operand of a division in EXE, which is not pending. -/
theorem op1_of_division (h : m.Inv) (hd : Dividing m.base) (hr : m.base.rd.radr1 ≠ 0)
    (hf : OperandsFresh m.base i) (hsound : SoundRs1 m.tracked) :
    ¬ Pending m.base m.base.rd.radr1 ∧
      (exeSig m.base i).byp.op1Se = expected m.base i m.base.rd.radr1 := by
  have hplain := h.plain hd.2
  obtain ⟨hfree, hpending⟩ := free_rs1 (i := i) hr hplain.blockBp
    (fun hcap => (h.base.op1 hd.1 hcap hr hplain.blockBp).2) hsound
  refine ⟨hpending, (op1Se_of_free h.base hd.1 hf hfree hr hplain.blockBp hsound).trans ?_⟩
  rw [show m.tracked.base.rd.csrrcI = false from hplain.csrrcI, complement,
    if_neg Bool.false_ne_true]

/-- The second operand. -/
theorem op2_of_division (h : m.Inv) (hd : Dividing m.base) (hr : m.base.rd.radr2 ≠ 0)
    (hf : OperandsFresh m.base i) (hsound : SoundRs2 m.tracked) :
    ¬ Pending m.base m.base.rd.radr2 ∧
      (exeSig m.base i).byp.op2Se = expected m.base i m.base.rd.radr2 := by
  have hplain := h.plain hd.2
  have hsecond := h.base.second hd.1 hr
  have hop : ∀ op data, operand2 m.base.rd op data = op := by
    intro op data
    rw [operand2, hplain.memStore, if_neg Bool.false_ne_true]
  obtain ⟨hfree, hpending⟩ := free_rs2 (i := i) hr hplain.blockBp hsecond
    (fun hcap => (h.op2 hd hcap hr).2) hsound
  refine ⟨hpending, ?_⟩
  rw [← hop (exeSig m.base i).byp.op2Se (exeSig m.base i).byp.bpMemDataSd]
  have hcaptured : m.tracked.captured.2 = true →
      operand2 m.base.rd m.base.rd.op2 m.base.rd.memData = known m.base m.base.rd.radr2 ∧
        Delivers m.base m.base.rd.radr2 := by
    intro hcap
    obtain ⟨hknown, hdelivers⟩ := h.op2 hd hcap hr
    exact ⟨(hop _ _).trans hknown, hdelivers⟩
  exact operand2_of_free h.base.retained hsecond hf hcaptured hfree hr hplain.blockBp hsound

/-- The operands that are presented in this cycle. -/
theorem held_of_division (h : m.Inv) (hd : Dividing m.base)
    (hs1 : m.base.rd.radr1 ≠ 0 → OperandsFresh m.base i ∧ SoundRs1 m.tracked)
    (hs2 : m.base.rd.radr2 ≠ 0 → OperandsFresh m.base i ∧ SoundRs2 m.tracked) :
    (if m.base.rd.radr1 = 0 then (exeSig m.base i).byp.op1Se = m.base.rd.op1
      else (exeSig m.base i).byp.op1Se = expected m.base i m.base.rd.radr1) ∧
    (if m.base.rd.radr2 = 0 then (exeSig m.base i).byp.op2Se = m.base.rd.op2
      else (exeSig m.base i).byp.op2Se = expected m.base i m.base.rd.radr2) := by
  constructor
  · by_cases hr : m.base.rd.radr1 = 0
    · rw [if_pos hr]
      exact op1Se_of_none (Or.inl hr)
    · rw [if_neg hr]
      obtain ⟨hf, hsound⟩ := hs1 hr
      exact (op1_of_division h hd hr hf hsound).2
  · by_cases hr : m.base.rd.radr2 = 0
    · rw [if_pos hr]
      exact (op2Se_of_none (Or.inl hr)).1
    · rw [if_neg hr]
      obtain ⟨hf, hsound⟩ := hs2 hr
      exact (op2_of_division h hd hr hf hsound).2

theorem dividing_of_startSe (h : m.Inv) (hs : m.startSe i = true) : Dividing m.base := by
  obtain ⟨hselect, hempty⟩ := Diviseur.divides_of_startSe h.divider hs
  refine ⟨?_, hselect⟩
  have hv : (!m.base.dec2exe.v) = false := hempty
  rwa [Bool.not_eq_false'] at hv

/-- A division that EXE does not push stays there. -/
theorem dec2exe_of_stays (hv : s.dec2exe.v = true) (hpush : exePush s i = false) :
    (step s i).dec2exe = s.dec2exe := Fifo.clock_of_stays hv hpush

theorem held_stays {r : BitVec 6} {op opSe : BitVec 32} (h : Retained s) (hw : WbkFresh s)
    (hpush : exePush s i = false) (hp : r ≠ 0 → ¬ Pending s r)
    (hnow : if r = 0 then opSe = op else opSe = expected s i r) : Held (step s i) r op opSe := by
  unfold Held
  by_cases hr : r = 0
  · rw [if_pos hr] at hnow ⊢
    exact hnow
  · rw [if_neg hr] at hnow ⊢
    intro i'
    rw [hnow, expected_stays hr h hw hpush (hp hr)]

theorem divided_step (i : Cycle) (h : m.Inv) (hs : SoundDivision m i) : (m.step i).Inv where
  base := inv_step h.base hs.1 (m.answered i)
  divider hstart := by
    have hd := Diviseur.divides_of_startSe h.divider hstart
    rwa [show (m.step i).divider.inp = m.presented i from
      Diviseur.inp_settling m.divider (m.presented i) 6]
  plain hselect := by
    rcases dec2exe_cases m.base (m.answered i) with ⟨-, hdec⟩ | ⟨-, -, hrd, -⟩
    · have hrd : (m.step i).base.rd = decWord m.base (m.answered i) := congrArg Fifo.dout hdec
      rw [hrd] at hselect ⊢
      exact (division_decWord hselect).1
    · have hrd' : (m.step i).base.rd = m.base.rd := hrd
      rw [hrd'] at hselect ⊢
      exact h.plain hselect
  op2 hd hcap hr := by
    rcases stays_or_loads (t := m.tracked) (i := m.answered i) hd.1 with
      ⟨-, hv, hpush, hrd, hcaptured⟩ | ⟨hl, hdec, hrd⟩
    · have hrd' : (m.step i).base.rd = m.base.rd := hrd
      have hcap' : m.tracked.captured.2 = true := hcaptured ▸ hcap
      have hselect := hd.2
      rw [hrd'] at hselect hr ⊢
      obtain ⟨hop, hdelivers⟩ := h.op2 ⟨hv, hselect⟩ hcap' hr
      obtain ⟨hknown, hdelivers'⟩ := known_of_stays h.base hs.1 hpush hr hdelivers
      exact ⟨hop.trans hknown.symm, hdelivers'⟩
    · -- the division leaves DEC with a second source that has been captured
      have hrd' : (m.step i).base.rd = decWord m.base (m.answered i) := hrd
      have hselect := hd.2
      rw [hrd'] at hselect hr ⊢
      have hx : (m.answered i).exceptionSm = false := by
        cases hx : (m.answered i).exceptionSm
        · rfl
        · exact absurd (decWord_of_trap hx).2 hr
      have hradr := (decWord_eq (s := m.base) hx).2.1
      rw [(division_decWord hselect).2]
      rw [hradr] at hr ⊢
      have hcap' : (m.tracked.step (m.answered i)).captured.2 = true := hcap
      rw [Tracked.step, if_pos hl] at hcap'
      obtain ⟨hfresh, hcap'⟩ := Bool.and_eq_true_iff.mp hcap'
      obtain ⟨old, hhaz⟩ := haz_eq (of_decide_eq_true hfresh)
      obtain ⟨hvalue, hdelivers⟩ := known_of_captured h.base hs.1 hx hr hcap' old.rdata2
      exact ⟨(congrArg Dec.Hazards.rdata2 hhaz).trans hvalue, hdelivers⟩
  running hrun := by
    obtain ⟨hstart, hpush⟩ := Bool.and_eq_true_iff.mp hrun
    rw [Bool.not_eq_true'] at hpush
    -- a division that has started does not leave EXE, and its operands stay
    have hd := dividing_of_startSe h hstart
    have hdec : (m.step i).base.dec2exe = m.base.dec2exe := dec2exe_of_stays hd.1 hpush
    have hrd : (m.step i).base.rd = m.base.rd := congrArg Fifo.dout hdec
    obtain ⟨hw, hs⟩ := hs
    obtain ⟨hs1, hs2⟩ := hs hd
    have hs1' : m.base.rd.radr1 ≠ 0 → OperandsFresh m.base (m.answered i) ∧
        SoundRs1 m.tracked := fun hr => ⟨(hs1 hr).1.2, (hs1 hr).2⟩
    have hs2' : m.base.rd.radr2 ≠ 0 → OperandsFresh m.base (m.answered i) ∧
        SoundRs2 m.tracked := fun hr => ⟨(hs2 hr).1.2, (hs2 hr).2⟩
    obtain ⟨hop1, hop2⟩ := held_of_division h hd hs1' hs2'
    rw [hrd]
    refine ⟨⟨hdec ▸ hd.1, hrd ▸ hd.2⟩, ?_, ?_⟩
    · refine held_stays h.base.retained hw hpush (fun hr => ?_) hop1
      exact (op1_of_division h hd hr (hs1' hr).1 (hs1' hr).2).1
    · refine held_stays h.base.retained hw hpush (fun hr => ?_) hop2
      exact (op2_of_division h hd hr (hs2' hr).1 (hs2' hr).2).1

/-! ### Whole runs -/

theorem startsDelivered_of_sound (h : m.Inv) (hs : SoundDivision m i) :
    StartsDelivered m i := by
  intro hstart
  have hd := dividing_of_startSe h hstart
  obtain ⟨hs1, hs2⟩ := hs.2 hd
  constructor
  · intro hr
    obtain ⟨hlooks, hsound⟩ := hs1 hr
    exact op1_of_division h hd hr hlooks.1 hsound
  · intro hr
    obtain ⟨hlooks, hsound⟩ := hs2 hr
    exact op2_of_division h hd hr hlooks.1 hsound

theorem holdsOperands_of_sound (h : m.Inv) (hs : SoundDivision m i) : HoldsOperands m i := by
  intro hrun
  obtain ⟨hd, hheld1, hheld2⟩ := h.running hrun
  obtain ⟨hs1, hs2⟩ := hs.2 hd
  obtain ⟨hop1, hop2⟩ := held_of_division (i := i) h hd
    (fun hr => ⟨(hs1 hr).1.1, (hs1 hr).2⟩) (fun hr => ⟨(hs2 hr).1.1, (hs2 hr).2⟩)
  unfold Held at hheld1 hheld2
  constructor
  · by_cases hr : m.base.rd.radr1 = 0
    · rw [if_pos hr] at hop1 hheld1
      exact hop1.trans hheld1.symm
    · rw [if_neg hr] at hop1 hheld1
      exact hop1.trans (hheld1 i).symm
  · by_cases hr : m.base.rd.radr2 = 0
    · rw [if_pos hr] at hop2 hheld2
      exact hop2.trans hheld2.symm
    · rw [if_neg hr] at hop2 hheld2
      exact hop2.trans (hheld2 i).symm

/-- Along every run in which the divisions in EXE have sound sources, the divider starts on
delivered operands and they stay the same until it is done. -/
theorem each_starts_delivered (is : List Cycle)
    (h : Run.Each SoundDivision Divided.step Divided.reset is) :
    Run.Each (fun m i => StartsDelivered m i ∧ HoldsOperands m i) Divided.step Divided.reset is :=
  Run.each_of_inv (fun _ _ h hs => ⟨startsDelivered_of_sound h hs, holdsOperands_of_sound h hs⟩)
    (fun _ i h hs => divided_step i h hs) divided_reset h

/-- `addi x5, x0, 40`, `addi x7, x0, 7` and `div x6, x5, x7`, which then waits in EXE. -/
def addDivide : List Cycle :=
  [fetched 0x02800293, fetched 0x00700393, fetched 0x0272c333] ++
    List.replicate 4 { (default : Cycle) with if2decEmpty := true }

theorem each_starts_delivered_add :
    Run.Each (fun m i => StartsDelivered m i ∧ HoldsOperands m i) Divided.step Divided.reset
      addDivide :=
  each_starts_delivered _ (by decide +kernel)

/-- `addi x7, x0, 7`, `lw x5, 0(x0)` and `div x6, x5, x7`, while the data cache stalls. -/
def loadDivide : List Cycle :=
  [fetched 0x00700393, fetched 0x00002283, fetched 0x0272c333,
    { fetched 0x0272c333 with mcacheStall := true },
    { (default : Cycle) with if2decEmpty := true, mcacheStall := true }]

/-- The division leaves DEC, where the load no longer blocks it, and the divider starts while the
load is still in MEM. -/
theorem not_each_starts_delivered_load :
    ¬ Run.Each (fun m i => StartsDelivered m i ∧ HoldsOperands m i) Divided.step Divided.reset
      loadDivide := by
  decide +kernel

end Backend

end RiVerSoC
