/-
The values in flight.

An instruction in EXE2MEM or MEM2WBK has a result that the register file does not have
yet, and the two FIFOs keep showing the last word after it has left.

* `expected` — the value that the youngest older instruction writes back, or the register;
* `wdata_step` — it is what WBK is to write when the instruction gets there;
* `WbkFresh`, `HazardsFresh`, `OperandsFresh`, `ResultFresh` — a method that reads more than
  wakes it has been woken in the cycle, or would write what it wrote before;
* `retained_step` — a word that is only shown any more has reached MEM2WBK, or the
  registers: the invariant behind the bypasses, which do not look whether a FIFO is empty;
* `known_step` — a value that is known does not change while its instruction moves on.
-/
import RiVerSoC.Backend

namespace RiVerSoC

theorem Registers.read_write (g : Registers) {wadr radr : BitVec 6} (hw : wadr.toNat < 33)
    (hr : radr ≠ 0) (v : BitVec 32) :
    (g.write wadr v).read radr = if wadr = radr then v else g.read radr := by
  unfold Registers.write Registers.read
  by_cases h0 : wadr = 0
  · rw [if_pos h0, if_neg (fun heq => hr (heq.symm.trans h0))]
  · rw [if_neg h0, Vector.getElem?_setIfInBounds]
    by_cases heq : wadr = radr
    · rw [if_pos (congrArg BitVec.toNat heq), if_pos heq, if_pos (heq ▸ hw)]
      rfl
    · rw [if_neg (fun hn => heq (BitVec.eq_of_toNat_eq hn)), if_neg heq]

/-- No write changes x0. -/
theorem Registers.read_zero_write (g : Registers) (wadr : BitVec 6) (v : BitVec 32) :
    (g.write wadr v).read 0 = g.read 0 := by
  unfold Registers.write Registers.read
  by_cases h0 : wadr = 0
  · rw [if_pos h0]
  · rw [if_neg h0, Vector.getElem?_setIfInBounds, if_neg]
    exact fun hn => h0 (BitVec.eq_of_toNat_eq hn)

namespace Backend

abbrev State.rd (s : State) : Dec2Exe := s.dec2exe.dout

abbrev State.re (s : State) : Exe2Mem := s.exe2mem.dout

abbrev State.rm (s : State) : Mem2Wbk := s.mem2wbk.dout

/-- The register of a destination in MEM2WBK. -/
def regOf (dest : BitVec 5) : BitVec 6 := dest.setWidth 6

theorem regOf_lt (dest : BitVec 5) : (regOf dest).toNat < 33 := by
  rw [regOf, BitVec.toNat_setWidth]
  have := dest.isLt
  omega

/-- The value of the youngest of some writers, given youngest first, or the register. -/
def youngest (writers : List (BitVec 6 × BitVec 32)) (g : Registers) (r : BitVec 6) : BitVec 32 :=
  match writers.find? fun w => w.1 == r with
  | some w => w.2
  | none => g.read r

variable (s : State) (i : Cycle)

/-- The instructions in MEM and in WBK that write a register, and what they write back. -/
def older : List (BitVec 6 × BitVec 32) :=
  (if s.exe2mem.v && (memWord s i).wb then
    [(regOf (memWord s i).dest, wdata (memWord s i) s.productMem)] else []) ++
  if wenable s then [(regOf s.rm.dest, wdata s.rm s.productWbk)] else []

/-- What the youngest instruction in MEM or in WBK writes back to the register, or the
register. -/
def expected (r : BitVec 6) : BitVec 32 := youngest (older s i) s.registers r

/-- The register after the instruction in WBK. -/
def committed (r : BitVec 6) : BitVec 32 :=
  if wenable s && regOf s.rm.dest == r then wdata s.rm s.productWbk else s.registers.read r

theorem expected_eq (r : BitVec 6) :
    expected s i r = if s.exe2mem.v && (memWord s i).wb && regOf (memWord s i).dest == r then
      wdata (memWord s i) s.productMem else committed s r := by
  unfold expected youngest older committed
  cases s.exe2mem.v && (memWord s i).wb <;> cases wenable s <;>
    cases hm : (regOf (memWord s i).dest == r) <;> cases hw : (regOf s.rm.dest == r) <;>
    simp [hm, hw]

/-! ### Methods that sleep -/

/-- When WBK writes, the word in MEM2WBK wakes `wbk_method`, or it would write again what it
wrote. -/
def WbkFresh (s : State) : Prop :=
  wenable s = true → wbkListed s.wbk ≠ wbkListed (wbkInputs s) ∨
    s.wbk.wdataSw = wdata s.rm s.productWbk

/-- `bypasses` of DEC is woken, or would write again what it wrote. -/
def HazardsFresh (s : State) (i : Cycle) : Prop :=
  Dec.BypassesRun s.dec.sig (decContents s i) ∨
    s.dec.sig.haz = Dec.hazards (decContents s i) (decContents s i).stages s.dec.sig.haz

/-- `bypasses` of EXE is woken, or would write again what it wrote. -/
def OperandsFresh (s : State) (i : Cycle) : Prop :=
  Exe.BypassesRun s.exe.sig (exeInputs s i) ∨
    s.exe.sig.byp = Exe.bypasses (exeInputs s i) s.exe.sig.byp

/-- `select_exec_res` is woken when the operands have settled, or would write again what it
wrote. -/
def ResultFresh (s : State) (i : Cycle) : Prop :=
  Exe.SelectHears (exeSig s i).byp s.exe.sig (exeInputs s i) ∨
    Exe.writtenRes s.exe.sig (exeInputs s i) =
      Exe.selected (exeInputs s i) (exeSig s i).byp s.exe.sig.res

instance (s : State) : Decidable (WbkFresh s) := inferInstanceAs (Decidable (_ → _))

instance (s : State) (i : Cycle) : Decidable (HazardsFresh s i) :=
  inferInstanceAs (Decidable (_ ∨ _))

instance (s : State) (i : Cycle) : Decidable (OperandsFresh s i) :=
  inferInstanceAs (Decidable (_ ∨ _))

instance (s : State) (i : Cycle) : Decidable (ResultFresh s i) :=
  inferInstanceAs (Decidable (_ ∨ _))

variable {s i}

theorem wdataSw_eq (h : WbkFresh s) (hwen : wenable s = true) :
    (wbkSig s).wdataSw = wdata s.rm s.productWbk := by
  change wbkM.fire s.wbk (wbkInputs s) = _
  unfold Delta.Method.fire
  split_ifs with hw
  · rfl
  · exact (h hwen).resolve_left hw

theorem haz_eq (h : HazardsFresh s i) : ∃ old, (decSig s i).haz =
    Dec.hazards (decContents s i) (decContents s i).stages old := by
  change ∃ old, Dec.writtenHaz s.dec.sig (decContents s i) = _
  unfold Dec.writtenHaz
  split_ifs with hr
  · exact ⟨_, rfl⟩
  · exact ⟨_, h.resolve_left hr⟩

theorem byp_eq (h : OperandsFresh s i) :
    (exeSig s i).byp = Exe.bypasses (exeInputs s i) s.exe.sig.byp := by
  change Exe.writtenByp s.exe.sig (exeInputs s i) = _
  unfold Exe.writtenByp
  split_ifs with hr
  · rfl
  · exact h.resolve_left hr

/-- An operand that does not come from a register is the one from DEC. -/
theorem op1Se_of_none (h : s.rd.radr1 = 0 ∨ s.rd.blockBp = true) :
    (exeSig s i).byp.op1Se = s.rd.op1 := by
  obtain ⟨j, old, hbyp⟩ := (exeStage s i).atRest.byp_eq
  have hrs1 : Exe.bypassRs1 ((exeInputs s i).bypassing j) old.op1Se =
      (s.rd.op1, false, true) := if_pos h
  exact (congrArg Exe.Bypassed.op1Se hbyp).trans (congrArg Prod.fst hrs1)

theorem op2Se_of_none (h : s.rd.radr2 = 0 ∨ s.rd.blockBp = true) :
    (exeSig s i).byp.op2Se = s.rd.op2 ∧ (exeSig s i).byp.bpMemDataSd = s.rd.memData := by
  obtain ⟨j, old, hbyp⟩ := (exeStage s i).atRest.byp_eq
  have hrs2 : Exe.bypassRs2 ((exeInputs s i).bypassing j) old.op2Se =
      (s.rd.op2, s.rd.memData, false) := if_pos (h.imp_right Or.inr)
  exact ⟨(congrArg Exe.Bypassed.op2Se hbyp).trans (congrArg Prod.fst hrs2),
    (congrArg Exe.Bypassed.bpMemDataSd hbyp).trans (congrArg (fun p => p.2.1) hrs2)⟩

theorem res_eq (h : ResultFresh s i) : (exeSig s i).res =
    Exe.selected (exeInputs s i) (exeSig s i).byp s.exe.sig.res := by
  rcases h with hh | hres
  · change Exe.writtenRes s.exe.sig (exeInputs s i) = _
    obtain ⟨n, hn, hmove, -⟩ := id hh
    have hread : Exe.readOperands s.exe.sig (exeInputs s i) = (exeSig s i).byp := if_pos hh
    rw [Exe.writtenRes, if_pos (.inr ⟨n, hn, hmove⟩), hread]
    rfl
  · exact hres

variable (s i)

/-! ### MEM and WBK -/

theorem mem2wbk_not_full : s.mem2wbk.isFull (wbkPop s) = false := by
  simp [Fifo.isFull, wbkPop, Fifo.isEmpty]

theorem mem2wbk_loads : s.mem2wbk.loads (memPush s i) (wbkPop s) = memPush s i :=
  Fifo.loads_of_not_full (mem2wbk_not_full s)

variable {s i}

theorem v_of_memPush (h : memPush s i = true) : s.exe2mem.v = true := by
  unfold memPush Fifo.isEmpty at h
  cases hv : s.exe2mem.v
  · simp [hv] at h
  · rfl

theorem mem2wbk_of_memPush (h : memPush s i = true) :
    (step s i).mem2wbk = ⟨memWord s i, true⟩ :=
  Fifo.clock_of_load ((mem2wbk_loads s i).trans h)

theorem rm_of_memPush (h : memPush s i = true) : (step s i).rm = memWord s i :=
  congrArg Fifo.dout (mem2wbk_of_memPush h)

theorem rm_of_not_memPush (h : memPush s i = false) : (step s i).rm = s.rm :=
  Fifo.dout_clock_of_not_load ((mem2wbk_loads s i).trans h)

theorem mem2wbk_v_of_not_memPush (h : memPush s i = false) : (step s i).mem2wbk.v = false := by
  refine (Fifo.v_clock_of_not_load ((mem2wbk_loads s i).trans h)).trans ?_
  simp [wbkPop, Fifo.isEmpty]

/-- What is predicted for the instruction in MEM is what WBK is to write. -/
theorem wdata_step (h : memPush s i = true) :
    wdata (step s i).rm (step s i).productWbk = wdata (memWord s i) s.productMem := by
  have hprod : (step s i).productWbk = s.productMem := if_pos h
  rw [hprod, rm_of_memPush h]

theorem registers_step {r : BitVec 6} (hw : WbkFresh s) (hr : r ≠ 0) :
    (step s i).registers.read r = committed s r := by
  have hregs : (step s i).registers =
      if wenable s then s.registers.write (regOf s.rm.dest) (wbkSig s).wdataSw
      else s.registers := rfl
  rw [hregs, committed]
  cases hwen : wenable s with
  | false => rfl
  | true =>
    rw [if_pos rfl, wdataSw_eq hw hwen, Registers.read_write _ (regOf_lt _) hr, Bool.true_and]
    simp only [beq_iff_eq]

/-- The register after one more instruction has left MEM. -/
theorem committed_step {r : BitVec 6} (hw : WbkFresh s) (hr : r ≠ 0) :
    committed (step s i) r =
      if memPush s i && (memWord s i).wb && regOf (memWord s i).dest == r then
        wdata (memWord s i) s.productMem
      else committed s r := by
  cases h : memPush s i with
  | false =>
    have hwen : wenable (step s i) = false := by
      rw [wenable, Fifo.isEmpty, mem2wbk_v_of_not_memPush h, Bool.not_false, Bool.not_true,
        Bool.and_false]
    rw [committed, hwen]
    exact registers_step hw hr
  | true =>
    have hwen : wenable (step s i) = (memWord s i).wb := by
      rw [wenable, Fifo.isEmpty, mem2wbk_of_memPush h, Bool.not_true, Bool.not_false, Bool.and_true]
    rw [committed, hwen, wdata_step h, rm_of_memPush h, registers_step hw hr, Bool.true_and]

/-! ### Pushes -/

/-- EXE pushes when it does not stall. -/
theorem not_stall_of_exePush (hx : i.exceptionSm = false) (hpush : exePush s i = true) :
    s.exe2mem.isFull (memPush s i) = false ∧ s.dec2exe.v = true ∧
      (exeSig s i).byp.blocked = false ∧ (exeSig s i).byp.r1ValidSe = true := by
  have hstall : exeStall s i = false := by
    unfold exePush at hpush
    rw [hx, Bool.false_or] at hpush
    exact Bool.not_eq_true' _ ▸ hpush
  unfold exeStall at hstall
  simp only [Bool.or_eq_false_iff, Bool.not_eq_false'] at hstall
  obtain ⟨⟨⟨⟨⟨hfull, hempty⟩, hblocked⟩, hr1⟩, -⟩, -⟩ := hstall
  rw [Fifo.isEmpty, Bool.not_eq_false'] at hempty
  exact ⟨hfull, hempty, hblocked, hr1⟩

theorem v_of_exePush (hx : i.exceptionSm = false) (hpush : exePush s i = true) :
    s.dec2exe.v = true := (not_stall_of_exePush hx hpush).2.1

/-- DEC pushes when it does not stall. -/
theorem stallSd_of_decPush (hx : i.exceptionSm = false) (hpush : decPush s i = true) :
    (decSig s i).stallSd = false := by
  unfold decPush at hpush
  rw [hx, Bool.false_or] at hpush
  exact Bool.not_eq_true' _ ▸ hpush

theorem not_full_of_decPush (hx : i.exceptionSm = false) (hpush : decPush s i = true) :
    s.dec2exe.isFull (exePush s i) = false :=
  (Bool.or_eq_false_iff.mp (stallSd_of_decPush hx hpush :
    (_ || s.dec2exe.isFull (exePush s i)) = false)).2

/-- No CSR instruction is in EXE or in MEM when DEC pushes. -/
theorem not_csr_of_decPush (hx : i.exceptionSm = false) (hpush : decPush s i = true) :
    (s.rd.csrWenable && s.dec2exe.v) = false ∧ (s.re.csrWenable && s.exe2mem.v) = false := by
  have hstall : Dec.stall (Dec.csrInProgress (decContents s i).stages) _ _ _ _ = false :=
    stallSd_of_decPush hx hpush
  unfold Dec.stall at hstall
  simp only [Bool.or_eq_false_iff] at hstall
  obtain ⟨⟨⟨hprogress, -⟩, -⟩, -⟩ := hstall
  have hboth : (s.rd.csrWenable && !!s.dec2exe.v || s.re.csrWenable && !!s.exe2mem.v) = false :=
    hprogress
  rw [Bool.not_not, Bool.not_not] at hboth
  exact Bool.or_eq_false_iff.mp hboth

/-- Without a trap, EXE pushes where there is room. -/
theorem loads_of_not_trap (hx : i.exceptionSm = false) :
    s.exe2mem.loads (exePush s i) (memPush s i) = exePush s i := by
  cases hpush : exePush s i with
  | false => rfl
  | true => exact Fifo.loads_of_not_full (not_stall_of_exePush hx hpush).1

/-! ### Words that are only shown any more -/

/-- The word in MEM2WBK is the one that EXE2MEM shows. -/
structure SameWord (w : Exe2Mem) (m : Mem2Wbk) : Prop where
  dest : m.dest = w.dest.setWidth 5
  wb : m.wb = (w.wb || w.memLoad)
  csrWenable : m.csrWenable = w.csrWenable
  csrRdata : m.csrRdata = w.csrRdata
  multInst : m.multInst = w.multInst
  memRes : w.memLoad = false → m.memRes = w.exeRes

theorem sameWord_memWord : SameWord s.re (memWord s i) where
  dest := rfl
  wb := rfl
  csrWenable := rfl
  csrRdata := rfl
  multInst := rfl
  memRes h := if_neg (by rw [h]; exact Bool.false_ne_true)

/-- The destinations fit into the field that MEM2WBK has for them. -/
structure Fits (s : State) : Prop where
  dest : regOf (s.re.dest.setWidth 5) = s.re.dest
  destRd : regOf (s.rd.dest.setWidth 5) = s.rd.dest

/-- A word that has left EXE2MEM is still the one in MEM2WBK, and a word that has left
MEM2WBK is in the registers. -/
structure Retained (s : State) : Prop extends Fits s where
  mem : s.exe2mem.v = false → SameWord s.re s.rm
  wbk : s.mem2wbk.v = false → s.rm.wb = true → regOf s.rm.dest ≠ 0 →
    s.registers.read (regOf s.rm.dest) = wdata s.rm s.productWbk

theorem exe2mem_of_loads (h : s.exe2mem.loads (exePush s i) (memPush s i) = true) :
    (step s i).exe2mem = ⟨(exeSig s i).exe2memDinSe, true⟩ := Fifo.clock_of_load h

theorem re_of_loads (h : s.exe2mem.loads (exePush s i) (memPush s i) = true) :
    (step s i).re = (exeSig s i).exe2memDinSe := congrArg Fifo.dout (exe2mem_of_loads h)

theorem re_of_not_loads (h : s.exe2mem.loads (exePush s i) (memPush s i) = false) :
    (step s i).re = s.re := Fifo.dout_clock_of_not_load h

theorem exe2mem_v_of_not_loads (h : s.exe2mem.loads (exePush s i) (memPush s i) = false) :
    (step s i).exe2mem.v = (s.exe2mem.v && !memPush s i) := Fifo.v_clock_of_not_load h

/-- The word offered to EXE2MEM, with what `fifo_concat` reads without being woken by it as
in some inputs. -/
theorem exists_dinSe (s : State) (i : Cycle) : ∃ j, (exeSig s i).exe2memDinSe =
    Exe.fifoConcat ((exeInputs s i).concatenating j) (exeSig s i).byp.bpMemDataSd
      (exeSig s i).res (exeSig s i).exceptionSe
      (Exe.effects (exeInputs s i) (exeSig s i).exceptionSe) :=
  (exeStage s i).atRest.word_eq

/-- `fifo_concat` has run on the present signals, or the word is the one from before. -/
theorem dinSe_cases (s : State) (i : Cycle) : (exeSig s i).exe2memDinSe =
      Exe.fifoConcat (exeInputs s i) (exeSig s i).byp.bpMemDataSd (exeSig s i).res
        (exeSig s i).exceptionSe (Exe.effects (exeInputs s i) (exeSig s i).exceptionSe) ∨
    (exeSig s i).exe2memDinSe = s.exe.sig.exe2memDinSe := by
  change Exe.writtenWord s.exe.sig (exeInputs s i) = _ ∨
    Exe.writtenWord s.exe.sig (exeInputs s i) = _
  unfold Exe.writtenWord
  split_ifs
  · exact .inl rfl
  · exact .inr rfl

/-- What EXE offers during a trap. -/
theorem dinSe_of_trap (hx : i.exceptionSm = true) :
    ∃ pc, (exeSig s i).exe2memDinSe = Exe.trapWord pc := by
  obtain ⟨j, hj⟩ := exists_dinSe s i
  exact ⟨_, hj.trans (if_pos hx)⟩

/-- What EXE offers when MEM takes no trap. -/
theorem dinSe_eq_fifoConcat (hx : i.exceptionSm = false) :
    ∃ j, (exeSig s i).exe2memDinSe =
      Exe.fifoConcat ({ exeInputs s i with exceptionSm := false }.concatenating j)
        (exeSig s i).byp.bpMemDataSd (exeSig s i).res (exeSig s i).exceptionSe
        (Exe.effects (exeInputs s i) (exeSig s i).exceptionSe) := by
  obtain ⟨j, hj⟩ := exists_dinSe s i
  have hinp : { exeInputs s i with exceptionSm := false } = exeInputs s i := by
    rw [← hx]
    rfl
  exact ⟨j, by rw [hinp]; exact hj⟩

/-- The destination of the word offered to EXE2MEM. -/
theorem dest_dinSe (s : State) (i : Cycle) :
    (exeSig s i).exe2memDinSe.dest = if i.exceptionSm then 0 else s.rd.dest := by
  cases hx : i.exceptionSm with
  | true =>
    obtain ⟨pc, hpc⟩ := dinSe_of_trap (s := s) hx
    rw [hpc]
    rfl
  | false =>
    obtain ⟨j, hj⟩ := dinSe_eq_fifoConcat (s := s) hx
    rw [hj]
    rfl

/-- A trap puts a word without any effect into EXE2MEM, or leaves the valid word there. -/
theorem exe2mem_of_trap (hx : i.exceptionSm = true) :
    (s.exe2mem.loads (exePush s i) (memPush s i) = true ∧
      ∃ pc, (step s i).exe2mem = ⟨Exe.trapWord pc, true⟩) ∨
    (step s i).exe2mem = s.exe2mem ∧ s.exe2mem.v = true := by
  have hpush : exePush s i = true := by
    rw [exePush, hx, Bool.true_or]
  cases hl : s.exe2mem.loads (exePush s i) (memPush s i) with
  | true =>
    obtain ⟨pc, hpc⟩ := dinSe_of_trap (s := s) hx
    refine .inl ⟨rfl, pc, ?_⟩
    rw [exe2mem_of_loads hl, hpc]
  | false =>
    rw [hpush, Fifo.loads, Bool.true_and, Bool.or_eq_false_iff, Bool.not_eq_false'] at hl
    obtain ⟨hpop, hv⟩ := hl
    exact .inr ⟨Fifo.clock_of_stays hv hpop, hv⟩

/-- What EXE2MEM has after a step: the word from EXE, a word without any effect, or the word
from before. -/
theorem exe2mem_cases (s : State) (i : Cycle) :
    (i.exceptionSm = false ∧ exePush s i = true ∧
      (step s i).exe2mem = ⟨(exeSig s i).exe2memDinSe, true⟩) ∨
    (i.exceptionSm = true ∧ ∃ pc, (step s i).exe2mem = ⟨Exe.trapWord pc, true⟩) ∨
    (i.exceptionSm = true ∧ (step s i).exe2mem = s.exe2mem ∧ s.exe2mem.v = true) ∨
    (i.exceptionSm = false ∧ exePush s i = false ∧ (step s i).exe2mem.dout = s.exe2mem.dout ∧
      (step s i).exe2mem.v = (s.exe2mem.v && !memPush s i)) := by
  cases hx : i.exceptionSm with
  | true =>
    rcases exe2mem_of_trap (s := s) hx with ⟨-, hmem⟩ | ⟨hmem, hv⟩
    · exact .inr (.inl ⟨rfl, hmem⟩)
    · exact .inr (.inr (.inl ⟨rfl, hmem, hv⟩))
  | false =>
    have hloads := loads_of_not_trap (s := s) hx
    cases hpush : exePush s i with
    | true => exact .inl ⟨rfl, rfl, exe2mem_of_loads (hloads.trans hpush)⟩
    | false =>
      exact .inr (.inr (.inr ⟨rfl, rfl, re_of_not_loads (hloads.trans hpush),
        exe2mem_v_of_not_loads (hloads.trans hpush)⟩))

/-- What DEC2EXE has after a step: the word from DEC, or the word from before. -/
theorem dec2exe_cases (s : State) (i : Cycle) :
    (decPush s i = true ∧ (step s i).dec2exe = ⟨decWord s i, true⟩) ∨
    (i.exceptionSm = false ∧ decPush s i = false ∧
      (step s i).dec2exe.dout = s.dec2exe.dout ∧
      (step s i).dec2exe.v = (s.dec2exe.v && !exePush s i)) := by
  cases hd : decPush s i with
  | true =>
    refine .inl ⟨rfl, Fifo.clock_of_load ?_⟩
    cases hx : i.exceptionSm with
    | true =>
      have hexe : exePush s i = true := by rw [exePush, hx, Bool.true_or]
      rw [Fifo.loads, hd, hexe]
      rfl
    | false => exact (Fifo.loads_of_not_full (not_full_of_decPush hx hd)).trans hd
  | false =>
    have hx : i.exceptionSm = false := by
      rw [decPush, Bool.or_eq_false_iff] at hd
      exact hd.1
    have hload : s.dec2exe.loads (decPush s i) (exePush s i) = false := by
      rw [Fifo.loads, hd, Bool.false_and]
    exact .inr ⟨hx, rfl, Fifo.dout_clock_of_not_load hload, Fifo.v_clock_of_not_load hload⟩

/-- DEC offers a word without any effect during a trap. -/
theorem decWord_of_exceptionSm (hx : i.exceptionSm = true) :
    decWord s i = Dec.trapWord i.fetch.pcIf2dec := by
  rw [decWord, Dec.concatDec2exe, if_pos hx]

/-- A fault of the fetch makes an exception of the instruction in DEC. -/
theorem exception_decWord (hx : i.exceptionSm = false)
    (hf : (i.fetch.instructionAccessFault || i.fetch.instructionAdressMissaligned) = true) :
    (decWord s i).exception = true := by
  rw [decWord, Dec.concatDec2exe, if_neg (by rw [hx]; exact Bool.false_ne_true)]
  rcases Bool.or_eq_true_iff.mp hf with h | h <;>
    simp only [h, Bool.or_true, Bool.true_or]

/-- What EXE hands on from DEC, when MEM takes no trap. -/
theorem dinSe_of_not_trap (hx : i.exceptionSm = false) :
    (exeSig s i).exe2memDinSe.multInst = s.rd.multInst ∧
      (exeSig s i).exe2memDinSe.csrWenable = s.rd.csrWenable ∧
      (exeSig s i).exe2memDinSe.csrWadr = s.rd.csrWadr ∧
      (exeSig s i).exe2memDinSe.csrRdata = s.rd.csrRdata ∧
      (exeSig s i).exe2memDinSe.exception =
        (s.rd.exception || (exeSig s i).res.flagged) := by
  obtain ⟨j, hj⟩ := dinSe_eq_fifoConcat (s := s) hx
  rw [hj]
  exact ⟨rfl, rfl, rfl, rfl, rfl⟩

theorem regOf_setWidth_setWidth (d : BitVec 5) :
    regOf ((d.setWidth 6).setWidth 5) = d.setWidth 6 := by
  rw [regOf, BitVec.setWidth_setWidth_of_le d (by decide), BitVec.setWidth_eq]

theorem regOf_adrDest (t : Decode.Types) (n : Decode.Insts) (ir : BitVec 32) :
    regOf ((Decode.adrDest t n ir).setWidth 5) = Decode.adrDest t n ir := by
  unfold Decode.adrDest
  split_ifs
  · exact regOf_setWidth_setWidth _
  · rfl
  · exact regOf_setWidth_setWidth _
  · exact regOf_setWidth_setWidth _
  · rfl

theorem regOf_decWord (s : State) (i : Cycle) :
    regOf ((decWord s i).dest.setWidth 5) = (decWord s i).dest := by
  unfold decWord Dec.concatDec2exe
  split_ifs
  · rfl
  · exact regOf_adrDest _ _ _

theorem fits_reset : Fits reset := ⟨rfl, rfl⟩

theorem fits_step (i : Cycle) (h : Fits s) : Fits (step s i) where
  dest := by
    cases hload : s.exe2mem.loads (exePush s i) (memPush s i) with
    | true =>
      rw [re_of_loads hload, dest_dinSe]
      split_ifs
      · rfl
      · exact h.destRd
    | false =>
      rw [re_of_not_loads hload]
      exact h.dest
  destRd := by
    cases hload : s.dec2exe.loads (decPush s i) (exePush s i) with
    | true =>
      have hrd : (step s i).rd = decWord s i := congrArg Fifo.dout (Fifo.clock_of_load hload)
      rw [hrd]
      exact regOf_decWord s i
    | false =>
      have hrd : (step s i).rd = s.rd := Fifo.dout_clock_of_not_load hload
      rw [hrd]
      exact h.destRd

/-- No word says that it returns in the wrong mode. -/
structure NoWrongMode (s : State) : Prop where
  rd : s.rd.envCallWrongMode = false
  re : s.re.envCallWrongMode = false
  dinSe : s.exe.sig.exe2memDinSe.envCallWrongMode = false

theorem noWrongMode_reset : NoWrongMode reset := ⟨rfl, rfl, rfl⟩

/-- DEC clears the flag in the activation that raises it. -/
theorem envCallWrongMode_decWord (s : State) (i : Cycle) :
    (decWord s i).envCallWrongMode = false := by
  unfold decWord Dec.concatDec2exe
  split_ifs <;> rfl

theorem envCallWrongMode_dinSe (h : NoWrongMode s) (i : Cycle) :
    (exeSig s i).exe2memDinSe.envCallWrongMode = false := by
  rcases dinSe_cases s i with hword | hword <;> rw [hword]
  · unfold Exe.fifoConcat
    split_ifs
    · rfl
    · exact h.rd
  · exact h.dinSe

theorem noWrongMode_step (i : Cycle) (h : NoWrongMode s) : NoWrongMode (step s i) where
  rd := by
    refine Fifo.pair_clock (P := fun w _ => w.envCallWrongMode = false) (g := s.dec2exe)
      (b := s.dec2exe.dout) rfl h.rd fun _ => envCallWrongMode_decWord s i
  re := by
    refine Fifo.pair_clock (P := fun w _ => w.envCallWrongMode = false) (g := s.exe2mem)
      (b := s.exe2mem.dout) rfl h.re fun _ => envCallWrongMode_dinSe h i
  dinSe := envCallWrongMode_dinSe h i

theorem retained_reset : Retained reset where
  toFits := fits_reset
  mem _ := ⟨rfl, rfl, rfl, rfl, rfl, fun _ => rfl⟩
  wbk _ h := absurd h (by decide)

theorem retained_step (i : Cycle) (h : Retained s) (hw : WbkFresh s) : Retained (step s i) where
  toFits := fits_step i h.toFits
  mem := by
    intro hv
    cases hload : s.exe2mem.loads (exePush s i) (memPush s i) with
    | true =>
      rw [exe2mem_of_loads hload] at hv
      exact absurd hv.symm Bool.false_ne_true
    | false =>
      -- the place has been left in this cycle or before
      rw [re_of_not_loads hload]
      rw [exe2mem_v_of_not_loads hload] at hv
      cases hpush : memPush s i with
      | true =>
        rw [rm_of_memPush hpush]
        exact sameWord_memWord
      | false =>
        rw [rm_of_not_memPush hpush]
        rw [hpush, Bool.not_false, Bool.and_true] at hv
        exact h.mem hv
  wbk := by
    intro hv hwb hdest
    cases hpush : memPush s i with
    | true =>
      rw [mem2wbk_of_memPush hpush] at hv
      exact absurd hv.symm Bool.false_ne_true
    | false =>
      have hprod : (step s i).productWbk = s.productWbk :=
        if_neg (by rw [hpush]; exact Bool.false_ne_true)
      rw [rm_of_not_memPush hpush] at hwb hdest ⊢
      rw [registers_step hw hdest, hprod, committed]
      -- the word is either written in this cycle or was written before
      cases hwen : wenable s with
      | true => rw [Bool.true_and, if_pos (beq_self_eq_true _)]
      | false =>
        rw [Bool.false_and, if_neg Bool.false_ne_true]
        refine h.wbk ?_ hwb hdest
        rw [wenable, hwb, Bool.true_and, Fifo.isEmpty, Bool.not_not] at hwen
        exact hwen

/-! ### Values that are known already -/

/-- The word in MEM does not still wait for a load or a multiplication to deliver the
register. -/
def Delivers (s : State) (r : BitVec 6) : Prop :=
  s.exe2mem.v = true → s.re.dest = r →
    s.re.memLoad = false ∧ s.re.multInst = false ∧ s.re.wb = true

/-- The value of a register as the bypasses of DEC take it. -/
def known (s : State) (r : BitVec 6) : BitVec 32 :=
  if s.exe2mem.v && s.re.dest == r then
    if s.re.csrWenable then s.re.csrRdata else s.re.exeRes
  else committed s r

theorem wdata_of_delivers {w : Exe2Mem} {m : Mem2Wbk} (h : SameWord w m)
    (hload : w.memLoad = false) (hmult : w.multInst = false) (x2Res : BitVec 32) :
    wdata m x2Res = if w.csrWenable then w.csrRdata else w.exeRes := by
  rw [wdata, h.csrWenable, h.csrRdata, h.multInst, hmult, h.memRes hload]
  rfl

/-- A known value is still the one of the register when the word in MEM has moved on. -/
theorem committed_step_eq_known {r : BitVec 6} (h : Retained s) (hw : WbkFresh s) (hr : r ≠ 0)
    (hs : Delivers s r) (hgone : memPush s i = true ∨ s.exe2mem.v = false) :
    committed (step s i) r = known s r := by
  rw [committed_step hw hr, known]
  cases hv : s.exe2mem.v with
  | false =>
    have hpush : memPush s i = false := by
      cases hp : memPush s i
      · rfl
      · exact absurd ((v_of_memPush hp).symm.trans hv) (by decide)
    rw [hpush]
    rfl
  | true =>
    have hpush : memPush s i = true := hgone.resolve_right (by rw [hv]; decide)
    have hdest : regOf (memWord s i).dest = s.re.dest := h.dest
    rw [hpush, hdest, Bool.true_and, Bool.true_and]
    by_cases hre : s.re.dest = r
    · obtain ⟨hload, hmult, hwb⟩ := hs hv hre
      have hwb' : (memWord s i).wb = true := by
        rw [sameWord_memWord.wb, hwb, Bool.true_or]
      rw [hwb', hre, beq_self_eq_true, Bool.true_and, if_pos rfl, if_pos rfl]
      exact wdata_of_delivers sameWord_memWord hload hmult _
    · rw [beq_eq_false_iff_ne.mpr hre, Bool.and_false, if_neg Bool.false_ne_true,
        if_neg Bool.false_ne_true]

/-- A known value does not change, as long as no instruction that writes the register
enters MEM. -/
theorem known_step {r : BitVec 6} (h : Retained s) (hw : WbkFresh s) (hr : r ≠ 0)
    (hs : Delivers s r) (hload : s.exe2mem.loads (exePush s i) (memPush s i) = true →
      (exeSig s i).exe2memDinSe.dest ≠ r) :
    known (step s i) r = known s r ∧ Delivers (step s i) r := by
  cases hl : s.exe2mem.loads (exePush s i) (memPush s i) with
  | true =>
    have hne : (step s i).re.dest ≠ r := by
      rw [re_of_loads hl]
      exact hload hl
    have hgone : memPush s i = true ∨ s.exe2mem.v = false := by
      have hroom := (Bool.and_eq_true_iff.mp hl).2
      cases hp : memPush s i
      · rw [hp, Bool.false_or] at hroom
        exact .inr (by rw [← Bool.not_true, ← hroom, Bool.not_not])
      · exact .inl rfl
    refine ⟨?_, fun _ heq => absurd heq hne⟩
    rw [known, beq_eq_false_iff_ne.mpr hne, Bool.and_false, if_neg Bool.false_ne_true]
    exact committed_step_eq_known h hw hr hs hgone
  | false =>
    have hv := exe2mem_v_of_not_loads hl
    have hre := re_of_not_loads hl
    refine ⟨?_, ?_⟩
    · cases hp : memPush s i with
      | true =>
        rw [known, hv, hp, Bool.not_true, Bool.and_false, Bool.false_and, if_neg Bool.false_ne_true]
        exact committed_step_eq_known h hw hr hs (.inl hp)
      | false =>
        rw [known, known, hv, hp, hre, Bool.not_false, Bool.and_true, committed_step hw hr, hp]
        rfl
    · intro hv' hdest
      rw [hre] at hdest ⊢
      rw [hv] at hv'
      exact hs (Bool.and_eq_true_iff.mp hv').1 hdest

/-! ### What the bypasses of EXE have to find -/

/-- The word in WBK has the register's value, shown or still there. -/
theorem committed_of_rm {r : BitVec 6} (h : Retained s) (hr : r ≠ 0)
    (hdest : regOf s.rm.dest = r) (hwb : s.rm.wb = true) :
    committed s r = wdata s.rm s.productWbk := by
  rw [committed, wenable, hwb, hdest, beq_self_eq_true, Bool.true_and, Bool.and_true, Fifo.isEmpty,
    Bool.not_not]
  cases hv : s.mem2wbk.v with
  | true => rfl
  | false =>
    rw [if_neg Bool.false_ne_true, ← hdest]
    exact h.wbk hv hwb (hdest ▸ hr)

/-- No instruction in MEM writes the register. -/
theorem expected_of_not_re {r : BitVec 6} (h : Retained s)
    (hre : s.exe2mem.v = true → s.re.dest ≠ r) : expected s i r = committed s r := by
  rw [expected_eq]
  cases hv : s.exe2mem.v with
  | true =>
    have hdest : regOf (memWord s i).dest = s.re.dest := h.dest
    rw [hdest, beq_eq_false_iff_ne.mpr (hre hv), Bool.and_false, if_neg Bool.false_ne_true]
  | false => rw [Bool.false_and, Bool.false_and, if_neg Bool.false_ne_true]

/-- The word in MEM is the youngest writer, shown or still there. -/
theorem expected_of_re {r : BitVec 6} (h : Retained s) (hr : r ≠ 0) (hdest : s.re.dest = r)
    (hwb : (s.re.wb || s.re.memLoad) = true) (hload : s.re.memLoad = false ∨ s.re.csrWenable = true)
    (hmult : s.re.multInst = false ∨ s.re.csrWenable = true) :
    expected s i r = if s.re.csrWenable then s.re.csrRdata else s.re.exeRes := by
  have hvalue : ∀ {m : Mem2Wbk} (x2Res : BitVec 32), SameWord s.re m →
      wdata m x2Res = if s.re.csrWenable then s.re.csrRdata else s.re.exeRes := by
    intro m x2Res hm
    cases hcsr : s.re.csrWenable with
    | true => rw [wdata, hm.csrWenable, hm.csrRdata, hcsr]; rfl
    | false =>
      rw [wdata_of_delivers hm (hload.resolve_right (by rw [hcsr]; decide))
        (hmult.resolve_right (by rw [hcsr]; decide)), hcsr]
  rw [expected_eq]
  cases hv : s.exe2mem.v with
  | true =>
    have hdest' : regOf (memWord s i).dest = r := h.dest.trans hdest
    have hwb' : (memWord s i).wb = true := hwb
    rw [hwb', hdest', beq_self_eq_true, Bool.true_and, Bool.true_and, if_pos rfl]
    exact hvalue _ sameWord_memWord
  | false =>
    have hsame := h.mem hv
    have hrm : regOf s.rm.dest = r := by
      rw [hsame.dest]
      exact h.dest.trans hdest
    have hwbRm : s.rm.wb = true := hsame.wb.trans hwb
    rw [Bool.false_and, Bool.false_and, if_neg Bool.false_ne_true]
    exact (committed_of_rm h hr hrm hwbRm).trans (hvalue _ hsame)

end Backend

end RiVerSoC
