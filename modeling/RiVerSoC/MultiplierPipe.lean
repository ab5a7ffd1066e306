/-
The multiplier beside the pipeline.

The rows of a multiplication pass through X02X1 and X12X2 while its instruction passes
through EXE2MEM and MEM2WBK.  `x0_multiplier` pushes in every cycle in which DEC2EXE holds a
word, and the two other stages wait for nobody.

* `Machine` — the core with the three stages, and the operands of the instructions in MEM
  and in WBK;
* `Aligned` — WBK writes the product of the multiplication that it holds;
* `wdataSw_of_mult` — it sees the product in time, because `wbk_method` listens to it;
* `inv_step` — X02X1 and X12X2 follow the multiplications, unless the data cache stalls one
  of them in MEM, or `fifo_concat` has packed an old row;
* `aligned_after` — so every state of such a run is aligned.
-/
import RiVerSoC.Core
import RiVerSoC.InFlight
import RiVerSoC.Multiplier

namespace RiVerSoC

namespace MultiplierPipe

open Backend (decPush exePush memPush decWord exeSig memWord wdata wbkSig)
open Multiplier (MulInst)
open X0Multiplier (X02X1 scratch)
open X1Multiplier (X12X2)

/-- An instruction that has left EXE, and what `x0_multiplier` saw then. -/
structure Tag where
  ir : BitVec 32
  inputs : X0Multiplier.Inputs
deriving DecidableEq, Repr, Inhabited

/-- The core and the multiplier.  `copy` is the row `product_s3[9]` that `fifo_concat` packed
last; the other fields without a signal name the instructions in the three FIFOs. -/
structure Machine where
  core : Core.State
  x0 : X0Multiplier.Sig
  x02x1 : Fifo X02X1
  x12x2 : Fifo X12X2
  copy : BitVec 64
  rd : BitVec 32
  re : Tag
  rm : Tag

def reset (procId : BitVec 32) : Machine where
  core := Core.reset procId
  x0 := X0Multiplier.reset
  x02x1 := ⟨scratch default, false⟩
  x12x2 := default
  copy := (scratch default).m4
  rd := 0
  re := default
  rm := default

variable (m : Machine) (i : Core.Cycle)

/-- The core with `RES_RX2` on the port of WBK. -/
def core : Core.State :=
  { m.core with pipe := { m.core.pipe with productWbk := X2Multiplier.process m.x12x2.dout } }

/-- The pipeline of the core. -/
abbrev pipe : Backend.State := (core m).pipe

theorem productWbk_pipe : (pipe m).productWbk = X2Multiplier.process m.x12x2.dout := rfl

/-- The cycle as the stages see it. -/
def cycle : Backend.Cycle := Core.cycle (core m) i

/-- What `x0_multiplier` sees. -/
def inputs : X0Multiplier.Inputs where
  op1 := (exeSig (pipe m) (cycle m i)).byp.op1Se
  op2 := (exeSig (pipe m) (cycle m i)).byp.op2Se
  exeCmd := (pipe m).rd.exeCmd

/-- `X12X2_POP_SX2`. -/
def x2Pop : Bool := !m.x12x2.isEmpty

/-- `x12x2_push_sx1` and `X02X1_POP_SX1`. -/
def x1Push : Bool := !(m.x12x2.isFull (x2Pop m) || m.x02x1.isEmpty)

/-- `x02x1_push_sx0`. -/
def x0Push : Bool := !(m.x02x1.isFull (x1Push m) || (pipe m).dec2exe.isEmpty)

def step : Machine where
  core := Core.step (core m) i
  x0 := X0Multiplier.apply m.x0 (inputs m i)
  x02x1 := m.x02x1.clock (x0Push m) (x1Push m)
    (X0Multiplier.apply m.x0 (inputs m i)).x02x1DinSx0
  x12x2 := m.x12x2.clock (x1Push m) (x2Pop m) (X1Multiplier.fifoConcat m.x02x1.dout)
  copy := X0Multiplier.nextCopy m.copy m.x0.inp (inputs m i)
  rd := if decPush (pipe m) (cycle m i) then i.pipe.ir else m.rd
  re :=
    if (pipe m).exe2mem.loads (exePush (pipe m) (cycle m i)) (memPush (pipe m) (cycle m i)) then
      ⟨m.rd, inputs m i⟩
    else m.re
  rm := if memPush (pipe m) (cycle m i) then m.re else m.rm

/-- The multiplication in WBK has its product in X12X2, and this is what it writes. -/
def Aligned : Prop :=
  (pipe m).mem2wbk.v = true → (pipe m).rm.multInst = true →
    m.x12x2.v = true ∧ (wbkSig (pipe m)).wdataSw = wdata (pipe m).rm (pipe m).productWbk ∧
      ∃ k : MulInst, k.flag (Decode.decodingInstruction m.rm.ir) = true ∧
        wdata (pipe m).rm (pipe m).productWbk = k.result m.rm.inputs.op1 m.rm.inputs.op2

/-- EXE hands a multiplication on. -/
def Passes : Prop :=
  (cycle m i).exceptionSm = false ∧ exePush (pipe m) (cycle m i) = true ∧
    (pipe m).rd.multInst = true

/-- The copy of `product_s3[9]` that a multiplication takes along is the row of its own
operands. -/
def OwnRow : Prop :=
  Passes m i → X0Multiplier.nextCopy m.copy m.x0.inp (inputs m i) =
    (X0Multiplier.scratch (inputs m i)).m4

/-- A multiplication takes its own row along, and is not stalled in MEM. -/
def Served : Prop :=
  (i.pipe.mcacheStall = true → (pipe m).exe2mem.v = true → (pipe m).re.multInst = false) ∧
    OwnRow m i

instance : Decidable (Passes m i) := inferInstanceAs (Decidable (_ ∧ _ ∧ _))

instance : Decidable (OwnRow m i) := inferInstanceAs (Decidable (_ → _))

instance : Decidable (Served m i) := inferInstanceAs (Decidable ((_ → _ → _) ∧ _))

/-! ### The invariant -/

/-- A word with `MULT_INST` is that of a multiplication, and does nothing else. -/
def Multiplies (ir : BitVec 32) (cmd : BitVec 2) (multInst others : Bool) : Prop :=
  multInst = true → others = false ∧
    ∃ k : MulInst, k.flag (Decode.decodingInstruction ir) = true ∧ cmd = k.exeCmd

/-- What a word in DEC2EXE does besides writing a register. -/
def othersRd (w : Dec2Exe) : Bool := w.csrWenable || w.memLoad || w.memStore

/-- What a word in EXE2MEM does besides writing a register. -/
def othersRe (w : Exe2Mem) : Bool := w.csrWenable || w.memLoad || w.memStore

/-- What holds in every cycle. -/
structure Inv (m : Machine) : Prop where
  rested : X0Multiplier.Rested m.x0
  din : m.x0.x02x1DinSx0 = { scratch m.x0.inp with m4 := m.copy }
  rd : Multiplies m.rd (pipe m).rd.exeCmd (pipe m).rd.multInst (othersRd (pipe m).rd)
  re : Multiplies m.re.ir m.re.inputs.exeCmd (pipe m).re.multInst (othersRe (pipe m).re)
  rm : Multiplies m.rm.ir m.rm.inputs.exeCmd (pipe m).rm.multInst (pipe m).rm.csrWenable
  wbk : (pipe m).wbk.rm.multInst = true → (pipe m).wbk.wdataSw = (pipe m).wbk.x2Res

/-- The rows are where their instructions are. -/
structure Follows (m : Machine) : Prop where
  mem : (pipe m).exe2mem.v = true → (pipe m).re.multInst = true →
    m.x02x1 = ⟨scratch m.re.inputs, true⟩
  wbk : (pipe m).mem2wbk.v = true → (pipe m).rm.multInst = true →
    m.x12x2 = ⟨X1Multiplier.fifoConcat (scratch m.rm.inputs), true⟩

theorem inv_reset (procId : BitVec 32) : Inv (reset procId) where
  rested := X0Multiplier.rested_reset
  din := rfl
  rd h := absurd h Bool.false_ne_true
  re h := absurd h Bool.false_ne_true
  rm h := absurd h Bool.false_ne_true
  wbk h := absurd h Bool.false_ne_true

theorem follows_reset (procId : BitVec 32) : Follows (reset procId) where
  mem h := absurd h Bool.false_ne_true
  wbk h := absurd h Bool.false_ne_true

/-! ### Decoding -/

theorem exists_flag {n : Decode.Insts} (h : n.multInst = true) :
    ∃ k : MulInst, k.flag n = true := by
  simp only [Decode.Insts.multInst, Bool.or_eq_true] at h
  rcases h with ((h | h) | h) | h
  · exact ⟨.mul, h⟩
  · exact ⟨.mulh, h⟩
  · exact ⟨.mulhsu, h⟩
  · exact ⟨.mulhu, h⟩

/-- A multiplication has the format M. -/
theorem types_of_flag {k : MulInst} {ir : BitVec 32}
    (h : k.flag (Decode.decodingInstruction ir) = true) :
    (Decode.decodingInstructionType ir).m = true := by
  cases k <;>
    (simp only [MulInst.flag, Decode.decodingInstruction, Decode.has7, Bool.and_eq_true,
        beq_iff_eq] at h
     simp [Decode.decodingInstructionType, h])

/-- What DEC makes of a word of the format M. -/
theorem postRegReadDecoding_of_m {ir : BitVec 32} {t : Decode.Types} {n : Decode.Insts}
    (h : t.m = true) (c : Decode.Sources) (u : Decode.Uninit) (old : Decode.Operation) :
    (Decode.postRegReadDecoding ir t n c u old).csrWenable = false ∧
      (Decode.postRegReadDecoding ir t n c u old).memLoad = n.load ∧
      (Decode.postRegReadDecoding ir t n c u old).memStore = false ∧
      (Decode.postRegReadDecoding ir t n c u old).exeCmd = Decode.command n := by
  unfold Decode.postRegReadDecoding Decode.operation
  rw [if_pos (show (t.r || t.i || t.u || t.m) = true by rw [h, Bool.or_true])]
  exact ⟨rfl, rfl, rfl, rfl⟩

/-- A multiplication is no load. -/
theorem load_of_flag {k : MulInst} {ir : BitVec 32}
    (h : k.flag (Decode.decodingInstruction ir) = true) :
    (Decode.decodingInstruction ir).load = false := by
  cases k <;>
    (simp only [MulInst.flag, Decode.decodingInstruction, Decode.has7, Bool.and_eq_true,
        beq_iff_eq] at h
     simp [Decode.Insts.load, Decode.decodingInstruction, Decode.has3, h])

theorem multiplies_decWord {s : Backend.State} {c : Backend.Cycle} (hx : c.exceptionSm = false) :
    Multiplies c.ir (decWord s c).exeCmd (decWord s c).multInst (othersRd (decWord s c)) := by
  intro hm
  rw [decWord, Dec.concatDec2exe, if_neg (by rw [hx]; exact Bool.false_ne_true)] at hm ⊢
  obtain ⟨k, hk⟩ : ∃ k : MulInst, k.flag (Decode.decodingInstruction c.ir) = true := by
    have hmult : (Backend.decSig s c).insts.multInst = true := hm
    exact exists_flag hmult
  obtain ⟨hcsr, hload, hstore, hcmd⟩ := postRegReadDecoding_of_m
    (n := (Backend.decSig s c).insts) (t := (Backend.decSig s c).types) (types_of_flag hk) _
    c.uninit s.operation
  refine ⟨?_, k, hk, hcmd.trans (Multiplier.command_of_flag hk)⟩
  change ((Decode.postRegReadDecoding _ _ _ _ _ _).csrWenable || _ || _) = false
  rw [hcsr, show (Backend.decOperation s c).memLoad = _ from hload,
    show (Backend.decOperation s c).memStore = _ from hstore, Bool.false_or, Bool.or_false]
  exact load_of_flag hk

/-! ### One cycle -/

section Step

variable {m i}

theorem rd_step (h : Inv m) : Multiplies (step m i).rd (pipe (step m i)).rd.exeCmd
    (pipe (step m i)).rd.multInst (othersRd (pipe (step m i)).rd) := by
  have hrd : (pipe (step m i)).rd = (Backend.step (pipe m) (cycle m i)).rd := rfl
  have htag : (step m i).rd = if decPush (pipe m) (cycle m i) then i.pipe.ir else m.rd := rfl
  rw [hrd, htag]
  rcases Backend.dec2exe_cases (pipe m) (cycle m i) with ⟨hpush, hword⟩ | ⟨-, hpush, hword, -⟩
  · rw [if_pos hpush, show (Backend.step (pipe m) (cycle m i)).rd = _ from congrArg Fifo.dout hword]
    cases hx : (cycle m i).exceptionSm with
    | true =>
      rw [Backend.decWord_of_exceptionSm hx]
      exact fun h => absurd h Bool.false_ne_true
    | false => exact multiplies_decWord (c := cycle m i) hx
  · rw [if_neg (by rw [hpush]; exact Bool.false_ne_true), Backend.State.rd, hword]
    exact h.rd

/-- EXE adds no effect to a word. -/
theorem othersRe_dinSe {s : Backend.State} {c : Backend.Cycle} (hx : c.exceptionSm = false)
    (h : othersRd s.rd = false) : othersRe (exeSig s c).exe2memDinSe = false := by
  rw [othersRd, Bool.or_eq_false_iff, Bool.or_eq_false_iff] at h
  obtain ⟨⟨hcsr, hload⟩, hstore⟩ := h
  obtain ⟨j, hj⟩ := Backend.dinSe_eq_fifoConcat (s := s) hx
  rw [hj]
  change (s.rd.csrWenable || (Exe.effects _ _).2.1 || (Exe.effects _ _).2.2) = false
  rw [hcsr, Exe.effects]
  split_ifs
  · rfl
  · exact Bool.or_eq_false_iff.mpr ⟨hload, hstore⟩

/-- EXE hands the flags on. -/
theorem re_step (h : Inv m) : Multiplies (step m i).re.ir (step m i).re.inputs.exeCmd
    (pipe (step m i)).re.multInst (othersRe (pipe (step m i)).re) := by
  have hre : (pipe (step m i)).re = (Backend.step (pipe m) (cycle m i)).re := rfl
  have htag : (step m i).re =
      if (pipe m).exe2mem.loads (exePush (pipe m) (cycle m i)) (memPush (pipe m) (cycle m i)) then
        ⟨m.rd, inputs m i⟩
      else m.re := rfl
  rw [hre, htag]
  cases hl : (pipe m).exe2mem.loads (exePush (pipe m) (cycle m i))
      (memPush (pipe m) (cycle m i)) with
  | true =>
    rw [Backend.re_of_loads hl, if_pos rfl]
    cases hx : (cycle m i).exceptionSm with
    | true =>
      obtain ⟨pc, hpc⟩ := Backend.dinSe_of_trap (s := pipe m) hx
      rw [hpc]
      exact fun h => absurd h Bool.false_ne_true
    | false =>
      obtain ⟨hmult, -⟩ := Backend.dinSe_of_not_trap (s := pipe m) hx
      rw [hmult]
      intro hm
      obtain ⟨hothers, hk⟩ := h.rd hm
      exact ⟨othersRe_dinSe hx hothers, hk⟩
  | false =>
    rw [Backend.re_of_not_loads hl, if_neg Bool.false_ne_true]
    exact h.re

theorem rm_step (h : Inv m) : Multiplies (step m i).rm.ir (step m i).rm.inputs.exeCmd
    (pipe (step m i)).rm.multInst (pipe (step m i)).rm.csrWenable := by
  have hrm : (pipe (step m i)).rm = (Backend.step (pipe m) (cycle m i)).rm := rfl
  have htag : (step m i).rm = if memPush (pipe m) (cycle m i) then m.re else m.rm := rfl
  rw [hrm, htag]
  cases hpush : memPush (pipe m) (cycle m i) with
  | true =>
    rw [Backend.rm_of_memPush hpush, if_pos rfl]
    intro hm
    obtain ⟨hothers, hk⟩ := h.re hm
    exact ⟨(Bool.or_eq_false_iff.mp (Bool.or_eq_false_iff.mp hothers).1).1, hk⟩
  | false =>
    rw [Backend.rm_of_not_memPush hpush, if_neg Bool.false_ne_true]
    exact h.rm

theorem wdata_of_mult (h : Inv m) (hm : (pipe m).rm.multInst = true) :
    wdata (pipe m).rm (pipe m).productWbk = (pipe m).productWbk := by
  rw [wdata, (h.rm hm).1, hm]
  rfl

/-- WBK sees the product of a multiplication: it is woken, or has seen the same one before. -/
theorem wdataSw_of_mult (h : Inv m) (hm : (pipe m).rm.multInst = true) :
    (wbkSig (pipe m)).wdataSw = (pipe m).productWbk := by
  change Backend.wbkM.fire (pipe m).wbk (Backend.wbkInputs (pipe m)) = _
  unfold Delta.Method.fire
  split_ifs with hw
  · exact wdata_of_mult h hm
  · have hsame := not_not.mp hw
    simp only [Backend.wbkListed, List.cons.injEq, BitVec.toNat_inj, Delta.bool_toNat_inj,
      and_true] at hsame
    obtain ⟨-, -, -, -, hproduct, hmult⟩ := hsame
    have hkept : (pipe m).wbk.wdataSw = (pipe m).wbk.x2Res := h.wbk (hmult.trans hm)
    exact hkept.trans hproduct

theorem inv_step (h : Inv m) (i : Core.Cycle) : Inv (step m i) where
  rested := X0Multiplier.rested_apply h.rested _
  din := by
    have hdin := X0Multiplier.apply_din_of_copy h.rested h.din (inputs m i)
    have hinp : (step m i).x0.inp = inputs m i := X0Multiplier.settling_inp _ _ _
    rw [hinp]
    exact hdin
  rd := rd_step h
  re := re_step h
  rm := rm_step h
  wbk := wdataSw_of_mult h

/-- `STALL_SC` of the data cache, for the word in MEM. -/
def stallSc (w : Exe2Mem) (miss full : Bool) : Bool := miss && w.memLoad || w.memStore && full

/-- The data cache stalls no multiplication. -/
theorem stallSc_of_multInst (h : Inv m) (hm : (pipe m).re.multInst = true) (miss full : Bool) :
    stallSc (pipe m).re miss full = false := by
  obtain ⟨hothers, -⟩ := h.re hm
  rw [othersRe, Bool.or_eq_false_iff, Bool.or_eq_false_iff] at hothers
  rw [stallSc, hothers.1.2, hothers.2, Bool.and_false, Bool.false_and]
  rfl

/-- So its stalls do no harm. -/
theorem served_of_stallSc (h : Inv m) {miss full : Bool}
    (hstall : i.pipe.mcacheStall = stallSc (pipe m).re miss full) (hrow : OwnRow m i) :
    Served m i := by
  refine ⟨?_, hrow⟩
  intro hstall' _
  cases hm : (pipe m).re.multInst with
  | true =>
    rw [hstall, stallSc_of_multInst h hm] at hstall'
    exact absurd hstall' Bool.false_ne_true
  | false => rfl

/-! ### X02X1 and X12X2 -/

theorem x12x2_not_full (m : Machine) : m.x12x2.isFull (x2Pop m) = false := by
  simp [Fifo.isFull, x2Pop, Fifo.isEmpty]

theorem x1Push_eq (m : Machine) : x1Push m = m.x02x1.v := by
  rw [x1Push, x12x2_not_full, Bool.false_or, Fifo.isEmpty, Bool.not_not]

theorem x02x1_not_full (m : Machine) : m.x02x1.isFull (x1Push m) = false := by
  rw [x1Push_eq, Fifo.isFull, Bool.and_not_self]

/-- `x0_multiplier` pushes whatever stands in DEC2EXE. -/
theorem x02x1_step (h : Inv m) (hv : (pipe m).dec2exe.v = true) :
    (step m i).x02x1 = ⟨{ scratch (inputs m i) with
      m4 := X0Multiplier.nextCopy m.copy m.x0.inp (inputs m i) }, true⟩ := by
  have hpush : x0Push m = true := by
    rw [x0Push, x02x1_not_full, Bool.false_or, Fifo.isEmpty, Bool.not_not]
    exact hv
  have hload : m.x02x1.loads (x0Push m) (x1Push m) = true :=
    (Fifo.loads_of_not_full (x02x1_not_full m)).trans hpush
  rw [← X0Multiplier.apply_din_of_copy h.rested h.din]
  exact Fifo.clock_of_load hload

/-- `x1_multiplier` pushes whatever stands in X02X1. -/
theorem x12x2_step (hv : m.x02x1.v = true) :
    (step m i).x12x2 = ⟨X1Multiplier.fifoConcat m.x02x1.dout, true⟩ := by
  have hload : m.x12x2.loads (x1Push m) (x2Pop m) = true :=
    (Fifo.loads_of_not_full (x12x2_not_full m)).trans ((x1Push_eq m).trans hv)
  exact Fifo.clock_of_load hload

/-- A multiplication that MEM is not kept from passing on leaves it at once. -/
theorem memPush_of_served (hs : Served m i) (hv : (pipe m).exe2mem.v = true)
    (hm : (pipe m).re.multInst = true) : memPush (pipe m) (cycle m i) = true := by
  have hstall : (cycle m i).mcacheStall = false := by
    cases hstall : i.pipe.mcacheStall with
    | true => exact absurd (hm.symm.trans (hs.1 hstall hv)) (by decide)
    | false => exact hstall
  rw [memPush, hstall, Backend.mem2wbk_not_full, Fifo.isEmpty, hv]
  rfl

/-- The multiplication that EXE passes on finds its rows in X02X1. -/
theorem mem_step (h : Inv m) (hs : Served m i)
    (hv : (pipe (step m i)).exe2mem.v = true) (hm : (pipe (step m i)).re.multInst = true) :
    (step m i).x02x1 = ⟨scratch (step m i).re.inputs, true⟩ := by
  have hmem : (pipe (step m i)).exe2mem = (Backend.step (pipe m) (cycle m i)).exe2mem := rfl
  rw [hmem] at hv
  rw [Backend.State.re, hmem] at hm
  -- no multiplication stays in EXE2MEM
  have hgone : memPush (pipe m) (cycle m i) = false → (pipe m).exe2mem.v = true →
      (pipe m).re.multInst = false := by
    intro hpop hv'
    cases hm' : (pipe m).re.multInst with
    | true => exact absurd ((memPush_of_served hs hv' hm').symm.trans hpop) (by decide)
    | false => rfl
  rcases Backend.exe2mem_cases (pipe m) (cycle m i) with
    ⟨hx, hpush, hnew⟩ | ⟨-, pc, hnew⟩ | ⟨hx, hnew, hv'⟩ | ⟨-, -, hdout, hv'⟩
  · rw [hnew, (Backend.dinSe_of_not_trap hx).1] at hm
    have htag : (step m i).re = ⟨m.rd, inputs m i⟩ :=
      if_pos ((Backend.loads_of_not_trap hx).trans hpush)
    rw [x02x1_step h (Backend.v_of_exePush hx hpush), hs.2 ⟨hx, hpush, hm⟩, htag]
  · rw [hnew] at hm
    exact absurd hm Bool.false_ne_true
  · cases hpop : memPush (pipe m) (cycle m i) with
    | true =>
      have hload : (pipe m).exe2mem.loads (exePush (pipe m) (cycle m i))
          (memPush (pipe m) (cycle m i)) = true := by
        rw [Fifo.loads, exePush, hx, hpop]
        rfl
      obtain ⟨pc, hpc⟩ := Backend.dinSe_of_trap (s := pipe m) hx
      rw [← Backend.State.re, Backend.re_of_loads hload, hpc] at hm
      exact absurd hm Bool.false_ne_true
    | false =>
      rw [hnew] at hm
      exact absurd (hm.symm.trans (hgone hpop hv')) (by decide)
  · rw [hdout] at hm
    rw [hv', Bool.and_eq_true, Bool.not_eq_true'] at hv
    exact absurd (hm.symm.trans (hgone hv.2 hv.1)) (by decide)

/-- The multiplication that MEM passes on finds its product in X12X2. -/
theorem wbk_step (h : Follows m) (hv : (pipe (step m i)).mem2wbk.v = true)
    (hm : (pipe (step m i)).rm.multInst = true) :
    (step m i).x12x2 = ⟨X1Multiplier.fifoConcat (scratch (step m i).rm.inputs), true⟩ := by
  have hwbk : (pipe (step m i)).mem2wbk = (Backend.step (pipe m) (cycle m i)).mem2wbk := rfl
  rw [hwbk] at hv
  rw [Backend.State.rm, hwbk] at hm
  have hpush : memPush (pipe m) (cycle m i) = true := by
    cases hpush : memPush (pipe m) (cycle m i) with
    | true => rfl
    | false => exact absurd (hv.symm.trans (Backend.mem2wbk_v_of_not_memPush hpush)) (by decide)
  rw [Backend.mem2wbk_of_memPush hpush] at hm
  have hrows := h.mem (Backend.v_of_memPush hpush) hm
  have htag : (step m i).rm = m.re := if_pos hpush
  rw [x12x2_step (by rw [hrows]), hrows, htag]

theorem follows_step (h : Inv m) (hf : Follows m) (hs : Served m i) : Follows (step m i) where
  mem := mem_step h hs
  wbk := wbk_step hf

/-- What X12X2 holds for the multiplication in WBK is what it writes. -/
theorem aligned_of_follows (h : Inv m) (hf : Follows m) : Aligned m := by
  intro hv hm
  obtain ⟨-, k, hk, hcmd⟩ := h.rm hm
  have hrows := hf.wbk hv hm
  have hvalue := wdata_of_mult h hm
  refine ⟨by rw [hrows], (wdataSw_of_mult h hm).trans hvalue.symm, k, hk, ?_⟩
  rw [hvalue, productWbk_pipe, hrows, ← Multiplier.process_scratch, ← hcmd]

end Step

/-! ### Whole runs -/

/-- Every state of a run in which the data cache stalls no multiplication, and in which every
multiplication takes its own row `product_s3[9]` along, is aligned. -/
theorem aligned_after (procId : BitVec 32) (is : List Core.Cycle)
    (h : Run.Each Served step (reset procId) is) :
    Aligned (Run.after step (reset procId) is) := by
  have hstep : ∀ m i, Inv m ∧ Follows m → Served m i → Inv (step m i) ∧ Follows (step m i) :=
    fun m i hm hs => ⟨inv_step hm.1 i, follows_step hm.1 hm.2 hs⟩
  obtain ⟨hinv, hfollows⟩ :=
    Run.inv_after_of_each hstep ⟨inv_reset procId, follows_reset procId⟩ h
  exact aligned_of_follows hinv hfollows

/-- A cycle with a word in IF2DEC. -/
def fetched (ir : BitVec 32) : Core.Cycle :=
  { (default : Core.Cycle) with pipe := { (default : Backend.Cycle) with ir := ir } }

/-- `addi x6, x0, 6`, `addi x7, x0, 7` and `mul x5, x6, x7`, up to WBK. -/
def mulRun : List Core.Cycle :=
  [0x00600313, 0x00700393, 0x027302B3, 0x13, 0x13].map fetched

theorem aligned_after_mul : Aligned (Run.after step (reset 0) mulRun) :=
  aligned_after 0 mulRun (by decide +kernel)

/-- `mulhu x5, x1, x2` with 0xf00 and 0xb76f9 in EXE, and `mulhu x6, x3, x4` with 0xb and
0x1b452500 behind it. -/
def mulhuTwice : List Core.Cycle :=
  [0x000010B7, 0xF0008093, 0x000B7137, 0x6F910113, 0x00B00193, 0x1B452237, 0x50020213,
    0x13, 0x13, 0x13, 0x13, 0x0220B2B3, 0x0241B333].map fetched

/-- Two cycles later WBK holds the second multiplication, and writes a word that the old
row `product_s3[9]` has gone into. -/
theorem not_aligned_mulhuTwice :
    ¬ Aligned (Run.after step (reset 0) (mulhuTwice ++ [fetched 0x13, fetched 0x13])) := by
  rw [Run.after_append, Run.after_cons, Run.after_cons, Run.after_nil]
  intro h
  have hinv : Inv (Run.after step (reset 0) mulhuTwice) :=
    Run.inv_after step Inv (fun _ i h => inv_step h i) mulhuTwice (inv_reset 0)
  have hinputs : inputs (Run.after step (reset 0) mulhuTwice) (fetched 0x13) =
      ⟨0xb, 0x1b452500, 3⟩ := by decide +kernel
  have hcopy : X0Multiplier.nextCopy (Run.after step (reset 0) mulhuTwice).copy
      (Run.after step (reset 0) mulhuTwice).x0.inp
      (inputs (Run.after step (reset 0) mulhuTwice) (fetched 0x13)) = 0 := by decide +kernel
  have hx02x1 := x02x1_step (i := fetched 0x13) hinv (by decide +kernel)
  have hx12x2 := x12x2_step (i := fetched 0x13)
    (show (step (Run.after step (reset 0) mulhuTwice) (fetched 0x13)).x02x1.v = true by
      rw [hx02x1])
  rw [hx02x1, hcopy, hinputs] at hx12x2
  obtain ⟨-, -, k, hk, hres⟩ := h (by decide +kernel) (by decide +kernel)
  have htag : (step (step (Run.after step (reset 0) mulhuTwice) (fetched 0x13))
      (fetched 0x13)).rm = ⟨0x0241B333, ⟨0xb, 0x1b452500, 3⟩⟩ := by decide +kernel
  have hflags : (pipe (step (step (Run.after step (reset 0) mulhuTwice) (fetched 0x13))
      (fetched 0x13))).rm.csrWenable = false ∧
      (pipe (step (step (Run.after step (reset 0) mulhuTwice) (fetched 0x13))
        (fetched 0x13))).rm.multInst = true := by decide +kernel
  rw [htag] at hk hres
  have hmulhu : k = .mulhu := by
    revert hk
    cases k <;> decide +kernel
  rw [wdata, hflags.1, hflags.2, hmulhu, productWbk_pipe, hx12x2] at hres
  revert hres
  decide +kernel

end MultiplierPipe

end RiVerSoC
