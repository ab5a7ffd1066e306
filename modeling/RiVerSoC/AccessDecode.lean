/-
Loads and stores in DEC and EXE.

* `AccessWord` — the word in DEC2EXE for a load or a store; `accessWord_decWord` — DEC builds
  it;
* `refused` — EXE has found the address misaligned, or out of the reach of user mode, when it
  has looked at it;
* `dinSe_of_access` — the word for MEM: the access, or an exception in its place.
-/
import RiVerSoC.InFlight

namespace RiVerSoC

namespace Access

open Decode (decodingInstruction decodingInstructionType)
open Backend (State Cycle exeSig exeInputs decWord)

/-- The instruction in EXE is a load or a store. -/
def accesses (w : Dec2Exe) : Bool := w.memLoad || w.memStore

/-- The word in MEM presents a request to the data memory. -/
def requests (w : Exe2Mem) : Bool := w.memLoad || w.memStore

/-- The word in DEC2EXE computes the sum of its operands. -/
structure AccessWord (w : Dec2Exe) : Prop where
  csrWenable : w.csrWenable = false
  exeCmd : w.exeCmd = 0
  negOp2 : w.negOp2 = false
  selectTypeOperations : w.selectTypeOperations = 1
  slt : w.slt = false
  sltu : w.sltu = false

/-! ### DEC -/

variable {ir : BitVec 32}

theorem opcode_of_load (h : (decodingInstruction ir).load = true) :
    Decode.opcode ir = 0b0000011 := by
  simp only [Decode.Insts.load, decodingInstruction, Decode.has3, Bool.or_eq_true,
    Bool.and_eq_true, beq_iff_eq] at h
  rcases h with (((h | h) | h) | h) | h <;> exact h.1

theorem opcode_of_s (h : (decodingInstructionType ir).s = true) :
    Decode.opcode ir = 0b0100011 := beq_iff_eq.mp h

/-- The operation of a load or a store. -/
structure AccessOperation (n : Decode.Insts) (o : Decode.Operation) : Prop where
  csrWenable : o.csrWenable = false
  exeCmd : o.exeCmd = 0
  negOp2 : o.negOp2 = false
  selectTypeOperations : o.selectTypeOperations = 1
  slt : (n.slt || n.slti) = false
  sltu : (n.sltu || n.sltiu) = false

theorem accessOperation_of_load (hload : (decodingInstruction ir).load = true)
    (t : Decode.Types) (c : Decode.Sources) : AccessOperation (decodingInstruction ir)
      (Decode.registerOperation ir t (decodingInstruction ir) c) := by
  have hop := opcode_of_load hload
  exact
    { csrWenable := rfl
      exeCmd := by
        simp [Decode.registerOperation, Decode.command, decodingInstruction, Decode.has3,
          Decode.has7, hop]
      negOp2 := by
        simp [Decode.registerOperation, decodingInstruction, Decode.has3, Decode.has7, hop]
      selectTypeOperations := by
        simp [Decode.registerOperation, Decode.unit, Decode.Insts.divInst, Decode.Insts.multInst,
          decodingInstruction, Decode.has3, Decode.has7, hop]
      slt := by simp [decodingInstruction, Decode.has3, Decode.has7, hop]
      sltu := by simp [decodingInstruction, Decode.has3, Decode.has7, hop] }

theorem accessOperation_of_s (hs : (decodingInstructionType ir).s = true) (c : Decode.Sources)
    (u : Decode.Uninit) (old : Decode.Operation) : AccessOperation (decodingInstruction ir)
      (Decode.storeOperation ir (decodingInstruction ir) c u old) := by
  have hop := opcode_of_s hs
  exact
    { csrWenable := rfl
      exeCmd := rfl
      negOp2 := rfl
      selectTypeOperations := rfl
      slt := by simp [decodingInstruction, Decode.has3, Decode.has7, hop]
      sltu := by simp [decodingInstruction, Decode.has3, Decode.has7, hop] }

/-- An operation that accesses memory is one of a load or a store. -/
theorem accessOperation (c : Decode.Sources) (u : Decode.Uninit) (old : Decode.Operation)
    (h : ((Decode.operation ir (decodingInstructionType ir) (decodingInstruction ir) c u
          old).1.memLoad
        || (Decode.operation ir (decodingInstructionType ir) (decodingInstruction ir) c u
          old).1.memStore) = true) :
    AccessOperation (decodingInstruction ir)
      (Decode.operation ir (decodingInstructionType ir) (decodingInstruction ir) c u old).1 := by
  obtain ⟨f, hf⟩ := Decode.exists_format ir
  cases f with
  | r | i | u | m =>
    have hop : Decode.operation ir (decodingInstructionType ir) (decodingInstruction ir) c u old =
        (Decode.registerOperation ir (decodingInstructionType ir) (decodingInstruction ir) c,
          false) := if_pos (by rw [hf]; rfl)
    rw [hop] at h ⊢
    exact accessOperation_of_load ((Bool.or_false _).symm.trans h) _ _
  | s =>
    have hs : (decodingInstructionType ir).s = true := by
      rw [hf]
      rfl
    have hop : Decode.operation ir (decodingInstructionType ir) (decodingInstruction ir) c u old =
        (Decode.storeOperation ir (decodingInstruction ir) c u old, false) := by
      rw [hf]
      rfl
    rw [hop]
    exact accessOperation_of_s hs _ _ _
  | b | j | jalr =>
    rw [hf] at h
    exact absurd h Bool.false_ne_true
  | system =>
    -- none of the branches writes the signals of the memory
    have hop : Decode.operation ir (decodingInstructionType ir) (decodingInstruction ir) c u old =
        if (decodingInstruction ir).csr then
          (Decode.csrOperation ir (decodingInstruction ir) c, false)
        else if (decodingInstruction ir).ecall || (decodingInstruction ir).ebreak ||
          (decodingInstruction ir).sret || (decodingInstruction ir).mret then (Decode.idle, false)
        else (Decode.otherSystemOperation u old, false) := by
      rw [hf]
      rfl
    rw [hop] at h
    split_ifs at h <;> exact absurd h Bool.false_ne_true
  | other =>
    have hop : Decode.operation ir (decodingInstructionType ir) (decodingInstruction ir) c u old =
        if (decodingInstruction ir).fence then (Decode.idle, false)
        else ({ Decode.idle with jump := u.jump }, true) := by
      rw [hf]
      rfl
    rw [hop] at h
    split_ifs at h <;> exact absurd h Bool.false_ne_true

variable {s : State} {i : Cycle}

/-- DEC builds the word of a load or a store. -/
theorem accessWord_decWord (h : accesses (decWord s i) = true) : AccessWord (decWord s i) := by
  unfold decWord Dec.concatDec2exe at h ⊢
  cases hx : i.exceptionSm with
  | true =>
    rw [hx, if_pos rfl] at h
    exact absurd h Bool.false_ne_true
  | false =>
    rw [hx, if_neg Bool.false_ne_true] at h
    rw [if_neg Bool.false_ne_true]
    obtain ⟨h1, h2, h3, h4, h5, h6⟩ := accessOperation _ _ _ h
    exact ⟨h1, h2, h3, h4, h5, h6⟩

/-! ### EXE -/

/-- The address of the access in EXE. -/
def adr (s : State) (i : Cycle) : BitVec 32 :=
  (exeSig s i).byp.op1Se + (exeSig s i).byp.op2Se

/-- `select_exec_res` looks at the access in EXE. -/
def Checked (s : State) (i : Cycle) : Prop := Exe.SelectRuns s.exe.sig (exeInputs s i)

instance (s : State) (i : Cycle) : Decidable (Checked s i) :=
  inferInstanceAs (Decidable (Exe.SelectRuns _ _))

/-- EXE refuses the access; an access that it does not look at has the flags of the one
before. -/
def refused (s : State) (i : Cycle) : Bool :=
  if Checked s i then
    Exe.missaligned s.rd.memSize (adr s i) || Exe.accessFault (exeInputs s i) (adr s i)
  else s.exe.sig.res.flagged

theorem aluOut_of_access (h : AccessWord s.rd) : (exeSig s i).aluOutSe = adr s i := by
  change Exe.alu s.rd.exeCmd _ (Exe.preprocessOp s.rd.negOp2 _).1 s.rd.negOp2 = _
  rw [h.exeCmd, h.negOp2]
  exact BitVec.add_zero _

/-- What `select_exec_res` writes for a load or a store. -/
theorem selectExecRes_of_access {j : Exe.Inputs} (h : AccessWord j.rd)
    (hacc : accesses j.rd = true) (op1 op2 aluOut shifterOut old : BitVec 32) :
    (Exe.selectExecRes j op1 op2 aluOut shifterOut old).exeResSe = aluOut ∧
      (Exe.selectExecRes j op1 op2 aluOut shifterOut old).flagged =
        (Exe.missaligned j.rd.memSize aluOut || Exe.accessFault j aluOut) := by
  unfold Exe.selectExecRes
  rw [h.selectTypeOperations, h.slt, h.sltu]
  cases hl : j.rd.memLoad with
  | true =>
    refine ⟨rfl, ?_⟩
    simp [Exe.ExeRes.flagged]
  | false =>
    have hs : j.rd.memStore = true := by
      rw [accesses, hl, Bool.false_or] at hacc
      exact hacc
    rw [hs]
    refine ⟨rfl, ?_⟩
    simp [Exe.ExeRes.flagged, Bool.or_comm]

/-- The result of EXE for a load or a store. -/
theorem res_of_access (h : AccessWord s.rd) (hacc : accesses s.rd = true) :
    (exeSig s i).res.exeResSe = adr s i ∧ (exeSig s i).res.flagged = refused s i := by
  constructor
  · obtain ⟨j, op1, op2, old, hres⟩ := (Backend.exeStage s i).atRest.res_eq
    have hsel := (selectExecRes_of_access (j := (exeInputs s i).selecting j)
      ⟨h.csrWenable, h.exeCmd, h.negOp2, h.selectTypeOperations, h.slt, h.sltu⟩ hacc op1 op2
      (exeSig s i).aluOutSe (exeSig s i).shifterOutSe old).1
    rw [← aluOut_of_access h, ← hsel]
    exact congrArg Exe.ExeRes.exeResSe hres
  · change (Exe.writtenRes s.exe.sig (exeInputs s i)).flagged = _
    rw [Exe.writtenRes, refused]
    by_cases hc : Exe.SelectRuns s.exe.sig (exeInputs s i)
    · rw [if_pos hc, if_pos (show Checked s i from hc), ← aluOut_of_access h]
      exact (selectExecRes_of_access (j := exeInputs s i) h hacc _ _ _ _ _).2
    · rw [if_neg hc, if_neg (show ¬ Checked s i from hc)]

/-- What EXE hands on, when MEM takes no trap. -/
theorem dinSe_eq (hx : i.exceptionSm = false) :
    (exeSig s i).exe2memDinSe.exeRes = (exeSig s i).res.exeResSe ∧
      (exeSig s i).exe2memDinSe.memSize = s.rd.memSize ∧
      (exeSig s i).exe2memDinSe.exception = (s.rd.exception || (exeSig s i).res.flagged) ∧
      requests (exeSig s i).exe2memDinSe =
        (!(s.rd.exception || (exeSig s i).res.flagged) && accesses s.rd) := by
  have hexc : (exeSig s i).exceptionSe = (s.rd.exception || (exeSig s i).res.flagged) := rfl
  obtain ⟨j, hj⟩ := Backend.dinSe_eq_fifoConcat (s := s) hx
  rw [hj, hexc]
  refine ⟨rfl, rfl, rfl, ?_⟩
  unfold Exe.effects requests
  cases s.rd.exception || (exeSig s i).res.flagged <;> rfl

/-- An exception in EXE2MEM takes the access away. -/
theorem requests_of_exception (hx : i.exceptionSm = false)
    (hexc : (exeSig s i).exe2memDinSe.exception = true) :
    requests (exeSig s i).exe2memDinSe = false := by
  obtain ⟨-, -, h1, h2⟩ := dinSe_eq (s := s) hx
  rw [h2, ← h1, hexc, Bool.not_true, Bool.false_and]

/-- A load or a store leaves EXE as a request at its address, or as an exception. -/
theorem dinSe_of_access (hx : i.exceptionSm = false) (h : AccessWord s.rd)
    (hacc : accesses s.rd = true) (hexc : s.rd.exception = false) :
    (exeSig s i).exe2memDinSe.exeRes = adr s i ∧
      (exeSig s i).exe2memDinSe.memSize = s.rd.memSize ∧
      (exeSig s i).exe2memDinSe.exception = refused s i ∧
      requests (exeSig s i).exe2memDinSe = !refused s i := by
  obtain ⟨hres, hflagged⟩ := res_of_access (i := i) h hacc
  obtain ⟨h1, h2, h3, h4⟩ := dinSe_eq (s := s) hx
  rw [hexc, Bool.false_or, hflagged] at h3 h4
  rw [hacc, Bool.and_true] at h4
  exact ⟨h1.trans hres, h2, h3, h4⟩

/-! ### Addresses -/

/-- The size of an access in bytes. -/
def bytes (memSize : BitVec 2) : ℕ := if memSize = 0 then 4 else if memSize = 1 then 2 else 1

theorem and_three_eq_zero (a : BitVec 32) : a &&& 3 = 0 ↔ a.toNat % 4 = 0 := by
  rw [← BitVec.toNat_inj, BitVec.toNat_and]
  change a.toNat &&& 2 ^ 2 - 1 = 0 ↔ _
  rw [Nat.and_two_pow_sub_one_eq_mod]

theorem and_one_eq_zero (a : BitVec 32) : a &&& 1 = 0 ↔ a.toNat % 2 = 0 := by
  rw [← BitVec.toNat_inj, BitVec.toNat_and]
  change a.toNat &&& 2 ^ 1 - 1 = 0 ↔ _
  rw [Nat.and_two_pow_sub_one_eq_mod]

/-- EXE finds the addresses misaligned that are no multiple of the size. -/
theorem missaligned_iff (memSize : BitVec 2) (a : BitVec 32) :
    Exe.missaligned memSize a = true ↔ a.toNat % bytes memSize ≠ 0 := by
  unfold Exe.missaligned bytes
  rw [Bool.or_eq_true, Bool.and_eq_true, Bool.and_eq_true, bne_iff_ne, bne_iff_ne, beq_iff_eq,
    beq_iff_eq, ne_eq, ne_eq, and_three_eq_zero, and_one_eq_zero]
  split_ifs with h0 h1
  · simp [h0]
  · simp [h1]
  · exact iff_of_false (fun h => h.elim (fun h => h0 h.2) (fun h => h1 h.2))
      (fun h => h (Nat.mod_one _))

end Access

end RiVerSoC
