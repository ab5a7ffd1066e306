/-
The base instructions on the small core.

* `Deviates` — the arithmetic shifts, the unsigned comparisons and the loads that the small
  core takes otherwise;
* `execute_iff` — the core does what the instruction set says exactly when none of them is there,
  or its destination is x0.
-/
import RiVerSoC.MiniSystem

namespace RiVerSoC

namespace Mini

open Decode AluInstructions

/-! ### What the small core takes otherwise -/

/-- A function that the small core computes otherwise: the shift fills with ones, and the
comparison of operands of one sign is of their conjunction. -/
def Wrong (f : BitVec 3) (alt : Bool) (a b : BitVec 32) : Prop :=
  (f = 0b101 ∧ alt = true ∧ a.msb = false ∧ b.setWidth 5 ≠ 0) ∨
    (f = 0b011 ∧ a.msb = b.msb ∧ a.ult b = true)

/-- The small core gives the destination another value. -/
def Deviates (ir : BitVec 32) (a : Arch) : Prop :=
  let x := a.registers.read ((rs1 ir).setWidth 6)
  let y := a.registers.read ((rs2 ir).setWidth 6)
  (opcode ir = 0b0110011 ∧ Wrong (funct3 ir) (funct7 ir == 0b0100000) x y) ∨
    (opcode ir = 0b0010011 ∧
      Wrong (funct3 ir) (funct3 ir == 0b101 && funct7 ir == 0b0100000) x (immI ir)) ∨
    (opcode ir = 0b0000011 ∧
      Rv32i.Misses (funct3 ir) (x + immI ir) (a.ram (wordAdr (x + immI ir))))

instance (f : BitVec 3) (alt : Bool) (a b : BitVec 32) : Decidable (Wrong f alt a b) :=
  inferInstanceAs (Decidable (_ ∨ _))

instance (ir : BitVec 32) (a : Arch) : Decidable (Deviates ir a) :=
  inferInstanceAs (Decidable (_ ∨ _))

/-! ### The ALU and the shifter -/

/-- The signals that choose what EXE computes. -/
structure Select where
  cmd : BitVec 2
  optype : BitVec 2
  neg : Bool
deriving DecidableEq, Repr

namespace Select

/-- What EXE makes of them. -/
def compute (c : Select) (a b : BitVec 32) : BitVec 32 :=
  Pipeline.selectExecRes
    { (default : Handed) with
      exeCmd := c.cmd
      optype := (c.optype.setWidth 4).setWidth 3
      negOp2 := c.neg } a b 0

/-- Those of a function. -/
def of (f : BitVec 3) (alt : Bool) : Select :=
  if f = 0b000 then ⟨0, 0, alt⟩
  else if f = 0b001 then ⟨0, 1, false⟩
  else if f = 0b010 then ⟨0, 2, true⟩
  else if f = 0b011 then ⟨1, 2, true⟩
  else if f = 0b100 then ⟨3, 0, false⟩
  else if f = 0b101 then ⟨if alt then 2 else 1, 1, false⟩
  else if f = 0b110 then ⟨2, 0, false⟩
  else ⟨1, 0, false⟩

/-- Those of DEC. -/
def decoded (d : Decoded) : Select := ⟨d.exeCmd, d.optype, d.exeNegOp2⟩

variable {ir : BitVec 32} (rdata1 rdata2 pcRi : BitVec 32)

theorem decoded_r (hop : opcode ir = 0b0110011) {alt : Bool}
    (hf : funct7 ir = if alt then 0b0100000 else 0)
    (halt : alt = true → funct3 ir = 0b000 ∨ funct3 ir = 0b101) :
    decoded (dataOperation ir rdata1 rdata2 pcRi) = of (funct3 ir) alt := by
  simp only [decoded, dataOperation, decodingInstruction, has3, has7, hop, hf]
  clear hf hop
  revert halt
  generalize funct3 ir = f
  revert f alt
  decide

theorem decoded_i (hop : opcode ir = 0b0010011)
    (hf : funct3 ir = 0b001 ∨ funct3 ir = 0b101 → funct7 ir = 0 ∨ funct7 ir = 0b0100000)
    (hsll : funct3 ir = 0b001 → funct7 ir = 0) :
    decoded (dataOperation ir rdata1 rdata2 pcRi) =
      of (funct3 ir) (funct3 ir == 0b101 && funct7 ir == 0b0100000) := by
  simp only [decoded, dataOperation, decodingInstruction, has3, has7, hop]
  clear hop
  revert hf hsll
  generalize funct3 ir = f
  generalize funct7 ir = g
  revert f g
  decide

/-- A load, `lui` and `auipc` add. -/
theorem decoded_add (hop : opcode ir = 0b0000011 ∨ opcode ir = 0b0110111 ∨ opcode ir = 0b0010111) :
    decoded (dataOperation ir rdata1 rdata2 pcRi) = of 0b000 false := by
  rcases hop with hop | hop | hop <;>
    simp [decoded, dataOperation, decodingInstruction, has3, has7, hop, of]

section Compute

variable (a b : BitVec 32)

theorem compute_add : compute (of 0b000 false) a b = a + b := BitVec.add_zero (a + b)

theorem compute_shift (cmd : BitVec 2) :
    compute ⟨cmd, 1, false⟩ a b = Shifter.dout cmd a (b.setWidth 5) :=
  Shifter.shifterOut_eq _ a b

/-- The shifter of the small core is that of the instruction set when the bits that come in
are. -/
theorem dout_eq_iff (c : RiVerSoC.Shifter.Shift) (hc : c ≠ .sll) (s : BitVec 5) :
    Shifter.dout c.cmd a s = c.result a s ↔
      ∀ i < 32, 32 ≤ s.toNat + i → (c.cmd == 2) = (c.cmd == 2 && a.msb) := by
  rw [← Shifter.agree_iff_bits a s c hc, Shifter.Agree, RiVerSoC.Shifter.dout_eq]
  exact ⟨fun h => ⟨h.symm, h⟩, fun h => h.2⟩

theorem compute_sra : compute (of 0b101 true) a b = a.sshiftRight (b.setWidth 5).toNat ↔
    ¬(a.msb = false ∧ b.setWidth 5 ≠ 0) := by
  rw [show of 0b101 true = ⟨2, 1, false⟩ from rfl, compute_shift]
  refine (dout_eq_iff a .sra (by decide) (b.setWidth 5)).trans ?_
  constructor
  · rintro h ⟨hmsb, hne⟩
    have hpos : (b.setWidth 5).toNat ≠ 0 := fun h0 => hne (BitVec.eq_of_toNat_eq h0)
    have h31 := h 31 (by decide) (by omega)
    rw [hmsb] at h31
    exact absurd h31 (by decide)
  · intro h i hi hout
    -- a bit comes in from outside for an amount of 1 or more only
    have hne : b.setWidth 5 ≠ 0 := by
      intro h0
      rw [h0, show (0 : BitVec 5).toNat = 0 from rfl] at hout
      omega
    have hmsb : a.msb = true := by
      rw [← Bool.not_eq_false]
      exact fun hmsb => h ⟨hmsb, hne⟩
    rw [hmsb, Bool.and_true]

theorem compute_compare (cmd : BitVec 2) (hcmd : cmd = 0 ∨ cmd = 1) :
    compute ⟨cmd, 2, true⟩ a b = if cmd = 0 then Exe.lessThan a b 1 0 (a - b)
      else Exe.lessThan a b 0 1 (a &&& ~~~b) := by
  have hsub : a + ~~~b + (BitVec.ofBool true).setWidth 32 = a - b := alu_sub a b
  have hcases : ∀ x y alu : BitVec 32, Exe.lessThan a b x y alu =
      if a.msb && !b.msb then x else if !a.msb && b.msb then y else if a == b then 0
      else (BitVec.ofBool alu.msb).setWidth 32 := by
    intro x y alu
    simp [Exe.lessThan]
  rw [hcases, hcases]
  rcases hcmd with rfl | rfl
  · rw [if_pos rfl, ← hsub]
    rfl
  · rfl

theorem compute_sltu : compute (of 0b011 false) a b = (if a.ult b then 1 else 0) ↔
    ¬(a.msb = b.msb ∧ a.ult b = true) := by
  rw [show of 0b011 false = ⟨1, 2, true⟩ from rfl, compute_compare a b 1 (Or.inr rfl),
    if_neg (by decide)]
  unfold Exe.lessThan
  by_cases h : a.msb = b.msb
  · -- the sign of the conjunction is 0
    have hmsb : (a &&& ~~~b).msb = false := by
      rw [BitVec.msb_and, BitVec.msb_not, h]
      cases b.msb <;> rfl
    rw [hmsb, if_neg (by rw [h]; exact and_not_self), if_neg (by rw [h]; exact not_and_self)]
    rw [show (BitVec.ofBool false).setWidth 32 = (0 : BitVec 32) from rfl, ite_self]
    cases hu : a.ult b with
    | false => simp
    | true => simp [h]
  · rw [ult_of_msb_ne a b h]
    revert h
    cases a.msb <;> cases b.msb <;> simp

/-- The functions that the small core computes as the instruction set has them. -/
theorem compute_of_iff (f : BitVec 3) (alt : Bool) :
    compute (of f alt) a b = arith f alt a b ↔ ¬ Wrong f alt a b := by
  have hf : ∀ f : BitVec 3, f = 0 ∨ f = 1 ∨ f = 2 ∨ f = 3 ∨ f = 4 ∨ f = 5 ∨ f = 6 ∨ f = 7 := by
    decide
  -- only the right shift and the unsigned comparison can be wrong
  have hright : ∀ {f : BitVec 3}, f ≠ 0b101 → f ≠ 0b011 → ¬ Wrong f alt a b := by
    rintro f h5 h3 (h | h)
    · exact h5 h.1
    · exact h3 h.1
  rcases hf f with rfl | rfl | rfl | rfl | rfl | rfl | rfl | rfl
  · refine iff_of_true ?_ (hright (by decide) (by decide))
    cases alt with
    | false => exact compute_add a b
    | true => exact alu_sub a b
  · refine iff_of_true ?_ (hright (by decide) (by decide))
    exact (compute_shift a b 0).trans (Shifter.shifterSll_eq a _)
  · refine iff_of_true ?_ (hright (by decide) (by decide))
    exact (compute_compare a b 0 (Or.inl rfl)).trans (lessThan_slt a b)
  · refine (compute_sltu a b).trans (not_congr ⟨fun h => Or.inr ⟨rfl, h⟩, ?_⟩)
    rintro (h | h)
    · exact absurd h.1 (by decide)
    · exact h.2
  · exact iff_of_true rfl (hright (by decide) (by decide))
  · cases alt with
    | false =>
      refine iff_of_true ?_ ?_
      · refine (compute_shift a b 1).trans ?_
        exact (dout_eq_iff a .srl (by decide) (b.setWidth 5)).mpr fun _ _ _ => rfl
      · rintro (h | h)
        · exact absurd h.2.1 Bool.false_ne_true
        · exact absurd h.1 (by decide)
    | true =>
      refine (compute_sra a b).trans (not_congr ⟨fun h => Or.inl ⟨rfl, rfl, h⟩, ?_⟩)
      rintro (h | h)
      · exact h.2.2
      · exact absurd h.1 (by decide)
  · exact iff_of_true rfl (hright (by decide) (by decide))
  · exact iff_of_true rfl (hright (by decide) (by decide))

end Compute

end Select

/-! ### Loads and stores -/

section Accesses

open BitRange

/-- The word in EXE2MEM, with the fields that MEM of the core reads too. -/
def Exe2Mem.toCore (w : Exe2Mem) : RiVerSoC.Exe2Mem :=
  { (default : RiVerSoC.Exe2Mem) with
    exeRes := w.exeRes
    memData := w.memData
    memSize := w.memSize
    memLoad := w.memLoad
    memStore := w.memStore
    memSignExtend := w.memSignExtend }

variable {w : Exe2Mem}

theorem loaded_eq (w : Exe2Mem) (x : BitVec 32) : Pipeline.loaded w x = loadData w.toCore x := by
  have hsizes : ∀ size : BitVec 2,
      (if size = 2 then 7 else if size = 1 then 15 else 31) = rangeSize size := by
    decide
  unfold Pipeline.loaded loadData
  dsimp only
  rw [hsizes]
  rfl

/-- A load delivers its value unless it misses its lane. -/
theorem loaded_iff {f : BitVec 3} {adr x v : BitVec 32} (hv : Rv32i.loadResult f adr x = some v)
    (hadr : w.exeRes = adr)
    (hsize : w.memSize = if f = 0b010 then 0 else if f = 0b001 ∨ f = 0b101 then 1 else 2)
    (hsign : w.memSignExtend = (f == 0b000 || f == 0b001)) :
    Pipeline.loaded w x = v ↔ ¬ Rv32i.Misses f adr x := by
  rw [loaded_eq]
  exact loadData_iff hv hadr hsize hsign

/-- A store leaves the word that the instruction set has there. -/
theorem storedWord_eq {f : BitVec 3} {adr old v word : BitVec 32}
    (hv : Rv32i.storeResult f adr old v = some word) (ram : Ram) (hold : ram (wordAdr adr) = old)
    (hadr : w.exeRes = adr) (hdata : w.memData = v) (hstore : w.memStore = true)
    (hsize : w.memSize = if f = 0b010 then 0 else if f = 0b001 then 1 else 2) :
    (ramAccess ram (memPreprocess w false)).1 = Function.update ram (wordAdr adr) word := by
  exact ramAccess_storeResult (w := w.toCore) hv ram hold hadr hdata hstore hsize true

end Accesses

/-! ### One instruction -/

section Execute

variable {a : Arch} {x : Issued} {ir : BitVec 32}

theorem exeWord_eq (a : Arch) (x : Issued) : a.exeWord x =
    { exeRes := (Select.decoded (x.decoded a.registers)).compute (x.decoded a.registers).exeOp1
        (x.decoded a.registers).exeOp2
      memData := (x.decoded a.registers).memData
      dest := (x.decoded a.registers).adrDest
      memSize := (x.decoded a.registers).memSize
      wb := (x.decoded a.registers).exeWb
      memLoad := (x.decoded a.registers).memLoad
      memStore := (x.decoded a.registers).memStore
      memSignExtend := (x.decoded a.registers).memSignExtend } := by
  have hword : x.handed a.registers = _ :=
    unconcat_concat x.delivered (packed x.delivered.instr x.offsetRead (x.decoded a.registers))
  rw [Arch.exeWord, hword]
  rfl

theorem adrDest_decoded (a : Arch) (x : Issued) :
    (x.decoded a.registers).adrDest = adrDest x.delivered.instr :=
  (Pipeline.registers_postRegReadDecoding ..).2.2.1

theorem writeBack_memWordOf {w : Exe2Mem} (g : Registers) (result : BitVec 32)
    (hdest : w.dest.toNat < 32) : writeBack g (memWordOf w result) =
      if w.wb || w.memLoad then
        g.write w.dest (if w.memLoad then Pipeline.loaded w result else w.exeRes)
      else g := by
  have hne : w.dest ≠ 32 := by
    intro h
    rw [h] at hdest
    exact absurd hdest (by decide)
  have hreg : (memWordOf w result).dest.setWidth 6 = w.dest := Pipeline.regOf_setWidth hdest
  rw [writeBack, hreg, bne_iff_ne.mpr hne, Bool.and_true]
  rfl

/-- The registers after an instruction. -/
theorem registers_execute (a : Arch) (x : Issued) : (a.execute x).registers =
    if (x.decoded a.registers).exeWb || (x.decoded a.registers).memLoad then
      a.registers.write (adrDest x.delivered.instr)
        (if (x.decoded a.registers).memLoad then
          Pipeline.loaded (a.exeWord x) (a.answer x).2 else (a.exeWord x).exeRes)
    else a.registers := by
  have hdest : (a.exeWord x).dest = adrDest x.delivered.instr := by
    rw [exeWord_eq]
    exact adrDest_decoded a x
  have hlt : (a.exeWord x).dest.toNat < 32 := by
    rw [hdest]
    exact Pipeline.adrDest_lt _
  have hw : (a.exeWord x).wb = (x.decoded a.registers).exeWb := by rw [exeWord_eq]
  have hl : (a.exeWord x).memLoad = (x.decoded a.registers).memLoad := by rw [exeWord_eq]
  rw [Arch.execute, Arch.memWord, writeBack_memWordOf _ _ hlt, hdest, hw, hl]

/-- Without a store the RAM stays, and answers a load with the word at its address. -/
theorem answer_of_not_store (hs : (x.decoded a.registers).memStore = false) :
    a.answer x = (a.ram, a.ram (wordAdr (a.exeWord x).exeRes)) := by
  have hreq : memPreprocess (a.exeWord x) false =
      { data := storeData (a.exeWord x)
        adr := (a.exeWord x).exeRes &&& 0xFFFFFFFC#32
        load := (a.exeWord x).memLoad
        store := false
        adrValid := true
        memSize := (a.exeWord x).memSize
        wb := (a.exeWord x).wb || (a.exeWord x).memLoad } := by
    rw [memPreprocess, show (a.exeWord x).memStore = false by rw [exeWord_eq]; exact hs]
    rfl
  rw [Arch.answer, hreq, ramAccess]
  dsimp only
  rw [Bool.false_and, if_neg Bool.false_ne_true, wordAdr, wordAdr, BitVec.and_assoc,
    BitVec.and_self]

/-- Without an access the result goes to the destination. -/
theorem execute_of_no_access (hs : (x.decoded a.registers).memStore = false)
    (hl : (x.decoded a.registers).memLoad = false) : a.execute x =
      ⟨if (x.decoded a.registers).exeWb then
        a.registers.write (adrDest x.delivered.instr) (a.exeWord x).exeRes
      else a.registers, a.ram⟩ := by
  have hregs := registers_execute a x
  rw [hl, Bool.or_false, if_neg Bool.false_ne_true] at hregs
  rw [← hregs]
  exact congrArg (Arch.mk _) (congrArg Prod.fst (answer_of_not_store hs))

section Formats

variable (hir : x.delivered.instr = ir)

include hir

/-- The formats R, I and U. -/
theorem decoded_data (hformat : (rTypeInst ir || iTypeInst ir || uTypeInst ir) = true) :
    x.decoded a.registers = dataOperation ir (a.registers.read (radr1 ir))
      (a.registers.read (radr2 ir)) x.delivered.pc := by
  subst hir
  exact if_pos hformat

/-- An instruction of these formats that is no load. -/
theorem execute_data (hformat : (rTypeInst ir || iTypeInst ir || uTypeInst ir) = true)
    (hload : (decodingInstruction ir).load = false) :
    a.execute x = ⟨a.registers.write (adrDest ir)
      ((Select.decoded (x.decoded a.registers)).compute (x.decoded a.registers).exeOp1
        (x.decoded a.registers).exeOp2), a.ram⟩ := by
  have hd := decoded_data (a := a) hir hformat
  have hl : (x.decoded a.registers).memLoad = false := by
    rw [hd]
    exact hload
  have hw : (x.decoded a.registers).exeWb = true := by
    rw [hd]
    rfl
  rw [execute_of_no_access (by rw [hd]; rfl) hl, hw, if_pos rfl, exeWord_eq, hir]

theorem execute_r (hop : opcode ir = 0b0110011) (alt : Bool)
    (hf : funct7 ir = if alt then 0b0100000 else 0)
    (halt : alt = true → funct3 ir = 0b000 ∨ funct3 ir = 0b101) :
    a.execute x = ⟨a.registers.write ((rd ir).setWidth 6)
      ((Select.of (funct3 ir) alt).compute (a.registers.read ((rs1 ir).setWidth 6))
        (a.registers.read ((rs2 ir).setWidth 6))), a.ram⟩ := by
  have hr : rTypeInst ir = true := by
    rw [rTypeInst, hop, hf]
    cases alt <;> rfl
  have hi : iTypeInst ir = false := by rw [iTypeInst, hop]; rfl
  have hu : uTypeInst ir = false := by rw [uTypeInst, hop]; rfl
  have hload : (decodingInstruction ir).load = false := by
    simp [decodingInstruction, Insts.load, has3, hop]
  have hformat : (rTypeInst ir || iTypeInst ir || uTypeInst ir) = true := by rw [hr]; rfl
  rw [execute_data hir hformat hload, decoded_data hir hformat, Select.decoded_r _ _ _ hop hf halt]
  simp only [dataOperation, adrDest, radr1, radr2, hr, hi, hu, Bool.true_or, if_true, if_false,
    Bool.false_eq_true]

omit hir in
/-- The opcodes with an immediate operand. -/
theorem formats_i (hop : opcode ir = 0b0010011 ∨ opcode ir = 0b0000011) :
    rTypeInst ir = false ∧ iTypeInst ir = true := by
  unfold rTypeInst iTypeInst
  rcases hop with hop | hop <;> rw [hop] <;> exact ⟨rfl, rfl⟩

theorem execute_i (hop : opcode ir = 0b0010011)
    (hf : funct3 ir = 0b001 ∨ funct3 ir = 0b101 → funct7 ir = 0 ∨ funct7 ir = 0b0100000)
    (hsll : funct3 ir = 0b001 → funct7 ir = 0) :
    a.execute x = ⟨a.registers.write ((rd ir).setWidth 6)
      ((Select.of (funct3 ir) (funct3 ir == 0b101 && funct7 ir == 0b0100000)).compute
        (a.registers.read ((rs1 ir).setWidth 6)) (immI ir)), a.ram⟩ := by
  obtain ⟨hr, hi⟩ := formats_i (Or.inl hop)
  have hload : (decodingInstruction ir).load = false := by
    simp [decodingInstruction, Insts.load, has3, hop]
  have hformat : (rTypeInst ir || iTypeInst ir || uTypeInst ir) = true := by rw [hr, hi]; rfl
  rw [execute_data hir hformat hload, decoded_data hir hformat, Select.decoded_i _ _ _ hop hf hsll]
  simp only [dataOperation, adrDest, radr1, hr, hi, Bool.or_true, Bool.true_or, if_true]

/-- `lui` adds x0, which DEC reads as its second source. -/
theorem execute_u (hx0 : a.registers.read 0 = 0)
    (hop : opcode ir = 0b0110111 ∨ opcode ir = 0b0010111) :
    a.execute x = ⟨a.registers.write ((rd ir).setWidth 6)
      (immU ir + if opcode ir = 0b0010111 then x.delivered.pc else 0), a.ram⟩ := by
  have hformats : rTypeInst ir = false ∧ iTypeInst ir = false ∧ sTypeInst ir = false ∧
      bTypeInst ir = false ∧ uTypeInst ir = true := by
    unfold rTypeInst iTypeInst sTypeInst bTypeInst uTypeInst
    rcases hop with hop | hop <;> rw [hop] <;> exact ⟨rfl, rfl, rfl, rfl, rfl⟩
  obtain ⟨hr, hi, hs, hb, hu⟩ := hformats
  have hload : (decodingInstruction ir).load = false := by
    rcases hop with hop | hop <;> simp [decodingInstruction, Insts.load, has3, hop]
  have hformat : (rTypeInst ir || iTypeInst ir || uTypeInst ir) = true := by rw [hr, hi, hu]; rfl
  have hauipc : (decodingInstruction ir).auipc = (opcode ir == 0b0010111) := rfl
  rw [execute_data hir hformat hload, decoded_data hir hformat,
    Select.decoded_add _ _ _ (Or.inr hop), Select.compute_add]
  simp only [dataOperation, adrDest, radr2, hr, hi, hs, hb, hu, hauipc, hx0, Bool.or_false,
    Bool.true_or, if_true, if_false, Bool.false_eq_true, beq_iff_eq]

/-- A jump writes the address behind it. -/
theorem execute_jump (hop : opcode ir = 0b1101111 ∨ opcode ir = 0b1100111) :
    a.execute x = ⟨a.registers.write ((rd ir).setWidth 6) x.readPc, a.ram⟩ := by
  subst hir
  have hd : x.decoded a.registers = jumpOperation x.delivered.instr
      (a.registers.read (radr1 x.delivered.instr)) (a.registers.read (radr2 x.delivered.instr))
      x.readPc x.delivered.pc := by
    unfold Issued.decoded postRegReadDecoding rTypeInst iTypeInst uTypeInst sTypeInst bTypeInst
      jalrTypeInst jTypeInst
    rcases hop with hop | hop <;> rw [hop] <;> rfl
  have hdest : adrDest x.delivered.instr = (rd x.delivered.instr).setWidth 6 := by
    unfold adrDest rTypeInst iTypeInst uTypeInst sTypeInst bTypeInst jalrTypeInst jTypeInst
    rcases hop with hop | hop <;> rw [hop] <;> rfl
  have hres : (a.exeWord x).exeRes = x.readPc := by
    rw [exeWord_eq, hd]
    exact (Select.compute_add _ _).trans (BitVec.add_zero _)
  rw [execute_of_no_access (by rw [hd]; rfl) (by rw [hd]; rfl), hres, hdest, hd]
  rfl

/-- A branch has x0 as its destination. -/
theorem execute_branch (hop : opcode ir = 0b1100011) : a.execute x = a := by
  subst hir
  have hd : x.decoded a.registers = branchOperation x.delivered.instr
      (a.registers.read (radr1 x.delivered.instr)) (a.registers.read (radr2 x.delivered.instr))
      x.delivered.pc := by
    unfold Issued.decoded postRegReadDecoding rTypeInst iTypeInst uTypeInst sTypeInst bTypeInst
    rw [hop]
    rfl
  have hdest : adrDest x.delivered.instr = 0 := by
    unfold adrDest rTypeInst iTypeInst sTypeInst bTypeInst
    rw [hop]
    rfl
  rw [execute_of_no_access (by rw [hd]; rfl) (by rw [hd]; rfl), hdest, hd]
  rfl

/-- `fence` has no effect. -/
theorem execute_fence (hop : opcode ir = 0b0001111) : a.execute x = a := by
  subst hir
  have hd : x.decoded a.registers = idle x.delivered.instr := by
    unfold Issued.decoded postRegReadDecoding rTypeInst iTypeInst uTypeInst sTypeInst bTypeInst
      jalrTypeInst jTypeInst
    rw [hop]
    rfl
  rw [execute_of_no_access (by rw [hd]; rfl) (by rw [hd]; rfl), hd]
  rfl

/-- A load writes what `sign_extend` makes of the word at its address. -/
theorem execute_load (hop : opcode ir = 0b0000011)
    (hf : funct3 ir = 0 ∨ funct3 ir = 1 ∨ funct3 ir = 2 ∨ funct3 ir = 4 ∨ funct3 ir = 5) :
    (a.exeWord x).exeRes = a.registers.read ((rs1 ir).setWidth 6) + immI ir ∧
      (a.exeWord x).memSize =
        (if funct3 ir = 0b010 then 0 else if funct3 ir = 0b001 ∨ funct3 ir = 0b101 then 1 else 2) ∧
      (a.exeWord x).memSignExtend = (funct3 ir == 0b000 || funct3 ir == 0b001) ∧
      a.execute x = ⟨a.registers.write ((rd ir).setWidth 6)
        (Pipeline.loaded (a.exeWord x) (a.ram (wordAdr (a.exeWord x).exeRes))), a.ram⟩ := by
  obtain ⟨hr, hi⟩ := formats_i (Or.inr hop)
  have hformat : (rTypeInst ir || iTypeInst ir || uTypeInst ir) = true := by rw [hr, hi]; rfl
  have hd := decoded_data (a := a) hir hformat
  have hflag : ∀ f3, has3 ir 0b0000011 f3 = (funct3 ir == f3) := by
    intro f3
    rw [has3, hop, beq_self_eq_true, Bool.true_and]
  have hload : (x.decoded a.registers).memLoad = true := by
    rw [hd]
    simp only [dataOperation, decodingInstruction, Insts.load, hflag]
    rcases hf with h | h | h | h | h <;> rw [h] <;> rfl
  refine ⟨?_, ?_, ?_, ?_⟩
  · rw [exeWord_eq, hd, Select.decoded_add _ _ _ (Or.inl hop)]
    rw [Select.compute_add]
    simp only [dataOperation, radr1, hr, hi, Bool.or_true, Bool.true_or, if_true]
  · rw [exeWord_eq, hd]
    simp only [dataOperation, decodingInstruction, hflag]
    rcases hf with h | h | h | h | h <;> rw [h] <;> rfl
  · rw [exeWord_eq, hd]
    simp only [dataOperation, decodingInstruction, hflag]
  · have hstore : (x.decoded a.registers).memStore = false := by rw [hd]; rfl
    have hdest : adrDest ir = (rd ir).setWidth 6 := by
      rw [adrDest, hr, hi]
      rfl
    have hregs := registers_execute a x
    rw [hload, Bool.or_true, if_pos rfl, if_pos rfl, hir, hdest,
      answer_of_not_store hstore] at hregs
    rw [← hregs]
    exact congrArg (Arch.mk _) (congrArg Prod.fst (answer_of_not_store hstore))

/-- A store leaves the registers, and the RAM serves its word. -/
theorem execute_store (hop : opcode ir = 0b0100011)
    (hf : funct3 ir = 0 ∨ funct3 ir = 1 ∨ funct3 ir = 2) :
    (a.exeWord x).exeRes = a.registers.read ((rs1 ir).setWidth 6) + immS ir ∧
      (a.exeWord x).memData = a.registers.read ((rs2 ir).setWidth 6) ∧
      (a.exeWord x).memStore = true ∧
      (a.exeWord x).memSize =
        (if funct3 ir = 0b010 then 0 else if funct3 ir = 0b001 then 1 else 2) ∧
      a.execute x = ⟨a.registers, (ramAccess a.ram (memPreprocess (a.exeWord x) false)).1⟩ := by
  have hformats : rTypeInst ir = false ∧ iTypeInst ir = false ∧ sTypeInst ir = true ∧
      uTypeInst ir = false := by
    unfold rTypeInst iTypeInst sTypeInst uTypeInst
    rw [hop]
    exact ⟨rfl, rfl, rfl, rfl⟩
  obtain ⟨hr, hi, hs, hu⟩ := hformats
  have hd : x.decoded a.registers = storeOperation ir (a.registers.read (radr1 ir))
      (a.registers.read (radr2 ir)) x.old := by
    subst hir
    rw [Issued.decoded, postRegReadDecoding, hr, hi, hu, hs]
    rfl
  have hflag : ∀ f3, has3 ir 0b0100011 f3 = (funct3 ir == f3) := by
    intro f3
    rw [has3, hop, beq_self_eq_true, Bool.true_and]
  refine ⟨?_, ?_, ?_, ?_, ?_⟩
  · rw [exeWord_eq, hd]
    refine (Select.compute_add _ _).trans ?_
    simp only [storeOperation, radr1, hs, Bool.or_true, Bool.true_or, if_true]
  · rw [exeWord_eq, hd]
    simp only [storeOperation, radr2, hr, hi, hs, Bool.true_or, if_true, if_false,
      Bool.false_eq_true]
  · rw [exeWord_eq, hd]
    rfl
  · rw [exeWord_eq, hd]
    simp only [storeOperation, decodingInstruction, hflag]
    rcases hf with h | h | h <;> rw [h] <;> rfl
  · have hdest : adrDest ir = 0 := by
      rw [adrDest, hr, hi, hs]
      rfl
    have hregs := registers_execute a x
    rw [hir, hdest, hd] at hregs
    exact congrArg (Arch.mk · _) hregs

end Formats

end Execute

/-! ### The instruction set -/

section InstructionSet

variable {a a' : Arch} {x : Issued} {ir : BitVec 32} (hir : x.delivered.instr = ir)

include hir

theorem execute_iff_load (hop : opcode ir = 0b0000011)
    (heffect : Rv32i.effect ir x.delivered.pc a = some a') :
    a.execute x = a' ↔ rd ir = 0 ∨ ¬ Deviates ir a := by
  rw [Rv32i.effect, if_pos hop, Option.map_eq_some_iff] at heffect
  obtain ⟨v, hv, rfl⟩ := heffect
  have hf : funct3 ir = 0 ∨ funct3 ir = 1 ∨ funct3 ir = 2 ∨ funct3 ir = 4 ∨ funct3 ir = 5 := by
    by_contra hno
    simp only [not_or] at hno
    rw [Rv32i.loadResult, if_neg hno.1, if_neg fun h => hno.2.1 h.1, if_neg fun h => hno.2.2.1 h.1,
      if_neg hno.2.2.2.1, if_neg fun h => hno.2.2.2.2 h.1] at hv
    exact absurd hv.symm (Option.some_ne_none v)
  obtain ⟨hadr, hsize, hsign, hexecute⟩ := execute_load (a := a) hir hop hf
  have hdeviates : Deviates ir a ↔ Rv32i.Misses (funct3 ir)
      (a.registers.read ((rs1 ir).setWidth 6) + immI ir)
      (a.ram (wordAdr (a.registers.read ((rs1 ir).setWidth 6) + immI ir))) := by
    simp [Deviates, hop]
  rw [hexecute, put_eq_iff, hadr, loaded_iff hv hadr hsize hsign, hdeviates]

omit hir in
/-- Only register instructions, those with an immediate, and loads deviate. -/
theorem not_deviates (hr : opcode ir ≠ 0b0110011) (hi : opcode ir ≠ 0b0010011)
    (hl : opcode ir ≠ 0b0000011) : ¬ Deviates ir a := by
  rintro (h | h | h)
  · exact hr h.1
  · exact hi h.1
  · exact hl h.1

theorem execute_of_store (hop : opcode ir = 0b0100011)
    (heffect : Rv32i.effect ir x.delivered.pc a = some a') : a.execute x = a' := by
  rw [Rv32i.effect, if_neg (by rw [hop]; decide), if_pos hop, Option.map_eq_some_iff] at heffect
  obtain ⟨word, hword, rfl⟩ := heffect
  have hf : funct3 ir = 0 ∨ funct3 ir = 1 ∨ funct3 ir = 2 := by
    by_contra hno
    simp only [not_or] at hno
    rw [Rv32i.storeResult, if_neg hno.1, if_neg fun h => hno.2.1 h.1,
      if_neg fun h => hno.2.2 h.1] at hword
    exact absurd hword.symm (Option.some_ne_none word)
  obtain ⟨hadr, hdata, hstore, hsize, hexecute⟩ := execute_store (a := a) hir hop hf
  rw [hexecute, storedWord_eq hword a.ram rfl hadr hdata hstore hsize]

theorem execute_iff_alu (hx0 : a.registers.read 0 = 0) (hload : opcode ir ≠ 0b0000011)
    {v : BitVec 32} (hv : aluResult ir x.delivered.pc (a.registers.read ((rs1 ir).setWidth 6))
      (a.registers.read ((rs2 ir).setWidth 6)) = some v) :
    a.execute x = ⟨a.registers.write ((rd ir).setWidth 6) v, a.ram⟩ ↔
      rd ir = 0 ∨ ¬ Deviates ir a := by
  have hcompute : ∀ {f : BitVec 3} {alt : Bool} {p q : BitVec 32}, v = arith f alt p q →
      a.execute x = ⟨a.registers.write ((rd ir).setWidth 6) ((Select.of f alt).compute p q),
        a.ram⟩ → (Deviates ir a ↔ Wrong f alt p q) →
      (a.execute x = ⟨a.registers.write ((rd ir).setWidth 6) v, a.ram⟩ ↔
        rd ir = 0 ∨ ¬ Deviates ir a) := by
    intro f alt p q hv hexecute hdeviates
    rw [hexecute, put_eq_iff, hv, Select.compute_of_iff, hdeviates]
  unfold aluResult at hv
  split_ifs at hv with hopr hf7 halt hopi hsll hsr hsra hlui hauipc
  · refine hcompute (Option.some.inj hv).symm
      (execute_r hir hopr false hf7 fun h => absurd h Bool.false_ne_true) ?_
    simp [Deviates, hopr, hf7]
  · refine hcompute (Option.some.inj hv).symm
      (execute_r hir hopr true halt.1 fun _ => halt.2) ?_
    simp [Deviates, hopr, halt.1]
  · have halt : (funct3 ir == 0b101 && funct7 ir == 0b0100000) = true := by
      rw [hsr.1, hsra]
      rfl
    refine hcompute (Option.some.inj hv).symm ((execute_i hir hopi (fun _ => .inr hsra)
      (fun h => absurd (h.symm.trans hsr.1) (by decide))).trans (by rw [halt])) ?_
    simp [Deviates, hopi, hsr.1, hsra]
  · have hzero : funct3 ir = 0b101 → funct7 ir = 0 := fun h5 => by
      by_contra h7
      exact hsr ⟨h5, h7⟩
    have hzero' : funct3 ir = 0b001 → funct7 ir = 0 := fun h1 => by
      by_contra h7
      exact hsll ⟨h1, h7⟩
    have halt : (funct3 ir == 0b101 && funct7 ir == 0b0100000) = false := by
      rw [Bool.and_eq_false_iff]
      by_cases h5 : funct3 ir = 0b101
      · right
        rw [hzero h5]
        rfl
      · left
        exact beq_false_of_ne h5
    refine hcompute (Option.some.inj hv).symm ((execute_i hir hopi
      (fun h => .inl (h.elim hzero' hzero)) hzero').trans (by rw [halt])) ?_
    rw [← halt]
    simp [Deviates, hopi]
  · refine iff_of_true ?_ (Or.inr (not_deviates hopr hopi hload))
    rw [execute_u hir hx0 (Or.inl hlui), if_neg (by rw [hlui]; decide), Option.some.inj hv.symm]
    exact congrArg (fun v => Arch.mk (a.registers.write _ v) a.ram) (BitVec.add_zero _)
  · refine iff_of_true ?_ (Or.inr (not_deviates hopr hopi hload))
    rw [execute_u hir hx0 (Or.inr hauipc), if_pos hauipc, BitVec.add_comm, Option.some.inj hv]

theorem execute_iff_of_not_load (hx0 : a.registers.read 0 = 0)
    (hread : x.readPc = x.delivered.pc + 4) (hload : opcode ir ≠ 0b0000011)
    (heffect : Rv32i.effect ir x.delivered.pc a = some a') :
    a.execute x = a' ↔ rd ir = 0 ∨ ¬ Deviates ir a := by
  by_cases hstore : opcode ir = 0b0100011
  · refine iff_of_true (execute_of_store hir hstore heffect) (Or.inr (not_deviates ?_ ?_ hload))
    · rw [hstore]
      decide
    · rw [hstore]
      decide
  rw [Rv32i.effect, if_neg hload, if_neg hstore] at heffect
  dsimp only at heffect
  split_ifs at heffect with hbranch hf hjump hfence
  · refine iff_of_true ?_ (Or.inr (not_deviates ?_ ?_ hload))
    · rw [execute_branch hir hbranch, Option.some.inj heffect]
    · rw [hbranch]
      decide
    · rw [hbranch]
      decide
  · have hop : opcode ir = 0b1101111 ∨ opcode ir = 0b1100111 := hjump.imp id And.left
    refine iff_of_true ?_ (Or.inr (not_deviates ?_ ?_ hload))
    · rw [execute_jump hir hop, hread, ← Option.some.inj heffect]
    · rcases hop with hop | hop <;> rw [hop] <;> decide
    · rcases hop with hop | hop <;> rw [hop] <;> decide
  · refine iff_of_true ?_ (Or.inr (not_deviates ?_ ?_ hload))
    · rw [execute_fence hir hfence.1, Option.some.inj heffect]
    · rw [hfence.1]
      decide
    · rw [hfence.1]
      decide
  · obtain ⟨v, hv, rfl⟩ := Option.map_eq_some_iff.mp heffect
    exact execute_iff_alu hir hx0 hload hv

end InstructionSet

/-- The small core does to the registers and the RAM what the instruction set says, exactly when
the instruction is none of those that it computes otherwise, or has x0 as its destination. -/
theorem execute_iff {a a' : Arch} (x : Issued) (hx0 : a.registers.read 0 = 0)
    (hread : x.readPc = x.delivered.pc + 4)
    (heffect : Rv32i.effect x.delivered.instr x.delivered.pc a = some a') :
    a.execute x = a' ↔
      rd x.delivered.instr = 0 ∨ ¬ Deviates x.delivered.instr a := by
  by_cases hload : opcode x.delivered.instr = 0b0000011
  · exact execute_iff_load rfl hload heffect
  · exact execute_iff_of_not_load rfl hx0 hread hload heffect

/-- x1 is 1 and x2 is 2. -/
def oneTwo : Arch := ⟨(Registers.write (Vector.replicate 33 0) 1 1).write 2 2, fun _ => 0⟩

/-- `sltu x3, x1, x2`. -/
def sltuIssued : Issued :=
  ⟨⟨0x0020B1B3, 0x10054, 0, 0, false, 0, 0, true⟩, 0x10058, 0, default⟩

theorem execute_sltu_ne : oneTwo.execute sltuIssued ≠ ⟨oneTwo.registers.write 3 1, oneTwo.ram⟩ := by
  intro h
  have hor := (execute_iff sltuIssued (a := oneTwo) (by decide +kernel) rfl rfl).mp h
  exact absurd hor (by decide +kernel)

end Mini

end RiVerSoC
