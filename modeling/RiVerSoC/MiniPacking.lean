/-
The prediction of an instruction on its way through the small core.

Fetch packs what the predictor answered into PB_IF2DEC, DEC packs it again with the decoded
instruction into DEC2EXE, and EXE makes the command for the predictor out of it.

* `deliver_fetched` — DEC gets what fetch packed;
* `unconcat_concat` — EXE gets what DEC packed, but for the low bit of the slot pointer, over
  which the flag of a branch is written;
* `command_of_branch` — the command of EXE in terms of the answer at fetch.
-/
import RiVerSoC.BitRange
import RiVerSoC.Decode
import RiVerSoC.PredBranchCache

namespace RiVerSoC

namespace Mini

open BitRange

/-- `PRED_BRANCH_CACHE_SIZE`. -/
def size : ℕ := 2

/-! ### IF2DEC and PB_IF2DEC -/

/-- What fetch packs about one instruction: `adr_si`, `PC_RD`, the word and the answer of the
predictor. -/
structure Fetched where
  adr : BitVec 32
  pcRd : BitVec 32
  inst : BitVec 32
  answer : Predictor.Answer
deriving DecidableEq, Repr, Inhabited

/-- The signals `*_RI` that DEC reads. -/
structure Delivered where
  instr : BitVec 32
  pc : BitVec 32
  predPnt : BitVec 2
  predCpt : BitVec 2
  predLru : Bool
  predTargetAdr : BitVec 32
  predAdr : BitVec 32
  predMiss : Bool
deriving DecidableEq, Repr, Inhabited

/-- `pb_if2dec_in_var`. -/
def pbIf2decIn (f : Fetched) : BitVec 70 :=
  let x : BitVec 70 := 0
  let x := set x 69 68 (f.answer.pnt.setWidth 70)
  let x := set x 67 66 (f.answer.cpt.setWidth 70)
  let x := setBit x 65 f.answer.lru
  let x := set x 64 33 (f.answer.targetAdr.setWidth 70)
  let x := set x 32 1 (f.pcRd.setWidth 70)
  setBit x 0 f.answer.miss

/-- `if2dec_in_var`. -/
def if2decIn (f : Fetched) : BitVec 64 :=
  let x : BitVec 64 := 0
  let x := set x 63 32 (f.inst.setWidth 64)
  set x 31 0 (f.adr.setWidth 64)

/-- What the two FIFOs show. -/
def deliver (if2dec : BitVec 64) (pbIf2dec : BitVec 70) : Delivered where
  instr := if2dec.extractLsb' 32 32
  pc := if2dec.extractLsb' 0 32
  predPnt := pbIf2dec.extractLsb' 68 2
  predCpt := pbIf2dec.extractLsb' 66 2
  predLru := pbIf2dec.getLsbD 65
  predTargetAdr := pbIf2dec.extractLsb' 33 32
  predAdr := pbIf2dec.extractLsb' 1 32
  predMiss := pbIf2dec.getLsbD 0

theorem deliver_fetched (f : Fetched) : deliver (if2decIn f) (pbIf2decIn f) =
    ⟨f.inst, f.adr, f.answer.pnt, f.answer.cpt, f.answer.lru, f.answer.targetAdr, f.pcRd,
      f.answer.miss⟩ := by
  simp (disch := decide) only [deliver, if2decIn, pbIf2decIn, extractLsb'_set,
    extractLsb'_set_of_disjoint, extractLsb'_setBit_of_disjoint, getLsbD_setBit,
    getLsbD_setBit_of_ne, getLsbD_set_of_disjoint]

/-! ### DEC2EXE -/

/-- The signals of DEC that `concat_dec2exe` packs beside those of the prediction. -/
structure Decoded where
  offsetBranch : BitVec 32
  jump : Bool
  blockBp : Bool
  radr1 : BitVec 6
  radr2 : BitVec 6
  exeCmd : BitVec 2
  exeOp1 : BitVec 32
  exeOp2 : BitVec 32
  exeNegOp2 : Bool
  exeWb : Bool
  memData : BitVec 32
  memLoad : Bool
  memStore : Bool
  memSignExtend : Bool
  memSize : BitVec 2
  optype : BitVec 2
  adrDest : BitVec 6
  slt : Bool
  sltu : Bool
deriving DecidableEq, Repr, Inhabited

/-- `b_type_inst_sd`. -/
def bTypeInst (ir : BitVec 32) : Bool := Decode.opcode ir == 0b1100011

/-- `j_type_inst_sd`. -/
def jTypeInst (ir : BitVec 32) : Bool := Decode.opcode ir == 0b1101111

/-- `jalr_type_inst_sd`. -/
def jalrTypeInst (ir : BitVec 32) : Bool := Decode.opcode ir == 0b1100111

/-- `dec2exe_in_var`. -/
def concatDec2exe (r : Delivered) (d : Decoded) : BitVec 201 :=
  let x : BitVec 201 := 0
  let x := set x 200 169 (r.pc.setWidth 201)
  let x := setBit x 168 r.predMiss
  let x := set x 167 136 ((r.pc + d.offsetBranch).setWidth 201)
  let x := set x 135 134 (r.predCpt.setWidth 201)
  let x := setBit x 133 r.predLru
  let x := set x 132 131 (r.predPnt.setWidth 201)
  let x := setBit x 131 (bTypeInst r.instr)
  let x := setBit x 130 d.jump
  let x := setBit x 129 d.blockBp
  let x := set x 128 123 (d.radr1.setWidth 201)
  let x := set x 122 117 (d.radr2.setWidth 201)
  let x := set x 116 115 (d.exeCmd.setWidth 201)
  let x := set x 114 83 (d.exeOp1.setWidth 201)
  let x := set x 82 51 (d.exeOp2.setWidth 201)
  let x := setBit x 50 d.exeNegOp2
  let x := setBit x 49 d.exeWb
  let x := set x 48 17 (d.memData.setWidth 201)
  let x := setBit x 16 d.memLoad
  let x := setBit x 15 d.memStore
  let x := setBit x 14 d.memSignExtend
  let x := set x 13 12 (d.memSize.setWidth 201)
  let x := set x 11 8 ((d.optype.setWidth 4).setWidth 201)
  let x := set x 7 2 (d.adrDest.setWidth 201)
  let x := setBit x 1 d.slt
  setBit x 0 d.sltu

/-- The signals `*_RD` that EXE reads. -/
structure Handed where
  predAdr : BitVec 32
  predMiss : Bool
  predTargetAdr : BitVec 32
  predCpt : BitVec 2
  predLru : Bool
  predPnt : BitVec 2
  isBranch : Bool
  branchTaken : Bool
  blockBp : Bool
  bpRadr1 : BitVec 6
  bpRadr2 : BitVec 6
  exeCmd : BitVec 2
  op1 : BitVec 32
  op2 : BitVec 32
  negOp2 : Bool
  wb : Bool
  memData : BitVec 32
  memLoad : Bool
  memStore : Bool
  memSignExtend : Bool
  memSize : BitVec 2
  optype : BitVec 3
  exeDest : BitVec 6
deriving DecidableEq, Repr, Inhabited

def unconcatDec2exe (x : BitVec 201) : Handed where
  predAdr := x.extractLsb' 169 32
  predMiss := x.getLsbD 168
  predTargetAdr := x.extractLsb' 136 32
  predCpt := x.extractLsb' 134 2
  predLru := x.getLsbD 133
  predPnt := x.extractLsb' 131 2
  isBranch := x.getLsbD 131
  branchTaken := x.getLsbD 130
  blockBp := x.getLsbD 129
  bpRadr1 := x.extractLsb' 123 6
  bpRadr2 := x.extractLsb' 117 6
  exeCmd := x.extractLsb' 115 2
  op1 := x.extractLsb' 83 32
  op2 := x.extractLsb' 51 32
  negOp2 := x.getLsbD 50
  wb := x.getLsbD 49
  memData := x.extractLsb' 17 32
  memLoad := x.getLsbD 16
  memStore := x.getLsbD 15
  memSignExtend := x.getLsbD 14
  memSize := x.extractLsb' 12 2
  optype := (x.extractLsb' 8 4).setWidth 3
  exeDest := x.extractLsb' 2 6

/-- What DEC2EXE carries; `isBranch` has the place of the low bit of the pointer. -/
theorem unconcat_concat (r : Delivered) (d : Decoded) : unconcatDec2exe (concatDec2exe r d) =
    { predAdr := r.pc
      predMiss := r.predMiss
      predTargetAdr := r.pc + d.offsetBranch
      predCpt := r.predCpt
      predLru := r.predLru
      predPnt := setBit r.predPnt 0 (bTypeInst r.instr)
      isBranch := bTypeInst r.instr
      branchTaken := d.jump
      blockBp := d.blockBp
      bpRadr1 := d.radr1
      bpRadr2 := d.radr2
      exeCmd := d.exeCmd
      op1 := d.exeOp1
      op2 := d.exeOp2
      negOp2 := d.exeNegOp2
      wb := d.exeWb
      memData := d.memData
      memLoad := d.memLoad
      memStore := d.memStore
      memSignExtend := d.memSignExtend
      memSize := d.memSize
      optype := (d.optype.setWidth 4).setWidth 3
      exeDest := d.adrDest } := by
  simp (disch := decide) only [unconcatDec2exe, concatDec2exe, extractLsb'_set,
    extractLsb'_set_of_disjoint, extractLsb'_setBit_of_disjoint, extractLsb'_setBit,
    getLsbD_setBit, getLsbD_setBit_of_ne, getLsbD_set_of_disjoint]

/-! ### The command of EXE -/

/-- `cmd`. -/
def predBranchCmd (h : Handed) : BitVec 2 :=
  if h.predMiss && h.isBranch then 1
  else if h.predMiss && !h.isBranch then 0
  else if !h.predMiss && h.isBranch then 2
  else 0

/-- `counter`. -/
def counter (cpt : BitVec 2) (taken : Bool) : BitVec 2 :=
  if cpt != 0 && !taken then cpt - 1 else if cpt != 3 && taken then cpt + 1 else cpt

/-- `pred_branch_signals`; without a command the other outputs keep their values. -/
def predBranchSignals (h : Handed) (old : Predictor.Command) : Predictor.Command :=
  let cmd := predBranchCmd h
  if h.branchTaken && cmd == 1 then
    ⟨cmd, h.predAdr, h.predTargetAdr, 2, h.predLru, h.predPnt⟩
  else if !h.branchTaken && cmd == 1 then
    ⟨cmd, h.predAdr, h.predTargetAdr, 1, h.predLru, h.predPnt⟩
  else if cmd == 2 then ⟨cmd, 0, 0, counter h.predCpt h.branchTaken, h.predLru, h.predPnt⟩
  else { old with cmd := cmd }

/-- The command for an instruction, from its fetch on. -/
def command (f : Fetched) (d : Decoded) (old : Predictor.Command) : Predictor.Command :=
  predBranchSignals (unconcatDec2exe (concatDec2exe (deliver (if2decIn f) (pbIf2decIn f)) d)) old

theorem command_of_branch {f : Fetched} (hb : bTypeInst f.inst = true) (d : Decoded)
    (old : Predictor.Command) : command f d old =
      if f.answer.miss then
        ⟨1, f.adr, f.adr + d.offsetBranch, if d.jump then 2 else 1, f.answer.lru,
          setBit f.answer.pnt 0 true⟩
      else ⟨2, 0, 0, counter f.answer.cpt d.jump, f.answer.lru, setBit f.answer.pnt 0 true⟩ := by
  rw [command, deliver_fetched, unconcat_concat, predBranchSignals, predBranchCmd]
  dsimp only
  rw [hb]
  cases f.answer.miss <;> cases d.jump <;> rfl

theorem command_of_not_branch {f : Fetched} (hb : bTypeInst f.inst = false) (d : Decoded)
    (old : Predictor.Command) : command f d old = { old with cmd := 0 } := by
  rw [command, deliver_fetched, unconcat_concat, predBranchSignals, predBranchCmd]
  dsimp only
  rw [hb]
  cases f.answer.miss <;> cases d.jump <;> rfl

theorem cmd_command (f : Fetched) (d : Decoded) (old : Predictor.Command) :
    (command f d old).cmd = if bTypeInst f.inst then if f.answer.miss then 1 else 2 else 0 := by
  cases hb : bTypeInst f.inst with
  | false =>
    rw [command_of_not_branch hb]
    rfl
  | true =>
    rw [command_of_branch hb]
    cases f.answer.miss <;> rfl

theorem pnt_command {f : Fetched} (hb : bTypeInst f.inst = true) (d : Decoded)
    (old : Predictor.Command) : (command f d old).pnt = setBit f.answer.pnt 0 true := by
  rw [command_of_branch hb]
  cases f.answer.miss <;> rfl

/-- The saturating update of a counter of two bits. -/
def saturating (cpt : BitVec 2) (taken : Bool) : BitVec 2 :=
  BitVec.ofNat 2 (if taken then min 3 (cpt.toNat + 1) else cpt.toNat - 1)

theorem counter_eq (cpt : BitVec 2) (taken : Bool) : counter cpt taken = saturating cpt taken := by
  revert cpt taken
  decide

/-- The command writes or updates, after the miss flag, just for a branch. -/
def CommandFits (f : Fetched) (w : Predictor.Command) : Prop :=
  w.cmd = if bTypeInst f.inst then if f.answer.miss then 1 else 2 else 0

/-- The command of a branch hands back all of the answer at fetch. -/
def Survives (f : Fetched) (d : Decoded) (old : Predictor.Command) : Prop :=
  let w := command f d old
  CommandFits f w ∧ (bTypeInst f.inst = true → w.pnt = f.answer.pnt ∧ w.lru = f.answer.lru ∧
    w.writeAdr = f.adr ∧ w.cpt = saturating f.answer.cpt d.jump)

/-- A write hands back the address and a first counter, an update the counter alone. -/
theorem hands_back (f : Fetched) (d : Decoded) (old : Predictor.Command) :
    CommandFits f (command f d old) ∧ (bTypeInst f.inst = true →
      (command f d old).lru = f.answer.lru ∧
      if f.answer.miss then
        (command f d old).writeAdr = f.adr ∧
          (command f d old).targetAdr = f.adr + d.offsetBranch ∧
          (command f d old).cpt = if d.jump then 2 else 1
      else (command f d old).cpt = saturating f.answer.cpt d.jump) := by
  refine ⟨cmd_command f d old, fun hb => ?_⟩
  rw [command_of_branch hb]
  cases f.answer.miss with
  | true => exact ⟨rfl, rfl, rfl, rfl⟩
  | false => exact ⟨rfl, counter_eq _ _⟩

/-- What DEC makes of a conditional branch on x0. -/
def branchOnX0 (offset : BitVec 32) (taken : Bool) : Decoded :=
  { (default : Decoded) with offsetBranch := offset, jump := taken, exeWb := true }

/-- An update does not hand back the address of its branch. -/
theorem not_survives_update :
    ¬ Survives ⟨0x10054, 0x10054, 0x00000063, ⟨false, 0x10054, false, 2, 0⟩⟩ (branchOnX0 0 true)
      default := by
  intro h
  have hadr := (h.2 rfl).2.2.1
  rw [command_of_branch rfl] at hadr
  exact absurd hadr (by decide)

end Mini

end RiVerSoC
