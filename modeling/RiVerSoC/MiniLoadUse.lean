/-
The load-use interlock of the core without its own pipeline for the predictions.

Its stages are those of the small core but for two things: DEC2EXE carries no prediction, and DEC
waits for an operand only in a branch or a jump; the stray `&&` in `stall_method` is read as
absent.  Any other instruction takes its operands in EXE, where one flag, `invalid_operand_se`,
is written for the first source and then again for the second.

* `NeverEarly` — EXE sends no instruction on that has a source to get from a load in MEM;
* `Waits` — no instruction in EXE has such a first source, and not such a second one, in a cycle
  in which the load leaves MEM;
* `each_never_early_iff` — the first holds along a run exactly when the second does.
-/
import RiVerSoC.MiniInterlock

namespace RiVerSoC

namespace Mini

namespace LoadUse

open BitRange

/-! ### The machine -/

/-- `dec2exe_in_var`, whose bits from 130 on are not assigned. -/
def concatDec2exe (d : Decoded) : BitVec 201 :=
  let x : BitVec 201 := 0
  let x := setBit x 129 d.blockBp
  let x := set x 128 123 (d.radr1.setWidth 201)
  let x := set x 122 117 (d.radr2.setWidth 201)
  let x := set x 116 115 (d.exeCmd.setWidth 201)
  let x := set x 114 83 (d.exeOp1.setWidth 201)
  let x := set x 82 51 (d.exeOp2.setWidth 201)
  let x := setBit x 50 d.exeNegOp2
  let x := setBit x 49 d.exeWb
  let x := set x 48 17 (d.memData.setWidth 201)
  let x := setBit x 16 d.memLoad
  let x := setBit x 15 d.memStore
  let x := setBit x 14 d.memSignExtend
  let x := set x 13 12 (d.memSize.setWidth 201)
  let x := set x 11 8 ((d.optype.setWidth 4).setWidth 201)
  let x := set x 7 2 (d.adrDest.setWidth 201)
  let x := setBit x 1 d.slt
  setBit x 0 d.sltu

variable (s : Pipeline) (i : Cycle)

/-- An instruction that needs its operands in DEC. -/
def resolvesInDec : Bool :=
  bTypeInst i.delivered.instr || jalrTypeInst i.delivered.instr || jTypeInst i.delivered.instr

/-- `stall_sd`. -/
def stallSd : Bool :=
  s.invalidOperandSd i && resolvesInDec i || s.blockInDecSd i || i.if2decEmpty ||
    s.dec2exe.isFull (s.exePush i)

/-- What DEC2EXE shows of the word that DEC packs. -/
def decWord : Handed := unconcatDec2exe (concatDec2exe (s.decodedSd i))

/-- A clock edge: the other registers are those of the small core. -/
def step : Pipeline :=
  { s.step i with dec2exe := s.dec2exe.clock (!stallSd s i) (s.exePush i) (decWord s i) }

/-! ### The interlock -/

/-- The youngest instruction behind EXE that writes the register is a load in MEM. -/
def LoadPending (r : BitVec 6) : Prop := r ≠ 0 ∧ s.loadInMem r = true

/-- An instruction that EXE sends to MEM has no source to get from a load in MEM. -/
def NeverEarly : Prop :=
  s.exePush i = true → ¬ LoadPending s s.rd.bpRadr1 ∧ ¬ LoadPending s s.rd.bpRadr2

/-- An instruction in EXE whose first source alone comes from a load in MEM finds the data memory
stalled. -/
def Waits : Prop :=
  s.dec2exe.v = true → s.rd.blockBp = false → LoadPending s s.rd.bpRadr1 →
    LoadPending s s.rd.bpRadr2 ∨ i.mcacheStall = true

instance (r : BitVec 6) : Decidable (LoadPending s r) := inferInstanceAs (Decidable (_ ∧ _))

instance : Decidable (NeverEarly s i) := inferInstanceAs (Decidable (_ → _))

instance : Decidable (Waits s i) := inferInstanceAs (Decidable (_ → _))

/-- A `jalr` in EXE has had its source in DEC. -/
structure Inv : Prop where
  rs1 : s.dec2exe.v = true → s.rd.blockBp = true → ¬ LoadPending s s.rd.bpRadr1
  rs2 : s.dec2exe.v = true → s.rd.blockBp = true → s.rd.bpRadr2 = 0

variable {s i}

theorem inv_reset : Inv Pipeline.reset where
  rs1 h := absurd h Bool.false_ne_true
  rs2 h := absurd h Bool.false_ne_true

/-! ### One cycle -/

theorem loadPending_iff {r : BitVec 6} : LoadPending s r ↔
    r ≠ 0 ∧ (r = s.exe2mem.dout.dest ∧ s.exe2mem.v = true) ∧ s.exe2mem.dout.memLoad = true := by
  rw [LoadPending, Pipeline.loadInMem_eq, Bool.and_eq_true, Pipeline.inMem_iff]

theorem v_of_loadPending {r : BitVec 6} (h : LoadPending s r) : s.exe2mem.v = true :=
  (loadPending_iff.mp h).2.1.2

theorem exe2mem_step : (step s i).exe2mem = (s.step i).exe2mem := rfl

/-- WBK takes every instruction at once, so that only the data memory holds up MEM. -/
theorem memPush_iff (hv : s.exe2mem.v = true) : s.memPush i = true ↔ i.mcacheStall = false := by
  have hfull : s.mem2wbk.isFull s.wbkPop = false := by
    rw [Pipeline.wbkPop, Fifo.isFull, Fifo.isEmpty]
    cases s.mem2wbk.v <;> rfl
  rw [Pipeline.memPush, hfull, Fifo.isEmpty, hv]
  cases i.mcacheStall <;> decide

/-- The flag is that of the second source. -/
theorem invalid_iff : s.exeBypasses.invalid = true ↔
    s.rd.blockBp = false ∧ LoadPending s s.rd.bpRadr2 := by
  change s.exeRs2.1 = true ↔ _
  unfold Pipeline.exeRs2
  by_cases hskip : (s.rd.bpRadr2 == 0 || s.rd.blockBp) = true
  · rw [if_pos hskip]
    refine iff_of_false Bool.false_ne_true ?_
    rintro ⟨hbp, hne, -⟩
    rw [hbp, Bool.or_false, beq_iff_eq] at hskip
    exact hne hskip
  · rw [if_neg hskip]
    simp only [Bool.or_eq_true, beq_iff_eq, not_or, Bool.not_eq_true] at hskip
    by_cases hload : s.loadInMem s.rd.bpRadr2 = true
    · rw [if_pos hload]
      exact iff_of_true rfl ⟨hskip.2, hskip.1, hload⟩
    · rw [if_neg hload]
      have hflag : (if s.inMem s.rd.bpRadr2 then (false, s.withSource s.re.exeRes)
          else if s.inWbk s.rd.bpRadr2 then (false, s.withSource s.rm.memRes)
          else (false, s.rd.op2, s.rd.memData)).1 = false := by
        split_ifs <;> rfl
      rw [hflag]
      exact iff_of_false Bool.false_ne_true (fun hc => hload hc.2.2)

/-- EXE sends its instruction on when there is room and the second source does not wait. -/
theorem exePush_iff : s.exePush i = true ↔
    s.dec2exe.v = true ∧ (s.exe2mem.v = true → s.memPush i = true) ∧
      ¬(s.rd.blockBp = false ∧ LoadPending s s.rd.bpRadr2) := by
  rw [← invalid_iff, Pipeline.exePush, Fifo.isFull, Fifo.isEmpty]
  cases s.dec2exe.v <;> cases s.exe2mem.v <;> cases s.memPush i <;>
    cases s.exeBypasses.invalid <;> decide

theorem neverEarly_iff (h : Inv s) : NeverEarly s i ↔ Waits s i := by
  constructor
  · intro hnever hv hbp hload
    by_contra hc
    obtain ⟨hsecond, hstall⟩ := not_or.mp hc
    have hpush : s.exePush i = true :=
      exePush_iff.mpr ⟨hv, fun hm => (memPush_iff hm).mpr (by simpa using hstall),
        fun hflag => hsecond hflag.2⟩
    exact (hnever hpush).1 hload
  · intro hwaits hpush
    obtain ⟨hv, hroom, hflag⟩ := exePush_iff.mp hpush
    have hsecond : ¬ LoadPending s s.rd.bpRadr2 := by
      intro hload
      cases hbp : s.rd.blockBp with
      | true => exact hload.1 (h.rs2 hv hbp)
      | false => exact hflag ⟨hbp, hload⟩
    refine ⟨?_, hsecond⟩
    intro hload
    cases hbp : s.rd.blockBp with
    | true => exact h.rs1 hv hbp hload
    | false =>
      -- the load leaves MEM in this cycle, or else there is no room
      have hm := v_of_loadPending hload
      have hanswer := (memPush_iff hm).mp (hroom hm)
      rcases hwaits hv hbp hload with hboth | hstall
      · exact hsecond hboth
      · rw [hanswer] at hstall
        exact Bool.false_ne_true hstall

/-! ### Runs -/

/-- A register gets a pending load from EXE only. -/
theorem not_loadPending_step {r : BitVec 6} (h : ¬ LoadPending s r)
    (hexe : s.exePush i = true → s.rd.exeDest ≠ r) : ¬ LoadPending (step s i) r := by
  intro hload
  rw [loadPending_iff, exe2mem_step] at hload
  obtain ⟨hr, ⟨hdest, hv⟩, hmem⟩ := hload
  cases hpush : s.exePush i with
  | true =>
    rw [Pipeline.exe2mem_of_exePush hpush] at hdest
    exact hexe hpush hdest.symm
  | false =>
    obtain ⟨hre, hkeep⟩ := Pipeline.exe2mem_of_not_exePush hpush
    rw [Pipeline.re, Pipeline.re] at hre
    rw [hre] at hdest hmem
    rw [hkeep, Bool.and_eq_true] at hv
    exact h (loadPending_iff.mpr ⟨hr, ⟨hdest, hv.1⟩, hmem⟩)

/-- The word in DEC2EXE has just left DEC, or it stays. -/
theorem dec2exe_step (hv : (step s i).dec2exe.v = true) :
    (stallSd s i = false ∧ (step s i).rd = decWord s i) ∨
      (s.exePush i = false ∧ s.dec2exe.v = true ∧ (step s i).rd = s.rd) := by
  have hroom : (!stallSd s i) = true → s.dec2exe.isFull (s.exePush i) = false := by
    rw [Bool.not_eq_true', stallSd, Bool.or_eq_false_iff]
    exact fun hp => hp.2
  rcases s.dec2exe.clock_cases (!stallSd s i) (s.exePush i) (decWord s i) hroom with
    ⟨hp, hstep⟩ | ⟨hpop, hold, hstep⟩ | hempty
  · exact Or.inl ⟨by simpa using hp, congrArg Fifo.dout hstep⟩
  · exact Or.inr ⟨hpop, hold, congrArg Fifo.dout hstep⟩
  · exact absurd (hempty.symm.trans hv) Bool.false_ne_true

theorem unconcat_concat (d : Decoded) :
    (unconcatDec2exe (concatDec2exe d)).blockBp = d.blockBp ∧
      (unconcatDec2exe (concatDec2exe d)).bpRadr1 = d.radr1 ∧
      (unconcatDec2exe (concatDec2exe d)).bpRadr2 = d.radr2 := by
  refine ⟨?_, ?_, ?_⟩ <;>
    simp (disch := decide) only [unconcatDec2exe, concatDec2exe, extractLsb'_set,
      extractLsb'_set_of_disjoint, extractLsb'_setBit_of_disjoint, getLsbD_setBit,
      getLsbD_setBit_of_ne, getLsbD_set_of_disjoint]

theorem decWord_registers : (decWord s i).blockBp = jalrTypeInst i.delivered.instr ∧
    (decWord s i).bpRadr1 = radr1 i.delivered.instr ∧
    (decWord s i).bpRadr2 = radr2 i.delivered.instr := by
  obtain ⟨hbp, hrs1, hrs2⟩ := unconcat_concat (s.decodedSd i)
  obtain ⟨hradr1, hradr2, -, hjalr⟩ := Pipeline.registers_postRegReadDecoding i.delivered.instr
    (s.rdata1Sd i) (s.rdata2Sd i) i.readPc i.delivered.pc s.decoded
  exact ⟨hbp.trans hjalr, hrs1.trans hradr1, hrs2.trans hradr2⟩

theorem radr2_of_jalr {ir : BitVec 32} (h : jalrTypeInst ir = true) : radr2 ir = 0 := by
  obtain ⟨f, hr, hi, hs, hb, -, -, hjalr⟩ := Pipeline.formats ir
  rw [hjalr, beq_iff_eq] at h
  subst h
  rw [radr2, hr, hi, hs, hb]
  rfl

theorem inv_step (h : Inv s) : Inv (step s i) := by
  constructor
  case rs1 =>
    intro hv hbp
    rcases dec2exe_step hv with ⟨hstall, hrd⟩ | ⟨hpop, hold, hrd⟩ <;> rw [hrd] at hbp ⊢
    · obtain ⟨hjalr, hradr1, -⟩ := decWord_registers (s := s) (i := i)
      rw [hradr1]
      rw [hjalr] at hbp
      by_cases hr : radr1 i.delivered.instr = 0
      · exact fun hload => hload.1 hr
      -- DEC has waited for the source
      rw [stallSd, Bool.or_eq_false_iff, Bool.or_eq_false_iff, Bool.or_eq_false_iff,
        resolvesInDec, hbp, Bool.or_true, Bool.true_or, Bool.and_true, Pipeline.invalidOperandSd,
        Bool.or_eq_false_iff] at hstall
      obtain ⟨hexe, hready⟩ := Pipeline.ready_of_decSource hr hstall.1.1.1.1
      refine not_loadPending_step (fun hload => ?_) (fun hpush hdest => ?_)
      · exact Bool.false_ne_true (hready.1.symm.trans hload.2)
      · exact hexe ⟨hdest.symm, (Pipeline.of_exePush hpush).2.1⟩
    · exact not_loadPending_step (h.rs1 hold hbp) fun hpush =>
        absurd (hpop.symm.trans hpush) Bool.false_ne_true
  case rs2 =>
    intro hv hbp
    rcases dec2exe_step hv with ⟨-, hrd⟩ | ⟨-, hold, hrd⟩ <;> rw [hrd] at hbp ⊢
    · obtain ⟨hjalr, -, hradr2⟩ := decWord_registers (s := s) (i := i)
      rw [hradr2]
      rw [hjalr] at hbp
      exact radr2_of_jalr hbp
    · exact h.rs2 hold hbp

/-- In a run EXE never goes ahead of a load in MEM exactly when every instruction whose first
source alone is being loaded finds the data memory stalled. -/
theorem each_never_early_iff (is : List Cycle) :
    Run.Each NeverEarly step Pipeline.reset is ↔ Run.Each Waits step Pipeline.reset is :=
  Run.each_iff_each Inv (fun _ _ h => neverEarly_iff h) (fun _ _ h _ => inv_step h) inv_reset

/-- One cycle with an instruction in IF2DEC. -/
def fetched (ir : BitVec 32) (mcacheStall : Bool) : Cycle :=
  { (default : Cycle) with
    delivered := { (default : Delivered) with instr := ir }
    bypassesRun := true
    mcacheStall := mcacheStall }

/-- `lw x1, 0(x0)` and `addi x2, x1, 1`: the data memory stalls for one cycle, in which the second
instruction reaches EXE. -/
theorem not_each_never_early_addi :
    ¬ Run.Each NeverEarly step Pipeline.reset
      [fetched 0x00002083 false, fetched 0x00108113 false, fetched 0x00108113 true,
        { (default : Cycle) with if2decEmpty := true }] := by
  decide +kernel

end LoadUse

end Mini

end RiVerSoC
