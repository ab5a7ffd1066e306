/-
The operand interlock of the small core.

DEC lets an instruction go only when no source is still to be computed in EXE or to be loaded
in MEM.  From then on the values of its sources are known, and the bypasses of EXE find them
again wherever their producers have got to.

* `olderInDec`, `olderInExe` — what the youngest older writer of a register writes back;
* `Inv` — the operands in DEC2EXE are known values, and no load in MEM writes their registers;
* `each_interlocked` — along every run the operands in DEC and in EXE are those values.
-/
import RiVerSoC.InFlight
import RiVerSoC.MiniPipeline
import RiVerSoC.Run

namespace RiVerSoC

namespace Mini

namespace Pipeline

variable (s : Pipeline) (i : Cycle)

/-! ### What is written back -/

/-- An instruction under way that writes a register: the register, and the value that it writes
back as far as the cycle determines it. -/
abbrev Writer : Type := BitVec 6 × Option (BitVec 32)

/-- The instruction in EXE, when it leaves; a load gets its value in MEM. -/
def writerInExe : List Writer :=
  if !s.dec2exe.isEmpty && (s.rd.wb || s.rd.memLoad) then
    [(s.rd.exeDest, if s.rd.memLoad then none else some s.exeResSe)]
  else []

/-- The instruction in MEM; a load has its value in the cycle in which it leaves. -/
def writerInMem : List Writer :=
  if !s.exe2mem.isEmpty && (s.memWord i).wb then
    [((s.memWord i).dest.setWidth 6,
      if s.re.memLoad && !s.memPush i then none else some (s.memWord i).memRes)]
  else []

def writerInWbk : List Writer := if s.wenable then [(s.destRm, some s.rm.memRes)] else []

/-- The value of the youngest of some writers, the youngest first, or the register. -/
def youngest (l : List Writer) (r : BitVec 6) : Option (BitVec 32) :=
  match l.find? fun w => w.1 == r with
  | some w => w.2
  | none => some (s.registers.read r)

/-- What the youngest instruction behind EXE writes back to the register. -/
def olderInExe (r : BitVec 6) : Option (BitVec 32) :=
  s.youngest (s.writerInMem i ++ s.writerInWbk) r

/-- What the youngest instruction behind DEC writes back to the register. -/
def olderInDec (r : BitVec 6) : Option (BitVec 32) :=
  s.youngest (s.writerInExe ++ s.writerInMem i ++ s.writerInWbk) r

/-- The operands of an instruction that EXE pushes. -/
def ExactInExe : Prop :=
  s.exePush i = true →
    (s.rd.bpRadr1 ≠ 0 → s.rd.blockBp = false →
      s.olderInExe i s.rd.bpRadr1 = some s.exeBypasses.op1) ∧
    (s.rd.bpRadr2 ≠ 0 → s.rd.blockBp = false →
      s.olderInExe i s.rd.bpRadr2 =
        some (if s.rd.memStore then s.exeBypasses.memData else s.exeBypasses.op2))

/-- The operands of an instruction that does not wait in DEC. -/
def ExactInDec : Prop :=
  s.stallSd i = false →
    (radr1 i.delivered.instr ≠ 0 →
      s.olderInDec i (radr1 i.delivered.instr) = some (s.rdata1Sd i)) ∧
    (radr2 i.delivered.instr ≠ 0 →
      s.olderInDec i (radr2 i.delivered.instr) = some (s.rdata2Sd i))

/-! ### What an instruction gets from DEC -/

section Decoding

variable (ir rdata1 rdata2 readPc pcRi : BitVec 32) (old : Decoded)

/-- The flags of the formats, which exclude each other. -/
theorem formats : ∃ f : Decode.Format,
    rTypeInst ir = (f == .r) ∧ iTypeInst ir = (f == .i) ∧ sTypeInst ir = (f == .s) ∧
      bTypeInst ir = (f == .b) ∧ uTypeInst ir = (f == .u) ∧ jTypeInst ir = (f == .j) ∧
      jalrTypeInst ir = (f == .jalr) := by
  obtain ⟨f, hf⟩ := Decode.exists_format ir
  have hflags : ∀ {P : Decode.Types → Bool}, P (Decode.decodingInstructionType ir) = P f.types :=
    fun {P} => congrArg P hf
  refine ⟨f, ?_, ?_, ?_, ?_, ?_, ?_, ?_⟩
  · exact (hflags (P := Decode.Types.r)).trans (by cases f <;> rfl)
  · exact (hflags (P := Decode.Types.i)).trans (by cases f <;> rfl)
  · exact (hflags (P := Decode.Types.s)).trans (by cases f <;> rfl)
  · exact (hflags (P := Decode.Types.b)).trans (by cases f <;> rfl)
  · exact (hflags (P := Decode.Types.u)).trans (by cases f <;> rfl)
  · exact (hflags (P := Decode.Types.j)).trans (by cases f <;> rfl)
  · exact (hflags (P := Decode.Types.jalr)).trans (by cases f <;> rfl)

/-- What the later stages take from the decoded instruction. -/
structure Decodes (d : Decoded) : Prop where
  op1 : d.radr1 ≠ 0 → d.blockBp = false → d.exeOp1 = rdata1
  op2 : d.radr2 ≠ 0 → (if d.memStore then d.memData else d.exeOp2) = rdata2
  wb : d.adrDest ≠ 0 → d.exeWb = true
  dest : d.adrDest.toNat < 32

theorem adrDest_lt : (adrDest ir).toNat < 32 := by
  have hrd : ((Decode.rd ir).setWidth 6).toNat < 32 := by
    rw [BitVec.toNat_setWidth]
    have := (Decode.rd ir).isLt
    omega
  unfold adrDest
  split_ifs
  · exact hrd
  · decide
  · exact hrd
  · decide

theorem registers_postRegReadDecoding :
    (postRegReadDecoding ir rdata1 rdata2 readPc pcRi old).radr1 = radr1 ir ∧
      (postRegReadDecoding ir rdata1 rdata2 readPc pcRi old).radr2 = radr2 ir ∧
      (postRegReadDecoding ir rdata1 rdata2 readPc pcRi old).adrDest = adrDest ir ∧
      (postRegReadDecoding ir rdata1 rdata2 readPc pcRi old).blockBp = jalrTypeInst ir := by
  unfold postRegReadDecoding
  split_ifs <;> exact ⟨rfl, rfl, rfl, rfl⟩

theorem decodes_postRegReadDecoding :
    Decodes rdata1 rdata2 (postRegReadDecoding ir rdata1 rdata2 readPc pcRi old) := by
  obtain ⟨h1, h2, h3, h4⟩ := registers_postRegReadDecoding ir rdata1 rdata2 readPc pcRi old
  obtain ⟨f, hr, hi, hs, hb, hu, hj, hjalr⟩ := formats ir
  refine ⟨?_, ?_, ?_, h3 ▸ adrDest_lt ir⟩
  · rw [h1, h4]
    cases f <;> simp [postRegReadDecoding, dataOperation, storeOperation, branchOperation,
      jumpOperation, radr1, hr, hi, hs, hb, hu, hj, hjalr]
  · rw [h2]
    cases f <;> simp [postRegReadDecoding, dataOperation, storeOperation, branchOperation,
      idle, radr2, hr, hi, hs, hb, hu]
  · rw [h3]
    cases f <;> simp [postRegReadDecoding, dataOperation, storeOperation, branchOperation,
      jumpOperation, adrDest, hr, hi, hs, hb, hu, hj, hjalr]

end Decoding

/-! ### Known values -/

/-- The register after the instruction in WBK. -/
def committed (r : BitVec 6) : BitVec 32 := if s.inWbk r then s.rm.memRes else s.registers.read r

/-- The register after the instructions in MEM and in WBK, unless a load in MEM writes it. -/
def known (r : BitVec 6) : BitVec 32 := if s.inMem r then s.re.exeRes else s.committed r

/-- The value of the register is known, and is `v`. -/
def Ready (r : BitVec 6) (v : BitVec 32) : Prop := s.loadInMem r = false ∧ s.known r = v

/-- The operands in DEC2EXE are known values, and whatever has a destination writes it. -/
structure Inv : Prop where
  wbExe : s.dec2exe.v = true → s.rd.exeDest ≠ 0 → s.rd.wb = true
  destExe : s.dec2exe.v = true → s.rd.exeDest.toNat < 32
  wbMem : s.exe2mem.v = true → s.re.dest ≠ 0 → s.re.wb = true
  destMem : s.exe2mem.v = true → s.re.dest.toNat < 32
  wbWbk : s.mem2wbk.v = true → s.rm.dest ≠ 0 → s.rm.wb = true
  op1 : s.dec2exe.v = true → s.rd.bpRadr1 ≠ 0 → s.rd.blockBp = false →
    s.Ready s.rd.bpRadr1 s.rd.op1
  op2 : s.dec2exe.v = true → s.rd.bpRadr2 ≠ 0 →
    s.Ready s.rd.bpRadr2 (if s.rd.memStore then s.rd.memData else s.rd.op2)

variable {s i}

theorem inv_reset : Inv reset where
  wbExe h := absurd h Bool.false_ne_true
  destExe h := absurd h Bool.false_ne_true
  wbMem h := absurd h Bool.false_ne_true
  destMem h := absurd h Bool.false_ne_true
  wbWbk h := absurd h Bool.false_ne_true
  op1 h := absurd h Bool.false_ne_true
  op2 h := absurd h Bool.false_ne_true

theorem regOf_setWidth {dest : BitVec 6} (h : dest.toNat < 32) :
    (dest.setWidth 5).setWidth 6 = dest := by
  apply BitVec.eq_of_toNat_eq
  rw [BitVec.toNat_setWidth, BitVec.toNat_setWidth]
  omega

theorem inMem_iff {r : BitVec 6} : s.inMem r = true ↔ r = s.re.dest ∧ s.exe2mem.v = true := by
  rw [inMem, Fifo.isEmpty, Bool.not_not, Bool.and_eq_true, beq_iff_eq]

theorem inWbk_iff {r : BitVec 6} : s.inWbk r = true ↔ r = s.destRm ∧ s.mem2wbk.v = true := by
  rw [inWbk, Fifo.isEmpty, Bool.not_not, Bool.and_eq_true, beq_iff_eq]

theorem loadInMem_eq (r : BitVec 6) : s.loadInMem r = (s.inMem r && s.re.memLoad) := by
  rw [loadInMem, inMem, Bool.and_right_comm]

theorem memLoad_of_inMem {r : BitVec 6} (hl : s.loadInMem r = false) (hm : s.inMem r = true) :
    s.re.memLoad = false := by
  rw [loadInMem_eq, hm, Bool.true_and] at hl
  exact hl

/-! ### The clock edge -/

theorem mem2wbk_step : (s.step i).mem2wbk =
    if s.memPush i then ⟨s.memWord i, true⟩ else { s.mem2wbk with v := false } := by
  change s.mem2wbk.clock (s.memPush i) s.wbkPop (s.memWord i) = _
  unfold wbkPop Fifo.isEmpty Fifo.clock
  obtain ⟨w, v⟩ := s.mem2wbk
  cases s.memPush i <;> cases v <;> rfl

theorem v_of_memPush (h : s.memPush i = true) : s.exe2mem.v = true := by
  unfold memPush Fifo.isEmpty at h
  cases hv : s.exe2mem.v
  · rw [hv, Bool.not_false, Bool.or_true] at h
    exact absurd h (by decide)
  · rfl

theorem of_exePush (h : s.exePush i = true) :
    s.exe2mem.isFull (s.memPush i) = false ∧ s.dec2exe.v = true ∧
      s.exeBypasses.invalid = false := by
  rw [exePush, Bool.not_eq_true', Bool.or_eq_false_iff, Bool.or_eq_false_iff, Fifo.isEmpty,
    Bool.not_eq_false'] at h
  exact ⟨h.1.1, h.1.2, h.2⟩

theorem exe2mem_of_exePush (h : s.exePush i = true) : (s.step i).exe2mem = ⟨s.exeWord, true⟩ :=
  Fifo.clock_of_load ((Fifo.loads_of_not_full (of_exePush h).1).trans h)

theorem exe2mem_of_not_exePush (h : s.exePush i = false) :
    (s.step i).re = s.re ∧ (s.step i).exe2mem.v = (s.exe2mem.v && !s.memPush i) := by
  have hl : s.exe2mem.loads (s.exePush i) (s.memPush i) = false := by
    rw [Fifo.loads, h, Bool.false_and]
  exact ⟨Fifo.dout_clock_of_not_load hl, Fifo.v_clock_of_not_load hl⟩

/-- The instruction in WBK that has the register as its destination writes it. -/
theorem wenable_of_inWbk (h : Inv s) {r : BitVec 6} (hr : r ≠ 0) (hw : s.inWbk r = true) :
    s.wenable = true ∧ s.destRm = r := by
  obtain ⟨rfl, hv⟩ := inWbk_iff.mp hw
  have hwb : s.rm.wb = true := by
    refine h.wbWbk hv fun h0 => hr ?_
    rw [destRm, h0]
    rfl
  refine ⟨?_, rfl⟩
  rw [wenable, hwb, Fifo.isEmpty, hv]
  rfl

theorem inWbk_of_wenable {r : BitVec 6} (hen : s.wenable = true) (hd : s.destRm = r) :
    s.inWbk r = true := by
  rw [wenable, Bool.and_eq_true, Fifo.isEmpty, Bool.not_not] at hen
  exact inWbk_iff.mpr ⟨hd.symm, hen.2⟩

theorem read_written (h : Inv s) {r : BitVec 6} (hr : r ≠ 0) :
    s.written.read r = s.committed r := by
  have hlt : s.destRm.toNat < 32 := by
    rw [destRm, BitVec.toNat_setWidth]
    have := s.rm.dest.isLt
    omega
  have hne : s.destRm ≠ 32 := by
    intro heq
    rw [heq] at hlt
    exact absurd hlt (by decide)
  unfold written committed
  rw [bne_iff_ne.mpr hne, Bool.and_true]
  by_cases hw : s.inWbk r = true
  · obtain ⟨hen, hdest⟩ := wenable_of_inWbk h hr hw
    rw [if_pos hw, if_pos hen, Registers.read_write _ (Nat.lt_succ_of_lt hlt) hr, if_pos hdest]
  · rw [if_neg hw]
    by_cases hen : s.wenable = true
    · rw [if_pos hen, Registers.read_write _ (Nat.lt_succ_of_lt hlt) hr,
        if_neg fun hd => hw (inWbk_of_wenable hen hd)]
    · rw [if_neg hen]

/-- The register after one more instruction has left MEM. -/
theorem committed_step (h : Inv s) {r : BitVec 6} (hr : r ≠ 0) : (s.step i).committed r =
    if s.memPush i = true ∧ r = s.re.dest then (s.memWord i).memRes else s.committed r := by
  have hregs : (s.step i).registers.read r = s.committed r := read_written h hr
  cases hp : s.memPush i with
  | true =>
    have hstep : (s.step i).mem2wbk = ⟨s.memWord i, true⟩ := by rw [mem2wbk_step, hp, if_pos rfl]
    have hdest : (s.step i).destRm = s.re.dest := by
      rw [destRm, rm, hstep]
      exact regOf_setWidth (h.destMem (v_of_memPush hp))
    have hin : (s.step i).inWbk r = true ↔ r = s.re.dest := by
      rw [inWbk_iff, hdest, hstep]
      exact and_iff_left rfl
    unfold committed
    by_cases hd : r = s.re.dest
    · rw [if_pos (hin.mpr hd), if_pos ⟨rfl, hd⟩, rm, hstep]
    · rw [if_neg (fun hc => hd (hin.mp hc)), if_neg (fun hc => hd hc.2), hregs]
      rfl
  | false =>
    have hin : (s.step i).inWbk r ≠ true := by
      intro hc
      have hv := (inWbk_iff.mp hc).2
      rw [mem2wbk_step, hp, if_neg Bool.false_ne_true] at hv
      exact Bool.false_ne_true hv
    rw [if_neg (fun hc => Bool.false_ne_true hc.1)]
    unfold committed at hregs ⊢
    rw [if_neg hin, hregs]

/-- A known value stays known while its instruction moves on, when EXE does not send another
writer of the register to MEM. -/
theorem ready_step (h : Inv s) {r : BitVec 6} (hr : r ≠ 0) {v : BitVec 32} (hready : s.Ready r v)
    (hexe : s.exePush i = true → s.rd.exeDest ≠ r) : (s.step i).Ready r v := by
  obtain ⟨hload, rfl⟩ := hready
  -- The value that WBK gets, if the youngest writer leaves MEM.
  have hcommitted : (s.memPush i = true ∨ s.inMem r = false) →
      (s.step i).committed r = s.known r := by
    intro hor
    rw [committed_step h hr, known]
    by_cases hm : s.inMem r = true
    · have hp : s.memPush i = true := by
        rcases hor with hp | hn
        · exact hp
        · rw [hm] at hn
          exact absurd hn.symm Bool.false_ne_true
      rw [if_pos ⟨hp, (inMem_iff.mp hm).1⟩, if_pos hm, memWord, memLoad_of_inMem hload hm,
        if_neg Bool.false_ne_true]
    · rw [if_neg hm, if_neg]
      rintro ⟨hp, hd⟩
      exact hm (inMem_iff.mpr ⟨hd, v_of_memPush hp⟩)
  cases hx : s.exePush i with
  | true =>
    have hstep := exe2mem_of_exePush hx
    have hnot : (s.step i).inMem r = false := by
      rw [Bool.eq_false_iff]
      intro hc
      have hd := (inMem_iff.mp hc).1
      rw [re, hstep] at hd
      exact hexe hx hd.symm
    refine ⟨by rw [loadInMem_eq, hnot, Bool.false_and], ?_⟩
    rw [known, hnot, if_neg Bool.false_ne_true]
    refine hcommitted ?_
    cases hp : s.memPush i with
    | true => exact Or.inl rfl
    | false =>
      -- EXE pushes although MEM keeps its place: the place was empty.
      refine Or.inr (Bool.eq_false_iff.mpr fun hc => ?_)
      have hfull := (of_exePush hx).1
      rw [Fifo.isFull, (inMem_iff.mp hc).2, hp] at hfull
      exact absurd hfull (by decide)
  | false =>
    obtain ⟨hre, hv⟩ := exe2mem_of_not_exePush hx
    cases hp : s.memPush i with
    | true =>
      -- MEM is left empty, and the value goes to WBK
      have hnot : (s.step i).inMem r = false := by
        rw [inMem, Fifo.isEmpty, hv, hp, Bool.not_true, Bool.and_false, Bool.not_false,
          Bool.not_true, Bool.and_false]
      refine ⟨by rw [loadInMem_eq, hnot, Bool.false_and], ?_⟩
      rw [known, hnot, if_neg Bool.false_ne_true]
      exact hcommitted (Or.inl hp)
    | false =>
      -- MEM keeps its instruction
      have hsame : (s.step i).inMem r = s.inMem r := by
        rw [inMem, inMem, hre, Fifo.isEmpty, Fifo.isEmpty, hv, hp, Bool.not_false, Bool.and_true]
      refine ⟨by rw [loadInMem_eq, hsame, hre, ← loadInMem_eq, hload], ?_⟩
      unfold known
      rw [hsame, hre]
      by_cases hm : s.inMem r = true
      · rw [if_pos hm, if_pos hm]
      · have hc := hcommitted (Or.inr (Bool.eq_false_iff.mpr hm))
        rw [known, if_neg hm] at hc
        rw [if_neg hm, if_neg hm, hc]

/-! ### The invariant of every run -/

/-- A source that DEC does not wait for has a known value, and EXE does not write it. -/
theorem ready_of_decSource {r : BitVec 6} (hr : r ≠ 0) {old : BitVec 32}
    (hflag : (s.decSource r old).1 = false) :
    ¬(r = s.rd.exeDest ∧ s.dec2exe.v = true) ∧ s.Ready r (s.decSource r old).2 := by
  have hr0 : ¬(r == 0) = true := fun h => hr (beq_iff_eq.mp h)
  unfold decSource at hflag ⊢
  rw [if_neg hr0] at hflag ⊢
  by_cases hexe : (r == s.rd.exeDest && !s.dec2exe.isEmpty) = true
  · rw [if_pos hexe] at hflag
    exact absurd hflag.symm Bool.false_ne_true
  rw [if_neg hexe] at hflag ⊢
  by_cases hload : s.loadInMem r = true
  · rw [if_pos hload] at hflag
    exact absurd hflag.symm Bool.false_ne_true
  rw [if_neg hload]
  refine ⟨?_, Bool.eq_false_iff.mpr hload, ?_⟩
  · rintro ⟨hd, hv⟩
    refine hexe ?_
    rw [hd, Fifo.isEmpty, hv, Bool.not_true, Bool.not_false, Bool.and_true, beq_self_eq_true]
  · unfold known committed
    split_ifs <;> rfl

theorem of_not_stall (h : s.stallSd i = false) :
    (s.decSource (radr1 i.delivered.instr) s.rdata1).1 = false ∧
      (s.decSource (radr2 i.delivered.instr) s.rdata2).1 = false ∧
      s.dec2exe.isFull (s.exePush i) = false := by
  rw [stallSd, Bool.or_eq_false_iff, Bool.or_eq_false_iff, Bool.or_eq_false_iff,
    invalidOperandSd, Bool.or_eq_false_iff] at h
  exact ⟨h.1.1.1.1, h.1.1.1.2, h.2⟩

/-- A source of the instruction that leaves DEC is known in the next cycle too. -/
theorem ready_of_decoded (h : Inv s) {r : BitVec 6} (hr : r ≠ 0) {old : BitVec 32}
    (hflag : (s.decSource r old).1 = false) : (s.step i).Ready r (s.decSource r old).2 := by
  obtain ⟨hexe, hready⟩ := ready_of_decSource hr hflag
  refine ready_step h hr hready fun hpush hd => ?_
  exact hexe ⟨hd.symm, (of_exePush hpush).2.1⟩

/-- The word in DEC2EXE has just left DEC, or it stays. -/
theorem dec2exe_step (hv : (s.step i).dec2exe.v = true) :
    (s.stallSd i = false ∧ (s.step i).rd = s.decWord i) ∨
      (s.exePush i = false ∧ s.dec2exe.v = true ∧ (s.step i).rd = s.rd) := by
  rcases s.dec2exe.clock_cases (!s.stallSd i) (s.exePush i) (s.decWord i)
    (fun hp => (of_not_stall (by simpa using hp)).2.2) with
    ⟨hp, hstep⟩ | ⟨hpop, hold, hstep⟩ | hempty
  · exact Or.inl ⟨by simpa using hp, congrArg Fifo.dout hstep⟩
  · exact Or.inr ⟨hpop, hold, congrArg Fifo.dout hstep⟩
  · exact absurd (hempty.symm.trans hv) Bool.false_ne_true

/-- The word in EXE2MEM has just left EXE, or it stays. -/
theorem exe2mem_step (hv : (s.step i).exe2mem.v = true) :
    (s.exePush i = true ∧ (s.step i).re = s.exeWord) ∨
      (s.exe2mem.v = true ∧ (s.step i).re = s.re) := by
  rcases s.exe2mem.clock_cases (s.exePush i) (s.memPush i) s.exeWord
    (fun hp => (of_exePush hp).1) with
    ⟨hp, hstep⟩ | ⟨_, hold, hstep⟩ | hempty
  · exact Or.inl ⟨hp, congrArg Fifo.dout hstep⟩
  · exact Or.inr ⟨hold, congrArg Fifo.dout hstep⟩
  · exact absurd (hempty.symm.trans hv) Bool.false_ne_true

theorem inv_step (h : Inv s) : Inv (s.step i) := by
  have hdecodes : Decodes (s.rdata1Sd i) (s.rdata2Sd i) (s.decodedSd i) :=
    decodes_postRegReadDecoding ..
  obtain ⟨hradr1, hradr2, -, -⟩ := registers_postRegReadDecoding i.delivered.instr
    (s.rdata1Sd i) (s.rdata2Sd i) i.readPc i.delivered.pc s.decoded
  have hword : s.decWord i = _ :=
    unconcat_concat i.delivered (packed i.delivered.instr i.offsetRead (s.decodedSd i))
  dsimp only [packed] at hword
  constructor
  case wbExe =>
    intro hv hd
    rcases dec2exe_step hv with ⟨_, hrd⟩ | ⟨_, hold, hrd⟩ <;> rw [hrd] at hd ⊢
    · rw [hword] at hd ⊢
      exact hdecodes.wb hd
    · exact h.wbExe hold hd
  case destExe =>
    intro hv
    rcases dec2exe_step hv with ⟨_, hrd⟩ | ⟨_, hold, hrd⟩ <;> rw [hrd]
    · rw [hword]
      exact hdecodes.dest
    · exact h.destExe hold
  case wbMem =>
    intro hv hd
    rcases exe2mem_step hv with ⟨hpush, hre⟩ | ⟨hold, hre⟩ <;> rw [hre] at hd ⊢
    · exact h.wbExe (of_exePush hpush).2.1 hd
    · exact h.wbMem hold hd
  case destMem =>
    intro hv
    rcases exe2mem_step hv with ⟨hpush, hre⟩ | ⟨hold, hre⟩ <;> rw [hre]
    · exact h.destExe (of_exePush hpush).2.1
    · exact h.destMem hold
  case wbWbk =>
    intro hv hd
    cases hp : s.memPush i with
    | true =>
      rw [rm, mem2wbk_step, hp, if_pos rfl] at hd ⊢
      -- WBK compares five bits of the destination
      have hwb : s.re.wb = true := by
        refine h.wbMem (v_of_memPush hp) fun h0 => hd ?_
        rw [memWord, h0]
        rfl
      rw [memWord, hwb, Bool.true_or]
    | false =>
      rw [mem2wbk_step, hp, if_neg Bool.false_ne_true] at hv
      exact absurd hv Bool.false_ne_true
  case op1 =>
    intro hv hr hbp
    rcases dec2exe_step hv with ⟨hstall, hrd⟩ | ⟨hpop, hold, hrd⟩ <;> rw [hrd] at hr hbp ⊢
    · rw [hword] at hr hbp ⊢
      rw [hdecodes.op1 hr hbp]
      rw [show (s.decodedSd i).radr1 = radr1 i.delivered.instr from hradr1] at hr ⊢
      exact ready_of_decoded h hr (of_not_stall hstall).1
    · exact ready_step h hr (h.op1 hold hr hbp) fun hpush =>
        absurd (hpop.symm.trans hpush) Bool.false_ne_true
  case op2 =>
    intro hv hr
    rcases dec2exe_step hv with ⟨hstall, hrd⟩ | ⟨hpop, hold, hrd⟩ <;> rw [hrd] at hr ⊢
    · rw [hword] at hr ⊢
      rw [hdecodes.op2 hr]
      rw [show (s.decodedSd i).radr2 = radr2 i.delivered.instr from hradr2] at hr ⊢
      exact ready_of_decoded h hr (of_not_stall hstall).2.1
    · exact ready_step h hr (h.op2 hold hr) fun hpush =>
        absurd (hpop.symm.trans hpush) Bool.false_ne_true

/-! ### The operands are what is written back -/

theorem find_writerInWbk (h : Inv s) {r : BitVec 6} (hr : r ≠ 0) :
    (s.writerInWbk.find? fun w => w.1 == r) =
      if s.inWbk r then some (r, some s.rm.memRes) else none := by
  unfold writerInWbk
  by_cases hw : s.inWbk r = true
  · obtain ⟨hen, rfl⟩ := wenable_of_inWbk h hr hw
    rw [if_pos hw, if_pos hen, List.find?_cons_of_pos (by simp)]
  · rw [if_neg hw]
    by_cases hen : s.wenable = true
    · have hne : s.destRm ≠ r := fun heq => hw (inWbk_of_wenable hen heq)
      rw [if_pos hen, List.find?_cons_of_neg (by simpa using hne), List.find?_nil]
    · rw [if_neg hen, List.find?_nil]

theorem find_writerInMem (h : Inv s) {r : BitVec 6} (hr : r ≠ 0) (hload : s.loadInMem r = false) :
    ((s.writerInMem i).find? fun w => w.1 == r) =
      if s.inMem r then some (r, some s.re.exeRes) else none := by
  unfold writerInMem
  by_cases hm : s.inMem r = true
  · obtain ⟨rfl, hv⟩ := inMem_iff.mp hm
    have hl : s.re.memLoad = false := memLoad_of_inMem hload hm
    have hdest : (s.memWord i).dest.setWidth 6 = s.re.dest := regOf_setWidth (h.destMem hv)
    have hres : (s.memWord i).memRes = s.re.exeRes := by
      rw [memWord, hl, if_neg Bool.false_ne_true]
    have hwb : (s.memWord i).wb = true := by rw [memWord, h.wbMem hv hr, Bool.true_or]
    rw [if_pos hm, hwb, Fifo.isEmpty, hv, if_pos (by decide), hdest, hres, hl, Bool.false_and,
      if_neg Bool.false_ne_true, List.find?_cons_of_pos (by simp)]
  · rw [if_neg hm]
    by_cases hen : (!s.exe2mem.isEmpty && (s.memWord i).wb) = true
    · have hv : s.exe2mem.v = true := by
        rw [Bool.and_eq_true, Fifo.isEmpty, Bool.not_not] at hen
        exact hen.1
      have hne : (s.memWord i).dest.setWidth 6 ≠ r := by
        intro heq
        have hdest : (s.memWord i).dest.setWidth 6 = s.re.dest := regOf_setWidth (h.destMem hv)
        exact hm (inMem_iff.mpr ⟨heq.symm.trans hdest, hv⟩)
      rw [if_pos hen, List.find?_cons_of_neg (by simpa using hne), List.find?_nil]
    · rw [if_neg hen, List.find?_nil]

/-- A known value is what the youngest instruction behind EXE writes back. -/
theorem olderInExe_of_ready (h : Inv s) {r : BitVec 6} (hr : r ≠ 0) {v : BitVec 32}
    (hready : s.Ready r v) : s.olderInExe i r = some v := by
  obtain ⟨hload, rfl⟩ := hready
  rw [olderInExe, youngest, List.find?_append, find_writerInMem h hr hload, find_writerInWbk h hr]
  unfold known committed
  by_cases hm : s.inMem r = true
  · rw [if_pos hm, if_pos hm, Option.some_or]
  · rw [if_neg hm, if_neg hm, Option.none_or]
    by_cases hw : s.inWbk r = true
    · rw [if_pos hw, if_pos hw]
    · rw [if_neg hw, if_neg hw]

/-- An instruction in EXE does not count when it does not write the register. -/
theorem olderInDec_of_not_exe {r : BitVec 6} (hexe : ¬(r = s.rd.exeDest ∧ s.dec2exe.v = true)) :
    s.olderInDec i r = s.olderInExe i r := by
  have hnone : (s.writerInExe.find? fun w => w.1 == r) = none := by
    unfold writerInExe
    by_cases hen : (!s.dec2exe.isEmpty && (s.rd.wb || s.rd.memLoad)) = true
    · have hne : s.rd.exeDest ≠ r := by
        intro heq
        rw [Bool.and_eq_true, Fifo.isEmpty, Bool.not_not] at hen
        exact hexe ⟨heq.symm, hen.1⟩
      rw [if_pos hen, List.find?_cons_of_neg (by simpa using hne), List.find?_nil]
    · rw [if_neg hen, List.find?_nil]
  rw [olderInDec, olderInExe, youngest, youngest, List.append_assoc, List.find?_append, hnone,
    Option.none_or]

/-- The bypass of the first source gives the value that DEC has handed on. -/
theorem exeRs1_of_ready (hready : s.Ready s.rd.bpRadr1 s.rd.op1) : s.exeRs1 = s.rd.op1 := by
  obtain ⟨hload, hknown⟩ := hready
  rw [known, committed] at hknown
  unfold exeRs1
  rw [hload, if_neg Bool.false_ne_true]
  by_cases hm : s.inMem s.rd.bpRadr1 = true
  · rw [if_pos hm] at hknown
    rw [if_pos hm, hknown, ite_self]
  · rw [if_neg hm] at hknown ⊢
    by_cases hw : s.inWbk s.rd.bpRadr1 = true
    · rw [if_pos hw] at hknown
      rw [if_pos hw, hknown, ite_self]
    · rw [if_neg hw, ite_self]

/-- The bypass of the second source, which is the data of a store. -/
theorem exeRs2_of_ready
    (hready : s.Ready s.rd.bpRadr2 (if s.rd.memStore then s.rd.memData else s.rd.op2)) :
    s.exeRs2 = (false, s.rd.op2, s.rd.memData) := by
  obtain ⟨hload, hknown⟩ := hready
  have hsource : s.withSource (if s.rd.memStore then s.rd.memData else s.rd.op2) =
      (s.rd.op2, s.rd.memData) := by
    unfold withSource
    split_ifs <;> rfl
  rw [known, committed] at hknown
  unfold exeRs2
  rw [hload, if_neg Bool.false_ne_true]
  by_cases hm : s.inMem s.rd.bpRadr2 = true
  · rw [if_pos hm] at hknown
    rw [if_pos hm, hknown, hsource, ite_self]
  · rw [if_neg hm] at hknown ⊢
    by_cases hw : s.inWbk s.rd.bpRadr2 = true
    · rw [if_pos hw] at hknown
      rw [if_pos hw, hknown, hsource, ite_self]
    · rw [if_neg hw, ite_self]

theorem exactInExe_of_inv (h : Inv s) : ExactInExe s i := by
  intro hpush
  have hv := (of_exePush hpush).2.1
  refine ⟨fun hr hbp => ?_, fun hr _ => ?_⟩
  · have hready := h.op1 hv hr hbp
    exact (olderInExe_of_ready h hr hready).trans (congrArg some (exeRs1_of_ready hready).symm)
  · have hready := h.op2 hv hr
    rw [olderInExe_of_ready h hr hready, exeBypasses, exeRs2_of_ready hready]

theorem exactInDec_of_inv (h : Inv s) : ExactInDec s i := by
  -- Both blocks of DEC follow one rule.
  have hsource : ∀ {r : BitVec 6} {old : BitVec 32}, r ≠ 0 → (s.decSource r old).1 = false →
      s.olderInDec i r = some (s.decSource r old).2 := by
    intro r old hr hflag
    obtain ⟨hexe, hready⟩ := ready_of_decSource hr hflag
    exact (olderInDec_of_not_exe hexe).trans (olderInExe_of_ready h hr hready)
  intro hstall
  obtain ⟨hflag1, hflag2, -⟩ := of_not_stall hstall
  exact ⟨fun hr => hsource hr hflag1, fun hr => hsource hr hflag2⟩

/-- In every run the operands that EXE uses, and those on which DEC decides a branch, are what
the youngest older writers of their registers write back. -/
theorem each_interlocked (is : List Cycle) :
    Run.Each (fun s i => ExactInExe s i ∧ ExactInDec s i) step reset is :=
  Run.each_of_invariant (fun _ _ h => ⟨exactInExe_of_inv h, exactInDec_of_inv h⟩)
    (fun _ _ h => inv_step h) is inv_reset

end Pipeline

end Mini

end RiVerSoC
