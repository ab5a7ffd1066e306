/-
The instructions of the core as steps of RV32IM.

* `Hart`, `run` — the instruction set as a machine;
* `Behaves` — the program stays within what the core computes as the instruction set has it, and
  does not change the words that it executes;
* `execute_of_sentFor` — an instruction that DEC has sent is executed as one of RV32IM;
* `Writers` — a word in flight writes its destination, so that a valid operand in DEC is what its
  register is going to be;
* `nextPc_eq` — DEC goes where the program goes.
-/
import RiVerSoC.CoreInstructions
import RiVerSoC.NextPc

namespace RiVerSoC

open Decode

/-! ### The instruction set as a machine -/

/-- The registers and the RAM with the program counter. -/
structure Hart where
  pc : BitVec 32
  arch : Arch

namespace Hart

variable (h : Hart)

/-- The instruction at the program counter. -/
def word : BitVec 32 := h.arch.ram h.pc

/-- Its operands. -/
def operand1 : BitVec 32 := h.arch.registers.read ((rs1 h.word).setWidth 6)

def operand2 : BitVec 32 := h.arch.registers.read ((rs2 h.word).setWidth 6)

/-- One instruction. -/
def step : Option Hart :=
  (Rv32i.effectM h.word h.pc h.arch).map fun a =>
    ⟨nextPc h.word h.pc h.operand1 h.operand2, a⟩

/-- The state after `n` instructions. -/
def run : ℕ → Option Hart
  | 0 => some h
  | n + 1 => (run n).bind step

/-- A load takes the field of its address out of the word, or throws it away. -/
def TakesLane : Prop :=
  opcode h.word = 0b0000011 → rd h.word = 0 ∨
    ¬ Rv32i.Misses (funct3 h.word) (h.operand1 + immI h.word)
      (h.arch.ram (wordAdr (h.operand1 + immI h.word)))

instance : Decidable h.TakesLane := inferInstanceAs (Decidable (_ → _))

/-- The first `n` instructions are those of RV32IM, their loads take their lanes, and the word of
each of them is in the RAM from the beginning on. -/
def Behaves (n : ℕ) : Prop :=
  ∀ k < n, ∃ g, h.run k = some g ∧ g.step.isSome ∧ g.TakesLane ∧
    ∀ j ≤ k, ∀ g', h.run j = some g' → g'.arch.ram g.pc = g.word

variable {h}

theorem run_succ {n : ℕ} {g g' : Hart} (hrun : h.run n = some g) (hstep : g.step = some g') :
    h.run (n + 1) = some g' := by
  rw [run, hrun]
  exact hstep

end Hart

namespace Backend

/-! ### What an instruction leaves alone -/

section Frame

variable (a : Arch) (x : Executed)

theorem Arch.after_append (q q' : List Executed) : a.after (q ++ q') = (a.after q).after q' :=
  Run.after_append a q q'

theorem read_zero_writeBack (g : Registers) (w : Mem2Wbk) (x2Res : BitVec 32) :
    (writeBack g w x2Res).read 0 = g.read 0 := by
  unfold writeBack
  split_ifs
  · exact Registers.read_zero_write ..
  · rfl

theorem Arch.read_zero_after (q : List Executed) :
    (a.after q).registers.read 0 = a.registers.read 0 := by
  induction q generalizing a with
  | nil => rfl
  | cons x q ih => exact (ih (a.execute x)).trans (read_zero_writeBack ..)

/-- An instruction writes its destination only. -/
theorem Arch.read_execute {r : BitVec 6} (hr : r ≠ 0) (hd : regOf (x.word.dest.setWidth 5) ≠ r) :
    (a.execute x).registers.read r = a.registers.read r := by
  have hdest : (a.memWord x).dest = x.word.dest.setWidth 5 := rfl
  rw [Arch.execute, System.read_writeBack _ _ _ hr, hdest, if_neg fun h => hd h.2]

end Frame

/-! ### Words that write their destination -/

section Writers

variable {s : State} {i : Cycle}

/-- A word in flight that has a destination writes it, exceptions apart. -/
structure Writers (s : State) : Prop where
  exe : s.dec2exe.v = true → s.rd.dest ≠ 0 → s.rd.wb = true
  mem : s.exe2mem.v = true → s.re.exception = false → s.re.dest ≠ 0 → s.re.wb = true
  wbk : s.mem2wbk.v = true → regOf s.rm.dest ≠ 0 → s.rm.wb = true

theorem writers_reset : Writers reset where
  exe h := absurd h Bool.false_ne_true
  mem h := absurd h Bool.false_ne_true
  wbk h := absurd h Bool.false_ne_true

theorem wb_decWord (hx : i.exceptionSm = false) (hd : (decWord s i).dest ≠ 0) :
    (decWord s i).wb = true := by
  have hword : (decWord s i).dest = destOf i.ir ∧ (decWord s i).wb = (decOperation s i).wb := by
    rw [decWord, Dec.concatDec2exe, hx, if_neg Bool.false_ne_true]
    exact ⟨rfl, rfl⟩
  rw [hword.1, destOf] at hd
  rw [hword.2, decOperation]
  obtain ⟨f, hf⟩ := exists_format i.ir
  have hf' : (decSig s i).types = f.types := hf
  rw [hf] at hd
  rw [hf']
  cases f with
  | r | i | u | j | jalr | m => rfl
  | s | b => exact absurd rfl hd
  | system =>
    -- of these only the CSR instructions have a destination
    have hcsr : (decodingInstruction i.ir).csr = true := by
      by_contra hno
      rw [Bool.not_eq_true] at hno
      refine hd ?_
      unfold adrDest
      rw [hno]
      rfl
    have hinsts : (decSig s i).insts = decodingInstruction i.ir := rfl
    unfold postRegReadDecoding
    rw [operation_system, hinsts, if_pos hcsr]
    rfl
  | other => exact absurd rfl hd

theorem writers_step (h : Writers s) (hr : Retained s) (hx : i.exceptionSm = false)
    (hexc : s.exe2mem.v = true → s.re.exception = false) : Writers (step s i) where
  exe := by
    rcases dec2exe_cases s i with ⟨-, hdec⟩ | ⟨-, -, hdout, hv⟩
    · intro _
      rw [State.rd, hdec]
      exact wb_decWord hx
    · intro hv'
      rw [hv, Bool.and_eq_true] at hv'
      rw [State.rd, hdout]
      exact h.exe hv'.1
  mem := by
    cases hp : exePush s i with
    | true =>
      have hre : (step s i).re = _ := re_of_loads ((loads_of_not_trap (s := s) hx).trans hp)
      obtain ⟨j, hj⟩ := dinSe_eq_fifoConcat (s := s) hx
      rw [hre, hj]
      intro _ hno hd
      -- EXE has raised no exception either
      have hse : (exeSig s i).exceptionSe = false := hno
      rw [hse]
      exact h.exe (v_of_exePush hx hp) hd
    | false =>
      have hl := (loads_of_not_trap (s := s) hx).trans hp
      rw [exe2mem_v_of_not_loads hl, re_of_not_loads hl, Bool.and_eq_true]
      exact fun hv => h.mem hv.1
  wbk := by
    cases hp : memPush s i with
    | true =>
      rw [rm_of_memPush hp]
      intro _ hd
      have hdest : regOf (memWord s i).dest = s.re.dest := hr.dest
      rw [hdest] at hd
      have hv := v_of_memPush hp
      rw [sameWord_memWord.wb, h.mem hv (hexc hv) hd, Bool.true_or]
    | false =>
      intro hv
      exact absurd ((mem2wbk_v_of_not_memPush hp).symm.trans hv) Bool.false_ne_true

/-- A valid operand of an instruction other than `csrrc` comes from a source that delivers it. -/
theorem captures_of_valid (h : Writers s) (hexc : s.exe2mem.v = true → s.re.exception = false)
    {r : BitVec 6} (hr : r ≠ 0) {rdata old : BitVec 32}
    (hvalid : (Dec.bypass (decContents s i).stages false r rdata old).2 = true) :
    captures (decContents s i).stages false r = true := by
  have hbypass : (Dec.bypass (decContents s i).stages false r 0 0).2 = true := by
    rw [← hvalid]
    unfold Dec.bypass
    split_ifs <;> rfl
  rw [captures, hbypass, Bool.true_and]
  split_ifs with hmem hwbk
  · obtain ⟨hv, hd⟩ := inMem_iff.mp hmem
    have hwb : s.re.wb = true := h.mem hv (hexc hv) (by rw [hd]; exact hr)
    change (s.re.wb && _) = true
    rw [hwb]
    rfl
  · obtain ⟨hv, hd⟩ := inWbk_iff.mp hwbk
    have hwb : s.rm.wb = true := h.wbk hv (by rw [hd]; exact hr)
    change (s.rm.wb && _) = true
    rw [hwb]
    rfl
  · rfl

/-- A captured operand is the value that the instruction in MEM leaves in the register, and the
instruction in EXE has another destination. -/
theorem System.Stands.captured_eq {m : System} {a : Arch} {q : List Executed} (h : m.Stands a q)
    (i : Cycle) {r : BitVec 6} {csrrc : Bool} (hr : r ≠ 0)
    (hcap : captures (decContents m.pipe (m.cycle i)).stages csrrc r = true) (old : BitVec 32) :
    (Dec.bypass (decContents m.pipe (m.cycle i)).stages csrrc r (m.pipe.registers.read r) old).1 =
        (a.after q).registers.read r ∧
      (decContents m.pipe (m.cycle i)).stages.inExe r = false := by
  obtain ⟨hvalue, hdelivers, hexe⟩ := Backend.captured_eq hr hcap old
  refine ⟨hvalue.trans ?_, hexe⟩
  rw [← h.expected_eq (i := i) hr]
  by_cases hre : m.pipe.exe2mem.v = true ∧ m.pipe.re.dest = r
  · obtain ⟨hload, hmult, hwb⟩ := hdelivers hre.1 hre.2
    rw [expected_of_re h.inv.retained hr hre.2 (by rw [hwb, Bool.true_or]) (Or.inl hload)
      (Or.inl hmult), known, hre.1, hre.2, beq_self_eq_true, Bool.true_and, if_pos rfl]
  · exact known_eq_expected h.inv.retained fun hv hd => hre ⟨hv, hd⟩

end Writers

/-! ### The instruction that EXE pushes -/

section Execute

variable {s : State} {i : Cycle} {x : Executed} {g : Registers}

/-- The multiplier and the divider have computed what the operands of the instruction ask for. -/
def Executed.Computed (x : Executed) (g : Registers) : Prop :=
  (x.word.multInst = true → x.product =
    Multiplier.multiply ⟨(x.operands g).op1Se, (x.operands g).op2Se, x.word.exeCmd⟩) ∧
  (x.word.selectTypeOperations = 8 → x.dividerRes =
    Diviseur.Division.result ⟨(x.operands g).op1Se, (x.operands g).op2Se, x.word.exeCmd⟩)

/-- The words of RV32M, as DEC sends them. -/
theorem word_of_m (h : Sends s i x) (hg : g.read 0 = 0) (hop : opcode i.ir = 0b0110011)
    (hf7 : funct7 i.ir = 1) :
    x.word.multInst = (decodingInstruction i.ir).multInst ∧
      ((decodingInstruction i.ir).divInst = true → x.word.selectTypeOperations = 8) ∧
      x.word.exeCmd = command (decodingInstruction i.ir) ∧
      (x.operands g).op1Se = g.read ((rs1 i.ir).setWidth 6) ∧
      (x.operands g).op2Se = g.read ((rs2 i.ir).setWidth 6) := by
  have hf : decodingInstructionType i.ir = Format.types .m := by
    simp [decodingInstructionType, hop, hf7]
    rfl
  have hdec : (decSig s i).types = Format.types .m := hf
  rw [op1Se_decWord h hg, (op2Se_decWord h hg).1, h.word, decWord, Dec.concatDec2exe, h.trap,
    if_neg Bool.false_ne_true, decOperation, hdec, decodedIn, hf]
  refine ⟨rfl, fun hdiv => unit_eq_eight.mpr hdiv, rfl, ?_, ?_⟩
  · change (sourcesIn i g).rdata1 = _
    rw [sourcesIn, hf]
    rfl
  · change (sourcesIn i g).rdata2 = _
    rw [sourcesIn, hf]
    rfl

/-- The unit of an instruction of RV32M has its result. -/
theorem result_of_computed (h : Sends s i x) (hg : g.read 0 = 0) (hop : opcode i.ir = 0b0110011)
    (hf7 : funct7 i.ir = 1) (hc : x.Computed g) :
    (if (funct3 i.ir).ult 4 then x.product else x.dividerRes) =
      rv32mResult (funct3 i.ir) (g.read ((rs1 i.ir).setWidth 6))
        (g.read ((rs2 i.ir).setWidth 6)) := by
  obtain ⟨hmult, hunit, hcmd, hop1, hop2⟩ := word_of_m h hg hop hf7
  obtain ⟨hproduct, hquotient⟩ := hc
  rw [hmult, hcmd, hop1, hop2] at hproduct
  rw [hcmd, hop1, hop2] at hquotient
  have hflag : ∀ f, has7 i.ir 0b0110011 1 f = (funct3 i.ir == f) := fun f => by
    simp [has7, hop, hf7]
  have hproducts : ∀ k : Multiplier.MulInst, k.flag (decodingInstruction i.ir) = true →
      x.product = k.result (g.read ((rs1 i.ir).setWidth 6)) (g.read ((rs2 i.ir).setWidth 6)) := by
    intro k hk
    have hinst : (decodingInstruction i.ir).multInst = true := by
      unfold Insts.multInst
      cases k <;> rw [Multiplier.MulInst.flag] at hk <;> simp [hk]
    rw [hproduct hinst, Multiplier.command_of_flag hk, Multiplier.multiply,
      Multiplier.process_scratch]
  by_cases hlt : (funct3 i.ir).ult 4 = true
  · rw [if_pos hlt]
    have hcases : funct3 i.ir = 0 ∨ funct3 i.ir = 1 ∨ funct3 i.ir = 2 ∨ funct3 i.ir = 3 := by
      revert hlt
      generalize funct3 i.ir = f
      revert f
      decide
    rcases hcases with hf | hf | hf | hf
    · rw [hproducts .mul ((hflag 0).trans (by rw [hf, beq_self_eq_true])), hf]
      rfl
    · rw [hproducts .mulh ((hflag 1).trans (by rw [hf, beq_self_eq_true])), hf]
      rfl
    · rw [hproducts .mulhsu ((hflag 2).trans (by rw [hf, beq_self_eq_true])), hf]
      rfl
    · rw [hproducts .mulhu ((hflag 3).trans (by rw [hf, beq_self_eq_true])), hf]
      rfl
  · have hdiv : (decodingInstruction i.ir).divInst = true := by
      simp only [decodingInstruction, Insts.divInst, hflag]
      revert hlt
      generalize funct3 i.ir = f
      revert f
      decide
    have hres : rv32mResult (funct3 i.ir) = Diviseur.rv32m (funct3 i.ir) := by
      have hne : funct3 i.ir ≠ 0 ∧ funct3 i.ir ≠ 1 ∧ funct3 i.ir ≠ 2 ∧ funct3 i.ir ≠ 3 := by
        refine ⟨?_, ?_, ?_, ?_⟩ <;> exact fun hf => hlt (by rw [hf]; rfl)
      funext v w
      rw [rv32mResult, if_neg hne.1, if_neg hne.2.1, if_neg hne.2.2.1, if_neg hne.2.2.2]
    rw [if_neg hlt, hquotient (hunit hdiv), hres,
      Diviseur.result_eq_rv32m _ _ (Diviseur.command_of_divInst hdiv)]

/-- The word that DEC has sent for the instruction at the program counter. -/
def SentFor (w : Dec2Exe) (h : Hart) : Prop :=
  ∃ s i, (∀ x : Executed, x.word = w → Sends s i x) ∧ i.ir = h.word ∧
    i.fetch.pcIf2dec = h.pc ∧ i.readPc = h.pc + 4

theorem SentFor.legal {w : Dec2Exe} {h : Hart} (hsent : SentFor w h) : w.exception = false := by
  obtain ⟨s, i, hsends, -⟩ := hsent
  exact (hsends { (default : Executed) with word := w } rfl).legal

/-- In machine mode such an instruction has the effect that RV32IM has, when its load takes its
lane and the units are through. -/
theorem execute_of_sentFor {h : Hart} (hsent : SentFor x.word h)
    (hzero : h.arch.registers.read 0 = 0) (hmode : x.currentMode = 3)
    (hc : x.Computed h.arch.registers) (hlane : h.TakesLane) {a : Arch}
    (heffect : Rv32i.effectM h.word h.pc h.arch = some a) : Arch.execute h.arch x = a := by
  obtain ⟨s, i, hsends, hir, hpc, hread⟩ := hsent
  have hx := hsends x rfl
  have hreach : ∀ adr, Exe.accessFault x.inputs adr = false := by
    intro adr
    have huser : (x.currentMode == 0) = false := by
      rw [hmode]
      rfl
    change (x.currentMode == 0 && _) = false
    rw [huser, Bool.false_and]
  have hfault : ¬ Faults x i.ir h.arch := by
    rintro (⟨-, hfault⟩ | ⟨-, hfault⟩) <;>
      exact absurd ((hreach _).symm.trans hfault) Bool.false_ne_true
  rw [Hart.TakesLane, Hart.operand1, ← hir] at hlane
  rw [← hir, ← hpc] at heffect
  rw [← hpc] at hread
  rw [Rv32i.effectM] at heffect
  by_cases hm : opcode i.ir = 0b0110011 ∧ funct7 i.ir = 1
  · rw [if_pos hm] at heffect
    rw [execute_m hx hzero hm.1 hm.2, result_of_computed hx hzero hm.1 hm.2 hc]
    exact Option.some.inj heffect
  rw [if_neg hm] at heffect
  by_cases hload : opcode i.ir = 0b0000011
  · refine (executes_iff_load hx hzero hfault hload heffect).mpr ((hlane hload).imp id ?_)
    rintro hlane (⟨-, hmiss⟩ | ⟨hop, hf7, -⟩)
    · exact hlane hmiss
    · exact hm ⟨hop, hf7⟩
  · exact executes_other hx hzero hread hfault hload heffect

end Execute

/-! ### Where the instruction in DEC leads -/

section Next

/-- Only branches and `jalr` look at registers. -/
theorem nextPc_congr {ir pc a b a' b' : BitVec 32}
    (h1 : opcode ir = 0b1100111 ∨ opcode ir = 0b1100011 → a = a')
    (h2 : opcode ir = 0b1100011 → b = b') : nextPc ir pc a b = nextPc ir pc a' b' := by
  unfold nextPc
  by_cases hjalr : opcode ir = 0b1100111
  · rw [h1 (Or.inl hjalr), hjalr]
    rfl
  by_cases hbranch : opcode ir = 0b1100011
  · rw [h1 (Or.inr hbranch), h2 hbranch]
  · have hno : ∀ v w, ¬(opcode ir = 0b1100011 ∧ taken (funct3 ir) v w = true) :=
      fun _ _ h => hbranch h.1
    rw [if_neg hjalr, if_neg hjalr, if_neg (hno a b), if_neg (hno a' b')]

/-- A branch and a `jalr` in DEC. -/
theorem of_leading {ir : BitVec 32} (hop : opcode ir = 0b1100111 ∨ opcode ir = 0b1100011) :
    ((decodingInstructionType ir).b || (decodingInstructionType ir).jalr) = true ∧
      (decodingInstruction ir).csrrc = false ∧
      radr1 (decodingInstructionType ir) (decodingInstruction ir) ir = (rs1 ir).setWidth 6 ∧
      (opcode ir = 0b1100011 → radr2 (decodingInstructionType ir) ir = (rs2 ir).setWidth 6) := by
  have hcsrrc : (decodingInstruction ir).csrrc = false := by
    rcases hop with h | h <;> simp [decodingInstruction, has3, h]
  rcases hop with h | h
  · have hf : decodingInstructionType ir = Format.types .jalr := by
      simp [decodingInstructionType, h]
      rfl
    rw [hf]
    exact ⟨rfl, hcsrrc, rfl, fun hb => absurd (h.symm.trans hb) (by decide)⟩
  · have hf : decodingInstructionType ir = Format.types .b := by
      simp [decodingInstructionType, h]
      rfl
    rw [hf]
    exact ⟨rfl, hcsrrc, rfl, fun _ => rfl⟩

/-- A branch or a `jalr` leaves DEC with valid operands. -/
theorem valid_of_decPush {s : State} {i : Cycle} (hx : i.exceptionSm = false)
    (hpush : decPush s i = true)
    (hkind : ((decSig s i).types.b || (decSig s i).types.jalr) = true) :
    (decSig s i).haz.r1Valid = true ∧ (decSig s i).haz.r2Valid = true := by
  have hstall : Dec.stall _ (decSig s i).types (decSig s i).haz _ _ = false :=
    stallSd_of_decPush hx hpush
  unfold Dec.stall at hstall
  rw [hkind, Bool.true_or, Bool.true_or, Bool.true_or, Bool.and_true] at hstall
  simp only [Bool.or_eq_false_iff, Bool.not_eq_false'] at hstall
  exact hstall.1.1.2

variable {m : System} {i : Cycle} {a : Arch} {q : List Executed} {g : Registers}

/-- A valid operand is what its register has once the instructions in MEM and in EXE are
through. -/
theorem System.Stands.bypass_eq (h : m.Stands a q) (hw : Writers m.pipe)
    (hexc : m.pipe.exe2mem.v = true → m.pipe.re.exception = false)
    (hzero : m.pipe.registers.read 0 = 0) (hg0 : g.read 0 = 0)
    (hg : ∀ r, r ≠ 0 → (decContents m.pipe (m.cycle i)).stages.inExe r = false →
      g.read r = (a.after q).registers.read r) {r : BitVec 6} {old : BitVec 32}
    (hvalid : (Dec.bypass (decContents m.pipe (m.cycle i)).stages false r (m.pipe.registers.read r)
      old).2 = true) :
    (Dec.bypass (decContents m.pipe (m.cycle i)).stages false r (m.pipe.registers.read r) old).1 =
      g.read r := by
  by_cases hr : r = 0
  · rw [hr, Dec.bypass, if_pos rfl, hg0]
    exact hzero
  · obtain ⟨hvalue, hexe⟩ := h.captured_eq i hr (captures_of_valid hw hexc hr hvalid) old
    rw [hvalue, hg r hr hexe]

/-- DEC goes where the program goes. -/
theorem System.Stands.nextPc_eq (h : m.Stands a q) (hw : Writers m.pipe)
    (hexc : m.pipe.exe2mem.v = true → m.pipe.re.exception = false)
    (hzero : m.pipe.registers.read 0 = 0) (hg0 : g.read 0 = 0)
    (hg : ∀ r, r ≠ 0 → (decContents m.pipe (m.cycle i)).stages.inExe r = false →
      g.read r = (a.after q).registers.read r)
    (hx : (m.cycle i).exceptionSm = false) (hpush : decPush m.pipe (m.cycle i) = true)
    (hf : ((decSig m.pipe (m.cycle i)).types.b || (decSig m.pipe (m.cycle i)).types.jalr) = true →
      HazardsFresh m.pipe (m.cycle i)) (pc : BitVec 32) :
    nextPc i.ir pc (decSig m.pipe (m.cycle i)).haz.rdata1 (decSig m.pipe (m.cycle i)).haz.rdata2 =
      nextPc i.ir pc (g.read ((rs1 i.ir).setWidth 6)) (g.read ((rs2 i.ir).setWidth 6)) := by
  have hvalue : ∀ {r : BitVec 6} {csrrc : Bool} {old : BitVec 32}, csrrc = false →
      (Dec.bypass (decContents m.pipe (m.cycle i)).stages csrrc r (m.pipe.registers.read r)
        old).2 = true →
      (Dec.bypass (decContents m.pipe (m.cycle i)).stages csrrc r (m.pipe.registers.read r)
        old).1 = g.read r := by
    rintro r csrrc old rfl hvalid
    exact h.bypass_eq hw hexc hzero hg0 hg hvalid
  refine nextPc_congr (fun hop => ?_) fun hop => ?_
  · obtain ⟨hkind, hcsrrc, hr1, -⟩ := of_leading hop
    obtain ⟨hvalid, -⟩ := valid_of_decPush hx hpush hkind
    obtain ⟨old, hhaz⟩ := haz_eq (hf hkind)
    rw [hhaz] at hvalid ⊢
    rw [← hr1]
    exact hvalue hcsrrc hvalid
  · obtain ⟨hkind, hcsrrc, -, hr2⟩ := of_leading (Or.inr hop)
    obtain ⟨-, hvalid⟩ := valid_of_decPush hx hpush hkind
    obtain ⟨old, hhaz⟩ := haz_eq (hf hkind)
    rw [hhaz] at hvalid ⊢
    rw [← hr2 hop]
    exact hvalue hcsrrc hvalid

end Next

end Backend

end RiVerSoC
