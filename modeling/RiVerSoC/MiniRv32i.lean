/-
The small core executes programs of the base instruction set.

* `Rv32i.step`, `Rv32i.run` — the instruction set as a machine;
* `Rv32i.Behaves` — the program stays within what the small core computes as the instruction set
  has it, and does not change the words that it executes;
* `runs_rv32i` — such a program goes through the registers and the RAM of the instruction set, as
  long as the predictor misses.
-/
import RiVerSoC.MiniInstructions
import RiVerSoC.MiniProgram

namespace RiVerSoC

namespace Mini

open Decode

namespace Rv32i

/-- The instruction at the program counter. -/
def word (h : Hart) : BitVec 32 := h.arch.ram h.pc

/-- Its operands. -/
def operand1 (h : Hart) : BitVec 32 := h.arch.registers.read ((rs1 (word h)).setWidth 6)

def operand2 (h : Hart) : BitVec 32 := h.arch.registers.read ((rs2 (word h)).setWidth 6)

/-- One instruction. -/
def step (h : Hart) : Option Hart :=
  (Rv32i.effect (word h) h.pc h.arch).map fun a =>
    ⟨nextPc (word h) h.pc (operand1 h) (operand2 h), a⟩

/-- The state after `n` instructions. -/
def run (ram : Ram) : ℕ → Option Hart
  | 0 => some (Hart.start ram)
  | n + 1 => (run ram n).bind step

/-- The small core does what the instruction set says: with the value of the destination, and
with the low bit of the target of a `jalr`, which it does not clear. -/
def Regular (h : Hart) : Prop :=
  (rd (word h) = 0 ∨ ¬ Deviates (word h) h.arch) ∧
    (opcode (word h) = 0b1100111 → (operand1 h + immI (word h)).toNat % 2 = 0)

instance (h : Hart) : Decidable (Regular h) := inferInstanceAs (Decidable (_ ∧ _))

/-- The first `n` instructions are regular, and the word of each of them is in the RAM from the
beginning on. -/
def Behaves (ram : Ram) (n : ℕ) : Prop :=
  ∀ k < n, ∃ h, run ram k = some h ∧ (step h).isSome ∧ Regular h ∧
    ∀ j ≤ k, ∀ h', run ram j = some h' → h'.arch.ram h.pc = word h

end Rv32i

/-! ### One instruction -/

section Step

variable {h : Hart} {x : Issued}

theorem jalr_target_even {a imm : BitVec 32} (heven : (a + imm).toNat % 2 = 0) (pc : BitVec 32) :
    pc + (imm + (a - pc)) = (a + imm) &&& ~~~1 := by
  have hsum : pc + (imm + (a - pc)) = a + imm := by bv_omega
  rw [hsum]
  apply BitVec.eq_of_toNat_eq
  rw [toNat_and_not_one]
  omega

/-- The next instruction is that of the instruction set. -/
theorem nextAdr_eq_nextPc (hpc : x.delivered.pc = h.pc)
    (hinstr : x.delivered.instr = Rv32i.word h) (hlegal : (Rv32i.step h).isSome)
    (heven : opcode (Rv32i.word h) = 0b1100111 →
      (Rv32i.operand1 h + immI (Rv32i.word h)).toNat % 2 = 0) :
    x.nextAdr h.arch.registers =
      nextPc (Rv32i.word h) h.pc (Rv32i.operand1 h) (Rv32i.operand2 h) := by
  rw [Issued.nextAdr, hinstr, hpc]
  unfold nextPc Loop.jump Loop.offsetBranch bTypeInst jalrTypeInst jTypeInst
  by_cases hb : opcode (Rv32i.word h) = 0b1100011
  · -- a branch, with a function that has a meaning
    have hf : funct3 (Rv32i.word h) ≠ 2 ∧ funct3 (Rv32i.word h) ≠ 3 := by
      by_contra hno
      have hnone : Rv32i.effect (Rv32i.word h) h.pc h.arch = none := by
        rw [Rv32i.effect, if_neg (by rw [hb]; decide), if_neg (by rw [hb]; decide), if_pos hb]
        exact if_pos (by tauto)
      rw [Rv32i.step, hnone] at hlegal
      exact absurd hlegal Bool.false_ne_true
    have h1 : radr1 (Rv32i.word h) = (rs1 (Rv32i.word h)).setWidth 6 := by
      unfold radr1 bTypeInst
      rw [hb, beq_self_eq_true, Bool.or_true, if_pos rfl]
    have h2 : radr2 (Rv32i.word h) = (rs2 (Rv32i.word h)).setWidth 6 := by
      unfold radr2 rTypeInst iTypeInst bTypeInst
      rw [hb]
      exact if_pos (Bool.or_true _)
    have htaken : branchTaken (decodingInstruction (Rv32i.word h))
        (h.arch.registers.read (radr1 (Rv32i.word h)))
        (h.arch.registers.read (radr2 (Rv32i.word h))) false =
        taken (funct3 (Rv32i.word h)) (Rv32i.operand1 h) (Rv32i.operand2 h) := by
      rw [h1, h2]
      exact branchTaken_eq_taken hb hf _ _ false
    rw [htaken, hb]
    simp
  by_cases hjalr : opcode (Rv32i.word h) = 0b1100111
  · have h1 : radr1 (Rv32i.word h) = (rs1 (Rv32i.word h)).setWidth 6 := by
      unfold radr1 rTypeInst iTypeInst sTypeInst bTypeInst uTypeInst jTypeInst jalrTypeInst
      rw [hjalr]
      rfl
    rw [hjalr, h1]
    exact jalr_target_even (heven hjalr) h.pc
  by_cases hjal : opcode (Rv32i.word h) = 0b1101111
  · rw [hjal]
    rfl
  · have hnot : ¬(opcode (Rv32i.word h) = 0b1100011 ∧
        taken (funct3 (Rv32i.word h)) (Rv32i.operand1 h) (Rv32i.operand2 h) = true) :=
      fun hc => hb hc.1
    rw [beq_false_of_ne hb, beq_false_of_ne hjalr, beq_false_of_ne hjal, if_neg hjal, if_neg hjalr,
      if_neg hnot]
    rfl

/-- An instruction that behaves is executed as the instruction set has it. -/
theorem step_eq (hx0 : h.arch.registers.read 0 = 0) (hpc : x.delivered.pc = h.pc)
    (hread : x.readPc = x.delivered.pc + 4) (hinstr : x.delivered.instr = Rv32i.word h)
    (hlegal : (Rv32i.step h).isSome) (hregular : Rv32i.Regular h) :
    Rv32i.step h = some (h.execute x) := by
  obtain ⟨h', hstep⟩ := Option.isSome_iff_exists.mp hlegal
  have hnext := nextAdr_eq_nextPc hpc hinstr hlegal hregular.2
  rw [Rv32i.step, Option.map_eq_some_iff] at hstep
  obtain ⟨a, heffect, -⟩ := hstep
  rw [Rv32i.step, heffect, Option.map_some, ← hnext]
  rw [← hpc] at heffect
  have hdone : h.arch.execute x = a := by
    by_cases hload : opcode (Rv32i.word h) = 0b0000011
    · exact (execute_iff_load hinstr hload heffect).mpr hregular.1
    · exact (execute_iff_of_not_load hinstr hx0 hread hload heffect).mpr hregular.1
  rw [Hart.execute, hdone]

end Step

/-! ### Programs -/

namespace Machine

section Program

variable {ram : Ram} {l : List Issued} (hfetch : ∀ p x q, l = p ++ x :: q → Fetches ram p x)
  (hbehaves : Rv32i.Behaves ram l.length)

include hfetch hbehaves

/-- The word that was fetched for an instruction is still there when its turn comes. -/
theorem instr_eq {k : ℕ} (hk : k < l.length)
    (hrun : ∀ j ≤ k, Rv32i.run ram j = some ((Hart.start ram).after (l.take j))) :
    l[k].delivered.instr = Rv32i.word ((Hart.start ram).after (l.take k)) := by
  obtain ⟨h, hh, -, -, hword⟩ := hbehaves k hk
  obtain rfl := Option.some.inj ((hrun k (Nat.le_refl k)).symm.trans hh)
  have hsplit : l = l.take k ++ l[k] :: l.drop (k + 1) := by simp
  obtain ⟨hpc, -, p, hp, hinstr⟩ := hfetch _ _ _ hsplit
  have hlen : p.length ≤ k := Nat.le_trans hp.length_le (List.length_take_le k l)
  have hprefix : p = l.take p.length := by
    conv_lhs => rw [List.prefix_iff_eq_take.mp hp, List.take_take, Nat.min_eq_left hlen]
  have hthen := hword p.length hlen _ (hrun p.length hlen)
  rw [← hprefix, Hart.arch_after, ← hpc] at hthen
  exact hinstr.trans hthen

/-- The instructions that the core executes lead through the states of the instruction set. -/
theorem run_eq : ∀ k ≤ l.length,
    Rv32i.run ram k = some ((Hart.start ram).after (l.take k)) := by
  intro k
  -- for all shorter prefixes at once: the word may have been fetched behind any of them
  induction k using Nat.strong_induction_on with
  | _ k ih =>
    intro hk
    cases k with
    | zero => rfl
    | succ k =>
      have hruns : ∀ j ≤ k, Rv32i.run ram j = some ((Hart.start ram).after (l.take j)) :=
        fun j hj => ih j (Nat.lt_succ_of_le hj) (Nat.le_trans hj (Nat.le_of_succ_le hk))
      have hrun := hruns k (Nat.le_refl k)
      have hinstr := instr_eq hfetch hbehaves hk hruns
      obtain ⟨h, hh, hlegal, hregular, -⟩ := hbehaves k hk
      obtain rfl := Option.some.inj (hrun.symm.trans hh)
      have hsplit : l = l.take k ++ l[k] :: l.drop (k + 1) := by simp
      obtain ⟨hpc, hread, -⟩ := hfetch _ _ _ hsplit
      have hx0 : ((Hart.start ram).after (l.take k)).arch.registers.read 0 = 0 := by
        rw [Hart.arch_after, System.read_zero_after]
        rfl
      rw [Rv32i.run, hrun, Option.bind_some, step_eq hx0 hpc hread hinstr hlegal hregular,
        List.take_succ_eq_append_getElem hk, Hart.after_append]
      rfl

/-- The state after a first part of the instructions. -/
theorem run_prefix {p q : List Issued} (hl : p ++ q = l) :
    ∃ h, Rv32i.run ram p.length = some h ∧ h.arch = (Arch.start ram).after p := by
  subst hl
  have hrun := run_eq hfetch hbehaves p.length (by simp)
  rw [List.take_left] at hrun
  exact ⟨_, hrun, Hart.arch_after _ _⟩

end Program

theorem length_le_one {α β : Type*} {f : Fifo β} {g : α → β} {q : List α}
    (h : f.toList = q.map g) : q.length ≤ 1 := by
  rcases System.place_cases h with ⟨rfl, _⟩ | ⟨x, rfl, _⟩
  · exact Nat.zero_le 1
  · exact Nat.le_refl 1

/-- A program that behaves goes, as long as the lookups miss and `fetch_method` runs twice in a
cycle, through the states of the instruction set: the registers are those after the first `n` of
the instructions that have left DEC, of which the last three at most are still under way, and the
RAM is that after the first `n'`.  When the pipeline is empty, both are those after all of them. -/
theorem runs_rv32i (ram : Ram) (es : List Environment)
    (hmiss : Run.Each Unpredicted step (reset ram) es)
    (hbehaves : Rv32i.Behaves ram (Run.collect issued step (reset ram) es).length) :
    let m := Run.after step (reset ram) es
    let l := Run.collect issued step (reset ram) es
    (∀ k (hk : k < l.length), ∃ h, Rv32i.run ram k = some h ∧ l[k].delivered.pc = h.pc ∧
        l[k].delivered.instr = Rv32i.word h) ∧
      ∃ n n' h h', n ≤ n' ∧ n' ≤ l.length ∧ l.length ≤ n + 3 ∧
        Rv32i.run ram n = some h ∧ m.back.pipe.registers = h.arch.registers ∧
        Rv32i.run ram n' = some h' ∧ m.back.ram = h'.arch.ram ∧
        (m.back.depth = 0 → n = l.length) := by
  dsimp only
  have hfetch : ∀ p x q, Run.collect issued step (reset ram) es = p ++ x :: q →
      Fetches ram p x := fun _ _ _ hl => fetches_of_misses ram hmiss hl
  obtain ⟨done, waiting, hl, qw, qm, qe, rfl, hflight⟩ := stands_of_misses ram hmiss
  generalize Run.collect issued step (reset ram) es = l at hfetch hbehaves hl
  constructor
  · intro k hk
    have hruns : ∀ j ≤ k, Rv32i.run ram j = some ((Hart.start ram).after (l.take j)) :=
      fun j hj => run_eq hfetch hbehaves j (Nat.le_trans hj (Nat.le_of_lt hk))
    have hsplit : l = l.take k ++ l[k] :: l.drop (k + 1) := by simp
    exact ⟨_, hruns k (Nat.le_refl k), (hfetch _ _ _ hsplit).1, instr_eq hfetch hbehaves hk hruns⟩
  · obtain ⟨h, hrun, harch⟩ := run_prefix hfetch hbehaves hl
    have hw := length_le_one hflight.wbk
    have hm := length_le_one hflight.mem
    have he := length_le_one hflight.exe
    have hlen := congrArg List.length hl
    simp only [List.length_append] at hlen
    -- the RAM is ahead of the registers by the instructions in WBK and perhaps in MEM
    have hram : ∃ q q', (qw ++ qm ++ qe) = q ++ q' ∧
        (Run.after step (reset ram) es).back.ram = ((Arch.start ram).after (done ++ q)).ram := by
      rcases hflight.ram with hr | hr
      · exact ⟨qw, qm ++ qe, List.append_assoc _ _ _, by rw [Arch.after_append]; exact hr⟩
      · exact ⟨qw ++ qm, qe, rfl, by rw [Arch.after_append]; exact hr⟩
    obtain ⟨q, q', hsplit, hr⟩ := hram
    have hl' : (done ++ q) ++ q' = l := by rw [List.append_assoc, ← hsplit, hl]
    obtain ⟨h', hrun', harch'⟩ := run_prefix hfetch hbehaves hl'
    have hlen' := congrArg List.length hl'
    rw [List.length_append, List.length_append] at hlen'
    refine ⟨done.length, (done ++ q).length, h, h', ?_, ?_, ?_, hrun, ?_, hrun', ?_, ?_⟩
    · rw [List.length_append]
      omega
    · rw [List.length_append]
      omega
    · omega
    · rw [harch]
      exact hflight.registers
    · rw [harch']
      exact hr
    · intro hdepth
      obtain ⟨hexe, hmem, hwbk⟩ := System.empty_of_depth hdepth
      rw [System.eq_nil_of_empty hexe hflight.exe, System.eq_nil_of_empty hmem hflight.mem,
        System.eq_nil_of_empty hwbk hflight.wbk] at hlen
      simpa using hlen

/-- The jump, with 5 in x1. -/
def looping : Hart := ⟨0x10058, ⟨Registers.write (Vector.replicate 33 0) 1 5, loopRam⟩⟩

theorem run_loop (k : ℕ) : Rv32i.run loopRam (k + 1) = some looping := by
  induction k with
  | zero => rfl
  | succ k ih =>
    rw [Rv32i.run, ih]
    rfl

theorem behaves_loop (n : ℕ) : Rv32i.Behaves loopRam n := by
  have hram : ∀ j h', Rv32i.run loopRam j = some h' → h'.arch.ram = loopRam := by
    intro j h' hrun
    cases j with
    | zero => rw [← Option.some.inj hrun]; rfl
    | succ j => rw [← Option.some.inj ((run_loop j).symm.trans hrun)]; rfl
  intro k _
  cases k with
  | zero =>
    refine ⟨_, rfl, rfl, by decide +kernel, fun j _ h' hrun => ?_⟩
    rw [hram j h' hrun]
    rfl
  | succ k =>
    refine ⟨_, run_loop k, rfl, by decide +kernel, fun j _ h' hrun => ?_⟩
    rw [hram j h' hrun]
    rfl

theorem runs_rv32i_loop :
    ∃ n h, Rv32i.run loopRam n = some h ∧
      (Run.after step (reset loopRam) (List.replicate 9 answering)).back.pipe.registers =
        h.arch.registers := by
  obtain ⟨-, n, -, h, -, -, -, -, hrun, hregs, -⟩ :=
    runs_rv32i loopRam (List.replicate 9 answering) (by decide +kernel) (behaves_loop _)
  exact ⟨n, h, hrun, hregs⟩

end Machine

end Mini

end RiVerSoC
