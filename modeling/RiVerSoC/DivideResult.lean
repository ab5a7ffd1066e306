/-
The result of one division.

DEC issues `div`, `divu`, `rem` and `remu` with the commands 1, 2, 3 and 0.  The
division is presented to an idle divider and held: one cycle prepares the magnitudes,
32 cycles subtract and shift, none of them for a divisor that is 0, and `DONE_SE`
rises in the next one.  There `RET`, on the registers and the sign signals, is the
result of the instruction set, whatever the divider did before.

* `completes` — the cycles of a division and what the registers hold in the last one;
* `issued_division` — what DEC issues for the four instructions;
* `ret_issued_division` — the two together.

`dividerResOutput` plays no part: no method reads it (`silent_clockCycle`), and so the
run that starts with a fresh output stands for all of them.
-/
import RiVerSoC.Decode
import RiVerSoC.Division

namespace RiVerSoC

namespace Diviseur

/-- `START_SE` is low in the state `init`. -/
structure Idle (c : Sig) : Prop where
  upToDate : UpToDate c
  state : c.reg.currentState = 0
  start : c.startSe = false

/-- The signals when the inputs have been held for a number of cycles. -/
def held (c : Sig) (i : Inputs) : ℕ → Sig
  | 0 => c
  | n + 1 => clockCycle (held c i n) i

/-- A division with `steps` subtractions, presented from the first cycle on. -/
structure Completes (c : Sig) (i : Inputs) (steps : ℕ) : Prop where
  started : ∀ n ≤ steps, (held c i (n + 1)).startSe = true ∧ (held c i (n + 1)).mae.doneSe = false
  subtracts : ∀ n ≤ steps, (held c i (n + 1)).reg.currentState = 1 ↔ 1 ≤ n
  done : (held c i (steps + 2)).mae.doneSe = true

/-- RV32M, by the function of the instruction. -/
def rv32m (f : BitVec 3) (a b : BitVec 32) : BitVec 32 :=
  let overflow := a = BitVec.intMin 32 ∧ b = BitVec.allOnes 32
  if f = 0b100 then  -- div
    if b = 0 then BitVec.allOnes 32
    else if overflow then BitVec.intMin 32
    else BitVec.ofInt 32 (a.toInt.tdiv b.toInt)
  else if f = 0b101 then  -- divu
    if b = 0 then BitVec.allOnes 32 else BitVec.ofNat 32 (a.toNat / b.toNat)
  else if f = 0b110 then  -- rem
    if b = 0 then a
    else if overflow then 0
    else BitVec.ofInt 32 (a.toInt.tmod b.toInt)
  else if b = 0 then a else BitVec.ofNat 32 (a.toNat % b.toNat)  -- remu

/-! ### The output -/

/-- The signals without the output. -/
def Sig.silent (c : Sig) : Sig := { c with dividerResOutput := 0 }

/-- The output that `RET` would write now. -/
def Sig.refreshed (c : Sig) : Sig := { c with dividerResOutput := retMethod.body c }

theorem silent_delta {a a' b b' : Sig} (ha : a.silent = a'.silent) (hb : b.silent = b'.silent) :
    (delta a b).silent = (delta a' b').silent := by
  have hdelta : ∀ a b : Sig, (delta a b).silent = (delta a.silent b.silent).silent :=
    fun _ _ => rfl
  rw [hdelta, ha, hb, ← hdelta]

theorem silent_clockCycle {c c' : Sig} (h : c.silent = c'.silent) (i : Inputs) :
    (clockCycle c i).silent = (clockCycle c' i).silent := by
  have hedge : (clockEdge c i).silent = (clockEdge c' i).silent := by
    have hsilent : ∀ c : Sig, (clockEdge c i).silent = (clockEdge c.silent i).silent :=
      fun _ => rfl
    rw [hsilent, h, ← hsilent]
  have hsettling : ∀ n, (settling c i n).prev.silent = (settling c' i n).prev.silent ∧
      (settling c i n).cur.silent = (settling c' i n).cur.silent := by
    intro n
    induction n with
    | zero => exact ⟨h, hedge⟩
    | succ n ih =>
      rw [settling, settling, Delta.run_succ', Delta.run_succ']
      exact ⟨ih.2, silent_delta ih.1 ih.2⟩
  exact (hsettling 6).2

theorem silent_held {c c' : Sig} (h : c.silent = c'.silent) (i : Inputs) (n : ℕ) :
    (held c i n).silent = (held c' i n).silent := by
  induction n with
  | zero => exact h
  | succ n ih => exact silent_clockCycle ih i

/-- What does not show the output is the same on both runs. -/
theorem held_eq_of_silent {c c' : Sig} (h : c.silent = c'.silent) (i : Inputs) (n : ℕ) :
    (held c i n).reg = (held c' i n).reg ∧ (held c i n).mae = (held c' i n).mae ∧
      (held c i n).startSe = (held c' i n).startSe ∧
      retMethod.body (held c i n) = retMethod.body (held c' i n) := by
  have hsilent := silent_held h i n
  have hread : ∀ {α : Type} (f : Sig → α), (∀ c, f c = f c.silent) →
      f (held c i n) = f (held c' i n) := by
    intro α f hf
    rw [hf, hsilent, ← hf]
  exact ⟨hread _ fun _ => rfl, hread _ fun _ => rfl, hread _ fun _ => rfl, hread _ fun _ => rfl⟩

theorem Completes.of_silent {c c' : Sig} (h : c.silent = c'.silent) {i : Inputs} {steps : ℕ}
    (hc : Completes c' i steps) : Completes c i steps where
  started n hn := by
    obtain ⟨-, hmae, hstart, -⟩ := held_eq_of_silent h i (n + 1)
    rw [hmae, hstart]
    exact hc.started n hn
  subtracts n hn := by
    obtain ⟨hreg, -⟩ := held_eq_of_silent h i (n + 1)
    rw [hreg]
    exact hc.subtracts n hn
  done := by
    obtain ⟨-, hmae, -⟩ := held_eq_of_silent h i (steps + 2)
    rw [hmae]
    exact hc.done

/-! ### The cycles of a division -/

section Cycles

variable {c : Sig} {d : Division} {ρ : Rest}

/-- An idle divider rests on whatever its last division left. -/
theorem ready_of_idle (h : Idle c) :
    Ready c ⟨c.mae.quotientSe, c.mae.reminderSe, c.mae.quotientSignSe, c.mae.reminderSignSe⟩ := by
  have hmae : c.mae = maeOutput c.inp c.reg c.startSe c.mae := h.upToDate.mae
  have hnext : c.nextState = stateTransition c.inp c.reg c.startSe c.nextState :=
    h.upToDate.transition
  refine ⟨h.upToDate, h.start, ?_, ?_, rfl, rfl, rfl, rfl⟩
  · rw [hnext, stateTransition, if_pos h.state, h.start]
    rfl
  · rw [hmae, maeOutput, if_pos h.state, h.start]
    rfl

theorem idle_reset : Idle reset := ⟨ready_reset.upToDate, rfl, rfl⟩

theorem idle_refreshed (h : Idle c) : Idle c.refreshed :=
  ⟨⟨h.upToDate.transition, h.upToDate.mae, h.upToDate.manage⟩, h.state, h.start⟩

theorem not_one_of_zero {s : BitVec 3} (h : s = 0) : ¬ s = 1 := by
  rw [h]
  decide

/-- The cycle in which the division is presented, and then one cycle for each
subtraction. -/
theorem held_busy (h : Ready c ρ) (hf : retMethod.Fresh c) (hop2 : d.op2 ≠ 0) {k : ℕ}
    (hk : k ≤ 31) : Busy (held c (present d) (k + 2)) d ρ k := by
  induction k with
  | zero => exact busy_of_started (started_of_ready h hf d) hop2
  | succ k ih => exact busy_succ (ih (by omega)) (by omega) (divisor_pos hop2)

theorem completes_of_ne_zero (h : Ready c ρ) (hf : retMethod.Fresh c) (hop2 : d.op2 ≠ 0) :
    Completes c (present d) 32 ∧
      retMethod.body (held c (present d) 34) = d.result := by
  have hstarted := started_of_ready h hf d
  have hbusy : ∀ k, k ≤ 31 → Busy (held c (present d) (k + 2)) d ρ k :=
    fun k hk => held_busy h hf hop2 hk
  obtain ⟨hfinished, hcomputes⟩ := finished_of_busy (hbusy 31 (Nat.le_refl 31)) (divisor_pos hop2)
  -- cycle 0 presents the operands, and cycle `k + 1` begins subtraction `k`
  refine ⟨⟨?_, ?_, hfinished.done⟩, ?_⟩
  · intro n hn
    rcases Nat.eq_zero_or_pos n with rfl | hpos
    · exact ⟨hstarted.start, hstarted.done⟩
    · obtain ⟨k, rfl⟩ := Nat.exists_eq_add_of_le' hpos
      have hb := hbusy k (by omega)
      exact ⟨hb.start, hb.done⟩
  · intro n hn
    rcases Nat.eq_zero_or_pos n with rfl | hpos
    · exact iff_of_false (not_one_of_zero hstarted.state) (by omega)
    · obtain ⟨k, rfl⟩ := Nat.exists_eq_add_of_le' hpos
      exact iff_of_true (hbusy k (by omega)).state hpos
  · have hquo := hcomputes.quotient
    have hrem := hcomputes.reminder
    rw [Nat.sub_self, Nat.pow_zero, Nat.mul_one] at hquo hrem
    change retMethod.body (clockCycle (held c (present d) 33) (present d)) = d.result
    simp only [retMethod, hcomputes.inp, hcomputes.quotientSign, hcomputes.reminderSign]
    exact ret_eq_result hop2 hquo hrem

/-- A division by 0 does not leave the state `init`. -/
theorem completes_of_eq_zero (h : Ready c ρ) (hf : retMethod.Fresh c) (hop2 : d.op2 = 0) :
    Completes c (present d) 0 ∧
      retMethod.body (held c (present d) 2) = d.result := by
  have hstarted := started_of_ready h hf d
  have hnext : (held c (present d) 1).nextState = 0 := by
    rw [show held c (present d) 1 = clockCycle c (present d) from rfl, hstarted.nextState_eq,
      if_neg (not_not.mpr hop2)]
  obtain ⟨-, -, hquo, hrem, hcpt⟩ := hstarted.mae_eq_zero hop2
  have hfinished := ready_of_finish hstarted.upToDate hstarted.inp hstarted.start hstarted.done
    hnext hcpt
  refine ⟨⟨?_, ?_, hfinished.done⟩, ?_⟩
  · intro n hn
    obtain rfl : n = 0 := by omega
    exact ⟨hstarted.start, hstarted.done⟩
  · intro n hn
    obtain rfl : n = 0 := by omega
    exact iff_of_false (not_one_of_zero hstarted.state) (by omega)
  · have hqs := hfinished.quotientSign
    have hrs := hfinished.reminderSign
    rw [Division.rest, if_neg (not_not.mpr hop2)] at hqs hrs
    change retMethod.body (clockCycle (clockCycle c (present d)) (present d)) = d.result
    have hreg : (clockCycle (clockCycle c (present d)) (present d)).reg =
        (clockEdge (clockCycle c (present d)) (present d)).reg := by
      rw [clockCycle_eq hstarted.upToDate (listens_of_inp hstarted.inp)]
      rfl
    simp only [retMethod, hfinished.inp, hqs, hrs, hreg, clockEdge, hquo, hrem]
    exact ret_eq_result_zero hop2

/-- A division presented to an idle divider. -/
theorem completes (h : Idle c) (d : Division) :
    Completes c (present d) (if d.op2 = 0 then 0 else 32) ∧
      retMethod.body (held c (present d) ((if d.op2 = 0 then 0 else 32) + 2)) = d.result := by
  -- `RET` may show an old result, which no other method reads
  have hsilent : c.silent = c.refreshed.silent := rfl
  have hready := ready_of_idle (idle_refreshed h)
  obtain ⟨-, -, -, hret⟩ :=
    held_eq_of_silent hsilent (present d) ((if d.op2 = 0 then 0 else 32) + 2)
  rw [hret]
  split_ifs with hop2
  · obtain ⟨hcompletes, hresult⟩ := completes_of_eq_zero hready rfl hop2
    exact ⟨hcompletes.of_silent hsilent, hresult⟩
  · obtain ⟨hcompletes, hresult⟩ := completes_of_ne_zero hready rfl hop2
    exact ⟨hcompletes.of_silent hsilent, hresult⟩

end Cycles

/-! ### The four instructions -/

theorem result_eq_rv32m {f : BitVec 3} {cmd : BitVec 2} (a b : BitVec 32)
    (h : f = 0b100 ∧ cmd = 1 ∨ f = 0b101 ∧ cmd = 2 ∨ f = 0b110 ∧ cmd = 3 ∨ f = 0b111 ∧ cmd = 0) :
    Division.result ⟨a, b, cmd⟩ = rv32m f a b := by
  have hsdiv : a.sdiv b = BitVec.ofInt 32 (a.toInt.tdiv b.toInt) := by
    rw [← BitVec.toInt_inj, BitVec.toInt_sdiv, BitVec.toInt_ofInt]
  have hsrem : a.srem b = BitVec.ofInt 32 (a.toInt.tmod b.toInt) := by
    rw [← BitVec.toInt_srem, BitVec.ofInt_toInt]
  have hudiv : a / b = BitVec.ofNat 32 (a.toNat / b.toNat) := by
    rw [← BitVec.toNat_udiv, BitVec.ofNat_toNat, BitVec.setWidth_eq]
  have humod : a % b = BitVec.ofNat 32 (a.toNat % b.toNat) := by
    rw [← BitVec.toNat_umod, BitVec.ofNat_toNat, BitVec.setWidth_eq]
  rcases h with ⟨rfl, rfl⟩ | ⟨rfl, rfl⟩ | ⟨rfl, rfl⟩ | ⟨rfl, rfl⟩
  · change (if b = 0 then BitVec.allOnes 32 else a.sdiv b) = if b = 0 then BitVec.allOnes 32 else
      if a = BitVec.intMin 32 ∧ b = BitVec.allOnes 32 then _ else _
    -- the quotient that does not fit is the only one with a special case
    split_ifs with hb hover
    · rfl
    · obtain ⟨rfl, rfl⟩ := hover
      exact BitVec.intMin_sdiv_neg_one
    · exact hsdiv
  · change (if b = 0 then BitVec.allOnes 32 else a / b) = if b = 0 then _ else _
    rw [hudiv]
  · change (if b = 0 then a else a.srem b) = if b = 0 then a else
      if a = BitVec.intMin 32 ∧ b = BitVec.allOnes 32 then _ else _
    split_ifs with hb hover
    · rfl
    · obtain ⟨rfl, rfl⟩ := hover
      decide
    · exact hsrem
  · change (if b = 0 then a else a % b) = if b = 0 then _ else _
    rw [humod]

open Decode

/-- DEC issues one command for each of the four functions. -/
theorem command_of_divInst {ir : BitVec 32} (h : (decodingInstruction ir).divInst = true) :
    let cmd := command (decodingInstruction ir)
    funct3 ir = 0b100 ∧ cmd = 1 ∨ funct3 ir = 0b101 ∧ cmd = 2 ∨ funct3 ir = 0b110 ∧ cmd = 3 ∨
      funct3 ir = 0b111 ∧ cmd = 0 := by
  have hop := codes_of_divInst h
  -- the function of the word is all that is left
  revert h
  simp only [command, Insts.divInst, decodingInstruction, has3, has7, hop]
  clear hop
  generalize funct3 ir = f
  revert f
  decide

/-- What DEC sends to EXE for the four instructions. -/
theorem issued_division {ir : BitVec 32} (h : (decodingInstruction ir).divInst = true)
    (s : Sources) (u : Uninit) (old : Operation) :
    let o := postRegReadDecoding ir (decodingInstructionType ir) (decodingInstruction ir) s u old
    o.selectTypeOperations = 0b1000 ∧ o.exeCmd = command (decodingInstruction ir) ∧
      o.op1 = s.rdata1 ∧ o.op2 = s.rdata2 := by
  have hm := m_of_divInst h
  obtain ⟨f, hf⟩ := exists_format ir
  rw [hf] at hm ⊢
  cases f with
  | m => exact ⟨unit_eq_eight.mpr h, rfl, rfl, rfl⟩
  | r | i | s | b | u | j | jalr | system | other => exact absurd hm (by decide)

/-- Every division that DEC issues, presented to an idle divider and held, takes 32
subtractions, or none by 0, and has in its `DONE_SE` cycle the result of RV32M. -/
theorem ret_issued_division {c : Sig} (hidle : Idle c) {ir : BitVec 32}
    (hdiv : (decodingInstruction ir).divInst = true) (s : Sources) (u : Uninit)
    (old : Operation) :
    let o := postRegReadDecoding ir (decodingInstructionType ir) (decodingInstruction ir) s u old
    let i : Inputs := ⟨o.op1, o.op2, o.exeCmd, o.selectTypeOperations, false⟩
    let steps := if s.rdata2 = 0 then 0 else 32
    Completes c i steps ∧
      retMethod.body (held c i (steps + 2)) = rv32m (funct3 ir) s.rdata1 s.rdata2 := by
  obtain ⟨hunit, hcmd, hop1, hop2⟩ := issued_division hdiv s u old
  dsimp only
  rw [hunit, hcmd, hop1, hop2]
  rw [← result_eq_rv32m s.rdata1 s.rdata2 (command_of_divInst hdiv)]
  exact completes hidle ⟨s.rdata1, s.rdata2, command (decodingInstruction ir)⟩

/-- `div x3, x1, x2` after reset, on the smallest number and -1. -/
theorem ret_issued_division_overflow :
    let s : Sources := { (default : Sources) with rdata1 := BitVec.intMin 32, rdata2 := -1 }
    let o := postRegReadDecoding 0x0220C1B3 (decodingInstructionType 0x0220C1B3)
      (decodingInstruction 0x0220C1B3) s default default
    let i : Inputs := ⟨o.op1, o.op2, o.exeCmd, o.selectTypeOperations, false⟩
    Completes reset i 32 ∧ retMethod.body (held reset i 34) = BitVec.intMin 32 :=
  ret_issued_division idle_reset
    (show (decodingInstruction 0x0220C1B3).divInst = true by decide) _ default default

end Diviseur

end RiVerSoC
