/-
Sequences of divisions.

A division is presented from the cycle in which EXE holds it and held until
`DONE_SE`; any number of cycles without a division may precede it.  Between two
divisions the registers rest on the magnitudes that the first one left
(`Ready`), a started division counts through `Busy 0 … Busy 31`, and the cycle in
which `DONE_SE` is raised is the first one with the registers of the result.

* `divide_spec` — every division reaches its `DONE_SE` cycle, with the quotient and
  the remainder in the registers, and leaves the divider ready;
* `results_iff` — all results of a sequence are right exactly when no division
  follows one that leaves `RET` asleep with the wrong sign.
-/
import Mathlib.Data.List.Chain
import RiVerSoC.Diviseur
import RiVerSoC.RestoringDivision
import RiVerSoC.Run

namespace RiVerSoC

namespace Diviseur

/-- A division instruction. -/
structure Division where
  op1 : BitVec 32
  op2 : BitVec 32
  cmd : BitVec 2
deriving DecidableEq, Repr

/-- The result that RV32M defines. -/
def Division.result (d : Division) : BitVec 32 :=
  if d.cmd = 1 then if d.op2 = 0 then BitVec.allOnes 32 else d.op1.sdiv d.op2  -- div
  else if d.cmd = 2 then if d.op2 = 0 then BitVec.allOnes 32 else d.op1 / d.op2  -- divu
  else if d.cmd = 3 then if d.op2 = 0 then d.op1 else d.op1.srem d.op2  -- rem
  else if d.op2 = 0 then d.op1 else d.op1 % d.op2  -- remu

/-- The inputs while EXE holds the division. -/
def present (d : Division) : Inputs := ⟨d.op1, d.op2, d.cmd, 0b1000, false⟩

/-- The inputs of a cycle in which EXE holds no division. -/
abbrev IdleInputs := { i : Inputs // manageDivider i false = false }

/-- The inputs `i` are held until `DONE_SE`, at most `n` cycles. -/
def hold : ℕ → Sig → Inputs → Sig
  | 0, c, _ => c
  | n + 1, c, i =>
    if (clockCycle c i).mae.doneSe then clockCycle c i else hold n (clockCycle c i) i

/-- A division after some idle cycles, up to its `DONE_SE` cycle. -/
def divide (c : Sig) (item : List IdleInputs × Division) : Sig :=
  hold 40 (Run.after (fun c (i : IdleInputs) => clockCycle c i.1) c item.1) (present item.2)

/-! ### The divider at rest -/

/-- What a division leaves in the registers and on the sign signals. -/
structure Rest where
  quotient : BitVec 32
  reminder : BitVec 64
  quotientSign : Bool
  reminderSign : Bool

/-- The magnitude of the dividend. -/
def Division.dividend (d : Division) : BitVec 32 := magnitude d.cmd d.op1

/-- The magnitude of the divisor. -/
def Division.divisor (d : Division) : BitVec 32 := magnitude d.cmd d.op2

/-- The activation of `mae_output` that starts the division is repeated in its
`DONE_SE` cycle, before `START_SE` falls. -/
def Division.rest (d : Division) : Rest :=
  if d.op2 ≠ 0 then
    ⟨0, d.dividend.setWidth 64, quotientSign (present d), reminderSign (present d)⟩
  else ⟨0xFFFFFFFF, d.op1.setWidth 64, false, false⟩

/-- The signals between two divisions, or in the `DONE_SE` cycle of the first. -/
structure Ready (c : Sig) (ρ : Rest) : Prop where
  upToDate : UpToDate c
  start : c.startSe = false
  next : c.nextState = 0
  cpt : c.mae.shiftCptSe = 0
  quotient : c.mae.quotientSe = ρ.quotient
  reminder : c.mae.reminderSe = ρ.reminder
  quotientSign : c.mae.quotientSignSe = ρ.quotientSign
  reminderSign : c.mae.reminderSignSe = ρ.reminderSign

theorem listens_of_ready {c : Sig} {ρ : Rest} (h : Ready c ρ) (i : Inputs) :
    Listens c (clockEdge c i) := .inl h.start

theorem ready_reset : Ready reset ⟨0, 0, false, false⟩ where
  upToDate := ⟨rfl, rfl, rfl⟩
  start := rfl
  next := rfl
  cpt := rfl
  quotient := rfl
  reminder := rfl
  quotientSign := rfl
  reminderSign := rfl

/-- After a cycle that found `RET` up to date, the output is the value of `RET` for
the new registers and the old signs. -/
theorem retCycle_of_fresh {c : Sig} (h : retMethod.Fresh c) (i : Inputs) :
    retCycle c i =
      ret i.cmd c.mae.quotientSe c.mae.reminderSe c.mae.quotientSignSe c.mae.reminderSignSe := by
  by_cases hw : retMethod.woken c (clockEdge c i)
  · exact if_pos hw
  · rw [retCycle, if_neg hw, show c.dividerResOutput = retMethod.body c from h]
    simp only [retMethod, not_or, not_not] at hw
    obtain ⟨hrem, hquo, hcmd⟩ := hw
    simp only [retMethod, hrem, hquo, hcmd]
    rfl

/-- In a cycle that keeps `START_SE` low, `mae_output` only clears the counter. -/
theorem maeCycle_idle {c : Sig} {i : Inputs} (hnext : c.nextState = 0) (h0 : c.startSe = false)
    (h1 : start₁ c i = false) (h2 : start₂ c i = false) :
    maeCycle c i =
      { c.mae with busySe := false, shiftCptSe := 0, doneSe := c.mae.shiftCptSe == 32 } := by
  have hstate : (clockEdge c i).reg.currentState = 0 := hnext
  simp only [maeCycle, maeOutput, hstate, h0, h1, h2, if_true]
  rfl

theorem ready_idle {c : Sig} {ρ : Rest} (h : Ready c ρ) (i : IdleInputs) :
    Ready (clockCycle c i.1) ρ := by
  have hl := listens_of_ready h i.1
  have hidle : ∀ done, manageDivider i.1 done = false := by
    intro done
    have hi := i.2
    unfold manageDivider at hi ⊢
    cases done <;> simp_all
  have hmae : maeCycle c i.1 =
      { c.mae with busySe := false, shiftCptSe := 0, doneSe := c.mae.shiftCptSe == 32 } :=
    maeCycle_idle h.next h.start (hidle _) (hidle _)
  have hupToDate := fresh_clockCycle h.upToDate hl
  rw [clockCycle_eq h.upToDate hl] at hupToDate ⊢
  refine ⟨hupToDate, hidle _, ?_, ?_, ?_, ?_, ?_, ?_⟩
  · have hstate : (clockEdge c i.1).reg.currentState = 0 := h.next
    simp only [cycleResult, stateTransition, hstate, show start₂ c i.1 = false from hidle _]
    rfl
  all_goals simp only [cycleResult, hmae, h.quotient, h.reminder, h.quotientSign, h.reminderSign]

theorem fresh_idle {c : Sig} {ρ : Rest} (h : Ready c ρ) (hf : retMethod.Fresh c)
    (i : IdleInputs) : retMethod.Fresh (clockCycle c i.1) := by
  have hr := ready_idle h i
  have hqs := hr.quotientSign
  have hrs := hr.reminderSign
  rw [clockCycle_eq h.upToDate (listens_of_ready h i.1)] at hqs hrs ⊢
  change retCycle c i.1 = ret i.1.cmd c.mae.quotientSe c.mae.reminderSe _ _
  rw [hqs, hrs, retCycle_of_fresh hf, h.quotientSign, h.reminderSign]

/-! ### A division -/

/-- The cycle in which a division is presented: the registers still rest. -/
structure Started (c : Sig) (d : Division) (ρ : Rest) : Prop where
  upToDate : UpToDate c
  inp : c.inp = present d
  start : c.startSe = true
  state : c.reg.currentState = 0
  done : c.mae.doneSe = false
  quotient : c.reg.quotientRe = ρ.quotient
  reminder : c.reg.reminderRe = ρ.reminder
  out : c.dividerResOutput = ret d.cmd ρ.quotient ρ.reminder ρ.quotientSign ρ.reminderSign

theorem started_of_ready {c : Sig} {ρ : Rest} (h : Ready c ρ) (hf : retMethod.Fresh c)
    (d : Division) : Started (clockCycle c (present d)) d ρ := by
  have hl := listens_of_ready h (present d)
  have hupToDate := fresh_clockCycle h.upToDate hl
  have hdone : (if c.nextState = 0 then c.mae.shiftCptSe == 32 else c.mae.doneSe) = false := by
    rw [if_pos h.next, h.cpt]
    rfl
  have hout := retCycle_of_fresh hf (present d)
  rw [h.quotient, h.reminder, h.quotientSign, h.reminderSign] at hout
  rw [clockCycle_eq h.upToDate hl] at hupToDate ⊢
  refine ⟨hupToDate, rfl, ?_, h.next, ?_, h.quotient, h.reminder, hout⟩
  · change start₂ c (present d) = true
    rw [start₂, hdone]
    rfl
  · exact (maeCycle_doneSe c (present d)).trans hdone

namespace Started

variable {c : Sig} {d : Division} {ρ : Rest}

/-- What `mae_output` has prepared for a divisor that is not 0. -/
theorem mae_eq (h : Started c d ρ) (hop2 : d.op2 ≠ 0) :
    c.mae =
      { quotientSignSe := quotientSign (present d)
        reminderSignSe := reminderSign (present d)
        divisorSe := d.divisor.setWidth 64 <<< 31
        quotientSe := 0
        reminderSe := d.dividend.setWidth 64
        busySe := true
        doneSe := false
        shiftCptSe := 0 } := by
  have hmae : c.mae = maeOutput c.inp c.reg c.startSe c.mae := h.upToDate.mae
  have hdone := h.done
  rw [hmae] at hdone ⊢
  rw [h.inp, h.start] at hdone ⊢
  simp only [maeOutput, h.state, if_true, show (present d).op2 = d.op2 from rfl, ne_eq, hop2,
    not_false_eq_true] at hdone ⊢
  rw [hdone]
  rfl

/-- What `mae_output` has prepared for a division by 0. -/
theorem mae_eq_zero (h : Started c d ρ) (hop2 : d.op2 = 0) :
    c.mae.quotientSignSe = false ∧ c.mae.reminderSignSe = false ∧
      c.mae.quotientSe = 0xFFFFFFFF ∧ c.mae.reminderSe = d.op1.setWidth 64 ∧
      c.mae.shiftCptSe = 32 := by
  have hmae : c.mae = maeOutput c.inp c.reg c.startSe c.mae := h.upToDate.mae
  rw [hmae, h.inp, h.start]
  simp [maeOutput, h.state, present, hop2]

theorem nextState_eq (h : Started c d ρ) :
    c.nextState = if d.op2 ≠ 0 then 1 else 0 := by
  have hnext : c.nextState = stateTransition c.inp c.reg c.startSe c.nextState :=
    h.upToDate.transition
  rw [hnext, h.inp, h.start]
  simp [stateTransition, h.state, present]

end Started

/-- The registers hold the quotient and the remainder by the divisor times
`2 ^ (32 - k)`, and `RET` has slept as long as these are the values on which the
divider rested. -/
structure Computes (c : Sig) (d : Division) (ρ : Rest) (k : ℕ) : Prop where
  upToDate : UpToDate c
  inp : c.inp = present d
  quotient : c.reg.quotientRe.toNat = d.dividend.toNat / (d.divisor.toNat * 2 ^ (32 - k))
  reminder : c.reg.reminderRe.toNat = d.dividend.toNat % (d.divisor.toNat * 2 ^ (32 - k))
  quotientSign : c.mae.quotientSignSe = quotientSign (present d)
  reminderSign : c.mae.reminderSignSe = reminderSign (present d)
  out : c.dividerResOutput =
    if ρ.quotient = c.reg.quotientRe ∧ ρ.reminder = c.reg.reminderRe ∧ c.reg.quotientRe = 0#32 then
      ret d.cmd ρ.quotient ρ.reminder ρ.quotientSign ρ.reminderSign
    else retMethod.body c

/-- A division in its `k`-th subtraction cycle. -/
structure Busy (c : Sig) (d : Division) (ρ : Rest) (k : ℕ) : Prop extends
    Computes c d ρ k where
  le : k ≤ 31
  start : c.startSe = true
  state : c.reg.currentState = 1
  done : c.mae.doneSe = false
  cpt : c.reg.shiftCptRe = BitVec.ofNat 6 k
  divisor : c.reg.divisorRe.toNat = d.divisor.toNat * 2 ^ (31 - k)
  latched : c.reg.reminderRe < c.reg.divisorRe → c.mae.reminderSe = c.reg.reminderRe

/-- The `DONE_SE` cycle of a division. -/
structure Finished (c : Sig) (d : Division) : Prop extends Ready c d.rest where
  inp : c.inp = present d
  done : c.mae.doneSe = true

namespace Busy

variable {c : Sig} {d : Division} {ρ : Rest} {k : ℕ}

theorem toNat_cpt (h : Busy c d ρ k) : c.reg.shiftCptRe.toNat = k := by
  rw [h.cpt, BitVec.toNat_ofNat]
  exact Nat.mod_eq_of_lt (by have := h.le; omega)

theorem cpt_le (h : Busy c d ρ k) : c.reg.shiftCptRe ≤ 31 := by
  rw [BitVec.le_def, h.toNat_cpt]
  exact h.le

theorem mae_fresh (h : Busy c d ρ k) : c.mae =
    if c.reg.reminderRe < c.reg.divisorRe then
      { c.mae with
        divisorSe := c.reg.divisorRe >>> 1
        quotientSe := (c.reg.quotientRe.setWidth 64 <<< 1).setWidth 32
        shiftCptSe := c.reg.shiftCptRe + 1 }
    else
      { c.mae with
        reminderSe := c.reg.reminderRe - c.reg.divisorRe
        quotientSe := (c.reg.quotientRe.setWidth 64 <<< 1 ||| 1).setWidth 32
        divisorSe := c.reg.divisorRe >>> 1
        shiftCptSe := c.reg.shiftCptRe + 1 } := by
  have hmae : c.mae = maeOutput c.inp c.reg c.startSe c.mae := h.upToDate.mae
  have h0 : ¬ c.reg.currentState = 0 := by
    rw [h.state]
    decide
  rw [maeOutput, if_neg h0, if_pos h.state, if_pos h.cpt_le] at hmae
  exact hmae

theorem nextState_eq (h : Busy c d ρ k) : c.nextState = if k = 31 then 0 else 1 := by
  have hnext : c.nextState = stateTransition c.inp c.reg c.startSe c.nextState :=
    h.upToDate.transition
  have h0 : ¬ c.reg.currentState = 0 := by
    rw [h.state]
    decide
  have hcpt : c.reg.shiftCptRe = 31 ↔ k = 31 := by
    rw [← BitVec.toNat_inj, h.toNat_cpt]
    rfl
  rw [hnext, stateTransition, if_neg h0, if_pos h.state]
  simp only [hcpt]
  rfl

/-- A shifted quotient, as the machine computes it. -/
theorem toNat_shift (x : BitVec 32) (hx : 2 * x.toNat < 2 ^ 32) :
    ((x.setWidth 64 <<< 1).setWidth 32).toNat = 2 * x.toNat := by
  simp only [BitVec.toNat_setWidth, BitVec.toNat_shiftLeft, Nat.shiftLeft_eq]
  omega

theorem toNat_shift_or_one (x : BitVec 32) (hx : 2 * x.toNat + 1 < 2 ^ 32) :
    ((x.setWidth 64 <<< 1 ||| 1).setWidth 32).toNat = 2 * x.toNat + 1 := by
  have hshift : (x.setWidth 64 <<< 1).toNat = x.toNat <<< 1 := by
    simp only [BitVec.toNat_setWidth, BitVec.toNat_shiftLeft, Nat.shiftLeft_eq]
    omega
  rw [BitVec.toNat_setWidth, BitVec.toNat_or, hshift, show (1 : BitVec 64).toNat = 1 from rfl,
    ← Nat.shiftLeft_add_eq_or_of_lt (by decide), Nat.shiftLeft_eq]
  omega

/-- The next subtraction: the weight goes down by one. -/
theorem mae_spec (h : Busy c d ρ k) (hpos : 0 < d.divisor.toNat) :
    c.mae.shiftCptSe = BitVec.ofNat 6 (k + 1) ∧
      c.mae.divisorSe = c.reg.divisorRe >>> 1 ∧
      c.mae.quotientSe.toNat = d.dividend.toNat / (d.divisor.toNat * 2 ^ (31 - k)) ∧
      c.mae.reminderSe.toNat = d.dividend.toNat % (d.divisor.toNat * 2 ^ (31 - k)) ∧
      (c.mae.quotientSe = 0#32 →
        c.reg.quotientRe = 0#32 ∧ c.mae.reminderSe = c.reg.reminderRe) := by
  have hmae := h.mae_fresh
  have hk := h.le
  have hm : 0 < d.divisor.toNat * 2 ^ (31 - k) := Nat.mul_pos hpos (Nat.two_pow_pos _)
  have hdouble : d.divisor.toNat * 2 ^ (32 - k) = 2 * (d.divisor.toNat * 2 ^ (31 - k)) := by
    rw [show 32 - k = 31 - k + 1 by omega, Nat.pow_succ]
    ring
  have hq := h.quotient
  have hr := h.reminder
  have hdiv := h.divisor
  rw [hdouble] at hq hr
  have hbound : d.dividend.toNat / (d.divisor.toNat * 2 ^ (31 - k)) < 2 ^ 32 :=
    Nat.lt_of_le_of_lt (Nat.div_le_self _ _) d.dividend.isLt
  have hcpt : c.reg.shiftCptRe + 1 = BitVec.ofNat 6 (k + 1) := by
    rw [h.cpt, BitVec.ofNat_add]
    rfl
  by_cases hlt : c.reg.reminderRe < c.reg.divisorRe
  · -- the bit of this weight is 0, and the remainder is the latched one
    have hlatched := h.latched hlt
    rw [if_pos hlt] at hmae
    rw [BitVec.lt_def, hr, hdiv] at hlt
    obtain ⟨hquo, hrem⟩ := RestoringDivision.halve_of_lt hm hlt
    have hval : c.mae.quotientSe.toNat = 2 * c.reg.quotientRe.toNat := by
      rw [hmae]
      exact toNat_shift _ (by omega)
    refine ⟨?_, ?_, ?_, ?_, ?_⟩
    · rw [hmae, ← hcpt]
    · rw [hmae]
    · rw [hval, hq, hquo]
    · rw [hlatched, hr, hrem]
    · intro hzero
      rw [hzero, BitVec.toNat_zero] at hval
      exact ⟨BitVec.eq_of_toNat_eq (by rw [BitVec.toNat_zero]; omega), hlatched⟩
  · -- the bit is 1, and the divisor of this weight is taken off
    rw [if_neg hlt] at hmae
    rw [BitVec.lt_def, hr, hdiv, Nat.not_lt] at hlt
    obtain ⟨hquo, hrem⟩ := RestoringDivision.halve_of_le hm hlt
    have hval : c.mae.quotientSe.toNat = 2 * c.reg.quotientRe.toNat + 1 := by
      rw [hmae]
      exact toNat_shift_or_one _ (by omega)
    refine ⟨?_, ?_, ?_, ?_, ?_⟩
    · rw [hmae, ← hcpt]
    · rw [hmae]
    · rw [hval, hq, hquo]
    · rw [hmae]
      change (c.reg.reminderRe - c.reg.divisorRe).toNat = _
      rw [BitVec.toNat_sub_of_le (by rw [BitVec.le_def, hr, hdiv]; exact hlt), hr, hdiv, hrem]
    · intro hzero
      rw [hzero, BitVec.toNat_zero] at hval
      omega

end Busy

/-! ### From cycle to cycle -/

/-- In the subtraction state `mae_output` does not look at `START_SE`. -/
theorem maeOutput_busy {i : Inputs} {r : Regs} (h : r.currentState = 1) (start start' : Bool)
    (m : Mae) : maeOutput i r start m = maeOutput i r start' m := by
  have h0 : ¬ r.currentState = 0 := by
    rw [h]
    decide
  rw [maeOutput, maeOutput, if_neg h0, if_neg h0]

theorem maeCycle_busy {c : Sig} {i : Inputs} (h : c.nextState = 1) :
    maeCycle c i = maeOutput i (clockEdge c i).reg true c.mae := by
  have hstate : (clockEdge c i).reg.currentState = 1 := h
  unfold maeCycle
  dsimp only
  rw [maeOutput_busy hstate (start₂ c i) true, maeOutput_busy hstate (start₁ c i) true,
    maeOutput_busy hstate c.startSe true, maeOutput_idem, maeOutput_idem]

/-- What a subtraction leaves alone. -/
theorem maeOutput_busy_keeps {i : Inputs} {r : Regs} (h : r.currentState = 1) (start : Bool)
    (m : Mae) :
    (maeOutput i r start m).quotientSignSe = m.quotientSignSe ∧
      (maeOutput i r start m).reminderSignSe = m.reminderSignSe ∧
      (maeOutput i r start m).doneSe = m.doneSe ∧
      (r.reminderRe < r.divisorRe → (maeOutput i r start m).reminderSe = m.reminderSe) := by
  have h0 : ¬ r.currentState = 0 := by
    rw [h]
    decide
  unfold maeOutput
  rw [if_neg h0, if_pos h]
  split_ifs with hcpt hlt
  · exact ⟨rfl, rfl, rfl, fun _ => rfl⟩
  · exact ⟨rfl, rfl, rfl, fun hc => absurd hc hlt⟩
  · exact ⟨rfl, rfl, rfl, fun _ => rfl⟩

variable {c : Sig} {d : Division} {ρ : Rest} {k : ℕ}

theorem retMethod_woken_iff (hinp : c.inp = present d) :
    retMethod.woken c (clockEdge c (present d)) ↔
      ¬ (c.mae.quotientSe = c.reg.quotientRe ∧ c.mae.reminderSe = c.reg.reminderRe) := by
  have hcmd : c.inp.cmd = (present d).cmd := by rw [hinp]
  simp only [retMethod, clockEdge, hcmd, ne_eq, not_true_eq_false, or_false]
  rw [← not_and_or, not_iff_not, eq_comm, and_comm, eq_comm (a := c.reg.quotientRe)]

theorem listens_of_inp (hinp : c.inp = present d) : Listens c (clockEdge c (present d)) := by
  refine .inr (.inr ?_)
  rw [hinp]
  rfl

theorem not_add_one (x : BitVec 32) : ~~~x + 1 = -x := (BitVec.neg_eq_not_add x).symm

theorem magnitude_eq (cmd : BitVec 2) (op : BitVec 32) :
    magnitude cmd op = if op.msb && signedInst cmd then -op else op := by
  rw [magnitude, not_add_one]

theorem divisor_pos (hop2 : d.op2 ≠ 0) : 0 < d.divisor.toNat := by
  have hne : d.divisor ≠ 0 := by
    rw [Division.divisor, magnitude_eq]
    split_ifs
    · exact fun h => hop2 (BitVec.neg_eq_zero_iff.mp h)
    · exact hop2
  exact Nat.pos_of_ne_zero fun h => hne (BitVec.eq_of_toNat_eq h)

theorem busy_of_started (h : Started c d ρ) (hop2 : d.op2 ≠ 0) :
    Busy (clockCycle c (present d)) d ρ 0 := by
  have hl := listens_of_inp h.inp
  have hpos := divisor_pos hop2
  have hmae := h.mae_eq hop2
  have hnext : c.nextState = 1 := by rw [h.nextState_eq, if_pos hop2]
  have hupToDate := fresh_clockCycle h.upToDate hl
  have hcycle := maeCycle_busy (i := present d) hnext
  obtain ⟨hqs, hrs, hdone, hlatched⟩ :=
    maeOutput_busy_keeps (i := present d) (r := (clockEdge c (present d)).reg) hnext true c.mae
  rw [← hcycle] at hqs hrs hdone hlatched
  have hbig : d.dividend.toNat < d.divisor.toNat * 2 ^ 32 :=
    Nat.lt_of_lt_of_le d.dividend.isLt (Nat.le_mul_of_pos_left _ hpos)
  have hquo : c.mae.quotientSe = 0#32 := by
    rw [hmae]
    rfl
  have hrem : c.mae.reminderSe = d.dividend.setWidth 64 := by
    rw [hmae]
  rw [clockCycle_eq h.upToDate hl] at hupToDate ⊢
  refine ⟨⟨hupToDate, rfl, ?_, ?_, ?_, ?_, ?_⟩, by omega, ?_, hnext, ?_, ?_, ?_, ?_⟩
  -- the divisor of weight 32 is greater than the dividend
  · change c.mae.quotientSe.toNat = _
    rw [hquo, Nat.div_eq_of_lt hbig]
    rfl
  · change c.mae.reminderSe.toNat = _
    rw [hrem, Nat.mod_eq_of_lt hbig, BitVec.toNat_setWidth]
    have := d.dividend.isLt
    omega
  · change (maeCycle c (present d)).quotientSignSe = _
    rw [hqs, hmae]
  · change (maeCycle c (present d)).reminderSignSe = _
    rw [hrs, hmae]
  · change retCycle c (present d) = if ρ.quotient = c.mae.quotientSe ∧
      ρ.reminder = c.mae.reminderSe ∧ c.mae.quotientSe = 0#32 then _ else
      ret d.cmd c.mae.quotientSe c.mae.reminderSe (maeCycle c (present d)).quotientSignSe
        (maeCycle c (present d)).reminderSignSe
    rw [retCycle, hqs, hrs]
    by_cases hsame : c.mae.quotientSe = c.reg.quotientRe ∧ c.mae.reminderSe = c.reg.reminderRe
    · rw [if_neg (mt (retMethod_woken_iff h.inp).mp (not_not.mpr hsame)), if_pos, h.out]
      rw [← h.quotient, ← h.reminder]
      exact ⟨hsame.1.symm, hsame.2.symm, hquo⟩
    · rw [if_pos ((retMethod_woken_iff h.inp).mpr hsame), if_neg]
      · rfl
      · rw [← h.quotient, ← h.reminder]
        exact fun hc => hsame ⟨hc.1.symm, hc.2.1.symm⟩
  · change start₂ c (present d) = true
    rw [start₂, hnext, hmae]
    rfl
  · change (maeCycle c (present d)).doneSe = _
    rw [hdone, hmae]
  · change c.mae.shiftCptSe = _
    rw [hmae]
    rfl
  · change c.mae.divisorSe.toNat = _
    rw [hmae]
    have := d.divisor.isLt
    simp only [BitVec.toNat_shiftLeft, BitVec.toNat_setWidth, Nat.shiftLeft_eq]
    omega
  · intro hlt
    exact hlatched hlt

/-- One more bit of the quotient.  The output moves only with the registers, and
registers that have left 0 never return to the values they rested on. -/
theorem computes_succ (h : Busy c d ρ k) (hpos : 0 < d.divisor.toNat)
    (hqs : (maeCycle c (present d)).quotientSignSe = c.mae.quotientSignSe)
    (hrs : (maeCycle c (present d)).reminderSignSe = c.mae.reminderSignSe) :
    Computes (clockCycle c (present d)) d ρ (k + 1) := by
  have hl := listens_of_inp h.inp
  have hupToDate := fresh_clockCycle h.upToDate hl
  obtain ⟨-, -, hquo, hrem, hzero⟩ := h.mae_spec hpos
  have hk := h.le
  rw [clockCycle_eq h.upToDate hl] at hupToDate ⊢
  refine ⟨hupToDate, rfl, ?_, ?_, hqs.trans h.quotientSign, hrs.trans h.reminderSign, ?_⟩
  · rw [show 32 - (k + 1) = 31 - k by omega]
    exact hquo
  · rw [show 32 - (k + 1) = 31 - k by omega]
    exact hrem
  · change retCycle c (present d) = if ρ.quotient = c.mae.quotientSe ∧
      ρ.reminder = c.mae.reminderSe ∧ c.mae.quotientSe = 0#32 then _ else
      ret d.cmd c.mae.quotientSe c.mae.reminderSe (maeCycle c (present d)).quotientSignSe
        (maeCycle c (present d)).reminderSignSe
    rw [retCycle, hqs, hrs]
    by_cases hsame : c.mae.quotientSe = c.reg.quotientRe ∧ c.mae.reminderSe = c.reg.reminderRe
    · rw [if_neg (mt (retMethod_woken_iff h.inp).mp (not_not.mpr hsame)), h.out, hsame.1, hsame.2]
      simp only [retMethod, h.inp]
      rfl
    · rw [if_pos ((retMethod_woken_iff h.inp).mpr hsame), if_neg]
      · rfl
      · rintro ⟨-, -, h0⟩
        obtain ⟨hq, hr⟩ := hzero h0
        exact hsame ⟨h0.trans hq.symm, hr⟩

theorem busy_succ (h : Busy c d ρ k) (hk : k < 31) (hpos : 0 < d.divisor.toNat) :
    Busy (clockCycle c (present d)) d ρ (k + 1) := by
  have hnext : c.nextState = 1 := by rw [h.nextState_eq, if_neg (by omega)]
  obtain ⟨hqs, hrs, hdone, hlatched⟩ :=
    maeOutput_busy_keeps (i := present d) (r := (clockEdge c (present d)).reg) hnext true c.mae
  rw [← maeCycle_busy (i := present d) hnext] at hqs hrs hdone hlatched
  have hcomputes := computes_succ h hpos hqs hrs
  obtain ⟨hcpt, hdivisor, -⟩ := h.mae_spec hpos
  rw [clockCycle_eq h.upToDate (listens_of_inp h.inp)] at hcomputes ⊢
  refine ⟨hcomputes, by omega, ?_, hnext, hdone.trans h.done, hcpt, ?_, hlatched⟩
  · change start₂ c (present d) = true
    rw [start₂, hnext, h.done]
    rfl
  · change c.mae.divisorSe.toNat = _
    rw [hdivisor, BitVec.toNat_ushiftRight, h.divisor, Nat.shiftRight_eq_div_pow,
      show 31 - k = 31 - (k + 1) + 1 by omega, Nat.pow_succ, ← Nat.mul_assoc,
      Nat.mul_div_cancel _ (by decide)]

/-- In the `DONE_SE` cycle `mae_output` runs while `START_SE` is still up, and again
when it has fallen. -/
theorem maeCycle_finish (hstart : c.startSe = true)
    (hdone : c.mae.doneSe = false) (hnext : c.nextState = 0) (hcpt : c.mae.shiftCptSe = 32#6) :
    start₂ c (present d) = false ∧
      maeCycle c (present d) =
        let m := maeOutput (present d) (clockEdge c (present d)).reg true c.mae
        { m with busySe := false, shiftCptSe := 0, doneSe := true } := by
  have hstate : (clockEdge c (present d)).reg.currentState = 0 := hnext
  have hreg : (clockEdge c (present d)).reg.shiftCptRe = 32#6 := hcpt
  have h1 : start₁ c (present d) = true := by
    rw [start₁, hdone]
    rfl
  have h2 : start₂ c (present d) = false := by
    rw [start₂, if_pos hnext, hcpt]
    rfl
  refine ⟨h2, ?_⟩
  unfold maeCycle
  dsimp only
  rw [h1, h2, hstart, maeOutput_idem]
  generalize maeOutput (present d) (clockEdge c (present d)).reg true c.mae = m
  simp only [maeOutput, hstate, hreg, if_true]
  rfl

theorem ready_of_finish (hupToDate : UpToDate c) (hinp : c.inp = present d)
    (hstart : c.startSe = true) (hdone : c.mae.doneSe = false) (hnext : c.nextState = 0)
    (hcpt : c.mae.shiftCptSe = 32#6) : Finished (clockCycle c (present d)) d := by
  have hl := listens_of_inp hinp
  have hup := fresh_clockCycle hupToDate hl
  obtain ⟨h2, hmae⟩ := maeCycle_finish (d := d) hstart hdone hnext hcpt
  have hstate : (clockEdge c (present d)).reg.currentState = 0 := hnext
  have hop2 : (present d).op2 = d.op2 := rfl
  rw [clockCycle_eq hupToDate hl] at hup ⊢
  refine ⟨⟨hup, h2, ?_, ?_, ?_, ?_, ?_, ?_⟩, rfl, ?_⟩
  · simp only [cycleResult, stateTransition, hstate, h2]
    rfl
  all_goals
    simp only [cycleResult, hmae, maeOutput, hstate, hop2, Division.rest, if_true]
  all_goals
    by_cases h0 : d.op2 = 0
    · simp only [h0, ne_eq, not_true_eq_false, if_false]
      try rfl
    · simp only [h0, ne_eq, not_false_eq_true, if_true]
      try rfl

theorem finished_of_busy (h : Busy c d ρ 31) (hpos : 0 < d.divisor.toNat) :
    Finished (clockCycle c (present d)) d ∧ Computes (clockCycle c (present d)) d ρ 32 := by
  have hnext : c.nextState = 0 := by rw [h.nextState_eq, if_pos rfl]
  have hop2 : d.op2 ≠ 0 := by
    intro h0
    rw [Division.divisor, h0] at hpos
    revert hpos
    unfold magnitude
    split_ifs <;> simp
  obtain ⟨hcpt, -⟩ := h.mae_spec hpos
  have hfinished := ready_of_finish h.upToDate h.inp h.start h.done hnext hcpt
  refine ⟨hfinished, ?_⟩
  have hqs := hfinished.quotientSign
  have hrs := hfinished.reminderSign
  rw [clockCycle_eq h.upToDate (listens_of_inp h.inp)] at hqs hrs
  rw [Division.rest, if_pos hop2] at hqs hrs
  exact computes_succ h hpos (hqs.trans h.quotientSign.symm) (hrs.trans h.reminderSign.symm)

theorem hold_succ_of_done {n : ℕ} {i : Inputs} (h : (clockCycle c i).mae.doneSe = true) :
    hold (n + 1) c i = clockCycle c i := if_pos h

theorem hold_succ_of_not_done {n : ℕ} {i : Inputs} (h : (clockCycle c i).mae.doneSe = false) :
    hold (n + 1) c i = hold n (clockCycle c i) i := by
  rw [hold, if_neg (by rw [h]; decide)]

/-- A division that is counting reaches its `DONE_SE` cycle. -/
theorem hold_busy (hpos : 0 < d.divisor.toNat) :
    ∀ (n : ℕ) {c : Sig} {k : ℕ}, Busy c d ρ k → 31 - k < n →
      Finished (hold n c (present d)) d ∧ Computes (hold n c (present d)) d ρ 32 := by
  intro n
  induction n with
  | zero =>
    intro c k _ hn
    exact absurd hn (Nat.not_lt_zero _)
  | succ n ih =>
    intro c k h hn
    rcases Nat.lt_or_ge k 31 with hk | hk
    · have hb := busy_succ h hk hpos
      rw [hold_succ_of_not_done hb.done]
      exact ih hb (by omega)
    · obtain rfl : k = 31 := Nat.le_antisymm h.le hk
      have hfinished := finished_of_busy h hpos
      rw [hold_succ_of_done hfinished.1.done]
      exact hfinished

/-- A rest that the divider can be in: only a division by 0 leaves a quotient other
than 0, and it leaves no sign. -/
def Rest.Reachable (ρ : Rest) : Prop :=
  ρ.quotient = 0#32 ∨ ρ.quotientSign = false ∧ ρ.reminderSign = false

theorem reachable_rest (d : Division) : d.rest.Reachable := by
  unfold Division.rest
  split_ifs
  · exact .inl rfl
  · exact .inr ⟨rfl, rfl⟩

/-- A division by 0 is finished one cycle after it was presented. -/
theorem finished_of_started_zero (h : Started c d ρ) (hop2 : d.op2 = 0) (hρ : ρ.Reachable) :
    Finished (clockCycle c (present d)) d ∧
      (clockCycle c (present d)).reg.quotientRe = 0xFFFFFFFF#32 ∧
      (clockCycle c (present d)).reg.reminderRe = d.op1.setWidth 64 ∧
      (clockCycle c (present d)).dividerResOutput =
        ret d.cmd 0xFFFFFFFF#32 (d.op1.setWidth 64) false false := by
  have hnext : c.nextState = 0 := by rw [h.nextState_eq, if_neg (not_not.mpr hop2)]
  obtain ⟨hqs, hrs, hquo, hrem, hcpt⟩ := h.mae_eq_zero hop2
  have hfinished := ready_of_finish h.upToDate h.inp h.start h.done hnext hcpt
  refine ⟨hfinished, ?_⟩
  rw [clockCycle_eq h.upToDate (listens_of_inp h.inp)]
  refine ⟨hquo, hrem, ?_⟩
  change retCycle c (present d) = _
  rw [retCycle, hqs, hrs, hquo, hrem]
  by_cases hsame : c.mae.quotientSe = c.reg.quotientRe ∧ c.mae.reminderSe = c.reg.reminderRe
  · rw [if_neg (mt (retMethod_woken_iff h.inp).mp (not_not.mpr hsame)), h.out]
    rw [hquo, hrem, h.quotient, h.reminder] at hsame
    rw [← hsame.1, ← hsame.2]
    rcases hρ with h0 | ⟨hρq, hρr⟩
    · rw [h0] at hsame
      exact absurd hsame.1 (by decide)
    · rw [hρq, hρr]
      rfl
  · rw [if_pos ((retMethod_woken_iff h.inp).mpr hsame)]
    rfl

/-! ### Results -/

theorem cmd_cases (cmd : BitVec 2) : cmd = 0 ∨ cmd = 1 ∨ cmd = 2 ∨ cmd = 3 := by
  revert cmd
  decide

/-- `RET` puts the signs back. -/
theorem ret_eq_result (hop2 : d.op2 ≠ 0) {q : BitVec 32} {r : BitVec 64}
    (hq : q.toNat = d.dividend.toNat / d.divisor.toNat)
    (hr : r.toNat = d.dividend.toNat % d.divisor.toNat) :
    ret d.cmd q r (quotientSign (present d)) (reminderSign (present d)) = d.result := by
  have hquo : q = d.dividend.udiv d.divisor :=
    BitVec.eq_of_toNat_eq (by rw [hq, BitVec.udiv_eq, BitVec.toNat_udiv])
  have hrem : r.setWidth 32 = d.dividend.umod d.divisor := by
    refine BitVec.eq_of_toNat_eq ?_
    rw [BitVec.toNat_setWidth, hr, BitVec.umod_eq, BitVec.toNat_umod]
    exact Nat.mod_eq_of_lt (Nat.lt_of_le_of_lt (Nat.mod_le _ _) d.dividend.isLt)
  obtain ⟨op1, op2, cmd⟩ := d
  change op2 ≠ 0 at hop2
  simp only [ret, Division.result, hrem, hquo, Division.dividend, Division.divisor, magnitude_eq,
    quotientSign, reminderSign, present, not_add_one, if_neg hop2]
  rcases cmd_cases cmd with rfl | rfl | rfl | rfl
  · simp [signedInst]
  · simp only [signedInst, BitVec.sdiv]
    cases op1.msb <;> cases op2.msb <;> simp
  · simp [signedInst]
  · simp only [signedInst, BitVec.srem]
    cases op1.msb <;> cases op2.msb <;> simp

theorem ret_eq_result_zero (hop2 : d.op2 = 0) :
    ret d.cmd 0xFFFFFFFF#32 (d.op1.setWidth 64) false false = d.result := by
  obtain ⟨op1, op2, cmd⟩ := d
  change op2 = 0 at hop2
  subst hop2
  simp only [ret, Division.result]
  rcases cmd_cases cmd with rfl | rfl | rfl | rfl <;> simp

/-- The division is a remainder whose registers stay on the values they rested on,
with another sign. -/
structure StaleAfter (ρ : Rest) (d : Division) : Prop where
  op2 : d.op2 ≠ 0
  cmd : d.cmd = 3 ∨ d.cmd = 0
  lt : d.dividend < d.divisor
  quotient : ρ.quotient = 0#32
  reminder : ρ.reminder = d.dividend.setWidth 64
  sign : ρ.reminderSign ≠ reminderSign (present d)
  signed : d.dividend ≠ 0#32 ∧ d.dividend ≠ 0x80000000#32

theorem neg_eq_self_iff (x : BitVec 32) : -x = x ↔ x = 0#32 ∨ x = 0x80000000#32 := by
  have hx := x.isLt
  rw [← BitVec.toNat_inj, ← BitVec.toNat_inj, ← BitVec.toNat_inj, BitVec.toNat_neg]
  simp only [BitVec.toNat_ofNat]
  omega

/-- The output of a remainder with a small dividend is stale when its sign matters. -/
theorem ret_eq_ret_iff {cmd : BitVec 2} {x : BitVec 32} {qs qs' rs rs' : Bool} :
    ret cmd 0#32 (x.setWidth 64) qs rs = ret cmd 0#32 (x.setWidth 64) qs' rs' ↔
      ¬ ((cmd = 3 ∨ cmd = 0) ∧ rs ≠ rs' ∧ x ≠ 0#32 ∧ x ≠ 0x80000000#32) := by
  have hcut : (x.setWidth 64).setWidth 32 = x := by
    refine BitVec.eq_of_toNat_eq ?_
    have := x.isLt
    rw [BitVec.toNat_setWidth, BitVec.toNat_setWidth]
    omega
  have hneg := neg_eq_self_iff x
  unfold ret
  dsimp only
  rw [hcut, not_add_one, not_add_one]
  by_cases hcmd : cmd = 3 ∨ cmd = 0
  · rw [if_pos hcmd, if_pos hcmd]
    have hneg' : x = -x ↔ x = 0#32 ∨ x = 0x80000000#32 := by rw [eq_comm, hneg]
    cases rs <;> cases rs' <;> simp only [hcmd, hneg, hneg', true_and, if_true, if_false,
      Bool.false_eq_true, ne_eq, not_true_eq_false, reduceCtorEq, not_false_eq_true, false_and,
      not_and_or, not_not]
  · rw [if_neg hcmd, if_neg hcmd]
    refine iff_of_true ?_ (fun hc => hcmd hc.1)
    cases qs <;> cases qs' <;> decide

theorem out_eq_result_iff (hop2 : d.op2 ≠ 0) (h : Computes c d ρ 32) :
    c.dividerResOutput = d.result ↔ ¬ StaleAfter ρ d := by
  have hq := h.quotient
  have hr := h.reminder
  rw [Nat.sub_self, Nat.pow_zero, Nat.mul_one] at hq hr
  have hpos := divisor_pos hop2
  have hbody : retMethod.body c = d.result := by
    simp only [retMethod, h.inp, h.quotientSign, h.reminderSign]
    exact ret_eq_result hop2 hq hr
  have hsmall : c.reg.quotientRe = 0#32 ↔ d.dividend < d.divisor := by
    rw [← BitVec.toNat_inj, hq, BitVec.lt_def, BitVec.toNat_zero, Nat.div_eq_zero_iff]
    omega
  have hlow : d.dividend < d.divisor → c.reg.reminderRe = d.dividend.setWidth 64 := by
    intro hlt
    refine BitVec.eq_of_toNat_eq ?_
    rw [hr, Nat.mod_eq_of_lt hlt, BitVec.toNat_setWidth]
    have := d.dividend.isLt
    omega
  rw [h.out]
  by_cases hrest : ρ.quotient = c.reg.quotientRe ∧ ρ.reminder = c.reg.reminderRe ∧
      c.reg.quotientRe = 0#32
  · obtain ⟨hρq, hρr, h0⟩ := hrest
    have hlt := hsmall.mp h0
    rw [if_pos ⟨hρq, hρr, h0⟩, ← ret_eq_result hop2 hq hr, hρq, hρr, h0, hlow hlt, ret_eq_ret_iff,
      not_iff_not]
    constructor
    · rintro ⟨hcmd, hsign, hsigned⟩
      exact ⟨hop2, hcmd, hlt, hρq.trans h0, hρr.trans (hlow hlt), hsign, hsigned⟩
    · intro hs
      exact ⟨hs.cmd, hs.sign, hs.signed⟩
  · rw [if_neg hrest]
    refine iff_of_true hbody ?_
    intro hs
    have h0 := hsmall.mpr hs.lt
    exact hrest ⟨hs.quotient.trans h0.symm, hs.reminder.trans (hlow hs.lt).symm, h0⟩

/-- Every division reaches its `DONE_SE` cycle, with the right result unless it is
stale. -/
theorem divide_spec (h : Ready c ρ) (hf : retMethod.Fresh c) (hρ : ρ.Reachable)
    (item : List IdleInputs × Division) :
    Finished (divide c item) item.2 ∧
      ((divide c item).dividerResOutput = item.2.result ↔ ¬ StaleAfter ρ item.2) ∧
      ((divide c item).dividerResOutput = item.2.result →
        retMethod.Fresh (divide c item)) := by
  obtain ⟨idle, d⟩ := item
  -- idle cycles leave the divider ready
  have hidle := Run.inv_after (fun c (i : IdleInputs) => clockCycle c i.1)
    (fun c => Ready c ρ ∧ retMethod.Fresh c)
    (fun _ i hc => ⟨ready_idle hc.1 i, fresh_idle hc.1 hc.2 i⟩) idle ⟨h, hf⟩
  have hstarted := started_of_ready hidle.1 hidle.2 d
  change Finished (hold 40 _ (present d)) d ∧
    ((hold 40 _ (present d)).dividerResOutput = d.result ↔ ¬ StaleAfter ρ d) ∧
    ((hold 40 _ (present d)).dividerResOutput = d.result →
      retMethod.Fresh (hold 40 _ (present d)))
  generalize Run.after (fun c (i : IdleInputs) => clockCycle c i.1) c idle = c₀ at hstarted ⊢
  rw [hold_succ_of_not_done hstarted.done]
  generalize clockCycle c₀ (present d) = c₁ at hstarted ⊢
  by_cases hop2 : d.op2 = 0
  · -- a zero divisor is through in the next cycle
    have hdone := finished_of_started_zero hstarted hop2 hρ
    rw [hold_succ_of_done hdone.1.done]
    obtain ⟨hfinished, hquo, hrem, hout⟩ := hdone
    refine ⟨hfinished, iff_of_true ?_ (fun hs => hs.op2 hop2), ?_⟩
    · rw [hout, ret_eq_result_zero hop2]
    · intro _
      have hqs := hfinished.quotientSign
      have hrs := hfinished.reminderSign
      rw [Division.rest, if_neg (not_not.mpr hop2)] at hqs hrs
      simp only [Delta.Method.Fresh, retMethod, hout, hquo, hrem, hqs, hrs, hfinished.inp]
      rfl
  · -- 32 subtractions, one a cycle
    have hbusy := busy_of_started hstarted hop2
    have hpos := divisor_pos hop2
    rw [hold_succ_of_not_done hbusy.done]
    obtain ⟨hfinished, hcomputes⟩ := hold_busy hpos 38 hbusy (by omega)
    refine ⟨hfinished, out_eq_result_iff hop2 hcomputes, ?_⟩
    intro hright
    have hq := hcomputes.quotient
    have hr := hcomputes.reminder
    rw [Nat.sub_self, Nat.pow_zero, Nat.mul_one] at hq hr
    refine hright.trans ?_
    simp only [retMethod, hcomputes.inp, hcomputes.quotientSign, hcomputes.reminderSign]
    exact (ret_eq_result hop2 hq hr).symm

/-! ### Sequences -/

/-- `RET` keeps the sign of the division `p` for the division `d`: a remainder whose
dividend has the magnitude of `p`'s, which is smaller than the divisor, and the other
sign. -/
structure Stale (p d : Division) : Prop where
  op2 : d.op2 ≠ 0 ∧ p.op2 ≠ 0
  cmd : d.cmd = 3 ∨ d.cmd = 0
  lt : d.dividend < d.divisor
  same : p.dividend = d.dividend
  sign : reminderSign (present p) ≠ reminderSign (present d)
  signed : d.dividend ≠ 0#32 ∧ d.dividend ≠ 0x80000000#32

theorem staleAfter_rest_iff (p d : Division) : StaleAfter p.rest d ↔ Stale p d := by
  have hinj : p.dividend.setWidth 64 = d.dividend.setWidth 64 ↔ p.dividend = d.dividend := by
    constructor
    · intro h
      have hn := congrArg BitVec.toNat h
      have hp := p.dividend.isLt
      have hd := d.dividend.isLt
      rw [BitVec.toNat_setWidth, BitVec.toNat_setWidth] at hn
      exact BitVec.eq_of_toNat_eq (by omega)
    · rintro h
      rw [h]
  by_cases hp : p.op2 = 0
  · refine iff_of_false ?_ (fun hs => hs.op2.2 hp)
    intro hs
    have hq := hs.quotient
    rw [Division.rest, if_neg (not_not.mpr hp)] at hq
    exact (show ¬ 0xFFFFFFFF#32 = 0#32 by decide) hq
  · have hrest : p.rest = ⟨0, p.dividend.setWidth 64, quotientSign (present p),
        reminderSign (present p)⟩ := if_pos hp
    constructor
    · intro hs
      have hrem := hs.reminder
      have hsign := hs.sign
      rw [hrest] at hrem hsign
      exact ⟨⟨hs.op2, hp⟩, hs.cmd, hs.lt, hinj.mp hrem, hsign, hs.signed⟩
    · intro hs
      refine ⟨hs.op2.1, hs.cmd, hs.lt, ?_, ?_, ?_, hs.signed⟩
      · rw [hrest]
        rfl
      · rw [hrest]
        exact hinj.mpr hs.same
      · rw [hrest]
        exact hs.sign

/-- The division reaches `DONE_SE` and shows its result there. -/
def Right (c : Sig) (item : List IdleInputs × Division) : Prop :=
  (divide c item).mae.doneSe = true ∧ (divide c item).dividerResOutput = item.2.result

/-- The rest that a sequence of divisions leaves, from its last one. -/
def restAfter : Option Division → Rest
  | none => ⟨0, 0, false, false⟩
  | some p => p.rest

theorem staleAfter_iff (prev : Option Division) (d : Division) :
    StaleAfter (restAfter prev) d ↔ ∃ p, prev = some p ∧ Stale p d := by
  cases prev with
  | none =>
    refine iff_of_false ?_ (by simp)
    intro hs
    have hzero : d.dividend.setWidth 64 = 0#64 := hs.reminder.symm
    refine hs.signed.1 (BitVec.eq_of_toNat_eq ?_)
    have hn := congrArg BitVec.toNat hzero
    have hd := d.dividend.isLt
    rw [BitVec.toNat_setWidth, BitVec.toNat_zero] at hn
    rw [BitVec.toNat_zero]
    omega
  | some p => simp [restAfter, staleAfter_rest_iff]

/-- Between two divisions of a run whose results have been right so far. -/
structure Following (s : Sig × Option Division) : Prop where
  ready : Ready s.1 (restAfter s.2)
  fresh : retMethod.Fresh s.1
  reachable : (restAfter s.2).Reachable

theorem following_reset : Following (reset, none) where
  ready := ready_reset
  fresh := rfl
  reachable := .inl rfl

theorem each_not_stale_iff (items : List (List IdleInputs × Division)) (prev : Option Division) :
    Run.Each (fun prev item => ¬ ∃ p, prev = some p ∧ Stale p item.2)
        (fun _ item => some item.2) prev items ↔
      (prev.toList ++ items.map Prod.snd).IsChain fun p d => ¬ Stale p d := by
  induction items generalizing prev with
  | nil => cases prev <;> simp
  | cons item items ih =>
    rw [Run.each_cons, ih]
    cases prev with
    | none => simp
    | some p => simp [List.isChain_cons_cons]

/-- All divisions of a sequence show their own RV32M results if and only if no
division is stale after the one before it. -/
theorem results_iff (items : List (List IdleInputs × Division)) :
    Run.Each Right divide reset items ↔
      (items.map Prod.snd).IsChain fun p d => ¬ Stale p d := by
  have hchain := each_not_stale_iff items none
  rw [Option.toList_none, List.nil_append] at hchain
  rw [← hchain]
  -- both sides are followed on one run, which remembers the previous division
  let step : Sig × Option Division → List IdleInputs × Division → Sig × Option Division :=
    fun s item => (divide s.1 item, some item.2)
  have hleft := Run.each_map Prod.fst Right step divide (fun _ _ => rfl) items (reset, none)
  have hright := Run.each_map Prod.snd (fun prev item => ¬ ∃ p, prev = some p ∧ Stale p item.2)
    step (fun _ item => some item.2) (fun _ _ => rfl) items (reset, none)
  rw [← hleft, ← hright]
  refine Run.each_iff_each Following ?_ ?_ following_reset
  · rintro ⟨c, prev⟩ item h
    obtain ⟨hfinished, hiff, -⟩ := divide_spec h.ready h.fresh h.reachable item
    change Right c item ↔ ¬ ∃ p, prev = some p ∧ Stale p item.2
    rw [Right, hfinished.done, hiff, staleAfter_iff]
    simp
  · rintro ⟨c, prev⟩ item h hc
    obtain ⟨hfinished, -, hkeep⟩ := divide_spec h.ready h.fresh h.reachable item
    exact ⟨hfinished.toReady, hkeep hc.2, reachable_rest item.2⟩

/-- `rem 3 5` and then `rem (-3) 5`: the second one shows 3. -/
theorem rem_negated_stale :
    ¬ Run.Each Right divide reset [([], ⟨3#32, 5#32, 3#2⟩), ([], ⟨-3#32, 5#32, 3#2⟩)] := by
  rintro ⟨-, ⟨-, h⟩, -⟩
  revert h
  decide +kernel

end Diviseur

end RiVerSoC
