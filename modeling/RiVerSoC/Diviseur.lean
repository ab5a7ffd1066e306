/-
The divider, delta cycle by delta cycle.

`Sig` holds the signals of `Diviseur` together with `START_SE`, which
`exec::manage_divider` drives from `DONE_SE`.  `delta` runs the methods that their
sensitivity lists wake, `clockEdge` is the activation of `new_state` with the
inputs of the new cycle, and `clockCycle` settles after it.

* `clockCycle_eq` — what a clock cycle computes, when the methods other than `RET`
  were up to date before it;
* `fresh_clockCycle` — they are up to date again after it.

`RET` reads the two sign signals, which do not wake it: its output is whatever it
computed when a register or the command last changed.
-/
import Mathlib.Tactic.Set
import RiVerSoC.Delta

namespace RiVerSoC

namespace Diviseur

/-- What EXE presents to the divider. -/
structure Inputs where
  op1 : BitVec 32
  op2 : BitVec 32
  cmd : BitVec 2
  selectTypeOperations : BitVec 4
  dec2exeEmpty : Bool
deriving DecidableEq, Repr, Inhabited

/-- The registers that `new_state` loads. -/
structure Regs where
  currentState : BitVec 3
  shiftCptRe : BitVec 6
  divisorRe : BitVec 64
  quotientRe : BitVec 32
  reminderRe : BitVec 64
deriving DecidableEq, Repr, Inhabited

/-- The signals that `mae_output` writes. -/
structure Mae where
  quotientSignSe : Bool
  reminderSignSe : Bool
  divisorSe : BitVec 64
  quotientSe : BitVec 32
  reminderSe : BitVec 64
  busySe : Bool
  doneSe : Bool
  shiftCptSe : BitVec 6
deriving DecidableEq, Repr, Inhabited

structure Sig where
  inp : Inputs
  reg : Regs
  nextState : BitVec 3
  mae : Mae
  startSe : Bool
  dividerResOutput : BitVec 32
deriving DecidableEq, Repr, Inhabited

/-! ### The methods -/

/-- `state_transition`; `next` is the state it keeps in the other cases. -/
def stateTransition (i : Inputs) (r : Regs) (start : Bool) (next : BitVec 3) : BitVec 3 :=
  if r.currentState = 0 then
    if start && i.op2 != 0 then 0b001#3 else 0b000#3
  else if r.currentState = 1 then
    if r.shiftCptRe = 31 then 0b000#3 else 0b001#3
  else next

/-- The commands `rem` and `div` work on signed operands. -/
def signedInst (cmd : BitVec 2) : Bool := cmd == 3 || cmd == 1

/-- The operand without its sign. -/
def magnitude (cmd : BitVec 2) (op : BitVec 32) : BitVec 32 :=
  if op.msb && signedInst cmd then ~~~op + 1 else op

def quotientSign (i : Inputs) : Bool := (i.op2.msb ^^ i.op1.msb) && signedInst i.cmd

def reminderSign (i : Inputs) : Bool := i.op1.msb && signedInst i.cmd

/-- `mae_output`; `m` holds the signals that it leaves alone. -/
def maeOutput (i : Inputs) (r : Regs) (start : Bool) (m : Mae) : Mae :=
  if r.currentState = 0 then
    let m' : Mae :=
      if start then
        if i.op2 ≠ 0 then
          { m with
            quotientSignSe := quotientSign i
            reminderSignSe := reminderSign i
            divisorSe := (magnitude i.cmd i.op2).setWidth 64 <<< 31
            quotientSe := 0
            reminderSe := (magnitude i.cmd i.op1).setWidth 64
            busySe := true
            shiftCptSe := 0 }
        else
          { m with
            quotientSignSe := false
            reminderSignSe := false
            reminderSe := i.op1.setWidth 64
            quotientSe := 0xFFFFFFFF
            busySe := true
            shiftCptSe := 32 }
      else { m with busySe := false, shiftCptSe := 0 }
    { m' with doneSe := r.shiftCptRe == 32 }
  else if r.currentState = 1 then
    if r.shiftCptRe ≤ 31 then
      if r.reminderRe < r.divisorRe then
        { m with
          divisorSe := r.divisorRe >>> 1
          quotientSe := (r.quotientRe.setWidth 64 <<< 1).setWidth 32
          shiftCptSe := r.shiftCptRe + 1 }
      else
        { m with
          reminderSe := r.reminderRe - r.divisorRe
          quotientSe := (r.quotientRe.setWidth 64 <<< 1 ||| 1).setWidth 32
          divisorSe := r.divisorRe >>> 1
          shiftCptSe := r.shiftCptRe + 1 }
    else m
  else m

/-- `RET`: the result, re-signed. -/
def ret (cmd : BitVec 2) (quotient : BitVec 32) (reminder : BitVec 64)
    (quotientSign reminderSign : Bool) : BitVec 32 :=
  if cmd = 3 ∨ cmd = 0 then
    let rem := reminder.setWidth 32
    if reminderSign then ~~~rem + 1 else rem
  else if quotientSign then ~~~quotient + 1
  else quotient

/-- `exec::manage_divider`. -/
def manageDivider (i : Inputs) (done : Bool) : Bool :=
  i.selectTypeOperations == 0b1000 && !i.dec2exeEmpty && !done

/-! ### Delta cycles -/

def transitionMethod : Delta.Method Sig (BitVec 3) where
  woken a b := a.reg.currentState ≠ b.reg.currentState ∨ a.startSe ≠ b.startSe ∨
    a.reg.shiftCptRe ≠ b.reg.shiftCptRe ∨ a.inp.op2 ≠ b.inp.op2
  body s := stateTransition s.inp s.reg s.startSe s.nextState
  out s := s.nextState

def maeMethod : Delta.Method Sig Mae where
  woken a b := a.reg ≠ b.reg ∨ a.startSe ≠ b.startSe ∨ a.inp.op1 ≠ b.inp.op1 ∨
    a.inp.op2 ≠ b.inp.op2
  body s := maeOutput s.inp s.reg s.startSe s.mae
  out s := s.mae

def retMethod : Delta.Method Sig (BitVec 32) where
  woken a b := a.reg.reminderRe ≠ b.reg.reminderRe ∨ a.reg.quotientRe ≠ b.reg.quotientRe ∨
    a.inp.cmd ≠ b.inp.cmd
  body s := ret s.inp.cmd s.reg.quotientRe s.reg.reminderRe s.mae.quotientSignSe
    s.mae.reminderSignSe
  out s := s.dividerResOutput

def manageMethod : Delta.Method Sig Bool where
  woken a b := a.mae.doneSe ≠ b.mae.doneSe ∨
    a.inp.selectTypeOperations ≠ b.inp.selectTypeOperations ∨
    a.inp.dec2exeEmpty ≠ b.inp.dec2exeEmpty
  body s := manageDivider s.inp s.mae.doneSe
  out s := s.startSe

instance : DecidableRel transitionMethod.woken := fun _ _ => inferInstanceAs (Decidable (_ ∨ _))
instance : DecidableRel maeMethod.woken := fun _ _ => inferInstanceAs (Decidable (_ ∨ _))
instance : DecidableRel retMethod.woken := fun _ _ => inferInstanceAs (Decidable (_ ∨ _))
instance : DecidableRel manageMethod.woken := fun _ _ => inferInstanceAs (Decidable (_ ∨ _))

/-- One delta cycle. -/
def delta (a b : Sig) : Sig :=
  { b with
    nextState := if transitionMethod.woken a b then transitionMethod.body b else b.nextState
    mae := if maeMethod.woken a b then maeMethod.body b else b.mae
    startSe := if manageMethod.woken a b then manageMethod.body b else b.startSe
    dividerResOutput := if retMethod.woken a b then retMethod.body b else b.dividerResOutput }

/-- `new_state` at the clock edge, with the inputs of the new cycle. -/
def clockEdge (c : Sig) (i : Inputs) : Sig :=
  { c with
    inp := i
    reg :=
      { currentState := c.nextState
        shiftCptRe := c.mae.shiftCptSe
        divisorRe := c.mae.divisorSe
        quotientRe := c.mae.quotientSe
        reminderRe := c.mae.reminderSe } }

/-- The delta cycles of one clock cycle. -/
def settling (c : Sig) (i : Inputs) (n : ℕ) : Delta.Point Sig :=
  Delta.run delta n ⟨c, clockEdge c i⟩

/-- The signals at the end of a clock cycle; `settled_settling` says that six delta
cycles are enough. -/
def clockCycle (c : Sig) (i : Inputs) : Sig := (settling c i 6).cur

/-- The signals before the first cycle. -/
def reset : Sig := default

/-! ### One clock cycle -/

@[simp] theorem delta_inp (a b : Sig) : (delta a b).inp = b.inp := rfl

@[simp] theorem delta_reg (a b : Sig) : (delta a b).reg = b.reg := rfl

theorem transition_drivenBy : transitionMethod.DrivenBy delta where
  runs h := if_pos h
  keeps h := if_neg h

theorem mae_drivenBy : maeMethod.DrivenBy delta where
  runs h := if_pos h
  keeps h := if_neg h

theorem manage_drivenBy : manageMethod.DrivenBy delta where
  runs h := if_pos h
  keeps h := if_neg h

theorem stateTransition_idem (i : Inputs) (r : Regs) (start start' : Bool) (next : BitVec 3) :
    stateTransition i r start (stateTransition i r start' next) =
      stateTransition i r start next := by
  unfold stateTransition
  split_ifs <;> rfl

theorem maeOutput_idem (i : Inputs) (r : Regs) (start : Bool) (m : Mae) :
    maeOutput i r start (maeOutput i r start m) = maeOutput i r start m := by
  unfold maeOutput
  split_ifs <;> rfl

/-- `DONE_SE` does not depend on `START_SE`. -/
theorem maeOutput_doneSe (i : Inputs) (r : Regs) (start : Bool) (m : Mae) :
    (maeOutput i r start m).doneSe =
      if r.currentState = 0 then r.shiftCptRe == 32 else m.doneSe := by
  unfold maeOutput
  split_ifs <;> rfl

/-- The methods other than `RET` have written what they compute. -/
structure UpToDate (c : Sig) : Prop where
  transition : transitionMethod.Fresh c
  mae : maeMethod.Fresh c
  manage : manageMethod.Fresh c

/-- The one read that `mae_output` does not listen to, the command, does not matter
to it or does not change. -/
def Listens (a b : Sig) : Prop :=
  b.startSe = false ∨ b.reg.currentState ≠ 0 ∨ b.inp.cmd = a.inp.cmd

theorem maeOutput_congr {i i' : Inputs} {r : Regs} {start : Bool} (h1 : i'.op1 = i.op1)
    (h2 : i'.op2 = i.op2) (h : start = false ∨ r.currentState ≠ 0 ∨ i'.cmd = i.cmd) (m : Mae) :
    maeOutput i' r start m = maeOutput i r start m := by
  rcases h with rfl | h | h
  · rfl
  · simp only [maeOutput, if_neg h]
  · simp only [maeOutput, quotientSign, reminderSign, h, h1, h2]

theorem transition_covers : transitionMethod.Covers := by
  intro a b _ hw hout
  simp only [transitionMethod, not_or, not_not] at hw hout ⊢
  obtain ⟨hstate, hstart, hcpt, hop2⟩ := hw
  rw [hout, ← hstart]
  simp only [stateTransition, ← hstate, ← hcpt, ← hop2]
  split_ifs <;> rfl

theorem mae_coversUnder : maeMethod.CoversUnder Listens := by
  intro a b hR hw hout
  simp only [maeMethod, not_or, not_not] at hw hout ⊢
  obtain ⟨hreg, hstart, hop1, hop2⟩ := hw
  rw [hout, maeOutput_congr hop1.symm hop2.symm hR, ← hreg, ← hstart, maeOutput_idem]

theorem manage_covers : manageMethod.Covers := by
  intro a b _ hw _
  simp only [manageMethod, not_or, not_not] at hw ⊢
  obtain ⟨hdone, hselect, hempty⟩ := hw
  rw [manageDivider, manageDivider, ← hdone, ← hselect, ← hempty]

/-- `b` holds what the methods other than `RET` compute from `a`. -/
structure Evaluates (a b : Sig) : Prop where
  inp : b.inp = a.inp
  reg : b.reg = a.reg
  next : b.nextState = stateTransition a.inp a.reg a.startSe a.nextState
  mae : b.mae = maeOutput a.inp a.reg a.startSe a.mae
  start : b.startSe = manageDivider a.inp a.mae.doneSe

/-- The first delta cycle of a clock cycle. -/
theorem evaluates_edge {c : Sig} (h : UpToDate c) {i : Inputs} (hl : Listens c (clockEdge c i)) :
    Evaluates (clockEdge c i) (delta c (clockEdge c i)) where
  inp := rfl
  reg := rfl
  next := Delta.Method.out_eq_body_of_fresh transition_drivenBy transition_covers h.transition
    trivial rfl
  mae := Delta.Method.out_eq_body_of_fresh mae_drivenBy mae_coversUnder h.mae hl rfl
  start := Delta.Method.out_eq_body_of_fresh manage_drivenBy manage_covers h.manage trivial rfl

/-- The next delta cycles: a method that is not woken has nothing new to write. -/
theorem evaluates_delta {a b : Sig} (h : Evaluates a b) : Evaluates b (delta a b) where
  inp := rfl
  reg := rfl
  next := by
    by_cases hw : transitionMethod.woken a b
    · exact transition_drivenBy.runs hw
    · have hkeep : (delta a b).nextState = b.nextState := transition_drivenBy.keeps hw
      simp only [transitionMethod, not_or, not_not] at hw
      rw [hkeep, h.inp, h.reg, ← hw.2.1, h.next, stateTransition_idem]
  mae := by
    by_cases hw : maeMethod.woken a b
    · exact mae_drivenBy.runs hw
    · have hkeep : (delta a b).mae = b.mae := mae_drivenBy.keeps hw
      simp only [maeMethod, not_or, not_not] at hw
      rw [hkeep, h.inp, h.reg, ← hw.2.1, h.mae, maeOutput_idem]
  start := by
    by_cases hw : manageMethod.woken a b
    · exact manage_drivenBy.runs hw
    · have hkeep : (delta a b).startSe = b.startSe := manage_drivenBy.keeps hw
      simp only [manageMethod, not_or, not_not] at hw
      rw [hkeep, h.start, h.inp, hw.1]

/-- `RET` runs at most once in a clock cycle, at its first delta cycle. -/
theorem out_delta {a b : Sig} (h : Evaluates a b) :
    (delta a b).dividerResOutput = b.dividerResOutput := by
  refine if_neg ?_
  simp [retMethod, h.inp, h.reg]

theorem doneSe_eq {a b : Sig} (h : Evaluates a b) :
    b.mae.doneSe = if a.reg.currentState = 0 then a.reg.shiftCptRe == 32 else a.mae.doneSe := by
  rw [h.mae, maeOutput_doneSe]

/-- From the second delta cycle on `DONE_SE` keeps still. -/
theorem doneSe_still {a b : Sig} (h : Evaluates a b) (h' : Evaluates b (delta a b)) :
    (delta a b).mae.doneSe = b.mae.doneSe := by
  rw [doneSe_eq h', doneSe_eq h, h.reg]
  split_ifs <;> rfl

theorem sig_ext {a b : Sig} (hinp : a.inp = b.inp) (hreg : a.reg = b.reg)
    (hnext : a.nextState = b.nextState) (hmae : a.mae = b.mae) (hstart : a.startSe = b.startSe)
    (hout : a.dividerResOutput = b.dividerResOutput) : a = b := by
  cases a
  cases b
  simp_all

/-- `START_SE` follows `DONE_SE`, which keeps still, and then nothing moves any more. -/
theorem delta_eq_self {b c : Sig} (hbc : Evaluates b c)
    (hcd : Evaluates c (delta b c)) (hde : Evaluates (delta b c) (delta c (delta b c)))
    (hdone : c.mae.doneSe = b.mae.doneSe) (hdone' : (delta b c).mae.doneSe = c.mae.doneSe) :
    delta c (delta b c) = delta b c := by
  have hstart : (delta b c).startSe = c.startSe := by
    rw [hcd.start, hbc.start, hbc.inp, hdone]
  refine sig_ext rfl rfl ?_ ?_ ?_ (out_delta hcd)
  · rw [hde.next, hcd.next, hcd.inp, hcd.reg, hstart, stateTransition_idem]
  · rw [hde.mae, hcd.mae, hcd.inp, hcd.reg, hstart, maeOutput_idem]
  · rw [hde.start, hcd.start, hcd.inp, hdone']

theorem delta_self (s : Sig) : delta s s = s := by
  simp [delta, transitionMethod, maeMethod, manageMethod, retMethod]

section ClockCycle

variable {c : Sig} {i : Inputs}

/-- The values that `START_SE` takes after the edge. -/
def start₁ (c : Sig) (i : Inputs) : Bool := manageDivider i c.mae.doneSe

def start₂ (c : Sig) (i : Inputs) : Bool :=
  manageDivider i
    (if c.nextState = 0 then c.mae.shiftCptSe == 32 else c.mae.doneSe)

/-- The activations of `mae_output` after the edge: one for each of those values. -/
def maeCycle (c : Sig) (i : Inputs) : Mae :=
  let r := (clockEdge c i).reg
  maeOutput i r (start₂ c i) (maeOutput i r (start₁ c i) (maeOutput i r c.startSe c.mae))

/-- The activation of `RET` after the edge, if there is one: it still sees the signs
of the previous cycle. -/
def retCycle (c : Sig) (i : Inputs) : BitVec 32 :=
  if retMethod.woken c (clockEdge c i) then
    ret i.cmd c.mae.quotientSe c.mae.reminderSe c.mae.quotientSignSe c.mae.reminderSignSe
  else c.dividerResOutput

/-- What a clock cycle computes. -/
def cycleResult (c : Sig) (i : Inputs) : Sig where
  inp := i
  reg := (clockEdge c i).reg
  nextState := stateTransition i (clockEdge c i).reg (start₂ c i) c.nextState
  mae := maeCycle c i
  startSe := start₂ c i
  dividerResOutput := retCycle c i

theorem settling_spec (h : UpToDate c) (hl : Listens c (clockEdge c i)) :
    (settling c i 4).prev = cycleResult c i ∧ (settling c i 4).cur = cycleResult c i := by
  have h1 := evaluates_edge h hl
  have h2 := evaluates_delta h1
  have h3 := evaluates_delta h2
  have h4 := evaluates_delta h3
  have hdone2 := doneSe_still h1 h2
  have hdone3 := doneSe_still h2 h3
  have hstill := delta_eq_self h2 h3 h4 hdone2 hdone3
  have hstart1 : (delta c (clockEdge c i)).startSe = start₁ c i := h1.start
  have hstart2 : (delta (clockEdge c i) (delta c (clockEdge c i))).startSe = start₂ c i := by
    rw [h2.start, h1.inp, doneSe_eq h1]
    rfl
  set c1 := delta c (clockEdge c i) with hc1
  set c2 := delta (clockEdge c i) c1
  have hresult : delta c1 c2 = cycleResult c i := by
    refine sig_ext rfl rfl ?_ ?_ ?_ ?_
    · rw [h3.next, h2.next, h1.next, h2.inp, h2.reg, h1.inp, h1.reg, hstart2, stateTransition_idem,
        stateTransition_idem]
      rfl
    · rw [h3.mae, h2.mae, h1.mae, h2.inp, h2.reg, h1.inp, h1.reg, hstart2, hstart1]
      rfl
    · rw [h3.start, hdone2, h2.inp, ← h2.start, hstart2]
      rfl
    · rw [out_delta h2, out_delta h1]
      rfl
  constructor
  · exact hresult
  · change delta c2 (delta c1 c2) = _
    rw [hstill, hresult]

/-- Six delta cycles are enough to settle. -/
theorem settled_settling (h : UpToDate c) (hl : Listens c (clockEdge c i)) :
    (settling c i 6).Settled := by
  obtain ⟨hprev, hcur⟩ := settling_spec h hl
  have hset : (settling c i 4).Settled := hprev.trans hcur.symm
  have hrun : settling c i 6 = settling c i 4 := by
    rw [settling, Delta.run_add delta 4 2]
    exact Delta.settled_run delta_self hset 2
  rw [hrun]
  exact hset

theorem clockCycle_eq (h : UpToDate c) (hl : Listens c (clockEdge c i)) :
    clockCycle c i = cycleResult c i := by
  obtain ⟨hprev, hcur⟩ := settling_spec h hl
  have hrun : settling c i 6 = settling c i 4 := by
    rw [settling, Delta.run_add delta 4 2]
    exact Delta.settled_run delta_self (hprev.trans hcur.symm) 2
  rw [clockCycle, hrun, hcur]

theorem maeCycle_doneSe (c : Sig) (i : Inputs) :
    (maeCycle c i).doneSe =
      if c.nextState = 0 then c.mae.shiftCptSe == 32 else c.mae.doneSe := by
  unfold maeCycle
  dsimp only
  rw [maeOutput_doneSe, maeOutput_doneSe, maeOutput_doneSe]
  change (if c.nextState = 0 then _ else if c.nextState = 0 then _ else
    if c.nextState = 0 then _ else _) = _
  split_ifs <;> rfl

theorem fresh_clockCycle (h : UpToDate c) (hl : Listens c (clockEdge c i)) :
    UpToDate (clockCycle c i) := by
  rw [clockCycle_eq h hl]
  refine ⟨?_, ?_, ?_⟩
  · exact (stateTransition_idem i _ _ _ _).symm
  · exact (maeOutput_idem i _ _ _).symm
  · change start₂ c i = manageDivider i (maeCycle c i).doneSe
    rw [maeCycle_doneSe, start₂]

/-- A division is presented. -/
def Divides (i : Inputs) : Prop := i.selectTypeOperations = 0b1000 ∧ i.dec2exeEmpty = false

theorem divides_of_manageDivider {i : Inputs} {done : Bool} (h : manageDivider i done = true) :
    Divides i := by
  rw [manageDivider, Bool.and_eq_true, Bool.and_eq_true, beq_iff_eq, Bool.not_eq_true'] at h
  exact h.1

theorem divides_delta {a b : Sig} (h : b.startSe = true → Divides b.inp ∨ manageMethod.woken a b)
    (hs : (delta a b).startSe = true) : Divides b.inp := by
  by_cases hw : manageMethod.woken a b
  · rw [show (delta a b).startSe = manageDivider b.inp b.mae.doneSe from
      manage_drivenBy.runs hw] at hs
    exact divides_of_manageDivider hs
  · rw [show (delta a b).startSe = b.startSe from manage_drivenBy.keeps hw] at hs
    exact (h hs).resolve_right hw

/-- The inputs do not move while the divider settles. -/
theorem inp_settling (c : Sig) (i : Inputs) (n : ℕ) : (settling c i n).cur.inp = i := by
  induction n with
  | zero => rfl
  | succ n ih =>
    rw [settling, Delta.run_succ']
    exact ih

/-- `START_SE` is raised for a division only, whatever the divider did before. -/
theorem divides_of_startSe (h : c.startSe = true → Divides c.inp)
    (hs : (clockCycle c i).startSe = true) : Divides i := by
  have hrun : ∀ n, (settling c i (n + 1)).cur.startSe = true → Divides i := by
    intro n
    induction n with
    | zero =>
      -- the edge: either the inputs that matter have changed, or a division was there before
      refine divides_delta (a := c) (b := clockEdge c i) fun hold => ?_
      by_cases hw : manageMethod.woken c (clockEdge c i)
      · exact Or.inr hw
      · simp only [manageMethod, not_or, not_not] at hw
        obtain ⟨hselect, hempty⟩ := h hold
        exact Or.inl ⟨hw.2.1 ▸ hselect, hw.2.2 ▸ hempty⟩
    | succ n ih =>
      intro hs'
      rw [settling, Delta.run_succ'] at hs'
      have hdivides := divides_delta
        (fun hold => Or.inl ((inp_settling c i (n + 1)).symm ▸ ih hold)) hs'
      exact inp_settling c i (n + 1) ▸ hdivides
  exact hrun 5 hs

end ClockCycle

end Diviseur

end RiVerSoC
