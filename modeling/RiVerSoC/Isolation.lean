/-
User mode and the machine state.

DEC lets every CSR instruction through, whatever the mode; its check of `mret` and `sret` is
undone in the same activation.

* `Machine` — the core, with the instructions in EXE and in MEM and the modes that DEC saw;
* `Isolated` — an instruction of another mode than machine mode leaves the CSRs and the mode
  alone, and is no return;
* `each_isolated_iff` — a run is isolated exactly when no such instruction changes a CSR or
  is a return.
-/
import RiVerSoC.InFlight
import RiVerSoC.Core

namespace RiVerSoC

namespace Isolation

open RiVerSoC.Core (memInputs memOut)
open Backend (decPush exePush memPush decWord exeSig)

/-- An instruction and the mode of its execution, none for a word that a trap puts into the
pipeline. -/
abbrev Tag := Option (BitVec 32 × BitVec 2)

/-- The core, with the instructions in DEC2EXE and in EXE2MEM. -/
structure Machine where
  core : Core.State
  rd : Tag
  re : Tag

def reset (procId : BitVec 32) : Machine := ⟨Core.reset procId, none, none⟩

def mretWord : BitVec 32 := 0b00110000001000000000000001110011

def sretWord : BitVec 32 := 0b00010000001000000000000001110011

variable (m : Machine) (i : Core.Cycle)

/-- The cycle as the stages see it. -/
def cycle : Backend.Cycle := Core.cycle m.core i

def step : Machine where
  core := Core.step m.core i
  rd :=
    if decPush m.core.pipe (cycle m i) then
      if (cycle m i).exceptionSm then none else some (i.pipe.ir, (cycle m i).currentMode)
    else m.rd
  re :=
    if m.core.pipe.exe2mem.loads (exePush m.core.pipe (cycle m i))
        (memPush m.core.pipe (cycle m i)) then
      if (cycle m i).exceptionSm then none else m.rd
    else m.re

/-- The word in MEM. -/
def word : Exe2Mem := m.core.pipe.exe2mem.dout

/-- The word returns from a trap. -/
def returns (w : Exe2Mem) : Bool := w.exception && w.mret && !w.envCallWrongMode

/-- MEM enters a trap. -/
def enters : Bool := (memOut m.core i).exceptionSm && !returns (word m)

/-- What is executed outside machine mode changes the CSRs and the mode by the entry into a
trap only, and `mret` and `sret` raise an exception. -/
def Isolated : Prop :=
  ∀ t ∈ m.re, t.2 ≠ 3 →
    (step m i).core.file =
      Csr.hardware m.core.file m.core.file i.timerInt (enters m i) (memOut m.core i).trap ∧
    ((memOut m.core i).currentModeSm = m.core.mem.currentModeSm ∨
      enters m i = true ∧ (memOut m.core i).currentModeSm = 3) ∧
    (t.1 = mretWord ∨ t.1 = sretWord → (word m).exception = true ∧ returns (word m) = false)

/-- What is executed outside machine mode is no `mret`, no `sret` without a fault of its own,
and no write of a CSR, unless it writes what is there, or what the timer writes after it. -/
def Harmless : Prop :=
  ∀ t ∈ m.re, t.2 ≠ 3 →
    t.1 ≠ mretWord ∧ (t.1 = sretWord → (word m).exception = true) ∧
    ((memOut m.core i).exceptionSm = false → (word m).csrWenable = true →
      ∀ k ∈ Csr.writeIndex (word m).csrWadr, ¬ (i.timerInt = true ∧ Csr.mip = k) →
        m.core.file.get k = (word m).exeRes)

-- The instances go over the option: a search over all instruction words does not end.
instance : Decidable (Isolated m i) := by
  unfold Isolated
  exact Option.decidableForallMem m.re

instance : Decidable (Harmless m i) := by
  unfold Harmless
  exact Option.decidableForallMem m.re

/-! ### The invariant -/

/-- The flags of an `mret` are those of a return. -/
def Tagged (tag : Tag) (mret exception : Bool) : Prop :=
  ∀ t ∈ tag, mret = (t.1 == mretWord) ∧ (mret = true → exception = true)

/-- What holds in every cycle of a run. -/
structure Inv (m : Machine) : Prop where
  latched : Core.Latched m.core
  portWritten : Core.PortWritten m.core
  rd : Tagged m.rd m.core.pipe.dec2exe.dout.mret m.core.pipe.dec2exe.dout.exception
  re : Tagged m.re (word m).mret (word m).exception
  wrong : Backend.NoWrongMode m.core.pipe

theorem inv_reset (procId : BitVec 32) : Inv (reset procId) where
  latched := Core.latched_reset procId
  portWritten := Core.portWritten_reset procId
  rd _ ht := absurd ht (Option.not_mem_none _)
  re _ ht := absurd ht (Option.not_mem_none _)
  wrong := Backend.noWrongMode_reset

variable {m i}

/-- The flags of the word that DEC offers. -/
theorem tagged_decWord {s : Backend.State} {c : Backend.Cycle} (hx : c.exceptionSm = false)
    (mode : BitVec 2) :
    Tagged (some (c.ir, mode)) (decWord s c).mret (decWord s c).exception := by
  intro t ht
  obtain rfl := Option.mem_some.mp ht
  have hword : (decWord s c).mret = (Decode.decodingInstruction c.ir).mret ∧
      ((Decode.decodingInstruction c.ir).mret = true → (decWord s c).exception = true) := by
    rw [decWord, Dec.concatDec2exe, if_neg (by rw [hx]; exact Bool.false_ne_true)]
    refine ⟨rfl, ?_⟩
    intro hmret
    have hmret' : (Backend.decInsts s c).mret = true := hmret
    simp only [hmret', Bool.or_true, Bool.true_or]
  obtain ⟨hmret, hexc⟩ := hword
  exact ⟨hmret, fun h => hexc (hmret.symm.trans h)⟩

theorem rd_step (h : Inv m) :
    Tagged (step m i).rd (step m i).core.pipe.dec2exe.dout.mret
      (step m i).core.pipe.dec2exe.dout.exception := by
  have htag : (step m i).rd = if decPush m.core.pipe (cycle m i) then
      if (cycle m i).exceptionSm then none else some (i.pipe.ir, (cycle m i).currentMode)
      else m.rd := rfl
  have hcases : _ ∨ _ := Backend.dec2exe_cases m.core.pipe (cycle m i)
  have hpipe : (step m i).core.pipe = Backend.step m.core.pipe (cycle m i) := rfl
  rw [htag, hpipe]
  rcases hcases with ⟨hpush, hrd⟩ | ⟨-, hpush, hrd, -⟩
  · rw [hrd, if_pos hpush]
    cases hx : (cycle m i).exceptionSm with
    | true => exact fun _ ht => absurd ht (Option.not_mem_none _)
    | false => exact tagged_decWord hx _
  · rw [hrd, if_neg (by rw [hpush]; exact Bool.false_ne_true)]
    exact h.rd

/-- EXE keeps the flags. -/
theorem tagged_dinSe {s : Backend.State} {c : Backend.Cycle} (hx : c.exceptionSm = false)
    {tag : Tag}
    (h : Tagged tag s.dec2exe.dout.mret s.dec2exe.dout.exception) :
    Tagged tag (exeSig s c).exe2memDinSe.mret (exeSig s c).exe2memDinSe.exception := by
  obtain ⟨j, hj⟩ := Backend.dinSe_eq_fifoConcat (s := s) hx
  rw [hj]
  intro t ht
  obtain ⟨hmret, hexc⟩ := h t ht
  refine ⟨hmret, ?_⟩
  intro hm
  change (s.dec2exe.dout.exception || _) = true
  rw [hexc hm, Bool.true_or]

theorem re_step (h : Inv m) :
    Tagged (step m i).re (word (step m i)).mret (word (step m i)).exception := by
  have htag : (step m i).re =
      if m.core.pipe.exe2mem.loads (exePush m.core.pipe (cycle m i))
        (memPush m.core.pipe (cycle m i)) then
        if (cycle m i).exceptionSm then none else m.rd
      else m.re := rfl
  have hword : word (step m i) = (Backend.step m.core.pipe (cycle m i)).re := rfl
  rw [htag, hword]
  cases hl : m.core.pipe.exe2mem.loads (exePush m.core.pipe (cycle m i))
      (memPush m.core.pipe (cycle m i)) with
  | true =>
    rw [Backend.re_of_loads hl, if_pos rfl]
    cases hx : (cycle m i).exceptionSm with
    | true => exact fun _ ht => absurd ht (Option.not_mem_none _)
    | false => exact tagged_dinSe hx h.rd
  | false =>
    rw [Backend.re_of_not_loads hl, if_neg Bool.false_ne_true]
    exact h.re

theorem inv_step (h : Inv m) : Inv (step m i) where
  latched := Core.latched_step h.latched
  portWritten := Core.portWritten_step
  rd := rd_step h
  re := re_step h
  wrong := Backend.noWrongMode_step _ h.wrong

/-! ### One cycle -/

/-- What is no return is a trap. -/
theorem enters_eq (h : Inv m) {t : BitVec 32 × BitVec 2} (ht : t ∈ m.re) (hne : t.1 ≠ mretWord) :
    enters m i = (memOut m.core i).exceptionSm ∧ (word m).mret = false := by
  obtain ⟨hmret, -⟩ := h.re t ht
  have hno : (word m).mret = false := hmret.trans (beq_eq_false_iff_ne.mpr hne)
  rw [enters, returns, hno, Bool.and_false, Bool.false_and, Bool.not_false, Bool.and_true]
  exact ⟨rfl, rfl⟩

/-- The write port leaves the file alone exactly when it writes what is there, or what the
timer overwrites. -/
theorem hardware_write_eq_iff (f : Csr.File) (wadr : BitVec 12) (wdata : BitVec 32)
    (timerInt : Bool) (d : Csr.TrapData) :
    Csr.hardware f (f.write wadr wdata) timerInt false d = Csr.hardware f f timerInt false d ↔
      ∀ k ∈ Csr.writeIndex wadr, ¬ (timerInt = true ∧ Csr.mip = k) → f.get k = wdata := by
  constructor
  · intro heq k hk htimer
    have hget := congrArg (fun g => Csr.File.get g k) heq
    change (Csr.hardware _ _ _ _ _).get k = (Csr.hardware _ _ _ _ _).get k at hget
    rw [Csr.get_hardware_false, Csr.get_hardware_false, if_neg htimer, if_neg htimer,
      Csr.File.get_write f hk, if_pos rfl] at hget
    exact hget.symm
  · intro h
    refine Csr.File.ext_get fun k _ => ?_
    rw [Csr.get_hardware_false, Csr.get_hardware_false]
    by_cases htimer : timerInt = true ∧ Csr.mip = k
    · rw [if_pos htimer, if_pos htimer]
    · rw [if_neg htimer, if_neg htimer]
      cases hw : Csr.writeIndex wadr with
      | none => rw [Csr.File.write_of_none f hw]
      | some l =>
        rw [Csr.File.get_write f hw]
        split_ifs with hl
        · subst hl
          exact (h l hw htimer).symm
        · rfl

/-- Without a trap, the file changes by the hardware only exactly when the CSR instruction
changes nothing. -/
theorem file_eq_iff (h : Inv m) (hx : (memOut m.core i).exceptionSm = false) :
    (step m i).core.file =
      Csr.hardware m.core.file m.core.file i.timerInt false (memOut m.core i).trap ↔
      ((word m).csrWenable = true → ∀ k ∈ Csr.writeIndex (word m).csrWadr,
        ¬ (i.timerInt = true ∧ Csr.mip = k) → m.core.file.get k = (word m).exeRes) := by
  have hfile : (step m i).core.file = _ := Core.file_of_not_trap h.latched hx
  rw [hfile]
  change Csr.hardware _ (if (word m).csrWenable = true then _ else _) _ _ _ = _ ↔ _
  cases hw : (word m).csrWenable with
  | true =>
    rw [if_pos rfl]
    exact (hardware_write_eq_iff _ _ _ _ _).trans ⟨fun h _ => h, fun h => h rfl⟩
  | false =>
    rw [if_neg Bool.false_ne_true]
    exact iff_of_true rfl (fun hn => absurd hn Bool.false_ne_true)

theorem isolated_iff (h : Inv m) : Isolated m i ↔ Harmless m i := by
  constructor
  · intro hi t ht hmode
    obtain ⟨hfile, -, hret⟩ := hi t ht hmode
    -- an `mret` of user mode would return, since its flag is always cleared
    have hne : t.1 ≠ mretWord := by
      intro heq
      obtain ⟨hmret, hexc⟩ := h.re t ht
      have hm : (word m).mret = true := hmret.trans (beq_iff_eq.mpr heq)
      have hno := (hret (.inl heq)).2
      have hwrong : (word m).envCallWrongMode = false := h.wrong.re
      rw [returns, hexc hm, hm, hwrong] at hno
      exact absurd hno.symm Bool.false_ne_true
    refine ⟨hne, fun heq => (hret (.inr heq)).1, ?_⟩
    intro hx
    rw [(enters_eq h ht hne).1, hx] at hfile
    exact (file_eq_iff h hx).mp hfile
  · intro hh t ht hmode
    obtain ⟨hne, hsret, hcsr⟩ := hh t ht hmode
    obtain ⟨henters, hmret⟩ := enters_eq (i := i) h ht hne
    refine ⟨?_, ?_, ?_⟩
    · rw [henters]
      cases hx : (memOut m.core i).exceptionSm with
      | false => exact (file_eq_iff h hx).mpr (hcsr hx)
      | true => exact Core.file_of_trap h.portWritten hx
    · rw [henters]
      cases hx : (memOut m.core i).exceptionSm with
      | false => exact .inl (Core.currentModeSm_of_not_trap hx)
      | true =>
        rcases Core.currentModeSm_memOut (s := m.core) (i := i) with hsame | hthree | ⟨-, hm⟩
        · exact .inl hsame
        · exact .inr ⟨rfl, hthree⟩
        · exact absurd (hmret.symm.trans hm) Bool.false_ne_true
    · rintro (heq | heq)
      · exact absurd heq hne
      · refine ⟨hsret heq, ?_⟩
        rw [returns, hmret, Bool.and_false, Bool.false_and]

/-! ### Whole runs -/

/-- Along a run, user mode leaves the machine state alone exactly when it executes no `mret`
and no `sret`, and no instruction that changes a CSR. -/
theorem each_isolated_iff (procId : BitVec 32) (is : List Core.Cycle) :
    Run.Each Isolated step (reset procId) is ↔ Run.Each Harmless step (reset procId) is :=
  Run.each_iff_each Inv (fun _ _ h => isolated_iff h) (fun _ _ h _ => inv_step h)
    (inv_reset procId)

/-- A cycle with a word in IF2DEC. -/
def fetched (ir : BitVec 32) : Core.Cycle :=
  { (default : Core.Cycle) with pipe := { (default : Backend.Cycle) with ir := ir } }

/-- `mret`, and in user mode `csrrwi x0, mscratch, 7`. -/
def userWrite : List Core.Cycle :=
  [0x30200073, 0x13, 0x13, 0x13, 0x3403D073, 0x13, 0x13].map fetched

/-- User mode writes mscratch. -/
theorem not_isolated_userWrite : ¬ Run.Each Isolated step (reset 0) userWrite := by
  decide +kernel

end Isolation

end RiVerSoC
