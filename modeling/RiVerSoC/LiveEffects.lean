/-
Stores and CSR writes of instructions that have left MEM.

EXE2MEM keeps showing a word after a pop.  The request to the data cache is gated by
`MULT_INST_RM` in place of the emptiness of EXE2MEM, the CSR write by nothing, and a trap
leaves the CSR write port as it was.

* `Machine` — the core, with the number of the word in EXE2MEM and of the word on the CSR write
  port;
* `Live` — what MEM presents belongs to the instruction that is in EXE2MEM;
* `Drained`, `Trapped` — what a cycle does to a word that is still on a port;
* `always_live_iff` — along a run MEM presents live effects only exactly when every word with
  an effect is followed at once, and by no trap.
-/
import RiVerSoC.MultiplierPipe

namespace RiVerSoC

namespace LiveEffects

open RiVerSoC.Core (memOut)
open Backend (exePush memPush)
open MultiplierPipe (othersRd othersRe)

/-- The core, with the numbers of two words: the one in EXE2MEM, and the one that the CSR write
port was last set from. -/
structure Machine where
  core : Core.State
  word : ℕ
  presenter : ℕ

def reset (procId : BitVec 32) : Machine := ⟨Core.reset procId, 0, 0⟩

variable (m : Machine) (i : Core.Cycle)

def pipe : Backend.State := m.core.pipe

/-- EXE2MEM takes a word. -/
def enters : Bool :=
  (pipe m).exe2mem.loads (exePush (pipe m) (Core.cycle m.core i))
    (memPush (pipe m) (Core.cycle m.core i))

/-- The number of the word on the CSR write port: a trap leaves the port alone. -/
def presented : ℕ := if (memOut m.core i).exceptionSm then m.presenter else m.word

def step : Machine where
  core := Core.step m.core i
  word := if enters m i then m.word + 1 else m.word
  presenter := presented m i

/-- The request of MEM. -/
def request : McacheRequest :=
  memPreprocess (pipe m).re (pipe m).exe2mem.isEmpty (pipe m).rm.multInst

/-- MEM presents a store. -/
def storing : Bool := (request m).adrValid && (request m).store

/-- A store is presented for the word in EXE2MEM, and so is a CSR write. -/
def Live : Prop :=
  (storing m = true → (pipe m).exe2mem.v = true) ∧
    ((memOut m.core i).port.csrEnableSm = true →
      (pipe m).exe2mem.v = true ∧ presented m i = m.word)

/-- A store or a CSR write leaves EXE2MEM, and no word follows it. -/
def Drained : Prop :=
  memPush (pipe m) (Core.cycle m.core i) = true ∧ enters m i = false ∧
    ((pipe m).re.memStore = true ∨ (pipe m).re.csrWenable = true)

/-- A trap is raised while the word behind a CSR write is in MEM. -/
def Trapped : Prop :=
  (memOut m.core i).exceptionSm = true ∧ m.core.mem.port.csrEnableSm = true ∧
    m.presenter ≠ m.word

/-- The cycle neither drains a word with an effect nor raises a trap behind a CSR write. -/
def Followed : Prop := ¬ Drained m i ∧ ¬ Trapped m i

instance : Decidable (Live m i) := inferInstanceAs (Decidable ((_ → _) ∧ (_ → _ ∧ _)))

/-! ### The invariant -/

/-- A multiplication has no other effect. -/
structure Multiplications (s : Backend.State) : Prop where
  rd : s.rd.multInst = true → othersRd s.rd = false
  re : s.re.multInst = true → othersRe s.re = false

theorem multiplications_reset : Multiplications Backend.reset where
  rd h := absurd h Bool.false_ne_true
  re h := absurd h Bool.false_ne_true

theorem multiplications_step {s : Backend.State} {c : Backend.Cycle} (h : Multiplications s) :
    Multiplications (Backend.step s c) where
  rd := by
    rcases Backend.dec2exe_cases s c with ⟨-, hword⟩ | ⟨-, -, hword, -⟩
    · rw [show (Backend.step s c).rd = _ from congrArg Fifo.dout hword]
      cases hx : c.exceptionSm with
      | true =>
        rw [Backend.decWord_of_exceptionSm hx]
        exact fun hm => absurd hm Bool.false_ne_true
      | false => exact fun hm => (MultiplierPipe.multiplies_decWord hx hm).1
    · rw [Backend.State.rd, hword]
      exact h.rd
  re := by
    rcases Backend.exe2mem_cases s c with
      ⟨hx, -, hword⟩ | ⟨-, pc, hword⟩ | ⟨-, hword, -⟩ | ⟨-, -, hword, -⟩
    · rw [show (Backend.step s c).re = _ from congrArg Fifo.dout hword]
      intro hm
      exact MultiplierPipe.othersRe_dinSe hx
        (h.rd ((Backend.dinSe_of_not_trap (s := s) hx).1.symm.trans hm))
    · rw [show (Backend.step s c).re = _ from congrArg Fifo.dout hword]
      exact fun hm => absurd hm Bool.false_ne_true
    · rw [Backend.State.re, hword]
      exact h.re
    · rw [Backend.State.re, hword]
      exact h.re

/-- What holds in every cycle of every run. -/
structure Inv (m : Machine) : Prop where
  latched : Core.Latched m.core
  multiplications : Multiplications (pipe m)

theorem inv_reset (procId : BitVec 32) : Inv (reset procId) where
  latched := Core.latched_reset procId
  multiplications := multiplications_reset

theorem inv_step (h : Inv m) : Inv (step m i) where
  latched := Core.latched_step h.latched
  multiplications := multiplications_step h.multiplications

/-- What holds as long as every word with an effect is followed at once. -/
structure Quiet (m : Machine) : Prop where
  inv : Inv m
  store : (pipe m).exe2mem.v = false → (pipe m).re.memStore = false
  csr : (pipe m).exe2mem.v = false → (pipe m).re.csrWenable = false
  port : m.core.mem.port.csrEnableSm = true → (pipe m).exe2mem.v = true

theorem quiet_reset (procId : BitVec 32) : Quiet (reset procId) where
  inv := inv_reset procId
  store _ := rfl
  csr _ := rfl
  port h := absurd h Bool.false_ne_true

/-! ### One cycle -/

section Cycle

variable {m i}

theorem csrEnableSm_writePort (w : Exe2Mem) : (Mem.writePort w).csrEnableSm = w.csrWenable := by
  unfold Mem.writePort
  cases w.csrWenable <;> rfl

/-- Without a trap the port shows the word in EXE2MEM. -/
theorem csrEnableSm_of_not_trap (h : Inv m) (hx : (memOut m.core i).exceptionSm = false) :
    (memOut m.core i).port.csrEnableSm = (pipe m).re.csrWenable := by
  rw [(Core.memOut_of_not_trap h.latched hx).2]
  exact csrEnableSm_writePort _

theorem pipe_step : pipe (step m i) = Backend.step (pipe m) (Core.cycle m.core i) := rfl

/-- EXE2MEM has a new word, or shows the one from before. -/
theorem exe2mem_step :
    (enters m i = true ∧ (pipe (step m i)).exe2mem.v = true ∧ (step m i).word = m.word + 1) ∨
    (enters m i = false ∧ (pipe (step m i)).re = (pipe m).re ∧ (step m i).word = m.word ∧
      (pipe (step m i)).exe2mem.v =
        ((pipe m).exe2mem.v && !memPush (pipe m) (Core.cycle m.core i))) := by
  have hword : (step m i).word = if enters m i then m.word + 1 else m.word := rfl
  rw [hword, pipe_step]
  cases hl : enters m i with
  | true =>
    refine .inl ⟨rfl, ?_, rfl⟩
    exact congrArg Fifo.v (Backend.exe2mem_of_loads hl)
  | false =>
    exact .inr ⟨rfl, Backend.re_of_not_loads hl, rfl, Backend.exe2mem_v_of_not_loads hl⟩

/-- A trap puts a word into EXE2MEM wherever there is room. -/
theorem v_of_trap (hx : (memOut m.core i).exceptionSm = true) (hl : enters m i = false) :
    (pipe (step m i)).exe2mem.v = true := by
  rw [pipe_step]
  rcases Backend.exe2mem_of_trap (s := pipe m) (i := Core.cycle m.core i) hx with
    ⟨hloads, -⟩ | ⟨hsame, hv⟩
  · exact absurd (hl.symm.trans hloads) Bool.false_ne_true
  · exact (congrArg Fifo.v hsame).trans hv

/-- A word leaves EXE2MEM, and no word follows it, or EXE2MEM was empty already. -/
theorem gone (hl : enters m i = false) (hv : (pipe (step m i)).exe2mem.v = false) :
    (pipe m).exe2mem.v = false ∨ memPush (pipe m) (Core.cycle m.core i) = true := by
  rcases exe2mem_step (m := m) (i := i) with ⟨hl', -⟩ | ⟨-, -, -, hv'⟩
  · exact absurd (hl.symm.trans hl') Bool.false_ne_true
  · rw [hv, eq_comm, Bool.and_eq_false_iff, Bool.not_eq_false'] at hv'
    exact hv'

theorem live_of_quiet (h : Quiet m) (ht : ¬ Trapped m i) : Live m i := by
  constructor
  · intro hstore
    by_contra hv
    have hno := h.store (Bool.eq_false_iff.mpr hv)
    rw [storing, Bool.and_eq_true] at hstore
    exact absurd (hno.symm.trans hstore.2) Bool.false_ne_true
  · intro hen
    cases hx : (memOut m.core i).exceptionSm with
    | false =>
      rw [csrEnableSm_of_not_trap h.inv hx] at hen
      refine ⟨?_, by rw [presented, hx, if_neg Bool.false_ne_true]⟩
      by_contra hv
      exact absurd ((h.csr (Bool.eq_false_iff.mpr hv)).symm.trans hen) Bool.false_ne_true
    | true =>
      rw [Core.port_of_trap hx] at hen
      have hsame : m.presenter = m.word := by
        by_contra hne
        exact ht ⟨hx, hen, hne⟩
      exact ⟨h.port hen, by rw [presented, hx, if_pos rfl, hsame]⟩

/-- A word that has left EXE2MEM without another one behind it has no effect. -/
theorem effects_step (h : Quiet m) (hf : ¬ Drained m i)
    (hv : (pipe (step m i)).exe2mem.v = false) :
    (pipe (step m i)).re.memStore = false ∧ (pipe (step m i)).re.csrWenable = false := by
  rcases exe2mem_step (m := m) (i := i) with ⟨-, hv', -⟩ | ⟨hl, hre, -, -⟩
  · exact absurd (hv.symm.trans hv') Bool.false_ne_true
  · rw [hre]
    rcases gone hl hv with hempty | hpush
    · exact ⟨h.store hempty, h.csr hempty⟩
    · constructor
      · by_contra hstore
        exact hf ⟨hpush, hl, .inl (Bool.not_eq_false _ ▸ hstore)⟩
      · by_contra hcsr
        exact hf ⟨hpush, hl, .inr (Bool.not_eq_false _ ▸ hcsr)⟩

theorem port_step (h : Quiet m) (hf : ¬ Drained m i)
    (hen : (step m i).core.mem.port.csrEnableSm = true) :
    (pipe (step m i)).exe2mem.v = true := by
  rcases exe2mem_step (m := m) (i := i) with ⟨-, hv, -⟩ | ⟨hl, hre, -, -⟩
  · exact hv
  · cases hx : (memOut m.core i).exceptionSm with
    | true => exact v_of_trap hx hl
    | false =>
      change (memOut m.core i).port.csrEnableSm = true at hen
      rw [csrEnableSm_of_not_trap h.inv hx] at hen
      by_contra hv
      have hno := (effects_step h hf (Bool.eq_false_iff.mpr hv)).2
      rw [hre] at hno
      exact absurd (hno.symm.trans hen) Bool.false_ne_true

theorem quiet_step (h : Quiet m) (hf : Followed m i) : Quiet (step m i) where
  inv := inv_step m i h.inv
  store hv := (effects_step h hf.1 hv).1
  csr hv := (effects_step h hf.1 hv).2
  port := port_step h hf.1

/-- The effect of a word that is not followed at once is presented once more. -/
theorem not_live_of_drained (h : Inv m) (hd : Drained m i) (j : Core.Cycle) :
    ¬ Live (step m i) j := by
  obtain ⟨hpush, hl, heffect⟩ := hd
  rintro ⟨hstore, hcsr⟩
  rcases exe2mem_step (m := m) (i := i) with ⟨hl', -⟩ | ⟨-, hre, -, hv⟩
  · exact absurd (hl.symm.trans hl') Bool.false_ne_true
  rw [hpush, Bool.not_true, Bool.and_false] at hv
  have hx : (memOut m.core i).exceptionSm = false := by
    by_contra hx
    exact absurd (hv.symm.trans (v_of_trap (Bool.not_eq_false _ ▸ hx) hl)) Bool.false_ne_true
  rcases heffect with hs | hc
  · -- MEM2WBK now shows the store, so `MULT_INST_RM` is low
    have hmult : (pipe m).re.multInst = false := by
      by_contra hm
      have hothers := h.multiplications.re (Bool.not_eq_false _ ▸ hm)
      rw [othersRe, hs, Bool.or_true] at hothers
      exact absurd hothers.symm Bool.false_ne_true
    have hrm : (pipe (step m i)).rm.multInst = false :=
      (congrArg Mem2Wbk.multInst (Backend.rm_of_memPush hpush)).trans hmult
    have hstoring : storing (step m i) = true := by
      change ((_ || !(pipe (step m i)).rm.multInst) && (pipe (step m i)).re.memStore) = true
      rw [hrm, hre, hs, Bool.not_false, Bool.or_true, Bool.true_and]
    exact absurd (hv.symm.trans (hstore hstoring)) Bool.false_ne_true
  · have hen : (memOut (step m i).core j).port.csrEnableSm = true := by
      cases hy : (memOut (step m i).core j).exceptionSm with
      | false =>
        rw [csrEnableSm_of_not_trap (inv_step m i h) hy, hre]
        exact hc
      | true =>
        rw [Core.port_of_trap hy]
        exact (csrEnableSm_of_not_trap h hx).trans hc
    exact absurd (hv.symm.trans (hcsr hen).1) Bool.false_ne_true

theorem not_trapped_of_live (h : Live m i) : ¬ Trapped m i := by
  rintro ⟨hx, hen, hne⟩
  rw [← Core.port_of_trap hx] at hen
  have hsame := (h.2 hen).2
  rw [presented, hx, if_pos rfl] at hsame
  exact hne hsame

end Cycle

/-! ### Whole runs -/

/-- Along a run MEM presents stores and CSR writes of the instruction in EXE2MEM only if and
only if every instruction with such an effect is followed at once, and by no trap. -/
theorem always_live_iff (procId : BitVec 32) (c : ℕ → Core.Cycle) :
    (∀ n, Live (Run.along step (reset procId) c n) (c n)) ↔
      ∀ n, Followed (Run.along step (reset procId) c n) (c n) := by
  constructor
  · intro hlive n
    have hinv : Inv (Run.along step (reset procId) c n) :=
      Run.inv_along (C := fun _ _ => True) (fun m i h _ => inv_step m i h) (inv_reset procId)
        (fun _ => trivial) n
    refine ⟨?_, not_trapped_of_live (hlive n)⟩
    intro hd
    exact not_live_of_drained hinv hd _ (hlive (n + 1))
  · intro hf n
    have hquiet : Quiet (Run.along step (reset procId) c n) :=
      Run.inv_along (fun _ _ => quiet_step) (quiet_reset procId) hf n
    exact live_of_quiet hquiet (hf n).2

/-- `sw x0, 0(x0)`, and nothing behind it. -/
def loneStore (n : ℕ) : Core.Cycle :=
  { (default : Core.Cycle) with
    pipe := { (default : Backend.Cycle) with ir := 0x2023, if2decEmpty := n ≠ 0 } }

/-- The store is presented again in the cycle after it has left EXE2MEM. -/
theorem not_always_live_loneStore :
    ¬ ∀ n, Live (Run.along step (reset 0) loneStore n) (loneStore n) := by
  intro h
  have hlive := h 3
  revert hlive
  decide +kernel

end LiveEffects

end RiVerSoC
