/-
The instructions in flight, numbered.

DEC numbers the instructions that it pushes, and the numbers go through the FIFOs with them.
A word that no instruction stands behind, of a trap or from the fetch stage during one, has
none.

* `Machine` — the core with the numbers, and what has become of them;
* `accounts_step` — a number is in the queue or has been dropped by a trap;
* `inv_step` — a word without a number does nothing, and what has acted is not dropped;
* `not_acted_of_killed` — so what a trap has dropped never acts;
* `older_step`, `younger_step` — a trap that drops the word in MEM drops all the younger ones,
  and WBK takes the older ones.
-/
import RiVerSoC.Cpu
import RiVerSoC.Ledger
import Mathlib.Data.List.ReduceOption

namespace RiVerSoC

namespace Numbered

open Backend (decPush exePush memPush wbkPop wenable regOf decWord exeSig memWord)
open Cpu (Cycle)

/-- The core, and the instructions in it. -/
structure Machine where
  cpu : Cpu.State
  /-- The numbers beside DEC2EXE, EXE2MEM and MEM2WBK. -/
  dec : Fifo (Option ℕ)
  mem : Fifo (Option ℕ)
  wbk : Fifo (Option ℕ)
  /-- The addresses of the instructions that DEC has pushed. -/
  pcs : List (BitVec 32)
  /-- Those that WBK has taken, those that have done something, and those that a trap has
  dropped. -/
  retired : List ℕ
  acted : List ℕ
  killed : List ℕ
  /-- Where the next instruction has to come from after a trap into machine mode. -/
  awaiting : Option (BitVec 32)

def reset (procId pcInit : BitVec 32) : Machine where
  cpu := Cpu.reset procId pcInit
  dec := default
  mem := default
  wbk := default
  pcs := []
  retired := []
  acted := []
  killed := []
  awaiting := none

/-- The numbers in a place. -/
def tags (f : Fifo (Option ℕ)) : List ℕ := f.toList.reduceOption

/-- The word writes no register and accesses no memory. -/
def inert (w : Exe2Mem) : Bool := !w.memLoad && !w.memStore && (!w.wb || w.dest == 0)

variable (m : Machine) (i : Cycle)

abbrev Machine.pipe (m : Machine) : Backend.State := m.cpu.pipe

/-- The cycle as the stages see it. -/
def cycle : Backend.Cycle := Cpu.cycle m.cpu i

/-- The signals of MEM. -/
def memOut : Mem.Outputs := Core.memOut m.cpu.front.core (Cpu.coreCycle m.cpu i)

/-- MEM takes a trap. -/
def trap : Bool := (memOut m i).exceptionSm

/-- The number of the word that DEC offers. -/
def decTag : Option ℕ :=
  if trap m i || (Cpu.shown m.cpu i).nop then none else some m.pcs.length

/-- DEC pushes an instruction. -/
def issues : Bool := decPush m.pipe (cycle m i) && (decTag m i).isSome

/-- A trap drops the word in MEM when it has nothing left to do; the return from a trap is
done. -/
def drops : Bool :=
  trap m i && memPush m.pipe (cycle m i) && inert m.pipe.re && !m.pipe.re.mret

/-- What a trap drops. -/
def dropped : List ℕ :=
  if trap m i then (if drops m i then tags m.mem else []) ++ tags m.dec else []

/-- WBK writes a register other than x0. -/
def writesBack : Bool := wenable m.pipe && regOf m.pipe.rm.dest != 0

/-- MEM asks the data cache for something. -/
def accesses : Bool := m.pipe.re.memLoad || m.pipe.re.memStore

/-- MEM writes a CSR for the word in it. -/
def writesCsr : Bool := !trap m i && (memOut m i).port.csrEnableSm

/-- What does something in this cycle. -/
def acting : List ℕ :=
  (if writesBack m then m.wbk.dout.toList else []) ++
    if accesses m || writesCsr m i then m.mem.dout.toList else []

/-- Where a trap into machine mode goes. -/
def vector : Option (BitVec 32) :=
  if (memOut m i).currentModeSm = 3 ∧ (memOut m i).mretSm = false then
    Pc.trapVector (Front.pcInputs m.cpu.front (Cpu.front m.cpu i))
  else none

def step : Machine where
  cpu := Cpu.step m.cpu i
  dec := m.dec.clock (decPush m.pipe (cycle m i)) (exePush m.pipe (cycle m i))
    (decTag m i)
  mem := m.mem.clock (exePush m.pipe (cycle m i)) (memPush m.pipe (cycle m i))
    (if trap m i then none else m.dec.dout)
  wbk := m.wbk.clock (memPush m.pipe (cycle m i)) (wbkPop m.pipe)
    (if drops m i then none else m.mem.dout)
  pcs := if issues m i then m.pcs ++ [(Cpu.shown m.cpu i).pc] else m.pcs
  retired := m.retired ++ (Fifo.moved (wbkPop m.pipe) m.wbk.dout).reduceOption
  acted := m.acted ++ acting m i
  killed := m.killed ++ dropped m i
  awaiting := if trap m i then vector m i else if issues m i then none else m.awaiting

/-! ### The queue -/

/-- The instructions that WBK has taken, and those in flight, oldest first. -/
def queue : List ℕ := m.retired ++ tags m.wbk ++ tags m.mem ++ tags m.dec

/-- The numbers stand where the words stand. -/
structure Beside (m : Machine) : Prop where
  dec : m.dec.v = m.pipe.dec2exe.v
  mem : m.mem.v = m.pipe.exe2mem.v
  wbk : m.wbk.v = m.pipe.mem2wbk.v

variable {m i}

theorem beside_reset (procId pcInit : BitVec 32) : Beside (reset procId pcInit) := ⟨rfl, rfl, rfl⟩

theorem beside_step (h : Beside m) : Beside (step m i) where
  dec := Fifo.v_clock_congr h.dec
  mem := Fifo.v_clock_congr h.mem
  wbk := Fifo.v_clock_congr h.wbk

/-- WBK takes a word in every cycle. -/
theorem tags_wbk_step (h : Beside m) :
    (step m i).retired ++ tags (step m i).wbk = m.retired ++ tags m.wbk ++
      (Fifo.moved (memPush m.pipe (cycle m i))
        (if drops m i then none else m.mem.dout)).reduceOption := by
  have hwbk := Fifo.toList_clock m.wbk (memPush m.pipe (cycle m i)) (wbkPop m.pipe)
    (if drops m i then none else m.mem.dout)
    (fun hp => by
      rw [wbkPop, Fifo.isEmpty, Bool.not_not] at hp
      exact h.wbk.trans hp)
    (fun _ => (Fifo.isFull_congr h.wbk).trans (Backend.mem2wbk_not_full m.pipe))
  have hnumbers := congrArg List.reduceOption hwbk
  rw [List.reduceOption_append, List.reduceOption_append] at hnumbers
  unfold tags
  rw [List.append_assoc m.retired, ← hnumbers, ← List.append_assoc]
  rfl

theorem not_drops_of_not_trap (hx : trap m i = false) : drops m i = false := by
  rw [drops, hx]
  rfl

theorem reduceOption_moved (b : Bool) (t : Option ℕ) :
    (Fifo.moved b t).reduceOption = if b then t.toList else [] := by
  cases b <;> cases t <;> rfl

theorem tags_eq (f : Fifo (Option ℕ)) : tags f = if f.v then f.dout.toList else [] :=
  reduceOption_moved f.v f.dout

theorem tags_none (v : Bool) : tags ⟨none, v⟩ = [] := by
  cases v <;> rfl

/-- The instruction that DEC pushes. -/
def issued (m : Machine) (i : Cycle) : List ℕ := if issues m i then [m.pcs.length] else []

/-- Without a trap, the instructions in flight move on. -/
theorem queue_step_of_not_trap (h : Beside m) (hx : trap m i = false) :
    queue (step m i) = queue m ++ issued m i := by
  have hx' : (cycle m i).exceptionSm = false := hx
  have hmem := Fifo.toList_clock m.mem (exePush m.pipe (cycle m i)) (memPush m.pipe (cycle m i))
    (if trap m i then none else m.dec.dout)
    (fun hp => h.mem.trans (Backend.v_of_memPush hp))
    (fun hp => (Fifo.isFull_congr h.mem).trans (Backend.not_stall_of_exePush hx' hp).1)
  have hdec := Fifo.toList_clock m.dec (decPush m.pipe (cycle m i)) (exePush m.pipe (cycle m i))
    (decTag m i)
    (fun hp => h.dec.trans (Backend.v_of_exePush hx' hp))
    (fun hp => (Fifo.isFull_congr h.dec).trans (Backend.not_full_of_decPush hx' hp))
  have hwbk := tags_wbk_step (i := i) h
  rw [not_drops_of_not_trap hx, if_neg Bool.false_ne_true] at hwbk
  rw [hx, if_neg Bool.false_ne_true] at hmem
  have hseries := congrArg List.reduceOption (Fifo.append_series hmem hdec)
  simp only [List.reduceOption_append] at hseries
  have hissued : (Fifo.moved (decPush m.pipe (cycle m i)) (decTag m i)).reduceOption =
      issued m i := by
    rw [reduceOption_moved, issued, issues, decTag]
    cases decPush m.pipe (cycle m i) <;> split_ifs <;> simp_all
  have hpipe : tags (step m i).mem = (Fifo.clock m.mem (exePush m.pipe (cycle m i))
      (memPush m.pipe (cycle m i)) m.dec.dout).toList.reduceOption := by
    change (Fifo.clock m.mem _ _ (if trap m i then none else m.dec.dout)).toList.reduceOption = _
    rw [hx, if_neg Bool.false_ne_true]
  unfold queue
  rw [hwbk, hpipe, ← hissued, List.append_assoc, List.append_assoc, List.append_assoc,
    List.append_assoc, List.append_assoc]
  unfold tags at *
  simp only [List.append_assoc] at hseries ⊢
  rw [← hseries]
  rfl

/-- A trap drops the end of the queue. -/
theorem queue_step_of_trap (h : Beside m) (hx : trap m i = true) :
    queue m = queue (step m i) ++ dropped m i := by
  have hx' : (cycle m i).exceptionSm = true := hx
  have hexe : exePush m.pipe (cycle m i) = true := by rw [exePush, hx', Bool.true_or]
  have hdecPush : decPush m.pipe (cycle m i) = true := by rw [decPush, hx', Bool.true_or]
  have hdec : tags (step m i).dec = [] := by
    change tags (Fifo.clock m.dec _ _ (decTag m i)) = []
    rw [hdecPush, hexe, Fifo.clock_of_load (by rfl), decTag, hx]
    rfl
  have hwbk := tags_wbk_step (i := i) h
  rw [reduceOption_moved] at hwbk
  -- the word in MEM has gone to WBK, or has been dropped, or stays
  have hmem : tags m.mem = (if memPush m.pipe (cycle m i) then
      (if drops m i then none else m.mem.dout).toList else []) ++ tags (step m i).mem ++
        (if drops m i then tags m.mem else []) := by
    change tags m.mem =
      _ ++ tags (Fifo.clock m.mem _ _ (if trap m i then none else m.dec.dout)) ++ _
    rw [hx, if_pos rfl, hexe]
    cases hpush : memPush m.pipe (cycle m i) with
    | true =>
      have hv : m.mem.v = true := h.mem.trans (Backend.v_of_memPush hpush)
      rw [Fifo.clock_of_load (by rfl), if_pos rfl]
      cases hd : drops m i with
      | true => rw [if_pos rfl, if_pos rfl]; rfl
      | false =>
        rw [if_neg Bool.false_ne_true, if_neg Bool.false_ne_true, tags_eq m.mem, hv, tags_none,
          List.append_nil, List.append_nil]
        rfl
    | false =>
      have hd : drops m i = false := by rw [drops, hpush, Bool.and_false]; rfl
      rw [hd]
      cases hv : m.mem.v with
      | true => rw [Fifo.clock_of_stays hv rfl]; simp
      | false =>
        rw [Fifo.clock_of_load (by rw [Fifo.loads, hv]; rfl), tags_eq, hv]
        rfl
  unfold queue dropped
  rw [hwbk, hdec, if_pos hx, List.append_nil]
  have hqueue := congrArg (fun l => m.retired ++ tags m.wbk ++ l ++ tags m.dec) hmem
  simpa only [List.append_assoc] using hqueue

/-! ### Words that do nothing -/

/-- The word in DEC2EXE does nothing. -/
structure Idle (w : Dec2Exe) : Prop where
  memLoad : w.memLoad = false
  memStore : w.memStore = false
  csrWenable : w.csrWenable = false
  dest : w.dest = 0

/-- The word in EXE2MEM does nothing. -/
structure IdleInMem (w : Exe2Mem) : Prop where
  memLoad : w.memLoad = false
  memStore : w.memStore = false
  csrWenable : w.csrWenable = false
  dest : w.dest = 0

section Decoding

variable {s : Backend.State} {c : Backend.Cycle}

/-- A CSR instruction is no access. -/
theorem not_access_of_csrWenable {ir : BitVec 32} {t : Decode.Types} {n : Decode.Insts}
    {src : Decode.Sources} {u : Decode.Uninit} {old : Decode.Operation}
    (h : (Decode.postRegReadDecoding ir t n src u old).csrWenable = true) :
    (Decode.postRegReadDecoding ir t n src u old).memLoad = false ∧
      (Decode.postRegReadDecoding ir t n src u old).memStore = false := by
  change (Decode.operation ir t n src u old).1.csrWenable = true at h
  change (Decode.operation ir t n src u old).1.memLoad = false ∧
    (Decode.operation ir t n src u old).1.memStore = false
  unfold Decode.operation at h ⊢
  split_ifs at h ⊢ <;> first | exact absurd h Bool.false_ne_true | exact ⟨rfl, rfl⟩

theorem decWord_of_not_trap (hx : c.exceptionSm = false) :
    decWord s c = Dec.concatDec2exe false c.fetch (Backend.decInsts s c)
      (Backend.decRegs s c) (Backend.decSig s c).haz (Backend.decOperation s c) c.csrRdataSc := by
  rw [decWord, hx]

theorem csr_decWord (h : (decWord s c).csrWenable = true) :
    (decWord s c).memLoad = false ∧ (decWord s c).memStore = false := by
  cases hx : c.exceptionSm with
  | true => rw [Backend.decWord_of_exceptionSm hx]; exact ⟨rfl, rfl⟩
  | false =>
    rw [decWord_of_not_trap hx] at h ⊢
    exact not_access_of_csrWenable h

theorem nop_decodingInstructionType : Decode.decodingInstructionType Ifetch.nopEncoding =
    { (default : Decode.Types) with i := true } := by decide

theorem nop_decodingInstruction : Decode.decodingInstruction Ifetch.nopEncoding =
    { (default : Decode.Insts) with addi := true } := by decide

/-- The word whose `ebreak_i_sd` `concat_dec2exe` has read last writes no register. -/
theorem wb_of_ebreakSd (hold : s.ebreak = true → s.operation.wb = false)
    (h : Backend.ebreakSd s c = true) : (Backend.decOperation s c).wb = false := by
  unfold Backend.ebreakSd at h
  split_ifs at h with hheard
  · exact Decode.wb_of_ebreak rfl rfl _ _ _ h
  · rw [Bool.or_eq_true, not_or, bne_iff_ne, not_not] at hheard
    rw [hheard.2]
    exact hold h

/-- The `nop` of the fetch stage does nothing, and is an exception for its fetch only. -/
theorem decWord_of_nop (hx : c.exceptionSm = false) (hir : c.ir = Ifetch.nopEncoding) :
    Idle (decWord s c) ∧
      (decWord s c).exception = (c.fetch.instructionAdressMissaligned ||
        c.fetch.instructionAccessFault || Backend.ebreakSd s c) ∧
      (Backend.decOperation s c).jump = false ∧ (Backend.decOperation s c).wb = true := by
  obtain ⟨src, u, old, hop⟩ : ∃ src u old, Backend.decOperation s c =
      Decode.postRegReadDecoding Ifetch.nopEncoding
        (Decode.decodingInstructionType Ifetch.nopEncoding)
        (Decode.decodingInstruction Ifetch.nopEncoding) src u old :=
    ⟨_, _, _, by rw [← hir]; rfl⟩
  obtain ⟨mode, regs, hregs⟩ : ∃ mode regs, Backend.decRegs s c =
      Decode.preRegReadDecoding Ifetch.nopEncoding
        (Decode.decodingInstructionType Ifetch.nopEncoding)
        (Decode.decodingInstruction Ifetch.nopEncoding) mode regs :=
    ⟨_, _, by rw [← hir]; rfl⟩
  have hinsts : Backend.decInsts s c =
      { Decode.decodingInstruction Ifetch.nopEncoding with ebreak := Backend.ebreakSd s c } := by
    rw [← hir]
    rfl
  rw [decWord_of_not_trap hx, hop, hregs, hinsts, nop_decodingInstructionType,
    nop_decodingInstruction]
  refine ⟨⟨rfl, rfl, rfl, rfl⟩, ?_, rfl, rfl⟩
  change (false || c.fetch.instructionAdressMissaligned || false || false || false || false ||
    false || c.fetch.instructionAccessFault || Backend.ebreakSd s c) = _
  simp only [Bool.false_or, Bool.or_false]

theorem ebreakSd_of_nop (hold : s.ebreak = true → s.operation.wb = false)
    (hx : c.exceptionSm = false) (hir : c.ir = Ifetch.nopEncoding) :
    Backend.ebreakSd s c = false := by
  obtain ⟨-, -, -, hwb⟩ := decWord_of_nop (s := s) hx hir
  cases h : Backend.ebreakSd s c with
  | false => rfl
  | true => exact absurd ((wb_of_ebreakSd hold h).symm.trans hwb) Bool.false_ne_true

/-- What EXE offers for a word. -/
theorem effects_dinSe (hx : c.exceptionSm = false) :
    ((exeSig s c).exe2memDinSe.exception = true →
      (exeSig s c).exe2memDinSe.wb = false ∧ (exeSig s c).exe2memDinSe.memLoad = false ∧
        (exeSig s c).exe2memDinSe.memStore = false) ∧
      (s.rd.memLoad = false → (exeSig s c).exe2memDinSe.memLoad = false) ∧
      (s.rd.memStore = false → (exeSig s c).exe2memDinSe.memStore = false) ∧
      (exeSig s c).exe2memDinSe.dest = s.rd.dest ∧
      (exeSig s c).exe2memDinSe.mret = s.rd.mret := by
  obtain ⟨j, hj⟩ := Backend.dinSe_eq_fifoConcat (s := s) hx
  rw [hj]
  change (_ → (Exe.effects _ _).1 = _ ∧ (Exe.effects _ _).2.1 = _ ∧ (Exe.effects _ _).2.2 = _) ∧
    (_ → (Exe.effects _ _).2.1 = _) ∧ (_ → (Exe.effects _ _).2.2 = _) ∧ _
  refine ⟨?_, ?_, ?_, rfl, rfl⟩
  · intro hexc
    have hexc' : (exeSig s c).exceptionSe = true := hexc
    rw [hexc', Exe.effects, if_pos rfl]
    exact ⟨rfl, rfl, rfl⟩
  · intro hload
    unfold Exe.effects
    split_ifs
    · rfl
    · exact hload
  · intro hstore
    unfold Exe.effects
    split_ifs
    · rfl
    · exact hstore

end Decoding

/-! ### The invariant -/

/-- A word of a trap is a `nop`. -/
def IsNop (w : If2Dec) : Prop := w.nop = true → w.instr = Ifetch.nopEncoding ∧ w.predTarget = 0

/-- What holds of the words in the FIFOs. -/
structure Words (m : Machine) : Prop where
  dec : m.dec.dout = none → Idle m.pipe.rd
  mem : m.mem.dout = none → IdleInMem m.pipe.re
  wbk : m.wbk.dout = none → m.pipe.rm.wb = true → regOf m.pipe.rm.dest = 0
  csrRd : m.pipe.rd.csrWenable = true → m.pipe.rd.memLoad = false ∧ m.pipe.rd.memStore = false
  csrRe : m.pipe.re.csrWenable = true → m.pipe.re.memLoad = false ∧ m.pipe.re.memStore = false
  exception : m.pipe.re.exception = true →
    m.pipe.re.wb = false ∧ m.pipe.re.memLoad = false ∧ m.pipe.re.memStore = false
  pcRd : ∀ n ∈ m.dec.dout, m.pcs[n]? = some m.pipe.rd.pc

/-- What holds of the words between the fetch stage and DEC. -/
structure Fetched (s : Cpu.State) : Prop where
  if2dec : IsNop s.if2dec.dout
  before : IsNop s.before.if2decOut
  seen : IsNop s.seen.if2decOut
  shown : IsNop s.fetch.shown

/-- The instructions that MEM is through with. -/
def passed (m : Machine) : List ℕ := m.retired ++ tags m.wbk

/-- What holds in every cycle. -/
structure Inv (m : Machine) : Prop where
  beside : Beside m
  accounts : Ledger.Accounts (queue m) m.killed m.pcs.length
  latched : Core.Latched m.cpu.front.core
  portWritten : Core.PortWritten m.cpu.front.core
  fetched : Fetched m.cpu
  words : Words m
  ebreak : m.pipe.ebreak = true → m.pipe.operation.wb = false
  /-- A word that EXE2MEM only shows any more has gone to WBK. -/
  retained : m.mem.v = false → ∀ n ∈ m.mem.dout, n ∈ passed m
  acted : ∀ n ∈ m.acted, n ∈ passed m ∨ n ∈ tags m.mem ∧ accesses m = true

theorem inv_reset (procId pcInit : BitVec 32) : Inv (reset procId pcInit) where
  beside := beside_reset procId pcInit
  accounts := Ledger.accounts_nil
  latched := Core.latched_reset procId
  portWritten := Core.portWritten_reset procId
  fetched := ⟨fun h => absurd h Bool.false_ne_true, fun h => absurd h Bool.false_ne_true,
    fun h => absurd h Bool.false_ne_true, fun h => absurd h Bool.false_ne_true⟩
  words := ⟨fun _ => ⟨rfl, rfl, rfl, rfl⟩, fun _ => ⟨rfl, rfl, rfl, rfl⟩,
    fun _ h => absurd h Bool.false_ne_true, fun _ => ⟨rfl, rfl⟩, fun _ => ⟨rfl, rfl⟩,
    fun h => absurd h Bool.false_ne_true, fun _ h => absurd h (Option.not_mem_none _)⟩
  ebreak h := absurd h Bool.false_ne_true
  retained _ _ h := absurd h (Option.not_mem_none _)
  acted _ h := absurd h List.not_mem_nil

/-! ### Fetched words -/

theorem isNop_choose {a b c : If2Dec} (ha : IsNop a) (hb : IsNop b) (hc : IsNop c)
    (s : Cpu.Sight) : IsNop (s.choose a b c) := by
  cases s
  · exact ha
  · exact hb
  · exact hc

theorem isNop_shown (h : Fetched m.cpu) : IsNop (Cpu.shown m.cpu i) := by
  unfold Cpu.shown
  split_ifs
  · exact h.shown
  · exact isNop_choose h.if2dec h.before h.seen _

theorem fetched_step (h : Fetched m.cpu) : Fetched (step m i).cpu where
  if2dec := by
    refine Fifo.pair_clock (P := fun w _ => IsNop w) (g := m.cpu.if2dec)
      (b := (Cpu.fetch m.cpu i).if2decIn) rfl h.if2dec ?_
    intro _
    cases hx : (Cpu.seen m.cpu i).exceptionSm with
    | true =>
      obtain ⟨-, -, hin⟩ := Ifetch.fetchMethod_of_trap (i := Cpu.fetchInputs m.cpu i)
        m.cpu.fetch hx
      rw [Cpu.fetch, hin]
      exact fun _ => ⟨rfl, rfl⟩
    | false =>
      obtain ⟨-, -, hin, -⟩ := Ifetch.fetchMethod_of_not_trap (i := Cpu.fetchInputs m.cpu i)
        m.cpu.fetch hx
      rw [Cpu.fetch, hin]
      exact fun hn => absurd hn Bool.false_ne_true
  before := h.if2dec
  seen := isNop_choose h.if2dec h.before h.seen _
  shown := by
    change IsNop (Cpu.fetch m.cpu i).shown
    rw [Cpu.shown_fetch]
    exact isNop_shown h

/-! ### Words in the FIFOs -/

/-- What DEC loads, it pushes. -/
theorem decPush_of_loads (hl : m.dec.loads (decPush m.pipe (cycle m i))
    (exePush m.pipe (cycle m i)) = true) : decPush m.pipe (cycle m i) = true :=
  (Bool.and_eq_true_iff.mp hl).1

theorem pcs_step {n : ℕ} {pc : BitVec 32} (h : m.pcs[n]? = some pc) :
    (step m i).pcs[n]? = some pc := by
  change (if issues m i then m.pcs ++ [(Cpu.shown m.cpu i).pc] else m.pcs)[n]? = some pc
  split_ifs
  · rw [List.getElem?_append_left (List.getElem?_eq_some_iff.mp h).1]
    exact h
  · exact h

/-- The word without a number that DEC offers does nothing. -/
theorem idle_decWord (h : Fetched m.cpu) (htag : decTag m i = none) :
    Idle (decWord m.pipe (cycle m i)) := by
  cases hx : trap m i with
  | true => rw [Backend.decWord_of_exceptionSm hx]; exact ⟨rfl, rfl, rfl, rfl⟩
  | false =>
    have hnop : (Cpu.shown m.cpu i).nop = true := by
      rw [decTag, hx, Bool.false_or] at htag
      by_contra hn
      rw [if_neg hn] at htag
      exact absurd htag (Option.some_ne_none _)
    exact (decWord_of_nop hx (isNop_shown h hnop).1).1

theorem idle_dinSe (hx : trap m i = false) (h : Idle m.pipe.rd) :
    IdleInMem (exeSig m.pipe (cycle m i)).exe2memDinSe := by
  obtain ⟨-, hload, hstore, hdest, -⟩ := effects_dinSe (s := m.pipe) (c := cycle m i) hx
  obtain ⟨-, hcsr, -⟩ := Backend.dinSe_of_not_trap (s := m.pipe) (i := cycle m i) hx
  exact ⟨hload h.memLoad, hstore h.memStore, hcsr.trans h.csrWenable, hdest.trans h.dest⟩

theorem words_step (hb : Beside m) (hf : Fetched m.cpu) (h : Words m) : Words (step m i) where
  dec := by
    refine Fifo.pair_clock (P := fun t w => t = none → Idle w) hb.dec h.dec ?_
    intro _ htag
    exact idle_decWord hf htag
  mem := by
    refine Fifo.pair_clock (P := fun t w => t = none → IdleInMem w) hb.mem h.mem ?_
    intro _ htag
    cases hx : trap m i with
    | true =>
      have hx' : (cycle m i).exceptionSm = true := hx
      change IdleInMem (exeSig m.pipe (cycle m i)).exe2memDinSe
      obtain ⟨pc, hpc⟩ := Backend.dinSe_of_trap (s := m.pipe) hx'
      rw [hpc]
      exact ⟨rfl, rfl, rfl, rfl⟩
    | false =>
      rw [hx, if_neg Bool.false_ne_true] at htag
      exact idle_dinSe hx (h.dec htag)
  wbk := by
    refine Fifo.pair_clock (P := fun t w => t = none → w.wb = true → regOf w.dest = 0) hb.wbk
      h.wbk ?_
    intro _ htag hwb
    have hdest : m.pipe.re.dest = 0 := by
      -- a number is dropped only from a word that writes nothing
      cases hd : drops m i with
      | true =>
        simp only [drops, inert, Bool.and_eq_true, Bool.or_eq_true, Bool.not_eq_true',
          beq_iff_eq] at hd
        obtain ⟨⟨-, ⟨hload, -⟩, hwb' | hdest⟩, -⟩ := hd
        · have hwb'' : (m.pipe.re.wb || m.pipe.re.memLoad) = true := hwb
          rw [hwb', hload] at hwb''
          exact absurd hwb'' Bool.false_ne_true
        · exact hdest
      | false =>
        rw [hd, if_neg Bool.false_ne_true] at htag
        exact (h.mem htag).dest
    change regOf (m.pipe.re.dest.setWidth 5) = 0
    rw [hdest]
    rfl
  csrRd := by
    refine Fifo.pair_clock (P := fun w _ => w.csrWenable = true → w.memLoad = false ∧
      w.memStore = false) (g := m.pipe.dec2exe) (b := decWord m.pipe (cycle m i)) rfl h.csrRd ?_
    exact fun _ => csr_decWord
  csrRe := by
    refine Fifo.pair_clock (P := fun w _ => w.csrWenable = true → w.memLoad = false ∧
      w.memStore = false) (g := m.pipe.exe2mem)
      (b := (exeSig m.pipe (cycle m i)).exe2memDinSe) rfl h.csrRe ?_
    intro _ hcsr
    change (exeSig m.pipe (cycle m i)).exe2memDinSe.csrWenable = true at hcsr
    cases hx : trap m i with
    | true =>
      have hx' : (cycle m i).exceptionSm = true := hx
      obtain ⟨pc, hpc⟩ := Backend.dinSe_of_trap (s := m.pipe) hx'
      rw [hpc] at hcsr
      exact absurd hcsr Bool.false_ne_true
    | false =>
      obtain ⟨-, hload, hstore, -⟩ := effects_dinSe (s := m.pipe) (c := cycle m i) hx
      obtain ⟨-, hcsr', -⟩ := Backend.dinSe_of_not_trap (s := m.pipe) (i := cycle m i) hx
      obtain ⟨hl, hs⟩ := h.csrRd (hcsr'.symm.trans hcsr)
      exact ⟨hload hl, hstore hs⟩
  exception := by
    refine Fifo.pair_clock (P := fun w _ => w.exception = true → w.wb = false ∧ w.memLoad = false ∧
      w.memStore = false) (g := m.pipe.exe2mem)
      (b := (exeSig m.pipe (cycle m i)).exe2memDinSe) rfl h.exception ?_
    intro _ hexc
    change (exeSig m.pipe (cycle m i)).exe2memDinSe.exception = true at hexc
    cases hx : trap m i with
    | true =>
      have hx' : (cycle m i).exceptionSm = true := hx
      obtain ⟨pc, hpc⟩ := Backend.dinSe_of_trap (s := m.pipe) hx'
      rw [hpc] at hexc
      exact absurd hexc Bool.false_ne_true
    | false => exact (effects_dinSe (s := m.pipe) (c := cycle m i) hx).1 hexc
  pcRd := by
    refine Fifo.pair_clock (P := fun t w => ∀ n ∈ t, (step m i).pcs[n]? = some w.pc) hb.dec
      (fun n hn => pcs_step (h.pcRd n hn)) ?_
    intro hl n hn
    -- the new number is the place of its PC in the list
    have hissues : issues m i = true := by
      rw [issues, decPush_of_loads hl, Bool.true_and]
      exact Option.isSome_iff_exists.mpr ⟨n, hn⟩
    have hcond : ¬ (trap m i || (Cpu.shown m.cpu i).nop) = true := by
      intro hc
      rw [decTag, if_pos hc] at hn
      exact absurd hn (Option.not_mem_none _)
    have hlen : m.pcs.length = n := by
      rw [decTag, if_neg hcond] at hn
      exact Option.some.inj hn
    have hx : (cycle m i).exceptionSm = false := by
      rw [Bool.not_eq_true, Bool.or_eq_false_iff] at hcond
      exact hcond.1
    change (if issues m i then m.pcs ++ [(Cpu.shown m.cpu i).pc] else m.pcs)[n]? =
      some (decWord m.pipe (cycle m i)).pc
    rw [if_pos hissues, ← hlen, List.getElem?_concat_length, decWord_of_not_trap hx]
    rfl

/-! ### Instructions that have left MEM -/

theorem mem_passed_step {n : ℕ} (h : Beside m) (hn : n ∈ passed m) : n ∈ passed (step m i) := by
  have hstep : passed (step m i) = passed m ++ _ := tags_wbk_step h
  rw [hstep]
  exact List.mem_append_left _ hn

/-- WBK takes every word that it gets. -/
theorem retired_step (h : Beside m) : (step m i).retired = passed m := by
  change m.retired ++ (Fifo.moved (wbkPop m.pipe) m.wbk.dout).reduceOption = _
  rw [reduceOption_moved, passed, tags_eq, wbkPop, Fifo.isEmpty, Bool.not_not, h.wbk]

/-- An instruction that MEM pushes and no trap drops has left MEM. -/
theorem passed_of_memPush {n : ℕ} (h : Beside m) (hpush : memPush m.pipe (cycle m i) = true)
    (hd : drops m i = false) (hn : n ∈ m.mem.dout) : n ∈ passed (step m i) := by
  have hstep : passed (step m i) = passed m ++ _ := tags_wbk_step h
  rw [hstep, reduceOption_moved, if_pos hpush, hd, if_neg Bool.false_ne_true]
  exact List.mem_append_right _ (Option.mem_toList.mpr hn)

/-- The data cache stalls only what accesses it. -/
theorem memPush_of_not_accesses (hv : m.pipe.exe2mem.v = true) (h : accesses m = false) :
    memPush m.pipe (cycle m i) = true := by
  have hstall : (cycle m i).mcacheStall = (i.core.pipe.mcacheStall && accesses m) := rfl
  rw [memPush, hstall, h, Bool.and_false, Backend.mem2wbk_not_full, Fifo.isEmpty, hv]
  rfl

theorem not_drops_of_accesses (h : accesses m = true) : drops m i = false := by
  have hinert : inert m.pipe.re = false := by
    rw [inert, ← Bool.not_or, show (m.pipe.re.memLoad || m.pipe.re.memStore) = true from h]
    rfl
  rw [drops, hinert, Bool.and_false, Bool.false_and]

/-- A trap empties EXE2MEM, or leaves the word there. -/
theorem mem_v_of_trap (h : Beside m) (hx : trap m i = true) : (step m i).mem.v = true := by
  have hx' : (cycle m i).exceptionSm = true := hx
  have hpipe : (step m i).pipe.exe2mem = (Backend.step m.pipe (cycle m i)).exe2mem := rfl
  rw [(beside_step h).mem, hpipe]
  rcases Backend.exe2mem_of_trap (s := m.pipe) hx' with ⟨-, pc, hmem⟩ | ⟨hmem, hv⟩
  · rw [hmem]
  · rw [hmem, hv]

theorem retained_step (h : Inv m) (hv : (step m i).mem.v = false) :
    ∀ n ∈ (step m i).mem.dout, n ∈ passed (step m i) := by
  intro n hn
  cases hx : trap m i with
  | true => exact absurd ((mem_v_of_trap h.beside hx).symm.trans hv) (by decide)
  | false =>
    have hload : m.mem.loads (exePush m.pipe (cycle m i)) (memPush m.pipe (cycle m i)) = false := by
      by_contra hl
      rw [Bool.not_eq_false] at hl
      have hmem : (step m i).mem = ⟨_, true⟩ := Fifo.clock_of_load hl
      rw [hmem] at hv
      exact absurd hv.symm Bool.false_ne_true
    have hdout : (step m i).mem.dout = m.mem.dout := Fifo.dout_clock_of_not_load hload
    have hv' : (step m i).mem.v = _ := Fifo.v_clock_of_not_load hload
    rw [hv] at hv'
    rw [hdout] at hn
    cases hpush : memPush m.pipe (cycle m i) with
    | true => exact passed_of_memPush h.beside hpush (not_drops_of_not_trap hx) hn
    | false =>
      rw [hpush, Bool.not_false, Bool.and_true] at hv'
      exact mem_passed_step h.beside (h.retained hv'.symm n hn)

/-- What accesses the data cache stays in MEM, or goes on to WBK. -/
theorem access_step {n : ℕ} (h : Inv m) (hacc : accesses m = true) (hn : n ∈ m.mem.dout) :
    n ∈ passed (step m i) ∨ n ∈ tags (step m i).mem ∧ accesses (step m i) = true := by
  cases hv : m.mem.v with
  | false => exact .inl (mem_passed_step h.beside (h.retained hv n hn))
  | true =>
    cases hpush : memPush m.pipe (cycle m i) with
    | true => exact .inl (passed_of_memPush h.beside hpush (not_drops_of_accesses hacc) hn)
    | false =>
      have hv' : m.pipe.exe2mem.v = true := h.beside.mem.symm.trans hv
      have hmem : (step m i).mem = m.mem := Fifo.clock_of_stays hv hpush
      have hre : (step m i).pipe.exe2mem = m.pipe.exe2mem := Fifo.clock_of_stays hv' hpush
      refine .inr ⟨?_, ?_⟩
      · rw [hmem, tags_eq, hv]
        exact Option.mem_toList.mpr hn
      · rw [accesses, Backend.State.re, hre]
        exact hacc

/-- A word that writes a CSR leaves MEM at once. -/
theorem csr_step {n : ℕ} (h : Inv m) (hcsr : writesCsr m i = true) (hn : n ∈ m.mem.dout) :
    n ∈ passed (step m i) := by
  rw [writesCsr, Bool.and_eq_true, Bool.not_eq_true'] at hcsr
  obtain ⟨hx, hport⟩ := hcsr
  obtain ⟨-, hwrite⟩ := Core.memOut_of_not_trap h.latched hx
  have hre : m.pipe.re.csrWenable = true := by
    rw [memOut, hwrite, Mem.writePort] at hport
    by_contra hc
    rw [if_neg hc] at hport
    exact absurd hport Bool.false_ne_true
  obtain ⟨hload, hstore⟩ := h.words.csrRe hre
  cases hv : m.mem.v with
  | false => exact mem_passed_step h.beside (h.retained hv n hn)
  | true =>
    have hacc : accesses m = false := by rw [accesses, hload, hstore]; rfl
    exact passed_of_memPush h.beside
      (memPush_of_not_accesses (h.beside.mem.symm.trans hv) hacc) (not_drops_of_not_trap hx) hn

theorem acted_step (h : Inv m) :
    ∀ n ∈ (step m i).acted, n ∈ passed (step m i) ∨
      n ∈ tags (step m i).mem ∧ accesses (step m i) = true := by
  intro n hn
  have hacted : (step m i).acted = m.acted ++ acting m i := rfl
  rw [hacted, acting, List.mem_append, List.mem_append] at hn
  rcases hn with hold | hwbk | hmem
  · rcases h.acted n hold with hp | ⟨ht, hacc⟩
    · exact .inl (mem_passed_step h.beside hp)
    · rw [tags_eq] at ht
      split_ifs at ht
      · exact access_step h hacc (Option.mem_toList.mp ht)
      · exact absurd ht List.not_mem_nil
  · split_ifs at hwbk with hw
    · have hv : m.wbk.v = true := by
        rw [writesBack, wenable, Bool.and_eq_true, Bool.and_eq_true, Fifo.isEmpty,
          Bool.not_not] at hw
        exact h.beside.wbk.trans hw.1.2
      refine .inl (mem_passed_step h.beside (List.mem_append_right _ ?_))
      rw [tags_eq, hv]
      exact hwbk
    · exact absurd hwbk List.not_mem_nil
  · split_ifs at hmem with ha
    · rcases Bool.or_eq_true_iff.mp ha with hacc | hcsr
      · exact access_step h hacc (Option.mem_toList.mp hmem)
      · exact .inl (csr_step h hcsr (Option.mem_toList.mp hmem))
    · exact absurd hmem List.not_mem_nil

theorem accounts_step (h : Inv m) :
    Ledger.Accounts (queue (step m i)) (step m i).killed (step m i).pcs.length := by
  have hpcs : (step m i).pcs = if issues m i then m.pcs ++ [(Cpu.shown m.cpu i).pc] else m.pcs :=
    rfl
  have hkilled : (step m i).killed = m.killed ++ dropped m i := rfl
  rw [hkilled, hpcs]
  cases hx : trap m i with
  | true =>
    have hissues : issues m i = false := by
      rw [issues, decTag, hx, Bool.true_or, if_pos rfl]
      exact Bool.and_false _
    rw [hissues, if_neg Bool.false_ne_true]
    refine Ledger.Accounts.drop ?_
    rw [← queue_step_of_trap h.beside hx]
    exact h.accounts
  | false =>
    rw [queue_step_of_not_trap h.beside hx, dropped, hx, if_neg Bool.false_ne_true,
      List.append_nil, issued]
    cases issues m i with
    | true =>
      rw [if_pos rfl, if_pos rfl, List.length_append]
      exact h.accounts.issue
    | false =>
      rw [if_neg Bool.false_ne_true, if_neg Bool.false_ne_true, List.append_nil]
      exact h.accounts

theorem inv_step (h : Inv m) : Inv (step m i) where
  beside := beside_step h.beside
  accounts := accounts_step h
  latched := Core.latched_step h.latched
  portWritten := Core.portWritten_step
  fetched := fetched_step h.fetched
  words := words_step h.beside h.fetched h.words
  ebreak := wb_of_ebreakSd h.ebreak
  retained := retained_step h
  acted := acted_step h

theorem inv_after (procId pcInit : BitVec 32) (is : List Cycle) :
    Inv (Run.after step (reset procId pcInit) is) :=
  Run.inv_after step Inv (fun _ _ => inv_step) is (inv_reset procId pcInit)

/-! ### What a trap leaves -/

/-- What has been dropped has done nothing. -/
theorem not_acted_of_killed (h : Inv m) {n : ℕ} (hn : n ∈ m.killed) : n ∉ m.acted := by
  intro ha
  refine h.accounts.not_dropped ?_ hn
  unfold queue
  rcases h.acted n ha with hp | ⟨ht, -⟩
  · exact List.mem_append_left _ (List.mem_append_left _ hp)
  · exact List.mem_append_left _ (List.mem_append_right _ ht)

/-- What does something, other than a trap, has a number. -/
theorem isSome_of_acting (h : Inv m) :
    (writesBack m = true → m.wbk.dout.isSome = true) ∧
      ((accesses m || writesCsr m i) = true → m.mem.dout.isSome = true) := by
  constructor
  · intro hw
    by_contra hn
    rw [Bool.not_eq_true, Option.isSome_eq_false_iff, Option.isNone_iff_eq_none] at hn
    rw [writesBack, wenable, Bool.and_eq_true, Bool.and_eq_true, bne_iff_ne] at hw
    exact hw.2 (h.words.wbk hn hw.1.1)
  · intro ha
    by_contra hn
    rw [Bool.not_eq_true, Option.isSome_eq_false_iff, Option.isNone_iff_eq_none] at hn
    obtain ⟨hload, hstore, hcsr, -⟩ := h.words.mem hn
    rw [accesses, hload, hstore, Bool.or_self, Bool.false_or, writesCsr, Bool.and_eq_true,
      Bool.not_eq_true'] at ha
    obtain ⟨-, hwrite⟩ := Core.memOut_of_not_trap h.latched ha.1
    rw [memOut, hwrite, Mem.writePort, hcsr] at ha
    exact absurd ha.2 Bool.false_ne_true

variable {n k : ℕ}

theorem queue_of_mem (hv : m.mem.v = true) (hn : m.mem.dout = some n) :
    queue m = passed m ++ n :: tags m.dec := by
  rw [queue, tags_eq m.mem, hv, hn]
  exact List.append_assoc _ _ _

/-- WBK takes what is older than the word in MEM. -/
theorem older_step (h : Inv m) (hv : m.mem.v = true) (hn : m.mem.dout = some n) (hk : k < n) :
    k ∈ (step m i).retired ∨ k ∈ m.killed := by
  rw [retired_step h.beside]
  exact (queue_of_mem hv hn ▸ h.accounts : Ledger.Accounts _ _ _).older hk

/-- A trap that drops the word in MEM drops all that are younger. -/
theorem younger_step (h : Inv m) (hv : m.mem.v = true) (hn : m.mem.dout = some n)
    (hd : drops m i = true) (hk : n ≤ k) (hlt : k < m.pcs.length) : k ∈ (step m i).killed := by
  have hx : trap m i = true := by
    simp only [drops, Bool.and_eq_true] at hd
    exact hd.1.1.1
  have hkilled : (step m i).killed = m.killed ++ (n :: tags m.dec) := by
    change m.killed ++ dropped m i = _
    rw [dropped, if_pos hx, if_pos hd, tags_eq m.mem, hv, hn]
    rfl
  rw [hkilled]
  rcases (queue_of_mem hv hn ▸ h.accounts : Ledger.Accounts _ _ _).younger hk hlt with hq | hd'
  · exact List.mem_append_right _ hq
  · exact List.mem_append_left _ hd'

end Numbered

end RiVerSoC
