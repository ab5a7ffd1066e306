/-
The back end is a queue.

DEC numbers the words that it pushes, and the numbers go through the three FIFOs beside the words.
The FIFOs stand for the list of the instructions in flight, oldest first.

* `Kind` — what a word says about its instruction in all the three FIFOs;
* `Holds` — the numbers and the words in the FIFOs are those of the instructions in the list;
* `queueStep` — without a trap, WBK takes the oldest instruction of the list, and DEC adds one;
* `consumed_after` — along every run without a trap, WBK gets what DEC pushed.
-/
import RiVerSoC.Core
import RiVerSoC.InFlight

namespace RiVerSoC

namespace InOrder

open RiVerSoC.Core (Cycle memOut)
open Backend (Fits regOf decPush decWord exePush exeSig exeInputs memPush memWord
  wbkPop mem2wbk_not_full)

/-- The destination of an instruction, and what is to be done with it. -/
structure Kind where
  dest : BitVec 6
  wb : Bool
  csrWenable : Bool
  multInst : Bool
deriving DecidableEq, Repr

def ofDec2Exe (w : Dec2Exe) : Kind := ⟨w.dest, w.wb || w.memLoad, w.csrWenable, w.multInst⟩

def ofExe2Mem (w : Exe2Mem) : Kind := ⟨w.dest, w.wb || w.memLoad, w.csrWenable, w.multInst⟩

def ofMem2Wbk (w : Mem2Wbk) : Kind := ⟨regOf w.dest, w.wb, w.csrWenable, w.multInst⟩

/-- The core, with the numbers of the words in DEC2EXE, EXE2MEM and MEM2WBK. -/
structure Machine where
  core : Core.State
  dec : Fifo ℕ
  mem : Fifo ℕ
  wbk : Fifo ℕ
  /-- How many words DEC has pushed. -/
  count : ℕ

/-- An instruction, with its number. -/
abbrev Passed := ℕ × Kind

def reset (procId : BitVec 32) : Machine := ⟨Core.reset procId, default, default, default, 0⟩

variable (m : Machine) (i : Cycle)

abbrev Machine.pipe (m : Machine) : Backend.State := m.core.pipe

/-- The cycle as the stages see it. -/
def cycle : Backend.Cycle := Core.cycle m.core i

def step : Machine where
  core := Core.step m.core i
  dec := m.dec.clock (decPush m.pipe (cycle m i)) (exePush m.pipe (cycle m i)) m.count
  mem := m.mem.clock (exePush m.pipe (cycle m i)) (memPush m.pipe (cycle m i)) m.dec.dout
  wbk := m.wbk.clock (memPush m.pipe (cycle m i)) (wbkPop m.pipe) m.mem.dout
  count := if decPush m.pipe (cycle m i) then m.count + 1 else m.count

/-- The instruction that WBK takes from MEM2WBK. -/
def consumed : List Passed := Fifo.moved (wbkPop m.pipe) (m.wbk.dout, ofMem2Wbk m.pipe.rm)

/-- The instruction that DEC pushes into DEC2EXE. -/
def pushed : List Passed :=
  Fifo.moved (decPush m.pipe (cycle m i)) (m.count, ofDec2Exe (decWord m.pipe (cycle m i)))

/-- The FIFOs hold the instructions of the list, oldest first.  The word in EXE2MEM is that of
its instruction, unless EXE has found it to be an exception and taken its effects away. -/
def Holds (m : Machine) (q : List Passed) : Prop :=
  ∃ mem : Fifo Kind, mem.v = m.pipe.exe2mem.v ∧
    (m.pipe.re.exception = false → mem.dout = ofExe2Mem m.pipe.re) ∧
    q = (m.wbk.pair (m.pipe.mem2wbk.map ofMem2Wbk)).toList ++ (m.mem.pair mem).toList ++
      (m.dec.pair (m.pipe.dec2exe.map ofDec2Exe)).toList

/-- The numbers stand where the words stand. -/
structure Beside (m : Machine) : Prop where
  dec : m.dec.v = m.pipe.dec2exe.v
  mem : m.mem.v = m.pipe.exe2mem.v
  wbk : m.wbk.v = m.pipe.mem2wbk.v

/-- The state stands for the instructions of the list. -/
structure Represents (m : Machine) (q : List Passed) : Prop where
  latched : Core.Latched m.core
  fits : Fits m.pipe
  beside : Beside m
  holds : Holds m q

/-- MEM takes no trap. -/
def NoTrap : Prop := (memOut m.core i).exceptionSm = false

instance : Decidable (NoTrap m i) := inferInstanceAs (Decidable (_ = _))

variable {m i}

/-! ### The three FIFOs -/

theorem ofMem2Wbk_memWord {p : Backend.State} {c : Backend.Cycle} (h : Fits p) :
    ofMem2Wbk (memWord p c) = ofExe2Mem p.re := by
  unfold ofMem2Wbk ofExe2Mem
  rw [show regOf (memWord p c).dest = p.re.dest from h.dest]
  rfl

/-- EXE keeps what a word says of an instruction that is no exception. -/
theorem ofExe2Mem_dinSe {p : Backend.State} {c : Backend.Cycle} (hx : c.exceptionSm = false)
    (hexc : (exeSig p c).exe2memDinSe.exception = false) :
    ofExe2Mem (exeSig p c).exe2memDinSe = ofDec2Exe p.rd := by
  obtain ⟨j, hj⟩ := Backend.dinSe_eq_fifoConcat (s := p) hx
  rw [hj] at hexc ⊢
  have heff : Exe.effects (exeInputs p c) (exeSig p c).exceptionSe =
      (p.rd.wb, p.rd.memLoad, p.rd.memStore) :=
    if_neg (by rw [show (exeSig p c).exceptionSe = false from hexc]; exact Bool.false_ne_true)
  unfold ofExe2Mem ofDec2Exe
  rw [heff]
  rfl

/-! ### Steps -/

theorem beside_step (h : Beside m) : Beside (step m i) where
  dec := Fifo.v_clock_congr h.dec
  mem := Fifo.v_clock_congr h.mem
  wbk := Fifo.v_clock_congr h.wbk

theorem holds_step {q : List Passed} (h : Represents m q) (hx : NoTrap m i) :
    ∃ q', Holds (step m i) q' ∧ consumed m ++ q' = q ++ pushed m i := by
  obtain ⟨hl, hfits, ⟨hbdec, hbmem, hbwbk⟩, mem, hv, hdout, rfl⟩ := h
  have hexc : m.pipe.re.exception = false := (Core.memOut_of_not_trap hl hx).1
  have hx' : (cycle m i).exceptionSm = false := hx
  refine ⟨_, ⟨mem.clock (exePush m.pipe (cycle m i)) (memPush m.pipe (cycle m i))
    (ofDec2Exe m.pipe.rd), ?_, ?_, rfl⟩, ?_⟩
  · exact Fifo.v_clock_congr hv
  · intro hexc'
    cases hload : m.pipe.exe2mem.loads (exePush m.pipe (cycle m i))
        (memPush m.pipe (cycle m i)) with
    | true =>
      have hre : (step m i).pipe.re = (exeSig m.pipe (cycle m i)).exe2memDinSe :=
        Backend.re_of_loads hload
      rw [hre] at hexc' ⊢
      rw [ofExe2Mem_dinSe hx' hexc', Fifo.clock_of_load (hload ▸ Fifo.loads_congr hv)]
    | false =>
      have hre : (step m i).pipe.re = m.pipe.re := Backend.re_of_not_loads hload
      rw [hre, Fifo.dout_clock_of_not_load (hload ▸ Fifo.loads_congr hv)]
      exact hdout hexc
  -- MEM2WBK, EXE2MEM and DEC2EXE, each of them as a queue of numbered words
  · have hwbk := Fifo.toList_clock (m.wbk.pair (m.pipe.mem2wbk.map ofMem2Wbk))
      (memPush m.pipe (cycle m i)) (wbkPop m.pipe)
      (m.mem.dout, ofMem2Wbk (memWord m.pipe (cycle m i)))
      (fun hp => by
        rw [wbkPop, Fifo.isEmpty, Bool.not_not] at hp
        exact hbwbk.trans hp)
      (fun _ => (Fifo.isFull_congr hbwbk).trans (mem2wbk_not_full m.pipe))
    have hmem := Fifo.toList_clock (m.mem.pair mem) (exePush m.pipe (cycle m i))
      (memPush m.pipe (cycle m i)) (m.dec.dout, ofDec2Exe m.pipe.rd)
      (fun hp => hbmem.trans (Backend.v_of_memPush hp))
      (fun hp => (Fifo.isFull_congr hbmem).trans (Backend.not_stall_of_exePush hx' hp).1)
    have hexe := Fifo.toList_clock (m.dec.pair (m.pipe.dec2exe.map ofDec2Exe))
      (decPush m.pipe (cycle m i)) (exePush m.pipe (cycle m i))
      (m.count, ofDec2Exe (decWord m.pipe (cycle m i)))
      (fun hp => hbdec.trans (Backend.v_of_exePush hx' hp))
      (fun hp => (Fifo.isFull_congr hbdec).trans (Backend.not_full_of_decPush hx' hp))
    have hwbk' : (step m i).wbk.pair ((step m i).pipe.mem2wbk.map ofMem2Wbk) =
        (m.wbk.pair (m.pipe.mem2wbk.map ofMem2Wbk)).clock (memPush m.pipe (cycle m i))
          (wbkPop m.pipe) (m.mem.dout, ofMem2Wbk (memWord m.pipe (cycle m i))) := by
      rw [← Fifo.clock_pair (g := m.pipe.mem2wbk.map ofMem2Wbk) hbwbk, ← Fifo.clock_map]
      rfl
    have hmem' : (step m i).mem.pair (mem.clock (exePush m.pipe (cycle m i))
        (memPush m.pipe (cycle m i)) (ofDec2Exe m.pipe.rd)) = _ :=
      Fifo.clock_pair (hbmem.trans hv.symm)
    have hexe' : (step m i).dec.pair ((step m i).pipe.dec2exe.map ofDec2Exe) =
        (m.dec.pair (m.pipe.dec2exe.map ofDec2Exe)).clock (decPush m.pipe (cycle m i))
          (exePush m.pipe (cycle m i)) (m.count, ofDec2Exe (decWord m.pipe (cycle m i))) := by
      rw [← Fifo.clock_pair (g := m.pipe.dec2exe.map ofDec2Exe) hbdec, ← Fifo.clock_map]
      rfl
    have hmid : mem.dout = ofMem2Wbk (memWord m.pipe (cycle m i)) :=
      (hdout hexc).trans (ofMem2Wbk_memWord hfits).symm
    have hsecond : (m.mem.pair mem).dout =
        (m.mem.dout, ofMem2Wbk (memWord m.pipe (cycle m i))) := congrArg (Prod.mk _) hmid
    rw [hsecond] at hmem
    rw [hwbk', hmem', hexe']
    exact Fifo.append_series (Fifo.append_series hwbk hmem) hexe

theorem queueStep (hx : NoTrap m i) :
    Run.QueueStep (fun m _ => consumed m) pushed Represents step m i := by
  intro q h
  obtain ⟨q', hq', heq⟩ := holds_step h hx
  exact ⟨q', ⟨Core.latched_step h.latched, Backend.fits_step _ h.fits, beside_step h.beside, hq'⟩,
    heq⟩

theorem represents_reset (procId : BitVec 32) : Represents (reset procId) [] where
  latched := Core.latched_reset procId
  fits := Backend.fits_reset
  beside := ⟨rfl, rfl, rfl⟩
  holds := ⟨⟨ofExe2Mem default, false⟩, rfl, fun _ => rfl, rfl⟩

/-- DEC gives the numbers out in order, each of them once. -/
theorem numbers_pushed (is : List Cycle) : ∀ m : Machine,
    (Run.collect pushed step m is).map Prod.fst =
      List.range' m.count (Run.collect pushed step m is).length := by
  induction is with
  | nil =>
    intro m
    rfl
  | cons i is ih =>
    intro m
    have hcount : (step m i).count = m.count + (pushed m i).length := by
      rw [step, pushed, Fifo.moved]
      cases decPush m.pipe (cycle m i) <;> rfl
    have hfirst : (pushed m i).map Prod.fst = List.range' m.count (pushed m i).length := by
      rw [pushed, Fifo.moved]
      cases decPush m.pipe (cycle m i) <;> rfl
    rw [Run.collect, List.map_append, List.length_append, ih, hfirst, hcount,
      List.range'_append_1]

/-- Along every run without a trap, WBK takes from MEM2WBK what DEC pushed into DEC2EXE: the
instructions with the numbers 0, 1, 2 and so on, each once, in this order and with the same
destinations and kinds, up to what the FIFOs still hold. -/
theorem consumed_after (procId : BitVec 32) (is : List Cycle)
    (h : Run.Each NoTrap step (reset procId) is) :
    (Run.collect pushed step (reset procId) is).map Prod.fst =
        List.range (Run.collect pushed step (reset procId) is).length ∧
      ∃ inFlight, Holds (Run.after step (reset procId) is) inFlight ∧
        Run.collect (fun m _ => consumed m) step (reset procId) is ++ inFlight =
          Run.collect pushed step (reset procId) is := by
  have hsteps : Run.Each (Run.QueueStep (fun m _ => consumed m) pushed Represents step)
      step (reset procId) is := Run.each_mono (fun _ _ => queueStep) h
  obtain ⟨q, hq, heq⟩ := Run.queue_after (represents_reset procId) hsteps
  have hnumbers := numbers_pushed is (reset procId)
  rw [List.range_eq_range']
  exact ⟨hnumbers, q, hq.holds, heq⟩

/-- A load and a multiplication, with the data cache waiting in MEM for two cycles. -/
def waitingLoad : List Cycle :=
  [(0x00002083, false), (0x02208133, false), (0x13, false), (0x13, true), (0x13, true),
    (0x13, false), (0x13, false)].map fun c =>
      { (default : Cycle) with
        pipe := { (default : Backend.Cycle) with ir := c.1, mcacheStall := c.2 } }

theorem consumed_after_waitingLoad :
    ∃ inFlight, Holds (Run.after step (reset 0) waitingLoad) inFlight ∧
      Run.collect (fun m _ => consumed m) step (reset 0) waitingLoad ++ inFlight =
        Run.collect pushed step (reset 0) waitingLoad :=
  (consumed_after 0 waitingLoad (by decide +kernel)).2

end InOrder

end RiVerSoC
