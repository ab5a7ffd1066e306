/-
The loop of fetch and decode.

READ_PC runs one instruction ahead of IF2DEC; DEC2IF has the address that is fetched next.

* `Loop.step` — the loop with its two FIFOs, for any stalls and jumps;
* `holds_step` — READ_PC stays four bytes ahead of the instruction in IF2DEC, which is the next
  one of the program;
* `loop_step` — the core makes these steps, when the fetch stage follows its FIFOs;
* `each_follows_program` — then the instructions that leave DEC are those of the program, in order.
-/
import RiVerSoC.AccessDecode
import RiVerSoC.Cpu
import RiVerSoC.Forwarding
import RiVerSoC.NextPc
import RiVerSoC.Run

namespace RiVerSoC

namespace FetchLoop

/-! ### The loop alone -/

/-- READ_PC and the addresses in the two FIFOs. -/
@[ext]
structure Loop where
  readPc : BitVec 32
  dec2if : Fifo (BitVec 32)
  if2dec : Fifo (BitVec 32)
deriving DecidableEq, Repr

/-- What one cycle decides: whether DEC waits, whether its instruction jumps and where to, and
whether the fetch comes in. -/
structure Moves where
  stall : Bool
  jump : Bool
  target : BitVec 32
  fetch : Bool
deriving DecidableEq, Repr

namespace Loop

variable (l : Loop) (v : Moves)

/-- `DEC2IF_POP_SI`. -/
def dec2ifPop : Bool := v.jump && !v.stall || v.fetch

/-- `if2dec_push`. -/
def if2decPush : Bool := !(v.jump && !v.stall) && v.fetch

/-- `dec2if_push_sd` and `WRITE_PC_ENABLE_SD`. -/
def redirects : Bool :=
  !l.dec2if.isFull (dec2ifPop v) && (!(v.jump && l.if2dec.v) || !v.stall)

/-- `pc_out`, when it is written. -/
def pcOut : BitVec 32 := if v.jump && l.if2dec.v then v.target else l.readPc + 4

def step : Loop where
  readPc := if l.redirects v then l.pcOut v else l.readPc
  dec2if := l.dec2if.clock (l.redirects v) (dec2ifPop v) (l.pcOut v)
  if2dec := l.if2dec.clock (if2decPush v) (!v.stall) l.dec2if.dout

/-- The instruction at `n` is the next one to leave DEC: it is in IF2DEC, or still to be fetched;
only after a reset its address is not in DEC2IF yet. -/
def Holds (n : BitVec 32) : Prop :=
  if l.if2dec.v then l.if2dec.dout = n ∧ l.dec2if = ⟨n + 4, true⟩ ∧ l.readPc = n + 4
  else if l.dec2if.v then l.dec2if.dout = n ∧ l.readPc = n
  else l.readPc + 4 = n

/-- The cycle fits the FIFOs: DEC waits for an instruction, and the fetch comes in only with an
address, and with room in IF2DEC. -/
structure Fits : Prop where
  empty : l.if2dec.v = false → v.stall = true
  address : v.fetch = true → l.dec2if.v = true
  room : l.if2dec.v = true → v.stall = true → v.fetch = false

variable {l v} {n : BitVec 32}

theorem holds_step (h : l.Holds n) (hv : l.Fits v) :
    (l.step v).Holds (if v.stall then n else if v.jump then v.target else n + 4) := by
  obtain ⟨readPc, ⟨adr, full⟩, ⟨pc, valid⟩⟩ := l
  obtain ⟨stall, jump, target, fetch⟩ := v
  obtain ⟨hempty, haddress, hroom⟩ := hv
  cases valid with
  | true =>
    obtain ⟨rfl, hdec2if, rfl⟩ : pc = n ∧ (⟨adr, full⟩ : Fifo _) = ⟨n + 4, true⟩ ∧
        readPc = n + 4 := h
    obtain ⟨rfl, rfl⟩ := Fifo.mk.inj hdec2if
    cases stall with
    | true =>
      -- DEC keeps its instruction, and nothing moves
      obtain rfl : fetch = false := hroom rfl rfl
      cases jump <;> simp [Holds, step, redirects, dec2ifPop, if2decPush, Fifo.isFull, Fifo.clock]
    | false =>
      cases jump <;> cases fetch <;>
        simp [Holds, step, redirects, pcOut, dec2ifPop, if2decPush, Fifo.isFull, Fifo.clock]
  | false =>
    obtain rfl : stall = true := hempty rfl
    cases full with
    | true =>
      obtain ⟨rfl, rfl⟩ : adr = n ∧ readPc = n := h
      cases jump <;> cases fetch <;>
        simp [Holds, step, redirects, pcOut, dec2ifPop, if2decPush, Fifo.isFull, Fifo.clock]
    | false =>
      obtain rfl : fetch = false := Bool.eq_false_iff.mpr fun hf => Bool.false_ne_true (haddress hf)
      obtain rfl : readPc + 4 = n := h
      cases jump <;>
        simp [Holds, step, redirects, pcOut, dec2ifPop, if2decPush, Fifo.isFull, Fifo.clock]

/-- After a cycle there is an address to fetch. -/
theorem dec2if_v_step (h : l.Holds n) (hv : l.Fits v) : (l.step v).dec2if.v = true := by
  obtain ⟨readPc, ⟨adr, full⟩, ⟨pc, valid⟩⟩ := l
  obtain ⟨stall, jump, target, fetch⟩ := v
  obtain ⟨hempty, haddress, hroom⟩ := hv
  cases valid with
  | true =>
    obtain rfl : full = true := congrArg Fifo.v h.2.1
    cases stall with
    | true =>
      obtain rfl : fetch = false := hroom rfl rfl
      cases jump <;> rfl
    | false => cases jump <;> cases fetch <;> rfl
  | false =>
    obtain rfl : stall = true := hempty rfl
    cases jump <;> cases fetch <;> cases full <;> rfl

end Loop

/-! ### The core as the loop -/

open Backend (decSig decOperation decPush decWord)

/-- READ_PC and the addresses in the two FIFOs of the core. -/
def loop (s : Cpu.State) : Loop := ⟨s.front.pc, s.dec2if.map Dec2If.pc, s.if2dec.map If2Dec.pc⟩

/-- What a cycle of the core decides. -/
def moves (s : Cpu.State) (i : Cpu.Cycle) : Moves where
  stall := (decSig s.pipe (Cpu.cycle s i)).stallSd
  jump := (decOperation s.pipe (Cpu.cycle s i)).jump
  target := (Cpu.shown s i).pc + (decOperation s.pipe (Cpu.cycle s i)).offsetBranch
  fetch := !Ifetch.stall (Cpu.fetchInputs s i)

/-- No exception, and nothing predicted. -/
structure Unpredicted (s : Cpu.State) (i : Cpu.Cycle) : Prop where
  exception : Cpu.exceptionSm s i = false
  seen : (Cpu.seen s i).exceptionSm = false
  predTaken : (Cpu.shown s i).predTaken = false
  pbTaken : i.pbTaken = false

variable {s : Cpu.State} {i : Cpu.Cycle}

/-- DEC does not look at the signals of `pc_inc`. -/
theorem operation_fetched :
    decOperation s.pipe (Core.cycle s.front.core (Front.fetched s.front (Cpu.front s i))) =
      decOperation s.pipe (Cpu.cycle s i) := rfl

theorem jump_pcInputs : (Front.pcInputs s.front (Cpu.front s i)).jump = (moves s i).jump :=
  congrArg Decode.Operation.jump operation_fetched

theorem offsetBranch_pcInputs : (Front.pcInputs s.front (Cpu.front s i)).offsetBranch =
    (decOperation s.pipe (Cpu.cycle s i)).offsetBranch :=
  congrArg Decode.Operation.offsetBranch operation_fetched

theorem gestion_of_unpredicted (h : Unpredicted s i) : Cpu.if2decGestion s i =
    (!(moves s i).stall, (moves s i).jump && !(moves s i).stall) := by
  have hgestion := Cpu.gestion_signals (s := s) (i := i)
  rw [Cpu.signals_of_not_trap h.exception] at hgestion
  have hpc : Pc.if2decGestion (Front.pcInputs s.front (Cpu.front s i)) =
      (!(moves s i).stall, (moves s i).jump && !(moves s i).stall) := by
    rw [Pc.if2decGestion, Cpu.stallSd_pcInputs, jump_pcInputs,
      show (Front.pcInputs s.front (Cpu.front s i)).predTaken = false from h.predTaken,
      if_neg Bool.false_ne_true]
    change (if (moves s i).stall = true then _ else _) = _
    cases (moves s i).stall <;> cases (moves s i).jump <;> rfl
  exact Prod.ext (hgestion.1.symm.trans (congrArg Prod.fst hpc))
    (hgestion.2.symm.trans (congrArg Prod.snd hpc))

theorem fetch_of_unpredicted (h : Unpredicted s i) :
    (Cpu.fetch s i).if2decPush = Loop.if2decPush (moves s i) ∧
      (Cpu.fetch s i).dec2ifPop = Loop.dec2ifPop (moves s i) ∧
      (Cpu.fetch s i).if2decIn.pc = s.dec2if.dout.pc := by
  obtain ⟨hpush, hpop, hin, -⟩ :=
    Ifetch.fetchMethod_of_not_trap (i := Cpu.fetchInputs s i) s.fetch h.seen
  have hflush : (Cpu.fetchInputs s i).if2decFlush = ((moves s i).jump && !(moves s i).stall) :=
    congrArg Prod.snd (gestion_of_unpredicted h)
  refine ⟨hpush.trans ?_, hpop.trans ?_, (congrArg If2Dec.pc hin).trans ?_⟩
  · rw [hflush]
    rfl
  · rw [hflush]
    rfl
  · rw [Ifetch.fetchPc, show (Cpu.fetchInputs s i).pbTaken = false from h.pbTaken]
    rfl

/-- The signals of `pc_inc`; `pc_out` matters when it is written. -/
theorem signals_of_unpredicted (h : Unpredicted s i) :
    (Cpu.signals s i).if2decPop = !(moves s i).stall ∧
      (Cpu.signals s i).writePcEnable = (loop s).redirects (moves s i) ∧
      (Cpu.signals s i).dec2ifPush = (loop s).redirects (moves s i) ∧
      ((loop s).redirects (moves s i) = true →
        (Cpu.signals s i).writePc = (loop s).pcOut (moves s i) ∧
        (Cpu.signals s i).resPc = (loop s).pcOut (moves s i)) := by
  have hadd : Pc.addOffsetToPc (Front.pcInputs s.front (Cpu.front s i)) =
      ((moves s i).jump && (loop s).if2dec.v) := by
    rw [Pc.addOffsetToPc, jump_pcInputs]
    change (_ && !!s.if2dec.v) = _
    rw [Bool.not_not]
    rfl
  have hfull : (Front.pcInputs s.front (Cpu.front s i)).dec2ifFull =
      (loop s).dec2if.isFull (Loop.dec2ifPop (moves s i)) := by
    rw [← (fetch_of_unpredicted h).2.1]
    rfl
  have hredirects : Pc.redirects (Front.pcInputs s.front (Cpu.front s i)) =
      (loop s).redirects (moves s i) := by
    rw [Pc.redirects, hadd, hfull, Cpu.stallSd_pcInputs, Loop.redirects]
    change (_ || _ && !(moves s i).stall) = _
    cases (moves s i).jump && (loop s).if2dec.v <;>
      cases (loop s).dec2if.isFull (Loop.dec2ifPop (moves s i)) <;>
      cases (moves s i).stall <;> rfl
  have hout : (loop s).redirects (moves s i) = true →
      Pc.pcOut (Front.pcInputs s.front (Cpu.front s i)) = (loop s).pcOut (moves s i) := by
    intro hr
    rw [Loop.redirects, Bool.and_eq_true, Bool.not_eq_true'] at hr
    rw [Pc.pcOut, hadd, hfull, hr.1, Cpu.stallSd_pcInputs,
      show (Front.pcInputs s.front (Cpu.front s i)).predTaken = false from h.predTaken, Loop.pcOut]
    cases hj : (moves s i).jump && (loop s).if2dec.v with
    | true =>
      -- a jump redirects when DEC does not stall
      have hstall : (decSig s.pipe (Cpu.cycle s i)).stallSd = false := by
        have hor := hr.2
        rw [hj, Bool.not_true, Bool.false_or, Bool.not_eq_true'] at hor
        exact hor
      simp only [hstall, Bool.not_true, Bool.not_false, Bool.and_true, Bool.false_eq_true,
        if_false, if_true, offsetBranch_pcInputs]
      rfl
    | false =>
      simp only [Bool.not_false, Bool.and_true, Bool.false_and, Bool.false_eq_true, if_false,
        if_true]
      rfl
  have hpop := Cpu.gestion_signals (s := s) (i := i)
  rw [gestion_of_unpredicted h] at hpop
  refine ⟨hpop.1, ?_⟩
  rw [Cpu.signals_of_not_trap h.exception]
  exact ⟨hredirects, hredirects, fun hr => ⟨hout hr, hout hr⟩⟩

/-- The core makes the steps of the loop. -/
theorem loop_step (h : Unpredicted s i) : loop (Cpu.step s i) = (loop s).step (moves s i) := by
  obtain ⟨hfetch, hpop, hin⟩ := fetch_of_unpredicted h
  obtain ⟨hif2dec, hwrite, hpush, hout⟩ := signals_of_unpredicted h
  have hpc : (loop (Cpu.step s i)).readPc = ((loop s).step (moves s i)).readPc := by
    change (if (Cpu.signals s i).writePcEnable = true then (Cpu.signals s i).writePc
      else s.front.pc) = if (loop s).redirects (moves s i) = true then _ else _
    rw [hwrite]
    by_cases hr : (loop s).redirects (moves s i) = true
    · rw [if_pos hr, if_pos hr, (hout hr).1]
    · rw [if_neg hr, if_neg hr]
      rfl
  have hdec2if : (loop (Cpu.step s i)).dec2if = ((loop s).step (moves s i)).dec2if := by
    change (s.dec2if.clock (Cpu.signals s i).dec2ifPush (Cpu.fetch s i).dec2ifPop
      (Cpu.dec2ifIn s i)).map Dec2If.pc = _
    rw [Fifo.clock_map, hpush, hpop]
    by_cases hr : (loop s).redirects (moves s i) = true
    · rw [show (Cpu.dec2ifIn s i).pc = (loop s).pcOut (moves s i) from (hout hr).2]
      rfl
    · rw [Bool.not_eq_true] at hr
      rw [hr]
      refine (Fifo.clock_of_not_push _ _ _ ((loop s).pcOut (moves s i))).trans ?_
      rw [Loop.step, hr]
      rfl
  have hif2decStep : (loop (Cpu.step s i)).if2dec = ((loop s).step (moves s i)).if2dec := by
    change (s.if2dec.clock (Cpu.fetch s i).if2decPush (Cpu.signals s i).if2decPop
      (Cpu.fetch s i).if2decIn).map If2Dec.pc = _
    rw [Fifo.clock_map, hfetch, hif2dec, hin]
    rfl
  exact Loop.ext hpc hdec2if hif2decStep

/-! ### The program -/

/-- The core, and the address of the instruction that leaves DEC next. -/
structure Machine where
  cpu : Cpu.State
  next : BitVec 32

/-- The first `pc_inc` adds 4 to `PC_INIT`. -/
def reset (procId pcInit : BitVec 32) : Machine := ⟨Cpu.reset procId pcInit, pcInit + 4⟩

variable (m : Machine) (i : Cpu.Cycle)

/-- An instruction leaves DEC. -/
def leaves : Bool := decPush m.cpu.pipe (Cpu.cycle m.cpu i)

def step : Machine where
  cpu := Cpu.step m.cpu i
  next :=
    if leaves m i then
      Decode.nextPc (Cpu.shown m.cpu i).instr m.next
        (decSig m.cpu.pipe (Cpu.cycle m.cpu i)).haz.rdata1
        (decSig m.cpu.pipe (Cpu.cycle m.cpu i)).haz.rdata2
    else m.next

/-- Prediction is off, and there is no exception. -/
def Quiet : Prop :=
  Cpu.exceptionSm m.cpu i = false ∧
    (leaves m i = true → (decWord m.cpu.pipe (Cpu.cycle m.cpu i)).exception = false) ∧
    (Cpu.shown m.cpu i).predTaken = false ∧ i.pbTaken = false

/-- `fetch_method` hands on the word of IF2DEC and stalls when IF2DEC is full, and a system
instruction that is not decoded is taken for no jump. -/
def Timely : Prop :=
  (m.cpu.if2dec.v = true → Cpu.shown m.cpu i = m.cpu.if2dec.dout) ∧
    (m.cpu.if2dec.isFull (Cpu.if2decGestion m.cpu i).1 = true →
      Ifetch.stall (Cpu.fetchInputs m.cpu i) = true) ∧
    (leaves m i = true → Decode.otherSystem (decSig m.cpu.pipe (Cpu.cycle m.cpu i)).types
      (decSig m.cpu.pipe (Cpu.cycle m.cpu i)).insts = true → i.core.pipe.uninit.jump = false)

/-- READ_PC is four bytes ahead of IF2DEC, and an instruction that leaves DEC is the next one of
the program. -/
def Follows : Prop :=
  (m.cpu.if2dec.v = true → m.cpu.front.pc = m.cpu.if2dec.dout.pc + 4) ∧
    (leaves m i = true → m.cpu.if2dec.v = true ∧ (Cpu.shown m.cpu i).pc = m.next)

instance : Decidable (Quiet m i) := inferInstanceAs (Decidable (_ ∧ _))

instance : Decidable (Timely m i) := inferInstanceAs (Decidable (_ ∧ _))

instance : Decidable (Follows m i) := inferInstanceAs (Decidable (_ ∧ _))

/-- What holds in every cycle of a run without an exception. -/
structure Inv : Prop where
  holds : (loop m.cpu).Holds m.next
  empty : m.cpu.dec2ifEmpty = false → m.cpu.dec2if.v = true
  before : m.cpu.before.exceptionSm = false
  seen : m.cpu.seen.exceptionSm = false

theorem inv_reset (procId pcInit : BitVec 32) : Inv (reset procId pcInit) where
  holds := rfl
  empty h := absurd h (by decide : ¬ true = false)
  before := rfl
  seen := rfl

variable {m i}

theorem unpredicted_of_quiet (h : Inv m) (hq : Quiet m i) : Unpredicted m.cpu i where
  exception := hq.1
  seen := by
    change i.sights.exceptionSm.choose (Cpu.exceptionSm m.cpu i) m.cpu.before.exceptionSm
      m.cpu.seen.exceptionSm = false
    rw [hq.1, h.before, h.seen]
    cases i.sights.exceptionSm <;> rfl
  predTaken := hq.2.2.1
  pbTaken := hq.2.2.2

theorem leaves_eq (hq : Quiet m i) : leaves m i = !(moves m.cpu i).stall := by
  rw [leaves, decPush, show (Cpu.cycle m.cpu i).exceptionSm = false from hq.1, Bool.false_or]
  rfl

theorem fits_of_timely (h : Inv m) (hq : Quiet m i) (ht : Timely m i) :
    (loop m.cpu).Fits (moves m.cpu i) where
  empty hv := by
    have hempty : (Cpu.cycle m.cpu i).if2decEmpty = true := by
      change (!m.cpu.if2dec.v) = true
      rw [show m.cpu.if2dec.v = false from hv]
      rfl
    change (_ || (Cpu.cycle m.cpu i).if2decEmpty || _) = true
    rw [hempty, Bool.or_true, Bool.true_or]
  address hf := by
    have hstall : Ifetch.stall (Cpu.fetchInputs m.cpu i) = false := by
      rwa [moves, Bool.not_eq_true'] at hf
    have hempty : Cpu.dec2ifEmpty m.cpu i = false := (Bool.or_eq_false_iff.mp hstall).2
    unfold Cpu.dec2ifEmpty at hempty
    cases he : i.emptySeen with
    | true =>
      rw [he, if_pos rfl, Fifo.isEmpty, Bool.not_eq_false'] at hempty
      exact hempty
    | false =>
      rw [he, if_neg Bool.false_ne_true] at hempty
      exact h.empty hempty
  room hv hstall := by
    have hfull : m.cpu.if2dec.isFull (Cpu.if2decGestion m.cpu i).1 = true := by
      rw [gestion_of_unpredicted (unpredicted_of_quiet h hq), hstall, Fifo.isFull,
        show m.cpu.if2dec.v = true from hv]
      rfl
    rw [moves, ht.2.1 hfull]
    rfl

/-- The instruction in DEC, when it leaves. -/
theorem in_dec_of_leaves (h : Inv m) (hq : Quiet m i) (ht : Timely m i) (hl : leaves m i = true) :
    m.cpu.if2dec.v = true ∧ (Cpu.shown m.cpu i).pc = m.next ∧ m.cpu.front.pc = m.next + 4 := by
  have hv : m.cpu.if2dec.v = true := by
    cases hv : m.cpu.if2dec.v with
    | true => rfl
    | false =>
      rw [leaves_eq hq, (fits_of_timely h hq ht).empty hv] at hl
      exact absurd hl Bool.false_ne_true
  have hholds := h.holds
  rw [Loop.Holds, if_pos (show (loop m.cpu).if2dec.v = true from hv)] at hholds
  exact ⟨hv, (congrArg If2Dec.pc (ht.1 hv)).trans hholds.1, hholds.2.2⟩

theorem follows_of_inv (h : Inv m) (hq : Quiet m i) (ht : Timely m i) : Follows m i := by
  refine ⟨fun hv => ?_, fun hl => ?_⟩
  · have hholds := h.holds
    rw [Loop.Holds, if_pos (show (loop m.cpu).if2dec.v = true from hv)] at hholds
    exact hholds.2.2.trans (congrArg (· + 4) hholds.1.symm)
  · obtain ⟨hv, hpc, -⟩ := in_dec_of_leaves h hq ht hl
    exact ⟨hv, hpc⟩

/-- An instruction without an exception jumps to a multiple of 4. -/
theorem aligned_of_jump (h : Inv m) (hq : Quiet m i) (ht : Timely m i) (hl : leaves m i = true)
    (hjump : (moves m.cpu i).jump = true) : (moves m.cpu i).target.toNat % 4 = 0 := by
  obtain ⟨hv, -, -⟩ := in_dec_of_leaves h hq ht hl
  have hstall : (moves m.cpu i).stall = false := by
    rwa [leaves_eq hq, Bool.not_eq_true'] at hl
  have hadd : ((moves m.cpu i).jump && (loop m.cpu).if2dec.v) = true := by
    rw [hjump, Bool.true_and]
    exact hv
  have hredirects : (loop m.cpu).redirects (moves m.cpu i) = true := by
    rw [Loop.redirects, Loop.dec2ifPop, Fifo.isFull, hadd, hjump, hstall]
    cases (loop m.cpu).dec2if.v <;> rfl
  obtain ⟨-, -, -, hout⟩ := signals_of_unpredicted (unpredicted_of_quiet h hq)
  have hwrite : (Cpu.signals m.cpu i).writePc = (moves m.cpu i).target := by
    rw [(hout hredirects).1, Loop.pcOut, if_pos hadd]
  have hmisaligned : (Cpu.signals m.cpu i).instructionAdressMissaligned =
      ((Cpu.signals m.cpu i).writePc &&& 3 != 0) := by
    rw [Cpu.signals_of_not_trap hq.1]
    rfl
  by_cases hthree : (moves m.cpu i).target &&& 3 = 0
  · exact (Access.and_three_eq_zero _).mp hthree
  · have hflag : ((Cpu.cycle m.cpu i).fetch.instructionAccessFault ||
        (Cpu.cycle m.cpu i).fetch.instructionAdressMissaligned) = true := by
      change (_ || (Cpu.signals m.cpu i).instructionAdressMissaligned) = true
      rw [hmisaligned, hwrite, bne_iff_ne.mpr hthree, Bool.or_true]
    have hexc := Backend.exception_decWord (s := m.cpu.pipe) hq.1 hflag
    exact absurd (hexc.symm.trans (hq.2.1 hl)) (by decide)

/-- Where DEC goes is where the program goes. -/
theorem next_step (h : Inv m) (hq : Quiet m i) (ht : Timely m i) :
    (step m i).next = if (moves m.cpu i).stall then m.next
      else if (moves m.cpu i).jump then (moves m.cpu i).target else m.next + 4 := by
  cases hstall : (moves m.cpu i).stall with
  | true =>
    have hl : leaves m i = false := by
      rw [leaves_eq hq, hstall]
      rfl
    rw [step, hl, if_neg Bool.false_ne_true, if_pos rfl]
  | false =>
    have hl : leaves m i = true := by
      rw [leaves_eq hq, hstall]
      rfl
    obtain ⟨hv, hpc, hread⟩ := in_dec_of_leaves h hq ht hl
    obtain ⟨-, -, -, -, -, -, -, -, -, hlegal⟩ :=
      Backend.decWord_eq (s := m.cpu.pipe) (i := Cpu.cycle m.cpu i) hq.1
    have hprogram := @Decode.pcOut_eq_nextPc (Cpu.shown m.cpu i).instr
      (decSig m.cpu.pipe (Cpu.cycle m.cpu i)).insts (decSig m.cpu.pipe (Cpu.cycle m.cpu i)).types
      rfl rfl
      { rdata1 := (decSig m.cpu.pipe (Cpu.cycle m.cpu i)).haz.rdata1
        rdata2 := (decSig m.cpu.pipe (Cpu.cycle m.cpu i)).haz.rdata2
        pcIf2dec := (Cpu.shown m.cpu i).pc
        readPc := m.cpu.front.pc
        csrRdataSc := (Cpu.cycle m.cpu i).csrRdataSc
        if2decEmpty := m.cpu.if2dec.isEmpty } i.core.pipe.uninit m.cpu.pipe.operation
      (hread.trans (congrArg (· + 4) hpc.symm))
      (by rw [Fifo.isEmpty, hv]; rfl)
      (hlegal (hq.2.1 hl)) (ht.2.2 hl) (aligned_of_jump h hq ht hl)
    rw [step, hl, if_pos rfl, if_neg Bool.false_ne_true, ← hpc]
    exact hprogram.symm

theorem inv_step (h : Inv m) (hq : Quiet m i) (ht : Timely m i) : Inv (step m i) where
  holds := by
    rw [next_step h hq ht]
    change (loop (Cpu.step m.cpu i)).Holds _
    rw [loop_step (unpredicted_of_quiet h hq)]
    exact Loop.holds_step h.holds (fits_of_timely h hq ht)
  empty := by
    intro _
    have hv := Loop.dec2if_v_step h.holds (fits_of_timely h hq ht)
    rw [← loop_step (unpredicted_of_quiet h hq)] at hv
    exact hv
  before := hq.1
  seen := (unpredicted_of_quiet h hq).seen

/-- Along every run without an exception in which the fetch stage follows its FIFOs, READ_PC is
four bytes ahead of IF2DEC, and the instructions that leave DEC are those of the program, in
order. -/
theorem each_follows_program (procId pcInit : BitVec 32) (is : List Cpu.Cycle)
    (h : Run.Each (fun m i => Quiet m i ∧ Timely m i) step (reset procId pcInit) is) :
    Run.Each Follows step (reset procId pcInit) is := by
  refine Run.each_of_inv ?_ ?_ (inv_reset procId pcInit) h
  · rintro m i hinv ⟨hq, ht⟩
    exact follows_of_inv hinv hq ht
  · rintro m i hinv ⟨hq, ht⟩
    exact inv_step hinv hq ht

/-- The instruction cache has the word, and `fetch_method` reads `if2dec_full` of this cycle or of
the one before. -/
def cached (instSic : BitVec 32) (if2decFull : Cpu.Sight) : Cpu.Cycle :=
  { (default : Cpu.Cycle) with
    instSic := instSic
    sights := ⟨.present, if2decFull, .present⟩
    emptySeen := true }

/-- `lw x1, 0(x0)`, `add x2, x1, x1`, for which DEC waits in the fourth cycle, and `jal x0, -8`. -/
def loadUse (if2decFull : Cpu.Sight) : List Cpu.Cycle :=
  [cached 0 .present, cached 0x00002083 .present, cached 0x00108133 .present,
    cached 0xff9ff06f if2decFull, cached 0xff9ff06f .present, cached 0x00000013 .present,
    cached 0x00002083 .present, cached 0x00108133 .present]

theorem each_follows_program_loadUse : Run.Each Follows step (reset 0 (-4)) (loadUse .present) :=
  each_follows_program 0 (-4) _ (by decide +kernel)

/-- Nothing that wakes `fetch_method` changes after `if2dec_full` has risen: it pushes into the
full IF2DEC, and the `jal` is lost. -/
theorem not_each_follows_program_loadUse :
    Run.Each Quiet step (reset 0 (-4)) (loadUse .before) ∧
      ¬ Run.Each Follows step (reset 0 (-4)) (loadUse .before) := by
  decide +kernel

end FetchLoop

end RiVerSoC
