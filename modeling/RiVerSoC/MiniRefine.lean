/-
The small core executes its instructions one after the other.

The instructions between DEC and the registers are those that the sequential machine has still
to execute: the word of each of them is the one that it has in the state after those before it.

* `InFlight` — the FIFOs, the registers and the RAM in terms of the sequential machine;
* `decSource_eq` — DEC reads a register as the instructions in flight will have left it;
* `executes_step` — a cycle completes the instruction in WBK, and takes a new one from DEC;
* `executes` — every run is an execution of the instructions that have left DEC.
-/
import RiVerSoC.MiniSystem

namespace RiVerSoC

namespace Mini

/-- The state before the first instruction. -/
def Arch.start (ram : Ram) : Arch := ⟨Vector.replicate 33 0, ram⟩

/-- The state after some instructions. -/
def Arch.after (a : Arch) (q : List Issued) : Arch := Run.after Arch.execute a q

theorem Arch.after_append (a : Arch) (q q' : List Issued) :
    a.after (q ++ q') = (a.after q).after q' :=
  Run.after_append a q q'

namespace System

/-- The instruction that leaves DEC. -/
def issued (m : System) (i : Feed) : List Issued :=
  if m.pipe.stallSd (m.cycle i) then [] else [⟨i.delivered, i.readPc, i.offsetRead, m.pipe.decoded⟩]

/-- The instructions `qw` in WBK, `qm` in MEM and `qe` in EXE are to be executed next. -/
structure InFlight (a : Arch) (qw qm qe : List Issued) (m : System) : Prop where
  inv : m.pipe.Inv
  registers : m.pipe.registers = a.registers
  wbk : m.pipe.mem2wbk.toList = qw.map a.memWord
  mem : m.pipe.exe2mem.toList = qm.map (a.after qw).exeWord
  exe : m.pipe.dec2exe.toList = qe.map fun x => x.handed (a.after (qw ++ qm)).registers
  /-- The RAM serves a store before its instruction leaves MEM. -/
  ram : m.ram = (a.after qw).ram ∨ m.ram = (a.after (qw ++ qm)).ram

/-- The state stands for the sequential machine and what that one has still to execute. -/
def Stands (m : System) (a : Arch) (q : List Issued) : Prop :=
  ∃ qw qm qe, q = qw ++ qm ++ qe ∧ InFlight a qw qm qe m

/-! ### Words and instructions -/

section Places

variable {α β : Type*} {f : Fifo β} {g : α → β} {q : List α}

/-- A place that carries the words of some instructions has the word of one, or none. -/
theorem place_cases (h : f.toList = q.map g) :
    (q = [] ∧ f.v = false) ∨ ∃ x, q = [x] ∧ f.v = true ∧ f.dout = g x := by
  unfold Fifo.toList at h
  cases hv : f.v with
  | false =>
    rw [hv, if_neg Bool.false_ne_true] at h
    exact Or.inl ⟨List.map_eq_nil_iff.mp h.symm, rfl⟩
  | true =>
    rw [hv, if_pos rfl] at h
    obtain ⟨x, rfl, hx⟩ := List.map_eq_singleton_iff.mp h.symm
    exact Or.inr ⟨x, rfl, rfl, hx.symm⟩

end Places

section Registers

variable (g : Registers) (w : Mem2Wbk)

theorem read_writeBack {r : BitVec 6} (hr : r ≠ 0) : (writeBack g w).read r =
    if w.wb = true ∧ w.dest.setWidth 6 = r then w.memRes else g.read r := by
  have hlt : (w.dest.setWidth 6).toNat < 32 := by
    rw [BitVec.toNat_setWidth]
    have := w.dest.isLt
    omega
  have hne : w.dest.setWidth 6 ≠ (32 : BitVec 6) := by
    intro h
    rw [h] at hlt
    exact absurd hlt (by decide)
  unfold writeBack
  rw [bne_iff_ne.mpr hne, Bool.and_true]
  cases hwb : w.wb with
  | true =>
    rw [if_pos rfl, Registers.read_write _ (Nat.lt_succ_of_lt hlt) hr]
    simp
  | false => simp

theorem read_zero_writeBack : (writeBack g w).read 0 = g.read 0 := by
  unfold writeBack
  split_ifs
  · exact Registers.read_zero_write ..
  · rfl

end Registers

theorem read_zero_after (a : Arch) (q : List Issued) :
    (a.after q).registers.read 0 = a.registers.read 0 := by
  induction q generalizing a with
  | nil => rfl
  | cons x q ih => exact (ih (a.execute x)).trans (read_zero_writeBack ..)

/-! ### What the stages see -/

section Seen

variable {m : System} {i : Feed} {a : Arch} {qw qm qe : List Issued}

theorem InFlight.written_eq (h : InFlight a qw qm qe m) :
    m.pipe.written = (a.after qw).registers := by
  rw [Pipeline.written_eq, h.registers]
  rcases place_cases h.wbk with ⟨rfl, hv⟩ | ⟨x, rfl, hv, hrm⟩
  · rw [hv, if_neg Bool.false_ne_true]
    rfl
  · rw [hv, if_pos rfl, Pipeline.rm, hrm]
    rfl

/-- Served for the first time or again, the request of MEM does to the RAM what its instruction
does. -/
theorem InFlight.ramCycle_eq (h : InFlight a qw qm qe m) :
    (ramCycle m.ram m.request).1 = (a.after (qw ++ qm)).ram ∧
      ∀ x, qm = [x] → (ramCycle m.ram m.request).2 = ((a.after qw).answer x).2 := by
  rw [RiVerSoC.ramCycle_eq]
  have hram := h.ram
  rw [Arch.after_append] at hram ⊢
  rcases place_cases h.mem with ⟨rfl, hv⟩ | ⟨x, rfl, hv, hre⟩
  · refine ⟨?_, fun x hx => absurd hx.symm (List.cons_ne_nil _ _)⟩
    rw [ramAccess_of_not_valid]
    · exact hram.elim id id
    · rw [request, memPreprocess, Fifo.isEmpty, hv]
      rfl
  · have hreq : m.request = memPreprocess ((a.after qw).exeWord x) false := by
      rw [request, Pipeline.re, hre, Fifo.isEmpty, hv]
      rfl
    have hanswer : ramAccess m.ram m.request = (a.after qw).answer x := by
      rcases hram with hram | hram
      · rw [hram, hreq]
        rfl
      · rw [hram, hreq]
        exact ramAccess_ramAccess ..
    rw [hanswer]
    refine ⟨rfl, ?_⟩
    rintro y hy
    rw [(List.cons.inj hy).1]

/-- A register that no load in MEM writes has, after the instructions in MEM and WBK, the value
that the bypasses find. -/
theorem InFlight.known_eq (h : InFlight a qw qm qe m) {r : BitVec 6} (hr : r ≠ 0)
    (hload : m.pipe.loadInMem r = false) :
    m.pipe.known r = (a.after (qw ++ qm)).registers.read r := by
  have hcommitted : m.pipe.committed r = (a.after qw).registers.read r := by
    rw [← Pipeline.read_written h.inv hr, h.written_eq]
  rw [Arch.after_append, Pipeline.known, hcommitted]
  rcases place_cases h.mem with ⟨rfl, hv⟩ | ⟨x, rfl, hv, hre⟩
  · rw [if_neg fun hm => Bool.false_ne_true (hv.symm.trans (Pipeline.inMem_iff.mp hm).2)]
    rfl
  · -- the destination of the word in EXE2MEM has six bits, that of the write five
    have hdest : ((a.after qw).memWord x).dest.setWidth 6 = m.pipe.re.dest := by
      rw [← Pipeline.regOf_setWidth (h.inv.destMem hv), Pipeline.re, hre]
      rfl
    have hread := read_writeBack (a.after qw).registers ((a.after qw).memWord x) hr
    rw [hdest] at hread
    refine Eq.trans ?_ hread.symm
    by_cases hd : r = m.pipe.re.dest
    · have hm : m.pipe.inMem r = true := Pipeline.inMem_iff.mpr ⟨hd, hv⟩
      have hl : m.pipe.re.memLoad = false := Pipeline.memLoad_of_inMem hload hm
      have hwb : m.pipe.re.wb = true := h.inv.wbMem hv (hd ▸ hr)
      rw [Pipeline.re, hre] at hl hwb
      have hwrites : ((a.after qw).memWord x).wb = true := by
        rw [Arch.memWord, memWordOf, hwb, Bool.true_or]
      rw [if_pos hm, if_pos ⟨hwrites, hd.symm⟩, Pipeline.re, hre, Arch.memWord, memWordOf, hl,
        if_neg Bool.false_ne_true]
    · rw [if_neg fun hm => hd (Pipeline.inMem_iff.mp hm).1, if_neg fun hc => hd hc.2.symm]

/-- An instruction in EXE leaves the registers other than its destination alone. -/
theorem InFlight.read_exe (h : InFlight a qw qm qe m) {r : BitVec 6} (hr : r ≠ 0)
    (hexe : ¬(r = m.pipe.rd.exeDest ∧ m.pipe.dec2exe.v = true)) :
    (a.after (qw ++ qm ++ qe)).registers.read r = (a.after (qw ++ qm)).registers.read r := by
  rw [Arch.after_append]
  rcases place_cases h.exe with ⟨rfl, _⟩ | ⟨x, rfl, hv, hrd⟩
  · rfl
  · have hdest : ((a.after (qw ++ qm)).memWord x).dest.setWidth 6 = m.pipe.rd.exeDest := by
      rw [← Pipeline.regOf_setWidth (h.inv.destExe hv), Pipeline.rd, hrd]
      rfl
    refine (read_writeBack _ _ hr).trans ?_
    rw [hdest, if_neg fun hc => hexe ⟨hc.2.symm, hv⟩]

/-- DEC reads a register as the instructions in flight will have left it. -/
theorem InFlight.decSource_eq (h : InFlight a qw qm qe m) {r : BitVec 6} {old : BitVec 32}
    (hflag : (m.pipe.decSource r old).1 = false) :
    (m.pipe.decSource r old).2 = (a.after (qw ++ qm ++ qe)).registers.read r := by
  by_cases hr : r = 0
  · rw [hr, read_zero_after, ← h.registers]
    rfl
  · obtain ⟨hexe, hload, hknown⟩ := Pipeline.ready_of_decSource hr hflag
    rw [h.read_exe hr hexe, ← h.known_eq hr hload, hknown]

/-! ### One cycle -/

theorem InFlight.decWord_eq (h : InFlight a qw qm qe m)
    (hstall : m.pipe.stallSd (m.cycle i) = false) : m.pipe.decWord (m.cycle i) =
      Issued.handed ⟨i.delivered, i.readPc, i.offsetRead, m.pipe.decoded⟩
        (a.after (qw ++ qm ++ qe)).registers := by
  obtain ⟨hflag1, hflag2, -⟩ := Pipeline.of_not_stall hstall
  have h1 : m.pipe.rdata1Sd (m.cycle i) = _ := h.decSource_eq hflag1
  have h2 : m.pipe.rdata2Sd (m.cycle i) = _ := h.decSource_eq hflag2
  rw [Pipeline.decWord, Pipeline.decodedSd, h1, h2]
  rfl

theorem InFlight.exeWord_eq (h : InFlight a qw qm qe m) {x : Issued} (hx : qe = [x]) :
    m.pipe.exeWord = (a.after (qw ++ qm)).exeWord x := by
  rcases place_cases h.exe with ⟨hnil, _⟩ | ⟨y, hy, hv, hrd⟩
  · exact absurd (hx.symm.trans hnil) (List.cons_ne_nil _ _)
  · obtain rfl : x = y := (List.cons.inj (hx.symm.trans hy)).1
    have hc : Commands m.pipe.rd.optype m.pipe.rd.exeCmd := by
      rw [Pipeline.rd, hrd]
      exact commands_handed ..
    rw [Pipeline.exeWord_of_inv h.inv hv hc, Pipeline.rd, hrd]
    rfl

theorem InFlight.memWord_eq (h : InFlight a qw qm qe m) {x : Issued} (hx : qm = [x]) :
    m.pipe.memWord (m.cycle i) = (a.after qw).memWord x := by
  rcases place_cases h.mem with ⟨hnil, _⟩ | ⟨y, hy, hv, hre⟩
  · exact absurd (hx.symm.trans hnil) (List.cons_ne_nil _ _)
  · obtain rfl : x = y := (List.cons.inj (hx.symm.trans hy)).1
    have hresult : (m.cycle i).mcacheResult = ((a.after qw).answer x).2 :=
      h.ramCycle_eq.2 x hx
    change memWordOf m.pipe.re (m.cycle i).mcacheResult = _
    rw [hresult, Pipeline.re, hre]
    rfl

theorem InFlight.of_memPush (h : InFlight a qw qm qe m)
    (hp : m.pipe.memPush (m.cycle i) = true) : ∃ x, qm = [x] := by
  have hv := Pipeline.v_of_memPush hp
  rcases place_cases h.mem with ⟨_, hno⟩ | ⟨x, hx, _, _⟩
  · exact absurd (hno.symm.trans hv) Bool.false_ne_true
  · exact ⟨x, hx⟩

theorem InFlight.of_exePush (h : InFlight a qw qm qe m)
    (hp : m.pipe.exePush (m.cycle i) = true) :
    (∃ x, qe = [x]) ∧ (m.pipe.memPush (m.cycle i) = true ∨ qm = []) := by
  obtain ⟨hroom, hv, -⟩ := Pipeline.of_exePush hp
  constructor
  · rcases place_cases h.exe with ⟨_, hno⟩ | ⟨x, hx, _, _⟩
    · exact absurd (hno.symm.trans hv) Bool.false_ne_true
    · exact ⟨x, hx⟩
  · rcases place_cases h.mem with ⟨hnil, _⟩ | ⟨_, _, hvm, _⟩
    · exact Or.inr hnil
    · left
      rw [Fifo.isFull, hvm, Bool.true_and, Bool.not_eq_false'] at hroom
      exact hroom

/-- What waits in MEM and in EXE after the cycle, the instruction that has gone to WBK first. -/
theorem append_moved {α : Type*} (p : Bool) (l l' : List α) :
    (if p then l else []) ++ ((if p then [] else l) ++ l') = l ++ l' := by
  cases p <;> simp

theorem exe2mem_clock : (m.step i).pipe.exe2mem = m.pipe.exe2mem.clock
    (m.pipe.exePush (m.cycle i)) (m.pipe.memPush (m.cycle i)) m.pipe.exeWord := rfl

theorem dec2exe_clock : (m.step i).pipe.dec2exe = m.pipe.dec2exe.clock
    (!m.pipe.stallSd (m.cycle i)) (m.pipe.exePush (m.cycle i)) (m.pipe.decWord (m.cycle i)) := rfl

theorem InFlight.wbk_step (h : InFlight a qw qm qe m) : (m.step i).pipe.mem2wbk.toList =
    (if m.pipe.memPush (m.cycle i) then qm else []).map (a.after qw).memWord := by
  have hstep : (m.step i).pipe.mem2wbk = _ := Pipeline.mem2wbk_step (i := m.cycle i)
  rw [hstep]
  cases hp : m.pipe.memPush (m.cycle i) with
  | true =>
    obtain ⟨x, hx⟩ := h.of_memPush hp
    rw [if_pos rfl, if_pos rfl, h.memWord_eq hx, hx]
    rfl
  | false => rfl

theorem InFlight.mem_step (h : InFlight a qw qm qe m) : (m.step i).pipe.exe2mem.toList =
    ((if m.pipe.memPush (m.cycle i) then [] else qm) ++
      if m.pipe.exePush (m.cycle i) then qe else []).map
        ((a.after qw).after (if m.pipe.memPush (m.cycle i) then qm else [])).exeWord := by
  have hqueue := Fifo.toList_clock m.pipe.exe2mem (m.pipe.exePush (m.cycle i))
    (m.pipe.memPush (m.cycle i)) m.pipe.exeWord Pipeline.v_of_memPush
    (fun hp => (Pipeline.of_exePush hp).1)
  -- the word that EXE sends, in the state in which MEM gets it
  have hsent : Fifo.moved (m.pipe.exePush (m.cycle i)) m.pipe.exeWord =
      (if m.pipe.exePush (m.cycle i) then qe else []).map
        ((a.after qw).after (if m.pipe.memPush (m.cycle i) then qm else [])).exeWord := by
    cases hp : m.pipe.exePush (m.cycle i) with
    | false => rfl
    | true =>
      obtain ⟨⟨x, hx⟩, hroom⟩ := h.of_exePush hp
      have hqm : (if m.pipe.memPush (m.cycle i) then qm else []) = qm := by
        rcases hroom with hm | hnil
        · rw [if_pos hm]
        · rw [hnil, ite_self]
      rw [hqm, if_pos rfl, ← Arch.after_append, hx, Fifo.moved, if_pos rfl, h.exeWord_eq hx]
      rfl
  rw [exe2mem_clock, List.map_append, ← hsent]
  cases hp : m.pipe.memPush (m.cycle i) with
  | true =>
    obtain ⟨x, rfl⟩ := h.of_memPush hp
    rw [hp, h.mem] at hqueue
    exact (List.append_inj hqueue rfl).2
  | false =>
    rw [hp, h.mem] at hqueue
    exact hqueue

theorem InFlight.exe_step (h : InFlight a qw qm qe m) : (m.step i).pipe.dec2exe.toList =
    ((if m.pipe.exePush (m.cycle i) then [] else qe) ++ m.issued i).map fun x =>
      x.handed (a.after (qw ++ qm ++ if m.pipe.exePush (m.cycle i) then qe else [])).registers := by
  have hqueue := Fifo.toList_clock m.pipe.dec2exe (!m.pipe.stallSd (m.cycle i))
    (m.pipe.exePush (m.cycle i)) (m.pipe.decWord (m.cycle i))
    (fun hp => (Pipeline.of_exePush hp).2.1)
    (fun hp => (Pipeline.of_not_stall (by simpa using hp)).2.2)
  -- the word that DEC sends
  have hsent : Fifo.moved (!m.pipe.stallSd (m.cycle i)) (m.pipe.decWord (m.cycle i)) =
      (m.issued i).map fun x => x.handed
        (a.after (qw ++ qm ++ if m.pipe.exePush (m.cycle i) then qe else [])).registers := by
    unfold issued
    cases hs : m.pipe.stallSd (m.cycle i) with
    | true => rfl
    | false =>
      have hqe : (if m.pipe.exePush (m.cycle i) then qe else []) = qe := by
        cases hp : m.pipe.exePush (m.cycle i) with
        | true => exact if_pos rfl
        | false =>
          have hroom := (Pipeline.of_not_stall hs).2.2
          rcases place_cases h.exe with ⟨hnil, _⟩ | ⟨_, _, hv, _⟩
          · rw [hnil]
            rfl
          · rw [Fifo.isFull, hv, hp] at hroom
            exact absurd hroom (by decide)
      rw [hqe, if_neg Bool.false_ne_true, Bool.not_false, Fifo.moved, if_pos rfl,
        h.decWord_eq hs]
      rfl
  rw [dec2exe_clock, List.map_append, ← hsent]
  cases hp : m.pipe.exePush (m.cycle i) with
  | true =>
    obtain ⟨⟨x, rfl⟩, _⟩ := h.of_exePush hp
    rw [hp, h.exe] at hqueue
    exact (List.append_inj hqueue rfl).2
  | false =>
    rw [hp, h.exe] at hqueue
    rw [if_neg Bool.false_ne_true, if_neg Bool.false_ne_true, List.append_nil]
    exact hqueue

/-- The instruction in WBK is completed, the others go on as far as there is room. -/
theorem InFlight.step (h : InFlight a qw qm qe m) : InFlight (a.after qw)
    (if m.pipe.memPush (m.cycle i) then qm else [])
    ((if m.pipe.memPush (m.cycle i) then [] else qm) ++
      if m.pipe.exePush (m.cycle i) then qe else [])
    ((if m.pipe.exePush (m.cycle i) then [] else qe) ++ m.issued i) (m.step i) where
  inv := Pipeline.inv_step h.inv
  registers := h.written_eq
  wbk := h.wbk_step
  mem := h.mem_step
  exe := by
    rw [append_moved, h.exe_step, ← Arch.after_append, List.append_assoc]
  ram := by
    have hram : (m.step i).ram = _ := h.ramCycle_eq.1
    rw [append_moved, hram, ← Arch.after_append, ← Arch.after_append]
    cases hp : m.pipe.memPush (m.cycle i) with
    | true => exact Or.inl rfl
    | false =>
      rw [if_neg Bool.false_ne_true, List.append_nil]
      cases hx : m.pipe.exePush (m.cycle i) with
      | false =>
        right
        rw [if_neg Bool.false_ne_true, List.append_nil]
      | true =>
        -- EXE sends a word although MEM keeps its place: MEM was empty
        left
        rcases (h.of_exePush hx).2 with hm | hnil
        · exact absurd (hp.symm.trans hm) Bool.false_ne_true
        · rw [hnil, List.append_nil]

theorem executes_step (m : System) (i : Feed) :
    Run.ExecutesStep Arch.execute issued Stands step m i := by
  rintro a q ⟨qw, qm, qe, rfl, h⟩
  refine ⟨qw, qm ++ qe ++ m.issued i, ⟨_, _, _, ?_, h.step⟩, ?_⟩
  · rw [append_moved, List.append_assoc, List.append_assoc]
    congr 1
    cases m.pipe.exePush (m.cycle i) <;> simp
  · simp

end Seen

/-! ### Runs -/

theorem stands_reset (ram : Ram) : Stands (reset ram) (Arch.start ram) [] :=
  ⟨[], [], [], rfl, Pipeline.inv_reset, rfl, rfl, rfl, rfl, Or.inl rfl⟩

theorem stands_after {m : System} {a : Arch} {q : List Issued} (h : Stands m a q)
    (is : List Feed) : ∃ done waiting, Stands (Run.after step m is) (a.after done) waiting ∧
      done ++ waiting = q ++ Run.collect issued step m is := by
  have hsteps : Run.Each (Run.ExecutesStep Arch.execute issued Stands step) step m is :=
    Run.each_of_invariant (fun m i (_ : True) => executes_step m i) (fun _ _ _ => trivial) is
      trivial
  exact Run.executes_after h hsteps

/-- In every run the instructions that have left DEC are executed one after the other: those that
have left WBK have made the registers, and the stages carry the words of those behind them. -/
theorem executes (ram : Ram) (is : List Feed) : ∃ done waiting,
    Stands (Run.after step (reset ram) is) ((Arch.start ram).after done) waiting ∧
      done ++ waiting = Run.collect issued step (reset ram) is :=
  stands_after (stands_reset ram) is

/-! ### Draining -/

/-- The cycles in which the memory answers that it takes to empty the pipeline. -/
def depth (m : System) : ℕ :=
  if m.pipe.dec2exe.v then 3 else if m.pipe.exe2mem.v then 2 else if m.pipe.mem2wbk.v then 1 else 0

theorem depth_step {m : System} {i : Feed} (h : m.pipe.Inv) (hidle : i.if2decEmpty = true) :
    depth (m.step i) ≤ depth m - (!i.mcacheStall).toNat := by
  have hstall : m.pipe.stallSd (m.cycle i) = true := by
    rw [Pipeline.stallSd, show (m.cycle i).if2decEmpty = true from hidle]
    simp
  have hmem : m.pipe.memPush (m.cycle i) = (m.pipe.exe2mem.v && !i.mcacheStall) :=
    Pipeline.memPush_eq
  have hwbk : (m.step i).pipe.mem2wbk.v = m.pipe.memPush (m.cycle i) := by
    have hstep : (m.step i).pipe.mem2wbk = _ := Pipeline.mem2wbk_step (i := m.cycle i)
    rw [hstep]
    cases m.pipe.memPush (m.cycle i) <;> rfl
  unfold depth
  rw [hwbk, exe2mem_clock, dec2exe_clock, Fifo.v_clock, Fifo.v_clock, Pipeline.exePush_of_inv h,
    hstall, hmem]
  unfold Fifo.loads Fifo.isFull
  cases m.pipe.dec2exe.v <;> cases m.pipe.exe2mem.v <;> cases m.pipe.mem2wbk.v <;>
    cases i.mcacheStall <;> decide

theorem empty_of_depth {m : System} (h : depth m = 0) :
    m.pipe.dec2exe.v = false ∧ m.pipe.exe2mem.v = false ∧ m.pipe.mem2wbk.v = false := by
  revert h
  unfold depth
  cases m.pipe.dec2exe.v <;> cases m.pipe.exe2mem.v <;> cases m.pipe.mem2wbk.v <;> decide

theorem eq_nil_of_empty {α β : Type*} {f : Fifo β} {g : α → β} {q : List α} (hv : f.v = false)
    (h : f.toList = q.map g) : q = [] := by
  rcases place_cases h with ⟨hq, _⟩ | ⟨_, _, hv', _⟩
  · exact hq
  · exact absurd (hv.symm.trans hv') Bool.false_ne_true

/-- Nothing leaves DEC while IF2DEC is empty. -/
theorem collect_of_idle : ∀ {js : List Feed} {m : System}, (∀ j ∈ js, j.if2decEmpty = true) →
    Run.collect issued step m js = [] := by
  intro js
  induction js with
  | nil =>
    intro m _
    rfl
  | cons j js ih =>
    intro m hidle
    have hstall : m.pipe.stallSd (m.cycle j) = true := by
      rw [Pipeline.stallSd, show (m.cycle j).if2decEmpty = true from hidle j List.mem_cons_self]
      simp
    rw [Run.collect, issued, hstall, if_pos rfl, List.nil_append]
    exact ih fun k hk => hidle k (List.mem_cons_of_mem j hk)

/-- When fetch has nothing more to give, three cycles in which the memory answers complete all
that has left DEC: the registers and the RAM are those of the sequential machine. -/
theorem drains (ram : Ram) (is js : List Feed) (hidle : ∀ j ∈ js, j.if2decEmpty = true)
    (hanswers : 3 ≤ js.countP fun j => !j.mcacheStall) :
    let m := Run.after step (reset ram) (is ++ js)
    let a := (Arch.start ram).after (Run.collect issued step (reset ram) is)
    m.pipe.registers = a.registers ∧ m.ram = a.ram ∧
      m.pipe.dec2exe.v = false ∧ m.pipe.exe2mem.v = false ∧ m.pipe.mem2wbk.v = false := by
  dsimp only
  obtain ⟨done, q, ⟨qw, qm, qe, rfl, h⟩, hq⟩ := stands_after (stands_reset ram) (is ++ js)
  have hdepth : depth (Run.after step (reset ram) (is ++ js)) = 0 := by
    have hinv : (Run.after step (reset ram) is).pipe.Inv :=
      Run.inv_after step (fun m => m.pipe.Inv) (fun _ _ h => Pipeline.inv_step h) is
        Pipeline.inv_reset
    have hle : depth (Run.after step (Run.after step (reset ram) is) js) ≤ _ :=
      Run.measure_after (fun m => m.pipe.Inv) (fun _ _ h => Pipeline.inv_step h) depth
        (fun i : Feed => i.if2decEmpty = true) (fun i : Feed => !i.mcacheStall)
        (fun _ _ h => depth_step h) hinv hidle
    have hthree : depth (Run.after step (reset ram) is) ≤ 3 := by
      unfold depth
      split_ifs <;> omega
    rw [Run.after_append]
    omega
  obtain ⟨hexe, hmem, hwbk⟩ := empty_of_depth hdepth
  obtain rfl := eq_nil_of_empty hexe h.exe
  obtain rfl := eq_nil_of_empty hmem h.mem
  obtain rfl := eq_nil_of_empty hwbk h.wbk
  have hdone : done = Run.collect issued step (reset ram) is := by
    rw [Run.collect_append, collect_of_idle hidle, List.append_nil, List.nil_append] at hq
    simpa using hq
  rw [← hdone]
  exact ⟨h.registers, h.ram.elim id id, hexe, hmem, hwbk⟩

/-- An instruction that fetch has ready, with a memory that answers. -/
def ready (instr pc : BitVec 32) : Feed where
  delivered := { (default : Delivered) with instr := instr, pc := pc }
  if2decEmpty := false
  readPc := pc + 4
  bypassesRun := true
  offsetRead := 0
  mcacheStall := false

/-- `addi x1, x0, 5`, `sw x1, 64(x0)`, which waits a cycle for its operand, and
`lw x2, 64(x0)`. -/
def storing : List Feed :=
  [ready 0x00500093 0x10054, ready 0x04102023 0x10058, ready 0x04102023 0x10058,
    ready 0x04002103 0x1005C]

def idle : Feed := { (default : Feed) with if2decEmpty := true }

theorem drains_storing :
    (Run.after step (reset fun _ => 0) (storing ++ List.replicate 3 idle)).pipe.registers =
      ((Arch.start fun _ => 0).after
        (Run.collect issued step (reset fun _ => 0) storing)).registers ∧
    (Run.after step (reset fun _ => 0) (storing ++ List.replicate 3 idle)).pipe.registers.read 2 =
      5 :=
  ⟨(drains (fun _ => 0) storing (List.replicate 3 idle) (by decide) (by decide)).1,
    by decide +kernel⟩

end System

end Mini

end RiVerSoC
