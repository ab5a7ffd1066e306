/-
The small core as a whole: fetch, pipeline and RAM.

DEC takes its operands and its stall from the pipeline, and fetch its words from the RAM.  What
the predictor holds in a cycle, whether the memories stall, and how often `fetch_method` runs is
left open.

* `Machine.step` — one cycle;
* `Hart` — the sequential machine with its program counter;
* `Runs` — the instructions that have left DEC are those of the program;
* `runs_program` — as long as every lookup of the predictor misses and `fetch_method` runs twice
  in a cycle, the core executes the program in its RAM.
-/
import RiVerSoC.MiniRefine

namespace RiVerSoC

namespace Mini

open Loop

/-! ### The sequential machine -/

/-- The address of the instruction that follows. -/
def Issued.nextAdr (x : Issued) (g : Registers) : BitVec 32 :=
  let ir := x.delivered.instr
  if jump ir (g.read (radr1 ir)) (g.read (radr2 ir)) then
    x.delivered.pc + offsetBranch ir (g.read (radr1 ir)) x.delivered.pc
  else x.delivered.pc + 4

structure Hart where
  pc : BitVec 32
  arch : Arch

namespace Hart

def execute (h : Hart) (x : Issued) : Hart := ⟨x.nextAdr h.arch.registers, h.arch.execute x⟩

def after (h : Hart) (q : List Issued) : Hart := Run.after execute h q

/-- `START_ADRESS`, where the program counter is reset to. -/
def startAdress : BitVec 32 := 0x10050

/-- Fetch begins one word behind the reset value. -/
def start (ram : Ram) : Hart := ⟨startAdress + 4, Arch.start ram⟩

theorem after_append (h : Hart) (q q' : List Issued) : h.after (q ++ q') = (h.after q).after q' :=
  Run.after_append h q q'

theorem arch_after (h : Hart) (q : List Issued) : (h.after q).arch = h.arch.after q := by
  induction q generalizing h with
  | nil => rfl
  | cons x q ih => exact ih (h.execute x)

end Hart

/-! ### The core -/

/-- What the core is given in one cycle. -/
structure Environment where
  cache : Predictor.Cache
  answer : Predictor.Answer
  bypassesRun : Bool
  offsetRead : BitVec 32
  icStall : Bool
  mcacheStall : Bool
  activations : ℕ

structure Machine where
  front : FrontEnd
  back : System

namespace Machine

variable (m : Machine) (e : Environment)

def feed : Feed where
  delivered :=
    deliver (if2decIn (m.front.shown e.activations)) (pbIf2decIn (m.front.shown e.activations))
  if2decEmpty := m.front.if2dec.isEmpty
  readPc := m.front.readPc
  bypassesRun := e.bypassesRun
  offsetRead := e.offsetRead
  mcacheStall := e.mcacheStall

def cycle : Cycle := m.back.cycle (m.feed e)

/-- What DEC and the RAM give to fetch; the RAM serves MEM first, and answers ADR_SI. -/
def inputs : Inputs where
  rdata1 := m.back.pipe.rdata1Sd (m.cycle e)
  rdata2 := m.back.pipe.rdata2Sd (m.cycle e)
  blocked := m.back.pipe.invalidOperandSd (m.cycle e) || m.back.pipe.blockInDecSd (m.cycle e) ||
    m.back.pipe.dec2exe.isFull (m.back.pipe.exePush (m.cycle e))
  icStall := e.icStall
  icInst := (ramCycle m.back.ram m.back.request).1 (m.front.adrRead e.activations)
  cache := e.cache
  answer := e.answer
  activations := e.activations

def step : Machine where
  front := Loop.step m.front (m.inputs e)
  back := m.back.step (m.feed e)

def reset (ram : Ram) : Machine :=
  ⟨⟨Hart.startAdress, default, default, default, default⟩, System.reset ram⟩

/-- The instruction that leaves DEC. -/
def issued : List Issued := m.back.issued (m.feed e)

/-- The lookup of the cycle misses, and `fetch_method` reads `adr_si` back after it has written
it. -/
def Unpredicted : Prop := (m.front.lookup (m.inputs e)).miss = true ∧ 2 ≤ e.activations

instance : Decidable (m.Unpredicted e) := inferInstanceAs (Decidable (_ = true ∧ _ ≤ _))

/-- What the instruction in DEC is executed with. -/
def inDec : Issued :=
  ⟨(m.feed e).delivered, m.front.readPc, e.offsetRead, m.back.pipe.decoded⟩

/-- The instruction `x` is what the program has behind the instructions `p`: it is at the address
that they lead to, and its word was in the RAM there at some time before. -/
def Fetches (ram : Ram) (p : List Issued) (x : Issued) : Prop :=
  x.delivered.pc = ((Hart.start ram).after p).pc ∧ x.readPc = x.delivered.pc + 4 ∧
    ∃ p', p' <+: p ∧ x.delivered.instr = ((Arch.start ram).after p').ram x.delivered.pc

/-- The instructions `l` have left DEC, and are those of the program. -/
structure Runs (ram : Ram) (l : List Issued) (m : Machine) : Prop where
  quiet : Quiet m.front
  continues : Continues ((Hart.start ram).after l).pc m.front
  stands : ∃ done waiting, done ++ waiting = l ∧
    m.back.Stands ((Arch.start ram).after done) waiting
  word : m.front.if2dec.v = true → ∃ p, p <+: l ∧
    m.front.if2dec.dout.inst = ((Arch.start ram).after p).ram m.front.if2dec.dout.adr
  fetched : ∀ p x q, l = p ++ x :: q → Fetches ram p x

/-! ### One cycle -/

section Cycle

variable {m e} {ram : Ram} {l : List Issued}

theorem stall_eq : m.front.stall (m.inputs e) = m.back.pipe.stallSd (m.cycle e) := by
  have hempty : (m.cycle e).if2decEmpty = !m.front.if2dec.v := rfl
  rw [FrontEnd.stall, Pipeline.stallSd, inputs, hempty, Bool.or_right_comm]

theorem issued_eq : m.issued e = if m.front.stall (m.inputs e) then []
    else [m.inDec e] := by
  rw [stall_eq]
  rfl

/-- The RAM answers fetch as some of the instructions that have left DEC have made it. -/
theorem icInst_eq {done waiting : List Issued}
    (h : m.back.Stands ((Arch.start ram).after done) waiting) : ∃ p, p <+: done ++ waiting ∧
      (m.inputs e).icInst =
        ((Arch.start ram).after p).ram (m.front.adrRead e.activations) := by
  obtain ⟨qw, qm, qe, rfl, hflight⟩ := h
  refine ⟨done ++ (qw ++ qm), ?_, ?_⟩
  · rw [← List.append_assoc done (qw ++ qm) qe]
    exact List.prefix_append _ _
  · rw [Arch.after_append, ← hflight.ramCycle_eq.1]
    rfl

theorem delivered_eq (hmiss : m.Unpredicted e) : (m.feed e).delivered.pc = m.front.if2dec.dout.adr ∧
    (m.feed e).delivered.instr = m.front.if2dec.dout.inst := by
  rw [feed, deliver_fetched, shown_of_settled hmiss.2]
  exact ⟨rfl, rfl⟩

theorem Runs.word_step (h : Runs ram l m) (l' : List Issued)
    (hv : (m.step e).front.if2dec.v = true) : ∃ p, p <+: l ++ l' ∧
      (m.step e).front.if2dec.dout.inst =
        ((Arch.start ram).after p).ram (m.step e).front.if2dec.dout.adr := by
  have hif : (m.step e).front.if2dec = m.front.if2dec.clock (m.front.if2decPush (m.inputs e))
      (m.front.if2decGestion (m.inputs e)).1 (m.front.fetched (m.inputs e)) := rfl
  rw [hif] at hv ⊢
  cases hl : m.front.if2dec.loads (m.front.if2decPush (m.inputs e))
      (m.front.if2decGestion (m.inputs e)).1 with
  | true =>
    rw [Fifo.clock_of_load hl]
    obtain ⟨done, waiting, rfl, hstands⟩ := h.stands
    obtain ⟨p, hp, hword⟩ := icInst_eq (e := e) hstands
    exact ⟨p, hp.trans (List.prefix_append _ _), hword⟩
  | false =>
    rw [Fifo.v_clock_of_not_load hl, Bool.and_eq_true] at hv
    rw [Fifo.dout_clock_of_not_load hl]
    obtain ⟨p, hp, hword⟩ := h.word hv.1
    exact ⟨p, hp.trans (List.prefix_append _ _), hword⟩

/-- The instruction in DEC reads the registers that the others leave, and goes where the program
goes. -/
theorem Runs.nextAdr_eq (h : Runs ram l m) (hmiss : m.Unpredicted e)
    (hs : m.front.stall (m.inputs e) = false) :
    Loop.nextAdr m.front.if2dec.dout (m.inputs e) =
      Issued.nextAdr (m.inDec e) ((Arch.start ram).after l).registers := by
  obtain ⟨done, waiting, rfl, qw, qm, qe, rfl, hflight⟩ := h.stands
  rw [stall_eq] at hs
  obtain ⟨hflag1, hflag2, -⟩ := Pipeline.of_not_stall hs
  have h1 : (m.inputs e).rdata1 = _ := hflight.decSource_eq hflag1
  have h2 : (m.inputs e).rdata2 = _ := hflight.decSource_eq hflag2
  obtain ⟨hpc, hir⟩ := delivered_eq hmiss
  have hir' : (m.cycle e).delivered.instr = m.front.if2dec.dout.inst := hir
  rw [hir'] at h1 h2
  rw [Loop.nextAdr, Issued.nextAdr, inDec, h1, h2, hpc, hir, Arch.after_append _ done]

theorem Runs.fetches (h : Runs ram l m) (hmiss : m.Unpredicted e)
    (hs : m.front.stall (m.inputs e) = false) :
    Fetches ram l (m.inDec e) ∧
      Continues (Loop.nextAdr m.front.if2dec.dout (m.inputs e)) (m.step e).front := by
  have hs' := hs
  rw [FrontEnd.stall, Bool.or_eq_false_iff, Bool.not_eq_false'] at hs'
  obtain ⟨hadr, hread, hnext⟩ :=
    continues_executed (i := m.inputs e) h.quiet hmiss.2 h.continues hs'.2 hs'.1
  obtain ⟨hpc, hir⟩ := delivered_eq hmiss
  obtain ⟨p, hp, hword⟩ := h.word hs'.2
  refine ⟨⟨?_, ?_, p, hp, ?_⟩, hnext⟩
  · exact hpc.trans hadr
  · exact hread.trans (congrArg (· + 4) (hpc.trans hadr).symm)
  · exact hir.trans (hword.trans (congrArg _ hpc.symm))

theorem Runs.stands_step (h : Runs ram l m) : ∃ done waiting, done ++ waiting = l ++ m.issued e ∧
    (m.step e).back.Stands ((Arch.start ram).after done) waiting := by
  obtain ⟨done, waiting, rfl, hstands⟩ := h.stands
  obtain ⟨done', waiting', hstands', heq⟩ := System.executes_step m.back (m.feed e) _ _ hstands
  refine ⟨done ++ done', waiting', ?_, ?_⟩
  · rw [List.append_assoc, heq, List.append_assoc]
    rfl
  · rw [Arch.after_append]
    exact hstands'

theorem Runs.step (h : Runs ram l m) (hmiss : m.Unpredicted e) :
    Runs ram (l ++ m.issued e) (m.step e) := by
  refine ⟨quiet_step h.quiet hmiss.1, ?_, h.stands_step, h.word_step _, ?_⟩
  · cases hs : m.front.stall (m.inputs e) with
    | true =>
      rw [issued_eq, hs, if_pos rfl, List.append_nil]
      exact continues_waiting h.quiet hmiss.2 h.continues hs
    | false =>
      have hnext := (h.fetches hmiss hs).2
      rw [h.nextAdr_eq hmiss hs] at hnext
      rw [issued_eq, hs, if_neg Bool.false_ne_true, Hart.after_append]
      have hpc : (((Hart.start ram).after l).after [m.inDec e]).pc =
          Issued.nextAdr (m.inDec e) ((Hart.start ram).after l).arch.registers := rfl
      rw [hpc, Hart.arch_after]
      exact hnext
  · intro p x q hl
    rw [issued_eq] at hl
    cases hs : m.front.stall (m.inputs e) with
    | true =>
      rw [hs, if_pos rfl, List.append_nil] at hl
      exact h.fetched p x q hl
    | false =>
      rw [hs, if_neg Bool.false_ne_true] at hl
      -- the new instruction is the last one
      rcases List.eq_nil_or_concat' q with rfl | ⟨q, y, rfl⟩
      · obtain ⟨rfl, hx⟩ := List.append_inj' hl rfl
        rw [← (List.cons.inj hx).1]
        exact (h.fetches hmiss hs).1
      · rw [← List.cons_append, ← List.append_assoc] at hl
        exact h.fetched p x q (List.append_inj' hl rfl).1

end Cycle

/-! ### Runs -/

theorem step_of_reset (pc : BitVec 32) (i : Inputs) :
    Loop.step ⟨pc, default, default, default, default⟩ i =
      ⟨pc + 4, ⟨pc + 4, true⟩, default,
        ⟨FrontEnd.lookup ⟨pc, default, default, default, default⟩ i, true⟩,
        FrontEnd.activated ⟨pc, default, default, default, default⟩ i.activations⟩ := by
  have hempty : (default : Fifo (BitVec 32)).v = false ∧ (default : Fifo Fetched).v = false ∧
      (default : Fifo Predictor.Answer).v = false := ⟨rfl, rfl, rfl⟩
  simp [Loop.step, FrontEnd.pcInc, FrontEnd.if2decGestion, FrontEnd.if2decPush,
    FrontEnd.dec2ifPop, FrontEnd.fetchStall, FrontEnd.stall, Fifo.isFull, Fifo.clock, hempty]

/-- The first cycle fills DEC2IF. -/
theorem runs_first (ram : Ram) {e : Environment} (hmiss : (reset ram).Unpredicted e) :
    (reset ram).issued e = [] ∧ Runs ram [] ((reset ram).step e) := by
  have hstall : (reset ram).front.stall ((reset ram).inputs e) = true := by
    rw [FrontEnd.stall]
    exact Bool.or_true _
  have hissued : (reset ram).issued e = [] := by rw [issued_eq, hstall, if_pos rfl]
  have hstands : System.Stands ((reset ram).step e).back (Arch.start ram) [] := by
    obtain ⟨done, waiting, hstands, heq⟩ := System.executes_step (reset ram).back
      ((reset ram).feed e) _ _ (System.stands_reset ram)
    rw [List.nil_append, show System.issued _ _ = [] from hissued] at heq
    obtain ⟨rfl, rfl⟩ := List.append_eq_nil_iff.mp heq
    exact hstands
  -- nothing is in DEC before and after the cycle, and the answer goes to TARGET_PC
  have hfront : ((reset ram).step e).front =
      ⟨Hart.startAdress + 4, ⟨Hart.startAdress + 4, true⟩, default,
        ⟨(reset ram).front.lookup ((reset ram).inputs e), true⟩,
        (reset ram).front.activated e.activations⟩ :=
    step_of_reset ..
  refine ⟨hissued, ?_, ?_, ⟨[], [], rfl, hstands⟩, ?_, ?_⟩
  · rw [hfront]
    refine ⟨fun hv => absurd hv Bool.false_ne_true, predictsTaken_of_miss hmiss.1, ?_⟩
    rw [FrontEnd.targetRi_activated]
    split_ifs <;> rfl
  · rw [hfront]
    exact ⟨rfl, rfl⟩
  · rw [hfront]
    exact fun hv => absurd hv Bool.false_ne_true
  · intro p x q hl
    exact absurd hl.symm (by simp)

theorem runs_after {ram : Ram} : ∀ {es : List Environment} {l : List Issued} {m : Machine},
    Runs ram l m → Run.Each Unpredicted step m es →
    Runs ram (l ++ Run.collect issued step m es) (Run.after step m es) := by
  intro es
  induction es with
  | nil =>
    intro l m h _
    rw [Run.collect, List.append_nil]
    exact h
  | cons e es ih =>
    rintro l m h ⟨hmiss, hrest⟩
    rw [Run.collect, ← List.append_assoc]
    exact ih (h.step hmiss) hrest

/-- From reset on, as long as the lookups miss and `fetch_method` runs twice in a cycle. -/
theorem runs_reset (ram : Ram) {es : List Environment}
    (hmiss : Run.Each Unpredicted step (reset ram) es) (hne : es ≠ []) :
    Runs ram (Run.collect issued step (reset ram) es) (Run.after step (reset ram) es) := by
  cases es with
  | nil => exact absurd rfl hne
  | cons e es =>
    obtain ⟨hissued, hruns⟩ := runs_first ram hmiss.1
    have h := runs_after hruns hmiss.2
    rw [Run.collect, hissued]
    exact h

theorem stands_of_misses (ram : Ram) {es : List Environment}
    (hmiss : Run.Each Unpredicted step (reset ram) es) :
    ∃ done waiting, done ++ waiting = Run.collect issued step (reset ram) es ∧
      (Run.after step (reset ram) es).back.Stands ((Arch.start ram).after done) waiting := by
  cases es with
  | nil => exact ⟨[], [], rfl, System.stands_reset ram⟩
  | cons e es => exact (runs_reset ram hmiss (List.cons_ne_nil e es)).stands

theorem fetches_of_misses (ram : Ram) {es : List Environment}
    (hmiss : Run.Each Unpredicted step (reset ram) es) {p q : List Issued} {x : Issued}
    (hl : Run.collect issued step (reset ram) es = p ++ x :: q) : Fetches ram p x := by
  cases es with
  | nil => exact absurd hl.symm (by simp [Run.collect])
  | cons e es => exact (runs_reset ram hmiss (List.cons_ne_nil e es)).fetched p x q hl

/-- As long as every lookup of the predictor misses and `fetch_method` runs twice in a cycle, the
core executes the program in its RAM: each instruction that leaves DEC is the one at the address
where the instructions before it lead, and these are executed one after the other. -/
theorem runs_program (ram : Ram) (es : List Environment)
    (hmiss : Run.Each Unpredicted step (reset ram) es) :
    (∃ done waiting, done ++ waiting = Run.collect issued step (reset ram) es ∧
        (Run.after step (reset ram) es).back.Stands ((Arch.start ram).after done) waiting) ∧
      ∀ p x q, Run.collect issued step (reset ram) es = p ++ x :: q → Fetches ram p x :=
  ⟨stands_of_misses ram hmiss, fun _ _ _ hl => fetches_of_misses ram hmiss hl⟩

/-- `addi x1, x0, 5`, and a jump to itself. -/
def loopRam : Ram := fun a => if a = 0x10054 then 0x00500093 else 0x0000006F

/-- Memories that answer at once, an empty predictor, and a `fetch_method` that wakes on PC_RD
and on IF2DEC_FLUSH_SD. -/
def answering : Environment := ⟨Predictor.reset, default, true, 0, false, false, 2⟩

/-- The jump leaves DEC again and again. -/
theorem runs_program_loop :
    (Run.collect issued step (reset loopRam) (List.replicate 9 answering)).length = 4 ∧
      ∀ p x q, Run.collect issued step (reset loopRam) (List.replicate 9 answering) = p ++ x :: q →
        Fetches loopRam p x :=
  ⟨by decide +kernel, (runs_program loopRam (List.replicate 9 answering) (by decide +kernel)).2⟩

end Machine

end Mini

end RiVerSoC
