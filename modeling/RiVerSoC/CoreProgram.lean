/-
The core executes programs of RV32IM.

The core is taken with its fetch stage and the RAM of `core_tb`, without caches and without
branch prediction.

* `Machine` — the core and the RAM, which serves MEM first and then the fetch stage;
* `Regular` — a cycle without a trap and with sound sources;
* `Runs` — the instructions that have left DEC are those of the program, and those that EXE has
  pushed lead through its states;
* `runs_rv32im` — a program that behaves goes through the registers and the RAM of the instruction
  set, as long as the cycles are regular.
-/
import RiVerSoC.CoreHart
import RiVerSoC.FetchLoop

namespace RiVerSoC

/-! ### The core and its RAM -/

namespace CoreTb

open Backend (Arch Executed System regOf)

/-- The core with the RAM; `captured` says of the operands in DEC2EXE whether DEC took them from a
source that delivers them. -/
structure Machine where
  loop : FetchLoop.Machine
  captured : Bool × Bool
  ram : Ram

namespace Machine

variable (m : Machine) (i : Cpu.Cycle)

abbrev cpu : Cpu.State := m.loop.cpu

/-- The pipeline behind the fetch stage, with the RAM. -/
def back : System := ⟨⟨m.cpu.pipe, m.captured⟩, m.ram⟩

/-- The cycle with the answers of the RAM, which serves MEM before the fetch stage. -/
def cycle : Cpu.Cycle :=
  { i with
    instSic := (ramCycle m.ram m.back.request).1 (Cpu.fetch m.cpu i).pcSi
    core :=
      { i.core with
        pipe := { i.core.pipe with mcacheResult := (ramCycle m.ram m.back.request).2 } } }

/-- The cycle as the stages see it. -/
def seen : Backend.Cycle := Cpu.cycle m.cpu (m.cycle i)

def step : Machine where
  loop := FetchLoop.step m.loop (m.cycle i)
  captured := (m.back.tracked.step (m.seen i)).captured
  ram := (ramCycle m.ram m.back.request).1

def reset (procId pcInit : BitVec 32) (ram : Ram) : Machine :=
  ⟨FetchLoop.reset procId pcInit, (false, false), ram⟩

/-- The instruction that leaves DEC. -/
def issued : List If2Dec :=
  if FetchLoop.leaves m.loop (m.cycle i) then [Cpu.shown m.cpu (m.cycle i)] else []

/-- The multiplier and the divider have computed what the instruction that EXE pushes asks for. -/
def Delivered : Prop :=
  Backend.Pushes m.cpu.pipe (m.seen i) →
    (m.cpu.pipe.rd.multInst = true → (m.seen i).product =
      Multiplier.multiply ⟨(Backend.exeSig m.cpu.pipe (m.seen i)).byp.op1Se,
        (Backend.exeSig m.cpu.pipe (m.seen i)).byp.op2Se, m.cpu.pipe.rd.exeCmd⟩) ∧
    (m.cpu.pipe.rd.selectTypeOperations = 8 → (m.seen i).dividerRes =
      Diviseur.Division.result ⟨(Backend.exeSig m.cpu.pipe (m.seen i)).byp.op1Se,
        (Backend.exeSig m.cpu.pipe (m.seen i)).byp.op2Se, m.cpu.pipe.rd.exeCmd⟩)

/-- `bypasses` of DEC has looked at the operands of the branch or of the `jalr` that leaves
DEC. -/
def Leads : Prop :=
  FetchLoop.leaves m.loop (m.cycle i) = true →
    ((Backend.decSig m.cpu.pipe (m.seen i)).types.b ||
      (Backend.decSig m.cpu.pipe (m.seen i)).types.jalr) = true →
    Backend.HazardsFresh m.cpu.pipe (m.seen i)

/-- No trap and no prediction, a fetch stage that follows its FIFOs, sound sources, and results
that are delivered. -/
def Regular : Prop :=
  FetchLoop.Quiet m.loop (m.cycle i) ∧ FetchLoop.Timely m.loop (m.cycle i) ∧
    m.back.SoundSources (m.seen i) ∧ m.Leads i ∧ m.Delivered i

instance : Decidable (m.Delivered i) := inferInstanceAs (Decidable (_ → _))

instance : Decidable (m.Leads i) := inferInstanceAs (Decidable (_ → _))

instance : Decidable (m.Regular i) := inferInstanceAs (Decidable (_ ∧ _))

/-- The program starts behind the address of the reset. -/
def start (pcInit : BitVec 32) (ram : Ram) : Hart := ⟨pcInit + 4, Arch.start ram⟩

/-- The pipeline has the answer of the RAM already. -/
theorem cycle_back : m.back.cycle (m.seen i) = m.seen i := by
  have hanswer : (m.seen i).mcacheResult = (ramCycle m.ram m.back.request).2 := rfl
  change { m.seen i with mcacheResult := (ramCycle m.ram m.back.request).2 } = m.seen i
  rw [← hanswer]

/-- The core and the RAM are, behind the fetch stage, the pipeline with the RAM. -/
theorem back_step : (m.step i).back = m.back.step (m.seen i) := by
  rw [System.step, cycle_back]
  rfl

/-! ### The invariant -/

/-- The instructions `l` have left DEC and are those of the program that begins in `h`; those of
them that EXE has pushed are `xs`, and lead through its states. -/
structure Runs (h : Hart) (l : List If2Dec) (xs : List Executed) (m : Machine) : Prop where
  loop : FetchLoop.Inv m.loop
  latched : Core.Latched m.cpu.front.core
  mode : m.cpu.front.core.mem.currentModeSm = 3
  writers : Backend.Writers m.cpu.pipe
  zero : m.cpu.pipe.registers.read 0 = 0
  length : l.length = xs.length + if m.cpu.pipe.dec2exe.v then 1 else 0
  stands : ∃ done waiting, done ++ waiting = xs ∧ m.back.Stands (Arch.after h.arch done) waiting
  states : ∀ k ≤ xs.length, ∃ g, h.run k = some g ∧ g.arch = Arch.after h.arch (xs.take k)
  program : ∀ k (hk : k < l.length), ∃ g, h.run k = some g ∧ l[k].pc = g.pc ∧ l[k].instr = g.word
  next : ∃ g, h.run l.length = some g ∧ g.pc = m.loop.next
  sent : m.cpu.pipe.dec2exe.v = true →
    ∃ g, h.run xs.length = some g ∧ Backend.SentFor m.cpu.pipe.rd g
  fetched : m.cpu.if2dec.v = true → ∃ k ≤ xs.length, ∃ g, h.run k = some g ∧
    m.cpu.if2dec.dout.instr = g.arch.ram m.cpu.if2dec.dout.pc

/-! ### EXE in one cycle -/

section Exe

variable {m : Machine} {i : Cpu.Cycle} {h : Hart} {l : List If2Dec} {xs : List Executed}

theorem seen_of_quiet (hq : FetchLoop.Quiet m.loop (m.cycle i)) :
    (m.seen i).exceptionSm = false := hq.1

/-- No exception is in MEM. -/
theorem Runs.exception_eq (hr : Runs h l xs m) (hq : FetchLoop.Quiet m.loop (m.cycle i)) :
    m.cpu.pipe.re.exception = false := (Core.memOut_of_not_trap hr.latched hq.1).1

/-- The core stays in machine mode. -/
theorem Runs.mode_eq (hr : Runs h l xs m) (hq : FetchLoop.Quiet m.loop (m.cycle i)) :
    (m.seen i).currentMode = 3 :=
  (Core.currentModeSm_of_not_trap (s := m.cpu.front.core) hq.1).trans hr.mode

theorem Runs.executed_eq (hr : Runs h l xs m) (hq : FetchLoop.Quiet m.loop (m.cycle i)) :
    m.back.executed (m.seen i) = if Backend.exePush m.cpu.pipe (m.seen i) then
      [Backend.pushed m.cpu.pipe (m.seen i)] else [] := by
  rw [System.executed, cycle_back]
  refine if_congr ⟨And.left, fun hp => ⟨hp, hq.1, ?_⟩⟩ rfl rfl
  obtain ⟨g, -, hsent⟩ := hr.sent (Backend.v_of_exePush (seen_of_quiet hq) hp)
  exact hsent.legal

/-- The operands of the instruction that EXE pushes are in the registers of the machine. -/
theorem Runs.computed (hr : Runs h l xs m) (hreg : m.Regular i)
    (hp : Backend.Pushes m.cpu.pipe (m.seen i)) :
    (Backend.pushed m.cpu.pipe (m.seen i)).Computed (Arch.after h.arch xs).registers := by
  obtain ⟨-, -, ⟨hsound, -⟩, -, hdelivered⟩ := hreg
  obtain ⟨done, waiting, rfl, hstands⟩ := hr.stands
  rw [cycle_back] at hsound
  have hexpected : ∀ r, r ≠ 0 → Backend.expected m.cpu.pipe (m.seen i) r =
      (Arch.after h.arch (done ++ waiting)).registers.read r := by
    intro r hne
    have hvalue := hstands.expected_eq (i := m.seen i) hne
    rw [cycle_back] at hvalue
    rw [Arch.after_append]
    exact hvalue
  have hoperands := Backend.operands_eq hstands.inv hp hsound hexpected
  have h1 : (Backend.exeSig m.cpu.pipe (m.seen i)).byp.op1Se = _ := hoperands.1
  have h2 : (Backend.exeSig m.cpu.pipe (m.seen i)).byp.op2Se = _ := hoperands.2.1
  have hdelivered' := hdelivered hp
  rw [h1, h2] at hdelivered'
  exact hdelivered'

/-- The state after the instructions that EXE has pushed. -/
theorem Runs.current (hr : Runs h l xs m) :
    ∃ g, h.run xs.length = some g ∧ g.arch = Arch.after h.arch xs := by
  obtain ⟨g, hrun, harch⟩ := hr.states xs.length (Nat.le_refl _)
  rw [List.take_length] at harch
  exact ⟨g, hrun, harch⟩

variable {n : ℕ} (hzero : h.arch.registers.read 0 = 0) (hb : h.Behaves n)

include hzero hb

/-- EXE takes the program one instruction further. -/
theorem Runs.run_pushed (hr : Runs h l xs m) (hreg : m.Regular i) (hn : l.length ≤ n)
    (hp : Backend.exePush m.cpu.pipe (m.seen i) = true) :
    ∃ g, h.run (xs.length + 1) = some g ∧
      g.arch = Arch.after h.arch (xs ++ [Backend.pushed m.cpu.pipe (m.seen i)]) := by
  have hq := hreg.1
  have hv := Backend.v_of_exePush (seen_of_quiet hq) hp
  obtain ⟨g, hrun, harch⟩ := hr.current
  obtain ⟨g', hrun', hsent⟩ := hr.sent hv
  obtain rfl := Option.some.inj (hrun.symm.trans hrun')
  have hlt : xs.length < n := by
    have hlen := hr.length
    rw [hv, if_pos rfl] at hlen
    omega
  obtain ⟨g', hrun', hlegal, hlane, -⟩ := hb xs.length hlt
  obtain rfl := Option.some.inj (hrun.symm.trans hrun')
  obtain ⟨g', hstep⟩ := Option.isSome_iff_exists.mp hlegal
  refine ⟨g', Hart.run_succ hrun hstep, ?_⟩
  rw [Hart.step, Option.map_eq_some_iff] at hstep
  obtain ⟨a, heffect, rfl⟩ := hstep
  have hcomputed := hr.computed hreg ⟨hp, hq.1, hsent.legal⟩
  rw [← harch] at hcomputed
  have hexecute := Backend.execute_of_sentFor
    (x := { Backend.pushed m.cpu.pipe (m.seen i) with word := m.cpu.pipe.rd }) hsent
    (by rw [harch, Arch.read_zero_after, hzero]) (hr.mode_eq hq) hcomputed hlane heffect
  rw [← Arch.execute_pushed] at hexecute
  rw [Arch.after_append, ← harch, ← hexecute]
  rfl

theorem Runs.states_step (hr : Runs h l xs m) (hreg : m.Regular i) (hn : l.length ≤ n) :
    ∀ k ≤ (xs ++ m.back.executed (m.seen i)).length, ∃ g, h.run k = some g ∧
      g.arch = Arch.after h.arch ((xs ++ m.back.executed (m.seen i)).take k) := by
  rw [hr.executed_eq hreg.1]
  intro k hk
  by_cases hle : k ≤ xs.length
  · obtain ⟨g, hrun, harch⟩ := hr.states k hle
    exact ⟨g, hrun, by rw [List.take_append_of_le_length hle, harch]⟩
  · cases hp : Backend.exePush m.cpu.pipe (m.seen i) with
    | false =>
      rw [hp, if_neg Bool.false_ne_true, List.append_nil] at hk
      exact absurd hk hle
    | true =>
      rw [hp, if_pos rfl] at hk
      obtain rfl : k = xs.length + 1 := by
        rw [List.length_append, List.length_singleton] at hk
        omega
      obtain ⟨g, hrun, harch⟩ := hr.run_pushed hzero hb hreg hn hp
      refine ⟨g, hrun, ?_⟩
      rw [if_pos rfl, List.take_of_length_le (by simp), harch]

end Exe

/-! ### DEC in one cycle -/

section Dec

variable {m : Machine} {i : Cpu.Cycle} {h : Hart} {l : List If2Dec} {xs : List Executed}

/-- The word in EXE goes on when an instruction leaves DEC. -/
theorem exePush_of_leaves (hq : FetchLoop.Quiet m.loop (m.cycle i))
    (hl : FetchLoop.leaves m.loop (m.cycle i) = true) :
    Backend.exePush m.cpu.pipe (m.seen i) = m.cpu.pipe.dec2exe.v := by
  have hfull := Backend.not_full_of_decPush (seen_of_quiet hq) hl
  cases hp : Backend.exePush m.cpu.pipe (m.seen i) with
  | true => exact (Backend.v_of_exePush (seen_of_quiet hq) hp).symm
  | false =>
    have hroom : (m.cpu.pipe.dec2exe.v && !false) = false := hp ▸ hfull
    rw [Bool.not_false, Bool.and_true] at hroom
    exact hroom.symm

/-- The instruction that leaves DEC is the next one after those that EXE has pushed. -/
theorem Runs.length_of_leaves (hr : Runs h l xs m) (hq : FetchLoop.Quiet m.loop (m.cycle i))
    (hl : FetchLoop.leaves m.loop (m.cycle i) = true) :
    (xs ++ m.back.executed (m.seen i)).length = l.length := by
  rw [hr.executed_eq hq, exePush_of_leaves hq hl, List.length_append, hr.length]
  split_ifs <;> rfl

theorem Runs.length_step (hr : Runs h l xs m) (hq : FetchLoop.Quiet m.loop (m.cycle i)) :
    (l ++ m.issued i).length = (xs ++ m.back.executed (m.seen i)).length +
      if (m.step i).cpu.pipe.dec2exe.v then 1 else 0 := by
  have hpipe : (m.step i).cpu.pipe = Backend.step m.cpu.pipe (m.seen i) := rfl
  rw [hpipe, issued]
  rcases Backend.dec2exe_cases m.cpu.pipe (m.seen i) with ⟨hd, hdec⟩ | ⟨-, hd, -, hv⟩
  · have hl : FetchLoop.leaves m.loop (m.cycle i) = true := hd
    rw [hr.length_of_leaves hq hl, hl, hdec, if_pos rfl, if_pos rfl, List.length_append]
    rfl
  · have hl : FetchLoop.leaves m.loop (m.cycle i) = false := hd
    rw [hl, if_neg Bool.false_ne_true, List.append_nil, hv, hr.executed_eq hq, hr.length,
      List.length_append]
    cases hp : Backend.exePush m.cpu.pipe (m.seen i) with
    | true =>
      rw [Backend.v_of_exePush (seen_of_quiet hq) hp]
      rfl
    | false =>
      rw [if_neg Bool.false_ne_true, Bool.not_false, Bool.and_true]
      rfl

variable {n : ℕ} (hzero : h.arch.registers.read 0 = 0) (hb : h.Behaves n)

include hzero hb

/-- The instruction that leaves DEC is that of the program, and sees the registers of its turn. -/
theorem Runs.leaving (hr : Runs h l xs m) (hreg : m.Regular i) (hn : l.length < n)
    (hl : FetchLoop.leaves m.loop (m.cycle i) = true) :
    ∃ g, h.run l.length = some g ∧ g.pc = m.loop.next ∧
      g.arch = Arch.after h.arch (xs ++ m.back.executed (m.seen i)) ∧
      (Cpu.shown m.cpu (m.cycle i)).pc = g.pc ∧
      (Cpu.shown m.cpu (m.cycle i)).instr = g.word := by
  obtain ⟨hv, hpc, -⟩ := FetchLoop.in_dec_of_leaves hr.loop hreg.1 hreg.2.1 hl
  obtain ⟨g, hrun, hnext⟩ := hr.next
  obtain ⟨g', hrun', harch⟩ := hr.states_step hzero hb hreg (Nat.le_of_lt hn) l.length
    (hr.length_of_leaves hreg.1 hl).ge
  obtain rfl := Option.some.inj (hrun.symm.trans hrun')
  rw [List.take_of_length_le (hr.length_of_leaves hreg.1 hl).le] at harch
  obtain ⟨g', hrun', -, -, hword⟩ := hb l.length hn
  obtain rfl := Option.some.inj (hrun.symm.trans hrun')
  -- the word was in the RAM when it was fetched, and it still is
  obtain ⟨k, hk, g', hrunk, hinstr⟩ := hr.fetched hv
  have hkl : k ≤ l.length := by
    rw [hr.length]
    omega
  have hshown := hreg.2.1.1 hv
  refine ⟨g, hrun, hnext, harch, hpc.trans hnext.symm, ?_⟩
  rw [hshown] at hpc ⊢
  rw [hinstr, hpc, ← hnext]
  exact hword k hkl g' hrunk

omit hzero hb in
/-- The instruction in EXE leaves the registers alone that DEC takes a value from. -/
theorem Runs.read_pushed (hr : Runs h l xs m) (hq : FetchLoop.Quiet m.loop (m.cycle i))
    {r : BitVec 6} (hne : r ≠ 0)
    (hexe : (Backend.decContents m.cpu.pipe (m.seen i)).stages.inExe r = false) :
    (Arch.after h.arch (xs ++ m.back.executed (m.seen i))).registers.read r =
      (Arch.after h.arch xs).registers.read r := by
  obtain ⟨done, waiting, rfl, hstands⟩ := hr.stands
  rw [hr.executed_eq hq, Arch.after_append]
  cases hp : Backend.exePush m.cpu.pipe (m.seen i) with
  | false => rfl
  | true =>
    refine Arch.read_execute _ _ hne ?_
    have hdest : regOf (m.cpu.pipe.rd.dest.setWidth 5) = m.cpu.pipe.rd.dest :=
      hstands.inv.retained.destRd
    change regOf (m.cpu.pipe.rd.dest.setWidth 5) ≠ r
    rw [hdest]
    rintro rfl
    have hexe' : (m.cpu.pipe.rd.dest == m.cpu.pipe.rd.dest && !!m.cpu.pipe.dec2exe.v) = false :=
      hexe
    rw [Backend.v_of_exePush (seen_of_quiet hq) hp, beq_self_eq_true] at hexe'
    exact absurd hexe' (by decide)

theorem Runs.next_step (hr : Runs h l xs m) (hreg : m.Regular i)
    (hn : (l ++ m.issued i).length ≤ n) :
    ∃ g, h.run (l ++ m.issued i).length = some g ∧ g.pc = (m.step i).loop.next := by
  have hnext : (m.step i).loop.next = if FetchLoop.leaves m.loop (m.cycle i) then
      Decode.nextPc (Cpu.shown m.cpu (m.cycle i)).instr m.loop.next
        (Backend.decSig m.cpu.pipe (m.seen i)).haz.rdata1
        (Backend.decSig m.cpu.pipe (m.seen i)).haz.rdata2
      else m.loop.next := rfl
  rw [hnext]
  cases hl : FetchLoop.leaves m.loop (m.cycle i) with
  | false =>
    rw [issued, hl, if_neg Bool.false_ne_true, List.append_nil, if_neg Bool.false_ne_true]
    exact hr.next
  | true =>
    rw [issued, hl, if_pos rfl, List.length_append, List.length_singleton] at hn ⊢
    rw [if_pos rfl]
    obtain ⟨g, hrun, hpc, harch, -, hinstr⟩ := hr.leaving hzero hb hreg hn hl
    obtain ⟨g', hrun', hlegal, -⟩ := hb l.length hn
    obtain rfl := Option.some.inj (hrun.symm.trans hrun')
    obtain ⟨g', hstep⟩ := Option.isSome_iff_exists.mp hlegal
    refine ⟨g', Hart.run_succ hrun hstep, ?_⟩
    rw [Hart.step, Option.map_eq_some_iff] at hstep
    obtain ⟨a, -, rfl⟩ := hstep
    obtain ⟨done, waiting, hxs, hstands⟩ := hr.stands
    -- the registers that the branch reads are those behind all older instructions
    have hg0 : g.arch.registers.read 0 = 0 := by
      rw [harch, Arch.read_zero_after, hzero]
    have hlead := hstands.nextPc_eq (i := m.seen i) (g := g.arch.registers) hr.writers
      (fun _ => hr.exception_eq hreg.1) hr.zero hg0
    rw [cycle_back] at hlead
    have hregisters : ∀ r, r ≠ 0 →
        (Backend.decContents m.cpu.pipe (m.seen i)).stages.inExe r = false →
        g.arch.registers.read r = ((Arch.after h.arch done).after waiting).registers.read r := by
      intro r hne hexe
      rw [harch, hr.read_pushed hreg.1 hne hexe, ← Arch.after_append, hxs]
    have hleads := hreg.2.2.2.1 hl
    refine Eq.trans ?_ (hlead hregisters (seen_of_quiet hreg.1) hl hleads m.loop.next).symm
    have hir : (m.seen i).ir = g.word := hinstr
    rw [hir, ← hpc]
    rfl

theorem Runs.sent_step (hr : Runs h l xs m) (hreg : m.Regular i)
    (hn : (l ++ m.issued i).length ≤ n) (hv : (m.step i).cpu.pipe.dec2exe.v = true) :
    ∃ g, h.run (xs ++ m.back.executed (m.seen i)).length = some g ∧
      Backend.SentFor (m.step i).cpu.pipe.rd g := by
  have hpipe : (m.step i).cpu.pipe = Backend.step m.cpu.pipe (m.seen i) := rfl
  rw [hpipe] at hv ⊢
  rcases Backend.dec2exe_cases m.cpu.pipe (m.seen i) with ⟨hl, hdec⟩ | ⟨-, -, hdout, hv'⟩
  · have hl' : FetchLoop.leaves m.loop (m.cycle i) = true := hl
    rw [issued, hl', if_pos rfl, List.length_append, List.length_singleton] at hn
    obtain ⟨g, hrun, hnext, -, hpc, hinstr⟩ := hr.leaving hzero hb hreg hn hl'
    obtain ⟨hif, -, hread⟩ := FetchLoop.in_dec_of_leaves hr.loop hreg.1 hreg.2.1 hl'
    rw [hr.length_of_leaves hreg.1 hl', Backend.State.rd, hdec]
    refine ⟨g, hrun, m.cpu.pipe, m.seen i, fun x hx => ?_, hinstr, hpc, ?_⟩
    · exact
        { trap := seen_of_quiet hreg.1
          word := hx
          full := by
            change (!m.cpu.if2dec.v) = false
            rw [hif]
            rfl
          zero := hr.zero
          legal := by
            rw [hx]
            exact hreg.1.2.1 hl' }
    · exact hread.trans (congrArg (· + 4) hnext.symm)
  · rw [hv', Bool.and_eq_true, Bool.not_eq_true'] at hv
    rw [Backend.State.rd, hdout, hr.executed_eq hreg.1, hv.2, if_neg Bool.false_ne_true,
      List.append_nil]
    exact hr.sent hv.1

theorem Runs.program_step (hr : Runs h l xs m) (hreg : m.Regular i)
    (hn : (l ++ m.issued i).length ≤ n) : ∀ k (hk : k < (l ++ m.issued i).length), ∃ g,
      h.run k = some g ∧ (l ++ m.issued i)[k].pc = g.pc ∧ (l ++ m.issued i)[k].instr = g.word := by
  intro k hk
  by_cases hlt : k < l.length
  · rw [List.getElem_append_left hlt]
    exact hr.program k hlt
  · -- the new one
    have hl : FetchLoop.leaves m.loop (m.cycle i) = true := by
      by_contra hno
      rw [issued, if_neg hno, List.append_nil] at hk
      exact hlt hk
    have hissued : m.issued i = [Cpu.shown m.cpu (m.cycle i)] := if_pos hl
    rw [hissued, List.length_append, List.length_singleton] at hn hk
    obtain rfl : k = l.length := by omega
    obtain ⟨g, hrun, -, -, hpc, hinstr⟩ := hr.leaving hzero hb hreg hn hl
    refine ⟨g, hrun, ?_⟩
    simp only [hissued, List.getElem_concat_length]
    exact ⟨hpc, hinstr⟩

end Dec

/-! ### One cycle -/

section Cycle

variable {m : Machine} {i : Cpu.Cycle} {h : Hart} {l : List If2Dec} {xs : List Executed}

theorem pcSi_fetch (s : Cpu.State) (c : Cpu.Cycle) :
    (Cpu.fetch s c).pcSi = Ifetch.fetchPc (Cpu.fetchInputs s c) := by
  unfold Cpu.fetch Ifetch.fetchMethod
  split_ifs <;> rfl

/-- The fetch stage gets the word that is in the RAM after the instruction in MEM. -/
theorem Runs.fetched_step (hr : Runs h l xs m) (hreg : m.Regular i)
    (hv : (m.step i).cpu.if2dec.v = true) :
    ∃ k ≤ (xs ++ m.back.executed (m.seen i)).length, ∃ g, h.run k = some g ∧
      (m.step i).cpu.if2dec.dout.instr = g.arch.ram (m.step i).cpu.if2dec.dout.pc := by
  have hif : (m.step i).cpu.if2dec = m.cpu.if2dec.clock (Cpu.fetch m.cpu (m.cycle i)).if2decPush
      (Cpu.signals m.cpu (m.cycle i)).if2decPop (Cpu.fetch m.cpu (m.cycle i)).if2decIn := rfl
  have hle : xs.length ≤ (xs ++ m.back.executed (m.seen i)).length := by
    rw [List.length_append]
    omega
  rw [hif] at hv ⊢
  cases hl : m.cpu.if2dec.loads (Cpu.fetch m.cpu (m.cycle i)).if2decPush
      (Cpu.signals m.cpu (m.cycle i)).if2decPop with
  | true =>
    rw [Fifo.clock_of_load hl]
    obtain ⟨g, hrun, harch⟩ := hr.current
    obtain ⟨done, waiting, rfl, hstands⟩ := hr.stands
    -- the store in MEM is in the RAM when the fetch reads it
    refine ⟨_, hle, g, hrun, ?_⟩
    obtain ⟨-, -, hin, -⟩ := Ifetch.fetchMethod_of_not_trap
      (i := Cpu.fetchInputs m.cpu (m.cycle i)) m.cpu.fetch
      (FetchLoop.unpredicted_of_quiet hr.loop hreg.1).seen
    rw [Cpu.fetch, hin, harch, Arch.after_append]
    have hram : (ramCycle m.ram m.back.request).1 = _ := hstands.ramCycle_eq.1
    change (ramCycle m.ram m.back.request).1 (Cpu.fetch m.cpu i).pcSi = _
    rw [hram, pcSi_fetch]
    rfl
  | false =>
    -- the word in IF2DEC is as old as before
    rw [Fifo.v_clock_of_not_load hl, Bool.and_eq_true] at hv
    rw [Fifo.dout_clock_of_not_load hl]
    obtain ⟨k, hk, g, hrun, hinstr⟩ := hr.fetched hv.1
    exact ⟨k, Nat.le_trans hk hle, g, hrun, hinstr⟩

theorem Runs.stands_step (hr : Runs h l xs m) (hreg : m.Regular i) :
    ∃ done waiting, done ++ waiting = xs ++ m.back.executed (m.seen i) ∧
      (m.step i).back.Stands (Arch.after h.arch done) waiting := by
  obtain ⟨done, waiting, rfl, hstands⟩ := hr.stands
  obtain ⟨done', waiting', hstands', heq⟩ := System.executes_step hreg.2.2.1 _ _ hstands
  refine ⟨done ++ done', waiting', ?_, ?_⟩
  · rw [List.append_assoc, heq, List.append_assoc]
  · rw [Arch.after_append, back_step]
    exact hstands'

theorem Runs.zero_step (hr : Runs h l xs m) (hreg : m.Regular i)
    (hzero : h.arch.registers.read 0 = 0) : (m.step i).cpu.pipe.registers.read 0 = 0 := by
  obtain ⟨done, waiting, -, hstands⟩ := hr.stands
  have hwritten := System.registers_step (m := m.back) (m.seen i) hreg.2.2.1.1.1
  rw [← back_step, hstands.written] at hwritten
  have hregisters : (m.step i).cpu.pipe.registers = (Arch.after h.arch done).registers := hwritten
  rw [hregisters, Arch.read_zero_after, hzero]

theorem Runs.step {n : ℕ} (hzero : h.arch.registers.read 0 = 0) (hb : h.Behaves n)
    (hr : Runs h l xs m) (hreg : m.Regular i) (hn : (l ++ m.issued i).length ≤ n) :
    Runs h (l ++ m.issued i) (xs ++ m.back.executed (m.seen i)) (m.step i) where
  loop := FetchLoop.inv_step hr.loop hreg.1 hreg.2.1
  latched := Core.latched_step hr.latched
  mode := (Core.currentModeSm_of_not_trap (s := m.cpu.front.core) hreg.1.1).trans hr.mode
  writers := by
    obtain ⟨done, waiting, -, hstands⟩ := hr.stands
    exact Backend.writers_step hr.writers hstands.inv.retained (seen_of_quiet hreg.1)
      fun _ => hr.exception_eq hreg.1
  zero := hr.zero_step hreg hzero
  length := hr.length_step hreg.1
  stands := hr.stands_step hreg
  states := hr.states_step hzero hb hreg (by rw [List.length_append] at hn; omega)
  program := hr.program_step hzero hb hreg hn
  next := hr.next_step hzero hb hreg hn
  sent := hr.sent_step hzero hb hreg hn
  fetched := hr.fetched_step hreg

end Cycle

/-! ### Runs -/

theorem runs_reset (procId pcInit : BitVec 32) (ram : Ram) :
    Runs (start pcInit ram) [] [] (reset procId pcInit ram) where
  loop := FetchLoop.inv_reset procId pcInit
  latched := Core.latched_reset procId
  mode := rfl
  writers := Backend.writers_reset
  zero := show Backend.reset.registers.read 0 = 0 by decide
  length := rfl
  stands := ⟨[], [], rfl, System.stands_reset ram⟩
  states k hk := by
    obtain rfl : k = 0 := Nat.le_zero.mp hk
    exact ⟨_, rfl, rfl⟩
  program k hk := absurd hk (Nat.not_lt_zero k)
  next := ⟨_, rfl, rfl⟩
  sent hv := absurd hv Bool.false_ne_true
  fetched hv := absurd hv Bool.false_ne_true

theorem runs_after {h : Hart} {n : ℕ} (hzero : h.arch.registers.read 0 = 0) (hb : h.Behaves n) :
    ∀ {is : List Cpu.Cycle} {l : List If2Dec} {xs : List Executed} {m : Machine},
      Runs h l xs m → Run.Each Regular step m is → (l ++ Run.collect issued step m is).length ≤ n →
      ∃ xs', Runs h (l ++ Run.collect issued step m is) xs' (Run.after step m is) := by
  intro is
  induction is with
  | nil =>
    intro l xs m hr _ _
    rw [Run.collect, List.append_nil]
    exact ⟨xs, hr⟩
  | cons i is ih =>
    rintro l xs m hr ⟨hreg, hrest⟩ hn
    rw [Run.collect, ← List.append_assoc] at hn ⊢
    have hle : (l ++ m.issued i).length ≤ n := by
      rw [List.length_append] at hn
      exact Nat.le_trans (Nat.le_add_right _ _) hn
    exact ih (hr.step hzero hb hreg hle) hrest hn

/-- The states of a core in which the instructions `l` of the program have left DEC. -/
theorem Runs.state_eq {h : Hart} {l : List If2Dec} {xs : List Executed} {m : Machine}
    (hr : Runs h l xs m) : ∃ n n' g g', n ≤ n' ∧ n' ≤ l.length ∧ l.length ≤ n + 2 ∧
      h.run n = some g ∧ m.back.written = g.arch.registers ∧
      h.run n' = some g' ∧ m.ram = g'.arch.ram ∧
      (m.cpu.pipe.dec2exe.v = false → m.cpu.pipe.exe2mem.v = false → n = l.length) := by
  obtain ⟨done, waiting, rfl, hstands⟩ := hr.stands
  have hlen := hr.length
  rw [List.length_append] at hlen
  have hdone : ∃ g, h.run done.length = some g ∧ g.arch = Arch.after h.arch done := by
    obtain ⟨g, hrun, harch⟩ := hr.states done.length (by rw [List.length_append]; omega)
    rw [List.take_left] at harch
    exact ⟨g, hrun, harch⟩
  obtain ⟨g, hrun, harch⟩ := hdone
  -- one instruction at most is in MEM, and one in EXE
  have hwaiting : waiting.length ≤ 1 ∧ (m.cpu.pipe.exe2mem.v = false → waiting.length = 0) := by
    rcases hstands.mem with ⟨x, rfl, hv, -⟩ | ⟨rfl, -⟩
    · exact ⟨Nat.le_refl 1, fun hno => absurd (hno.symm.trans hv) Bool.false_ne_true⟩
    · exact ⟨Nat.zero_le 1, fun _ => rfl⟩
  have hle : l.length ≤ done.length + 2 := by
    split_ifs at hlen <;> omega
  have hempty : m.cpu.pipe.dec2exe.v = false → m.cpu.pipe.exe2mem.v = false →
      done.length = l.length := by
    intro hexe hmem
    rw [hexe, if_neg Bool.false_ne_true, hwaiting.2 hmem] at hlen
    omega
  rcases hstands.ram with hram | hram
  · refine ⟨done.length, done.length, g, g, Nat.le_refl _, by omega, hle, hrun, ?_, hrun, ?_,
      hempty⟩
    · rw [harch]
      exact hstands.written
    · rw [harch]
      exact hram
  · -- the RAM has served the store in MEM already
    obtain ⟨g', hrun', harch'⟩ := hr.current
    rw [List.length_append] at hrun'
    refine ⟨done.length, done.length + waiting.length, g, g', by omega, by omega, hle, hrun, ?_,
      hrun', ?_, hempty⟩
    · rw [harch]
      exact hstands.written
    · rw [harch', Arch.after_append]
      exact hram

/-- A program that behaves goes, as long as every cycle is regular, through the states of RV32IM:
the instructions that leave DEC are those of the program, the registers with the write of WBK are
those after the first `n` of them, of which the last two at most are still under way, and the RAM
is that after the first `n'`. -/
theorem runs_rv32im (procId pcInit : BitVec 32) (ram : Ram) (is : List Cpu.Cycle)
    (hreg : Run.Each Regular step (reset procId pcInit ram) is)
    (hb : (start pcInit ram).Behaves
      (Run.collect issued step (reset procId pcInit ram) is).length) :
    let m := Run.after step (reset procId pcInit ram) is
    let l := Run.collect issued step (reset procId pcInit ram) is
    (∀ k (hk : k < l.length), ∃ g, (start pcInit ram).run k = some g ∧ l[k].pc = g.pc ∧
        l[k].instr = g.word) ∧
      ∃ n n' g g', n ≤ n' ∧ n' ≤ l.length ∧ l.length ≤ n + 2 ∧
        (start pcInit ram).run n = some g ∧ m.back.written = g.arch.registers ∧
        (start pcInit ram).run n' = some g' ∧ m.ram = g'.arch.ram ∧
        (m.cpu.pipe.dec2exe.v = false → m.cpu.pipe.exe2mem.v = false → n = l.length) := by
  have hzero : (start pcInit ram).arch.registers.read 0 = 0 := by
    change Registers.read (Vector.replicate 33 0) 0 = 0
    decide
  obtain ⟨xs, hr⟩ := runs_after hzero hb (runs_reset procId pcInit ram) hreg (Nat.le_refl _)
  exact ⟨hr.program, hr.state_eq⟩

/-- `addi x1, x0, 5`, `mul x2, x1, x1` and a jump to itself. -/
def squaring : Ram := fun a =>
  if a = 0x10054 then 0x00500093 else if a = 0x10058 then 0x02108133 else 0x0000006F

/-- A fetch stage that sees the signals of its cycle, and a multiplier with the square of 5. -/
def present : Cpu.Cycle :=
  { FetchLoop.cached 0 .present with
    core :=
      { (default : Core.Cycle) with
        pipe := { (default : Backend.Cycle) with product := 25 } } }

/-- The jump, with 5 in x1 and 25 in x2. -/
def squared : Hart :=
  ⟨0x1005C, ⟨Registers.write (Registers.write (Vector.replicate 33 0) 1 5) 2 25, squaring⟩⟩

theorem run_squaring (k : ℕ) : (start 0x10050 squaring).run (k + 2) = some squared := by
  induction k with
  | zero => rfl
  | succ k ih =>
    rw [Hart.run, ih]
    rfl

theorem behaves_squaring (n : ℕ) : (start 0x10050 squaring).Behaves n := by
  have hram : ∀ j g, (start 0x10050 squaring).run j = some g → g.arch.ram = squaring := by
    rintro (_ | _ | j) g hrun
    · rw [← Option.some.inj hrun]
      rfl
    · rw [← Option.some.inj hrun]
      rfl
    · rw [← Option.some.inj ((run_squaring j).symm.trans hrun)]
      rfl
  rintro (_ | _ | k) -
  · refine ⟨_, rfl, rfl, by decide +kernel, fun j _ g hrun => ?_⟩
    rw [hram j g hrun]
    rfl
  · refine ⟨_, rfl, rfl, by decide +kernel, fun j _ g hrun => ?_⟩
    rw [hram j g hrun]
    rfl
  · refine ⟨_, run_squaring k, rfl, by decide +kernel, fun j _ g hrun => ?_⟩
    rw [hram j g hrun]
    rfl

theorem runs_rv32im_squaring :
    ∃ n g, (start 0x10050 squaring).run n = some g ∧
      (Run.after step (reset 0 0x10050 squaring) (List.replicate 9 present)).back.written =
        g.arch.registers := by
  obtain ⟨-, n, -, g, -, -, -, -, hrun, hwritten, -⟩ :=
    runs_rv32im 0 0x10050 squaring (List.replicate 9 present) (by decide +kernel)
      (behaves_squaring _)
  exact ⟨n, g, hrun, hwritten⟩

end Machine

end CoreTb

end RiVerSoC
