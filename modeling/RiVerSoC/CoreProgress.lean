/-
The core does not stop.

* `rank` — how far the pipeline is from being empty, or the fetch stage from its next word;
* `rank_step` — an instruction leaves DEC, or a prompt cycle brings it closer;
* `countP_prompt_le` — for each instruction six prompt cycles are enough;
* `reaches_rv32im` — so a program that behaves is executed, and how long that takes.
-/
import RiVerSoC.CoreProgram

namespace RiVerSoC

namespace Backend

/-! ### The pipeline -/

section Pipeline

variable {s : State} {i : Cycle}

/-- The cycles that the instructions in flight can keep one in DEC waiting. -/
def State.rank (s : State) : ℕ :=
  if s.dec2exe.v then if s.exe2mem.v then 5 else if s.mem2wbk.v then 4 else 3
  else if s.exe2mem.v then 2 else if s.mem2wbk.v then 1 else 0

theorem memPush_eq (s : State) (i : Cycle) : memPush s i = (s.exe2mem.v && !i.mcacheStall) := by
  rw [memPush, wbkPop, Fifo.isFull, Fifo.isEmpty, Fifo.isEmpty]
  cases s.mem2wbk.v <;> cases s.exe2mem.v <;> cases i.mcacheStall <;> rfl

/-- With EXE2MEM and MEM2WBK empty `bypasses` finds every operand. -/
theorem bypasses_of_empty {j : Exe.Inputs} (hmem : j.exe2memEmpty = true)
    (hwbk : j.mem2wbkEmpty = true) (old : Exe.Bypassed) :
    (Exe.bypasses j old).blocked = false ∧ (Exe.bypasses j old).r1ValidSe = true := by
  have hahead : ∀ r, ¬ Exe.loadAhead j r := fun r hno => hno.2.2 hmem
  have h1 : (Exe.bypassRs1 j old.op1Se).2 = (false, true) := by
    rw [Exe.bypassRs1, hmem, hwbk, if_neg (hahead _)]
    split_ifs <;> simp
  have h2 : (Exe.bypassRs2 j old.op2Se).2.2 = false := by
    rw [Exe.bypassRs2, if_neg (hahead _)]
    dsimp only
    split_ifs <;> rfl
  refine ⟨?_, congrArg Prod.snd h1⟩
  change (_ || _) = false
  rw [h1, h2]
  rfl

/-- EXE waits for the instructions in MEM and in WBK only, whatever `bypasses` has read last. -/
theorem exePush_of_empty (hbusy : i.divBusy = false) (hv : s.dec2exe.v = true)
    (hmem : s.exe2mem.v = false) (hwbk : s.mem2wbk.v = false) : exePush s i = true := by
  obtain ⟨j, old, hbyp⟩ := (exeStage s i).atRest.byp_eq
  have hbyp : (exeSig s i).byp = Exe.bypasses ((exeInputs s i).bypassing j) old := hbyp
  obtain ⟨hblocked, hvalid⟩ := bypasses_of_empty (j := (exeInputs s i).bypassing j)
    (congrArg not hmem) (congrArg not hwbk) old
  rw [← hbyp] at hblocked hvalid
  have hvalid2 : (exeSig s i).byp.r2ValidSe = true := by
    rw [hbyp]
    rfl
  rw [exePush, exeStall, hblocked, hvalid, hvalid2, hbusy, Fifo.isFull, Fifo.isEmpty, hmem, hv]
  exact Bool.or_true _

/-- DEC waits for the instructions in flight only. -/
theorem decPush_of_empty (hif : i.if2decEmpty = false) (hexe : s.dec2exe.v = false)
    (hmem : s.exe2mem.v = false) (hwbk : s.mem2wbk.v = false) : decPush s i = true := by
  have hinExe : ∀ r, (decContents s i).stages.inExe r = false := by
    intro r
    change (r == s.rd.dest && !!s.dec2exe.v) = false
    rw [hexe]
    exact Bool.and_false _
  have hinMem : ∀ r, (decContents s i).stages.inMem r = false := fun r =>
    Bool.eq_false_iff.mpr fun h => absurd (hmem.symm.trans (inMem_iff.mp h).1) Bool.false_ne_true
  have hinWbk : ∀ r, (decContents s i).stages.inWbk r = false := fun r =>
    Bool.eq_false_iff.mpr fun h => absurd (hwbk.symm.trans (inWbk_iff.mp h).1) Bool.false_ne_true
  have hvalid : ∀ csrrc r rdata old,
      (Dec.bypass (decContents s i).stages csrrc r rdata old).2 = true := by
    intro csrrc r rdata old
    rw [Dec.bypass, hinExe, hinMem, hinWbk]
    split_ifs <;> simp_all
  obtain ⟨hfresh1, hfresh2⟩ := (decStage s i).atRest.valid_eq
  have h1 : (decSig s i).haz.r1Valid = true := hfresh1.trans (hvalid _ _ _ _)
  have h2 : (decSig s i).haz.r2Valid = true := hfresh2.trans (hvalid _ _ _ _)
  have hcsr : Dec.csrInProgress (decContents s i).stages = false := by
    change (s.rd.csrWenable && !!s.dec2exe.v || s.re.csrWenable && !!s.exe2mem.v) = false
    rw [hexe, hmem, Bool.not_not, Bool.and_false, Bool.and_false, Bool.or_false]
  have hstall : (decSig s i).stallSd = Dec.stall (Dec.csrInProgress (decContents s i).stages)
      (decSig s i).types (decSig s i).haz i.if2decEmpty (s.dec2exe.isFull (exePush s i)) := rfl
  rw [decPush, hstall, hcsr, Dec.stall, h1, h2, hif, Fifo.isFull, hexe]
  exact Bool.or_true _

/-- Which FIFOs have a word after the cycle. -/
theorem v_step (hx : i.exceptionSm = false) (hd : decPush s i = false) :
    (step s i).dec2exe.v = (s.dec2exe.v && !exePush s i) ∧
      (step s i).exe2mem.v = (exePush s i || s.exe2mem.v && i.mcacheStall) ∧
      (step s i).mem2wbk.v = (s.exe2mem.v && !i.mcacheStall) := by
  refine ⟨?_, ?_, ?_⟩
  · rcases dec2exe_cases s i with ⟨hno, -⟩ | ⟨-, -, -, hv⟩
    · exact absurd (hd.symm.trans hno) Bool.false_ne_true
    · exact hv
  · cases hp : exePush s i with
    | true => rw [exe2mem_of_loads ((loads_of_not_trap (s := s) hx).trans hp), Bool.true_or]
    | false =>
      rw [exe2mem_v_of_not_loads ((loads_of_not_trap (s := s) hx).trans hp), memPush_eq]
      cases s.exe2mem.v <;> cases i.mcacheStall <;> rfl
  · cases hp : memPush s i with
    | true => rw [mem2wbk_of_memPush hp, ← memPush_eq, hp]
    | false => rw [mem2wbk_v_of_not_memPush hp, ← memPush_eq, hp]

/-- EXE pushes into an EXE2MEM that MEM leaves. -/
theorem room_of_exePush (hx : i.exceptionSm = false) (hp : exePush s i = true) :
    (s.exe2mem.v && i.mcacheStall) = false := by
  have hroom := (not_stall_of_exePush hx hp).1
  rw [Fifo.isFull, memPush_eq] at hroom
  revert hroom
  cases s.exe2mem.v <;> cases i.mcacheStall <;> decide

/-- While none leaves DEC, the instructions in flight come closer to WBK whenever the data cache
answers and the divider is ready. -/
theorem rank_step (hx : i.exceptionSm = false) (hd : decPush s i = false) :
    (step s i).rank ≤ s.rank - (!i.mcacheStall && !i.divBusy).toNat := by
  obtain ⟨hexe, hmem, hwbk⟩ := v_step hx hd
  have hpush : i.divBusy = false → s.dec2exe.v = true → s.exe2mem.v = false →
      s.mem2wbk.v = false → exePush s i = true := exePush_of_empty
  have hv : exePush s i = true → s.dec2exe.v = true := v_of_exePush hx
  have hroom := room_of_exePush (s := s) hx
  unfold State.rank
  rw [hexe, hmem, hwbk]
  -- MEM and WBK drain first, and then EXE pushes
  cases hd2e : s.dec2exe.v <;> cases he2m : s.exe2mem.v <;> cases hm2w : s.mem2wbk.v <;>
    cases hp : exePush s i <;> cases hm : i.mcacheStall <;> cases hb : i.divBusy <;>
    simp_all

theorem rank_le (s : State) : s.rank ≤ 5 := by
  unfold State.rank
  split_ifs <;> omega

theorem empty_of_rank (h : s.rank = 0) :
    s.dec2exe.v = false ∧ s.exe2mem.v = false ∧ s.mem2wbk.v = false := by
  revert h
  unfold State.rank
  cases s.dec2exe.v <;> cases s.exe2mem.v <;> cases s.mem2wbk.v <;> decide

end Pipeline

end Backend

/-! ### The fetch stage -/

namespace FetchLoop.Loop

variable {l : Loop} {v : Moves} {n : BitVec 32}

/-- The cycles until there is an instruction in IF2DEC. -/
def rank (l : Loop) : ℕ := if l.if2dec.v then 0 else if l.dec2if.v then 1 else 2

theorem rank_le (l : Loop) : l.rank ≤ 2 := by
  unfold rank
  split_ifs <;> omega

theorem v_of_rank (h : l.rank = 0) : l.if2dec.v = true := by
  revert h
  unfold rank
  cases l.if2dec.v <;> cases l.dec2if.v <;> decide

/-- While DEC waits, the next instruction comes closer to IF2DEC whenever the fetch is ready. -/
theorem rank_step {ready : Bool} (h : l.Holds n) (hv : l.Fits v) (hstall : v.stall = true)
    (hready : ready = true → l.if2dec.v = false → l.dec2if.v = true → v.fetch = true) :
    (l.step v).rank ≤ l.rank - ready.toNat := by
  have hadr := dec2if_v_step h hv
  have hpush : if2decPush v = v.fetch := by
    rw [if2decPush, hstall, Bool.not_true, Bool.and_false, Bool.not_false, Bool.true_and]
  have hif2dec : (l.step v).if2dec.v = (v.fetch || l.if2dec.v) := by
    change (l.if2dec.clock (if2decPush v) (!v.stall) l.dec2if.dout).v = _
    rw [hpush, hstall, Fifo.v_clock, Fifo.loads]
    cases v.fetch <;> cases l.if2dec.v <;> rfl
  unfold rank
  rw [hif2dec, hadr]
  cases hf : v.fetch <;> cases hi : l.if2dec.v <;> cases hd : l.dec2if.v <;> cases ready <;>
    simp_all

end FetchLoop.Loop

/-! ### The core -/

namespace CoreTb.Machine

/-- The caches answer, the divider is ready, and the fetch stage sees `if2dec_full` and
`dec2if_empty_sd` of this cycle. -/
def prompt (i : Cpu.Cycle) : Bool :=
  !i.stallSic && !i.core.pipe.mcacheStall && !i.core.pipe.divBusy &&
    i.sights.if2decFull == .present && i.emptySeen

/-- The prompt cycles until an instruction leaves DEC. -/
def rank (m : Machine) : ℕ := max m.cpu.pipe.rank (FetchLoop.loop m.cpu).rank

section Cycle

variable {m : Machine} {i : Cpu.Cycle}

theorem rank_le (m : Machine) : m.rank ≤ 5 :=
  max_le (Backend.rank_le _) (Nat.le_trans (FetchLoop.Loop.rank_le _) (by decide))

theorem fetch_of_prompt (hp : prompt i = true) (hif : m.cpu.if2dec.v = false)
    (hadr : m.cpu.dec2if.v = true) : (FetchLoop.moves m.cpu (m.cycle i)).fetch = true := by
  simp only [prompt, Bool.and_eq_true, Bool.not_eq_true', beq_iff_eq] at hp
  obtain ⟨⟨⟨⟨hsic, -⟩, -⟩, hpresent⟩, hseen⟩ := hp
  have hfull : (Cpu.seen m.cpu (m.cycle i)).if2decFull = false := by
    change i.sights.if2decFull.choose (m.cpu.if2dec.isFull _) _ _ = false
    rw [hpresent, Cpu.Sight.choose, Fifo.isFull, hif, Bool.false_and]
  have hempty : Cpu.dec2ifEmpty m.cpu (m.cycle i) = false := by
    change (if i.emptySeen then m.cpu.dec2if.isEmpty else _) = false
    rw [hseen, if_pos rfl, Fifo.isEmpty, hadr, Bool.not_true]
  change (!(i.stallSic || (Cpu.seen m.cpu (m.cycle i)).if2decFull ||
    Cpu.dec2ifEmpty m.cpu (m.cycle i))) = true
  rw [hsic, hfull, hempty]
  rfl

/-- An instruction leaves DEC when there is one, and none in front of it. -/
theorem leaves_of_rank (hrank : m.rank = 0) : FetchLoop.leaves m.loop (m.cycle i) = true := by
  obtain ⟨hpipe, hloop⟩ := Nat.max_eq_zero_iff.mp hrank
  obtain ⟨hexe, hmem, hwbk⟩ := Backend.empty_of_rank hpipe
  have hif : m.cpu.if2dec.v = true := FetchLoop.Loop.v_of_rank hloop
  refine Backend.decPush_of_empty ?_ hexe hmem hwbk
  change (!m.cpu.if2dec.v) = false
  rw [hif, Bool.not_true]

/-- A prompt cycle brings the next instruction closer, or one leaves, for which six of them are
enough. -/
theorem rank_step (h : FetchLoop.Inv m.loop) (hreg : m.Regular i) :
    (prompt i).toNat + (m.step i).rank ≤ m.rank + 6 * (m.issued i).length := by
  have hprompt : (prompt i).toNat ≤ 1 := Bool.toNat_le _
  cases hl : FetchLoop.leaves m.loop (m.cycle i) with
  | true =>
    -- the instruction pays for the cycle, and for what the rank is now
    rw [issued, hl, if_pos rfl, List.length_singleton]
    have hle := rank_le (m.step i)
    omega
  | false =>
    obtain ⟨hq, ht, -⟩ := hreg
    rw [issued, hl, if_neg Bool.false_ne_true, List.length_nil]
    have hpipe : (m.step i).cpu.pipe.rank ≤ m.cpu.pipe.rank - (prompt i).toNat := by
      refine (Backend.rank_step (i := m.seen i) hq.1 hl).trans (Nat.sub_le_sub_left ?_ _)
      cases hp : prompt i with
      | false => exact Nat.zero_le _
      | true =>
        simp only [prompt, Bool.and_eq_true, Bool.not_eq_true', beq_iff_eq] at hp
        obtain ⟨⟨⟨⟨-, hm⟩, hbusy⟩, -⟩, -⟩ := hp
        have hm' : (m.seen i).mcacheStall = (i.core.pipe.mcacheStall && _) := rfl
        have hbusy' : (m.seen i).divBusy = i.core.pipe.divBusy := rfl
        rw [hm', hbusy', hm, hbusy]
        exact Nat.le_refl _
    have hstall : (FetchLoop.moves m.cpu (m.cycle i)).stall = true := by
      rw [FetchLoop.leaves_eq hq, Bool.not_eq_false'] at hl
      exact hl
    have hloop : (FetchLoop.loop (m.step i).cpu).rank ≤
        (FetchLoop.loop m.cpu).rank - (prompt i).toNat := by
      change (FetchLoop.loop (Cpu.step m.cpu (m.cycle i))).rank ≤ _
      rw [FetchLoop.loop_step (FetchLoop.unpredicted_of_quiet h hq)]
      exact FetchLoop.Loop.rank_step h.holds (FetchLoop.fits_of_timely h hq ht) hstall
        fetch_of_prompt
    have hpos : m.rank ≠ 0 := fun hzero =>
      absurd (hl.symm.trans (leaves_of_rank hzero)) Bool.false_ne_true
    unfold rank at hpos ⊢
    omega

end Cycle

/-- Of a run of regular cycles, six prompt ones are enough for an instruction to leave DEC. -/
theorem countP_prompt_le (procId pcInit : BitVec 32) (ram : Ram) {is : List Cpu.Cycle}
    (hreg : Run.Each Regular step (reset procId pcInit ram) is) :
    is.countP prompt ≤ 6 * (Run.collect issued step (reset procId pcInit ram) is).length + 2 := by
  have hle : is.countP prompt + (Run.after step (reset procId pcInit ram) is).rank ≤
      (reset procId pcInit ram).rank +
        6 * (Run.collect issued step (reset procId pcInit ram) is).length :=
    Run.countP_le_collect (fun m : Machine => FetchLoop.Inv m.loop)
      (fun m i h hr => FetchLoop.inv_step h hr.1 hr.2.1) rank 6 prompt
      (fun m i h hr => rank_step h hr) (FetchLoop.inv_reset procId pcInit) hreg
  have hrank : (reset procId pcInit ram).rank = 2 := rfl
  omega

/-- A program that behaves is executed, as long as every cycle is regular: after `6 * n + 14`
prompt cycles the core has been through `n` instructions at least. -/
theorem reaches_rv32im (procId pcInit : BitVec 32) (ram : Ram) (is : List Cpu.Cycle)
    (hreg : Run.Each Regular step (reset procId pcInit ram) is)
    (hb : (start pcInit ram).Behaves
      (Run.collect issued step (reset procId pcInit ram) is).length) :
    ∃ n n' g g', is.countP prompt ≤ 6 * n + 14 ∧ n ≤ n' ∧ n' ≤ n + 2 ∧
      (start pcInit ram).run n = some g ∧
      (Run.after step (reset procId pcInit ram) is).back.written = g.arch.registers ∧
      (start pcInit ram).run n' = some g' ∧
      (Run.after step (reset procId pcInit ram) is).ram = g'.arch.ram := by
  have hzero : (start pcInit ram).arch.registers.read 0 = 0 := by
    change Registers.read (Vector.replicate 33 0) 0 = 0
    decide
  obtain ⟨xs, hr⟩ := runs_after hzero hb (runs_reset procId pcInit ram) hreg (Nat.le_refl _)
  obtain ⟨n, n', g, g', hn, hn', hlen, hrun, hwritten, hrun', hram, -⟩ := hr.state_eq
  have hle := countP_prompt_le procId pcInit ram hreg
  rw [List.nil_append] at hn' hlen
  exact ⟨n, n', g, g', by omega, hn, by omega, hrun, hwritten, hrun', hram⟩

theorem reaches_rv32im_squaring :
    (Run.after step (reset 0 0x10050 squaring) (List.replicate 26 present)).back.written =
      squared.arch.registers := by
  obtain ⟨n, -, g, -, hcount, -, -, hrun, hwritten, -⟩ :=
    reaches_rv32im 0 0x10050 squaring (List.replicate 26 present) (by decide +kernel)
      (behaves_squaring _)
  have hprompt : (List.replicate 26 present).countP prompt = 26 := by decide
  obtain ⟨k, rfl⟩ : ∃ k, n = k + 2 := ⟨n - 2, by omega⟩
  rw [hwritten, ← Option.some.inj ((run_squaring k).symm.trans hrun)]

end CoreTb.Machine

end RiVerSoC
