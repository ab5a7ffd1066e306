/-
The bus serves one request after the other.

* `Stands` — the state of the three machines in terms of the memory and the registers that the bus
  stands for, and of the request that is on its way;
* `Stands.step` — one clock cycle;
* `serves` — in every run with a core that waits the requests are served in the order in which the
  slaves take them;
* `answers` — what the core gets when a port does not stall.
-/
import RiVerSoC.Wishbone

namespace RiVerSoC

namespace Wishbone

/-! ### The comparator -/

theorem selectLed_of_selectRam {adr : BitVec 32} (h : selectRam adr = true) :
    selectLed adr = false := by
  simp only [selectRam, selectLed, decide_eq_true_eq, Bool.and_eq_false_iff,
    decide_eq_false_iff_not, BitVec.lt_def, BitVec.le_def] at h ⊢
  omega

theorem selectRam_of_selectLed {adr : BitVec 32} (h : selectLed adr = true) :
    selectRam adr = false := by
  rw [Bool.eq_false_iff]
  intro hram
  have hno := selectLed_of_selectRam hram
  rw [h] at hno
  exact absurd hno.symm Bool.false_ne_true

namespace System

variable {C : Type} {b : Bram C} {s : System C} {a : Store C} {c : Core}
  {t : Request}

/-! ### The request on the bus -/

/-- The master keeps the request `t` on the bus as long as the core waits. -/
structure Busy (s : System C) (t : Request) : Prop where
  stb : s.top.cpu.ep.stbO = true
  we : s.top.cpu.ep.weO = t.we
  adr : ∀ c, s.Waits c → (s.top.bus c).adr = t.adr

/-- The request that the master has put on the bus. -/
def requested (s : System C) (c : Core) : Request :=
  ⟨(s.top.bus c).we, (s.top.bus c).adr, (s.top.bus c).dat, (s.top.bus c).sel⟩

theorem ackSlv_of_ram (h : selectRam (s.top.bus c).adr = true) :
    s.top.ackSlv c = s.top.ram.ep.ackO := if_pos h

theorem ackSlv_of_led (h : selectLed (s.top.bus c).adr = true) :
    s.top.ackSlv c = s.top.led.ep.ackO := by
  rw [Top.ackSlv, if_neg (Bool.eq_false_iff.mp (selectRam_of_selectLed h)), if_pos h]

theorem taken_of_not_stb (h : s.top.cpu.ep.stbO = false) : s.taken c = [] := by
  unfold taken
  rw [show (s.top.bus c).stb = false from h, Bool.and_false, if_neg Bool.false_ne_true]

theorem taken_of_not_idle (h : (selectRam (s.top.bus c).adr && s.top.ram.ep == .idle) = false)
    (h' : (selectLed (s.top.bus c).adr && s.top.led.ep == .idle) = false) : s.taken c = [] := by
  unfold taken
  rw [h, h', Bool.or_false, Bool.false_and, if_neg Bool.false_ne_true]

theorem taken_of_idle (hstb : s.top.cpu.ep.stbO = true)
    (h : (selectRam (s.top.bus c).adr && s.top.ram.ep == .idle ||
      selectLed (s.top.bus c).adr && s.top.led.ep == .idle) = true) :
    s.taken c = [s.requested c] := by
  unfold taken
  rw [h, show (s.top.bus c).stb = true from hstb, Bool.true_and, if_pos rfl]
  rfl

/-- A load stalls until its own answer is there. -/
theorem load_stalls_iff (hv : c.dcache.adrV = true) (hl : c.dcache.load = true) :
    s.top.dcacheStall c = false ↔ s.top.cpu.ep = .dread ∧ s.top.ackSlv c = true := by
  unfold Top.dcacheStall Cpu.State.dcacheStall
  rw [hv, hl]
  cases s.top.cpu.ep <;> cases s.top.ackSlv c <;> decide

/-- Fetch does not stall while a load waits for its answer. -/
theorem icacheStall_iff : s.top.icacheStall c = false ↔
    (s.top.cpu.ep = .iread ∧ s.top.ackSlv c = true) ∨
      (s.top.cpu.ep = .dread ∧ s.top.ackSlv c = false) := by
  unfold Top.icacheStall Cpu.State.icacheStall
  cases s.top.cpu.ep <;> cases s.top.ackSlv c <;> decide

variable [DecidableEq C]

theorem ep_of_stb (h : s.top.cpu.ep.stbO = true) (hack : s.top.ackSlv c = false) :
    (s.step b c).top.cpu.ep = s.top.cpu.ep := by
  have hep : (s.step b c).top.cpu.ep = s.top.cpu.ef c (s.top.ackSlv c) := rfl
  rw [hep, Cpu.Regs.ef, hack]
  cases he : s.top.cpu.ep with
  | idle =>
    rw [he] at h
    exact absurd h Bool.false_ne_true
  | iread | dread | dwrite => rfl

theorem ep_of_ack (h : s.top.cpu.ep.stbO = true) (hack : s.top.ackSlv c = true) :
    (s.step b c).top.cpu.ep = .idle := by
  have hep : (s.step b c).top.cpu.ep = s.top.cpu.ef c (s.top.ackSlv c) := rfl
  rw [hep, Cpu.Regs.ef, hack]
  cases he : s.top.cpu.ep with
  | idle =>
    rw [he] at h
    exact absurd h Bool.false_ne_true
  | iread | dread | dwrite => rfl

/-- The port that the master serves stalls until the answer is there. -/
theorem adr_stays (h : s.top.cpu.ep.stbO = true) (hack : s.top.ackSlv c = false) {c' : Core}
    (hw : (s.step b c).Waits c') : ((s.step b c).top.bus c').adr = (s.top.bus c).adr := by
  have hep := ep_of_stb (b := b) h hack
  have hbus : ∀ d : Core, (s.top.bus d).adr = s.top.cpu.ep.adrO d := fun _ => rfl
  have hbus' : ((s.step b c).top.bus c').adr = (s.step b c).top.cpu.ep.adrO c' := rfl
  rw [hbus, hbus', hep]
  have hd : s.top.dcacheStall c = true → c'.dcache = c.dcache := hw.1
  have hi : s.top.icacheStall c = true → c'.icache = c.icache := hw.2
  unfold Top.dcacheStall Cpu.State.dcacheStall at hd
  unfold Top.icacheStall Cpu.State.icacheStall at hi
  rw [hack] at hd hi
  cases he : s.top.cpu.ep with
  | idle =>
    rw [he] at h
    exact absurd h Bool.false_ne_true
  | iread =>
    rw [he] at hi
    exact congrArg FetchPort.adr (hi rfl)
  | dread =>
    rw [he] at hd
    exact congrArg DataPort.adr (hd rfl)
  | dwrite =>
    rw [he] at hd
    exact congrArg DataPort.adr (hd rfl)

theorem Busy.step (h : Busy s t) (hw : s.Waits c) (hack : s.top.ackSlv c = false) :
    Busy (s.step b c) t where
  stb := by
    rw [ep_of_stb h.stb hack]
    exact h.stb
  we := by
    rw [ep_of_stb h.stb hack]
    exact h.we
  adr := fun _ hw' => (adr_stays h.stb hack hw').trans (h.adr c hw)

theorem busy_requested (h : s.top.cpu.ep.stbO = true) (hack : s.top.ackSlv c = false) :
    Busy (s.step b c) (s.requested c) where
  stb := by
    rw [ep_of_stb h hack]
    exact h
  we := by
    rw [ep_of_stb h hack]
    rfl
  adr := fun _ hw' => adr_stays h hack hw'

/-! ### What the state stands for -/

/-- The requests before `q` have been served. -/
inductive Stands (b : Bram C) (s : System C) (a : Store C) : List Request → Prop where
  /-- No slave is at work. -/
  | quiet (ram : s.top.ram.ep = .idle) (led : s.top.led.ep = .idle)
      (word : s.top.memory.word = a.word) (reg : s.top.led.slvReg = a.reg) : Stands b s a []
  /-- The block memory is about to serve `t`. -/
  | ram (t : Request) (busy : Busy s t) (select : selectRam t.adr = true)
      (ep : s.top.ram.ep = if t.we then .w else .r)
      (adr : s.top.ram.adrReg = RamSlave.adrAdapt ramSize t.adr)
      (dat : s.top.ram.dataReg = t.dat) (sel : s.top.ram.selReg = t.sel)
      (led : s.top.led.ep = .idle) (word : s.top.memory.word = a.word)
      (reg : s.top.led.slvReg = a.reg) : Stands b s a [t]
  /-- It has served `t`. -/
  | done (t : Request) (busy : Busy s t) (select : selectRam t.adr = true)
      (ep : s.top.ram.ep = .done) (led : s.top.led.ep = .idle)
      (word : s.top.memory.word = (a.perform b t).word) (reg : s.top.led.slvReg = a.reg)
      (answer : t.we = false → s.top.memory.ramDo = a.answer b t.adr) : Stands b s a [t]
  /-- The leds serve `t`. -/
  | led (t : Request) (busy : Busy s t) (select : selectLed t.adr = true)
      (ep : s.top.led.ep = if t.we then .w else .r) (adr : s.top.led.adrReg = t.adr)
      (dat : s.top.led.dataReg = t.dat) (sel : s.top.led.selReg = t.sel)
      (ram : s.top.ram.ep = .idle) (word : s.top.memory.word = a.word)
      (reg : s.top.led.slvReg = a.reg) : Stands b s a [t]

/-- The pins show the registers. -/
theorem Stands.reg_eq {q : List Request} (h : Stands b s a q) : s.top.led.slvReg = a.reg := by
  cases h with
  | quiet _ _ _ reg => exact reg
  | ram _ _ _ _ _ _ _ _ _ reg => exact reg
  | done _ _ _ _ _ _ reg _ => exact reg
  | led _ _ _ _ _ _ _ _ _ reg => exact reg

/-! ### The slaves -/

section Slaves

/-- A slave that is not selected stays idle. -/
theorem ram_idle (h : s.top.ram.ep = .idle)
    (hstb : (selectRam (s.top.bus c).adr && s.top.cpu.ep.stbO) = false) :
    (s.step b c).top.ram.ep = .idle := by
  have hep : (s.step b c).top.ram.ep =
      s.top.ram.ep.ef (selectRam (s.top.bus c).adr && s.top.cpu.ep.stbO)
        (selectRam (s.top.bus c).adr && s.top.cpu.ep.weO) := rfl
  rw [hep, h, hstb]
  rfl

theorem led_idle (h : s.top.led.ep = .idle)
    (hstb : (selectLed (s.top.bus c).adr && s.top.cpu.ep.stbO) = false) :
    (s.step b c).top.led.ep = .idle := by
  have hep : (s.step b c).top.led.ep =
      s.top.led.ep.ef (selectLed (s.top.bus c).adr && s.top.cpu.ep.stbO)
        (selectLed (s.top.bus c).adr && s.top.cpu.ep.weO) := rfl
  rw [hep, h, hstb]
  rfl

theorem ram_ep_of_selected (h : s.top.ram.ep = .idle) (hstb : s.top.cpu.ep.stbO = true)
    (hsel : selectRam (s.top.bus c).adr = true) :
    (s.step b c).top.ram.ep = if s.top.cpu.ep.weO then .w else .r := by
  have hep : (s.step b c).top.ram.ep =
      s.top.ram.ep.ef (selectRam (s.top.bus c).adr && s.top.cpu.ep.stbO)
        (selectRam (s.top.bus c).adr && s.top.cpu.ep.weO) := rfl
  rw [hep, h, hsel, hstb]
  cases s.top.cpu.ep.weO <;> rfl

theorem led_ep_of_selected (h : s.top.led.ep = .idle) (hstb : s.top.cpu.ep.stbO = true)
    (hsel : selectLed (s.top.bus c).adr = true) :
    (s.step b c).top.led.ep = if s.top.cpu.ep.weO then .w else .r := by
  have hep : (s.step b c).top.led.ep =
      s.top.led.ep.ef (selectLed (s.top.bus c).adr && s.top.cpu.ep.stbO)
        (selectLed (s.top.bus c).adr && s.top.cpu.ep.weO) := rfl
  rw [hep, h, hsel, hstb]
  cases s.top.cpu.ep.weO <;> rfl

theorem ram_ep_of_enable (h : s.top.ram.ep = if t.we then .w else .r) :
    (s.step b c).top.ram.ep = .done := by
  have hep : (s.step b c).top.ram.ep =
      s.top.ram.ep.ef (selectRam (s.top.bus c).adr && s.top.cpu.ep.stbO)
        (selectRam (s.top.bus c).adr && s.top.cpu.ep.weO) := rfl
  rw [hep, h]
  split_ifs <;> rfl

/-- The block memory is at rest when it is not enabled. -/
theorem memory_step (h : s.top.ram.ep.enable = false) : (s.step b c).top.memory = s.top.memory := by
  have hmem : (s.step b c).top.memory = s.top.memory.clock b s.top.ram.ep.enable
      (RamSlave.ramBytSel s.top.ram) s.top.ram.adrReg s.top.ram.dataReg := rfl
  rw [hmem, h, Memory.clock, if_neg Bool.false_ne_true]

theorem slvReg_step (h : s.top.led.ep.wenable = false) :
    (s.step b c).top.led.slvReg = s.top.led.slvReg := by
  have hreg : (s.step b c).top.led.slvReg = if s.top.led.ep.wenable then
      LedSlave.written ledBaseAdr s.top.led.slvReg s.top.led.selReg s.top.led.adrReg
        s.top.led.dataReg
    else s.top.led.slvReg := rfl
  rw [hreg, h, if_neg Bool.false_ne_true]

end Slaves

/-! ### One cycle -/

section Step

variable {q : List Request}

/-- Without a slave at work, a request starts or nothing happens. -/
theorem Stands.step_quiet (hram : s.top.ram.ep = .idle) (hled : s.top.led.ep = .idle)
    (hword : s.top.memory.word = a.word) (hreg : s.top.led.slvReg = a.reg) :
    Stands b (s.step b c) a (s.taken c) := by
  have hmem : (s.step b c).top.memory.word = a.word := by
    rw [memory_step (by rw [hram]; rfl)]
    exact hword
  have hslv : (s.step b c).top.led.slvReg = a.reg := by
    rw [slvReg_step (by rw [hled]; rfl)]
    exact hreg
  cases hstb : s.top.cpu.ep.stbO with
  | false =>
    rw [taken_of_not_stb hstb]
    refine .quiet (ram_idle hram ?_) (led_idle hled ?_) hmem hslv
    · rw [hstb, Bool.and_false]
    · rw [hstb, Bool.and_false]
  | true =>
    cases hsr : selectRam (s.top.bus c).adr with
    | true =>
      have hack : s.top.ackSlv c = false := by
        rw [ackSlv_of_ram hsr, hram]
        rfl
      rw [taken_of_idle hstb (by rw [hsr, hram]; rfl)]
      refine .ram _ (busy_requested hstb hack) hsr (ram_ep_of_selected hram hstb hsr) rfl rfl rfl
        (led_idle hled ?_) hmem hslv
      rw [selectLed_of_selectRam hsr, Bool.false_and]
    | false =>
      cases hsl : selectLed (s.top.bus c).adr with
      | true =>
        have hack : s.top.ackSlv c = false := by
          rw [ackSlv_of_led hsl, hled]
          rfl
        rw [taken_of_idle hstb (by rw [hsl, hled, Bool.or_eq_true]; exact Or.inr rfl)]
        refine .led _ (busy_requested hstb hack) hsl (led_ep_of_selected hled hstb hsl) rfl rfl rfl
          (ram_idle hram ?_) hmem hslv
        rw [hsr, Bool.false_and]
      | false =>
        -- nobody answers at this address
        rw [taken_of_not_idle (by rw [hsr, Bool.false_and]) (by rw [hsl, Bool.false_and])]
        refine .quiet (ram_idle hram ?_) (led_idle hled ?_) hmem hslv
        · rw [hsr, Bool.false_and]
        · rw [hsl, Bool.false_and]

theorem reg_perform_of_ram (hsel : selectRam t.adr = true) : (a.perform b t).reg = a.reg := by
  unfold Store.perform
  rw [if_pos hsel]
  split_ifs <;> rfl

theorem word_perform_of_led (hsel : selectLed t.adr = true) : (a.perform b t).word = a.word := by
  unfold Store.perform
  rw [if_neg (Bool.eq_false_iff.mp (selectRam_of_selectLed hsel))]
  split_ifs <;> rfl

theorem reg_perform_of_led (hsel : selectLed t.adr = true) : (a.perform b t).reg =
    if t.we then LedSlave.written ledBaseAdr a.reg t.sel t.adr t.dat else a.reg := by
  unfold Store.perform
  rw [if_neg (Bool.eq_false_iff.mp (selectRam_of_selectLed hsel))]
  split_ifs <;> rfl

/-- The block memory serves the request in its registers. -/
theorem memory_of_ram (ep : s.top.ram.ep = if t.we then .w else .r)
    (adr : s.top.ram.adrReg = RamSlave.adrAdapt ramSize t.adr) (dat : s.top.ram.dataReg = t.dat)
    (sel : s.top.ram.selReg = t.sel) (word : s.top.memory.word = a.word)
    (hsel : selectRam t.adr = true) :
    (s.step b c).top.memory.word = (a.perform b t).word ∧
      (t.we = false → (s.step b c).top.memory.ramDo = a.answer b t.adr) := by
  have hmem : (s.step b c).top.memory = s.top.memory.clock b s.top.ram.ep.enable
      (RamSlave.ramBytSel s.top.ram) s.top.ram.adrReg s.top.ram.dataReg := rfl
  have henable : s.top.ram.ep.enable = true := by
    rw [ep]
    split_ifs <;> rfl
  have hcell : b.cell s.top.ram.adrReg = Store.cellOf b t.adr := by rw [adr, Store.cellOf]
  rw [hmem, Memory.clock, if_pos henable, hcell, word, dat]
  unfold RamSlave.ramBytSel Store.perform Store.answer
  rw [ep, sel, if_pos hsel]
  cases hwe : t.we with
  | true =>
    rw [if_pos rfl, if_pos rfl, if_pos hsel]
    exact ⟨rfl, fun h => absurd h (by decide)⟩
  | false =>
    have hread : RamSlave.State.wenable (if false = true then .w else .r) = false := rfl
    rw [hread, if_neg Bool.false_ne_true, if_neg Bool.false_ne_true]
    dsimp only
    rw [b.merge_zero, b.shown_zero, Function.update_eq_self]
    exact ⟨rfl, fun _ => (if_pos hsel).symm⟩

theorem Stands.serve_step (h : Stands b s a q) (hw : s.Waits c) : ∃ done q',
    Stands b (s.step b c) (a.after b done) q' ∧ done ++ q' = q ++ s.taken c := by
  cases h with
  | quiet ram led word reg => exact ⟨[], _, step_quiet ram led word reg, rfl⟩
  | ram t busy select ep adr dat sel led word reg =>
    have hsel : selectRam (s.top.bus c).adr = true := by rw [busy.adr c hw]; exact select
    have hnone := selectLed_of_selectRam hsel
    have hep : s.top.ram.ep ≠ .idle := by
      rw [ep]
      split_ifs <;> decide
    have hack : s.top.ackSlv c = false := by
      rw [ackSlv_of_ram hsel, ep]
      split_ifs <;> rfl
    have htaken : s.taken c = [] :=
      taken_of_not_idle (by rw [hsel]; exact beq_false_of_ne hep) (by rw [hnone, Bool.false_and])
    obtain ⟨hword, hanswer⟩ := memory_of_ram (c := c) ep adr dat sel word select
    -- the memory is accessed now, and acknowledges in the next cycle
    refine ⟨[], [t], ?_, by rw [htaken]; rfl⟩
    refine .done t (busy.step hw hack) select (ram_ep_of_enable ep) (led_idle led ?_) hword ?_
      hanswer
    · rw [hnone, Bool.false_and]
    · rw [slvReg_step (by rw [led]; rfl)]
      exact reg
  | done t busy select ep led word reg answer =>
    have hsel : selectRam (s.top.bus c).adr = true := by rw [busy.adr c hw]; exact select
    have hnone := selectLed_of_selectRam hsel
    have htaken : s.taken c = [] :=
      taken_of_not_idle (by rw [ep]; exact Bool.and_false _) (by rw [hnone, Bool.false_and])
    -- the acknowledge ends the request
    refine ⟨[t], [], ?_, by rw [htaken]⟩
    refine .quiet ?_ (led_idle led ?_) ?_ ?_
    · have hnext : (s.step b c).top.ram.ep =
          s.top.ram.ep.ef (selectRam (s.top.bus c).adr && s.top.cpu.ep.stbO)
            (selectRam (s.top.bus c).adr && s.top.cpu.ep.weO) := rfl
      rw [hnext, ep]
      rfl
    · rw [hnone, Bool.false_and]
    · rw [memory_step (by rw [ep]; rfl)]
      exact word
    · rw [slvReg_step (by rw [led]; rfl), reg]
      exact (reg_perform_of_ram select).symm
  | led t busy select ep adr dat sel ram word reg =>
    have hsel : selectLed (s.top.bus c).adr = true := by rw [busy.adr c hw]; exact select
    have hnone := selectRam_of_selectLed hsel
    have hep : s.top.led.ep ≠ .idle := by
      rw [ep]
      split_ifs <;> decide
    have htaken : s.taken c = [] :=
      taken_of_not_idle (by rw [hnone, Bool.false_and]) (by rw [hsel]; exact beq_false_of_ne hep)
    -- the led slave acknowledges in the cycle in which it writes
    refine ⟨[t], [], ?_, by rw [htaken]⟩
    refine .quiet (ram_idle ram ?_) ?_ ?_ ?_
    · rw [hnone, Bool.false_and]
    · have hnext : (s.step b c).top.led.ep =
          s.top.led.ep.ef (selectLed (s.top.bus c).adr && s.top.cpu.ep.stbO)
            (selectLed (s.top.bus c).adr && s.top.cpu.ep.weO) := rfl
      rw [hnext, ep]
      split_ifs <;> rfl
    · rw [memory_step (by rw [ram]; rfl), word]
      exact (word_perform_of_led select).symm
    · have hslv : (s.step b c).top.led.slvReg = if s.top.led.ep.wenable then
          LedSlave.written ledBaseAdr s.top.led.slvReg s.top.led.selReg s.top.led.adrReg
            s.top.led.dataReg
        else s.top.led.slvReg := rfl
      rw [hslv, ep, reg, sel, adr, dat]
      refine Eq.trans ?_ (reg_perform_of_led select).symm
      cases t.we <;> rfl

end Step

/-! ### What the core gets -/

section Answers

variable {q : List Request}

/-- An acknowledgement is that of the request on its way. -/
theorem Stands.answer_of_ack (h : Stands b s a q) (hw : s.Waits c)
    (hack : s.top.ackSlv c = true) : ∃ t, q = [t] ∧ Busy s t ∧
      (t.we = false → s.top.dataSlv c = a.answer b t.adr) := by
  cases h with
  | quiet ram led _ _ =>
    exfalso
    unfold Top.ackSlv at hack
    rw [ram, led] at hack
    split_ifs at hack <;> exact absurd hack Bool.false_ne_true
  | ram t busy select ep =>
    exfalso
    have hsel : selectRam (s.top.bus c).adr = true := by rw [busy.adr c hw]; exact select
    rw [ackSlv_of_ram hsel, ep] at hack
    revert hack
    split_ifs <;> decide
  | done t busy select ep led word reg answer =>
    refine ⟨t, rfl, busy, fun hwe => ?_⟩
    have hsel : selectRam (s.top.bus c).adr = true := by rw [busy.adr c hw]; exact select
    rw [Top.dataSlv, if_pos hsel]
    exact answer hwe
  | led t busy select ep adr dat sel ram word reg =>
    refine ⟨t, rfl, busy, fun _ => ?_⟩
    have hsel : selectLed (s.top.bus c).adr = true := by rw [busy.adr c hw]; exact select
    have hnone : ¬ selectRam t.adr = true := Bool.eq_false_iff.mp (selectRam_of_selectLed select)
    rw [Top.dataSlv, if_neg (Bool.eq_false_iff.mp (selectRam_of_selectLed hsel)), if_pos hsel,
      LedSlave.datO, reg, adr, Store.answer, if_neg hnone]

theorem Stands.load_answer (h : Stands b s a q) (hw : s.Waits c) (hv : c.dcache.adrV = true)
    (hl : c.dcache.load = true) (hstall : s.top.dcacheStall c = false) :
    s.top.dataSlv c = a.answer b c.dcache.adr := by
  obtain ⟨hep, hack⟩ := (load_stalls_iff hv hl).mp hstall
  obtain ⟨t, -, busy, hanswer⟩ := h.answer_of_ack hw hack
  have hwe : t.we = false := by
    rw [← busy.we, hep]
    rfl
  have hadr : (s.top.bus c).adr = c.dcache.adr := by
    have hbus : (s.top.bus c).adr = s.top.cpu.ep.adrO c := rfl
    rw [hbus, hep]
    rfl
  rw [hanswer hwe, ← busy.adr c hw, hadr]

theorem Stands.fetch_answer (h : Stands b s a q) (hw : s.Waits c)
    (hstall : s.top.icacheStall c = false) :
    s.top.dataSlv c = a.answer b c.icache.adr ∨
      (s.top.cpu.ep = .dread ∧ s.top.ackSlv c = false) := by
  refine (icacheStall_iff.mp hstall).imp_left ?_
  rintro ⟨hep, hack⟩
  obtain ⟨t, -, busy, hanswer⟩ := h.answer_of_ack hw hack
  have hwe : t.we = false := by
    rw [← busy.we, hep]
    rfl
  have hadr : (s.top.bus c).adr = c.icache.adr := by
    have hbus : (s.top.bus c).adr = s.top.cpu.ep.adrO c := rfl
    rw [hbus, hep]
    rfl
  rw [hanswer hwe, ← busy.adr c hw, hadr]

end Answers

/-! ### Runs -/

theorem stands_reset (word : C → BitVec 32) (ramDo : BitVec 32) :
    Stands b (reset word ramDo) (Store.start word) [] := .quiet rfl rfl rfl rfl

theorem stands_after (word : C → BitVec 32) (ramDo : BitVec 32) {is : List Core}
    (h : Run.Each Waits (step b) (reset word ramDo) is) : ∃ done waiting,
      Stands b (Run.after (step b) (reset word ramDo) is) ((Store.start word).after b done)
        waiting ∧
      done ++ waiting = Run.collect taken (step b) (reset word ramDo) is :=
  Run.executes_after (stands_reset word ramDo)
    (Run.each_mono (fun _ _ hw _ _ hs => hs.serve_step hw) h)

/-- In every run with a core that waits, the bus serves the requests that the slaves take, one
after the other. -/
theorem serves (b : Bram C) (word : C → BitVec 32) (ramDo : BitVec 32) (is : List Core)
    (h : Run.Each Waits (step b) (reset word ramDo) is) : ∃ done waiting,
      Stands b (Run.after (step b) (reset word ramDo) is) ((Store.start word).after b done)
        waiting ∧
      done ++ waiting = Run.collect taken (step b) (reset word ramDo) is :=
  stands_after word ramDo h

omit [DecidableEq C] in
theorem append_bytes (x : BitVec 32) : x.extractLsb' 24 8 ++ x.extractLsb' 16 8 ++
    x.extractLsb' 8 8 ++ x.extractLsb' 0 8 = x := by
  apply BitVec.eq_of_getLsbD_eq
  intro i hi
  simp only [BitVec.getLsbD_append, BitVec.getLsbD_extractLsb']
  split_ifs with h0 h1 h2
  · simp [h0]
  · simp [h1, show 8 + (i - 8) = i by omega]
  · simp [h2, show 16 + (i - 8 - 8) = i by omega]
  · simp [show i - 8 - 8 - 8 < 8 by omega, show 24 + (i - 8 - 8 - 8) = i by omega]

/-- A block memory whose lane `k` is byte `k` of a word. -/
def board : Bram (BitVec 32) where
  cell adr := adr &&& ~~~3
  merge sel old di :=
    (if sel.getLsbD 3 then di else old).extractLsb' 24 8 ++
      (if sel.getLsbD 2 then di else old).extractLsb' 16 8 ++
      (if sel.getLsbD 1 then di else old).extractLsb' 8 8 ++
      (if sel.getLsbD 0 then di else old).extractLsb' 0 8
  merge_zero old _ := append_bytes old
  shown _ old _ := old
  shown_zero _ _ := rfl

/-- A core that fetches from 0 and stores to the first register, or loads from there. -/
def storing : Core := ⟨⟨true, true, false, 0x5, 0x40000000, 15⟩, ⟨true, 0⟩⟩

def loading : Core := ⟨⟨true, false, true, 0, 0x40000000, 15⟩, ⟨true, 0⟩⟩

/-- The store, an instruction and the load. -/
def storeLoad : List Core := List.replicate 3 storing ++ List.replicate 6 loading

theorem serves_storeLoad : ∃ done waiting,
    Stands board (Run.after (step board) (reset (fun _ => 0) 0) storeLoad)
      ((Store.start fun _ => 0).after board done) waiting ∧
    done ++ waiting = Run.collect taken (step board) (reset (fun _ => 0) 0) storeLoad :=
  serves board (fun _ => 0) 0 storeLoad (by decide +kernel)

/-- In every cycle of such a run, a load that does not stall has the answer to its own address from
the requests served before, the pins show what these have left, and so it is for an instruction,
unless a load still waits. -/
theorem answers (b : Bram C) (word : C → BitVec 32) (ramDo : BitVec 32) (is : List Core) (c : Core)
    (h : Run.Each Waits (step b) (reset word ramDo) (is ++ [c])) :
    let s := Run.after (step b) (reset word ramDo) is
    ∃ done waiting, done ++ waiting = Run.collect taken (step b) (reset word ramDo) is ∧
      LedSlave.pins s.top.led.slvReg = LedSlave.pins ((Store.start word).after b done).reg ∧
      (c.dcache.adrV = true → c.dcache.load = true → s.top.dcacheStall c = false →
        s.top.dataSlv c = ((Store.start word).after b done).answer b c.dcache.adr) ∧
      (s.top.icacheStall c = false →
        s.top.dataSlv c = ((Store.start word).after b done).answer b c.icache.adr ∨
          (s.top.cpu.ep = .dread ∧ s.top.ackSlv c = false)) := by
  obtain ⟨hruns, hlast⟩ := (Run.each_append is [c] _).mp h
  obtain ⟨done, waiting, hstands, heq⟩ := stands_after (b := b) word ramDo hruns
  refine ⟨done, waiting, heq, ?_, ?_, ?_⟩
  · rw [hstands.reg_eq]
  · intro hv hl hstall
    exact hstands.load_answer hlast.1 hv hl hstall
  · intro hstall
    exact hstands.fetch_answer hlast.1 hstall

theorem answers_storeLoad :
    let s := Run.after (step board) (reset (fun _ => 0) 0) storeLoad
    ∃ done waiting,
      done ++ waiting = Run.collect taken (step board) (reset (fun _ => 0) 0) storeLoad ∧
      LedSlave.pins s.top.led.slvReg =
        LedSlave.pins ((Store.start fun _ => 0).after board done).reg ∧
      (s.top.dcacheStall loading = false →
        s.top.dataSlv loading =
          ((Store.start fun _ => 0).after board done).answer board 0x40000000) := by
  obtain ⟨done, waiting, heq, hpins, hload, -⟩ :=
    answers board (fun _ => 0) 0 storeLoad loading (by decide +kernel)
  exact ⟨done, waiting, heq, hpins, hload rfl rfl⟩

end System

end Wishbone

end RiVerSoC
