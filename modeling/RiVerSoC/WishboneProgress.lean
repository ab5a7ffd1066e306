/-
Neither port of the core waits for ever on the bus.

* `slaveRank_step` — the slave of a mapped address comes closer to its acknowledgement;
* `load_within_iff` — a load is answered within eleven cycles exactly when its address is mapped;
* `fetch_within` — fetch is answered within eight cycles, whatever the core does with its data.
-/
import RiVerSoC.WishboneRefine

namespace RiVerSoC

namespace Wishbone

/-- A slave answers at the address. -/
def Mapped (adr : BitVec 32) : Prop := (selectRam adr || selectLed adr) = true

instance (adr : BitVec 32) : Decidable (Mapped adr) := inferInstanceAs (Decidable (_ = _))

namespace System

variable {C : Type} {b : Bram C} {s : System C} {a : Store C} {c : Core} {q : List Request}

theorem not_ack_of_not_mapped (h : ¬ Mapped (s.top.bus c).adr) : s.top.ackSlv c = false := by
  obtain ⟨hram, hled⟩ := Bool.or_eq_false_iff.mp (Bool.eq_false_iff.mpr h)
  rw [Top.ackSlv, hram, hled, if_neg Bool.false_ne_true, if_neg Bool.false_ne_true]

/-- The cycles that the slaves need at most until they acknowledge. -/
def slaveRank (s : System C) : ℕ :=
  match s.top.ram.ep with
  | .idle => if s.top.led.ep = .idle then 2 else 0
  | .r | .w => 1
  | .done => 0

theorem slaveRank_le (s : System C) : s.slaveRank ≤ 2 := by
  unfold slaveRank
  cases s.top.ram.ep with
  | idle => dsimp only; split_ifs <;> omega
  | r | w | done => dsimp only; omega

/-- The cycles that a load waits at most for its answer. -/
def loadRank (s : System C) : ℕ :=
  match s.top.cpu.ep with
  | .dread => s.slaveRank
  | .idle => if s.top.cpu.transDReg then 7 else 3
  | .iread => 4 + s.slaveRank
  | .dwrite => 8 + s.slaveRank

theorem loadRank_le (s : System C) : s.loadRank ≤ 10 := by
  have hle := s.slaveRank_le
  unfold loadRank
  cases s.top.cpu.ep with
  | idle => dsimp only; split_ifs <;> omega
  | iread | dread | dwrite => dsimp only; omega

/-- The cycles that fetch waits at most. -/
def fetchRank (s : System C) : ℕ :=
  match s.top.cpu.ep with
  | .iread => s.slaveRank
  | .idle => if s.top.cpu.transDReg then 3 else 7
  | .dread | .dwrite => 4 + s.slaveRank

theorem fetchRank_le (s : System C) : s.fetchRank ≤ 7 := by
  have hle := s.slaveRank_le
  unfold fetchRank
  cases s.top.cpu.ep with
  | idle => dsimp only; split_ifs <;> omega
  | iread | dread | dwrite => dsimp only; omega

variable [DecidableEq C]

/-- Without a request on the bus no slave is at work. -/
theorem Stands.quiet_of_idle (h : Stands b s a q) (hep : s.top.cpu.ep = .idle) :
    s.slaveRank = 2 ∧ ∀ c, (s.step b c).slaveRank = 2 := by
  have hstb : s.top.cpu.ep.stbO = false := by
    rw [hep]
    rfl
  have hno : ∀ {t}, Busy s t → False := fun busy => by
    rw [busy.stb] at hstb
    exact absurd hstb.symm Bool.false_ne_true
  cases h with
  | quiet ram led =>
    refine ⟨by simp [slaveRank, ram, led], fun c => ?_⟩
    have hram : (s.step b c).top.ram.ep = .idle := ram_idle ram (by rw [hstb, Bool.and_false])
    have hled : (s.step b c).top.led.ep = .idle := led_idle led (by rw [hstb, Bool.and_false])
    simp [slaveRank, hram, hled]
  | ram _ busy => exact (hno busy).elim
  | done _ busy => exact (hno busy).elim
  | led _ busy => exact (hno busy).elim

/-- The slave of a mapped address acknowledges or comes closer to it. -/
theorem Stands.slaveRank_step (h : Stands b s a q) (hw : s.Waits c)
    (hstb : s.top.cpu.ep.stbO = true) (hmap : Mapped (s.top.bus c).adr) :
    s.top.ackSlv c = true ∨ (s.step b c).slaveRank < s.slaveRank := by
  cases h with
  | quiet ram led =>
    right
    have hrank : s.slaveRank = 2 := by simp [slaveRank, ram, led]
    rw [hrank]
    -- the address selects one of the two slaves, which starts
    rcases Bool.or_eq_true_iff.mp hmap with hsel | hsel
    · have hep := ram_ep_of_selected (b := b) ram hstb hsel
      unfold slaveRank
      rw [hep]
      cases s.top.cpu.ep.weO <;> simp
    · have hram : (s.step b c).top.ram.ep = .idle :=
        ram_idle ram (by rw [selectRam_of_selectLed hsel, Bool.false_and])
      have hep := led_ep_of_selected (b := b) led hstb hsel
      unfold slaveRank
      rw [hram, hep]
      cases s.top.cpu.ep.weO <;> simp
  | ram t busy select ep =>
    right
    have hnext := ram_ep_of_enable (b := b) (c := c) ep
    unfold slaveRank
    rw [hnext, ep]
    cases t.we <;> simp
  | done t busy select ep =>
    left
    have hsel : selectRam (s.top.bus c).adr = true := by
      rw [busy.adr c hw]
      exact select
    rw [ackSlv_of_ram hsel, ep]
    rfl
  | led t busy select ep =>
    left
    have hsel : selectLed (s.top.bus c).adr = true := by
      rw [busy.adr c hw]
      exact select
    rw [ackSlv_of_led hsel, ep]
    split_ifs <;> rfl

theorem Stands.exists_step (h : Stands b s a q) (hw : s.Waits c) :
    ∃ a' q', Stands b (s.step b c) a' q' := by
  obtain ⟨done, q', hstep, -⟩ := h.serve_step hw
  exact ⟨_, q', hstep⟩

/-- The master goes back to idle with the acknowledgement, and waits for it before. -/
theorem Stands.busy_step (h : Stands b s a q) (hw : s.Waits c) {ep : Cpu.State}
    (hep : s.top.cpu.ep = ep) (hne : ep ≠ .idle) (hmap : Mapped (ep.adrO c)) :
    (s.top.ackSlv c = true ∧ (s.step b c).top.cpu = ⟨.idle, ep.transD⟩) ∨
      (s.top.ackSlv c = false ∧ (s.step b c).top.cpu = ⟨ep, ep.transD⟩ ∧
        (s.step b c).slaveRank < s.slaveRank) := by
  subst hep
  have hstb : s.top.cpu.ep.stbO = true := bne_iff_ne.mpr hne
  have hcpu : (s.step b c).top.cpu = ⟨(s.step b c).top.cpu.ep, s.top.cpu.ep.transD⟩ := rfl
  have hrank := h.slaveRank_step hw hstb hmap
  cases hack : s.top.ackSlv c with
  | true =>
    rw [hcpu, ep_of_ack hstb hack]
    exact Or.inl ⟨rfl, rfl⟩
  | false =>
    rw [hack] at hrank
    rw [hcpu, ep_of_stb hstb hack]
    exact Or.inr ⟨rfl, rfl, hrank.resolve_left Bool.false_ne_true⟩

/-! ### Loads -/

/-- The core asks for a load. -/
def Loads (p : DataPort) : Prop := p.adrV = true ∧ p.load = true ∧ p.store = false

instance (p : DataPort) : Decidable (Loads p) := inferInstanceAs (Decidable (_ ∧ _))

/-- The load `p` is answered, or it waits a cycle less. -/
theorem Stands.load_step (h : Stands b s a q) (hw : s.Waits c) (hl : Loads c.dcache)
    (hmap : Mapped c.dcache.adr) (hfetch : Mapped c.icache.adr) :
    s.top.dcacheStall c = false ∨
      ((∀ d, (s.step b c).Waits d → d.dcache = c.dcache) ∧ (s.step b c).loadRank < s.loadRank) := by
  obtain ⟨hv, hload, hstore⟩ := hl
  cases hstall : s.top.dcacheStall c with
  | false => exact Or.inl rfl
  | true =>
    right
    refine ⟨fun d hd => hd.1 hstall, ?_⟩
    have hwait : ¬(s.top.cpu.ep = .dread ∧ s.top.ackSlv c = true) := by
      intro hno
      have hgo := (load_stalls_iff hv hload).mpr hno
      rw [hstall] at hgo
      exact absurd hgo.symm Bool.false_ne_true
    cases hep : s.top.cpu.ep with
    | idle =>
      obtain ⟨-, hnext⟩ := h.quiet_of_idle hep
      have hcpu : (s.step b c).top.cpu =
          ⟨s.top.cpu.ef c (s.top.ackSlv c), s.top.cpu.ep.transD⟩ := rfl
      -- the load starts, or fetch has its turn
      unfold loadRank
      rw [hcpu, Cpu.Regs.ef, hep, hv, hload, hstore, hnext c]
      cases s.top.cpu.transDReg <;> cases c.icache.adrV <;> simp [Cpu.State.transD]
    | iread =>
      unfold loadRank
      rcases h.busy_step (b := b) hw hep (by decide) hfetch with ⟨-, hcpu⟩ | ⟨-, hcpu, hlt⟩
      · rw [hcpu, hep]
        simp [Cpu.State.transD]
        omega
      · rw [hcpu, hep]
        simpa using hlt
    | dread =>
      unfold loadRank
      rcases h.busy_step (b := b) hw hep (by decide) hmap with ⟨hack, -⟩ | ⟨-, hcpu, hlt⟩
      · exact absurd ⟨hep, hack⟩ hwait
      · rw [hcpu, hep]
        exact hlt
    | dwrite =>
      unfold loadRank
      rcases h.busy_step (b := b) hw hep (by decide) hmap with ⟨-, hcpu⟩ | ⟨-, hcpu, hlt⟩
      · rw [hcpu, hep]
        simp [Cpu.State.transD]
        omega
      · rw [hcpu, hep]
        simpa using hlt

/-- In every run with a core that waits and fetches from mapped addresses, a load is answered within
eleven cycles exactly when its address is mapped. -/
theorem load_within_iff (b : Bram C) (word : C → BitVec 32) (ramDo : BitVec 32) (is js : List Core)
    (c : Core) (h : Run.Each Waits (step b) (reset word ramDo) (is ++ c :: js))
    (hl : Loads c.dcache) (hfetch : ∀ d ∈ c :: js, Mapped d.icache.adr) (hlen : 10 ≤ js.length) :
    (∃ n d, n ≤ 10 ∧ (c :: js)[n]? = some d ∧ d.dcache = c.dcache ∧
      (Run.after (step b) (reset word ramDo) (is ++ (c :: js).take n)).top.dcacheStall d = false) ↔
      Mapped c.dcache.adr := by
  constructor
  · rintro ⟨n, d, -, -, hd, hstall⟩
    rw [← hd]
    by_contra hmap
    obtain ⟨hep, hack⟩ := (load_stalls_iff (by rw [hd]; exact hl.1) (by rw [hd]; exact hl.2.1)).mp
      hstall
    have hbus : ∀ s : System C, (s.top.bus d).adr = s.top.cpu.ep.adrO d := fun _ => rfl
    have hno := not_ack_of_not_mapped (s := Run.after (step b) (reset word ramDo)
      (is ++ (c :: js).take n)) (c := d) (by rw [hbus, hep]; exact hmap)
    rw [hack] at hno
    exact absurd hno.symm Bool.false_ne_true
  · intro hmap
    obtain ⟨hbefore, hw, hafter⟩ := (Run.each_append is (c :: js) _).mp h
    obtain ⟨done, waiting, hs, -⟩ := stands_after (b := b) word ramDo hbefore
    obtain ⟨hfirst, hothers⟩ := List.forall_mem_cons.mp hfetch
    -- the first cycle is that of the request, and from then on the core keeps it
    rcases hs.load_step hw hl hmap hfirst with hstall | ⟨hkeeps, hlt⟩
    · refine ⟨0, c, Nat.zero_le _, rfl, rfl, ?_⟩
      rw [List.take_zero, List.append_nil]
      exact hstall
    have hle := loadRank_le (Run.after (step b) (reset word ramDo) is)
    obtain ⟨a', q', hs'⟩ := hs.exists_step hw
    obtain ⟨n, d, hn, hget, hd, hstall⟩ :=
      Run.happens_within
        (fun s : System C => (∃ a q, Stands b s a q) ∧ ∀ d, s.Waits d → d.dcache = c.dcache)
        loadRank
        (E := fun s d => d.dcache = c.dcache ∧ s.top.dcacheStall d = false)
        (fun s d ⟨⟨a, q, hs⟩, hkeeps⟩ ⟨hw, hfetch⟩ => by
          have hd := hkeeps d hw
          rcases hs.load_step hw (by rw [hd]; exact hl) (by rw [hd]; exact hmap) hfetch with
            hstall | ⟨hkeeps', hlt⟩
          · exact Or.inl ⟨hd, hstall⟩
          · exact Or.inr ⟨⟨hs.exists_step hw, fun e he => (hkeeps' e he).trans hd⟩, hlt⟩)
        ⟨⟨a', q', hs'⟩, hkeeps⟩ (Run.each_and hafter hothers) (by omega)
    refine ⟨n + 1, d, by omega, hget, hd, ?_⟩
    rw [List.take_succ_cons, Run.after_append, Run.after_cons]
    exact hstall

/-- A load of the first register, from the first cycle on. -/
theorem load_within_board : ∃ n d, n ≤ 10 ∧
    (loading :: List.replicate 10 loading)[n]? = some d ∧ d.dcache = loading.dcache ∧
      (Run.after (step board) (reset (fun _ => 0) 0)
        ([] ++ (loading :: List.replicate 10 loading).take n)).top.dcacheStall d = false :=
  (load_within_iff board (fun _ => 0) 0 [] (List.replicate 10 loading) loading (by decide +kernel)
    (by decide) (by decide) (by decide)).mpr (by decide)

/-! ### Instructions -/

/-- Fetch is answered, or it waits a cycle less. -/
theorem Stands.fetch_step (h : Stands b s a q) (hw : s.Waits c) (hv : c.icache.adrV = true)
    (hfetch : Mapped c.icache.adr) (hdata : Mapped c.dcache.adr) :
    (s.top.cpu.ep = .iread ∧ s.top.ackSlv c = true) ∨ (s.step b c).fetchRank < s.fetchRank := by
  cases hep : s.top.cpu.ep with
  | idle =>
    right
    obtain ⟨-, hnext⟩ := h.quiet_of_idle hep
    have hcpu : (s.step b c).top.cpu = ⟨s.top.cpu.ef c (s.top.ackSlv c), s.top.cpu.ep.transD⟩ := rfl
    -- behind an access to data it is the turn of fetch
    unfold fetchRank
    rw [hcpu, Cpu.Regs.ef, hep, hv, hnext c]
    cases s.top.cpu.transDReg with
    | true => simp
    | false =>
      dsimp only
      split_ifs <;> simp_all
  | iread =>
    rcases h.busy_step (b := b) hw hep (by decide) hfetch with ⟨hack, -⟩ | ⟨-, hcpu, hlt⟩
    · exact Or.inl ⟨rfl, hack⟩
    · right
      unfold fetchRank
      rw [hcpu, hep]
      exact hlt
  | dread | dwrite =>
    right
    unfold fetchRank
    rcases h.busy_step (b := b) hw hep (by decide) hdata with ⟨-, hcpu⟩ | ⟨-, hcpu, hlt⟩
    · rw [hcpu, hep]
      simp [Cpu.State.transD]
      omega
    · rw [hcpu, hep]
      simpa using hlt

/-- In every run with a core that waits and always fetches, from mapped addresses, fetch gets an
instruction in each eight cycles, whatever the core does with its data at mapped addresses. -/
theorem fetch_within (b : Bram C) (word : C → BitVec 32) (ramDo : BitVec 32) (is js : List Core)
    (h : Run.Each Waits (step b) (reset word ramDo) (is ++ js))
    (hfetch : ∀ d ∈ js, d.icache.adrV = true ∧ Mapped d.icache.adr ∧ Mapped d.dcache.adr)
    (hlen : 8 ≤ js.length) :
    ∃ n d, n ≤ 7 ∧ js[n]? = some d ∧
      (Run.after (step b) (reset word ramDo) (is ++ js.take n)).top.cpu.ep = .iread ∧
      (Run.after (step b) (reset word ramDo) (is ++ js.take n)).top.ackSlv d = true := by
  obtain ⟨hbefore, hafter⟩ := (Run.each_append is js _).mp h
  obtain ⟨done, waiting, hs, -⟩ := stands_after (b := b) word ramDo hbefore
  have hle := fetchRank_le (Run.after (step b) (reset word ramDo) is)
  obtain ⟨n, d, hn, hget, hep, hack⟩ :=
    Run.happens_within (fun s : System C => ∃ a q, Stands b s a q) fetchRank
      (E := fun s d => s.top.cpu.ep = .iread ∧ s.top.ackSlv d = true)
      (fun s d ⟨a, q, hs⟩ ⟨hw, hv, hfetch, hdata⟩ =>
        (hs.fetch_step hw hv hfetch hdata).imp_right fun hlt => ⟨hs.exists_step hw, hlt⟩)
      ⟨_, _, hs⟩ (Run.each_and hafter hfetch) (by omega)
  refine ⟨n, d, by omega, hget, ?_⟩
  rw [Run.after_append]
  exact ⟨hep, hack⟩

theorem fetch_within_board : ∃ n d, n ≤ 7 ∧ (List.replicate 8 loading)[n]? = some d ∧
    (Run.after (step board) (reset (fun _ => 0) 0)
      ([] ++ (List.replicate 8 loading).take n)).top.cpu.ep = .iread ∧
    (Run.after (step board) (reset (fun _ => 0) 0)
      ([] ++ (List.replicate 8 loading).take n)).top.ackSlv d = true :=
  fetch_within board (fun _ => 0) 0 [] (List.replicate 8 loading) (by decide +kernel) (by decide)
    (by decide)

end System

end Wishbone

end RiVerSoC
