/-
The timer.

`timer::thread` compares its counter with the divider for equality and waits there for the
acknowledge, which `csr::writing_csr` gives one clock edge after it has seen `TIMER_INT_ST` and
holds as long as `TIMER_INT_ST` was up.  Software writes the configuration and the divider
through the write port of the CSRs, at any edge.

* `thread`, `step` — the timer, and the timer with the CSR thread that acknowledges it;
* `Good` — the counter has not overtaken the divider, and no acknowledge of an earlier expiry is
  about to end one for which `TIMER_INT_ST` has not been raised;
* `Safe` — what a clock edge must find for that;
* `each_good_iff` — every state of a run is good exactly when every edge is safe.
-/
import RiVerSoC.Csr
import RiVerSoC.Run

namespace RiVerSoC

namespace Timer

/-- The signals of `timer`. -/
structure Regs where
  configRt : BitVec 2
  dividerRt : BitVec 32
  timeRt : BitVec 64
  counterRt : BitVec 32
  timerIntSt : Bool
deriving DecidableEq, Repr, Inhabited

namespace Regs

variable (t : Regs)

def enabled : Bool := t.configRt.getLsbD 0

def periodic : Bool := t.configRt.getLsbD 1

/-- The period is over. -/
def Expired : Prop := t.counterRt = t.dividerRt

instance : Decidable t.Expired := inferInstanceAs (Decidable (_ = _))

end Regs

/-- `transmit_to_timer`: `TIMER_CONFIG_WB_SC` and `TIMER_DIVIDER_WB_SC`. -/
def transmitToTimer (p : Csr.Port) : Bool × Bool :=
  (p.csrEnableSm && p.csrWadrSm == 0x5C0, p.csrEnableSm && p.csrWadrSm == 0x5C1)

section Written

variable (t : Regs) (p : Csr.Port)

/-- The configuration that software leaves. -/
def configWritten : BitVec 2 :=
  if (transmitToTimer p).1 then p.csrWdataSm.extractLsb' 0 2 else t.configRt

/-- The divider that software leaves. -/
def dividerWritten : BitVec 32 := if (transmitToTimer p).2 then p.csrWdataSm else t.dividerRt

end Written

/-- `timer::thread` at a clock edge; `DATA_SC` is the data of the write port. -/
def thread (t : Regs) (p : Csr.Port) (ackSp : Bool) : Regs :=
  let n : Regs :=
    { t with
      configRt := configWritten t p
      dividerRt := dividerWritten t p
      timeRt := t.timeRt + 1
      timerIntSt := false }
  if t.enabled then
    if t.Expired then
      if ackSp then
        { n with
          counterRt := 0
          configRt := if !t.periodic then 0 else n.configRt }
      else { n with timerIntSt := true }
    else { n with counterRt := t.counterRt + 1 }
  else n

/-- The timer with `ACK_SP`.  `waits` counts the edges that `writing_csr` still waits for, and
`raised` says, for the proofs only, that `TIMER_INT_ST` has been raised since the counter reached
the divider. -/
structure State where
  timer : Regs
  ackSp : Bool
  waits : ℕ
  raised : Bool
deriving DecidableEq, Repr

def raisedAfter (s : State) : Bool :=
  if s.timer.Expired then if s.timer.enabled then !s.ackSp else s.raised
  else false

/-- A clock edge. -/
def step (s : State) (p : Csr.Port) : State where
  timer := thread s.timer p s.ackSp
  ackSp := if s.waits = 0 then s.timer.timerIntSt else s.ackSp
  waits := s.waits - 1
  raised := raisedAfter s

/-- Before the first edge. -/
def reset : State := ⟨⟨0, 1, 0, 0, false⟩, false, 3, false⟩

/-- The next edge takes an acknowledge that is not for this expiry. -/
def Lost (s : State) : Prop :=
  s.timer.enabled = true ∧ s.timer.Expired ∧ s.ackSp = true ∧ s.raised = false

/-- The period cannot be missed, and no expiry is. -/
def Good (s : State) : Prop :=
  (s.timer.enabled = true → s.timer.counterRt ≤ s.timer.dividerRt) ∧ ¬ Lost s

/-- Software does not leave an enabled timer with a divider below the counter of the next cycle,
nor with one that this counter meets under an acknowledge that is on its way. -/
def Safe (s : State) (p : Csr.Port) : Prop :=
  (configWritten s.timer p).getLsbD 0 = true →
    let divider := dividerWritten s.timer p
    if s.timer.enabled then
      if s.timer.Expired then
        if s.ackSp then s.timer.periodic = true → s.timer.timerIntSt = true → divider ≠ 0
        else s.timer.counterRt ≤ divider
      else
        s.timer.counterRt < divider ∧
          (s.timer.timerIntSt = true → s.timer.counterRt + 1 ≠ divider)
    else s.timer.counterRt ≤ divider

instance (s : State) : Decidable (Good s) := by
  unfold Good Lost
  infer_instance

instance (s : State) (p : Csr.Port) : Decidable (Safe s p) := by
  unfold Safe
  infer_instance

/-! ### One clock edge -/

section Thread

variable {t : Regs} {p : Csr.Port}

theorem thread_disabled (ack : Bool) (h : t.enabled = false) :
    (thread t p ack).configRt = configWritten t p ∧
      (thread t p ack).dividerRt = dividerWritten t p ∧
      (thread t p ack).counterRt = t.counterRt ∧ (thread t p ack).timerIntSt = false := by
  have hn : ¬ t.enabled = true := by simp [h]
  rw [thread, if_neg hn]
  exact ⟨rfl, rfl, rfl, rfl⟩

theorem thread_counting (ack : Bool) (h : t.enabled = true) (hc : ¬ t.Expired) :
    (thread t p ack).configRt = configWritten t p ∧
      (thread t p ack).dividerRt = dividerWritten t p ∧
      (thread t p ack).counterRt = t.counterRt + 1 ∧ (thread t p ack).timerIntSt = false := by
  rw [thread, if_pos h, if_neg hc]
  exact ⟨rfl, rfl, rfl, rfl⟩

theorem thread_expired (h : t.enabled = true) (hc : t.Expired) :
    (thread t p false).configRt = configWritten t p ∧
      (thread t p false).dividerRt = dividerWritten t p ∧
      (thread t p false).counterRt = t.counterRt ∧ (thread t p false).timerIntSt = true := by
  rw [thread, if_pos h, if_pos hc]
  exact ⟨rfl, rfl, rfl, rfl⟩

theorem thread_acknowledged (h : t.enabled = true) (hc : t.Expired) :
    (thread t p true).configRt = (if !t.periodic then 0 else configWritten t p) ∧
      (thread t p true).dividerRt = dividerWritten t p ∧
      (thread t p true).counterRt = 0 ∧ (thread t p true).timerIntSt = false := by
  rw [thread, if_pos h, if_pos hc]
  exact ⟨rfl, rfl, rfl, rfl⟩

/-- `TIMER_INT_ST` is raised by an edge that finds the expiry and no acknowledge. -/
theorem timerIntSt_thread_iff {ack : Bool} :
    (thread t p ack).timerIntSt = true ↔ t.enabled = true ∧ t.Expired ∧ ack = false := by
  by_cases h : t.enabled = true
  · by_cases hc : t.Expired
    · cases ack
      · simp [thread_expired h hc, h, hc]
      · simp [thread_acknowledged h hc]
    · simp [thread_counting ack h hc, hc]
  · have hn : t.enabled = false := by simpa using h
    simp [thread_disabled ack hn, hn]

/-- One port, one register. -/
theorem dividerWritten_of_config (h : (transmitToTimer p).1 = true) :
    dividerWritten t p = t.dividerRt := by
  have hno : ¬ (transmitToTimer p).2 = true := by
    simp only [transmitToTimer, Bool.and_eq_true, beq_iff_eq] at h ⊢
    rintro ⟨-, hadr⟩
    rw [h.2] at hadr
    exact absurd hadr (by decide)
  exact if_neg hno

/-- A timer that is being enabled keeps its divider. -/
theorem dividerWritten_of_enabling (h : t.enabled = false)
    (hw : (configWritten t p).getLsbD 0 = true) : dividerWritten t p = t.dividerRt := by
  refine dividerWritten_of_config ?_
  by_cases hc : (transmitToTimer p).1 = true
  · exact hc
  · rw [configWritten, if_neg hc] at hw
    exact absurd (h.symm.trans hw) Bool.false_ne_true

/-- Below the divider the counter does not wrap. -/
theorem succ_le_iff {c d : BitVec 32} (e : BitVec 32) (h : c < d) : c + 1 ≤ e ↔ c < e := by
  have hd := d.isLt
  have hone : (1 : BitVec 32).toNat = 1 := rfl
  rw [BitVec.lt_def] at h
  rw [BitVec.le_def, BitVec.lt_def, BitVec.toNat_add, hone]
  omega

end Thread

/-! ### Runs -/

/-- What holds between two edges of a run that has been good so far. -/
structure Inv (s : State) : Prop where
  good : Good s
  /-- A request is for the expiry at hand. -/
  raised : s.timer.timerIntSt = true → s.raised = true
  /-- Nothing is requested before `writing_csr` listens. -/
  waiting : s.waits ≠ 0 → s.timer.timerIntSt = false ∧ s.ackSp = false
  /-- The first configuration that is written finds the divider of the reset. -/
  starting : 2 ≤ s.waits → s.timer.enabled = true → ¬ s.timer.Expired
  fresh : s.waits = 3 → s.timer.enabled = false ∧ ¬ s.timer.Expired
  le : s.waits ≤ 3

theorem inv_reset : Inv reset where
  good := by decide
  raised := by decide
  waiting _ := ⟨rfl, rfl⟩
  starting _ := by decide
  fresh _ := by decide
  le := Nat.le_refl 3

variable {s : State} {p : Csr.Port}

/-- `ACK_SP` follows `TIMER_INT_ST`. -/
theorem ackSp_step (h : Inv s) : (step s p).ackSp = s.timer.timerIntSt := by
  change (if s.waits = 0 then s.timer.timerIntSt else s.ackSp) = _
  split_ifs with hw
  · rfl
  · obtain ⟨hint, hack⟩ := h.waiting hw
    rw [hint, hack]

/-- What the next edge finds, from what this one writes. -/
theorem good_step (h : Inv s) {config : BitVec 2} {divider counter : BitVec 32}
    (hconfig : (step s p).timer.configRt = config)
    (hdivider : (step s p).timer.dividerRt = divider)
    (hcounter : (step s p).timer.counterRt = counter) :
    Good (step s p) ↔
      (config.getLsbD 0 = true → counter ≤ divider ∧
        ¬ (counter = divider ∧ s.timer.timerIntSt = true ∧ raisedAfter s = false)) := by
  have hack := ackSp_step (p := p) h
  subst hconfig hdivider hcounter
  unfold Good Lost
  rw [hack]
  constructor
  · rintro ⟨hbound, hlost⟩ hon
    exact ⟨hbound hon, fun hc => hlost ⟨hon, hc⟩⟩
  · intro hc
    exact ⟨fun hon => (hc hon).1, fun ⟨hon, hlost⟩ => (hc hon).2 hlost⟩

/-- An edge is good exactly when it is safe. -/
theorem good_step_iff (h : Inv s) : Good (step s p) ↔ Safe s p := by
  obtain ⟨hbound, -⟩ := h.good
  rw [Safe]
  by_cases henabled : s.timer.enabled = true
  · rw [if_pos henabled]
    by_cases hexpired : s.timer.Expired
    · rw [if_pos hexpired]
      have hraised : raisedAfter s = !s.ackSp := by
        rw [raisedAfter, if_pos hexpired, if_pos henabled]
      cases hsp : s.ackSp with
      | true =>
        -- the expiry is acknowledged: the counter starts again from 0
        have hthread := thread_acknowledged (p := p) henabled hexpired
        rw [← hsp] at hthread
        obtain ⟨hconfig, hdivider, hcounter, -⟩ := hthread
        rw [good_step h hconfig hdivider hcounter, hraised, hsp]
        cases hperiodic : s.timer.periodic with
        | false => simp
        | true =>
          refine imp_congr Iff.rfl ?_
          constructor
          · rintro ⟨-, hlost⟩ - hint hzero
            exact hlost ⟨hzero.symm, hint, rfl⟩
          · intro hne
            refine ⟨BitVec.le_def.mpr (Nat.zero_le _), ?_⟩
            rintro ⟨hzero, hint, -⟩
            exact hne rfl hint hzero.symm
      | false =>
        -- `TIMER_INT_ST` is raised, and the counter waits
        have hthread := thread_expired (p := p) henabled hexpired
        rw [← hsp] at hthread
        obtain ⟨hconfig, hdivider, hcounter, -⟩ := hthread
        rw [good_step h hconfig hdivider hcounter, hraised, hsp]
        simp
    · -- the counter goes on
      rw [if_neg hexpired]
      obtain ⟨hconfig, hdivider, hcounter, -⟩ :=
        thread_counting (p := p) s.ackSp henabled hexpired
      have hraised : raisedAfter s = false := if_neg hexpired
      have hlt : s.timer.counterRt < s.timer.dividerRt :=
        BitVec.lt_of_le_ne (hbound henabled) hexpired
      rw [good_step h hconfig hdivider hcounter, hraised, succ_le_iff _ hlt]
      refine imp_congr Iff.rfl (and_congr Iff.rfl ?_)
      constructor
      · intro hlost hint hmeet
        exact hlost ⟨hmeet, hint, rfl⟩
      · rintro hne ⟨hmeet, hint, -⟩
        exact hne hint hmeet
  · -- the counter stands still
    have hdisabled : s.timer.enabled = false := by simpa using henabled
    rw [if_neg henabled]
    obtain ⟨hconfig, hdivider, hcounter, -⟩ :=
      thread_disabled (p := p) s.ackSp hdisabled
    rw [good_step h hconfig hdivider hcounter]
    refine imp_congr_right fun hon => and_iff_left ?_
    -- enabled again on the expiry that was requested
    rintro ⟨hmeet, hint, hraised⟩
    have hexpired : s.timer.Expired := hmeet.trans (dividerWritten_of_enabling hdisabled hon)
    rw [raisedAfter, if_pos hexpired, if_neg henabled, h.raised hint] at hraised
    exact absurd hraised (by decide)

theorem inv_step (h : Inv s) (hgood : Good (step s p)) : Inv (step s p) where
  good := hgood
  raised := by
    intro hint
    obtain ⟨henabled, hexpired, hack⟩ := timerIntSt_thread_iff.mp hint
    change raisedAfter s = true
    rw [raisedAfter, if_pos hexpired, if_pos henabled, hack]
    rfl
  waiting := by
    intro hw
    have hlater : 2 ≤ s.waits := by
      change s.waits - 1 ≠ 0 at hw
      omega
    refine ⟨?_, ?_⟩
    · cases hint : (step s p).timer.timerIntSt with
      | false => rfl
      | true =>
        obtain ⟨henabled, hexpired, -⟩ := timerIntSt_thread_iff.mp hint
        exact absurd hexpired (h.starting hlater henabled)
    · rw [ackSp_step h]
      exact (h.waiting (by omega)).1
  starting := by
    intro hw henabled
    have hfirst : s.waits = 3 := by
      have hle := h.le
      change 2 ≤ s.waits - 1 at hw
      omega
    obtain ⟨hdisabled, hne⟩ := h.fresh hfirst
    obtain ⟨hconfig, hdivider, hcounter, -⟩ :=
      thread_disabled (p := p) s.ackSp hdisabled
    change (thread s.timer p s.ackSp).configRt.getLsbD 0 = true at henabled
    rw [hconfig] at henabled
    change ¬ (thread s.timer p s.ackSp).counterRt = (thread s.timer p s.ackSp).dividerRt
    rw [hdivider, hcounter, dividerWritten_of_enabling hdisabled henabled]
    exact hne
  fresh := by
    intro hw
    have hle := h.le
    change s.waits - 1 = 3 at hw
    omega
  le := Nat.le_trans (Nat.sub_le _ _) h.le

/-- In a run the counter stays below the divider and every expiry is requested, exactly when
every edge of it is safe. -/
theorem each_good_iff (ps : List Csr.Port) :
    Run.Each (fun s p => Good (step s p)) step reset ps ↔ Run.Each Safe step reset ps :=
  Run.each_iff_each Inv (fun _ _ h => good_step_iff h) (fun _ _ h hgood => inv_step h hgood)
    inv_reset

/-- A write of a CSR. -/
def writes (adr : BitVec 12) (data : BitVec 32) : Csr.Port := ⟨adr, data, true⟩

/-- No write. -/
def idle : Csr.Port := ⟨0, 0, false⟩

/-- A periodic timer is given a divider that its counter has passed. -/
theorem not_each_good_reprogrammed :
    ¬ Run.Each (fun s p => Good (step s p)) step reset
      [writes 0x5C1 80, writes 0x5C0 3, idle, idle, idle, idle, writes 0x5C1 2] := by
  decide +kernel

/-- With a divider of 0 every second expiry ends under the acknowledge of the one before. -/
example :
    let s := Run.after step reset ([writes 0x5C1 0, writes 0x5C0 3] ++ List.replicate 3 idle)
    Lost s ∧ s.timer.counterRt ≤ s.timer.dividerRt := by
  unfold Lost
  decide +kernel

end Timer

end RiVerSoC
