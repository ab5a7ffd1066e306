/-
The CSR file.

`writing_csr` has three writers at a clock edge, the later ones winning: the write port of
MEM, the timer, which sets a bit of mip, and the entry into a trap.

* `read`, `write` — the ports, by CSR number;
* `clock` — one clock edge.
-/
import Mathlib.Data.List.Basic
import Mathlib.Tactic.SplitIfs

namespace RiVerSoC

namespace Csr

/-- `csr_rc`. -/
abbrev File := Vector (BitVec 32) 15

/-! ### The register map -/

def mstatus : ℕ := 4
def mie : ℕ := 6
def mtvec : ℕ := 7
def mepc : ℕ := 9
def mcause : ℕ := 10
def mtval : ℕ := 11
def mip : ℕ := 12
def kernelAdr : ℕ := 14

/-- The register that `reading_csr` selects. -/
def readIndex (radr : BitVec 12) : Option ℕ :=
  if radr = 0xF11 then some 0
  else if radr = 0xF12 then some 1
  else if radr = 0xF13 then some 2
  else if radr = 0xF14 then some 3
  else if radr = 0x300 then some mstatus
  else if radr = 0x301 then some 5
  else if radr = 0x304 then some mie
  else if radr = 0x305 then some mtvec
  else if radr = 0x310 then some 8
  else if radr = 0x341 then some mepc
  else if radr = 0x342 then some mcause
  else if radr = 0x343 then some mtval
  else if radr = 0x344 then some mip
  else if radr = 0x340 then some 13
  else if radr = 0x800 then some kernelAdr
  else none

/-- The register that `writing_csr` selects; the other implemented ones are read only. -/
def writeIndex (wadr : BitVec 12) : Option ℕ :=
  if wadr = 0x304 then some mie
  else if wadr = 0x305 then some mtvec
  else if wadr = 0x341 then some mepc
  else if wadr = 0x342 then some mcause
  else if wadr = 0x343 then some mtval
  else if wadr = 0x344 then some mip
  else if wadr = 0x300 then some mstatus
  else if wadr = 0x340 then some 13
  else if wadr = 0x800 then some kernelAdr
  else none

/-- The value of a register of the file. -/
def File.get (f : File) (k : ℕ) : BitVec 32 := f[k]?.getD 0

def File.set (f : File) (k : ℕ) (v : BitVec 32) : File := f.setIfInBounds k v

/-- `CSR_RDATA_SC`; the time is not in the file. -/
def File.read (f : File) (timeRt : BitVec 64) (radr : BitVec 12) : BitVec 32 :=
  match readIndex radr with
  | some k => f.get k
  | none =>
    if radr = 0xC01 then timeRt.extractLsb' 0 32
    else if radr = 0xC81 then timeRt.extractLsb' 32 32
    else 0

/-- The write port. -/
structure Port where
  csrWadrSm : BitVec 12
  csrWdataSm : BitVec 32
  csrEnableSm : Bool
deriving DecidableEq, Repr, Inhabited

/-- A write through the port, to a CSR that can be written. -/
def File.write (f : File) (wadr : BitVec 12) (wdata : BitVec 32) : File :=
  match writeIndex wadr with
  | some k => f.set k wdata
  | none => f

/-- What MEM hands over at the entry into a trap. -/
structure TrapData where
  mstatusWdataRm : BitVec 32
  mipWdataRm : BitVec 32
  mepcWdataRm : BitVec 32
  mcauseWdataSm : BitVec 32
  mtvalWdataSm : BitVec 32
deriving DecidableEq, Repr, Inhabited

def File.enterTrap (f : File) (d : TrapData) : File :=
  ((((f.set mstatus d.mstatusWdataRm).set mip d.mipWdataRm).set mepc d.mepcWdataRm).set
    mcause d.mcauseWdataSm).set mtval d.mtvalWdataSm

/-- The bit of the timer in mip, set in what mip was before the clock edge. -/
def timerBit (mipBefore : BitVec 32) : BitVec 32 := mipBefore ||| 1#32 <<< 7

/-- What the hardware writes at a clock edge after the write port; `before` is the file
before the edge. -/
def hardware (before f : File) (timerInt exceptionSm : Bool) (d : TrapData) : File :=
  let f := if timerInt then f.set mip (timerBit (before.get mip)) else f
  if exceptionSm then f.enterTrap d else f

/-- `writing_csr` at one clock edge. -/
def clock (f : File) (p : Port) (timerInt exceptionSm : Bool) (d : TrapData) : File :=
  hardware f (if p.csrEnableSm then f.write p.csrWadrSm p.csrWdataSm else f) timerInt exceptionSm d

/-- The file after reset. -/
def reset (procId : BitVec 32) : File :=
  ((((Vector.replicate 15 0).set 3 procId).set 4 0).set 5 0x40100100).set 14 0xFFFFFFFF

/-! ### Reads after writes -/

theorem File.get_set (f : File) {k l : ℕ} (hk : k < 15) (v : BitVec 32) :
    (f.set k v).get l = if k = l then v else f.get l := by
  unfold File.get File.set
  rw [Vector.getElem?_setIfInBounds]
  by_cases h : k = l
  · rw [if_pos h, if_pos h, if_pos (h ▸ hk)]
    rfl
  · rw [if_neg h, if_neg h]

@[ext] theorem File.ext_get {f g : File} (h : ∀ k < 15, f.get k = g.get k) : f = g := by
  refine Vector.ext ?_
  intro k hk
  have hget := h k hk
  unfold File.get at hget
  rwa [Vector.getElem?_eq_getElem hk, Vector.getElem?_eq_getElem hk] at hget

/-- What can be written can be read. -/
theorem writeIndex_eq {wadr : BitVec 12} {k : ℕ} (h : writeIndex wadr = some k) :
    readIndex wadr = some k ∧ k < 15 := by
  unfold writeIndex at h
  split_ifs at h with h1 h2 h3 h4 h5 h6 h7 h8 h9 <;> cases h <;> subst_vars <;> decide

theorem File.read_write (f : File) {wadr : BitVec 12} {k : ℕ} (h : writeIndex wadr = some k)
    (timeRt : BitVec 64) (wdata : BitVec 32) : (f.write wadr wdata).read timeRt wadr = wdata := by
  obtain ⟨hread, hk⟩ := writeIndex_eq h
  unfold File.read File.write
  rw [hread, h]
  exact (File.get_set f hk wdata).trans (if_pos rfl)

/-! ### Writes that are already there -/

/-- The CSR has the value. -/
def Written (f : File) (wadr : BitVec 12) (wdata : BitVec 32) : Prop := f.write wadr wdata = f

theorem File.get_write (f : File) {wadr : BitVec 12} {k : ℕ} (h : writeIndex wadr = some k)
    (wdata : BitVec 32) (l : ℕ) :
    (f.write wadr wdata).get l = if k = l then wdata else f.get l := by
  unfold File.write
  rw [h]
  exact File.get_set f (writeIndex_eq h).2 wdata

theorem writeIndex_eq_mip {wadr : BitVec 12} (h : writeIndex wadr = some mip) : wadr = 0x344 := by
  unfold writeIndex at h
  split_ifs at h with h1 h2 h3 h4 h5 h6 h7 h8 h9 <;> first | exact h6 | exact absurd h (by decide)

theorem File.write_of_none (f : File) {wadr : BitVec 12} (h : writeIndex wadr = none)
    (wdata : BitVec 32) : f.write wadr wdata = f := by
  unfold File.write
  rw [h]

theorem written_iff (f : File) {wadr : BitVec 12} {k : ℕ} (h : writeIndex wadr = some k)
    (wdata : BitVec 32) : Written f wadr wdata ↔ f.get k = wdata := by
  constructor
  · intro hw
    rw [← hw, File.get_write f h, if_pos rfl]
  · intro hget
    refine File.ext_get fun l _ => ?_
    rw [File.get_write f h]
    split_ifs with hkl
    · rw [← hkl, hget]
    · rfl

/-- The registers that the entry into a trap writes. -/
def savedAtTrap (k : ℕ) : Prop := k = mstatus ∨ k = mip ∨ k = mepc ∨ k = mcause ∨ k = mtval

theorem get_enterTrap_of_not_saved (f : File) (d : TrapData) {k : ℕ} (h : ¬ savedAtTrap k) :
    (f.enterTrap d).get k = f.get k := by
  simp only [savedAtTrap, not_or] at h
  obtain ⟨h1, h2, h3, h4, h5⟩ := h
  unfold File.enterTrap
  rw [File.get_set _ (by decide), if_neg (Ne.symm h5), File.get_set _ (by decide),
    if_neg (Ne.symm h4), File.get_set _ (by decide), if_neg (Ne.symm h3),
    File.get_set _ (by decide), if_neg (Ne.symm h2), File.get_set _ (by decide),
    if_neg (Ne.symm h1)]

/-- The entry into a trap depends on the other registers only. -/
theorem enterTrap_congr {f g : File} (d : TrapData)
    (h : ∀ k, ¬ savedAtTrap k → f.get k = g.get k) : f.enterTrap d = g.enterTrap d := by
  refine File.ext_get fun k _ => ?_
  by_cases hs : savedAtTrap k
  · unfold File.enterTrap
    rcases hs with rfl | rfl | rfl | rfl | rfl <;>
      simp [File.get_set, mstatus, mip, mepc, mcause, mtval]
  · rw [get_enterTrap_of_not_saved f d hs, get_enterTrap_of_not_saved g d hs, h k hs]

/-- What a trap leaves in the registers that it saves. -/
theorem get_clock_trap (f : File) (p : Port) (timerInt : Bool) (d : TrapData) :
    (clock f p timerInt true d).get mstatus = d.mstatusWdataRm ∧
      (clock f p timerInt true d).get mip = d.mipWdataRm ∧
      (clock f p timerInt true d).get mepc = d.mepcWdataRm ∧
      (clock f p timerInt true d).get mcause = d.mcauseWdataSm ∧
      (clock f p timerInt true d).get mtval = d.mtvalWdataSm := by
  rw [clock, hardware, if_pos rfl]
  unfold File.enterTrap
  refine ⟨?_, ?_, ?_, ?_, ?_⟩ <;> simp [File.get_set, mstatus, mip, mepc, mcause, mtval]

theorem hardware_trap_congr (b : File) {f g : File} (timerInt : Bool) (d : TrapData)
    (h : ∀ k, ¬ savedAtTrap k → f.get k = g.get k) :
    hardware b f timerInt true d = hardware b g timerInt true d := by
  unfold hardware
  refine enterTrap_congr d fun k hk => ?_
  cases timerInt with
  | false => exact h k hk
  | true =>
    have hmip : mip ≠ k := fun heq => hk (.inr (.inl heq.symm))
    change (f.set mip _).get k = (g.set mip _).get k
    rw [File.get_set _ (by decide), if_neg hmip, File.get_set _ (by decide), if_neg hmip, h k hk]

/-- A write to a register that the trap does not touch stays. -/
theorem written_hardware_trap (b f : File) (timerInt : Bool) {wadr : BitVec 12} {k : ℕ}
    (hk : writeIndex wadr = some k) (hs : ¬ savedAtTrap k) (wdata : BitVec 32) (d : TrapData) :
    Written (hardware b (f.write wadr wdata) timerInt true d) wadr wdata := by
  rw [written_iff _ hk]
  unfold hardware
  rw [if_pos rfl, get_enterTrap_of_not_saved _ _ hs]
  cases timerInt with
  | false => exact (File.get_write f hk wdata k).trans (if_pos rfl)
  | true =>
    have hmip : mip ≠ k := fun heq => hs (.inr (.inl heq.symm))
    change ((f.write wadr wdata).set mip _).get k = wdata
    rw [File.get_set _ (by decide), if_neg hmip, File.get_write f hk, if_pos rfl]

theorem get_hardware_false (b f : File) (timerInt : Bool) (d : TrapData) (k : ℕ) :
    (hardware b f timerInt false d).get k =
      if timerInt = true ∧ mip = k then timerBit (b.get mip) else f.get k := by
  unfold hardware
  cases timerInt with
  | false =>
    rw [if_neg (show ¬ (false = true ∧ mip = k) from fun h => Bool.false_ne_true h.1)]
    rfl
  | true =>
    change (f.set mip (timerBit (b.get mip))).get k = _
    rw [File.get_set _ (by decide)]
    by_cases hk : mip = k
    · rw [if_pos hk, if_pos ⟨rfl, hk⟩]
    · rw [if_neg hk, if_neg (fun h => hk h.2)]

/-- The hardware leaves a write alone, unless it is one of mip under a timer interrupt. -/
theorem written_hardware (b f : File) {timerInt : Bool} {wadr : BitVec 12}
    (h : timerInt = true → writeIndex wadr ≠ some mip) (wdata : BitVec 32) (d : TrapData) :
    Written (hardware b (f.write wadr wdata) timerInt false d) wadr wdata := by
  cases hk : writeIndex wadr with
  | none => exact File.write_of_none _ hk wdata
  | some k =>
    rw [written_iff _ hk, get_hardware_false, if_neg, File.get_write f hk, if_pos rfl]
    rintro ⟨ht, hmip⟩
    exact h ht (hk.trans (congrArg some hmip.symm))

/-- A register that the hardware does not write changes through the write port only. -/
theorem get_clock_of_not_saved (f : File) (p : Port) (timerInt exceptionSm : Bool) (d : TrapData)
    {k : ℕ} (hs : ¬ savedAtTrap k) :
    (clock f p timerInt exceptionSm d).get k =
      if p.csrEnableSm = true ∧ writeIndex p.csrWadrSm = some k then p.csrWdataSm else f.get k := by
  have hmip : ¬ (timerInt = true ∧ mip = k) := fun h => hs (.inr (.inl h.2.symm))
  have hhardware : ∀ g : File, (hardware f g timerInt exceptionSm d).get k = g.get k := by
    intro g
    cases exceptionSm with
    | false => rw [get_hardware_false, if_neg hmip]
    | true =>
      have hnone : (hardware f g timerInt true d).get k =
          (hardware f g timerInt false d).get k := get_enterTrap_of_not_saved _ d hs
      rw [hnone, get_hardware_false, if_neg hmip]
  rw [clock, hhardware]
  cases p.csrEnableSm with
  | false => rw [if_neg Bool.false_ne_true, if_neg (fun h => Bool.false_ne_true h.1)]
  | true =>
    rw [if_pos rfl]
    cases hk : writeIndex p.csrWadrSm with
    | none => rw [File.write_of_none f hk, if_neg (fun h => Option.some_ne_none k h.2.symm)]
    | some l =>
      rw [File.get_write f hk]
      by_cases hl : l = k
      · rw [if_pos hl, if_pos ⟨rfl, congrArg some hl⟩]
      · rw [if_neg hl, if_neg (fun h => hl (Option.some.inj h.2))]

end Csr

end RiVerSoC
