/-
The base instruction set, and its loads and stores on MEM and the RAM.

* `Rv32i.effect` — what an instruction does to the registers and the RAM;
* `loadData_iff` — MEM takes the field of a load out of a word, but for the lanes that it misses;
* `ramAccess_storeResult` — a store leaves the word that the instruction set has there.
-/
import RiVerSoC.AluInstructions
import RiVerSoC.InFlight
import RiVerSoC.LoadStore

namespace RiVerSoC

open Decode AluInstructions

/-- The registers and the RAM. -/
structure Arch where
  registers : Registers
  ram : Ram

namespace Rv32i

/-- The value of a load from `adr`, when the word there is `word`. -/
def loadResult (f : BitVec 3) (adr word : BitVec 32) : Option (BitVec 32) :=
  let lane := 8 * (adr.toNat % 4)
  if f = 0b000 then some ((word.extractLsb' lane 8).signExtend 32)
  else if f = 0b001 ∧ adr.toNat % 2 = 0 then some ((word.extractLsb' lane 16).signExtend 32)
  else if f = 0b010 ∧ adr.toNat % 4 = 0 then some word
  else if f = 0b100 then some ((word.extractLsb' lane 8).setWidth 32)
  else if f = 0b101 ∧ adr.toNat % 2 = 0 then some ((word.extractLsb' lane 16).setWidth 32)
  else none

/-- The word that a store of `v` to `adr` leaves where the word `old` was. -/
def storeResult (f : BitVec 3) (adr old v : BitVec 32) : Option (BitVec 32) :=
  let lane := 8 * (adr.toNat % 4)
  if f = 0b000 then some (BitRange.set old (lane + 7) lane v)
  else if f = 0b001 ∧ adr.toNat % 2 = 0 then some (BitRange.set old (lane + 15) lane v)
  else if f = 0b010 ∧ adr.toNat % 4 = 0 then some v
  else none

/-- The registers and the RAM after the word `ir` at `pc`; none when it is not one of the base
instructions, or when its access is not aligned. -/
def effect (ir pc : BitVec 32) (a : Arch) : Option Arch :=
  let x := a.registers.read ((rs1 ir).setWidth 6)
  let y := a.registers.read ((rs2 ir).setWidth 6)
  let put (v : BitVec 32) : Arch := { a with registers := a.registers.write ((rd ir).setWidth 6) v }
  if opcode ir = 0b0000011 then
    (loadResult (funct3 ir) (x + immI ir) (a.ram (wordAdr (x + immI ir)))).map put
  else if opcode ir = 0b0100011 then
    (storeResult (funct3 ir) (x + immS ir) (a.ram (wordAdr (x + immS ir))) y).map fun w =>
      { a with ram := Function.update a.ram (wordAdr (x + immS ir)) w }
  else if opcode ir = 0b1100011 then
    if funct3 ir = 0b010 ∨ funct3 ir = 0b011 then none else some a
  else if opcode ir = 0b1101111 ∨ (opcode ir = 0b1100111 ∧ funct3 ir = 0b000) then
    some (put (pc + 4))
  else if opcode ir = 0b0001111 ∧ funct3 ir = 0b000 then some a
  else (aluResult ir pc x y).map put

/-- The bits of a byte or half word that a load takes. -/
def loadBits (f : BitVec 3) : ℕ := if f = 0b000 ∨ f = 0b100 then 8 else 16

/-- A load of a byte or half word at an address with bit 2 takes the first of its word. -/
def Misses (f : BitVec 3) (adr word : BitVec 32) : Prop :=
  f ≠ 0b010 ∧ adr.getLsbD 2 = true ∧
    word.extractLsb' 0 (loadBits f) ≠ word.extractLsb' (8 * (adr.toNat % 4)) (loadBits f)

instance (f : BitVec 3) (adr word : BitVec 32) : Decidable (Misses f adr word) :=
  inferInstanceAs (Decidable (_ ∧ _))

end Rv32i

/-! ### Destinations -/

theorem write_inj {g : Registers} {r : BitVec 6} (hr : r.toNat < 33) {v v' : BitVec 32} :
    g.write r v = g.write r v' ↔ r = 0 ∨ v = v' := by
  constructor
  · intro h
    by_cases h0 : r = 0
    · exact Or.inl h0
    · right
      have hread := congrArg (·.read r) h
      simpa only [Registers.read_write g hr h0, if_true] using hread
  · rintro (rfl | rfl)
    · rfl
    · rfl

/-- The destination gets a value or another one. -/
theorem put_eq_iff {a : Arch} {ir : BitVec 32} {v v' : BitVec 32} :
    (⟨a.registers.write ((rd ir).setWidth 6) v, a.ram⟩ : Arch) =
      ⟨a.registers.write ((rd ir).setWidth 6) v', a.ram⟩ ↔ rd ir = 0 ∨ v = v' := by
  have hlt : ((rd ir).setWidth 6).toNat < 33 := by
    rw [BitVec.toNat_setWidth]
    have := (rd ir).isLt
    omega
  have hzero : (rd ir).setWidth 6 = (0 : BitVec 6) ↔ rd ir = 0 := by
    generalize rd ir = r
    revert r
    decide
  rw [Arch.mk.injEq, and_iff_left rfl, write_inj hlt, hzero]

/-! ### Loads -/

open BitRange

section Accesses

variable {w : Exe2Mem} (acc : AlignedAccess)

theorem lane_eq : acc.lane = 8 * (acc.adr.toNat % 4) := by
  rw [AlignedAccess.lane, BitVec.extractLsb'_toNat, Nat.shiftRight_zero]

theorem loadData_of_aligned (hadr : w.exeRes = acc.adr) (hsize : w.memSize = acc.size)
    (x : BitVec 32) :
    loadData w x = extend 32 w.memSignExtend (x.extractLsb' (loadLane acc) acc.bits) := by
  rw [← loadData_eq acc w x]
  unfold signExtend loadData AlignedAccess.loadOf
  dsimp only
  rw [hadr, hsize, if_pos rfl]

/-- The field of `n` bits that a load takes. -/
theorem loadData_iff_field {size : BitVec 2} {n : ℕ} (hn : 8 * accessBytes size = n)
    {adr : BitVec 32} (haligned : adr.toNat % accessBytes size = 0) (hadr : w.exeRes = adr)
    (hsize : w.memSize = size) {signed : Bool} (hsign : w.memSignExtend = signed) (x : BitVec 32) :
    loadData w x = extend 32 signed (x.extractLsb' (8 * (adr.toNat % 4)) n) ↔
      ¬(adr.getLsbD 2 = true ∧ x.extractLsb' 0 n ≠ x.extractLsb' (8 * (adr.toNat % 4)) n) := by
  subst hn hsign
  let acc : AlignedAccess := ⟨adr, size, haligned⟩
  have hle := acc.lane_add_bits_le
  have hlane : acc.lane = 8 * (adr.toNat % 4) := lane_eq acc
  have hload := loadData_of_aligned acc hadr hsize x
  rw [loadLane_eq, hlane] at hload
  have hbits : 8 * accessBytes size ≤ 32 := show acc.bits ≤ 32 by omega
  rw [hload, show acc.bits = 8 * accessBytes size from rfl, extend_inj hbits,
    show acc.adr = adr from rfl]
  cases adr.getLsbD 2 with
  | true => simp
  | false => simp

/-- A load delivers its value unless it misses its lane. -/
theorem loadData_iff {f : BitVec 3} {adr x v : BitVec 32} (hv : Rv32i.loadResult f adr x = some v)
    (hadr : w.exeRes = adr)
    (hsize : w.memSize = if f = 0b010 then 0 else if f = 0b001 ∨ f = 0b101 then 1 else 2)
    (hsign : w.memSignExtend = (f == 0b000 || f == 0b001)) :
    loadData w x = v ↔ ¬ Rv32i.Misses f adr x := by
  unfold Rv32i.loadResult at hv
  unfold Rv32i.Misses Rv32i.loadBits
  dsimp only at hv
  -- the five functions, with their accesses
  split_ifs at hv with h0 h1 h2 h4 h5
  · subst h0
    rw [← Option.some.inj hv, and_iff_right (by decide)]
    exact loadData_iff_field (n := 8) rfl (Nat.mod_one _) hadr hsize hsign x
  · obtain ⟨rfl, hmod⟩ := h1
    rw [← Option.some.inj hv, and_iff_right (by decide)]
    exact loadData_iff_field (n := 16) rfl hmod hadr hsize hsign x
  · obtain ⟨rfl, hmod⟩ := h2
    refine iff_of_true ?_ fun h => h.1 rfl
    rw [← Option.some.inj hv]
    have hword := loadData_iff_field (n := 32) rfl hmod hadr hsize hsign x
    rw [hmod] at hword
    refine (hword.mpr fun h => h.2 rfl).trans ?_
    simp [extend]
  · subst h4
    rw [← Option.some.inj hv, and_iff_right (by decide)]
    exact loadData_iff_field (n := 8) rfl (Nat.mod_one _) hadr hsize hsign x
  · obtain ⟨rfl, hmod⟩ := h5
    rw [← Option.some.inj hv, and_iff_right (by decide)]
    exact loadData_iff_field (n := 16) rfl hmod hadr hsize hsign x

/-! ### Stores -/

/-- A store leaves the word that the instruction set has there. -/
theorem ramAccess_storeResult {f : BitVec 3} {adr old v word : BitVec 32}
    (hv : Rv32i.storeResult f adr old v = some word) (ram : Ram) (hold : ram (wordAdr adr) = old)
    (hadr : w.exeRes = adr) (hdata : w.memData = v) (hstore : w.memStore = true)
    (hsize : w.memSize = if f = 0b010 then 0 else if f = 0b001 then 1 else 2)
    (multInstRm : Bool) :
    (ramAccess ram (memPreprocess w false multInstRm)).1 =
      Function.update ram (wordAdr adr) word := by
  -- the word that the store of an aligned access leaves, bit by bit
  have hstored : ∀ acc : AlignedAccess, acc.adr = adr → w.memSize = acc.size →
      (∀ i < 32, word.getLsbD i = if acc.lane ≤ i ∧ i < acc.lane + acc.bits then
        v.getLsbD (i - acc.lane) else old.getLsbD i) →
      (ramAccess ram (memPreprocess w false multInstRm)).1 =
        Function.update ram (wordAdr adr) word := by
    intro acc ha hs hword
    have hram : (ramAccess ram (memPreprocess w false multInstRm)).1 =
        (ramAccess ram (memPreprocess (acc.storeOf w v) false multInstRm)).1 := by
      rw [AlignedAccess.storeOf, ha, ← hs, ← hadr, ← hdata, ← hstore]
    have heq : storedWord acc w old v = word := by
      apply BitVec.eq_of_getLsbD_eq
      intro i hi
      rw [getLsbD_storedWord acc _ _ _ hi, hword i hi]
    rw [hram, ramAccess_store, ha, hold, heq]
  unfold Rv32i.storeResult at hv
  dsimp only at hv
  split_ifs at hv with h0 h1 h2
  · subst h0
    refine hstored ⟨adr, 2, Nat.mod_one _⟩ rfl hsize fun i hi => ?_
    rw [← Option.some.inj hv, getLsbD_set _ _ (by omega), lane_eq]
    exact if_congr (and_congr_right fun _ => Nat.lt_succ_iff.symm) rfl rfl
  · obtain ⟨rfl, hmod⟩ := h1
    refine hstored ⟨adr, 1, hmod⟩ rfl hsize fun i hi => ?_
    rw [← Option.some.inj hv, getLsbD_set _ _ (by omega), lane_eq]
    exact if_congr (and_congr_right fun _ => Nat.lt_succ_iff.symm) rfl rfl
  · obtain ⟨rfl, hmod⟩ := h2
    refine hstored ⟨adr, 0, hmod⟩ rfl hsize fun i hi => ?_
    have hlane : (⟨adr, 0, hmod⟩ : AlignedAccess).lane = 0 := by rw [lane_eq, hmod]
    rw [← Option.some.inj hv, hlane, if_pos ⟨Nat.zero_le i, by rw [Nat.zero_add]; exact hi⟩,
      Nat.sub_zero]

end Accesses

end RiVerSoC
