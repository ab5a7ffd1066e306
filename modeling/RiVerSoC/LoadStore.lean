/-
Store/load round trip without data cache.

A store is issued by `memPreprocess` and masked by `ramAccess`, and a later load
of the same size at the same address is cut out of the answer by `signExtend`.
For an aligned access

* `ramAccess_store` — the store replaces exactly the lane of its bytes;
* `byteAt_store` — every byte outside the access keeps its value;
* `loadData_eq` — the load extends the field that starts at *its* lane.

The two lanes come from different address bits: the store decodes bits 1 … 0, the
load bits 2 … 0, and an entry above 3 of the table is bit 0.  `roundTrip_iff` says
exactly when the round trip survives this.
-/
import RiVerSoC.MemAccess

namespace RiVerSoC

open BitRange

/-- The number of bytes of an access. -/
def accessBytes (memSize : BitVec 2) : ℕ :=
  match memSize.toNat with
  | 2 => 1
  | 1 => 2
  | _ => 4

private theorem memSize_cases : ∀ size : BitVec 2, size = 0 ∨ size = 1 ∨ size = 2 ∨ size = 3 := by
  decide

theorem accessBytes_cases (size : BitVec 2) :
    accessBytes size = 1 ∨ accessBytes size = 2 ∨ accessBytes size = 4 := by
  unfold accessBytes
  split <;> simp

/-- An access whose address is naturally aligned for its size. -/
structure AlignedAccess where
  adr : BitVec 32
  size : BitVec 2
  aligned : adr.toNat % accessBytes size = 0

namespace AlignedAccess

variable (acc : AlignedAccess)

/-- The number of bits of the access. -/
def bits : ℕ := 8 * accessBytes acc.size

/-- The first bit of the bytes of the access in their word. -/
def lane : ℕ := 8 * (acc.adr.extractLsb' 0 2).toNat

/-- A store of `d`; the fields of `w` that no access reads are free. -/
def storeOf (w : Exe2Mem) (d : BitVec 32) : Exe2Mem :=
  { w with exeRes := acc.adr, memSize := acc.size, memData := d, memStore := true }

/-- A load from the same place. -/
def loadOf (w : Exe2Mem) : Exe2Mem :=
  { w with exeRes := acc.adr, memSize := acc.size, memLoad := true, memStore := false }

theorem bits_pos : 0 < acc.bits := by
  have h := accessBytes_cases acc.size
  unfold bits
  omega

theorem rangeSize_eq : rangeSize acc.size = acc.bits - 1 := by
  unfold bits
  generalize acc.size = size
  revert size
  decide

/-- The offset in the word is a multiple of the size. -/
theorem offset_mod : (acc.adr.extractLsb' 0 2).toNat % accessBytes acc.size = 0 := by
  have h := acc.aligned
  rw [BitVec.extractLsb'_toNat, Nat.shiftRight_zero]
  rcases accessBytes_cases acc.size with hb | hb | hb <;> rw [hb] at h ⊢ <;> omega

/-- An aligned access does not cross the end of its word. -/
theorem lane_add_bits_le : acc.lane + acc.bits ≤ 32 := by
  have h := acc.offset_mod
  have hlt : (acc.adr.extractLsb' 0 2).toNat < 4 := BitVec.isLt _
  unfold lane bits
  rcases accessBytes_cases acc.size with hb | hb | hb <;> rw [hb] at h ⊢ <;> omega

/-- A lane that is not the first one leaves room for the access below it. -/
theorem bits_le_lane (h : acc.lane ≠ 0) : acc.bits ≤ acc.lane := by
  have hmod := acc.offset_mod
  unfold lane at h ⊢
  unfold bits
  have hpos : 0 < (acc.adr.extractLsb' 0 2).toNat := by omega
  exact Nat.mul_le_mul_left 8 (Nat.le_of_dvd hpos (Nat.dvd_of_mod_eq_zero hmod))

end AlignedAccess

theorem rangeStart_of_lt : ∀ {k : ℕ}, k < 4 → rangeStart k = 8 * k := by
  decide

theorem rangeStart_of_ge {k : ℕ} (hk : 4 ≤ k) : rangeStart k = 0 := by
  unfold rangeStart
  split <;> omega

variable (acc : AlignedAccess) (ram : Ram)

/-! ### The store -/

theorem storeData_bit (w : Exe2Mem) (d : BitVec 32) {i : ℕ} (hlo : acc.lane ≤ i)
    (hhi : i < acc.lane + acc.bits) :
    (storeData (acc.storeOf w d)).getLsbD i = d.getLsbD (i - acc.lane) := by
  have hle := acc.lane_add_bits_le
  have hstart : rangeStart (acc.adr.extractLsb' 0 2).toNat = acc.lane :=
    rangeStart_of_lt (BitVec.isLt _)
  have hlast : min 31 (acc.lane + (acc.bits - 1)) = acc.lane + acc.bits - 1 := by omega
  simp only [storeData, AlignedAccess.storeOf, hstart, acc.rangeSize_eq, hlast]
  rw [getLsbD_set _ _ (by omega), if_pos (by omega), getLsbD_get, decide_eq_true (by omega)]
  simp

/-- The bits of the lane that starts at byte `k`. -/
def laneMask (bytes k : ℕ) : BitVec 32 := ones 32 (8 * bytes) <<< (8 * k)

/-- The masks of `core_tb` cut out the lane of an aligned access. -/
theorem maskStore_eq {size : BitVec 2} {k : ℕ} (hk : k < 4) (hmod : k % accessBytes size = 0)
    (old data : BitVec 32) :
    maskStore size k old data =
      (~~~laneMask (accessBytes size) k &&& old) ||| (data &&& laneMask (accessBytes size) k) := by
  have hword : data = (~~~laneMask 4 0 &&& old) ||| (data &&& laneMask 4 0) := by
    rw [show laneMask 4 0 = BitVec.allOnes 32 by decide, BitVec.not_allOnes, BitVec.zero_and,
      BitVec.zero_or, BitVec.and_allOnes]
  rcases memSize_cases size with rfl | rfl | rfl | rfl
  · have h0 : k = 0 := by
      change k % 4 = 0 at hmod
      omega
    subst h0
    exact hword
  · have h02 : k = 0 ∨ k = 2 := by
      change k % 2 = 0 at hmod
      omega
    rcases h02 with rfl | rfl <;> rfl
  · have h4 : k = 0 ∨ k = 1 ∨ k = 2 ∨ k = 3 := by omega
    rcases h4 with rfl | rfl | rfl | rfl <;> rfl
  · have h0 : k = 0 := by
      change k % 4 = 0 at hmod
      omega
    subst h0
    exact hword

theorem getLsbD_laneMask (bytes k : ℕ) {i : ℕ} (hi : i < 32) :
    (laneMask bytes k).getLsbD i = decide (8 * k ≤ i ∧ i < 8 * k + 8 * bytes) := by
  rw [laneMask, BitVec.getLsbD_shiftLeft, getLsbD_ones, Bool.eq_iff_iff]
  simp
  omega

/-- The word that a store of `d` leaves where the word `old` was. -/
def storedWord (w : Exe2Mem) (old d : BitVec 32) : BitVec 32 :=
  maskStore acc.size (acc.adr.extractLsb' 0 2).toNat old (storeData (acc.storeOf w d))

/-- The store replaces the lane of the access and nothing else of the word. -/
theorem getLsbD_storedWord (w : Exe2Mem) (old d : BitVec 32) {i : ℕ} (hi : i < 32) :
    (storedWord acc w old d).getLsbD i =
      if acc.lane ≤ i ∧ i < acc.lane + acc.bits then d.getLsbD (i - acc.lane)
      else old.getLsbD i := by
  have hmask : (laneMask (accessBytes acc.size) (acc.adr.extractLsb' 0 2).toNat).getLsbD i =
      decide (acc.lane ≤ i ∧ i < acc.lane + acc.bits) := getLsbD_laneMask _ _ hi
  rw [storedWord, maskStore_eq (BitVec.isLt _) acc.offset_mod, BitVec.getLsbD_or,
    BitVec.getLsbD_and, BitVec.getLsbD_and, BitVec.getLsbD_not, hmask]
  by_cases h : acc.lane ≤ i ∧ i < acc.lane + acc.bits
  · simp [h, storeData_bit acc w d h.1 h.2]
  · simp [h, hi]

theorem toNat_and_three (a : BitVec 32) : (a &&& 3#32).toNat = a.toNat % 4 := by
  rw [BitVec.toNat_and]
  exact Nat.and_two_pow_sub_one_eq_mod a.toNat 2

theorem toNat_wordAdr (a : BitVec 32) : (wordAdr a).toNat = 4 * (a.toNat / 4) := by
  have hshift : wordAdr a = (a >>> 2) <<< 2 := by
    apply BitVec.eq_of_getLsbD_eq
    intro i hi
    have hmask : (0xFFFFFFFC#32).getLsbD i = !(decide (i < 2)) := by
      rw [show 0xFFFFFFFC#32 = ~~~ones 32 2 by decide, BitVec.getLsbD_not, getLsbD_ones]
      simp [hi]
    rw [wordAdr, BitVec.getLsbD_and, hmask, BitVec.getLsbD_shiftLeft, BitVec.getLsbD_ushiftRight]
    by_cases h : i < 2
    · simp [h]
    · simp [h, hi, show 2 + (i - 2) = i by omega]
  have hlt := a.isLt
  rw [hshift, BitVec.toNat_shiftLeft, BitVec.toNat_ushiftRight, Nat.shiftLeft_eq,
    Nat.shiftRight_eq_div_pow]
  omega

/-- The RAM after a store, whatever the other fields of the word are. -/
theorem ramAccess_store (w : Exe2Mem) (d : BitVec 32) (multInstRm : Bool) :
    (ramAccess ram (memPreprocess (acc.storeOf w d) false multInstRm)).1 =
      Function.update ram (wordAdr acc.adr) (storedWord acc w (ram (wordAdr acc.adr)) d) := by
  have hoff : (acc.adr &&& 3#32).toNat = (acc.adr.extractLsb' 0 2).toNat := by
    rw [toNat_and_three, BitVec.extractLsb'_toNat, Nat.shiftRight_zero]
  simp only [ramAccess, memPreprocess, AlignedAccess.storeOf, Bool.not_false, Bool.true_or,
    Bool.and_true, if_true, hoff]
  rfl

/-- Bytes outside `[adr, adr + size)` survive the store. -/
theorem byteAt_store (w : Exe2Mem) (d : BitVec 32) (multInstRm : Bool) {b : BitVec 32}
    (hb : b.toNat < acc.adr.toNat ∨ acc.adr.toNat + accessBytes acc.size ≤ b.toNat) :
    byteAt (ramAccess ram (memPreprocess (acc.storeOf w d) false multInstRm)).1 b =
      byteAt ram b := by
  rw [ramAccess_store, byteAt, byteAt]
  by_cases hword : wordAdr b = wordAdr acc.adr
  · have hsame := congrArg BitVec.toNat hword
    rw [toNat_wordAdr, toNat_wordAdr] at hsame
    rw [hword, Function.update_self, toNat_and_three]
    apply BitVec.eq_of_getLsbD_eq
    intro i hi
    have hout : ¬ (acc.lane ≤ 8 * (b.toNat % 4) + i ∧
        8 * (b.toNat % 4) + i < acc.lane + acc.bits) := by
      unfold AlignedAccess.lane AlignedAccess.bits
      rw [BitVec.extractLsb'_toNat, Nat.shiftRight_zero]
      omega
    rw [BitVec.getLsbD_extractLsb', BitVec.getLsbD_extractLsb',
      getLsbD_storedWord acc w _ d (by omega), if_neg hout]
  · rw [Function.update_of_ne hword]

/-! ### The load -/

/-- The first bit of the field that the load extends. -/
def loadLane : ℕ := rangeStart (acc.adr.extractLsb' 0 3).toNat

/-- The load looks at the lane of its access when bit 2 of the address is 0, and at
the first one otherwise. -/
theorem loadLane_eq :
    loadLane acc = if acc.adr.getLsbD 2 then 0 else acc.lane := by
  have hbit : acc.adr.getLsbD 2 = decide (4 ≤ (acc.adr.extractLsb' 0 3).toNat) := by
    rw [BitVec.extractLsb'_toNat, Nat.shiftRight_zero, BitVec.getLsbD,
      Nat.testBit_eq_decide_div_mod_eq, Bool.eq_iff_iff, decide_eq_true_iff, decide_eq_true_iff]
    omega
  unfold loadLane AlignedAccess.lane
  rw [hbit]
  by_cases h : 4 ≤ (acc.adr.extractLsb' 0 3).toNat
  · rw [decide_eq_true h, if_pos rfl, rangeStart_of_ge h]
  · rw [decide_eq_false h, if_neg (by decide), rangeStart_of_lt (by omega)]
    rw [BitVec.extractLsb'_toNat, BitVec.extractLsb'_toNat] at *
    rw [Nat.shiftRight_zero] at *
    omega

theorem loadLane_add_bits_le : loadLane acc + acc.bits ≤ 32 := by
  have h := acc.lane_add_bits_le
  rw [loadLane_eq]
  split <;> omega

/-- The load delivers the extension of the field that starts at its lane. -/
theorem loadData_eq (w : Exe2Mem) (x : BitVec 32) :
    signExtend (acc.loadOf w) x =
      extend 32 w.memSignExtend (x.extractLsb' (loadLane acc) acc.bits) := by
  have hpos := acc.bits_pos
  have hle := loadLane_add_bits_le acc
  have hlast : min 31 (loadLane acc + (acc.bits - 1)) = loadLane acc + acc.bits - 1 := by omega
  rw [← set_fill_get hpos hle, signExtend,
    if_pos (show (acc.loadOf w).memLoad = true from rfl)]
  simp only [loadData, AlignedAccess.loadOf, acc.rangeSize_eq]
  rw [← hlast]
  rfl

/-! ### The round trip -/

/-- The word that the load is answered after the store, with the RAM after both. -/
def storeThenLoad (w w' : Exe2Mem) (multInstRm multInstRm' : Bool) (d : BitVec 32) :
    Ram × BitVec 32 :=
  ramAccess (ramAccess ram (memPreprocess (acc.storeOf w d) false multInstRm)).1
    (memPreprocess (acc.loadOf w') false multInstRm')

/-- A load after a store of `d` delivers `d` cut to the size and extended as the
load's flag says, and no byte outside the access changed. -/
structure RoundTrip (w w' : Exe2Mem) (multInstRm multInstRm' : Bool) (d : BitVec 32) : Prop where
  value : signExtend (acc.loadOf w') (storeThenLoad acc ram w w' multInstRm multInstRm' d).2 =
    extend 32 w'.memSignExtend (d.setWidth acc.bits)
  frame : ∀ b : BitVec 32,
    b.toNat < acc.adr.toNat ∨ acc.adr.toNat + accessBytes acc.size ≤ b.toNat →
      byteAt (storeThenLoad acc ram w w' multInstRm multInstRm' d).1 b = byteAt ram b

variable {acc ram} {w w' : Exe2Mem} {multInstRm multInstRm' : Bool} {d : BitVec 32}

/-- The load leaves the RAM alone. -/
theorem storeThenLoad_ram :
    (storeThenLoad acc ram w w' multInstRm multInstRm' d).1 =
      (ramAccess ram (memPreprocess (acc.storeOf w d) false multInstRm)).1 := rfl

theorem storeThenLoad_result :
    (storeThenLoad acc ram w w' multInstRm multInstRm' d).2 =
      storedWord acc w (ram (wordAdr acc.adr)) d := by
  have hadr : wordAdr (acc.adr &&& 0xFFFFFFFC#32) = wordAdr acc.adr := by
    rw [wordAdr, wordAdr, BitVec.and_assoc, BitVec.and_self]
  have hresult : (storeThenLoad acc ram w w' multInstRm multInstRm' d).2 =
      (ramAccess ram (memPreprocess (acc.storeOf w d) false multInstRm)).1
        (wordAdr (acc.adr &&& 0xFFFFFFFC#32)) := rfl
  rw [hresult, hadr, ramAccess_store, Function.update_self]

/-- The stored data come back from their own lane. -/
theorem storedWord_lane (old : BitVec 32) :
    (storedWord acc w old d).extractLsb' acc.lane acc.bits = d.setWidth acc.bits := by
  have hle := acc.lane_add_bits_le
  apply BitVec.eq_of_getLsbD_eq
  intro i hi
  rw [BitVec.getLsbD_extractLsb', decide_eq_true hi, Bool.true_and,
    getLsbD_storedWord acc w old d (by omega), if_pos (by omega), BitVec.getLsbD_setWidth,
    decide_eq_true hi, Bool.true_and, Nat.add_sub_cancel_left]

/-- Below a lane that is not the first one, the word is the old one. -/
theorem storedWord_low (old : BitVec 32) (h : acc.lane ≠ 0) :
    (storedWord acc w old d).extractLsb' 0 acc.bits = old.setWidth acc.bits := by
  have hle := acc.lane_add_bits_le
  have hlow := acc.bits_le_lane h
  apply BitVec.eq_of_getLsbD_eq
  intro i hi
  rw [BitVec.getLsbD_extractLsb', decide_eq_true hi, Bool.true_and,
    getLsbD_storedWord acc w old d (by omega), if_neg (by omega), BitVec.getLsbD_setWidth,
    decide_eq_true hi, Bool.true_and, Nat.zero_add]

theorem value_iff :
    signExtend (acc.loadOf w') (storeThenLoad acc ram w w' multInstRm multInstRm' d).2 =
        extend 32 w'.memSignExtend (d.setWidth acc.bits) ↔
      (storedWord acc w (ram (wordAdr acc.adr)) d).extractLsb' (loadLane acc) acc.bits =
        d.setWidth acc.bits := by
  have hle := acc.lane_add_bits_le
  rw [loadData_eq, storeThenLoad_result]
  exact extend_inj (by omega)

/-- The round trip holds when bit 2 of the address is 0, when the access is at the
start of its word, or when the bytes there happened to be the stored ones already. -/
theorem roundTrip_iff (acc : AlignedAccess) (ram : Ram) (w w' : Exe2Mem)
    (multInstRm multInstRm' : Bool) (d : BitVec 32) :
    RoundTrip acc ram w w' multInstRm multInstRm' d ↔
      acc.adr.getLsbD 2 = false ∨ acc.adr.extractLsb' 0 2 = 0#2 ∨
        (ram (wordAdr acc.adr)).setWidth acc.bits = d.setWidth acc.bits := by
  have hzero : acc.lane = 0 ↔ acc.adr.extractLsb' 0 2 = 0#2 := by
    rw [← BitVec.toNat_inj, BitVec.toNat_zero]
    unfold AlignedAccess.lane
    omega
  rw [← hzero]
  constructor
  · intro h
    have hvalue := value_iff.mp h.value
    rw [loadLane_eq] at hvalue
    -- with bit 2 set the load looks at the lowest lane
    by_cases h2 : acc.adr.getLsbD 2
    · by_cases hlane : acc.lane = 0
      · exact .inr (.inl hlane)
      · rw [if_pos h2, storedWord_low _ hlane] at hvalue
        exact .inr (.inr hvalue)
    · exact .inl (Bool.eq_false_iff.mpr h2)
  · intro h
    refine ⟨value_iff.mpr ?_, ?_⟩
    · rw [loadLane_eq]
      by_cases hlane : acc.lane = 0
      · rw [hlane, ite_self, ← hlane]
        exact storedWord_lane _
      · by_cases h2 : acc.adr.getLsbD 2
        · rcases h with h | h | h
          · rw [h] at h2
            exact absurd h2 (by decide)
          · exact absurd h hlane
          · rw [if_pos h2, storedWord_low _ hlane, h]
        · rw [if_neg h2]
          exact storedWord_lane _
    · intro b hb
      rw [storeThenLoad_ram]
      exact byteAt_store acc ram w d multInstRm hb

/-- A byte stored at address 5 of an empty memory is read back as 0. -/
theorem not_roundTrip_byte_five :
    ¬ RoundTrip ⟨5#32, 2#2, by decide⟩ (fun _ => 0) default default false false 0xAB#32 :=
  fun h => absurd h.value (by decide)

end RiVerSoC
