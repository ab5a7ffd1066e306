/-
The word that IFETCH packs for DEC, with the prediction.

`fetch_method` assigns bits up to 101 of a word of `if2dec_size` = 97 bits, and reads the decision
and the target from bits that it has given to the target and to the miss flag.

* `Carries` — everything is packed inside the word and read back as what was packed;
* `carries_iff` — with a word that is wide enough this takes a target whose bits are all alike;
* `not_carries` — with 97 bits nothing is ever carried.
-/
import RiVerSoC.BitFields

namespace RiVerSoC

namespace FetchWord

open BitFields

def if2decSize : ℕ := 97

/-- What `fetch_method` reads: the answer of the predictor, the instruction and its PC. -/
structure Fetched where
  predBranchPnt : BitVec 2
  predBranchCpt : BitVec 2
  predBranchLru : Bool
  predBranchTargetAdr : BitVec 32
  predBranchMiss : Bool
  instSic : BitVec 32
  pcRd : BitVec 32
  pbTaken : Bool
deriving DecidableEq, Repr, Inhabited

/-- The prediction is followed. -/
def Fetched.taken (f : Fetched) : Bool := f.pbTaken && f.predBranchMiss

/-- `PC_SI`. -/
def Fetched.pcSi (f : Fetched) : BitVec 32 := if f.taken then f.predBranchTargetAdr else f.pcRd

/-- `if2dec_in_var` without an exception. -/
def if2decIn (f : Fetched) : List Assign :=
  [range 101 100 f.predBranchPnt, range 99 98 f.predBranchCpt, bit 97 f.predBranchLru,
    range 96 65 f.predBranchTargetAdr, bit 64 f.predBranchMiss, range 63 32 f.instSic,
    range 31 0 f.pcSi]

/-- The signals that `fetch_method` writes from `if2dec_out_var`. -/
structure Delivered where
  predTakenRi : Bool
  predBranchAdrRi : BitVec 32
  instrRi : BitVec 32
  pcIf2decRi : BitVec 32
deriving DecidableEq, Repr, Inhabited

def deliver {size : ℕ} (x : BitVec size) : Delivered where
  predTakenRi := readBit x 96
  predBranchAdrRi := read x ⟨95, 64⟩ 32
  instrRi := read x ⟨63, 32⟩ 32
  pcIf2decRi := read x ⟨31, 0⟩ 32

/-- Every field has its place in the word, and DEC gets the decision, the target, the instruction
and the PC of what was fetched. -/
structure Carries (size : ℕ) (f : Fetched) : Prop where
  layout : Layout size ((if2decIn f).map Assign.range)
  delivered : (pack (0 : BitVec size) (if2decIn f)).map deliver =
    some ⟨f.taken, f.predBranchTargetAdr, f.instSic, f.pcSi⟩

theorem layout_iff (size : ℕ) (f : Fetched) :
    Layout size ((if2decIn f).map Assign.range) ↔ 102 ≤ size := by
  constructor
  · intro h
    have htop := h.within ⟨101, 100⟩ (by simp [if2decIn, range, bit])
    simp only [Range.Within, Range.hi] at htop
    omega
  · intro h
    refine ⟨?_, ?_⟩
    · intro r hr
      simp only [if2decIn, range, bit, List.map_cons, List.map_nil, List.mem_cons,
        List.not_mem_nil, or_false] at hr
      rcases hr with rfl | rfl | rfl | rfl | rfl | rfl | rfl <;>
        · simp only [Range.Within, Range.hi]
          omega
    · change ((if2decIn default).map Assign.range).Pairwise Range.Disjoint
      decide

/-- The bits above the one that is moved in. -/
theorem getLsbD_shifted (x : BitVec 32) (b : Bool) {i : ℕ} (hi : i + 1 < 32) :
    (x <<< 1 ||| (BitVec.ofBool b).setWidth 32).getLsbD (i + 1) = x.getLsbD i := by
  rw [BitVec.getLsbD_or, BitVec.getLsbD_shiftLeft, BitVec.getLsbD_setWidth,
    BitVec.getLsbD_of_ge (BitVec.ofBool b) _ (by omega)]
  simp [hi]

/-- The address that is read is the target moved up by one bit, above the miss flag, and the
decision is the top bit of the target. -/
theorem deliver_pack {size : ℕ} (f : Fetched) {y : BitVec size}
    (hlayout : Layout size ((if2decIn f).map Assign.range))
    (hy : pack 0 (if2decIn f) = some y) :
    deliver y = ⟨f.predBranchTargetAdr.msb,
      f.predBranchTargetAdr <<< 1 ||| (BitVec.ofBool f.predBranchMiss).setWidth 32,
      f.instSic, f.pcSi⟩ := by
  have hdisjoint := List.pairwise_map.mp hlayout.disjoint
  have htarget : ∀ n < 32, y.getLsbD (65 + n) = f.predBranchTargetAdr.getLsbD n := by
    intro n hn
    have hcovers : (range 96 65 f.predBranchTargetAdr).range.Covers (65 + n) := by
      simp only [range, Range.Covers, Range.hi, Range.lo]
      omega
    rw [getLsbD_pack hcovers hy hdisjoint (by simp [if2decIn])]
    simp [range, Range.offset]
  have hmiss : y.getLsbD 64 = f.predBranchMiss :=
    readBit_pack hy hlayout.disjoint (by simp [if2decIn])
  rw [deliver, Delivered.mk.injEq]
  refine ⟨?_, ?_, ?_, ?_⟩
  · rw [readBit, htarget 31 (by decide), BitVec.msb_eq_getLsbD_last]
  · apply BitVec.eq_of_getLsbD_eq
    intro i hi
    have hwidth : i < (Range.mk 95 64).width := hi
    rw [getLsbD_read _ _ hi, decide_eq_true hwidth, Bool.true_and]
    change y.getLsbD (64 + i) = _
    -- the range that is read begins one bit below the target, at the flag
    cases i with
    | zero => simp [hmiss]
    | succ n =>
      rw [show 64 + (n + 1) = 65 + n by omega, htarget n (by omega), getLsbD_shifted _ _ hi]
  · exact read_pack (a := range 63 32 f.instSic) hy hlayout.disjoint (by simp [if2decIn])
      f.instSic.isLt
  · exact read_pack (a := range 31 0 f.pcSi) hy hlayout.disjoint (by simp [if2decIn])
      f.pcSi.isLt

/-- A target that equals itself moved up by one bit has all bits alike. -/
theorem shifted_eq_self_iff (x : BitVec 32) (b : Bool) :
    x <<< 1 ||| (BitVec.ofBool b).setWidth 32 = x ↔ x = if b then BitVec.allOnes 32 else 0 := by
  constructor
  · intro h
    -- bit 0 is the one that is moved in, and each bit is the one below it
    have hbits : ∀ i < 32, x.getLsbD i = b := by
      intro i
      induction i with
      | zero =>
        intro _
        rw [← h]
        simp
      | succ i ih =>
        intro hi
        rw [← h, getLsbD_shifted x b hi]
        exact ih (by omega)
    apply BitVec.eq_of_getLsbD_eq
    intro i hi
    rw [hbits i hi]
    cases b with
    | false => exact BitVec.getLsbD_zero.symm
    | true => exact (BitVec.getLsbD_allOnes.trans (decide_eq_true hi)).symm
  · rintro rfl
    cases b <;> decide

theorem carries_iff (size : ℕ) (f : Fetched) :
    Carries size f ↔ 102 ≤ size ∧
      f.predBranchTargetAdr = (if f.predBranchMiss then BitVec.allOnes 32 else 0) ∧
      (f.predBranchMiss = true → f.pbTaken = true) := by
  rw [← layout_iff size f]
  constructor
  · rintro ⟨hlayout, hdelivered⟩
    obtain ⟨y, hy, hread⟩ := Option.map_eq_some_iff.mp hdelivered
    rw [deliver_pack f hlayout hy, Delivered.mk.injEq, shifted_eq_self_iff] at hread
    obtain ⟨htaken, htarget, -⟩ := hread
    refine ⟨hlayout, htarget, ?_⟩
    intro hmiss
    rw [htarget, hmiss, Fetched.taken, hmiss, Bool.and_true] at htaken
    exact htaken.symm
  · rintro ⟨hlayout, htarget, htaken⟩
    obtain ⟨y, hy⟩ := hlayout.pack_eq_some
    refine ⟨hlayout, ?_⟩
    rw [hy, Option.map_some, deliver_pack f hlayout hy, (shifted_eq_self_iff _ _).mpr htarget]
    -- the decision is read from the target's top bit
    have hmsb : f.predBranchTargetAdr.msb = f.taken := by
      rw [htarget, Fetched.taken]
      cases hmiss : f.predBranchMiss with
      | false => exact (Bool.and_false _).symm
      | true =>
        rw [htaken hmiss]
        rfl
    rw [hmsb]

/-- The word is not wide enough for any prediction. -/
theorem not_carries (f : Fetched) : ¬ Carries if2decSize f := by
  rw [carries_iff]
  rintro ⟨hsize, -⟩
  exact absurd hsize (by decide)

/-- A branch to 0x10054 that is predicted taken. -/
theorem not_carries_taken :
    ¬ Carries if2decSize ⟨1, 2, true, 0x10054, true, 0xFE000AE3, 0x10060, true⟩ := by
  rintro ⟨hlayout, -⟩
  rw [layout_iff] at hlayout
  exact absurd hlayout (by decide)

end FetchWord

end RiVerSoC
