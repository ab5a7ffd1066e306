/-
Data accesses of the memory stage.

`memPreprocess` and `signExtend` embed the two methods of `mem.cpp` that build a
request and read its answer, `ramStore` the byte masking that `core_tb.cpp`
applies when there is no data cache.  Both methods of MEM cut the lane out of a
word with the same two tables, `rangeStart` and `rangeSize`, but decode different
address bits to enter the first one.
-/
import Mathlib.Logic.Function.Basic
import RiVerSoC.BitRange
import RiVerSoC.StageWords

namespace RiVerSoC

/-- Memory slot selection: the first bit of the lane. -/
def rangeStart : ℕ → ℕ
  | 0 => 0
  | 1 => 8
  | 2 => 16
  | 3 => 24
  | _ => 0

/-- Size of the data manipulated: the last bit of a lane that starts at 0. -/
def rangeSize (memSize : BitVec 2) : ℕ :=
  match memSize.toNat with
  | 2 => 7  -- byte
  | 1 => 15  -- half word
  | 0 => 31  -- word
  | _ => 31

/-- The request that MEM presents to the memory side. -/
structure McacheRequest where
  data : BitVec 32
  adr : BitVec 32
  load : Bool
  store : Bool
  adrValid : Bool
  memSize : BitVec 2
  wb : Bool
deriving DecidableEq, Repr

/-- The data half of `mem_preprocess`: the store data moved into its lane. -/
def storeData (w : Exe2Mem) : BitVec 32 :=
  let din := w.memData
  let start := rangeStart (w.exeRes.extractLsb' 0 2).toNat
  let size := rangeSize w.memSize
  let last := min 31 (start + size)
  let dout := if w.memSignExtend && din.getLsbD last then BitVec.allOnes 32 else 0
  BitRange.set dout last start (BitRange.get din size 0)

def memPreprocess (w : Exe2Mem) (exe2memEmpty multInstRm : Bool) : McacheRequest where
  data := storeData w
  adr := if w.memStore then w.exeRes else w.exeRes &&& 0xFFFFFFFC#32
  load := w.memLoad
  store := w.memStore
  adrValid := !exe2memEmpty || !multInstRm
  memSize := w.memSize
  wb := w.wb || w.memLoad

/-- What `sign_extend` cuts out of the word that the memory answers. -/
def loadData (w : Exe2Mem) (mcacheResult : BitVec 32) : BitVec 32 :=
  let din := mcacheResult
  let start := rangeStart (w.exeRes.extractLsb' 0 3).toNat
  let size := rangeSize w.memSize
  let last := min 31 (start + size)
  let dout := if w.memSignExtend && din.getLsbD last then BitVec.allOnes 32 else 0
  BitRange.set dout size 0 (BitRange.get din last start)

/-- The value of `data_sm`. -/
def signExtend (w : Exe2Mem) (mcacheResult : BitVec 32) : BitVec 32 :=
  if w.memLoad then loadData w mcacheResult else w.exeRes

/-! ### The memory side of `core_tb` without data cache -/

/-- The RAM, a word for every word address. -/
abbrev Ram := BitVec 32 → BitVec 32

/-- The address of the word that holds the byte at `a`. -/
def wordAdr (a : BitVec 32) : BitVec 32 := a &&& 0xFFFFFFFC#32

/-- The word that `core_tb` writes back for a store on the lane `maskAdr`. -/
def maskStore (memSize : BitVec 2) (maskAdr : ℕ) (temporaryValue memData : BitVec 32) :
    BitVec 32 :=
  match memSize.toNat with
  | 2 =>
    match maskAdr with
    | 0 => (0xFFFFFF00#32 &&& temporaryValue) ||| (memData &&& 0x000000FF#32)
    | 1 => (0xFFFF00FF#32 &&& temporaryValue) ||| (memData &&& 0x0000FF00#32)
    | 2 => (0xFF00FFFF#32 &&& temporaryValue) ||| (memData &&& 0x00FF0000#32)
    | 3 => (0x00FFFFFF#32 &&& temporaryValue) ||| (memData &&& 0xFF000000#32)
    | _ => temporaryValue
  | 1 =>
    match maskAdr with
    | 0 => (0xFFFF0000#32 &&& temporaryValue) ||| (memData &&& 0x0000FFFF#32)
    | 2 => (0x0000FFFF#32 &&& temporaryValue) ||| (memData &&& 0xFFFF0000#32)
    | _ => temporaryValue
  | _ => memData

/-- One activation of the memory access part of `core_tb`: the RAM after it and
the word put on `MEM_RESULT`. -/
def ramAccess (ram : Ram) (req : McacheRequest) : Ram × BitVec 32 :=
  let memAdr := wordAdr req.adr
  let ram' : Ram :=
    if req.store && req.adrValid then
      Function.update ram memAdr
        (maskStore req.memSize (req.adr &&& 3#32).toNat (ram memAdr) req.data)
    else ram
  (ram', ram' memAdr)

/-- The loop serves the request of a cycle twice, in the middle and at the end. -/
def ramCycle (ram : Ram) (req : McacheRequest) : Ram × BitVec 32 :=
  ramAccess (ramAccess ram req).1 req

/-- The byte at `a`. -/
def byteAt (ram : Ram) (a : BitVec 32) : BitVec 8 :=
  (ram (wordAdr a)).extractLsb' (8 * (a &&& 3#32).toNat) 8

/-! ### A request that is served again -/

section Ram

variable (ram : Ram) (req : McacheRequest)

/-- A store keeps the bits of one mask and takes those of another. -/
theorem maskStore_masks (size : BitVec 2) (k : ℕ) : ∃ keep take : BitVec 32, keep &&& take = 0 ∧
    ∀ old data, maskStore size k old data = (keep &&& old) ||| (data &&& take) := by
  have hkeep : ∀ old data : BitVec 32, old = (BitVec.allOnes 32 &&& old) ||| (data &&& 0#32) := by
    intro old data
    rw [BitVec.allOnes_and, BitVec.and_zero, BitVec.or_zero]
  have htake : ∀ old data : BitVec 32, data = (0#32 &&& old) ||| (data &&& BitVec.allOnes 32) := by
    intro old data
    rw [BitVec.and_allOnes, BitVec.zero_and, BitVec.zero_or]
  unfold maskStore
  generalize size.toNat = n
  split
  · split
    · exact ⟨_, _, by decide, fun _ _ => rfl⟩
    · exact ⟨_, _, by decide, fun _ _ => rfl⟩
    · exact ⟨_, _, by decide, fun _ _ => rfl⟩
    · exact ⟨_, _, by decide, fun _ _ => rfl⟩
    · exact ⟨_, _, by decide, hkeep⟩
  · split
    · exact ⟨_, _, by decide, fun _ _ => rfl⟩
    · exact ⟨_, _, by decide, fun _ _ => rfl⟩
    · exact ⟨_, _, by decide, hkeep⟩
  · exact ⟨_, _, by decide, htake⟩

theorem maskStore_maskStore (size : BitVec 2) (k : ℕ) (old data : BitVec 32) :
    maskStore size k (maskStore size k old data) data = maskStore size k old data := by
  obtain ⟨keep, take, hdisjoint, hmask⟩ := maskStore_masks size k
  rw [hmask, hmask]
  -- what a mask lets through the first time it lets through again
  apply BitVec.eq_of_getLsbD_eq
  intro j _
  have hbit : (keep &&& take).getLsbD j = false := by rw [hdisjoint]; simp
  rw [BitVec.getLsbD_and] at hbit
  simp only [BitVec.getLsbD_or, BitVec.getLsbD_and]
  cases hk : keep.getLsbD j <;> cases ht : take.getLsbD j <;> simp_all

/-- A request that is served again changes nothing. -/
theorem ramAccess_ramAccess :
    ramAccess (ramAccess ram req).1 req = ramAccess ram req := by
  unfold ramAccess
  by_cases hs : (req.store && req.adrValid) = true
  · simp only [if_pos hs, Function.update_self, Function.update_idem, maskStore_maskStore]
  · simp only [if_neg hs]

theorem ramCycle_eq : ramCycle ram req = ramAccess ram req :=
  ramAccess_ramAccess ram req

/-- Without a valid address the RAM stays as it is. -/
theorem ramAccess_of_not_valid (h : req.adrValid = false) : (ramAccess ram req).1 = ram := by
  simp [ramAccess, h]

end Ram

end RiVerSoC
