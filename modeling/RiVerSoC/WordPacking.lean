/-
The pipeline words as bit vectors.

`concat_dec2exe`, `concat_dec2if`, `fifo_concat` and `mem2wbk_concat` assign the fields of a word
by literal indices, and other processes read them back by literal indices.  The fields below are
listed in the order of the assignments.  One range is written and read with its bounds reversed,
and two are not as wide as their signals: MEM2WBK has 5 bits for a destination of 6, and 36 bits
for the PC.  Under an exception the same ranges are assigned, with the values of a NOP.

* `Carried` — the fields lie inside the FIFO's width, share no bit, and are read back;
* `carried_dec2exe`, `carried_dec2if`, `carried_exe2mem`, `carried_mem2wbk` — the four words;
* `carried_words` — all of them.
-/
import RiVerSoC.BitFields
import RiVerSoC.StageWords

namespace RiVerSoC

namespace WordPacking

open BitFields

def dec2exeSize : ℕ := 253

def dec2ifSize : ℕ := 134

def exe2memSize : ℕ := 200

def mem2wbkSize : ℕ := 108

/-- What `concat_dec2if` packs for IFETCH. -/
structure Dec2If where
  pushAdrRas : Bool
  popAdrRas : Bool
  returnAdr : BitVec 32
  retInst : Bool
  predFailed : Bool
  predSuccess : Bool
  instrIsBranch : Bool
  branchInstAdr : BitVec 32
  branchTargetAdr : BitVec 32
  pc : BitVec 32
deriving DecidableEq, Repr, Inhabited

/-- The signals that `mem2wbk_concat` packs and `mem2wbk_unconcat` writes. -/
structure MemSignals where
  memRes : BitVec 32
  dest : BitVec 6
  wb : Bool
  pc : BitVec 32
  csrWenable : Bool
  csrRdata : BitVec 32
  multInst : Bool
deriving DecidableEq, Repr, Inhabited

/-! ### The four words -/

/-- `concat_dec2exe`. -/
def concatDec2exe (w : Dec2Exe) : List Assign :=
  [bit 252 w.csrrcI, range 251 220 w.pcBranchValue, bit 219 w.multInst, bit 218 w.ebreak,
    bit 217 w.instructionAccessFault, bit 216 w.mret, bit 215 w.blockBp, bit 214 w.exception,
    bit 213 w.envCallWrongMode, bit 212 w.envCallUMode, bit 211 w.illegalInstruction,
    bit 210 w.adressMissaligned, bit 209 w.envCallMMode, bit 208 w.envCallSMode,
    range 207 176 w.csrRdata, bit 175 w.csrWenable, range 174 163 w.csrWadr, range 162 131 w.pc,
    bit 130 w.r1Valid, bit 129 w.r2Valid, range 128 123 w.radr1, range 122 117 w.radr2,
    range 116 115 w.exeCmd, range 114 83 w.op1, range 82 51 w.op2, bit 50 w.negOp2, bit 49 w.wb,
    range 48 17 w.memData, bit 16 w.memLoad, bit 15 w.memStore, bit 14 w.memSignExtend,
    range 13 12 w.memSize, range 11 8 w.selectTypeOperations, range 7 2 w.dest, bit 1 w.slt,
    bit 0 w.sltu]

def unconcatDec2exe (x : BitVec dec2exeSize) : Dec2Exe where
  csrrcI := readBit x 252
  pcBranchValue := read x ⟨251, 220⟩ 32
  multInst := readBit x 219
  ebreak := readBit x 218
  instructionAccessFault := readBit x 217
  mret := readBit x 216
  blockBp := readBit x 215
  exception := readBit x 214
  envCallWrongMode := readBit x 213
  envCallUMode := readBit x 212
  illegalInstruction := readBit x 211
  adressMissaligned := readBit x 210
  envCallMMode := readBit x 209
  envCallSMode := readBit x 208
  csrRdata := read x ⟨207, 176⟩ 32
  csrWenable := readBit x 175
  csrWadr := read x ⟨174, 163⟩ 12
  pc := read x ⟨162, 131⟩ 32
  r1Valid := readBit x 130
  r2Valid := readBit x 129
  radr1 := read x ⟨128, 123⟩ 6
  radr2 := read x ⟨122, 117⟩ 6
  exeCmd := read x ⟨116, 115⟩ 2
  op1 := read x ⟨114, 83⟩ 32
  op2 := read x ⟨82, 51⟩ 32
  negOp2 := readBit x 50
  wb := readBit x 49
  memData := read x ⟨48, 17⟩ 32
  memLoad := readBit x 16
  memStore := readBit x 15
  memSignExtend := readBit x 14
  memSize := read x ⟨13, 12⟩ 2
  selectTypeOperations := read x ⟨11, 8⟩ 4
  dest := read x ⟨7, 2⟩ 6
  slt := readBit x 1
  sltu := readBit x 0

/-- `concat_dec2if`. -/
def concatDec2if (w : Dec2If) : List Assign :=
  [bit 133 w.pushAdrRas, bit 132 w.popAdrRas, range 131 100 w.returnAdr, bit 99 w.retInst,
    bit 98 w.predFailed, bit 97 w.predSuccess, bit 96 w.instrIsBranch,
    range 95 64 w.branchInstAdr, range 63 32 w.branchTargetAdr, range 31 0 w.pc]

def unconcatDec2if (x : BitVec dec2ifSize) : Dec2If where
  pushAdrRas := readBit x 133
  popAdrRas := readBit x 132
  returnAdr := read x ⟨131, 100⟩ 32
  retInst := readBit x 99
  predFailed := readBit x 98
  predSuccess := readBit x 97
  instrIsBranch := readBit x 96
  branchInstAdr := read x ⟨95, 64⟩ 32
  branchTargetAdr := read x ⟨63, 32⟩ 32
  pc := read x ⟨31, 0⟩ 32

/-- EXE's `fifo_concat`. -/
def fifoConcat (w : Exe2Mem) : List Assign :=
  [range 31 0 w.exeRes, range 63 32 w.memData, range 69 64 w.dest, range 71 70 w.memSize,
    bit 72 w.wb, bit 73 w.memLoad, bit 74 w.memStore, bit 75 w.memSignExtend,
    range 107 76 w.pc, bit 108 w.csrWenable, range 120 109 w.csrWadr, range 152 121 w.csrRdata,
    bit 153 w.envCallSMode, bit 154 w.envCallWrongMode, bit 155 w.illegalInstruction,
    bit 156 w.instructionAdressMissaligned, bit 157 w.envCallUMode, bit 158 w.envCallMMode,
    bit 159 w.exception, bit 160 w.loadAdressMissaligned, bit 161 w.loadAccessFault,
    bit 162 w.mret, bit 163 w.storeAdressMissaligned, bit 164 w.storeAccessFault,
    bit 165 w.instructionAccessFault, bit 166 w.ebreak, bit 167 w.multInst,
    range 168 199 w.pcBranchValue]

/-- EXE's `fifo_unconcat`. -/
def fifoUnconcat (x : BitVec exe2memSize) : Exe2Mem where
  exeRes := read x ⟨31, 0⟩ 32
  memData := read x ⟨63, 32⟩ 32
  dest := read x ⟨69, 64⟩ 6
  memSize := read x ⟨71, 70⟩ 2
  wb := readBit x 72
  memLoad := readBit x 73
  memStore := readBit x 74
  memSignExtend := readBit x 75
  pc := read x ⟨107, 76⟩ 32
  csrWenable := readBit x 108
  csrWadr := read x ⟨120, 109⟩ 12
  csrRdata := read x ⟨152, 121⟩ 32
  envCallSMode := readBit x 153
  envCallWrongMode := readBit x 154
  illegalInstruction := readBit x 155
  instructionAdressMissaligned := readBit x 156
  envCallUMode := readBit x 157
  envCallMMode := readBit x 158
  exception := readBit x 159
  loadAdressMissaligned := readBit x 160
  loadAccessFault := readBit x 161
  mret := readBit x 162
  storeAdressMissaligned := readBit x 163
  storeAccessFault := readBit x 164
  instructionAccessFault := readBit x 165
  ebreak := readBit x 166
  multInst := readBit x 167
  pcBranchValue := read x ⟨168, 199⟩ 32

/-- `mem2wbk_concat`. -/
def mem2wbkConcat (w : MemSignals) : List Assign :=
  [range 31 0 w.memRes, range 36 32 w.dest, bit 37 w.wb, range 73 38 w.pc, bit 74 w.csrWenable,
    range 106 75 w.csrRdata, bit 107 w.multInst]

def mem2wbkUnconcat (x : BitVec mem2wbkSize) : MemSignals where
  memRes := read x ⟨31, 0⟩ 32
  dest := read x ⟨36, 32⟩ 6
  wb := readBit x 37
  pc := read x ⟨73, 38⟩ 32
  csrWenable := readBit x 74
  csrRdata := read x ⟨106, 75⟩ 32
  multInst := readBit x 107

/-! ### What they carry -/

/-- The assignments fill a word of `size` bits, none over another, and reading the word gives
back the fields. -/
structure Carried {W : Type} (size : ℕ) (fields : List Assign) (unconcat : BitVec size → W)
    (w : W) : Prop where
  layout : Layout size (fields.map Assign.range)
  back : (pack 0 fields).map unconcat = some w

/-- What a word that holds the fields is read as. -/
structure Reads {size : ℕ} (y : BitVec size) (fields : List Assign) : Prop where
  bits : ∀ i b, bit i b ∈ fields → readBit y i = b
  ranges : ∀ {n : ℕ} (l r : ℕ) (v : BitVec n), range l r v ∈ fields →
    v.toNat < 2 ^ (Range.mk l r).width → read y ⟨l, r⟩ n = v

theorem carried_of_reads {W : Type} {size : ℕ} {fields : List Assign}
    {unconcat : BitVec size → W} {w : W} (hlayout : Layout size (fields.map Assign.range))
    (h : ∀ y, Reads y fields → unconcat y = w) : Carried size fields unconcat w := by
  refine ⟨hlayout, ?_⟩
  obtain ⟨y, hy⟩ := hlayout.pack_eq_some
  rw [hy, Option.map_some]
  refine congrArg some (h y ⟨?_, ?_⟩)
  · intro i b hb
    exact readBit_pack hy hlayout.disjoint hb
  · intro n l r v hv hfits
    exact read_pack hy hlayout.disjoint hv hfits

-- the ranges do not depend on the values: each layout is that of one word

theorem carried_dec2exe (w : Dec2Exe) :
    Carried dec2exeSize (concatDec2exe w) unconcatDec2exe w := by
  refine carried_of_reads ?_ ?_
  · change Layout dec2exeSize ((concatDec2exe default).map Assign.range)
    exact ⟨by decide +kernel, by decide +kernel⟩
  · rintro y ⟨hbits, hranges⟩
    cases w
    simp only [unconcatDec2exe, Dec2Exe.mk.injEq]
    and_intros <;> first
      | exact hbits _ _ (by simp [concatDec2exe])
      | exact hranges _ _ _ (by simp [concatDec2exe]) (BitVec.isLt _)

theorem carried_dec2if (w : Dec2If) :
    Carried dec2ifSize (concatDec2if w) unconcatDec2if w := by
  refine carried_of_reads ?_ ?_
  · change Layout dec2ifSize ((concatDec2if default).map Assign.range)
    exact ⟨by decide +kernel, by decide +kernel⟩
  · rintro y ⟨hbits, hranges⟩
    cases w
    simp only [unconcatDec2if, Dec2If.mk.injEq]
    and_intros <;> first
      | exact hbits _ _ (by simp [concatDec2if])
      | exact hranges _ _ _ (by simp [concatDec2if]) (BitVec.isLt _)

theorem carried_exe2mem (w : Exe2Mem) :
    Carried exe2memSize (fifoConcat w) fifoUnconcat w := by
  refine carried_of_reads ?_ ?_
  · change Layout exe2memSize ((fifoConcat default).map Assign.range)
    exact ⟨by decide +kernel, by decide +kernel⟩
  · rintro y ⟨hbits, hranges⟩
    cases w
    simp only [fifoUnconcat, Exe2Mem.mk.injEq]
    and_intros <;> first
      | exact hbits _ _ (by simp [fifoConcat])
      | exact hranges _ _ _ (by simp [fifoConcat]) (BitVec.isLt _)

theorem carried_mem2wbk (w : MemSignals) (hdest : w.dest < 32) :
    Carried mem2wbkSize (mem2wbkConcat w) mem2wbkUnconcat w := by
  refine carried_of_reads ?_ ?_
  · change Layout mem2wbkSize ((mem2wbkConcat default).map Assign.range)
    exact ⟨by decide +kernel, by decide +kernel⟩
  · rintro y ⟨hbits, hranges⟩
    -- the range of the PC is wider than a PC, and that of the destination one bit narrower
    have hpc : w.pc.toNat < 2 ^ 36 := Nat.lt_of_lt_of_le w.pc.isLt (by decide)
    cases w
    simp only [mem2wbkUnconcat, MemSignals.mk.injEq]
    and_intros <;> first
      | exact hbits _ _ (by simp [mem2wbkConcat])
      | exact hranges _ _ _ (by simp [mem2wbkConcat]) (BitVec.isLt _)
      | exact hranges _ _ _ (by simp [mem2wbkConcat]) hpc
      | exact hranges _ _ _ (by simp [mem2wbkConcat]) hdest

/-- The four words are packed without loss. -/
theorem carried_words (d : Dec2Exe) (f : Dec2If) (e : Exe2Mem) (m : MemSignals)
    (hdest : m.dest < 32) :
    Carried dec2exeSize (concatDec2exe d) unconcatDec2exe d ∧
      Carried dec2ifSize (concatDec2if f) unconcatDec2if f ∧
      Carried exe2memSize (fifoConcat e) fifoUnconcat e ∧
      Carried mem2wbkSize (mem2wbkConcat m) mem2wbkUnconcat m :=
  ⟨carried_dec2exe d, carried_dec2if f, carried_exe2mem e, carried_mem2wbk m hdest⟩

theorem carried_words_x31 :
    let m : MemSignals := { (default : MemSignals) with memRes := 7, dest := 31, wb := true }
    Carried dec2exeSize (concatDec2exe default) unconcatDec2exe default ∧
      Carried dec2ifSize (concatDec2if default) unconcatDec2if default ∧
      Carried exe2memSize (fifoConcat default) fifoUnconcat default ∧
      Carried mem2wbkSize (mem2wbkConcat m) mem2wbkUnconcat m :=
  carried_words default default default _ (by decide)

end WordPacking

end RiVerSoC
