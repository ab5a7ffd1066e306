/-
Which words DEC takes for an instruction and which it calls illegal.

* `encoding` — the fixed fields of every supported instruction;
* `at_most_one_flag` — two flags of DEC are never set together;
* `rejected_iff` — the reported words are the illegal ones, those of `misread` apart;
* `decodes_exactly_iff` — flags and illegality are right just off the words of `misread`.
-/
import RiVerSoC.Decode

namespace RiVerSoC

namespace Decode

/-! ### Encodings -/

/-- The instructions that have a flag `*_i_sd`. -/
inductive Mnemonic where
  | add | slt | sltu | and | or | xor | sll | srl | sub | sra
  | addi | slti | sltiu | andi | ori | xori | fence | slli | srli | srai
  | lw | lh | lhu | lb | lbu
  | beq | bne | blt | bge | bltu | bgeu
  | lui | auipc | jal | jalr
  | sw | sh | sb
  | ecall | ebreak | csrrw | csrrs | csrrc | csrrwi | csrrsi | csrrci | mret | sret
  | mul | mulh | mulhsu | mulhu | div | divu | rem | remu
deriving DecidableEq, Repr

/-- The flag of an instruction. -/
def Insts.flag (n : Insts) : Mnemonic → Bool
  | .add => n.add | .slt => n.slt | .sltu => n.sltu | .and => n.and | .or => n.or
  | .xor => n.xor | .sll => n.sll | .srl => n.srl | .sub => n.sub | .sra => n.sra
  | .addi => n.addi | .slti => n.slti | .sltiu => n.sltiu | .andi => n.andi | .ori => n.ori
  | .xori => n.xori | .fence => n.fence | .slli => n.slli | .srli => n.srli | .srai => n.srai
  | .lw => n.lw | .lh => n.lh | .lhu => n.lhu | .lb => n.lb | .lbu => n.lbu
  | .beq => n.beq | .bne => n.bne | .blt => n.blt | .bge => n.bge | .bltu => n.bltu
  | .bgeu => n.bgeu | .lui => n.lui | .auipc => n.auipc | .jal => n.jal | .jalr => n.jalr
  | .sw => n.sw | .sh => n.sh | .sb => n.sb | .ecall => n.ecall | .ebreak => n.ebreak
  | .csrrw => n.csrrw | .csrrs => n.csrrs | .csrrc => n.csrrc | .csrrwi => n.csrrwi
  | .csrrsi => n.csrrsi | .csrrci => n.csrrci | .mret => n.mret | .sret => n.sret
  | .mul => n.mul | .mulh => n.mulh | .mulhsu => n.mulhsu | .mulhu => n.mulhu
  | .div => n.div | .divu => n.divu | .rem => n.rem | .remu => n.remu

/-- The fields of a word that have a fixed value; the six fields make up the word. -/
structure Encoding where
  opcode : BitVec 7
  rd : Option (BitVec 5)
  funct3 : Option (BitVec 3)
  rs1 : Option (BitVec 5)
  rs2 : Option (BitVec 5)
  funct7 : Option (BitVec 7)
deriving DecidableEq, Repr

namespace Encoding

/-- A field that is not fixed agrees with any value. -/
def agrees {w : Nat} : Option (BitVec w) → BitVec w → Bool
  | none, _ => true
  | some v, x => x == v

def fits (e : Encoding) (ir : BitVec 32) : Bool :=
  Decode.opcode ir == e.opcode && agrees e.rd (Decode.rd ir) &&
    agrees e.funct3 (Decode.funct3 ir) && agrees e.rs1 (Decode.rs1 ir) &&
    agrees e.rs2 (Decode.rs2 ir) && agrees e.funct7 (Decode.funct7 ir)

/-- Two fields with different fixed values. -/
def differ {w : Nat} : Option (BitVec w) → Option (BitVec w) → Bool
  | some v, some v' => v != v'
  | _, _ => false

def clash (e e' : Encoding) : Bool :=
  e.opcode != e'.opcode || differ e.rd e'.rd || differ e.funct3 e'.funct3 ||
    differ e.rs1 e'.rs1 || differ e.rs2 e'.rs2 || differ e.funct7 e'.funct7

/-- Only the opcode is fixed. -/
def major (op : BitVec 7) : Encoding := ⟨op, none, none, none, none, none⟩

def minor (op : BitVec 7) (f3 : BitVec 3) : Encoding := ⟨op, none, some f3, none, none, none⟩

def full (op f7 : BitVec 7) (f3 : BitVec 3) : Encoding :=
  ⟨op, none, some f3, none, none, some f7⟩

/-- A system instruction without registers. -/
def privileged (f7 : BitVec 7) (r2 : BitVec 5) : Encoding :=
  ⟨0b1110011, some 0, some 0, some 0, some r2, some f7⟩

end Encoding

/-- The encodings of RV32IM, Zicsr and the privileged instructions. The fields of `fence`
other than the function are reserved for finer fences. -/
def encoding : Mnemonic → Encoding
  | .add => .full 0b0110011 0b0000000 0b000
  | .slt => .full 0b0110011 0b0000000 0b010
  | .sltu => .full 0b0110011 0b0000000 0b011
  | .and => .full 0b0110011 0b0000000 0b111
  | .or => .full 0b0110011 0b0000000 0b110
  | .xor => .full 0b0110011 0b0000000 0b100
  | .sll => .full 0b0110011 0b0000000 0b001
  | .srl => .full 0b0110011 0b0000000 0b101
  | .sub => .full 0b0110011 0b0100000 0b000
  | .sra => .full 0b0110011 0b0100000 0b101
  | .addi => .minor 0b0010011 0b000
  | .slti => .minor 0b0010011 0b010
  | .sltiu => .minor 0b0010011 0b011
  | .andi => .minor 0b0010011 0b111
  | .ori => .minor 0b0010011 0b110
  | .xori => .minor 0b0010011 0b100
  | .fence => .minor 0b0001111 0b000
  | .slli => .full 0b0010011 0b0000000 0b001
  | .srli => .full 0b0010011 0b0000000 0b101
  | .srai => .full 0b0010011 0b0100000 0b101
  | .lw => .minor 0b0000011 0b010
  | .lh => .minor 0b0000011 0b001
  | .lhu => .minor 0b0000011 0b101
  | .lb => .minor 0b0000011 0b000
  | .lbu => .minor 0b0000011 0b100
  | .beq => .minor 0b1100011 0b000
  | .bne => .minor 0b1100011 0b001
  | .blt => .minor 0b1100011 0b100
  | .bge => .minor 0b1100011 0b101
  | .bltu => .minor 0b1100011 0b110
  | .bgeu => .minor 0b1100011 0b111
  | .lui => .major 0b0110111
  | .auipc => .major 0b0010111
  | .jal => .major 0b1101111
  | .jalr => .minor 0b1100111 0b000
  | .sw => .minor 0b0100011 0b010
  | .sh => .minor 0b0100011 0b001
  | .sb => .minor 0b0100011 0b000
  | .ecall => .privileged 0b0000000 0b00000
  | .ebreak => .privileged 0b0000000 0b00001
  | .csrrw => .minor 0b1110011 0b001
  | .csrrs => .minor 0b1110011 0b010
  | .csrrc => .minor 0b1110011 0b011
  | .csrrwi => .minor 0b1110011 0b101
  | .csrrsi => .minor 0b1110011 0b110
  | .csrrci => .minor 0b1110011 0b111
  | .mret => .privileged 0b0011000 0b00010
  | .sret => .privileged 0b0001000 0b00010
  | .mul => .full 0b0110011 0b0000001 0b000
  | .mulh => .full 0b0110011 0b0000001 0b001
  | .mulhsu => .full 0b0110011 0b0000001 0b010
  | .mulhu => .full 0b0110011 0b0000001 0b011
  | .div => .full 0b0110011 0b0000001 0b100
  | .divu => .full 0b0110011 0b0000001 0b101
  | .rem => .full 0b0110011 0b0000001 0b110
  | .remu => .full 0b0110011 0b0000001 0b111

/-- The fields that DEC compares. -/
def compared : Mnemonic → Encoding
  | .jalr => .major 0b1100111
  | .ecall => ⟨0b1110011, none, some 0, none, some 0, some 0⟩
  | .ebreak => ⟨0b1110011, none, some 0, none, some 1, some 0⟩
  | k => encoding k

theorem not_fits_of_clash {e e' : Encoding} (h : e.clash e' = true) {ir : BitVec 32}
    (hfits : e.fits ir = true) : e'.fits ir = false := by
  have hfield : ∀ {w : Nat} {o o' : Option (BitVec w)} {x : BitVec w},
      Encoding.differ o o' = true → Encoding.agrees o x = true → Encoding.agrees o' x = false := by
    intro w o o' x hd ha
    cases o with
    | none => exact absurd hd Bool.false_ne_true
    | some v =>
      cases o' with
      | none => exact absurd hd Bool.false_ne_true
      | some v' =>
        rw [Encoding.agrees, beq_iff_eq] at ha
        rw [Encoding.differ, ← ha, bne_iff_ne] at hd
        exact beq_false_of_ne hd
  rw [Encoding.fits, Bool.and_eq_true, Bool.and_eq_true, Bool.and_eq_true, Bool.and_eq_true,
    Bool.and_eq_true, beq_iff_eq] at hfits
  obtain ⟨⟨⟨⟨⟨hop, hrd⟩, hf3⟩, hrs1⟩, hrs2⟩, hf7⟩ := hfits
  rw [Encoding.clash, Bool.or_eq_true, Bool.or_eq_true, Bool.or_eq_true, Bool.or_eq_true,
    Bool.or_eq_true, bne_iff_ne] at h
  rw [Encoding.fits]
  rcases h with ((((h | h) | h) | h) | h) | h
  · rw [hop, beq_false_of_ne h]
    rfl
  · rw [hfield h hrd]
    simp
  · rw [hfield h hf3]
    simp
  · rw [hfield h hrs1]
    simp
  · rw [hfield h hrs2]
    simp
  · rw [hfield h hf7]
    simp

/-! ### Flags -/

theorem fits_major (op : BitVec 7) (ir : BitVec 32) :
    (Encoding.major op).fits ir = (opcode ir == op) := by
  simp [Encoding.fits, Encoding.major, Encoding.agrees]

theorem fits_minor (op : BitVec 7) (f3 : BitVec 3) (ir : BitVec 32) :
    (Encoding.minor op f3).fits ir = has3 ir op f3 := by
  simp [Encoding.fits, Encoding.minor, Encoding.agrees, has3]

theorem fits_full (op f7 : BitVec 7) (f3 : BitVec 3) (ir : BitVec 32) :
    (Encoding.full op f7 f3).fits ir = has7 ir op f7 f3 := by
  simp [Encoding.fits, Encoding.full, Encoding.agrees, has7, Bool.and_assoc,
    Bool.and_comm (funct3 ir == f3)]

theorem funct12_eq (ir : BitVec 32) : funct12 ir = funct7 ir ++ rs2 ir :=
  (BitVec.extractLsb'_append_extractLsb'_eq_extractLsb' (show 25 = 20 + 5 from rfl)).symm

theorem funct12_beq (ir : BitVec 32) (f7 : BitVec 7) (r2 : BitVec 5) :
    (funct12 ir == f7 ++ r2) = (funct7 ir == f7 && rs2 ir == r2) := by
  rw [funct12_eq, Bool.eq_iff_iff, Bool.and_eq_true, beq_iff_eq, beq_iff_eq, beq_iff_eq]
  refine ⟨fun h => ⟨?_, ?_⟩, fun ⟨h, h'⟩ => by rw [h, h']⟩
  · rw [← BitVec.extractLsb'_append_eq_left (a := funct7 ir) (b := rs2 ir), h,
      BitVec.extractLsb'_append_eq_left]
  · rw [← BitVec.extractLsb'_append_eq_right (a := funct7 ir) (b := rs2 ir), h,
      BitVec.extractLsb'_append_eq_right]

/-- The fields make up the word. -/
theorem append_fields (ir : BitVec 32) :
    funct7 ir ++ rs2 ir ++ rs1 ir ++ funct3 ir ++ rd ir ++ opcode ir = ir := by
  rw [← funct12_eq, funct12, rs1, funct3, rd, opcode,
    BitVec.extractLsb'_append_extractLsb'_eq_extractLsb' (show 20 = 15 + 5 from rfl),
    BitVec.extractLsb'_append_extractLsb'_eq_extractLsb' (show 15 = 12 + 3 from rfl),
    BitVec.extractLsb'_append_extractLsb'_eq_extractLsb' (show 12 = 7 + 5 from rfl),
    BitVec.extractLsb'_append_extractLsb'_eq_extractLsb' (show 7 = 0 + 7 from rfl)]
  exact BitVec.extractLsb'_eq_self

/-- A privileged instruction is one word. -/
theorem fits_privileged {f7 : BitVec 7} {r2 : BitVec 5} {word : BitVec 32}
    (hword : (Encoding.privileged f7 r2).fits word = true) (ir : BitVec 32) :
    (Encoding.privileged f7 r2).fits ir = (ir == word) := by
  have hfields : ∀ {x : BitVec 32}, (Encoding.privileged f7 r2).fits x = true →
      f7 ++ r2 ++ 0#5 ++ 0#3 ++ 0#5 ++ 0b1110011#7 = x := by
    intro x h
    simp only [Encoding.fits, Encoding.privileged, Encoding.agrees, Bool.and_eq_true,
      beq_iff_eq] at h
    obtain ⟨⟨⟨⟨⟨hop, hrd⟩, hf3⟩, hrs1⟩, hrs2⟩, hf7⟩ := h
    rw [← append_fields x, hop, hrd, hf3, hrs1, hrs2, hf7]
    rfl
  rw [Bool.eq_iff_iff, beq_iff_eq]
  refine ⟨fun h => ?_, fun h => by rw [h, hword]⟩
  rw [← hfields h, hfields hword]

theorem fits_call (r2 : BitVec 5) (ir : BitVec 32) :
    Encoding.fits ⟨0b1110011, none, some 0, none, some r2, some 0⟩ ir =
      (has3 ir 0b1110011 0 && funct12 ir == (0 : BitVec 7) ++ r2) := by
  rw [funct12_beq, Bool.and_comm (funct7 ir == 0), ← Bool.and_assoc]
  simp [Encoding.fits, Encoding.agrees, has3]

theorem flag_eq (ir : BitVec 32) (k : Mnemonic) :
    (decodingInstruction ir).flag k = (compared k).fits ir := by
  cases k with
  | lui | auipc | jal | jalr => exact (fits_major _ ir).symm
  | addi | slti | sltiu | andi | ori | xori | fence | lw | lh | lhu | lb | lbu
  | beq | bne | blt | bge | bltu | bgeu | sw | sh | sb
  | csrrw | csrrs | csrrc | csrrwi | csrrsi | csrrci => exact (fits_minor _ _ ir).symm
  | add | slt | sltu | and | or | xor | sll | srl | sub | sra | slli | srli | srai
  | mul | mulh | mulhsu | mulhu | div | divu | rem | remu => exact (fits_full _ _ _ ir).symm
  | mret | sret => exact (fits_privileged (by decide) ir).symm
  | ecall => exact (fits_call 0 ir).symm
  | ebreak => exact (fits_call 1 ir).symm

theorem compared_clash (k k' : Mnemonic) : k = k' ∨ (compared k).clash (compared k') = true := by
  cases k <;> cases k' <;> decide

/-- Two flags are never set together. -/
theorem at_most_one_flag {ir : BitVec 32} {k k' : Mnemonic}
    (h : (decodingInstruction ir).flag k = true) (h' : (decodingInstruction ir).flag k' = true) :
    k = k' := by
  rcases compared_clash k k' with heq | hclash
  · exact heq
  · rw [flag_eq] at h h'
    rw [not_fits_of_clash hclash h] at h'
    exact absurd h' Bool.false_ne_true

/-! ### Illegal words -/

/-- `illegal_inst`, which the signals of the instruction do not affect. -/
def rejected (ir : BitVec 32) : Bool :=
  let t := decodingInstructionType ir
  !(t.r || t.i || t.u || t.m || t.s || t.b || t.jalr || t.j || t.system ||
    (decodingInstruction ir).fence) || illegalFunction ir t

/-- The words that DEC does not report although they encode no instruction: a bad function
of the R format, of an immediate shift, of a load or of `jalr`, and the other words of the
system format without a CSR. -/
def misread (ir : BitVec 32) : Bool :=
  opcode ir == 0b0110011 && (funct7 ir == 0b0100000 && funct3 ir != 0b000 && funct3 ir != 0b101) ||
  opcode ir == 0b0010011 && (funct3 ir == 0b001 && funct7 ir != 0b0000000 ||
    funct3 ir == 0b101 && funct7 ir != 0b0000000 && funct7 ir != 0b0100000) ||
  opcode ir == 0b0000011 && (funct3 ir == 0b011 || funct3 ir == 0b110 || funct3 ir == 0b111) ||
  opcode ir == 0b1100111 && funct3 ir != 0b000 ||
  opcode ir == 0b1110011 && (funct3 ir == 0b000 &&
    !((encoding .ecall).fits ir || (encoding .ebreak).fits ir || (encoding .mret).fits ir ||
      (encoding .sret).fits ir))

theorem illegalInstruction_eq (ir : BitVec 32) (s : Sources) (u : Uninit) (old : Operation)
    (hfull : s.if2decEmpty = false) :
    (postRegReadDecoding ir (decodingInstructionType ir) (decodingInstruction ir) s u
      old).illegalInstruction = rejected ir := by
  have hformat : ∀ (t : Types) (n : Insts), (operation ir t n s u old).2 =
      !(t.r || t.i || t.u || t.m || t.s || t.b || t.jalr || t.j || t.system || n.fence) := by
    intro t n
    rw [operation]
    cases t.r <;> cases t.i <;> cases t.u <;> cases t.m <;> try rfl
    cases t.s
    · cases t.b
      · cases t.jalr <;> cases t.j <;> try rfl
        cases t.system
        · cases n.fence <;> rfl
        · cases n.csr
          · cases n.ecall || n.ebreak || n.sret || n.mret <;> rfl
          · rfl
      · rfl
    · rfl
  rw [postRegReadDecoding, hformat, hfull, Bool.not_false, Bool.and_true]
  rfl

/-- Some supported instruction has this encoding. -/
def legal (ir : BitVec 32) : Prop := ∃ k : Mnemonic, (encoding k).fits ir = true

theorem legal_of_major {ir : BitVec 32} {op : BitVec 7} (hop : opcode ir = op)
    (h : ∃ k, encoding k = .major op) : legal ir := by
  obtain ⟨k, hk⟩ := h
  exact ⟨k, by rw [hk, fits_major, hop, beq_self_eq_true]⟩

theorem legal_of_minor {ir : BitVec 32} {op : BitVec 7} {f3 : BitVec 3} (hop : opcode ir = op)
    (hf3 : funct3 ir = f3) (h : ∃ k, encoding k = .minor op f3) : legal ir := by
  obtain ⟨k, hk⟩ := h
  exact ⟨k, by rw [hk, fits_minor, has3, hop, hf3, beq_self_eq_true, beq_self_eq_true]; rfl⟩

theorem legal_of_full {ir : BitVec 32} {op f7 : BitVec 7} {f3 : BitVec 3} (hop : opcode ir = op)
    (hf7 : funct7 ir = f7) (hf3 : funct3 ir = f3) (h : ∃ k, encoding k = .full op f7 f3) :
    legal ir := by
  obtain ⟨k, hk⟩ := h
  exact ⟨k, by rw [hk, fits_full, has7, hop, hf7, hf3, beq_self_eq_true, beq_self_eq_true,
    beq_self_eq_true]; rfl⟩

/-- A legal word is neither reported nor misread. -/
theorem not_rejected_of_legal {ir : BitVec 32} (h : legal ir) :
    rejected ir = false ∧ misread ir = false := by
  obtain ⟨k, hk⟩ := h
  cases k with
  | lui | auipc | jal =>
    rw [encoding, fits_major, beq_iff_eq] at hk
    simp [rejected, misread, decodingInstructionType, illegalFunction, hk]
  | addi | slti | sltiu | andi | ori | xori | fence | lw | lh | lhu | lb | lbu
  | beq | bne | blt | bge | bltu | bgeu | sw | sh | sb | jalr
  | csrrw | csrrs | csrrc | csrrwi | csrrsi | csrrci =>
    rw [encoding, fits_minor, has3, Bool.and_eq_true, beq_iff_eq, beq_iff_eq] at hk
    simp [rejected, misread, decodingInstructionType, decodingInstruction, has3,
      illegalFunction, hk.1, hk.2]
  | add | slt | sltu | and | or | xor | sll | srl | sub | sra | slli | srli | srai
  | mul | mulh | mulhsu | mulhu | div | divu | rem | remu =>
    rw [encoding, fits_full, has7, Bool.and_eq_true, Bool.and_eq_true, beq_iff_eq, beq_iff_eq,
      beq_iff_eq] at hk
    simp [rejected, misread, decodingInstructionType, illegalFunction, hk.1.1, hk.1.2, hk.2]
  | ecall | ebreak | mret | sret =>
    have hfields := hk
    simp only [encoding, Encoding.privileged, Encoding.fits, Encoding.agrees, Bool.and_eq_true,
      beq_iff_eq] at hfields
    obtain ⟨⟨⟨⟨⟨hop, -⟩, hf3⟩, -⟩, -⟩, -⟩ := hfields
    simp [rejected, misread, decodingInstructionType, illegalFunction, hop, hf3, hk]

theorem funct3_cases (f3 : BitVec 3) :
    f3 = 0 ∨ f3 = 1 ∨ f3 = 2 ∨ f3 = 3 ∨ f3 = 4 ∨ f3 = 5 ∨ f3 = 6 ∨ f3 = 7 := by
  revert f3
  decide

section Accepted

variable {ir : BitVec 32} (hr : rejected ir = false) (hm : misread ir = false)

include hr hm

theorem legal_of_register (hop : opcode ir = 0b0110011) : legal ir := by
  by_cases h1 : funct7 ir = 1
  · rcases funct3_cases (funct3 ir) with hf | hf | hf | hf | hf | hf | hf | hf
    · exact legal_of_full hop h1 hf ⟨.mul, rfl⟩
    · exact legal_of_full hop h1 hf ⟨.mulh, rfl⟩
    · exact legal_of_full hop h1 hf ⟨.mulhsu, rfl⟩
    · exact legal_of_full hop h1 hf ⟨.mulhu, rfl⟩
    · exact legal_of_full hop h1 hf ⟨.div, rfl⟩
    · exact legal_of_full hop h1 hf ⟨.divu, rfl⟩
    · exact legal_of_full hop h1 hf ⟨.rem, rfl⟩
    · exact legal_of_full hop h1 hf ⟨.remu, rfl⟩
  by_cases h0 : funct7 ir = 0
  · rcases funct3_cases (funct3 ir) with hf | hf | hf | hf | hf | hf | hf | hf
    · exact legal_of_full hop h0 hf ⟨.add, rfl⟩
    · exact legal_of_full hop h0 hf ⟨.sll, rfl⟩
    · exact legal_of_full hop h0 hf ⟨.slt, rfl⟩
    · exact legal_of_full hop h0 hf ⟨.sltu, rfl⟩
    · exact legal_of_full hop h0 hf ⟨.xor, rfl⟩
    · exact legal_of_full hop h0 hf ⟨.srl, rfl⟩
    · exact legal_of_full hop h0 hf ⟨.or, rfl⟩
    · exact legal_of_full hop h0 hf ⟨.and, rfl⟩
  have hfunct : ¬ funct7 ir = 1 → ¬ funct7 ir = 0 → funct7 ir = 0b0100000 := by
    simpa [rejected, decodingInstructionType, illegalFunction, hop] using hr
  have h32 := hfunct h1 h0
  have hsra : ¬ funct3 ir = 0 → funct3 ir = 5 := by simpa [misread, hop, h32] using hm
  by_cases hf : funct3 ir = 0
  · exact legal_of_full hop h32 hf ⟨.sub, rfl⟩
  · exact legal_of_full hop h32 (hsra hf) ⟨.sra, rfl⟩

omit hr in
theorem legal_of_immediate (hop : opcode ir = 0b0010011) : legal ir := by
  rcases funct3_cases (funct3 ir) with hf | hf | hf | hf | hf | hf | hf | hf
  · exact legal_of_minor hop hf ⟨.addi, rfl⟩
  · have h7 : funct7 ir = 0 := by simpa [misread, hop, hf] using hm
    exact legal_of_full hop h7 hf ⟨.slli, rfl⟩
  · exact legal_of_minor hop hf ⟨.slti, rfl⟩
  · exact legal_of_minor hop hf ⟨.sltiu, rfl⟩
  · exact legal_of_minor hop hf ⟨.xori, rfl⟩
  · have h7 : funct7 ir ≠ 0 → funct7 ir = 0b0100000 := by simpa [misread, hop, hf] using hm
    by_cases h0 : funct7 ir = 0
    · exact legal_of_full hop h0 hf ⟨.srli, rfl⟩
    · exact legal_of_full hop (h7 h0) hf ⟨.srai, rfl⟩
  · exact legal_of_minor hop hf ⟨.ori, rfl⟩
  · exact legal_of_minor hop hf ⟨.andi, rfl⟩

theorem legal_of_system (hop : opcode ir = 0b1110011) : legal ir := by
  rcases funct3_cases (funct3 ir) with hf | hf | hf | hf | hf | hf | hf | hf
  · by_cases hno : legal ir
    · exact hno
    have hnone : ∀ k, (encoding k).fits ir = false := fun k =>
      Bool.eq_false_iff.mpr fun h => hno ⟨k, h⟩
    exact absurd hm (by simp [misread, hop, hf, hnone])
  · exact legal_of_minor hop hf ⟨.csrrw, rfl⟩
  · exact legal_of_minor hop hf ⟨.csrrs, rfl⟩
  · exact legal_of_minor hop hf ⟨.csrrc, rfl⟩
  · exact absurd hr (by simp [rejected, decodingInstructionType, illegalFunction, hop, hf])
  · exact legal_of_minor hop hf ⟨.csrrwi, rfl⟩
  · exact legal_of_minor hop hf ⟨.csrrsi, rfl⟩
  · exact legal_of_minor hop hf ⟨.csrrci, rfl⟩

/-- A word that is neither reported nor misread is legal. -/
theorem legal_of_accepted : legal ir := by
  by_cases hreg : opcode ir = 0b0110011
  · exact legal_of_register hr hm hreg
  by_cases himm : opcode ir = 0b0010011
  · exact legal_of_immediate hm himm
  by_cases hsys : opcode ir = 0b1110011
  · exact legal_of_system hr hm hsys
  -- loads of an unassigned size are misread, stores and branches of one are reported
  by_cases hload : opcode ir = 0b0000011
  · rcases funct3_cases (funct3 ir) with hf | hf | hf | hf | hf | hf | hf | hf
    · exact legal_of_minor hload hf ⟨.lb, rfl⟩
    · exact legal_of_minor hload hf ⟨.lh, rfl⟩
    · exact legal_of_minor hload hf ⟨.lw, rfl⟩
    · exact absurd hm (by simp [misread, hload, hf])
    · exact legal_of_minor hload hf ⟨.lbu, rfl⟩
    · exact legal_of_minor hload hf ⟨.lhu, rfl⟩
    · exact absurd hm (by simp [misread, hload, hf])
    · exact absurd hm (by simp [misread, hload, hf])
  by_cases hstore : opcode ir = 0b0100011
  · have hle : ¬ 2 < funct3 ir := by
      simpa [rejected, illegalFunction, decodingInstructionType, hstore] using hr
    rcases funct3_cases (funct3 ir) with hf | hf | hf | hf | hf | hf | hf | hf
    · exact legal_of_minor hstore hf ⟨.sb, rfl⟩
    · exact legal_of_minor hstore hf ⟨.sh, rfl⟩
    · exact legal_of_minor hstore hf ⟨.sw, rfl⟩
    · exact absurd (by rw [hf]; decide) hle
    · exact absurd (by rw [hf]; decide) hle
    · exact absurd (by rw [hf]; decide) hle
    · exact absurd (by rw [hf]; decide) hle
    · exact absurd (by rw [hf]; decide) hle
  by_cases hbranch : opcode ir = 0b1100011
  · rcases funct3_cases (funct3 ir) with hf | hf | hf | hf | hf | hf | hf | hf
    · exact legal_of_minor hbranch hf ⟨.beq, rfl⟩
    · exact legal_of_minor hbranch hf ⟨.bne, rfl⟩
    · exact absurd hr (by simp [rejected, decodingInstructionType, illegalFunction, hbranch, hf])
    · exact absurd hr (by simp [rejected, decodingInstructionType, illegalFunction, hbranch, hf])
    · exact legal_of_minor hbranch hf ⟨.blt, rfl⟩
    · exact legal_of_minor hbranch hf ⟨.bge, rfl⟩
    · exact legal_of_minor hbranch hf ⟨.bltu, rfl⟩
    · exact legal_of_minor hbranch hf ⟨.bgeu, rfl⟩
  by_cases hlui : opcode ir = 0b0110111
  · exact legal_of_major hlui ⟨.lui, rfl⟩
  by_cases hauipc : opcode ir = 0b0010111
  · exact legal_of_major hauipc ⟨.auipc, rfl⟩
  by_cases hjal : opcode ir = 0b1101111
  · exact legal_of_major hjal ⟨.jal, rfl⟩
  by_cases hjalr : opcode ir = 0b1100111
  · have hf : funct3 ir = 0 := by simpa [misread, hjalr] using hm
    exact legal_of_minor hjalr hf ⟨.jalr, rfl⟩
  -- What is left is `fence`, the only instruction without a format.
  simp only [rejected, decodingInstructionType, illegalFunction, beq_false_of_ne hreg,
    beq_false_of_ne himm, beq_false_of_ne hsys, beq_false_of_ne hload, beq_false_of_ne hstore,
    beq_false_of_ne hbranch, beq_false_of_ne hlui, beq_false_of_ne hauipc, beq_false_of_ne hjal,
    beq_false_of_ne hjalr] at hr
  have hfence : opcode ir = 0b0001111 ∧ funct3 ir = 0 := by
    simpa [decodingInstruction, has3] using hr
  exact legal_of_minor hfence.1 hfence.2 ⟨.fence, rfl⟩

end Accepted

theorem not_rejected_of_misread {ir : BitVec 32} (hm : misread ir = true) :
    rejected ir = false := by
  simp only [misread, Bool.or_eq_true, Bool.and_eq_true, beq_iff_eq] at hm
  rcases hm with (((h | h) | h) | h) | h
  · simp [rejected, decodingInstructionType, illegalFunction, h.1, h.2.1.1]
  · simp [rejected, decodingInstructionType, illegalFunction, h.1]
  · simp [rejected, decodingInstructionType, illegalFunction, h.1]
  · simp [rejected, decodingInstructionType, illegalFunction, h.1]
  · simp [rejected, decodingInstructionType, illegalFunction, h.1, h.2.1]

/-- DEC reports just the illegal words, those of `misread` apart. -/
theorem rejected_iff (ir : BitVec 32) :
    (rejected ir = true ↔ ¬ legal ir) ↔ misread ir = false := by
  refine ⟨fun h => ?_, fun hm => ⟨fun hr hl => ?_, fun hl => ?_⟩⟩
  · cases hm : misread ir
    · rfl
    · have hl : ¬ legal ir := by
        intro hl
        rw [(not_rejected_of_legal hl).2] at hm
        exact Bool.false_ne_true hm
      have hr := h.mpr hl
      rw [not_rejected_of_misread hm] at hr
      exact absurd hr Bool.false_ne_true
  · rw [(not_rejected_of_legal hl).1] at hr
    exact Bool.false_ne_true hr
  · cases hr : rejected ir
    · exact absurd (legal_of_accepted hr hm) hl
    · rfl

/-- A word with the compared fields of `ecall` or `ebreak` is one of them if it is not
misread: the other two system instructions have another function. -/
theorem call_fits {ir : BitVec 32} (hm : misread ir = false) {k : Mnemonic}
    (hk : k = .ecall ∨ k = .ebreak) (hop : opcode ir = 0b1110011) (hf3 : funct3 ir = 0)
    (hfits : (compared k).fits ir = true) : (encoding k).fits ir = true := by
  have hother : ∀ k', (compared k).clash (encoding k') = true → (encoding k').fits ir = false :=
    fun _ hclash => not_fits_of_clash hclash hfits
  rcases hk with rfl | rfl
  · simpa [misread, hop, hf3, hother .ebreak (by decide), hother .mret (by decide),
      hother .sret (by decide)] using hm
  · simpa [misread, hop, hf3, hother .ecall (by decide), hother .mret (by decide),
      hother .sret (by decide)] using hm

/-- Off the words of `misread`, DEC compares all that is fixed. -/
theorem compared_fits {ir : BitVec 32} (hm : misread ir = false) (k : Mnemonic) :
    (compared k).fits ir = true ↔ (encoding k).fits ir = true := by
  cases k with
  | jalr =>
    rw [compared, encoding, fits_major, fits_minor, has3, Bool.and_eq_true]
    refine ⟨fun h => ⟨h, ?_⟩, fun h => h.1⟩
    rw [beq_iff_eq] at h
    simpa [misread, h] using hm
  | ecall | ebreak =>
    refine ⟨fun h => ?_, fun h => ?_⟩
    · have hfields := h
      simp only [compared, Encoding.fits, Encoding.agrees, Bool.and_eq_true, beq_iff_eq] at hfields
      exact call_fits hm (by decide) hfields.1.1.1.1.1 hfields.1.1.1.2 h
    · simp only [encoding, Encoding.privileged, Encoding.fits, Encoding.agrees, Bool.and_eq_true,
        beq_iff_eq] at h
      obtain ⟨⟨⟨⟨⟨hop, -⟩, hf3⟩, -⟩, hrs2⟩, hf7⟩ := h
      simp [compared, Encoding.fits, Encoding.agrees, hop, hf3, hrs2, hf7]
  | _ => exact Iff.rfl

/-! ### The decoder -/

/-- At most one flag is set, that of the instruction whose encoding the word has; the word
is reported if there is none. -/
structure DecodesExactly (ir : BitVec 32) (s : Sources) (u : Uninit) (old : Operation) : Prop where
  unique : ∀ k k' : Mnemonic, (decodingInstruction ir).flag k = true →
    (decodingInstruction ir).flag k' = true → k = k'
  flags : ∀ k : Mnemonic, (decodingInstruction ir).flag k = true ↔ (encoding k).fits ir = true
  illegal : (postRegReadDecoding ir (decodingInstructionType ir) (decodingInstruction ir) s u
    old).illegalInstruction = true ↔ ¬ legal ir

/-- The words that DEC decodes exactly. -/
theorem decodes_exactly_iff (ir : BitVec 32) (s : Sources) (u : Uninit) (old : Operation)
    (hfull : s.if2decEmpty = false) : DecodesExactly ir s u old ↔ misread ir = false := by
  refine ⟨fun h => ?_, fun hm => ⟨fun k k' => at_most_one_flag, fun k => ?_, ?_⟩⟩
  · rw [← rejected_iff, ← illegalInstruction_eq ir s u old hfull]
    exact h.illegal
  · rw [flag_eq, compared_fits hm]
  · rw [illegalInstruction_eq ir s u old hfull]
    exact (rejected_iff ir).mpr hm

/-- `addi x0, x0, 0`. -/
theorem decodes_exactly_nop : DecodesExactly 0x00000013 default default default :=
  (decodes_exactly_iff 0x00000013 default default default rfl).mpr (by decide)

/-- The opcode of `jalr` with the function 1 encodes nothing, but sets the flag of `jalr`. -/
theorem not_decodes_exactly_jalr : ¬ DecodesExactly 0x00001067 default default default := by
  intro h
  have hfits : (encoding .jalr).fits 0x00001067 = true := (h.flags .jalr).mp (by decide)
  exact absurd hfits (by decide)

end Decode

end RiVerSoC
