/-
The first stage of the multiplier.

`operation` forms the partial products, the methods `CSA_1` … `CSA_27` add them in
five carry-save stages, and `fifo_concat` packs what is left.  The rows of the
adders form a `Netlist`; only `fifo_concat` reads a row, `product_s3[9]`, that does
not wake it.

* `apply_rows` — the rows settle on the values of the last inputs;
* `apply_din` — the packed word is the one of the last inputs, but for the copy of
  `product_s3[9]`, which is the old one unless a row of stage 5 moved;
* `each_fresh_iff` — the packed words of a sequence of inputs are all those of their
  own inputs exactly when each input that changes `product_s3[9]` moves stage 5.
-/
import Mathlib.Data.List.Chain
import Mathlib.Data.Fintype.Basic
import Mathlib.Tactic.FinCases
import RiVerSoC.Delta
import RiVerSoC.Netlist
import RiVerSoC.Run

namespace RiVerSoC

namespace X0Multiplier

/-- The operands and the command. -/
structure Inputs where
  op1 : BitVec 32
  op2 : BitVec 32
  exeCmd : BitVec 2
deriving DecidableEq, Repr, Inhabited

/-- The signals that carry 64-bit rows. -/
inductive Row where
  | product (i : Fin 32)
  | productS1 (i : Fin 20)
  | productS2 (i : Fin 14)
  | productS3 (i : Fin 10)
  | productS4 (i : Fin 6)
  | productS5 (i : Fin 4)
deriving DecidableEq, Repr

/-! ### Partial products -/

/-- The operands of the product and the flag of the sign extension, as `operation`
leaves them. -/
def operands (i : Inputs) : BitVec 32 × BitVec 32 × Bool :=
  let signedType := i.exeCmd != 3
  if i.exeCmd = 2 ∨ i.exeCmd = 1 then
    if i.op1.msb && i.op2.msb then (~~~i.op1 + 1, ~~~i.op2 + 1, false)
    else if !i.op1.msb && i.op2.msb then (i.op2, i.op1, signedType)
    else (i.op1, i.op2, signedType)
  else (i.op1, i.op2, signedType)

/-- The partial product of bit `k`. -/
def prod (op1 op2 : BitVec 32) (signedType : Bool) (k : Fin 32) : BitVec 64 :=
  if op2.getLsbD k then
    op1.setWidth 64 <<< k.val |||
      if signedType && op1.msb then BitVec.allOnes 64 <<< (k.val + 32) else 0
  else 0

def selectHigherBits (i : Inputs) : Bool := i.exeCmd != 1

/-! ### Carry-save adders -/

/-- The sum and the carries of three rows. -/
def csa (a b c : BitVec 64) : BitVec 64 × BitVec 64 :=
  let xor := a ^^^ b
  (xor ^^^ c, ((a &&& b) ||| (xor &&& c)) <<< 1)

/-- One of the methods: the rows that it reads and listens to, and the two that it
writes. -/
structure Csa where
  a : Row
  b : Row
  c : Row
  sum : Row
  shf : Row
deriving DecidableEq, Repr

-- stage 1
def csa1 : Csa := ⟨.product 0, .product 1, .product 2, .productS1 0, .productS1 1⟩
def csa2 : Csa := ⟨.product 3, .product 4, .product 5, .productS1 2, .productS1 3⟩
def csa3 : Csa := ⟨.product 6, .product 7, .product 8, .productS1 4, .productS1 5⟩
def csa4 : Csa := ⟨.product 9, .product 10, .product 11, .productS1 6, .productS1 7⟩
def csa5 : Csa := ⟨.product 12, .product 13, .product 14, .productS1 8, .productS1 9⟩
def csa6 : Csa := ⟨.product 15, .product 16, .product 17, .productS1 10, .productS1 11⟩
def csa7 : Csa := ⟨.product 18, .product 19, .product 20, .productS1 12, .productS1 13⟩
def csa8 : Csa := ⟨.product 21, .product 22, .product 23, .productS1 14, .productS1 15⟩
def csa9 : Csa := ⟨.product 24, .product 25, .product 26, .productS1 16, .productS1 17⟩
def csa10 : Csa := ⟨.product 27, .product 28, .product 29, .productS1 18, .productS1 19⟩

-- stage 2
def csa11 : Csa := ⟨.productS1 0, .productS1 1, .productS1 2, .productS2 0, .productS2 1⟩
def csa12 : Csa := ⟨.productS1 3, .productS1 4, .productS1 5, .productS2 2, .productS2 3⟩
def csa13 : Csa := ⟨.productS1 6, .productS1 7, .productS1 8, .productS2 4, .productS2 5⟩
def csa14 : Csa := ⟨.productS1 9, .productS1 10, .productS1 11, .productS2 6, .productS2 7⟩
def csa15 : Csa := ⟨.productS1 12, .productS1 13, .productS1 14, .productS2 8, .productS2 9⟩
def csa16 : Csa := ⟨.productS1 15, .productS1 16, .productS1 17, .productS2 10, .productS2 11⟩
def csa17 : Csa := ⟨.productS1 18, .productS1 19, .product 30, .productS2 12, .productS2 13⟩

-- stage 3
def csa18 : Csa := ⟨.productS2 0, .productS2 1, .productS2 2, .productS3 0, .productS3 1⟩
def csa19 : Csa := ⟨.productS2 3, .productS2 4, .productS2 5, .productS3 2, .productS3 3⟩
def csa20 : Csa := ⟨.productS2 6, .productS2 7, .productS2 8, .productS3 4, .productS3 5⟩
def csa21 : Csa := ⟨.productS2 9, .productS2 10, .productS2 11, .productS3 6, .productS3 7⟩
def csa22 : Csa := ⟨.productS2 12, .productS2 13, .product 31, .productS3 8, .productS3 9⟩

-- stage 4
def csa23 : Csa := ⟨.productS3 0, .productS3 1, .productS3 2, .productS4 0, .productS4 1⟩
def csa24 : Csa := ⟨.productS3 3, .productS3 4, .productS3 5, .productS4 2, .productS4 3⟩
def csa25 : Csa := ⟨.productS3 6, .productS3 7, .productS3 8, .productS4 4, .productS4 5⟩

-- stage 5
def csa26 : Csa := ⟨.productS4 0, .productS4 1, .productS4 2, .productS5 0, .productS5 1⟩
def csa27 : Csa := ⟨.productS4 3, .productS4 4, .productS4 5, .productS5 2, .productS5 3⟩

def csas : List Csa :=
  [csa1, csa2, csa3, csa4, csa5, csa6, csa7, csa8, csa9, csa10, csa11, csa12, csa13, csa14,
    csa15, csa16, csa17, csa18, csa19, csa20, csa21, csa22, csa23, csa24, csa25, csa26, csa27]

/-- The method that writes a row; `operation` writes the others. -/
def driver (r : Row) : Option Csa := csas.find? fun m => m.sum = r ∨ m.shf = r

def reads (r : Row) : List Row :=
  match driver r with
  | some m => [m.a, m.b, m.c]
  | none => []

/-- What the method that drives a row writes to it. -/
def cell (r : Row) (i : Inputs) (ρ : Row → BitVec 64) : BitVec 64 :=
  match driver r with
  | some m => if m.sum = r then (csa (ρ m.a) (ρ m.b) (ρ m.c)).1 else (csa (ρ m.a) (ρ m.b) (ρ m.c)).2
  | none =>
    match r with
    | .product k => prod (operands i).1 (operands i).2.1 (operands i).2.2 k
    | _ => 0

/-- The stage that writes a row. -/
def level : Row → ℕ
  | .product _ => 0
  | .productS1 _ => 1
  | .productS2 _ => 2
  | .productS3 _ => 3
  | .productS4 _ => 4
  | .productS5 _ => 5

/-- The shortest path to a row: `product[30]` and `product[31]` enter stages 2 and 3. -/
def earliest : Row → ℕ
  | .product _ => 0
  | .productS1 _ => 1
  | .productS2 k => if 12 ≤ k then 1 else 2
  | .productS3 k => if 8 ≤ k then 1 else 3
  | .productS4 k => if 4 ≤ k then 2 else 4
  | .productS5 k => if 2 ≤ k then 3 else 5

theorem reads_level : ∀ r, ∀ q ∈ reads r, level q < level r
  | .product k => by revert k; decide
  | .productS1 k => by revert k; decide
  | .productS2 k => by revert k; decide
  | .productS3 k => by revert k; decide
  | .productS4 k => by revert k; decide
  | .productS5 k => by revert k; decide

theorem reads_earliest : ∀ r, ∀ q ∈ reads r, earliest r ≤ earliest q + 1
  | .product k => by revert k; decide
  | .productS1 k => by revert k; decide
  | .productS2 k => by revert k; decide
  | .productS3 k => by revert k; decide
  | .productS4 k => by revert k; decide
  | .productS5 k => by revert k; decide

theorem reads_source : ∀ r, reads r = [] → earliest r = 0
  | .product _ => fun _ => rfl
  | .productS1 k => by revert k; decide
  | .productS2 k => by revert k; decide
  | .productS3 k => by revert k; decide
  | .productS4 k => by revert k; decide
  | .productS5 k => by revert k; decide

/-- The adders as a network. -/
def net : Netlist Inputs Row (BitVec 64) where
  reads := reads
  cell := cell
  level := level
  earliest := earliest
  cell_congr := by
    intro r i ρ ρ' h
    unfold reads at h
    unfold cell
    cases hd : driver r with
    | none => rfl
    | some m => simp only [h m.a (by simp [hd]), h m.b (by simp [hd]), h m.c (by simp [hd])]
  cell_inner := by
    intro r i j ρ h
    unfold reads at h
    unfold cell
    cases hd : driver r with
    | none => simp [hd] at h
    | some m => rfl
  level_lt h := reads_level _ _ h
  earliest_le h := reads_earliest _ _ h
  earliest_source h := reads_source _ h

/-! ### Delta cycles -/

/-- The word `x02x1_din_sx0`: the flags and the five rows M4 … M0. -/
structure X02X1 where
  selectHigherBits : Bool
  signedRes : Bool
  m4 : BitVec 64
  m3 : BitVec 64
  m2 : BitVec 64
  m1 : BitVec 64
  m0 : BitVec 64
deriving DecidableEq, Repr

@[ext]
structure Sig where
  inp : Inputs
  rows : Row → BitVec 64
  selectHigherBitsSx0 : Bool
  signedResSx0 : Bool
  x02x1DinSx0 : X02X1

/-- `operation` lowers `signed_res_sx0` in one of its branches and never raises it. -/
def signedRes (i : Inputs) (old : Bool) : Bool :=
  if (i.exeCmd = 2 ∨ i.exeCmd = 1) ∧ i.op1.msb ∧ i.op2.msb then false else old

/-- `fifo_concat`. -/
def fifoConcat (rows : Row → BitVec 64) (selectHigherBits signedRes : Bool) : X02X1 where
  selectHigherBits := selectHigherBits
  signedRes := signedRes
  m4 := rows (.productS3 9)
  m3 := rows (.productS5 3)
  m2 := rows (.productS5 2)
  m1 := rows (.productS5 1)
  m0 := rows (.productS5 0)

/-- The sensitivity list of `fifo_concat`; `product_s3[9]` is not on it. -/
def ConcatWoken (a b : Sig) : Prop :=
  (∃ k, a.rows (.productS5 k) ≠ b.rows (.productS5 k)) ∨
    a.selectHigherBitsSx0 ≠ b.selectHigherBitsSx0 ∨ a.signedResSx0 ≠ b.signedResSx0

instance (a b : Sig) : Decidable (ConcatWoken a b) := inferInstanceAs (Decidable (_ ∨ _))

/-- One delta cycle. -/
def delta (a b : Sig) : Sig where
  inp := b.inp
  rows := net.gated a.inp b.inp a.rows b.rows
  selectHigherBitsSx0 := if a.inp ≠ b.inp then selectHigherBits b.inp else b.selectHigherBitsSx0
  signedResSx0 := if a.inp ≠ b.inp then signedRes b.inp b.signedResSx0 else b.signedResSx0
  x02x1DinSx0 :=
    if ConcatWoken a b then fifoConcat b.rows b.selectHigherBitsSx0 b.signedResSx0
    else b.x02x1DinSx0

/-- The delta cycles after new inputs. -/
def settling (c : Sig) (j : Inputs) (k : ℕ) : Delta.Point Sig :=
  Delta.run delta k ⟨c, { c with inp := j }⟩

/-- New inputs, and then delta cycles until nothing moves; `settled_apply` says that
nine are enough. -/
def apply (c : Sig) (j : Inputs) : Sig := (settling c j 9).cur

/-- The packed word computed from scratch. -/
def scratch (i : Inputs) : X02X1 := fifoConcat (net.value i) (selectHigherBits i) false

/-- The signals after the initial activation of all methods. -/
def reset : Sig where
  inp := default
  rows := net.value default
  selectHigherBitsSx0 := selectHigherBits default
  signedResSx0 := false
  x02x1DinSx0 := scratch default

/-- The rows and the flags are those of the inputs. -/
structure Rested (c : Sig) : Prop where
  rows : c.rows = net.value c.inp
  select : c.selectHigherBitsSx0 = selectHigherBits c.inp
  signed : c.signedResSx0 = false

theorem rested_reset : Rested reset := ⟨rfl, rfl, rfl⟩

theorem signedRes_false (i : Inputs) : signedRes i false = false := by
  unfold signedRes
  split_ifs <;> rfl

theorem settling_inp (c : Sig) (j : Inputs) (k : ℕ) : (settling c j k).cur.inp = j := by
  induction k with
  | zero => rfl
  | succ k ih =>
    rw [settling, Delta.run_succ']
    exact ih

section Settling

variable {c : Sig} {j : Inputs}

/-- The rows while the network settles. -/
def during (i j : Inputs) (k : ℕ) : Row → BitVec 64 := net.iterate j k (net.value i)

/-- Where the signals are after `k` delta cycles. -/
structure Progress (c : Sig) (j : Inputs) (k : ℕ) (p : Delta.Point Sig) : Prop where
  inp : p.cur.inp = j
  prevInp : p.prev.inp = if k = 0 then c.inp else j
  rows : p.cur.rows = during c.inp j k
  prevRows : p.prev.rows = during c.inp j (k - 1)
  select : p.cur.selectHigherBitsSx0 = selectHigherBits (if k = 0 then c.inp else j)
  prevSelect : p.prev.selectHigherBitsSx0 = selectHigherBits (if k ≤ 1 then c.inp else j)
  signed : p.cur.signedResSx0 = false
  prevSigned : p.prev.signedResSx0 = false

theorem progress_settling (h : Rested c) (j : Inputs) :
    ∀ k, Progress c j k (settling c j k) := by
  intro k
  induction k with
  | zero => exact ⟨rfl, rfl, h.rows, h.rows, h.select, h.select, h.signed, h.signed⟩
  | succ k ih =>
    have hnext : settling c j (k + 1) = Delta.next delta (settling c j k) :=
      Delta.run_succ' delta k _
    have hstep : (settling c j k).cur.rows =
        net.step (settling c j k).prev.inp (settling c j k).prev.rows := by
      rw [ih.rows, ih.prevRows, ih.prevInp]
      cases k with
      | zero => exact (net.step_value c.inp).symm
      | succ k =>
        rw [if_neg (Nat.succ_ne_zero k)]
        exact net.iterate_succ j k _
    rw [hnext]
    refine ⟨ih.inp, ?_, ?_, ih.rows, ?_, ?_, ?_, ih.signed⟩
    · exact ih.inp.trans (if_neg (Nat.succ_ne_zero k)).symm
    · change net.gated _ _ _ _ = _
      rw [net.gated_eq hstep, ih.inp, ih.rows]
      exact (net.iterate_succ j k _).symm
    · change (if (settling c j k).prev.inp ≠ (settling c j k).cur.inp then _ else _) = _
      rw [ih.inp, ih.prevInp, ih.select, if_neg (Nat.succ_ne_zero k)]
      cases k with
      | zero =>
        rw [if_pos rfl]
        split_ifs with hne
        · rfl
        · rw [not_not.mp hne]
      | succ k => rw [if_neg (Nat.succ_ne_zero k), if_neg (not_not.mpr rfl)]
    · refine ih.select.trans ?_
      cases k <;> rfl
    · change (if (settling c j k).prev.inp ≠ (settling c j k).cur.inp then _ else _) = _
      rw [ih.signed, signedRes_false, ite_self]

/-- A row of stage 5 moves in the `k`-th update. -/
def Moves (i j : Inputs) (k : ℕ) : Prop :=
  ∃ q, during i j (k - 1) (.productS5 q) ≠ during i j k (.productS5 q)

instance (i j : Inputs) (k : ℕ) : Decidable (Moves i j k) := inferInstanceAs (Decidable (∃ _, _))

theorem concatWoken_iff {k : ℕ} {p : Delta.Point Sig} (h : Progress c j k p) :
    ConcatWoken p.prev p.cur ↔
      Moves c.inp j k ∨ (k = 1 ∧ selectHigherBits c.inp ≠ selectHigherBits j) := by
  rw [ConcatWoken, Moves, h.rows, h.prevRows, h.select, h.prevSelect, h.signed, h.prevSigned]
  have hsel : selectHigherBits (if k ≤ 1 then c.inp else j) ≠
      selectHigherBits (if k = 0 then c.inp else j) ↔
        k = 1 ∧ selectHigherBits c.inp ≠ selectHigherBits j := by
    rcases k with _ | _ | k
    · simp
    · simp
    · simp
  rw [hsel]
  simp

/-- Stage 5 is still before the fourth update. -/
theorem not_moves_of_le {i j : Inputs} {k : ℕ} (hk : k ≤ 3) : ¬ Moves i j k := by
  rintro ⟨q, hq⟩
  have hearly : ∀ q : Fin 4, 3 ≤ net.earliest (.productS5 q) := by decide
  have hle := hearly q
  refine hq ?_
  rw [during, during, net.iterate_of_earliest (by omega), net.iterate_of_earliest (by omega)]

/-- Stage 5 has settled after the sixth update. -/
theorem not_moves_of_ge {i j : Inputs} {k : ℕ} (hk : 7 ≤ k) : ¬ Moves i j k := by
  rintro ⟨q, hq⟩
  have hlevel : net.level (.productS5 q) = 5 := rfl
  refine hq ?_
  rw [during, during, net.iterate_of_level (by omega), net.iterate_of_level (by omega)]

theorem during_productS3_early {i j : Inputs} {k : ℕ} (hk : k ≤ 1) :
    during i j k (.productS3 9) = net.value i (.productS3 9) :=
  net.iterate_of_earliest hk

theorem during_productS3_late {i j : Inputs} {k : ℕ} (hk : 4 ≤ k) :
    during i j k (.productS3 9) = net.value j (.productS3 9) :=
  net.iterate_of_level (show 3 < k by omega) _

/-- The copy of `product_s3[9]` in the packed word after `k` delta cycles. -/
def copied (i j : Inputs) (k : ℕ) : BitVec 64 :=
  if ∃ l, l < k ∧ Moves i j l then net.value j (.productS3 9) else net.value i (.productS3 9)

theorem copied_succ {i j : Inputs} {k : ℕ} :
    copied i j (k + 1) = if Moves i j k then net.value j (.productS3 9) else copied i j k := by
  have hsucc : (∃ l, l < k + 1 ∧ Moves i j l) ↔ Moves i j k ∨ ∃ l, l < k ∧ Moves i j l := by
    constructor
    · rintro ⟨l, hl, hm⟩
      rcases Nat.lt_succ_iff_lt_or_eq.mp hl with h | h
      · exact .inr ⟨l, h, hm⟩
      · exact .inl (h ▸ hm)
    · rintro (hm | ⟨l, hl, hm⟩)
      · exact ⟨k, Nat.lt_succ_self k, hm⟩
      · exact ⟨l, Nat.lt_succ_of_lt hl, hm⟩
  unfold copied
  by_cases hm : Moves i j k
  · rw [if_pos (hsucc.mpr (.inl hm)), if_pos hm]
  · rw [if_neg hm]
    simp only [hsucc, hm, false_or]

/-- The copy when it was `x` before: a move of stage 5 takes the new row, a change of the
selection flag the old one. -/
def copiedFrom (x : BitVec 64) (i j : Inputs) (k : ℕ) : BitVec 64 :=
  if ∃ l, l < k ∧ Moves i j l then net.value j (.productS3 9)
  else if 1 < k ∧ selectHigherBits i ≠ selectHigherBits j then net.value i (.productS3 9)
  else x

theorem copiedFrom_value (i j : Inputs) (k : ℕ) :
    copiedFrom (net.value i (.productS3 9)) i j k = copied i j k := by
  unfold copiedFrom copied
  rw [ite_self]

theorem copiedFrom_zero (x : BitVec 64) (i j : Inputs) : copiedFrom x i j 0 = x := by
  unfold copiedFrom
  rw [if_neg (by rintro ⟨l, hl, -⟩; exact absurd hl (Nat.not_lt_zero l)),
    if_neg (by rintro ⟨hl, -⟩; exact absurd hl (by decide))]

theorem copiedFrom_of_moves {x : BitVec 64} {i j : Inputs} {k : ℕ} (hm : Moves i j k) :
    copiedFrom x i j (k + 1) = net.value j (.productS3 9) :=
  if_pos ⟨k, Nat.lt_succ_self k, hm⟩

theorem copiedFrom_of_select {x : BitVec 64} {i j : Inputs}
    (hs : selectHigherBits i ≠ selectHigherBits j) :
    copiedFrom x i j 2 = net.value i (.productS3 9) := by
  unfold copiedFrom
  rw [if_neg (by rintro ⟨l, hl, hm⟩; exact not_moves_of_le (by omega) hm),
    if_pos ⟨by decide, hs⟩]

theorem copiedFrom_succ {x : BitVec 64} {i j : Inputs} {k : ℕ} (hm : ¬ Moves i j k)
    (hs : ¬ (k = 1 ∧ selectHigherBits i ≠ selectHigherBits j)) :
    copiedFrom x i j (k + 1) = copiedFrom x i j k := by
  have hmoves : (∃ l, l < k + 1 ∧ Moves i j l) ↔ ∃ l, l < k ∧ Moves i j l := by
    constructor
    · rintro ⟨l, hl, hml⟩
      rcases Nat.lt_succ_iff_lt_or_eq.mp hl with h | h
      · exact ⟨l, h, hml⟩
      · exact absurd (h ▸ hml) hm
    · rintro ⟨l, hl, hml⟩
      exact ⟨l, Nat.lt_succ_of_lt hl, hml⟩
  unfold copiedFrom
  by_cases hmk : ∃ l, l < k ∧ Moves i j l
  · rw [if_pos hmk, if_pos (hmoves.mpr hmk)]
  · rw [if_neg hmk, if_neg (fun h => hmk (hmoves.mp h))]
    by_cases hsel : selectHigherBits i = selectHigherBits j
    · rw [if_neg (fun h => h.2 hsel), if_neg (fun h => h.2 hsel)]
    · have hk : 1 < k + 1 ↔ 1 < k := by
        have hne : k ≠ 1 := fun h => hs ⟨h, hsel⟩
        omega
      simp only [hk]

/-- The packed word while the network settles. -/
def packed (i j : Inputs) (k : ℕ) : X02X1 :=
  { fifoConcat (during i j (k - 1)) (selectHigherBits (if k ≤ 1 then i else j)) false with
    m4 := copied i j k }

theorem din_settling_of_copy (h : Rested c) {x : BitVec 64}
    (hf : c.x02x1DinSx0 = { scratch c.inp with m4 := x }) (j : Inputs) :
    ∀ k, (settling c j k).cur.x02x1DinSx0 =
      { packed c.inp j k with m4 := copiedFrom x c.inp j k } := by
  intro k
  induction k with
  | zero =>
    rw [copiedFrom_zero]
    exact hf
  | succ k ih =>
    have hp := progress_settling h j k
    have hwoken := concatWoken_iff hp
    have hcur : (settling c j (k + 1)).cur.x02x1DinSx0 =
        if ConcatWoken (settling c j k).prev (settling c j k).cur then
          fifoConcat (during c.inp j k) (selectHigherBits (if k = 0 then c.inp else j)) false
        else { packed c.inp j k with m4 := copiedFrom x c.inp j k } := by
      have hnext : settling c j (k + 1) = Delta.next delta (settling c j k) :=
        Delta.run_succ' delta k _
      rw [hnext, ← hp.rows, ← hp.select, ← hp.signed, ← ih]
      rfl
    have hsel : (if k = 0 then c.inp else j) = if k + 1 ≤ 1 then c.inp else j := by
      cases k <;> rfl
    have htarget : ({ packed c.inp j (k + 1) with m4 := copiedFrom x c.inp j (k + 1) } : X02X1) =
        { fifoConcat (during c.inp j k) (selectHigherBits (if k + 1 ≤ 1 then c.inp else j))
            false with
          m4 := copiedFrom x c.inp j (k + 1) } := rfl
    rw [hcur, hsel, htarget]
    by_cases hm : Moves c.inp j k
    · -- stage 5 moved, so stage 3 has settled
      have hk : 4 ≤ k := by
        by_contra hlt
        exact not_moves_of_le (by omega) hm
      rw [if_pos (hwoken.mpr (.inl hm)), copiedFrom_of_moves hm,
        ← during_productS3_late (i := c.inp) hk]
      rfl
    · have hstill : ∀ q, during c.inp j (k - 1) (.productS5 q) = during c.inp j k (.productS5 q) :=
        fun q => not_not.mp fun hne => hm ⟨q, hne⟩
      by_cases hw : ConcatWoken (settling c j k).prev (settling c j k).cur
      · -- only the selection flag moved, and `product_s3[9]` is still the old one
        obtain ⟨rfl, hs⟩ := (hwoken.mp hw).resolve_left hm
        rw [if_pos hw, copiedFrom_of_select hs, ← during_productS3_early (j := j) (le_refl 1)]
        rfl
      · rw [if_neg hw, copiedFrom_succ hm (fun hs => hw (hwoken.mpr (.inr hs))), packed]
        have hflag : selectHigherBits (if k ≤ 1 then c.inp else j) =
            selectHigherBits (if k + 1 ≤ 1 then c.inp else j) := by
          by_contra hne
          refine hw (hwoken.mpr (.inr ?_))
          rcases k with _ | _ | k
          · exact absurd rfl hne
          · exact ⟨rfl, hne⟩
          · exact absurd rfl hne
        simp only [fifoConcat, hstill, hflag]

theorem din_settling (h : Rested c) (hf : c.x02x1DinSx0 = scratch c.inp) (j : Inputs) (k : ℕ) :
    (settling c j k).cur.x02x1DinSx0 = packed c.inp j k := by
  rw [din_settling_of_copy h (x := net.value c.inp (.productS3 9)) hf j k, copiedFrom_value]
  rfl

theorem during_productS5_settled {i j : Inputs} {k : ℕ} (hk : 6 ≤ k) (q : Fin 4) :
    during i j k (.productS5 q) = net.value j (.productS5 q) :=
  net.iterate_of_level (show 5 < k by omega) _

theorem packed_settled {i j : Inputs} {k : ℕ} (hk : 7 ≤ k) :
    packed i j k = { scratch j with m4 := copied i j k } := by
  rw [packed, if_neg (by omega)]
  simp only [fifoConcat, scratch, during_productS5_settled (show 6 ≤ k - 1 by omega)]

theorem apply_rows (h : Rested c) (j : Inputs) : (apply c j).rows = net.value j := by
  refine (progress_settling h j 9).rows.trans ?_
  funext r
  have hlevel : level r ≤ 5 := by
    cases r <;> simp [level]
  exact net.iterate_of_level (Nat.lt_of_le_of_lt hlevel (by decide)) _

theorem rested_apply (h : Rested c) (j : Inputs) : Rested (apply c j) := by
  have hp := progress_settling h j 9
  have hinp : (apply c j).inp = j := hp.inp
  refine ⟨?_, ?_, hp.signed⟩
  · rw [hinp]
    exact apply_rows h j
  · rw [hinp]
    exact hp.select

/-- The packed word is the one of the last inputs, but for the copy of
`product_s3[9]`. -/
theorem apply_din (h : Rested c) (hf : c.x02x1DinSx0 = scratch c.inp) (j : Inputs) :
    (apply c j).x02x1DinSx0 = { scratch j with m4 := copied c.inp j 9 } := by
  rw [apply, din_settling h hf j 9, packed_settled (by decide)]

/-- Nine delta cycles are enough to settle. -/
theorem settled_apply (h : Rested c) (hf : c.x02x1DinSx0 = scratch c.inp) (j : Inputs) :
    (settling c j 9).Settled := by
  have h8 := progress_settling h j 8
  have h9 := progress_settling h j 9
  have hprev : (settling c j 9).prev = (settling c j 8).cur := by
    rw [settling, Delta.run_succ' delta 8]
    rfl
  have hrows : during c.inp j 8 = during c.inp j 9 := by
    rw [← h9.rows]
    refine Eq.trans ?_ (apply_rows h j).symm
    funext r
    have hlevel : level r ≤ 5 := by
      cases r <;> simp [level]
    exact net.iterate_of_level (Nat.lt_of_le_of_lt hlevel (by decide)) _
  have hcopied : copied c.inp j 9 = copied c.inp j 8 :=
    copied_succ.trans (if_neg (not_moves_of_ge (by decide)))
  have hdin : (settling c j 8).cur.x02x1DinSx0 = (settling c j 9).cur.x02x1DinSx0 := by
    rw [din_settling h hf j 8, din_settling h hf j 9, packed_settled (by decide),
      packed_settled (by decide), hcopied]
  change (settling c j 9).prev = (settling c j 9).cur
  rw [hprev]
  refine Sig.ext ?_ ?_ ?_ ?_ hdin
  · rw [h8.inp, h9.inp]
  · rw [h8.rows, h9.rows, hrows]
  · rw [h8.select, h9.select]
    rfl
  · rw [h8.signed, h9.signed]

/-! ### When the copy is the new one -/

theorem exists_moves_iff {i j : Inputs} :
    (∃ l, l < 9 ∧ Moves i j l) ↔ ∃ l, (l = 4 ∨ l = 5 ∨ l = 6) ∧
      ∃ q, during i j l (.productS5 q) ≠ net.value i (.productS5 q) := by
  constructor
  · intro h
    by_contra hstill
    have hval : ∀ l, l < 7 → ∀ q, during i j l (.productS5 q) = net.value i (.productS5 q) := by
      intro l hl q
      rcases Nat.lt_or_ge l 4 with h4 | h4
      · have hearly : ∀ q : Fin 4, 3 ≤ net.earliest (.productS5 q) := by decide
        have hle := hearly q
        exact net.iterate_of_earliest (by omega)
      · by_contra hne
        exact hstill ⟨l, by omega, q, hne⟩
    obtain ⟨l, hl, q, hq⟩ := h
    rcases Nat.lt_or_ge l 7 with h7 | h7
    · rw [hval _ (by omega) q, hval l h7 q] at hq
      exact hq rfl
    · exact not_moves_of_ge h7 ⟨q, hq⟩
  · rintro ⟨l, hl, q, hq⟩
    by_contra hnone
    have hval : ∀ m, m ≤ l → during i j m (.productS5 q) = net.value i (.productS5 q) := by
      intro m
      induction m with
      | zero =>
        intro _
        rfl
      | succ m ih =>
        intro hm
        by_contra hne
        refine hnone ⟨m + 1, by omega, q, ?_⟩
        rw [Nat.add_sub_cancel, ih (by omega)]
        exact fun h => hne h.symm
    exact hq (hval l (le_refl l))

/-- Rows 2 and 3 of stage 5, when a passing value of `product_s3[8]` meets the other
rows of the previous inputs. -/
def passing (old : Row → BitVec 64) (s38 : BitVec 64) : BitVec 64 × BitVec 64 :=
  let m := csa (old (.productS3 6)) (old (.productS3 7)) s38
  csa (old (.productS4 3)) m.1 m.2

/-- `product_s3[8]` after the new `product[31]` has reached it. -/
def early (old new : Row → BitVec 64) : BitVec 64 :=
  (csa (old (.productS2 12)) (old (.productS2 13)) (new (.product 31))).1

/-- `product_s3[8]` after the new `product[30]` has reached it, too. -/
def late (old new : Row → BitVec 64) : BitVec 64 :=
  let m := csa (old (.productS1 18)) (old (.productS1 19)) (new (.product 30))
  (csa m.1 m.2 (new (.product 31))).1

/-- The inputs `j` leave the right `product_s3[9]` in the packed word after the inputs
`i`: the row is the same, or a row of stage 5 moves while the network settles. -/
def Refreshes (i j : Inputs) : Prop :=
  net.value i (.productS3 9) = net.value j (.productS3 9) ∨
    (∃ q, net.value j (.productS5 q) ≠ net.value i (.productS5 q)) ∨
    passing (net.value i) (early (net.value i) (net.value j)) ≠
      (net.value i (.productS5 2), net.value i (.productS5 3)) ∨
    passing (net.value i) (late (net.value i) (net.value j)) ≠
      (net.value i (.productS5 2), net.value i (.productS5 3))

theorem during_succ (i j : Inputs) (k : ℕ) (r : Row) :
    during i j (k + 1) r = cell r j (during i j k) :=
  congrFun (net.iterate_succ j k _) r

theorem during_of_earliest {i j : Inputs} {k : ℕ} {r : Row} (h : k ≤ earliest r) :
    during i j k r = net.value i r := net.iterate_of_earliest h

theorem during_product {i j : Inputs} {k : ℕ} (hk : 0 < k) (q : Fin 32) :
    during i j k (.product q) = net.value j (.product q) :=
  net.iterate_of_level hk _

/-- Until the third update only `product_s3[8]` moves below stage 5. -/
theorem during_passing {i j : Inputs} {k : ℕ} (hk : k ≤ 3) :
    (during i j (k + 2) (.productS5 2), during i j (k + 2) (.productS5 3)) =
      passing (net.value i) (during i j k (.productS3 8)) := by
  have h43 : during i j (k + 1) (.productS4 3) = net.value i (.productS4 3) :=
    during_of_earliest (show k + 1 ≤ 4 by omega)
  have h36 : during i j k (.productS3 6) = net.value i (.productS3 6) :=
    during_of_earliest (show k ≤ 3 by omega)
  have h37 : during i j k (.productS3 7) = net.value i (.productS3 7) :=
    during_of_earliest (show k ≤ 3 by omega)
  have h44 : during i j (k + 1) (.productS4 4) =
      (csa (net.value i (.productS3 6)) (net.value i (.productS3 7))
        (during i j k (.productS3 8))).1 := by
    rw [← h36, ← h37, during_succ]
    rfl
  have h45 : during i j (k + 1) (.productS4 5) =
      (csa (net.value i (.productS3 6)) (net.value i (.productS3 7))
        (during i j k (.productS3 8))).2 := by
    rw [← h36, ← h37, during_succ]
    rfl
  rw [passing, ← h44, ← h45, ← h43, during_succ i j (k + 1), during_succ i j (k + 1)]
  rfl

theorem during_two_productS3 (i j : Inputs) :
    during i j 2 (.productS3 8) = early (net.value i) (net.value j) := by
  rw [early, ← during_of_earliest (i := i) (j := j) (k := 1) (r := .productS2 12) (le_refl 1),
    ← during_of_earliest (i := i) (j := j) (k := 1) (r := .productS2 13) (le_refl 1),
    ← during_product (i := i) (j := j) (k := 1) (by decide) 31, during_succ]
  rfl

theorem during_three_productS3 (i j : Inputs) :
    during i j 3 (.productS3 8) = late (net.value i) (net.value j) := by
  have h12 : during i j 2 (.productS2 12) =
      (csa (net.value i (.productS1 18)) (net.value i (.productS1 19))
        (net.value j (.product 30))).1 := by
    rw [← during_of_earliest (i := i) (j := j) (k := 1) (r := .productS1 18) (le_refl 1),
      ← during_of_earliest (i := i) (j := j) (k := 1) (r := .productS1 19) (le_refl 1),
      ← during_product (i := i) (j := j) (k := 1) (by decide) 30, during_succ]
    rfl
  have h13 : during i j 2 (.productS2 13) =
      (csa (net.value i (.productS1 18)) (net.value i (.productS1 19))
        (net.value j (.product 30))).2 := by
    rw [← during_of_earliest (i := i) (j := j) (k := 1) (r := .productS1 18) (le_refl 1),
      ← during_of_earliest (i := i) (j := j) (k := 1) (r := .productS1 19) (le_refl 1),
      ← during_product (i := i) (j := j) (k := 1) (by decide) 30, during_succ]
    rfl
  rw [late, ← h12, ← h13, ← during_product (i := i) (j := j) (k := 2) (by decide) 31, during_succ]
  rfl

/-- Rows 0 and 1 of stage 5 are still before the last update. -/
theorem exists_productS5_ne_iff {i j : Inputs} {k : ℕ} (hk : k ≤ 5) :
    (∃ q, during i j k (.productS5 q) ≠ net.value i (.productS5 q)) ↔
      (during i j k (.productS5 2), during i j k (.productS5 3)) ≠
        (net.value i (.productS5 2), net.value i (.productS5 3)) := by
  have h0 : during i j k (.productS5 0) = net.value i (.productS5 0) := during_of_earliest hk
  have h1 : during i j k (.productS5 1) = net.value i (.productS5 1) := during_of_earliest hk
  rw [Ne, Prod.mk.injEq, not_and_or]
  constructor
  · rintro ⟨q, hq⟩
    fin_cases q
    · exact absurd h0 hq
    · exact absurd h1 hq
    · exact .inl hq
    · exact .inr hq
  · rintro (h | h)
    · exact ⟨2, h⟩
    · exact ⟨3, h⟩

/-- A row of stage 5 moves while the network settles. -/
def StageMoves (i j : Inputs) : Prop :=
  (∃ q, net.value j (.productS5 q) ≠ net.value i (.productS5 q)) ∨
    passing (net.value i) (early (net.value i) (net.value j)) ≠
      (net.value i (.productS5 2), net.value i (.productS5 3)) ∨
    passing (net.value i) (late (net.value i) (net.value j)) ≠
      (net.value i (.productS5 2), net.value i (.productS5 3))

instance (i j : Inputs) : Decidable (StageMoves i j) := inferInstanceAs (Decidable (_ ∨ _))

theorem exists_moves_iff_stageMoves (i j : Inputs) :
    (∃ l, l < 9 ∧ Moves i j l) ↔ StageMoves i j := by
  have h4 : (∃ q, during i j 4 (.productS5 q) ≠ net.value i (.productS5 q)) ↔
      passing (net.value i) (early (net.value i) (net.value j)) ≠
        (net.value i (.productS5 2), net.value i (.productS5 3)) := by
    rw [exists_productS5_ne_iff (by decide), during_passing (k := 2) (by decide),
      during_two_productS3]
  have h5 : (∃ q, during i j 5 (.productS5 q) ≠ net.value i (.productS5 q)) ↔
      passing (net.value i) (late (net.value i) (net.value j)) ≠
        (net.value i (.productS5 2), net.value i (.productS5 3)) := by
    rw [exists_productS5_ne_iff (by decide), during_passing (k := 3) (by decide),
      during_three_productS3]
  have h6 : (∃ q, during i j 6 (.productS5 q) ≠ net.value i (.productS5 q)) ↔
      ∃ q, net.value j (.productS5 q) ≠ net.value i (.productS5 q) := by
    simp only [during_productS5_settled (le_refl 6)]
  rw [exists_moves_iff, StageMoves, ← h4, ← h5, ← h6]
  constructor
  · rintro ⟨l, rfl | rfl | rfl, hq⟩
    · exact .inr (.inl hq)
    · exact .inr (.inr hq)
    · exact .inl hq
  · rintro (hq | hq | hq)
    · exact ⟨6, by decide, hq⟩
    · exact ⟨4, by decide, hq⟩
    · exact ⟨5, by decide, hq⟩

theorem copied_eq_iff (i j : Inputs) :
    copied i j 9 = net.value j (.productS3 9) ↔ Refreshes i j := by
  change _ ↔ _ ∨ StageMoves i j
  rw [← exists_moves_iff_stageMoves, copied]
  split_ifs with hm
  · exact iff_of_true rfl (.inr hm)
  · simp [hm]

/-- The copy that the inputs `j` leave after the inputs `i` and the copy `x`. -/
def nextCopy (x : BitVec 64) (i j : Inputs) : BitVec 64 :=
  if StageMoves i j then net.value j (.productS3 9)
  else if selectHigherBits i ≠ selectHigherBits j then net.value i (.productS3 9)
  else x

/-- The packed word is the one of the last inputs, but for the copy. -/
theorem apply_din_of_copy (h : Rested c) {x : BitVec 64}
    (hf : c.x02x1DinSx0 = { scratch c.inp with m4 := x }) (j : Inputs) :
    (apply c j).x02x1DinSx0 = { scratch j with m4 := nextCopy x c.inp j } := by
  have hcopy : copiedFrom x c.inp j 9 = nextCopy x c.inp j := by
    unfold copiedFrom nextCopy
    simp only [exists_moves_iff_stageMoves]
    split_ifs with hm h1 h2 h2
    · rfl
    · rfl
    · exact absurd h1.2 h2
    · exact absurd ⟨by decide, h2⟩ h1
    · rfl
  rw [apply, din_settling_of_copy h hf j 9, packed_settled (by decide), hcopy]

/-- After the inputs `j` the packed word is the one computed from scratch. -/
def Fresh (c : Sig) (j : Inputs) : Prop := (apply c j).x02x1DinSx0 = scratch j

theorem fresh_iff (h : Rested c) (hf : c.x02x1DinSx0 = scratch c.inp) (j : Inputs) :
    Fresh c j ↔ Refreshes c.inp j := by
  rw [Fresh, apply_din h hf, ← copied_eq_iff]
  constructor
  · intro heq
    exact congrArg X02X1.m4 heq
  · intro heq
    rw [heq]
    rfl

end Settling

theorem each_refreshes_iff (is : List Inputs) (i : Inputs) :
    Run.Each Refreshes (fun _ j => j) i is ↔ (i :: is).IsChain Refreshes := by
  induction is generalizing i with
  | nil => simp
  | cons j is ih => rw [Run.each_cons, ih, List.isChain_cons_cons]

/-- Along a sequence of inputs every packed word is the one of its own inputs if and
only if each inputs refresh the word that the ones before them left. -/
theorem each_fresh_iff (is : List Inputs) :
    Run.Each Fresh apply reset is ↔ (default :: is).IsChain Refreshes := by
  have hinp : ∀ c j, (apply c j).inp = j := fun c j => settling_inp c j 9
  rw [← each_refreshes_iff]
  refine Iff.trans ?_ (Run.each_map Sig.inp Refreshes apply (fun _ j => j) hinp is reset)
  refine Run.each_iff_each (fun c => Rested c ∧ c.x02x1DinSx0 = scratch c.inp) ?_ ?_
    ⟨rested_reset, rfl⟩
  · rintro c j ⟨h, hf⟩
    exact fresh_iff h hf j
  · rintro c j ⟨h, hf⟩ hc
    refine ⟨rested_apply h j, ?_⟩
    rw [hinp]
    exact hc

instance (i j : Inputs) : Decidable (Refreshes i j) := inferInstanceAs (Decidable (_ ∨ _))

/-- `mulhu 0xf00, 0xb76f9` and then `mulhu 0xb, 0x1b452500`: stage 5 does not move, but
`product_s3[9]` does. -/
theorem mulhu_stale :
    ¬ Run.Each Fresh apply reset
      [⟨0xf00#32, 0xb76f9#32, 3#2⟩, ⟨0xb#32, 0x1b452500#32, 3#2⟩] := by
  rintro ⟨h1, h2, -⟩
  have hr := rested_apply rested_reset ⟨0xf00#32, 0xb76f9#32, 3#2⟩
  have hinp : (apply reset ⟨0xf00#32, 0xb76f9#32, 3#2⟩).inp = ⟨0xf00#32, 0xb76f9#32, 3#2⟩ :=
    settling_inp _ _ _
  have hrefreshes := (fresh_iff hr (hinp.symm ▸ h1) _).mp h2
  rw [hinp] at hrefreshes
  revert hrefreshes
  decide +kernel

end X0Multiplier

end RiVerSoC
