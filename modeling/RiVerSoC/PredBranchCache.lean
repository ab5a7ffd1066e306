/-
The branch predictor.

`predCheck` and `predWrite` embed the method and the thread of `pred_branch_cache.cpp`, for any
number of slots: the core has four and the small core two, with the same text.  A slot is named
by two bits.

* `predCheck_of_hit` — a lookup that hits answers with the last slot that holds the address;
* `pnt_of_miss` — a lookup that misses names the last present slot of low priority, and slot 0
  when there is none.
-/
import Mathlib.Algebra.Group.Nat.Defs
import Mathlib.Logic.Function.Basic
import Mathlib.Tactic.SplitIfs

namespace RiVerSoC

namespace Predictor

/-- One slot. -/
structure Slot where
  present : Bool
  branchInstAdr : BitVec 32
  branchTargetAdr : BitVec 32
  branchCounter : BitVec 2
  lru : Bool
deriving DecidableEq, Repr, Inhabited

/-- The signals of the predictor. -/
structure Cache where
  slot : BitVec 2 → Slot
  inverseLru : Bool
  pNb : BitVec 2

/-- The outputs of `pred_check`. -/
structure Answer where
  miss : Bool
  targetAdr : BitVec 32
  lru : Bool
  cpt : BitVec 2
  pnt : BitVec 2
deriving DecidableEq, Repr, Inhabited

/-- The inputs of `pred_write`. -/
structure Command where
  cmd : BitVec 2
  writeAdr : BitVec 32
  targetAdr : BitVec 32
  cpt : BitVec 2
  lru : Bool
  pnt : BitVec 2
deriving DecidableEq, Repr, Inhabited

/-- The slots in the order of the loops. -/
def slots (size : ℕ) : List (BitVec 2) := (List.range size).map (BitVec.ofNat 2)

/-- The slot holds the address. -/
def Slot.holds (s : Slot) (adr : BitVec 32) : Bool := s.present && adr == s.branchInstAdr

/-- The slot is present and has low priority. -/
def Cache.low (c : Cache) (i : BitVec 2) : Bool :=
  (c.slot i).present && (c.slot i).lru == c.inverseLru

/-- The answer of a slot that holds the address. -/
def Cache.answer (c : Cache) (i : BitVec 2) : Answer where
  miss := false
  targetAdr := (c.slot i).branchTargetAdr
  lru := (c.slot i).lru
  cpt := (c.slot i).branchCounter
  pnt := i

/-- One turn of the loop of `pred_check`: the outputs, `miss` among them, and `replace_index`. -/
def checkSlot (c : Cache) (adr : BitVec 32) (o : Answer × BitVec 2) (i : BitVec 2) :
    Answer × BitVec 2 :=
  (if (c.slot i).holds adr then c.answer i else o.1, if c.low i then i else o.2)

/-- `pred_check`; the outputs that a miss does not write keep their values. -/
def predCheck (size : ℕ) (c : Cache) (adr : BitVec 32) (old : Answer) : Answer :=
  let (o, replaceIndex) := (slots size).foldl (checkSlot c adr) ({ old with miss := true }, 0)
  if o.miss then { o with pnt := replaceIndex } else o

/-- `present[pnt] = 1` and the writes to the slot that a write or an update has in common. -/
def Cache.fill (c : Cache) (i : BitVec 2) (s : Slot) : Cache :=
  { c with slot := Function.update c.slot i { s with present := true } }

/-- The last slot of low priority gets high priority: the meaning of the bits turns over. -/
def lastLow (c : Cache) : Bool :=
  c.pNb == 3 && !c.inverseLru || c.pNb == 1 && c.inverseLru

/-- The priority of the slot that is written or updated, with a new content. -/
def raise (c : Cache) (i : BitVec 2) (s : Slot) : Cache :=
  if lastLow c then { c.fill i s with inverseLru := !c.inverseLru }
  else { c.fill i { s with lru := !c.inverseLru } with pNb := c.pNb + 1 }

/-- One activation of `pred_write`. -/
def predWrite (c : Cache) (w : Command) : Cache :=
  if w.cmd = 0 then c
  else if w.cmd = 1 then
    raise c w.pnt
      { c.slot w.pnt with
        branchInstAdr := w.writeAdr
        branchTargetAdr := w.targetAdr
        branchCounter := w.cpt }
  else if w.cmd = 2 then
    if (c.slot w.pnt).lru == c.inverseLru then
      raise c w.pnt { c.slot w.pnt with branchCounter := w.cpt }
    else c.fill w.pnt { c.slot w.pnt with branchCounter := w.cpt }
  else c.fill w.pnt (c.slot w.pnt)

/-- The slots are absent. -/
def reset : Cache := ⟨fun _ => default, false, 0⟩

/-! ### Lookups -/

/-- The last slot that holds the address. -/
def lastHolding (size : ℕ) (c : Cache) (adr : BitVec 32) : Option (BitVec 2) :=
  (slots size).reverse.find? fun i => (c.slot i).holds adr

/-- The last present slot of low priority. -/
def lastOfLow (size : ℕ) (c : Cache) : Option (BitVec 2) := (slots size).reverse.find? c.low

theorem foldl_checkSlot (c : Cache) (adr : BitVec 32) (o : Answer × BitVec 2)
    (l : List (BitVec 2)) :
    l.foldl (checkSlot c adr) o =
      (((l.reverse.find? fun i => (c.slot i).holds adr).map c.answer).getD o.1,
        (l.reverse.find? c.low).getD o.2) := by
  induction l generalizing o with
  | nil => rfl
  | cons i l ih =>
    rw [List.foldl_cons, ih, List.reverse_cons, List.find?_append, List.find?_append, checkSlot]
    congr 1
    · cases (l.reverse.find? fun i => (c.slot i).holds adr) with
      | some j => rfl
      | none => cases hh : (c.slot i).holds adr <;> simp [hh]
    · cases l.reverse.find? c.low with
      | some j => rfl
      | none => cases hh : c.low i <;> simp [hh]

/-- A lookup, by the slots that its loop looks for. -/
theorem predCheck_eq (size : ℕ) (c : Cache) (adr : BitVec 32) (old : Answer) :
    predCheck size c adr old =
      match lastHolding size c adr with
      | some i => c.answer i
      | none => { old with miss := true, pnt := (lastOfLow size c).getD 0 } := by
  unfold predCheck
  rw [foldl_checkSlot, ← lastHolding, ← lastOfLow]
  dsimp only
  cases lastHolding size c adr <;> rfl

theorem predCheck_of_hit {size : ℕ} {c : Cache} {adr : BitVec 32} {i : BitVec 2}
    (h : lastHolding size c adr = some i) (old : Answer) :
    predCheck size c adr old = c.answer i := by
  rw [predCheck_eq, h]

theorem miss_predCheck (size : ℕ) (c : Cache) (adr : BitVec 32) (old : Answer) :
    (predCheck size c adr old).miss = (lastHolding size c adr).isNone := by
  rw [predCheck_eq]
  cases lastHolding size c adr <;> rfl

theorem pnt_of_miss {size : ℕ} {c : Cache} {adr : BitVec 32} (h : lastHolding size c adr = none)
    (old : Answer) : (predCheck size c adr old).pnt = (lastOfLow size c).getD 0 := by
  rw [predCheck_eq, h]

theorem lastHolding_eq_none {size : ℕ} {c : Cache} {adr : BitVec 32} :
    lastHolding size c adr = none ↔ ∀ i ∈ slots size, (c.slot i).holds adr = false := by
  simp [lastHolding]

theorem holds_of_lastHolding {size : ℕ} {c : Cache} {adr : BitVec 32} {i : BitVec 2}
    (h : lastHolding size c adr = some i) : i ∈ slots size ∧ (c.slot i).holds adr = true :=
  ⟨List.mem_reverse.mp (List.mem_of_find?_eq_some h),
    List.find?_some (p := fun i => (c.slot i).holds adr) h⟩

theorem low_of_lastOfLow {size : ℕ} {c : Cache} {i : BitVec 2} (h : lastOfLow size c = some i) :
    i ∈ slots size ∧ c.low i = true :=
  ⟨List.mem_reverse.mp (List.mem_of_find?_eq_some h), List.find?_some h⟩

/-! ### Writes and updates -/

section Write

variable {c : Cache} {w : Command} {i : BitVec 2}

/-- A command writes one slot. -/
theorem slot_predWrite_of_ne (h : i ≠ w.pnt) : (predWrite c w).slot i = c.slot i := by
  unfold predWrite raise Cache.fill
  split_ifs <;> simp [h]

theorem present_predWrite (h : w.cmd ≠ 0) : ((predWrite c w).slot w.pnt).present = true := by
  unfold predWrite raise Cache.fill
  rw [if_neg h]
  split_ifs <;> simp

/-- A write and an update give the slot the counter of the command. -/
theorem branchCounter_predWrite : ((predWrite c w).slot w.pnt).branchCounter =
    if w.cmd = 1 ∨ w.cmd = 2 then w.cpt else (c.slot w.pnt).branchCounter := by
  unfold predWrite raise Cache.fill
  split_ifs <;> simp_all

/-- An update leaves the addresses. -/
theorem adrs_predWrite (h : w.cmd ≠ 1) :
    ((predWrite c w).slot i).branchInstAdr = (c.slot i).branchInstAdr ∧
      ((predWrite c w).slot i).branchTargetAdr = (c.slot i).branchTargetAdr := by
  by_cases hi : i = w.pnt
  · subst hi
    unfold predWrite raise Cache.fill
    split_ifs <;> simp_all
  · rw [slot_predWrite_of_ne hi]
    exact ⟨rfl, rfl⟩

/-- Only a write gives the slot another address. -/
theorem branchInstAdr_predWrite : ((predWrite c w).slot w.pnt).branchInstAdr =
    if w.cmd = 1 then w.writeAdr else (c.slot w.pnt).branchInstAdr := by
  unfold predWrite raise Cache.fill
  split_ifs <;> simp_all

end Write

end Predictor

end RiVerSoC
