/-
The slots of the branch predictor of the core.

A lookup that misses offers the last present slot of low priority, and slot 0 when there is
none: an absent slot is never looked for, so slot 0 stays the only one.

* `Machine` — the predictor, with the slots that lookups offered and the addresses written;
* `Chooses`, `Keeps` — what a lookup should offer, and what should still hit;
* `each_lawful_iff` — along a run both hold exactly when no lookup misses and no second address
  is written once slot 0 is present.
-/
import Mathlib.Data.List.Dedup
import Mathlib.Data.List.Perm.Subperm
import RiVerSoC.PredBranchCache
import RiVerSoC.Run

namespace RiVerSoC

namespace Replacement

open Predictor

/-- `PRED_BRANCH_CACHE_SIZE`. -/
def size : ℕ := 4

/-- The predictor, with the address and the slot of every lookup, and the addresses written. -/
structure Machine where
  cache : Cache
  answer : Answer
  lookups : List (BitVec 32 × BitVec 2)
  written : List (BitVec 32)

/-- A lookup, or a write or an update with the address and the slot of an earlier lookup. -/
inductive Event
  | lookup (adr : BitVec 32)
  | write (k : ℕ) (targetAdr : BitVec 32) (cpt : BitVec 2)
  | update (k : ℕ) (cpt : BitVec 2)
deriving DecidableEq, Repr, Inhabited

def reset : Machine := ⟨Predictor.reset, default, [], []⟩

def step (m : Machine) : Event → Machine
  | .lookup adr =>
    let answer := predCheck size m.cache adr m.answer
    { m with answer := answer, lookups := m.lookups ++ [(adr, answer.pnt)] }
  | .write k targetAdr cpt =>
    match m.lookups[k]? with
    | some (adr, pnt) =>
      { m with
        cache := predWrite m.cache ⟨1, adr, targetAdr, cpt, false, pnt⟩
        written := m.written ++ [adr] }
    | none => m
  | .update k cpt =>
    match m.lookups[k]? with
    | some (_, pnt) => { m with cache := predWrite m.cache ⟨2, 0, 0, cpt, false, pnt⟩ }
    | none => m

/-- The address hits. -/
def hits (c : Cache) (adr : BitVec 32) : Bool := (lastHolding size c adr).isSome

/-- A lookup that misses offers an absent slot if there is one, and otherwise a present slot of
low priority. -/
def Chooses (m : Machine) (adr : BitVec 32) : Prop :=
  (predCheck size m.cache adr m.answer).miss = true →
    (predCheck size m.cache adr m.answer).pnt ∈ slots size ∧
    if (slots size).any fun i => !(m.cache.slot i).present then
      (m.cache.slot (predCheck size m.cache adr m.answer).pnt).present = false
    else m.cache.low (predCheck size m.cache adr m.answer).pnt = true

/-- As long as no more addresses have been written than there are slots, all of them hit. -/
def Keeps (m : Machine) : Prop :=
  m.written.dedup.length ≤ size → ∀ adr ∈ m.written, hits m.cache adr = true

/-- A lookup offers the right slot, and every event leaves what was written. -/
def Lawful (m : Machine) (e : Event) : Prop :=
  (∀ adr, e = .lookup adr → Chooses m adr) ∧ Keeps (step m e)

/-- Slot 0 is not taken from a branch: a lookup hits as long as slot 0 is present, and only one
address is written. -/
def Alone (m : Machine) : Event → Prop
  | .lookup adr => (m.cache.slot 0).present = true → hits m.cache adr = true
  | .write k _ _ => ∀ p ∈ m.lookups[k]?, ∀ adr ∈ m.written, adr = p.1
  | .update _ _ => True

/-! ### The invariant -/

/-- The other slots are absent. -/
def OnlyZero (c : Cache) : Prop := ∀ i, i ≠ 0 → (c.slot i).present = false

/-- Only slot 0 is ever offered or present, and it holds what was written. -/
structure Inv (m : Machine) : Prop where
  offered : ∀ p ∈ m.lookups, p.2 = 0
  absent : OnlyZero m.cache
  written : ∀ adr ∈ m.written, (m.cache.slot 0).present = true ∧
    (m.cache.slot 0).branchInstAdr = adr

theorem inv_reset : Inv reset where
  offered _ h := absurd h List.not_mem_nil
  absent _ _ := rfl
  written _ h := absurd h List.not_mem_nil

section Cache

variable {c : Cache}

/-- A present slot is slot 0. -/
theorem eq_zero_of_present (h : OnlyZero c) {i : BitVec 2} (hi : (c.slot i).present = true) :
    i = 0 := by
  by_contra hne
  exact absurd ((h i hne).symm.trans hi) Bool.false_ne_true

theorem eq_zero_of_lastHolding (h : OnlyZero c) {adr : BitVec 32} {i : BitVec 2}
    (hi : lastHolding size c adr = some i) : i = 0 := by
  have hholds := (holds_of_lastHolding hi).2
  rw [Slot.holds, Bool.and_eq_true] at hholds
  exact eq_zero_of_present h hholds.1

/-- A lookup answers with slot 0. -/
theorem pnt_eq_zero (h : OnlyZero c) (adr : BitVec 32) (old : Answer) :
    (predCheck size c adr old).pnt = 0 := by
  cases hhold : lastHolding size c adr with
  | some i =>
    rw [predCheck_of_hit hhold]
    exact eq_zero_of_lastHolding h hhold
  | none =>
    rw [pnt_of_miss hhold]
    cases hlow : lastOfLow size c with
    | none => rfl
    | some i =>
      have hpresent := (low_of_lastOfLow hlow).2
      rw [Cache.low, Bool.and_eq_true] at hpresent
      exact eq_zero_of_present h hpresent.1

theorem hits_iff (h : OnlyZero c) (adr : BitVec 32) : hits c adr = true ↔
    (c.slot 0).present = true ∧ (c.slot 0).branchInstAdr = adr := by
  rw [hits, Option.isSome_iff_exists]
  constructor
  · rintro ⟨i, hi⟩
    have hholds := (holds_of_lastHolding hi).2
    rw [eq_zero_of_lastHolding h hi, Slot.holds, Bool.and_eq_true, beq_iff_eq] at hholds
    exact ⟨hholds.1, hholds.2.symm⟩
  · rintro ⟨hpresent, hadr⟩
    cases hhold : lastHolding size c adr with
    | some i => exact ⟨i, rfl⟩
    | none =>
      have hno := lastHolding_eq_none.mp hhold 0 (by decide)
      rw [Slot.holds, hpresent, hadr, Bool.true_and, beq_self_eq_true] at hno
      exact absurd hno.symm Bool.false_ne_true

/-- A command for slot 0 leaves the other slots absent. -/
theorem onlyZero_predWrite (h : OnlyZero c) {w : Command} (hw : w.pnt = 0) :
    OnlyZero (predWrite c w) := by
  intro i hi
  rw [slot_predWrite_of_ne (hw ▸ hi)]
  exact h i hi

/-- A command for slot 0 makes it present, and a write gives it the address. -/
theorem slot_zero_predWrite {w : Command} (hcmd : w.cmd ≠ 0) (hw : w.pnt = 0) :
    ((predWrite c w).slot 0).present = true ∧
      ((predWrite c w).slot 0).branchInstAdr =
        if w.cmd = 1 then w.writeAdr else (c.slot 0).branchInstAdr := by
  have hpresent := present_predWrite (c := c) hcmd
  have hinst := branchInstAdr_predWrite (c := c) (w := w)
  rw [hw] at hpresent hinst
  exact ⟨hpresent, hinst⟩

end Cache

variable {m : Machine}

/-- The lookup offers slot 0, which is right only if it is absent. -/
theorem chooses_iff (h : Inv m) (adr : BitVec 32) :
    Chooses m adr ↔ ((m.cache.slot 0).present = true → hits m.cache adr = true) := by
  have hfree : ((slots size).any fun i => !(m.cache.slot i).present) = true := by
    rw [List.any_eq_true]
    exact ⟨3, by decide, by rw [h.absent 3 (by decide), Bool.not_false]⟩
  rw [Chooses, miss_predCheck, pnt_eq_zero h.absent, if_pos hfree, hits]
  cases lastHolding size m.cache adr with
  | some i => simp
  | none =>
    simp only [Option.isNone_none, Option.isSome_none, forall_const, Bool.false_eq_true, imp_false,
      Bool.not_eq_true, and_iff_right_iff_imp]
    exact fun _ => by decide

theorem pnt_of_lookup (h : Inv m) {k : ℕ} {p : BitVec 32 × BitVec 2}
    (hk : m.lookups[k]? = some p) : p.2 = 0 :=
  h.offered p (List.mem_of_getElem? hk)

theorem inv_step {e : Event} (h : Inv m) (ha : Alone m e) : Inv (step m e) := by
  cases e with
  | lookup adr =>
    refine ⟨?_, h.absent, h.written⟩
    intro p hp
    rcases List.mem_append.mp hp with hold | hnew
    · exact h.offered p hold
    · rw [List.mem_singleton.mp hnew]
      exact pnt_eq_zero h.absent adr _
  | write k targetAdr cpt =>
    cases hk : m.lookups[k]? with
    | none =>
      rw [step, hk]
      exact h
    | some p =>
      have hpnt := pnt_of_lookup h hk
      rw [step, hk]
      refine ⟨h.offered, onlyZero_predWrite h.absent hpnt, ?_⟩
      intro adr hadr
      have hsame : adr = p.1 := by
        rcases List.mem_append.mp hadr with hold | hnew
        · exact ha p hk adr hold
        · exact List.mem_singleton.mp hnew
      rw [hsame]
      exact slot_zero_predWrite (w := ⟨1, p.1, targetAdr, cpt, false, p.2⟩)
        (show (1 : BitVec 2) ≠ 0 by decide) hpnt
  | update k cpt =>
    cases hk : m.lookups[k]? with
    | none =>
      rw [step, hk]
      exact h
    | some p =>
      have hpnt := pnt_of_lookup h hk
      rw [step, hk]
      refine ⟨h.offered, onlyZero_predWrite h.absent hpnt, ?_⟩
      intro adr hadr
      obtain ⟨hpresent, hinst⟩ := slot_zero_predWrite (c := m.cache)
        (w := ⟨2, 0, 0, cpt, false, p.2⟩) (show (2 : BitVec 2) ≠ 0 by decide) hpnt
      exact ⟨hpresent, hinst.trans (h.written adr hadr).2⟩

theorem keeps (h : Inv m) : Keeps m :=
  fun _ adr hadr => (hits_iff h.absent adr).mpr (h.written adr hadr)

/-- Two addresses that have been written do not both hit. -/
theorem alone_of_keeps_write (h : Inv m) {k : ℕ} {targetAdr : BitVec 32} {cpt : BitVec 2}
    (hk : Keeps (step m (.write k targetAdr cpt))) : Alone m (.write k targetAdr cpt) := by
  intro p hp adr hadr
  have hpnt := pnt_of_lookup h hp
  have hstep : step m (.write k targetAdr cpt) =
      { m with
        cache := predWrite m.cache ⟨1, p.1, targetAdr, cpt, false, p.2⟩
        written := m.written ++ [p.1] } := by
    rw [step, Option.mem_def.mp hp]
  rw [hstep] at hk
  have hsub : (m.written ++ [p.1]).dedup ⊆ [adr, p.1] := by
    intro a ha
    rcases List.mem_append.mp (List.mem_dedup.mp ha) with hold | hnew
    · rw [← (h.written a hold).2, (h.written adr hadr).2]
      exact List.mem_cons_self
    · exact List.mem_cons_of_mem _ hnew
  have hlength : (m.written ++ [p.1]).dedup.length ≤ 2 :=
    (List.subperm_of_subset (List.nodup_dedup _) hsub).length_le
  have hhits := hk (Nat.le_trans hlength (by decide)) adr (List.mem_append_left _ hadr)
  rw [hits_iff (onlyZero_predWrite h.absent hpnt)] at hhits
  have hslot := (slot_zero_predWrite (c := m.cache)
    (w := ⟨1, p.1, targetAdr, cpt, false, p.2⟩) (show (1 : BitVec 2) ≠ 0 by decide) hpnt).2
  exact hhits.2.symm.trans hslot

theorem lawful_iff (h : Inv m) (e : Event) : Lawful m e ↔ Alone m e := by
  constructor
  · rintro ⟨hchoose, hkeep⟩
    cases e with
    | lookup adr => exact (chooses_iff h adr).mp (hchoose adr rfl)
    | write k targetAdr cpt => exact alone_of_keeps_write h hkeep
    | update k cpt => trivial
  · intro ha
    refine ⟨?_, keeps (inv_step h ha)⟩
    rintro adr rfl
    exact (chooses_iff h adr).mpr ha

/-! ### Whole runs -/

/-- Along a run lookups offer the right slots and what was written hits exactly when no lookup
misses and no second address is written once slot 0 is present. -/
theorem each_lawful_iff (es : List Event) :
    Run.Each Lawful step reset es ↔ Run.Each Alone step reset es := by
  refine Run.each_iff_each Inv (fun _ _ h => lawful_iff h _) ?_ inv_reset
  intro m e h hl
  exact inv_step h ((lawful_iff h e).mp hl)

/-- The branch at 0x10 is looked up and written, and then the branch at 0x20 is looked up. -/
theorem not_each_lawful_two :
    ¬ Run.Each Lawful step reset [.lookup 0x10, .write 0 0x40 2, .lookup 0x20] := by
  rintro ⟨-, -, ⟨hchoose, -⟩, -⟩
  have hslot := (hchoose 0x20 rfl (by decide)).2
  exact absurd hslot (by decide)

end Replacement

end RiVerSoC
