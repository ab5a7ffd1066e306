/-
Sorted lists of disjoint ranges.

`first` and `stop` give the elements of a list half-open ranges of numbers.  A list is ordered
when every range ends before the ranges behind it begin.

* `overlap_iff` — ranges overlap exactly when each begins before the other ends;
* `ordered_insert` — a range between two parts of an ordered list;
* `disjoint_iff_next`, `disjoint_iff_neighbours` — a new range overlaps none of an ordered list
  exactly when it does not overlap its two neighbours.
-/
import Mathlib.Data.List.Basic

namespace Ranges

variable {α : Type*} (first stop : α → ℕ)

/-- The number `x` is in the range of `a`. -/
def Covers (a : α) (x : ℕ) : Prop := first a ≤ x ∧ x < stop a

/-- The ranges share a number. -/
def Overlap (a b : α) : Prop := ∃ x, Covers first stop a x ∧ Covers first stop b x

/-- The list is sorted, and its ranges are disjoint. -/
def Ordered (l : List α) : Prop := l.Pairwise fun a b => stop a ≤ first b

variable {first stop}

theorem ordered_insert {l r : List α} {n : α} (h : Ordered first stop (l ++ r))
    (hl : ∀ a ∈ l, stop a ≤ first n) (hr : ∀ b ∈ r, stop n ≤ first b) :
    Ordered first stop (l ++ n :: r) := by
  obtain ⟨hleft, hright, hlr⟩ := List.pairwise_append.mp h
  refine List.pairwise_append.mpr ⟨hleft, List.pairwise_cons.mpr ⟨hr, hright⟩, ?_⟩
  intro a ha b hb
  rcases List.mem_cons.mp hb with rfl | hb
  · exact hl a ha
  · exact hlr a ha b hb

section Positive

variable (hpos : ∀ a, first a < stop a)

include hpos

theorem overlap_iff {a b : α} : Overlap first stop a b ↔ first a < stop b ∧ first b < stop a := by
  have ha := hpos a
  have hb := hpos b
  constructor
  · rintro ⟨x, ⟨hax, hxa⟩, hbx, hxb⟩
    omega
  · rintro ⟨hab, hba⟩
    refine ⟨max (first a) (first b), ⟨?_, ?_⟩, ?_, ?_⟩ <;> omega

/-- What the next range does not begin before, none behind it does. -/
theorem le_first_of_head {x : ℕ} {r : List α} (h : Ordered first stop r)
    (hr : ∀ m ∈ r.head?, x ≤ first m) : ∀ b ∈ r, x ≤ first b := by
  intro b hb
  cases r with
  | nil => exact absurd hb List.not_mem_nil
  | cons m r =>
    have hm := hr m rfl
    rcases List.mem_cons.mp hb with rfl | hb
    · exact hm
    · have := (List.pairwise_cons.mp h).1 b hb
      have := hpos m
      omega

/-- A range that begins before all those of the list. -/
theorem disjoint_iff_next {r : List α} {n : α} (h : Ordered first stop r)
    (hr : ∀ m ∈ r.head?, first n < first m) :
    (∀ s ∈ r, ¬ Overlap first stop n s) ↔ ∀ m ∈ r.head?, stop n ≤ first m := by
  constructor
  · intro hno m hm
    have hnm := mt (overlap_iff hpos).mpr (hno m (List.mem_of_mem_head? hm))
    have := hpos m
    have := hr m hm
    omega
  · intro hnext s hs hover
    obtain ⟨-, hsn⟩ := (overlap_iff hpos).mp hover
    have := le_first_of_head hpos h hnext s hs
    omega

theorem disjoint_iff_neighbours {l r : List α} {p n : α} (h : Ordered first stop (l ++ p :: r))
    (hp : first p ≤ first n) (hr : ∀ m ∈ r.head?, first n < first m) :
    (∀ s ∈ l ++ p :: r, ¬ Overlap first stop n s) ↔
      stop p ≤ first n ∧ ∀ m ∈ r.head?, stop n ≤ first m := by
  obtain ⟨-, hpr, hlp⟩ := List.pairwise_append.mp h
  have hn := hpos n
  rw [← disjoint_iff_next hpos (List.pairwise_cons.mp hpr).2 hr]
  constructor
  · intro hno
    have hmem : p ∈ l ++ p :: r := List.mem_append_right l List.mem_cons_self
    have hnp := mt (overlap_iff hpos).mpr (hno p hmem)
    refine ⟨?_, fun s hs => hno s (List.mem_append_right l (List.mem_cons_of_mem p hs))⟩
    have := hpos p
    omega
  · rintro ⟨hstop, hnext⟩ s hs hover
    obtain ⟨hns, -⟩ := (overlap_iff hpos).mp hover
    rcases List.mem_append.mp hs with hl | hs
    · -- before the predecessor
      have := hlp s hl p List.mem_cons_self
      have := hpos p
      omega
    · rcases List.mem_cons.mp hs with rfl | hs
      · omega
      · exact hnext s hs hover

/-- A range that fits between the predecessor and the successor. -/
theorem ordered_between {l r : List α} {p n : α} (h : Ordered first stop (l ++ p :: r))
    (hp : stop p ≤ first n) (hr : ∀ m ∈ r.head?, stop n ≤ first m) :
    Ordered first stop (l ++ p :: n :: r) := by
  obtain ⟨-, hpr, hlp⟩ := List.pairwise_append.mp h
  rw [List.append_cons] at h ⊢
  refine ordered_insert h ?_ (le_first_of_head hpos (List.pairwise_cons.mp hpr).2 hr)
  intro a ha
  rcases List.mem_append.mp ha with ha | ha
  · have := hlp a ha p List.mem_cons_self
    have := hpos p
    omega
  · rw [List.mem_singleton.mp ha]
    exact hp

end Positive

end Ranges
