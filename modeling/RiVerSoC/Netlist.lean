/-
Netlists in an evaluate/update simulation.

A netlist gives every row a cell: a function of the rows that it reads, and of the
input when it reads no row.  In each delta cycle the cells one of whose rows changed
are evaluated.  When the rows were settled before an input update,

* `gated_eq` — waking only these cells computes what evaluating all cells does;
* `iterate_of_level` — a row has its final value once its level has been passed;
* `iterate_of_earliest` — and its old one as long as no path from the input is
  short enough.
-/
import Mathlib.Data.Nat.Init
import Mathlib.Logic.Function.Iterate

/-- A network of cells without loops: `level` bounds the longest path from the
input to a row, `earliest` the shortest one from below. -/
structure Netlist (I R V : Type*) where
  reads : R → List R
  cell : R → I → (R → V) → V
  level : R → ℕ
  earliest : R → ℕ
  cell_congr : ∀ {r i ρ ρ'}, (∀ q ∈ reads r, ρ q = ρ' q) → cell r i ρ = cell r i ρ'
  cell_inner : ∀ {r i j ρ}, reads r ≠ [] → cell r i ρ = cell r j ρ
  level_lt : ∀ {r q}, q ∈ reads r → level q < level r
  earliest_le : ∀ {r q}, q ∈ reads r → earliest r ≤ earliest q + 1
  earliest_source : ∀ {r}, reads r = [] → earliest r = 0

namespace Netlist

variable {I R V : Type*} (n : Netlist I R V)

/-- Every cell evaluated once. -/
def step (i : I) (ρ : R → V) : R → V := fun r => n.cell r i ρ

/-- Every cell evaluated `k` times. -/
def iterate (i : I) (k : ℕ) (ρ : R → V) : R → V := (n.step i)^[k] ρ

@[simp] theorem iterate_zero (i : I) (ρ : R → V) : n.iterate i 0 ρ = ρ := rfl

theorem iterate_succ (i : I) (k : ℕ) (ρ : R → V) :
    n.iterate i (k + 1) ρ = n.step i (n.iterate i k ρ) :=
  Function.iterate_succ_apply' (n.step i) k ρ

/-- The value that the network computes for a row. -/
def value [Inhabited V] (i : I) (r : R) : V := n.iterate i (n.level r + 1) (fun _ => default) r

/-- What a row is after its level does not depend on where the network started. -/
theorem iterate_eq_iterate (i : I) (ρ ρ' : R → V) :
    ∀ {k k' : ℕ} {r : R}, n.level r < k → n.level r < k' →
      n.iterate i k ρ r = n.iterate i k' ρ' r := by
  intro k
  induction k with
  | zero =>
    intro k' r hk _
    exact absurd hk (Nat.not_lt_zero _)
  | succ k ih =>
    intro k' r hk hk'
    obtain ⟨k', rfl⟩ : ∃ m, k' = m + 1 := ⟨k' - 1, by omega⟩
    rw [iterate_succ, iterate_succ]
    refine n.cell_congr ?_
    intro q hq
    have hlt := n.level_lt hq
    exact ih (by omega) (by omega)

theorem iterate_of_level [Inhabited V] {i : I} {k : ℕ} {r : R} (h : n.level r < k) (ρ : R → V) :
    n.iterate i k ρ r = n.value i r :=
  n.iterate_eq_iterate i ρ _ h (Nat.lt_succ_self _)

/-- The values are a fixed point. -/
theorem step_value [Inhabited V] (i : I) : n.step i (n.value i) = n.value i := by
  funext r
  have hvalue : n.value i r =
      n.step i (n.iterate i (n.level r) fun _ => default) r := by
    rw [value, iterate_succ]
  rw [hvalue]
  refine n.cell_congr ?_
  intro q hq
  exact (n.iterate_of_level (n.level_lt hq) _).symm

/-- A row keeps the value it had for the previous input until the shortest path from
the input has been walked. -/
theorem iterate_of_earliest [Inhabited V] {i j : I} :
    ∀ {k : ℕ} {r : R}, k ≤ n.earliest r → n.iterate j k (n.value i) r = n.value i r := by
  intro k
  induction k with
  | zero =>
    intro r _
    rfl
  | succ k ih =>
    intro r hk
    have hinner : n.reads r ≠ [] := by
      intro h
      rw [n.earliest_source h] at hk
      exact absurd hk (Nat.not_succ_le_zero k)
    calc n.iterate j (k + 1) (n.value i) r
        = n.cell r j (n.iterate j k (n.value i)) := by
          rw [iterate_succ]
          rfl
      _ = n.cell r j (n.value i) := by
          refine n.cell_congr ?_
          intro q hq
          have hle := n.earliest_le hq
          exact ih (by omega)
      _ = n.cell r i (n.value i) := n.cell_inner hinner
      _ = n.value i r := congrFun (n.step_value i) r

section Gated

variable [DecidableEq I] [DecidableEq V]

/-- A cell is woken by a change of a row that it reads, or of the input when it
reads none. -/
def Woken (i j : I) (a b : R → V) (r : R) : Prop :=
  if n.reads r = [] then i ≠ j else ∃ q ∈ n.reads r, a q ≠ b q

instance (i j : I) (a b : R → V) (r : R) : Decidable (n.Woken i j a b r) :=
  inferInstanceAs (Decidable (if n.reads r = [] then i ≠ j else ∃ q ∈ n.reads r, a q ≠ b q))

/-- One delta cycle: only the woken cells are evaluated. -/
def gated (i j : I) (a b : R → V) : R → V := fun r =>
  if n.Woken i j a b r then n.cell r j b else b r

/-- A row whose cell was up to date and is not woken is up to date again. -/
theorem gated_eq {i j : I} {a b : R → V} (h : b = n.step i a) :
    n.gated i j a b = n.step j b := by
  funext r
  by_cases hw : n.Woken i j a b r
  · exact if_pos hw
  · refine (if_neg hw).trans ?_
    have hr : b r = n.cell r i a := congrFun h r
    unfold Woken at hw
    by_cases hsource : n.reads r = []
    · rw [if_pos hsource, not_not] at hw
      rw [hr, hw]
      refine n.cell_congr ?_
      rw [hsource]
      exact fun q hq => absurd hq (List.not_mem_nil)
    · rw [if_neg hsource] at hw
      rw [hr, n.cell_inner (j := j) hsource]
      refine n.cell_congr ?_
      intro q hq
      exact not_not.mp fun hne => hw ⟨q, hq, hne⟩

end Gated

end Netlist
