/-
A FIFO of one place.

The place keeps showing its last word after a pop, and takes a new word in the cycle in
which the old one leaves.

* `clock_of_load`, `clock_cases` — what one clock edge does;
* `v_clock`, `dout_clock` — the same for the two fields;
* `clock_map`, `clock_pair` — a function of the words, and two places that move together;
* `toList_clock` — the place as a queue of at most one word.
-/
import Mathlib.Tactic.SplitIfs

/-- The place: the word it shows and whether the word is valid. -/
structure Fifo (α : Type*) where
  dout : α
  v : Bool
deriving DecidableEq, Repr, Inhabited

namespace Fifo

variable {α : Type*} (f : Fifo α) (push pop : Bool) (din : α)

def isEmpty : Bool := !f.v

def isFull : Bool := f.v && !pop

/-- The word at the input is taken. -/
def loads : Bool := push && (pop || !f.v)

/-- One clock edge. -/
def clock : Fifo α :=
  if f.v && !push && pop then { f with v := false }
  else if push && (pop || !f.v) then ⟨din, true⟩
  else f

variable {f push pop din}

theorem clock_of_load (h : f.loads push pop = true) : f.clock push pop din = ⟨din, true⟩ := by
  have hpush : push = true := (Bool.and_eq_true_iff.mp h).1
  rw [clock, if_neg (by simp [hpush]), if_pos (show (push && (pop || !f.v)) = true from h)]

theorem dout_clock_of_not_load (h : f.loads push pop = false) :
    (f.clock push pop din).dout = f.dout := by
  unfold clock
  rw [loads] at h
  split_ifs with h1 h2
  · rfl
  · rw [h] at h2
    exact absurd h2 Bool.false_ne_true
  · rfl

theorem v_clock_of_not_load (h : f.loads push pop = false) :
    (f.clock push pop din).v = (f.v && !pop) := by
  unfold clock
  rw [loads] at h
  cases hv : f.v <;> cases push <;> cases pop <;> simp_all

theorem v_clock (f : Fifo α) (push pop : Bool) (din : α) :
    (f.clock push pop din).v = (f.loads push pop || f.v && !pop) := by
  cases hl : f.loads push pop with
  | true => rw [clock_of_load hl, Bool.true_or]
  | false => rw [v_clock_of_not_load hl, Bool.false_or]

/-- A word is taken when there is room. -/
theorem loads_of_not_full (h : f.isFull pop = false) : f.loads push pop = push := by
  unfold isFull at h
  unfold loads
  cases hv : f.v <;> cases push <;> cases pop <;> simp_all

/-- A valid word that is not taken away stays. -/
theorem clock_of_stays (hv : f.v = true) (hpop : pop = false) : f.clock push pop din = f := by
  unfold clock
  rw [hv, hpop, Bool.and_false, if_neg Bool.false_ne_true, Bool.not_true, Bool.or_false,
    Bool.and_false, if_neg Bool.false_ne_true]

/-- The input does not matter without a push. -/
theorem clock_of_not_push (f : Fifo α) (pop : Bool) (din din' : α) :
    f.clock false pop din = f.clock false pop din' := by
  unfold clock
  rw [Bool.false_and, if_neg Bool.false_ne_true, if_neg Bool.false_ne_true]

/-- A place that takes a word only when there is room loads it, keeps the word it has, or is
left empty. -/
theorem clock_cases (f : Fifo α) (push pop : Bool) (din : α)
    (hpush : push = true → f.isFull pop = false) :
    (push = true ∧ f.clock push pop din = ⟨din, true⟩) ∨
      (pop = false ∧ f.v = true ∧ f.clock push pop din = f) ∨
      (f.clock push pop din).v = false := by
  cases hp : push with
  | true =>
    subst hp
    exact Or.inl ⟨rfl, clock_of_load (loads_of_not_full (hpush rfl))⟩
  | false =>
    right
    by_cases hstays : f.v = true ∧ pop = false
    · exact Or.inl ⟨hstays.2, hstays.1, clock_of_stays hstays.1 hstays.2⟩
    · right
      rw [v_clock_of_not_load (by rw [loads, Bool.false_and])]
      cases hv : f.v
      · rfl
      · cases hpop : pop
        · exact absurd ⟨hv, hpop⟩ hstays
        · rfl

/-! ### The place as a queue -/

section Congr

variable {β : Type*} {g : Fifo β} {din' : β}

/-- What moves depends on the valid bit only. -/
theorem loads_congr (h : f.v = g.v) : f.loads push pop = g.loads push pop := by
  rw [loads, loads, h]

theorem isFull_congr (h : f.v = g.v) : f.isFull pop = g.isFull pop := by
  rw [isFull, isFull, h]

theorem v_clock_congr (h : f.v = g.v) :
    (f.clock push pop din).v = (g.clock push pop din').v := by
  cases hl : g.loads push pop with
  | true => rw [clock_of_load hl, clock_of_load (hl ▸ loads_congr h)]
  | false =>
    rw [v_clock_of_not_load hl, v_clock_of_not_load (hl ▸ loads_congr h), h]

/-- What holds of the words of two such places, it holds of those that they show after the
edge. -/
theorem pair_clock {P : α → β → Prop} {a : α} {b : β} (h : f.v = g.v) (hold : P f.dout g.dout)
    (hload : f.loads push pop = true → P a b) :
    P (f.clock push pop a).dout (g.clock push pop b).dout := by
  cases hl : f.loads push pop with
  | true =>
    rw [clock_of_load hl, clock_of_load ((loads_congr h).symm.trans hl)]
    exact hload hl
  | false =>
    rw [dout_clock_of_not_load hl, dout_clock_of_not_load ((loads_congr h).symm.trans hl)]
    exact hold

end Congr

/-- The place with a function of its word. -/
def map {β : Type*} (g : α → β) (f : Fifo α) : Fifo β := ⟨g f.dout, f.v⟩

theorem clock_map {β : Type*} (g : α → β) :
    (f.clock push pop din).map g = (f.map g).clock push pop (g din) := by
  unfold clock map
  split_ifs <;> rfl

/-- Two places that move together, as one of pairs. -/
def pair {β : Type*} (f : Fifo α) (g : Fifo β) : Fifo (α × β) := ⟨(f.dout, g.dout), f.v⟩

theorem clock_pair {β : Type*} {g : Fifo β} {din' : β} (h : f.v = g.v) :
    (f.clock push pop din).pair (g.clock push pop din') =
      (f.pair g).clock push pop (din, din') := by
  unfold clock pair
  rw [← h]
  dsimp only
  split_ifs <;> rfl

/-- Two queues in series, the second of which takes what the first one gives. -/
theorem append_series {out mid inp a a' b b' : List α} (ha : out ++ a' = a ++ mid)
    (hb : mid ++ b' = b ++ inp) : out ++ (a' ++ b') = (a ++ b) ++ inp := by
  rw [← List.append_assoc, ha, List.append_assoc, hb, List.append_assoc]

/-- The word of the place, if it is valid. -/
def toList (f : Fifo α) : List α := if f.v then [f.dout] else []

/-- The words that an edge takes or gives. -/
def moved (b : Bool) (w : α) : List α := if b then [w] else []

/-- A place that takes a word only when there is room, and gives one only when it has one, is
a queue. -/
theorem toList_clock (f : Fifo α) (push pop : Bool) (din : α) (hpop : pop = true → f.v = true)
    (hpush : push = true → f.isFull pop = false) :
    moved pop f.dout ++ (f.clock push pop din).toList = f.toList ++ moved push din := by
  unfold isFull at hpush
  unfold toList moved clock
  cases hv : f.v <;> cases hu : push <;> cases ho : pop <;> simp_all

end Fifo
