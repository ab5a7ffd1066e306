/-
Runs of a deterministic step function.

`Each C step s is` says that the condition `C` holds at every step of the run
that consumes the inputs `is` from `s`.  The module packages the two inductions
that the developments over it need:

* `each_of_inv` — what holds at one step under an invariant holds at every step;
* `each_iff_each` — two step conditions that agree under an invariant, where the
  invariant survives the steps at which the first one holds, agree on whole runs;
* `inv_along` — an invariant along an infinite run;
* `conserves_iff` — a queue delivers what it accepted, in order, after every prefix
  of a run exactly when every single step conserves;
* `queue_after` — a machine whose states stand for queues delivers, in order, what it
  accepted;
* `executes_after` — a machine whose states stand for a sequential machine and a queue of what
  that one has still to execute refines the sequential machine;
* `measure_after` — what is left to do goes down with every input that counts;
* `happens_within` — what must happen before a rank is used up happens in time;
* `countP_le_collect` — a machine whose outputs pay for the inputs that count has many outputs.

Nothing here knows what the states and the inputs are.
-/
import Mathlib.Data.List.Basic

namespace Run

variable {S I O : Type*}

/-- `C` holds at every step of the run over the inputs `is` from `s`. -/
def Each (C : S → I → Prop) (step : S → I → S) : S → List I → Prop
  | _, [] => True
  | s, i :: is => C s i ∧ Each C step (step s i) is

/-- The state after the inputs `is`. -/
def after (step : S → I → S) (s : S) (is : List I) : S := is.foldl step s

variable {C D : S → I → Prop} {step : S → I → S} {Inv : S → Prop}

@[simp] theorem each_nil (s : S) : Each C step s [] := trivial

@[simp] theorem each_cons (s : S) (i : I) (is : List I) :
    Each C step s (i :: is) ↔ C s i ∧ Each C step (step s i) is := Iff.rfl

@[simp] theorem after_nil (s : S) : after step s [] = s := rfl

@[simp] theorem after_cons (s : S) (i : I) (is : List I) :
    after step s (i :: is) = after step (step s i) is := rfl

theorem after_append (s : S) (is js : List I) :
    after step s (is ++ js) = after step (after step s is) js := by
  simp [after]

theorem each_append (is js : List I) : ∀ s : S, Each C step s (is ++ js) ↔
    Each C step s is ∧ Each C step (after step s is) js := by
  induction is with
  | nil => simp
  | cons i is ih =>
    intro s
    simp [ih, and_assoc]

/-- Runs of decidable step conditions can be tested. -/
def decEach [∀ s i, Decidable (C s i)] : ∀ s is, Decidable (Each C step s is)
  | _, [] => inferInstanceAs (Decidable True)
  | s, i :: is =>
    have : Decidable (Each C step (step s i) is) := decEach (step s i) is
    inferInstanceAs (Decidable (C s i ∧ Each C step (step s i) is))

instance [∀ s i, Decidable (C s i)] (s : S) (is : List I) : Decidable (Each C step s is) :=
  decEach s is

/-- An invariant of the step function is an invariant of the run. -/
theorem inv_after (step : S → I → S) (Inv : S → Prop) (hstep : ∀ s i, Inv s → Inv (step s i)) :
    ∀ (is : List I) {s : S}, Inv s → Inv (after step s is) := by
  intro is
  induction is with
  | nil =>
    intro s hs
    exact hs
  | cons i is ih =>
    intro s hs
    rw [after_cons]
    exact ih (hstep s i hs)

/-- Under an invariant that the steps meeting `C` preserve, what `C` gives at one
step it gives at every step. -/
theorem each_of_inv (hD : ∀ s i, Inv s → C s i → D s i)
    (hstep : ∀ s i, Inv s → C s i → Inv (step s i)) :
    ∀ {is : List I} {s : S}, Inv s → Each C step s is → Each D step s is := by
  intro is
  induction is with
  | nil =>
    intro s _ _
    trivial
  | cons i is ih =>
    rintro s hs ⟨hc, hrest⟩
    exact ⟨hD s i hs hc, ih (hstep s i hs hc) hrest⟩

/-- What an invariant of the step function gives at one step holds at every step. -/
theorem each_of_invariant (hD : ∀ s i, Inv s → D s i) (hstep : ∀ s i, Inv s → Inv (step s i)) :
    ∀ (is : List I) {s : S}, Inv s → Each D step s is := by
  intro is
  induction is with
  | nil =>
    intro s _
    trivial
  | cons i is ih =>
    intro s hs
    exact ⟨hD s i hs, ih (hstep s i hs)⟩

/-- What `C` gives at one step it gives at every step. -/
theorem each_mono (hD : ∀ s i, C s i → D s i) :
    ∀ {is : List I} {s : S}, Each C step s is → Each D step s is := by
  intro is
  induction is with
  | nil =>
    intro s _
    trivial
  | cons i is ih =>
    rintro s ⟨hc, hrest⟩
    exact ⟨hD s i hc, ih hrest⟩

/-- A condition on the inputs alone can be added. -/
theorem each_and {P : I → Prop} : ∀ {is : List I} {s : S}, Each C step s is → (∀ i ∈ is, P i) →
    Each (fun s i => C s i ∧ P i) step s is := by
  intro is
  induction is with
  | nil =>
    intro s _ _
    trivial
  | cons i is ih =>
    rintro s ⟨hc, hrest⟩ hP
    exact ⟨⟨hc, hP i List.mem_cons_self⟩, ih hrest fun j hj => hP j (List.mem_cons_of_mem i hj)⟩

/-- An invariant that the steps meeting `C` preserve holds after a run of such steps. -/
theorem inv_after_of_each (hstep : ∀ s i, Inv s → C s i → Inv (step s i)) :
    ∀ {is : List I} {s : S}, Inv s → Each C step s is → Inv (after step s is) := by
  intro is
  induction is with
  | nil =>
    intro s hs _
    exact hs
  | cons i is ih =>
    rintro s hs ⟨hc, hrest⟩
    rw [after_cons]
    exact ih (hstep s i hs hc) hrest

/-- Two step conditions that agree under an invariant agree on runs, when the
invariant survives the steps at which the first of them holds. -/
theorem each_iff_each (Inv : S → Prop) (hiff : ∀ s i, Inv s → (C s i ↔ D s i))
    (hstep : ∀ s i, Inv s → C s i → Inv (step s i)) {is : List I} {s : S} (hs : Inv s) :
    Each C step s is ↔ Each D step s is := by
  constructor
  · exact each_of_inv (fun s i hs => (hiff s i hs).mp) hstep hs
  · refine each_of_inv (fun s i hs => (hiff s i hs).mpr) ?_ hs
    intro s i hs hd
    exact hstep s i hs ((hiff s i hs).mpr hd)

/-- A condition that reads a projection of the state can be followed on the
projection. -/
theorem each_map {T : Type*} (f : S → T) (C : T → I → Prop) (step : S → I → S)
    (step' : T → I → T) (hf : ∀ s i, f (step s i) = step' (f s) i) :
    ∀ (is : List I) (s : S), Each (fun s i => C (f s) i) step s is ↔ Each C step' (f s) is := by
  intro is
  induction is with
  | nil =>
    intro s
    exact Iff.rfl
  | cons i is ih =>
    intro s
    rw [each_cons, each_cons, ih, hf]

/-! ### Infinite runs -/

/-- The state before the `n`-th step of the run over the inputs `c`. -/
def along (step : S → I → S) (s : S) (c : ℕ → I) : ℕ → S
  | 0 => s
  | n + 1 => step (along step s c n) (c n)

/-- An invariant that the steps meeting `C` preserve holds along a run of such steps. -/
theorem inv_along (hstep : ∀ s i, Inv s → C s i → Inv (step s i)) {s : S} (hs : Inv s)
    {c : ℕ → I} (hc : ∀ n, C (along step s c n) (c n)) : ∀ n, Inv (along step s c n) := by
  intro n
  induction n with
  | zero => exact hs
  | succ n ih => exact hstep _ _ ih (hc n)

/-! ### Conservation of a queue -/

/-- What the steps of a run put out, in order. -/
def collect (out : S → I → List O) (step : S → I → S) : S → List I → List O
  | _, [] => []
  | s, i :: is => out s i ++ collect out step (step s i) is

theorem collect_append (out : S → I → List O) (step : S → I → S) :
    ∀ (is js : List I) (s : S), collect out step s (is ++ js) =
      collect out step s is ++ collect out step (after step s is) js := by
  intro is js
  induction is with
  | nil =>
    intro s
    rfl
  | cons i is ih =>
    intro s
    rw [List.cons_append, collect, collect, ih, after_cons, List.append_assoc]

/-- What the run put out, followed by what is still held, is what was held before,
followed by what the run took in. -/
def Conserves (out inp : S → I → List O) (held : S → List O) (step : S → I → S) (s : S)
    (is : List I) : Prop :=
  collect out step s is ++ held (after step s is) = held s ++ collect inp step s is

/-- One step conserves. -/
def ConservesStep (out inp : S → I → List O) (held : S → List O) (step : S → I → S) (s : S)
    (i : I) : Prop :=
  out s i ++ held (step s i) = held s ++ inp s i

variable {out inp : S → I → List O} {held : S → List O}

theorem conserves_cons {s : S} {i : I} (h : ConservesStep out inp held step s i) (is : List I) :
    Conserves out inp held step s (i :: is) ↔ Conserves out inp held step (step s i) is := by
  unfold Conserves
  rw [collect, collect, after_cons, ← List.append_assoc (held s),
    ← show _ = held s ++ inp s i from h, List.append_assoc, List.append_assoc,
    List.append_cancel_left_eq]

/-- Every prefix of the run conserves exactly when every step does. -/
theorem conserves_iff {is : List I} {s : S} :
    (∀ n, Conserves out inp held step s (is.take n)) ↔
      Each (ConservesStep out inp held step) step s is := by
  induction is generalizing s with
  | nil => simp [Conserves, collect]
  | cons i is ih =>
    rw [each_cons, ← ih]
    constructor
    · intro h
      have hstep : ConservesStep out inp held step s i := by
        simpa [Conserves, collect, ConservesStep] using h 1
      refine ⟨hstep, ?_⟩
      intro n
      rw [← conserves_cons hstep, ← List.take_succ_cons]
      exact h (n + 1)
    · rintro ⟨hstep, hrest⟩ n
      cases n with
      | zero => simp [Conserves, collect]
      | succ n =>
        rw [List.take_succ_cons, conserves_cons hstep]
        exact hrest n

/-! ### Refinement of a queue -/

/-- The step takes a state that stands for the queue `q` to one that stands for what is left of
`q` when the outputs are taken from its front and the inputs are added at its end. -/
def QueueStep (out inp : S → I → List O) (Holds : S → List O → Prop) (step : S → I → S) (s : S)
    (i : I) : Prop :=
  ∀ q, Holds s q → ∃ q', Holds (step s i) q' ∧ out s i ++ q' = q ++ inp s i

/-- A run of such steps delivers what was held, followed by what it took in, up to what is still
held. -/
theorem queue_after {Holds : S → List O → Prop} :
    ∀ {is : List I} {s : S} {q : List O}, Holds s q →
      Each (QueueStep out inp Holds step) step s is →
      ∃ q', Holds (after step s is) q' ∧
        collect out step s is ++ q' = q ++ collect inp step s is := by
  intro is
  induction is with
  | nil =>
    intro s q hq _
    exact ⟨q, hq, by rw [collect, collect, List.nil_append, List.append_nil]⟩
  | cons i is ih =>
    rintro s q hq ⟨hstep, hrest⟩
    obtain ⟨q₁, hq₁, heq₁⟩ := hstep q hq
    obtain ⟨q₂, hq₂, heq₂⟩ := ih hq₁ hrest
    refine ⟨q₂, hq₂, ?_⟩
    rw [collect, collect, List.append_assoc, heq₂, ← List.append_assoc, heq₁, List.append_assoc]

/-! ### Refinement of a sequential machine -/

variable {A : Type*} {exec : A → O → A}

/-- The step takes a state that stands for `a` and the queue `q` of what is still to be executed
to one that stands for what the first items of `q` make of `a`, with the inputs at the end of
the queue. -/
def ExecutesStep (exec : A → O → A) (inp : S → I → List O) (Holds : S → A → List O → Prop)
    (step : S → I → S) (s : S) (i : I) : Prop :=
  ∀ a q, Holds s a q → ∃ done q', Holds (step s i) (after exec a done) q' ∧
    done ++ q' = q ++ inp s i

/-- A run of such steps executes what was held, followed by what it took in, up to what is still
held. -/
theorem executes_after {Holds : S → A → List O → Prop} :
    ∀ {is : List I} {s : S} {a : A} {q : List O}, Holds s a q →
      Each (ExecutesStep exec inp Holds step) step s is →
      ∃ done q', Holds (after step s is) (after exec a done) q' ∧
        done ++ q' = q ++ collect inp step s is := by
  intro is
  induction is with
  | nil =>
    intro s a q hq _
    exact ⟨[], q, hq, by rw [collect, List.nil_append, List.append_nil]⟩
  | cons i is ih =>
    rintro s a q hq ⟨hstep, hrest⟩
    obtain ⟨done₁, q₁, hq₁, heq₁⟩ := hstep a q hq
    obtain ⟨done₂, q₂, hq₂, heq₂⟩ := ih hq₁ hrest
    refine ⟨done₁ ++ done₂, q₂, ?_, ?_⟩
    · rw [after_append]
      exact hq₂
    · rw [collect, List.append_assoc, heq₂, ← List.append_assoc, heq₁, List.append_assoc]

/-! ### Progress -/

/-- A measure that goes down at the inputs that count, and never goes up, is used up by enough of
them. -/
theorem measure_after (Inv : S → Prop) (hinv : ∀ s i, Inv s → Inv (step s i)) (μ : S → ℕ)
    (P : I → Prop) (counts : I → Bool)
    (hμ : ∀ s i, Inv s → P i → μ (step s i) ≤ μ s - (counts i).toNat) :
    ∀ {is : List I} {s : S}, Inv s → (∀ i ∈ is, P i) →
      μ (after step s is) ≤ μ s - is.countP counts := by
  intro is
  induction is with
  | nil =>
    intro s _ _
    exact Nat.le_refl _
  | cons i is ih =>
    intro s hs hP
    have hrest := ih (hinv s i hs) fun j hj => hP j (List.mem_cons_of_mem i hj)
    have hstep := hμ s i hs (hP i List.mem_cons_self)
    rw [after_cons, List.countP_cons]
    cases hc : counts i with
    | true =>
      rw [hc, Bool.toNat_true] at hstep
      rw [if_pos rfl]
      omega
    | false =>
      rw [hc, Bool.toNat_false] at hstep
      rw [if_neg Bool.false_ne_true]
      omega

/-- What happens unless a rank goes down happens before the rank is used up. -/
theorem happens_within (Inv : S → Prop) {E : S → I → Prop} (μ : S → ℕ)
    (hstep : ∀ s i, Inv s → C s i → E s i ∨ (Inv (step s i) ∧ μ (step s i) < μ s)) :
    ∀ {is : List I} {s : S}, Inv s → Each C step s is → μ s < is.length →
      ∃ n i, n ≤ μ s ∧ is[n]? = some i ∧ E (after step s (is.take n)) i := by
  intro is
  induction is with
  | nil =>
    intro s _ _ hlen
    exact absurd hlen (Nat.not_lt_zero _)
  | cons i is ih =>
    rintro s hs ⟨hc, hrest⟩ hlen
    rw [List.length_cons] at hlen
    rcases hstep s i hs hc with he | ⟨hinv, hlt⟩
    · exact ⟨0, i, Nat.zero_le _, rfl, he⟩
    · obtain ⟨n, j, hn, hj, he⟩ := ih hinv hrest (by omega)
      exact ⟨n + 1, j, by omega, hj, he⟩

/-- When the measure falls at every input that counts, unless an output pays for it, the outputs
pay for all of these inputs. -/
theorem countP_le_collect (Inv : S → Prop) (hinv : ∀ s i, Inv s → C s i → Inv (step s i))
    (μ : S → ℕ) (c : ℕ) (counts : I → Bool)
    (hμ : ∀ s i, Inv s → C s i → (counts i).toNat + μ (step s i) ≤ μ s + c * (out s i).length) :
    ∀ {is : List I} {s : S}, Inv s → Each C step s is →
      is.countP counts + μ (after step s is) ≤ μ s + c * (collect out step s is).length := by
  intro is
  induction is with
  | nil =>
    intro s _ _
    rw [List.countP_nil, Nat.zero_add]
    exact Nat.le_add_right _ _
  | cons i is ih =>
    rintro s hs ⟨hc, hrest⟩
    have hstep := hμ s i hs hc
    have hle := ih (hinv s i hs hc) hrest
    rw [after_cons, List.countP_cons, collect, List.length_append, Nat.mul_add]
    cases hcount : counts i with
    | true =>
      rw [hcount, Bool.toNat_true] at hstep
      rw [if_pos rfl]
      omega
    | false =>
      rw [hcount, Bool.toNat_false] at hstep
      rw [if_neg Bool.false_ne_true]
      omega

end Run
