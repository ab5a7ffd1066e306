/-
Evaluate/update simulation.

An event-driven kernel runs, in one delta cycle, every method whose sensitivity
list names a signal that changed in the last update phase; all writes become
visible together in the next update phase.  A `Point` holds the signals before
and after the last update, a *delta function* `D prev cur` computes the signals
after the next one, and a point is settled when nothing changed.

* `Method` — what one method does: when it is woken, what it reads, what it
  writes;
* `Method.Awake` — "no event is pending, or the outputs are what the body writes
  now": the invariant that survives a delta cycle when the method covers what it
  reads (`awake_next`);
* `CoversUnder` — the same for a method with reads missing from its sensitivity
  list, as long as the missing ones keep still (`awake_run`);
* `out_run_cases` — what any method has left: the outputs of its last activation, whose
  signals agree with the present ones on the sensitivity list, or those from before.

A body that writes nothing in some branch keeps its outputs, so `body` may read
`out`; the covering conditions are stated to allow it.
-/
import Mathlib.Data.Nat.Init
import RiVerSoC.Run

namespace Delta

/-- The signals before and after the last update phase. -/
structure Point (S : Type*) where
  prev : S
  cur : S

variable {S O : Type*}

/-- Nothing changed in the last update phase. -/
def Point.Settled (p : Point S) : Prop := p.prev = p.cur

instance [DecidableEq S] (p : Point S) : Decidable p.Settled :=
  inferInstanceAs (Decidable (p.prev = p.cur))

/-- One delta cycle: evaluate on `cur`, then update. -/
def next (D : S → S → S) (p : Point S) : Point S := ⟨p.cur, D p.prev p.cur⟩

/-- `n` delta cycles. -/
def run (D : S → S → S) : ℕ → Point S → Point S
  | 0, p => p
  | n + 1, p => run D n (next D p)

@[simp] theorem run_zero (D : S → S → S) (p : Point S) : run D 0 p = p := rfl

theorem run_succ (D : S → S → S) (n : ℕ) (p : Point S) :
    run D (n + 1) p = run D n (next D p) := rfl

theorem run_succ' (D : S → S → S) (n : ℕ) : ∀ p, run D (n + 1) p = next D (run D n p) := by
  induction n with
  | zero =>
    intro p
    rfl
  | succ n ih =>
    intro p
    rw [run_succ, ih, ← run_succ]

/-- The state before an update is the one after the update before it. -/
theorem run_succ_prev (D : S → S → S) (n : ℕ) (p : Point S) :
    (run D (n + 1) p).prev = (run D n p).cur := by
  rw [run_succ']
  rfl

/-- What one delta cycle keeps, of the signals before and after the last update, any number
keeps. -/
theorem inv_run {D : S → S → S} {P : S → S → Prop} (hstep : ∀ a b, P a b → P b (D a b)) (n : ℕ) :
    ∀ {a b : S}, P a b → P (run D n ⟨a, b⟩).prev (run D n ⟨a, b⟩).cur := by
  induction n with
  | zero => exact id
  | succ n ih =>
    intro a b h
    rw [run_succ]
    exact ih (hstep a b h)

theorem run_add (D : S → S → S) (m n : ℕ) : ∀ p, run D (m + n) p = run D n (run D m p) := by
  induction m with
  | zero =>
    intro p
    rw [Nat.zero_add, run_zero]
  | succ m ih =>
    intro p
    rw [Nat.succ_add, run_succ, ih, ← run_succ]

/-- A method of the simulation: `woken a b` when a signal of its sensitivity list
differs between `a` and `b`, `body s` the values it writes when it runs on the
signals `s`, and `out` the signals it writes. -/
structure Method (S O : Type*) where
  woken : S → S → Prop
  body : S → O
  out : S → O

namespace Method

/-- The method that is woken by the signals `listed`. -/
def listening {L : Type*} (listed : S → L) (body out : S → O) : Method S O where
  woken a b := listed a ≠ listed b
  body := body
  out := out

instance {L : Type*} [DecidableEq L] (listed : S → L) (body out : S → O) (a b : S) :
    Decidable ((listening listed body out).woken a b) :=
  inferInstanceAs (Decidable (listed a ≠ listed b))

/-- What one delta cycle makes of the outputs. -/
def fire (m : Method S O) (a b : S) [Decidable (m.woken a b)] : O :=
  if m.woken a b then m.body b else m.out b

variable (m : Method S O) (D : S → S → S)

/-- The delta function runs the method exactly when it is woken, and no other
method writes its outputs. -/
structure DrivenBy : Prop where
  runs : ∀ {a b}, m.woken a b → m.out (D a b) = m.body b
  keeps : ∀ {a b}, ¬ m.woken a b → m.out (D a b) = m.out b

/-- The outputs are what the body would write now. -/
def Fresh (s : S) : Prop := m.out s = m.body s

/-- No event is pending for the method, or else it will run in this delta cycle. -/
def Awake (p : Point S) : Prop := ¬ m.woken p.prev p.cur → m.Fresh p.cur

/-- Between two states related by `R`, the sensitivity list names everything else
that the body reads. -/
def CoversUnder (R : S → S → Prop) : Prop :=
  ∀ {a b}, R a b → ¬ m.woken a b → m.out b = m.body a → m.body b = m.body a

/-- The sensitivity list names everything that the body reads. -/
def Covers : Prop := m.CoversUnder fun _ _ => True

variable {m D} {R : S → S → Prop}

theorem drivenBy_of_fire [∀ a b, Decidable (m.woken a b)]
    (h : ∀ a b, m.out (D a b) = m.fire a b) : m.DrivenBy D where
  runs hw := (h _ _).trans (if_pos hw)
  keeps hw := (h _ _).trans (if_neg hw)

/-- A method that computes its outputs from the signals that wake it covers its
reads. -/
theorem covers_of_factor {L : Type*} {listed : S → L} {body out : S → O} (f : L → O)
    (h : ∀ s, body s = f (listed s)) : (listening listed body out).Covers := by
  intro a b _ hn _
  have hl : listed a = listed b := not_not.mp hn
  change body b = body a
  rw [h, h, hl]

/-- An input update that leaves the reads outside the sensitivity list alone keeps
a fresh method awake. -/
theorem awake_of_fresh (hcov : m.CoversUnder R) {a b : S} (hf : m.Fresh a)
    (hR : R a b) (hout : m.out b = m.out a) : m.Awake ⟨a, b⟩ := by
  intro hn
  have hab : m.out b = m.body a := hout.trans hf
  exact hab.trans (hcov hR hn hab).symm

/-- A fresh method has evaluated its body on the new signals one delta cycle after an
input update, woken or not. -/
theorem out_eq_body_of_fresh (hd : m.DrivenBy D) (hcov : m.CoversUnder R) {a b : S}
    (hf : m.Fresh a) (hR : R a b) (hout : m.out b = m.out a) : m.out (D a b) = m.body b := by
  by_cases hw : m.woken a b
  · exact hd.runs hw
  · exact (hd.keeps hw).trans (awake_of_fresh hcov hf hR hout hw)

/-- An awake method has evaluated its body when the delta cycle is over. -/
theorem out_next_of_awake (hd : m.DrivenBy D) {p : Point S} (h : m.Awake p) :
    m.out (next D p).cur = m.body p.cur := by
  by_cases hw : m.woken p.prev p.cur
  · exact hd.runs hw
  · exact (hd.keeps hw).trans (h hw)

theorem awake_next (hd : m.DrivenBy D) (hcov : m.CoversUnder R) {p : Point S}
    (hR : R p.cur (next D p).cur) (h : m.Awake p) : m.Awake (next D p) := by
  intro hn
  have hout := out_next_of_awake hd h
  exact hout.trans (hcov hR hn hout).symm

/-- The missing reads keep still from delta cycle `k` on. -/
def StillFrom (R : S → S → Prop) (D : S → S → S) (k : ℕ) (p : Point S) : Prop :=
  ∀ j, k ≤ j → R (run D j p).cur (run D (j + 1) p).cur

theorem awake_run (hd : m.DrivenBy D) (hcov : m.CoversUnder R) {p : Point S} {k : ℕ}
    (hstill : StillFrom R D k p) (h : m.Awake (run D k p)) :
    ∀ n, k ≤ n → m.Awake (run D n p) := by
  intro n hkn
  induction n, hkn using Nat.le_induction with
  | base => exact h
  | succ n hkn ih =>
    rw [run_succ']
    refine awake_next hd hcov ?_ ih
    rw [← run_succ']
    exact hstill n hkn

/-- A method that covers its reads stays awake. -/
theorem awake_run_of_covers (hd : m.DrivenBy D) (hcov : m.Covers) {p : Point S}
    (h : m.Awake p) (n : ℕ) : m.Awake (run D n p) :=
  awake_run (k := 0) hd hcov (fun _ _ => trivial) h n (Nat.zero_le n)

/-- A method that covers its reads follows them with a delay of one delta cycle. -/
theorem out_run_succ (hd : m.DrivenBy D) (hcov : m.Covers) {p : Point S}
    (h : m.Awake p) (n : ℕ) : m.out (run D (n + 1) p).cur = m.body (run D n p).cur := by
  rw [run_succ']
  exact out_next_of_awake hd (awake_run_of_covers hd hcov h n)

section Listening

variable {L : Type*} {listed : S → L} {body out : S → O}

/-- A method has run last on signals that agree with the present ones on its list, or it has
not run. -/
theorem out_run_cases (hd : (listening listed body out).DrivenBy D) (p : Point S) (n : ℕ) :
    (∃ k, k ≤ n ∧ listed (run D k p).prev ≠ listed (run D k p).cur ∧
      (∀ l, k < l → l ≤ n → listed (run D l p).prev = listed (run D l p).cur) ∧
      out (run D (n + 1) p).cur = body (run D k p).cur ∧
      listed (run D k p).cur = listed (run D n p).cur) ∨
    (∀ k, k ≤ n → listed (run D k p).prev = listed (run D k p).cur) ∧
      out (run D (n + 1) p).cur = out p.cur ∧ listed p.prev = listed (run D n p).cur := by
  induction n with
  | zero =>
    by_cases hw : listed p.prev = listed p.cur
    · exact .inr ⟨fun k hk => Nat.le_zero.mp hk ▸ hw, hd.keeps (not_not.mpr hw), hw⟩
    · refine .inl ⟨0, Nat.le_refl 0, hw, fun l hl hn => ?_, hd.runs hw, rfl⟩
      exact absurd hn (Nat.not_le.mpr hl)
  | succ n ih =>
    by_cases hw : listed (run D (n + 1) p).prev = listed (run D (n + 1) p).cur
    · have hkept : out (run D (n + 2) p).cur = out (run D (n + 1) p).cur := by
        rw [run_succ' D (n + 1)]
        exact hd.keeps (not_not.mpr hw)
      rw [hkept, ← hw, run_succ_prev]
      rcases ih with ⟨k, hk, hwk, hnone, hout, hlast⟩ | ⟨hnone, hout, hlast⟩
      · refine .inl ⟨k, Nat.le_succ_of_le hk, hwk, fun l hl hn => ?_, hout, hlast⟩
        rcases Nat.le_succ_iff.mp hn with hn | rfl
        · exact hnone l hl hn
        · exact hw
      · refine .inr ⟨fun k hk => ?_, hout, hlast⟩
        rcases Nat.le_succ_iff.mp hk with hk | rfl
        · exact hnone k hk
        · exact hw
    · refine .inl ⟨n + 1, Nat.le_refl _, hw, fun l hl hn => ?_, ?_, rfl⟩
      · exact absurd hn (Nat.not_le.mpr hl)
      · rw [run_succ' D (n + 1)]
        exact hd.runs hw

end Listening

end Method

/-- Sensitivity lists are written with numbers. -/
theorem bool_toNat_inj {a b : Bool} : a.toNat = b.toNat ↔ a = b := by
  cases a <;> cases b <;> decide

/-- A settled point stays settled when a delta cycle without events changes
nothing. -/
theorem settled_run {D : S → S → S} (hD : ∀ s, D s s = s) {p : Point S}
    (hs : p.Settled) : ∀ n, run D n p = p := by
  intro n
  induction n with
  | zero => rfl
  | succ n ih =>
    rw [run_succ', ih]
    cases p with
    | mk a b =>
      obtain rfl : a = b := hs
      simp only [next, hD]

end Delta
