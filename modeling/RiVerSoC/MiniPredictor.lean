/-
The branch predictor of the small core between fetch and EXE.

Fetch looks an address up and sends the answer down the pipeline; EXE makes a command for the
predictor when the instruction gets there, which may be after other branches have rewritten the
slot.  The thread of the predictor wakes up when a signal of the command changes.

* `Machine`, `step` — lookups, commands and squashed instructions in any order;
* `Reaches`, `Unique` — updates change only the counter of their own branch, and no address is
  held twice;
* `each_reaches_iff` — along a run both hold exactly when every branch that hit still finds its
  address in slot 1, or the counter that it sends.
-/
import RiVerSoC.MiniPacking
import RiVerSoC.Run

namespace RiVerSoC

namespace Mini

namespace Prediction

open BitRange Predictor

/-- The predictor, its outputs, the instructions in flight, the oldest first, and the command
of EXE. -/
structure Machine where
  cache : Cache
  answer : Answer
  inFlight : List Fetched
  command : Command

/-- A fetch, the arrival of the oldest instruction in EXE, or a flush that keeps the oldest
instructions. -/
inductive Event
  | fetch (adr pcRd inst : BitVec 32)
  | resolve (d : Decoded)
  | squash (keep : ℕ)
deriving DecidableEq, Repr, Inhabited

def reset : Machine := ⟨Predictor.reset, default, [], ⟨0, 0, 0, 0, false, 0⟩⟩

/-- A new command; the thread of the predictor does not see one that equals the last. -/
def Machine.send (m : Machine) (w : Command) : Machine :=
  { m with cache := if w = m.command then m.cache else predWrite m.cache w, command := w }

def step (m : Machine) : Event → Machine
  | .fetch adr pcRd inst =>
    let answer := predCheck size m.cache adr m.answer
    { m with answer := answer, inFlight := m.inFlight ++ [⟨adr, pcRd, inst, answer⟩] }
  | .resolve d =>
    match m.inFlight with
    | [] => m
    | f :: inFlight => { m with inFlight := inFlight }.send (Mini.command f d m.command)
  | .squash keep => { m with inFlight := m.inFlight.take keep }

/-- An update changes no address, and only the counter of an entry with the address of the
resolved branch. -/
def Reaches (m : Machine) (e : Event) : Prop :=
  ∀ d f, e = .resolve d → m.inFlight.head? = some f → (Mini.command f d m.command).cmd = 2 →
    ∀ i, ((step m e).cache.slot i).branchInstAdr = (m.cache.slot i).branchInstAdr ∧
      ((step m e).cache.slot i).branchTargetAdr = (m.cache.slot i).branchTargetAdr ∧
      (((step m e).cache.slot i).branchCounter ≠ (m.cache.slot i).branchCounter →
        (m.cache.slot i).present = true ∧ (m.cache.slot i).branchInstAdr = f.adr)

/-- No two present entries hold one address. -/
def Unique (m : Machine) : Prop :=
  ∀ i j, (m.cache.slot i).present = true → (m.cache.slot j).present = true →
    (m.cache.slot i).branchInstAdr = (m.cache.slot j).branchInstAdr → i = j

/-- A branch that hit at fetch finds its address in slot 1, or the counter that it sends. -/
def Timely (m : Machine) (e : Event) : Prop :=
  ∀ d f, e = .resolve d → m.inFlight.head? = some f → bTypeInst f.inst = true →
    f.answer.miss = false → (m.cache.slot 1).branchInstAdr = f.adr ∨
      (m.cache.slot 1).branchCounter = saturating f.answer.cpt d.jump

/-! ### The invariant -/

/-- Only slot 1 is ever present: the flag of a branch takes the place of the low bit of the
pointer.  The last update left its counter there. -/
structure Inv (m : Machine) : Prop where
  absent : ∀ i, (m.cache.slot i).present = true → i = 1
  pointers : ∀ f ∈ m.inFlight, setBit f.answer.pnt 0 true = 1
  hits : ∀ f ∈ m.inFlight, f.answer.miss = false → (m.cache.slot 1).present = true
  updated : m.command.cmd = 2 → (m.cache.slot 1).branchCounter = m.command.cpt

theorem inv_reset : Inv reset where
  absent _ h := absurd h Bool.false_ne_true
  pointers _ h := absurd h List.not_mem_nil
  hits _ h := absurd h List.not_mem_nil
  updated h := absurd h (by decide)

section Commands

variable {c : Cache} {w : Command}

/-- A command for slot 1 leaves the other slots absent and slot 1 present. -/
theorem absent_predWrite (h : ∀ i, (c.slot i).present = true → i = 1) (hw : w.cmd ≠ 0 → w.pnt = 1)
    {i : BitVec 2} (hi : ((predWrite c w).slot i).present = true) : i = 1 := by
  by_cases hcmd : w.cmd = 0
  · rw [predWrite, if_pos hcmd] at hi
    exact h i hi
  · by_cases hne : i = w.pnt
    · rw [hne, hw hcmd]
    · rw [slot_predWrite_of_ne hne] at hi
      exact h i hi

theorem present_one_predWrite (hw : w.cmd ≠ 0 → w.pnt = 1)
    (h : (c.slot 1).present = true) : ((predWrite c w).slot 1).present = true := by
  by_cases hcmd : w.cmd = 0
  · rw [predWrite, if_pos hcmd]
    exact h
  · rw [← hw hcmd]
    exact present_predWrite hcmd

end Commands

variable {m : Machine}

/-- A lookup names slot 0 or 1. -/
theorem pnt_predCheck (c : Cache) (adr : BitVec 32) (old : Answer) :
    setBit (predCheck size c adr old).pnt 0 true = 1 := by
  have hslots : ∀ i ∈ slots size, setBit i 0 true = 1 := by decide
  cases hhold : lastHolding size c adr with
  | some i =>
    rw [predCheck_of_hit hhold]
    exact hslots i (holds_of_lastHolding hhold).1
  | none =>
    rw [pnt_of_miss hhold]
    cases hlow : lastOfLow size c with
    | none => decide
    | some i => exact hslots i (low_of_lastOfLow hlow).1

theorem pnt_of_inFlight (h : Inv m) {f : Fetched} (hf : f ∈ m.inFlight) {d : Decoded}
    (hcmd : (Mini.command f d m.command).cmd ≠ 0) : (Mini.command f d m.command).pnt = 1 := by
  cases hb : bTypeInst f.inst with
  | false =>
    rw [cmd_command, hb] at hcmd
    exact absurd rfl hcmd
  | true => rw [pnt_command hb, h.pointers f hf]

/-- The invariant survives a command that is meant for slot 1. -/
theorem inv_send (h : Inv m) {w : Command} (hw : w.cmd ≠ 0 → w.pnt = 1) : Inv (m.send w) := by
  unfold Machine.send
  by_cases heq : w = m.command
  · rw [if_pos heq, heq]
    exact h
  · rw [if_neg heq]
    refine ⟨fun i => absent_predWrite h.absent hw, h.pointers, fun f hf hmiss => ?_, ?_⟩
    · exact present_one_predWrite hw (h.hits f hf hmiss)
    · intro hcmd
      have hpnt : w.pnt = 1 := hw (by rw [show w.cmd = 2 from hcmd]; decide)
      have hcounter := branchCounter_predWrite (c := m.cache) (w := w)
      rw [if_pos (Or.inr hcmd), hpnt] at hcounter
      exact hcounter

/-- Fewer instructions in flight. -/
theorem inv_of_subset (h : Inv m) {l : List Fetched} (hl : l ⊆ m.inFlight) :
    Inv { m with inFlight := l } where
  absent := h.absent
  pointers f hf := h.pointers f (hl hf)
  hits f hf := h.hits f (hl hf)
  updated := h.updated

theorem inv_step (h : Inv m) (e : Event) : Inv (step m e) := by
  cases e with
  | fetch adr pcRd inst =>
    refine ⟨h.absent, fun f hf => ?_, fun f hf hmiss => ?_, h.updated⟩
    · rcases List.mem_append.mp hf with hold | hnew
      · exact h.pointers f hold
      · rw [List.mem_singleton.mp hnew]
        exact pnt_predCheck _ _ _
    · rcases List.mem_append.mp hf with hold | hnew
      · exact h.hits f hold hmiss
      · rw [List.mem_singleton.mp hnew] at hmiss
        change (predCheck size m.cache adr m.answer).miss = false at hmiss
        rw [miss_predCheck] at hmiss
        -- The slot that answers is present, so it is slot 1.
        obtain ⟨i, hi⟩ := Option.isSome_iff_exists.mp (Option.isNone_eq_false_iff.mp hmiss)
        have hholds := (holds_of_lastHolding hi).2
        rw [Slot.holds, Bool.and_eq_true] at hholds
        rw [← h.absent i hholds.1]
        exact hholds.1
  | resolve d =>
    cases hfl : m.inFlight with
    | nil =>
      rw [step, hfl]
      exact h
    | cons f fs =>
      rw [step, hfl]
      refine inv_send (inv_of_subset h ?_) (pnt_of_inFlight h ?_)
      · rw [hfl]
        exact List.subset_cons_self f fs
      · rw [hfl]
        exact List.mem_cons_self
  | squash keep => exact inv_of_subset h (List.take_subset keep m.inFlight)

theorem unique (h : Inv m) : Unique m :=
  fun i j hi hj _ => (h.absent i hi).trans (h.absent j hj).symm

/-! ### One update -/

section Update

variable {w : Command}

theorem adrs_send (hcmd : w.cmd = 2) (i : BitVec 2) :
    ((m.send w).cache.slot i).branchInstAdr = (m.cache.slot i).branchInstAdr ∧
      ((m.send w).cache.slot i).branchTargetAdr = (m.cache.slot i).branchTargetAdr := by
  unfold Machine.send
  by_cases heq : w = m.command
  · rw [if_pos heq]
    exact ⟨rfl, rfl⟩
  · rw [if_neg heq]
    exact adrs_predWrite (by rw [hcmd]; decide)

theorem slot_send_of_ne (hpnt : w.pnt = 1) {i : BitVec 2} (hi : i ≠ 1) :
    (m.send w).cache.slot i = m.cache.slot i := by
  unfold Machine.send
  by_cases heq : w = m.command
  · rw [if_pos heq]
  · rw [if_neg heq]
    exact slot_predWrite_of_ne (hpnt ▸ hi)

/-- An update that the thread does not see has been made before. -/
theorem branchCounter_send (h : Inv m) (hcmd : w.cmd = 2) (hpnt : w.pnt = 1) :
    ((m.send w).cache.slot 1).branchCounter = w.cpt := by
  unfold Machine.send
  by_cases heq : w = m.command
  · rw [if_pos heq, heq]
    exact h.updated (heq ▸ hcmd)
  · have hcounter := branchCounter_predWrite (c := m.cache) (w := w)
    rw [if_pos (Or.inr hcmd), hpnt] at hcounter
    rw [if_neg heq]
    exact hcounter

/-- An update reaches its branch if slot 1 is that of the branch, or has the counter already. -/
theorem reaches_send_iff (h : Inv m) (hcmd : w.cmd = 2) (hpnt : w.pnt = 1)
    (hpresent : (m.cache.slot 1).present = true) (adr : BitVec 32) :
    (∀ i, ((m.send w).cache.slot i).branchInstAdr = (m.cache.slot i).branchInstAdr ∧
      ((m.send w).cache.slot i).branchTargetAdr = (m.cache.slot i).branchTargetAdr ∧
      (((m.send w).cache.slot i).branchCounter ≠ (m.cache.slot i).branchCounter →
        (m.cache.slot i).present = true ∧ (m.cache.slot i).branchInstAdr = adr)) ↔
      (m.cache.slot 1).branchInstAdr = adr ∨ (m.cache.slot 1).branchCounter = w.cpt := by
  constructor
  · intro hall
    by_cases hsame : (m.cache.slot 1).branchCounter = w.cpt
    · exact Or.inr hsame
    · have hchange : ((m.send w).cache.slot 1).branchCounter ≠ (m.cache.slot 1).branchCounter := by
        rw [branchCounter_send h hcmd hpnt]
        exact Ne.symm hsame
      exact Or.inl ((hall 1).2.2 hchange).2
  · intro hor i
    refine ⟨(adrs_send hcmd i).1, (adrs_send hcmd i).2, fun hchange => ?_⟩
    by_cases hi : i = 1
    · subst hi
      refine ⟨hpresent, hor.resolve_right fun hsame => ?_⟩
      rw [branchCounter_send h hcmd hpnt, hsame] at hchange
      exact hchange rfl
    · rw [slot_send_of_ne hpnt hi] at hchange
      exact absurd rfl hchange

end Update

/-- A resolved branch that hit. -/
theorem cmd_eq_two_iff (f : Fetched) (d : Decoded) (old : Command) :
    (Mini.command f d old).cmd = 2 ↔ bTypeInst f.inst = true ∧ f.answer.miss = false := by
  rw [cmd_command]
  cases bTypeInst f.inst <;> cases f.answer.miss <;> decide

theorem cpt_of_hit {f : Fetched} (hb : bTypeInst f.inst = true) (hmiss : f.answer.miss = false)
    (d : Decoded) (old : Command) :
    (Mini.command f d old).cpt = saturating f.answer.cpt d.jump := by
  rw [command_of_branch hb, hmiss, ← counter_eq]
  rfl

theorem reaches_iff (h : Inv m) (e : Event) : Reaches m e ↔ Timely m e := by
  have hone : ∀ d f, e = .resolve d → m.inFlight.head? = some f →
      bTypeInst f.inst = true → f.answer.miss = false →
      ((∀ i, ((step m e).cache.slot i).branchInstAdr = (m.cache.slot i).branchInstAdr ∧
        ((step m e).cache.slot i).branchTargetAdr = (m.cache.slot i).branchTargetAdr ∧
        (((step m e).cache.slot i).branchCounter ≠ (m.cache.slot i).branchCounter →
          (m.cache.slot i).present = true ∧ (m.cache.slot i).branchInstAdr = f.adr)) ↔
        (m.cache.slot 1).branchInstAdr = f.adr ∨
          (m.cache.slot 1).branchCounter = saturating f.answer.cpt d.jump) := by
    rintro d f rfl hf hb hmiss
    obtain ⟨fs, hfs⟩ := List.head?_eq_some_iff.mp hf
    have hmem : f ∈ m.inFlight := by
      rw [hfs]
      exact List.mem_cons_self
    have hcmd := (cmd_eq_two_iff f d m.command).mpr ⟨hb, hmiss⟩
    have hpnt := pnt_of_inFlight h hmem (d := d) (by rw [hcmd]; decide)
    have hinv : Inv { m with inFlight := fs } := inv_of_subset h (by
      rw [hfs]
      exact List.subset_cons_self f fs)
    have hiff := reaches_send_iff hinv hcmd hpnt (h.hits f hmem hmiss) f.adr
    rw [cpt_of_hit hb hmiss] at hiff
    have hstep : step m (.resolve d) = { m with inFlight := fs }.send
        (Mini.command f d m.command) := by
      rw [step, hfs]
    rw [hstep]
    exact hiff
  constructor
  · intro hr d f he hf hb hmiss
    exact (hone d f he hf hb hmiss).mp (hr d f he hf ((cmd_eq_two_iff _ _ _).mpr ⟨hb, hmiss⟩))
  · intro ht d f he hf hcmd
    obtain ⟨hb, hmiss⟩ := (cmd_eq_two_iff _ _ _).mp hcmd
    exact (hone d f he hf hb hmiss).mpr (ht d f he hf hb hmiss)

/-! ### Whole runs -/

/-- Along a run every update reaches its branch, and no address is held twice, exactly when every
branch that hit still finds its address in slot 1, or the counter that it sends. -/
theorem each_reaches_iff (es : List Event) :
    Run.Each (fun m e => Reaches m e ∧ Unique (step m e)) step reset es ↔
      Run.Each Timely step reset es := by
  refine Run.each_iff_each Inv (fun m e h => ?_) (fun m e h _ => inv_step h e) inv_reset
  rw [reaches_iff h e]
  exact and_iff_left (unique (inv_step h e))

/-- `bne x0, x0, 0`, which is never taken. -/
def stayWord : BitVec 32 := 0x00001063

/-- `beq x0, x0, -4`. -/
def backWord : BitVec 32 := 0xFE000EE3

/-- The branch at 0x20 has been written and leads back to 0x1C.  It is fetched again behind the
untaken branch there, which takes its slot before the update. -/
def replaced : List Event :=
  [.fetch 0x20 0x20 backWord, .resolve (branchOnX0 (-4) true), .fetch 0x1C 0x1C stayWord,
    .fetch 0x20 0x20 backWord, .resolve (branchOnX0 0 false), .resolve (branchOnX0 (-4) true)]

theorem not_each_reaches_replaced :
    ¬ Run.Each (fun m e => Reaches m e ∧ Unique (step m e)) step reset replaced := by
  rintro ⟨-, -, -, -, -, ⟨hreach, -⟩, -⟩
  have hslot := ((hreach (branchOnX0 (-4) true) _ rfl rfl (by decide +kernel) 1).2.2
    (by decide +kernel)).2
  exact absurd hslot (by decide +kernel)

end Prediction

end Mini

end RiVerSoC
