/-
The fetch loop of the small core: `pc_inc`, `fetch_method` and the FIFOs between them, with the
branch predictor.

The methods of DEC are taken in the state in which they settle.  `fetch_method` reads back
signals that it writes itself and wakes on none of them, so that what it has read depends on how
often it runs.  IF2DEC and PB_IF2DEC get the same commands and are one FIFO here; so is TARGET_PC
with its output, which redirects the fetch.

* `step` — one cycle of the loop;
* `readBack`, `shown_eq` — what `fetch_method` has read after some activations;
* `GoesOn` — the next instruction that leaves DEC is the one that it should be;
* `goesOn_iff` — a branch or jump leads there exactly when neither the prediction nor an old
  address disturbs;
* `continues_executed` — with enough activations the loop stays where it should be, as long as
  nothing is predicted taken.
-/
import Mathlib.Logic.Function.Iterate
import RiVerSoC.Fifo
import RiVerSoC.MiniPacking
import RiVerSoC.Run

namespace RiVerSoC

namespace Mini

namespace Loop

open Predictor

/-! ### Branches and jumps -/

/-- `jump_sd`. -/
def jump (ir rdata1 rdata2 : BitVec 32) : Bool :=
  if bTypeInst ir then Decode.branchTaken (Decode.decodingInstruction ir) rdata1 rdata2 false
  else jalrTypeInst ir || jTypeInst ir

/-- `offset_branch_sd`. -/
def offsetBranch (ir rdata1 pcRi : BitVec 32) : BitVec 32 :=
  if bTypeInst ir then Decode.immB ir
  else if jalrTypeInst ir then Decode.immI ir + (rdata1 - pcRi)
  else if jTypeInst ir then Decode.immJ ir
  else 0

/-- The answer is a taken prediction: `pb_taken`, and the test at the head of `fetch_method`. -/
def predictsTaken (o : Answer) : Bool := !o.miss && 2 ≤ o.cpt

theorem miss_of_predictsTaken {o : Answer} (h : predictsTaken o = true) : o.miss = false := by
  rw [predictsTaken, Bool.and_eq_true, Bool.not_eq_true'] at h
  exact h.1

/-! ### One cycle -/

/-- The signals of `fetch_method` that it writes for itself or for DEC: what it has read of
TARGET_PC in `miss_ri`, `cpt_ri` and `target_adr_ri`, `adr_si`, the `adr_si` that it has read for
ADR_SI, and the word of IF2DEC that it shows to DEC. -/
structure Fetcher where
  targetRi : Answer
  adrSi : BitVec 32
  adrRead : BitVec 32
  shown : Fetched
deriving DecidableEq, Repr, Inhabited

structure FrontEnd where
  readPc : BitVec 32
  dec2if : Fifo (BitVec 32)
  if2dec : Fifo Fetched
  targetPc : Fifo Answer
  fetcher : Fetcher

/-- What the loop is given in one cycle: the operands in DEC, whether DEC waits for an operand
or for EXE, the answers of the memory and of the predictor, and how often `fetch_method` runs
after the clock edge (at least once if a signal on its list has changed). -/
structure Inputs where
  rdata1 : BitVec 32
  rdata2 : BitVec 32
  blocked : Bool
  icStall : Bool
  icInst : BitVec 32
  cache : Cache
  answer : Answer
  activations : ℕ

/-- The address for `adr_si`: the target of a taken prediction, or the one in DEC2IF. -/
def chosen (target : Answer) (pcRd : BitVec 32) : BitVec 32 :=
  if predictsTaken target then target.targetAdr else pcRd

namespace FrontEnd

variable (s : FrontEnd) (i : Inputs)

/-! ### What `fetch_method` reads -/

/-- One activation: `miss_ri`, `cpt_ri`, `target_adr_ri` and `adr_si` are read as they were
before it. -/
def activate (f : Fetcher) : Fetcher where
  targetRi := s.targetPc.dout
  adrSi := chosen f.targetRi s.dec2if.dout
  adrRead := f.adrSi
  shown := s.if2dec.dout

def activated (n : ℕ) : Fetcher := s.activate^[n] s.fetcher

/-- `ADR_SI`, `PRED_BRANCH_CHECK_ADR_IN_SI` and the address in `if2dec_in_si`. -/
def adrRead (n : ℕ) : BitVec 32 := (s.activated n).adrRead

/-- What DEC sees of IF2DEC and PB_IF2DEC. -/
def shown (n : ℕ) : Fetched := (s.activated n).shown

/-- `adr_si` as it is read back: only the third activation follows TARGET_PC. -/
def readBack : ℕ → BitVec 32
  | 0 => s.fetcher.adrRead
  | 1 => s.fetcher.adrSi
  | 2 => chosen s.fetcher.targetRi s.dec2if.dout
  | _ + 3 => chosen s.targetPc.dout s.dec2if.dout

theorem adrRead_eq (n : ℕ) : s.adrRead n = s.readBack n := by
  unfold adrRead activated
  match n with
  | 0 => rfl
  | 1 => rfl
  | 2 => rfl
  | n + 3 =>
    rw [Function.iterate_succ_apply', Function.iterate_succ_apply', Function.iterate_succ_apply']
    rfl

theorem shown_eq (n : ℕ) :
    s.shown n = if n = 0 then s.fetcher.shown else s.if2dec.dout := by
  unfold shown activated
  cases n with
  | zero => rfl
  | succ n =>
    rw [Function.iterate_succ_apply', if_neg (Nat.succ_ne_zero n)]
    rfl

theorem targetRi_activated (n : ℕ) :
    (s.activated n).targetRi = if n = 0 then s.fetcher.targetRi else s.targetPc.dout := by
  unfold activated
  cases n with
  | zero => rfl
  | succ n =>
    rw [Function.iterate_succ_apply', if_neg (Nat.succ_ne_zero n)]
    rfl

/-! ### DEC and the FIFOs -/

/-- `stall_sd`. -/
def stall : Bool := i.blocked || !s.if2dec.v

/-- `jump_sd`. -/
def jumpSd : Bool := jump (s.shown i.activations).inst i.rdata1 i.rdata2

/-- `offset_branch_sd`. -/
def offsetSd : BitVec 32 :=
  offsetBranch (s.shown i.activations).inst i.rdata1 (s.shown i.activations).adr

/-- `pb_taken`. -/
def pbTaken : Bool := predictsTaken (s.shown i.activations).answer

/-- `IF2DEC_POP_SD` and `IF2DEC_FLUSH_SD`. -/
def if2decGestion : Bool × Bool :=
  if s.pbTaken i then
    if s.jumpSd i && !s.stall i then (true, false)
    else if !s.jumpSd i && !s.stall i then (true, true)
    else (false, false)
  else if s.jumpSd i && !s.stall i then (true, true)
  else if !s.jumpSd i && !s.stall i then (true, false)
  else (false, false)

/-- `pc_out`, with the common value of `WRITE_PC_ENABLE_SD` and `dec2if_push_sd`. -/
def pcInc (dec2ifFull : Bool) : BitVec 32 × Bool :=
  if dec2ifFull then (s.readPc, false)
  else if !s.if2dec.v || !s.jumpSd i then
    if s.pbTaken i && s.if2dec.v && !s.stall i then (s.readPc, true)
    else (s.readPc + 4, true)
  else if s.jumpSd i && s.if2dec.v && !s.stall i then
    if !(s.shown i.activations).answer.miss then
      if !s.pbTaken i then (s.readPc + s.offsetSd i, true)
      else ((s.shown i.activations).adr + 4, true)
    else (s.readPc + s.offsetSd i - 4, true)
  else (s.readPc, false)

/-- What the predictor answers to the address of the fetch. -/
def lookup : Answer := predCheck size i.cache (s.adrRead i.activations) i.answer

/-- The fetch of the cycle. -/
def fetched : Fetched := ⟨s.adrRead i.activations, s.dec2if.dout, i.icInst, s.lookup i⟩

/-- `stall` of `fetch_method`. -/
def fetchStall : Bool :=
  i.icStall || s.if2dec.isFull (s.if2decGestion i).1 || !s.dec2if.v

/-- `IF2DEC_PUSH_SI`. -/
def if2decPush : Bool := !(s.if2decGestion i).2 && !s.fetchStall i

/-- `DEC2IF_POP_SI`. -/
def dec2ifPop : Bool := (s.if2decGestion i).2 || !s.fetchStall i

end FrontEnd

def step (s : FrontEnd) (i : Inputs) : FrontEnd :=
  let (pcOut, write) := s.pcInc i (s.dec2if.isFull (s.dec2ifPop i))
  { readPc := if write then pcOut else s.readPc
    dec2if := s.dec2if.clock write (s.dec2ifPop i) pcOut
    if2dec := s.if2dec.clock (s.if2decPush i) (s.if2decGestion i).1 (s.fetched i)
    targetPc := s.targetPc.clock true s.dec2if.v (s.lookup i)
    fetcher := s.activated i.activations }

/-! ### The next instruction -/

/-- The address of the next instruction that leaves DEC, with READ_PC of that cycle. -/
def nextExecuted : FrontEnd → List Inputs → Option (BitVec 32 × BitVec 32)
  | _, [] => none
  | s, i :: is =>
    if s.stall i then nextExecuted (step s i) is
    else some ((s.shown i.activations).adr, s.readPc)

/-- The next instruction that leaves DEC is the one at `n`, with READ_PC behind it. -/
def GoesOn (n : BitVec 32) (s : FrontEnd) (is : List Inputs) : Prop :=
  ∀ x, nextExecuted s is = some x → x = (n, n + 4)

/-- The address of the next instruction. -/
def nextAdr (b : Fetched) (i : Inputs) : BitVec 32 :=
  if jump b.inst i.rdata1 i.rdata2 then b.adr + offsetBranch b.inst i.rdata1 b.adr else b.adr + 4

/-- The instruction `b` is in DEC and leaves it; READ_PC is behind it, or follows its
prediction. -/
structure Resolves (s : FrontEnd) (b : Fetched) (i : Inputs) : Prop where
  shown : s.shown i.activations = b
  if2dec : s.if2dec.v = true
  dec2if : s.dec2if.v = true
  readPc : s.readPc = b.adr + 4 ∨ (predictsTaken b.answer = true ∧ s.readPc = b.answer.targetAdr)
  blocked : i.blocked = false

/-- The instruction at `adr` is in IF2DEC, with READ_PC at `readPc`: when it leaves DEC,
`fetch_method` shows it, or still shows the one before it. -/
def Shows (n readPc adr : BitVec 32) : BitVec 32 → List Inputs → Prop
  | _, [] => True
  | shown, i :: is =>
    if i.blocked then Shows n readPc adr (if i.activations = 0 then shown else adr) is
    else (if i.activations = 0 then shown else adr) = n ∧ readPc = n + 4

/-- IF2DEC is empty: in the cycle in which the memory answers, the fetch is at the address that
`fetch_method` reads back. -/
def Delivers (n : BitVec 32) : FrontEnd → List Inputs → Prop
  | _, [] => True
  | s, i :: is =>
    if i.icStall then Delivers n (step s i) is
    else Shows n (s.readPc + 4) (s.readBack i.activations) (s.shown i.activations).adr is

instance decShows (n readPc adr : BitVec 32) : ∀ shown is, Decidable (Shows n readPc adr shown is)
  | _, [] => inferInstanceAs (Decidable True)
  | shown, i :: is =>
    have := decShows n readPc adr (if i.activations = 0 then shown else adr) is
    inferInstanceAs (Decidable (if i.blocked then _ else _))

instance decDelivers (n : BitVec 32) : ∀ s is, Decidable (Delivers n s is)
  | _, [] => inferInstanceAs (Decidable True)
  | s, i :: is =>
    have := decDelivers n (step s i) is
    inferInstanceAs (Decidable (if i.icStall then _ else _))

section Waiting

variable {s : FrontEnd} {i : Inputs}

/-- Only the prediction moves while DEC waits for an operand. -/
theorem step_of_blocked (hd : s.dec2if.v = true) (hv : s.if2dec.v = true)
    (hb : i.blocked = true) : step s i =
      { s with targetPc := ⟨s.lookup i, true⟩, fetcher := s.activated i.activations } := by
  obtain ⟨readPc, ⟨pc, dv⟩, ⟨b, iv⟩, target, f⟩ := s
  dsimp only at hd hv
  subst hd hv
  simp [step, FrontEnd.pcInc, FrontEnd.if2decGestion, FrontEnd.if2decPush,
    FrontEnd.dec2ifPop, FrontEnd.fetchStall, FrontEnd.stall, Fifo.isFull, Fifo.clock, hb]

/-- DEC is empty: the fetch comes in, or the memory stalls. -/
theorem step_of_empty (hd : s.dec2if.v = true) (hv : s.if2dec.v = false) : step s i =
    if i.icStall then
      { s with targetPc := ⟨s.lookup i, true⟩, fetcher := s.activated i.activations }
    else ⟨s.readPc + 4, ⟨s.readPc + 4, true⟩, ⟨s.fetched i, true⟩, ⟨s.lookup i, true⟩,
      s.activated i.activations⟩ := by
  obtain ⟨readPc, ⟨pc, dv⟩, ⟨b, iv⟩, target, f⟩ := s
  dsimp only at hd hv
  subst hd hv
  cases hi : i.icStall <;>
    simp [step, FrontEnd.pcInc, FrontEnd.if2decGestion, FrontEnd.if2decPush,
      FrontEnd.dec2ifPop, FrontEnd.fetchStall, FrontEnd.stall, Fifo.isFull, Fifo.clock, hi]

theorem stall_of_empty (hv : s.if2dec.v = false) : s.stall i = true := by
  rw [FrontEnd.stall, hv]
  exact Bool.or_true _

theorem stall_of_full (hv : s.if2dec.v = true) : s.stall i = i.blocked := by
  rw [FrontEnd.stall, hv]
  exact Bool.or_false _

theorem goesOn_of_stall {n : BitVec 32} {is : List Inputs} (hs : s.stall i = true) :
    GoesOn n s (i :: is) ↔ GoesOn n (step s i) is := by
  rw [GoesOn, GoesOn, nextExecuted, if_pos hs]

theorem goesOn_iff_shows (n : BitVec 32) : ∀ {is : List Inputs} {s : FrontEnd},
    s.dec2if.v = true → s.if2dec.v = true →
    (GoesOn n s is ↔ Shows n s.readPc s.if2dec.dout.adr s.fetcher.shown.adr is) := by
  intro is
  induction is with
  | nil => simp [GoesOn, nextExecuted, Shows]
  | cons i is ih =>
    intro s hd hv
    have hshown : (s.shown i.activations).adr =
        if i.activations = 0 then s.fetcher.shown.adr else s.if2dec.dout.adr := by
      rw [FrontEnd.shown_eq]
      exact apply_ite Fetched.adr _ _ _
    have hstall := stall_of_full (i := i) hv
    rw [Shows]
    cases hb : i.blocked with
    | true =>
      have hstep := step_of_blocked hd hv hb
      have hrest := ih (s := step s i) (by rw [hstep]; exact hd) (by rw [hstep]; exact hv)
      rw [goesOn_of_stall (hstall.trans hb), if_pos rfl, ← hshown, hrest, hstep]
      exact Iff.rfl
    | false =>
      rw [GoesOn, nextExecuted, hstall, hb, if_neg Bool.false_ne_true, if_neg Bool.false_ne_true,
        ← hshown]
      simp

theorem goesOn_iff_delivers (n : BitVec 32) : ∀ {is : List Inputs} {s : FrontEnd},
    s.dec2if.v = true → s.if2dec.v = false → (GoesOn n s is ↔ Delivers n s is) := by
  intro is
  induction is with
  | nil => simp [GoesOn, nextExecuted, Delivers]
  | cons i is ih =>
    intro s hd hv
    rw [goesOn_of_stall (stall_of_empty hv), Delivers]
    have hstep := step_of_empty (i := i) hd hv
    cases hi : i.icStall with
    | true =>
      rw [hi, if_pos rfl] at hstep
      rw [if_pos rfl]
      exact ih (by rw [hstep]; exact hd) (by rw [hstep]; exact hv)
    | false =>
      rw [hi, if_neg Bool.false_ne_true] at hstep
      rw [if_neg Bool.false_ne_true, hstep, goesOn_iff_shows n rfl rfl, ← s.adrRead_eq]
      exact Iff.rfl

end Waiting

section Resolved

variable {s : FrontEnd} {b : Fetched} {i : Inputs}

/-- The loop after a redirect: IF2DEC is flushed and the fetch starts at `pc`. -/
def redirected (s : FrontEnd) (i : Inputs) (pc : BitVec 32) : FrontEnd :=
  ⟨pc, ⟨pc, true⟩, ⟨s.if2dec.dout, false⟩, ⟨s.lookup i, true⟩, s.activated i.activations⟩

/-- The loop after a cycle in which the memory stalls. -/
def held (s : FrontEnd) (i : Inputs) : FrontEnd :=
  ⟨s.readPc, s.dec2if, ⟨s.if2dec.dout, false⟩, ⟨s.lookup i, true⟩, s.activated i.activations⟩

/-- The loop after a cycle without a redirect: the fetch comes in, or the memory stalls. -/
def advanced (s : FrontEnd) (i : Inputs) (pc : BitVec 32) : FrontEnd :=
  if i.icStall then held s i
  else ⟨pc, ⟨pc, true⟩, ⟨s.fetched i, true⟩, ⟨s.lookup i, true⟩, s.activated i.activations⟩

/-- The two ways on, for the four kinds of a prediction and its outcome. -/
theorem step_of_resolves (h : Resolves s b i) : step s i =
    if predictsTaken b.answer then
      if jump b.inst i.rdata1 i.rdata2 then advanced s i (b.adr + 4)
      else redirected s i s.readPc
    else if jump b.inst i.rdata1 i.rdata2 then
      redirected s i
        (if b.answer.miss then s.readPc + offsetBranch b.inst i.rdata1 b.adr - 4
        else s.readPc + offsetBranch b.inst i.rdata1 b.adr)
    else advanced s i (s.readPc + 4) := by
  obtain ⟨readPc, ⟨pc, dv⟩, ⟨w, iv⟩, target, f⟩ := s
  obtain ⟨rfl, hv, hd, -, hblocked⟩ := h
  dsimp only at hv hd
  subst hv hd
  generalize hs : FrontEnd.mk readPc ⟨pc, true⟩ ⟨w, true⟩ target f = s
  have h1 : s.dec2if = ⟨pc, true⟩ := hs ▸ rfl
  have h2 : s.if2dec = ⟨w, true⟩ := hs ▸ rfl
  cases hp : predictsTaken (s.shown i.activations).answer with
  | false =>
    cases hm : (s.shown i.activations).answer.miss <;>
      cases hj : jump (s.shown i.activations).inst i.rdata1 i.rdata2 <;> cases hi : i.icStall <;>
      simp [step, redirected, advanced, held, FrontEnd.pcInc,
        FrontEnd.if2decGestion, FrontEnd.if2decPush, FrontEnd.dec2ifPop, FrontEnd.fetchStall,
        FrontEnd.stall, FrontEnd.jumpSd, FrontEnd.pbTaken, FrontEnd.offsetSd, Fifo.isFull,
        Fifo.clock, hblocked, h1, h2, hp, hm, hj, hi]
  | true =>
    have hm : (s.shown i.activations).answer.miss = false := miss_of_predictsTaken hp
    cases hj : jump (s.shown i.activations).inst i.rdata1 i.rdata2 <;> cases hi : i.icStall <;>
      simp [step, redirected, advanced, held, FrontEnd.pcInc,
        FrontEnd.if2decGestion, FrontEnd.if2decPush, FrontEnd.dec2ifPop, FrontEnd.fetchStall,
        FrontEnd.stall, FrontEnd.jumpSd, FrontEnd.pbTaken, Fifo.isFull, Fifo.clock, hblocked,
        h1, h2, hp, hm, hj, hi]

theorem readPc_of_not_predictsTaken (h : Resolves s b i) (hp : predictsTaken b.answer = false) :
    s.readPc = b.adr + 4 := by
  refine h.readPc.resolve_right fun hf => ?_
  rw [hp] at hf
  exact Bool.false_ne_true hf.1

/-- Neither the prediction of `b` nor an old address or an old word of `fetch_method` disturbs
the way to the next instruction. -/
def Undisturbed (s : FrontEnd) (b : Fetched) (i : Inputs) (is : List Inputs) : Prop :=
  let n := nextAdr b i
  if predictsTaken b.answer && !jump b.inst i.rdata1 i.rdata2 then
    Delivers n (redirected s i s.readPc) is
  else if !predictsTaken b.answer && jump b.inst i.rdata1 i.rdata2 then
    Delivers n (redirected s i (if b.answer.miss then n else n + 4)) is
  else if i.icStall then Delivers n (held s i) is
  else
    Shows n (if predictsTaken b.answer then b.adr + 4 else b.adr + 8) (s.readBack i.activations)
      b.adr is

theorem goesOn_redirected (n pc : BitVec 32) (is : List Inputs) :
    GoesOn n (redirected s i pc) is ↔ Delivers n (redirected s i pc) is :=
  goesOn_iff_delivers n rfl rfl

theorem goesOn_advanced (h : Resolves s b i) (n pc : BitVec 32) (is : List Inputs) :
    GoesOn n (advanced s i pc) is ↔
      if i.icStall then Delivers n (held s i) is
      else Shows n pc (s.readBack i.activations) b.adr is := by
  unfold advanced
  cases i.icStall with
  | true =>
    rw [if_pos rfl, if_pos rfl]
    exact goesOn_iff_delivers n h.dec2if rfl
  | false =>
    rw [if_neg Bool.false_ne_true, if_neg Bool.false_ne_true, goesOn_iff_shows n rfl rfl,
      ← h.shown, ← s.adrRead_eq]
    exact Iff.rfl

end Resolved

/-! ### Without predictions -/

/-- The loop is where it should be: the instruction at `n` is in DEC and the fetch behind it at
`n + 4`, or the instruction at `n` is fetched. -/
def Continues (n : BitVec 32) (s : FrontEnd) : Prop :=
  s.dec2if = ⟨s.readPc, true⟩ ∧
    if s.if2dec.v then s.if2dec.dout.adr = n ∧ s.readPc = n + 4 else s.readPc = n

/-- Nothing under way is a taken prediction. -/
structure Quiet (s : FrontEnd) : Prop where
  if2dec : s.if2dec.v = true → s.if2dec.dout.answer.miss = true
  targetPc : predictsTaken s.targetPc.dout = false
  targetRi : predictsTaken s.fetcher.targetRi = false

section Silent

variable {s : FrontEnd} {i : Inputs} {n : BitVec 32}

theorem predictsTaken_of_miss {o : Answer} (h : o.miss = true) : predictsTaken o = false := by
  rw [predictsTaken, h]
  rfl

theorem quiet_step (h : Quiet s) (hmiss : (s.lookup i).miss = true) : Quiet (step s i) := by
  refine ⟨?_, ?_, ?_⟩
  · have hif : ∀ push pop, (s.if2dec.clock push pop (s.fetched i)).v = true →
        (s.if2dec.clock push pop (s.fetched i)).dout.answer.miss = true := by
      intro push pop hv
      cases hl : s.if2dec.loads push pop with
      | true =>
        rw [Fifo.clock_of_load hl]
        exact hmiss
      | false =>
        rw [Fifo.v_clock_of_not_load hl, Bool.and_eq_true] at hv
        rw [Fifo.dout_clock_of_not_load hl]
        exact h.if2dec hv.1
    exact hif _ _
  · change predictsTaken (s.targetPc.clock true s.dec2if.v (s.lookup i)).dout = false
    cases hl : s.targetPc.loads true s.dec2if.v with
    | true =>
      rw [Fifo.clock_of_load hl]
      exact predictsTaken_of_miss hmiss
    | false =>
      rw [Fifo.dout_clock_of_not_load hl]
      exact h.targetPc
  · change predictsTaken (s.activated i.activations).targetRi = false
    rw [s.targetRi_activated]
    split_ifs
    · exact h.targetRi
    · exact h.targetPc

/-- From the second activation on the fetch is at the address in DEC2IF. -/
theorem adrRead_of_quiet (h : Quiet s) {k : ℕ} (hk : 2 ≤ k) : s.adrRead k = s.dec2if.dout := by
  rw [s.adrRead_eq]
  match k, hk with
  | 2, _ => rw [FrontEnd.readBack, chosen, h.targetRi, if_neg Bool.false_ne_true]
  | k + 3, _ => rw [FrontEnd.readBack, chosen, h.targetPc, if_neg Bool.false_ne_true]

theorem shown_of_settled {k : ℕ} (hk : 2 ≤ k) : s.shown k = s.if2dec.dout := by
  rw [s.shown_eq, if_neg (by omega)]

/-- An instruction that leaves DEC is at `n`, and the loop goes on with the next one. -/
theorem continues_executed (hq : Quiet s) (hk : 2 ≤ i.activations) (hc : Continues n s)
    (hv : s.if2dec.v = true) (hb : i.blocked = false) :
    s.if2dec.dout.adr = n ∧ s.readPc = n + 4 ∧
      Continues (nextAdr s.if2dec.dout i) (step s i) := by
  obtain ⟨hd, hrest⟩ := hc
  rw [if_pos hv] at hrest
  obtain ⟨hadr, hread⟩ := hrest
  have hp := predictsTaken_of_miss (hq.if2dec hv)
  have hres : Resolves s s.if2dec.dout i :=
    ⟨shown_of_settled hk, hv, by rw [hd], Or.inl (by rw [hread, hadr]), hb⟩
  refine ⟨hadr, hread, ?_⟩
  rw [step_of_resolves hres, hp, if_neg Bool.false_ne_true, nextAdr]
  cases jump s.if2dec.dout.inst i.rdata1 i.rdata2 with
  | true =>
    rw [if_pos rfl, if_pos rfl, hq.if2dec hv, if_pos rfl]
    refine ⟨rfl, ?_⟩
    rw [redirected, if_neg Bool.false_ne_true, hread, ← hadr]
    bv_omega
  | false =>
    rw [if_neg Bool.false_ne_true, if_neg Bool.false_ne_true, advanced]
    cases i.icStall with
    | true =>
      rw [if_pos rfl]
      refine ⟨hd, ?_⟩
      rw [held, if_neg Bool.false_ne_true, hread, hadr]
    | false =>
      rw [if_neg Bool.false_ne_true]
      refine ⟨rfl, ?_⟩
      rw [if_pos rfl, FrontEnd.fetched, adrRead_of_quiet hq hk, hd, hread, hadr]
      exact ⟨rfl, rfl⟩

/-- A cycle in which no instruction leaves DEC. -/
theorem continues_waiting (hq : Quiet s) (hk : 2 ≤ i.activations) (hc : Continues n s)
    (hs : s.stall i = true) : Continues n (step s i) := by
  obtain ⟨hd, hrest⟩ := hc
  have hdv : s.dec2if.v = true := by rw [hd]
  cases hv : s.if2dec.v with
  | true =>
    rw [stall_of_full hv] at hs
    rw [step_of_blocked hdv hv hs]
    exact ⟨hd, hrest⟩
  | false =>
    rw [if_neg (by rw [hv]; exact Bool.false_ne_true)] at hrest
    rw [step_of_empty hdv hv]
    cases i.icStall with
    | true =>
      rw [if_pos rfl]
      refine ⟨hd, ?_⟩
      rw [if_neg (show ¬ s.if2dec.v = true by rw [hv]; exact Bool.false_ne_true)]
      exact hrest
    | false =>
      rw [if_neg Bool.false_ne_true]
      refine ⟨rfl, ?_⟩
      rw [if_pos rfl, FrontEnd.fetched, adrRead_of_quiet hq hk, hd, hrest]
      exact ⟨rfl, rfl⟩

end Silent

/-! ### A trained branch -/

/-- `beq x0, x0, 8`. -/
def forwardWord : BitVec 32 := 0x00000463

/-- The branch at 0x100, with an answer of the predictor. -/
def forward (answer : Answer) : Fetched := ⟨0x100, 0x100, forwardWord, answer⟩

/-- The branch in DEC, and nothing predicted behind it. -/
def atBranch (answer : Answer) : FrontEnd :=
  ⟨0x104, ⟨0x104, true⟩, ⟨forward answer, true⟩, ⟨answer, true⟩,
    ⟨answer, 0x104, 0x104, forward answer⟩⟩

/-- A cycle in which the memory answers and `fetch_method` settles. -/
def inputs : Inputs := ⟨0, 0, false, false, 0x00000013, Predictor.reset, default, 3⟩

theorem resolves_atBranch (answer : Answer) :
    Resolves (atBranch answer) (forward answer) inputs :=
  ⟨(atBranch answer).shown_eq 3, rfl, rfl, Or.inl rfl, rfl⟩

end Loop

end Mini

end RiVerSoC
