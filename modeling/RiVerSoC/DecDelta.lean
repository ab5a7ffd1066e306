/-
The delta cycles of the hazard detection of DEC.

The instruction goes through the decoder to the register numbers, the registers, to
`bypasses` and to `stall_method`.  `bypasses` reads six signals that do not wake it:
`MEM_LOAD_RD`, `MULT_INST_RD`, `CSR_WENABLE_RE`, `CSR_RDATA_RE`, `CSR_WENABLE_RM` and
`CSR_RDATA_RM`.

* `apply_eq_settle` — the signals settle on those of the contents of the pipeline, except for
  what `bypasses` has written, which may be from before;
* `Stage` — the signals between two cycles, with nothing pending;
* `each_decisions` — along every sequence of contents that wake `bypasses` when it has to
  run, the decisions and the valid operands are those computed from scratch.
-/
import RiVerSoC.Dec
import RiVerSoC.Delta
import RiVerSoC.Run

namespace RiVerSoC

namespace Dec

open Delta

/-- The contents of the pipeline and of the registers. -/
structure Contents where
  ir : BitVec 32
  if2decEmpty : Bool
  stages : Stages
  dec2exeFull : Bool
  registers : Vector (BitVec 32) 33
deriving DecidableEq

instance : Inhabited Contents := ⟨0, false, default, false, Vector.replicate 33 0⟩

/-- A read port of the registers. -/
def Contents.register (i : Contents) (radr : BitVec 6) : BitVec 32 :=
  i.registers[radr.toNat]?.getD 0

/-- The signals between the methods. -/
@[ext]
structure Sig where
  inp : Contents
  types : Decode.Types
  insts : Decode.Insts
  radr : BitVec 6 × BitVec 6
  rdataSr : BitVec 32 × BitVec 32
  haz : Hazards
  csrInProgress : Bool
  stallSd : Bool
deriving DecidableEq, Inhabited

/-! ### Methods and their sensitivity lists -/

abbrev typesM : Method Sig Decode.Types :=
  .listening (fun s => s.inp.ir) (fun s => Decode.decodingInstructionType s.inp.ir) Sig.types

abbrev instsM : Method Sig Decode.Insts :=
  .listening (fun s => s.inp.ir) (fun s => Decode.decodingInstruction s.inp.ir) Sig.insts

/-- `pre_reg_read_decoding`. -/
abbrev radrM : Method Sig (BitVec 6 × BitVec 6) :=
  .listening (fun s => (s.inp.ir, s.types, s.insts))
    (fun s => (Decode.radr1 s.types s.insts s.inp.ir, Decode.radr2 s.types s.inp.ir)) Sig.radr

/-- `reading_adresses` of the register file. -/
abbrev readM : Method Sig (BitVec 32 × BitVec 32) :=
  .listening (fun s => (s.radr, s.inp.registers))
    (fun s => (s.inp.register s.radr.1, s.inp.register s.radr.2)) Sig.rdataSr

/-- The contents on the sensitivity list of `bypasses`. -/
def bypassesListed (p : Stages) : List ℕ :=
  [p.re.dest.toNat, p.re.exeRes.toNat, p.destRm.toNat, p.rm.memRes.toNat, p.rd.dest.toNat,
    p.exe2memEmpty.toNat, p.re.multInst.toNat, p.rm.multInst.toNat, p.dec2exeEmpty.toNat,
    p.re.memLoad.toNat, p.mem2wbkEmpty.toNat]

/-- The other signals on it. -/
def bypassesSignals (s : Sig) := (s.rdataSr, s.radr, s.insts.csrrc)

abbrev bypassesM : Method Sig Hazards :=
  .listening (fun s => (bypassesSignals s, bypassesListed s.inp.stages))
    (fun s => bypasses s.inp.stages s.insts.csrrc s.radr.1 s.radr.2 s.rdataSr.1 s.rdataSr.2 s.haz)
    Sig.haz

/-- The sensitivity list of `stall_method`, but for `csr_wenable_sd` and
`pred_success_sd`, which it does not read. -/
structure StallListed where
  types : Decode.Types
  valid : Bool × Bool
  blockInDec : Bool
  dependenceOnMult : Bool
  csrWenableRd : Bool
  dec2exeEmpty : Bool
  csrWenableRe : Bool
  exe2memEmpty : Bool
  csrInProgress : Bool
  if2decEmpty : Bool
  dec2exeFull : Bool
deriving DecidableEq

def stallListed (s : Sig) : StallListed where
  types := s.types
  valid := (s.haz.r1Valid, s.haz.r2Valid)
  blockInDec := s.haz.blockInDec
  dependenceOnMult := s.haz.dependenceOnMult
  csrWenableRd := s.inp.stages.rd.csrWenable
  dec2exeEmpty := s.inp.stages.dec2exeEmpty
  csrWenableRe := s.inp.stages.re.csrWenable
  exe2memEmpty := s.inp.stages.exe2memEmpty
  csrInProgress := s.csrInProgress
  if2decEmpty := s.inp.if2decEmpty
  dec2exeFull := s.inp.dec2exeFull

/-- `stall_method` reads `csr_in_progress`, which it writes. -/
abbrev stallM : Method Sig (Bool × Bool) :=
  .listening stallListed
    (fun s => (csrInProgress s.inp.stages,
      stall s.csrInProgress s.types s.haz s.inp.if2decEmpty s.inp.dec2exeFull))
    (fun s => (s.csrInProgress, s.stallSd))

instance (a b : Sig) : Decidable (bypassesM.woken a b) := inferInstance

/-- One delta cycle. -/
def delta (a b : Sig) : Sig where
  inp := b.inp
  types := typesM.fire a b
  insts := instsM.fire a b
  radr := radrM.fire a b
  rdataSr := readM.fire a b
  haz := bypassesM.fire a b
  csrInProgress := (stallM.fire a b).1
  stallSd := (stallM.fire a b).2

/-! ### The values of the contents -/

/-- The signals that the methods compute from the contents `i`, when the hazards before
were `old`. -/
def evaluate (i : Contents) (old : Hazards) : Sig :=
  let types := Decode.decodingInstructionType i.ir
  let insts := Decode.decodingInstruction i.ir
  let radr := (Decode.radr1 types insts i.ir, Decode.radr2 types i.ir)
  let rdataSr := (i.register radr.1, i.register radr.2)
  let haz := bypasses i.stages insts.csrrc radr.1 radr.2 rdataSr.1 rdataSr.2 old
  { inp := i
    types := types
    insts := insts
    radr := radr
    rdataSr := rdataSr
    haz := haz
    csrInProgress := csrInProgress i.stages
    stallSd := stall (csrInProgress i.stages) types haz i.if2decEmpty i.dec2exeFull }

/-- The signals computed from scratch. -/
def scratch (i : Contents) : Sig := evaluate i default

/-- The signals after the initial activation of all methods. -/
def reset : Sig := scratch default

/-- New contents, and then `n` delta cycles. -/
def presenting (c : Sig) (i : Contents) (n : ℕ) : Point Sig := run delta n ⟨c, { c with inp := i }⟩

/-- New contents, and then delta cycles until nothing moves; `settled_presenting` says
that six are enough. -/
def apply (c : Sig) (i : Contents) : Sig := (presenting c i 6).cur

/-- `bypasses` is woken, or would write again what it wrote. -/
def Rouses (c : Sig) (i : Contents) : Prop :=
  bypassesListed c.inp.stages ≠ bypassesListed i.stages ∨
    bypassesSignals c ≠ bypassesSignals (evaluate i c.haz) ∨ c.haz = (evaluate i c.haz).haz

instance (c : Sig) (i : Contents) : Decidable (Rouses c i) := inferInstanceAs (Decidable (_ ∨ _))

/-! ### The signals at rest -/

/-- The signals of the contents `i`, when `bypasses` has left `haz`. -/
def signals (i : Contents) (haz : Hazards) : Sig :=
  { evaluate i default with
    haz := haz
    stallSd := stall (csrInProgress i.stages) (Decode.decodingInstructionType i.ir) haz
      i.if2decEmpty i.dec2exeFull }

/-- What `bypasses` writes for the contents `i`, when it reads `p` of the pipeline. -/
def hazards (i : Contents) (p : Stages) (old : Hazards) : Hazards :=
  bypasses p (evaluate i default).insts.csrrc (evaluate i default).radr.1
    (evaluate i default).radr.2 (evaluate i default).rdataSr.1 (evaluate i default).rdataSr.2 old

theorem hazards_latch (i : Contents) (p : Stages) (old : Hazards) :
    hazards i p (hazards i p old) = hazards i p old := bypasses_latch _ _ _ _ _ _ _

/-- The contents `q`, with what `bypasses` reads of them without being woken by it as
in `p`. -/
def Stages.bypassing (q p : Stages) : Stages :=
  { q with
    rd := { q.rd with memLoad := p.rd.memLoad, multInst := p.rd.multInst }
    re := { q.re with csrWenable := p.re.csrWenable, csrRdata := p.re.csrRdata }
    rm := { q.rm with csrWenable := p.rm.csrWenable, csrRdata := p.rm.csrRdata } }

theorem hazards_of_listed {p q : Stages} (h : bypassesListed p = bypassesListed q) (i : Contents)
    (old : Hazards) : hazards i p old = hazards i (q.bypassing p) old := by
  simp only [bypassesListed, List.cons.injEq, BitVec.toNat_inj, bool_toNat_inj, and_true,
    Stages.destRm] at h
  simp only [hazards, bypasses, bypass, loadInExe, multInFlight, Stages.inExe, Stages.inMem,
    Stages.inWbk, Stages.destRm, Stages.bypassing, h]
  rfl

/-- Nothing is pending: `bypasses` has run last on contents that agree with the present ones
on its list, and the others cover what they read. -/
structure AtRest (c : Sig) : Prop where
  signals : c = signals c.inp c.haz
  bypasses : ∃ p old, bypassesListed p = bypassesListed c.inp.stages ∧
    c.haz = hazards c.inp p old

theorem AtRest.haz_eq {c : Sig} (h : AtRest c) :
    ∃ p old, c.haz = hazards c.inp (c.inp.stages.bypassing p) old := by
  obtain ⟨p, old, hp, hhaz⟩ := h.bypasses
  exact ⟨p, old, hhaz.trans (hazards_of_listed hp c.inp old)⟩

/-- Everything that decides whether an operand is valid is on the list. -/
theorem bypass_bypassing (q p : Stages) (csrrc : Bool) (radr : BitVec 6)
    (rdataSr old old' : BitVec 32) : (bypass (q.bypassing p) csrrc radr rdataSr old).2 =
      (bypass q csrrc radr rdataSr old').2 := by
  unfold bypass
  change (if radr = 0 then _ else if q.inExe radr = true then _
    else if (q.inMem radr && q.re.memLoad) = true then _
    else if (q.inMem radr && q.re.multInst) = true then _
    else if (q.inWbk radr && q.rm.multInst) = true then _
    else if q.inMem radr = true then _ else if q.inWbk radr = true then _ else _ :
      BitVec 32 × Bool).2 = _
  split_ifs <;> rfl

/-- The valid operands are those computed from scratch. -/
theorem AtRest.valid_eq {c : Sig} (h : AtRest c) :
    c.haz.r1Valid = (scratch c.inp).haz.r1Valid ∧ c.haz.r2Valid = (scratch c.inp).haz.r2Valid := by
  obtain ⟨p, old, hhaz⟩ := h.haz_eq
  rw [hhaz]
  exact ⟨bypass_bypassing _ _ _ _ _ _ _, bypass_bypassing _ _ _ _ _ _ _⟩

theorem atRest_evaluate (i : Contents) (old : Hazards) : AtRest (evaluate i old) where
  signals := rfl
  bypasses := ⟨i.stages, old, rfl, rfl⟩

/-- A signal moves while the signals settle on the contents `i`. -/
def Moves {α : Type} (f : Sig → α) (c : Sig) (i : Contents) : Prop :=
  ∃ n, n < 5 ∧ f (presenting c i n).cur ≠ f (presenting c i (n + 1)).cur

instance {α : Type} [DecidableEq α] (f : Sig → α) (c : Sig) (i : Contents) :
    Decidable (Moves f c i) :=
  inferInstanceAs (Decidable (∃ n, n < 5 ∧ _))

def BypassesRun (c : Sig) (i : Contents) : Prop :=
  bypassesListed c.inp.stages ≠ bypassesListed i.stages ∨ Moves bypassesSignals c i

instance (c : Sig) (i : Contents) : Decidable (BypassesRun c i) :=
  inferInstanceAs (Decidable (_ ∨ _))

/-- What `bypasses` has written when the signals have settled; an operand that is not valid
keeps what the activations before have left. -/
def writtenHaz (c : Sig) (i : Contents) : Hazards :=
  if BypassesRun c i then hazards i i.stages (presenting c i 3).cur.haz else c.haz

/-- The signals after the contents `i`; `apply_eq_settle` says so. -/
def settle (c : Sig) (i : Contents) : Sig := signals i (writtenHaz c i)

/-! ### Settling -/

section Settling

variable {c : Sig} {i : Contents}

theorem presenting_inp (c : Sig) (i : Contents) (n : ℕ) : (presenting c i n).cur.inp = i := by
  induction n with
  | zero => rfl
  | succ n ih =>
    rw [presenting, run_succ']
    exact ih

theorem presenting_prev (c : Sig) (i : Contents) (n : ℕ) :
    (presenting c i (n + 1)).prev = (presenting c i n).cur := run_succ_prev delta n _

theorem presenting_succ (c : Sig) (i : Contents) (n : ℕ) : (presenting c i (n + 1)).cur =
    delta (presenting c i n).prev (presenting c i n).cur := by
  rw [presenting, run_succ']
  rfl

/-- A method that covers its reads follows them from the start. -/
theorem out_presenting {O : Type} {m : Method Sig O} (hd : m.DrivenBy delta) (hcov : m.Covers)
    (hf : ∀ i haz, m.Fresh (signals i haz)) (h : AtRest c)
    (hout : m.out { c with inp := i } = m.out c) (n : ℕ) :
    m.out (presenting c i (n + 1)).cur = m.body (presenting c i n).cur := by
  have hfresh : m.Fresh c := by
    rw [h.signals]
    exact hf _ _
  exact Method.out_run_succ hd hcov (Method.awake_of_fresh hcov hfresh trivial hout) n

theorem types_presenting (h : AtRest c) (n : ℕ) :
    (presenting c i (n + 1)).cur.types = Decode.decodingInstructionType i.ir := by
  have hcov : typesM.Covers :=
    Method.covers_of_factor Decode.decodingInstructionType fun _ => rfl
  have hout := out_presenting (i := i) (Method.drivenBy_of_fire fun _ _ => rfl) hcov
    (fun _ _ => rfl) h rfl n
  simpa only [Method.listening, presenting_inp] using hout

theorem insts_presenting (h : AtRest c) (n : ℕ) :
    (presenting c i (n + 1)).cur.insts = Decode.decodingInstruction i.ir := by
  have hcov : instsM.Covers := Method.covers_of_factor Decode.decodingInstruction fun _ => rfl
  have hout := out_presenting (i := i) (Method.drivenBy_of_fire fun _ _ => rfl) hcov
    (fun _ _ => rfl) h rfl n
  simpa only [Method.listening, presenting_inp] using hout

theorem radr_presenting (h : AtRest c) (n : ℕ) :
    (presenting c i (n + 2)).cur.radr = (evaluate i default).radr := by
  have hcov : radrM.Covers :=
    Method.covers_of_factor (fun l : BitVec 32 × Decode.Types × Decode.Insts =>
      (Decode.radr1 l.2.1 l.2.2 l.1, Decode.radr2 l.2.1 l.1)) fun _ => rfl
  refine (out_presenting (i := i) (Method.drivenBy_of_fire fun _ _ => rfl) hcov
    (fun _ _ => rfl) h rfl (n + 1)).trans ?_
  simp only [Method.listening, presenting_inp, types_presenting h, insts_presenting h]
  rfl

theorem read_presenting (h : AtRest c) (n : ℕ) :
    (presenting c i (n + 3)).cur.rdataSr = (evaluate i default).rdataSr := by
  have hcov : readM.Covers :=
    Method.covers_of_factor (fun l : (BitVec 6 × BitVec 6) × Vector (BitVec 32) 33 =>
      (l.2[l.1.1.toNat]?.getD 0, l.2[l.1.2.toNat]?.getD 0)) fun _ => rfl
  refine (out_presenting (i := i) (Method.drivenBy_of_fire fun _ _ => rfl) hcov
    (fun _ _ => rfl) h rfl (n + 2)).trans ?_
  simp only [Method.listening, presenting_inp, radr_presenting h]
  rfl

theorem signals_presenting (h : AtRest c) (n : ℕ) :
    bypassesSignals (presenting c i (n + 3)).cur = bypassesSignals (evaluate i default) := by
  simp only [bypassesSignals, read_presenting h, radr_presenting h (n + 1),
    insts_presenting h (n + 2)]
  rfl

theorem bypasses_drivenBy : bypassesM.DrivenBy delta := Method.drivenBy_of_fire fun _ _ => rfl

/-- `bypasses` is woken in one of the delta cycles when something on its list differs or
moves. -/
theorem bypassesRun_iff : (∃ n, n ≤ 5 ∧ bypassesM.woken (presenting c i n).prev
    (presenting c i n).cur) ↔ BypassesRun c i := by
  have hsucc : ∀ n, ¬ bypassesM.woken (presenting c i (n + 1)).prev (presenting c i (n + 1)).cur ↔
      bypassesSignals (presenting c i n).cur = bypassesSignals (presenting c i (n + 1)).cur := by
    intro n
    refine not_not.trans ?_
    change (bypassesSignals _, bypassesListed _) = (bypassesSignals _, bypassesListed _) ↔ _
    rw [presenting_prev, presenting_inp, presenting_inp, Prod.mk.injEq, and_iff_left rfl]
  constructor
  · rintro ⟨n, hn, hw⟩
    cases n with
    | zero => exact .inl fun heq => hw (Prod.ext rfl heq)
    | succ n => exact .inr ⟨n, hn, fun heq => (hsucc n).mpr heq hw⟩
  · rintro (hl | ⟨n, hn, hw⟩)
    · exact ⟨0, Nat.zero_le _, fun heq => hl (congrArg Prod.snd heq)⟩
    · exact ⟨n + 1, hn, by_contra fun hno => hw ((hsucc n).mp hno)⟩

/-- A signal that does not move is the one from before. -/
theorem eq_of_not_moves {α : Type} {f : Sig → α} (hf : f { c with inp := i } = f c)
    (hm : ¬ Moves f c i) {n : ℕ} (hn : n ≤ 5) : f (presenting c i n).cur = f c := by
  induction n with
  | zero => exact hf
  | succ n ih =>
    by_contra hne
    exact hm ⟨n, hn, fun heq => hne (heq.symm.trans (ih (by omega)))⟩

/-- The reads of `bypasses` stop after three delta cycles. -/
theorem haz_next (h : AtRest c) (n : ℕ) :
    (presenting c i (n + 5)).cur.haz = (presenting c i (n + 4)).cur.haz := by
  rw [presenting_succ]
  refine bypasses_drivenBy.keeps (not_not.mpr ?_)
  change (bypassesSignals _, bypassesListed _) = (bypassesSignals _, bypassesListed _)
  rw [presenting_prev, presenting_inp, presenting_inp, signals_presenting h n,
    signals_presenting h (n + 1)]

theorem haz_presenting (h : AtRest c) (n : ℕ) :
    (presenting c i (n + 4)).cur.haz = (presenting c i 4).cur.haz := by
  induction n with
  | zero => rfl
  | succ n ih => exact (haz_next h n).trans ih

/-- What `bypasses` has written: its last activation has read the signals at rest. -/
theorem haz_eq_writtenHaz (h : AtRest c) : (presenting c i 4).cur.haz = writtenHaz c i := by
  have hbody : ∀ n, bypassesSignals (presenting c i n).cur =
      bypassesSignals (presenting c i 3).cur →
      bypassesM.body (presenting c i n).cur =
        hazards i i.stages (presenting c i n).cur.haz := by
    intro n hn
    rw [signals_presenting h 0] at hn
    simp only [bypassesSignals, Prod.mk.injEq] at hn
    obtain ⟨hread, hradr, hcsrrc⟩ := hn
    change bypasses (presenting c i n).cur.inp.stages _ _ _ _ _ _ = _
    rw [presenting_inp, hread, hradr, hcsrrc]
    rfl
  rcases Method.out_run_cases bypasses_drivenBy ⟨c, { c with inp := i }⟩ 3 with
    ⟨n, hn, hw, hlast, hout, hsame⟩ | ⟨hnone, hout, -⟩
  · rw [writtenHaz, if_pos (bypassesRun_iff.mp ⟨n, by omega, hw⟩)]
    have hwrote : (presenting c i 4).cur.haz = hazards i i.stages (presenting c i n).cur.haz :=
      hout.trans (hbody n (congrArg Prod.fst hsame))
    rcases Nat.lt_or_eq_of_le hn with hlt | rfl
    · -- nothing has woken it since, so it has written this before the last delta cycle
      have hkept : (presenting c i 3).cur.haz = hazards i i.stages (presenting c i n).cur.haz := by
        refine Eq.trans ?_ hwrote
        exact (bypasses_drivenBy.keeps (not_not.mpr (hlast 3 hlt (Nat.le_refl 3)))).symm
      rw [hwrote, hkept, hazards_latch]
    · exact hwrote
  · rw [writtenHaz, if_neg]
    · exact hout
    · intro hr
      obtain ⟨n, hn, hw⟩ := bypassesRun_iff.mpr hr
      rcases Nat.lt_or_ge n 4 with hlt | hge
      · exact hw (hnone n (by omega))
      · obtain ⟨n, rfl⟩ := Nat.exists_eq_add_of_le' hge
        refine hw ?_
        change (bypassesSignals _, bypassesListed _) = (bypassesSignals _, bypassesListed _)
        rw [presenting_prev, presenting_inp, presenting_inp, signals_presenting h n,
          signals_presenting h (n + 1)]

theorem stall_next (h : AtRest c) (n : ℕ) :
    (presenting c i (n + 1)).cur.csrInProgress = csrInProgress i.stages ∧
      (presenting c i (n + 1)).cur.stallSd = stall (presenting c i n).cur.csrInProgress
        (presenting c i n).cur.types (presenting c i n).cur.haz i.if2decEmpty i.dec2exeFull := by
  have hcov : stallM.Covers :=
    Method.covers_of_factor (fun l : StallListed =>
      (l.csrWenableRd && !l.dec2exeEmpty || l.csrWenableRe && !l.exe2memEmpty,
        l.csrInProgress ||
          (!l.valid.1 || !l.valid.2) &&
            (l.types.b || l.types.jalr || l.types.j || l.blockInDec || l.dependenceOnMult) ||
          l.if2decEmpty || l.dec2exeFull)) fun _ => rfl
  have hout := out_presenting (i := i) (Method.drivenBy_of_fire fun _ _ => rfl) hcov
    (fun _ _ => rfl) h rfl n
  simpa only [Method.listening, presenting_inp, Prod.mk.injEq] using hout

theorem presenting_eq_settle (h : AtRest c) (n : ℕ) :
    (presenting c i (n + 5)).cur = settle c i := by
  have hhaz : ∀ n, (presenting c i (n + 4)).cur.haz = writtenHaz c i :=
    fun n => (haz_presenting h n).trans (haz_eq_writtenHaz h)
  refine Sig.ext (presenting_inp c i _) (types_presenting h _) (insts_presenting h _)
    (radr_presenting h _) (read_presenting h _) (hhaz _) (stall_next h _).1 ?_
  rw [(stall_next h (n + 4)).2, (stall_next h (n + 3)).1, types_presenting h, hhaz]
  rfl

/-- The signals settle on those of the contents, and what `bypasses` has written last. -/
theorem apply_eq_settle (h : AtRest c) : apply c i = settle c i := presenting_eq_settle h 1

/-- Six delta cycles are enough to settle. -/
theorem settled_presenting (h : AtRest c) : (presenting c i 6).Settled :=
  (presenting_prev c i 5).trans ((presenting_eq_settle h 0).trans (presenting_eq_settle h 1).symm)

/-- The signals are at rest again. -/
theorem atRest_settle (h : AtRest c) (i : Contents) : AtRest (settle c i) where
  signals := rfl
  bypasses := by
    change ∃ p old, bypassesListed p = bypassesListed i.stages ∧
      writtenHaz c i = hazards i p old
    rw [writtenHaz]
    split_ifs with hr
    · exact ⟨i.stages, _, rfl, rfl⟩
    · obtain ⟨hl, hm⟩ := not_or.mp hr
      obtain ⟨p, old, hp, hhaz⟩ := h.bypasses
      refine ⟨p, old, hp.trans (not_not.mp hl), hhaz.trans ?_⟩
      have hsame : bypassesSignals (evaluate i default) =
          bypassesSignals (evaluate c.inp default) := by
        have hmoved := eq_of_not_moves (f := bypassesSignals) rfl hm (n := 3) (by omega)
        rw [signals_presenting h 0, h.signals] at hmoved
        exact hmoved
      simp only [bypassesSignals, Prod.mk.injEq] at hsame
      obtain ⟨hread, hradr, hcsrrc⟩ := hsame
      rw [hazards, hazards, hread, hradr, hcsrrc]

/-- Contents that rouse `bypasses` find its hazards. -/
theorem writtenHaz_of_rouses (h : AtRest c) (hr : Rouses c i) :
    ∃ old, writtenHaz c i = hazards i i.stages old := by
  rw [writtenHaz]
  split_ifs with hruns
  · exact ⟨_, rfl⟩
  · obtain ⟨hl, hm⟩ := not_or.mp hruns
    have hsame := eq_of_not_moves (f := bypassesSignals) rfl hm (n := 3) (by omega)
    rw [signals_presenting h 0] at hsame
    exact ⟨c.haz, (hr.resolve_left hl).resolve_left (not_not.mpr hsame.symm)⟩

theorem apply_eq_evaluate (h : AtRest c) (hr : Rouses c i) : ∃ old, apply c i = evaluate i old := by
  obtain ⟨old, hhaz⟩ := writtenHaz_of_rouses h hr
  refine ⟨old, (apply_eq_settle h).trans ?_⟩
  rw [settle, hhaz]
  rfl

end Settling

/-! ### The stage between two cycles -/

/-- The signals of the hazard detection, at rest. -/
structure Stage where
  sig : Sig
  atRest : AtRest sig

def Stage.reset : Stage := ⟨Dec.reset, atRest_evaluate default default⟩

/-- New contents, and the signals on which the hazard detection settles. -/
def Stage.settle (c : Stage) (i : Contents) : Stage :=
  ⟨Dec.settle c.sig i, atRest_settle c.atRest i⟩

theorem Stage.sig_settle (c : Stage) (i : Contents) : (c.settle i).sig = apply c.sig i :=
  (apply_eq_settle c.atRest).symm

/-! ### Sequences of contents -/

/-- The decisions of DEC. -/
def decisions (s : Sig) := (s.haz.r1Valid, s.haz.r2Valid, s.haz.blockInDec,
  s.haz.dependenceOnMult, s.stallSd)

/-- After the contents `i` the decisions are those computed from scratch, and so are the
operands that are valid; the others are not computed. -/
def FromScratch (c : Sig) (i : Contents) : Prop :=
  decisions (apply c i) = decisions (scratch i) ∧
    ((scratch i).haz.r1Valid = true → (apply c i).haz.rdata1 = (scratch i).haz.rdata1) ∧
    ((scratch i).haz.r2Valid = true → (apply c i).haz.rdata2 = (scratch i).haz.rdata2)

instance (c : Sig) (i : Contents) : Decidable (FromScratch c i) :=
  inferInstanceAs (Decidable (_ ∧ _))

theorem decisions_evaluate (i : Contents) (old : Hazards) :
    decisions (evaluate i old) = decisions (scratch i) := by
  simp only [decisions, scratch, evaluate, bypasses, stall, bypass_valid_congr _ _ _ _ old.rdata1
    (default : Hazards).rdata1, bypass_valid_congr _ _ _ _ old.rdata2 (default : Hazards).rdata2]

theorem fromScratch_of_rouses {c : Sig} {i : Contents} (h : AtRest c) (hr : Rouses c i) :
    FromScratch c i := by
  obtain ⟨old, heq⟩ := apply_eq_evaluate h hr
  refine ⟨?_, ?_, ?_⟩
  · rw [heq]
    exact decisions_evaluate i old
  · intro hv
    rw [heq]
    exact congrArg Prod.fst (bypass_congr _ _ _ _ hv old.rdata1)
  · intro hv
    rw [heq]
    exact congrArg Prod.fst (bypass_congr _ _ _ _ hv old.rdata2)

/-- Along every sequence of contents that wake `bypasses` when it has to run, the decisions
and the valid operands are those computed from scratch. -/
theorem each_decisions (is : List Contents) (h : Run.Each Rouses apply reset is) :
    Run.Each FromScratch apply reset is := by
  refine Run.each_of_inv ?_ ?_ (atRest_evaluate default default) h
  · intro c i hc hr
    exact fromScratch_of_rouses hc hr
  · intro c i hc _
    rw [apply_eq_settle hc]
    exact atRest_settle hc i

/-- The contents when `n` instructions `addi x5, x0, 8` are ahead of the word in IF2DEC,
the last of them as `rd` in DEC2EXE. -/
def behind (n : ℕ) (ir : BitVec 32) (rd : Dec2Exe) : Contents where
  ir := ir
  if2decEmpty := false
  stages :=
    { rd := if n < 1 then default else rd
      dec2exeEmpty := decide (n < 1)
      re :=
        if n < 2 then default else { (default : Exe2Mem) with exeRes := 8, dest := 5, wb := true }
      exe2memEmpty := decide (n < 2)
      rm :=
        if n < 3 then default else { (default : Mem2Wbk) with memRes := 8, dest := 5, wb := true }
      mem2wbkEmpty := decide (n < 3) }
  dec2exeFull := false
  registers := (Vector.replicate 33 0#32).set 5 (if n < 4 then 0 else 8)

/-- `addi x5, x0, 8` in DEC2EXE. -/
def addiWord : Dec2Exe :=
  { (default : Dec2Exe) with
    r1Valid := true, r2Valid := true, op2 := 8, wb := true, dest := 5, selectTypeOperations := 1 }

/-- `lw x5, 0(x5)` in DEC2EXE, behind `addi x5, x0, 8`. -/
def loadWord : Dec2Exe :=
  { (default : Dec2Exe) with
    r2Valid := true, radr1 := 5, wb := true, dest := 5, memLoad := true
    selectTypeOperations := 1 }

/-- Four times `addi x5, x0, 8`, then `lw x5, 0(x5)`, and its use one cycle later. -/
def loadUse : List Contents :=
  [behind 0 0x00800293 default, behind 1 0x00800293 addiWord, behind 2 0x00800293 addiWord,
    behind 3 0x00800293 addiWord, behind 4 0x0002a283 addiWord, behind 5 0x00028313 loadWord]

theorem each_decisions_loadUse : Run.Each FromScratch apply reset (loadUse.take 5) :=
  each_decisions _ (by decide +kernel)

/-- The load is the fifth writer of x5 with the same result: nothing that wakes `bypasses`
changes when it moves to EXE, and its use does not stall. -/
theorem not_decisions_loadUse : ¬ Run.Each FromScratch apply reset loadUse := by
  decide +kernel

end Dec

end RiVerSoC
