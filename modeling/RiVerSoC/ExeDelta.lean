/-
The delta cycles of the EXE stage.

The operands go through `preprocess_op`, the ALU and the shifter to `select_exec_res`,
its flags to `exception`, and everything to `fifo_concat`.  Three of the methods read signals
that do not wake them: `bypasses` reads `CSR_RDATA_RE` and `MEM_LOAD_RD`, `select_exec_res` the
operands, `MEM_SIZE_RD` and `KERNEL_ADR_SC`, and `fifo_concat` the program counter, the branch
target, two of the environment calls and the breakpoint.

* `apply` — new inputs, and delta cycles until nothing moves: sixteen are enough, because
  `exception_se` wakes `bypasses` and `select_exec_res` once more at most
  (`settled_presenting`);
* `settle` — the signals on which the stage settles, by what the three methods have read when
  they ran last (`apply_eq_settle`);
* `Stage` — the signals between two cycles, with nothing pending.
-/
import RiVerSoC.Delta
import RiVerSoC.Exe

namespace RiVerSoC

namespace Exe

open Delta

/-- The signals of the stage.  The pairs and triples are those of `preprocessOp`,
`decodeCmd` and `effects`. -/
@[ext]
structure Sig where
  inp : Inputs
  byp : Bypassed
  pre : BitVec 32 × BitVec 5
  aluOutSe : BitVec 32
  cmd : Bool × Bool × Bool
  sllDoutSe : BitVec 32
  srDoutSe : BitVec 32
  shifterOutSe : BitVec 32
  res : ExeRes
  exceptionSe : Bool
  eff : Bool × Bool × Bool
  exe2memDinSe : Exe2Mem
deriving DecidableEq, Repr, Inhabited

/-! ### Methods and their sensitivity lists -/

/-- The inputs on the sensitivity list of `bypasses`. -/
def bypassesListed (i : Inputs) : List ℕ :=
  [i.rd.r1Valid.toNat, i.rd.r2Valid.toNat, i.memDest.toNat, i.rd.csrrcI.toNat, i.rm.memRes.toNat,
    i.re.dest.toNat, i.re.exeRes.toNat, i.rd.radr1.toNat, i.re.csrWenable.toNat,
    i.rd.blockBp.toNat, i.re.memLoad.toNat, i.rm.csrWenable.toNat, i.rm.csrRdata.toNat,
    i.rd.radr2.toNat, i.rd.op1.toNat, i.rd.op2.toNat, i.rd.memData.toNat, i.rd.memStore.toNat,
    i.re.multInst.toNat, i.rm.multInst.toNat, i.mem2wbkEmpty.toNat, i.exe2memEmpty.toNat]

abbrev bypassesM : Method Sig Bypassed :=
  .listening (fun s => (s.exceptionSe, bypassesListed s.inp))
    (fun s => bypasses s.inp s.byp) Sig.byp

abbrev preprocessM : Method Sig (BitVec 32 × BitVec 5) :=
  .listening (fun s => (s.byp.op1Se, s.inp.rd.negOp2, s.byp.op2Se))
    (fun s => preprocessOp s.inp.rd.negOp2 s.byp.op2Se) Sig.pre

abbrev aluM : Method Sig (BitVec 32) :=
  .listening (fun s => (s.byp.op1Se, s.pre.1, s.inp.rd.negOp2, s.inp.rd.exeCmd))
    (fun s => alu s.inp.rd.exeCmd s.byp.op1Se s.pre.1 s.inp.rd.negOp2) Sig.aluOutSe

abbrev decodeM : Method Sig (Bool × Bool × Bool) :=
  .listening (fun s => s.inp.rd.exeCmd) (fun s => decodeCmd s.inp.rd.exeCmd) Sig.cmd

abbrev sllM : Method Sig (BitVec 32) :=
  .listening (fun s => (s.byp.op1Se, s.pre.2)) (fun s => shifterSll s.byp.op1Se s.pre.2)
    Sig.sllDoutSe

abbrev srM : Method Sig (BitVec 32) :=
  .listening (fun s => (s.byp.op1Se, s.pre.2, s.cmd.2.2))
    (fun s => shifterSr s.byp.op1Se s.pre.2 s.cmd.2.2) Sig.srDoutSe

abbrev agregateM : Method Sig (BitVec 32) :=
  .listening (fun s => (s.sllDoutSe, s.srDoutSe, s.cmd))
    (fun s => if s.cmd.1 then s.sllDoutSe else s.srDoutSe) Sig.shifterOutSe

/-- The inputs on the sensitivity list of `select_exec_res`. -/
def selectListed (i : Inputs) : List ℕ :=
  [i.rd.slt.toNat, i.rd.sltu.toNat, i.rd.selectTypeOperations.toNat, i.currentMode.toNat,
    i.rd.memLoad.toNat, i.rd.memStore.toNat, i.dividerRes.toNat]

/-- The other signals on it. -/
def selectSignals (s : Sig) := (s.aluOutSe, s.shifterOutSe, s.exceptionSe)

abbrev selectM : Method Sig ExeRes :=
  .listening (fun s => (selectSignals s, selectListed s.inp))
    (fun s => selectExecRes s.inp s.byp.op1Se s.byp.op2Se s.aluOutSe s.shifterOutSe s.res.exeResSe)
    Sig.res

/-- `exception` reads `exception_se`, which it writes. -/
abbrev exceptionM : Method Sig (Bool × Bool × Bool × Bool) :=
  .listening (fun s => ((s.inp.rd.wb, s.inp.rd.memLoad, s.inp.rd.memStore, s.inp.rd.exception),
      s.exceptionSe, s.res.flags))
    (fun s => (exceptionSe s.inp s.res, effects s.inp s.exceptionSe))
    (fun s => (s.exceptionSe, s.eff))

/-- The inputs on the sensitivity list of `fifo_concat`. -/
def concatListed (i : Inputs) : List ℕ :=
  [i.rd.dest.toNat, i.rd.memSize.toNat, i.rd.memLoad.toNat, i.rd.memSignExtend.toNat,
    i.rd.memStore.toNat, i.rd.wb.toNat, i.rd.csrWenable.toNat, i.rd.csrWadr.toNat,
    i.rd.csrRdata.toNat, i.rd.illegalInstruction.toNat, i.rd.adressMissaligned.toNat,
    i.rd.envCallUMode.toNat, i.rd.envCallMMode.toNat, i.exceptionSm.toNat, i.rd.mret.toNat,
    i.rd.instructionAccessFault.toNat, i.rd.multInst.toNat]

/-- The other signals on it. -/
def concatSignals (s : Sig) := ((s.byp.bpMemDataSd, s.res), (s.exceptionSe, s.eff))

abbrev concatM : Method Sig Exe2Mem :=
  .listening (fun s => (concatSignals s, concatListed s.inp))
    (fun s => fifoConcat s.inp s.byp.bpMemDataSd s.res s.exceptionSe s.eff) Sig.exe2memDinSe

theorem selectSignals_inj {a b : Sig} : selectSignals a = selectSignals b ↔
    a.aluOutSe = b.aluOutSe ∧ a.shifterOutSe = b.shifterOutSe ∧ a.exceptionSe = b.exceptionSe := by
  simp only [selectSignals, Prod.mk.injEq]

theorem concatSignals_inj {a b : Sig} : concatSignals a = concatSignals b ↔
    (a.byp.bpMemDataSd = b.byp.bpMemDataSd ∧ a.res = b.res) ∧
      a.exceptionSe = b.exceptionSe ∧ a.eff = b.eff := by
  simp only [concatSignals, Prod.mk.injEq]

instance (a b : Sig) : Decidable (exceptionM.woken a b) := inferInstance

instance (a b : Sig) : Decidable (concatM.woken a b) := inferInstance

/-- One delta cycle. -/
def delta (a b : Sig) : Sig where
  inp := b.inp
  byp := bypassesM.fire a b
  pre := preprocessM.fire a b
  aluOutSe := aluM.fire a b
  cmd := decodeM.fire a b
  sllDoutSe := sllM.fire a b
  srDoutSe := srM.fire a b
  shifterOutSe := agregateM.fire a b
  res := selectM.fire a b
  exceptionSe := (exceptionM.fire a b).1
  eff := (exceptionM.fire a b).2
  exe2memDinSe := concatM.fire a b

/-! ### The values of the inputs -/

/-- The signals that the methods compute from the inputs `j`, when `bypasses` has written
`byp` and the result before was `exeResSe`. -/
def evaluate (j : Inputs) (byp : Bypassed) (exeResSe : BitVec 32) : Sig :=
  let pre := preprocessOp j.rd.negOp2 byp.op2Se
  let aluOut := alu j.rd.exeCmd byp.op1Se pre.1 j.rd.negOp2
  let cmd := decodeCmd j.rd.exeCmd
  let sllDout := shifterSll byp.op1Se pre.2
  let srDout := shifterSr byp.op1Se pre.2 cmd.2.2
  let shifterOut := if cmd.1 then sllDout else srDout
  let res := selectExecRes j byp.op1Se byp.op2Se aluOut shifterOut exeResSe
  let exc := exceptionSe j res
  let eff := effects j exc
  { inp := j
    byp := byp
    pre := pre
    aluOutSe := aluOut
    cmd := cmd
    sllDoutSe := sllDout
    srDoutSe := srDout
    shifterOutSe := shifterOut
    res := res
    exceptionSe := exc
    eff := eff
    exe2memDinSe := fifoConcat j byp.bpMemDataSd res exc eff }

/-- The signals of the inputs `j`, when only the blocked operands and the result of an
instruction without one are left from before. -/
def settled (c : Sig) (j : Inputs) : Sig := evaluate j (bypasses j c.byp) c.res.exeResSe

/-- The word offered to EXE2MEM, computed from scratch. -/
def scratch (j : Inputs) : Exe2Mem := (settled default j).exe2memDinSe

/-- The signals after the initial activation of all methods. -/
def reset : Sig := settled default default

/-- New inputs, and then `n` delta cycles. -/
def presenting (c : Sig) (j : Inputs) (n : ℕ) : Point Sig := run delta n ⟨c, { c with inp := j }⟩

/-- New inputs, and then delta cycles until nothing moves; `settled_presenting` says that
sixteen are enough. -/
def apply (c : Sig) (j : Inputs) : Sig := (presenting c j 16).cur

/-! ### The signals at rest -/

/-- `alu_out_se`, when `bypasses` has written `byp`. -/
def aluOut (j : Inputs) (byp : Bypassed) : BitVec 32 :=
  alu j.rd.exeCmd byp.op1Se (preprocessOp j.rd.negOp2 byp.op2Se).1 j.rd.negOp2

/-- `shifter_out_se`. -/
def shifterOut (j : Inputs) (byp : Bypassed) : BitVec 32 :=
  if (decodeCmd j.rd.exeCmd).1 then
    shifterSll byp.op1Se (preprocessOp j.rd.negOp2 byp.op2Se).2
  else
    shifterSr byp.op1Se (preprocessOp j.rd.negOp2 byp.op2Se).2 (decodeCmd j.rd.exeCmd).2.2

/-- The signals of the inputs `j`, when the three methods with reads outside their lists have
left `byp`, `res` and `dinSe`. -/
def signals (j : Inputs) (byp : Bypassed) (res : ExeRes) (dinSe : Exe2Mem) : Sig where
  inp := j
  byp := byp
  pre := preprocessOp j.rd.negOp2 byp.op2Se
  aluOutSe := aluOut j byp
  cmd := decodeCmd j.rd.exeCmd
  sllDoutSe := shifterSll byp.op1Se (preprocessOp j.rd.negOp2 byp.op2Se).2
  srDoutSe :=
    shifterSr byp.op1Se (preprocessOp j.rd.negOp2 byp.op2Se).2 (decodeCmd j.rd.exeCmd).2.2
  shifterOutSe := shifterOut j byp
  res := res
  exceptionSe := exceptionSe j res
  eff := effects j (exceptionSe j res)
  exe2memDinSe := dinSe

/-- Nothing is pending: the three methods have run last on signals that agree with the present
ones on their lists, and the others cover what they read. -/
structure AtRest (c : Sig) : Prop where
  signals : c = signals c.inp c.byp c.res c.exe2memDinSe
  bypasses : ∃ i old, bypassesListed i = bypassesListed c.inp ∧ c.byp = Exe.bypasses i old
  select : ∃ i op1 op2 old, selectListed i = selectListed c.inp ∧
    c.res = selectExecRes i op1 op2 c.aluOutSe c.shifterOutSe old
  concat : ∃ i, concatListed i = concatListed c.inp ∧
    c.exe2memDinSe = fifoConcat i c.byp.bpMemDataSd c.res c.exceptionSe c.eff

/-! #### Reads outside the lists -/

/-- The inputs `j`, with what `bypasses` reads without being woken by it as in `i`. -/
def Inputs.bypassing (j i : Inputs) : Inputs :=
  { j with
    rd := { j.rd with memLoad := i.rd.memLoad }
    re := { j.re with csrRdata := i.re.csrRdata } }

/-- The inputs `j`, with what `select_exec_res` reads of them without being woken by it as
in `i`. -/
def Inputs.selecting (j i : Inputs) : Inputs :=
  { j with rd := { j.rd with memSize := i.rd.memSize }, kernelAdr := i.kernelAdr }

/-- The inputs `j`, with what `fifo_concat` reads without being woken by it as in `i`. -/
def Inputs.concatenating (j i : Inputs) : Inputs :=
  { j with
    rd := { j.rd with
      pc := i.rd.pc
      envCallSMode := i.rd.envCallSMode
      envCallWrongMode := i.rd.envCallWrongMode
      ebreak := i.rd.ebreak
      pcBranchValue := i.rd.pcBranchValue } }

section Listed

variable {i j : Inputs}

theorem bypasses_of_listed (h : bypassesListed i = bypassesListed j) (old : Bypassed) :
    bypasses i old = bypasses (j.bypassing i) old := by
  simp only [bypassesListed, List.cons.injEq, BitVec.toNat_inj, bool_toNat_inj, and_true,
    Inputs.memDest] at h
  simp only [bypasses, bypassRs1, bypassRs2, loadAhead, Inputs.bypassing, Inputs.memDest, h]
  rfl

theorem selectExecRes_of_listed (h : selectListed i = selectListed j)
    (op1 op2 aluOut shifterOut old : BitVec 32) :
    selectExecRes i op1 op2 aluOut shifterOut old =
      selectExecRes (j.selecting i) op1 op2 aluOut shifterOut old := by
  simp only [selectListed, List.cons.injEq, BitVec.toNat_inj, bool_toNat_inj, and_true] at h
  simp only [selectExecRes, accessFault, Inputs.selecting, h]
  rfl

theorem fifoConcat_of_listed (h : concatListed i = concatListed j) (bpMemDataSd : BitVec 32)
    (r : ExeRes) (exceptionSe : Bool) (effects : Bool × Bool × Bool) :
    fifoConcat i bpMemDataSd r exceptionSe effects =
      fifoConcat (j.concatenating i) bpMemDataSd r exceptionSe effects := by
  simp only [concatListed, List.cons.injEq, BitVec.toNat_inj, bool_toNat_inj, and_true] at h
  simp only [fifoConcat, Inputs.concatenating, h]
  rfl

end Listed

section AtRest

variable {c : Sig} (h : AtRest c)

include h

theorem AtRest.byp_eq : ∃ i old, c.byp = Exe.bypasses (c.inp.bypassing i) old := by
  obtain ⟨i, old, hi, hb⟩ := h.bypasses
  exact ⟨i, old, hb.trans (bypasses_of_listed hi old)⟩

theorem AtRest.res_eq : ∃ i op1 op2 old,
    c.res = selectExecRes (c.inp.selecting i) op1 op2 c.aluOutSe c.shifterOutSe old := by
  obtain ⟨i, op1, op2, old, hi, hres⟩ := h.select
  exact ⟨i, op1, op2, old, hres.trans (selectExecRes_of_listed hi _ _ _ _ _)⟩

theorem AtRest.word_eq : ∃ i, c.exe2memDinSe =
    fifoConcat (c.inp.concatenating i) c.byp.bpMemDataSd c.res c.exceptionSe c.eff := by
  obtain ⟨i, hi, hword⟩ := h.concat
  exact ⟨i, hword.trans (fifoConcat_of_listed hi _ _ _ _)⟩

end AtRest

theorem atRest_settled (c : Sig) (j : Inputs) : AtRest (settled c j) where
  signals := rfl
  bypasses := ⟨j, c.byp, rfl, rfl⟩
  select := ⟨j, _, _, _, rfl, rfl⟩
  concat := ⟨j, rfl, rfl⟩

theorem atRest_reset : AtRest reset := atRest_settled default default

/-! ### What wakes the three methods -/

/-- A signal moves while the stage settles on the inputs `j`. -/
def Moves {α : Type} (f : Sig → α) (c : Sig) (j : Inputs) : Prop :=
  ∃ n, n < 15 ∧ f (presenting c j n).cur ≠ f (presenting c j (n + 1)).cur

instance {α : Type} [DecidableEq α] (f : Sig → α) (c : Sig) (j : Inputs) :
    Decidable (Moves f c j) :=
  inferInstanceAs (Decidable (∃ n, n < 15 ∧ _))

def BypassesRun (c : Sig) (j : Inputs) : Prop :=
  bypassesListed c.inp ≠ bypassesListed j ∨ Moves Sig.exceptionSe c j

def SelectRuns (c : Sig) (j : Inputs) : Prop :=
  selectListed c.inp ≠ selectListed j ∨ Moves selectSignals c j

def ConcatRuns (c : Sig) (j : Inputs) : Prop :=
  concatListed c.inp ≠ concatListed j ∨ Moves concatSignals c j

/-- `select_exec_res` runs on the operands `byp`. -/
def SelectHears (byp : Bypassed) (c : Sig) (j : Inputs) : Prop :=
  ∃ n, n < 15 ∧ (selectSignals (presenting c j n).cur ≠ selectSignals (presenting c j (n + 1)).cur ∧
    (presenting c j (n + 1)).cur.byp = byp)

instance (c : Sig) (j : Inputs) : Decidable (BypassesRun c j) := inferInstanceAs (Decidable (_ ∨ _))

instance (c : Sig) (j : Inputs) : Decidable (SelectRuns c j) := inferInstanceAs (Decidable (_ ∨ _))

instance (c : Sig) (j : Inputs) : Decidable (ConcatRuns c j) := inferInstanceAs (Decidable (_ ∨ _))

instance (byp : Bypassed) (c : Sig) (j : Inputs) : Decidable (SelectHears byp c j) :=
  Nat.decidableExistsLT (p := fun n =>
    selectSignals (presenting c j n).cur ≠ selectSignals (presenting c j (n + 1)).cur ∧
      (presenting c j (n + 1)).cur.byp = byp) 15

/-- What `bypasses` has written when the stage has settled. -/
def writtenByp (c : Sig) (j : Inputs) : Bypassed :=
  if BypassesRun c j then bypasses j c.byp else c.byp

/-- The operands that `select_exec_res` has read last. -/
def readOperands (c : Sig) (j : Inputs) : Bypassed :=
  if SelectHears (writtenByp c j) c j then writtenByp c j else c.byp

/-- What `select_exec_res` has written. -/
def writtenRes (c : Sig) (j : Inputs) : ExeRes :=
  if SelectRuns c j then
    selectExecRes j (readOperands c j).op1Se (readOperands c j).op2Se (aluOut j (writtenByp c j))
      (shifterOut j (writtenByp c j)) c.res.exeResSe
  else c.res

/-- What `fifo_concat` has written. -/
def writtenWord (c : Sig) (j : Inputs) : Exe2Mem :=
  if ConcatRuns c j then
    fifoConcat j (writtenByp c j).bpMemDataSd (writtenRes c j) (exceptionSe j (writtenRes c j))
      (effects j (exceptionSe j (writtenRes c j)))
  else c.exe2memDinSe

/-- The signals on which the stage settles; `apply_eq_settle` says so. -/
def settle (c : Sig) (j : Inputs) : Sig :=
  signals j (writtenByp c j) (writtenRes c j) (writtenWord c j)

/-! ### Settling -/

section Settling

variable {c : Sig} {j : Inputs}

theorem presenting_inp (c : Sig) (j : Inputs) (n : ℕ) : (presenting c j n).cur.inp = j := by
  induction n with
  | zero => rfl
  | succ n ih =>
    rw [presenting, run_succ']
    exact ih

theorem presenting_prev (c : Sig) (j : Inputs) (n : ℕ) :
    (presenting c j (n + 1)).prev = (presenting c j n).cur := run_succ_prev delta n _

theorem presenting_succ (c : Sig) (j : Inputs) (n : ℕ) : (presenting c j (n + 1)).cur =
    delta (presenting c j n).prev (presenting c j n).cur := by
  rw [presenting, run_succ']
  rfl

/-- A method that is woken by signals and by inputs is woken in one of the delta cycles when
an input on its list differs or a signal on it moves. -/
theorem woken_iff {α : Type} {f : Sig → α} {g : Inputs → List ℕ}
    (hf : f { c with inp := j } = f c) :
    (∃ n, n ≤ 15 ∧ (f (presenting c j n).prev, g (presenting c j n).prev.inp) ≠
      (f (presenting c j n).cur, g (presenting c j n).cur.inp)) ↔ g c.inp ≠ g j ∨ Moves f c j := by
  have hzero : (f c, g c.inp) = (f { c with inp := j }, g j) ↔ g c.inp = g j := by
    rw [hf, Prod.mk.injEq, and_iff_right rfl]
  have hsucc : ∀ n, (f (presenting c j (n + 1)).prev, g (presenting c j (n + 1)).prev.inp) =
      (f (presenting c j (n + 1)).cur, g (presenting c j (n + 1)).cur.inp) ↔
      f (presenting c j n).cur = f (presenting c j (n + 1)).cur := by
    intro n
    rw [presenting_prev, presenting_inp, presenting_inp, Prod.mk.injEq, and_iff_left rfl]
  constructor
  · rintro ⟨n, hn, hw⟩
    cases n with
    | zero => exact .inl fun heq => hw (hzero.mpr heq)
    | succ n => exact .inr ⟨n, hn, fun heq => hw ((hsucc n).mpr heq)⟩
  · rintro (hl | ⟨n, hn, hw⟩)
    · exact ⟨0, Nat.zero_le _, fun heq => hl (hzero.mp heq)⟩
    · exact ⟨n + 1, hn, fun heq => hw ((hsucc n).mp heq)⟩

theorem bypassesRun_iff : (∃ n, n ≤ 15 ∧ bypassesM.woken (presenting c j n).prev
    (presenting c j n).cur) ↔ BypassesRun c j := woken_iff (f := Sig.exceptionSe) rfl

theorem selectRuns_iff : (∃ n, n ≤ 15 ∧ selectM.woken (presenting c j n).prev
    (presenting c j n).cur) ↔ SelectRuns c j := woken_iff (f := selectSignals) rfl

theorem concatRuns_iff : (∃ n, n ≤ 15 ∧ concatM.woken (presenting c j n).prev
    (presenting c j n).cur) ↔ ConcatRuns c j := woken_iff (f := concatSignals) rfl

/-! #### The methods that cover their reads -/

/-- A method that covers its reads follows them from the start. -/
theorem out_presenting {O : Type} {m : Method Sig O} (hd : m.DrivenBy delta) (hcov : m.Covers)
    (hf : ∀ i byp res word, m.Fresh (signals i byp res word)) (h : AtRest c)
    (hout : m.out { c with inp := j } = m.out c) (n : ℕ) :
    m.out (presenting c j (n + 1)).cur = m.body (presenting c j n).cur := by
  have hfresh : m.Fresh c := by
    rw [h.signals]
    exact hf _ _ _ _
  exact Method.out_run_succ hd hcov (Method.awake_of_fresh hcov hfresh trivial hout) n

theorem preprocess_next (h : AtRest c) (n : ℕ) : (presenting c j (n + 1)).cur.pre =
    preprocessOp j.rd.negOp2 (presenting c j n).cur.byp.op2Se := by
  have hcov : preprocessM.Covers :=
    Method.covers_of_factor (fun l : BitVec 32 × Bool × BitVec 32 => preprocessOp l.2.1 l.2.2)
      fun _ => rfl
  have hout := out_presenting (j := j) (Method.drivenBy_of_fire fun _ _ => rfl) hcov
    (fun _ _ _ _ => rfl) h rfl n
  simpa only [Method.listening, presenting_inp] using hout

theorem decode_next (h : AtRest c) (n : ℕ) :
    (presenting c j (n + 1)).cur.cmd = decodeCmd j.rd.exeCmd := by
  have hcov : decodeM.Covers := Method.covers_of_factor decodeCmd fun _ => rfl
  have hout := out_presenting (j := j) (Method.drivenBy_of_fire fun _ _ => rfl) hcov
    (fun _ _ _ _ => rfl) h rfl n
  simpa only [Method.listening, presenting_inp] using hout

theorem alu_next (h : AtRest c) (n : ℕ) : (presenting c j (n + 1)).cur.aluOutSe = alu j.rd.exeCmd
    (presenting c j n).cur.byp.op1Se (presenting c j n).cur.pre.1 j.rd.negOp2 := by
  have hcov : aluM.Covers :=
    Method.covers_of_factor (fun l : BitVec 32 × BitVec 32 × Bool × BitVec 2 =>
      alu l.2.2.2 l.1 l.2.1 l.2.2.1) fun _ => rfl
  have hout := out_presenting (j := j) (Method.drivenBy_of_fire fun _ _ => rfl) hcov
    (fun _ _ _ _ => rfl) h rfl n
  simpa only [Method.listening, presenting_inp] using hout

theorem sll_next (h : AtRest c) (n : ℕ) : (presenting c j (n + 1)).cur.sllDoutSe =
    shifterSll (presenting c j n).cur.byp.op1Se (presenting c j n).cur.pre.2 := by
  have hcov : sllM.Covers :=
    Method.covers_of_factor (fun l : BitVec 32 × BitVec 5 => shifterSll l.1 l.2) fun _ => rfl
  exact out_presenting (j := j) (Method.drivenBy_of_fire fun _ _ => rfl) hcov
    (fun _ _ _ _ => rfl) h rfl n

theorem sr_next (h : AtRest c) (n : ℕ) : (presenting c j (n + 1)).cur.srDoutSe =
    shifterSr (presenting c j n).cur.byp.op1Se (presenting c j n).cur.pre.2
      (presenting c j n).cur.cmd.2.2 := by
  have hcov : srM.Covers :=
    Method.covers_of_factor (fun l : BitVec 32 × BitVec 5 × Bool => shifterSr l.1 l.2.1 l.2.2)
      fun _ => rfl
  exact out_presenting (j := j) (Method.drivenBy_of_fire fun _ _ => rfl) hcov
    (fun _ _ _ _ => rfl) h rfl n

theorem agregate_next (h : AtRest c) (n : ℕ) : (presenting c j (n + 1)).cur.shifterOutSe =
    if (presenting c j n).cur.cmd.1 then (presenting c j n).cur.sllDoutSe
    else (presenting c j n).cur.srDoutSe := by
  have hcov : agregateM.Covers :=
    Method.covers_of_factor (fun l : BitVec 32 × BitVec 32 × Bool × Bool × Bool =>
      if l.2.2.1 then l.1 else l.2.1) fun _ => rfl
  exact out_presenting (j := j) (Method.drivenBy_of_fire fun _ _ => rfl) hcov
    (fun _ _ _ _ => rfl) h rfl n

theorem exception_next (h : AtRest c) (n : ℕ) :
    (presenting c j (n + 1)).cur.exceptionSe = exceptionSe j (presenting c j n).cur.res ∧
      (presenting c j (n + 1)).cur.eff = effects j (presenting c j n).cur.exceptionSe := by
  have hcov : exceptionM.Covers :=
    Method.covers_of_factor
      (fun l : (Bool × Bool × Bool × Bool) × Bool × Bool × Bool × Bool × Bool =>
        (l.1.2.2.2 || (l.2.2.1 || l.2.2.2.1 || l.2.2.2.2.1 || l.2.2.2.2.2),
          if l.2.1 then (false, false, false) else (l.1.1, l.1.2.1, l.1.2.2.1)))
      fun _ => rfl
  have hout := out_presenting (j := j) (Method.drivenBy_of_fire fun _ _ => rfl) hcov
    (fun _ _ _ _ => rfl) h rfl n
  simpa only [Method.listening, presenting_inp, Prod.mk.injEq] using hout

/-! #### The results follow the operands -/

/-- `bypasses` writes nothing new between the delta cycles `k` and `m`. -/
def Steady (c : Sig) (j : Inputs) (k m : ℕ) (byp : Bypassed) : Prop :=
  ∀ n, k ≤ n → n ≤ m → (presenting c j n).cur.byp = byp

theorem preprocess_of_steady (h : AtRest c) {byp : Bypassed} {n : ℕ}
    (hb : (presenting c j n).cur.byp = byp) :
    (presenting c j (n + 1)).cur.pre = preprocessOp j.rd.negOp2 byp.op2Se := by
  rw [preprocess_next h, hb]

theorem alu_of_steady (h : AtRest c) {k m n : ℕ} {byp : Bypassed} (hs : Steady c j k m byp)
    (hk : k + 2 ≤ n) (hm : n ≤ m + 1) : (presenting c j n).cur.aluOutSe = aluOut j byp := by
  obtain ⟨n, rfl⟩ := Nat.exists_eq_add_of_le' (Nat.le_trans (Nat.le_add_left 2 k) hk)
  rw [alu_next h, preprocess_of_steady h (hs n (by omega) (by omega)),
    hs (n + 1) (by omega) (by omega)]
  rfl

theorem shifter_of_steady (h : AtRest c) {k m n : ℕ} {byp : Bypassed} (hs : Steady c j k m byp)
    (hk : k + 3 ≤ n) (hm : n ≤ m + 1) : (presenting c j n).cur.shifterOutSe = shifterOut j byp := by
  obtain ⟨n, rfl⟩ := Nat.exists_eq_add_of_le' (Nat.le_trans (Nat.le_add_left 3 k) hk)
  rw [agregate_next h, sll_next h, sr_next h, decode_next h, decode_next h,
    preprocess_of_steady h (hs n (by omega) (by omega)), hs (n + 1) (by omega) (by omega)]
  rfl

/-! #### The result -/

theorem select_drivenBy : selectM.DrivenBy delta := Method.drivenBy_of_fire fun _ _ => rfl

/-- What `select_exec_res` writes on the operands `byp`, over an older result. -/
def selected (j : Inputs) (byp : Bypassed) (old : ExeRes) : ExeRes :=
  selectExecRes j byp.op1Se byp.op2Se (aluOut j byp) (shifterOut j byp) old.exeResSe

theorem selected_latch (j : Inputs) (byp : Bypassed) (old : ExeRes) :
    selected j byp (selected j byp old) = selected j byp old :=
  selectExecRes_latch j _ _ _ _ _

/-- On steady operands `select_exec_res` writes their result, or it sleeps because
`exception_se` does not move. -/
theorem select_next (h : AtRest c) {k m n : ℕ} {byp : Bypassed} (hs : Steady c j k m byp)
    (hk : k + 3 ≤ n) (hm : n ≤ m) :
    (presenting c j (n + 1)).cur.res = selected j byp (presenting c j n).cur.res ∨
      (presenting c j (n + 1)).cur.res = (presenting c j n).cur.res := by
  rw [presenting_succ]
  by_cases hw : selectM.woken (presenting c j n).prev (presenting c j n).cur
  · refine .inl ((select_drivenBy.runs hw).trans ?_)
    change selectExecRes (presenting c j n).cur.inp _ _ _ _ _ = _
    rw [presenting_inp, hs n (by omega) hm, alu_of_steady h hs (by omega) (by omega),
      shifter_of_steady h hs hk (by omega)]
    rfl
  · exact .inr (select_drivenBy.keeps hw)

theorem res_eq_of_exceptionSe (h : AtRest c) {k m n : ℕ} {byp : Bypassed} (hs : Steady c j k m byp)
    (hk : k + 3 ≤ n) (hm : n ≤ m)
    (hexc : (presenting c j n).cur.exceptionSe = (presenting c j (n + 1)).cur.exceptionSe) :
    (presenting c j (n + 2)).cur.res = (presenting c j (n + 1)).cur.res := by
  rw [presenting_succ]
  refine select_drivenBy.keeps (not_not.mpr ?_)
  change (selectSignals _, selectListed _) = (selectSignals _, selectListed _)
  rw [presenting_prev, presenting_inp, presenting_inp, selectSignals, selectSignals, hexc,
    alu_of_steady h hs (n := n) (by omega) (by omega),
    alu_of_steady h hs (n := n + 1) (by omega) (by omega),
    shifter_of_steady h hs hk (by omega), shifter_of_steady h hs (n := n + 1) (by omega) (by omega)]

/-- On steady operands the result stops after five delta cycles: `exception_se` wakes
`select_exec_res` once more at most, which writes again what it wrote. -/
theorem res_next (h : AtRest c) {k m n : ℕ} {byp : Bypassed} (hs : Steady c j k m byp)
    (hk : k + 5 ≤ n) (hm : n ≤ m) :
    (presenting c j (n + 1)).cur.res = (presenting c j n).cur.res := by
  obtain ⟨n, rfl⟩ := Nat.exists_eq_add_of_le' (Nat.le_trans (Nat.le_add_left 5 k) hk)
  by_cases hsame : (presenting c j (n + 4)).cur.res = (presenting c j (n + 3)).cur.res
  · refine res_eq_of_exceptionSe h hs (by omega) (by omega) ?_
    rw [(exception_next h (n + 4)).1, (exception_next h (n + 3)).1, hsame]
  · have hran := (select_next h hs (n := n + 3) (by omega) (by omega)).resolve_right hsame
    have hlatched : selected j byp (presenting c j (n + 5)).cur.res =
        (presenting c j (n + 5)).cur.res := by
      rcases select_next h hs (n := n + 4) (by omega) (by omega) with hnext | hnext <;>
        rw [hnext, hran] <;> simp only [selected_latch]
    rcases select_next h hs (n := n + 5) (by omega) (by omega) with hnext | hnext
    · exact hnext.trans hlatched
    · exact hnext

theorem res_of_steady (h : AtRest c) {k m n : ℕ} {byp : Bypassed} (hs : Steady c j k m byp)
    (hk : k + 5 ≤ n) (hm : n ≤ m + 1) :
    (presenting c j n).cur.res = (presenting c j (k + 5)).cur.res := by
  induction n, hk using Nat.le_induction with
  | base => rfl
  | succ n hk ih => exact (res_next h hs hk (by omega)).trans (ih (by omega))

theorem exceptionSe_of_steady (h : AtRest c) {k m n : ℕ} {byp : Bypassed} (hs : Steady c j k m byp)
    (hk : k + 6 ≤ n) (hm : n ≤ m + 2) :
    (presenting c j n).cur.exceptionSe = exceptionSe j (presenting c j (k + 5)).cur.res := by
  obtain ⟨n, rfl⟩ := Nat.exists_eq_add_of_le' (Nat.le_trans (Nat.le_add_left 1 (k + 5)) hk)
  rw [(exception_next h n).1, res_of_steady h hs (by omega) (by omega)]

/-! #### The operands -/

theorem bypasses_drivenBy : bypassesM.DrivenBy delta := Method.drivenBy_of_fire fun _ _ => rfl

/-- `bypasses` has written nothing or the operands of the inputs. -/
theorem bypasses_next (n : ℕ) :
    (presenting c j (n + 1)).cur.byp = bypasses j (presenting c j n).cur.byp ∨
      (presenting c j (n + 1)).cur.byp = (presenting c j n).cur.byp := by
  rw [presenting_succ]
  by_cases hw : bypassesM.woken (presenting c j n).prev (presenting c j n).cur
  · refine .inl ((bypasses_drivenBy.runs hw).trans ?_)
    change bypasses (presenting c j n).cur.inp _ = _
    rw [presenting_inp]
  · exact .inr (bypasses_drivenBy.keeps hw)

theorem bypasses_cases (n : ℕ) : (presenting c j n).cur.byp = c.byp ∨
    (presenting c j n).cur.byp = bypasses j c.byp := by
  induction n with
  | zero => exact .inl rfl
  | succ n ih =>
    rcases bypasses_next (c := c) (j := j) n with hnext | hnext <;> rw [hnext] <;>
      rcases ih with ih | ih <;> rw [ih]
    · exact .inr rfl
    · exact .inr (bypasses_latch j c.byp)
    · exact .inl rfl
    · exact .inr rfl

/-- `bypasses` does not change its own operands. -/
theorem steady_of_bypasses {k : ℕ} (hk : (presenting c j k).cur.byp = bypasses j c.byp) (m : ℕ) :
    Steady c j k m (bypasses j c.byp) := by
  intro n hkn _
  induction n, hkn using Nat.le_induction with
  | base => exact hk
  | succ n hkn ih =>
    have ih' := ih (by omega)
    rcases bypasses_next (c := c) (j := j) n with hnext | hnext <;> rw [hnext, ih']
    exact bypasses_latch j c.byp

/-- While `bypasses` has not run, `exception_se` stops, and then nothing wakes it. -/
theorem steady_of_asleep (h : AtRest c)
    (hw : ∀ n, n < 7 → ¬ bypassesM.woken (presenting c j n).prev (presenting c j n).cur) (m : ℕ) :
    Steady c j 0 m c.byp := by
  induction m with
  | zero =>
    intro n _ hn
    rw [Nat.le_zero.mp hn]
    rfl
  | succ m ih =>
    intro n _ hn
    rcases Nat.le_succ_iff.mp hn with hn | rfl
    · exact ih n (Nat.zero_le n) hn
    · have hasleep : ¬ bypassesM.woken (presenting c j m).prev (presenting c j m).cur := by
        by_cases hm : m < 7
        · exact hw m hm
        · obtain ⟨m, rfl⟩ := Nat.exists_eq_add_of_le' (Nat.le_of_not_lt hm)
          refine not_not.mpr ?_
          change (Sig.exceptionSe _, bypassesListed _) = (Sig.exceptionSe _, bypassesListed _)
          rw [presenting_prev, presenting_inp, presenting_inp,
            exceptionSe_of_steady h ih (n := m + 6) (by omega) (by omega),
            exceptionSe_of_steady h ih (n := m + 7) (by omega) (by omega)]
      rw [presenting_succ]
      exact (bypasses_drivenBy.keeps hasleep).trans (ih m (Nat.zero_le m) (Nat.le_refl m))

theorem concat_drivenBy : concatM.DrivenBy delta := Method.drivenBy_of_fire fun _ _ => rfl

/-- The operands stop after seven delta cycles. -/
theorem exists_steady (h : AtRest c) (m : ℕ) :
    ∃ byp, Steady c j 7 m byp := by
  by_cases hw : ∃ n, n < 7 ∧ bypassesM.woken (presenting c j n).prev (presenting c j n).cur
  · obtain ⟨n, hn, hw⟩ := hw
    have hran : (presenting c j (n + 1)).cur.byp = bypasses j c.byp := by
      rw [presenting_succ]
      refine (bypasses_drivenBy.runs hw).trans ?_
      change bypasses (presenting c j n).cur.inp _ = _
      rw [presenting_inp]
      rcases bypasses_cases (c := c) (j := j) n with hb | hb <;> rw [hb]
      exact bypasses_latch j c.byp
    exact ⟨_, fun l hl hm => steady_of_bypasses hran m l (by omega) hm⟩
  · exact ⟨_, fun l _ hm =>
      steady_of_asleep h (fun n hn hwn => hw ⟨n, hn, hwn⟩) m l (Nat.zero_le l) hm⟩

/-! #### Rest -/

theorem presenting_still (h : AtRest c) (n : ℕ) :
    (presenting c j (n + 16)).cur = (presenting c j (n + 15)).cur := by
  obtain ⟨byp, hs⟩ := exists_steady (j := j) h (n + 16)
  -- the operands rest from the 7th delta cycle on, the result from the 12th
  have hres : ∀ l, 12 ≤ l → l ≤ n + 16 →
      (presenting c j (l + 1)).cur.res = (presenting c j l).cur.res :=
    fun l hl hn => res_next h hs hl hn
  have hexc : ∀ l, 13 ≤ l → l ≤ n + 16 → (presenting c j l).cur.exceptionSe =
      exceptionSe j (presenting c j 12).cur.res :=
    fun l hl hn => exceptionSe_of_steady h hs hl (by omega)
  have heff : ∀ l, 13 ≤ l → l ≤ n + 15 → (presenting c j (l + 1)).cur.eff =
      effects j (exceptionSe j (presenting c j 12).cur.res) := by
    intro l hl hn
    rw [(exception_next h l).2, hexc l hl (by omega)]
  have hpre : ∀ l, 7 ≤ l → l ≤ n + 16 → (presenting c j (l + 1)).cur.pre =
      preprocessOp j.rd.negOp2 byp.op2Se :=
    fun l hl hn => preprocess_of_steady h (hs l hl hn)
  -- each signal is written from signals that rest already
  refine Sig.ext ((presenting_inp c j _).trans (presenting_inp c j _).symm) ?_ ?_ ?_ ?_ ?_ ?_ ?_
    (hres (n + 15) (by omega) (by omega)) ?_ ?_ ?_
  · rw [hs (n + 16) (by omega) (by omega), hs (n + 15) (by omega) (by omega)]
  · rw [hpre (n + 15) (by omega) (by omega), hpre (n + 14) (by omega) (by omega)]
  · rw [alu_of_steady h hs (n := n + 16) (by omega) (by omega),
      alu_of_steady h hs (n := n + 15) (by omega) (by omega)]
  · rw [decode_next h (n + 15), decode_next h (n + 14)]
  · rw [sll_next h (n + 15), sll_next h (n + 14), hpre (n + 14) (by omega) (by omega),
      hpre (n + 13) (by omega) (by omega), hs (n + 15) (by omega) (by omega),
      hs (n + 14) (by omega) (by omega)]
  · rw [sr_next h (n + 15), sr_next h (n + 14), hpre (n + 14) (by omega) (by omega),
      hpre (n + 13) (by omega) (by omega), hs (n + 15) (by omega) (by omega),
      hs (n + 14) (by omega) (by omega), decode_next h (n + 14), decode_next h (n + 13)]
  · rw [shifter_of_steady h hs (n := n + 16) (by omega) (by omega),
      shifter_of_steady h hs (n := n + 15) (by omega) (by omega)]
  · rw [hexc (n + 16) (by omega) (by omega), hexc (n + 15) (by omega) (by omega)]
  · rw [heff (n + 15) (by omega) (by omega), heff (n + 14) (by omega) (by omega)]
  · rw [presenting_succ]
    refine concat_drivenBy.keeps (not_not.mpr ?_)
    change (concatSignals _, concatListed _) = (concatSignals _, concatListed _)
    rw [presenting_prev, presenting_inp, presenting_inp, concatSignals, concatSignals,
      hs (n + 15) (by omega) (by omega), hs (n + 14) (by omega) (by omega),
      hres (n + 14) (by omega) (by omega), hexc (n + 15) (by omega) (by omega),
      hexc (n + 14) (by omega) (by omega), heff (n + 14) (by omega) (by omega),
      heff (n + 13) (by omega) (by omega)]

/-- Sixteen delta cycles are enough to settle. -/
theorem settled_presenting (h : AtRest c) : (presenting c j 16).Settled :=
  (presenting_prev c j 15).trans (presenting_still h 0).symm

/-! #### What the three methods have left -/

theorem byp_presenting : (presenting c j 16).cur.byp = writtenByp c j := by
  rcases Method.out_run_cases bypasses_drivenBy ⟨c, { c with inp := j }⟩ 15 with
    ⟨n, hn, hw, -, hout, -⟩ | ⟨hnone, hout, -⟩
  · rw [writtenByp, if_pos (bypassesRun_iff.mp ⟨n, hn, hw⟩)]
    refine hout.trans ?_
    change bypasses (presenting c j n).cur.inp (presenting c j n).cur.byp = _
    rw [presenting_inp]
    rcases bypasses_cases (c := c) (j := j) n with hb | hb <;> rw [hb]
    exact bypasses_latch j c.byp
  · rw [writtenByp, if_neg fun hr => ?_]
    · exact hout
    · obtain ⟨n, hn, hw⟩ := bypassesRun_iff.mpr hr
      exact hw (hnone n hn)

theorem byp_stays {k n : ℕ} (hkn : k ≤ n) (hn : n ≤ 16)
    (hk : (presenting c j k).cur.byp = writtenByp c j) :
    (presenting c j n).cur.byp = writtenByp c j := by
  rcases bypasses_cases (c := c) (j := j) n with hb | hb
  · rcases bypasses_cases (c := c) (j := j) k with hb' | hb'
    · rw [hb, ← hb', hk]
    · rw [steady_of_bypasses hb' n n hkn (Nat.le_refl n), ← hb', hk]
  · rw [hb, ← byp_presenting, steady_of_bypasses hb 16 16 hn (Nat.le_refl 16)]

theorem steady_writtenByp (h : AtRest c) : Steady c j 7 16 (writtenByp c j) := by
  obtain ⟨byp, hs⟩ := exists_steady (j := j) h 16
  have heq : byp = writtenByp c j := (hs 16 (by omega) (by omega)).symm.trans byp_presenting
  exact heq ▸ hs

/-- An instruction without a result leaves the old one. -/
theorem presenting_exeResSe (hj : ¬ HasResult j) (n : ℕ) :
    (presenting c j n).cur.res.exeResSe = c.res.exeResSe := by
  induction n with
  | zero => rfl
  | succ n ih =>
    rw [presenting_succ, ← ih]
    change (selectM.out (delta (presenting c j n).prev (presenting c j n).cur)).exeResSe = _
    by_cases hw : selectM.woken (presenting c j n).prev (presenting c j n).cur
    · rw [select_drivenBy.runs hw]
      refine selectExecRes_keeps ?_ _ _ _ _ _
      rw [presenting_inp]
      exact hj
    · rw [select_drivenBy.keeps hw]
      rfl

theorem selectSignals_presenting (h : AtRest c) (n : ℕ) (hn : 15 ≤ n) (hn' : n ≤ 16) :
    (presenting c j n).cur.aluOutSe = aluOut j (writtenByp c j) ∧
      (presenting c j n).cur.shifterOutSe = shifterOut j (writtenByp c j) :=
  ⟨alu_of_steady h (steady_writtenByp h) (by omega) (by omega),
    shifter_of_steady h (steady_writtenByp h) (by omega) (by omega)⟩

/-- The operands of the last activation of `select_exec_res`. -/
theorem byp_eq_readOperands {n : ℕ} (hn : n ≤ 15)
    (hw : (selectSignals (presenting c j n).prev, selectListed (presenting c j n).prev.inp) ≠
      (selectSignals (presenting c j n).cur, selectListed (presenting c j n).cur.inp))
    (hlast : ∀ l, n < l → l ≤ 15 →
      (selectSignals (presenting c j l).prev, selectListed (presenting c j l).prev.inp) =
        (selectSignals (presenting c j l).cur, selectListed (presenting c j l).cur.inp)) :
    (presenting c j n).cur.byp = readOperands c j := by
  rw [readOperands]
  split_ifs with hh
  · obtain ⟨k, hk, hmove, hb⟩ := hh
    rcases Nat.lt_or_ge n (k + 1) with hlt | hge
    · have hsame := congrArg Prod.fst (hlast (k + 1) hlt hk)
      rw [presenting_prev] at hsame
      exact absurd hsame hmove
    · exact byp_stays hge (by omega) hb
  · cases n with
    | zero => rfl
    | succ n =>
      rcases bypasses_cases (c := c) (j := j) (n + 1) with hb | hb
      · exact hb
      · have hb' : (presenting c j (n + 1)).cur.byp = writtenByp c j := by
          rw [hb, ← byp_presenting, steady_of_bypasses hb 16 16 (by omega) (Nat.le_refl 16)]
        refine absurd ⟨n, hn, fun heq => hw ?_, hb'⟩ hh
        rw [presenting_prev, presenting_inp, presenting_inp, heq]

theorem res_presenting (h : AtRest c) : (presenting c j 16).cur.res = writtenRes c j := by
  rcases Method.out_run_cases select_drivenBy ⟨c, { c with inp := j }⟩ 15 with
    ⟨n, hn, hw, hlast, hout, hsame⟩ | ⟨hnone, hout, -⟩
  · rw [writtenRes, if_pos (selectRuns_iff.mp ⟨n, hn, hw⟩)]
    refine hout.trans ?_
    have hsignals : selectSignals (presenting c j n).cur = selectSignals (presenting c j 15).cur :=
      congrArg Prod.fst hsame
    obtain ⟨halu, hshift, -⟩ := selectSignals_inj.mp hsignals
    obtain ⟨halu', hshift'⟩ := selectSignals_presenting (j := j) h 15 (by omega) (by omega)
    change selectExecRes (presenting c j n).cur.inp (presenting c j n).cur.byp.op1Se
      (presenting c j n).cur.byp.op2Se (presenting c j n).cur.aluOutSe
      (presenting c j n).cur.shifterOutSe (presenting c j n).cur.res.exeResSe = _
    rw [presenting_inp, byp_eq_readOperands hn hw hlast, halu, halu', hshift, hshift']
    by_cases hj : HasResult j
    · exact selectExecRes_congr hj _ _ _ _ _ _
    · rw [presenting_exeResSe hj]
  · rw [writtenRes, if_neg fun hr => ?_]
    · exact hout
    · obtain ⟨n, hn, hw⟩ := selectRuns_iff.mpr hr
      exact hw (hnone n hn)

theorem exception_presenting (h : AtRest c) :
    (presenting c j 16).cur.exceptionSe = exceptionSe j (writtenRes c j) ∧
      (presenting c j 16).cur.eff = effects j (exceptionSe j (writtenRes c j)) := by
  obtain ⟨hexc, heff⟩ := exception_next (j := j) h 15
  rw [← presenting_still h 0, res_presenting h] at hexc
  rw [← presenting_still h 0, hexc] at heff
  exact ⟨hexc, heff⟩

theorem concat_presenting (h : AtRest c) :
    (presenting c j 16).cur.exe2memDinSe = writtenWord c j := by
  rcases Method.out_run_cases concat_drivenBy ⟨c, { c with inp := j }⟩ 15 with
    ⟨n, hn, hw, -, hout, hsame⟩ | ⟨hnone, hout, -⟩
  · rw [writtenWord, if_pos (concatRuns_iff.mp ⟨n, hn, hw⟩)]
    refine hout.trans ?_
    have hsignals : concatSignals (presenting c j n).cur =
        concatSignals (presenting c j 16).cur := by
      rw [presenting_still h 0]
      exact congrArg Prod.fst hsame
    obtain ⟨⟨hmem, hres⟩, hexc, heff⟩ := concatSignals_inj.mp hsignals
    change fifoConcat (presenting c j n).cur.inp (presenting c j n).cur.byp.bpMemDataSd
      (presenting c j n).cur.res (presenting c j n).cur.exceptionSe
      (presenting c j n).cur.eff = _
    rw [presenting_inp, hmem, hres, hexc, heff, byp_presenting, res_presenting h,
      (exception_presenting h).1, (exception_presenting h).2]
  · rw [writtenWord, if_neg fun hr => ?_]
    · exact hout
    · obtain ⟨n, hn, hw⟩ := concatRuns_iff.mpr hr
      exact hw (hnone n hn)

/-- A stage at rest settles on what its methods have written last. -/
theorem apply_eq_settle (h : AtRest c) : apply c j = settle c j := by
  have hs := steady_writtenByp (j := j) h
  have hpre : ∀ n, 7 ≤ n → n ≤ 16 → (presenting c j (n + 1)).cur.pre =
      preprocessOp j.rd.negOp2 (writtenByp c j).op2Se :=
    fun n hn hn' => preprocess_of_steady h (hs n hn hn')
  obtain ⟨halu, hshift⟩ := selectSignals_presenting (j := j) h 16 (by omega) (Nat.le_refl 16)
  refine Sig.ext (presenting_inp c j 16) byp_presenting (hpre 15 (by omega) (by omega)) halu
    (decode_next h 15) ?_ ?_ hshift (res_presenting h) (exception_presenting h).1
    (exception_presenting h).2 (concat_presenting h)
  · refine (sll_next h 15).trans ?_
    rw [hpre 14 (by omega) (by omega), hs 15 (by omega) (by omega)]
    rfl
  · refine (sr_next h 15).trans ?_
    rw [hpre 14 (by omega) (by omega), hs 15 (by omega) (by omega), decode_next h 14]
    rfl

/-- A signal that does not move is the one from before. -/
theorem eq_of_not_moves {α : Type} {f : Sig → α} (hf : f { c with inp := j } = f c)
    (hm : ¬ Moves f c j) {n : ℕ} (hn : n ≤ 15) : f (presenting c j n).cur = f c := by
  induction n with
  | zero => exact hf
  | succ n ih =>
    by_contra hne
    exact hm ⟨n, hn, fun heq => hne (heq.symm.trans (ih (by omega)))⟩

theorem signals_settle (h : AtRest c) {α : Type} {f : Sig → α} (hf : f { c with inp := j } = f c)
    (hm : ¬ Moves f c j) : f (settle c j) = f c := by
  rw [← apply_eq_settle h, apply, presenting_still h 0]
  exact eq_of_not_moves hf hm (Nat.le_refl 15)

/-- The stage is at rest again. -/
theorem atRest_settle (h : AtRest c) (j : Inputs) : AtRest (settle c j) where
  signals := rfl
  bypasses := by
    change ∃ i old, bypassesListed i = bypassesListed j ∧ writtenByp c j = bypasses i old
    rw [writtenByp]
    split_ifs with hr
    · exact ⟨j, c.byp, rfl, rfl⟩
    · obtain ⟨i, old, hi, hb⟩ := h.bypasses
      exact ⟨i, old, hi.trans (not_not.mp (not_or.mp hr).1), hb⟩
  select := by
    change ∃ i op1 op2 old, selectListed i = selectListed j ∧ writtenRes c j =
      selectExecRes i op1 op2 (settle c j).aluOutSe (settle c j).shifterOutSe old
    rw [writtenRes]
    split_ifs with hr
    · exact ⟨j, _, _, _, rfl, rfl⟩
    · obtain ⟨hl, hm⟩ := not_or.mp hr
      obtain ⟨i, op1, op2, old, hi, hres⟩ := h.select
      obtain ⟨halu, hshift, -⟩ :=
        selectSignals_inj.mp (signals_settle (j := j) h (f := selectSignals) rfl hm)
      exact ⟨i, op1, op2, old, hi.trans (not_not.mp hl), by rw [halu, hshift]; exact hres⟩
  concat := by
    change ∃ i, concatListed i = concatListed j ∧ writtenWord c j =
      fifoConcat i (settle c j).byp.bpMemDataSd (settle c j).res (settle c j).exceptionSe
        (settle c j).eff
    rw [writtenWord]
    split_ifs with hr
    · exact ⟨j, rfl, rfl⟩
    · obtain ⟨hl, hm⟩ := not_or.mp hr
      obtain ⟨i, hi, hword⟩ := h.concat
      obtain ⟨⟨hmem, hres⟩, hexc, heff⟩ :=
        concatSignals_inj.mp (signals_settle (j := j) h (f := concatSignals) rfl hm)
      exact ⟨i, hi.trans (not_not.mp hl), by rw [hmem, hres, hexc, heff]; exact hword⟩

end Settling

/-! ### The stage between two cycles -/

/-- The signals of the stage, at rest. -/
structure Stage where
  sig : Sig
  atRest : AtRest sig

def Stage.reset : Stage := ⟨Exe.reset, atRest_reset⟩

/-- New inputs, and the signals on which the stage settles. -/
def Stage.settle (c : Stage) (j : Inputs) : Stage :=
  ⟨Exe.settle c.sig j, atRest_settle c.atRest j⟩

theorem Stage.sig_settle (c : Stage) (j : Inputs) : (c.settle j).sig = apply c.sig j :=
  (apply_eq_settle c.atRest).symm

end Exe

end RiVerSoC
