/-
The EXE stage along a sequence of instructions.

* `Rouses` — each of the three methods with reads outside their sensitivity lists is woken
  after these have moved, or would write what it wrote before;
* `apply_eq_settled` — on such inputs the signals settle on the values of the inputs;
* `each_fromScratch` — along every sequence of such inputs, the word offered to EXE2MEM is the
  one computed from scratch.
-/
import RiVerSoC.ExeDelta
import RiVerSoC.Run

namespace RiVerSoC

namespace Exe

open Delta

/-! ### Inputs that rouse the methods -/

/-- The first activation of `select_exec_res`, with the operands and results of the
previous instruction, if one of the inputs wakes it. -/
def firstSelect (c : Sig) (j : Inputs) : ExeRes :=
  if selectListed c.inp ≠ selectListed j then
    selectExecRes j c.byp.op1Se c.byp.op2Se c.aluOutSe c.shifterOutSe c.res.exeResSe
  else c.res

/-- The three methods with reads outside their sensitivity lists are woken after these
have moved, or would write again what they wrote. -/
structure Rouses (c : Sig) (j : Inputs) : Prop where
  bypasses : bypassesListed c.inp ≠ bypassesListed j ∨ bypasses j c.byp = c.byp
  select : selectSignals c ≠ ((settled c j).aluOutSe, (settled c j).shifterOutSe,
      exceptionSe j (firstSelect c j)) ∨ firstSelect c j = (settled c j).res
  concat : concatListed c.inp ≠ concatListed j ∨ concatSignals c ≠ concatSignals (settled c j) ∨
    c.exe2memDinSe = (settled c j).exe2memDinSe

instance (c : Sig) (j : Inputs) : Decidable (Rouses c j) :=
  decidable_of_iff (_ ∧ _ ∧ _)
    ⟨fun ⟨h1, h2, h3⟩ => ⟨h1, h2, h3⟩, fun ⟨h1, h2, h3⟩ => ⟨h1, h2, h3⟩⟩

section Rousing

variable {c : Sig} {j : Inputs}

theorem presenting_one_res (c : Sig) (j : Inputs) :
    (presenting c j 1).cur.res = firstSelect c j := by
  change selectM.out (delta c { c with inp := j }) = _
  by_cases hl : selectListed c.inp = selectListed j
  · rw [firstSelect, if_neg (not_not.mpr hl)]
    exact select_drivenBy.keeps (not_not.mpr (Prod.ext rfl hl))
  · rw [firstSelect, if_pos hl]
    exact select_drivenBy.runs fun heq => hl (congrArg Prod.snd heq)

theorem steady_of_rouses (hr : Rouses c j) (m : ℕ) : Steady c j 1 m (bypasses j c.byp) := by
  refine steady_of_bypasses ?_ m
  rcases hr.bypasses with hl | hv
  · exact bypasses_drivenBy.runs fun heq => hl (congrArg Prod.snd heq)
  · rcases bypasses_cases (c := c) (j := j) 1 with hb | hb
    · exact hb.trans hv.symm
    · exact hb

theorem writtenByp_of_rouses (hr : Rouses c j) : writtenByp c j = bypasses j c.byp :=
  byp_presenting.symm.trans (steady_of_rouses hr 16 16 (by omega) (Nat.le_refl 16))

theorem selectSignals_of_rouses (h : AtRest c) (hr : Rouses c j) (hm : ¬ Moves selectSignals c j) :
    selectSignals c =
      ((settled c j).aluOutSe, (settled c j).shifterOutSe, exceptionSe j (firstSelect c j)) := by
  have hsame : ∀ n, n ≤ 15 → selectSignals (presenting c j n).cur = selectSignals c :=
    fun n hn => eq_of_not_moves rfl hm hn
  have hs := steady_of_rouses hr 16
  refine Prod.ext ?_ (Prod.ext ?_ ?_)
  · rw [← hsame 3 (by omega)]
    exact alu_of_steady h hs (by omega) (by omega)
  · rw [← hsame 4 (by omega)]
    exact shifter_of_steady h hs (by omega) (by omega)
  · rw [← hsame 2 (by omega)]
    exact (exception_next h 1).1.trans (congrArg _ (presenting_one_res c j))

/-- When the signals that wake `select_exec_res` move, it runs on the operands of the
inputs. -/
theorem writtenRes_of_rouses (h : AtRest c) (hr : Rouses c j) :
    writtenRes c j = (settled c j).res := by
  have hbyp := writtenByp_of_rouses hr
  by_cases hm : Moves selectSignals c j
  · obtain ⟨n, hn, hmove⟩ := hm
    have hhears : SelectHears (writtenByp c j) c j :=
      ⟨n, hn, hmove, (steady_of_rouses hr 16 (n + 1) (by omega) (by omega)).trans hbyp.symm⟩
    rw [writtenRes, if_pos (.inr ⟨n, hn, hmove⟩), readOperands, if_pos hhears, hbyp]
    rfl
  · have hsame := selectSignals_of_rouses h hr hm
    have hfirst := hr.select.resolve_left (not_not.mpr hsame)
    have hhears : ¬ SelectHears (writtenByp c j) c j := by
      rintro ⟨n, hn, hmove, -⟩
      exact hm ⟨n, hn, hmove⟩
    have halu : c.aluOutSe = aluOut j (bypasses j c.byp) := congrArg Prod.fst hsame
    have hshift : c.shifterOutSe = shifterOut j (bypasses j c.byp) :=
      congrArg (fun l => l.2.1) hsame
    rw [← hfirst, writtenRes, firstSelect, readOperands, if_neg hhears, hbyp, halu, hshift]
    exact if_congr (or_iff_left hm) rfl rfl

theorem writtenWord_of_rouses (h : AtRest c) (hr : Rouses c j) :
    writtenWord c j = (settled c j).exe2memDinSe := by
  have hbyp := writtenByp_of_rouses hr
  have hres := writtenRes_of_rouses h hr
  have hsignals : concatSignals (settle c j) = concatSignals (settled c j) := by
    rw [concatSignals_inj]
    exact ⟨⟨congrArg Bypassed.bpMemDataSd hbyp, hres⟩, congrArg (exceptionSe j) hres,
      congrArg (fun r => effects j (exceptionSe j r)) hres⟩
  rw [writtenWord]
  split_ifs with hruns
  · rw [hbyp, hres]
    rfl
  · obtain ⟨hl, hm⟩ := not_or.mp hruns
    have hsame := signals_settle (j := j) h (f := concatSignals) rfl hm
    exact (hr.concat.resolve_left hl).resolve_left
      (not_not.mpr (hsame.symm.trans hsignals))

/-- The stage settles on the values of the inputs. -/
theorem apply_eq_settled (h : AtRest c) (hr : Rouses c j) : apply c j = settled c j := by
  rw [apply_eq_settle h, settle, writtenByp_of_rouses hr, writtenRes_of_rouses h hr,
    writtenWord_of_rouses h hr]
  rfl

end Rousing

/-! ### Sequences of instructions -/

/-- The word may be pushed: a blocked stage pushes only while MEM takes a trap. -/
def Offered (j : Inputs) : Prop := j.exceptionSm ∨ (bypasses j default).blocked = false

instance (j : Inputs) : Decidable (Offered j) := inferInstanceAs (Decidable (_ ∨ _))

/-- After the inputs `j` the offered word is the one computed from scratch. -/
def FromScratch (c : Sig) (j : Inputs) : Prop :=
  Offered j → (apply c j).exe2memDinSe = scratch j

instance (c : Sig) (j : Inputs) : Decidable (FromScratch c j) :=
  inferInstanceAs (Decidable (_ → _))

/-- An offered word without a result of its own does not show an older one. -/
def OwnResult (c : Sig) (j : Inputs) : Prop :=
  Offered j → j.exceptionSm ∨ HasResult j ∨ c.res.exeResSe = 0

instance (c : Sig) (j : Inputs) : Decidable (OwnResult c j) :=
  inferInstanceAs (Decidable (_ → _))

/-- The inputs wake the methods that have to run. -/
def Refreshes (c : Sig) (j : Inputs) : Prop := Rouses c j ∧ OwnResult c j

instance (c : Sig) (j : Inputs) : Decidable (Refreshes c j) := inferInstanceAs (Decidable (_ ∧ _))

theorem settled_dinSe {c : Sig} {j : Inputs} (ho : Offered j)
    (hown : j.exceptionSm ∨ HasResult j ∨ c.res.exeResSe = 0) :
    (settled c j).exe2memDinSe = scratch j := by
  cases hx : j.exceptionSm with
  | true => simp only [scratch, settled, evaluate, fifoConcat, hx, if_true]
  | false =>
    have hblocked : (bypasses j default).blocked = false :=
      ho.resolve_left (by rw [hx]; exact Bool.false_ne_true)
    rcases hown.resolve_left (by rw [hx]; exact Bool.false_ne_true) with hj | hzero
    · simp only [scratch, settled, evaluate, bypasses_congr hblocked,
        selectExecRes_congr hj _ _ _ _ c.res.exeResSe (default : Sig).res.exeResSe]
    · simp only [scratch, settled, bypasses_congr hblocked, hzero]
      rfl

theorem fromScratch_of_refreshes {c : Sig} {j : Inputs} (h : AtRest c) (hr : Refreshes c j) :
    FromScratch c j := by
  intro ho
  rw [apply_eq_settled h hr.1]
  exact settled_dinSe ho (hr.2 ho)

/-- In every run whose inputs wake the methods that have to run, each offered word is the
one computed from scratch. -/
theorem each_fromScratch (is : List Inputs) (h : Run.Each Refreshes apply reset is) :
    Run.Each FromScratch apply reset is := by
  refine Run.each_of_inv ?_ ?_ atRest_reset h
  · intro c j hc hr
    exact fromScratch_of_refreshes hc hr
  · intro c j hc _
    rw [apply_eq_settle hc]
    exact atRest_settle hc j

/-- `addi x1, x0, 5` at the address `pc`, as DEC presents it. -/
def addiWord (pc : BitVec 32) : Dec2Exe :=
  { (default : Dec2Exe) with
    r1Valid := true, r2Valid := true, op2 := 5#32, wb := true, dest := 1#6
    selectTypeOperations := 1#4, pc := pc }

/-- `add x2, x1, x1`. -/
def addWord (pc : BitVec 32) : Dec2Exe :=
  { (default : Dec2Exe) with
    r1Valid := true, r2Valid := true, radr1 := 1#6, radr2 := 1#6, wb := true, dest := 2#6
    selectTypeOperations := 1#4, pc := pc }

/-- The first instruction of a program and a second one right behind it. -/
def pair (first second : Dec2Exe) : List Inputs :=
  let i := { (default : Inputs) with rd := first, exe2memEmpty := true, mem2wbkEmpty := true }
  [i, { i with rd := second, re := scratch i, exe2memEmpty := false }]

theorem each_fromScratch_add :
    Run.Each FromScratch apply reset (pair (addiWord 0x100#32) (addWord 0x104#32)) :=
  each_fromScratch _ (by decide +kernel)

/-- `addi x1, x0, 5` twice: nothing that wakes `fifo_concat` changes, and the second word
keeps the address of the first. -/
theorem addi_twice_stale :
    ¬ Run.Each FromScratch apply reset (pair (addiWord 0x100#32) (addiWord 0x104#32)) := by
  decide +kernel

end Exe

end RiVerSoC
