/-
The memory into which an ELF file is loaded.

`mem_add_seg` inserts a segment into the list `TabSeg`, which is sorted by address, unless it
overlaps its predecessor or its successor there; `mem_lw` searches the list for the segment of an
address and stops at the first one behind it.  Addresses have 32 bits, sizes and the sums with
them 64.  Every call comes with a source buffer, and the allocations succeed.

* `memAddSeg`, `memLw` — the two functions on the list;
* `memAddSeg_spec` — a call inserts exactly when the new range overlaps none of the list, and
  otherwise leaves the list alone;
* `lookup_of_covers`, `lookup_of_not_covers` — what is read from a sorted list;
* `each_call_sound` — any sequence of calls.
-/
import Mathlib.Algebra.Group.Nat.Defs
import Mathlib.Tactic.SplitIfs
import RiVerSoC.Ranges
import RiVerSoC.Run

namespace RiVerSoC

namespace ElfSegments

open Ranges

/-- A block that `malloc` can give, filled from the source buffer. -/
structure Block where
  bytes : List (BitVec 8)
  pos : 0 < bytes.length
  lt : bytes.length < 2 ^ 63

/-- `Seg`, without the link to the next one. -/
structure Seg where
  va : BitVec 32
  ra : Block

namespace Seg

variable (s : Seg)

/-- `va + size`, on 64 bits. -/
def past : BitVec 64 := s.va.setWidth 64 + BitVec.ofNat 64 s.ra.bytes.length

def first : ℕ := s.va.toNat

def stop : ℕ := s.va.toNat + s.ra.bytes.length

theorem first_lt_stop : s.first < s.stop := Nat.lt_add_of_pos_right s.ra.pos

/-- The sum does not wrap. -/
theorem toNat_past : s.past.toNat = s.stop := by
  have hva := s.va.isLt
  have hlt := s.ra.lt
  simp only [past, stop, BitVec.toNat_add, BitVec.toNat_setWidth, BitVec.toNat_ofNat]
  omega

theorem lt_past_iff (adr : BitVec 32) : adr.setWidth 64 < s.past ↔ adr.toNat < s.stop := by
  have hadr := adr.isLt
  rw [BitVec.lt_def, toNat_past, BitVec.toNat_setWidth, Nat.mod_eq_of_lt (by omega)]

theorem past_le_iff (m : Seg) : ¬ m.va.setWidth 64 < s.past ↔ s.stop ≤ m.first := by
  rw [lt_past_iff, Nat.not_lt]
  rfl

end Seg

/-! ### The functions -/

/-- The loop of `mem_add_seg`: the segments it has left behind, the one it stops at, and the
following ones. -/
def seek (adr : BitVec 32) : List Seg → Seg → List Seg → List Seg × Seg × List Seg
  | passed, ps, [] => (passed, ps, [])
  | passed, ps, next :: rest =>
    if adr < next.va then (passed, ps, next :: rest) else seek adr (passed ++ [ps]) next rest

/-- `mem_add_seg`: what it returns, and the list that it leaves. -/
def memAddSeg (tabSeg : List Seg) (adr : BitVec 32) (src : Block) : ℕ × List Seg :=
  let new : Seg := ⟨adr, src⟩
  match tabSeg with
  | [] => (1, [new])
  | ps :: rest =>
    if adr < ps.va then
      if ps.va.setWidth 64 < new.past then (0, tabSeg) else (1, new :: tabSeg)
    else
      let (passed, ps, next) := seek adr [] ps rest
      if adr.setWidth 64 < ps.past then (0, tabSeg)
      else if next.head?.any fun n => n.va.setWidth 64 < new.past then (0, tabSeg)
      else (1, passed ++ ps :: new :: next)

section Read

-- what lies behind the blocks in the memory of the simulator
variable (behind : Seg → ℕ → BitVec 8)

def Seg.byteAt (s : Seg) (offset : ℕ) : BitVec 8 :=
  if h : offset < s.ra.bytes.length then s.ra.bytes[offset] else behind s offset

/-- The word at `ra + offset`. -/
def Seg.word (s : Seg) (offset : ℕ) : BitVec 32 :=
  s.byteAt behind (offset + 3) ++ s.byteAt behind (offset + 2) ++ s.byteAt behind (offset + 1) ++
    s.byteAt behind offset

/-- The loop of `mem_lw`. -/
def lookup (adr : BitVec 32) : List Seg → BitVec 32
  | [] => 0
  | ps :: next =>
    if ps.va ≤ adr ∧ adr.setWidth 64 < ps.past then ps.word behind (adr - ps.va).toNat
    else if adr < ps.va then 0
    else lookup adr next

def memLw (tabSeg : List Seg) (adr : BitVec 32) : BitVec 32 :=
  if adr &&& 3 ≠ 0 then 0 else lookup behind adr tabSeg

end Read

/-! ### Insertion -/

/-- The loop stops between the last segment that does not begin behind the address and the first
one that does. -/
theorem seek_spec {adr : BitVec 32} {next : List Seg} :
    ∀ {passed l r : List Seg} {ps p : Seg}, seek adr passed ps next = (l, p, r) →
      ps.first ≤ adr.toNat →
      passed ++ ps :: next = l ++ p :: r ∧ p.first ≤ adr.toNat ∧
        ∀ m ∈ r.head?, adr.toNat < m.first := by
  induction next with
  | nil =>
    rintro passed l r ps p h hps
    rw [seek, Prod.mk.injEq, Prod.mk.injEq] at h
    obtain ⟨rfl, rfl, rfl⟩ := h
    exact ⟨rfl, hps, by simp⟩
  | cons next rest ih =>
    rintro passed l r ps p h hps
    rw [seek] at h
    split_ifs at h with hlt
    · rw [Prod.mk.injEq, Prod.mk.injEq] at h
      obtain ⟨rfl, rfl, rfl⟩ := h
      refine ⟨rfl, hps, ?_⟩
      intro m hm
      obtain rfl : next = m := Option.some.inj hm
      exact hlt
    · have hle : next.first ≤ adr.toNat := Nat.le_of_not_lt hlt
      obtain ⟨heq, hp, hr⟩ := ih h hle
      refine ⟨?_, hp, hr⟩
      rw [← heq, List.append_assoc]
      rfl

/-- A call is refused for an overlap, or inserts and keeps the order. -/
theorem memAddSeg_spec {tab : List Seg} (h : Ordered Seg.first Seg.stop tab) (adr : BitVec 32)
    (src : Block) :
    (memAddSeg tab adr src = (0, tab) ∧ ¬ ∀ s ∈ tab, ¬ Overlap Seg.first Seg.stop ⟨adr, src⟩ s) ∨
      ∃ l r, tab = l ++ r ∧ memAddSeg tab adr src = (1, l ++ ⟨adr, src⟩ :: r) ∧
        Ordered Seg.first Seg.stop (l ++ ⟨adr, src⟩ :: r) ∧
        ∀ s ∈ tab, ¬ Overlap Seg.first Seg.stop ⟨adr, src⟩ s := by
  cases tab with
  | nil => exact .inr ⟨[], [], rfl, rfl, List.pairwise_singleton _ _, by simp⟩
  | cons ps rest =>
    by_cases hlt : adr < ps.va
    · -- in front of the list
      have hfront : ∀ m ∈ (ps :: rest).head?, (Seg.mk adr src).first < m.first := by
        intro m hm
        obtain rfl : ps = m := Option.some.inj hm
        exact hlt
      have hiff := disjoint_iff_next Seg.first_lt_stop h hfront
      have hcall : memAddSeg (ps :: rest) adr src =
          if ps.va.setWidth 64 < (Seg.mk adr src).past then (0, ps :: rest)
          else (1, ⟨adr, src⟩ :: ps :: rest) := if_pos hlt
      rw [hcall, hiff]
      split_ifs with hpast
      · refine .inl ⟨rfl, fun hnext => ?_⟩
        exact (Seg.past_le_iff _ ps).mpr (hnext ps rfl) hpast
      · have hstop := (Seg.past_le_iff _ ps).mp hpast
        have hnext : ∀ m ∈ (ps :: rest).head?, (Seg.mk adr src).stop ≤ m.first := by
          intro m hm
          obtain rfl : ps = m := Option.some.inj hm
          exact hstop
        exact .inr ⟨[], ps :: rest, rfl, rfl,
          ordered_insert h (by simp) (le_first_of_head Seg.first_lt_stop h hnext), hnext⟩
    · -- behind the predecessor that the loop finds
      rcases hseek : seek adr [] ps rest with ⟨l, p, r⟩
      obtain ⟨hsplit, hp, hr⟩ := seek_spec hseek (Nat.le_of_not_lt hlt)
      rw [List.nil_append] at hsplit
      have hcall : memAddSeg (ps :: rest) adr src =
          if adr.setWidth 64 < p.past then (0, ps :: rest)
          else if r.head?.any fun n => n.va.setWidth 64 < (Seg.mk adr src).past then
            (0, ps :: rest)
          else (1, l ++ p :: ⟨adr, src⟩ :: r) := by
        rw [memAddSeg, if_neg hlt, hseek]
      have hany : (r.head?.any fun n => n.va.setWidth 64 < (Seg.mk adr src).past) = true ↔
          ¬ ∀ m ∈ r.head?, (Seg.mk adr src).stop ≤ m.first := by
        cases r with
        | nil => simp
        | cons m r =>
          have hpast := Seg.past_le_iff ⟨adr, src⟩ m
          simp [← hpast]
      rw [hcall]
      rw [hsplit] at h ⊢
      have hiff := disjoint_iff_neighbours (n := ⟨adr, src⟩) Seg.first_lt_stop h hp hr
      rw [hiff]
      split_ifs with hpast hover
      · refine .inl ⟨rfl, fun hfits => ?_⟩
        exact absurd hfits.1 (Nat.not_le_of_lt ((p.lt_past_iff adr).mp hpast))
      · exact .inl ⟨rfl, fun hfits => hany.mp hover hfits.2⟩
      · have hstop : p.stop ≤ adr.toNat := Nat.le_of_not_lt (mt (p.lt_past_iff adr).mpr hpast)
        have hnext := not_not.mp (mt hany.mpr hover)
        refine .inr ⟨l ++ [p], r, by simp, by simp, ?_, hstop, hnext⟩
        rw [← List.append_cons]
        exact ordered_between Seg.first_lt_stop h hstop hnext

/-! ### Lookup -/

section Lookup

variable {behind : Seg → ℕ → BitVec 8} {tab : List Seg} {adr : BitVec 32}

/-- The test of `mem_lw`. -/
theorem covers_iff (s : Seg) : s.va ≤ adr ∧ adr.setWidth 64 < s.past ↔
    Covers Seg.first Seg.stop s adr.toNat := by
  rw [s.lt_past_iff]
  exact Iff.rfl

theorem lookup_of_not_covers (h : ∀ s ∈ tab, ¬ Covers Seg.first Seg.stop s adr.toNat) :
    lookup behind adr tab = 0 := by
  induction tab with
  | nil => rfl
  | cons ps next ih =>
    rw [lookup, if_neg (mt (covers_iff ps).mp (h ps List.mem_cons_self))]
    split_ifs
    · rfl
    · exact ih fun s hs => h s (List.mem_cons_of_mem ps hs)

/-- The segment of an address is found: those in front of it end before the address, and so the
search does not stop at them. -/
theorem lookup_of_covers (h : Ordered Seg.first Seg.stop tab) {s : Seg} (hs : s ∈ tab)
    (hcovers : Covers Seg.first Seg.stop s adr.toNat) :
    lookup behind adr tab = s.word behind (adr - s.va).toNat := by
  induction tab with
  | nil => exact absurd hs List.not_mem_nil
  | cons ps next ih =>
    obtain ⟨hbefore, hnext⟩ := List.pairwise_cons.mp h
    rw [lookup]
    rcases List.mem_cons.mp hs with rfl | hs
    · rw [if_pos ((covers_iff s).mpr hcovers)]
    · have hps := hbefore s hs
      have hpos := ps.first_lt_stop
      obtain ⟨hfirst, -⟩ := hcovers
      have hpast : ¬ Covers Seg.first Seg.stop ps adr.toNat := by
        rintro ⟨-, hlt⟩
        omega
      have hle : ¬ adr < ps.va := by
        rw [BitVec.lt_def]
        change ¬ adr.toNat < ps.first
        omega
      rw [if_neg (mt (covers_iff ps).mp hpast), if_neg hle]
      exact ih hnext hs

/-- The word is put together from four bytes. -/
theorem extractLsb'_word (s : Seg) (offset : ℕ) {k : ℕ} (hk : k < 4) :
    (s.word behind offset).extractLsb' (8 * k) 8 = s.byteAt behind (offset + k) := by
  rw [Seg.word]
  apply BitVec.eq_of_getLsbD_eq
  intro i hi
  rw [BitVec.getLsbD_extractLsb', decide_eq_true hi, Bool.true_and]
  simp only [BitVec.getLsbD_append]
  obtain rfl | rfl | rfl | rfl : k = 0 ∨ k = 1 ∨ k = 2 ∨ k = 3 := by omega
  · rw [if_pos (by omega)]
    congr 1
    omega
  · rw [if_neg (by omega), if_pos (by omega)]
    congr 1
    omega
  · rw [if_neg (by omega), if_neg (by omega), if_pos (by omega)]
    congr 1
    omega
  · rw [if_neg (by omega), if_neg (by omega), if_neg (by omega)]
    congr 1
    omega

end Lookup

/-! ### Sequences of calls -/

/-- A call of `mem_add_seg`. -/
structure Call where
  adr : BitVec 32
  src : Block

def Call.seg (c : Call) : Seg := ⟨c.adr, c.src⟩

/-- The list after a call. -/
def step (tab : List Seg) (c : Call) : List Seg := (memAddSeg tab c.adr c.src).2

/-- The list is sorted and disjoint, and `mem_lw` reads the bytes of its segments, and 0 outside
of them. -/
structure SoundList (behind : Seg → ℕ → BitVec 8) (tab : List Seg) : Prop where
  sorted : tab.Pairwise fun a b => a.va < b.va
  disjoint : tab.Pairwise fun a b => ¬ Overlap Seg.first Seg.stop a b
  inside : ∀ s ∈ tab, ∀ adr : BitVec 32, adr &&& 3 = 0 → s.first ≤ adr.toNat →
    adr.toNat + 4 ≤ s.stop → ∀ k < 4,
      s.ra.bytes[adr.toNat - s.first + k]? = some ((memLw behind tab adr).extractLsb' (8 * k) 8)
  outside : ∀ adr : BitVec 32, (∀ s ∈ tab, ¬ Covers Seg.first Seg.stop s adr.toNat) →
    memLw behind tab adr = 0

/-- The call returns 1 exactly when its range is free; then it is recorded, and otherwise the list
stays as it is. -/
structure SoundCall (tab : List Seg) (c : Call) : Prop where
  returns : (memAddSeg tab c.adr c.src).1 = 1 ↔ ∀ s ∈ tab, ¬ Overlap Seg.first Seg.stop c.seg s
  recorded : (memAddSeg tab c.adr c.src).1 = 1 → ∀ s, s ∈ step tab c ↔ s = c.seg ∨ s ∈ tab
  refused : (memAddSeg tab c.adr c.src).1 ≠ 1 →
    (memAddSeg tab c.adr c.src).1 = 0 ∧ step tab c = tab

theorem soundList_of_ordered {tab : List Seg} (h : Ordered Seg.first Seg.stop tab)
    (behind : Seg → ℕ → BitVec 8) : SoundList behind tab where
  sorted := by
    refine h.imp ?_
    intro a b hab
    have := a.first_lt_stop
    change a.first < b.first
    omega
  disjoint := by
    refine h.imp ?_
    rintro a b hab hover
    have := ((overlap_iff Seg.first_lt_stop).mp hover).2
    omega
  inside := by
    intro s hs adr halign hfirst hstop k hk
    have hcovers : Covers Seg.first Seg.stop s adr.toNat := ⟨hfirst, by omega⟩
    have hoffset : (adr - s.va).toNat = adr.toNat - s.first := BitVec.toNat_sub_of_le hfirst
    have hin : adr.toNat - s.first + k < s.ra.bytes.length := by
      simp only [Seg.first, Seg.stop] at hfirst hstop ⊢
      omega
    rw [memLw, if_neg (not_not.mpr halign), lookup_of_covers h hs hcovers, extractLsb'_word _ _ hk,
      hoffset, Seg.byteAt, dif_pos hin, List.getElem?_eq_getElem hin]
  outside := by
    intro adr hno
    rw [memLw, lookup_of_not_covers hno]
    split_ifs <;> rfl

theorem soundCall_of_ordered {tab : List Seg} (h : Ordered Seg.first Seg.stop tab) (c : Call) :
    SoundCall tab c ∧ Ordered Seg.first Seg.stop (step tab c) := by
  rcases memAddSeg_spec h c.adr c.src with ⟨hcall, hover⟩ | ⟨l, r, rfl, hcall, hordered, hfree⟩
  · have hstep : step tab c = tab := by rw [step, hcall]
    rw [hstep]
    refine ⟨⟨?_, ?_, fun _ => ⟨by rw [hcall], hstep⟩⟩, h⟩
    · rw [hcall]
      exact iff_of_false Nat.zero_ne_one hover
    · rw [hcall]
      intro hone
      exact absurd hone Nat.zero_ne_one
  · have hstep : step (l ++ r) c = l ++ c.seg :: r := by
      rw [step, hcall]
      rfl
    rw [hstep]
    refine ⟨⟨?_, fun _ s => ?_, fun hne => absurd (by rw [hcall]) hne⟩, hordered⟩
    · rw [hcall]
      exact iff_of_true rfl hfree
    · rw [hstep]
      simp only [List.mem_append, List.mem_cons]
      tauto

/-- Every call of a sequence is sound, and so is the list that it leaves. -/
theorem each_call_sound (behind : Seg → ℕ → BitVec 8) (calls : List Call) :
    SoundList behind [] ∧
      Run.Each (fun tab c => SoundCall tab c ∧ SoundList behind (step tab c)) step [] calls := by
  have hsound : ∀ tab c, Ordered Seg.first Seg.stop tab →
      SoundCall tab c ∧ SoundList behind (step tab c) := by
    intro tab c h
    obtain ⟨hcall, hordered⟩ := soundCall_of_ordered h c
    exact ⟨hcall, soundList_of_ordered hordered behind⟩
  have hstep : ∀ tab c, Ordered Seg.first Seg.stop tab → Ordered Seg.first Seg.stop (step tab c) :=
    fun tab c h => (soundCall_of_ordered h c).2
  exact ⟨soundList_of_ordered List.Pairwise.nil behind,
    Run.each_of_invariant hsound hstep calls List.Pairwise.nil⟩

end ElfSegments

end RiVerSoC
