/-
The instruction cache and the memory behind it.

`parseAdr`, `missDetection` and `transition` embed the methods and the thread of `icache.cpp`.
Three signals of the cache are held: what `miss_detection` wrote when one of the signals on its
sensitivity list changed last, and the tags are not on that list.

* `Memory` — the memory side: four words a line, one an activation, after any delay;
* `Inv` — every valid line is a line of the memory, and the line that is being refilled is so
  far as it has come;
* `inv_step` — a change of the program counter at any moment, and any activation of the thread,
  keep this;
* `icInstSi_eq` — an instruction that is not stalled is the word of the memory.
-/
import Mathlib.Logic.Function.Basic
import RiVerSoC.MemAccess
import RiVerSoC.Run

namespace RiVerSoC

namespace Icache

/-- The states of the refill thread. -/
inductive Fsm
  | idle
  | waitMem
  | updt
deriving DecidableEq, Repr, Inhabited

/-- The signals of the cache and the local variables of its thread. -/
structure Cache where
  pcSi : BitVec 32
  pcValidSi : Bool
  addressTag : BitVec 20
  addressIndex : BitVec 8
  addressOffset : BitVec 4
  data : BitVec 8 → ℕ → BitVec 32
  tag : BitVec 8 → BitVec 20
  dataValidate : BitVec 8 → Bool
  hit : Bool
  icStallSi : Bool
  icInstSi : BitVec 32
  a : BitVec 32
  dtaValid : Bool
  fsmCurrentState : Fsm
  cpt : ℕ
  currentAddressIndex : BitVec 8
  currentAddressTag : BitVec 20

/-- `parse_adr`. -/
def parseAdr (c : Cache) : Cache :=
  { c with
    addressTag := c.pcSi.extractLsb' 12 20
    addressIndex := c.pcSi.extractLsb' 4 8
    addressOffset := c.pcSi.extractLsb' 0 4 }

/-- `miss_detection`. -/
def missDetection (c : Cache) : Cache :=
  if c.addressTag == c.tag c.addressIndex && c.dataValidate c.addressIndex then
    { c with
      hit := true
      icStallSi := false
      icInstSi := c.data c.addressIndex (c.addressOffset.toNat / 4) }
  else { c with hit := false, icStallSi := true }

/-- A signal is written with another value than it has. -/
def changes {α : Type*} [DecidableEq α] (old new : α) : Bool := decide (old ≠ new)

/-- The program counter changes. -/
def setPc (c : Cache) (pc : BitVec 32) (valid : Bool) : Cache :=
  let c' := parseAdr { c with pcSi := pc, pcValidSi := valid }
  if changes c.addressTag c'.addressTag || changes c.addressIndex c'.addressIndex ||
      changes c.addressOffset c'.addressOffset then missDetection c'
  else c'

/-- `data[current_address_index][cpt++] = DT.read()`. -/
def writeData (c : Cache) (dt : BitVec 32) : Cache :=
  { c with
    data := Function.update c.data c.currentAddressIndex
      (Function.update (c.data c.currentAddressIndex) c.cpt dt)
    cpt := c.cpt + 1 }

/-- `data_validate[current_address_index] = v`. -/
def writeValidate (c : Cache) (v : Bool) : Cache :=
  { c with dataValidate := Function.update c.dataValidate c.currentAddressIndex v }

/-- One activation of `transition`. -/
def transition (c : Cache) (slaveAckSp : Bool) (dt : BitVec 32) : Cache :=
  match c.fsmCurrentState with
  | .idle =>
    if c.pcValidSi && !c.hit then
      { c with
        fsmCurrentState := .waitMem
        a := c.pcSi &&& 0xFFFFFFF0#32
        currentAddressIndex := c.addressIndex
        currentAddressTag := c.addressTag
        dtaValid := true
        cpt := 0 }
    else { c with dtaValid := false }
  | .waitMem =>
    if slaveAckSp then
      { writeValidate (writeData c dt) false with
        fsmCurrentState := .updt
        tag := Function.update c.tag c.currentAddressIndex c.currentAddressTag
        dtaValid := false }
    else { c with dtaValid := false }
  | .updt =>
    if !slaveAckSp then
      { writeValidate c true with
        fsmCurrentState := .idle
        dtaValid := false }
    else { writeData c dt with dtaValid := false }

/-- The activation changes a signal that `miss_detection` is sensitive to. -/
def wakes (c : Cache) (slaveAckSp : Bool) (dt : BitVec 32) : Bool :=
  let c' := transition c slaveAckSp dt
  changes (c.data c.currentAddressIndex c.cpt) (c'.data c.currentAddressIndex c.cpt) ||
    changes (c.dataValidate c.currentAddressIndex) (c'.dataValidate c.currentAddressIndex)

/-- The cache once an activation of the thread has settled. -/
def activate (c : Cache) (slaveAckSp : Bool) (dt : BitVec 32) : Cache :=
  let c' := transition c slaveAckSp dt
  if wakes c slaveAckSp dt then missDetection c' else c'

/-- Nothing is valid, and `miss_detection` has run once. -/
def resetCache : Cache :=
  missDetection
    { pcSi := 0
      pcValidSi := false
      addressTag := 0
      addressIndex := 0
      addressOffset := 0
      data := fun _ _ => 0
      tag := fun _ => 0
      dataValidate := fun _ => false
      hit := false
      icStallSi := false
      icInstSi := 0
      a := 0
      dtaValid := false
      fsmCurrentState := .idle
      cpt := 0
      currentAddressIndex := 0
      currentAddressTag := 0 }

/-! ### The memory side -/

/-- The memory side: it has no request, has one, or has sent some words of a line. -/
inductive Memory
  | idle
  | asked (adr : BitVec 32)
  | sending (adr : BitVec 32) (sent : ℕ)
deriving DecidableEq, Repr, Inhabited

/-- What the memory side shows to the next activation of the thread, the acknowledge and the
word, and its state after it.  It answers a request when `answers` says so. -/
def Memory.show (ram : Ram) (answers : Bool) : Memory → Bool × BitVec 32 × Memory
  | .idle => (false, 0, .idle)
  | .asked adr =>
    if answers then (true, ram adr, .sending adr 1) else (false, 0, .asked adr)
  | .sending adr sent =>
    if sent < 4 then (true, ram (adr + BitVec.ofNat 32 (4 * sent)), .sending adr (sent + 1))
    else (false, 0, .idle)

/-- A request of the cache reaches the memory side. -/
def Memory.ask (dtaValid : Bool) (a : BitVec 32) (m : Memory) : Memory :=
  if dtaValid then .asked a else m

/-- The cache with the memory side. -/
structure State where
  cache : Cache
  memory : Memory

/-- What happens next: the program counter changes, or the thread is activated. -/
inductive Event
  | pc (pc : BitVec 32) (valid : Bool)
  | thread (answers : Bool)
deriving DecidableEq, Repr, Inhabited

def reset : State := ⟨resetCache, .idle⟩

variable (ram : Ram) (s : State)

def step (s : State) : Event → State
  | .pc pc valid => { s with cache := setPc s.cache pc valid }
  | .thread answers =>
    let (slaveAckSp, dt, memory) := s.memory.show ram answers
    let cache := activate s.cache slaveAckSp dt
    ⟨cache, memory.ask cache.dtaValid cache.a⟩

/-! ### Addresses -/

/-- The address of a line. -/
def lineAdr (tag : BitVec 20) (index : BitVec 8) : BitVec 32 := tag ++ index ++ 0#4

theorem lineAdr_parse (pc : BitVec 32) :
    lineAdr (pc.extractLsb' 12 20) (pc.extractLsb' 4 8) = pc &&& 0xFFFFFFF0#32 := by
  unfold lineAdr
  ext k hk
  simp only [BitVec.getElem_append, BitVec.getElem_extractLsb', BitVec.getElem_and]
  have hmask : ∀ k (h : k < 32), (0xFFFFFFF0#32)[k] = decide (4 ≤ k) := by decide
  rw [hmask]
  split_ifs with h1 h2
  · simp [show ¬ 4 ≤ k by omega]
  · simp [show 4 ≤ k by omega, show 4 + (k - 4) = k by omega, BitVec.getLsbD_eq_getElem hk]
  · simp [show 4 ≤ k by omega, show 12 + (k - 4 - 8) = k by omega, BitVec.getLsbD_eq_getElem hk]

/-- The word of a line that holds the program counter. -/
theorem wordAdr_eq (pc : BitVec 32) : wordAdr pc =
    (pc &&& 0xFFFFFFF0#32) + BitVec.ofNat 32 (4 * ((pc.extractLsb' 0 4).toNat / 4)) := by
  have hslot : ∀ o : BitVec 4, BitVec.ofNat 32 (4 * (o.toNat / 4)) = (o &&& 12#4).setWidth 32 := by
    decide
  have hoffset : ((pc.extractLsb' 0 4) &&& 12#4).setWidth 32 = pc &&& 12#32 := by
    ext k hk
    have hmask : ∀ k (h : k < 32), (12#32)[k] = (12#4).getLsbD k := by decide
    rw [BitVec.getElem_setWidth, BitVec.getLsbD_and, BitVec.getLsbD_extractLsb', BitVec.getElem_and,
      hmask, Nat.zero_add, BitVec.getLsbD_eq_getElem hk]
    cases h4 : decide (k < 4) with
    | true => rw [Bool.true_and]
    | false =>
      rw [BitVec.getLsbD_of_ge (12#4) k (Nat.not_lt.mp (of_decide_eq_false h4)), Bool.and_false,
        Bool.and_false]
  have hdisjoint : (pc &&& 0xFFFFFFF0#32) &&& (pc &&& 12#32) = 0#32 := by
    rw [BitVec.and_assoc, ← BitVec.and_assoc (0xFFFFFFF0#32), BitVec.and_comm (0xFFFFFFF0#32) pc,
      BitVec.and_assoc pc, show 0xFFFFFFF0#32 &&& 12#32 = 0#32 by decide, BitVec.and_zero,
      BitVec.and_zero]
  rw [hslot, hoffset, BitVec.add_eq_or_of_and_eq_zero _ _ hdisjoint, wordAdr]
  ext k hk
  have hmask : ∀ k (h : k < 32), (0xFFFFFFFC#32)[k] = ((0xFFFFFFF0#32)[k] || (12#32)[k]) := by
    decide
  rw [BitVec.getElem_or, BitVec.getElem_and, BitVec.getElem_and, BitVec.getElem_and, hmask,
    Bool.and_or_distrib_left]

/-! ### The invariant -/

/-- The line of the program counter is there. -/
def hits (c : Cache) : Bool := c.addressTag == c.tag c.addressIndex && c.dataValidate c.addressIndex

/-- The word that a hit shows. -/
def shown (c : Cache) : BitVec 32 := c.data c.addressIndex (c.addressOffset.toNat / 4)

/-- The signals of `parse_adr` are those of the program counter. -/
structure Parsed (c : Cache) : Prop where
  tag : c.addressTag = c.pcSi.extractLsb' 12 20
  index : c.addressIndex = c.pcSi.extractLsb' 4 8
  offset : c.addressOffset = c.pcSi.extractLsb' 0 4

/-- The signals of `miss_detection` are those that it would write now. -/
structure Settled (c : Cache) : Prop where
  hit : c.hit = hits c
  stall : c.icStallSi = !hits c
  inst : hits c = true → c.icInstSi = shown c

/-- The first words of a line are those of the memory. -/
def Holds (line : ℕ → BitVec 32) (adr : BitVec 32) (sent : ℕ) : Prop :=
  ∀ k < sent, line k = ram (adr + BitVec.ofNat 32 (4 * k))

/-- How far the thread and the memory side are with a line. -/
inductive Refill (c : Cache) : Memory → Prop
  | idle : c.fsmCurrentState = .idle → Refill c .idle
  | waiting {adr : BitVec 32} : c.fsmCurrentState = .waitMem → c.cpt = 0 →
      adr = lineAdr c.currentAddressTag c.currentAddressIndex → Refill c (.asked adr)
  | filling {adr : BitVec 32} {sent : ℕ} : c.fsmCurrentState = .updt → c.cpt = sent → sent ≤ 4 →
      adr = lineAdr c.currentAddressTag c.currentAddressIndex →
      c.tag c.currentAddressIndex = c.currentAddressTag →
      c.dataValidate c.currentAddressIndex = false →
      Holds ram (c.data c.currentAddressIndex) adr sent → Refill c (.sending adr sent)

/-- What holds in every settled state. -/
structure Inv (s : State) : Prop where
  parsed : Parsed s.cache
  settled : Settled s.cache
  lines : ∀ index, s.cache.dataValidate index = true →
    Holds ram (s.cache.data index) (lineAdr (s.cache.tag index) index) 4
  refill : Refill ram s.cache s.memory

section Proofs

variable {ram} {c : Cache} {slaveAckSp : Bool} {dt : BitVec 32}

theorem missDetection_eq (c : Cache) : missDetection c =
    { c with
      hit := hits c
      icStallSi := !hits c
      icInstSi := if hits c then shown c else c.icInstSi } := by
  rw [missDetection, ← hits, ← shown]
  cases hits c <;> rfl

theorem settled_missDetection (c : Cache) : Settled (missDetection c) := by
  rw [missDetection_eq]
  refine ⟨rfl, rfl, ?_⟩
  intro hhit
  exact if_pos hhit

/-- The three signals stay right when the line of the program counter is there as before. -/
theorem Settled.of_eq {c' : Cache} (h : Settled c) (hhits : hits c' = hits c)
    (hshown : hits c = true → shown c' = shown c) (hhit : c'.hit = c.hit)
    (hstall : c'.icStallSi = c.icStallSi) (hinst : c'.icInstSi = c.icInstSi) : Settled c' where
  hit := by rw [hhit, hhits, h.hit]
  stall := by rw [hstall, hhits, h.stall]
  inst ht := by
    rw [hhits] at ht
    rw [hinst, hshown ht, h.inst ht]

theorem changes_eq_false {α : Type*} [DecidableEq α] {x y : α} : changes x y = false ↔ x = y := by
  rw [changes, decide_eq_false_iff_not, not_not]

/-- `miss_detection` writes its three signals only. -/
theorem activate_eq (c : Cache) (slaveAckSp : Bool) (dt : BitVec 32) :
    ∃ hit stall inst, activate c slaveAckSp dt =
      { transition c slaveAckSp dt with hit := hit, icStallSi := stall, icInstSi := inst } := by
  unfold activate
  cases wakes c slaveAckSp dt with
  | true => exact ⟨_, _, _, missDetection_eq _⟩
  | false => exact ⟨_, _, _, rfl⟩

/-! ### The program counter -/

theorem parsed_setPc (c : Cache) (pc : BitVec 32) (valid : Bool) : Parsed (setPc c pc valid) := by
  unfold setPc
  dsimp only
  split_ifs
  · rw [missDetection_eq]
    exact ⟨rfl, rfl, rfl⟩
  · exact ⟨rfl, rfl, rfl⟩

theorem settled_setPc (h : Settled c) (pc : BitVec 32) (valid : Bool) :
    Settled (setPc c pc valid) := by
  unfold setPc
  dsimp only
  split_ifs with hw
  · exact settled_missDetection _
  · rw [Bool.not_eq_true, Bool.or_eq_false_iff, Bool.or_eq_false_iff] at hw
    obtain ⟨⟨htag, hindex⟩, hoffset⟩ := hw
    rw [changes_eq_false] at htag hindex hoffset
    refine h.of_eq ?_ (fun _ => ?_) rfl rfl rfl
    · rw [hits, hits, ← htag, ← hindex]
      rfl
    · rw [shown, shown, ← hindex, ← hoffset]
      rfl

/-- The program counter is not read while a line is being refilled. -/
theorem setPc_eq (c : Cache) (pc : BitVec 32) (valid : Bool) :
    ∃ hit stall inst, setPc c pc valid =
      { parseAdr { c with pcSi := pc, pcValidSi := valid } with
        hit := hit, icStallSi := stall, icInstSi := inst } := by
  unfold setPc
  dsimp only
  split_ifs
  · exact ⟨_, _, _, missDetection_eq _⟩
  · exact ⟨_, _, _, rfl⟩

theorem inv_pc {s : State} (h : Inv ram s) (pc : BitVec 32) (valid : Bool) :
    Inv ram (step ram s (.pc pc valid)) where
  parsed := parsed_setPc _ _ _
  settled := settled_setPc h.settled _ _
  lines := by
    obtain ⟨hit, stall, inst, heq⟩ := setPc_eq s.cache pc valid
    rw [step, heq]
    exact h.lines
  refill := by
    obtain ⟨hit, stall, inst, heq⟩ := setPc_eq s.cache pc valid
    have hrefill := h.refill
    rw [step, heq]
    change Refill ram _ s.memory
    revert hrefill
    generalize s.memory = m
    rintro (hf | ⟨hf, hc, ha⟩ | ⟨hf, hc, hle, ha, ht, hv, hd⟩)
    · exact .idle hf
    · exact .waiting hf hc ha
    · exact .filling hf hc hle ha ht hv hd

/-! ### The thread -/

theorem parsed_activate (h : Parsed c) : Parsed (activate c slaveAckSp dt) := by
  obtain ⟨hit, stall, inst, heq⟩ := activate_eq c slaveAckSp dt
  rw [heq]
  unfold transition writeValidate writeData
  split <;> split_ifs <;> exact ⟨h.tag, h.index, h.offset⟩

/-- The thread writes one word, one valid bit and one tag, the tag together with a low valid
bit. -/
theorem transition_arrays (c : Cache) (slaveAckSp : Bool) (dt : BitVec 32) (i : BitVec 8) :
    (∀ k, (transition c slaveAckSp dt).data i k = c.data i k ∨
      i = c.currentAddressIndex ∧ k = c.cpt) ∧
    ((transition c slaveAckSp dt).dataValidate i = c.dataValidate i ∨
      i = c.currentAddressIndex) ∧
    ((transition c slaveAckSp dt).tag i = c.tag i ∨
      (transition c slaveAckSp dt).dataValidate i = false) := by
  unfold transition writeValidate writeData
  by_cases hi : i = c.currentAddressIndex
  · subst hi
    split <;> split_ifs <;> simp [Function.update_apply] <;> tauto
  · split <;> split_ifs <;> simp [hi]

theorem transition_address (c : Cache) (slaveAckSp : Bool) (dt : BitVec 32) :
    (transition c slaveAckSp dt).addressTag = c.addressTag ∧
    (transition c slaveAckSp dt).addressIndex = c.addressIndex ∧
    (transition c slaveAckSp dt).addressOffset = c.addressOffset ∧
    (transition c slaveAckSp dt).hit = c.hit ∧
    (transition c slaveAckSp dt).icStallSi = c.icStallSi ∧
    (transition c slaveAckSp dt).icInstSi = c.icInstSi := by
  unfold transition writeValidate writeData
  split <;> split_ifs <;> exact ⟨rfl, rfl, rfl, rfl, rfl, rfl⟩

/-- The tags are not on the list of `miss_detection`: the valid bits tell it of a new tag. -/
theorem settled_activate (h : Settled c) : Settled (activate c slaveAckSp dt) := by
  unfold activate
  dsimp only
  split_ifs with hw
  · exact settled_missDetection _
  · rw [wakes, Bool.not_eq_true, Bool.or_eq_false_iff, changes_eq_false, changes_eq_false] at hw
    obtain ⟨hdata, hvalidate⟩ := hw
    have hsame : ∀ i, (transition c slaveAckSp dt).data i = c.data i ∧
        (transition c slaveAckSp dt).dataValidate i = c.dataValidate i := by
      intro i
      obtain ⟨hd, hv, -⟩ := transition_arrays c slaveAckSp dt i
      constructor
      · funext k
        rcases hd k with hk | ⟨rfl, rfl⟩
        · exact hk
        · exact hdata.symm
      · rcases hv with hi | rfl
        · exact hi
        · exact hvalidate.symm
    obtain ⟨hat, hai, hao, hhit, hstall, hinst⟩ := transition_address c slaveAckSp dt
    refine h.of_eq ?_ (fun _ => ?_) hhit hstall hinst
    · rw [hits, hits, hat, hai, (hsame _).2]
      rcases (transition_arrays c slaveAckSp dt c.addressIndex).2.2 with htag | hlow
      · rw [htag]
      · rw [← (hsame _).2, hlow, Bool.and_false, Bool.and_false]
    · rw [shown, shown, hai, hao, (hsame _).1]

theorem lineAdr_of_parsed (h : Parsed c) :
    lineAdr c.addressTag c.addressIndex = c.pcSi &&& 0xFFFFFFF0#32 := by
  rw [h.tag, h.index, lineAdr_parse]

theorem holds_succ {line : ℕ → BitVec 32} {adr : BitVec 32} {sent : ℕ}
    (h : Holds ram line adr sent) :
    Holds ram (Function.update line sent (ram (adr + BitVec.ofNat 32 (4 * sent)))) adr
      (sent + 1) := by
  intro k hk
  by_cases hks : k = sent
  · rw [hks, Function.update_self]
  · rw [Function.update_of_ne hks]
    exact h k (by omega)

/-- An activation while no line is being refilled may ask for one. -/
theorem transition_idle (hf : c.fsmCurrentState = .idle) :
    transition c slaveAckSp dt = if c.pcValidSi && !c.hit then
      { c with
        fsmCurrentState := .waitMem
        a := c.pcSi &&& 0xFFFFFFF0#32
        currentAddressIndex := c.addressIndex
        currentAddressTag := c.addressTag
        dtaValid := true
        cpt := 0 }
    else { c with dtaValid := false } := by
  rw [transition, hf]

/-- An activation without an acknowledge waits. -/
theorem transition_wait (hf : c.fsmCurrentState = .waitMem) :
    transition c false dt = { c with dtaValid := false } := by
  rw [transition, hf]
  rfl

/-- The first word makes the line invalid and gives it its tag. -/
theorem transition_first (hf : c.fsmCurrentState = .waitMem) :
    transition c true dt =
      { writeValidate (writeData c dt) false with
        fsmCurrentState := .updt
        tag := Function.update c.tag c.currentAddressIndex c.currentAddressTag
        dtaValid := false } := by
  rw [transition, hf]
  rfl

theorem transition_next (hf : c.fsmCurrentState = .updt) :
    transition c true dt = { writeData c dt with dtaValid := false } := by
  rw [transition, hf]
  rfl

/-- The end of the acknowledge makes the line valid. -/
theorem transition_end (hf : c.fsmCurrentState = .updt) :
    transition c false dt =
      { writeValidate c true with fsmCurrentState := .idle, dtaValid := false } := by
  rw [transition, hf]
  rfl

/-- The memory side and the cache after an activation, with the signals of `miss_detection` from
before. -/
def afterThread (ram : Ram) (s : State) (answers : Bool) : State :=
  let (slaveAckSp, dt, memory) := s.memory.show ram answers
  let cache := transition s.cache slaveAckSp dt
  ⟨cache, memory.ask cache.dtaValid cache.a⟩

/-- The refill goes on. -/
theorem refill_afterThread {s : State} (h : Inv ram s) (answers : Bool) :
    Refill ram (afterThread ram s answers).cache (afterThread ram s answers).memory := by
  have hrefill := h.refill
  have hline := lineAdr_of_parsed h.parsed
  obtain ⟨c, m⟩ := s
  dsimp only at hrefill hline
  unfold afterThread Memory.show
  cases hrefill with
  | idle hf =>
    dsimp only
    rw [transition_idle hf]
    split_ifs
    · exact .waiting rfl rfl hline.symm
    · exact .idle hf
  | @waiting adr hf hc ha =>
    cases answers with
    | false =>
      dsimp only
      rw [if_neg Bool.false_ne_true, transition_wait hf]
      exact .waiting hf hc ha
    | true =>
      dsimp only
      rw [if_pos rfl, transition_first hf]
      -- the first word comes with the tag
      refine .filling rfl (congrArg (· + 1) hc) (by decide) ha (Function.update_self _ _ _)
        (Function.update_self _ _ _) ?_
      change Holds ram (Function.update c.data c.currentAddressIndex
        (Function.update (c.data c.currentAddressIndex) c.cpt (ram adr))
        c.currentAddressIndex) adr 1
      rw [Function.update_self, hc]
      intro k hk
      rw [Nat.lt_one_iff.mp hk, Function.update_self]
      exact congrArg ram (BitVec.add_zero adr).symm
  | @filling adr sent hf hc hle ha ht hv hd =>
    dsimp only
    split_ifs with hlt
    · rw [transition_next hf]
      refine .filling hf (congrArg (· + 1) hc) hlt ha ht hv ?_
      change Holds ram (Function.update c.data c.currentAddressIndex _ c.currentAddressIndex) adr
        (sent + 1)
      rw [Function.update_self, hc]
      exact holds_succ hd
    · rw [transition_end hf]
      exact .idle rfl

/-- A line becomes valid when its four words are there. -/
theorem lines_afterThread {s : State} (h : Inv ram s) (answers : Bool) (index : BitVec 8)
    (hv : (afterThread ram s answers).cache.dataValidate index = true) :
    Holds ram ((afterThread ram s answers).cache.data index)
      (lineAdr ((afterThread ram s answers).cache.tag index) index) 4 := by
  have hrefill := h.refill
  have hlines := h.lines index
  obtain ⟨c, m⟩ := s
  dsimp only at hrefill hlines
  revert hv
  unfold afterThread Memory.show
  cases hrefill with
  | idle hf =>
    dsimp only
    rw [transition_idle hf]
    split_ifs <;> exact hlines
  | @waiting adr hf hc ha =>
    cases answers with
    | false =>
      dsimp only
      rw [if_neg Bool.false_ne_true, transition_wait hf]
      exact hlines
    | true =>
      dsimp only
      rw [if_pos rfl, transition_first hf]
      -- the line that is being replaced is invalid, and the others stay
      change Function.update c.dataValidate c.currentAddressIndex false index = true →
        Holds ram (Function.update c.data c.currentAddressIndex _ index)
          (lineAdr (Function.update c.tag c.currentAddressIndex _ index) index) 4
      by_cases hi : index = c.currentAddressIndex
      · rw [hi, Function.update_self]
        exact fun hn => absurd hn Bool.false_ne_true
      · rw [Function.update_of_ne hi, Function.update_of_ne hi, Function.update_of_ne hi]
        exact hlines
  | @filling adr sent hf hc hle ha ht hlow hd =>
    dsimp only
    split_ifs with hlt
    · rw [transition_next hf]
      change c.dataValidate index = true →
        Holds ram (Function.update c.data c.currentAddressIndex _ index)
          (lineAdr (c.tag index) index) 4
      by_cases hi : index = c.currentAddressIndex
      · rw [hi, hlow]
        exact fun hn => absurd hn Bool.false_ne_true
      · rw [Function.update_of_ne hi]
        exact hlines
    · rw [transition_end hf]
      -- all four words have come
      change Function.update c.dataValidate c.currentAddressIndex true index = true →
        Holds ram (c.data index) (lineAdr (c.tag index) index) 4
      by_cases hi : index = c.currentAddressIndex
      · intro _
        rw [hi, ht, ← ha, show 4 = sent by omega]
        exact hd
      · rw [Function.update_of_ne hi]
        exact hlines

theorem step_thread (ram : Ram) (s : State) (answers : Bool) : ∃ hit stall inst,
    step ram s (.thread answers) =
      ⟨{ (afterThread ram s answers).cache with
          hit := hit, icStallSi := stall, icInstSi := inst },
        (afterThread ram s answers).memory⟩ := by
  obtain ⟨hit, stall, inst, heq⟩ :=
    activate_eq s.cache (s.memory.show ram answers).1 (s.memory.show ram answers).2.1
  refine ⟨hit, stall, inst, ?_⟩
  rw [step]
  dsimp only
  rw [heq]
  rfl

theorem inv_thread {s : State} (h : Inv ram s) (answers : Bool) :
    Inv ram (step ram s (.thread answers)) where
  parsed := parsed_activate h.parsed
  settled := settled_activate h.settled
  lines := by
    obtain ⟨hit, stall, inst, heq⟩ := step_thread ram s answers
    rw [heq]
    exact lines_afterThread h answers
  refill := by
    obtain ⟨hit, stall, inst, heq⟩ := step_thread ram s answers
    have hrefill := refill_afterThread h answers
    rw [heq]
    revert hrefill
    generalize (afterThread ram s answers).memory = m
    rintro (hf | ⟨hf, hc, ha⟩ | ⟨hf, hc, hle, ha, ht, hv, hd⟩)
    · exact .idle hf
    · exact .waiting hf hc ha
    · exact .filling hf hc hle ha ht hv hd

theorem inv_step {s : State} (h : Inv ram s) (e : Event) : Inv ram (step ram s e) := by
  cases e with
  | pc pc valid => exact inv_pc h pc valid
  | thread answers => exact inv_thread h answers

theorem inv_reset : Inv ram reset where
  parsed := ⟨rfl, rfl, rfl⟩
  settled := show Settled resetCache from settled_missDetection _
  lines _ h := absurd h Bool.false_ne_true
  refill := .idle rfl

end Proofs

/-! ### Whole runs -/

/-- After any changes of the program counter and any activations of the thread, an instruction
that is not stalled is the word of the memory at the program counter. -/
theorem icInstSi_eq (ram : Ram) (events : List Event)
    (h : (Run.after (step ram) reset events).cache.icStallSi = false) :
    (Run.after (step ram) reset events).cache.icInstSi =
      ram (wordAdr (Run.after (step ram) reset events).cache.pcSi) := by
  have hinv : Inv ram (Run.after (step ram) reset events) :=
    Run.inv_after (step ram) (Inv ram) (fun _ e hs => inv_step hs e) events inv_reset
  revert h hinv
  generalize Run.after (step ram) reset events = s
  intro h hinv
  have hhits : hits s.cache = true := by
    rw [hinv.settled.stall, Bool.not_eq_false'] at h
    exact h
  obtain ⟨htag, hvalid⟩ := Bool.and_eq_true_iff.mp hhits
  have hslot : s.cache.addressOffset.toNat / 4 < 4 := by
    have := s.cache.addressOffset.isLt
    omega
  rw [hinv.settled.inst hhits, shown, hinv.lines _ hvalid _ hslot, ← beq_iff_eq.mp htag,
    lineAdr_of_parsed hinv.parsed, wordAdr_eq, hinv.parsed.offset]

/-- The program counter goes to 0x104, and away and back while the line 0x100 comes. -/
def visit : List Event :=
  [.pc 0x104 true, .thread true, .thread false, .thread true, .pc 0x2000 true, .thread true,
    .thread true, .pc 0x104 true, .thread true, .thread true]

/-- In a memory that holds its addresses the word at 0x104 is 0x104. -/
theorem icInstSi_visit : (Run.after (step id) reset visit).cache.icInstSi = 0x104#32 :=
  (icInstSi_eq id visit (by decide +kernel)).trans (by decide +kernel)

end Icache

end RiVerSoC
