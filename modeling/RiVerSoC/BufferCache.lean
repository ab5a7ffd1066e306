/-
The write buffer between the data cache and memory.

`fifo` and `bufferfull` embed the two methods of `buffercache.cpp`; `cycle` runs
them over one clock cycle.  `fifo` is woken twice in a cycle that starts a write:
when `WRITE_OBUFF` rises and at the clock edge, where `FULL` is refreshed from the
valid bits that the slots had before that edge.

* `fifo_conserves` — one activation keeps the order and loses nothing it held;
* `pushes_rise_add_pushes_clk` — how often the two activations of a cycle take the
  request of that cycle;
* `delivered_iff` — after every prefix of a run the buffer has delivered what it
  accepted, in order, exactly when every cycle takes its request once.
-/
import Mathlib.Data.List.Basic
import RiVerSoC.Run

namespace RiVerSoC

namespace Buffercache

/-- A request as it travels to memory. -/
structure Transfer where
  data : BitVec 32
  adr : BitVec 32
  store : Bool
  load : Bool
  size : BitVec 2
deriving DecidableEq, Repr, Inhabited

/-- A request of the cache: a store or a load miss, not both. -/
structure Request extends Transfer where
  oneKind : store = !load

/-- One of the two buffers. -/
structure Slot extends Transfer where
  validate : Bool
deriving DecidableEq, Repr, Inhabited

/-- The signals that `fifo` writes. -/
structure Buffer where
  buff0 : Slot
  buff1 : Slot
  bufferLru : BitVec 2
  mp : Transfer
deriving DecidableEq, Repr, Inhabited

/-- A valid buffer holds the address of the request. -/
def hit (b : Buffer) (c : Transfer) : Bool :=
  b.buff0.validate && c.adr == b.buff0.adr || b.buff1.validate && c.adr == b.buff1.adr

/-- The test that lets a buffer take the request: it compares the address with the
one left in the buffer, valid or not. -/
def freeFor (s : Slot) (c : Transfer) : Bool := !s.validate && c.adr != s.adr

/-- The write half of `fifo`. -/
def fifoWrite (b : Buffer) (writeObuff : Bool) (c : Transfer) : Buffer :=
  if writeObuff then
    if !hit b c && c.store || c.load then
      if freeFor b.buff0 c then
        { b with
          buff0 := { c with validate := c.store || c.load }
          bufferLru := 0b01#2 }
      else if freeFor b.buff1 c then
        { b with
          buff1 := { c with validate := c.store || c.load }
          bufferLru := 0b10#2 }
      else b
    else b
  else b

/-- The read half of `fifo`: it reads the signals of `b` and writes over `next`. -/
def fifoRead (b next : Buffer) (readObuff : Bool) : Buffer :=
  if readObuff then
    if b.buff0.validate && b.buff1.validate then
      if b.bufferLru = 0b01#2 then
        { next with mp := b.buff1.toTransfer, buff1 := { next.buff1 with validate := false } }
      else if b.bufferLru = 0b10#2 then
        { next with mp := b.buff0.toTransfer, buff0 := { next.buff0 with validate := false } }
      else next
    else if b.buff0.validate && !b.buff1.validate then
      { next with mp := b.buff0.toTransfer, buff0 := { next.buff0 with validate := false } }
    else if !b.buff0.validate && b.buff1.validate then
      { next with mp := b.buff1.toTransfer, buff1 := { next.buff1 with validate := false } }
    else next
  else next

/-- One activation of `fifo`. -/
def fifo (b : Buffer) (writeObuff readObuff : Bool) (c : Transfer) : Buffer :=
  let next := fifoRead b (fifoWrite b writeObuff c) readObuff
  if !readObuff && !writeObuff then
    { next with mp := { next.mp with store := false, load := false } }
  else next

/-- `bufferfull`: the values of `FULL` and `EMPTY`. -/
def bufferfull (b : Buffer) : Bool × Bool :=
  (b.buff1.validate && b.buff0.validate, !b.buff1.validate && !b.buff0.validate)

/-! ### Clock cycles -/

/-- The buffer with the flags that the cache sees and the level of `WRITE_OBUFF`. -/
structure State where
  buffer : Buffer
  full : Bool
  empty : Bool
  writeObuff : Bool
deriving DecidableEq, Repr, Inhabited

/-- What happens in one clock cycle: the request that the cache holds during it, and
the level of `READ_OBUFF` at the two events. -/
structure Cycle where
  request : Option Request
  readRise : Bool
  readClk : Bool

/-- The write strobe of `dcache::mae_output`: never while `FULL`. -/
def writes (s : State) (i : Cycle) : Bool := i.request.isSome && !s.full

/-- `WRITE_OBUFF` rises in this cycle. -/
def rises (s : State) (i : Cycle) : Bool := writes s i && !s.writeObuff

/-- The ports `DATA_C` … `SIZE_C`. -/
def ports (i : Cycle) : Transfer := (i.request.map Request.toTransfer).getD default

/-- The buffer after the activation at the rise of `WRITE_OBUFF`, if there is one. -/
def afterRise (s : State) (i : Cycle) : Buffer :=
  if rises s i then fifo s.buffer true i.readRise (ports i) else s.buffer

/-- One clock cycle. -/
def cycle (s : State) (i : Cycle) : State where
  buffer := fifo (afterRise s i) (writes s i) i.readClk (ports i)
  full := (bufferfull (afterRise s i)).1
  empty := (bufferfull (afterRise s i)).2
  writeObuff := writes s i

/-- The state that reset leaves. -/
def reset : State := default

/-! ### What is emitted, held and accepted -/

/-- The buffer that a read serves. -/
def oldest (b : Buffer) : Option Slot :=
  if b.buff0.validate && b.buff1.validate then
    if b.bufferLru = 0b01#2 then some b.buff1
    else if b.bufferLru = 0b10#2 then some b.buff0
    else none
  else if b.buff0.validate then some b.buff0
  else if b.buff1.validate then some b.buff1
  else none

/-- The requests that an activation puts on the memory ports. -/
def emits (b : Buffer) (readObuff : Bool) : List Transfer :=
  if readObuff then (oldest b).toList.map Slot.toTransfer else []

/-- The requests that the buffer holds, the oldest first. -/
def held (b : Buffer) : List Transfer :=
  if b.buff0.validate && b.buff1.validate then
    if b.bufferLru = 0b01#2 then [b.buff1.toTransfer, b.buff0.toTransfer]
    else [b.buff0.toTransfer, b.buff1.toTransfer]
  else if b.buff0.validate then [b.buff0.toTransfer]
  else if b.buff1.validate then [b.buff1.toTransfer]
  else []

/-- The requests emitted in one cycle. -/
def emitted (s : State) (i : Cycle) : List Transfer :=
  (if rises s i then emits s.buffer i.readRise else []) ++ emits (afterRise s i) i.readClk

/-- The request accepted in one cycle. -/
def accepted (s : State) (i : Cycle) : List Transfer := if writes s i then [ports i] else []

/-- After the run `is` from reset, the requests emitted followed by those still held
are the accepted ones, in order. -/
def Delivered (is : List Cycle) : Prop :=
  Run.collect emitted cycle reset is ++ held (Run.after cycle reset is).buffer =
    Run.collect accepted cycle reset is

/-- A full buffer knows which of its requests is older. -/
def Ordered (b : Buffer) : Prop :=
  b.buff0.validate = true → b.buff1.validate = true → b.bufferLru = 0b01#2 ∨ b.bufferLru = 0b10#2

/-- An activation takes the request. -/
def takes (b : Buffer) (c : Transfer) : Bool :=
  (!hit b c && c.store || c.load) && (freeFor b.buff0 c || freeFor b.buff1 c)

/-- A request that an activation takes is a store or a load. -/
theorem store_or_load_of_takes {b : Buffer} {c : Transfer} (h : takes b c = true) :
    (c.store || c.load) = true := by
  unfold takes at h
  cases hs : c.store <;> cases hl : c.load <;> simp_all

theorem fifoWrite_of_takes {b : Buffer} {c : Transfer} (h : takes b c = true) :
    fifoWrite b true c =
      if freeFor b.buff0 c then { b with buff0 := { c with validate := true }, bufferLru := 0b01#2 }
      else { b with buff1 := { c with validate := true }, bufferLru := 0b10#2 } := by
  have hsl := store_or_load_of_takes h
  unfold takes at h
  rw [Bool.and_eq_true, Bool.or_eq_true (freeFor b.buff0 c)] at h
  rw [fifoWrite, if_pos rfl, if_pos h.1, hsl]
  by_cases h0 : freeFor b.buff0 c
  · rw [if_pos h0, if_pos h0]
  · rw [if_neg h0, if_neg h0, if_pos (h.2.resolve_left h0)]

theorem fifoWrite_of_not_takes {b : Buffer} {w : Bool} {c : Transfer}
    (h : (w && takes b c) = false) : fifoWrite b w c = b := by
  cases w with
  | false => rfl
  | true =>
    have htakes : takes b c = false := by simpa using h
    unfold takes at htakes
    unfold fifoWrite
    split_ifs <;> simp_all

/-- The last lines of `fifo` only lower the request lines of the memory ports. -/
theorem held_fifo (b : Buffer) (w r : Bool) (c : Transfer) :
    held (fifo b w r c) = held (fifoRead b (fifoWrite b w c) r) := by
  unfold fifo
  dsimp only
  split <;> rfl

/-- A read moves the oldest request from the buffer to the ports. -/
theorem fifoRead_conserves {b : Buffer} (h : Ordered b) (r : Bool) :
    emits b r ++ held (fifoRead b b r) = held b := by
  cases r with
  | false => rfl
  | true =>
    unfold emits oldest held fifoRead
    cases h0 : b.buff0.validate <;> cases h1 : b.buff1.validate
    · simp [h0, h1]
    · simp [h0]
    · simp [h1]
    · rcases h h0 h1 with hl | hl <;> simp [hl, h0, h1]

theorem fifo_conserves {b : Buffer} (h : Ordered b) (w r : Bool) (c : Transfer) :
    emits b r ++ held (fifo b w r c) = held b ++ if w && takes b c then [c] else [] := by
  rw [held_fifo]
  cases htakes : w && takes b c with
  | false =>
    rw [fifoWrite_of_not_takes htakes, fifoRead_conserves h, if_neg (by decide), List.append_nil]
  | true =>
    rw [Bool.and_eq_true] at htakes
    obtain ⟨rfl, htakes⟩ := htakes
    have hfree : freeFor b.buff0 c || freeFor b.buff1 c := by
      unfold takes at htakes
      exact (Bool.and_eq_true _ _ ▸ htakes).2
    rw [fifoWrite_of_takes htakes, if_pos rfl]
    by_cases hf : freeFor b.buff0 c
    · have h0 : b.buff0.validate = false := by
        unfold freeFor at hf
        cases hv : b.buff0.validate <;> simp_all
      rw [if_pos hf]
      cases r <;> cases h1 : b.buff1.validate <;>
        simp [emits, oldest, held, fifoRead, h0, h1]
    · have h1 : b.buff1.validate = false := by
        unfold freeFor at hfree hf
        cases hv : b.buff1.validate <;> simp_all
      rw [if_neg hf]
      cases r <;> cases h0 : b.buff0.validate <;>
        simp [emits, oldest, held, fifoRead, h0, h1]

theorem ordered_fifo {b : Buffer} (h : Ordered b) (w r : Bool) (c : Transfer) :
    Ordered (fifo b w r c) := by
  have hread : Ordered (fifoRead b (fifoWrite b w c) r) := by
    cases htakes : w && takes b c with
    | false =>
      rw [fifoWrite_of_not_takes htakes]
      unfold fifoRead
      split_ifs <;> simp_all [Ordered]
    | true =>
      rw [Bool.and_eq_true] at htakes
      obtain ⟨rfl, htakes⟩ := htakes
      rw [fifoWrite_of_takes htakes]
      unfold fifoRead
      split_ifs <;> simp [Ordered]
  unfold fifo
  dsimp only
  split
  · exact hread
  · exact hread

/-! ### Which cycles take their request once -/

/-- Some buffer can take the request. -/
def someFree (b : Buffer) (c : Transfer) : Bool := freeFor b.buff0 c || freeFor b.buff1 c

/-- The buffer can take the request now or after a read. -/
def opens (s : Slot) (readObuff : Bool) (c : Transfer) : Bool :=
  c.adr != s.adr && (!s.validate || readObuff)

/-- A store that starts at a rise of `WRITE_OBUFF` is taken at the rise, or at the
clock edge after the read at the rise made room. -/
def storeOnce (b : Buffer) (readRise : Bool) (c : Transfer) : Bool :=
  takes b c ||
    readRise && if hit b c then someFree b c else b.buff0.validate || b.buff1.validate

/-- A load that starts at a rise of `WRITE_OBUFF` finds one buffer, not two. -/
def loadOnce (b : Buffer) (readRise : Bool) (c : Transfer) : Bool :=
  if someFree b c then !(opens b.buff0 readRise c && opens b.buff1 readRise c)
  else readRise && (oldest b).any fun s => c.adr != s.adr

/-- The cycle hands over no request, or takes it at exactly one of its events. -/
def takesOnce (s : State) (i : Cycle) : Bool :=
  !writes s i ||
    if rises s i then
      if (ports i).load then loadOnce s.buffer i.readRise (ports i)
      else storeOnce s.buffer i.readRise (ports i)
    else takes s.buffer (ports i)

theorem takes_of_load {b : Buffer} {c : Transfer} (h : c.load = true) :
    takes b c = someFree b c := by
  simp [takes, someFree, h]

theorem takes_fifo (b : Buffer) (w r : Bool) (c : Transfer) :
    takes (fifo b w r c) c = takes (fifoRead b (fifoWrite b w c) r) c := by
  unfold fifo
  dsimp only
  split <;> rfl

/-- The buffer that took a store does not take it again. -/
theorem not_takes_again_store {b : Buffer} {r : Bool} {c : Transfer} (hl : c.load = false)
    (h : takes b c = true) : takes (fifo b true r c) c = false := by
  have hfree : freeFor b.buff0 c || freeFor b.buff1 c := (Bool.and_eq_true _ _ ▸ h).2
  rw [takes_fifo, fifoWrite_of_takes h]
  unfold freeFor at hfree
  unfold takes hit freeFor fifoRead
  cases h0 : b.buff0.validate <;> cases h1 : b.buff1.validate <;> cases r <;>
    cases he0 : c.adr == b.buff0.adr <;> simp_all

theorem takes_again_load {b : Buffer} {r : Bool} {c : Transfer} (hl : c.load = true)
    (h : takes b c = true) :
    takes (fifo b true r c) c = (opens b.buff0 r c && opens b.buff1 r c) := by
  rw [takes_fifo, fifoWrite_of_takes h, takes_of_load hl]
  rw [takes_of_load hl] at h
  unfold someFree freeFor at *
  unfold fifoRead opens
  cases h0 : b.buff0.validate <;> cases h1 : b.buff1.validate <;> cases r <;>
    cases he0 : c.adr == b.buff0.adr <;> simp_all

/-- A read either finds both buffers empty or frees the buffer it serves. -/
theorem fifoRead_cases {b : Buffer} (hb : Ordered b) :
    (oldest b = none ∧ b.buff0.validate = false ∧ b.buff1.validate = false ∧
      fifoRead b b true = b) ∨
    (oldest b = some b.buff0 ∧ b.buff0.validate = true ∧
      (fifoRead b b true).buff0 = { b.buff0 with validate := false } ∧
      (fifoRead b b true).buff1 = b.buff1) ∨
    (oldest b = some b.buff1 ∧ b.buff1.validate = true ∧
      (fifoRead b b true).buff0 = b.buff0 ∧
      (fifoRead b b true).buff1 = { b.buff1 with validate := false }) := by
  unfold oldest fifoRead
  cases h0 : b.buff0.validate <;> cases h1 : b.buff1.validate
  · simp
  · simp
  · simp
  · rcases hb h0 h1 with hl | hl <;> simp [hl]

/-- A store that no buffer took finds room once the read has freed a buffer. -/
theorem takes_after_read_store {b : Buffer} (hb : Ordered b) {r : Bool} {c : Transfer}
    (hs : c.store = true) (hl : c.load = false) (h : takes b c = false) :
    takes (fifo b true r c) c =
      (r && if hit b c then someFree b c else b.buff0.validate || b.buff1.validate) := by
  rw [takes_fifo, fifoWrite_of_not_takes (by simpa using h)]
  cases r with
  | false => exact h
  | true =>
    rcases fifoRead_cases hb with ⟨-, h0, h1, heq⟩ | ⟨-, h0, heq0, heq1⟩ | ⟨-, h1, heq0, heq1⟩
    · rw [heq, h]
      simp [hit, h0, h1]
    · simp only [takes, someFree, hit, freeFor, bne, heq0, heq1, h0, hs, hl] at h ⊢
      generalize (c.adr == b.buff0.adr) = e0 at h ⊢
      generalize (c.adr == b.buff1.adr) = e1 at h ⊢
      cases b.buff1.validate <;> cases e0 <;> cases e1 <;> simp_all
    · simp only [takes, someFree, hit, freeFor, bne, heq0, heq1, h1, hs, hl] at h ⊢
      generalize (c.adr == b.buff0.adr) = e0 at h ⊢
      generalize (c.adr == b.buff1.adr) = e1 at h ⊢
      cases b.buff0.validate <;> cases e0 <;> cases e1 <;> simp_all

theorem takes_after_read_load {b : Buffer} (hb : Ordered b) {r : Bool} {c : Transfer}
    (hl : c.load = true) (h : takes b c = false) :
    takes (fifo b true r c) c = (r && (oldest b).any fun s => c.adr != s.adr) := by
  rw [takes_fifo, fifoWrite_of_not_takes (by simpa using h)]
  cases r with
  | false => exact h
  | true =>
    rw [takes_of_load hl] at h ⊢
    rcases fifoRead_cases hb with
      ⟨hold, -, -, heq⟩ | ⟨hold, h0, heq0, heq1⟩ | ⟨hold, h1, heq0, heq1⟩
    · rw [heq, h, hold]
      rfl
    · simp only [someFree, freeFor, heq0, heq1, h0, hold] at h ⊢
      simp_all
    · simp only [someFree, freeFor, heq0, heq1, h1, hold] at h ⊢
      simp_all

/-! ### Runs -/

/-- The requests that the activations of one cycle take. -/
def taken (s : State) (i : Cycle) : List Transfer :=
  (if rises s i && takes s.buffer (ports i) then [ports i] else []) ++
    if writes s i && takes (afterRise s i) (ports i) then [ports i] else []

theorem ordered_afterRise {s : State} (hs : Ordered s.buffer) (i : Cycle) :
    Ordered (afterRise s i) := by
  unfold afterRise
  split
  · exact ordered_fifo hs _ _ _
  · exact hs

theorem ordered_cycle {s : State} (hs : Ordered s.buffer) (i : Cycle) :
    Ordered (cycle s i).buffer :=
  ordered_fifo (ordered_afterRise hs i) _ _ _

/-- A cycle keeps the order of what it held and took. -/
theorem cycle_conserves {s : State} (hs : Ordered s.buffer) (i : Cycle) :
    emitted s i ++ held (cycle s i).buffer = held s.buffer ++ taken s i := by
  have hclk := fifo_conserves (ordered_afterRise hs i) (writes s i) i.readClk (ports i)
  have hrise : (if rises s i then emits s.buffer i.readRise else []) ++ held (afterRise s i) =
      held s.buffer ++ if rises s i && takes s.buffer (ports i) then [ports i] else [] := by
    unfold afterRise
    cases rises s i with
    | false => simp
    | true => exact fifo_conserves hs true i.readRise (ports i)
  calc emitted s i ++ held (cycle s i).buffer
      = (if rises s i then emits s.buffer i.readRise else []) ++
          (emits (afterRise s i) i.readClk ++ held (cycle s i).buffer) := List.append_assoc _ _ _
    _ = ((if rises s i then emits s.buffer i.readRise else []) ++ held (afterRise s i)) ++
          if writes s i && takes (afterRise s i) (ports i) then [ports i] else [] := by
        rw [List.append_assoc, ← hclk]
        rfl
    _ = held s.buffer ++ taken s i := by
        rw [hrise, List.append_assoc]
        rfl

/-- The ports of a cycle that writes show a store or a load. -/
theorem ports_oneKind {s : State} {i : Cycle} (hw : writes s i = true) :
    (ports i).store = !(ports i).load := by
  unfold writes at hw
  unfold ports
  cases hreq : i.request with
  | none => simp [hreq] at hw
  | some r => exact r.oneKind

/-- A cycle takes what it accepts exactly when it takes the request once. -/
theorem taken_eq_accepted_iff {s : State} (hs : Ordered s.buffer) (i : Cycle) :
    taken s i = accepted s i ↔ takesOnce s i = true := by
  unfold taken accepted takesOnce
  cases hw : writes s i with
  | false => simp [rises, hw]
  | true =>
    cases hr : rises s i with
    | false =>
      have hafter : afterRise s i = s.buffer := by simp [afterRise, hr]
      rw [hafter]
      simp
    | true =>
      have hafter : afterRise s i = fifo s.buffer true i.readRise (ports i) := by
        simp [afterRise, hr]
      have hkind := ports_oneKind hw
      rw [hafter]
      cases hl : (ports i).load with
      | false =>
        rw [hl, Bool.not_false] at hkind
        cases ht : takes s.buffer (ports i) with
        | true => simp [storeOnce, ht, not_takes_again_store hl ht]
        | false => simp [storeOnce, ht, takes_after_read_store hs hkind hl ht]
      | true =>
        cases ht : takes s.buffer (ports i) with
        | true =>
          rw [takes_again_load hl ht, loadOnce, ← takes_of_load hl, ht]
          cases opens s.buffer.buff0 i.readRise (ports i) <;> simp
        | false =>
          rw [takes_after_read_load hs hl ht, loadOnce, ← takes_of_load hl, ht]
          simp

/-- After every prefix of a run from reset the buffer has emitted, or still holds,
exactly what it accepted, in order, if and only if each cycle takes its request at
one of its two events and not at both. -/
theorem delivered_iff (is : List Cycle) :
    (∀ n, Delivered (is.take n)) ↔
      Run.Each (fun s i => takesOnce s i = true) cycle reset is := by
  have hlaw : ∀ n, Delivered (is.take n) ↔
      Run.Conserves emitted accepted (fun s => held s.buffer) cycle reset (is.take n) :=
    fun _ => Iff.rfl
  simp only [hlaw]
  rw [Run.conserves_iff]
  refine Run.each_iff_each (fun s => Ordered s.buffer) ?_ ?_ ?_
  · intro s i hs
    rw [Run.ConservesStep, cycle_conserves hs, List.append_cancel_left_eq]
    exact taken_eq_accepted_iff hs i
  · intro s i hs _
    exact ordered_cycle hs i
  · intro h0
    exact absurd h0 (by decide)

/-- A load miss at address 0x40 right after reset enters both buffers. -/
theorem load_delivered_twice :
    ¬ Delivered
      [⟨some ⟨⟨0#32, 0x40#32, false, true, 0#2⟩, rfl⟩, false, false⟩] := by
  unfold Delivered
  decide

end Buffercache

end RiVerSoC
