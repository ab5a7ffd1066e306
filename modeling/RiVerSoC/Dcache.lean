/-
The data cache and the memory side of `core_tb` behind it.

`missDetection`, `stateTransition` and `maeOutput` embed the methods of `dcache.cpp`, `delta` runs
those that an update phase wakes, the write buffer among them.

* `maeOutput` — one activation of `mae_output`: the merge of a store, and the words of a refill;
* `Memory.turn` — one turn of the loop of `core_tb`, which comes twice in a clock cycle;
* `step` — one clock cycle.
-/
import RiVerSoC.BufferCache
import RiVerSoC.Delta
import RiVerSoC.LoadStore

namespace RiVerSoC

namespace Dcache

/-- The states of `current_state`. -/
inductive Fsm
  | idle
  | waitMem
  | updt
deriving DecidableEq, Repr, Inhabited

/-- An address as `adresse_parcer` cuts it. -/
structure Parsed where
  tag : BitVec 21
  index : BitVec 7
  offset : BitVec 4
deriving DecidableEq, Repr, Inhabited

def parse (a : BitVec 32) : Parsed where
  tag := a.extractLsb' 11 21
  index := a.extractLsb' 4 7
  offset := a.extractLsb' 0 4

/-- The place of `word[index][k]`.  A `k` behind the line is in the next one, as the array is laid
out. -/
def place (index : BitVec 7) (k : ℕ) : ℕ := 4 * index.toNat + k

/-- One way of the cache. -/
structure Way where
  word : ℕ → BitVec 32
  tag : BitVec 7 → BitVec 21
  lineValidate : BitVec 7 → Bool

/-- `word[index][k] = d`. -/
def Way.write (w : Way) (index : BitVec 7) (k : ℕ) (d : BitVec 32) : Way :=
  { w with word := Function.update w.word (place index k) d }

/-- The line gets a tag, and is valid from now on. -/
def Way.install (w : Way) (index : BitVec 7) (tag : BitVec 21) : Way :=
  { w with
    tag := Function.update w.tag index tag
    lineValidate := Function.update w.lineValidate index true }

/-- The way has the line of the address. -/
def Way.has (w : Way) (a : Parsed) : Bool := a.tag == w.tag a.index && w.lineValidate a.index

/-- What MEM presents to the cache. -/
structure Port where
  dataAdrSm : BitVec 32
  dataSm : BitVec 32
  loadSm : Bool
  storeSm : Bool
  validAdrSm : Bool
  memSizeSm : BitVec 2
deriving DecidableEq, Repr, Inhabited

/-- What `miss_detection` writes. -/
structure Hits where
  dataSc : BitVec 32
  way0Hit : Bool
  way1Hit : Bool
  miss : Bool
  stallSc : Bool
deriving DecidableEq, Repr, Inhabited

/-- What `mae_output` writes. -/
structure Mae where
  w0 : Way
  w1 : Way
  lruBitCheck : BitVec 7 → Bool
  burstCpt : ℕ
  mpLastAddrOffset : BitVec 4
  readBuff : Bool
  writeBuff : Bool
  dtaValidSc : Bool

/-- The signals of the cache and of its write buffer. -/
structure Sig where
  port : Port
  dtSp : BitVec 32
  aSp : BitVec 32
  slaveAckSp : Bool
  address : Parsed
  mpAddress : Parsed
  hits : Hits
  currentState : Fsm
  futureState : Fsm
  mae : Mae
  buffer : Buffercache.Buffer
  full : Bool
  empty : Bool

variable (s : Sig)

/-! ### The methods -/

/-- `miss_detection`; the hits and the miss that it reads are those of its last activation. -/
def missDetection : Hits where
  dataSc :=
    if s.address.tag == s.mae.w1.tag s.address.index && (s.port.loadSm && s.hits.way1Hit) then
      s.mae.w1.word (place s.address.index (s.address.offset.toNat / 4))
    else if s.address.tag == s.mae.w0.tag s.address.index && (s.port.loadSm && s.hits.way0Hit) then
      s.mae.w0.word (place s.address.index (s.address.offset.toNat / 4))
    else s.hits.dataSc
  way0Hit := s.mae.w0.has s.address
  way1Hit := s.mae.w1.has s.address
  miss := !s.hits.way0Hit && !s.hits.way1Hit
  stallSc := s.hits.miss && s.port.loadSm || s.port.storeSm && s.full

/-- `state_transition`. -/
def stateTransition : Fsm :=
  match s.currentState with
  | .idle =>
    if s.port.loadSm && s.port.validAdrSm then
      if s.hits.miss && !s.full then .waitMem else .idle
    else if s.port.storeSm && s.port.validAdrSm then
      if !s.full then .idle else s.futureState
    else .idle
  | .waitMem => if s.slaveAckSp then .updt else .waitMem
  | .updt => if s.slaveAckSp then .updt else .idle

/-- `data_mask`, which is 0 where the switch has no case. -/
def dataMask (memSize : BitVec 2) (mask : ℕ) : BitVec 32 :=
  if memSize = 2 then
    match mask with
    | 0 => 0x000000FF#32
    | 1 => 0x0000FF00#32
    | 2 => 0x00FF0000#32
    | 3 => 0xFF000000#32
    | _ => 0
  else if memSize = 1 then
    match mask with
    | 0 => 0x0000FFFF#32
    | 1 => 0xFFFF0000#32
    | _ => 0
  else 0xFFFFFFFF#32

/-- The word of a store, merged into that of the way. -/
def merged (w : Way) : BitVec 32 :=
  let dataMask := dataMask s.port.memSizeSm (s.port.dataAdrSm &&& 3#32).toNat
  let dt := w.word (place s.address.index (s.address.offset.toNat / 4))
  dt &&& ~~~dataMask ||| s.port.dataSm &&& dataMask

/-- The merge in the way. -/
def merge (w : Way) : Way :=
  w.write s.address.index (s.address.offset.toNat / 4) (merged s w)

/-- A store in `IDLE`. -/
def storeBits (m : Mae) : Mae :=
  if s.hits.miss then
    if s.mae.lruBitCheck s.address.index then
      { m with w0 := (merge s s.mae.w0).install s.address.index s.address.tag }
    else { m with w1 := (merge s s.mae.w1).install s.address.index s.address.tag }
  else if s.hits.way0Hit then { m with w0 := merge s s.mae.w0 }
  else if s.hits.way1Hit then { m with w1 := merge s s.mae.w1 }
  else m

/-- A word of the refill goes to the next place of the line. -/
def fill (w : Way) : Way := w.write (parse s.aSp).index s.mae.burstCpt s.dtSp

/-- `mae_output`. -/
def maeOutput : Mae :=
  match s.currentState with
  | .idle =>
    let m :=
      { s.mae with
        readBuff := true
        writeBuff :=
          (s.port.loadSm && s.hits.miss || s.port.storeSm) && s.port.validAdrSm && !s.full
        dtaValidSc := !s.empty }
    if s.port.storeSm && s.port.validAdrSm then storeBits s m else m
  | .waitMem =>
    if s.slaveAckSp then
      let m :=
        { s.mae with
          burstCpt := s.mae.burstCpt + 1
          mpLastAddrOffset := s.mpAddress.offset
          readBuff := false
          writeBuff := false
          dtaValidSc := false }
      if s.mae.lruBitCheck (parse s.aSp).index then
        { m with w0 := (fill s s.mae.w0).install (parse s.aSp).index (parse s.aSp).tag }
      else { m with w1 := (fill s s.mae.w1).install (parse s.aSp).index (parse s.aSp).tag }
    else { s.mae with burstCpt := 0, readBuff := true, writeBuff := false, dtaValidSc := true }
  | .updt =>
    if !s.slaveAckSp then
      { s.mae with
        readBuff := true
        lruBitCheck :=
          Function.update s.mae.lruBitCheck s.mpAddress.index
            (!s.mae.lruBitCheck s.mpAddress.index) }
    else if (parse s.aSp).offset.toNat = s.mae.mpLastAddrOffset.toNat + 4 then
      let m :=
        { s.mae with
          burstCpt := s.mae.burstCpt + 1
          mpLastAddrOffset := (parse s.aSp).offset
          readBuff := true }
      if s.mae.lruBitCheck (parse s.aSp).index then { m with w0 := fill s s.mae.w0 }
      else { m with w1 := fill s s.mae.w1 }
    else { s.mae with readBuff := true }

/-- The ports of the write buffer. -/
def bufferPorts : Buffercache.Transfer where
  data := s.port.dataSm
  adr := s.port.dataAdrSm
  store := s.port.storeSm
  load := s.port.loadSm
  size := s.port.memSizeSm

/-! ### Delta cycles -/

/-- The edges of the clock. -/
inductive Edge
  | pos
  | neg
deriving DecidableEq, Repr

/-- `adresse_parcer` is woken. -/
def parcerWoken (a b : Sig) : Prop := a.port.dataAdrSm ≠ b.port.dataAdrSm ∨ a.aSp ≠ b.aSp

/-- `miss_detection` is woken by a signal; the arrays and `full` are not on its list. -/
def missWoken (a b : Sig) : Prop :=
  a.address ≠ b.address ∨ a.port.loadSm ≠ b.port.loadSm ∨ a.port.storeSm ≠ b.port.storeSm ∨
    a.hits.way0Hit ≠ b.hits.way0Hit ∨ a.hits.way1Hit ≠ b.hits.way1Hit

instance (a b : Sig) : Decidable (parcerWoken a b) := inferInstanceAs (Decidable (_ ∨ _))

instance (a b : Sig) : Decidable (missWoken a b) := inferInstanceAs (Decidable (_ ∨ _))

/-- One delta cycle: what the update from `a` to `b`, and the clock edge with it, wakes. -/
def delta (e : Option Edge) (a b : Sig) : Sig :=
  { b with
    address := if parcerWoken a b then parse b.port.dataAdrSm else b.address
    mpAddress := if parcerWoken a b then parse b.aSp else b.mpAddress
    hits := if e = some .neg ∨ missWoken a b then missDetection b else b.hits
    currentState := if e = some .neg then b.futureState else b.currentState
    futureState := if e = some .neg then stateTransition b else b.futureState
    mae := if e = some .neg ∨ a.mpAddress ≠ b.mpAddress then maeOutput b else b.mae
    buffer :=
      if e = some .pos ∨ a.mae.writeBuff = false ∧ b.mae.writeBuff = true then
        Buffercache.fifo b.buffer b.mae.writeBuff b.mae.readBuff (bufferPorts b)
      else b.buffer
    full := if e = some .pos then (Buffercache.bufferfull b.buffer).1 else b.full
    empty := if e = some .pos then (Buffercache.bufferfull b.buffer).2 else b.empty }

/-- The signals when the update from `a` to `b` has settled, which takes six delta cycles at
most. -/
def settle (e : Option Edge) (a b : Sig) : Sig :=
  (Delta.run (delta none) 6 ⟨b, delta e a b⟩).cur

/-! ### The memory side -/

/-- The states of `DC_fsm_current_state`. -/
inductive DcFsm
  | idle
  | clkSimu0
  | sendDta1
  | clkSimu1
  | sendDta2
  | clkSimu2
  | sendDta3
  | endBurst
deriving DecidableEq, Repr, Inhabited

/-- The variables of `core_tb`, and the signals that it writes. -/
structure Memory where
  ram : Ram
  fsm : DcFsm
  memAdr : BitVec 32
  mpDt : BitVec 32
  mpA : BitVec 32
  mpAckDcache : Bool

namespace Memory

variable (m : Memory)

/-- The word at `mem_adr + k` is sent. -/
def send (k : BitVec 32) (next : DcFsm) : Memory :=
  { m with mpDt := m.ram (m.memAdr + k), mpA := m.memAdr + k, mpAckDcache := true, fsm := next }

/-- The store that the write buffer shows is made, with the bytes of its size. -/
def apply (mp : Buffercache.Transfer) : Memory :=
  { m with
    memAdr := wordAdr mp.adr
    ram :=
      Function.update m.ram (wordAdr mp.adr)
        (maskStore mp.size (mp.adr &&& 3#32).toNat (m.ram (wordAdr mp.adr)) mp.data) }

/-- One turn of the loop.  A load is answered when `answers` says so. -/
def turn (answers dtaValid : Bool) (mp : Buffercache.Transfer) : Memory :=
  match m.fsm with
  | .idle =>
    if dtaValid then
      let m' :=
        if mp.load && answers then
          send { m with memAdr := mp.adr &&& 0xFFFFFFF0#32 } 0 .clkSimu0
        else { m with mpAckDcache := false }
      if mp.store then m'.apply mp else m'
    else { m with mpAckDcache := false }
  | .clkSimu0 => { m with fsm := .sendDta1 }
  | .sendDta1 => m.send 4 .clkSimu1
  | .clkSimu1 => { m with fsm := .sendDta2 }
  | .sendDta2 => m.send 8 .clkSimu2
  | .clkSimu2 => { m with fsm := .sendDta3 }
  | .sendDta3 => m.send 12 .endBurst
  | .endBurst => { m with fsm := .idle, mpAckDcache := false }

end Memory

/-! ### Clock cycles -/

/-- A load or a store; the data of a store are in their lane. -/
structure Access extends AlignedAccess where
  store : Bool
  data : BitVec 32

/-- How MEM presents it. -/
def Access.port (a : Access) : Port where
  dataAdrSm := a.adr
  dataSm := a.data
  loadSm := !a.store
  storeSm := a.store
  validAdrSm := true
  memSizeSm := a.size

/-- The access that comes next, if MEM has one, and what it presents otherwise; whether the memory
side answers a load at the two edges. -/
structure Cycle where
  access : Option Access
  bubble : Port
  answersPos : Bool
  answersNeg : Bool

def Cycle.port (i : Cycle) : Port :=
  match i.access with
  | some a => a.port
  | none => { i.bubble with loadSm := false, storeSm := false }

/-- The cache with the memory side. -/
structure State where
  sig : Sig
  memory : Memory

/-- The signals of the memory side at the cache. -/
def drive (m : Memory) : Sig := { s with dtSp := m.mpDt, aSp := m.mpA, slaveAckSp := m.mpAckDcache }

def reset (ram : Ram) : State where
  sig :=
    { port := default
      dtSp := 0
      aSp := 0
      slaveAckSp := false
      address := parse 0
      mpAddress := parse 0
      hits := { (default : Hits) with miss := true }
      currentState := .idle
      futureState := .idle
      mae :=
        { w0 := ⟨fun _ => 0, fun _ => 0, fun _ => false⟩
          w1 := ⟨fun _ => 0, fun _ => 0, fun _ => false⟩
          lruBitCheck := fun _ => false
          burstCpt := 0
          mpLastAddrOffset := 0
          readBuff := true
          writeBuff := false
          dtaValidSc := false }
      buffer := default
      full := false
      empty := true }
  memory := ⟨ram, .idle, 0, 0, 0, false⟩

/-- The rising edge, with the turn of the memory side before it. -/
def State.rise (s : State) (answers : Bool) : State :=
  let memory := s.memory.turn answers s.sig.mae.dtaValidSc s.sig.buffer.mp
  ⟨settle (some .pos) s.sig (drive s.sig memory), memory⟩

/-- MEM presents something else. -/
def State.present (s : State) (port : Port) : State :=
  { s with sig := settle none s.sig { s.sig with port := port } }

/-- The falling edge, with the turn of the memory side before it. -/
def State.fall (s : State) (answers : Bool) : State :=
  let memory := s.memory.turn answers s.sig.mae.dtaValidSc s.sig.buffer.mp
  ⟨settle (some .neg) s.sig (drive s.sig memory), memory⟩

/-- One clock cycle, from rising edge to rising edge.  MEM keeps an access that stalls; it
presents the next one after the rising edge, when the methods of the cache have run. -/
def step (s : State) (i : Cycle) : State :=
  ((s.rise i.answersPos).present (if s.sig.hits.stallSc then s.sig.port else i.port)).fall
    i.answersNeg

end Dcache

end RiVerSoC
