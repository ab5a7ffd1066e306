/-
The system on the FPGA: the core, its memory and the leds on a Wishbone bus.

* `Cpu`, `RamSlave`, `LedSlave` — the three state machines of the bus;
* `Top` — their connection, with the comparator that selects a slave by the address;
* `Store`, `perform`, `answer` — what the bus stands for: one memory and four registers that serve
  a request at once.

Neither the core nor the block memory of the board is part of these sources: the outputs of the
core are inputs here, and the block memory is any one with a registered output.
-/
import RiVerSoC.Run
import Mathlib.Logic.Function.Basic

namespace RiVerSoC

namespace Wishbone

/-! ### The core and the bus -/

/-- The request of the core for its data. -/
structure DataPort where
  adrV : Bool
  store : Bool
  load : Bool
  data : BitVec 32
  adr : BitVec 32
  bytSel : BitVec 4
deriving DecidableEq, Repr, Inhabited

/-- The request of the core for an instruction. -/
structure FetchPort where
  adrV : Bool
  adr : BitVec 32
deriving DecidableEq, Repr, Inhabited

/-- The outputs of the core in a cycle. -/
structure Core where
  dcache : DataPort
  icache : FetchPort
deriving DecidableEq, Repr, Inhabited

/-- What the master puts on the bus. -/
structure Bus where
  stb : Bool
  we : Bool
  dat : BitVec 32
  sel : BitVec 4
  adr : BitVec 32
deriving DecidableEq, Repr, Inhabited

/-! ### `wb_cpu` -/

namespace Cpu

inductive State where
  | idle | iread | dread | dwrite
deriving DecidableEq, Repr, Inhabited

namespace State

/-- `fsm_output`. -/
def stbO (ep : State) : Bool := ep != idle

def weO (ep : State) : Bool := ep == dwrite

def transD (ep : State) : Bool := ep == dread || ep == dwrite

def transI (ep : State) : Bool := ep == iread

def noData (ep : State) : Bool := ep == idle || ep == dwrite

variable (ep : State) (c : Core) (ackI : Bool)

def adrO : BitVec 32 :=
  if ep.transD then c.dcache.adr else if ep.transI then c.icache.adr else 0

def datO : BitVec 32 := if ep.transD then c.dcache.data else 0

def bus : Bus := ⟨ep.stbO, ep.weO, ep.datO c, c.dcache.bytSel, ep.adrO c⟩

def dcacheStall : Bool :=
  (!ackI && ep.transD) || (ackI && ep.transI && c.dcache.adrV) ||
    ((ep.transI || ep.noData) && c.dcache.adrV && c.dcache.load)

def icacheStall : Bool := (!ackI && ep.transI) || (ackI && ep.transD) || ep.noData

end State

structure Regs where
  ep : State
  transDReg : Bool
deriving DecidableEq, Repr, Inhabited

namespace Regs

def reset : Regs := ⟨.idle, false⟩

variable (s : Regs) (c : Core) (ackI : Bool)

/-- `EF`, with the value that it has before the rising edge. -/
def ef : State :=
  match s.ep with
  | .idle =>
    if c.dcache.adrV && c.dcache.store && !s.transDReg then .dwrite
    else if c.dcache.adrV && c.dcache.load && !s.transDReg then .dread
    else if c.icache.adrV then .iread
    else .idle
  | ep => if ackI then .idle else ep

def clock : Regs := ⟨s.ef c ackI, s.ep.transD⟩

end Regs

end Cpu

/-! ### The block memory -/

/-- A block memory with cells `C`: the cell of an address, what a write with some lanes leaves of a
word, and what it shows at its output. Without lanes it reads. -/
structure Bram (C : Type) where
  cell : BitVec 32 → C
  merge : BitVec 4 → BitVec 32 → BitVec 32 → BitVec 32
  merge_zero : ∀ old di, merge 0 old di = old
  shown : BitVec 4 → BitVec 32 → BitVec 32 → BitVec 32
  shown_zero : ∀ old di, shown 0 old di = old

/-- Its words and its output. -/
structure Memory (C : Type) where
  word : C → BitVec 32
  ramDo : BitVec 32

namespace Memory

variable {C : Type} [DecidableEq C]

def clock (b : Bram C) (m : Memory C) (en : Bool) (sel : BitVec 4) (adr di : BitVec 32) :
    Memory C :=
  if en then
    { word := Function.update m.word (b.cell adr) (b.merge sel (m.word (b.cell adr)) di)
      ramDo := b.shown sel (m.word (b.cell adr)) di }
  else m

end Memory

/-! ### `wb_ram` -/

namespace RamSlave

inductive State where
  | idle | r | w | done
deriving DecidableEq, Repr, Inhabited

namespace State

/-- `fsm_output`. -/
def ackO (ep : State) : Bool := ep == done

def wenable (ep : State) : Bool := ep == w

def enable (ep : State) : Bool := ep == r || ep == w

/-- `EF`. -/
def ef (ep : State) (stb we : Bool) : State :=
  match ep with
  | idle => if stb && we then w else if stb && !we then r else idle
  | w => done
  | r => done
  | done => idle

end State

structure Regs where
  ep : State
  dataReg : BitVec 32
  adrReg : BitVec 32
  selReg : BitVec 4
deriving DecidableEq, Repr, Inhabited

def reset : Regs := ⟨.idle, 0, 0, 0⟩

/-- `adr_adapt`, for the address `size` after the last. -/
def adrAdapt (size adr : BitVec 32) : BitVec 32 := if size < adr then size else adr

def clock (size : BitVec 32) (s : Regs) (i : Bus) : Regs :=
  ⟨s.ep.ef i.stb i.we, i.dat, adrAdapt size i.adr, i.sel⟩

/-- `ram_byt_sel`. -/
def ramBytSel (s : Regs) : BitVec 4 := if s.ep.wenable then s.selReg else 0

end RamSlave

/-! ### `wb_led` -/

namespace LedSlave

inductive SlvReg where
  | slvReg0 | slvReg1 | slvReg2 | slvReg3
deriving DecidableEq, Repr

inductive State where
  | idle | w | r
deriving DecidableEq, Repr, Inhabited

namespace State

/-- `fsm_ouput`. -/
def wenable (ep : State) : Bool := ep == w

def ackO (ep : State) : Bool := ep != idle

/-- `EF`. -/
def ef (ep : State) (stb we : Bool) : State :=
  match ep with
  | idle => if stb && we then w else if stb && !we then r else idle
  | _ => idle

end State

structure Regs where
  ep : State
  slvReg : SlvReg → BitVec 32
  dataReg : BitVec 32
  adrReg : BitVec 32
  selReg : BitVec 4

def reset : Regs := ⟨.idle, fun _ => 0, 0, 0, 0⟩

/-- The register at an address. -/
def register (base adr : BitVec 32) : Option SlvReg :=
  if adr = base then some .slvReg0
  else if adr = base + 4 then some .slvReg1
  else if adr = base + 8 then some .slvReg2
  else if adr = base + 0xC then some .slvReg3
  else none

/-- A write to a register: `sel(0)` stands for its highest byte. -/
def lanes (sel : BitVec 4) (old dat : BitVec 32) : BitVec 32 :=
  (if sel.getLsbD 0 then dat else old).extractLsb' 24 8 ++
    (if sel.getLsbD 1 then dat else old).extractLsb' 16 8 ++
    (if sel.getLsbD 2 then dat else old).extractLsb' 8 8 ++
    (if sel.getLsbD 3 then dat else old).extractLsb' 0 8

/-- The registers after a write. -/
def written (base : BitVec 32) (regs : SlvReg → BitVec 32) (sel : BitVec 4) (adr dat : BitVec 32) :
    SlvReg → BitVec 32 :=
  match register base adr with
  | some k => Function.update regs k (lanes sel (regs k) dat)
  | none => regs

/-- The register at an address, or 0. -/
def read (base : BitVec 32) (regs : SlvReg → BitVec 32) (adr : BitVec 32) : BitVec 32 :=
  match register base adr with
  | some k => regs k
  | none => 0

/-- `write_reg` and `reg_wb`. -/
def clock (base : BitVec 32) (s : Regs) (i : Bus) : Regs where
  ep := s.ep.ef i.stb i.we
  slvReg :=
    if s.ep.wenable then written base s.slvReg s.selReg s.adrReg s.dataReg else s.slvReg
  dataReg := i.dat
  adrReg := i.adr
  selReg := i.sel

def datO (base : BitVec 32) (s : Regs) : BitVec 32 := read base s.slvReg s.adrReg

/-- The pins: the leds, and the two of three colours. -/
def pins (regs : SlvReg → BitVec 32) : BitVec 16 × BitVec 3 × BitVec 3 :=
  ((regs .slvReg0).extractLsb' 0 16, (regs .slvReg1).extractLsb' 0 3,
    (regs .slvReg2).extractLsb' 0 3)

end LedSlave

/-! ### `top` -/

def ledBaseAdr : BitVec 32 := 0x40000000

def ledEndAdr : BitVec 32 := 0x4000000C

/-- The `SIZE` of the memory. -/
def ramSize : BitVec 32 := 32768

def selectRam (adr : BitVec 32) : Bool := decide (adr < ledBaseAdr)

def selectLed (adr : BitVec 32) : Bool := decide (ledBaseAdr ≤ adr) && decide (adr ≤ ledEndAdr)

structure Top (C : Type) where
  cpu : Cpu.Regs
  ram : RamSlave.Regs
  memory : Memory C
  led : LedSlave.Regs

namespace Top

variable {C : Type}

def reset (word : C → BitVec 32) (ramDo : BitVec 32) : Top C :=
  ⟨Cpu.Regs.reset, RamSlave.reset, ⟨word, ramDo⟩, LedSlave.reset⟩

variable (b : Bram C) (m : Top C) (c : Core)

def bus : Bus := m.cpu.ep.bus c

/-- The bus as a selected slave sees it. -/
def strobed (select : Bool) : Bus :=
  { m.bus c with
    stb := select && (m.bus c).stb
    we := select && (m.bus c).we }

def ackSlv : Bool :=
  if selectRam (m.bus c).adr then m.ram.ep.ackO
  else if selectLed (m.bus c).adr then m.led.ep.ackO
  else false

def dataSlv : BitVec 32 :=
  if selectRam (m.bus c).adr then m.memory.ramDo
  else if selectLed (m.bus c).adr then LedSlave.datO ledBaseAdr m.led
  else 0

def dcacheStall : Bool := m.cpu.ep.dcacheStall c (m.ackSlv c)

def icacheStall : Bool := m.cpu.ep.icacheStall (m.ackSlv c)

/-- One clock cycle. -/
def clock [DecidableEq C] : Top C where
  cpu := m.cpu.clock c (m.ackSlv c)
  ram := RamSlave.clock ramSize m.ram (m.strobed c (selectRam (m.bus c).adr))
  memory := m.memory.clock b m.ram.ep.enable (RamSlave.ramBytSel m.ram) m.ram.adrReg m.ram.dataReg
  led := LedSlave.clock ledBaseAdr m.led (m.strobed c (selectLed (m.bus c).adr))

end Top

/-! ### What the bus stands for -/

/-- A request on the bus. -/
structure Request where
  we : Bool
  adr : BitVec 32
  dat : BitVec 32
  sel : BitVec 4
deriving DecidableEq, Repr, Inhabited

/-- The words of the memory and the registers of the leds. -/
structure Store (C : Type) where
  word : C → BitVec 32
  reg : LedSlave.SlvReg → BitVec 32

namespace Store

variable {C : Type} [DecidableEq C] (b : Bram C) (a : Store C) (t : Request)

def start (word : C → BitVec 32) : Store C := ⟨word, fun _ => 0⟩

/-- The cell of an address of the memory. -/
def cellOf (adr : BitVec 32) : C := b.cell (RamSlave.adrAdapt ramSize adr)

/-- The answer to a read. -/
def answer (adr : BitVec 32) : BitVec 32 :=
  if selectRam adr then a.word (cellOf b adr) else LedSlave.read ledBaseAdr a.reg adr

/-- A request is served at once. -/
def perform : Store C :=
  if t.we then
    if selectRam t.adr then
      { a with
        word := Function.update a.word (cellOf b t.adr)
          (b.merge t.sel (a.word (cellOf b t.adr)) t.dat) }
    else { a with reg := LedSlave.written ledBaseAdr a.reg t.sel t.adr t.dat }
  else a

/-- After some requests. -/
def after (q : List Request) : Store C := Run.after (perform b) a q

end Store

/-! ### Runs with a core that waits -/

/-- The system, with the outputs of the core in the cycle before and the stalls that it saw. -/
structure System (C : Type) where
  top : Top C
  last : Core
  dStalled : Bool
  iStalled : Bool

namespace System

variable {C : Type} [DecidableEq C] (b : Bram C) (s : System C) (c : Core)

def reset (word : C → BitVec 32) (ramDo : BitVec 32) : System C :=
  ⟨Top.reset word ramDo, default, false, false⟩

def step : System C := ⟨s.top.clock b c, c, s.top.dcacheStall c, s.top.icacheStall c⟩

/-- A stalled port of the core keeps its request. -/
def Waits : Prop :=
  (s.dStalled = true → c.dcache = s.last.dcache) ∧ (s.iStalled = true → c.icache = s.last.icache)

instance : Decidable (s.Waits c) := inferInstanceAs (Decidable (_ ∧ _))

/-- The request that a slave takes. -/
def taken : List Request :=
  if ((selectRam (s.top.bus c).adr && s.top.ram.ep == .idle) ||
      (selectLed (s.top.bus c).adr && s.top.led.ep == .idle)) && (s.top.bus c).stb then
    [⟨(s.top.bus c).we, (s.top.bus c).adr, (s.top.bus c).dat, (s.top.bus c).sel⟩]
  else []

end System

end Wishbone

end RiVerSoC
