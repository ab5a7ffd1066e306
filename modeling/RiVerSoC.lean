import RiVerSoC.BufferCache
import RiVerSoC.Division
import RiVerSoC.LoadStore
import RiVerSoC.X0Multiplier
import RiVerSoC.Exe
import RiVerSoC.ExeDelta
import RiVerSoC.ExeScratch
import RiVerSoC.Dec
import RiVerSoC.DecDelta
import RiVerSoC.Backend
import RiVerSoC.Forwarding
import RiVerSoC.Csr
import RiVerSoC.CsrException
import RiVerSoC.Core
import RiVerSoC.CsrDecode
import RiVerSoC.Zicsr
import RiVerSoC.Mip
import RiVerSoC.Interrupts
import RiVerSoC.TrapEntry
import RiVerSoC.InOrder
import RiVerSoC.PcInc
import RiVerSoC.TrapReturn
import RiVerSoC.AccessDecode
import RiVerSoC.Protection
import RiVerSoC.Isolation
import RiVerSoC.CarrySave
import RiVerSoC.Multiplier
import RiVerSoC.MultiplierPipe
import RiVerSoC.Cpu
import RiVerSoC.Ledger
import RiVerSoC.Numbered
import RiVerSoC.SyncException
import RiVerSoC.PreciseInterrupt
import RiVerSoC.LiveEffects
import RiVerSoC.Icache
import RiVerSoC.PredBranchCache
import RiVerSoC.Replacement
import RiVerSoC.Legality
import RiVerSoC.MiniPacking
import RiVerSoC.MiniPredictor
import RiVerSoC.MiniPcInc
import RiVerSoC.MiniPipeline
import RiVerSoC.MiniInterlock
import RiVerSoC.DividerStart
import RiVerSoC.FetchLoop
import RiVerSoC.Dcache
import RiVerSoC.DcacheRefine
import RiVerSoC.Shifter
import RiVerSoC.AluInstructions
import RiVerSoC.BranchJump
import RiVerSoC.DivideResult
import RiVerSoC.Timer
import RiVerSoC.BitFields
import RiVerSoC.WordPacking
import RiVerSoC.FetchWord
import RiVerSoC.Ranges
import RiVerSoC.ElfSegments
import RiVerSoC.MiniLoadUse
import RiVerSoC.Rv32i
import RiVerSoC.BackendRefine
import RiVerSoC.CoreHart
import RiVerSoC.CoreInstructions
import RiVerSoC.CoreProgram
import RiVerSoC.MiniSystem
import RiVerSoC.MiniRefine
import RiVerSoC.MiniProgram
import RiVerSoC.MiniInstructions
import RiVerSoC.MiniRv32i
import RiVerSoC.Wishbone
import RiVerSoC.WishboneRefine
import RiVerSoC.WishboneProgress
import RiVerSoC.CoreProgress
