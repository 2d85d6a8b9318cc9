import UsbDfu.Bench.Terminal
import UsbDfu.Main
import UsbDfu.Proofs.BusySafety
import UsbDfu.Proofs.ConfigurationCodec
import UsbDfu.Proofs.EraseBeforeProgram
import UsbDfu.Proofs.ErrorState
import UsbDfu.Proofs.MapBlocks
import UsbDfu.Proofs.MapLayout
import UsbDfu.Proofs.MapPatterns
import UsbDfu.Proofs.Preflight
import UsbDfu.Proofs.SessionLife
import UsbDfu.Proofs.UploadBlocks
import UsbDfu.Proofs.ReadRounds
import UsbDfu.Proofs.BoardRuns
import UsbDfu.Proofs.SimulatedTransfer
import UsbDfu.Proofs.SimulatedProgramming
import UsbDfu.Proofs.SimulatedFlash
import UsbDfu.Proofs.FlashStart
import UsbDfu.Proofs.ReadOnly
import UsbDfu.Proofs.OpenClose
import UsbDfu.Proofs.ReadLimit
import UsbDfu.Proofs.SimulatedDiscovery
import UsbDfu.Proofs.ReadableRange
import UsbDfu.Proofs.ErasableRange
import UsbDfu.Proofs.RecordGrammar
import UsbDfu.Proofs.SimulatedRead
import UsbDfu.Proofs.MapArithmetic
import UsbDfu.Proofs.DefaultStart
import UsbDfu.Proofs.InterfaceGroups
import UsbDfu.Proofs.SimulatedTexts
import UsbDfu.Proofs.ChannelHandles
import UsbDfu.Proofs.DeviceSelection
import UsbDfu.Proofs.ProgressReports
import UsbDfu.Proofs.FixupText
import UsbDfu.Proofs.ConsoleLines
