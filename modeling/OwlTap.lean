import OwlTap.Base.BinaryValue
import OwlTap.Base.BitOrder
import OwlTap.Base.Bits
import OwlTap.Base.BoundaryDevice
import OwlTap.Base.Bypass
import OwlTap.Base.Chain
import OwlTap.Base.ChainStream
import OwlTap.Base.Cursor
import OwlTap.Base.Find
import OwlTap.Base.Greedy
import OwlTap.Base.Json
import OwlTap.Base.Lines
import OwlTap.Base.Masks
import OwlTap.Base.Method
import OwlTap.Base.Reader
import OwlTap.Base.Ring
import OwlTap.Base.RingBuffer
import OwlTap.Base.ShiftRegister
import OwlTap.Base.Simulation
import OwlTap.Base.SpiBridge
import OwlTap.Base.SpiNor
import OwlTap.Base.Steps
import OwlTap.Base.Stores
import OwlTap.Base.Tap
import OwlTap.Base.Throwing
import OwlTap.BoundaryScan.AttachedDevice
import OwlTap.BoundaryScan.DriverRules
import OwlTap.BoundaryScan.ExtestSessions
import OwlTap.BoundaryScan.FilteredScan
import OwlTap.BoundaryScan.InterconnectTest
import OwlTap.BoundaryScan.NetlistIndices
import OwlTap.BoundaryScan.PinDriver
import OwlTap.BoundaryScan.PinStaging
import OwlTap.BoundaryScan.PortGuard
import OwlTap.BoundaryScan.Scanner
import OwlTap.BoundaryScan.StagedWrites
import OwlTap.BoundaryScan.Staging
import OwlTap.BoundaryScan.StagingRoundTrip
import OwlTap.BoundaryScan.UndrivenSamples
import OwlTap.BoundaryScan.Workbench
import OwlTap.Bsdl.BoundaryRegister
import OwlTap.Bsdl.CellPlaces
import OwlTap.Bsdl.CharacterReads
import OwlTap.Bsdl.File
import OwlTap.Bsdl.Lexer
import OwlTap.Bsdl.Model
import OwlTap.Bsdl.OpcodeTable
import OwlTap.Bsdl.Parser
import OwlTap.Bsdl.PinMap
import OwlTap.Bsdl.PortClause
import OwlTap.Bsdl.SafeParsing
import OwlTap.Bsdl.Statements
import OwlTap.Capture.CaptureEngine
import OwlTap.Capture.CaptureSession
import OwlTap.Capture.SingleTrigger
import OwlTap.Capture.TriggerMarks
import OwlTap.Capture.TriggerWindow
import OwlTap.Config.BitDelivery
import OwlTap.Config.ConfigStatus
import OwlTap.Config.PlConfig
import OwlTap.Flash.BridgeFraming
import OwlTap.Flash.FlashJtagBridge
import OwlTap.Flash.FlashProgrammer
import OwlTap.Flash.ImageFiles
import OwlTap.Flash.ImageWritten
import OwlTap.Flash.McsAddressing
import OwlTap.Flash.McsCorruption
import OwlTap.Flash.McsParser
import OwlTap.Flash.McsRecord
import OwlTap.Flash.NorLink
import OwlTap.Flash.SpiFlash
import OwlTap.Ftdi.D2xx
import OwlTap.Ftdi.Engine
import OwlTap.Ftdi.FtdiDevice
import OwlTap.Ftdi.Link
import OwlTap.Ftdi.Mpsse
import OwlTap.Gui.AppConfig
import OwlTap.Gui.AppConfigItems
import OwlTap.Gui.AppConfigRoundTrip
import OwlTap.Gui.ControllerLife
import OwlTap.Gui.DaemonClient
import OwlTap.Gui.DaemonController
import OwlTap.Gui.DaemonRequests
import OwlTap.Gui.DaemonRpc
import OwlTap.Gui.DaemonSystem
import OwlTap.Gui.FlatJson
import OwlTap.Gui.GeneratedLanes
import OwlTap.Gui.IlaPanel
import OwlTap.Gui.LaneTriggers
import OwlTap.Gui.RemotePanel
import OwlTap.Gui.RepliesReach
import OwlTap.Gui.RequestsDone
import OwlTap.Gui.VcdExport
import OwlTap.Gui.WaveformAppend
import OwlTap.Gui.WaveformView
import OwlTap.Hardware.HardwareContext
import OwlTap.Hardware.HardwareExecutor
import OwlTap.Hardware.LazyOpen
import OwlTap.Ila.BackendAgreement
import OwlTap.Ila.BatchedReads
import OwlTap.Ila.Bscane2Top
import OwlTap.Ila.BscaneIlaTapBackend
import OwlTap.Ila.CaptureFsm
import OwlTap.Ila.ChainIlaTapBackend
import OwlTap.Ila.ChainSamples
import OwlTap.Ila.ChainServes
import OwlTap.Ila.DriverEffect
import OwlTap.Ila.DriverSession
import OwlTap.Ila.FpgaChain
import OwlTap.Ila.FpgaTap
import OwlTap.Ila.FreshBackend
import OwlTap.Ila.GeneratedCores
import OwlTap.Ila.HostReadout
import OwlTap.Ila.IlaDriver
import OwlTap.Ila.IlaGenerator
import OwlTap.Ila.IlaTap
import OwlTap.Ila.ProbedGeometry
import OwlTap.Ila.Provenance
import OwlTap.Ila.PulseSync
import OwlTap.Ila.Readout
import OwlTap.Ila.RegisterFile
import OwlTap.Ila.RegisterWrites
import OwlTap.Ila.RequestedCapture
import OwlTap.Ila.SignalDefinitions
import OwlTap.Ila.TapAddressing
import OwlTap.Ila.Trigger
import OwlTap.Ila.TriggerStream
import OwlTap.Jobs.ExecutorInvariant
import OwlTap.Jobs.HardwareExecutor
import OwlTap.Jobs.LifeCycle
import OwlTap.Jobs.Shutdown
import OwlTap.Jtag.BatchAgreement
import OwlTap.Jtag.BoundaryAccess
import OwlTap.Jtag.BypassedChain
import OwlTap.Jtag.Captures
import OwlTap.Jtag.ChainScan
import OwlTap.Jtag.DetectDevices
import OwlTap.Jtag.FailedScans
import OwlTap.Jtag.JtagChain
import OwlTap.Jtag.Moments
import OwlTap.Jtag.ReadBuffers
import OwlTap.Jtag.RestingChain
import OwlTap.Jtag.Runs
import OwlTap.Jtag.Scan
import OwlTap.Jtag.SelectInstruction
import OwlTap.Jtag.ShiftDRRepeat
import OwlTap.Jtag.TapController
import OwlTap.Jtag.Tracking
import OwlTap.Mcp.BoundaryWrites
import OwlTap.Mcp.BringUp
import OwlTap.Mcp.CaptureTools
import OwlTap.Mcp.ExclusiveDriving
import OwlTap.Mcp.ExecutorBridge
import OwlTap.Mcp.FailedPinWrites
import OwlTap.Mcp.FilterHistory
import OwlTap.Mcp.FilterIsolation
import OwlTap.Mcp.Framing
import OwlTap.Mcp.GuiRpcServer
import OwlTap.Mcp.HardwareTools
import OwlTap.Mcp.IlaRequests
import OwlTap.Mcp.JsonRpc
import OwlTap.Mcp.JsonSchema
import OwlTap.Mcp.McpServer
import OwlTap.Mcp.PinTools
import OwlTap.Mcp.ReaderProgress
import OwlTap.Mcp.SampleErrors
import OwlTap.Mcp.StoppedCapture
import OwlTap.Mcp.ToolCalls
import OwlTap.Mcp.ToolRegistry
import OwlTap.Mcp.WorkbenchTools
import OwlTap.Protocol.I2cDecoder
import OwlTap.Protocol.I2cTransactions
import OwlTap.Protocol.Protocol
import OwlTap.Protocol.SpiDecoder
import OwlTap.Protocol.UartCharacters
import OwlTap.Protocol.UartDecoder
import OwlTap.Script.ExpectCounts
import OwlTap.Script.ScriptEngine
import OwlTap.Xdc.PinAliases
import OwlTap.Xdc.XdcParser
