import Drmtap.Lib.Program
import Drmtap.Lib.Total
import Drmtap.Lib.Liberal
import Drmtap.Lib.Memory
import Drmtap.Lib.Tiling
import Drmtap.Lib.Ledger
import Drmtap.Lib.Mixing
import Drmtap.Lib.Replacement
import Drmtap.Types
import Drmtap.Tone
import Drmtap.PixelConvert
import Drmtap.PixelRaster
import Drmtap.DiffFrames
import Drmtap.Deswizzle
import Drmtap.RowAddressing
import Drmtap.System
import Drmtap.AutoProcess
import Drmtap.Converters
import Drmtap.Pipeline
import Drmtap.ConvertDmabuf
import Drmtap.ConvertSucceeds
import Drmtap.ConvertTruthful
import Drmtap.Kms
import Drmtap.HdrReaders
import Drmtap.Wire
import Drmtap.WireDescriptors
import Drmtap.WireFrames
import Drmtap.HelperServer
import Drmtap.HelperLedger
import Drmtap.HelperClient
import Drmtap.HelperStream
import Drmtap.HelperSync
import Drmtap.Scanout
import Drmtap.Grab
import Drmtap.GrabLedger
import Drmtap.GrabHelper
import Drmtap.GrabBalance
import Drmtap.GrabOutcome
import Drmtap.Fast
import Drmtap.FastSlots
import Drmtap.FastLedger
import Drmtap.FastRuns
import Drmtap.MappedGrabs
import Drmtap.TrustBoundary
import Drmtap.Egl
import Drmtap.EglImport
import Drmtap.HashShader
import Drmtap.SkipUnchanged
import Drmtap.SkipHistory
import Drmtap.ImageCache
import Drmtap.OutputBuffer
import Drmtap.FailedGrabs
import Drmtap.Rotation
import Drmtap.Cursor
import Drmtap.Footprint
import Drmtap.GrabPlane
import Drmtap.CursorLatch
import Drmtap.CursorReply
import Drmtap.CursorHidden
import Drmtap.Isolation
import Drmtap.Session
import Drmtap.Refresh
import Drmtap.ToneCurve
import Drmtap.Displays
import Drmtap.DisplayCapacity
import Drmtap.Hotplug
import Drmtap.CardSelection
import Drmtap.RenderNodes
import Drmtap.RotationCache
import Drmtap.FastEviction
import Drmtap.InPlace
import Drmtap.FrameOwnership
import Drmtap.CursorAgreement
import Drmtap.PlaneAgreement
import Drmtap.FreshPixels
import Drmtap.GrabPixels
import Drmtap.HelperTurns
import Drmtap.RustWrapper
import Drmtap.RustFrames
import Drmtap.RustTap
import Drmtap.HelperStart
import Drmtap.HelperConfined
import Drmtap.HelperSpawn
import Drmtap.OldHelper
import Drmtap.DeviceList
