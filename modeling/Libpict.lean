import Libpict.KnownProperties
import Libpict.ApiCalls
import Libpict.ObjectExchange
import Libpict.SocketSafety
import Libpict.UsbSession
import Libpict.Interleavings
import Libpict.UsbDevices
import Libpict.EvprocRun
import Libpict.CaptureSequence
import Libpict.Sessions
import Libpict.UsbSafety
import Libpict.UsbLifecycle
import Libpict.Primitives
import Libpict.ReportError
import Libpict.Commands
import Libpict.BindAnswers
import Libpict.Overlay
import Libpict.Segmentation
import Libpict.InitRequest
import Libpict.OutOfMemory
import Libpict.GenericOutcome
import Libpict.HandleLists
import Libpict.EosPasses
import Libpict.Replies
import Libpict.Serial
import Libpict.FailureTraffic
import Libpict.Threads
import Libpict.LockBalance
import Libpict.Download
import Libpict.DeviceInfoUse
import Libpict.ValueWalk
import Libpict.ValidEntries
import Libpict.Firmware
import Libpict.Truncation
import Libpict.EvprocRoundTrip
import Libpict.EvprocDecode
import Libpict.StringRoundTrip
import Libpict.DatasetSafety
import Libpict.DeviceInfo
import Libpict.ObjectInfo
import Libpict.PropDataset
import Libpict.WaitForResponse
import Libpict.GenericProperty
import Libpict.SerialisedJson
import Libpict.Datasets
import Libpict.EosRecords
import Libpict.Base.Reader
import Libpict.Request
import Libpict.Retransmission
import Libpict.BulkReassembly
import Libpict.Exposure
import Libpict.PacketReassembly
import Libpict.LoopsEnd
import Libpict.Framings
import Libpict.BufferBounds
