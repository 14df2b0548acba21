import WebrtcGccNs3.Lib.Machine
import WebrtcGccNs3.Lib.BucketMap
import WebrtcGccNs3.Lib.TimedFifo
import WebrtcGccNs3.Lib.Stream
import WebrtcGccNs3.Lib.Records
import WebrtcGccNs3.Lib.Rounding
import WebrtcGccNs3.Lib.StepFunction
import WebrtcGccNs3.Lib.Thinning
import WebrtcGccNs3.Lib.FileTree
import WebrtcGccNs3.Lib.SpinLock
import WebrtcGccNs3.Lib.MapSum
import WebrtcGccNs3.Lib.Places
import WebrtcGccNs3.Lib.Budget
import WebrtcGccNs3.Lib.Rotation
import WebrtcGccNs3.Lib.Raster
import WebrtcGccNs3.Sim.Timestamp
import WebrtcGccNs3.Sim.SequenceRunner
import WebrtcGccNs3.Sim.TaskQueue
import WebrtcGccNs3.Sim.ProcessThread
import WebrtcGccNs3.Sim.TaskOrder
import WebrtcGccNs3.Sim.ModulePlaces
import WebrtcGccNs3.Sim.ModuleRegistry
import WebrtcGccNs3.Sim.ModuleCalls
import WebrtcGccNs3.Sim.Thread
import WebrtcGccNs3.Sim.Controller
import WebrtcGccNs3.Sim.Runner
import WebrtcGccNs3.Sim.CallStack
import WebrtcGccNs3.Sim.Reentry
import WebrtcGccNs3.Sim.RunReadyRunners
import WebrtcGccNs3.Sim.RunnerTimes
import WebrtcGccNs3.Sim.Wakeup
import WebrtcGccNs3.Sim.RunnerRun
import WebrtcGccNs3.Sim.NextRunTime
import WebrtcGccNs3.Sim.ThreadDelay
import WebrtcGccNs3.Sim.OnTaskTimer
import WebrtcGccNs3.Sim.Attachments
import WebrtcGccNs3.Wire.Tag
import WebrtcGccNs3.Wire.Trace
import WebrtcGccNs3.Wire.Endpoint
import WebrtcGccNs3.Wire.Sender
import WebrtcGccNs3.Wire.Receiver
import WebrtcGccNs3.Wire.Time
import WebrtcGccNs3.Wire.Reception
import WebrtcGccNs3.Wire.Arrivals
import WebrtcGccNs3.Wire.OneWayDelay
import WebrtcGccNs3.Wire.LossRegisters
import WebrtcGccNs3.Wire.LossWrap
import WebrtcGccNs3.Wire.BandwidthChanger
import WebrtcGccNs3.Wire.BandwidthSchedule
import WebrtcGccNs3.Wire.Conservation
import WebrtcGccNs3.Wire.Delivery
import WebrtcGccNs3.Wire.Clock
import WebrtcGccNs3.Wire.Throttle
import WebrtcGccNs3.Wire.MakePath
import WebrtcGccNs3.Wire.Locking
import WebrtcGccNs3.Wire.LockRefinement
import WebrtcGccNs3.Wire.Session
import WebrtcGccNs3.Wire.Report
import WebrtcGccNs3.Video.FrameMatcher
import WebrtcGccNs3.Video.BestMatch
import WebrtcGccNs3.Video.QualityStats
import WebrtcGccNs3.Video.RenderedFrames
import WebrtcGccNs3.Video.FakeEncoder
import WebrtcGccNs3.Video.FrameBudget
import WebrtcGccNs3.Video.TemporalLayers
import WebrtcGccNs3.Video.EncodedImages
import WebrtcGccNs3.Video.FakeVp8
import WebrtcGccNs3.Video.FakeH264
import WebrtcGccNs3.Video.YuvFiles
import WebrtcGccNs3.Video.ScrollingImages
import WebrtcGccNs3.Video.Canvas
import WebrtcGccNs3.Video.Squares
import WebrtcGccNs3.Video.Slides
import WebrtcGccNs3.Video.Capturer
import WebrtcGccNs3.Video.EncoderSettings
import WebrtcGccNs3.Call.StreamPair
import WebrtcGccNs3.Call.Ssrcs
import WebrtcGccNs3.Call.Agreement
import WebrtcGccNs3.Call.SessionManager
