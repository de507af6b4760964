import NutContainer.Checksum.Division
import NutContainer.Contents
import NutContainer.Converter
import NutContainer.FrameCode.Scan
import NutContainer.Image.Pixels
import NutContainer.LogSettings
import NutContainer.Options.Text
import NutContainer.OrderingBuffer.Operation
import NutContainer.Recording.InRows
import NutContainer.Session.Call
import NutContainer.Varint.Words
import NutContainer.Version
import NutContainer.Proofs.ChecksumResidue
import NutContainer.Proofs.PacketCodec
import NutContainer.Proofs.FrameTableCodec
import NutContainer.Proofs.HeaderCodec
import NutContainer.Proofs.IndexCodec
import NutContainer.Proofs.BodyCodec
import NutContainer.Proofs.Draft
import NutContainer.Proofs.RecordingSteps
import NutContainer.Proofs.ReleaseOrder
import NutContainer.Proofs.SessionSteps
import NutContainer.Proofs.SessionRun
import NutContainer.Proofs.SessionOutput
import NutContainer.Proofs.ArrivalIndependence
import NutContainer.Proofs.Endings
import NutContainer.Proofs.SessionEndings
import NutContainer.Proofs.SessionHistory
import NutContainer.Proofs.SessionTurns
import NutContainer.Proofs.AmpleSink
import NutContainer.Proofs.SinkFailure
import NutContainer.Proofs.TakingSink
import NutContainer.Proofs.SteadyRecording
import NutContainer.Proofs.SteadySession
import NutContainer.Proofs.SessionGrounds
import NutContainer.Proofs.AdmissionGate
import NutContainer.Proofs.Bookkeeping
import NutContainer.Proofs.IndexPointer
import NutContainer.Proofs.WriterRuns
import NutContainer.Proofs.SyncpointSpacing
import NutContainer.Proofs.KeyframeIndex
import NutContainer.Proofs.Deliveries
import NutContainer.Proofs.PresentationOrder
import NutContainer.Proofs.SummaryCounts
import NutContainer.Proofs.PayloadIndependence
import NutContainer.Proofs.SyncpointContents
import NutContainer.Proofs.LatestTime
import NutContainer.Proofs.BitPolynomials
import NutContainer.Proofs.ChecksumDivision
import NutContainer.Proofs.BurstErrors
import NutContainer.Proofs.PacketStream
import NutContainer.Proofs.DescriptionChecks
import NutContainer.Proofs.HeaderPayloads
import NutContainer.Proofs.PixelLayouts
import NutContainer.Proofs.PackedPictures
import NutContainer.Proofs.PictureConversions
import NutContainer.Proofs.ClockChanges
import NutContainer.Proofs.PictureRows
import NutContainer.Proofs.FrameConversion
import NutContainer.Proofs.PriorityQueue
import NutContainer.Proofs.FrameSizes
import NutContainer.Proofs.ReleaseTest
import NutContainer.Proofs.VarintSpelling
import NutContainer.Proofs.FrameCodeRuns
import NutContainer.Proofs.LedgerRows
import NutContainer.Proofs.WriterTurns
import NutContainer.Proofs.WriterHistory
import NutContainer.Proofs.CheckedBooks
