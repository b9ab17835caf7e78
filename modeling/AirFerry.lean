import AirFerry.Proof.Immutability
import AirFerry.Proof.ProgressLaws
import AirFerry.Proof.CacheBudget
import AirFerry.Proof.Buffering
import AirFerry.Proof.Assembly
import AirFerry.Proof.Finished
import AirFerry.Proof.Accounting
import AirFerry.Proof.FrameCodec
import AirFerry.Proof.DescriptorCodec
import AirFerry.Proof.SessionIds
import AirFerry.Proof.Integrity
import AirFerry.Proof.IgnoredSessions
import AirFerry.Proof.Receivable
import AirFerry.Proof.Segmentation
import AirFerry.Proof.EndToEnd
import AirFerry.Proof.Cadence
import AirFerry.Proof.StatusWord
import AirFerry.Proof.MismatchStreak
import AirFerry.Proof.Tiling
import AirFerry.Proof.CallOrder
import AirFerry.Proof.Checkpoint
import AirFerry.Proof.Streaming
import AirFerry.Proof.QrTolerance
