import ServoFleet.MotorCorruption
import ServoFleet.ConfigPair
import ServoFleet.ConfigScalar
import ServoFleet.FeedbackCompleteness
import ServoFleet.SendCommands
import ServoFleet.PvtFeedback
import ServoFleet.DistinctCommands
import ServoFleet.EchoedCommands
import ServoFleet.PvtControlSafety
import ServoFleet.PvtPush
import ServoFleet.RejectedPackets
import ServoFleet.ChannelSafety
import ServoFleet.SendWakeup
import ServoFleet.FailedSends
import ServoFleet.FeedbackPadding
import ServoFleet.FieldLens
import ServoFleet.StatusScale
import ServoFleet.TokenBucket
import ServoFleet.AccessBounds
import ServoFleet.RingQueueFifo
import ServoFleet.RoutingTable
import ServoFleet.UuidAssembly
import ServoFleet.Udp2canAgreement
import ServoFleet.SentPayloads
import ServoFleet.ChannelShutdown
import ServoFleet.LimiterTurns
import ServoFleet.WireRate
import ServoFleet.WorkerDelivery
import ServoFleet.PvtSessionSafety
import ServoFleet.PvtLoopEnds
import ServoFleet.RuntimeOwnership
import ServoFleet.ReceivedFeedback
import ServoFleet.PvtOnFeedback
import ServoFleet.SentFrames
import ServoFleet.FleetDelivery
