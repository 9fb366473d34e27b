import UdtBoost.Arrival
import UdtBoost.FlowControl
import UdtBoost.Timers
import UdtBoost.DelayedAck
import UdtBoost.TimeWait
import UdtBoost.Handlers
import UdtBoost.WindowUpdate
import UdtBoost.Options
import UdtBoost.SendBlocks
import UdtBoost.RcvWindow
import UdtBoost.SendProgress
import UdtBoost.DupAcks
import UdtBoost.HeaderPrediction
import UdtBoost.EngineHelpers
import UdtBoost.HpNetwork
import UdtBoost.Reception
import UdtBoost.Refusals
import UdtBoost.SackRuns
import UdtBoost.RttEstimate
import UdtBoost.Mtu
import UdtBoost.ReplyBounds
import UdtBoost.Cwnd
import UdtBoost.FinCount
import UdtBoost.Handshake
import UdtBoost.ReasmQueue
import UdtBoost.Advertised
import UdtBoost.RoundTrip
import UdtBoost.Stream
import UdtBoost.Replies
import UdtBoost.Session
import UdtBoost.SharedInstance
import UdtBoost.PeriodicTimer
import UdtBoost.Unread
