import LiteMqtt.Client.Acceptance
import LiteMqtt.Client.Accounts
import LiteMqtt.Client.Acknowledging
import LiteMqtt.Client.Allocation
import LiteMqtt.Client.Answers
import LiteMqtt.Client.Clearing
import LiteMqtt.Client.Clocks
import LiteMqtt.Client.Credentials
import LiteMqtt.Client.Delivery
import LiteMqtt.Client.Driving
import LiteMqtt.Client.EndToEnd
import LiteMqtt.Client.Ending
import LiteMqtt.Client.Exchange
import LiteMqtt.Client.ExchangeLog
import LiteMqtt.Client.FirstFrame
import LiteMqtt.Client.Flushing
import LiteMqtt.Client.Forgetting
import LiteMqtt.Client.GivingUp
import LiteMqtt.Client.Identifiers
import LiteMqtt.Client.Inbound
import LiteMqtt.Client.Isolation
import LiteMqtt.Client.Judging
import LiteMqtt.Client.KeepAlive
import LiteMqtt.Client.Looping
import LiteMqtt.Client.Meaning
import LiteMqtt.Client.Model
import LiteMqtt.Client.OnTheWire
import LiteMqtt.Client.Openness
import LiteMqtt.Client.Ordering
import LiteMqtt.Client.Orphans
import LiteMqtt.Client.Outcomes
import LiteMqtt.Client.Outline
import LiteMqtt.Client.Parsing
import LiteMqtt.Client.Phases
import LiteMqtt.Client.Posting
import LiteMqtt.Client.Publishing
import LiteMqtt.Client.Pubrels
import LiteMqtt.Client.Receiving
import LiteMqtt.Client.Releasing
import LiteMqtt.Client.Reports
import LiteMqtt.Client.Retransmission
import LiteMqtt.Client.Rotation
import LiteMqtt.Client.Shutdown
import LiteMqtt.Client.State
import LiteMqtt.Client.Steps
import LiteMqtt.Client.Subacks
import LiteMqtt.Client.Termination
import LiteMqtt.Client.Timeouts
import LiteMqtt.Client.Timers
import LiteMqtt.Client.Unwinding
import LiteMqtt.Client.Verdicts
import LiteMqtt.Codec.Filters
import LiteMqtt.Codec.Packets
import LiteMqtt.Codec.Reencoding
import LiteMqtt.Codec.RemainingLength
import LiteMqtt.Codec.RoundTrip
import LiteMqtt.Connection.Arrivals
import LiteMqtt.Connection.Attempts
import LiteMqtt.Connection.Bodies
import LiteMqtt.Connection.Closing
import LiteMqtt.Connection.Deliveries
import LiteMqtt.Connection.Framing
import LiteMqtt.Connection.Greeting
import LiteMqtt.Connection.Guarantees
import LiteMqtt.Connection.LengthBytes
import LiteMqtt.Connection.Model
import LiteMqtt.Connection.Outstanding
import LiteMqtt.Connection.PacketStream
import LiteMqtt.Connection.Progress
import LiteMqtt.Connection.ReadLoop
import LiteMqtt.Connection.Transmission
import LiteMqtt.Connection.WriteAccounting
import LiteMqtt.Connection.WriteQueue
import LiteMqtt.Connection.Writes
import LiteMqtt.General.Calls
import LiteMqtt.General.Lists
import LiteMqtt.General.LockOrder
import LiteMqtt.General.OrderedMap
import LiteMqtt.General.Past
import LiteMqtt.General.PrefixCode
import LiteMqtt.General.Ranking
import LiteMqtt.General.Runs
import LiteMqtt.General.Segments
import LiteMqtt.General.Traced
import LiteMqtt.General.Words
import LiteMqtt.Helper.Backoff
import LiteMqtt.Helper.Budget
import LiteMqtt.Helper.Following
import LiteMqtt.Helper.Locking
import LiteMqtt.Helper.LogRouting
import LiteMqtt.Helper.Rearming
import LiteMqtt.Helper.Rig
import LiteMqtt.Helper.Stopping
import LiteMqtt.Helper.Subscribers
import LiteMqtt.Helper.Subscriptions
import LiteMqtt.Helper.Threads
import LiteMqtt.Log.Delivery
import LiteMqtt.Log.Model
