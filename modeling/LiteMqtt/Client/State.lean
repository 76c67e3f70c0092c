import LiteMqtt.Codec.Packets
import LiteMqtt.Connection.Model
import LiteMqtt.General.OrderedMap
import LiteMqtt.General.Words

/-!
# What an `mqtt_client` holds

The fields of the client, the handlers and timer waits it has given away, the tasks it has
posted, and the calls its running code has yet to make. The log at the end is history: what
the client was asked, what it handed to its connection, and what it told the user.
-/

namespace LiteMqtt

/-- A `std::function` the user passed in one call. An empty one is not callable. -/
structure Callback where
  id : Nat
  callable : Bool
  deriving DecidableEq, Repr

/-- What a timer runs when its wait completes. The number is that of the `async_connect`
from which the wait descends. -/
inductive TimerHandler where
  | connectTimeout (attempt : Nat)
  | ping (attempt : Nat)
  | pingDeadline (attempt : Nat)
  | publishRetry (packetId : UInt16)
  | pubrecRetry (packetId : UInt16)
  deriving DecidableEq, Repr

/-- The handlers the client passes to its connection. -/
inductive Handler where
  | connect (attempt : Nat)
  | read (attempt : Nat)
  | connectWrite (attempt : Nat)
  /-- A QoS 0 publish, whose callback only its write handler holds. -/
  | publish0 (callback : Callback) (topic : Bytes)
  | publish (packetId : UInt16)
  | pubrel (packetId : UInt16)
  | subscribe (packetId : UInt16)
  | acknowledged
  | pingreq (attempt : Nat)
  | disconnect (onClosed : Bool)
  deriving DecidableEq, Repr

/-- Posted tasks, and the calls that running client code has yet to make. -/
inductive Work where
  | asyncPublishImpl (topic payload : Bytes) (qos : UInt8) (callback : Callback)
  | asyncSubscribeImpl (topic : Bytes) (qos : UInt8) (callback : Callback)
  | timer (handler : TimerHandler) (ec : ErrorCode)
  /-- A callback of the user is running. -/
  | user
  | handlePacket (attempt : Nat) (data : Bytes)
  | startReadLoop (attempt : Nat)
  /-- The end of `handle_publish`, after `on_message_cb_`. -/
  | acknowledge (qos : UInt8) (packetId : UInt16)
  | notifyClosedOnce
  /-- The loops of `notify_closed_once`. The iterator is at `packetId`. -/
  | publishEach (packetId : UInt16)
  | publishCancel (packetId : UInt16)
  | publishClear
  | subscribeEach (packetId : UInt16)
  | subscribeFilters (packetId : UInt16) (callback : Callback) (rest : List (Bytes × UInt8))
  | subscribeClear
  | notifyClose
  | finishPublishFailure (packetId : UInt16)
  /-- The loop of `handle_suback` over the topics with their return codes. -/
  | subackEach (callback : Callback) (rest : List (Bytes × UInt8))
  /-- The loop of a SUBSCRIBE's write handler after a success. -/
  | subscribeWritten (packetId : UInt16) (callback : Callback) (rest : List (Bytes × UInt8))
  | reportConnect (success : Bool) (returnCode : UInt8)
  | reportPublish (callback : Callback) (topic : Bytes) (qos : UInt8)
  | reportSubscribe (callback : Callback) (topic : Bytes)
  | onClosed
  deriving DecidableEq, Repr

structure PendingPublish where
  topic : Bytes
  qos : UInt8
  payload : Bytes
  callback : Callback
  timer : Nat
  attempts : Nat
  deriving DecidableEq, Repr

structure PendingPubrec where
  timer : Nat
  attempts : Nat
  deriving DecidableEq, Repr

structure PendingSubscribe where
  filters : List (Bytes × UInt8)
  callback : Callback
  deriving DecidableEq, Repr

/-- An outstanding `async_wait`. Times are milliseconds. -/
structure Wait where
  timer : Nat
  deadline : Nat
  handler : TimerHandler
  deriving DecidableEq, Repr

inductive Event where
  | connectCalled
  | publishCalled (callback : Callback)
  | subscribeCalled (callback : Callback)
  /-- `async_publish_impl` took a publish on. A QoS 0 publish has packet id 0. -/
  | accepted (packetId : UInt16) (qos : UInt8) (callback : Callback)
  | subscribed (packetId : UInt16) (callback : Callback)
  | handed (packet : Packet)
  /-- An inbound packet is handled. `codes` are a CONNACK's or SUBACK's return codes. -/
  | received (pt : PacketType) (packetId : UInt16) (codes : List UInt8)
  | published (callback : Callback) (success : Bool) (topic : Bytes) (qos : UInt8) (packetId : UInt16)
  | subscribeReport (callback : Callback) (success : Bool) (topic : Bytes) (qosGranted : UInt8)
  | connectReport (success : Bool) (returnCode : UInt8)
  | message (topic payload : Bytes) (qos : UInt8) (packetId : UInt16)
  /-- `connection::close` closed an open connection. -/
  | ended
  | closeReport
  | disconnected
  deriving DecidableEq, Repr

/-- `undefined` is set when the source reads freed memory; nothing is said of what follows.
The log is newest first. -/
structure Sys where
  net : Net Handler Work := {}
  clientId : Bytes := [0x6c, 0x69, 0x74, 0x65, 0x6d, 0x71, 0x74, 0x74, 0x5f, 0x63, 0x70, 0x70]
  keepAliveSeconds : UInt16 := 60
  cleanSession : Bool := true
  username : Bytes := []
  password : Bytes := []
  nextPacketId : UInt16 := 1
  onConnectCb : Bool := false
  onMessageCb : Bool := false
  onCloseCb : Bool := false
  pendingSubscribes : OrderedMap UInt16 PendingSubscribe := .empty
  pendingPublishes : OrderedMap UInt16 PendingPublish := .empty
  pendingPubrecs : OrderedMap UInt16 PendingPubrec := .empty
  connectTimeoutMs : Nat := 10000
  closed : Bool := false
  waits : List Wait := []
  nextTimer : Nat := 2
  now : Nat := 0
  attempts : Nat := 0
  nextCallback : Nat := 0
  log : List Event := []
  undefined : Bool := false

end LiteMqtt
