import LiteMqtt.Client.State

/-!
# The functions of `mqtt_client`

Each function runs up to the first call that may re-enter the client, such as a callback of
the user or `notify_closed_once`, and leaves what follows on the stack of the io thread.
-/

namespace LiteMqtt
namespace Sys

def record (s : Sys) (e : Event) : Sys := { s with log := e :: s.log }

def push (s : Sys) (ks : List Work) : Sys := { s with net := s.net.push (ks.map .own) }

def post (s : Sys) (k : Work) : Sys := { s with net := s.net.post (.own k) }

/-- The source goes on with freed memory here. -/
def crash (s : Sys) : Sys := { s with undefined := true }

/-- `conn_->async_write_packet(pkt.serialize(), handler)`. -/
def write (s : Sys) (packet : Packet) (handler : Handler) : Sys :=
  { s with net := s.net.asyncWritePacket packet.serialize (some handler) }.record (.handed packet)

/-- `conn_->close()`. -/
def closeConnection (s : Sys) : Sys :=
  if s.net.closed then s else { s with net := s.net.close }.record .ended

/-! ### Timers -/

def pingTimer : Nat := 0

def connectTimer : Nat := 1

/-- The waits of a cancelled timer complete with `operation_aborted`. One whose completion is
already queued is not revoked. -/
def cancelTimer (s : Sys) (timer : Nat) : Sys :=
  { s with
    waits := s.waits.filter fun w => w.timer != timer
    net := { s.net with
      ready := s.net.ready ++ (s.waits.filter fun w => w.timer == timer).map fun w =>
        .own (.timer w.handler (some .operationAborted)) } }

/-- `expires_after`, which cancels, and `async_wait`. -/
def armTimer (s : Sys) (timer after : Nat) (handler : TimerHandler) : Sys :=
  let s := s.cancelTimer timer
  { s with waits := s.waits ++ [{ timer, deadline := s.now + after, handler }] }

def cancelTimers (s : Sys) (timers : List Nat) : Sys := timers.foldl cancelTimer s

def cancelPingTimer (s : Sys) : Sys := s.cancelTimer pingTimer

def schedulePingreq (s : Sys) (attempt : Nat) : Sys :=
  if s.keepAliveSeconds = 0 then s
  else s.armTimer pingTimer (s.keepAliveSeconds.toNat * 1000) (.ping attempt)

def armPublishRetryTimer (s : Sys) (packetId : UInt16) : Sys :=
  match s.pendingPublishes.find? packetId with
  | none => s
  | some entry => s.armTimer entry.timer 5000 (.publishRetry packetId)

def armPubrecRetryTimer (s : Sys) (packetId : UInt16) : Sys :=
  match s.pendingPubrecs.find? packetId with
  | none => s
  | some entry => s.armTimer entry.timer 5000 (.pubrecRetry packetId)

def cancelPublishRetryTimer (s : Sys) (packetId : UInt16) : Sys :=
  match s.pendingPublishes.find? packetId with
  | none => s
  | some entry => s.cancelTimer entry.timer

/-! ### Callbacks of the user -/

def tellPublish (s : Sys) (callback : Callback) (success : Bool) (topic : Bytes) (qos : UInt8)
    (packetId : UInt16) : Sys :=
  if callback.callable then (s.record (.published callback success topic qos packetId)).push [.user] else s

def tellSubscribe (s : Sys) (callback : Callback) (success : Bool) (topic : Bytes)
    (qosGranted : UInt8) : Sys :=
  if callback.callable then (s.record (.subscribeReport callback success topic qosGranted)).push [.user]
  else s

def reportConnect (s : Sys) (success : Bool) (returnCode : UInt8) : Sys :=
  if s.onConnectCb then (s.record (.connectReport success returnCode)).push [.user] else s

/-! ### Connecting -/

def asyncConnect (s : Sys) (callback : Bool) : Sys :=
  let s := { s with
    onConnectCb := s.onConnectCb || callback, closed := false, attempts := s.attempts + 1 }.record .connectCalled
  let s := if s.connectTimeoutMs > 0 then
    s.armTimer connectTimer s.connectTimeoutMs (.connectTimeout s.attempts) else s
  { s with net := s.net.asyncConnect (.connect s.attempts) }

def sendConnectPacket (s : Sys) (attempt : Nat) : Sys :=
  s.write (.connect {
    clientId := s.clientId, keepAliveSeconds := s.keepAliveSeconds, cleanSession := s.cleanSession
    username := s.username, password := s.password }) (.connectWrite attempt)

/-- The completion of `conn_->async_connect`. -/
def onConnect (s : Sys) (attempt : Nat) (ec : ErrorCode) : Sys :=
  if s.closed then s else if ec.isSome then s.reportConnect false 255 else s.sendConnectPacket attempt

def handleConnectTimeout (s : Sys) : Sys :=
  if s.closed then s
  else ({ s with closed := true }.push [.reportConnect false 255]).closeConnection

def startReadLoop (s : Sys) (attempt : Nat) : Sys :=
  { s with net := s.net.asyncReadPacket (.read attempt) }

/-! ### Packet ids -/

/-- Packet id 0 is reserved and skipped. -/
def idAfter (packetId : UInt16) : UInt16 := if packetId + 1 = 0 then packetId + 1 + 1 else packetId + 1

/-- The loop of `acquire_packet_id`: the last id tried, and whether it is free. -/
def acquireLoop (taken : UInt16 → Bool) (start : UInt16) : Nat → UInt16 → UInt16 × Bool
  | 0, next => (next, false)
  | rounds + 1, next =>
      if idAfter next = start then (idAfter next, false)
      else if taken (idAfter next) then acquireLoop taken start rounds (idAfter next)
      else (idAfter next, true)

def takenId (s : Sys) (packetId : UInt16) : Bool :=
  s.pendingPublishes.contains packetId || s.pendingSubscribes.contains packetId ||
    s.pendingPubrecs.contains packetId

/-- Gives 0 when no id is free. The `notify_closed_once` of that case is left to the callers,
which push it above what they do next. -/
def acquirePacketId (s : Sys) : Sys × UInt16 :=
  match acquireLoop s.takenId s.nextPacketId 65536 s.nextPacketId with
  | (next, free) => ({ s with nextPacketId := next }, if free then next else 0)

/-! ### Publishing -/

def asyncPublish (s : Sys) (topic payload : Bytes) (qos : UInt8) (callable : Bool) : Sys :=
  let callback : Callback := { id := s.nextCallback, callable }
  ({ s with nextCallback := s.nextCallback + 1 }.record (.publishCalled callback)).post
    (.asyncPublishImpl topic payload qos callback)

def sendPublishEntry (s : Sys) (packetId : UInt16) : Sys :=
  match s.pendingPublishes.find? packetId with
  | none => s
  | some entry =>
      (s.armPublishRetryTimer packetId).write (.publish {
        topicName := entry.topic, payload := entry.payload, qos := entry.qos, packetId
        dup := decide (entry.attempts > 1) }) (.publish packetId)

def kMaxPendingPublishes : Nat := 1000

def insertPublish (s : Sys) (packetId : UInt16) (topic payload : Bytes) (qos : UInt8)
    (callback : Callback) : Sys :=
  { s with
    nextTimer := s.nextTimer + 1
    pendingPublishes := s.pendingPublishes.insert packetId
      { topic, qos, payload, callback, timer := s.nextTimer, attempts := 1 } }.record
    (.accepted packetId qos callback)

def asyncPublishImpl (s : Sys) (topic payload : Bytes) (qos : UInt8) (callback : Callback) : Sys :=
  if qos > 2 then s.tellPublish callback false topic qos 0
  else if s.closed then s.tellPublish callback false topic qos 0
  else if s.net.state != .connected then s.tellPublish callback false topic qos 0
  else if qos = 0 then
    (s.record (.accepted 0 0 callback)).write (.publish { topicName := topic, payload })
      (.publish0 callback topic)
  else
    match s.acquirePacketId with
    | (s, packetId) =>
        if packetId = 0 then s.push [.notifyClosedOnce, .reportPublish callback topic qos]
        else if s.pendingPublishes.size ≥ kMaxPendingPublishes then
          s.tellPublish callback false topic qos 0
        else (s.insertPublish packetId topic payload qos callback).sendPublishEntry packetId

/-! ### Subscribing -/

def asyncSubscribe (s : Sys) (topic : Bytes) (qos : UInt8) (callable : Bool) : Sys :=
  let callback : Callback := { id := s.nextCallback, callable }
  ({ s with nextCallback := s.nextCallback + 1 }.record (.subscribeCalled callback)).post
    (.asyncSubscribeImpl topic qos callback)

def insertSubscribe (s : Sys) (packetId : UInt16) (filters : List (Bytes × UInt8))
    (callback : Callback) : Sys :=
  { s with pendingSubscribes := s.pendingSubscribes.insert packetId { filters, callback } }.record
    (.subscribed packetId callback)

def asyncSubscribeImpl (s : Sys) (topic : Bytes) (qos : UInt8) (callback : Callback) : Sys :=
  if s.closed then s.tellSubscribe callback false topic 0
  else if qos > 2 then s.tellSubscribe callback false topic 0
  else
    match s.acquirePacketId with
    | (s, packetId) =>
        if packetId = 0 then s.push [.notifyClosedOnce, .reportSubscribe callback topic]
        else
          (s.insertSubscribe packetId [(topic, qos)] callback).write
            (.subscribe { packetId, topicFilters := [(topic, qos)] }) (.subscribe packetId)

/-- The write handler of a SUBSCRIBE. After an error it erases the entry and then iterates
over the filters in it. -/
def onSubscribeWritten (s : Sys) (packetId : UInt16) (ec : ErrorCode) : Sys :=
  match s.pendingSubscribes.find? packetId with
  | none => s
  | some entry =>
      if ec.isNone then
        if entry.callback.callable then s.push [.subscribeWritten packetId entry.callback entry.filters] else s
      else
        let s := { s with pendingSubscribes := s.pendingSubscribes.erase packetId }
        if entry.callback.callable then s.crash else s

/-- `filters` refers into the map, where a callback may have erased the entry. -/
def subscribeWritten (s : Sys) (packetId : UInt16) (callback : Callback) : List (Bytes × UInt8) → Sys
  | [] => s
  | (topic, qos) :: rest =>
      if s.pendingSubscribes.contains packetId then
        (s.push [.subscribeWritten packetId callback rest]).tellSubscribe callback true topic qos
      else s.crash

/-! ### Disconnecting -/

def asyncDisconnect (s : Sys) (onClosed : Bool) : Sys :=
  s.cancelPingTimer.write .disconnect (.disconnect onClosed)

def close (s : Sys) : Sys := s.closeConnection

def notifyClosedOnce (s : Sys) : Sys :=
  if s.closed then s
  else
    let s := ({ s with closed := true }.cancelPingTimer).cancelTimer connectTimer
    match s.pendingPublishes.first? with
    | some packetId => s.push [.publishEach packetId]
    | none => s.push [.publishClear]

/-- The iterator is at `packetId`, which holds an entry unless a callback erased it. -/
def publishEach (s : Sys) (packetId : UInt16) : Sys :=
  match s.pendingPublishes.find? packetId with
  | none => s.crash
  | some entry =>
      (s.push [.publishCancel packetId]).tellPublish entry.callback false entry.topic entry.qos packetId

def publishCancel (s : Sys) (packetId : UInt16) : Sys :=
  match s.pendingPublishes.find? packetId with
  | none => s.crash
  | some entry =>
      match s.pendingPublishes.next? packetId with
      | some next => (s.cancelTimer entry.timer).push [.publishEach next]
      | none => (s.cancelTimer entry.timer).push [.publishClear]

/-- Both maps are cleared, and the loop over the subscriptions begins. -/
def publishClear (s : Sys) : Sys :=
  let s := s.cancelTimers (s.pendingPublishes.entries.map fun e => e.2.timer)
  let s := s.cancelTimers (s.pendingPubrecs.entries.map fun e => e.2.timer)
  let s := { s with pendingPublishes := .empty, pendingPubrecs := .empty }
  match s.pendingSubscribes.first? with
  | some packetId => s.push [.subscribeEach packetId]
  | none => s.push [.subscribeClear]

def subscribeEach (s : Sys) (packetId : UInt16) : Sys :=
  match s.pendingSubscribes.find? packetId with
  | none => s.crash
  | some entry =>
      s.push [.subscribeFilters packetId entry.callback
        (if entry.callback.callable then entry.filters else [])]

/-- Both the filters and the iterator refer to the entry of `packetId`. -/
def subscribeFilters (s : Sys) (packetId : UInt16) (callback : Callback) (rest : List (Bytes × UInt8)) :
    Sys :=
  if s.pendingSubscribes.contains packetId then
    match rest with
    | (topic, _) :: rest =>
        (s.push [.subscribeFilters packetId callback rest]).tellSubscribe callback false topic 0
    | [] =>
        match s.pendingSubscribes.next? packetId with
        | some next => s.push [.subscribeEach next]
        | none => s.push [.subscribeClear]
  else s.crash

def subscribeClear (s : Sys) : Sys :=
  ({ s with pendingSubscribes := .empty }.push [.notifyClose]).closeConnection

def notifyClose (s : Sys) : Sys := if s.onCloseCb then (s.record .closeReport).push [.user] else s

/-! ### Retransmission -/

def finishPublishFailure (s : Sys) (packetId : UInt16) : Sys :=
  match s.pendingPublishes.find? packetId with
  | none => s.push [.notifyClosedOnce]
  | some entry =>
      let s := s.cancelPublishRetryTimer packetId
      let s := { s with pendingPublishes := s.pendingPublishes.erase packetId }
      (s.push [.notifyClosedOnce]).tellPublish entry.callback false entry.topic entry.qos packetId

def sendPubrel (s : Sys) (packetId : UInt16) : Sys :=
  (s.armPubrecRetryTimer packetId).write (.pubrel packetId) (.pubrel packetId)

def onPublishRetry (s : Sys) (packetId : UInt16) : Sys :=
  match s.pendingPublishes.find? packetId with
  | none => s
  | some entry =>
      if entry.attempts ≥ 3 then s.push [.finishPublishFailure packetId]
      else
        let entry := { entry with attempts := entry.attempts + 1 }
        { s with pendingPublishes := s.pendingPublishes.insert packetId entry }.sendPublishEntry packetId

def onPubrecRetry (s : Sys) (packetId : UInt16) : Sys :=
  match s.pendingPubrecs.find? packetId with
  | none => s
  | some entry =>
      if entry.attempts ≥ 3 then (s.cancelTimer entry.timer).push [.notifyClosedOnce]
      else
        let entry := { entry with attempts := entry.attempts + 1 }
        { s with pendingPubrecs := s.pendingPubrecs.insert packetId entry }.sendPubrel packetId

/-- The entry of a PUBREL is dropped with its timer. -/
def erasePubrec (s : Sys) (packetId : UInt16) : Sys :=
  match s.pendingPubrecs.find? packetId with
  | none => s
  | some entry => { s.cancelTimer entry.timer with pendingPubrecs := s.pendingPubrecs.erase packetId }

def onPubrelWritten (s : Sys) (packetId : UInt16) (ec : ErrorCode) : Sys :=
  if ec.isSome then s.erasePubrec packetId else s.armPubrecRetryTimer packetId

/-! ### Inbound packets -/

def handleConnack (s : Sys) (data : Bytes) : Sys :=
  let s := s.cancelTimer connectTimer
  let pkt := ConnackPacket.parse data
  let s := s.record (.received .connack 0 [pkt.returnCode])
  if pkt.returnCode = 0 then
    { s with net := s.net.markConnected, closed := false }.push [.reportConnect true 0]
  else ({ s with closed := true }.push [.reportConnect false pkt.returnCode]).closeConnection

def handlePublish (s : Sys) (data : Bytes) : Sys :=
  let pkt := PublishPacket.parse data
  if pkt.qos > 2 then s.push [.notifyClosedOnce]
  else
    let messageId := if pkt.qos = 0 then 0 else pkt.packetId
    let s := s.push [.acknowledge pkt.qos pkt.packetId]
    if s.onMessageCb then
      (s.record (.message pkt.topicName pkt.payload pkt.qos messageId)).push [.user]
    else s

def acknowledge (s : Sys) (qos : UInt8) (packetId : UInt16) : Sys :=
  if qos = 1 then s.write (.puback packetId) .acknowledged
  else if qos = 2 then s.write (.pubrec packetId) .acknowledged
  else s

def handleSuback (s : Sys) (data : Bytes) : Sys :=
  let pkt := SubackPacket.parse data
  let s := s.record (.received .suback pkt.packetId pkt.returnCodes)
  match s.pendingSubscribes.find? pkt.packetId with
  | none => s
  | some entry =>
      let s := { s with pendingSubscribes := s.pendingSubscribes.erase pkt.packetId }
      if !entry.callback.callable then s
      else if pkt.returnCodes.length < entry.filters.length then s.push [.notifyClosedOnce]
      else s.push [.subackEach entry.callback ((entry.filters.map Prod.fst).zip pkt.returnCodes)]

def subackEach (s : Sys) (callback : Callback) : List (Bytes × UInt8) → Sys
  | [] => s
  | (topic, rc) :: rest =>
      let success := rc != 0x80
      (s.push [.subackEach callback rest]).tellSubscribe callback success topic (if success then rc else 0)

/-- `finish_publish_success`, whose body `handle_puback` and `handle_pubcomp` repeat. -/
def finishPublishSuccess (s : Sys) (packetId : UInt16) : Sys :=
  match s.pendingPublishes.find? packetId with
  | none => s
  | some entry =>
      let s := s.cancelPublishRetryTimer packetId
      let s := { s with pendingPublishes := s.pendingPublishes.erase packetId }
      s.tellPublish entry.callback true entry.topic entry.qos packetId

def handlePuback (s : Sys) (data : Bytes) : Sys :=
  let pkt := PubackPacket.parse data
  (s.record (.received .puback pkt.packetId [])).finishPublishSuccess pkt.packetId

/-- A new entry replaces an earlier one, whose timer is destroyed with it. -/
def insertPubrec (s : Sys) (packetId : UInt16) : Sys :=
  let s := match s.pendingPubrecs.find? packetId with
    | none => s
    | some entry => s.cancelTimer entry.timer
  { s with
    nextTimer := s.nextTimer + 1
    pendingPubrecs := s.pendingPubrecs.insert packetId { timer := s.nextTimer, attempts := 0 } }

def handlePubrec (s : Sys) (data : Bytes) : Sys :=
  let pkt := PubrecPacket.parse data
  let s := s.record (.received .pubrec pkt.packetId [])
  if s.pendingPublishes.contains pkt.packetId then
    ((s.cancelPublishRetryTimer pkt.packetId).insertPubrec pkt.packetId).sendPubrel pkt.packetId
  else s

def handlePubrel (s : Sys) (data : Bytes) : Sys :=
  let pkt := PubrelPacket.parse data
  s.write (.pubcomp pkt.packetId) .acknowledged

def handlePubcomp (s : Sys) (data : Bytes) : Sys :=
  let pkt := PubcompPacket.parse data
  ((s.record (.received .pubcomp pkt.packetId [])).erasePubrec pkt.packetId).finishPublishSuccess pkt.packetId

def handlePacket (s : Sys) (attempt : Nat) (data : Bytes) : Sys :=
  match data with
  | [] => s
  | byte :: _ =>
      match PacketType.ofUint8 (byte >>> 4) with
      | .connack => s.handleConnack data
      | .publish => s.handlePublish data
      | .suback => s.handleSuback data
      | .puback => s.handlePuback data
      | .pubrec => s.handlePubrec data
      | .pubrel => s.handlePubrel data
      | .pubcomp => s.handlePubcomp data
      | .pingresp => s.cancelPingTimer.schedulePingreq attempt
      | _ => s

/-! ### Completions -/

def onTimer (s : Sys) (handler : TimerHandler) (ec : ErrorCode) : Sys :=
  if ec.isSome then s
  else
    match handler with
    | .connectTimeout _ => s.handleConnectTimeout
    | .ping attempt => s.write .pingreq (.pingreq attempt)
    | .pingDeadline _ => s.push [.notifyClosedOnce]
    | .publishRetry packetId => s.onPublishRetry packetId
    | .pubrecRetry packetId => s.onPubrecRetry packetId

def onRead (s : Sys) (attempt : Nat) (ec : ErrorCode) (data : Bytes) : Sys :=
  if ec.isSome then s.push [.notifyClosedOnce]
  else s.push [.handlePacket attempt data, .startReadLoop attempt]

def onPingreqWritten (s : Sys) (attempt : Nat) (ec : ErrorCode) : Sys :=
  if ec.isSome then s.push [.notifyClosedOnce]
  else s.armTimer pingTimer (s.keepAliveSeconds.toNat / 2 * 1000) (.pingDeadline attempt)

def onConnectWritten (s : Sys) (attempt : Nat) (ec : ErrorCode) : Sys :=
  if ec.isSome then s.push [.notifyClosedOnce]
  else (s.schedulePingreq attempt).startReadLoop attempt

def onWritten (s : Sys) (handler : Handler) (ec : ErrorCode) : Sys :=
  match handler with
  | .connectWrite attempt => s.onConnectWritten attempt ec
  | .publish0 callback topic => s.tellPublish callback ec.isNone topic 0 0
  | .publish packetId =>
      if ec.isSome then s.push [.finishPublishFailure packetId] else s.armPublishRetryTimer packetId
  | .pubrel packetId => s.onPubrelWritten packetId ec
  | .subscribe packetId => s.onSubscribeWritten packetId ec
  | .acknowledged => if ec.isSome then s.push [.notifyClosedOnce] else s
  | .pingreq attempt => s.onPingreqWritten attempt ec
  | .disconnect onClosed => (if onClosed then s.push [.onClosed] else s).closeConnection
  | .connect _ | .read _ => s

/-- The connection calls a handler of the client. No close handler is ever set. -/
def onInvoke (s : Sys) : Invocation Handler → Sys
  | .connect (.connect attempt) ec => s.onConnect attempt ec
  | .read (.read attempt) ec packet => s.onRead attempt ec packet
  | .write _ handler ec => s.onWritten handler ec
  | _ => s

/-- One piece of client code runs. -/
def execute (s : Sys) : Work → Sys
  | .asyncPublishImpl topic payload qos callback => s.asyncPublishImpl topic payload qos callback
  | .asyncSubscribeImpl topic qos callback => s.asyncSubscribeImpl topic qos callback
  | .timer handler ec => s.onTimer handler ec
  | .user => s
  | .handlePacket attempt data => s.handlePacket attempt data
  | .startReadLoop attempt => s.startReadLoop attempt
  | .acknowledge qos packetId => s.acknowledge qos packetId
  | .notifyClosedOnce => s.notifyClosedOnce
  | .publishEach packetId => s.publishEach packetId
  | .publishCancel packetId => s.publishCancel packetId
  | .publishClear => s.publishClear
  | .subscribeEach packetId => s.subscribeEach packetId
  | .subscribeFilters packetId callback rest => s.subscribeFilters packetId callback rest
  | .subscribeClear => s.subscribeClear
  | .notifyClose => s.notifyClose
  | .finishPublishFailure packetId => s.finishPublishFailure packetId
  | .subackEach callback rest => s.subackEach callback rest
  | .subscribeWritten packetId callback rest => s.subscribeWritten packetId callback rest
  | .reportConnect success returnCode => s.reportConnect success returnCode
  | .reportPublish callback topic qos => s.tellPublish callback false topic qos 0
  | .reportSubscribe callback topic => s.tellSubscribe callback false topic 0
  | .onClosed => (s.record .disconnected).push [.user]

end Sys

/-! ### Runs -/

/-- The public methods. -/
inductive Call where
  | setClientId (id : Bytes)
  | setKeepAlive (seconds : UInt16)
  | setCleanSession (clean : Bool)
  | setUsername (username : Bytes)
  | setPassword (password : Bytes)
  | setConnectTimeout (ms : Int)
  | asyncConnect (callback : Bool)
  | asyncDisconnect (onClosed : Bool)
  | close
  | asyncPublish (topic payload : Bytes) (qos : UInt8) (callable : Bool)
  | asyncSubscribe (topic : Bytes) (qos : UInt8) (callable : Bool)
  | onConnect (callback : Bool)
  | onMessage (callback : Bool)
  | onClose (callback : Bool)
  | handlePacket (data : Bytes)
  | handlePuback (data : Bytes)
  | handlePubrec (data : Bytes)
  | handlePubcomp (data : Bytes)
  | handlePubrel (data : Bytes)
  | handleSuback (data : Bytes)
  | handlePublish (data : Bytes)
  deriving DecidableEq, Repr

/-- These post to the io thread, so another thread may call them at any time. -/
def Call.anyThread : Call → Bool
  | .asyncDisconnect _ | .asyncPublish .. | .asyncSubscribe .. => true
  | _ => false

namespace Sys

def call (s : Sys) : Call → Sys
  | .setClientId id => { s with clientId := id }
  | .setKeepAlive seconds => { s with keepAliveSeconds := seconds }
  | .setCleanSession clean => { s with cleanSession := clean }
  | .setUsername username => { s with username }
  | .setPassword password => { s with password }
  | .setConnectTimeout ms => { s with connectTimeoutMs := ms.toNat }
  | .asyncConnect callback => s.asyncConnect callback
  | .asyncDisconnect onClosed => s.asyncDisconnect onClosed
  | .close => s.close
  | .asyncPublish topic payload qos callable => s.asyncPublish topic payload qos callable
  | .asyncSubscribe topic qos callable => s.asyncSubscribe topic qos callable
  | .onConnect callback => { s with onConnectCb := callback }
  | .onMessage callback => { s with onMessageCb := callback }
  | .onClose callback => { s with onCloseCb := callback }
  | .handlePacket data => s.handlePacket s.attempts data
  | .handlePuback data => s.handlePuback data
  | .handlePubrec data => s.handlePubrec data
  | .handlePubcomp data => s.handlePubcomp data
  | .handlePubrel data => s.handlePubrel data
  | .handleSuback data => s.handleSuback data
  | .handlePublish data => s.handlePublish data

/-- The user's code has control: no task is running, or it called a callback. -/
def idle (s : Sys) : Bool :=
  match s.net.stack with
  | [] | .own .user :: _ => true
  | _ => false

inductive Action where
  /-- The io thread takes its next task. -/
  | run
  /-- The running task goes on. -/
  | exec
  /-- The user's callback returns. -/
  | ret
  | call (c : Call)
  | kernel (event : Net.Event)
  /-- The wait at `index` is over. -/
  | expire (index : Nat)
  | advance (ms : Nat)

def exec (s : Sys) : Option Sys :=
  match s.net.stack with
  | [] | .own .user :: _ => none
  | .own k :: rest => some ({ s with net := { s.net with stack := rest } }.execute k)
  | .invoke call :: _ => s.net.resume.map fun net => { s with net }.onInvoke call
  | _ => s.net.resume.map fun net => { s with net }

def expire (s : Sys) (index : Nat) : Option Sys :=
  match s.waits[index]? with
  | none => none
  | some w =>
      if w.deadline ≤ s.now then
        some ({ s with waits := s.waits.eraseIdx index }.post (.timer w.handler none))
      else none

/-- The client takes a step, unless it has read freed memory. -/
def step (s : Sys) (a : Action) : Option Sys :=
  if s.undefined then none
  else
    match a with
    | .run => s.net.run.map fun net => { s with net }
    | .exec => s.exec
    | .ret =>
        match s.net.stack with
        | .own .user :: rest => some { s with net := { s.net with stack := rest } }
        | _ => none
    | .call c => if s.idle || c.anyThread then some (s.call c) else none
    | .kernel event => (s.net.kernel event).map fun net => { s with net }
    | .expire index => s.expire index
    | .advance ms => some { s with now := s.now + ms }

/-! ### A session, step by step -/

/-- A connect attempt up to the read that waits for the CONNACK. -/
def connecting : List Action :=
  [.call (.asyncConnect true), .kernel (.resolve 0 (.ok 0)), .run, .kernel (.connect 0 none), .run, .exec,
    .run, .kernel (.send 0 26), .kernel (.write 0 none), .run, .exec, .exec]

/-- A packet of four bytes arrives and is handled, up to the call of a callback. -/
def receive (first second third fourth : UInt8) : List Action :=
  [.kernel (.read 0 (.ok [first, second])), .run, .kernel (.read 0 (.ok [third, fourth])), .run, .run,
    .exec, .exec]

/-- A session that the broker accepted. The last task is the cancelled connect timer. -/
def opened : List Action := connecting ++ receive 0x20 2 0 0 ++ [.exec, .ret, .exec, .run, .exec]

/-- A publish with an empty payload and the topic `t` is accepted and written. -/
def publishing (qos : UInt8) : List Action :=
  [.call (.asyncPublish [0x74] [] qos true), .run, .exec, .run, .kernel (.send 1 7), .kernel (.write 1 none),
    .run, .exec, .exec, .run, .exec]

end Sys
end LiteMqtt
