import LiteMqtt.Client.Posting
import LiteMqtt.Client.Steps
import LiteMqtt.Codec.RoundTrip
import LiteMqtt.Connection.Writes

/-!
# Inbound publishes and their acknowledgements

What the broker's PUBLISH and PUBREL frames lead to. `handle_publish` delivers every frame it
handles and answers it, and `handle_pubrel` only answers. The client keeps no record of the packet
ids it has received, so a retransmission is one more message.
-/

namespace LiteMqtt

def Event.isMessage : Event → Bool
  | .message .. => true
  | _ => false

def Event.pubrec? : Event → Option UInt16
  | .handed (.pubrec p) => some p
  | _ => none

def Event.pubcomp? : Event → Option UInt16
  | .handed (.pubcomp p) => some p
  | _ => none

/-- A message was delivered, or an acknowledgement was handed to the connection. -/
def Event.isReceipt : Event → Bool
  | .message .. | .handed (.puback _) | .handed (.pubrec _) | .handed (.pubcomp _) => true
  | _ => false

/-- What the end of `handle_publish` writes. -/
def Work.acknowledgement? : Work → Option Packet
  | .acknowledge qos p => if qos = 1 then some (.puback p) else if qos = 2 then some (.pubrec p) else none
  | _ => none

/-- The end of `handle_publish`. -/
def Work.isReply : Work → Bool
  | .acknowledge .. => true
  | _ => false

/-- The PUBREC that the end of `handle_publish` is about to write. -/
def Work.pubrec? : Work → Option UInt16
  | .acknowledge qos p => if qos = 2 then some p else none
  | _ => none

/-- What was delivered and answered, newest first, and which PUBRECs are still to be written. -/
structure Receipts where
  messages : List Event
  pubrecs : List UInt16
  pubcomps : List UInt16
  due : List UInt16

/-- An inbound PUBLISH or PUBREL that is handled, and whether `on_message_cb_` is set. -/
inductive Handled where
  | publish (pkt : PublishPacket) (listening : Bool)
  | pubrel (packetId : UInt16)
  deriving DecidableEq

def Handled.delivery? : Handled → Option Event
  | .publish pkt listening =>
      if listening = true ∧ pkt.qos ≤ 2 then
        some (.message pkt.topicName pkt.payload pkt.qos (if pkt.qos = 0 then 0 else pkt.packetId))
      else none
  | .pubrel _ => none

def Handled.qos2? : Handled → Option UInt16
  | .publish pkt _ => if pkt.qos = 2 then some pkt.packetId else none
  | .pubrel _ => none

def Handled.pubrel? : Handled → Option UInt16
  | .pubrel p => some p
  | .publish .. => none

/-- What was delivered and acknowledged, newest first, the acknowledgements among the frames that
`async_write_packet` got, and the ends of `handle_publish` still to run. -/
structure Dealings where
  events : List Event
  acknowledgements : List Packet
  due : List Work

namespace Sys

variable {s t : Sys}

/-- The acknowledgements that are read of the frames which the connection got. -/
def acknowledgements (s : Sys) : List Packet := s.net.submitted.filterMap fun item => acknowledgementIn item.buffer

def dealings (s : Sys) : Dealings :=
  ⟨s.log.filter (·.isReceipt), s.acknowledgements, s.net.running.filter (·.isReply)⟩

def receipts (s : Sys) : Receipts :=
  ⟨s.log.filter (·.isMessage), s.log.filterMap Event.pubrec?, s.log.filterMap Event.pubcomp?,
    s.net.running.filterMap Work.pubrec?⟩

/-! ### Code that neither delivers nor answers -/

theorem dealings_of_net {n : Net Handler Work} (running : n.running = s.net.running)
    (submitted : n.submitted = s.net.submitted) : ({ s with net := n } : Sys).dealings = s.dealings := by
  simp only [dealings, acknowledgements, running, submitted]

theorem acknowledgements_write (s : Sys) (packet : Packet) (h : Handler) : (s.write packet h).acknowledgements =
    s.acknowledgements ++ (if packet.isAcknowledgement then [packet] else []) := by
  unfold acknowledgements
  show (s.net.submitted ++ [_]).filterMap _ = _
  rw [List.filterMap_append]
  simp only [List.filterMap_cons, List.filterMap_nil, acknowledgementIn_serialize]
  cases packet.isAcknowledgement <;> rfl

/-- Any other packet is written. -/
theorem dealings_write (s : Sys) (packet : Packet) (h : Handler) (other : packet.isAcknowledgement = false) :
    (s.write packet h).dealings = s.dealings := by
  have quiet : (Event.handed packet).isReceipt = false := by
    cases packet <;> first | rfl | contradiction
  have same := acknowledgements_write s packet h
  rw [other, if_neg Bool.false_ne_true, List.append_nil] at same
  have events : (s.write packet h).log.filter (·.isReceipt) = s.log.filter (·.isReceipt) := by
    show (.handed packet :: s.log).filter _ = _
    rw [List.filter_cons_of_neg (by simp [quiet])]
  simp only [dealings, same, events]
  rfl

@[simp] theorem dealings_crash (s : Sys) : s.crash.dealings = s.dealings := rfl

@[simp] theorem dealings_cancelTimer (s : Sys) (timer : Nat) : (s.cancelTimer timer).dealings = s.dealings := rfl

@[simp] theorem dealings_armTimer (s : Sys) (timer after : Nat) (h : TimerHandler) :
    (s.armTimer timer after h).dealings = s.dealings := rfl

@[simp] theorem dealings_startReadLoop (s : Sys) (attempt : Nat) : (s.startReadLoop attempt).dealings = s.dealings :=
  dealings_of_net (Net.tame_asyncReadPacket s.net _).running (Net.asyncReadPacket_submitted s.net _)

@[simp] theorem dealings_closeConnection (s : Sys) : s.closeConnection.dealings = s.dealings := by
  have running := (closeConnection_tame s).running
  unfold closeConnection at running ⊢
  split
  · rfl
  · rename_i isOpen
    rw [if_neg isOpen] at running
    exact dealings_of_net running (Net.close_submitted s.net)

@[simp] theorem dealings_cancelTimers (s : Sys) (timers : List Nat) :
    (s.cancelTimers timers).dealings = s.dealings := by
  induction timers generalizing s with
  | nil => rfl
  | cons timer timers ih => exact ih (s.cancelTimer timer)

theorem dealings_schedulePingreq (s : Sys) (attempt : Nat) : (s.schedulePingreq attempt).dealings = s.dealings := by
  unfold schedulePingreq
  split <;> rfl

@[simp] theorem dealings_armPublishRetryTimer (s : Sys) (p : UInt16) :
    (s.armPublishRetryTimer p).dealings = s.dealings := by
  unfold armPublishRetryTimer
  split <;> rfl

@[simp] theorem dealings_armPubrecRetryTimer (s : Sys) (p : UInt16) :
    (s.armPubrecRetryTimer p).dealings = s.dealings := by
  unfold armPubrecRetryTimer
  split <;> rfl

@[simp] theorem dealings_cancelPublishRetryTimer (s : Sys) (p : UInt16) :
    (s.cancelPublishRetryTimer p).dealings = s.dealings := by
  unfold cancelPublishRetryTimer
  split <;> rfl

@[simp] theorem dealings_tellPublish (s : Sys) (cb : Callback) (ok : Bool) (topic : Bytes) (qos : UInt8) (p : UInt16) :
    (s.tellPublish cb ok topic qos p).dealings = s.dealings := by
  unfold tellPublish
  split <;> rfl

@[simp] theorem dealings_tellSubscribe (s : Sys) (cb : Callback) (ok : Bool) (topic : Bytes) (qos : UInt8) :
    (s.tellSubscribe cb ok topic qos).dealings = s.dealings := by
  unfold tellSubscribe
  split <;> rfl

@[simp] theorem dealings_reportConnect (s : Sys) (ok : Bool) (rc : UInt8) :
    (s.reportConnect ok rc).dealings = s.dealings := by
  unfold reportConnect
  split <;> rfl

@[simp] theorem dealings_sendPublishEntry (s : Sys) (p : UInt16) : (s.sendPublishEntry p).dealings = s.dealings := by
  unfold sendPublishEntry
  split
  · rfl
  · exact (dealings_write _ _ _ rfl).trans (dealings_armPublishRetryTimer s p)

@[simp] theorem dealings_sendPubrel (s : Sys) (p : UInt16) : (s.sendPubrel p).dealings = s.dealings :=
  (dealings_write _ _ _ rfl).trans (dealings_armPubrecRetryTimer s p)

theorem dealings_asyncConnect (s : Sys) (callback : Bool) : (s.asyncConnect callback).dealings = s.dealings := by
  unfold asyncConnect
  dsimp only
  split <;> rfl

theorem dealings_onConnect (s : Sys) (attempt : Nat) (ec : ErrorCode) :
    (s.onConnect attempt ec).dealings = s.dealings := by
  unfold onConnect
  split
  · rfl
  · split
    · exact dealings_reportConnect s false 255
    · exact dealings_write s _ _ rfl

theorem dealings_handleConnectTimeout (s : Sys) : s.handleConnectTimeout.dealings = s.dealings := by
  unfold handleConnectTimeout
  split
  · rfl
  · exact dealings_closeConnection _

theorem dealings_handleConnack (s : Sys) (data : Bytes) : (s.handleConnack data).dealings = s.dealings := by
  unfold handleConnack
  dsimp only
  split
  · rfl
  · exact dealings_closeConnection _

theorem dealings_asyncPublishImpl (s : Sys) (topic payload : Bytes) (qos : UInt8) (cb : Callback) :
    (s.asyncPublishImpl topic payload qos cb).dealings = s.dealings := by
  have told := dealings_tellPublish s cb false topic qos 0
  have acquired : s.acquirePacketId.1.dealings = s.dealings := rfl
  unfold asyncPublishImpl
  split
  · exact told
  split
  · exact told
  split
  · exact told
  split
  · exact dealings_write (s.record (.accepted 0 0 cb)) _ _ rfl
  dsimp only
  split
  · exact acquired
  split
  · exact (dealings_tellPublish _ _ _ _ _ _).trans acquired
  · exact (dealings_sendPublishEntry _ _).trans acquired

theorem dealings_asyncSubscribeImpl (s : Sys) (topic : Bytes) (qos : UInt8) (cb : Callback) :
    (s.asyncSubscribeImpl topic qos cb).dealings = s.dealings := by
  have told := dealings_tellSubscribe s cb false topic 0
  have acquired : s.acquirePacketId.1.dealings = s.dealings := rfl
  unfold asyncSubscribeImpl
  split
  · exact told
  split
  · exact told
  dsimp only
  split
  · exact acquired
  · exact (dealings_write _ _ _ rfl).trans acquired

theorem dealings_onSubscribeWritten (s : Sys) (p : UInt16) (ec : ErrorCode) :
    (s.onSubscribeWritten p ec).dealings = s.dealings := by
  unfold onSubscribeWritten
  split
  · rfl
  · split
    · split <;> rfl
    · dsimp only
      split <;> rfl

theorem dealings_subscribeWritten (s : Sys) (p : UInt16) (cb : Callback) (rest : List (Bytes × UInt8)) :
    (s.subscribeWritten p cb rest).dealings = s.dealings := by
  unfold subscribeWritten
  split
  · rfl
  · split
    · exact dealings_tellSubscribe _ _ _ _ _
    · rfl

theorem dealings_notifyClosedOnce (s : Sys) : s.notifyClosedOnce.dealings = s.dealings := by
  unfold notifyClosedOnce
  split
  · rfl
  · dsimp only
    split <;> rfl

theorem dealings_publishEach (s : Sys) (p : UInt16) : (s.publishEach p).dealings = s.dealings := by
  unfold publishEach
  split
  · rfl
  · exact dealings_tellPublish _ _ _ _ _ _

theorem dealings_publishCancel (s : Sys) (p : UInt16) : (s.publishCancel p).dealings = s.dealings := by
  unfold publishCancel
  split
  · rfl
  · split <;> rfl

theorem dealings_publishClear (s : Sys) : s.publishClear.dealings = s.dealings := by
  have cancelled : ∀ first later, ((s.cancelTimers first).cancelTimers later).dealings = s.dealings := by simp
  unfold publishClear
  dsimp only
  split <;> exact cancelled _ _

theorem dealings_subscribeEach (s : Sys) (p : UInt16) : (s.subscribeEach p).dealings = s.dealings := by
  unfold subscribeEach
  split <;> rfl

theorem dealings_subscribeFilters (s : Sys) (p : UInt16) (cb : Callback) (rest : List (Bytes × UInt8)) :
    (s.subscribeFilters p cb rest).dealings = s.dealings := by
  unfold subscribeFilters
  split
  · split
    · exact dealings_tellSubscribe _ _ _ _ _
    · split <;> rfl
  · rfl

theorem dealings_notifyClose (s : Sys) : s.notifyClose.dealings = s.dealings := by
  unfold notifyClose
  split <;> rfl

theorem dealings_subackEach (s : Sys) (cb : Callback) (rest : List (Bytes × UInt8)) :
    (s.subackEach cb rest).dealings = s.dealings := by
  unfold subackEach
  split
  · rfl
  · exact dealings_tellSubscribe _ _ _ _ _

theorem dealings_handleSuback (s : Sys) (data : Bytes) : (s.handleSuback data).dealings = s.dealings := by
  unfold handleSuback
  dsimp only
  split
  · rfl
  · split
    · rfl
    · split <;> rfl

@[simp] theorem dealings_finishPublishSuccess (s : Sys) (p : UInt16) :
    (s.finishPublishSuccess p).dealings = s.dealings := by
  unfold finishPublishSuccess
  split
  · rfl
  · exact (dealings_tellPublish _ _ _ _ _ _).trans (dealings_cancelPublishRetryTimer s p)

theorem dealings_finishPublishFailure (s : Sys) (p : UInt16) : (s.finishPublishFailure p).dealings = s.dealings := by
  unfold finishPublishFailure
  split
  · rfl
  · exact (dealings_tellPublish _ _ _ _ _ _).trans (dealings_cancelPublishRetryTimer s p)

@[simp] theorem dealings_erasePubrec (s : Sys) (p : UInt16) : (s.erasePubrec p).dealings = s.dealings := by
  unfold erasePubrec
  split <;> rfl

theorem dealings_handlePuback (s : Sys) (data : Bytes) : (s.handlePuback data).dealings = s.dealings :=
  dealings_finishPublishSuccess _ _

theorem dealings_handlePubcomp (s : Sys) (data : Bytes) : (s.handlePubcomp data).dealings = s.dealings :=
  (dealings_finishPublishSuccess _ _).trans (dealings_erasePubrec _ _)

theorem dealings_insertPubrec (s : Sys) (p : UInt16) : (s.insertPubrec p).dealings = s.dealings := by
  unfold insertPubrec
  split <;> rfl

theorem dealings_handlePubrec (s : Sys) (data : Bytes) : (s.handlePubrec data).dealings = s.dealings := by
  unfold handlePubrec
  dsimp only
  split
  · exact (dealings_sendPubrel _ _).trans ((dealings_insertPubrec _ _).trans (dealings_cancelPublishRetryTimer _ _))
  · rfl

theorem dealings_onPublishRetry (s : Sys) (p : UInt16) : (s.onPublishRetry p).dealings = s.dealings := by
  unfold onPublishRetry
  split
  · rfl
  · split
    · rfl
    · exact dealings_sendPublishEntry _ p

theorem dealings_onPubrecRetry (s : Sys) (p : UInt16) : (s.onPubrecRetry p).dealings = s.dealings := by
  unfold onPubrecRetry
  split
  · rfl
  · split
    · rfl
    · exact dealings_sendPubrel _ p

theorem dealings_onTimer (s : Sys) (h : TimerHandler) (ec : ErrorCode) : (s.onTimer h ec).dealings = s.dealings := by
  unfold onTimer
  split
  · rfl
  · cases h with
    | connectTimeout => exact dealings_handleConnectTimeout s
    | ping => exact dealings_write s _ _ rfl
    | pingDeadline => rfl
    | publishRetry p => exact dealings_onPublishRetry s p
    | pubrecRetry p => exact dealings_onPubrecRetry s p

theorem dealings_onWritten (s : Sys) (h : Handler) (ec : ErrorCode) : (s.onWritten h ec).dealings = s.dealings := by
  unfold onWritten
  cases h with
  | connectWrite attempt =>
    unfold onConnectWritten
    dsimp only
    split
    · rfl
    · exact (dealings_startReadLoop _ attempt).trans (dealings_schedulePingreq s attempt)
  | publish0 cb topic => exact dealings_tellPublish s _ _ _ _ _
  | publish p =>
    dsimp only
    split
    · rfl
    · exact dealings_armPublishRetryTimer s p
  | pubrel p =>
    unfold onPubrelWritten
    dsimp only
    split
    · exact dealings_erasePubrec s p
    · exact dealings_armPubrecRetryTimer s p
  | subscribe p => exact dealings_onSubscribeWritten s p ec
  | acknowledged =>
    dsimp only
    split <;> rfl
  | pingreq attempt =>
    unfold onPingreqWritten
    dsimp only
    split <;> rfl
  | disconnect onClosed =>
    refine (dealings_closeConnection _).trans ?_
    split <;> rfl
  | connect => rfl
  | read => rfl

theorem dealings_onInvoke (s : Sys) (call : Invocation Handler) : (s.onInvoke call).dealings = s.dealings := by
  unfold onInvoke
  split
  · exact dealings_onConnect s _ _
  · unfold onRead
    split <;> rfl
  · exact dealings_onWritten s _ _
  · rfl

/-! ### Code that delivers or answers -/

end Sys

/-- What is done at once when the item is handled. -/
def Handled.events : Handled → List Event
  | .publish pkt listening => (Handled.publish pkt listening).delivery?.toList
  | .pubrel p => [.handed (.pubcomp p)]

def Handled.acknowledgements : Handled → List Packet
  | .publish .. => []
  | .pubrel p => [.pubcomp p]

/-- What is left for later. -/
def Handled.due : Handled → List Work
  | .publish pkt _ => if pkt.qos > 2 then [] else [.acknowledge pkt.qos pkt.packetId]
  | .pubrel _ => []

/-- `item` is handled. -/
def Dealings.after (d : Dealings) : Option Handled → Dealings
  | none => d
  | some item => ⟨item.events ++ d.events, d.acknowledgements ++ item.acknowledgements, item.due ++ d.due⟩

/-- The end of `handle_publish` runs. -/
structure Dealings.Answers (k : Work) (d d' : Dealings) : Prop where
  events : d'.events = (k.acknowledgement?.map Event.handed).toList ++ d.events
  acknowledgements : d'.acknowledgements = d.acknowledgements ++ k.acknowledgement?.toList
  due : d.due = k :: d'.due

namespace Sys

variable {s t : Sys}

theorem dealings_handlePublish (s : Sys) (data : Bytes) :
    (s.handlePublish data).dealings = s.dealings.after (some (.publish (PublishPacket.parse data) s.onMessageCb)) := by
  unfold handlePublish
  dsimp only
  simp only [Dealings.after, Handled.acknowledgements, List.append_nil]
  split
  · rename_i high
    have refused : ¬ (PublishPacket.parse data).qos ≤ 2 := UInt8.not_le.mpr high
    simp only [Handled.events, Handled.due, Handled.delivery?, refused, and_false, if_false, if_pos high]
    rfl
  · rename_i low
    have allowed : (PublishPacket.parse data).qos ≤ 2 := UInt8.not_lt.mp low
    simp only [Handled.events, Handled.due, Handled.delivery?, allowed, and_true, if_neg low]
    cases listening : s.onMessageCb with
    | false =>
      have silent :
          (s.push [.acknowledge (PublishPacket.parse data).qos (PublishPacket.parse data).packetId]).onMessageCb =
        false := listening
      simp only [silent, Bool.false_eq_true, if_false]
      rfl
    | true =>
      have loud : (s.push [.acknowledge (PublishPacket.parse data).qos
          (PublishPacket.parse data).packetId]).onMessageCb =
        true := listening
      simp only [loud, if_true]
      rfl

theorem dealings_acknowledged (s : Sys) (packet : Packet) (is : packet.isAcknowledgement = true)
    (receipt : (Event.handed packet).isReceipt = true) : (s.write packet .acknowledged).dealings =
      { s.dealings with
        events := .handed packet :: s.dealings.events
        acknowledgements := s.dealings.acknowledgements ++ [packet] } := by
  have more := acknowledgements_write s packet .acknowledged
  rw [is, if_pos rfl] at more
  have events :
      (s.write packet .acknowledged).log.filter (·.isReceipt) = .handed packet :: s.log.filter (·.isReceipt) := by
    show (.handed packet :: s.log).filter _ = _
    rw [List.filter_cons_of_pos receipt]
  simp only [dealings, more, events]
  rfl

theorem dealings_handlePubrel (s : Sys) (data : Bytes) :
    (s.handlePubrel data).dealings = s.dealings.after (some (.pubrel (parseId data))) :=
  dealings_acknowledged s (.pubcomp (parseId data)) rfl rfl

/-- `handle_packet` finds a PUBLISH or a PUBREL. -/
def packetHandled (s : Sys) : Bytes → Option Handled
  | [] => none
  | byte :: rest =>
      match PacketType.ofUint8 (byte >>> 4) with
      | .publish => some (.publish (PublishPacket.parse (byte :: rest)) s.onMessageCb)
      | .pubrel => some (.pubrel (parseId (byte :: rest)))
      | _ => none

/-- The PUBLISH or PUBREL whose handling the step begins. -/
def handled (s : Sys) : Action → Option Handled
  | .exec =>
      match s.net.stack with
      | .own (.handlePacket _ data) :: _ => s.packetHandled data
      | _ => none
  | .call (.handlePacket data) => s.packetHandled data
  | .call (.handlePublish data) => some (.publish (PublishPacket.parse data) s.onMessageCb)
  | .call (.handlePubrel data) => some (.pubrel (parseId data))
  | _ => none

theorem dealings_handlePacket (s : Sys) (attempt : Nat) (data : Bytes) :
    (s.handlePacket attempt data).dealings = s.dealings.after (s.packetHandled data) := by
  cases data with
  | nil => rfl
  | cons byte rest =>
    unfold handlePacket packetHandled
    dsimp only
    cases PacketType.ofUint8 (byte >>> 4) with
    | connack => exact dealings_handleConnack s _
    | publish => exact dealings_handlePublish s _
    | suback => exact dealings_handleSuback s _
    | puback => exact dealings_handlePuback s _
    | pubrec => exact dealings_handlePubrec s _
    | pubrel => exact dealings_handlePubrel s _
    | pubcomp => exact dealings_handlePubcomp s _
    | pingresp => exact dealings_schedulePingreq _ attempt
    | _ => rfl

theorem dealings_call (s : Sys) (c : Call) : (s.call c).dealings = s.dealings.after (s.handled (.call c)) := by
  cases c with
  | asyncConnect callback => exact dealings_asyncConnect s callback
  | close => exact dealings_closeConnection s
  | handlePacket data => exact dealings_handlePacket s s.attempts data
  | handlePuback data => exact dealings_handlePuback s data
  | handlePubrec data => exact dealings_handlePubrec s data
  | handlePubcomp data => exact dealings_handlePubcomp s data
  | handlePubrel data => exact dealings_handlePubrel s data
  | handleSuback data => exact dealings_handleSuback s data
  | handlePublish data => exact dealings_handlePublish s data
  | asyncDisconnect onClosed => exact dealings_write s.cancelPingTimer .disconnect _ rfl
  | _ => rfl

/-- The end of `handle_publish` writes this acknowledgement and nothing else. -/
theorem acknowledge_writes (s : Sys) (qos : UInt8) (p : UInt16) : s.execute (.acknowledge qos p) =
    ((Work.acknowledge qos p).acknowledgement?.map fun packet => s.write packet .acknowledged).getD s := by
  simp only [execute, acknowledge, Work.acknowledgement?]
  split
  · rfl
  · split <;> rfl

theorem dealings_acknowledge (s : Sys) (qos : UInt8) (p : UInt16) : (s.execute (.acknowledge qos p)).dealings =
    { s.dealings with
      events := ((Work.acknowledge qos p).acknowledgement?.map Event.handed).toList ++ s.dealings.events
      acknowledgements := s.dealings.acknowledgements ++ (Work.acknowledge qos p).acknowledgement?.toList } := by
  rw [acknowledge_writes]
  unfold Work.acknowledgement?
  dsimp only
  split
  · exact dealings_acknowledged s _ rfl rfl
  · split
    · exact dealings_acknowledged s _ rfl rfl
    · simp

theorem dealings_goesOn {entry : StackEntry Handler Work} {rest : List (StackEntry Handler Work)}
    (front : s.net.stack = entry :: rest) : s.dealings =
      { (s.goesOn rest).dealings with
        due := entry.own?.toList.filter (·.isReply) ++ (s.goesOn rest).dealings.due } := by
  have running : s.net.running = entry.own?.toList ++ (s.goesOn rest).net.running := by
    rw [Net.running, front, List.filterMap_cons]
    cases entry.own? <;> rfl
  simp only [dealings, running, List.filter_append]
  rfl

/-- The entry that goes is no end of `handle_publish`. -/
theorem dealings_goesOn_other {entry : StackEntry Handler Work} {rest : List (StackEntry Handler Work)}
    (front : s.net.stack = entry :: rest) (other : entry.own?.toList.filter (·.isReply) = []) :
    (s.goesOn rest).dealings = s.dealings := by
  have whole := dealings_goesOn front
  rw [other] at whole
  exact whole.symm

theorem dealings_bare {a : Action} (posting : s.Posting) (bare : s.Bare a t) : t.dealings = s.dealings := by
  cases bare with
  | run n ran =>
    obtain ⟨idle, task, tail, ready, rfl⟩ := Net.run_cases ran
    have running := (Net.runTask_ran (s.net.leaving tail) task).running
    have before : s.net.running = [] := by rw [Net.running, idle]; rfl
    have leaving : (s.net.leaving tail).running = [] := before
    rw [leaving, List.append_nil] at running
    have submitted : ((s.net.leaving tail).runTask task).submitted = s.net.submitted := Net.runTask_submitted _ task
    simp only [dealings, acknowledgements, running, before, submitted]
    cases own : task.own? with
    | none => rfl
    | some k =>
      have posted : k ∈ s.net.posted := by
        rw [Net.posted, ready, List.filterMap_cons, own]
        exact List.mem_cons_self
      have answered : k.isReply = false := by
        have is := posting.posted k posted
        cases k <;> first | rfl | cases is
      simp [answered]
  | afterWrite ec rest front =>
    refine Eq.trans ?_ (dealings_goesOn_other front rfl)
    exact dealings_of_net (s := s.goesOn rest) (Net.tame_afterWrite _ ec).running (Net.afterWrite_submitted _ ec)
  | closeHandler rest front =>
    refine Eq.trans ?_ (dealings_goesOn_other front rfl)
    refine dealings_of_net (s := s.goesOn rest) ?_ rfl
    simp [Net.running, Net.push, List.filterMap_append, StackEntry.own?]
  | kernel event n moved => exact dealings_of_net (Net.tame_kernel moved).running (Net.kernel_submitted moved)
  | expire index w waiting due => rfl
  | advance ms => rfl

theorem dealings_work (k : Work) (rest : List (StackEntry Handler Work)) (front : s.net.stack = .own k :: rest) :
    ((s.goesOn rest).execute k).dealings = s.dealings.after (s.handled .exec) ∨
      s.handled .exec = none ∧
        ∃ qos p, s.dealings.Answers (.acknowledge qos p) ((s.goesOn rest).execute k).dealings := by
  have other : k.isReply = false → s.handled .exec = none →
      ((s.goesOn rest).execute k).dealings = (s.goesOn rest).dealings →
      ((s.goesOn rest).execute k).dealings = s.dealings.after (s.handled .exec) := by
    intro answered unhandled same
    rw [unhandled, same]
    exact dealings_goesOn_other front (by simp [StackEntry.own?, answered])
  have unhandled : (∀ attempt data, k ≠ .handlePacket attempt data) → s.handled .exec = none := by
    intro plain
    simp only [handled, front]
    split
    · rename_i same
      obtain ⟨front, -⟩ := List.cons.inj same
      exact absurd (StackEntry.own.inj front) (plain _ _)
    · rfl
  cases k with
  | acknowledge qos p =>
    have whole := dealings_goesOn front
    have written := dealings_acknowledge (s.goesOn rest) qos p
    refine .inr ⟨unhandled (by simp), qos, p, ?_⟩
    rw [whole, written]
    exact ⟨rfl, rfl, rfl⟩
  | handlePacket attempt data =>
    have found : s.handled .exec = (s.goesOn rest).packetHandled data := by
      simp only [handled, front]
      rfl
    refine .inl ?_
    rw [found, ← dealings_goesOn_other front rfl]
    exact dealings_handlePacket (s.goesOn rest) attempt data
  | asyncPublishImpl topic payload qos cb =>
    exact .inl (other rfl (unhandled (by simp)) (dealings_asyncPublishImpl _ topic payload qos cb))
  | asyncSubscribeImpl topic qos cb =>
    exact .inl (other rfl (unhandled (by simp)) (dealings_asyncSubscribeImpl _ topic qos cb))
  | timer h ec => exact .inl (other rfl (unhandled (by simp)) (dealings_onTimer _ h ec))
  | startReadLoop attempt => exact .inl (other rfl (unhandled (by simp)) (dealings_startReadLoop _ attempt))
  | notifyClosedOnce => exact .inl (other rfl (unhandled (by simp)) (dealings_notifyClosedOnce _))
  | publishEach p => exact .inl (other rfl (unhandled (by simp)) (dealings_publishEach _ p))
  | publishCancel p => exact .inl (other rfl (unhandled (by simp)) (dealings_publishCancel _ p))
  | publishClear => exact .inl (other rfl (unhandled (by simp)) (dealings_publishClear _))
  | subscribeEach p => exact .inl (other rfl (unhandled (by simp)) (dealings_subscribeEach _ p))
  | subscribeFilters p cb filters =>
    exact .inl (other rfl (unhandled (by simp)) (dealings_subscribeFilters _ p cb filters))
  | subscribeClear => exact .inl (other rfl (unhandled (by simp)) (dealings_closeConnection _))
  | notifyClose => exact .inl (other rfl (unhandled (by simp)) (dealings_notifyClose _))
  | finishPublishFailure p => exact .inl (other rfl (unhandled (by simp)) (dealings_finishPublishFailure _ p))
  | subackEach cb filters => exact .inl (other rfl (unhandled (by simp)) (dealings_subackEach _ cb filters))
  | subscribeWritten p cb filters =>
    exact .inl (other rfl (unhandled (by simp)) (dealings_subscribeWritten _ p cb filters))
  | reportConnect ok rc => exact .inl (other rfl (unhandled (by simp)) (dealings_reportConnect _ ok rc))
  | reportPublish cb topic qos =>
    exact .inl (other rfl (unhandled (by simp)) (dealings_tellPublish _ cb false topic qos 0))
  | reportSubscribe cb topic => exact .inl (other rfl (unhandled (by simp)) (dealings_tellSubscribe _ cb false topic 0))
  | user | onClosed => exact .inl (other rfl (unhandled (by simp)) rfl)

/-- A step handles a frame, runs the end of `handle_publish`, or does neither. -/
theorem step_dealings {a : Action} (posting : s.Posting) (taken : s.step a = some t) :
    t.dealings = s.dealings.after (s.handled a) ∨
      s.handled a = none ∧ ∃ qos p, s.dealings.Answers (.acknowledge qos p) t.dealings := by
  cases (steps taken).2 with
  | run n ran => exact .inl (dealings_bare posting (.run n ran))
  | work k rest front busy => exact dealings_work k rest front
  | invoke call rest front =>
    have unhandled : s.handled .exec = none := by simp [handled, front]
    rw [unhandled]
    refine .inl ((dealings_onInvoke _ call).trans (.trans ?_ (dealings_goesOn_other front rfl)))
    cases call <;> rfl
  | afterWrite ec rest front =>
    have unhandled : s.handled .exec = none := by simp [handled, front]
    exact .inl (unhandled ▸ dealings_bare posting (.afterWrite ec rest front))
  | closeHandler rest front =>
    have unhandled : s.handled .exec = none := by simp [handled, front]
    exact .inl (unhandled ▸ dealings_bare posting (.closeHandler rest front))
  | ret rest front => exact .inl (dealings_goesOn_other front rfl)
  | call c allowed => exact .inl (dealings_call s c)
  | kernel event n moved => exact .inl (dealings_bare posting (.kernel event n moved))
  | expire index w waiting due => exact .inl (dealings_bare posting (.expire index w waiting due))
  | advance ms => exact .inl rfl

end Sys

/-! ### Deliveries and PUBRECs -/

/-- `item` is handled. -/
def Receipts.after (r : Receipts) : Option Handled → Receipts
  | none => r
  | some item =>
      { r with
        messages := item.delivery?.toList ++ r.messages
        pubcomps := item.pubrel?.toList ++ r.pubcomps
        due := item.qos2?.toList ++ r.due }

/-- The end of `handle_publish` runs for a QoS 2 publish. -/
structure Receipts.Answers (p : UInt16) (r r' : Receipts) : Prop where
  messages : r'.messages = r.messages
  pubrecs : r'.pubrecs = p :: r.pubrecs
  pubcomps : r'.pubcomps = r.pubcomps
  due : r.due = p :: r'.due

def Dealings.receipts (d : Dealings) : Receipts :=
  ⟨d.events.filter (·.isMessage), d.events.filterMap Event.pubrec?, d.events.filterMap Event.pubcomp?,
    d.due.filterMap Work.pubrec?⟩

theorem Dealings.receipts_after (d : Dealings) (item : Option Handled) :
    (d.after item).receipts = d.receipts.after item := by
  cases item with
  | none => rfl
  | some item =>
    cases item with
    | pubrel p => rfl
    | publish pkt listening =>
      have quiet : ∀ e ∈ (Handled.publish pkt listening).delivery?, e.isMessage = true ∧ e.pubrec? = none ∧
          e.pubcomp? = none := by
        intro e delivered
        rw [Handled.delivery?] at delivered
        split at delivered
        · obtain rfl := Option.some.inj delivered
          exact ⟨rfl, rfl, rfl⟩
        · contradiction
      have due : (Handled.publish pkt listening).due.filterMap Work.pubrec? =
          (Handled.publish pkt listening).qos2?.toList := by
        simp only [Handled.due, Handled.qos2?]
        by_cases two : pkt.qos = 2
        · simp [two, Work.pubrec?]
        · split <;> simp [two, Work.pubrec?]
      simp only [Dealings.after, Dealings.receipts, Receipts.after, Handled.events, List.filter_append,
        List.filterMap_append, due, Handled.pubrel?]
      cases delivered : (Handled.publish pkt listening).delivery? with
      | none => rfl
      | some e =>
        obtain ⟨message, pubrec, pubcomp⟩ := quiet e delivered
        simp [message, pubrec, pubcomp]

/-- The end of `handle_publish` writes the PUBREC that was due, or is not concerned with any. -/
theorem Dealings.Answers.receipts {d d' : Dealings} {qos : UInt8} {p : UInt16}
    (answers : d.Answers (.acknowledge qos p) d') :
    d'.receipts = d.receipts ∨ d.receipts.Answers p d'.receipts := by
  obtain ⟨events, -, due⟩ := answers
  simp only [Dealings.receipts, events, due, Work.acknowledgement?]
  by_cases two : qos = 2
  · subst two
    exact .inr ⟨rfl, rfl, rfl, rfl⟩
  · refine .inl ?_
    have none : (Work.acknowledge qos p).pubrec? = none := by simp [Work.pubrec?, two]
    rw [List.filterMap_cons_none none, if_neg two]
    split <;> rfl

namespace Sys

variable {s t : Sys}

theorem receipts_dealings (s : Sys) : s.receipts = s.dealings.receipts := by
  have events : ∀ e : Event, e.isMessage = true → e.isReceipt = true := by
    intro e message
    cases e <;> first | rfl | contradiction
  have messages : (s.log.filter (·.isReceipt)).filter (·.isMessage) = s.log.filter (·.isMessage) := by
    rw [List.filter_filter]
    congr 1
    funext e
    cases message : e.isMessage with
    | false => rfl
    | true => exact events e message
  have pubrecs : (s.log.filter (·.isReceipt)).filterMap Event.pubrec? = s.log.filterMap Event.pubrec? := by
    refine Lists.filterMap_filter_of _ (fun e found => ?_) _
    cases e with
    | handed packet => cases packet <;> first | rfl | contradiction
    | _ => contradiction
  have pubcomps : (s.log.filter (·.isReceipt)).filterMap Event.pubcomp? = s.log.filterMap Event.pubcomp? := by
    refine Lists.filterMap_filter_of _ (fun e found => ?_) _
    cases e with
    | handed packet => cases packet <;> first | rfl | contradiction
    | _ => contradiction
  have due : (s.net.running.filter (·.isReply)).filterMap Work.pubrec? = s.net.running.filterMap Work.pubrec? := by
    refine Lists.filterMap_filter_of _ (fun k found => ?_) _
    cases k <;> first | rfl | contradiction
  simp only [receipts, Dealings.receipts, dealings, messages, pubrecs, pubcomps, due]

/-- A step handles a frame, writes a PUBREC that was due, or does neither. -/
theorem step_receipts {a : Action} (posting : s.Posting) (taken : s.step a = some t) :
    t.receipts = s.receipts.after (s.handled a) ∨ s.handled a = none ∧ ∃ p, s.receipts.Answers p t.receipts := by
  rw [receipts_dealings, receipts_dealings]
  rcases step_dealings posting taken with same | ⟨unhandled, qos, p, answers⟩
  · refine .inl ?_
    rw [same, Dealings.receipts_after]
  · rw [unhandled]
    exact answers.receipts.imp id fun wrote => ⟨rfl, p, wrote⟩

end Sys

/-! ### What becomes of every frame -/

/-- A client, with the PUBLISH and PUBREL frames whose handling has begun, newest first. -/
structure Ledger where
  sys : Sys := {}
  handled : List Handled := []

namespace Ledger
open Sys

def step (l : Ledger) (a : Action) : Option Ledger :=
  (l.sys.step a).map fun t => { sys := t, handled := (l.sys.handled a).toList ++ l.handled }

/-- Each PUBLISH was delivered once, if anyone listened, and nothing else was. Each QoS 2 PUBLISH
was answered by one PUBREC, or that is still to be written, and each PUBREL by one PUBCOMP. -/
structure Answered (l : Ledger) : Prop where
  delivered : l.sys.log.filter (·.isMessage) = l.handled.filterMap Handled.delivery?
  received : ∀ p, (l.sys.log.filterMap Event.pubrec?).count p + (l.sys.net.running.filterMap Work.pubrec?).count p =
    (l.handled.filterMap Handled.qos2?).count p
  completed : l.sys.log.filterMap Event.pubcomp? = l.handled.filterMap Handled.pubrel?

theorem filterMap_optional {α β : Type*} (f : α → Option β) (item : Option α) (rest : List α) :
    (item.toList ++ rest).filterMap f = (item.bind f).toList ++ rest.filterMap f := by
  cases item with
  | none => rfl
  | some item =>
    simp only [Option.toList_some, List.singleton_append, List.filterMap_cons, Option.bind_some]
    cases f item <;> rfl

theorem answered_step {l m : Ledger} {a : Action} (posting : l.sys.Posting) (answered : l.Answered)
    (taken : l.step a = some m) : m.Answered := by
  obtain ⟨t, moved, rfl⟩ := Option.map_eq_some_iff.mp taken
  obtain ⟨delivered, received, completed⟩ := answered
  rcases step_receipts posting moved with same | ⟨unhandled, p, wrote⟩
  · have messages := congrArg Receipts.messages same
    have pubrecs := congrArg Receipts.pubrecs same
    have pubcomps := congrArg Receipts.pubcomps same
    have due := congrArg Receipts.due same
    refine ⟨?_, fun p => ?_, ?_⟩
    · rw [filterMap_optional, ← delivered]
      refine messages.trans ?_
      cases l.sys.handled a <;> rfl
    · have before := received p
      rw [filterMap_optional, List.count_append, ← before]
      cases found : l.sys.handled a with
      | none =>
        rw [found] at pubrecs due
        change (t.receipts.pubrecs).count p + (t.receipts.due).count p = _
        rw [pubrecs, due]
        simp [Receipts.after, receipts]
      | some item =>
        rw [found] at pubrecs due
        change (t.receipts.pubrecs).count p + (t.receipts.due).count p = _
        rw [pubrecs, due]
        simp only [Receipts.after, receipts, List.count_append, Option.bind_some]
        omega
    · rw [filterMap_optional, ← completed]
      refine pubcomps.trans ?_
      cases l.sys.handled a <;> rfl
  · simp only [unhandled, Option.toList_none, List.nil_append]
    refine ⟨wrote.messages.trans delivered, fun q => ?_, wrote.pubcomps.trans completed⟩
    have before := received q
    change (l.sys.receipts.pubrecs).count q + (l.sys.receipts.due).count q = _ at before
    change (t.receipts.pubrecs).count q + (t.receipts.due).count q = _
    rw [← before, wrote.pubrecs, wrote.due, List.count_cons, List.count_cons]
    omega

/-- In every run each PUBLISH is delivered when it is handled, a retransmission too, and every
QoS 2 PUBLISH is answered with a PUBREC. A PUBREL delivers nothing and is answered with a PUBCOMP. -/
theorem every_publish_delivered (actions : List Action) : Runs.Throughout step Answered ({} : Ledger) actions := by
  refine Runs.throughout_of_invariant (I := fun l : Ledger => l.sys.Posting ∧
    l.Answered) ?_ (fun _ before => before.2) ?_
  · rintro l a m ⟨posting, answered⟩ taken
    obtain ⟨t, moved, rfl⟩ := Option.map_eq_some_iff.mp taken
    exact ⟨posting_step posting moved, answered_step posting answered taken⟩
  · exact ⟨⟨nofun, nofun⟩, rfl, fun _ => rfl, rfl⟩

end Ledger

/-! ### A retransmission is delivered again -/

/-- Between two deliveries at QoS 2 under one packet id, a PUBREL for it was answered. -/
def DeliveredOnce (log : List Event) : Prop :=
  ∀ later between earlier p topic payload topic' payload',
    log = later ++ .message topic' payload' 2 p :: (between ++ .message topic payload 2 p :: earlier) →
    .handed (.pubcomp p) ∈ between

namespace Sys

/-- The broker sends a QoS 2 PUBLISH with the packet id 7 and, before any PUBREL, sends it again
with DUP. -/
def retransmitted : List Action :=
  let body : Bytes := [0, 1, 0x74, 0, 7]
  opened ++ [.call (.onMessage true), .kernel (.read 0 (.ok [0x34, 5])), .run, .kernel (.read 0 (.ok body)), .run, .run,
    .exec, .exec, .ret, .exec, .exec, .run, .kernel (.read 0 (.ok [0x3c, 5])), .run, .kernel (.read 1 (.ok body)), .run,
    .run, .exec, .exec, .ret, .exec]

theorem retransmission_delivered : ¬ ∀ actions s, Runs.exec step {} actions = some s → DeliveredOnce s.log := by
  intro claimed
  let twice : List Event := [.handed (.pubrec 7), .message [0x74] [] 2 7, .handed (.pubrec 7), .message [0x74] [] 2 7]
  have run : (Runs.exec step ({} : Sys) retransmitted).map (fun s => s.log.take 4 == twice) = some true := by
    decide +kernel
  obtain ⟨s, done, recent⟩ := Runs.exec_of_check run
  have split := List.take_append_drop 4 s.log
  rw [eq_of_beq recent] at split
  have answered := claimed _ s done [.handed (.pubrec 7)] [.handed (.pubrec 7)] (s.log.drop 4) 7 [0x74] [] [0x74] []
    split.symm
  simp at answered

end Sys
end LiteMqtt
