import LiteMqtt.Client.Model
import LiteMqtt.General.Runs

/-!
# The effects of client code

A step of the client starts a piece of code and the code has effects, one after another. Each
effect has at most one topic. What a piece of code may be about is said once, so a result that
concerns one topic has to look only at the code that has it.
-/

namespace LiteMqtt

inductive Topic where
  /-- Connect attempts: their start, their CONNECT, and what is reported of them. -/
  | connect
  /-- Publishes, and the callbacks that go with them. -/
  | publish
  | subscribe
  /-- `closed_` is set. -/
  | session
  /-- The loops of `notify_closed_once`. -/
  | loop
  /-- An inbound packet is about to be handled. -/
  | packet
  /-- What the user has set. -/
  | settings
  /-- Freed memory is read. -/
  | crash
  deriving DecidableEq, Repr

def Work.topic : Work → Option Topic
  | .reportConnect .. => some .connect
  | .asyncPublishImpl .. | .reportPublish .. => some .publish
  | .asyncSubscribeImpl .. | .reportSubscribe .. | .subackEach .. | .subscribeWritten .. => some .subscribe
  | .publishEach _ | .publishCancel _ | .publishClear | .subscribeEach _ | .subscribeFilters ..
  | .subscribeClear => some .loop
  | .handlePacket .. => some .packet
  | .timer .. | .user | .startReadLoop _ | .acknowledge .. | .notifyClosedOnce
  | .notifyClose | .finishPublishFailure _ | .onClosed => none

/-- Posted to the io thread, and never called directly. -/
def Work.isPosted : Work → Bool
  | .asyncPublishImpl .. | .asyncSubscribeImpl .. | .timer .. => true
  | _ => false

def Work.isTimer : Work → Bool
  | .timer .. => true
  | _ => false

def TimerHandler.topic : TimerHandler → Option Topic
  | .connectTimeout _ => some .connect
  | .publishRetry _ => some .publish
  | _ => none

def Event.topic : Event → Option Topic
  | .connectCalled | .connectReport .. | .received .connack .. => some .connect
  | .publishCalled _ | .accepted .. | .published .. | .handed (.publish _) => some .publish
  | .subscribeCalled _ | .subscribed .. | .subscribeReport .. | .received .suback .. => some .subscribe
  | _ => none

/-- What a piece of client code does, one thing at a time. -/
inductive Effect where
  | record (e : Event)
  | push (k : Work)
  | post (k : Work)
  | write (packet : Packet) (handler : Handler)
  | closeConnection
  | cancelTimer (timer : Nat)
  | await (wait : Wait)
  | startReadLoop (attempt : Nat)
  | asyncConnect (callback : Bool)
  | accept
  | setClosed
  | setPublishes (entries : OrderedMap UInt16 PendingPublish)
  | setPubrecs (entries : OrderedMap UInt16 PendingPubrec)
  | setSubscribes (entries : OrderedMap UInt16 PendingSubscribe)
  | number (packetId : UInt16) (timer callback : Nat)
  | configure (clientId username password : Bytes) (keepAlive : UInt16) (clean : Bool) (timeout : Nat)
      (connect message close : Bool)
  | crash

def Effect.topic : Effect → Option Topic
  | .record e => e.topic
  | .push k | .post k => k.topic
  | .write packet handler =>
      match packet, handler with
      | .connect _, _ => some .connect
      | .publish _, _ | _, .publish0 .. => some .publish
      | _, .subscribe _ => some .subscribe
      | _, _ => none
  | .await wait => wait.handler.topic
  | .asyncConnect _ | .accept => some .connect
  | .setClosed => some .session
  | .setPublishes _ => some .publish
  | .setSubscribes _ => some .subscribe
  | .configure .. => some .settings
  | .crash => some .crash
  | _ => none

/-- Only an expiry posts the completion of a wait. -/
def Effect.fits : Effect → Bool
  | .push k => !k.isPosted
  | .post k => k.isPosted && !k.isTimer
  | _ => true

/-- The effect has one of these topics or none. -/
def Effect.within (topics : List Topic) (e : Effect) : Bool := e.fits && e.topic.all (topics.contains ·)

theorem Effect.fits_of_within {e : Effect} {topics : List Topic} (h : e.within topics = true) : e.fits = true :=
  (Bool.and_eq_true_iff.mp h).1

theorem Effect.topic_of_within {e : Effect} {topics : List Topic} (h : e.within topics = true) {about : Topic}
    (absent : about ∉ topics) : e.topic ≠ some about := by
  intro same
  simp [within, same, absent] at h

theorem Effect.within_mono {e : Effect} {few many : List Topic} (h : e.within few = true)
    (more : few ⊆ many) : e.within many = true := by
  obtain ⟨fits, inside⟩ := Bool.and_eq_true_iff.mp h
  refine Bool.and_eq_true_iff.mpr ⟨fits, ?_⟩
  cases topic : e.topic with
  | none => rfl
  | some about =>
    simp only [topic, Option.all_some, List.contains_iff_mem] at inside ⊢
    exact more inside

namespace Sys

def apply (s : Sys) : Effect → Sys
  | .record e => s.record e
  | .push k => s.push [k]
  | .post k => s.post k
  | .write packet handler => s.write packet handler
  | .closeConnection => s.closeConnection
  | .cancelTimer timer => s.cancelTimer timer
  | .await wait => { s with waits := s.waits ++ [wait] }
  | .startReadLoop attempt => s.startReadLoop attempt
  | .asyncConnect callback => s.asyncConnect callback
  | .accept => { s with net := s.net.markConnected, closed := false }
  | .setClosed => { s with closed := true }
  | .setPublishes entries => { s with pendingPublishes := entries }
  | .setPubrecs entries => { s with pendingPubrecs := entries }
  | .setSubscribes entries => { s with pendingSubscribes := entries }
  | .number packetId timer callback =>
      { s with nextPacketId := packetId, nextTimer := timer, nextCallback := callback }
  | .configure clientId username password keepAlive clean timeout connect message close =>
      { s with
        clientId, username, password, keepAliveSeconds := keepAlive, cleanSession := clean
        connectTimeoutMs := timeout, onConnectCb := connect, onMessageCb := message, onCloseCb := close }
  | .crash => s.crash

/-- `t` is `s` after some effects that have these topics or none. -/
def Does (topics : List Topic) : Sys → Sys → Prop :=
  Relation.ReflTransGen fun s t => ∃ e : Effect, e.within topics = true ∧ t = s.apply e

variable {s t u : Sys} {topics : List Topic}

theorem Does.refl (s : Sys) : Does topics s s := Relation.ReflTransGen.refl

theorem Does.trans (h : Does topics s t) (g : Does topics t u) : Does topics s u :=
  Relation.ReflTransGen.trans h g

theorem does_one (e : Effect) (inside : e.within topics = true) : Does topics s (s.apply e) :=
  .single ⟨e, inside, rfl⟩

theorem Does.mono {many : List Topic} (h : Does topics s t) (more : topics ⊆ many) : Does many s t := by
  refine Relation.ReflTransGen.mono ?_ s t h
  rintro u v ⟨e, inside, same⟩
  exact ⟨e, e.within_mono inside more, same⟩

/-- What every effect within the topics keeps, the code keeps. -/
theorem Does.keeps {I : Sys → Prop} (h : Does topics s t)
    (keep : ∀ s e, e.within topics = true → I s → I (s.apply e)) (start : I s) : I t := by
  induction h with
  | refl => exact start
  | tail _ last ih =>
    obtain ⟨e, inside, rfl⟩ := last
    exact keep _ e inside ih

/-! ### Shared pieces -/

theorem does_armTimer (s : Sys) (timer after : Nat) (h : TimerHandler)
    (about : h.topic.all (topics.contains ·) = true) : Does topics s (s.armTimer timer after h) :=
  (does_one (.cancelTimer timer) rfl).trans (does_one (.await _) (Bool.and_eq_true_iff.mpr ⟨rfl, about⟩))

theorem does_cancelTimers (s : Sys) (timers : List Nat) : Does topics s (s.cancelTimers timers) := by
  induction timers generalizing s with
  | nil => exact .refl s
  | cons timer timers ih => exact (does_one (.cancelTimer timer) rfl).trans (ih _)

theorem does_schedulePingreq (s : Sys) (attempt : Nat) : Does topics s (s.schedulePingreq attempt) := by
  unfold schedulePingreq
  split
  · exact .refl s
  · exact does_armTimer s _ _ _ rfl

theorem does_armPublishRetryTimer (s : Sys) (p : UInt16) : Does [.publish] s (s.armPublishRetryTimer p) := by
  unfold armPublishRetryTimer
  split
  · exact .refl s
  · exact does_armTimer s _ _ _ rfl

theorem does_armPubrecRetryTimer (s : Sys) (p : UInt16) : Does topics s (s.armPubrecRetryTimer p) := by
  unfold armPubrecRetryTimer
  split
  · exact .refl s
  · exact does_armTimer s _ _ _ rfl

theorem does_cancelPublishRetryTimer (s : Sys) (p : UInt16) :
    Does topics s (s.cancelPublishRetryTimer p) := by
  unfold cancelPublishRetryTimer
  split
  · exact .refl s
  · exact does_one (.cancelTimer _) rfl

theorem does_tellPublish (s : Sys) (cb : Callback) (ok : Bool) (topic : Bytes) (qos : UInt8) (p : UInt16)
    (about : Topic.publish ∈ topics) : Does topics s (s.tellPublish cb ok topic qos p) := by
  unfold tellPublish
  split
  · refine (does_one (.record (.published cb ok topic qos p)) ?_).trans (does_one (.push .user) rfl)
    exact Bool.and_eq_true_iff.mpr ⟨rfl, List.contains_iff_mem.mpr about⟩
  · exact .refl s

theorem does_tellSubscribe (s : Sys) (cb : Callback) (ok : Bool) (topic : Bytes) (qos : UInt8)
    (about : Topic.subscribe ∈ topics) : Does topics s (s.tellSubscribe cb ok topic qos) := by
  unfold tellSubscribe
  split
  · refine (does_one (.record (.subscribeReport cb ok topic qos)) ?_).trans (does_one (.push .user) rfl)
    exact Bool.and_eq_true_iff.mpr ⟨rfl, List.contains_iff_mem.mpr about⟩
  · exact .refl s

theorem does_reportConnect (s : Sys) (ok : Bool) (rc : UInt8) :
    Does [.connect] s (s.reportConnect ok rc) := by
  unfold reportConnect
  split
  · exact (does_one (.record (.connectReport ok rc)) rfl).trans (does_one (.push .user) rfl)
  · exact .refl s

theorem does_sendPublishEntry (s : Sys) (p : UInt16) : Does [.publish] s (s.sendPublishEntry p) := by
  unfold sendPublishEntry
  split
  · exact .refl s
  · exact (does_armPublishRetryTimer s p).trans (does_one (.write _ _) rfl)

theorem does_sendPubrel (s : Sys) (p : UInt16) : Does topics s (s.sendPubrel p) :=
  (does_armPubrecRetryTimer s p).trans (does_one (.write _ _) rfl)

theorem does_acquirePacketId (s : Sys) : Does topics s s.acquirePacketId.1 :=
  does_one (.number _ s.nextTimer s.nextCallback) rfl

theorem does_erasePubrec (s : Sys) (p : UInt16) : Does topics s (s.erasePubrec p) := by
  unfold erasePubrec
  split
  · exact .refl s
  · exact (does_one (.cancelTimer _) rfl).trans (does_one (.setPubrecs _) rfl)

theorem does_insertPubrec (s : Sys) (p : UInt16) : Does topics s (s.insertPubrec p) := by
  have stored : ∀ u : Sys, Does topics u { u with
      nextTimer := u.nextTimer + 1
      pendingPubrecs := u.pendingPubrecs.insert p { timer := u.nextTimer, attempts := 0 } } := fun u =>
    (does_one (.number u.nextPacketId (u.nextTimer + 1) u.nextCallback) rfl).trans
      (does_one (.setPubrecs (u.pendingPubrecs.insert p { timer := u.nextTimer, attempts := 0 })) rfl)
  unfold insertPubrec
  dsimp only
  split
  · exact stored s
  · exact (does_one (.cancelTimer _) rfl).trans (stored _)

theorem does_finishPublishSuccess (s : Sys) (p : UInt16) : Does [.publish] s (s.finishPublishSuccess p) := by
  unfold finishPublishSuccess
  split
  · exact .refl s
  · refine (does_cancelPublishRetryTimer s p).trans ?_
    exact (does_one (.setPublishes _) rfl).trans (does_tellPublish _ _ _ _ _ _ (by decide))

/-! ### Each piece of client code -/

def packetTopics : Bytes → List Topic
  | [] => []
  | byte :: _ =>
      match PacketType.ofUint8 (byte >>> 4) with
      | .connack => [.connect, .session]
      | .suback => [.subscribe]
      | .puback | .pubcomp => [.publish]
      | _ => []

def timerTopics : TimerHandler → List Topic
  | .connectTimeout _ => [.connect, .session]
  | .publishRetry _ => [.publish]
  | _ => []

/-- What a posted task or a running function may be about. -/
def workTopics : Work → List Topic
  | .asyncPublishImpl .. | .finishPublishFailure _ | .reportPublish .. => [.publish]
  | .asyncSubscribeImpl .. | .subackEach .. | .reportSubscribe .. | .subscribeClear => [.subscribe]
  | .timer handler _ => timerTopics handler
  | .handlePacket _ data => packetTopics data
  | .notifyClosedOnce => [.session, .loop]
  | .publishEach _ => [.publish, .loop, .crash]
  | .publishCancel _ | .subscribeEach _ => [.loop, .crash]
  | .publishClear => [.publish, .loop]
  | .subscribeFilters .. => [.subscribe, .loop, .crash]
  | .subscribeWritten .. => [.subscribe, .crash]
  | .reportConnect .. => [.connect]
  | .user | .startReadLoop _ | .acknowledge .. | .notifyClose | .onClosed => []

def invocationTopics : Invocation Handler → List Topic
  | .connect .. => [.connect]
  | .write _ (.publish0 ..) _ | .write _ (.publish _) _ => [.publish]
  | .write _ (.subscribe _) _ => [.subscribe, .crash]
  | .read .. => [.packet]
  | _ => []

def callTopics : Call → List Topic
  | .asyncConnect _ => [.connect]
  | .asyncPublish .. | .handlePuback _ | .handlePubcomp _ => [.publish]
  | .asyncSubscribe .. | .handleSuback _ => [.subscribe]
  | .handlePacket data => packetTopics data
  | .setClientId _ | .setKeepAlive _ | .setCleanSession _ | .setUsername _ | .setPassword _ | .setConnectTimeout _
  | .onConnect _ | .onMessage _ | .onClose _ => [.settings]
  | _ => []

theorem packetTopics_few (data : Bytes) : packetTopics data ⊆ [.connect, .session, .subscribe, .publish] := by
  unfold packetTopics
  split
  · exact List.nil_subset _
  · split <;> decide

theorem workTopics_few (k : Work) : workTopics k ⊆ [.connect, .session, .subscribe, .publish, .loop, .crash] := by
  cases k with
  | handlePacket attempt data => exact List.Subset.trans (packetTopics_few data) (by decide)
  | timer h ec => cases h <;> simp [workTopics, timerTopics]
  | _ => simp [workTopics]

theorem invocationTopics_few (call : Invocation Handler) :
    invocationTopics call ⊆ [.connect, .publish, .subscribe, .packet, .crash] := by
  unfold invocationTopics
  split <;> decide

theorem callTopics_few (c : Call) : callTopics c ⊆ [.connect, .session, .subscribe, .publish, .settings] := by
  cases c with
  | handlePacket data => exact List.Subset.trans (packetTopics_few data) (by decide)
  | _ => simp [callTopics]

theorem does_asyncPublishImpl (s : Sys) (topic payload : Bytes) (qos : UInt8) (cb : Callback) :
    Does [.publish] s (s.asyncPublishImpl topic payload qos cb) := by
  unfold asyncPublishImpl
  split
  · exact does_tellPublish s _ _ _ _ _ (by decide)
  split
  · exact does_tellPublish s _ _ _ _ _ (by decide)
  split
  · exact does_tellPublish s _ _ _ _ _ (by decide)
  split
  · exact (does_one (.record (.accepted 0 0 cb)) rfl).trans (does_one (.write _ _) rfl)
  refine (does_acquirePacketId s).trans ?_
  dsimp only
  split
  · exact (does_one (.push (.reportPublish cb topic qos)) rfl).trans (does_one (.push .notifyClosedOnce) rfl)
  split
  · exact does_tellPublish _ _ _ _ _ _ (by decide)
  · refine .trans ?_ (does_sendPublishEntry _ _)
    refine (does_one (.number s.acquirePacketId.1.nextPacketId (s.nextTimer + 1) s.nextCallback) rfl).trans ?_
    exact (does_one (.setPublishes _) rfl).trans (does_one (.record (.accepted _ qos cb)) rfl)

theorem does_asyncSubscribeImpl (s : Sys) (topic : Bytes) (qos : UInt8) (cb : Callback) :
    Does [.subscribe] s (s.asyncSubscribeImpl topic qos cb) := by
  unfold asyncSubscribeImpl
  split
  · exact does_tellSubscribe s _ _ _ _ (by decide)
  split
  · exact does_tellSubscribe s _ _ _ _ (by decide)
  refine (does_acquirePacketId s).trans ?_
  dsimp only
  split
  · exact (does_one (.push (.reportSubscribe cb topic)) rfl).trans (does_one (.push .notifyClosedOnce) rfl)
  · refine .trans ?_ (does_one (.write _ _) rfl)
    exact (does_one (.setSubscribes _) rfl).trans (does_one (.record (.subscribed _ cb)) rfl)

theorem does_handleConnectTimeout (s : Sys) : Does [.connect, .session] s s.handleConnectTimeout := by
  unfold handleConnectTimeout
  split
  · exact .refl s
  · refine (does_one .setClosed rfl).trans ?_
    exact (does_one (.push (.reportConnect false 255)) rfl).trans (does_one .closeConnection rfl)

theorem does_onPublishRetry (s : Sys) (p : UInt16) : Does [.publish] s (s.onPublishRetry p) := by
  unfold onPublishRetry
  split
  · exact .refl s
  · split
    · exact does_one (.push (.finishPublishFailure p)) rfl
    · exact (does_one (.setPublishes _) rfl).trans (does_sendPublishEntry _ p)

theorem does_onPubrecRetry (s : Sys) (p : UInt16) : Does [] s (s.onPubrecRetry p) := by
  unfold onPubrecRetry
  split
  · exact .refl s
  · split
    · exact (does_one (.cancelTimer _) rfl).trans (does_one (.push .notifyClosedOnce) rfl)
    · exact (does_one (.setPubrecs _) rfl).trans (does_sendPubrel _ p)

theorem does_onTimer (s : Sys) (h : TimerHandler) (ec : ErrorCode) : Does (timerTopics h) s (s.onTimer h ec) := by
  unfold onTimer
  split
  · exact .refl s
  · cases h with
    | connectTimeout => exact does_handleConnectTimeout s
    | ping attempt => exact does_one (.write .pingreq (.pingreq attempt)) rfl
    | pingDeadline => exact does_one (.push .notifyClosedOnce) rfl
    | publishRetry p => exact does_onPublishRetry s p
    | pubrecRetry p => exact does_onPubrecRetry s p

theorem does_handleConnack (s : Sys) (data : Bytes) : Does [.connect, .session] s (s.handleConnack data) := by
  unfold handleConnack
  refine .trans ((does_one (.cancelTimer connectTimer) rfl).trans
    (does_one (.record (.received .connack 0 [(ConnackPacket.parse data).returnCode])) rfl)) ?_
  dsimp only
  split
  · exact (does_one .accept rfl).trans (does_one (.push (.reportConnect true 0)) rfl)
  · refine (does_one .setClosed rfl).trans ?_
    exact (does_one (.push (.reportConnect false _)) rfl).trans (does_one .closeConnection rfl)

theorem does_handlePublish (s : Sys) (data : Bytes) : Does [] s (s.handlePublish data) := by
  unfold handlePublish
  dsimp only
  split
  · exact does_one (.push .notifyClosedOnce) rfl
  · let pkt := PublishPacket.parse data
    refine (does_one (.push (.acknowledge pkt.qos pkt.packetId)) rfl).trans ?_
    split
    · exact (does_one (.record (.message _ _ _ _)) rfl).trans (does_one (.push .user) rfl)
    · exact .refl _

theorem does_handleSuback (s : Sys) (data : Bytes) : Does [.subscribe] s (s.handleSuback data) := by
  unfold handleSuback
  let pkt := SubackPacket.parse data
  refine .trans (does_one (.record (.received .suback pkt.packetId pkt.returnCodes)) rfl) ?_
  dsimp only
  split
  · exact .refl _
  · refine (does_one (.setSubscribes (s.pendingSubscribes.erase pkt.packetId)) rfl).trans ?_
    split
    · exact .refl _
    · split
      · exact does_one (.push .notifyClosedOnce) rfl
      · exact does_one (.push (.subackEach _ _)) rfl

theorem does_handlePuback (s : Sys) (data : Bytes) : Does [.publish] s (s.handlePuback data) :=
  (does_one (.record (.received .puback _ [])) rfl).trans (does_finishPublishSuccess _ _)

theorem does_handlePubrec (s : Sys) (data : Bytes) : Does [] s (s.handlePubrec data) := by
  unfold handlePubrec
  refine .trans (does_one (.record (.received .pubrec (parseId data) [])) rfl) ?_
  dsimp only
  split
  · refine (does_cancelPublishRetryTimer _ (parseId data)).trans ?_
    exact (does_insertPubrec _ (parseId data)).trans (does_sendPubrel _ (parseId data))
  · exact .refl _

theorem does_handlePubcomp (s : Sys) (data : Bytes) : Does [.publish] s (s.handlePubcomp data) := by
  refine (does_one (.record (.received .pubcomp (parseId data) [])) rfl).trans ?_
  exact (does_erasePubrec _ (parseId data)).trans (does_finishPublishSuccess _ (parseId data))

theorem does_handlePubrel (s : Sys) (data : Bytes) : Does [] s (s.handlePubrel data) :=
  does_one (.write (.pubcomp _) .acknowledged) rfl

theorem does_handlePacket (s : Sys) (attempt : Nat) (data : Bytes) :
    Does (packetTopics data) s (s.handlePacket attempt data) := by
  cases data with
  | nil => exact .refl s
  | cons byte rest =>
    unfold handlePacket packetTopics
    dsimp only
    cases PacketType.ofUint8 (byte >>> 4) with
    | connack => exact does_handleConnack s _
    | publish => exact does_handlePublish s _
    | suback => exact does_handleSuback s _
    | puback => exact does_handlePuback s _
    | pubrec => exact does_handlePubrec s _
    | pubrel => exact does_handlePubrel s _
    | pubcomp => exact does_handlePubcomp s _
    | pingresp => exact (does_one (.cancelTimer pingTimer) rfl).trans (does_schedulePingreq _ _)
    | _ => exact .refl s

theorem does_acknowledge (s : Sys) (qos : UInt8) (p : UInt16) : Does [] s (s.acknowledge qos p) := by
  unfold acknowledge
  split
  · exact does_one (.write _ .acknowledged) rfl
  · split
    · exact does_one (.write _ .acknowledged) rfl
    · exact .refl s

theorem does_notifyClosedOnce (s : Sys) : Does [.session, .loop] s s.notifyClosedOnce := by
  unfold notifyClosedOnce
  split
  · exact .refl s
  · refine .trans (does_one .setClosed rfl) (.trans (does_one (.cancelTimer pingTimer) rfl) ?_)
    refine .trans (does_one (.cancelTimer connectTimer) rfl) ?_
    dsimp only
    split
    · exact does_one (.push (.publishEach _)) rfl
    · exact does_one (.push .publishClear) rfl

theorem does_publishEach (s : Sys) (p : UInt16) : Does [.publish, .loop, .crash] s (s.publishEach p) := by
  unfold publishEach
  split
  · exact does_one .crash rfl
  · exact (does_one (.push (.publishCancel p)) rfl).trans (does_tellPublish _ _ _ _ _ _ (by decide))

theorem does_publishCancel (s : Sys) (p : UInt16) : Does [.loop, .crash] s (s.publishCancel p) := by
  unfold publishCancel
  split
  · exact does_one .crash rfl
  · split
    · exact (does_one (.cancelTimer _) rfl).trans (does_one (.push (.publishEach _)) rfl)
    · exact (does_one (.cancelTimer _) rfl).trans (does_one (.push .publishClear) rfl)

theorem does_publishClear (s : Sys) : Does [.publish, .loop] s s.publishClear := by
  unfold publishClear
  let u := s.cancelTimers (s.pendingPublishes.entries.map fun e => e.2.timer)
  refine (does_cancelTimers s _).trans (t := u) ?_
  refine (does_cancelTimers u (u.pendingPubrecs.entries.map fun e => e.2.timer)).trans ?_
  refine (does_one (.setPublishes .empty) rfl).trans ((does_one (.setPubrecs .empty) rfl).trans ?_)
  dsimp only
  split
  · exact does_one (.push (.subscribeEach _)) rfl
  · exact does_one (.push .subscribeClear) rfl

theorem does_subscribeEach (s : Sys) (p : UInt16) : Does [.loop, .crash] s (s.subscribeEach p) := by
  unfold subscribeEach
  split
  · exact does_one .crash rfl
  · exact does_one (.push (.subscribeFilters _ _ _)) rfl

theorem does_subscribeFilters (s : Sys) (p : UInt16) (cb : Callback) (rest : List (Bytes × UInt8)) :
    Does [.subscribe, .loop, .crash] s (s.subscribeFilters p cb rest) := by
  unfold subscribeFilters
  split
  · split
    · exact (does_one (.push (.subscribeFilters _ _ _)) rfl).trans (does_tellSubscribe _ _ _ _ _ (by decide))
    · split
      · exact does_one (.push (.subscribeEach _)) rfl
      · exact does_one (.push .subscribeClear) rfl
  · exact does_one .crash rfl

theorem does_subscribeClear (s : Sys) : Does [.subscribe] s s.subscribeClear :=
  (does_one (.setSubscribes .empty) rfl).trans
    ((does_one (.push .notifyClose) rfl).trans (does_one .closeConnection rfl))

theorem does_finishPublishFailure (s : Sys) (p : UInt16) : Does [.publish] s (s.finishPublishFailure p) := by
  unfold finishPublishFailure
  split
  · exact does_one (.push .notifyClosedOnce) rfl
  · let u := s.cancelPublishRetryTimer p
    refine (does_cancelPublishRetryTimer s p).trans (t := u) ?_
    refine (does_one (.setPublishes (u.pendingPublishes.erase p)) rfl).trans ?_
    exact (does_one (.push .notifyClosedOnce) rfl).trans (does_tellPublish _ _ _ _ _ _ (by decide))

theorem does_subackEach (s : Sys) (cb : Callback) (rest : List (Bytes × UInt8)) :
    Does [.subscribe] s (s.subackEach cb rest) := by
  cases rest with
  | nil => exact .refl s
  | cons first rest =>
    exact (does_one (.push (.subackEach cb rest)) rfl).trans (does_tellSubscribe _ _ _ _ _ (by decide))

theorem does_subscribeWritten (s : Sys) (p : UInt16) (cb : Callback) (rest : List (Bytes × UInt8)) :
    Does [.subscribe, .crash] s (s.subscribeWritten p cb rest) := by
  cases rest with
  | nil => exact .refl s
  | cons first rest =>
    unfold subscribeWritten
    dsimp only
    split
    · exact (does_one (.push (.subscribeWritten p cb rest)) rfl).trans (does_tellSubscribe _ _ _ _ _ (by decide))
    · exact does_one .crash rfl

theorem does_execute (s : Sys) (k : Work) : Does (workTopics k) s (s.execute k) := by
  cases k with
  | asyncPublishImpl topic payload qos cb => exact does_asyncPublishImpl s topic payload qos cb
  | asyncSubscribeImpl topic qos cb => exact does_asyncSubscribeImpl s topic qos cb
  | timer h ec => exact does_onTimer s h ec
  | user => exact .refl s
  | handlePacket attempt data => exact does_handlePacket s attempt data
  | startReadLoop attempt => exact does_one (.startReadLoop attempt) rfl
  | acknowledge qos p => exact does_acknowledge s qos p
  | notifyClosedOnce => exact does_notifyClosedOnce s
  | publishEach p => exact does_publishEach s p
  | publishCancel p => exact does_publishCancel s p
  | publishClear => exact does_publishClear s
  | subscribeEach p => exact does_subscribeEach s p
  | subscribeFilters p cb rest => exact does_subscribeFilters s p cb rest
  | subscribeClear => exact does_subscribeClear s
  | notifyClose =>
    change Does [] s (if s.onCloseCb then _ else _)
    split
    · exact (does_one (.record .closeReport) rfl).trans (does_one (.push .user) rfl)
    · exact .refl s
  | finishPublishFailure p => exact does_finishPublishFailure s p
  | subackEach cb rest => exact does_subackEach s cb rest
  | subscribeWritten p cb rest => exact does_subscribeWritten s p cb rest
  | reportConnect ok rc => exact does_reportConnect s ok rc
  | reportPublish cb topic qos => exact does_tellPublish s _ _ _ _ _ (.head _)
  | reportSubscribe cb topic => exact does_tellSubscribe s _ _ _ _ (.head _)
  | onClosed => exact (does_one (.record .disconnected) rfl).trans (does_one (.push .user) rfl)

theorem does_onSubscribeWritten (s : Sys) (p : UInt16) (ec : ErrorCode) :
    Does [.subscribe, .crash] s (s.onSubscribeWritten p ec) := by
  unfold onSubscribeWritten
  split
  · exact .refl s
  · split
    · split
      · exact does_one (.push (.subscribeWritten _ _ _)) rfl
      · exact .refl s
    · refine (does_one (.setSubscribes (s.pendingSubscribes.erase p)) rfl).trans ?_
      dsimp only
      split
      · exact does_one .crash rfl
      · exact .refl _

theorem does_onWritten (s : Sys) (serial : Nat) (h : Handler) (ec : ErrorCode) :
    Does (invocationTopics (.write serial h ec)) s (s.onWritten h ec) := by
  have closing : Does [] s (if ec.isSome then s.push [.notifyClosedOnce] else s) := by
    split
    · exact does_one (.push .notifyClosedOnce) rfl
    · exact .refl s
  cases h with
  | connectWrite attempt =>
    unfold onWritten onConnectWritten
    dsimp only
    split
    · exact does_one (.push .notifyClosedOnce) rfl
    · exact (does_schedulePingreq s attempt).trans (does_one (.startReadLoop attempt) rfl)
  | publish0 cb topic => exact does_tellPublish s _ _ _ _ _ (.head _)
  | publish p =>
    unfold onWritten
    dsimp only
    split
    · exact does_one (.push (.finishPublishFailure p)) rfl
    · exact does_armPublishRetryTimer s p
  | pubrel p =>
    unfold onWritten onPubrelWritten
    dsimp only
    split
    · exact does_erasePubrec s p
    · exact does_armPubrecRetryTimer s p
  | subscribe p => exact does_onSubscribeWritten s p ec
  | acknowledged => exact closing
  | pingreq attempt =>
    unfold onWritten onPingreqWritten
    dsimp only
    split
    · exact does_one (.push .notifyClosedOnce) rfl
    · exact does_armTimer s _ _ _ rfl
  | disconnect onClosed =>
    refine .trans ?_ (does_one .closeConnection rfl)
    split
    · exact does_one (.push .onClosed) rfl
    · exact .refl s
  | connect => exact .refl s
  | read => exact .refl s

theorem does_onInvoke (s : Sys) (call : Invocation Handler) : Does (invocationTopics call) s (s.onInvoke call) := by
  unfold onInvoke
  split
  · unfold onConnect
    split
    · exact .refl s
    · split
      · exact does_reportConnect s _ _
      · exact does_one (.write (.connect _) _) rfl
  · unfold onRead
    split
    · exact does_one (.push .notifyClosedOnce) rfl
    · exact (does_one (.push (.startReadLoop _)) rfl).trans (does_one (.push (.handlePacket _ _)) rfl)
  · exact does_onWritten s _ _ _
  · exact .refl s

theorem does_configure (s : Sys) {t : Sys}
    (same : t = { s with
      clientId := t.clientId, username := t.username, password := t.password
      keepAliveSeconds := t.keepAliveSeconds, cleanSession := t.cleanSession
      connectTimeoutMs := t.connectTimeoutMs, onConnectCb := t.onConnectCb
      onMessageCb := t.onMessageCb, onCloseCb := t.onCloseCb }) : Does [.settings] s t :=
  .single ⟨.configure t.clientId t.username t.password t.keepAliveSeconds t.cleanSession
    t.connectTimeoutMs t.onConnectCb t.onMessageCb t.onCloseCb, rfl, same⟩

theorem does_call (s : Sys) (c : Call) : Does (callTopics c) s (s.call c) := by
  cases c with
  | asyncConnect callback => exact does_one (.asyncConnect callback) rfl
  | asyncDisconnect onClosed =>
    exact (does_one (.cancelTimer pingTimer) rfl).trans (does_one (.write .disconnect _) rfl)
  | close => exact does_one .closeConnection rfl
  | asyncPublish topic payload qos callable =>
    refine (does_one (.number s.nextPacketId s.nextTimer (s.nextCallback + 1)) rfl).trans ?_
    exact (does_one (.record (.publishCalled _)) rfl).trans (does_one (.post (.asyncPublishImpl _ _ _ _)) rfl)
  | asyncSubscribe topic qos callable =>
    refine (does_one (.number s.nextPacketId s.nextTimer (s.nextCallback + 1)) rfl).trans ?_
    exact (does_one (.record (.subscribeCalled _)) rfl).trans (does_one (.post (.asyncSubscribeImpl _ _ _)) rfl)
  | handlePacket data => exact does_handlePacket s s.attempts data
  | handlePuback data => exact does_handlePuback s data
  | handlePubrec data => exact does_handlePubrec s data
  | handlePubcomp data => exact does_handlePubcomp s data
  | handlePubrel data => exact does_handlePubrel s data
  | handleSuback data => exact does_handleSuback s data
  | handlePublish data => exact does_handlePublish s data
  | _ => exact does_configure s rfl

end Sys
end LiteMqtt
