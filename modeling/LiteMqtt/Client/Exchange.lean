import LiteMqtt.Client.Model
import LiteMqtt.General.Runs

/-!
# What a step does to the publishes in progress

Most steps leave the acknowledged publishes alone: they accept none, send none and report no
success. `Calm` says so. The other steps handle an acknowledgement or are `Notable`, with all
that each does to the pending maps and to the history.
-/

namespace LiteMqtt

/-- The event does not start a connect attempt, and no publish is accepted, sent, acknowledged
or, unless at QoS 0, a success. -/
def Event.isCalm : Event → Bool
  | .connectCalled => false
  | .accepted .. => false
  | .handed (.publish _) => false
  | .handed (.pubrel _) => false
  | .published _ true _ qos _ => qos == 0
  | .received pt _ _ => pt == .connack || pt == .suback
  | _ => true

namespace Sys

/-- Only calm events are recorded, and the pending maps at most lose entries. -/
structure Calm (s t : Sys) : Prop where
  log : ∃ news, t.log = news ++ s.log ∧ ∀ e ∈ news, e.isCalm = true
  publishes : ∀ packetId entry, t.pendingPublishes.find? packetId = some entry →
    s.pendingPublishes.find? packetId = some entry
  pubrecs : ∀ packetId entry, t.pendingPubrecs.find? packetId = some entry →
    s.pendingPubrecs.find? packetId = some entry

variable {s t u : Sys}

theorem Calm.of_same (log : t.log = s.log) (publishes : t.pendingPublishes = s.pendingPublishes)
    (pubrecs : t.pendingPubrecs = s.pendingPubrecs) : Calm s t :=
  ⟨⟨[], log, nofun⟩, fun _ _ => publishes ▸ id, fun _ _ => pubrecs ▸ id⟩

theorem contains_of_kept {α : Type} {m n : OrderedMap UInt16 α} (kept : ∀ p e, n.find? p = some e → m.find? p = some e)
    (p : UInt16) (held : n.contains p = true) : m.contains p = true := by
  obtain ⟨e, found⟩ := Option.isSome_iff_exists.mp held
  exact Option.isSome_iff_exists.mpr ⟨e, kept p e found⟩

theorem Calm.refl (s : Sys) : Calm s s := .of_same rfl rfl rfl

theorem Calm.trans (h : Calm s t) (g : Calm t u) : Calm s u := by
  obtain ⟨⟨first, log, calm⟩, publishes, pubrecs⟩ := h
  obtain ⟨⟨later, log', calm'⟩, publishes', pubrecs'⟩ := g
  refine ⟨⟨later ++ first, by rw [log', log, List.append_assoc], ?_⟩,
    fun p e found => publishes p e (publishes' p e found), fun p e found => pubrecs p e (pubrecs' p e found)⟩
  intro e among
  exact (List.mem_append.mp among).elim (calm' e) (calm e)

theorem calm_record {e : Event} (calm : e.isCalm = true) : Calm s (s.record e) :=
  ⟨⟨[e], rfl, fun _ among => List.mem_singleton.mp among ▸ calm⟩, fun _ _ => id, fun _ _ => id⟩

theorem calm_push (s : Sys) (ks : List Work) : Calm s (s.push ks) := .of_same rfl rfl rfl

theorem calm_post (s : Sys) (k : Work) : Calm s (s.post k) := .of_same rfl rfl rfl

theorem calm_write {p : Packet} (h : Handler) (calm : (Event.handed p).isCalm = true) :
    Calm s (s.write p h) :=
  .trans (t := { s with net := s.net.asyncWritePacket p.serialize (some h) }) (.of_same rfl rfl rfl)
    (calm_record calm)

theorem calm_closeConnection (s : Sys) : Calm s s.closeConnection := by
  unfold closeConnection
  split
  · exact .refl s
  · exact .trans (t := { s with net := s.net.close }) (.of_same rfl rfl rfl) (calm_record rfl)

theorem calm_cancelTimer (s : Sys) (timer : Nat) : Calm s (s.cancelTimer timer) := .of_same rfl rfl rfl

theorem calm_armTimer (s : Sys) (timer after : Nat) (h : TimerHandler) : Calm s (s.armTimer timer after h) :=
  .of_same rfl rfl rfl

theorem cancelTimers_same (s : Sys) (timers : List Nat) : (s.cancelTimers timers).log = s.log ∧
    (s.cancelTimers timers).pendingPublishes = s.pendingPublishes ∧
    (s.cancelTimers timers).pendingPubrecs = s.pendingPubrecs := by
  induction timers generalizing s with
  | nil => exact ⟨rfl, rfl, rfl⟩
  | cons timer timers ih => exact ih (s.cancelTimer timer)

theorem calm_erasePublish (s : Sys) (packetId : UInt16) :
    Calm s { s with pendingPublishes := s.pendingPublishes.erase packetId } := by
  refine ⟨⟨[], rfl, nofun⟩, fun p e found => ?_, fun _ _ => id⟩
  rw [OrderedMap.find?_erase] at found
  split at found
  · contradiction
  · exact found

theorem calm_erasePubrec (s : Sys) (packetId : UInt16) : Calm s (s.erasePubrec packetId) := by
  unfold erasePubrec
  split
  · exact .refl s
  · refine ⟨⟨[], rfl, nofun⟩, fun _ _ => id, fun p e found => ?_⟩
    simp only [OrderedMap.find?_erase] at found
    split at found
    · contradiction
    · exact found

theorem calm_tellPublish (s : Sys) {cb : Callback} {ok : Bool} {topic : Bytes} {qos : UInt8} {p : UInt16}
    (calm : (Event.published cb ok topic qos p).isCalm = true) : Calm s (s.tellPublish cb ok topic qos p) := by
  unfold tellPublish
  split
  · exact (calm_record calm).trans (calm_push _ _)
  · exact .refl s

theorem calm_tellSubscribe (s : Sys) (cb : Callback) (ok : Bool) (topic : Bytes) (qos : UInt8) :
    Calm s (s.tellSubscribe cb ok topic qos) := by
  unfold tellSubscribe
  split
  · exact (calm_record rfl).trans (calm_push _ _)
  · exact .refl s

theorem calm_reportConnect (s : Sys) (ok : Bool) (rc : UInt8) : Calm s (s.reportConnect ok rc) := by
  unfold reportConnect
  split
  · exact (calm_record rfl).trans (calm_push _ _)
  · exact .refl s

theorem calm_armPublishRetryTimer (s : Sys) (p : UInt16) : Calm s (s.armPublishRetryTimer p) := by
  unfold armPublishRetryTimer
  split
  · exact .refl s
  · exact calm_armTimer s _ _ _

theorem calm_armPubrecRetryTimer (s : Sys) (p : UInt16) : Calm s (s.armPubrecRetryTimer p) := by
  unfold armPubrecRetryTimer
  split
  · exact .refl s
  · exact calm_armTimer s _ _ _

theorem calm_cancelPublishRetryTimer (s : Sys) (p : UInt16) : Calm s (s.cancelPublishRetryTimer p) := by
  unfold cancelPublishRetryTimer
  split
  · exact .refl s
  · exact calm_cancelTimer s _

theorem calm_schedulePingreq (s : Sys) (attempt : Nat) : Calm s (s.schedulePingreq attempt) := by
  unfold schedulePingreq
  split
  · exact .refl s
  · exact calm_armTimer s _ _ _

/-! ### Completions that are calm -/

theorem calm_onConnect (s : Sys) (attempt : Nat) (ec : ErrorCode) : Calm s (s.onConnect attempt ec) := by
  unfold onConnect
  split
  · exact .refl s
  · split
    · exact calm_reportConnect s _ _
    · exact calm_write _ rfl

theorem calm_handleConnectTimeout (s : Sys) : Calm s s.handleConnectTimeout := by
  unfold handleConnectTimeout
  split
  · exact .refl s
  · refine .trans (t := { s with closed := true }) (.of_same rfl rfl rfl) ?_
    exact (calm_push _ _).trans (calm_closeConnection _)

theorem calm_onSubscribeWritten (s : Sys) (p : UInt16) (ec : ErrorCode) :
    Calm s (s.onSubscribeWritten p ec) := by
  unfold onSubscribeWritten
  split
  · exact .refl s
  · split
    · split
      · exact calm_push _ _
      · exact .refl s
    · dsimp only
      split <;> exact .of_same rfl rfl rfl

theorem calm_onPubrelWritten (s : Sys) (p : UInt16) (ec : ErrorCode) : Calm s (s.onPubrelWritten p ec) := by
  unfold onPubrelWritten
  split
  · exact calm_erasePubrec s p
  · exact calm_armPubrecRetryTimer s p

theorem calm_onWritten (s : Sys) (h : Handler) (ec : ErrorCode) : Calm s (s.onWritten h ec) := by
  cases h with
  | connectWrite attempt =>
    unfold onWritten onConnectWritten
    dsimp only
    split
    · exact calm_push _ _
    · exact (calm_schedulePingreq s attempt).trans (.of_same rfl rfl rfl)
  | publish0 cb topic =>
    refine calm_tellPublish s ?_
    cases ec.isNone <;> rfl
  | publish p =>
    unfold onWritten
    dsimp only
    split
    · exact calm_push _ _
    · exact calm_armPublishRetryTimer s p
  | pubrel p => exact calm_onPubrelWritten s p ec
  | subscribe p => exact calm_onSubscribeWritten s p ec
  | acknowledged =>
    unfold onWritten
    dsimp only
    split
    · exact calm_push _ _
    · exact .refl s
  | pingreq attempt =>
    unfold onWritten onPingreqWritten
    dsimp only
    split
    · exact calm_push _ _
    · exact calm_armTimer s _ _ _
  | disconnect onClosed =>
    unfold onWritten
    dsimp only
    refine .trans ?_ (calm_closeConnection _)
    split
    · exact calm_push _ _
    · exact .refl s
  | connect => exact .refl s
  | read => exact .refl s

theorem calm_onInvoke (s : Sys) (call : Invocation Handler) : Calm s (s.onInvoke call) := by
  unfold onInvoke
  split
  · exact calm_onConnect s _ _
  · unfold onRead
    split <;> exact calm_push _ _
  · exact calm_onWritten s _ _
  · exact .refl s

/-! ### Client code that is calm -/

theorem calm_acquirePacketId (s : Sys) : Calm s s.acquirePacketId.1 := .of_same rfl rfl rfl

theorem calm_insertSubscribe (s : Sys) (p : UInt16) (filters : List (Bytes × UInt8)) (cb : Callback) :
    Calm s (s.insertSubscribe p filters cb) :=
  .trans (t := { s with pendingSubscribes := s.pendingSubscribes.insert p { filters, callback := cb } })
    (.of_same rfl rfl rfl) (calm_record rfl)

theorem calm_asyncSubscribeImpl (s : Sys) (topic : Bytes) (qos : UInt8) (cb : Callback) :
    Calm s (s.asyncSubscribeImpl topic qos cb) := by
  unfold asyncSubscribeImpl
  split
  · exact calm_tellSubscribe s _ _ _ _
  · split
    · exact calm_tellSubscribe s _ _ _ _
    · refine .trans (calm_acquirePacketId s) ?_
      dsimp only
      split
      · exact calm_push _ _
      · exact (calm_insertSubscribe _ _ _ _).trans (calm_write _ rfl)

theorem calm_notifyClosedOnce (s : Sys) : Calm s s.notifyClosedOnce := by
  unfold notifyClosedOnce
  split
  · exact .refl s
  · dsimp only
    split <;> exact .of_same rfl rfl rfl

theorem calm_publishEach (s : Sys) (p : UInt16) : Calm s (s.publishEach p) := by
  unfold publishEach
  split
  · exact .of_same rfl rfl rfl
  · exact (calm_push _ _).trans (calm_tellPublish _ rfl)

theorem calm_publishCancel (s : Sys) (p : UInt16) : Calm s (s.publishCancel p) := by
  unfold publishCancel
  split
  · exact .of_same rfl rfl rfl
  · split <;> exact .of_same rfl rfl rfl

theorem calm_publishClear (s : Sys) : Calm s s.publishClear := by
  unfold publishClear
  have same :=
    fun l : List Nat => cancelTimers_same (s.cancelTimers (s.pendingPublishes.entries.map fun e => e.2.timer)) l
  have same' := cancelTimers_same s (s.pendingPublishes.entries.map fun e => e.2.timer)
  have cleared : ∀ v : Sys, v.log = s.log → Calm s { v with pendingPublishes := .empty, pendingPubrecs := .empty } :=
    fun v log => ⟨⟨[], log, nofun⟩, nofun, nofun⟩
  dsimp only
  split <;> exact .trans (cleared _ ((same _).1.trans same'.1)) (calm_push _ _)

theorem calm_subscribeEach (s : Sys) (p : UInt16) : Calm s (s.subscribeEach p) := by
  unfold subscribeEach
  split
  · exact .of_same rfl rfl rfl
  · exact calm_push _ _

theorem calm_subscribeFilters (s : Sys) (p : UInt16) (cb : Callback) (rest : List (Bytes × UInt8)) :
    Calm s (s.subscribeFilters p cb rest) := by
  unfold subscribeFilters
  split
  · split
    · exact (calm_push _ _).trans (calm_tellSubscribe _ _ _ _ _)
    · split <;> exact calm_push _ _
  · exact .of_same rfl rfl rfl

theorem calm_subscribeClear (s : Sys) : Calm s s.subscribeClear := by
  unfold subscribeClear
  refine .trans (t := { s with pendingSubscribes := .empty }) (.of_same rfl rfl rfl) ?_
  exact (calm_push _ _).trans (calm_closeConnection _)

theorem calm_notifyClose (s : Sys) : Calm s s.notifyClose := by
  unfold notifyClose
  split
  · exact (calm_record rfl).trans (calm_push _ _)
  · exact .refl s

theorem calm_finishPublishFailure (s : Sys) (p : UInt16) : Calm s (s.finishPublishFailure p) := by
  unfold finishPublishFailure
  split
  · exact calm_push _ _
  · refine (calm_cancelPublishRetryTimer s p).trans ((calm_erasePublish _ p).trans ?_)
    exact (calm_push _ _).trans (calm_tellPublish _ rfl)

theorem calm_subackEach (s : Sys) (cb : Callback) (rest : List (Bytes × UInt8)) :
    Calm s (s.subackEach cb rest) := by
  unfold subackEach
  split
  · exact .refl s
  · exact (calm_push _ _).trans (calm_tellSubscribe _ _ _ _ _)

theorem calm_subscribeWritten (s : Sys) (p : UInt16) (cb : Callback) (rest : List (Bytes × UInt8)) :
    Calm s (s.subscribeWritten p cb rest) := by
  unfold subscribeWritten
  split
  · exact .refl s
  · split
    · exact (calm_push _ _).trans (calm_tellSubscribe _ _ _ _ _)
    · exact .of_same rfl rfl rfl

/-! ### Inbound packets that are calm -/

theorem calm_handleConnack (s : Sys) (data : Bytes) : Calm s (s.handleConnack data) := by
  unfold handleConnack
  refine (calm_cancelTimer s connectTimer).trans ?_
  refine .trans (calm_record (e := .received .connack 0 [(ConnackPacket.parse data).returnCode]) rfl) ?_
  dsimp only
  split
  · exact .of_same rfl rfl rfl
  · refine .trans ?_ (calm_closeConnection _)
    exact .of_same rfl rfl rfl

theorem calm_handlePublish (s : Sys) (data : Bytes) : Calm s (s.handlePublish data) := by
  unfold handlePublish
  dsimp only
  split
  · exact calm_push _ _
  · have pushed := calm_push s [.acknowledge (PublishPacket.parse data).qos (PublishPacket.parse data).packetId]
    split
    · exact pushed.trans ((calm_record rfl).trans (calm_push _ _))
    · exact pushed

theorem calm_acknowledge (s : Sys) (qos : UInt8) (p : UInt16) : Calm s (s.acknowledge qos p) := by
  unfold acknowledge
  split
  · exact calm_write _ rfl
  · split
    · exact calm_write _ rfl
    · exact .refl s

theorem calm_handleSuback (s : Sys) (data : Bytes) : Calm s (s.handleSuback data) := by
  unfold handleSuback
  refine .trans (calm_record (e := .received .suback (SubackPacket.parse data).packetId
    (SubackPacket.parse data).returnCodes) rfl) ?_
  dsimp only
  split
  · exact .refl _
  · split
    · exact .of_same rfl rfl rfl
    · split <;> exact .of_same rfl rfl rfl

theorem calm_handlePubrel (s : Sys) (data : Bytes) : Calm s (s.handlePubrel data) := calm_write _ rfl

/-! ### The steps that are not calm -/

/-- A connect attempt begins. The maps are left as they are. -/
structure Connects (s t : Sys) : Prop where
  log : t.log = .connectCalled :: s.log
  publishes : t.pendingPublishes = s.pendingPublishes
  pubrecs : t.pendingPubrecs = s.pendingPubrecs

/-- A publish is accepted or sent again, or a PUBREL is. -/
inductive Notable (s t : Sys) : Prop where
  | atMostOnce (callback : Callback) (pkt : PublishPacket) (sent : pkt.packetId = 0)
      (log : t.log = .handed (.publish pkt) :: .accepted 0 0 callback :: s.log)
      (publishes : t.pendingPublishes = s.pendingPublishes)
      (pubrecs : t.pendingPubrecs = s.pendingPubrecs)
  | accept (packetId : UInt16) (entry : PendingPublish) (pkt : PublishPacket)
      (fresh : s.takenId packetId = false) (acknowledged : entry.qos = 1 ∨ entry.qos = 2)
      (sent : pkt.packetId = packetId)
      (log : t.log = .handed (.publish pkt) :: .accepted packetId entry.qos entry.callback :: s.log)
      (publishes : t.pendingPublishes = s.pendingPublishes.insert packetId entry)
      (pubrecs : t.pendingPubrecs = s.pendingPubrecs)
  | resend (packetId : UInt16) (entry : PendingPublish) (pkt : PublishPacket)
      (held : s.pendingPublishes.find? packetId = some entry) (sent : pkt.packetId = packetId)
      (log : t.log = .handed (.publish pkt) :: s.log)
      (publishes : t.pendingPublishes =
        s.pendingPublishes.insert packetId { entry with attempts := entry.attempts + 1 })
      (pubrecs : t.pendingPubrecs = s.pendingPubrecs)
  | release (packetId : UInt16) (held : s.pendingPubrecs.contains packetId = true)
      (log : t.log = .handed (.pubrel packetId) :: s.log)
      (publishes : t.pendingPublishes = s.pendingPublishes)
      (pubrecs : ∀ p, t.pendingPubrecs.contains p = true → s.pendingPubrecs.contains p = true)

/-- What a PUBACK or PUBCOMP tells the user. -/
def successReport (s : Sys) (packetId : UInt16) : List Event :=
  match s.pendingPublishes.find? packetId with
  | none => []
  | some entry =>
      if entry.callback.callable then [.published entry.callback true entry.topic entry.qos packetId] else []

/-- A PUBACK or PUBCOMP is handled. Neither the QoS nor the phase of the entry is looked at. -/
structure Acked (pt : PacketType) (packetId : UInt16) (s t : Sys) : Prop where
  log : t.log = s.successReport packetId ++ .received pt packetId [] :: s.log
  publishes : ∀ p entry, t.pendingPublishes.find? p = some entry → s.pendingPublishes.find? p = some entry
  pubrecs : ∀ p entry, t.pendingPubrecs.find? p = some entry → s.pendingPubrecs.find? p = some entry

/-- A PUBREC is handled. -/
structure Recorded (packetId : UInt16) (s t : Sys) : Prop where
  log : t.log = (if s.pendingPublishes.contains packetId then [.handed (.pubrel packetId)] else []) ++
    .received .pubrec packetId [] :: s.log
  publishes : t.pendingPublishes = s.pendingPublishes
  pubrecs : ∀ p, t.pendingPubrecs.contains p = true →
    s.pendingPubrecs.contains p = true ∨ p = packetId ∧ s.pendingPublishes.contains packetId = true

theorem armTimer_same (s : Sys) (timer after : Nat) (h : TimerHandler) :
    (s.armTimer timer after h).log = s.log ∧
    (s.armTimer timer after h).pendingPublishes = s.pendingPublishes ∧
    (s.armTimer timer after h).pendingPubrecs = s.pendingPubrecs := ⟨rfl, rfl, rfl⟩

theorem armPublishRetryTimer_same (s : Sys) (p : UInt16) : (s.armPublishRetryTimer p).log = s.log ∧
    (s.armPublishRetryTimer p).pendingPublishes = s.pendingPublishes ∧
    (s.armPublishRetryTimer p).pendingPubrecs = s.pendingPubrecs := by
  unfold armPublishRetryTimer
  split
  · exact ⟨rfl, rfl, rfl⟩
  · exact armTimer_same s _ _ _

theorem armPubrecRetryTimer_same (s : Sys) (p : UInt16) : (s.armPubrecRetryTimer p).log = s.log ∧
    (s.armPubrecRetryTimer p).pendingPublishes = s.pendingPublishes ∧
    (s.armPubrecRetryTimer p).pendingPubrecs = s.pendingPubrecs := by
  unfold armPubrecRetryTimer
  split
  · exact ⟨rfl, rfl, rfl⟩
  · exact armTimer_same s _ _ _

theorem cancelPublishRetryTimer_same (s : Sys) (p : UInt16) :
    (s.cancelPublishRetryTimer p).log = s.log ∧
    (s.cancelPublishRetryTimer p).pendingPublishes = s.pendingPublishes ∧
    (s.cancelPublishRetryTimer p).pendingPubrecs = s.pendingPubrecs := by
  unfold cancelPublishRetryTimer
  split <;> exact ⟨rfl, rfl, rfl⟩

theorem sendPublishEntry_same {s : Sys} {p : UInt16} {entry : PendingPublish}
    (held : s.pendingPublishes.find? p = some entry) : ∃ pkt : PublishPacket, pkt.packetId = p ∧
      (s.sendPublishEntry p).log = .handed (.publish pkt) :: s.log ∧
      (s.sendPublishEntry p).pendingPublishes = s.pendingPublishes ∧
      (s.sendPublishEntry p).pendingPubrecs = s.pendingPubrecs := by
  obtain ⟨log, publishes, pubrecs⟩ := armPublishRetryTimer_same s p
  unfold sendPublishEntry
  rw [held]
  exact ⟨_, rfl, congrArg _ log, publishes, pubrecs⟩

theorem sendPubrel_same (s : Sys) (p : UInt16) : (s.sendPubrel p).log = .handed (.pubrel p) :: s.log ∧
    (s.sendPubrel p).pendingPublishes = s.pendingPublishes ∧
    (s.sendPubrel p).pendingPubrecs = s.pendingPubrecs := by
  obtain ⟨log, publishes, pubrecs⟩ := armPubrecRetryTimer_same s p
  exact ⟨congrArg _ log, publishes, pubrecs⟩

theorem acquireLoop_free {taken : UInt16 → Bool} {start next id : UInt16} {rounds : Nat}
    (found : acquireLoop taken start rounds next = (id, true)) : taken id = false := by
  induction rounds generalizing next with
  | zero => simp [acquireLoop] at found
  | succ rounds ih =>
    unfold acquireLoop at found
    split at found
    · simp at found
    · split at found
      · exact ih found
      · rename_i free
        obtain ⟨rfl, _⟩ := Prod.mk.inj found
        simpa using free

theorem acquirePacketId_free {s : Sys} (found : s.acquirePacketId.2 ≠ 0) :
    s.takenId s.acquirePacketId.2 = false := by
  unfold acquirePacketId at found ⊢
  dsimp only at found ⊢
  cases free : (acquireLoop s.takenId s.nextPacketId 65536 s.nextPacketId).2 with
  | false => simp [free] at found
  | true => simpa [free] using acquireLoop_free (Prod.ext rfl free)

theorem qos_acknowledged {qos : UInt8} (low : ¬ qos > 2) (positive : ¬ qos = 0) : qos = 1 ∨ qos = 2 := by
  rw [gt_iff_lt, UInt8.lt_iff_toNat_lt] at low
  rw [← UInt8.toNat_inj] at positive
  simp only [← UInt8.toNat_inj, UInt8.reduceToNat] at low positive ⊢
  omega

theorem asyncPublishImpl_cases (s : Sys) (topic payload : Bytes) (qos : UInt8) (cb : Callback) :
    Calm s (s.asyncPublishImpl topic payload qos cb) ∨ Notable s (s.asyncPublishImpl topic payload qos cb) := by
  unfold asyncPublishImpl
  split
  · exact .inl (calm_tellPublish s rfl)
  split
  · exact .inl (calm_tellPublish s rfl)
  split
  · exact .inl (calm_tellPublish s rfl)
  split
  · exact .inr (.atMostOnce cb { topicName := topic, payload } rfl rfl rfl rfl)
  dsimp only
  split
  · exact .inl ((calm_acquirePacketId s).trans (calm_push _ _))
  split
  · exact .inl ((calm_acquirePacketId s).trans (calm_tellPublish _ rfl))
  rename_i low _ _ positive found _
  refine .inr ?_
  let entry : PendingPublish :=
    { topic, qos, payload, callback := cb, timer := s.nextTimer, attempts := 1 }
  have stored : (s.acquirePacketId.1.insertPublish s.acquirePacketId.2 topic payload qos
      cb).pendingPublishes.find? s.acquirePacketId.2 = some entry := by
    change (s.pendingPublishes.insert s.acquirePacketId.2 entry).find? _ = _
    simp [OrderedMap.find?_insert]
  obtain ⟨pkt, sent, log, publishes, pubrecs⟩ := sendPublishEntry_same stored
  refine .accept s.acquirePacketId.2 entry pkt (acquirePacketId_free found) ?_ sent log publishes pubrecs
  exact qos_acknowledged low positive

theorem onPublishRetry_cases (s : Sys) (p : UInt16) :
    Calm s (s.onPublishRetry p) ∨ Notable s (s.onPublishRetry p) := by
  unfold onPublishRetry
  split
  · exact .inl (.refl s)
  · rename_i entry held
    split
    · exact .inl (calm_push _ _)
    · let again : PendingPublish := { entry with attempts := entry.attempts + 1 }
      let resent : Sys := { s with pendingPublishes := s.pendingPublishes.insert p again }
      have stored : resent.pendingPublishes.find? p = some again := by
        simp [resent, OrderedMap.find?_insert]
      obtain ⟨pkt, sent, log, publishes, pubrecs⟩ := sendPublishEntry_same stored
      exact .inr (.resend p entry pkt held sent log publishes pubrecs)

theorem onPubrecRetry_cases (s : Sys) (p : UInt16) :
    Calm s (s.onPubrecRetry p) ∨ Notable s (s.onPubrecRetry p) := by
  unfold onPubrecRetry
  split
  · exact .inl (.refl s)
  · rename_i entry held
    split
    · exact .inl ((calm_cancelTimer s _).trans (calm_push _ _))
    · have bound : s.pendingPubrecs.contains p = true := by simp [OrderedMap.contains, held]
      obtain ⟨log, publishes, pubrecs⟩ := sendPubrel_same
        { s with pendingPubrecs := s.pendingPubrecs.insert p { entry with attempts := entry.attempts + 1 } } p
      refine .inr (.release p bound log publishes fun q kept => ?_)
      rw [pubrecs] at kept
      exact ((OrderedMap.contains_insert _ _ _ _).mp kept).elim (fun same => same ▸ bound) id

theorem onTimer_cases (s : Sys) (h : TimerHandler) (ec : ErrorCode) :
    Calm s (s.onTimer h ec) ∨ Notable s (s.onTimer h ec) := by
  unfold onTimer
  split
  · exact .inl (.refl s)
  · cases h with
    | connectTimeout => exact .inl (calm_handleConnectTimeout s)
    | ping => exact .inl (calm_write _ rfl)
    | pingDeadline => exact .inl (calm_push _ _)
    | publishRetry p => exact onPublishRetry_cases s p
    | pubrecRetry p => exact onPubrecRetry_cases s p

theorem asyncConnect_connects (s : Sys) (callback : Bool) : Connects s (s.asyncConnect callback) := by
  unfold asyncConnect
  dsimp only
  split <;> exact ⟨rfl, rfl, rfl⟩

theorem tellPublish_log (s : Sys) (cb : Callback) (ok : Bool) (topic : Bytes) (qos : UInt8) (p : UInt16) :
    (s.tellPublish cb ok topic qos p).log =
      (if cb.callable then [.published cb ok topic qos p] else []) ++ s.log := by
  unfold tellPublish
  split <;> rfl

theorem tellPublish_publishes (s : Sys) (cb : Callback) (ok : Bool) (topic : Bytes) (qos : UInt8)
    (p : UInt16) : (s.tellPublish cb ok topic qos p).pendingPublishes = s.pendingPublishes ∧
      (s.tellPublish cb ok topic qos p).pendingPubrecs = s.pendingPubrecs := by
  unfold tellPublish
  split <;> exact ⟨rfl, rfl⟩

theorem finishPublishSuccess_pubrecs (s : Sys) (p : UInt16) :
    (s.finishPublishSuccess p).pendingPubrecs = s.pendingPubrecs := by
  unfold finishPublishSuccess
  split
  · rfl
  · rw [(tellPublish_publishes _ _ _ _ _ _).2]
    exact (cancelPublishRetryTimer_same s p).2.2

theorem finishPublishSuccess_acked {s v : Sys} {pt : PacketType} {p : UInt16}
    (log : v.log = .received pt p [] :: s.log) (publishes : v.pendingPublishes = s.pendingPublishes)
    (pubrecs : ∀ q e, v.pendingPubrecs.find? q = some e → s.pendingPubrecs.find? q = some e) :
    Acked pt p s (v.finishPublishSuccess p) := by
  obtain ⟨log', publishes', pubrecs'⟩ := cancelPublishRetryTimer_same v p
  cases found : s.pendingPublishes.find? p with
  | none =>
    simp only [finishPublishSuccess, publishes, found]
    exact ⟨by simp [successReport, found, log], fun _ _ => publishes ▸ id, pubrecs⟩
  | some entry =>
    simp only [finishPublishSuccess, publishes, found]
    refine ⟨?_, fun q e kept => ?_, fun q e kept => pubrecs q e ?_⟩
    · rw [tellPublish_log]
      simp only [successReport, found, log', log]
    · rw [(tellPublish_publishes _ _ _ _ _ _).1] at kept
      simp only [publishes', publishes, OrderedMap.find?_erase] at kept
      split at kept
      · contradiction
      · exact kept
    · rw [(tellPublish_publishes _ _ _ _ _ _).2] at kept
      exact pubrecs' ▸ kept

theorem handlePuback_acked (s : Sys) (data : Bytes) :
    Acked .puback (parseId data) s (s.handlePuback data) :=
  finishPublishSuccess_acked rfl rfl fun _ _ => id

theorem handlePubcomp_acked (s : Sys) (data : Bytes) :
    Acked .pubcomp (parseId data) s (s.handlePubcomp data) := by
  have erased := calm_erasePubrec (s.record (.received .pubcomp (parseId data) [])) (parseId data)
  refine finishPublishSuccess_acked (s := s) ?_ ?_ erased.pubrecs
  · unfold erasePubrec
    split <;> rfl
  · unfold erasePubrec
    split <;> rfl

theorem insertPubrec_pubrecs (s : Sys) (p : UInt16) : (s.insertPubrec p).pendingPubrecs =
    s.pendingPubrecs.insert p { timer := s.nextTimer, attempts := 0 } := by
  unfold insertPubrec
  split <;> rfl

theorem insertPubrec_same (s : Sys) (p : UInt16) : (s.insertPubrec p).log = s.log ∧
    (s.insertPubrec p).pendingPublishes = s.pendingPublishes ∧
    ∀ q, (s.insertPubrec p).pendingPubrecs.contains q = true → q = p ∨ s.pendingPubrecs.contains q = true := by
  rw [insertPubrec_pubrecs]
  unfold insertPubrec
  split <;> exact ⟨rfl, rfl, fun q => (OrderedMap.contains_insert _ _ _ _).mp⟩

theorem handlePubrec_recorded (s : Sys) (data : Bytes) :
    Recorded (parseId data) s (s.handlePubrec data) := by
  let p := parseId data
  let v := s.record (.received .pubrec p [])
  change Recorded p s (if s.pendingPublishes.contains p then
    ((v.cancelPublishRetryTimer p).insertPubrec p).sendPubrel p else v)
  cases held : s.pendingPublishes.contains p with
  | false => exact ⟨by rw [held]; rfl, rfl, fun q => .inl⟩
  | true =>
    obtain ⟨log, publishes, pubrecs⟩ := cancelPublishRetryTimer_same v p
    obtain ⟨log', publishes', pubrecs'⟩ := insertPubrec_same (v.cancelPublishRetryTimer p) p
    obtain ⟨log'', publishes'', pubrecs''⟩ := sendPubrel_same ((v.cancelPublishRetryTimer p).insertPubrec p) p
    refine ⟨?_, publishes''.trans (publishes'.trans publishes), fun q kept => ?_⟩
    · rw [held]
      exact log''.trans (congrArg _ (log'.trans log))
    · rw [if_pos rfl, pubrecs''] at kept
      rcases pubrecs' q kept with same | before
      · exact .inr ⟨same, held⟩
      · exact .inl (pubrecs ▸ before)

/-! ### Every step -/

/-- What an action does that matters to the publishes in progress. -/
inductive Deed where
  | connect
  | puback (packetId : UInt16)
  | pubrec (packetId : UInt16)
  | pubcomp (packetId : UInt16)
  | other
  deriving DecidableEq

def packetDeed : Bytes → Deed
  | [] => .other
  | byte :: rest =>
      match PacketType.ofUint8 (byte >>> 4) with
      | .puback => .puback (parseId (byte :: rest))
      | .pubrec => .pubrec (parseId (byte :: rest))
      | .pubcomp => .pubcomp (parseId (byte :: rest))
      | _ => .other

def deed (s : Sys) : Action → Deed
  | .exec =>
      match s.net.stack with
      | .own (.handlePacket _ data) :: _ => packetDeed data
      | _ => .other
  | .call (.asyncConnect _) => .connect
  | .call (.handlePacket data) => packetDeed data
  | .call (.handlePuback data) => .puback (parseId data)
  | .call (.handlePubrec data) => .pubrec (parseId data)
  | .call (.handlePubcomp data) => .pubcomp (parseId data)
  | _ => .other

/-- The acknowledgement `data` is handled, and `t` comes of it. -/
def Deed.Handles (u : Sys) (data : Bytes) (t : Sys) : Deed → Prop
  | .puback p => parseId data = p ∧ t = u.handlePuback data
  | .pubrec p => parseId data = p ∧ t = u.handlePubrec data
  | .pubcomp p => parseId data = p ∧ t = u.handlePubcomp data
  | .connect | .other => False

theorem packetDeed_handles (u : Sys) (attempt : Nat) {data : Bytes} (acknowledges : packetDeed data ≠ .other) :
    (packetDeed data).Handles u data (u.handlePacket attempt data) := by
  cases data with
  | nil => exact absurd rfl acknowledges
  | cons byte rest =>
    unfold packetDeed at acknowledges ⊢
    unfold handlePacket
    dsimp only at acknowledges ⊢
    cases kind : PacketType.ofUint8 (byte >>> 4) with
    | puback => exact ⟨rfl, rfl⟩
    | pubrec => exact ⟨rfl, rfl⟩
    | pubcomp => exact ⟨rfl, rfl⟩
    | _ => simp [kind] at acknowledges

theorem packetDeed_connect (data : Bytes) : packetDeed data ≠ .connect := by
  unfold packetDeed
  split
  · nofun
  · split <;> nofun

theorem deed_connect {s : Sys} {a : Action} (d : s.deed a = .connect) :
    ∃ callback, a = .call (.asyncConnect callback) := by
  unfold deed at d
  split at d
  · split at d
    · exact absurd d (packetDeed_connect _)
    · contradiction
  · exact ⟨_, rfl⟩
  · exact absurd d (packetDeed_connect _)
  all_goals contradiction

def Exchanges (s t : Sys) : Deed → Prop
  | .connect => Connects s t
  | .puback p => Acked .puback p s t
  | .pubrec p => Recorded p s t
  | .pubcomp p => Acked .pubcomp p s t
  | .other => Calm s t ∨ Notable s t

theorem calm_handlePacket (s : Sys) (attempt : Nat) {data : Bytes} (other : packetDeed data = .other) :
    Calm s (s.handlePacket attempt data) := by
  cases data with
  | nil => exact .refl s
  | cons byte rest =>
    unfold packetDeed at other
    unfold handlePacket
    dsimp only at other ⊢
    cases kind : PacketType.ofUint8 (byte >>> 4) with
    | connack => exact calm_handleConnack s _
    | publish => exact calm_handlePublish s _
    | suback => exact calm_handleSuback s _
    | pubrel => exact calm_handlePubrel s _
    | pingresp => exact (calm_cancelTimer s pingTimer).trans (calm_schedulePingreq _ _)
    | puback | pubrec | pubcomp => simp [kind] at other
    | _ => exact .refl s

theorem handlePacket_exchanges (s : Sys) (attempt : Nat) (data : Bytes) :
    Exchanges s (s.handlePacket attempt data) (packetDeed data) := by
  cases deed : packetDeed data with
  | other => exact .inl (calm_handlePacket s attempt deed)
  | connect => exact absurd deed (packetDeed_connect data)
  | puback p =>
    obtain ⟨rfl, same⟩ : Deed.Handles s data _ (.puback p) := deed ▸ packetDeed_handles s attempt (by simp [deed])
    exact same ▸ handlePuback_acked s data
  | pubrec p =>
    obtain ⟨rfl, same⟩ : Deed.Handles s data _ (.pubrec p) := deed ▸ packetDeed_handles s attempt (by simp [deed])
    exact same ▸ handlePubrec_recorded s data
  | pubcomp p =>
    obtain ⟨rfl, same⟩ : Deed.Handles s data _ (.pubcomp p) := deed ▸ packetDeed_handles s attempt (by simp [deed])
    exact same ▸ handlePubcomp_acked s data

/-- Code that may do more than what is calm. -/
def stirs : Work → Bool
  | .asyncPublishImpl .. | .timer .. | .handlePacket .. => true
  | _ => false

theorem calm_execute (s : Sys) {k : Work} (still : stirs k = false) : Calm s (s.execute k) := by
  cases k with
  | asyncPublishImpl | timer | handlePacket => contradiction
  | asyncSubscribeImpl topic qos cb => exact calm_asyncSubscribeImpl s topic qos cb
  | user => exact .refl s
  | startReadLoop attempt => exact .of_same rfl rfl rfl
  | acknowledge qos p => exact calm_acknowledge s qos p
  | notifyClosedOnce => exact calm_notifyClosedOnce s
  | publishEach p => exact calm_publishEach s p
  | publishCancel p => exact calm_publishCancel s p
  | publishClear => exact calm_publishClear s
  | subscribeEach p => exact calm_subscribeEach s p
  | subscribeFilters p cb rest => exact calm_subscribeFilters s p cb rest
  | subscribeClear => exact calm_subscribeClear s
  | notifyClose => exact calm_notifyClose s
  | finishPublishFailure p => exact calm_finishPublishFailure s p
  | subackEach cb rest => exact calm_subackEach s cb rest
  | subscribeWritten p cb rest => exact calm_subscribeWritten s p cb rest
  | reportConnect ok rc => exact calm_reportConnect s ok rc
  | reportPublish cb topic qos => exact calm_tellPublish s rfl
  | reportSubscribe cb topic => exact calm_tellSubscribe s _ _ _ _
  | onClosed => exact (calm_record rfl).trans (calm_push _ _)

theorem execute_exchanges (s : Sys) (k : Work) : Exchanges s (s.execute k)
    (match k with | .handlePacket _ data => packetDeed data | _ => .other) := by
  cases k with
  | asyncPublishImpl topic payload qos cb => exact asyncPublishImpl_cases s topic payload qos cb
  | timer h ec => exact onTimer_cases s h ec
  | handlePacket attempt data => exact handlePacket_exchanges s attempt data
  | _ => exact .inl (calm_execute s rfl)

theorem calm_call (s : Sys) {c : Call} (other : s.deed (.call c) = .other) : Calm s (s.call c) := by
  cases c with
  | asyncConnect | handlePuback | handlePubrec | handlePubcomp => contradiction
  | asyncDisconnect onClosed => exact (calm_cancelTimer s pingTimer).trans (calm_write _ rfl)
  | close => exact calm_closeConnection s
  | asyncPublish topic payload qos callable =>
    refine .trans (t := { s with nextCallback := s.nextCallback + 1 }) (.of_same rfl rfl rfl) ?_
    exact (calm_record rfl).trans (calm_post _ _)
  | asyncSubscribe topic qos callable =>
    refine .trans (t := { s with nextCallback := s.nextCallback + 1 }) (.of_same rfl rfl rfl) ?_
    exact (calm_record rfl).trans (calm_post _ _)
  | handlePacket data => exact calm_handlePacket s s.attempts other
  | handlePubrel data => exact calm_handlePubrel s data
  | handleSuback data => exact calm_handleSuback s data
  | handlePublish data => exact calm_handlePublish s data
  | _ => exact .of_same rfl rfl rfl

theorem call_exchanges (s : Sys) (c : Call) : Exchanges s (s.call c) (s.deed (.call c)) := by
  cases c with
  | asyncConnect callback => exact asyncConnect_connects s callback
  | handlePacket data => exact handlePacket_exchanges s s.attempts data
  | handlePuback data => exact handlePuback_acked s data
  | handlePubrec data => exact handlePubrec_recorded s data
  | handlePubcomp data => exact handlePubcomp_acked s data
  | _ => exact .inl (calm_call s rfl)

/-- Only the connection differs between the two starting points. -/
theorem Exchanges.of_net {n : Net Handler Work} {d : Deed} (h : Exchanges { s with net := n } t d) :
    Exchanges s t d := by
  cases d with
  | connect => exact ⟨h.log, h.publishes, h.pubrecs⟩
  | puback => exact ⟨h.log, h.publishes, h.pubrecs⟩
  | pubrec => exact ⟨h.log, h.publishes, h.pubrecs⟩
  | pubcomp => exact ⟨h.log, h.publishes, h.pubrecs⟩
  | other =>
    refine h.imp (fun calm => ⟨calm.log, calm.publishes, calm.pubrecs⟩) fun notable => ?_
    cases notable with
    | atMostOnce cb pkt sent log publishes pubrecs => exact .atMostOnce cb pkt sent log publishes pubrecs
    | accept p entry pkt fresh acknowledged sent log publishes pubrecs =>
      exact .accept p entry pkt fresh acknowledged sent log publishes pubrecs
    | resend p entry pkt held sent log publishes pubrecs =>
      exact .resend p entry pkt held sent log publishes pubrecs
    | release p held log publishes pubrecs => exact .release p held log publishes pubrecs

theorem exec_exchanges (taken : s.exec = some t) : Exchanges s t (s.deed .exec) := by
  unfold exec at taken
  split at taken
  · contradiction
  · contradiction
  · rename_i k rest _ front
    obtain rfl := Option.some.inj taken
    have done := (execute_exchanges { s with net := { s.net with stack := rest } } k).of_net
    simp only [deed, front]
    cases k <;> exact done
  · rename_i call rest front
    obtain ⟨net, _, rfl⟩ := Option.map_eq_some_iff.mp taken
    simp only [deed, front]
    exact .inl (.trans (t := { s with net }) (.of_same rfl rfl rfl) (calm_onInvoke _ call))
  · rename_i _ _ notOwn _
    obtain ⟨net, _, rfl⟩ := Option.map_eq_some_iff.mp taken
    unfold deed
    dsimp only
    split
    · exact (notOwn _ _ ‹_›).elim
    · exact .inl (.of_same rfl rfl rfl)

theorem step_exchanges {a : Action} (taken : s.step a = some t) : Exchanges s t (s.deed a) := by
  unfold step at taken
  split at taken
  · contradiction
  cases a with
  | run =>
    obtain ⟨net, _, rfl⟩ := Option.map_eq_some_iff.mp taken
    exact .inl (.of_same rfl rfl rfl)
  | exec => exact exec_exchanges taken
  | ret =>
    dsimp only at taken
    split at taken
    · obtain rfl := Option.some.inj taken
      exact .inl (.of_same rfl rfl rfl)
    · contradiction
  | call c =>
    dsimp only at taken
    split at taken
    · obtain rfl := Option.some.inj taken
      exact call_exchanges s c
    · contradiction
  | kernel event =>
    obtain ⟨net, _, rfl⟩ := Option.map_eq_some_iff.mp taken
    exact .inl (.of_same rfl rfl rfl)
  | expire index =>
    simp only [expire] at taken
    split at taken
    · contradiction
    · split at taken
      · obtain rfl := Option.some.inj taken
        exact .inl (.of_same rfl rfl rfl)
      · contradiction
  | advance ms =>
    obtain rfl := Option.some.inj taken
    exact .inl (.of_same rfl rfl rfl)

end Sys
end LiteMqtt
