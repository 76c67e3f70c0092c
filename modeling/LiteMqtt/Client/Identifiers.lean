import LiteMqtt.Client.Exchange
import LiteMqtt.Client.Steps

/-!
# Packet ids

The exchanges a client has open, apart from everything else it holds. A step takes ids for new
exchanges, moves the id of a publish into the PUBRELs, or lets ids go. What keeps the ids apart
is said of these moves, and every step of the client consists of them.
-/

namespace LiteMqtt

/-- The open exchanges by packet id, and the last id that was tried. -/
structure Ids where
  publishes : OrderedMap UInt16 PendingPublish
  subscribes : OrderedMap UInt16 PendingSubscribe
  pubrecs : OrderedMap UInt16 PendingPubrec
  next : UInt16

namespace Ids

structure Sound (i : Ids) : Prop where
  publishes : ∀ p, i.publishes.contains p = true → p ≠ 0
  subscribes : ∀ p, i.subscribes.contains p = true → p ≠ 0
  pubrecs : ∀ p, i.pubrecs.contains p = true → p ≠ 0
  apart : ∀ p, i.subscribes.contains p = true → i.publishes.contains p = false ∧ i.pubrecs.contains p = false
  few : i.publishes.size ≤ 1000
  next : i.next ≠ 0

def taken (i : Ids) (p : UInt16) : Bool :=
  i.publishes.contains p || i.subscribes.contains p || i.pubrecs.contains p

inductive Move (i : Ids) : Ids → Prop where
  /-- Exchanges end or are updated. -/
  | drop (j : Ids) (publishes : ∀ p, j.publishes.contains p = true → i.publishes.contains p = true)
      (subscribes : ∀ p, j.subscribes.contains p = true → i.subscribes.contains p = true)
      (pubrecs : ∀ p, j.pubrecs.contains p = true → i.pubrecs.contains p = true) (next : j.next = i.next) : Move i j
  | acquire (next : UInt16) (positive : next ≠ 0) : Move i { i with next }
  | publish (p : UInt16) (entry : PendingPublish) (positive : p ≠ 0) (free : i.taken p = false)
      (room : i.publishes.size < 1000) : Move i { i with publishes := i.publishes.insert p entry }
  | subscribe (p : UInt16) (entry : PendingSubscribe) (positive : p ≠ 0) (free : i.taken p = false) :
      Move i { i with subscribes := i.subscribes.insert p entry }
  | record (p : UInt16) (entry : PendingPubrec) (held : i.publishes.contains p = true) :
      Move i { i with pubrecs := i.pubrecs.insert p entry }

variable {i j : Ids}

theorem taken_false {p : UInt16} (free : i.taken p = false) :
    i.publishes.contains p = false ∧ i.subscribes.contains p = false ∧ i.pubrecs.contains p = false := by
  simpa [taken, and_assoc] using free

theorem sound_publish {p : UInt16} (entry : PendingPublish) (positive : p ≠ 0) (free : i.taken p = false)
    (room : i.publishes.size < 1000) (sound : i.Sound) : Sound { i with publishes := i.publishes.insert p entry } := by
  obtain ⟨-, unsubscribed, -⟩ := taken_false free
  refine { sound with publishes := fun q bound => ?_, apart := fun q bound => ⟨?_, (sound.apart q bound).2⟩, few := ?_ }
  · rcases (OrderedMap.contains_insert _ _ _ _).mp bound with rfl | before
    · exact positive
    · exact sound.publishes q before
  · by_contra inside
    rcases (OrderedMap.contains_insert _ _ _ _).mp (by simpa using inside) with rfl | before
    · exact absurd (bound.symm.trans unsubscribed) nofun
    · exact absurd (before.symm.trans (sound.apart q bound).1) nofun
  · have grown := OrderedMap.size_insert_le i.publishes p entry
    show (i.publishes.insert p entry).size ≤ 1000
    omega

theorem sound_subscribe {p : UInt16} (entry : PendingSubscribe) (positive : p ≠ 0) (free : i.taken p = false)
    (sound : i.Sound) : Sound { i with subscribes := i.subscribes.insert p entry } := by
  obtain ⟨unpublished, -, unrecorded⟩ := taken_false free
  refine { sound with subscribes := fun q bound => ?_, apart := fun q bound => ?_ }
  · rcases (OrderedMap.contains_insert _ _ _ _).mp bound with rfl | before
    · exact positive
    · exact sound.subscribes q before
  · rcases (OrderedMap.contains_insert _ _ _ _).mp bound with rfl | before
    · exact ⟨unpublished, unrecorded⟩
    · exact sound.apart q before

theorem sound_record {p : UInt16} (entry : PendingPubrec) (held : i.publishes.contains p = true) (sound : i.Sound) :
    Sound { i with pubrecs := i.pubrecs.insert p entry } := by
  refine { sound with pubrecs := fun q bound => ?_, apart := fun q bound => ⟨(sound.apart q bound).1, ?_⟩ }
  · rcases (OrderedMap.contains_insert _ _ _ _).mp bound with rfl | before
    · exact sound.publishes _ held
    · exact sound.pubrecs q before
  · by_contra inside
    rcases (OrderedMap.contains_insert _ _ _ _).mp (by simpa using inside) with rfl | before
    · exact absurd (held.symm.trans (sound.apart _ bound).1) nofun
    · exact absurd (before.symm.trans (sound.apart q bound).2) nofun

theorem sound_move (move : i.Move j) (sound : i.Sound) : j.Sound := by
  cases move with
  | drop j publishes subscribes pubrecs next =>
    refine ⟨fun p bound => sound.publishes p (publishes p bound),
        fun p bound => sound.subscribes p (subscribes p bound),
      fun p bound => sound.pubrecs p (pubrecs p bound), fun p bound => ?_,
      (OrderedMap.size_le_of_contains publishes).trans sound.few, next ▸ sound.next⟩
    obtain ⟨unpublished, unrecorded⟩ := sound.apart p (subscribes p bound)
    exact ⟨Bool.eq_false_iff.mpr fun held => absurd ((publishes p held).symm.trans unpublished) nofun,
      Bool.eq_false_iff.mpr fun held => absurd ((pubrecs p held).symm.trans unrecorded) nofun⟩
  | acquire next positive => exact { sound with next := positive }
  | publish p entry positive free room => exact sound_publish entry positive free room sound
  | subscribe p entry positive free => exact sound_subscribe entry positive free sound
  | record p entry held => exact sound_record entry held sound

/-- Moves one after another. -/
abbrev Moves : Ids → Ids → Prop := Relation.ReflTransGen Move

theorem sound_moves (moves : Moves i j) (sound : i.Sound) : j.Sound := by
  induction moves with
  | refl => exact sound
  | tail _ last ih => exact sound_move last ih

end Ids

namespace Sys

def ids (s : Sys) : Ids := ⟨s.pendingPublishes, s.pendingSubscribes, s.pendingPubrecs, s.nextPacketId⟩

variable {s t : Sys}

/-! ### Code that leaves the ids alone -/

@[simp] theorem ids_record (s : Sys) (e : Event) : (s.record e).ids = s.ids := rfl

@[simp] theorem ids_push (s : Sys) (ks : List Work) : (s.push ks).ids = s.ids := rfl

@[simp] theorem ids_post (s : Sys) (k : Work) : (s.post k).ids = s.ids := rfl

@[simp] theorem ids_crash (s : Sys) : s.crash.ids = s.ids := rfl

@[simp] theorem ids_write (s : Sys) (p : Packet) (h : Handler) : (s.write p h).ids = s.ids := rfl

@[simp] theorem ids_startReadLoop (s : Sys) (attempt : Nat) : (s.startReadLoop attempt).ids = s.ids := rfl

@[simp] theorem ids_cancelTimer (s : Sys) (timer : Nat) : (s.cancelTimer timer).ids = s.ids := rfl

@[simp] theorem ids_armTimer (s : Sys) (timer after : Nat) (h : TimerHandler) :
    (s.armTimer timer after h).ids = s.ids := rfl

@[simp] theorem ids_closeConnection (s : Sys) : s.closeConnection.ids = s.ids := by
  unfold closeConnection
  split <;> rfl

@[simp] theorem ids_cancelTimers (s : Sys) (timers : List Nat) : (s.cancelTimers timers).ids = s.ids := by
  induction timers generalizing s with
  | nil => rfl
  | cons timer timers ih => exact ih (s.cancelTimer timer)

@[simp] theorem ids_schedulePingreq (s : Sys) (attempt : Nat) : (s.schedulePingreq attempt).ids = s.ids := by
  unfold schedulePingreq
  split <;> rfl

@[simp] theorem ids_armPublishRetryTimer (s : Sys) (p : UInt16) : (s.armPublishRetryTimer p).ids = s.ids := by
  unfold armPublishRetryTimer
  split <;> rfl

@[simp] theorem ids_armPubrecRetryTimer (s : Sys) (p : UInt16) : (s.armPubrecRetryTimer p).ids = s.ids := by
  unfold armPubrecRetryTimer
  split <;> rfl

@[simp] theorem ids_cancelPublishRetryTimer (s : Sys) (p : UInt16) : (s.cancelPublishRetryTimer p).ids = s.ids := by
  unfold cancelPublishRetryTimer
  split <;> rfl

@[simp] theorem ids_tellPublish (s : Sys) (cb : Callback) (ok : Bool) (topic : Bytes) (qos : UInt8) (p : UInt16) :
    (s.tellPublish cb ok topic qos p).ids = s.ids := by
  unfold tellPublish
  split <;> rfl

@[simp] theorem ids_tellSubscribe (s : Sys) (cb : Callback) (ok : Bool) (topic : Bytes) (qos : UInt8) :
    (s.tellSubscribe cb ok topic qos).ids = s.ids := by
  unfold tellSubscribe
  split <;> rfl

@[simp] theorem ids_reportConnect (s : Sys) (ok : Bool) (rc : UInt8) : (s.reportConnect ok rc).ids = s.ids := by
  unfold reportConnect
  split <;> rfl

@[simp] theorem ids_sendPublishEntry (s : Sys) (p : UInt16) : (s.sendPublishEntry p).ids = s.ids := by
  unfold sendPublishEntry
  split
  · rfl
  · exact ids_armPublishRetryTimer s p

@[simp] theorem ids_sendPubrel (s : Sys) (p : UInt16) : (s.sendPubrel p).ids = s.ids := ids_armPubrecRetryTimer s p

theorem ids_asyncConnect (s : Sys) (callback : Bool) : (s.asyncConnect callback).ids = s.ids := by
  unfold asyncConnect
  dsimp only
  split <;> rfl

theorem ids_onConnect (s : Sys) (attempt : Nat) (ec : ErrorCode) : (s.onConnect attempt ec).ids = s.ids := by
  unfold onConnect
  split
  · rfl
  · split
    · exact ids_reportConnect s false 255
    · rfl

theorem ids_handleConnectTimeout (s : Sys) : s.handleConnectTimeout.ids = s.ids := by
  unfold handleConnectTimeout
  split
  · rfl
  · exact ids_closeConnection _

theorem ids_handleConnack (s : Sys) (data : Bytes) : (s.handleConnack data).ids = s.ids := by
  unfold handleConnack
  dsimp only
  split
  · rfl
  · exact ids_closeConnection _

theorem ids_handlePublish (s : Sys) (data : Bytes) : (s.handlePublish data).ids = s.ids := by
  unfold handlePublish
  dsimp only
  split
  · rfl
  · split <;> rfl

theorem ids_acknowledge (s : Sys) (qos : UInt8) (p : UInt16) : (s.acknowledge qos p).ids = s.ids := by
  unfold acknowledge
  split
  · rfl
  · split <;> rfl

theorem ids_notifyClosedOnce (s : Sys) : s.notifyClosedOnce.ids = s.ids := by
  unfold notifyClosedOnce
  split
  · rfl
  · dsimp only
    split <;> rfl

theorem ids_publishEach (s : Sys) (p : UInt16) : (s.publishEach p).ids = s.ids := by
  unfold publishEach
  split
  · rfl
  · exact ids_tellPublish _ _ _ _ _ _

theorem ids_publishCancel (s : Sys) (p : UInt16) : (s.publishCancel p).ids = s.ids := by
  unfold publishCancel
  split
  · rfl
  · split <;> rfl

theorem ids_subscribeEach (s : Sys) (p : UInt16) : (s.subscribeEach p).ids = s.ids := by
  unfold subscribeEach
  split <;> rfl

theorem ids_subscribeFilters (s : Sys) (p : UInt16) (cb : Callback) (rest : List (Bytes × UInt8)) :
    (s.subscribeFilters p cb rest).ids = s.ids := by
  unfold subscribeFilters
  split
  · split
    · exact ids_tellSubscribe _ _ _ _ _
    · split <;> rfl
  · rfl

theorem ids_notifyClose (s : Sys) : s.notifyClose.ids = s.ids := by
  unfold notifyClose
  split <;> rfl

theorem ids_subackEach (s : Sys) (cb : Callback) (rest : List (Bytes × UInt8)) :
    (s.subackEach cb rest).ids = s.ids := by
  unfold subackEach
  split
  · rfl
  · exact ids_tellSubscribe _ _ _ _ _

theorem ids_subscribeWritten (s : Sys) (p : UInt16) (cb : Callback) (rest : List (Bytes × UInt8)) :
    (s.subscribeWritten p cb rest).ids = s.ids := by
  unfold subscribeWritten
  split
  · rfl
  · split
    · exact ids_tellSubscribe _ _ _ _ _
    · rfl

/-! ### Code that moves them -/

/-- Between the two states the ids move. -/
def Identifies (s t : Sys) : Prop := s.ids.Moves t.ids

theorem Identifies.of_same (same : t.ids = s.ids) : Identifies s t := by
  unfold Identifies
  rw [same]

theorem Identifies.trans {u : Sys} (h : Identifies s t) (g : Identifies t u) : Identifies s u :=
  Relation.ReflTransGen.trans h g

theorem Identifies.one (move : s.ids.Move t.ids) : Identifies s t := .single move

theorem idAfter_positive (p : UInt16) : idAfter p ≠ 0 := by
  unfold idAfter
  split
  · rename_i wraps
    rw [wraps]
    decide
  · assumption

theorem acquireLoop_positive {taken : UInt16 → Bool} {start next : UInt16} (rounds : Nat) (positive : next ≠ 0) :
    (acquireLoop taken start rounds next).1 ≠ 0 := by
  induction rounds generalizing next with
  | zero => exact positive
  | succ rounds ih =>
    unfold acquireLoop
    split
    · exact idAfter_positive next
    · split
      · exact ih (idAfter_positive next)
      · exact idAfter_positive next

/-- What `acquire_packet_id` does: the counter moves on, and an id other than 0 is free. -/
theorem acquirePacketId_cases (s : Sys) : ∃ next id, s.acquirePacketId = ({ s with nextPacketId := next }, id) ∧
    (s.nextPacketId ≠ 0 → next ≠ 0) ∧ (id ≠ 0 → s.takenId id = false) :=
  ⟨_, _, rfl, acquireLoop_positive 65536, acquirePacketId_free⟩

theorem identifies_acquire {next : UInt16} (positive : next ≠ 0) : Identifies s { s with nextPacketId := next } :=
  .one (.acquire next positive)

/-- Exchanges end or are updated. -/
theorem identifies_drop (publishes : ∀ p, t.pendingPublishes.contains p = true → s.pendingPublishes.contains p = true)
    (subscribes : ∀ p, t.pendingSubscribes.contains p = true → s.pendingSubscribes.contains p = true)
    (pubrecs : ∀ p, t.pendingPubrecs.contains p = true → s.pendingPubrecs.contains p = true)
    (next : t.nextPacketId = s.nextPacketId) : Identifies s t :=
  .one (.drop t.ids publishes subscribes pubrecs next)

theorem contains_of_find? {α : Type*} {m : OrderedMap UInt16 α} {p : UInt16} {v : α} (found : m.find? p = some v) :
    m.contains p = true := by
  simp [OrderedMap.contains, found]

theorem contains_update {α : Type*} {m : OrderedMap UInt16 α} {p q : UInt16} {v w : α} (found : m.find? p = some v)
    (bound : (m.insert p w).contains q = true) : m.contains q = true := by
  rcases (OrderedMap.contains_insert _ _ _ _).mp bound with rfl | before
  · exact contains_of_find? found
  · exact before

theorem identifies_erasePublish (s : Sys) (p : UInt16) :
    Identifies s { s with pendingPublishes := s.pendingPublishes.erase p } :=
  identifies_drop (fun _ bound => ((OrderedMap.contains_erase _ _ _).mp bound).2) (fun _ => id) (fun _ => id) rfl

theorem identifies_eraseSubscribe (s : Sys) (p : UInt16) :
    Identifies s { s with pendingSubscribes := s.pendingSubscribes.erase p } :=
  identifies_drop (fun _ => id) (fun _ bound => ((OrderedMap.contains_erase _ _ _).mp bound).2) (fun _ => id) rfl

theorem identifies_erasePubrec (s : Sys) (p : UInt16) : Identifies s (s.erasePubrec p) := by
  unfold erasePubrec
  split
  · exact .of_same rfl
  · exact identifies_drop (fun _ => id) (fun _ => id)
      (fun _ bound => ((OrderedMap.contains_erase _ _ _).mp bound).2) rfl

theorem identifies_finishPublishSuccess (s : Sys) (p : UInt16) : Identifies s (s.finishPublishSuccess p) := by
  unfold finishPublishSuccess
  split
  · exact .of_same rfl
  · refine .trans (.of_same (ids_cancelPublishRetryTimer s p)) ?_
    exact (identifies_erasePublish _ p).trans (.of_same (ids_tellPublish _ _ _ _ _ _))

theorem identifies_finishPublishFailure (s : Sys) (p : UInt16) : Identifies s (s.finishPublishFailure p) := by
  unfold finishPublishFailure
  split
  · exact .of_same rfl
  · refine .trans (.of_same (ids_cancelPublishRetryTimer s p)) ?_
    exact (identifies_erasePublish _ p).trans (.of_same (ids_tellPublish _ _ _ _ _ _))

theorem identifies_onPublishRetry (s : Sys) (p : UInt16) : Identifies s (s.onPublishRetry p) := by
  unfold onPublishRetry
  split
  · exact .of_same rfl
  · rename_i entry held
    split
    · exact .of_same rfl
    · refine .trans (t := { s with
        pendingPublishes := s.pendingPublishes.insert p { entry with attempts := entry.attempts + 1 } }) ?_
        (.of_same (ids_sendPublishEntry _ p))
      exact identifies_drop (fun _ => contains_update held) (fun _ => id) (fun _ => id) rfl

theorem identifies_onPubrecRetry (s : Sys) (p : UInt16) : Identifies s (s.onPubrecRetry p) := by
  unfold onPubrecRetry
  split
  · exact .of_same rfl
  · rename_i entry held
    split
    · exact .of_same rfl
    · refine .trans (t := { s with
        pendingPubrecs := s.pendingPubrecs.insert p { entry with attempts := entry.attempts + 1 } }) ?_
        (.of_same (ids_sendPubrel _ p))
      exact identifies_drop (fun _ => id) (fun _ => id) (fun _ => contains_update held) rfl

theorem identifies_insertPubrec {p : UInt16} (held : s.pendingPublishes.contains p = true) :
    Identifies s (s.insertPubrec p) := by
  unfold insertPubrec
  split <;> exact .one (.record p _ held)

theorem identifies_handlePubrec (s : Sys) (data : Bytes) : Identifies s (s.handlePubrec data) := by
  unfold handlePubrec
  dsimp only
  split
  · rename_i held
    let v := s.record (.received .pubrec (PubrecPacket.parse data).packetId [])
    have cancelled := ids_cancelPublishRetryTimer v (PubrecPacket.parse data).packetId
    refine .trans (.of_same (s := v) cancelled) (.trans ?_ (.of_same (ids_sendPubrel _ _)))
    refine identifies_insertPubrec ?_
    exact (congrArg (fun i : Ids => i.publishes.contains _) cancelled).trans held
  · exact .of_same rfl

theorem identifies_handlePuback (s : Sys) (data : Bytes) : Identifies s (s.handlePuback data) :=
  .trans (.of_same (ids_record s _)) (identifies_finishPublishSuccess _ _)

theorem identifies_handlePubcomp (s : Sys) (data : Bytes) : Identifies s (s.handlePubcomp data) :=
  .trans (.of_same (ids_record s _)) ((identifies_erasePubrec _ _).trans (identifies_finishPublishSuccess _ _))

theorem identifies_publishClear (s : Sys) : Identifies s s.publishClear := by
  have cancelled : ∀ first later, ((s.cancelTimers first).cancelTimers later).ids = s.ids := by simp
  have cleared :
      ∀ v : Sys, v.ids = s.ids → Identifies s { v with pendingPublishes := .empty, pendingPubrecs := .empty } :=
    fun v same => .one (.drop _ nofun (fun p bound => (congrArg (fun i : Ids => i.subscribes.contains p) same) ▸ bound)
      nofun (show v.ids.next = s.ids.next from congrArg Ids.next same))
  unfold publishClear
  dsimp only
  split <;> exact (cleared _ (cancelled _ _)).trans (.of_same rfl)

theorem identifies_subscribeClear (s : Sys) : Identifies s s.subscribeClear :=
  .trans (t := { s with pendingSubscribes := .empty }) (identifies_drop (fun _ => id) nofun (fun _ => id) rfl)
    (.of_same (ids_closeConnection _))

theorem identifies_handleSuback (s : Sys) (data : Bytes) : Identifies s (s.handleSuback data) := by
  unfold handleSuback
  dsimp only
  split
  · exact .of_same rfl
  · have erased := identifies_eraseSubscribe s (SubackPacket.parse data).packetId
    split
    · exact erased.trans (.of_same rfl)
    · split <;> exact erased.trans (.of_same rfl)

theorem identifies_onSubscribeWritten (s : Sys) (p : UInt16) (ec : ErrorCode) :
    Identifies s (s.onSubscribeWritten p ec) := by
  unfold onSubscribeWritten
  split
  · exact .of_same rfl
  · split
    · split <;> exact .of_same rfl
    · dsimp only
      split <;> exact (identifies_eraseSubscribe s p).trans (.of_same rfl)

theorem identifies_insertPublish {p : UInt16} (positive : p ≠ 0) (free : s.takenId p = false)
    (room : s.pendingPublishes.size < 1000) (topic payload : Bytes) (qos : UInt8) (cb : Callback) :
    Identifies s (s.insertPublish p topic payload qos cb) :=
  .one (.publish p { topic, qos, payload, callback := cb, timer := s.nextTimer, attempts := 1 } positive free room)

theorem identifies_insertSubscribe {p : UInt16} (positive : p ≠ 0) (free : s.takenId p = false)
    (filters : List (Bytes × UInt8)) (cb : Callback) : Identifies s (s.insertSubscribe p filters cb) :=
  .one (.subscribe p { filters, callback := cb } positive free)

theorem identifies_asyncPublishImpl (positive : s.nextPacketId ≠ 0) (topic payload : Bytes) (qos : UInt8)
    (cb : Callback) : Identifies s (s.asyncPublishImpl topic payload qos cb) := by
  have told : ∀ u : Sys, Identifies u (u.tellPublish cb false topic qos 0) :=
    fun u => .of_same (ids_tellPublish u _ _ _ _ _)
  obtain ⟨next, id, same, later, free⟩ := acquirePacketId_cases s
  have acquired := identifies_acquire (s := s) (later positive)
  unfold asyncPublishImpl
  rw [same]
  split
  · exact told s
  split
  · exact told s
  split
  · exact told s
  split
  · exact .of_same rfl
  dsimp only
  split
  · exact acquired.trans (.of_same (ids_push _ _))
  split
  · exact acquired.trans (told _)
  rename_i found room
  refine acquired.trans (.trans ?_ (.of_same (ids_sendPublishEntry _ _)))
  exact identifies_insertPublish (s := { s with nextPacketId := next }) found (free found)
    (not_le.mp room) topic payload qos cb

theorem identifies_asyncSubscribeImpl (positive : s.nextPacketId ≠ 0) (topic : Bytes) (qos : UInt8) (cb : Callback) :
    Identifies s (s.asyncSubscribeImpl topic qos cb) := by
  have told := ids_tellSubscribe s cb false topic 0
  obtain ⟨next, id, same, later, free⟩ := acquirePacketId_cases s
  have acquired := identifies_acquire (s := s) (later positive)
  unfold asyncSubscribeImpl
  rw [same]
  split
  · exact .of_same told
  split
  · exact .of_same told
  dsimp only
  split
  · exact acquired.trans (.of_same (ids_push _ _))
  · rename_i found
    refine acquired.trans (.trans ?_ (.of_same (ids_write _ _ _)))
    exact identifies_insertSubscribe (s := { s with nextPacketId := next }) found (free found) [(topic, qos)] cb

/-! ### Every step -/

theorem identifies_onTimer (s : Sys) (h : TimerHandler) (ec : ErrorCode) : Identifies s (s.onTimer h ec) := by
  unfold onTimer
  split
  · exact .of_same rfl
  · cases h with
    | connectTimeout => exact .of_same (ids_handleConnectTimeout s)
    | ping => exact .of_same rfl
    | pingDeadline => exact .of_same rfl
    | publishRetry p => exact identifies_onPublishRetry s p
    | pubrecRetry p => exact identifies_onPubrecRetry s p

theorem identifies_handlePacket (s : Sys) (attempt : Nat) (data : Bytes) :
    Identifies s (s.handlePacket attempt data) := by
  cases data with
  | nil => exact .of_same rfl
  | cons byte rest =>
    unfold handlePacket
    dsimp only
    cases PacketType.ofUint8 (byte >>> 4) with
    | connack => exact .of_same (ids_handleConnack s _)
    | publish => exact .of_same (ids_handlePublish s _)
    | suback => exact identifies_handleSuback s _
    | puback => exact identifies_handlePuback s _
    | pubrec => exact identifies_handlePubrec s _
    | pubcomp => exact identifies_handlePubcomp s _
    | pingresp => exact .of_same (ids_schedulePingreq _ attempt)
    | _ => exact .of_same rfl

theorem identifies_execute (positive : s.nextPacketId ≠ 0) (k : Work) : Identifies s (s.execute k) := by
  cases k with
  | asyncPublishImpl topic payload qos cb => exact identifies_asyncPublishImpl positive topic payload qos cb
  | asyncSubscribeImpl topic qos cb => exact identifies_asyncSubscribeImpl positive topic qos cb
  | timer h ec => exact identifies_onTimer s h ec
  | handlePacket attempt data => exact identifies_handlePacket s attempt data
  | acknowledge qos p => exact .of_same (ids_acknowledge s qos p)
  | notifyClosedOnce => exact .of_same (ids_notifyClosedOnce s)
  | publishEach p => exact .of_same (ids_publishEach s p)
  | publishCancel p => exact .of_same (ids_publishCancel s p)
  | publishClear => exact identifies_publishClear s
  | subscribeEach p => exact .of_same (ids_subscribeEach s p)
  | subscribeFilters p cb rest => exact .of_same (ids_subscribeFilters s p cb rest)
  | subscribeClear => exact identifies_subscribeClear s
  | notifyClose => exact .of_same (ids_notifyClose s)
  | finishPublishFailure p => exact identifies_finishPublishFailure s p
  | subackEach cb rest => exact .of_same (ids_subackEach s cb rest)
  | subscribeWritten p cb rest => exact .of_same (ids_subscribeWritten s p cb rest)
  | reportConnect ok rc => exact .of_same (ids_reportConnect s ok rc)
  | reportPublish cb topic qos => exact .of_same (ids_tellPublish s _ _ _ _ _)
  | reportSubscribe cb topic => exact .of_same (ids_tellSubscribe s _ _ _ _)
  | user | startReadLoop | onClosed => exact .of_same rfl

theorem identifies_onWritten (s : Sys) (h : Handler) (ec : ErrorCode) : Identifies s (s.onWritten h ec) := by
  unfold onWritten
  cases h with
  | connectWrite attempt =>
    unfold onConnectWritten
    dsimp only
    split
    · exact .of_same rfl
    · exact .of_same (ids_schedulePingreq s attempt)
  | publish0 cb topic => exact .of_same (ids_tellPublish s _ _ _ _ _)
  | publish p =>
    dsimp only
    split
    · exact .of_same rfl
    · exact .of_same (ids_armPublishRetryTimer s p)
  | pubrel p =>
    unfold onPubrelWritten
    dsimp only
    split
    · exact identifies_erasePubrec s p
    · exact .of_same (ids_armPubrecRetryTimer s p)
  | subscribe p => exact identifies_onSubscribeWritten s p ec
  | acknowledged =>
    dsimp only
    split <;> exact .of_same rfl
  | pingreq attempt =>
    unfold onPingreqWritten
    dsimp only
    split <;> exact .of_same rfl
  | disconnect onClosed =>
    refine .of_same ((ids_closeConnection _).trans ?_)
    split <;> rfl
  | connect => exact .of_same rfl
  | read => exact .of_same rfl

theorem identifies_onInvoke (s : Sys) (call : Invocation Handler) : Identifies s (s.onInvoke call) := by
  unfold onInvoke
  split
  · exact .of_same (ids_onConnect s _ _)
  · unfold onRead
    split <;> exact .of_same rfl
  · exact identifies_onWritten s _ _
  · exact .of_same rfl

theorem identifies_call (s : Sys) (c : Call) : Identifies s (s.call c) := by
  cases c with
  | asyncConnect callback => exact .of_same (ids_asyncConnect s callback)
  | close => exact .of_same (ids_closeConnection s)
  | handlePacket data => exact identifies_handlePacket s s.attempts data
  | handlePuback data => exact identifies_handlePuback s data
  | handlePubrec data => exact identifies_handlePubrec s data
  | handlePubcomp data => exact identifies_handlePubcomp s data
  | handleSuback data => exact identifies_handleSuback s data
  | handlePublish data => exact .of_same (ids_handlePublish s data)
  | _ => exact .of_same rfl

theorem step_identifies {a : Action} (positive : s.nextPacketId ≠ 0) (taken : s.step a = some t) : Identifies s t := by
  cases (steps taken).2 with
  | work k rest front busy => exact identifies_execute (s := s.goesOn rest) positive k
  | invoke call rest front =>
    exact identifies_onInvoke { s with net := (s.goesOn rest).net.recordCall call } call
  | call c allowed => exact identifies_call s c
  | _ => exact .of_same rfl

/-! ### The discipline -/

/-- Every open exchange of `s` is still open in `t`, as it was. -/
structure Extends (s t : Sys) : Prop where
  publishes : ∀ p entry, s.pendingPublishes.find? p = some entry → t.pendingPublishes.find? p = some entry
  subscribes : ∀ p entry, s.pendingSubscribes.find? p = some entry → t.pendingSubscribes.find? p = some entry
  pubrecs : ∀ p entry, s.pendingPubrecs.find? p = some entry → t.pendingPubrecs.find? p = some entry

/-- What the ids of a client keep to. The id given for a new request is bound in none of the maps,
so the request leaves every open exchange as it was. -/
structure Disciplined (s : Sys) : Prop where
  publishes : ∀ p, s.pendingPublishes.contains p = true → p ≠ 0
  subscribes : ∀ p, s.pendingSubscribes.contains p = true → p ≠ 0
  pubrecs : ∀ p, s.pendingPubrecs.contains p = true → p ≠ 0
  apart : ∀ p, s.pendingSubscribes.contains p = true →
    s.pendingPublishes.contains p = false ∧ s.pendingPubrecs.contains p = false
  few : s.pendingPublishes.size ≤ 1000
  next : s.nextPacketId ≠ 0
  fresh : s.pendingPublishes.contains s.acquirePacketId.2 = false ∧
    s.pendingSubscribes.contains s.acquirePacketId.2 = false ∧ s.pendingPubrecs.contains s.acquirePacketId.2 = false
  publishing : ∀ topic payload qos callback, Extends s (s.asyncPublishImpl topic payload qos callback)
  subscribing : ∀ topic qos callback, Extends s (s.asyncSubscribeImpl topic qos callback)

theorem find?_insert_free {α : Type*} {m : OrderedMap UInt16 α} {p q : UInt16} {v w : α} (free : m.contains p = false)
    (found : m.find? q = some v) : (m.insert p w).find? q = some v := by
  rw [OrderedMap.find?_insert]
  split
  · rename_i same
    rw [same] at found
    exact absurd ((contains_of_find? found).symm.trans free) nofun
  · exact found

theorem Extends.of_same (same : t.ids = s.ids) : Extends s t :=
  ⟨fun p _ => congrArg (fun i : Ids => i.publishes.find? p) same ▸ id,
    fun p _ => congrArg (fun i : Ids => i.subscribes.find? p) same ▸ id,
    fun p _ => congrArg (fun i : Ids => i.pubrecs.find? p) same ▸ id⟩

theorem Extends.trans {u : Sys} (h : Extends s t) (g : Extends t u) : Extends s u :=
  ⟨fun p e found => g.publishes p e (h.publishes p e found), fun p e found => g.subscribes p e (h.subscribes p e found),
    fun p e found => g.pubrecs p e (h.pubrecs p e found)⟩

theorem extends_insertPublish {p : UInt16} (free : s.takenId p = false) (topic payload : Bytes) (qos : UInt8)
    (cb : Callback) : Extends s (s.insertPublish p topic payload qos cb) :=
  ⟨fun _ _ => find?_insert_free (Ids.taken_false (i := s.ids) free).1, fun _ _ => id, fun _ _ => id⟩

theorem extends_insertSubscribe {p : UInt16} (free : s.takenId p = false) (filters : List (Bytes × UInt8))
    (cb : Callback) : Extends s (s.insertSubscribe p filters cb) :=
  ⟨fun _ _ => id, fun _ _ => find?_insert_free (Ids.taken_false (i := s.ids) free).2.1, fun _ _ => id⟩

theorem extends_asyncPublishImpl (s : Sys) (topic payload : Bytes) (qos : UInt8) (cb : Callback) :
    Extends s (s.asyncPublishImpl topic payload qos cb) := by
  have told : ∀ u : Sys, Extends u (u.tellPublish cb false topic qos 0) :=
    fun u => .of_same (ids_tellPublish u _ _ _ _ _)
  obtain ⟨next, p, same, -, free⟩ := acquirePacketId_cases s
  have acquired : Extends s { s with nextPacketId := next } := ⟨fun _ _ => id, fun _ _ => id, fun _ _ => id⟩
  unfold asyncPublishImpl
  rw [same]
  split
  · exact told s
  split
  · exact told s
  split
  · exact told s
  split
  · exact .of_same rfl
  dsimp only
  split
  · exact acquired.trans (.of_same (ids_push _ _))
  split
  · exact acquired.trans (told _)
  rename_i found room
  refine acquired.trans (.trans ?_ (.of_same (ids_sendPublishEntry _ _)))
  exact extends_insertPublish (s := { s with nextPacketId := next }) (free found) topic payload qos cb

theorem extends_asyncSubscribeImpl (s : Sys) (topic : Bytes) (qos : UInt8) (cb : Callback) :
    Extends s (s.asyncSubscribeImpl topic qos cb) := by
  have told := ids_tellSubscribe s cb false topic 0
  obtain ⟨next, p, same, -, free⟩ := acquirePacketId_cases s
  have acquired : Extends s { s with nextPacketId := next } := ⟨fun _ _ => id, fun _ _ => id, fun _ _ => id⟩
  unfold asyncSubscribeImpl
  rw [same]
  split
  · exact .of_same told
  split
  · exact .of_same told
  dsimp only
  split
  · exact acquired.trans (.of_same (ids_push _ _))
  · rename_i found
    refine acquired.trans (.trans ?_ (.of_same (ids_write _ _ _)))
    exact extends_insertSubscribe (s := { s with nextPacketId := next }) (free found) [(topic, qos)] cb

/-- No id is found to be free, and then 0 is given, or the id given is free. -/
theorem acquirePacketId_fresh (sound : s.ids.Sound) : s.ids.taken s.acquirePacketId.2 = false := by
  by_cases found : s.acquirePacketId.2 = 0
  · rw [found]
    simp only [Ids.taken, Bool.or_eq_false_iff]
    exact ⟨⟨Bool.eq_false_iff.mpr fun held => sound.publishes 0 held rfl,
      Bool.eq_false_iff.mpr fun held => sound.subscribes 0 held rfl⟩,
      Bool.eq_false_iff.mpr fun held => sound.pubrecs 0 held rfl⟩
  · exact acquirePacketId_free found

theorem disciplined_of_sound (sound : s.ids.Sound) : s.Disciplined where
  publishes := sound.publishes
  subscribes := sound.subscribes
  pubrecs := sound.pubrecs
  apart := sound.apart
  few := sound.few
  next := sound.next
  fresh := Ids.taken_false (acquirePacketId_fresh sound)
  publishing := extends_asyncPublishImpl s
  subscribing := extends_asyncSubscribeImpl s

theorem sound_start : ({} : Sys).ids.Sound := ⟨nofun, nofun, nofun, nofun, by decide, by decide⟩

/-- The packet ids of a client keep to the discipline throughout every run. -/
theorem packet_ids_disciplined (actions : List Action) : Runs.Throughout step Disciplined ({} : Sys) actions :=
  Runs.throughout_of_invariant (I := fun s => s.ids.Sound)
    (fun _ _ _ sound taken => Ids.sound_moves (step_identifies sound.next taken) sound)
    (fun _ => disciplined_of_sound) sound_start

end Sys
end LiteMqtt
