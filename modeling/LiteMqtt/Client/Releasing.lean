import LiteMqtt.Client.Meaning
import LiteMqtt.Client.Publishing
import LiteMqtt.Client.Waiting

/-!
# No PUBLISH after its PUBREC

`handle_pubrec` cancels the retry timer of a QoS 2 publish and leaves its entry where it is. The
completion of an earlier PUBLISH write arms the timer again, and an expiry that was queued is not
revoked: both find the entry by its packet id and do not see that its PUBREC has come.
-/

namespace LiteMqtt
namespace Sys

variable {s t u v : Sys} {p : UInt16}

/-! ### Retries wait on the timer of their entry -/

def Retrying (s : Sys) : Prop := ∀ w ∈ s.waits, ∀ p, w.handler = .publishRetry p →
  ∃ entry, s.pendingPublishes.find? p = some entry ∧ w.timer = entry.timer

theorem Retrying.of_fewer (retrying : s.Retrying) (waits : ∀ w ∈ t.waits, w ∈ s.waits)
    (same : t.pendingPublishes = s.pendingPublishes) : t.Retrying := by
  intro w among p waiting
  rw [same]
  exact retrying w (waits w among) p waiting

theorem retrying_cancelTimer (timer : Nat) (retrying : s.Retrying) : (s.cancelTimer timer).Retrying :=
  retrying.of_fewer (fun _ => List.mem_of_mem_filter) rfl

theorem retrying_await {w : Wait} (retrying : s.Retrying)
    (own : ∀ p, w.handler = .publishRetry p → ∃ entry, s.pendingPublishes.find? p = some entry ∧
      w.timer = entry.timer) :
    Retrying { s with waits := s.waits ++ [w] } := by
  intro v among p waiting
  rcases List.mem_append.mp among with before | last
  · exact retrying v before p waiting
  · obtain rfl := List.mem_singleton.mp last
    exact own p waiting

theorem closeConnection_publishes (s : Sys) : s.closeConnection.waits = s.waits ∧
    s.closeConnection.pendingPublishes = s.pendingPublishes := by
  unfold closeConnection
  split <;> exact ⟨rfl, rfl⟩

theorem retrying_asyncConnect (callback : Bool) (retrying : s.Retrying) : (s.asyncConnect callback).Retrying := by
  unfold asyncConnect
  dsimp only
  split
  · exact retrying_await (s := Sys.cancelTimer _ connectTimer)
      (retrying.of_fewer (fun _ => List.mem_of_mem_filter) rfl) nofun
  · exact retrying.of_fewer (fun _ => id) rfl

theorem retrying_apply {e : Effect} (inside : e.within apart = true) (retrying : s.Retrying) :
    (s.apply e).Retrying := by
  cases e with
  | cancelTimer timer => exact retrying_cancelTimer timer retrying
  | closeConnection =>
    obtain ⟨waits, publishes⟩ := closeConnection_publishes s
    exact retrying.of_fewer (fun _ => waits ▸ id) publishes
  | await w =>
    refine retrying_await retrying fun p waiting => ?_
    exact absurd (congrArg TimerHandler.topic waiting) (Effect.topic_of_within inside (by decide))
  | asyncConnect callback => exact retrying_asyncConnect callback retrying
  | setPublishes entries => exact absurd rfl (Effect.topic_of_within inside (by decide))
  | _ => exact retrying.of_fewer (fun _ => id) rfl

theorem retrying_does (does : Does apart s t) (retrying : s.Retrying) : t.Retrying :=
  does.keeps (fun _ _ inside => retrying_apply inside) retrying

theorem tellPublish_waits (s : Sys) (cb : Callback) (ok : Bool) (topic : Bytes) (qos : UInt8) (p : UInt16) :
    (s.tellPublish cb ok topic qos p).waits = s.waits := by
  unfold tellPublish
  split <;> rfl

theorem retrying_tellPublish (cb : Callback) (ok : Bool) (topic : Bytes) (qos : UInt8) (p : UInt16)
    (retrying : s.Retrying) : (s.tellPublish cb ok topic qos p).Retrying :=
  retrying.of_fewer (fun _ => by rw [tellPublish_waits]; exact id) (tellPublish_publishes _ _ _ _ _ _).1

theorem retrying_armPublishRetryTimer (p : UInt16) (retrying : s.Retrying) : (s.armPublishRetryTimer p).Retrying := by
  unfold armPublishRetryTimer
  split
  · exact retrying
  · rename_i entry held
    refine retrying_await (s := s.cancelTimer entry.timer) (retrying_cancelTimer _ retrying) ?_
    rintro q ⟨⟩
    exact ⟨entry, held, rfl⟩

theorem retrying_sendPublishEntry (p : UInt16) (retrying : s.Retrying) : (s.sendPublishEntry p).Retrying := by
  unfold sendPublishEntry
  split
  · exact retrying
  · exact (retrying_armPublishRetryTimer p retrying).of_fewer (fun _ => id) rfl

/-- An entry is stored anew, on its timer if it had one. -/
theorem retrying_insert {entry : PendingPublish} (p : UInt16)
    (same : ∀ old, s.pendingPublishes.find? p = some old → old.timer = entry.timer) (retrying : s.Retrying) :
    Retrying { s with pendingPublishes := s.pendingPublishes.insert p entry } := by
  intro w among q waiting
  obtain ⟨old, held, timer⟩ := retrying w among q waiting
  simp only [OrderedMap.find?_insert]
  split
  · rename_i here
    exact ⟨entry, rfl, timer.trans (same old (here ▸ held))⟩
  · exact ⟨old, held, timer⟩

/-- An entry whose retry was cancelled is dropped. -/
theorem retrying_finish (p : UInt16) (retrying : s.Retrying) :
    Retrying { s.cancelPublishRetryTimer p with
      pendingPublishes := (s.cancelPublishRetryTimer p).pendingPublishes.erase p } := by
  unfold cancelPublishRetryTimer
  intro w among q waiting
  cases held : s.pendingPublishes.find? p with
  | none =>
    simp only [held] at among ⊢
    obtain ⟨old, found, timer⟩ := retrying w among q waiting
    refine ⟨old, ?_, timer⟩
    rw [OrderedMap.find?_erase]
    split
    · rename_i here
      rw [here, held] at found
      contradiction
    · exact found
  | some entry =>
    simp only [held] at among ⊢
    obtain ⟨before, other⟩ := List.mem_filter.mp among
    obtain ⟨old, found, timer⟩ := retrying w before q waiting
    refine ⟨old, ?_, timer⟩
    change (s.pendingPublishes.erase p).find? q = _
    rw [OrderedMap.find?_erase]
    split
    · rename_i here
      rw [here, held] at found
      obtain rfl := Option.some.inj found
      simp [timer] at other
    · exact found

theorem cancelTimers_waits (s : Sys) (timers : List Nat) :
    ∀ w ∈ (s.cancelTimers timers).waits, w ∈ s.waits ∧ w.timer ∉ timers := by
  induction timers generalizing s with
  | nil => exact fun w among => ⟨among, List.not_mem_nil⟩
  | cons timer timers ih =>
    intro w among
    obtain ⟨before, absent⟩ := ih _ w among
    obtain ⟨before, other⟩ := List.mem_filter.mp before
    refine ⟨before, fun listed => ?_⟩
    rcases List.mem_cons.mp listed with rfl | later
    · simp at other
    · exact absent later

theorem retrying_publishClear (retrying : s.Retrying) : s.publishClear.Retrying := by
  unfold publishClear
  dsimp only
  have cleared : ∀ (v : Sys), (∀ w ∈ v.waits, w ∈
      (s.cancelTimers (s.pendingPublishes.entries.map fun e => e.2.timer)).waits) → v.Retrying := by
    intro v fewer w among p waiting
    obtain ⟨before, absent⟩ := cancelTimers_waits _ _ w (fewer w among)
    obtain ⟨entry, held, timer⟩ := retrying w before p waiting
    exact absurd (List.mem_map.mpr ⟨(p, entry), OrderedMap.find?_eq_some.mp held, timer.symm⟩) absent
  split <;> exact cleared _ fun w among => (cancelTimers_waits _ _ w among).1

theorem retrying_asyncPublishImpl (topic payload : Bytes) (qos : UInt8) (cb : Callback) (retrying : s.Retrying) :
    (s.asyncPublishImpl topic payload qos cb).Retrying := by
  unfold asyncPublishImpl
  split
  · exact retrying_tellPublish _ _ _ _ _ retrying
  split
  · exact retrying_tellPublish _ _ _ _ _ retrying
  split
  · exact retrying_tellPublish _ _ _ _ _ retrying
  split
  · exact retrying.of_fewer (fun _ => id) rfl
  have acquired : s.acquirePacketId.1.Retrying := retrying.of_fewer (fun _ => id) rfl
  dsimp only
  split
  · exact acquired.of_fewer (fun _ => id) rfl
  split
  · exact retrying_tellPublish _ _ _ _ _ acquired
  · rename_i found _
    have free := acquirePacketId_free found
    have absent : s.pendingPublishes.find? s.acquirePacketId.2 = none := by
      simp only [takenId, Bool.or_eq_false_iff, OrderedMap.contains] at free
      simpa using free.1.1
    refine retrying_sendPublishEntry _ ?_
    refine (retrying_insert (s := s.acquirePacketId.1) _ (fun old held => ?_) acquired).of_fewer (fun _ => id) rfl
    cases absent.symm.trans held

theorem retrying_onPublishRetry (p : UInt16) (retrying : s.Retrying) : (s.onPublishRetry p).Retrying := by
  unfold onPublishRetry
  split
  · exact retrying
  · rename_i entry held
    split
    · exact retrying.of_fewer (fun _ => id) rfl
    · refine retrying_sendPublishEntry p (retrying_insert p (fun old found => ?_) retrying)
      obtain rfl := Option.some.inj (held.symm.trans found)
      rfl

theorem retrying_finishPublishFailure (p : UInt16) (retrying : s.Retrying) : (s.finishPublishFailure p).Retrying := by
  unfold finishPublishFailure
  split
  · exact retrying.of_fewer (fun _ => id) rfl
  · exact retrying_tellPublish _ _ _ _ _ ((retrying_finish p retrying).of_fewer (fun _ => id) rfl)

theorem retrying_finishPublishSuccess (p : UInt16) (retrying : s.Retrying) : (s.finishPublishSuccess p).Retrying := by
  unfold finishPublishSuccess
  split
  · exact retrying
  · exact retrying_tellPublish _ _ _ _ _ (retrying_finish p retrying)

theorem retrying_publishEach (p : UInt16) (retrying : s.Retrying) : (s.publishEach p).Retrying := by
  unfold publishEach
  split
  · exact retrying.of_fewer (fun _ => id) rfl
  · exact retrying_tellPublish _ _ _ _ _ (retrying.of_fewer (fun _ => id) rfl)

theorem retrying_popped (popped : s.Popped u) (retrying : s.Retrying) : u.Retrying :=
  retrying.of_fewer (fun _ => by rw [popped.same]; exact id) (by rw [popped.same])

theorem bare_publishes {a : Action} (bare : s.Bare a t) : t.pendingPublishes = s.pendingPublishes := by
  cases bare <;> rfl

theorem retrying_step {a : Action} (retrying : s.Retrying) (taken : s.step a = some t) : t.Retrying := by
  have going : ∀ {entry rest}, s.net.stack = entry :: rest → (s.goesOn rest).Retrying := fun front =>
    retrying_popped (popped_goesOn front) retrying
  cases publishing_outline taken with
  | bare a t bare => exact retrying.of_fewer (bare_waits bare) (bare_publishes bare)
  | asyncPublish topic payload qos callable => exact retrying.of_fewer (fun _ => id) rfl
  | impl topic payload qos cb rest front => exact retrying_asyncPublishImpl _ _ _ _ (going front)
  | retry p rest front => exact retrying_onPublishRetry p (going front)
  | failure p rest front => exact retrying_finishPublishFailure p (going front)
  | report cb topic qos rest front => exact retrying_tellPublish _ _ _ _ _ (going front)
  | each p rest front => exact retrying_publishEach p (going front)
  | clear rest front => exact retrying_publishClear (going front)
  | written0 serial cb topic ec rest front =>
    exact retrying_tellPublish _ _ _ _ _ (retrying_popped (popped_recordCall front) retrying)
  | written serial p rest front =>
    exact retrying_armPublishRetryTimer p (retrying_popped (popped_recordCall front) retrying)
  | acked a u v p popped does deed =>
    exact retrying_finishPublishSuccess p (retrying_does does (retrying_popped popped retrying))
  | other a u t popped does => exact retrying_does does (retrying_popped popped retrying)

/-! ### Which steps hand a PUBLISH to the connection -/

/-- The step hands a PUBLISH frame with packet id `p` to the connection. A QoS 0 frame has none. -/
def HandsPublish (p : UInt16) (s t : Sys) : Prop :=
  ∃ pkt news, t.log = news ++ s.log ∧ .handed (.publish pkt) ∈ news ∧ pkt.packetId = p ∧ pkt.qos ≠ 0

/-- The step handles an expiry of the retry timer of `p` with an attempt left. -/
def resends (p : UInt16) (s : Sys) : Action → Bool
  | .exec =>
      match s.net.stack with
      | .own (.timer (.publishRetry q) none) :: _ =>
          q == p && (s.pendingPublishes.find? p).any fun entry => decide (entry.attempts < 3)
      | _ => false
  | _ => false

/-- In the step `async_publish_impl` takes a new publish on under the packet id `p`. -/
def reissues (p : UInt16) (s : Sys) : Action → Bool
  | .exec =>
      match s.net.stack with
      | .own (.asyncPublishImpl _ _ qos _) :: _ =>
          (qos == 1 || qos == 2) && !s.closed && s.net.state == .connected && p != 0 &&
            s.acquirePacketId.2 == p && decide (s.pendingPublishes.size < kMaxPendingPublishes)
      | _ => false
  | _ => false

/-- What is recorded is no PUBLISH, or one at QoS 0. -/
def Mute (s t : Sys) : Prop :=
  ∃ news, t.log = news ++ s.log ∧ ∀ pkt, .handed (.publish pkt) ∈ news → pkt.qos = 0

theorem Mute.of_same (log : t.log = s.log) : Mute s t := ⟨[], log, nofun⟩

theorem Mute.trans (h : Mute s t) (g : Mute t u) : Mute s u := by
  obtain ⟨first, log, mute⟩ := h
  obtain ⟨later, log', mute'⟩ := g
  refine ⟨later ++ first, by rw [log', log, List.append_assoc], fun pkt among => ?_⟩
  exact (List.mem_append.mp among).elim (mute' pkt) (mute pkt)

theorem mute_of_calm (calm : Calm s t) : Mute s t := by
  obtain ⟨news, log, each⟩ := calm.log
  exact ⟨news, log, fun pkt among => absurd (each _ among) nofun⟩

theorem hands_news {news : List Event} (log : t.log = news ++ s.log) : HandsPublish p s t ↔
    ∃ pkt, .handed (.publish pkt) ∈ news ∧ pkt.packetId = p ∧ pkt.qos ≠ 0 := by
  constructor
  · rintro ⟨pkt, others, same, among, rest⟩
    rw [List.append_cancel_right (log.symm.trans same)]
    exact ⟨pkt, among, rest⟩
  · rintro ⟨pkt, among, rest⟩
    exact ⟨pkt, news, log, among, rest⟩

theorem Mute.hands (mute : Mute s t) : ¬ HandsPublish p s t := by
  obtain ⟨news, log, each⟩ := mute
  rw [hands_news log]
  rintro ⟨pkt, among, -, positive⟩
  exact positive (each pkt among)

theorem mute_apply {e : Effect} (inside : e.within apart = true) : Mute s (s.apply e) := by
  have recorded : ∀ {x : Event} {w : Sys}, w.log = x :: s.log → (∀ pkt, x ≠ .handed (.publish pkt)) → Mute s w :=
    fun log other => ⟨[_], log, fun pkt among => absurd (List.mem_singleton.mp among).symm (other pkt)⟩
  cases e with
  | record x =>
    refine recorded rfl ?_
    rintro pkt rfl
    exact absurd rfl (Effect.topic_of_within inside (by decide))
  | write packet handler =>
    refine recorded rfl ?_
    rintro pkt same
    obtain rfl := Event.handed.inj same
    exact absurd rfl (Effect.topic_of_within inside (by decide))
  | closeConnection => exact mute_of_calm (calm_closeConnection s)
  | asyncConnect callback => exact recorded (asyncConnect_connects s callback).log nofun
  | _ => exact .of_same rfl

theorem mute_does (does : Does apart s t) : Mute s t := by
  induction does with
  | refl => exact .of_same rfl
  | tail _ last ih =>
    obtain ⟨e, inside, rfl⟩ := last
    exact ih.trans (mute_apply inside)

theorem mute_popped (popped : s.Popped u) : Mute s u := .of_same (by rw [popped.same])

theorem mute_acked (s : Sys) (p : UInt16) : Mute s (s.finishPublishSuccess p) := by
  unfold finishPublishSuccess
  split
  · exact .of_same rfl
  · refine ⟨_, (tellPublish_log _ _ _ _ _ _).trans (congrArg _ (cancelPublishRetryTimer_same s p).1),
      fun pkt among => ?_⟩
    split at among
    · exact absurd (List.mem_singleton.mp among) nofun
    · exact absurd among List.not_mem_nil

theorem sendPublishEntry_log {entry : PendingPublish} (held : s.pendingPublishes.find? p = some entry) :
    (s.sendPublishEntry p).log = .handed (.publish {
      topicName := entry.topic, payload := entry.payload, qos := entry.qos, packetId := p
      dup := decide (entry.attempts > 1) }) :: s.log := by
  unfold sendPublishEntry
  rw [held]
  exact congrArg _ (armPublishRetryTimer_same s p).1

theorem hands_sent {q : UInt16} {entry : PendingPublish} (stored : u.pendingPublishes.find? q = some entry)
    (mute : Mute s u) (positive : entry.qos ≠ 0) : HandsPublish p s (u.sendPublishEntry q) ↔ q = p := by
  obtain ⟨news, log, each⟩ := mute
  have sent := (sendPublishEntry_log stored).trans (congrArg _ log)
  rw [← List.cons_append] at sent
  rw [hands_news sent]
  constructor
  · rintro ⟨pkt, among, rfl, told⟩
    rcases List.mem_cons.mp among with same | before
    · obtain rfl := Packet.publish.inj (Event.handed.inj same)
      rfl
    · exact absurd (each pkt before) told
  · rintro rfl
    exact ⟨_, List.mem_cons_self, rfl, positive⟩

theorem hands_onPublishRetry {q : UInt16} (held : s.Held) : HandsPublish p s (s.onPublishRetry q) ↔
    q = p ∧ ∃ entry, s.pendingPublishes.find? p = some entry ∧ entry.attempts < 3 := by
  unfold onPublishRetry
  cases found : s.pendingPublishes.find? q with
  | none =>
    refine iff_of_false (Mute.hands (.of_same rfl)) ?_
    rintro ⟨rfl, entry, same, -⟩
    exact absurd (found.symm.trans same) nofun
  | some entry =>
    dsimp only
    by_cases spent : entry.attempts ≥ 3
    · rw [if_pos spent]
      refine iff_of_false (Mute.hands (.of_same rfl)) ?_
      rintro ⟨rfl, other, same, left⟩
      obtain rfl := Option.some.inj (found.symm.trans same)
      omega
    · rw [if_neg spent]
      have stored : OrderedMap.find? (s.pendingPublishes.insert q { entry with attempts := entry.attempts + 1 }) q =
          some { entry with attempts := entry.attempts + 1 } := by
        simp [OrderedMap.find?_insert]
      have positive : entry.qos ≠ 0 := by
        rcases (held q entry found).1 with one | two <;> simp [*]
      refine (hands_sent (u := { s with
        pendingPublishes := s.pendingPublishes.insert q { entry with attempts := entry.attempts + 1 } })
        stored (.of_same rfl) positive).trans ⟨?_, And.left⟩
      rintro rfl
      exact ⟨rfl, entry, found, by omega⟩

theorem mute_tellPublish (s : Sys) (cb : Callback) (ok : Bool) (topic : Bytes) (qos : UInt8) (p : UInt16) :
    Mute s (s.tellPublish cb ok topic qos p) := by
  refine ⟨_, tellPublish_log s cb ok topic qos p, fun pkt among => ?_⟩
  split at among
  · exact absurd (List.mem_singleton.mp among) nofun
  · exact absurd among List.not_mem_nil

theorem hands_asyncPublishImpl (topic payload : Bytes) (qos : UInt8) (cb : Callback) :
    HandsPublish p s (s.asyncPublishImpl topic payload qos cb) ↔
      (qos = 1 ∨ qos = 2) ∧ s.closed = false ∧ s.net.state = .connected ∧ p ≠ 0 ∧ s.acquirePacketId.2 = p ∧
        s.pendingPublishes.size < kMaxPendingPublishes := by
  have told : ∀ {u : Sys} q, Mute s u → Mute s (u.tellPublish cb false topic q 0) := fun q mute =>
    mute.trans (mute_tellPublish _ _ _ _ _ _)
  have start : Mute s s := .of_same rfl
  unfold asyncPublishImpl
  split
  · rename_i high
    refine iff_of_false (told _ start).hands ?_
    rintro ⟨rfl | rfl, -⟩ <;> exact absurd high (by decide)
  split
  · rename_i closed
    refine iff_of_false (told _ start).hands ?_
    rintro ⟨-, live, -⟩
    exact absurd (closed.symm.trans live) nofun
  split
  · rename_i other
    refine iff_of_false (told _ start).hands ?_
    rintro ⟨-, -, connected, -⟩
    simp [connected] at other
  split
  · rename_i zero
    refine iff_of_false (Mute.hands ⟨[_, _], rfl, fun pkt among => ?_⟩) ?_
    · rcases List.mem_cons.mp among with same | last
      · obtain rfl := Packet.publish.inj (Event.handed.inj same)
        rfl
      · exact absurd (List.mem_singleton.mp last) nofun
    · rintro ⟨rfl | rfl, -⟩ <;> exact absurd zero (by decide)
  dsimp only
  split
  · rename_i none
    refine iff_of_false (Mute.hands (.of_same rfl)) ?_
    rintro ⟨-, -, -, proper, same, -⟩
    exact proper (same.symm.trans none)
  split
  · rename_i full
    refine iff_of_false (told (u := s.acquirePacketId.1) _ (.of_same rfl)).hands ?_
    rintro ⟨-, -, -, -, -, room⟩
    exact absurd room (Nat.not_lt.mpr full)
  · rename_i low closed other positive none full
    let entry : PendingPublish :=
      { topic, qos, payload, callback := cb, timer := s.nextTimer, attempts := 1 }
    have stored : (s.acquirePacketId.1.insertPublish s.acquirePacketId.2 topic payload qos
        cb).pendingPublishes.find? s.acquirePacketId.2 = some entry := by
      change (s.pendingPublishes.insert s.acquirePacketId.2 entry).find? _ = _
      simp [OrderedMap.find?_insert]
    refine (hands_sent stored ⟨[_], rfl, fun pkt among => absurd (List.mem_singleton.mp among) nofun⟩ positive).trans ?_
    constructor
    · rintro rfl
      exact ⟨qos_acknowledged low positive, by simpa using closed, by simpa using other, none, rfl, Nat.not_le.mp full⟩
    · exact fun ⟨_, _, _, _, same, _⟩ => same

theorem exec_work {k : Work} {rest : List (StackEntry Handler Work)} (front : s.net.stack = .own k :: rest)
    (taken : s.step .exec = some t) : t = (s.goesOn rest).execute k := by
  cases (steps taken).2 with
  | work j later own =>
    obtain ⟨same, rfl⟩ := List.cons.inj (front.symm.trans own)
    obtain rfl := StackEntry.own.inj same
    rfl
  | invoke call later own => exact absurd (front.symm.trans own) (by simp)
  | afterWrite ec later own => exact absurd (front.symm.trans own) (by simp)
  | closeHandler later own => exact absurd (front.symm.trans own) (by simp)

theorem resends_front {a : Action} (sends : s.resends p a = true) : a = .exec ∧ ∃ rest entry,
    s.net.stack = .own (.timer (.publishRetry p) none) :: rest ∧
    s.pendingPublishes.find? p = some entry ∧ entry.attempts < 3 := by
  unfold resends at sends
  split at sends
  · split at sends
    · rename_i q rest front
      simp only [Bool.and_eq_true, beq_iff_eq, Option.any_eq_true, decide_eq_true_eq] at sends
      obtain ⟨rfl, entry, found, left⟩ := sends
      exact ⟨rfl, rest, entry, front, found, left⟩
    · contradiction
  · contradiction

theorem reissues_front {a : Action} (sends : s.reissues p a = true) : a = .exec ∧ ∃ topic payload qos cb rest,
    s.net.stack = .own (.asyncPublishImpl topic payload qos cb) :: rest ∧
    ((qos = 1 ∨ qos = 2) ∧ s.closed = false ∧ s.net.state = .connected ∧ p ≠ 0 ∧ s.acquirePacketId.2 = p ∧
      s.pendingPublishes.size < kMaxPendingPublishes) := by
  unfold reissues at sends
  split at sends
  · split at sends
    · rename_i topic payload qos cb rest front
      simp only [Bool.and_eq_true, Bool.or_eq_true, beq_iff_eq, bne_iff_ne, Bool.not_eq_true',
        decide_eq_true_eq] at sends
      obtain ⟨⟨⟨⟨⟨level, live⟩, connected⟩, proper⟩, same⟩, room⟩ := sends
      exact ⟨rfl, topic, payload, qos, cb, rest, front, level, live, connected, proper, same, room⟩
    · contradiction
  · contradiction

theorem acquirePacketId_goesOn (s : Sys) (rest : List (StackEntry Handler Work)) :
    (s.goesOn rest).acquirePacketId.2 = s.acquirePacketId.2 := by
  have taken : (s.goesOn rest).takenId = s.takenId := rfl
  have last : (s.goesOn rest).nextPacketId = s.nextPacketId := rfl
  simp only [acquirePacketId, taken, last]

/-- A step hands a PUBLISH on only if it sends one again or takes one on. -/
theorem hands_of_step {a : Action} (held : s.Held) (taken : s.step a = some t) (hands : HandsPublish p s t) :
    s.resends p a = true ∨ s.reissues p a = true := by
  have silent : Mute s t → s.resends p a = true ∨ s.reissues p a = true := fun mute => absurd hands mute.hands
  cases publishing_outline taken with
  | bare a t bare => exact silent (.of_same (by cases bare <;> rfl))
  | asyncPublish topic payload qos callable =>
    exact silent ⟨[_], rfl, fun pkt among => absurd (List.mem_singleton.mp among) nofun⟩
  | impl topic payload qos cb rest front =>
    obtain ⟨level, live, connected, proper, same, room⟩ :=
      (hands_asyncPublishImpl (s := s.goesOn rest) _ _ _ _).mp hands
    refine .inr ?_
    change s.closed = false at live
    change s.net.state = _ at connected
    rw [acquirePacketId_goesOn] at same
    change s.pendingPublishes.size < _ at room
    simpa [reissues, front, live, connected, proper, same, room] using level
  | retry q rest front =>
    obtain ⟨rfl, entry, found, left⟩ := (hands_onPublishRetry (s := s.goesOn rest) held).mp hands
    change s.pendingPublishes.find? q = _ at found
    exact .inl (by simp [resends, front, found, left])
  | failure q rest front => exact silent (mute_of_calm (s := s.goesOn rest) (calm_finishPublishFailure _ q))
  | report cb topic qos rest front => exact silent (mute_tellPublish (s.goesOn rest) _ _ _ _ _)
  | each q rest front => exact silent (mute_of_calm (s := s.goesOn rest) (calm_publishEach _ q))
  | clear rest front => exact silent (mute_of_calm (s := s.goesOn rest) (calm_publishClear _))
  | written0 serial cb topic ec rest front =>
    exact silent ((mute_popped (popped_recordCall front)).trans (mute_tellPublish _ _ _ _ _ _))
  | written serial q rest front =>
    exact silent ((mute_popped (popped_recordCall front)).trans (mute_of_calm (calm_armPublishRetryTimer _ q)))
  | acked a u v q popped does deed =>
    exact silent ((mute_popped popped).trans ((mute_does does).trans (mute_acked v q)))
  | other a u t popped does => exact silent ((mute_popped popped).trans (mute_does does))

theorem hands_of_resends {a : Action} (held : s.Held) (taken : s.step a = some t) (sends : s.resends p a = true) :
    HandsPublish p s t := by
  obtain ⟨rfl, rest, entry, front, found, left⟩ := resends_front sends
  rw [exec_work front taken]
  exact (hands_onPublishRetry (s := s.goesOn rest) held).mpr ⟨rfl, entry, found, left⟩

theorem hands_of_reissues {a : Action} (taken : s.step a = some t) (sends : s.reissues p a = true) :
    HandsPublish p s t := by
  obtain ⟨rfl, topic, payload, qos, cb, rest, front, taking⟩ := reissues_front sends
  rw [exec_work front taken]
  obtain ⟨level, live, connected, proper, same, room⟩ := taking
  rw [← acquirePacketId_goesOn s rest] at same
  exact (hands_asyncPublishImpl (s := s.goesOn rest) _ _ _ _).mpr ⟨level, live, connected, proper, same, room⟩

/-! ### The retry timer after a PUBREC -/

/-- The step handles the completion of a PUBLISH write of `p` without error. -/
def rearms (p : UInt16) (s : Sys) : Action → Bool
  | .exec =>
      match s.net.stack with
      | .invoke (.write _ (.publish q) none) :: _ => q == p
      | _ => false
  | _ => false

theorem silent_tellPublish {h : TimerHandler} (cb : Callback) (ok : Bool) (topic : Bytes) (qos : UInt8) (q : UInt16)
    (silent : s.Silent h) : (s.tellPublish cb ok topic qos q).Silent h := by
  unfold tellPublish
  split
  · exact silent_apply (s := s.record _) (e := .push .user) rfl nofun nofun (silent.of_same rfl rfl rfl)
  · exact silent

theorem silent_armPublishRetryTimer {h : TimerHandler} {q : UInt16} (other : h ≠ .publishRetry q)
    (silent : s.Silent h) : (s.armPublishRetryTimer q).Silent h := by
  unfold armPublishRetryTimer
  split
  · exact silent
  · exact silent_await (s := s.cancelTimer _) other.symm (silent_cancelTimer _ silent)

theorem silent_sendPublishEntry {h : TimerHandler} {q : UInt16} (other : h ≠ .publishRetry q)
    (silent : s.Silent h) : (s.sendPublishEntry q).Silent h := by
  unfold sendPublishEntry
  split
  · exact silent
  · exact silent_apply (e := .write _ _) rfl nofun nofun (silent_armPublishRetryTimer other silent)

theorem silent_cancelPublishRetryTimer {h : TimerHandler} (q : UInt16) (silent : s.Silent h) :
    (s.cancelPublishRetryTimer q).Silent h := by
  unfold cancelPublishRetryTimer
  split
  · exact silent
  · exact silent_cancelTimer _ silent

theorem silent_cancelTimers {h : TimerHandler} (timers : List Nat) (silent : s.Silent h) :
    (s.cancelTimers timers).Silent h := by
  induction timers generalizing s with
  | nil => exact silent
  | cons timer timers ih => exact ih (silent_cancelTimer timer silent)

theorem silent_asyncPublishImpl (topic payload : Bytes) (qos : UInt8) (cb : Callback)
    (fresh : ¬ HandsPublish p s (s.asyncPublishImpl topic payload qos cb)) (silent : s.Silent (.publishRetry p)) :
    (s.asyncPublishImpl topic payload qos cb).Silent (.publishRetry p) := by
  rw [hands_asyncPublishImpl] at fresh
  unfold asyncPublishImpl
  split
  · exact silent_tellPublish _ _ _ _ _ silent
  split
  · exact silent_tellPublish _ _ _ _ _ silent
  split
  · exact silent_tellPublish _ _ _ _ _ silent
  split
  · exact silent_apply (s := s.record _) (e := .write _ _) rfl nofun nofun (silent.of_same rfl rfl rfl)
  have acquired : s.acquirePacketId.1.Silent (.publishRetry p) := silent.of_same rfl rfl rfl
  dsimp only
  split
  · refine silent_apply (s := s.acquirePacketId.1.push [.reportPublish cb topic qos]) (e := .push .notifyClosedOnce)
      rfl nofun nofun ?_
    exact silent_apply (e := .push (.reportPublish cb topic qos)) rfl nofun nofun acquired
  split
  · exact silent_tellPublish _ _ _ _ _ acquired
  · rename_i low closed other positive none full
    refine silent_sendPublishEntry ?_ (acquired.of_same rfl rfl rfl)
    rintro ⟨⟩
    exact fresh ⟨qos_acknowledged low positive, by simpa using closed, by simpa using other, none, rfl,
      Nat.not_le.mp full⟩

theorem silent_onPublishRetry {h : TimerHandler} {q : UInt16} (other : h ≠ .publishRetry q) (silent : s.Silent h) :
    (s.onPublishRetry q).Silent h := by
  unfold onPublishRetry
  split
  · exact silent
  · split
    · exact silent_apply (e := .push (.finishPublishFailure q)) rfl nofun nofun silent
    · exact silent_sendPublishEntry other (silent.of_same rfl rfl rfl)

theorem silent_finishPublishFailure {h : TimerHandler} (q : UInt16) (silent : s.Silent h) :
    (s.finishPublishFailure q).Silent h := by
  unfold finishPublishFailure
  split
  · exact silent_apply (e := .push .notifyClosedOnce) rfl nofun nofun silent
  · refine silent_tellPublish _ _ _ _ _ (silent_apply (e := .push .notifyClosedOnce) rfl nofun nofun ?_)
    exact (silent_cancelPublishRetryTimer q silent).of_same rfl rfl rfl

theorem silent_finishPublishSuccess {h : TimerHandler} (q : UInt16) (silent : s.Silent h) :
    (s.finishPublishSuccess q).Silent h := by
  unfold finishPublishSuccess
  split
  · exact silent
  · exact silent_tellPublish _ _ _ _ _ ((silent_cancelPublishRetryTimer q silent).of_same rfl rfl rfl)

theorem silent_publishEach {h : TimerHandler} (q : UInt16) (silent : s.Silent h) : (s.publishEach q).Silent h := by
  unfold publishEach
  split
  · exact silent.of_same rfl rfl rfl
  · exact silent_tellPublish _ _ _ _ _ (silent_apply (e := .push (.publishCancel q)) rfl nofun nofun silent)

theorem silent_publishClear {h : TimerHandler} (silent : s.Silent h) : s.publishClear.Silent h := by
  unfold publishClear
  dsimp only
  have cleared := silent_cancelTimers (((s.cancelTimers
    (s.pendingPublishes.entries.map fun e => e.2.timer)).pendingPubrecs.entries.map fun e => e.2.timer))
    (silent_cancelTimers (s.pendingPublishes.entries.map fun e => e.2.timer) silent)
  split
  · exact silent_apply (e := .push (.subscribeEach _)) rfl nofun nofun (cleared.of_same rfl rfl rfl)
  · exact silent_apply (e := .push .subscribeClear) rfl nofun nofun (cleared.of_same rfl rfl rfl)

/-- The retry stays silent until a PUBLISH write completes or a new publish is accepted. -/
theorem silent_retry {a : Action} (held : s.Held) (taken : s.step a = some t) (unarmed : s.rearms p a = false)
    (fresh : s.reissues p a = false) (silent : s.Silent (.publishRetry p)) : t.Silent (.publishRetry p) := by
  have unsent : s.resends p a = false := by
    by_contra sends
    obtain ⟨-, rest, entry, front, -⟩ := resends_front (Bool.not_eq_false _ ▸ sends)
    exact silent.running (by simp [Net.running, front, StackEntry.own?])
  have unhanded : ¬ HandsPublish p s t := fun hands =>
    (hands_of_step held taken hands).elim (by simp [unsent]) (by simp [fresh])
  have going : ∀ {entry rest}, s.net.stack = entry :: rest → (s.goesOn rest).Silent (.publishRetry p) := fun front =>
    silent_goesOn front silent
  cases publishing_outline taken with
  | bare a t bare => exact silent_bare bare silent
  | asyncPublish topic payload qos callable => exact silent_post (by simp) (silent.of_same rfl rfl rfl)
  | impl topic payload qos cb rest front =>
    exact silent_asyncPublishImpl (s := s.goesOn rest) topic payload qos cb unhanded (going front)
  | retry q rest front =>
    refine silent_onPublishRetry ?_ (going front)
    rintro ⟨⟩
    exact silent.running (by simp [Net.running, front, StackEntry.own?])
  | failure q rest front => exact silent_finishPublishFailure q (going front)
  | report cb topic qos rest front => exact silent_tellPublish _ _ _ _ _ (going front)
  | each q rest front => exact silent_publishEach q (going front)
  | clear rest front => exact silent_publishClear (going front)
  | written0 serial cb topic ec rest front =>
    exact silent_tellPublish _ _ _ _ _ (silent_popped (popped_recordCall front) silent)
  | written serial q rest front =>
    refine silent_armPublishRetryTimer ?_ (silent_popped (popped_recordCall front) silent)
    rintro ⟨⟩
    simp [rearms, front] at unarmed
  | acked a u v q popped does deed =>
    exact silent_finishPublishSuccess q (silent_does .publish rfl (by decide) does (silent_popped popped silent))
  | other a u t popped does => exact silent_does .publish rfl (by decide) does (silent_popped popped silent)

/-- A step that handles an acknowledgement. No posted code is on the stack then. -/
theorem deed_handles {a : Action} (taken : s.step a = some t) (old : s.deed a ≠ .connect)
    (acknowledges : s.deed a ≠ .other) :
    ∃ u data, (s.deed a).Handles u data t ∧ s.Popped u ∧ (s.Posting → u.Clear) := by
  cases a with
  | exec =>
    unfold deed at acknowledges ⊢
    dsimp only at acknowledges ⊢
    split at acknowledges
    · rename_i attempt data rest front
      have handled := packetDeed_handles (s.goesOn rest) attempt acknowledges
      exact ⟨s.goesOn rest, data, exec_work front taken ▸ handled, popped_goesOn front,
        fun posting => posting.clear front⟩
    · contradiction
  | call c =>
    cases (steps taken).2 with
    | call c allowed =>
      have idle : c.anyThread = false → s.Posting → s.Clear := fun own posting =>
        posting.idle (by simpa [own] using allowed)
      cases c with
      | handlePacket data => exact ⟨s, data, packetDeed_handles s s.attempts acknowledges, popped_refl s, idle rfl⟩
      | handlePuback data => exact ⟨s, data, ⟨rfl, rfl⟩, popped_refl s, idle rfl⟩
      | handlePubrec data => exact ⟨s, data, ⟨rfl, rfl⟩, popped_refl s, idle rfl⟩
      | handlePubcomp data => exact ⟨s, data, ⟨rfl, rfl⟩, popped_refl s, idle rfl⟩
      | asyncConnect => exact absurd rfl old
      | _ => exact absurd rfl acknowledges
  | _ => exact absurd rfl acknowledges

/-- A step that handles a PUBREC, on a stack without posted code. -/
theorem pubrec_outline {a : Action} (posting : s.Posting) (taken : s.step a = some t)
    (handles : s.deed a = .pubrec p) :
    ∃ u data, t = u.handlePubrec data ∧ parseId data = p ∧ s.Popped u ∧ u.Clear := by
  obtain ⟨u, data, handled, popped, clear⟩ := deed_handles taken (by simp [handles]) (by simp [handles])
  rw [handles] at handled
  exact ⟨u, data, handled.2, handled.1, popped, clear posting⟩

/-- The retry timer's wait has expired and is queued. -/
def Requeued (p : UInt16) (s : Sys) : Prop := .timer (.publishRetry p) none ∈ s.net.posted

/-- The PUBREC silences the retry, unless it has already expired. -/
theorem silent_pubrec {a : Action} (posting : s.Posting) (retrying : s.Retrying) (taken : s.step a = some t)
    (handles : s.deed a = .pubrec p) (pending : s.pendingPublishes.contains p = true) (fresh : ¬ Requeued p s) :
    t.Silent (.publishRetry p) := by
  obtain ⟨u, data, rfl, rfl, popped, clear⟩ := pubrec_outline posting taken handles
  obtain ⟨entry, held⟩ := Option.isSome_iff_exists.mp pending
  have found : u.pendingPublishes.find? (parseId data) = some entry := by
    rw [popped.same]
    exact held
  let w := u.record (.received .pubrec (parseId data) [])
  have silent : (w.cancelPublishRetryTimer (parseId data)).Silent (.publishRetry (parseId data)) := by
    have same : w.pendingPublishes.find? (parseId data) = some entry := found
    simp only [cancelPublishRetryTimer, same]
    refine ⟨fun x among waiting => ?_, fun among => ?_, fun among => absurd (clear _ among) nofun⟩
    · obtain ⟨before, other⟩ := List.mem_filter.mp among
      obtain ⟨old, stored, timer⟩ := retrying_popped popped retrying x before _ waiting
      obtain rfl := Option.some.inj (found.symm.trans stored)
      simp [timer] at other
    · rw [cancelTimer_posted] at among
      rcases List.mem_append.mp among with before | aborted
      · exact fresh (by rw [Requeued]; change _ ∈ u.net.posted at before; rw [popped.same] at before; exact before)
      · obtain ⟨x, -, same⟩ := List.mem_map.mp aborted
        exact absurd (Work.timer.inj same).2 nofun
  unfold handlePubrec
  dsimp only
  change Silent _ (if u.pendingPublishes.contains (parseId data) = true then _ else _)
  rw [if_pos (by simp [OrderedMap.contains, found])]
  have does : Does [] (w.cancelPublishRetryTimer (parseId data)) _ :=
    (does_insertPubrec _ (parseId data)).trans (does_sendPubrel _ (parseId data))
  exact silent_does .publish rfl List.not_mem_nil does silent

/-- The exchange under `p` goes on: the session is open and the step handles no PUBCOMP for it. -/
structure Ongoing (p : UInt16) (s : Sys) (a : Action) : Prop where
  session : s.closed = false ∧ s.deed a ≠ .connect
  exchange : s.deed a ≠ .pubcomp p

/-- The run handles a PUBREC for the pending QoS 2 publish `p` in the step from `s` to `t` and, its
exchange going on, comes over `between` to the step from `u` to `v`. -/
structure Releasing (p : UInt16) (actions : List Action) (s t : Sys) (between : List Action) (u : Sys)
    (b : Action) (v : Sys) : Prop where
  run : ∃ before a rest, actions = before ++ a :: (between ++ b :: rest) ∧
    Runs.exec step {} before = some s ∧ s.step a = some t ∧ s.deed a = .pubrec p ∧
    Runs.exec step t between = some u ∧ u.step b = some v
  ongoing : Runs.Along step (Ongoing p) t (between ++ [b])
  pending : ∃ entry ∈ s.pendingPublishes.find? p, entry.qos = 2

/-- A PUBLISH write of `p` has completed since. -/
def Rewritten (p : UInt16) (t : Sys) (between : List Action) : Prop :=
  ∃ before a after m, between = before ++ a :: after ∧ Runs.exec step t before = some m ∧ m.rearms p a = true

theorem Releasing.earlier {actions between before after : List Action} {a b : Action} {m n : Sys}
    (h : Releasing p actions s t between u b v) (split : between = before ++ a :: after)
    (reached : Runs.exec step t before = some m) (taken : m.step a = some n) :
    Releasing p actions s t before m a n := by
  obtain ⟨⟨first, c, rest, rfl, start, handled, handles, -, -⟩, ongoing, pending⟩ := h
  subst split
  refine ⟨⟨first, c, after ++ b :: rest, by simp, start, handled, handles, reached, taken⟩, ?_, pending⟩
  have whole : Runs.Along step (Ongoing p) t ((before ++ [a]) ++ (after ++ [b])) := by simpa using ongoing
  exact Runs.along_append_left whole

theorem held_start : Held {} := nofun

theorem Releasing.held {actions between : List Action} {b : Action} (h : Releasing p actions s t between u b v) :
    u.Held := by
  obtain ⟨⟨first, c, rest, -, start, handled, -, later, -⟩, -, -⟩ := h
  have before : s.Held :=
    (Runs.exec_reaches start (Runs.along_any first)).invariant held_start fun _ _ _ h _ => held_step h
  exact (Runs.exec_reaches later (Runs.along_any between)).invariant (held_step before handled)
    fun _ _ _ h _ => held_step h

/-- A retry that is left after a PUBREC had expired by then, or was armed by a later PUBLISH. -/
theorem Releasing.cause {actions between : List Action} {b : Action} (h : Releasing p actions s t between u b v)
    (sends : u.resends p b = true) : Requeued p s ∨ Rewritten p t between ∨
      ∃ before a after m n, between = before ++ a :: after ∧ Runs.exec step t before = some m ∧
        m.step a = some n ∧ m.reissues p a = true := by
  obtain ⟨⟨first, c, rest, -, start, handled, handles, later, taken⟩, -, entry, pending, -⟩ := h
  by_contra none
  obtain ⟨fresh, unwritten, unissued⟩ : ¬ _ ∧ ¬ _ ∧ ¬ _ := by simpa only [not_or] using none
  have reach := Runs.exec_reaches start (Runs.along_any first)
  have posting : s.Posting := reach.invariant
    ⟨fun _ among => absurd among List.not_mem_nil, fun _ among => absurd among List.not_mem_nil⟩
    fun _ _ _ h _ => posting_step h
  have retrying : s.Retrying := reach.invariant (fun _ among => absurd among List.not_mem_nil)
    fun _ _ _ h _ => retrying_step h
  have held : s.Held := reach.invariant held_start fun _ _ _ h _ => held_step h
  have silent := silent_pubrec posting retrying handled handles (Option.isSome_iff_exists.mpr ⟨entry, pending⟩) fresh
  have along : Runs.Along step (fun m a => m.rearms p a = false ∧ m.reissues p a = false) t between := by
    refine (Runs.along_or_breaks _ later).resolve_right ?_
    rintro ⟨before, a, after, m, n, split, reached, moved, refused⟩
    refine refused ⟨?_, ?_⟩
    · by_contra written
      exact unwritten ⟨before, a, after, m, split, reached, by simpa using written⟩
    · by_contra issued
      exact unissued ⟨before, a, after, m, n, split, reached, moved, by simpa using issued⟩
  have still := (Runs.exec_reaches later along).invariant (I := fun m => m.Held ∧ m.Silent (.publishRetry p))
    ⟨held_step held handled, silent⟩
    fun _ _ _ h quiet moved => ⟨held_step h.1 moved, silent_retry h.1 moved quiet.1 quiet.2 h.2⟩
  obtain ⟨-, tail, old, front, -⟩ := resends_front sends
  exact still.2.running (by simp [Net.running, front, StackEntry.own?])

/-- In every run: no PUBLISH follows the PUBREC of a pending QoS 2 publish exactly if no expiry of its
retry timer that was queued by then, or that comes after a PUBLISH write of it has completed, is
handled with an attempt left, and its packet id is not given to a new publish. -/
theorem no_publish_after_pubrec (actions : List Action) :
    (∀ p s t between u b v, Releasing p actions s t between u b v → ¬ HandsPublish p u v) ↔
      ∀ p s t between u b v, Releasing p actions s t between u b v →
        (Requeued p s ∨ Rewritten p t between → u.resends p b = false) ∧ u.reissues p b = false := by
  constructor
  · intro mute p s t between u b v h
    have taken : u.step b = some v := by
      obtain ⟨⟨_, _, _, -, -, -, -, -, taken⟩, -, -⟩ := h
      exact taken
    constructor
    · intro _
      by_contra sends
      exact mute _ _ _ _ _ _ _ h (hands_of_resends h.held taken (by simpa using sends))
    · by_contra sends
      exact mute _ _ _ _ _ _ _ h (hands_of_reissues taken (by simpa using sends))
  · intro guarded p s t between u b v h hands
    have taken : u.step b = some v := by
      obtain ⟨⟨_, _, _, -, -, -, -, -, taken⟩, -, -⟩ := h
      exact taken
    obtain ⟨unsent, unissued⟩ := guarded _ _ _ _ _ _ _ h
    rcases hands_of_step h.held taken hands with sends | issues
    · rcases h.cause sends with queued | written | ⟨before, a, after, m, n, split, reached, moved, issued⟩
      · exact absurd (sends.symm.trans (unsent (.inl queued))) nofun
      · exact absurd (sends.symm.trans (unsent (.inr written))) nofun
      · exact absurd (issued.symm.trans (guarded _ _ _ _ _ _ _ (h.earlier split reached moved)).2) nofun
    · exact absurd (issues.symm.trans unissued) nofun

instance (p : UInt16) (s : Sys) (a : Action) : Decidable (Ongoing p s a) :=
  decidable_of_iff ((s.closed = false ∧ s.deed a ≠ .connect) ∧ s.deed a ≠ .pubcomp p)
    ⟨fun h => ⟨h.1, h.2⟩, fun h => ⟨h.session, h.exchange⟩⟩

/-- The PUBREC is read before the completion of the PUBLISH write is handled. -/
def pubrecFirst : List Action :=
  opened ++ [.call (.asyncPublish [0x74] [] 2 true), .run, .exec, .run, .kernel (.send 1 7),
    .kernel (.read 0 (.ok [0x50, 2])), .run, .kernel (.read 1 (.ok [0, 2])), .run, .kernel (.write 0 none), .run, .exec]

/-- The write's completion, and five seconds later the timer it has armed. -/
def rearmed : List Action :=
  [.exec, .run, .exec, .exec, .advance 5000, .expire 2, .run, .exec, .run, .run]

/-- The PUBLISH is sent again between PUBREC and PUBCOMP. -/
theorem publish_after_pubrec :
    ¬ ∀ actions p s t between u b v, Releasing p actions s t between u b v → ¬ HandsPublish p u v := by
  intro claimed
  have run : (Runs.exec step ({} : Sys) pubrecFirst).map (fun s =>
      ((s.pendingPublishes.find? 2).any fun entry => entry.qos == 2) && s.deed .exec == .pubrec 2 &&
      (s.step .exec).any fun t => decide (Runs.Along step (Ongoing 2) t (rearmed ++ [.exec])) &&
        (Runs.exec step t rearmed).any fun u => u.resends 2 .exec && (u.step .exec).isSome) = some true := by
    decide +kernel
  obtain ⟨s, start, run⟩ := Runs.exec_of_check run
  simp only [Bool.and_eq_true, Option.any_eq_true, beq_iff_eq, decide_eq_true_eq] at run
  obtain ⟨⟨⟨entry, pending, qos⟩, handles⟩, t, handled, ongoing, u, later, sends, last⟩ := run
  obtain ⟨v, taken⟩ := Option.isSome_iff_exists.mp last
  have releasing : Releasing 2 (pubrecFirst ++ .exec :: (rearmed ++ .exec :: [])) s t rearmed u .exec v :=
    ⟨⟨pubrecFirst, .exec, [], rfl, start, handled, handles, later, taken⟩, ongoing, entry, pending, qos⟩
  exact claimed _ _ _ _ _ _ _ _ releasing (hands_of_resends releasing.held taken sends)

end Sys
end LiteMqtt
