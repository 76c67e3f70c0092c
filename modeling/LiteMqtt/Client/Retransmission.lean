import LiteMqtt.Client.Identifiers
import LiteMqtt.Client.Publishing

/-!
# Retransmissions of a publish

The PUBLISH frames handed to the connection under one packet id, from one acceptance to the next.
The entry in `pending_publishes_` counts them, and `arm_publish_retry_timer`'s handler stops at
three.
-/

namespace LiteMqtt

/-- A publish is taken on, or a PUBLISH is handed to the connection. -/
def Event.isSending : Event → Bool
  | .accepted .. => true
  | .handed (.publish _) => true
  | _ => false

/-- The QoS of the publish last accepted under `p`. -/
def acceptedQos (p : UInt16) : List Event → Option UInt8
  | [] => none
  | .accepted q qos _ :: rest => if q = p then some qos else acceptedQos p rest
  | _ :: rest => acceptedQos p rest

/-- The PUBLISH frames handed under `p` since a publish was last accepted under it, the first
one first. -/
def sendings (p : UInt16) : List Event → List PublishPacket
  | [] => []
  | .accepted q _ _ :: rest => if q = p then [] else sendings p rest
  | .handed (.publish pkt) :: rest => if pkt.packetId = p then sendings p rest ++ [pkt] else sendings p rest
  | _ :: rest => sendings p rest

/-- A publish sent `n` times: first without DUP, and then with it. -/
def copies (p : UInt16) (topic payload : Bytes) (qos : UInt8) (n : Nat) : List PublishPacket :=
  (List.range n).map fun i => { packetId := p, qos, dup := decide (0 < i), topicName := topic, payload }

theorem copies_succ (p : UInt16) (topic payload : Bytes) (qos : UInt8) (n : Nat) : copies p topic payload qos (n + 1) =
    copies p topic payload qos n ++ [{ packetId := p, qos, dup := decide (0 < n), topicName := topic, payload }] := by
  simp [copies, List.range_succ]

/-- The PUBLISH that `send_publish_entry` builds of an entry. -/
def PendingPublish.frame (entry : PendingPublish) (p : UInt16) (dup : Bool) : PublishPacket :=
  { packetId := p, qos := entry.qos, dup, topicName := entry.topic, payload := entry.payload }

theorem sendings_append {p : UInt16} {news : List Event} (quiet : ∀ e ∈ news, e.isSending = false)
    (log : List Event) : sendings p (news ++ log) = sendings p log ∧
      acceptedQos p (news ++ log) = acceptedQos p log := by
  induction news with
  | nil => exact ⟨rfl, rfl⟩
  | cons e news ih =>
    obtain ⟨first, rest⟩ := List.forall_mem_cons.mp quiet
    obtain ⟨same, same'⟩ := ih rest
    cases e with
    | accepted => contradiction
    | handed packet => cases packet <;> first | contradiction | exact ⟨same, same'⟩
    | _ => exact ⟨same, same'⟩

namespace Sys

variable {s t u : Sys} {p : UInt16}

/-- Nothing is accepted or sent, and the pending publishes at most lose entries. -/
structure Hushed (s t : Sys) : Prop where
  log : ∃ news, t.log = news ++ s.log ∧ ∀ e ∈ news, e.isSending = false
  publishes : ∀ p entry, t.pendingPublishes.find? p = some entry → s.pendingPublishes.find? p = some entry

theorem Hushed.of_same (log : t.log = s.log) (publishes : t.pendingPublishes = s.pendingPublishes) : Hushed s t :=
  ⟨⟨[], log, nofun⟩, fun _ _ => publishes ▸ id⟩

theorem Hushed.trans (h : Hushed s t) (g : Hushed t u) : Hushed s u := by
  obtain ⟨⟨first, log, quiet⟩, publishes⟩ := h
  obtain ⟨⟨later, log', quiet'⟩, publishes'⟩ := g
  refine ⟨⟨later ++ first, by rw [log', log, List.append_assoc], fun e among => ?_⟩,
    fun p entry found => publishes p entry (publishes' p entry found)⟩
  exact (List.mem_append.mp among).elim (quiet' e) (quiet e)

theorem hushed_of_calm (calm : Calm s t) : Hushed s t := by
  obtain ⟨news, log, quiet⟩ := calm.log
  refine ⟨⟨news, log, fun e among => ?_⟩, calm.publishes⟩
  have still := quiet e among
  cases e with
  | accepted => contradiction
  | handed packet => cases packet <;> first | contradiction | rfl
  | _ => rfl

theorem hushed_record {e : Event} (quiet : e.isSending = false) : Hushed s (s.record e) :=
  ⟨⟨[e], rfl, fun _ among => List.mem_singleton.mp among ▸ quiet⟩, fun _ _ => id⟩

theorem hushed_tellPublish (s : Sys) (cb : Callback) (ok : Bool) (topic : Bytes) (qos : UInt8) (p : UInt16) :
    Hushed s (s.tellPublish cb ok topic qos p) := by
  unfold tellPublish
  split
  · exact (hushed_record rfl).trans (.of_same rfl rfl)
  · exact .of_same rfl rfl

theorem hushed_finishPublishSuccess (s : Sys) (p : UInt16) : Hushed s (s.finishPublishSuccess p) := by
  unfold finishPublishSuccess
  split
  · exact .of_same rfl rfl
  · refine (hushed_of_calm (calm_cancelPublishRetryTimer s p)).trans ?_
    exact (hushed_of_calm (calm_erasePublish _ p)).trans (hushed_tellPublish _ _ _ _ _ _)

/-- Code that is not about publishes. -/
theorem hushed_apply {e : Effect} (inside : e.within apart = true) : Hushed s (s.apply e) := by
  have other : e.topic ≠ some .publish := Effect.topic_of_within inside (by decide)
  cases e with
  | record x =>
    refine hushed_record ?_
    cases x with
    | accepted => exact absurd rfl other
    | handed packet => cases packet <;> first | rfl | exact absurd rfl other
    | _ => rfl
  | write packet handler =>
    have quiet : (Event.handed packet).isSending = false := by
      cases packet <;> first | rfl | exact absurd rfl other
    exact .trans (t := { s with net := s.net.asyncWritePacket packet.serialize (some handler) }) (.of_same rfl rfl)
      (hushed_record quiet)
  | closeConnection => exact hushed_of_calm (calm_closeConnection s)
  | asyncConnect callback =>
    have connects := asyncConnect_connects s callback
    exact ⟨⟨[.connectCalled], connects.log, fun e among => List.mem_singleton.mp among ▸ rfl⟩,
      fun _ _ => connects.publishes ▸ id⟩
  | setPublishes entries => exact absurd rfl other
  | _ => exact .of_same rfl rfl

theorem hushed_does (does : Does apart s t) : Hushed s t := by
  induction does with
  | refl => exact .of_same rfl rfl
  | tail _ last ih =>
    obtain ⟨e, inside, rfl⟩ := last
    exact ih.trans (hushed_apply inside)

/-! ### The two steps that send a publish -/

/-- A publish is sent at QoS 0, or is sent and stored with its first attempt. -/
inductive Accepts (s t : Sys) : Prop where
  | atMostOnce (callback : Callback) (topic payload : Bytes)
      (log : t.log = .handed (.publish { topicName := topic, payload }) :: .accepted 0 0 callback :: s.log)
      (publishes : t.pendingPublishes = s.pendingPublishes)
  | stored (p : UInt16) (entry : PendingPublish) (positive : p ≠ 0) (first : entry.attempts = 1)
      (log : t.log = .handed (.publish (entry.frame p false)) :: .accepted p entry.qos entry.callback :: s.log)
      (publishes : t.pendingPublishes = s.pendingPublishes.insert p entry)

/-- The entry is sent once more, with DUP. -/
structure Repeats (p : UInt16) (entry : PendingPublish) (s t : Sys) : Prop where
  held : s.pendingPublishes.find? p = some entry
  fewer : entry.attempts < 3
  log : t.log = .handed (.publish (entry.frame p (decide (entry.attempts + 1 > 1)))) :: s.log
  publishes : t.pendingPublishes = s.pendingPublishes.insert p { entry with attempts := entry.attempts + 1 }

theorem sendPublishEntry_sent {entry : PendingPublish} (held : s.pendingPublishes.find? p = some entry) :
    (s.sendPublishEntry p).log = .handed (.publish (entry.frame p (decide (entry.attempts > 1)))) :: s.log ∧
      (s.sendPublishEntry p).pendingPublishes = s.pendingPublishes := by
  obtain ⟨log, publishes, -⟩ := armPublishRetryTimer_same s p
  unfold sendPublishEntry
  rw [held]
  exact ⟨congrArg _ log, publishes⟩

theorem asyncPublishImpl_sends (s : Sys) (topic payload : Bytes) (qos : UInt8) (cb : Callback) :
    Hushed s (s.asyncPublishImpl topic payload qos cb) ∨ Accepts s (s.asyncPublishImpl topic payload qos cb) := by
  obtain ⟨next, p, same, -⟩ := acquirePacketId_cases s
  have told := hushed_tellPublish s cb false topic qos 0
  unfold asyncPublishImpl
  rw [same]
  split
  · exact .inl told
  split
  · exact .inl told
  split
  · exact .inl told
  split
  · exact .inr (.atMostOnce cb topic payload rfl rfl)
  dsimp only
  split
  · exact .inl (.of_same rfl rfl)
  split
  · exact .inl (.trans (t := { s with nextPacketId := next }) (.of_same rfl rfl) (hushed_tellPublish _ _ _ _ _ _))
  · rename_i positive _
    let entry : PendingPublish := { topic, qos, payload, callback := cb, timer := s.nextTimer, attempts := 1 }
    let v : Sys := { s with nextPacketId := next }
    have stored : (v.insertPublish p topic payload qos cb).pendingPublishes.find? p = some entry := by
      change (s.pendingPublishes.insert p entry).find? p = _
      simp [OrderedMap.find?_insert]
    obtain ⟨log, publishes⟩ := sendPublishEntry_sent stored
    exact .inr (.stored p entry positive rfl log publishes)

theorem onPublishRetry_sends (s : Sys) (p : UInt16) :
    Hushed s (s.onPublishRetry p) ∨ ∃ entry, Repeats p entry s (s.onPublishRetry p) := by
  unfold onPublishRetry
  split
  · exact .inl (.of_same rfl rfl)
  · rename_i entry held
    split
    · exact .inl (.of_same rfl rfl)
    · rename_i fewer
      let again : PendingPublish := { entry with attempts := entry.attempts + 1 }
      have stored : (s.pendingPublishes.insert p again).find? p = some again := by simp [OrderedMap.find?_insert]
      obtain ⟨log, publishes⟩ := sendPublishEntry_sent
        (s := { s with pendingPublishes := s.pendingPublishes.insert p again }) stored
      exact .inr ⟨entry, held, not_le.mp fewer, log, publishes⟩

/-- What a step does to the publishes in flight. -/
theorem step_sends {a : Action} (taken : s.step a = some t) :
    Hushed s t ∨ Accepts s t ∨ ∃ p entry, Repeats p entry s t := by
  have going : ∀ {rest : List (StackEntry Handler Work)} {v : Sys}, Hushed (s.goesOn rest) v → Hushed s v :=
    fun h => ⟨h.log, h.publishes⟩
  have popping : ∀ {u : Sys}, s.Popped u → Hushed s u := fun popped =>
    .of_same (by rw [popped.same]) (by rw [popped.same])
  cases publishing_outline taken with
  | bare a t bare =>
    exact .inl (by cases bare <;> exact .of_same rfl rfl)
  | asyncPublish topic payload qos callable =>
    refine .inl (.trans (t := { s with nextCallback := s.nextCallback + 1 }) (.of_same rfl rfl) ?_)
    exact (hushed_record (e := .publishCalled { id := s.nextCallback, callable }) rfl).trans (.of_same rfl rfl)
  | impl topic payload qos cb rest front =>
    rcases asyncPublishImpl_sends (s.goesOn rest) topic payload qos cb with hushed | accepts
    · exact .inl (going hushed)
    · refine .inr (.inl ?_)
      cases accepts with
      | atMostOnce cb topic payload log publishes => exact .atMostOnce cb topic payload log publishes
      | stored p entry positive first log publishes => exact .stored p entry positive first log publishes
  | retry p rest front =>
    rcases onPublishRetry_sends (s.goesOn rest) p with hushed | ⟨entry, repeats⟩
    · exact .inl (going hushed)
    · exact .inr (.inr ⟨p, entry, repeats.held, repeats.fewer, repeats.log, repeats.publishes⟩)
  | failure p rest front => exact .inl (going (hushed_of_calm (calm_finishPublishFailure _ p)))
  | report cb topic qos rest front => exact .inl (going (hushed_tellPublish _ _ _ _ _ _))
  | each p rest front => exact .inl (going (hushed_of_calm (calm_publishEach _ p)))
  | clear rest front => exact .inl (going (hushed_of_calm (calm_publishClear _)))
  | written0 serial cb topic ec rest front =>
    exact .inl ((popping (popped_recordCall front)).trans (hushed_tellPublish _ _ _ _ _ _))
  | written serial p rest front =>
    exact .inl ((popping (popped_recordCall front)).trans (hushed_of_calm (calm_armPublishRetryTimer _ p)))
  | acked a u v p popped does deed =>
    exact .inl ((popping popped).trans ((hushed_does does).trans (hushed_finishPublishSuccess _ p)))
  | other a u t popped does => exact .inl ((popping popped).trans (hushed_does does))

/-! ### What the history says of each packet id -/

/-- The frames of the publish last accepted under `p`: at most three, of the same topic and
payload, at the QoS it was accepted with, and only the first of them without DUP. -/
def SentUnder (p : UInt16) (log : List Event) : Prop :=
  match acceptedQos p log with
  | none => sendings p log = []
  | some qos => ∃ topic payload n, n ≤ 3 ∧ sendings p log = copies p topic payload qos n

/-- A pending publish counts the frames that were sent of it. -/
def Counted (s : Sys) (p : UInt16) : Prop := ∀ entry, s.pendingPublishes.find? p = some entry →
  p ≠ 0 ∧ 1 ≤ entry.attempts ∧ acceptedQos p s.log = some entry.qos ∧
    sendings p s.log = copies p entry.topic entry.payload entry.qos entry.attempts

def Retransmits (s : Sys) : Prop := ∀ p, SentUnder p s.log

structure Traced (s : Sys) : Prop where
  sent : s.Retransmits
  counted : ∀ p, s.Counted p

/-- For a packet id nothing has changed in the history. -/
def SameHistory (p : UInt16) (s t : Sys) : Prop :=
  sendings p t.log = sendings p s.log ∧ acceptedQos p t.log = acceptedQos p s.log

theorem sent_same (same : SameHistory p s t) (sent : SentUnder p s.log) : SentUnder p t.log := by
  unfold SentUnder
  rw [same.1, same.2]
  exact sent

theorem counted_same (same : SameHistory p s t) {entry : PendingPublish} (counted : s.Counted p)
    (held : s.pendingPublishes.find? p = some entry) : p ≠ 0 ∧ 1 ≤ entry.attempts ∧
      acceptedQos p t.log = some entry.qos ∧
      sendings p t.log = copies p entry.topic entry.payload entry.qos entry.attempts := by
  rw [same.1, same.2]
  exact counted entry held

theorem traced_hushed (hushed : Hushed s t) (traced : s.Traced) : t.Traced := by
  obtain ⟨news, log, quiet⟩ := hushed.log
  have same : ∀ p, SameHistory p s t := fun p => by
    unfold SameHistory
    rw [log]
    exact sendings_append quiet s.log
  exact ⟨fun p => sent_same (same p) (traced.sent p),
    fun p entry held => counted_same (same p) (traced.counted p) (hushed.publishes p entry held)⟩

theorem traced_atMostOnce {cb : Callback} {topic payload : Bytes}
    (log : t.log = .handed (.publish { topicName := topic, payload }) :: .accepted 0 0 cb :: s.log)
    (publishes : t.pendingPublishes = s.pendingPublishes) (traced : s.Traced) : t.Traced := by
  have others : ∀ p, p ≠ 0 → SameHistory p s t := by
    intro p positive
    unfold SameHistory
    rw [log]
    simp [sendings, acceptedQos, positive.symm]
  refine ⟨fun p => ?_, fun p entry held => ?_⟩
  · by_cases zero : p = 0
    · subst zero
      rw [log]
      exact ⟨topic, payload, 1, by omega, by simp [sendings, copies]⟩
    · exact sent_same (others p zero) (traced.sent p)
  · rw [publishes] at held
    exact counted_same (others p (traced.counted p entry held).1) (traced.counted p) held

theorem traced_stored {entry : PendingPublish} (positive : p ≠ 0) (first : entry.attempts = 1)
    (log : t.log = .handed (.publish (entry.frame p false)) :: .accepted p entry.qos entry.callback :: s.log)
    (publishes : t.pendingPublishes = s.pendingPublishes.insert p entry) (traced : s.Traced) : t.Traced := by
  have sent : sendings p t.log = copies p entry.topic entry.payload entry.qos 1 := by
    rw [log]
    simp [sendings, copies, PendingPublish.frame]
  have accepted : acceptedQos p t.log = some entry.qos := by
    rw [log]
    simp [acceptedQos]
  have others : ∀ q, q ≠ p → SameHistory q s t := by
    intro q other
    unfold SameHistory
    rw [log]
    simp [sendings, acceptedQos, PendingPublish.frame, other.symm]
  refine ⟨fun q => ?_, fun q old held => ?_⟩
  · by_cases same : q = p
    · unfold SentUnder
      rw [same, sent, accepted]
      exact ⟨entry.topic, entry.payload, 1, by omega, rfl⟩
    · exact sent_same (others q same) (traced.sent q)
  · rw [publishes, OrderedMap.find?_insert] at held
    split at held
    · rename_i same
      obtain rfl := Option.some.inj held
      rw [same, sent, accepted, first]
      exact ⟨positive, le_refl 1, rfl, rfl⟩
    · rename_i other
      exact counted_same (others q other) (traced.counted q) held

theorem traced_repeats {entry : PendingPublish} (repeats : Repeats p entry s t) (traced : s.Traced) : t.Traced := by
  obtain ⟨held, fewer, log, publishes⟩ := repeats
  obtain ⟨positive, started, qos, before⟩ := traced.counted p entry held
  have accepted : ∀ q, acceptedQos q t.log = acceptedQos q s.log := fun q => by rw [log]; rfl
  have others : ∀ q, q ≠ p → SameHistory q s t := by
    intro q other
    refine ⟨?_, accepted q⟩
    rw [log]
    simp [sendings, PendingPublish.frame, other.symm]
  have sent : sendings p t.log = copies p entry.topic entry.payload entry.qos (entry.attempts + 1) := by
    have later : decide (entry.attempts + 1 > 1) = decide (0 < entry.attempts) := by
      rw [decide_eq_decide]
      omega
    rw [log, copies_succ, ← before, ← later]
    simp [sendings, PendingPublish.frame]
  refine ⟨fun q => ?_, fun q old found => ?_⟩
  · by_cases same : q = p
    · unfold SentUnder
      rw [same, accepted p, qos, sent]
      exact ⟨entry.topic, entry.payload, entry.attempts + 1, by omega, rfl⟩
    · exact sent_same (others q same) (traced.sent q)
  · rw [publishes, OrderedMap.find?_insert] at found
    split at found
    · rename_i same
      obtain rfl := Option.some.inj found
      rw [same, accepted p]
      exact ⟨positive, Nat.le_add_left 1 entry.attempts, qos, sent⟩
    · rename_i other
      exact counted_same (others q other) (traced.counted q) found

theorem traced_step {a : Action} (traced : s.Traced) (taken : s.step a = some t) : t.Traced := by
  rcases step_sends taken with hushed | accepts | ⟨p, entry, repeats⟩
  · exact traced_hushed hushed traced
  · cases accepts with
    | atMostOnce cb topic payload log publishes => exact traced_atMostOnce log publishes traced
    | stored p entry positive first log publishes => exact traced_stored positive first log publishes traced
  · exact traced_repeats repeats traced

theorem traced_start : ({} : Sys).Traced := ⟨fun _ => rfl, nofun⟩

/-- In every run, at every moment, what was sent of the publish last accepted under a packet id
are at most three copies of one PUBLISH, and DUP is set in all but the first. -/
theorem publish_retransmissions (actions : List Action) : Runs.Throughout step Retransmits ({} : Sys) actions :=
  Runs.throughout_of_invariant (fun _ _ _ => traced_step) (fun _ traced => traced.sent) traced_start

end Sys
end LiteMqtt
