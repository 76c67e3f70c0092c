import LiteMqtt.Client.Retransmission
import LiteMqtt.Client.Allocation
import LiteMqtt.Client.Ending
import LiteMqtt.Connection.Bodies

/-!
# What is published and what goes on the wire

`buffer_writer` narrows the length of a topic to 16 bits and that of a frame to 32 bits, and writes
a fifth length digit where the framing reads four. Nothing before it looks at the lengths.
-/

namespace LiteMqtt
namespace Sys

/-! ### What becomes of a publish -/

/-- `async_publish_impl` does not send the publish: its QoS is invalid, the session is not up, the
window is full, or no packet id is left. -/
def Refuses (s : Sys) (qos : UInt8) : Prop := qos > 2 ∨ s.closed = true ∨ s.net.state ≠ .connected ∨
  qos ≠ 0 ∧ (s.Exhausted ∨ 1000 ≤ s.pendingPublishes.size)

/-- The failure is reported now, or once the session has ended that an exhausted id space ends. -/
def ReportsFailure (topic : Bytes) (qos : UInt8) (cb : Callback) (s t : Sys) : Prop :=
  t.log = (if cb.callable then [.published cb false topic qos 0] else []) ++ s.log ∨
    t.log = s.log ∧ t.net.running = [.notifyClosedOnce, .reportPublish cb topic qos] ++ s.net.running

/-- One PUBLISH is handed to the connection. The framing delivers it as one packet, which is
decoded to what was given, under the packet id of a new entry. -/
def SendsAsGiven (topic payload : Bytes) (qos : UInt8) (cb : Callback) (s t : Sys) : Prop :=
  ∃ pkt, t.log = .handed (.publish pkt) :: .accepted pkt.packetId qos cb :: s.log ∧ FramedWhole pkt.serialize ∧
    (PublishPacket.parse pkt.serialize).topicName = topic ∧ (PublishPacket.parse pkt.serialize).payload = payload ∧
    (PublishPacket.parse pkt.serialize).qos = qos ∧
    (qos ≠ 0 → (PublishPacket.parse pkt.serialize).packetId = pkt.packetId ∧
      s.pendingPublishes.find? pkt.packetId = none ∧ (t.pendingPublishes.find? pkt.packetId).isSome = true)

/-- The publish fails, or goes onto the wire as it was given. -/
def PublishesAsGiven (s : Sys) (topic payload : Bytes) (qos : UInt8) (cb : Callback) : Prop :=
  ReportsFailure topic qos cb s (s.asyncPublishImpl topic payload qos cb) ∨
    SendsAsGiven topic payload qos cb s (s.asyncPublishImpl topic payload qos cb)

/-- The topic's length fits in 16 bits, and the remaining length in four digits. -/
def FitsWire (topic payload : Bytes) (qos : UInt8) : Prop :=
  topic.length ≤ 65535 ∧ 2 + topic.length + (if qos = 0 then 0 else 2) + payload.length ≤ maxRemainingLength

variable {s t : Sys} {topic payload : Bytes} {qos : UInt8} {cb : Callback}

theorem told_failure (log : t.log = s.log) : ReportsFailure topic qos cb s (t.tellPublish cb false topic qos 0) :=
  .inl (by rw [tellPublish_log, log])

theorem asyncPublishImpl_refuses (refuses : s.Refuses qos) :
    ReportsFailure topic qos cb s (s.asyncPublishImpl topic payload qos cb) := by
  have zero := acquirePacketId_zero s
  obtain ⟨next, p, same, -, -⟩ := acquirePacketId_cases s
  rw [same] at zero
  unfold asyncPublishImpl
  rw [same]
  split
  · exact told_failure rfl
  split
  · exact told_failure rfl
  split
  · exact told_failure rfl
  rename_i low opened connected
  have full : qos ≠ 0 ∧ (s.Exhausted ∨ 1000 ≤ s.pendingPublishes.size) := by
    rcases refuses with high | closed | other | full
    · exact absurd high low
    · exact absurd closed opened
    · exact absurd (by simpa using connected) other
    · exact full
  rw [if_neg full.1]
  dsimp only
  split
  · exact .inr ⟨rfl, rfl⟩
  · rename_i found
    have many : s.pendingPublishes.size ≥ kMaxPendingPublishes :=
      full.2.resolve_left fun exhausted => found (zero.mpr exhausted)
    rw [if_pos many]
    exact told_failure rfl

theorem asyncPublishImpl_accepts (accepts : ¬ s.Refuses qos) : ∃ p, (qos = 0 → p = 0) ∧
    (s.asyncPublishImpl topic payload qos cb).log =
      .handed (.publish { packetId := p, qos, topicName := topic, payload }) :: .accepted p qos cb :: s.log ∧
    (qos ≠ 0 → s.pendingPublishes.find? p = none ∧
      ((s.asyncPublishImpl topic payload qos cb).pendingPublishes.find? p).isSome = true) := by
  obtain ⟨low, opened, connected, room⟩ : ¬ qos > 2 ∧ ¬ s.closed = true ∧ ¬ s.net.state ≠ .connected ∧
      ¬ (qos ≠ 0 ∧ (s.Exhausted ∨ 1000 ≤ s.pendingPublishes.size)) := by
    simpa only [Refuses, not_or] using accepts
  have zero := acquirePacketId_zero s
  obtain ⟨next, p, same, -, free⟩ := acquirePacketId_cases s
  rw [same] at zero
  unfold asyncPublishImpl
  rw [same, if_neg low, if_neg opened, if_neg (by simpa using connected)]
  by_cases unacknowledged : qos = 0
  · subst unacknowledged
    exact ⟨0, fun _ => rfl, rfl, fun positive => absurd rfl positive⟩
  · have found : p ≠ 0 := fun none => room ⟨unacknowledged, .inl (zero.mp none)⟩
    have fewer : ¬ s.pendingPublishes.size ≥ kMaxPendingPublishes := fun full => room ⟨unacknowledged, .inr full⟩
    dsimp only
    rw [if_neg unacknowledged, if_neg found, if_neg fewer]
    let entry : PendingPublish := { topic, qos, payload, callback := cb, timer := s.nextTimer, attempts := 1 }
    let v : Sys := { s with nextPacketId := next }
    have stored : (v.insertPublish p topic payload qos cb).pendingPublishes.find? p = some entry := by
      change (s.pendingPublishes.insert p entry).find? p = _
      simp [OrderedMap.find?_insert]
    obtain ⟨log, publishes⟩ := sendPublishEntry_sent stored
    refine ⟨p, fun none => absurd none unacknowledged, log, fun _ => ⟨?_, ?_⟩⟩
    · have absent := (Ids.taken_false (i := s.ids) (free found)).1
      simpa [OrderedMap.contains, ids] using absent
    · rw [publishes, stored]
      rfl

theorem length_header (pkt : PublishPacket) : pkt.header.length =
    2 + pkt.topicName.length + (if pkt.qos = 0 then 0 else 2) + pkt.payload.length := by
  simp only [PublishPacket.header, List.length_append, length_writeString]
  by_cases zero : pkt.qos = 0
  · simp [zero]
    omega
  · have positive : pkt.qos > 0 := UInt8.pos_iff_ne_zero.mpr zero
    simp only [if_pos positive, if_neg zero, BufferWriter.writeUint16, List.nil_append, List.length_cons,
      List.length_nil]
    omega

theorem framedWhole_publish (pkt : PublishPacket) :
    FramedWhole pkt.serialize ↔ pkt.header.length ≤ maxRemainingLength := by
  rw [PublishPacket.serialize_eq]
  refine framedWhole_frame _ _ ?_
  rw [PublishPacket.flags, publish_type_nibble]
  rfl

/-- A publish that is not refused goes onto the wire as it was given exactly if it fits. -/
theorem publishesAsGiven_accepted (accepts : ¬ s.Refuses qos) :
    s.PublishesAsGiven topic payload qos cb ↔ FitsWire topic payload qos := by
  obtain ⟨p, unnumbered, log, stored⟩ := @asyncPublishImpl_accepts s topic payload qos cb accepts
  have low : qos ≤ 2 := UInt8.not_lt.mp fun high => accepts (.inl high)
  let pkt : PublishPacket := { packetId := p, qos, topicName := topic, payload }
  constructor
  · rintro (failed | ⟨other, log', framed, topic', -, -, -⟩)
    · -- a failure is at most one event, and a publish that is sent two
      rcases failed with told | ⟨quiet, -⟩
      · have lengths := congrArg List.length (log.symm.trans told)
        split at lengths <;> simp only [List.length_append, List.length_cons, List.length_nil] at lengths <;> omega
      · have lengths := congrArg List.length (log.symm.trans quiet)
        simp only [List.length_cons] at lengths
        omega
    · obtain rfl : pkt = other := Packet.publish.inj (Event.handed.inj (List.cons.inj (log.symm.trans log')).1)
      refine ⟨topic' ▸ PublishPacket.length_parse_topicName _, ?_⟩
      have fits := (framedWhole_publish pkt).mp framed
      rwa [length_header] at fits
  · rintro ⟨short, fits⟩
    have small : pkt.header.length ≤ maxRemainingLength := by rwa [length_header]
    have decoded : PublishPacket.parse pkt.serialize = pkt := pkt.parse_serialize ⟨short, low, unnumbered, small⟩
    refine .inr ⟨pkt, log, (framedWhole_publish pkt).mpr small, ?_⟩
    rw [decoded]
    exact ⟨rfl, rfl, rfl, fun positive => ⟨rfl, stored positive⟩⟩

/-- A publish fails or goes onto the wire as it was given exactly if it is refused or fits. -/
theorem published_as_given_iff (s : Sys) (topic payload : Bytes) (qos : UInt8) (cb : Callback) :
    s.PublishesAsGiven topic payload qos cb ↔ s.Refuses qos ∨ FitsWire topic payload qos := by
  by_cases refuses : s.Refuses qos
  · exact iff_of_true (.inl (asyncPublishImpl_refuses refuses)) (.inl refuses)
  · rw [publishesAsGiven_accepted refuses, or_iff_right refuses]

/-- A topic of 65536 bytes is sent by a session that has just come up. -/
theorem long_topic_misread : ¬ ∀ actions s, Runs.exec step {} actions = some s → s.closed = false →
    s.net.state = .connected → s.pendingPublishes.size < 1000 →
    ∀ topic payload qos cb, qos ≤ 2 → s.PublishesAsGiven topic payload qos cb := by
  intro claimed
  have run : (Runs.exec step ({} : Sys) opened).map (fun s => s.closed == false && s.net.state == .connected &&
      decide (s.pendingPublishes.size < 1000)) = some true := by
    decide +kernel
  obtain ⟨s, done, up⟩ := Runs.exec_of_check run
  simp only [Bool.and_eq_true, beq_iff_eq, decide_eq_true_eq] at up
  obtain ⟨⟨openSession, connected⟩, room⟩ := up
  have accepts : ¬ s.Refuses 0 := by
    rintro (high | closed | other | full)
    · exact absurd high (by decide)
    · exact absurd (closed.symm.trans openSession) nofun
    · exact other connected
    · exact full.1 rfl
  have given := claimed _ s done openSession connected room (List.replicate 65536 0x74) [] 0 ⟨0, true⟩ (by decide)
  have fits := ((publishesAsGiven_accepted accepts).mp given).1
  rw [List.length_replicate] at fits
  omega

end Sys
end LiteMqtt
