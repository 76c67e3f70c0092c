import LiteMqtt.Client.Inbound
import LiteMqtt.Connection.Bodies

/-!
# Which PUBLISH frames are delivered

`handle_publish` looks at the QoS bits of a frame and at nothing else before it delivers and
acknowledges it. A body that is too short for its topic or its packet id is delivered with what
the parser left in the fields.
-/

namespace LiteMqtt

/-- The QoS bits of a PUBLISH. -/
def Frame.qosBits (fr : Frame) : UInt8 := (fr.first >>> 1) &&& 3

theorem PublishPacket.parse_qos (fr : Frame) : (PublishPacket.parse fr.bytes).qos = fr.qosBits := by
  rw [PublishPacket.parse, afterFixedHeader_bytes]
  rfl

namespace Sys

variable {s t : Sys} {fr : Frame}

/-- The messages that were delivered between two states. -/
def delivered (s t : Sys) : List Event := (t.log.take (t.log.length - s.log.length)).filter (·.isMessage)

/-- The acknowledgements that the code which has come onto the stack will write. -/
def acknowledging (s t : Sys) : List Packet :=
  (t.net.running.take (t.net.running.length - s.net.running.length)).filterMap Work.acknowledgement?

/-- `handle_publish` delivers or acknowledges only a well-formed frame, with what its body holds. -/
structure Respects (s : Sys) (fr : Frame) : Prop where
  delivery : ∀ e ∈ delivered s (s.handlePublish fr.bytes), WellFormedPublish fr.qosBits fr.body ∧
    e = .message (topicSlice fr.body) (payloadSlice fr.qosBits fr.body) fr.qosBits
      (if fr.qosBits = 0 then 0 else idSlice fr.body)
  acknowledgement : ∀ packet ∈ acknowledging s (s.handlePublish fr.bytes), WellFormedPublish fr.qosBits fr.body ∧
    (fr.qosBits = 1 ∧ packet = .puback (idSlice fr.body) ∨ fr.qosBits = 2 ∧ packet = .pubrec (idSlice fr.body))

theorem delivered_handlePublish (s : Sys) (data : Bytes) : delivered s (s.handlePublish data) =
    (Handled.publish (PublishPacket.parse data) s.onMessageCb).delivery?.toList := by
  unfold handlePublish
  dsimp only
  split
  · rename_i high
    have refused : ¬ (PublishPacket.parse data).qos ≤ 2 := UInt8.not_le.mpr high
    simp [delivered, push, Handled.delivery?, refused]
  · rename_i low
    have allowed : (PublishPacket.parse data).qos ≤ 2 := UInt8.not_lt.mp low
    cases listening : s.onMessageCb <;> simp [delivered, push, record, Handled.delivery?, allowed, listening,
      Event.isMessage]

theorem acknowledging_of_pushed {ks : List Work} (running : t.net.running = ks ++ s.net.running) :
    acknowledging s t = ks.filterMap Work.acknowledgement? := by
  rw [acknowledging, running, List.length_append, Nat.add_sub_cancel, List.take_left]

theorem acknowledging_handlePublish (s : Sys) (data : Bytes) : acknowledging s (s.handlePublish data) =
    if (PublishPacket.parse data).qos > 2 then []
    else (Work.acknowledge (PublishPacket.parse data).qos
      (PublishPacket.parse data).packetId).acknowledgement?.toList := by
  have one : ∀ k : Work, [k].filterMap Work.acknowledgement? = k.acknowledgement?.toList := by
    intro k
    cases packet : k.acknowledgement? <;> simp [packet]
  unfold handlePublish
  dsimp only
  split
  · exact acknowledging_of_pushed (show _ = [.notifyClosedOnce] ++ s.net.running from rfl)
  · rw [← one]
    split
    · refine (acknowledging_of_pushed (show _ = [.user, .acknowledge _ _] ++ s.net.running from rfl)).trans ?_
      rfl
    · exact acknowledging_of_pushed (show _ = [.acknowledge _ _] ++ s.net.running from rfl)

theorem respects_wellFormed (s : Sys) (wellFormed : WellFormedPublish fr.qosBits fr.body) : s.Respects fr := by
  obtain ⟨qos, topic, payload, id⟩ := PublishPacket.parse_wellFormed fr wellFormed
  change _ = fr.qosBits at qos
  have low : ¬ fr.qosBits > 2 := UInt8.not_lt.mpr wellFormed.1
  constructor
  · intro e delivered
    refine ⟨wellFormed, ?_⟩
    rw [delivered_handlePublish, Handled.delivery?] at delivered
    split at delivered
    · obtain rfl := Option.some.inj (Option.mem_toList.mp delivered)
      rw [qos, topic, payload]
      by_cases zero : fr.qosBits = 0
      · rw [if_pos zero, if_pos zero]
        rfl
      · rw [if_neg zero, if_neg zero, id zero]
        rfl
    · contradiction
  · intro packet written
    refine ⟨wellFormed, ?_⟩
    rw [acknowledging_handlePublish, qos, if_neg low, Work.acknowledgement?] at written
    split at written
    · rename_i one
      rw [id (show fr.qosBits ≠ 0 by rw [one]; decide)] at written
      exact .inl ⟨one, by simpa using written⟩
    · split at written
      · rename_i two
        rw [id (show fr.qosBits ≠ 0 by rw [two]; decide)] at written
        exact .inr ⟨two, by simpa using written⟩
      · contradiction

theorem respects_dropped (nothing : delivered s (s.handlePublish fr.bytes) = [])
    (silent : acknowledging s (s.handlePublish fr.bytes) = []) : s.Respects fr :=
  ⟨by simp [nothing], by simp [silent]⟩

theorem respects_reserved (s : Sys) (high : 2 < fr.qosBits) : s.Respects fr := by
  have refused : ¬ fr.qosBits ≤ 2 := UInt8.not_le.mpr high
  refine respects_dropped ?_ ?_
  · rw [delivered_handlePublish, Handled.delivery?, PublishPacket.parse_qos, if_neg fun h => refused h.2]
    rfl
  · rw [acknowledging_handlePublish, PublishPacket.parse_qos, if_pos high]

theorem respects_unheard (unheard : s.onMessageCb = false) (zero : fr.qosBits = 0) : s.Respects fr := by
  refine respects_dropped ?_ ?_
  · rw [delivered_handlePublish, Handled.delivery?, if_neg fun h => absurd (unheard.symm.trans h.1) (by decide)]
    rfl
  · rw [acknowledging_handlePublish, PublishPacket.parse_qos, zero]
    rfl

theorem wellFormed_of_respects (respects : s.Respects fr) (low : fr.qosBits ≤ 2)
    (noticed : s.onMessageCb = true ∨ fr.qosBits ≠ 0) : WellFormedPublish fr.qosBits fr.body := by
  by_cases listening : s.onMessageCb = true
  · have told := delivered_handlePublish s fr.bytes
    rw [Handled.delivery?, PublishPacket.parse_qos, if_pos ⟨listening, low⟩] at told
    exact (respects.delivery _ (by rw [told]; exact List.mem_singleton_self _)).1
  · have positive := noticed.resolve_left listening
    have answered := acknowledging_handlePublish s fr.bytes
    rw [PublishPacket.parse_qos, if_neg (UInt8.not_lt.mpr low)] at answered
    have acknowledges :
        (Work.acknowledge fr.qosBits (PublishPacket.parse fr.bytes).packetId).acknowledgement?.isSome = true := by
      have level : fr.qosBits = 1 ∨ fr.qosBits = 2 := by
        simp only [UInt8.le_iff_toNat_le, ne_eq, ← UInt8.toNat_inj, UInt8.reduceToNat] at low positive ⊢
        omega
      rcases level with one | two
      · simp [Work.acknowledgement?, one]
      · simp [Work.acknowledgement?, two]
    obtain ⟨packet, found⟩ := Option.isSome_iff_exists.mp acknowledges
    rw [found] at answered
    exact (respects.acknowledgement packet (by rw [answered]; exact List.mem_singleton_self _)).1

/-- `handle_publish` delivers and acknowledges only what is well formed exactly if the frame is
well formed, or has the reserved QoS, or is a QoS 0 frame that nobody listens for. -/
theorem publish_respected_iff (s : Sys) (fr : Frame) : s.Respects fr ↔
    WellFormedPublish fr.qosBits fr.body ∨ 2 < fr.qosBits ∨ fr.qosBits = 0 ∧ s.onMessageCb = false := by
  constructor
  · intro respects
    by_cases high : 2 < fr.qosBits
    · exact .inr (.inl high)
    · by_cases unheard : fr.qosBits = 0 ∧ s.onMessageCb = false
      · exact .inr (.inr unheard)
      · refine .inl (wellFormed_of_respects respects (UInt8.not_lt.mp high) ?_)
        by_cases zero : fr.qosBits = 0
        · exact .inl (by simpa using fun quiet => unheard ⟨zero, quiet⟩)
        · exact .inr zero
  · rintro (wellFormed | high | ⟨zero, unheard⟩)
    · exact respects_wellFormed s wellFormed
    · exact respects_reserved s high
    · exact respects_unheard unheard zero

/-- A QoS 0 PUBLISH whose topic has five bytes, of which one was sent. -/
def truncatedPublish : Frame where
  first := 0x30
  lengthField := [3]
  body := [0, 5, 0x74]
  typed := by decide
  field := by decide
  short := by decide
  exact := by decide

/-- It is delivered, with no topic and its topic's byte as the payload. -/
theorem truncated_delivered :
    ¬ ∀ (s : Sys) (fr : Frame), PacketType.ofUint8 (fr.first >>> 4) = .publish → s.Respects fr := by
  intro claimed
  have told : Event.message [] [0x74] 0 0 ∈ delivered { onMessageCb := true }
      (Sys.handlePublish { onMessageCb := true } truncatedPublish.bytes) := by decide
  have wellFormed := ((claimed { onMessageCb := true } truncatedPublish rfl).delivery _ told).1
  exact absurd wellFormed (by decide)

end Sys
end LiteMqtt
