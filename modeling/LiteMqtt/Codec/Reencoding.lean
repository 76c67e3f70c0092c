import LiteMqtt.Codec.RoundTrip

/-!
# Encoding undoes decoding

A well-formed PUBLISH or SUBACK is what the encoder gives for some packet, so decoding it and encoding the
result gives the same bytes. Well-formed is said of the bytes alone.
-/

namespace LiteMqtt
open BufferWriter

/-- A type byte, the shortest length field that says the length of the rest, and the rest. -/
def IsFrame (data : Bytes) (first : UInt8) (body : Bytes) : Prop :=
  ∃ field, data = first :: (field ++ body) ∧ isLengthField field = true ∧ field.length ≤ 4 ∧ isShortest field = true ∧
    lengthValue field = body.length

def wordOf (high low : UInt8) : Nat := high.toNat * 256 + low.toNat

/-- A PUBLISH: the retain bit is clear, the QoS is at most 2, the topic is whole, and a packet id follows it
where the QoS asks for one. -/
def IsPublish (data : Bytes) : Prop :=
  ∃ first high low rest, IsFrame data first (high :: low :: rest) ∧ first >>> 4 = 3 ∧ first &&& 0x01 = 0 ∧
    (first >>> 1) &&& 0x03 ≤ 2 ∧ wordOf high low ≤ rest.length ∧
    ((first >>> 1) &&& 0x03 > 0 → wordOf high low + 2 ≤ rest.length)

/-- A SUBACK: the flag bits are clear, and there is a packet id. -/
def IsSuback (data : Bytes) : Prop := ∃ high low codes, IsFrame data 0x90 (high :: low :: codes)

theorem IsFrame.same {data : Bytes} {first : UInt8} {body : Bytes} (framed : IsFrame data first body) :
    data = frame first body ∧ body.length ≤ maxRemainingLength := by
  obtain ⟨field, rfl, isField, short, shortest, value⟩ := framed
  have fits : body.length ≤ maxRemainingLength := value ▸ lengthValue_le short
  refine ⟨?_, fits⟩
  rw [frame, writeBytes, writeRemainingLength_fits fits, ← value, digits_lengthValue isField shortest (by omega)]
  rfl

theorem writeUint16_of_bytes (high low : UInt8) :
    ∃ value : UInt16, writeUint16 [] value = [high, low] ∧ value.toNat = wordOf high low := by
  have bound : wordOf high low < 2 ^ 16 := by
    have := high.toNat_lt
    have := low.toNat_lt
    unfold wordOf
    omega
  have word : (UInt16.ofNat (wordOf high low)).toNat = wordOf high low := by
    rw [UInt16.toNat_ofNat']
    exact Nat.mod_eq_of_lt bound
  refine ⟨UInt16.ofNat (wordOf high low), ?_, word⟩
  have upper : (UInt16.ofNat (wordOf high low) >>> 8).toUInt8 = high := by
    apply UInt8.toNat_inj.mp
    have := high.toNat_lt
    have := low.toNat_lt
    rw [UInt16.toNat_toUInt8, UInt16.toNat_shiftRight, word]
    simp only [UInt16.reduceToNat, Nat.reduceMod, Nat.shiftRight_eq_div_pow, wordOf]
    omega
  have lower : (UInt16.ofNat (wordOf high low)).toUInt8 = low := by
    apply UInt8.toNat_inj.mp
    have := low.toNat_lt
    rw [UInt16.toNat_toUInt8, word]
    unfold wordOf
    omega
  rw [writeUint16, upper, lower]
  rfl

theorem writeString_of_bytes {high low : UInt8} {rest : Bytes} (fits : wordOf high low ≤ rest.length) :
    writeString [] (rest.take (wordOf high low)) = high :: low :: rest.take (wordOf high low) ∧
      (rest.take (wordOf high low)).length ≤ 65535 := by
  obtain ⟨value, bytes, word⟩ := writeUint16_of_bytes high low
  have bound := value.toNat_lt
  have length : (rest.take (wordOf high low)).length = value.toNat := by
    rw [List.length_take, word]
    exact Nat.min_eq_left fits
  refine ⟨?_, by omega⟩
  rw [writeString, length, UInt16.ofNat_toNat, bytes]
  rfl

theorem publish_first_byte (first : UInt8) (type : first >>> 4 = 3) (retain : first &&& 0x01 = 0) :
    PacketType.publish.toUint8 <<< 4 ||| ((((first >>> 1) &&& 0x03) &&& 0x03) <<< 1 |||
      (if (first >>> 3) &&& 0x01 ≠ 0 then 0x08 else 0)) = first := by
  have table : ∀ i : Fin 256, (UInt8.ofNat i) >>> 4 = 3 → (UInt8.ofNat i) &&& 0x01 = 0 →
      PacketType.publish.toUint8 <<< 4 ||| (((((UInt8.ofNat i) >>> 1) &&& 0x03) &&& 0x03) <<< 1 |||
        (if ((UInt8.ofNat i) >>> 3) &&& 0x01 ≠ 0 then 0x08 else 0)) = UInt8.ofNat i := by
    decide +kernel
  have whole := table ⟨first.toNat, first.toNat_lt⟩
  rw [show UInt8.ofNat first.toNat = first from UInt8.ofNat_toNat] at whole
  exact whole type retain

theorem publish_encoded {data : Bytes} (publish : IsPublish data) :
    ∃ pkt : PublishPacket, pkt.Fits ∧ pkt.serialize = data := by
  obtain ⟨first, high, low, rest, framed, type, retain, level, topicFits, idFits⟩ := publish
  obtain ⟨rfl, fits⟩ := framed.same
  obtain ⟨topic, topicLength⟩ := writeString_of_bytes topicFits
  let qos := (first >>> 1) &&& 0x03
  let n := wordOf high low
  -- the bytes after the topic: a packet id, if there is one, and the payload
  obtain ⟨packetId, payload, none, tail⟩ : ∃ (packetId : UInt16) (payload : Bytes), (qos = 0 → packetId = 0) ∧
      (if qos > 0 then writeUint16 [] packetId else []) ++ payload = rest.drop n := by
    by_cases acknowledged : qos > 0
    · have enough := idFits acknowledged
      obtain ⟨upper, lower, payload, shape⟩ : ∃ upper lower payload, rest.drop n = upper :: lower :: payload := by
        cases drop : rest.drop n with
        | nil =>
          have := List.drop_eq_nil_iff.mp drop
          omega
        | cons upper more =>
          cases more with
          | nil =>
            have := congrArg List.length drop
            simp only [List.length_drop, List.length_singleton] at this
            omega
          | cons lower payload => exact ⟨upper, lower, payload, rfl⟩
      obtain ⟨value, bytes, -⟩ := writeUint16_of_bytes upper lower
      refine ⟨value, payload, fun zero => absurd (zero ▸ acknowledged) (by decide), ?_⟩
      rw [if_pos acknowledged, bytes, shape]
      rfl
    · exact ⟨0, rest.drop n, fun _ => rfl, by rw [if_neg acknowledged]; rfl⟩
  let pkt : PublishPacket :=
    { packetId, qos, dup := decide ((first >>> 3) &&& 0x01 ≠ 0), topicName := rest.take n, payload }
  have header : pkt.header = high :: low :: rest := by
    rw [PublishPacket.header, topic, tail]
    simp [n, List.take_append_drop]
  refine ⟨pkt, ⟨topicLength, level, none, header ▸ fits⟩, ?_⟩
  have flags : PacketType.publish.toUint8 <<< 4 ||| pkt.flags = first := by
    have byte := publish_first_byte first type retain
    simpa [PublishPacket.flags, pkt, qos] using byte
  rw [pkt.serialize_eq, header, flags]

/-- On well-formed frames the parsers lose and invent nothing. -/
theorem encoding_undoes_decoding :
    (∀ data, IsPublish data → (PublishPacket.parse data).serialize = data) ∧
    (∀ data, IsSuback data → (SubackPacket.parse data).serialize = data) := by
  constructor
  · intro data publish
    obtain ⟨pkt, fits, rfl⟩ := publish_encoded publish
    rw [pkt.parse_serialize fits]
  · rintro data ⟨high, low, codes, framed⟩
    obtain ⟨rfl, fits⟩ := framed.same
    obtain ⟨value, bytes, -⟩ := writeUint16_of_bytes high low
    have encoded : SubackPacket.serialize ⟨value, codes⟩ = frame 0x90 (high :: low :: codes) := by
      rw [SubackPacket.serialize, foldl_writeUint8, bytes]
      rfl
    have room : 2 + codes.length ≤ maxRemainingLength := by
      simp only [List.length_cons] at fits
      omega
    rw [← encoded, SubackPacket.parse_serialize ⟨value, codes⟩ room]

theorem encoding_undoes_decoding_examples :
    (PublishPacket.parse [0x3C, 5, 0, 0, 0, 7, 9]).serialize = [0x3C, 5, 0, 0, 0, 7, 9] ∧
      (SubackPacket.parse [0x90, 2, 0, 7]).serialize = [0x90, 2, 0, 7] :=
  ⟨encoding_undoes_decoding.1 _ ⟨0x3C, 0, 0, [0, 7, 9], ⟨[5], rfl, by decide, by decide, by decide, by decide⟩,
    by decide, by decide, by decide, by decide, by decide⟩,
    encoding_undoes_decoding.2 _ ⟨0, 7, [], [2], rfl, by decide, by decide, by decide, by decide⟩⟩

end LiteMqtt
