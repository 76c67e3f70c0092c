import LiteMqtt.Codec.Packets
import LiteMqtt.Codec.RemainingLength

/-!
# Decoding undoes encoding

A reader between the bytes it has read and the bytes that are left reads back what a writer
appended. Each packet is then read field by field.
-/

namespace LiteMqtt
open BufferWriter

/-! ### Words -/

theorem uint16_of_halves (value : UInt16) :
    (value >>> 8).toUInt8.toUInt16 <<< 8 ||| value.toUInt8.toUInt16 = value := by
  apply UInt16.toNat_inj.mp
  have bound := value.toNat_lt
  have low : value.toNat % 256 < 2 ^ 8 := Nat.mod_lt _ (by decide)
  simp only [UInt16.toNat_or, UInt16.toNat_shiftLeft, UInt8.toNat_toUInt16, UInt16.toNat_toUInt8,
    UInt16.toNat_shiftRight, UInt16.reduceToNat, Nat.reduceMod, Nat.reducePow, Nat.shiftRight_eq_div_pow]
  rw [Nat.mod_eq_of_lt (by rw [Nat.shiftLeft_eq]; omega), ← Nat.shiftLeft_add_eq_or_of_lt low,
    Nat.shiftLeft_eq]
  omega

/-! ### What a reader has left -/

namespace BufferReader

theorem readUint16_between (done rest : Bytes) (value : UInt16) :
    (between done (writeUint16 [] value ++ rest)).readUint16 =
      (some value, between (done ++ writeUint16 [] value) rest) := by
  have high : (done ++ ((value >>> 8).toUInt8 :: value.toUInt8 :: rest))[done.length]?.getD 0 =
      (value >>> 8).toUInt8 := by simp
  have low : (done ++ ((value >>> 8).toUInt8 :: value.toUInt8 :: rest))[done.length + 1]?.getD 0 =
      value.toUInt8 := by simp
  have room : ¬ done.length + 2 > (done ++ ((value >>> 8).toUInt8 :: value.toUInt8 :: rest)).length := by
    simp
  simp only [readUint16, between, writeUint16, List.nil_append, List.cons_append, if_neg room,
    List.getD_eq_getElem?_getD, high, low, uint16_of_halves]
  simp

theorem readString_between (done rest str : Bytes) (fits : str.length ≤ 65535) :
    (between done (writeString [] str ++ rest)).readString =
      (some str, between (done ++ writeString [] str) rest) := by
  have exact : (UInt16.ofNat str.length).toNat = str.length := by
    rw [UInt16.toNat_ofNat']
    omega
  simp only [readString, writeString, List.append_assoc, readUint16_between]
  split
  · next zero =>
    have empty : str.length = 0 := by
      rw [← exact, zero]
      rfl
    obtain rfl := List.length_eq_zero_iff.mp empty
    simp
  · have room : ¬ (done.length + (writeUint16 [] (UInt16.ofNat str.length)).length + str.length >
        done.length + ((writeUint16 [] (UInt16.ofNat str.length)).length + (str.length + rest.length))) := by
      omega
    simp [between, exact, Nat.add_assoc]

theorem readRest_between (done rest : Bytes) :
    (if (between done rest).remaining > 0 then (between done rest).readBytes (between done rest).remaining
      else (none, between done rest)).1.getD [] = rest := by
  cases rest <;> simp [readBytes, between, remaining]

theorem readReturnCodes_between (done rest : Bytes) :
    readReturnCodes (between done rest).remaining (between done rest) = rest := by
  have rounds : (between done rest).remaining = rest.length := by simp [remaining, between]
  rw [rounds]
  induction rest generalizing done with
  | nil => rfl
  | cons rc rest ih =>
    have more : (between done (rc :: rest)).empty = false := by simp [empty, between]
    simp only [List.length_cons, readReturnCodes, more, Bool.false_eq_true, if_false,
      readUint8_between, Option.getD_some]
    rw [ih _ (by simp only [remaining, between, List.length_append]; omega)]

end BufferReader

open BufferReader in
theorem afterFixedHeader_frame (typeByte : UInt8) (header : Bytes) (fits : header.length ≤ maxRemainingLength) :
    ∃ done, afterFixedHeader (frame typeByte header) = (typeByte, between done header) := by
  obtain ⟨isField, -, -, short⟩ := digits_field fits
  have start : ({ buf := frame typeByte header } : BufferReader) =
      between [] (typeByte :: (remainingLengthDigits 5 header.length ++ header)) := by
    rw [frame, writeBytes, writeRemainingLength_fits fits]
    simp [between]
  refine ⟨[typeByte] ++ remainingLengthDigits 5 header.length, ?_⟩
  rw [afterFixedHeader, start, readUint8_between]
  simp only [List.nil_append, readRemainingLength_field isField short, Option.getD_some]

/-! ### What the writers append -/

theorem writeUint16_eq (buf : Bytes) (value : UInt16) : writeUint16 buf value = buf ++ writeUint16 [] value := by
  simp [writeUint16]

theorem writeString_eq (buf str : Bytes) : writeString buf str = buf ++ writeString [] str := by
  simp [writeString, writeUint16]

theorem length_writeString (str : Bytes) : (writeString [] str).length = str.length + 2 := by
  simp [writeString, writeUint16]

theorem foldl_writeUint8 (buf codes : Bytes) : codes.foldl writeUint8 buf = buf ++ codes := by
  induction codes generalizing buf with
  | nil => simp
  | cons code codes ih => simp [ih, writeUint8]

/-! ### CONNECT -/

/-- A string that is written only when it is not empty. -/
def optional (str : Bytes) : Bytes := if str.isEmpty then [] else writeString [] str

theorem getD_optional (str : Bytes) : (if str = [] then none else some str).getD [] = str := by
  split <;> simp [*]

theorem writeOptional (buf str : Bytes) : (if str.isEmpty then buf else writeString buf str) = buf ++ optional str := by
  unfold optional
  split
  · rw [List.append_nil]
  · exact writeString_eq buf str

open BufferReader in
theorem readOptional_between (done rest str : Bytes) (fits : str.length ≤ 65535) (flagged : Prop)
    [Decidable flagged] (present : flagged ↔ str ≠ []) :
    (if flagged then (between done (optional str ++ rest)).readString
      else (none, between done (optional str ++ rest))) =
      (if str = [] then none else some str, between (done ++ optional str) rest) := by
  by_cases empty : str = []
  · simp [optional, empty, present]
  · rw [if_pos (present.mpr empty), if_neg empty]
    simp only [optional, List.isEmpty_iff, if_neg empty]
    exact readString_between done rest str fits

namespace ConnectPacket

variable (pkt : ConnectPacket)

/-- Each string has at most 65535 bytes. -/
structure Fits (pkt : ConnectPacket) : Prop where
  clientId : pkt.clientId.length ≤ 65535
  username : pkt.username.length ≤ 65535
  password : pkt.password.length ≤ 65535

theorem connectFlags_bits : (pkt.connectFlags &&& 0x02 ≠ 0 ↔ pkt.cleanSession = true) ∧
    (pkt.connectFlags &&& 0x80 ≠ 0 ↔ pkt.username ≠ []) ∧
    (pkt.connectFlags &&& 0x40 ≠ 0 ↔ pkt.password ≠ []) := by
  simp only [ne_eq, ← List.isEmpty_iff, connectFlags]
  generalize pkt.username.isEmpty = noUsername
  generalize pkt.password.isEmpty = noPassword
  cases pkt.cleanSession <;> cases noUsername <;> cases noPassword <;> decide

def header : Bytes :=
  writeString [] [0x4d, 0x51, 0x54, 0x54] ++ ([4] ++ ([pkt.connectFlags] ++
    (writeUint16 [] pkt.keepAliveSeconds ++ (writeString [] pkt.clientId ++
      (optional pkt.username ++ optional pkt.password)))))

theorem serialize_eq : pkt.serialize = frame (PacketType.connect.toUint8 <<< 4) pkt.header := by
  rw [serialize, writeOptional, writeOptional, writeString_eq _ pkt.clientId, writeUint16_eq _ pkt.keepAliveSeconds]
  simp only [writeUint8, header, List.append_assoc]

theorem length_optional_le (str : Bytes) : (optional str).length ≤ str.length + 2 := by
  unfold optional
  split
  · exact Nat.zero_le _
  · exact (length_writeString str).le

theorem header_fits (fits : pkt.Fits) : pkt.header.length ≤ maxRemainingLength := by
  have := length_optional_le pkt.username
  have := length_optional_le pkt.password
  have := fits.clientId
  have := fits.username
  have := fits.password
  simp only [header, List.length_append, length_writeString, writeUint16, List.length_cons,
    List.length_nil, maxRemainingLength]
  omega

theorem parse_serialize (fits : pkt.Fits) : parse pkt.serialize = pkt := by
  obtain ⟨cleanSession, username, password⟩ := pkt.connectFlags_bits
  obtain ⟨done, start⟩ :=
    afterFixedHeader_frame (PacketType.connect.toUint8 <<< 4) pkt.header (pkt.header_fits fits)
  rw [serialize_eq, parse, start, header]
  simp only [BufferReader.readString_between _ _ [0x4d, 0x51, 0x54, 0x54] (by decide), List.cons_append,
    List.nil_append, BufferReader.readUint8_between, BufferReader.readUint16_between,
    BufferReader.readString_between _ _ _ fits.clientId, Option.getD_some,
    readOptional_between _ _ _ fits.username _ username]
  have last := fun done => readOptional_between done [] _ fits.password _ password
  simp only [List.append_nil] at last
  simp only [last, getD_optional]
  congr 1
  exact Bool.eq_iff_iff.mpr (decide_eq_true_iff.trans cleanSession)

end ConnectPacket

/-! ### PUBLISH and SUBACK -/

namespace PublishPacket

variable (pkt : PublishPacket)

def header : Bytes :=
  writeString [] pkt.topicName ++ ((if pkt.qos > 0 then writeUint16 [] pkt.packetId else []) ++ pkt.payload)

/-- A QoS 0 publish carries no packet id. -/
structure Fits (pkt : PublishPacket) : Prop where
  topicName : pkt.topicName.length ≤ 65535
  qos : pkt.qos ≤ 2
  packetId : pkt.qos = 0 → pkt.packetId = 0
  remainingLength : pkt.header.length ≤ maxRemainingLength

theorem serialize_eq : pkt.serialize = frame (PacketType.publish.toUint8 <<< 4 ||| pkt.flags) pkt.header := by
  rw [serialize, header]
  split
  · rw [writeUint16_eq, writeBytes, List.append_assoc]
  · rfl

theorem flags_bits (qos : pkt.qos ≤ 2) :
    ((PacketType.publish.toUint8 <<< 4 ||| pkt.flags) >>> 1) &&& 0x03 = pkt.qos ∧
      (((PacketType.publish.toUint8 <<< 4 ||| pkt.flags) >>> 3) &&& 0x01 ≠ 0 ↔ pkt.dup = true) := by
  rw [flags]
  have level : pkt.qos = 0 ∨ pkt.qos = 1 ∨ pkt.qos = 2 := by
    simp only [UInt8.le_iff_toNat_le, ← UInt8.toNat_inj, UInt8.reduceToNat] at qos ⊢
    omega
  rcases level with is | is | is <;> cases pkt.dup <;> rw [is] <;> decide

theorem parse_serialize (fits : pkt.Fits) : parse pkt.serialize = pkt := by
  obtain ⟨qos, dup⟩ := pkt.flags_bits fits.qos
  obtain ⟨done, start⟩ := afterFixedHeader_frame (PacketType.publish.toUint8 <<< 4 ||| pkt.flags) pkt.header
    fits.remainingLength
  rw [serialize_eq, parse, start]
  simp only [header, BufferReader.readString_between _ _ _ fits.topicName, qos, Option.getD_some]
  by_cases acknowledged : pkt.qos > 0
  · simp only [if_pos acknowledged, BufferReader.readUint16_between, BufferReader.readRest_between,
      Option.getD_some]
    congr 1
    exact Bool.eq_iff_iff.mpr (decide_eq_true_iff.trans dup)
  · have least : pkt.qos = 0 := UInt8.toNat_inj.mp (Nat.eq_zero_of_not_pos acknowledged)
    simp only [if_neg acknowledged, List.nil_append, BufferReader.readRest_between, Option.getD_none,
      ← fits.packetId least]
    congr 1
    exact Bool.eq_iff_iff.mpr (decide_eq_true_iff.trans dup)

end PublishPacket

/-- The remaining length counts the packet id and the codes. -/
theorem SubackPacket.parse_serialize (pkt : SubackPacket)
    (fits : 2 + pkt.returnCodes.length ≤ maxRemainingLength) : parse pkt.serialize = pkt := by
  obtain ⟨done, start⟩ := afterFixedHeader_frame (PacketType.suback.toUint8 <<< 4)
    (writeUint16 [] pkt.packetId ++ pkt.returnCodes)
      (by simpa only [writeUint16, List.nil_append, List.length_append, List.length_cons, List.length_nil] using fits)
  rw [serialize, foldl_writeUint8, parse, start]
  simp only [BufferReader.readUint16_between, BufferReader.readReturnCodes_between, Option.getD_some]

/-! ### Packets of two bytes -/

theorem afterFixedHeader_two (typeByte : UInt8) (body : Bytes) (two : body.length = 2) :
    ∃ done, afterFixedHeader (typeByte :: 2 :: body) = (typeByte, BufferReader.between done body) := by
  have same : typeByte :: 2 :: body = frame typeByte body := by
    rw [frame, writeBytes, writeRemainingLength, two]
    rfl
  exact same ▸ afterFixedHeader_frame typeByte body (by rw [two]; decide)

theorem parseId_serializeId (typeByte : UInt8) (packetId : UInt16) :
    parseId (serializeId typeByte packetId) = packetId := by
  obtain ⟨done, start⟩ := afterFixedHeader_two typeByte (writeUint16 [] packetId) rfl
  have same : serializeId typeByte packetId = typeByte :: 2 :: writeUint16 [] packetId := rfl
  have read := BufferReader.readUint16_between done [] packetId
  rw [List.append_nil] at read
  simp only [parseId, same, start, read, Option.getD_some]

theorem ConnackPacket.parse_serialize (pkt : ConnackPacket) (present : pkt.sessionPresent ≤ 1) :
    parse pkt.serialize = pkt := by
  have bit : pkt.sessionPresent &&& 0x01 = pkt.sessionPresent := by
    have level : pkt.sessionPresent = 0 ∨ pkt.sessionPresent = 1 := by
      simp only [UInt8.le_iff_toNat_le, ← UInt8.toNat_inj, UInt8.reduceToNat] at present ⊢
      omega
    rcases level with is | is <;> rw [is] <;> rfl
  obtain ⟨done, start⟩ := afterFixedHeader_two (PacketType.connack.toUint8 <<< 4)
    [pkt.sessionPresent &&& 0x01, pkt.returnCode] rfl
  have same : pkt.serialize = (PacketType.connack.toUint8 <<< 4) :: 2 ::
    [pkt.sessionPresent &&& 0x01, pkt.returnCode] := rfl
  rw [same, parse, start]
  simp only [BufferReader.readUint8_between, Option.getD_some, bit]

/-- Every packet that fits its format is read back as it was written. -/
theorem decoding_undoes_encoding :
    (∀ pkt : ConnectPacket, pkt.Fits → ConnectPacket.parse pkt.serialize = pkt) ∧
    (∀ pkt : ConnackPacket, pkt.sessionPresent ≤ 1 → ConnackPacket.parse pkt.serialize = pkt) ∧
    (∀ pkt : PublishPacket, pkt.Fits → PublishPacket.parse pkt.serialize = pkt) ∧
    (∀ pkt : SubackPacket, 2 + pkt.returnCodes.length ≤ maxRemainingLength → SubackPacket.parse pkt.serialize = pkt) ∧
    (∀ pkt : PubackPacket, PubackPacket.parse pkt.serialize = pkt) ∧
    (∀ pkt : PubrecPacket, PubrecPacket.parse pkt.serialize = pkt) ∧
    (∀ pkt : PubrelPacket, PubrelPacket.parse pkt.serialize = pkt) ∧
    (∀ pkt : PubcompPacket, PubcompPacket.parse pkt.serialize = pkt) ∧
    (∀ pkt : UnsubackPacket, UnsubackPacket.parse pkt.serialize = pkt) :=
  ⟨ConnectPacket.parse_serialize, ConnackPacket.parse_serialize, PublishPacket.parse_serialize,
    SubackPacket.parse_serialize,
    fun pkt => congrArg PubackPacket.mk (parseId_serializeId _ pkt.packetId),
    fun pkt => congrArg PubrecPacket.mk (parseId_serializeId _ pkt.packetId),
    fun pkt => congrArg PubrelPacket.mk (parseId_serializeId _ pkt.packetId),
    fun pkt => congrArg PubcompPacket.mk (parseId_serializeId _ pkt.packetId),
    fun pkt => congrArg UnsubackPacket.mk (parseId_serializeId _ pkt.packetId)⟩

/-- A password without a user name, and a payload that looks like a length, survive. -/
theorem decoding_undoes_encoding_examples :
    let connect : ConnectPacket := { clientId := [0x63], cleanSession := true, password := [0x80, 0x00] }
    let publish : PublishPacket := { packetId := 7, qos := 2, dup := true, topicName := [0x74], payload := [0, 9] }
    ConnectPacket.parse connect.serialize = connect ∧
      ConnackPacket.parse (ConnackPacket.serialize ⟨1, 5⟩) = ⟨1, 5⟩ ∧
      PublishPacket.parse publish.serialize = publish ∧
      SubackPacket.parse (SubackPacket.serialize ⟨3, [0, 0x80]⟩) = ⟨3, [0, 0x80]⟩ :=
  have holds := decoding_undoes_encoding
  ⟨holds.1 _ ⟨by decide, by decide, by decide⟩, holds.2.1 _ (by decide),
    holds.2.2.1 _ ⟨by decide, by decide, nofun, by decide⟩, holds.2.2.2.1 _ (by decide)⟩

/-! ### Acknowledgements -/

def Packet.isAcknowledgement : Packet → Bool
  | .puback _ | .pubrec _ | .pubcomp _ => true
  | _ => false

/-- What a frame is read as, if it is a PUBACK, a PUBREC or a PUBCOMP. -/
def acknowledgementIn : Bytes → Option Packet
  | [] => none
  | byte :: rest =>
      match PacketType.ofUint8 (byte >>> 4) with
      | .puback => some (.puback (PubackPacket.parse (byte :: rest)).packetId)
      | .pubrec => some (.pubrec (PubrecPacket.parse (byte :: rest)).packetId)
      | .pubcomp => some (.pubcomp (PubcompPacket.parse (byte :: rest)).packetId)
      | _ => none

/-- Only an acknowledgement is read as one, and as the one that was written. -/
theorem acknowledgementIn_serialize (packet : Packet) :
    acknowledgementIn packet.serialize = if packet.isAcknowledgement then some packet else none := by
  have nibble : ∀ (byte : UInt8) (rest : Bytes) (type : PacketType), packet.serialize = byte :: rest →
      PacketType.ofUint8 (byte >>> 4) = type → type ≠ .puback → type ≠ .pubrec → type ≠ .pubcomp →
      acknowledgementIn packet.serialize = none := by
    intro byte rest type shape is noPuback noPubrec noPubcomp
    rw [shape, acknowledgementIn, is]
    cases type <;> first | rfl | contradiction
  cases packet with
  | puback p =>
    exact congrArg (fun id => some (Packet.puback id)) (parseId_serializeId (PacketType.puback.toUint8 <<< 4) p)
  | pubrec p =>
    exact congrArg (fun id => some (Packet.pubrec id)) (parseId_serializeId (PacketType.pubrec.toUint8 <<< 4) p)
  | pubcomp p =>
    exact congrArg (fun id => some (Packet.pubcomp id)) (parseId_serializeId (PacketType.pubcomp.toUint8 <<< 4) p)
  | publish pkt =>
    exact nibble _ _ .publish rfl (by rw [PublishPacket.flags, publish_type_nibble]; rfl) (by simp) (by simp) (by simp)
  | connect pkt => exact nibble (PacketType.connect.toUint8 <<< 4) _ .connect rfl rfl (by simp) (by simp) (by simp)
  | subscribe pkt =>
    exact nibble (PacketType.subscribe.toUint8 <<< 4 ||| 0x02) _ .subscribe rfl rfl (by simp) (by simp) (by simp)
  | pubrel p => exact nibble (PacketType.pubrel.toUint8 <<< 4 ||| 0x02) _ .pubrel rfl rfl (by simp) (by simp) (by simp)
  | pingreq => exact nibble (PacketType.pingreq.toUint8 <<< 4) _ .pingreq rfl rfl (by simp) (by simp) (by simp)
  | disconnect => exact nibble (PacketType.disconnect.toUint8 <<< 4) _ .disconnect rfl rfl (by simp) (by simp) (by simp)

end LiteMqtt
