import LiteMqtt.Codec.PacketType

/-!
# Control packets

`serialize` builds a frame as the source does: fixed header, then the buffered
variable header. `parse` reads a frame without looking at whether a read
succeeded, so a field that could not be read keeps its default.
-/

namespace LiteMqtt
open BufferWriter

/-- Type byte, remaining length, and the bytes buffered for the rest of the frame. -/
def frame (typeByte : UInt8) (variableHeader : Bytes) : Bytes :=
  writeBytes (writeRemainingLength [typeByte] variableHeader.length) variableHeader

/-- The reader of a frame after its type byte and remaining length have been read. -/
def afterFixedHeader (data : Bytes) : UInt8 × BufferReader :=
  let (byte, r) := ({ buf := data } : BufferReader).readUint8
  (byte.getD 0, r.readRemainingLength.2.2)

structure ConnectPacket where
  clientId : Bytes
  keepAliveSeconds : UInt16 := 0
  cleanSession : Bool := false
  username : Bytes := []
  password : Bytes := []
  deriving DecidableEq, Repr

namespace ConnectPacket

def connectFlags (pkt : ConnectPacket) : UInt8 :=
  (if pkt.cleanSession then 0x02 else 0) |||
    (if pkt.username.isEmpty then 0 else 0x80) ||| (if pkt.password.isEmpty then 0 else 0x40)

def serialize (pkt : ConnectPacket) : Bytes :=
  let header := writeString [] [0x4d, 0x51, 0x54, 0x54]
  let header := writeUint8 header 4
  let header := writeUint8 header pkt.connectFlags
  let header := writeUint16 header pkt.keepAliveSeconds
  let header := writeString header pkt.clientId
  let header := if pkt.username.isEmpty then header else writeString header pkt.username
  let header := if pkt.password.isEmpty then header else writeString header pkt.password
  frame (PacketType.connect.toUint8 <<< 4) header

def parse (data : Bytes) : ConnectPacket :=
  let (_, r) := afterFixedHeader data
  let (_, r) := r.readString
  let (_, r) := r.readUint8
  let (connectFlags, r) := r.readUint8
  let connectFlags := connectFlags.getD 0
  let (keepAliveSeconds, r) := r.readUint16
  let (clientId, r) := r.readString
  let (username, r) := if connectFlags &&& 0x80 ≠ 0 then r.readString else (none, r)
  let (password, _) := if connectFlags &&& 0x40 ≠ 0 then r.readString else (none, r)
  { clientId := clientId.getD [], keepAliveSeconds := keepAliveSeconds.getD 0
    cleanSession := connectFlags &&& 0x02 ≠ 0
    username := username.getD [], password := password.getD [] }

end ConnectPacket

structure ConnackPacket where
  sessionPresent : UInt8 := 0
  returnCode : UInt8 := 0
  deriving DecidableEq, Repr

def ConnackPacket.serialize (pkt : ConnackPacket) : Bytes :=
  let buf := writeUint8 (writeUint8 [] (PacketType.connack.toUint8 <<< 4)) 2
  writeUint8 (writeUint8 buf (pkt.sessionPresent &&& 0x01)) pkt.returnCode

def ConnackPacket.parse (data : Bytes) : ConnackPacket :=
  let (_, r) := afterFixedHeader data
  let (sessionPresent, r) := r.readUint8
  let (returnCode, _) := r.readUint8
  { sessionPresent := sessionPresent.getD 0, returnCode := returnCode.getD 0 }

structure PublishPacket where
  packetId : UInt16 := 0
  qos : UInt8 := 0
  dup : Bool := false
  topicName : Bytes := []
  payload : Bytes := []
  deriving DecidableEq, Repr

namespace PublishPacket

def flags (pkt : PublishPacket) : UInt8 :=
  (pkt.qos &&& 0x03) <<< 1 ||| (if pkt.dup then 0x08 else 0)

def serialize (pkt : PublishPacket) : Bytes :=
  let header := writeString [] pkt.topicName
  let header := if pkt.qos > 0 then writeUint16 header pkt.packetId else header
  let header := writeBytes header pkt.payload
  frame (PacketType.publish.toUint8 <<< 4 ||| pkt.flags) header

def parse (data : Bytes) : PublishPacket :=
  let (typeByte, r) := afterFixedHeader data
  let qos := (typeByte >>> 1) &&& 0x03
  let (topicName, r) := r.readString
  let (packetId, r) := if qos > 0 then r.readUint16 else (none, r)
  let (payload, _) := if r.remaining > 0 then r.readBytes r.remaining else (none, r)
  { packetId := packetId.getD 0, qos, dup := (typeByte >>> 3) &&& 0x01 ≠ 0
    topicName := topicName.getD [], payload := payload.getD [] }

end PublishPacket

structure SubscribePacket where
  packetId : UInt16 := 0
  topicFilters : List (Bytes × UInt8) := []
  deriving DecidableEq, Repr

def SubscribePacket.serialize (pkt : SubscribePacket) : Bytes :=
  let header := writeUint16 [] pkt.packetId
  let header := pkt.topicFilters.foldl (fun buf tf => writeUint8 (writeString buf tf.1) tf.2) header
  frame (PacketType.subscribe.toUint8 <<< 4 ||| 0x02) header

structure SubackPacket where
  packetId : UInt16 := 0
  returnCodes : List UInt8 := []
  deriving DecidableEq, Repr

def SubackPacket.serialize (pkt : SubackPacket) : Bytes :=
  let payload := writeUint16 [] pkt.packetId
  frame (PacketType.suback.toUint8 <<< 4) (pkt.returnCodes.foldl writeUint8 payload)

/-- The `while (!reader.empty())` loop. Each round reads a byte, so as many rounds
as bytes are left suffice. -/
def readReturnCodes : Nat → BufferReader → List UInt8
  | 0, _ => []
  | rounds + 1, r =>
      if r.empty then []
      else
        let (rc, r) := r.readUint8
        rc.getD 0 :: readReturnCodes rounds r

def SubackPacket.parse (data : Bytes) : SubackPacket :=
  let (_, r) := afterFixedHeader data
  let (packetId, r) := r.readUint16
  { packetId := packetId.getD 0, returnCodes := readReturnCodes r.remaining r }

/-! ### Packets that carry a packet id and nothing else -/

def serializeId (typeByte : UInt8) (packetId : UInt16) : Bytes :=
  writeUint16 (writeUint8 (writeUint8 [] typeByte) 2) packetId

def parseId (data : Bytes) : UInt16 := ((afterFixedHeader data).2.readUint16.1).getD 0

structure PubackPacket where
  packetId : UInt16 := 0
  deriving DecidableEq, Repr

def PubackPacket.serialize (pkt : PubackPacket) : Bytes :=
  serializeId (PacketType.puback.toUint8 <<< 4) pkt.packetId

def PubackPacket.parse (data : Bytes) : PubackPacket := ⟨parseId data⟩

structure PubrecPacket where
  packetId : UInt16 := 0
  deriving DecidableEq, Repr

def PubrecPacket.serialize (pkt : PubrecPacket) : Bytes :=
  serializeId (PacketType.pubrec.toUint8 <<< 4) pkt.packetId

def PubrecPacket.parse (data : Bytes) : PubrecPacket := ⟨parseId data⟩

structure PubrelPacket where
  packetId : UInt16 := 0
  deriving DecidableEq, Repr

def PubrelPacket.serialize (pkt : PubrelPacket) : Bytes :=
  serializeId (PacketType.pubrel.toUint8 <<< 4 ||| 0x02) pkt.packetId

def PubrelPacket.parse (data : Bytes) : PubrelPacket := ⟨parseId data⟩

structure PubcompPacket where
  packetId : UInt16 := 0
  deriving DecidableEq, Repr

def PubcompPacket.serialize (pkt : PubcompPacket) : Bytes :=
  serializeId (PacketType.pubcomp.toUint8 <<< 4) pkt.packetId

def PubcompPacket.parse (data : Bytes) : PubcompPacket := ⟨parseId data⟩

structure UnsubackPacket where
  packetId : UInt16 := 0
  deriving DecidableEq, Repr

def UnsubackPacket.serialize (pkt : UnsubackPacket) : Bytes :=
  serializeId (PacketType.unsuback.toUint8 <<< 4) pkt.packetId

def UnsubackPacket.parse (data : Bytes) : UnsubackPacket := ⟨parseId data⟩

/-! ### Packets without a body -/

def pingreqSerialize : Bytes := writeUint8 (writeUint8 [] (PacketType.pingreq.toUint8 <<< 4)) 0

def disconnectSerialize : Bytes := writeUint8 (writeUint8 [] (PacketType.disconnect.toUint8 <<< 4)) 0

/-! ### The frames a client hands to its connection -/

inductive Packet where
  | connect (pkt : ConnectPacket)
  | publish (pkt : PublishPacket)
  | subscribe (pkt : SubscribePacket)
  | puback (packetId : UInt16)
  | pubrec (packetId : UInt16)
  | pubrel (packetId : UInt16)
  | pubcomp (packetId : UInt16)
  | pingreq
  | disconnect
  deriving DecidableEq, Repr

def Packet.serialize : Packet → Bytes
  | connect pkt => pkt.serialize
  | publish pkt => pkt.serialize
  | subscribe pkt => pkt.serialize
  | puback packetId => PubackPacket.serialize ⟨packetId⟩
  | pubrec packetId => PubrecPacket.serialize ⟨packetId⟩
  | pubrel packetId => PubrelPacket.serialize ⟨packetId⟩
  | pubcomp packetId => PubcompPacket.serialize ⟨packetId⟩
  | pingreq => pingreqSerialize
  | disconnect => disconnectSerialize

/-- A frame is a CONNECT when its type nibble says so. -/
def isConnectFrame (buffer : Bytes) : Bool := buffer.head?.any fun byte : UInt8 => byte >>> 4 == 1

theorem isConnectFrame_cons (byte : UInt8) (rest : Bytes) :
    isConnectFrame (byte :: rest) = (byte >>> 4 == 1) := rfl

theorem publish_type_nibble (qos : UInt8) (dup : Bool) :
    ((PacketType.publish.toUint8 <<< 4 |||
      ((qos &&& 0x03) <<< 1 ||| if dup then 0x08 else 0)) >>> 4 : UInt8) = 3 := by
  obtain ⟨⟨qos⟩⟩ := qos
  cases dup <;> revert qos <;> decide +kernel

theorem isConnectFrame_serialize (p : Packet) :
    isConnectFrame p.serialize = true ↔ ∃ pkt, p = .connect pkt := by
  have other : ∀ (byte : UInt8) {rest : Bytes}, (byte >>> 4 == 1) = false → p.serialize = byte :: rest →
      (∀ pkt, p ≠ .connect pkt) → (isConnectFrame p.serialize = true ↔ ∃ pkt, p = .connect pkt) := by
    intro byte rest nibble shape notConnect
    rw [shape, isConnectFrame_cons, nibble]
    exact ⟨fun h => (Bool.false_ne_true h).elim, fun ⟨pkt, h⟩ => (notConnect pkt h).elim⟩
  cases p with
  | connect pkt => exact ⟨fun _ => ⟨pkt, rfl⟩, fun _ => by rfl⟩
  | publish pkt =>
    exact other _ (by rw [PublishPacket.flags, publish_type_nibble]; rfl) rfl (by simp)
  | subscribe pkt => exact other (PacketType.subscribe.toUint8 <<< 4 ||| 0x02) (by decide) rfl (by simp)
  | puback id => exact other (PacketType.puback.toUint8 <<< 4) (by decide) rfl (by simp)
  | pubrec id => exact other (PacketType.pubrec.toUint8 <<< 4) (by decide) rfl (by simp)
  | pubrel id => exact other (PacketType.pubrel.toUint8 <<< 4 ||| 0x02) (by decide) rfl (by simp)
  | pubcomp id => exact other (PacketType.pubcomp.toUint8 <<< 4) (by decide) rfl (by simp)
  | pingreq => exact other (PacketType.pingreq.toUint8 <<< 4) (by decide) rfl (by simp)
  | disconnect => exact other (PacketType.disconnect.toUint8 <<< 4) (by decide) rfl (by simp)

end LiteMqtt
