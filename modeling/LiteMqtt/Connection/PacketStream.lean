import LiteMqtt.Codec.Filters
import LiteMqtt.Connection.Bodies
import LiteMqtt.General.PrefixCode

/-!
# A stream of packets

The packets of a client one behind the other, as a peer reads them with the same framing and the same parsers.
Where the stream is cut does not matter, and no two lists of packets make the same stream.
-/

namespace LiteMqtt

/-- What the format asks of a packet. -/
def Packet.Fits : Packet → Prop
  | .connect pkt => pkt.Fits
  | .publish pkt => pkt.Fits
  | .subscribe pkt => pkt.Fits
  | _ => True

/-- What a peer makes of a frame. -/
def Packet.decode (data : Bytes) : Option Packet :=
  match data.head?.map fun byte : UInt8 => PacketType.ofUint8 (byte >>> 4) with
  | some .connect => some (.connect (ConnectPacket.parse data))
  | some .publish => some (.publish (PublishPacket.parse data))
  | some .subscribe =>
      (BufferReader.readFilterList BufferReader.readFilterQos data).map fun l =>
        .subscribe { packetId := l.packetId, topicFilters := l.topicFilters }
  | some .puback => some (.puback (PubackPacket.parse data).packetId)
  | some .pubrec => some (.pubrec (PubrecPacket.parse data).packetId)
  | some .pubrel => some (.pubrel (PubrelPacket.parse data).packetId)
  | some .pubcomp => some (.pubcomp (PubcompPacket.parse data).packetId)
  | some .pingreq => some .pingreq
  | some .disconnect => some .disconnect
  | _ => none

namespace Packet

variable {packet : Packet}

/-! ### One packet -/

theorem frame_of_header (typeByte : UInt8) {header : Bytes} (typed : isValidPacketType (typeByte >>> 4) = true)
    (short : header.length ≤ maxRemainingLength) : ∃ fr : Frame, fr.bytes = frame typeByte header := by
  obtain ⟨field, value, -, few⟩ := digits_field short
  have small : header.length % 2 ^ 32 = header.length := by
    unfold maxRemainingLength at short
    exact Nat.mod_eq_of_lt (by omega)
  refine ⟨⟨typeByte, _, header, typed, field, few, value⟩, ?_⟩
  rw [frame_eq, small]
  rfl

theorem framed (fits : packet.Fits) : ∃ fr : Frame, fr.bytes = packet.serialize := by
  have written : ∀ {typeByte : UInt8} (header : Bytes) {data : Bytes}, data = frame typeByte header →
      isValidPacketType (typeByte >>> 4) = true → header.length ≤ 2 → ∃ fr : Frame, fr.bytes = data :=
    fun _ _ same typed few => same ▸ frame_of_header _ typed (few.trans (by decide))
  have two : ∀ (typeByte : UInt8) (p : UInt16),
      serializeId typeByte p = frame typeByte (BufferWriter.writeUint16 [] p) := by
    intro typeByte p
    have length : (BufferWriter.writeUint16 [] p).length = 2 := rfl
    rw [frame, BufferWriter.writeBytes, BufferWriter.writeRemainingLength, length]
    rfl
  cases packet with
  | connect pkt =>
    rw [serialize, pkt.serialize_eq]
    exact frame_of_header _ rfl (pkt.header_fits fits)
  | publish pkt =>
    rw [serialize, pkt.serialize_eq]
    refine frame_of_header _ ?_ fits.remainingLength
    rw [PublishPacket.flags, publish_type_nibble]
    rfl
  | subscribe pkt =>
    rw [serialize, pkt.serialize_eq]
    exact frame_of_header _ rfl fits.remainingLength
  | puback p => exact written _ (two _ p) rfl (Nat.le_refl 2)
  | pubrec p => exact written _ (two _ p) rfl (Nat.le_refl 2)
  | pubrel p => exact written _ (two _ p) rfl (Nat.le_refl 2)
  | pubcomp p => exact written _ (two _ p) rfl (Nat.le_refl 2)
  | pingreq => exact written [] rfl rfl (Nat.zero_le 2)
  | disconnect => exact written [] rfl rfl (Nat.zero_le 2)

theorem decode_serialize (fits : packet.Fits) : decode packet.serialize = some packet := by
  cases packet with
  | connect pkt =>
    have read : decode pkt.serialize = some (.connect (ConnectPacket.parse pkt.serialize)) := by
      rw [pkt.serialize_eq, frame_eq]
      rfl
    exact read.trans (congrArg (some ∘ Packet.connect) (pkt.parse_serialize fits))
  | publish pkt =>
    have read : decode pkt.serialize = some (.publish (PublishPacket.parse pkt.serialize)) := by
      rw [pkt.serialize_eq, frame_eq, decode, List.cons_append, List.head?_cons, Option.map_some, PublishPacket.flags,
        publish_type_nibble]
      rfl
    exact read.trans (congrArg (some ∘ Packet.publish) (pkt.parse_serialize fits))
  | subscribe pkt =>
    have read : decode pkt.serialize = (BufferReader.readFilterList BufferReader.readFilterQos pkt.serialize).map
        fun l => .subscribe { packetId := l.packetId, topicFilters := l.topicFilters } := by
      rw [pkt.serialize_eq, frame_eq]
      rfl
    exact read.trans (by rw [pkt.read_serialize fits]; rfl)
  | puback p =>
    exact congrArg (fun id => some (Packet.puback id)) (parseId_serializeId (PacketType.puback.toUint8 <<< 4) p)
  | pubrec p =>
    exact congrArg (fun id => some (Packet.pubrec id)) (parseId_serializeId (PacketType.pubrec.toUint8 <<< 4) p)
  | pubrel p =>
    exact congrArg (fun id => some (Packet.pubrel id))
      (parseId_serializeId (PacketType.pubrel.toUint8 <<< 4 ||| 0x02) p)
  | pubcomp p =>
    exact congrArg (fun id => some (Packet.pubcomp id)) (parseId_serializeId (PacketType.pubcomp.toUint8 <<< 4) p)
  | pingreq => rfl
  | disconnect => rfl

end Packet

/-! ### Many packets -/

/-- The packets one behind the other. -/
def stream (packets : List Packet) : Bytes := (packets.map Packet.serialize).flatten

namespace ReadLoop

/-- What the read handler makes of its arguments. -/
def packet? (handed : ErrorCode × Bytes) : Option Packet := if handed.1.isNone then Packet.decode handed.2 else none

/-- What the reader was handed, as packets. -/
def packets (l : ReadLoop) : List Packet := l.delivered.filterMap packet?

variable {ends : AsioError} {l : ReadLoop} {packets : List Packet} {segments : List Bytes} {tail : Bytes}

theorem frames_of_bytes {datas : List Bytes} (framed : ∀ data ∈ datas, ∃ fr : Frame, data = fr.bytes) :
    ∃ frames : List Frame, frames.map Frame.bytes = datas := by
  induction datas with
  | nil => exact ⟨[], rfl⟩
  | cons data datas ih =>
    obtain ⟨fr, rfl⟩ := framed data List.mem_cons_self
    obtain ⟨frames, rest⟩ := ih fun other among => framed other (List.mem_cons_of_mem _ among)
    exact ⟨fr :: frames, by rw [List.map_cons, rest]⟩

theorem framed_packets (fit : ∀ packet ∈ packets, packet.Fits) :
    ∀ data ∈ packets.map Packet.serialize, ∃ fr : Frame, data = fr.bytes := by
  intro data among
  obtain ⟨packet, within, rfl⟩ := List.mem_map.mp among
  obtain ⟨fr, same⟩ := Packet.framed (fit packet within)
  exact ⟨fr, same.symm⟩

theorem decoded_serialized (fit : ∀ packet ∈ packets, packet.Fits) :
    packets.filterMap (Packet.decode ∘ Packet.serialize) = packets :=
  (List.filterMap_congr fun packet among => Packet.decode_serialize (fit packet among)).trans List.filterMap_some

variable (ends) in
/-- A reader of a stream that is cut off gets the packets in front of the cut, and nothing else. -/
theorem packets_of_cut (fit : ∀ packet ∈ packets, packet.Fits) (cut : segments.flatten = stream packets ++ tail)
    (incomplete : Incomplete tail) :
    (∃ k, ∀ j, k ≤ j → ((start segments).after ends j).packets = packets) ∧
      ∀ j, ((start segments).after ends j).packets <+: packets := by
  obtain ⟨frames, same⟩ := frames_of_bytes (framed_packets fit)
  rw [stream, ← same] at cut
  obtain ⟨ec, ⟨k, read⟩, sooner⟩ := delivers_frames frames segments tail ends cut (.inr incomplete)
  have each := congrArg (List.filterMap Packet.decode) same
  rw [List.filterMap_map, List.filterMap_map, decoded_serialized fit] at each
  have handed : (frames.map fun fr : Frame => ((none : ErrorCode), fr.bytes)).filterMap packet? = packets := by
    rw [List.filterMap_map]
    exact each
  have all : ((frames.map fun fr : Frame => ((none : ErrorCode), fr.bytes)) ++ [(some ec, [])]).filterMap packet? =
      packets := by
    rw [List.filterMap_append, handed]
    exact List.append_nil _
  refine ⟨⟨k, fun j late => ?_⟩, fun j => ?_⟩
  · rw [ReadLoop.packets, read j late]
    exact all
  · have part := (sooner j).filterMap packet?
    rw [all] at part
    exact part

end ReadLoop

theorem frames_isCode : PrefixCode.IsCode fun data => ∃ fr : Frame, data = fr.bytes := by
  refine ⟨fun ⟨fr, empty⟩ => absurd empty (List.cons_ne_nil _ _).symm, ?_⟩
  rintro _ _ ⟨fr, rfl⟩ ⟨other, rfl⟩ ⟨rest, longer⟩
  have cut : (ReadLoop.start [other.bytes]).segments.flatten = fr.bytes ++ rest := by
    rw [longer]
    exact List.flatten_singleton
  obtain ⟨k, -, -, delivered⟩ := ReadLoop.frame_read .eof (ReadLoop.start_idle _) cut
  exact (Prod.mk.inj ((framedWhole_bytes other).first .eof delivered)).2

theorem decode_left {packets others : List Packet} (fit : ∀ packet ∈ packets, packet.Fits)
    (othersFit : ∀ packet ∈ others, packet.Fits)
    (begins : packets.map Packet.serialize <+: others.map Packet.serialize) :
    packets <+: others := by
  have decoded := begins.filterMap Packet.decode
  rwa [List.filterMap_map, List.filterMap_map, ReadLoop.decoded_serialized fit,
    ReadLoop.decoded_serialized othersFit] at decoded

/-- Of packets that fit, a stream begins another one exactly if its packets do. So a stream can be read in one
way only. -/
theorem streams_unambiguous {packets others : List Packet} (fit : ∀ packet ∈ packets, packet.Fits)
    (othersFit : ∀ packet ∈ others, packet.Fits) : stream packets <+: stream others ↔ packets <+: others := by
  rw [stream, stream, PrefixCode.flatten_prefix_iff frames_isCode (ReadLoop.framed_packets fit)
    (ReadLoop.framed_packets othersFit)]
  exact ⟨decode_left fit othersFit, fun begins => begins.map Packet.serialize⟩

/-- The packets that a client hands over first: a publish of QoS 1, and a subscribe. -/
def firstRequests : List Packet :=
  [.publish { topicName := [0x74], payload := [0x61], qos := 1, packetId := 2 },
    .subscribe { packetId := 3, topicFilters := [([0x74], 1)] }]

theorem firstRequests_fit : ∀ packet ∈ firstRequests, packet.Fits := by
  simp only [firstRequests, List.forall_mem_cons, List.not_mem_nil, false_implies, implies_true, and_true]
  exact ⟨⟨by decide, by decide, by decide, by decide⟩, by decide, by decide⟩

theorem publish_begins : stream (firstRequests.take 1) <+: stream firstRequests :=
  (streams_unambiguous (fun packet among => firstRequests_fit packet (List.mem_of_mem_take among))
    firstRequests_fit).mpr (List.take_prefix 1 firstRequests)

theorem stream_cut {packets : List Packet} (fit : ∀ packet ∈ packets, packet.Fits) {sent : Bytes}
    (cut : sent <+: stream packets) : ∃ whole tail, whole <+: packets ∧ sent = stream whole ++ tail ∧ Incomplete tail ∧
      ∀ others, others <+: packets → stream others <+: sent → others <+: whole := by
  induction packets generalizing sent with
  | nil =>
    obtain rfl : sent = [] := List.prefix_nil.mp cut
    have some : Packet.Fits .pingreq := trivial
    obtain ⟨fr, -⟩ := Packet.framed some
    refine ⟨[], [], List.prefix_refl _, rfl, ⟨fr, fr.bytes, by simp [Frame.bytes], rfl⟩, fun others few _ => few⟩
  | cons packet packets ih =>
    have rest : ∀ other ∈ packets, other.Fits := fun other among => fit other (List.mem_cons_of_mem packet among)
    have first : stream (packet :: packets) = packet.serialize ++ stream packets := rfl
    rw [first] at cut
    by_cases through : packet.serialize <+: sent
    · obtain ⟨more, rfl⟩ := through
      obtain ⟨whole, tail, few, split, incomplete, most⟩ := ih rest ((List.prefix_append_right_inj _).mp cut)
      refine ⟨packet :: whole, tail, (List.prefix_cons_inj packet).mpr few, ?_, incomplete,
        fun others among within => ?_⟩
      · rw [split, ← List.append_assoc]
        rfl
      · cases others with
        | nil => exact List.nil_prefix
        | cons other others =>
          obtain ⟨rfl, later⟩ := List.cons_prefix_cons.mp among
          have within : other.serialize ++ stream others <+: other.serialize ++ more := within
          exact (List.prefix_cons_inj other).mpr (most others later ((List.prefix_append_right_inj _).mp within))
    · obtain ⟨fr, same⟩ := Packet.framed (fit packet List.mem_cons_self)
      have short : sent <+: packet.serialize :=
        (List.prefix_or_prefix_of_prefix cut (List.prefix_append _ _)).resolve_right through
      obtain ⟨missing, completes⟩ := short
      refine ⟨[], sent, List.nil_prefix, rfl, ⟨fr, missing, ?_, completes.trans same.symm⟩,
        fun others among within => ?_⟩
      · rintro rfl
        exact through ⟨[], by rw [List.append_nil, ← completes, List.append_nil]⟩
      · cases others with
        | nil => exact List.nil_prefix
        | cons other others =>
          obtain ⟨rfl, -⟩ := List.cons_prefix_cons.mp among
          exact absurd ((List.prefix_append other.serialize (stream others)).trans within) through

end LiteMqtt
