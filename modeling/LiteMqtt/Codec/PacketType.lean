import LiteMqtt.Codec.Buffer

/-! Control packet types, the high nibble of a frame's first byte. -/

namespace LiteMqtt

inductive PacketType where
  | reserved0 | connect | connack | publish | puback | pubrec | pubrel | pubcomp
  | subscribe | suback | unsubscribe | unsuback | pingreq | pingresp | disconnect | reserved15
  deriving DecidableEq, Repr

namespace PacketType

def toUint8 : PacketType → UInt8
  | reserved0 => 0 | connect => 1 | connack => 2 | publish => 3
  | puback => 4 | pubrec => 5 | pubrel => 6 | pubcomp => 7
  | subscribe => 8 | suback => 9 | unsubscribe => 10 | unsuback => 11
  | pingreq => 12 | pingresp => 13 | disconnect => 14 | reserved15 => 15

/-- Bytes above 15 name no enumerator; they do not occur after a shift by four. -/
def ofUint8 (byte : UInt8) : PacketType :=
  match byte.toNat with
  | 1 => connect | 2 => connack | 3 => publish | 4 => puback | 5 => pubrec | 6 => pubrel
  | 7 => pubcomp | 8 => subscribe | 9 => suback | 10 => unsubscribe | 11 => unsuback
  | 12 => pingreq | 13 => pingresp | 14 => disconnect | 15 => reserved15 | _ => reserved0

end PacketType

def isValidPacketType (byte : UInt8) : Bool := 1 ≤ byte && byte ≤ 14 && byte != 0 && byte != 15

end LiteMqtt
