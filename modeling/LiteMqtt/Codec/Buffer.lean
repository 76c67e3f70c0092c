import Mathlib.Algebra.GroupWithZero.Nat
import Mathlib.Data.List.Basic

/-!
# Byte buffers

`BufferWriter` operations append to a byte list. `BufferReader` keeps a cursor
into a byte list; a failed read leaves the value it was given, so a read returns
`none` and the reader the source is left with.
-/

namespace LiteMqtt

abbrev Bytes := List UInt8

/-! ### buffer_writer -/

namespace BufferWriter

def writeUint8 (buf : Bytes) (value : UInt8) : Bytes := buf ++ [value]

def writeUint16 (buf : Bytes) (value : UInt16) : Bytes :=
  buf ++ [(value >>> 8).toUInt8, value.toUInt8]

/-- The length is cast to `uint16_t` before it is written. -/
def writeString (buf : Bytes) (str : Bytes) : Bytes :=
  writeUint16 buf (UInt16.ofNat str.length) ++ str

def writeBytes (buf : Bytes) (data : Bytes) : Bytes := buf ++ data

/-- The `do` loop on a `uint32_t`. Five rounds suffice because `2 ^ 32 < 128 ^ 5`. -/
def remainingLengthDigits : Nat → Nat → Bytes
  | 0, _ => []
  | rounds + 1, val =>
      let digit := UInt8.ofNat (val % 128)
      let val := val / 128
      if val > 0 then (digit ||| 0x80) :: remainingLengthDigits rounds val else [digit]

def writeRemainingLength (buf : Bytes) (length : Nat) : Bytes :=
  buf ++ remainingLengthDigits 5 (length % 2 ^ 32)

end BufferWriter

/-! ### buffer_reader -/

structure BufferReader where
  buf : Bytes
  pos : Nat := 0

namespace BufferReader

def readUint8 (r : BufferReader) : Option UInt8 × BufferReader :=
  match r.buf[r.pos]? with
  | none => (none, r)
  | some value => (some value, { r with pos := r.pos + 1 })

def readUint16 (r : BufferReader) : Option UInt16 × BufferReader :=
  if r.pos + 2 > r.buf.length then (none, r)
  else
    let high := r.buf.getD r.pos 0
    let low := r.buf.getD (r.pos + 1) 0
    (some (high.toUInt16 <<< 8 ||| low.toUInt16), { r with pos := r.pos + 2 })

/-- The two length bytes stay consumed when the body does not fit. -/
def readString (r : BufferReader) : Option Bytes × BufferReader :=
  match r.readUint16 with
  | (none, r) => (none, r)
  | (some len, r) =>
      if len = 0 then (some [], r)
      else if r.pos + len.toNat > r.buf.length then (none, r)
      else (some ((r.buf.drop r.pos).take len.toNat), { r with pos := r.pos + len.toNat })

def readBytes (r : BufferReader) (len : Nat) : Option Bytes × BufferReader :=
  if r.pos + len > r.buf.length then (none, r)
  else (some ((r.buf.drop r.pos).take len), { r with pos := r.pos + len })

/-- The `do` loop. The fifth digit is consumed before the count is tested, so
five rounds suffice. `value` is what the caller's variable holds on return. -/
def remainingLengthLoop : Nat → BufferReader → Nat → Nat → Nat → Bool × Nat × BufferReader
  | 0, r, value, _, _ => (false, value, r)
  | rounds + 1, r, value, multiplier, bytesRead =>
      match r.readUint8 with
      | (none, r) => (false, value, r)
      | (some digit, r) =>
          if bytesRead + 1 > 4 then (false, value, r)
          else
            let value := value + (digit &&& 0x7F).toNat * multiplier
            if digit &&& 0x80 ≠ 0 then
              remainingLengthLoop rounds r value (multiplier * 128) (bytesRead + 1)
            else (true, value, r)

def readRemainingLength (r : BufferReader) : Bool × Nat × BufferReader :=
  remainingLengthLoop 5 r 0 1 0

def empty (r : BufferReader) : Bool := r.pos ≥ r.buf.length

def remaining (r : BufferReader) : Nat := r.buf.length - r.pos

end BufferReader

end LiteMqtt
