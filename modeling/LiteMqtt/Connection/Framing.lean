import LiteMqtt.Codec.PacketType

/-!
# Inbound framing

The completion handlers of `read_fixed_header`, `read_remaining_length_step` and
`read_packet_body`. Each takes the bytes its `asio::async_read` delivered and says
what it does next: start another read, or post the caller's handler.
-/

namespace LiteMqtt

/-- The error codes the library names, and those of the operating system. -/
inductive AsioError where
  | operationAborted | badDescriptor | invalidArgument | messageSize | eof
  | system (code : Nat)
  deriving DecidableEq, Repr

/-- `asio::error_code`. It tests as an error exactly when it is not `none`. -/
abbrev ErrorCode := Option AsioError

structure RemainingLengthState where
  byteBuffer : Bytes := [0, 0, 0, 0]
  bytesRead : Nat := 0
  multiplier : Nat := 1
  remainingLength : Nat := 0
  deriving DecidableEq, Repr

/-- The completion handler an outstanding read will run. -/
inductive ReadPhase where
  | fixedHeader
  | lengthByte (st : RemainingLengthState)
  | body (header : Bytes)
  deriving DecidableEq, Repr

/-- `fixed_header_`, `read_header_` and `reading_depth_`. -/
structure ReadState where
  fixedHeader : Bytes := [0, 0]
  readHeader : Bytes := []
  readingDepth : Nat := 0
  deriving DecidableEq, Repr

inductive ReadOutcome where
  | read (phase : ReadPhase) (count : Nat)
  | post (ec : ErrorCode) (packet : Bytes)
  deriving DecidableEq, Repr

namespace ReadState

/-- A second call while a packet is being read returns at once, and its handler is dropped. -/
def readFixedHeader (r : ReadState) : ReadState × Option ReadOutcome :=
  if r.readingDepth > 0 then (r, none)
  else ({ r with readingDepth := r.readingDepth + 1 }, some (.read .fixedHeader 2))

def asyncReadPacket (r : ReadState) : ReadState × Option ReadOutcome := r.readFixedHeader

def readPacketBody (r : ReadState) (remainingLength : Nat) : ReadState × ReadOutcome :=
  if remainingLength = 0 then ({ r with readingDepth := 0 }, .post none r.readHeader)
  else (r, .read (.body r.readHeader) remainingLength)

/-- Reads the next length byte into `byte_buffer[bytes_read]`. -/
def readRemainingLengthStep (r : ReadState) (st : RemainingLengthState) : ReadState × ReadOutcome :=
  (r, .read (.lengthByte st) 1)

def readRemainingLength (r : ReadState) (firstByte : UInt8) : ReadState × ReadOutcome :=
  let st : RemainingLengthState := {}
  let st := { st with
    byteBuffer := st.byteBuffer.set 0 firstByte, bytesRead := 1
    remainingLength := (firstByte &&& 0x7F).toNat * st.multiplier }
  let st := { st with multiplier := 128 }
  if firstByte &&& 0x80 ≠ 0 then r.readRemainingLengthStep st else r.readPacketBody st.remainingLength

/-- A read that failed, in any phase. -/
def readFailed (r : ReadState) (ec : AsioError) : ReadState × ReadOutcome :=
  ({ r with readingDepth := 0 }, .post (some ec) [])

def onFixedHeader (r : ReadState) (bytes : Bytes) : ReadState × ReadOutcome :=
  let r := { r with fixedHeader := bytes }
  let packetTypeByte : UInt8 := r.fixedHeader.getD 0 0
  if !isValidPacketType (packetTypeByte >>> 4) then r.readFailed .invalidArgument
  else
    let r := { r with readHeader := [r.fixedHeader.getD 0 0, r.fixedHeader.getD 1 0] }
    r.readRemainingLength (r.fixedHeader.getD 1 0)

/-- With `bytes_read` at four the store and the load fall outside `byte_buffer`. Here
the store is dropped and the load gives zero; the outcome is the error either way. -/
def onLengthByte (r : ReadState) (st : RemainingLengthState) (bytes : Bytes) :
    ReadState × ReadOutcome :=
  let st := { st with byteBuffer := st.byteBuffer.set st.bytesRead (bytes.getD 0 0) }
  let b : UInt8 := st.byteBuffer.getD st.bytesRead 0
  let st := { st with
    bytesRead := st.bytesRead + 1
    remainingLength := st.remainingLength + (b &&& 0x7F).toNat * st.multiplier
    multiplier := st.multiplier * 128 }
  if st.bytesRead > 4 then r.readFailed .messageSize
  else
    let r := { r with readHeader := r.readHeader ++ [b] }
    if b &&& 0x80 ≠ 0 then r.readRemainingLengthStep st else r.readPacketBody st.remainingLength

def onBody (r : ReadState) (header bytes : Bytes) : ReadState × ReadOutcome :=
  ({ r with readingDepth := 0 }, .post none (header ++ bytes))

/-- The completion of one `asio::async_read`. -/
def onRead (r : ReadState) (phase : ReadPhase) (result : Except AsioError Bytes) :
    ReadState × ReadOutcome :=
  match result, phase with
  | .error ec, _ => r.readFailed ec
  | .ok bytes, .fixedHeader => r.onFixedHeader bytes
  | .ok bytes, .lengthByte st => r.onLengthByte st bytes
  | .ok bytes, .body header => r.onBody header bytes

end ReadState

end LiteMqtt
