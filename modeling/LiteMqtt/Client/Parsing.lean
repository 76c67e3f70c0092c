import LiteMqtt.Client.Model
import LiteMqtt.General.Traced

/-!
# Parsers on any bytes

The parsers go on reading after a read that failed. Here they are run with a trace of what they do to the
buffer: every place they read is in it, and the cursor never leaves it.
-/

namespace LiteMqtt

/-- What a parser does to its buffer. -/
inductive Touch where
  /-- `buf_[place]` is read, or its address taken. -/
  | index (place : Nat)
  /-- Where the cursor stands after a read. -/
  | cursor (pos : Nat)
  /-- `buf_.size() - pos_` is computed. -/
  | remaining (pos : Nat)
  | copy (reserved copied : Nat)
  /-- A loop is not over after the rounds it was given. -/
  | exhausted
  deriving DecidableEq, Repr

/-- Nothing is done outside a buffer of that size. -/
def Touch.Within (size : Nat) : Touch → Prop
  | .index place => place < size
  | .cursor pos => pos ≤ size
  | .remaining pos => pos ≤ size
  | .copy reserved copied => copied = reserved
  | .exhausted => False

abbrev Reading := Traced BufferReader Touch

namespace Reading

open Traced

/-! ### `buffer_reader` -/

def readUint8 : Reading (Option UInt8) := ⟨fun r =>
  (r.readUint8, if r.pos ≥ r.buf.length then [.cursor r.pos] else [.index r.pos, .cursor (r.pos + 1)])⟩

def readUint16 : Reading (Option UInt16) := ⟨fun r =>
  (r.readUint16, if r.pos + 2 > r.buf.length then [.cursor r.pos]
    else [.index r.pos, .index (r.pos + 1), .cursor (r.pos + 2)])⟩

/-- The address of the first byte is taken, and all of them are copied. -/
def readBytes (len : Nat) : Reading (Option Bytes) := ⟨fun r =>
  (r.readBytes len, if r.pos + len > r.buf.length then [.cursor r.pos]
    else .index r.pos :: ((List.range len).map fun i => .index (r.pos + i)) ++ [.cursor (r.pos + len)])⟩

def readString : Reading (Option Bytes) := do
  match ← readUint16 with
  | none => pure none
  | some len => if len = 0 then pure (some []) else readBytes len.toNat

def remainingLengthLoop : Nat → Nat → Nat → Nat → Reading (Bool × Nat)
  | 0, value, _, _ => do
      emit .exhausted
      pure (false, value)
  | rounds + 1, value, multiplier, bytesRead => do
      match ← readUint8 with
      | none => pure (false, value)
      | some digit =>
          if bytesRead + 1 > 4 then pure (false, value)
          else
            let value := value + (digit &&& 0x7F).toNat * multiplier
            if digit &&& 0x80 ≠ 0 then remainingLengthLoop rounds value (multiplier * 128) (bytesRead + 1)
            else pure (true, value)

def readRemainingLength : Reading (Bool × Nat) := remainingLengthLoop 5 0 1 0

def empty : Reading Bool := ⟨fun r => ((r.empty, r), [])⟩

def remaining : Reading Nat := ⟨fun r => ((r.remaining, r), [.remaining r.pos])⟩

/-! ### The parsers -/

/-- Type byte and remaining length. -/
def fixedHeader : Reading UInt8 := do
  let byte ← readUint8
  let _ ← readRemainingLength
  pure (byte.getD 0)

/-- A field that is read only if it is announced. -/
def readIf {α : Type} (announced : Bool) (read : Reading (Option α)) : Reading (Option α) :=
  if announced then read else pure none

def connect : Reading ConnectPacket := do
  let _ ← fixedHeader
  let _ ← readString
  let _ ← readUint8
  let connectFlags ← readUint8
  let connectFlags := connectFlags.getD 0
  let keepAliveSeconds ← readUint16
  let clientId ← readString
  let username ← readIf (connectFlags &&& 0x80 != 0) readString
  let password ← readIf (connectFlags &&& 0x40 != 0) readString
  pure {
    clientId := clientId.getD [], keepAliveSeconds := keepAliveSeconds.getD 0
    cleanSession := connectFlags &&& 0x02 ≠ 0
    username := username.getD [], password := password.getD [] }

def connack : Reading ConnackPacket := do
  let _ ← fixedHeader
  let sessionPresent ← readUint8
  let returnCode ← readUint8
  pure { sessionPresent := sessionPresent.getD 0, returnCode := returnCode.getD 0 }

/-- `payload` is resized to what remains, and as much is read into it. -/
def readPayload : Reading (Option Bytes) := do
  let len ← remaining
  if len > 0 then
    let payload ← readBytes len
    emit (.copy len (payload.getD []).length)
    pure payload
  else pure none

def publish : Reading PublishPacket := do
  let typeByte ← fixedHeader
  let qos := (typeByte >>> 1) &&& 0x03
  let topicName ← readString
  let packetId ← readIf (qos > 0) readUint16
  let payload ← readPayload
  pure {
    packetId := packetId.getD 0, qos, dup := (typeByte >>> 3) &&& 0x01 ≠ 0
    topicName := topicName.getD [], payload := payload.getD [] }

/-- The `while (!reader.empty())` loop. -/
def returnCodesLoop : Nat → Reading (List UInt8)
  | 0 => do
      if ← empty then pure []
      else
        emit .exhausted
        pure []
  | rounds + 1 => do
      if ← empty then pure []
      else
        let rc ← readUint8
        let rest ← returnCodesLoop rounds
        pure (rc.getD 0 :: rest)

def returnCodes : Reading (List UInt8) := ⟨fun r => (returnCodesLoop r.remaining).run r⟩

def suback : Reading SubackPacket := do
  let _ ← fixedHeader
  let packetId ← readUint16
  let returnCodes ← returnCodes
  pure { packetId := packetId.getD 0, returnCodes }

/-- PUBACK, PUBREC, PUBREL, PUBCOMP and UNSUBACK. -/
def packetId : Reading UInt16 := do
  let _ ← fixedHeader
  let packetId ← readUint16
  pure (packetId.getD 0)

/-- `handle_packet` up to its `switch`. -/
def dispatch (data : Bytes) : Reading (Option PacketType) := do
  if data.isEmpty then pure none
  else
    let byte ← readUint8
    pure (some (PacketType.ofUint8 (byte.getD 0 >>> 4)))

/-! ### The trace changes nothing -/

theorem readUint8_value (r : BufferReader) : (readUint8.run r).1 = r.readUint8 := rfl

theorem readUint16_value (r : BufferReader) : (readUint16.run r).1 = r.readUint16 := rfl

theorem readString_value (r : BufferReader) : (readString.run r).1 = r.readString := by
  rw [readString, run_bind, BufferReader.readString, readUint16_value]
  rcases r.readUint16 with ⟨_ | len, r'⟩
  · rfl
  · dsimp only
    split
    · rfl
    · rfl

theorem remainingLengthLoop_value (rounds value multiplier bytesRead : Nat) (r : BufferReader) :
    ((remainingLengthLoop rounds value multiplier bytesRead).run r).1 =
      let out := r.remainingLengthLoop rounds value multiplier bytesRead
      ((out.1, out.2.1), out.2.2) := by
  induction rounds generalizing value multiplier bytesRead r with
  | zero => rfl
  | succ rounds ih =>
    rw [remainingLengthLoop, run_bind, BufferReader.remainingLengthLoop, readUint8_value]
    rcases r.readUint8 with ⟨_ | digit, r'⟩
    · rfl
    dsimp only
    split
    · rfl
    split
    · exact ih _ _ _ r'
    · rfl

theorem fixedHeader_value (data : Bytes) : (fixedHeader.run { buf := data }).1 = afterFixedHeader data := by
  have length := remainingLengthLoop_value 5 0 1 0 ({ buf := data } : BufferReader).readUint8.2
  simp only [fixedHeader, run_bind, readRemainingLength, run_pure, afterFixedHeader]
  have reader := congrArg Prod.snd length
  exact Prod.ext rfl reader

theorem readIf_value {α : Type} (announced : Bool) (read : Reading (Option α)) (r : BufferReader) :
    ((readIf announced read).run r).1 = if announced then (read.run r).1 else (none, r) := by
  unfold readIf
  split <;> rfl

theorem connect_value (data : Bytes) : (connect.run { buf := data }).1.1 = ConnectPacket.parse data := by
  simp only [connect, run_bind, fixedHeader_value, readString_value, readUint8_value, readUint16_value, readIf_value,
    run_pure, bne_iff_ne, ConnectPacket.parse]
  rfl

theorem connack_value (data : Bytes) : (connack.run { buf := data }).1.1 = ConnackPacket.parse data := by
  simp only [connack, run_bind, fixedHeader_value, run_pure]
  rfl

theorem readPayload_value (r : BufferReader) :
    (readPayload.run r).1 = if r.remaining > 0 then r.readBytes r.remaining else (none, r) := by
  rw [readPayload, run_bind]
  have len : (remaining.run r).1 = (r.remaining, r) := rfl
  rw [len]
  dsimp only
  split <;> rfl

theorem publish_value (data : Bytes) : (publish.run { buf := data }).1.1 = PublishPacket.parse data := by
  simp only [publish, run_bind, fixedHeader_value, readString_value, readUint16_value, readIf_value, readPayload_value,
    run_pure, decide_eq_true_eq, PublishPacket.parse]

theorem returnCodesLoop_value (rounds : Nat) (r : BufferReader) :
    ((returnCodesLoop rounds).run r).1.1 = readReturnCodes rounds r := by
  induction rounds generalizing r with
  | zero =>
    rw [returnCodesLoop, run_bind]
    split <;> rfl
  | succ rounds ih =>
    rw [returnCodesLoop, run_bind, readReturnCodes]
    have looked : (empty.run r).1 = (r.empty, r) := rfl
    rw [looked]
    dsimp only
    split
    · rfl
    · simp only [run_bind, run_pure]
      rw [ih]
      rfl

theorem suback_value (data : Bytes) : (suback.run { buf := data }).1.1 = SubackPacket.parse data := by
  simp only [suback, run_bind, fixedHeader_value, returnCodes, returnCodesLoop_value, run_pure]
  rfl

theorem packetId_value (data : Bytes) : (packetId.run { buf := data }).1.1 = parseId data := by
  simp only [packetId, run_bind, fixedHeader_value, run_pure]
  rfl

/-! ### Every access is inside -/

/-- The reader of a buffer of that size, its cursor inside. -/
def Inside (size : Nat) (r : BufferReader) : Prop := r.buf.length = size ∧ r.pos ≤ size

abbrev Safe (m : Reading α) : Prop := ∀ size, Keeps (Inside size) (Touch.Within size) m

theorem safe_readUint8 : Safe readUint8 := by
  rintro size r ⟨whole, inside⟩
  by_cases ended : r.pos ≥ r.buf.length
  · have none : r.readUint8 = (none, r) := by
      simp [BufferReader.readUint8, List.getElem?_eq_none_iff.mpr ended]
    simp only [readUint8, none, if_pos ended]
    exact ⟨⟨whole, inside⟩, by simp [Touch.Within, inside]⟩
  · have some : r.readUint8 = (some r.buf[r.pos], { r with pos := r.pos + 1 }) := by
      simp [BufferReader.readUint8, List.getElem?_eq_getElem (by omega : r.pos < r.buf.length)]
    simp only [readUint8, some, if_neg ended]
    refine ⟨⟨whole, by dsimp only; omega⟩, ?_⟩
    simp only [List.forall_mem_cons, List.not_mem_nil, false_implies, implies_true, and_true, Touch.Within]
    omega

theorem safe_readUint16 : Safe readUint16 := by
  rintro size r ⟨whole, inside⟩
  simp only [readUint16, BufferReader.readUint16]
  split
  · exact ⟨⟨whole, inside⟩, by simp [Touch.Within, inside]⟩
  · refine ⟨⟨whole, by dsimp only; omega⟩, ?_⟩
    simp only [List.forall_mem_cons, List.not_mem_nil, false_implies, implies_true, and_true, Touch.Within]
    omega

theorem safe_readBytes {len : Nat} (some : 0 < len) : Safe (readBytes len) := by
  rintro size r ⟨whole, inside⟩
  simp only [readBytes, BufferReader.readBytes]
  split
  · exact ⟨⟨whole, inside⟩, by simp [Touch.Within, inside]⟩
  · refine ⟨⟨whole, by dsimp only; omega⟩, ?_⟩
    intro touch among
    rw [List.cons_append, List.mem_cons, List.mem_append, List.mem_map, List.mem_singleton] at among
    rcases among with rfl | ⟨i, member, rfl⟩ | rfl
    · show r.pos < size
      omega
    · have below := List.mem_range.mp member
      show r.pos + i < size
      omega
    · show r.pos + len ≤ size
      omega

theorem safe_readString : Safe readString := by
  intro size
  refine keeps_bind (safe_readUint16 size) fun word => ?_
  cases word with
  | none => exact keeps_pure none
  | some len =>
    dsimp only
    by_cases zero : len = 0
    · rw [if_pos zero]
      exact keeps_pure _
    · rw [if_neg zero]
      refine safe_readBytes ?_ size
      have nonzero : len.toNat ≠ 0 := fun none => zero (UInt16.toNat_inj.mp none)
      omega

/-- At most four digits are counted, so five rounds are enough. -/
theorem safe_remainingLengthLoop (rounds value multiplier bytesRead : Nat) (count : rounds + bytesRead = 5)
    (few : bytesRead ≤ 4) : Safe (remainingLengthLoop rounds value multiplier bytesRead) := by
  intro size
  induction rounds generalizing value multiplier bytesRead with
  | zero => omega
  | succ rounds ih =>
    refine keeps_bind (safe_readUint8 size) fun digit => ?_
    cases digit with
    | none => exact keeps_pure _
    | some digit =>
      dsimp only
      by_cases many : bytesRead + 1 > 4
      · rw [if_pos many]
        exact keeps_pure _
      · rw [if_neg many]
        exact keeps_ite (ih _ _ _ (by omega) (by omega)) (keeps_pure _)

theorem safe_readRemainingLength : Safe readRemainingLength :=
  safe_remainingLengthLoop 5 0 1 0 rfl (Nat.zero_le 4)

theorem safe_fixedHeader : Safe fixedHeader := fun size =>
  keeps_bind (safe_readUint8 size) fun _ => keeps_bind (safe_readRemainingLength size) fun _ => keeps_pure _

theorem safe_readIf {α : Type} (announced : Bool) {read : Reading (Option α)} (safe : Safe read) :
    Safe (readIf announced read) := fun size => keeps_ite (safe size) (keeps_pure none)

theorem safe_connect : Safe connect := by
  intro size
  refine keeps_bind (safe_fixedHeader size) fun _ => ?_
  refine keeps_bind (safe_readString size) fun _ => ?_
  refine keeps_bind (safe_readUint8 size) fun _ => ?_
  refine keeps_bind (safe_readUint8 size) fun _ => ?_
  refine keeps_bind (safe_readUint16 size) fun _ => ?_
  refine keeps_bind (safe_readString size) fun _ => ?_
  refine keeps_bind (safe_readIf _ safe_readString size) fun _ => ?_
  refine keeps_bind (safe_readIf _ safe_readString size) fun _ => ?_
  exact keeps_pure _

theorem safe_connack : Safe connack := fun size =>
  keeps_bind (safe_fixedHeader size) fun _ => keeps_bind (safe_readUint8 size) fun _ =>
    keeps_bind (safe_readUint8 size) fun _ => keeps_pure _

/-- What remains fits, so all that was reserved is read. -/
theorem safe_readPayload : Safe readPayload := by
  rintro size r ⟨whole, inside⟩
  have len : remaining.run r = ((r.remaining, r), [.remaining r.pos]) := rfl
  have nothing : ∀ touch ∈ [Touch.remaining r.pos], touch.Within size := by simp [Touch.Within, inside]
  rw [readPayload, run_bind, len]
  dsimp only
  by_cases left : r.remaining > 0
  · rw [if_pos left]
    obtain ⟨after, touches⟩ := safe_readBytes left size r ⟨whole, inside⟩
    have fits : ¬ r.pos + r.remaining > r.buf.length := by
      unfold BufferReader.remaining
      omega
    have read : ((readBytes r.remaining).run r).1.1 = some ((r.buf.drop r.pos).take r.remaining) := by
      simp only [readBytes, BufferReader.readBytes, if_neg fits]
    have copied : ((r.buf.drop r.pos).take r.remaining).length = r.remaining := by
      rw [List.length_take, List.length_drop]
      exact Nat.min_self _
    rw [run_bind, run_bind, read]
    refine ⟨after, fun touch among => ?_⟩
    simp only [List.mem_append, emit, run_pure, List.append_nil, List.mem_singleton] at among
    rcases among with rfl | early | rfl
    · exact inside
    · exact touches touch early
    · exact copied
  · rw [if_neg left]
    exact ⟨⟨whole, inside⟩, by simpa [run_pure] using nothing⟩

theorem safe_publish : Safe publish := by
  intro size
  refine keeps_bind (safe_fixedHeader size) fun _ => ?_
  refine keeps_bind (safe_readString size) fun _ => ?_
  refine keeps_bind (safe_readIf _ safe_readUint16 size) fun _ => ?_
  exact keeps_bind (safe_readPayload size) fun _ => keeps_pure _

/-- Each round takes a byte. -/
theorem returnCodesLoop_inside (size rounds : Nat) (r : BufferReader) (inside : Inside size r)
    (enough : size - r.pos ≤ rounds) :
    Inside size ((returnCodesLoop rounds).run r).1.2 ∧
      ∀ touch ∈ ((returnCodesLoop rounds).run r).2, touch.Within size := by
  obtain ⟨whole, within⟩ := inside
  have looked : empty.run r = ((r.empty, r), []) := rfl
  induction rounds generalizing r with
  | zero =>
    have ended : r.empty = true := decide_eq_true (by omega)
    rw [returnCodesLoop, run_bind, looked]
    dsimp only
    rw [if_pos ended]
    exact ⟨⟨whole, within⟩, nofun⟩
  | succ rounds ih =>
    rw [returnCodesLoop, run_bind, looked]
    dsimp only
    by_cases ended : r.empty = true
    · rw [if_pos ended]
      exact ⟨⟨whole, within⟩, nofun⟩
    · rw [if_neg ended, run_bind, run_bind]
      have more : r.pos < r.buf.length := by simpa [BufferReader.empty] using ended
      obtain ⟨⟨whole', within'⟩, touches⟩ := safe_readUint8 size r ⟨whole, within⟩
      have next : (readUint8.run r).1.2.pos = r.pos + 1 := by
        simp [readUint8, BufferReader.readUint8, List.getElem?_eq_getElem more]
      obtain ⟨last, later⟩ := ih (readUint8.run r).1.2 (by omega) whole' within' rfl
      refine ⟨last, fun touch among => ?_⟩
      simp only [List.nil_append, List.mem_append, run_pure, List.append_nil] at among
      rcases among with early | late
      · exact touches touch early
      · exact later touch late

theorem safe_returnCodes : Safe returnCodes := by
  intro size r inside
  refine returnCodesLoop_inside size r.remaining r inside ?_
  rw [BufferReader.remaining, inside.1]

theorem safe_suback : Safe suback := fun size =>
  keeps_bind (safe_fixedHeader size) fun _ => keeps_bind (safe_readUint16 size) fun _ =>
    keeps_bind (safe_returnCodes size) fun _ => keeps_pure _

theorem safe_packetId : Safe packetId := fun size =>
  keeps_bind (safe_fixedHeader size) fun _ => keeps_bind (safe_readUint16 size) fun _ => keeps_pure _

theorem safe_dispatch (data : Bytes) : Safe (dispatch data) := fun size =>
  keeps_ite (keeps_pure none) (keeps_bind (safe_readUint8 size) fun _ => keeps_pure _)

/-- On these bytes the parser gives this value, and does nothing outside the buffer. -/
structure Parses {α : Type} (data : Bytes) (parser : Reading α) (value : α) : Prop where
  value : (parser.run { buf := data }).1.1 = value
  within : ∀ touch ∈ (parser.run { buf := data }).2, touch.Within data.length

theorem Safe.parses {α : Type} {data : Bytes} {parser : Reading α} {value : α} (safe : Safe parser)
    (same : (parser.run { buf := data }).1.1 = value) : Parses data parser value :=
  ⟨same, (safe data.length { buf := data } ⟨rfl, Nat.zero_le _⟩).2⟩

end Reading

/-- The type that `handle_packet` switches on. -/
def switchType (data : Bytes) : Option PacketType := data.head?.map fun byte : UInt8 => PacketType.ofUint8 (byte >>> 4)

/-- The cases of that `switch`. -/
def Sys.branch (s : Sys) (attempt : Nat) (data : Bytes) : Option PacketType → Sys
  | some .connack => s.handleConnack data
  | some .publish => s.handlePublish data
  | some .suback => s.handleSuback data
  | some .puback => s.handlePuback data
  | some .pubrec => s.handlePubrec data
  | some .pubrel => s.handlePubrel data
  | some .pubcomp => s.handlePubcomp data
  | some .pingresp => s.cancelPingTimer.schedulePingreq attempt
  | _ => s

theorem Sys.handlePacket_dispatched (s : Sys) (attempt : Nat) (data : Bytes) :
    s.handlePacket attempt data = s.branch attempt data (switchType data) := by
  cases data with
  | nil => rfl
  | cons byte rest =>
    unfold switchType handlePacket
    simp only [List.head?_cons, Option.map_some]
    cases PacketType.ofUint8 (byte >>> 4) <;> rfl

open Reading in
/-- Whatever the bytes: every parser, and `handle_packet` up to its `switch`, comes to an end, keeps the cursor
in the buffer, reads inside it, and copies into the payload as many bytes as it reserved. What the `switch` does is
decided by the type that was read. -/
theorem parsers_safe (data : Bytes) :
    Parses data connect (ConnectPacket.parse data) ∧ Parses data connack (ConnackPacket.parse data) ∧
    Parses data publish (PublishPacket.parse data) ∧ Parses data suback (SubackPacket.parse data) ∧
    Parses data packetId (PubackPacket.parse data).packetId ∧ Parses data packetId (PubrecPacket.parse data).packetId ∧
    Parses data packetId (PubrelPacket.parse data).packetId ∧ Parses data packetId (PubcompPacket.parse data).packetId ∧
    Parses data packetId (UnsubackPacket.parse data).packetId ∧
    Parses data (dispatch data) (switchType data) ∧
    ∀ (s : Sys) (attempt : Nat), s.handlePacket attempt data = s.branch attempt data (switchType data) := by
  have named := safe_packetId.parses (packetId_value data)
  refine ⟨safe_connect.parses (connect_value data), safe_connack.parses (connack_value data),
    safe_publish.parses (publish_value data), safe_suback.parses (suback_value data), named, named, named, named,
      named, ?_,
    fun s attempt => s.handlePacket_dispatched attempt data⟩
  refine (safe_dispatch data).parses ?_
  cases data <;> rfl

end LiteMqtt
