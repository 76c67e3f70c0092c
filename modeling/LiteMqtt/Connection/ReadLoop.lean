import LiteMqtt.Codec.RemainingLength
import LiteMqtt.Connection.Framing
import LiteMqtt.General.Segments

/-!
# Repeated `async_read_packet`

A reader that asks for the next packet whenever one was delivered without error, run
over an inbound stream that arrives in arbitrary segments. Framing undoes the
concatenation of the frames, whatever the segments are.
-/

namespace LiteMqtt

/-! ### Frames -/

/-- A frame whose length field has one to four bytes, minimal or not, and announces its body. -/
structure Frame where
  first : UInt8
  lengthField : Bytes
  body : Bytes
  typed : isValidPacketType (first >>> 4) = true
  field : isLengthField lengthField = true
  short : lengthField.length ≤ 4
  exact : lengthValue lengthField = body.length

def Frame.bytes (fr : Frame) : Bytes := fr.first :: fr.lengthField ++ fr.body

/-- No frame can start like this: a reserved type nibble, or four continuation bits. -/
def Rejected (tail : Bytes) : Prop :=
  (∃ first rest, tail = first :: rest ∧ isValidPacketType (first >>> 4) = false) ∨
  ∃ first digits rest, tail = first :: digits ++ rest ∧ digits.length = 4 ∧ digits.all continues = true

/-- The stream ends before the next frame does, perhaps before its first byte. -/
def Incomplete (tail : Bytes) : Prop := ∃ fr : Frame, ∃ missing, missing ≠ [] ∧ tail ++ missing = fr.bytes

/-! ### The reader -/

structure ReadLoop where
  r : ReadState := {}
  /-- The outstanding `asio::async_read`: what runs on completion, and how many bytes it wants. -/
  waiting : Option (ReadPhase × Nat) := none
  segments : List Bytes
  /-- The arguments of each call of the read handler. -/
  delivered : List (ErrorCode × Bytes) := []

namespace ReadLoop

def asyncReadPacket (l : ReadLoop) : ReadLoop :=
  match l.r.asyncReadPacket with
  | (r, some (.read phase count)) => { l with r, waiting := some (phase, count) }
  | (r, _) => { l with r }

/-- The reader asks for the next packet unless it was handed an error. -/
def proceed (l : ReadLoop) : ReadState × ReadOutcome → ReadLoop
  | (r, .read phase count) => { l with r, waiting := some (phase, count) }
  | (r, .post none packet) =>
      { l with r, waiting := none, delivered := l.delivered ++ [(none, packet)] }.asyncReadPacket
  | (r, .post (some ec) packet) =>
      { l with r, waiting := none, delivered := l.delivered ++ [(some ec, packet)] }

/-- The outstanding read completes, with the error `ends` once the stream has run out. -/
def step (ends : AsioError) (l : ReadLoop) : ReadLoop :=
  match l.waiting with
  | none => l
  | some (phase, count) =>
      match Segments.take count l.segments with
      | some (bytes, left) => { l with segments := left }.proceed (l.r.onRead phase (.ok bytes))
      | none => { l with segments := [] }.proceed (l.r.onRead phase (.error ends))

def start (segments : List Bytes) : ReadLoop := asyncReadPacket { segments }

def after (ends : AsioError) (l : ReadLoop) (k : Nat) : ReadLoop := (step ends)^[k] l

variable {ends : AsioError}

theorem after_one (l : ReadLoop) : l.after ends 1 = l.step ends := rfl

theorem after_add (l : ReadLoop) (j k : Nat) : l.after ends (j + k) = (l.after ends j).after ends k := by
  simp [after, Nat.add_comm j k, Function.iterate_add_apply]

theorem asyncReadPacket_delivered (l : ReadLoop) : l.asyncReadPacket.delivered = l.delivered := by
  unfold asyncReadPacket
  split <;> rfl

theorem step_delivered (l : ReadLoop) : l.delivered <+: (l.step ends).delivered := by
  have handed : ∀ (m : ReadLoop) (out : ReadState × ReadOutcome), m.delivered = l.delivered →
      l.delivered <+: (m.proceed out).delivered := by
    rintro m ⟨r, out⟩ same
    unfold proceed
    split
    · exact same ▸ List.prefix_refl _
    · rw [asyncReadPacket_delivered, ← same]
      exact List.prefix_append _ _
    · rw [← same]
      exact List.prefix_append _ _
  unfold step
  split
  · exact List.prefix_refl _
  · split <;> exact handed _ _ rfl

theorem after_delivered (l : ReadLoop) (k : Nat) : l.delivered <+: (l.after ends k).delivered := by
  induction k with
  | zero => exact List.prefix_refl _
  | succ k ih =>
    rw [after_add]
    exact ih.trans (step_delivered _)

theorem after_stopped {l : ReadLoop} (stopped : l.waiting = none) (k : Nat) : l.after ends k = l := by
  induction k with
  | zero => rfl
  | succ k ih =>
    rw [after_add, ih]
    change l.step ends = l
    unfold step
    rw [stopped]

/-- The next fixed header is being read, and nothing else. -/
def Idle (l : ReadLoop) : Prop := l.waiting = some (.fixedHeader, 2) ∧ l.r.readingDepth = 1

/-- An error is delivered, no packet, and the reader asks for nothing more. -/
def Fails (ends : AsioError) (l : ReadLoop) : Prop :=
  ∃ k e, (l.after ends k).waiting = none ∧ (l.after ends k).delivered = l.delivered ++ [(some e, [])]

theorem fails_of_after {l m : ReadLoop} {k : Nat} (reached : l.after ends k = m)
    (same : m.delivered = l.delivered) (fails : Fails ends m) : Fails ends l := by
  obtain ⟨j, e, stopped, delivered⟩ := fails
  refine ⟨k + j, e, ?_, ?_⟩
  · rw [after_add, reached, stopped]
  · rw [after_add, reached, delivered, same]

variable (ends) in
theorem step_taken {l : ReadLoop} {phase : ReadPhase} (bytes : Bytes) {rest : Bytes}
    (waiting : l.waiting = some (phase, bytes.length)) (stream : l.segments.flatten = bytes ++ rest) :
    ∃ left, left.flatten = rest ∧
      l.step ends = { l with segments := left }.proceed (l.r.onRead phase (.ok bytes)) := by
  obtain ⟨left, taken, remains⟩ := Segments.take_of_append stream
  refine ⟨left, remains, ?_⟩
  unfold step
  rw [waiting]
  simp only [taken]

theorem fails_of_short {l : ReadLoop} {phase : ReadPhase} {count : Nat}
    (waiting : l.waiting = some (phase, count)) (short : l.segments.flatten.length < count) :
    Fails ends l := by
  have stopped : l.after ends 1 = { l with segments := [] }.proceed (l.r.onRead phase (.error ends)) := by
    change l.step ends = _
    unfold step
    rw [waiting]
    simp only [Segments.take_short short]
  exact ⟨1, ends, by rw [stopped]; rfl, by rw [stopped]; rfl⟩

theorem start_idle (segments : List Bytes) : (start segments).Idle := ⟨rfl, rfl⟩

/-! ### The body -/

variable (ends) in
theorem body_read {l : ReadLoop} (r : ReadState) {body rest : Bytes}
    (stream : l.segments.flatten = body ++ rest) :
    ∃ k, Idle ((l.proceed (r.readPacketBody body.length)).after ends k) ∧
      ((l.proceed (r.readPacketBody body.length)).after ends k).segments.flatten = rest ∧
      ((l.proceed (r.readPacketBody body.length)).after ends k).delivered =
        l.delivered ++ [(none, r.readHeader ++ body)] := by
  cases body with
  | nil => exact ⟨0, ⟨rfl, rfl⟩, stream, by rw [List.append_nil]; rfl⟩
  | cons b bs =>
    have reading : r.readPacketBody (b :: bs).length =
        (r, .read (.body r.readHeader) (b :: bs).length) := rfl
    rw [reading]
    obtain ⟨left, remains, taken⟩ := step_taken ends (b :: bs)
      (l := l.proceed (r, .read (.body r.readHeader) (b :: bs).length)) rfl stream
    refine ⟨1, ?_⟩
    rw [after_one, taken]
    exact ⟨⟨rfl, rfl⟩, remains, rfl⟩

theorem body_cut {l : ReadLoop} (r : ReadState) {body present missing : Bytes}
    (cut : present ++ missing = body) (absent : missing ≠ []) (stream : l.segments.flatten = present) :
    (l.proceed (r.readPacketBody body.length)).delivered = l.delivered ∧
      Fails ends (l.proceed (r.readPacketBody body.length)) := by
  have shorter : present.length < body.length := by
    have := List.length_pos_iff.mpr absent
    rw [← cut, List.length_append]
    omega
  have reading : r.readPacketBody body.length = (r, .read (.body r.readHeader) body.length) := by
    rw [ReadState.readPacketBody, if_neg (by omega)]
  rw [reading]
  exact ⟨rfl, fails_of_short rfl (by rw [← stream] at shorter; exact shorter)⟩

/-! ### The length bytes -/

/-- The state after one more length byte has been taken in. -/
def push (st : RemainingLengthState) (digit : UInt8) :
    RemainingLengthState :=
  { byteBuffer := st.byteBuffer.set st.bytesRead digit
    bytesRead := st.bytesRead + 1
    remainingLength := st.remainingLength + (digit &&& 0x7F).toNat * st.multiplier
    multiplier := st.multiplier * 128 }

theorem onLengthByte_within (r : ReadState) {st : RemainingLengthState} (digit : UInt8)
    (buffer : st.byteBuffer.length = 4) (room : st.bytesRead < 4) :
    r.onLengthByte st [digit] =
      let r := { r with readHeader := r.readHeader ++ [digit] }
      if continues digit then r.readRemainingLengthStep (push st digit)
      else r.readPacketBody (push st digit).remainingLength := by
  have stored : (st.byteBuffer.set st.bytesRead digit).getD st.bytesRead 0 = digit := by
    simp [buffer, room]
  simp only [ReadState.onLengthByte, List.getD_cons_zero, stored, continues, decide_eq_true_eq]
  rw [if_neg (by omega)]
  rfl

theorem onLengthByte_beyond (r : ReadState) {st : RemainingLengthState} (bytes : Bytes)
    (full : 4 ≤ st.bytesRead) : r.onLengthByte st bytes = r.readFailed .messageSize := by
  simp only [ReadState.onLengthByte]
  rw [if_pos (by omega)]

theorem foldl_push (digits : Bytes) (st : RemainingLengthState) :
    (digits.foldl push st).byteBuffer.length = st.byteBuffer.length ∧
      (digits.foldl push st).bytesRead = st.bytesRead + digits.length ∧
      (digits.foldl push st).multiplier = st.multiplier * 128 ^ digits.length ∧
      (digits.foldl push st).remainingLength =
        st.remainingLength + st.multiplier * lengthValue digits := by
  induction digits generalizing st with
  | nil => simp [lengthValue]
  | cons digit rest ih =>
    obtain ⟨buffer, count, multiplier, value⟩ := ih (push st digit)
    refine ⟨?_, ?_, ?_, ?_⟩
    · simpa [push] using buffer
    · rw [List.foldl_cons, count, List.length_cons]
      simp only [push]
      omega
    · rw [List.foldl_cons, multiplier, List.length_cons, push]
      ring
    · rw [List.foldl_cons, value, lengthValue, push]
      ring

variable (ends) in
/-- Length bytes that all continue are taken in one after another. -/
theorem continuing_read {digits rest : Bytes} {l : ReadLoop} {st : RemainingLengthState}
    (waiting : l.waiting = some (.lengthByte st, 1)) (buffer : st.byteBuffer.length = 4)
    (continuing : digits.all continues = true) (room : st.bytesRead + digits.length ≤ 4)
    (stream : l.segments.flatten = digits ++ rest) :
    ∃ k, (l.after ends k).waiting = some (.lengthByte (digits.foldl push st), 1) ∧
      (l.after ends k).segments.flatten = rest ∧
      (l.after ends k).r.readHeader = l.r.readHeader ++ digits ∧
      (l.after ends k).delivered = l.delivered := by
  induction digits generalizing l st with
  | nil => exact ⟨0, waiting, stream, (List.append_nil _).symm, rfl⟩
  | cons digit digits ih =>
    rw [List.all_cons, Bool.and_eq_true] at continuing
    rw [List.length_cons] at room
    obtain ⟨left, remains, taken⟩ := step_taken ends [digit] waiting stream
    have within := onLengthByte_within l.r digit buffer (by omega)
    simp only [continuing.1, if_true] at within
    have next : (l.after ends 1).waiting = some (.lengthByte (push st digit), 1) := by
      rw [after_one, taken, ReadState.onRead, within]
      rfl
    obtain ⟨k, waits, remaining, header, delivered⟩ := ih next
      (by simpa [push] using buffer) continuing.2 (by simp only [push]; omega)
      (by rw [after_one, taken, ReadState.onRead, within]; exact remains)
    refine ⟨1 + k, ?_, ?_, ?_, ?_⟩
    · rw [after_add, waits, List.foldl_cons]
    · rw [after_add, remaining]
    · rw [after_add, header, after_one, taken, ReadState.onRead, within]
      simp [proceed, ReadState.readRemainingLengthStep]
    · rw [after_add, delivered, after_one, taken, ReadState.onRead, within]
      rfl

theorem onFixedHeader_typed (r : ReadState) {first : UInt8} (digit : UInt8)
    (typed : isValidPacketType (first >>> 4) = true) :
    r.onFixedHeader [first, digit] =
      let r := { r with fixedHeader := [first, digit], readHeader := [first, digit] }
      if continues digit then r.readRemainingLengthStep (push {} digit)
      else r.readPacketBody (push {} digit).remainingLength := by
  simp [ReadState.onFixedHeader, typed, ReadState.readRemainingLength, continues, push]

variable (ends) in
/-- A fixed header whose length bytes so far all continue. -/
theorem header_continues {l : ReadLoop} {first : UInt8} {digits rest : Bytes} (idle : l.Idle)
    (typed : isValidPacketType (first >>> 4) = true) (some_digit : digits ≠ [])
    (continuing : digits.all continues = true) (room : digits.length ≤ 4)
    (stream : l.segments.flatten = first :: digits ++ rest) :
    ∃ k, (l.after ends k).waiting = some (.lengthByte (digits.foldl push {}), 1) ∧
      (l.after ends k).segments.flatten = rest ∧
      (l.after ends k).r.readHeader = first :: digits ∧
      (l.after ends k).delivered = l.delivered := by
  obtain ⟨digit, digits, rfl⟩ := List.exists_cons_of_ne_nil some_digit
  rw [List.all_cons, Bool.and_eq_true] at continuing
  rw [List.length_cons] at room
  obtain ⟨left, remains, taken⟩ := step_taken ends [first, digit] idle.1 stream
  have typedHeader := onFixedHeader_typed l.r digit typed
  simp only [continuing.1, if_true] at typedHeader
  have next : (l.after ends 1).waiting = some (.lengthByte (push {} digit), 1) := by
    rw [after_one, taken, ReadState.onRead, typedHeader]
    rfl
  obtain ⟨k, waits, remaining, header, delivered⟩ := continuing_read ends next rfl continuing.2
    (by simp only [push]; omega)
    (by rw [after_one, taken, ReadState.onRead, typedHeader]; exact remains)
  refine ⟨1 + k, ?_, ?_, ?_, ?_⟩
  · rw [after_add, waits, List.foldl_cons]
  · rw [after_add, remaining]
  · rw [after_add, header, after_one, taken, ReadState.onRead, typedHeader]
    rfl
  · rw [after_add, delivered, after_one, taken, ReadState.onRead, typedHeader]
    rfl

theorem push_remainingLength_last (digits : Bytes) (last : UInt8) :
    (push (digits.foldl push {}) last).remainingLength = lengthValue (digits ++ [last]) := by
  have whole := (foldl_push (digits ++ [last]) {}).2.2.2
  simpa using whole

variable (ends) in
/-- A complete fixed header leads to the body, with every header byte kept. -/
theorem header_read {l : ReadLoop} {first : UInt8} {field rest : Bytes} (idle : l.Idle)
    (typed : isValidPacketType (first >>> 4) = true) (isField : isLengthField field = true)
    (room : field.length ≤ 4) (stream : l.segments.flatten = first :: field ++ rest) :
    ∃ k, ∃ m : ReadLoop, ∃ r : ReadState,
      l.after ends k = m.proceed (r.readPacketBody (lengthValue field)) ∧
      r.readHeader = first :: field ∧ m.segments.flatten = rest ∧ m.delivered = l.delivered := by
  obtain ⟨digits, last, rfl, continuing, stops⟩ := isLengthField_split isField
  rw [List.length_append, List.length_singleton] at room
  cases digits with
  | nil =>
    obtain ⟨left, remains, taken⟩ := step_taken ends [first, last] idle.1 stream
    have typedHeader := onFixedHeader_typed l.r last typed
    simp only [stops, Bool.false_eq_true, if_false] at typedHeader
    refine ⟨1, { l with segments := left },
      { l.r with fixedHeader := [first, last], readHeader := [first, last] }, ?_, rfl, remains, rfl⟩
    rw [after_one, taken, ReadState.onRead, typedHeader, ← push_remainingLength_last]
    rfl
  | cons digit digits =>
    have split : l.segments.flatten = first :: (digit :: digits) ++ ([last] ++ rest) := by
      rw [stream]; simp
    obtain ⟨k, waits, remaining, header, delivered⟩ := header_continues ends idle typed
      (List.cons_ne_nil _ _) continuing (by omega) split
    obtain ⟨buffer, count, -, -⟩ := foldl_push (digit :: digits) {}
    obtain ⟨left, remains, taken⟩ := step_taken ends [last] waits remaining
    have within := onLengthByte_within (l.after ends k).r last buffer
      (by rw [count]; change 0 + (digits.length + 1) < 4; rw [List.length_cons] at room; omega)
    simp only [stops, Bool.false_eq_true, if_false] at within
    refine ⟨k + 1, { l.after ends k with segments := left },
      { (l.after ends k).r with readHeader := (l.after ends k).r.readHeader ++ [last] },
      ?_, ?_, remains, delivered⟩
    · rw [after_add, after_one, taken, ReadState.onRead, within, push_remainingLength_last]
    · simp [header]

/-! ### Whole frames, and what is not one -/

variable (ends) in
theorem frame_read {l : ReadLoop} {fr : Frame} {rest : Bytes} (idle : l.Idle)
    (stream : l.segments.flatten = fr.bytes ++ rest) :
    ∃ k, (l.after ends k).Idle ∧ (l.after ends k).segments.flatten = rest ∧
      (l.after ends k).delivered = l.delivered ++ [(none, fr.bytes)] := by
  obtain ⟨k, m, r, reached, header, remains, delivered⟩ := header_read ends idle fr.typed
    fr.field fr.short (stream.trans (List.append_assoc _ _ _))
  rw [fr.exact] at reached
  obtain ⟨j, idles, remaining, handed⟩ := body_read ends r remains
  refine ⟨k + j, ?_, ?_, ?_⟩
  · rw [after_add, reached]; exact idles
  · rw [after_add, reached]; exact remaining
  · rw [after_add, reached, handed, header, delivered]; rfl

theorem reserved_fails {l : ReadLoop} {first : UInt8} {rest : Bytes} (idle : l.Idle)
    (reserved : isValidPacketType (first >>> 4) = false)
    (stream : l.segments.flatten = first :: rest) : Fails ends l := by
  cases rest with
  | nil => exact fails_of_short idle.1 (by rw [stream]; exact Nat.one_lt_two)
  | cons digit rest =>
    obtain ⟨left, remains, taken⟩ := step_taken ends [first, digit] idle.1 stream
    have failed : l.r.onFixedHeader [first, digit] =
        ({ l.r with fixedHeader := [first, digit] }).readFailed .invalidArgument := by
      simp [ReadState.onFixedHeader, reserved]
    refine ⟨1, .invalidArgument, ?_, ?_⟩ <;>
      rw [after_one, taken, ReadState.onRead, failed] <;> rfl

theorem overlong_fails {l : ReadLoop} {first : UInt8} {digits rest : Bytes} (idle : l.Idle)
    (four : digits.length = 4) (continuing : digits.all continues = true)
    (stream : l.segments.flatten = first :: digits ++ rest) : Fails ends l := by
  cases typed : isValidPacketType (first >>> 4) with
  | false => exact reserved_fails idle typed stream
  | true =>
    obtain ⟨k, waits, remaining, -, delivered⟩ := header_continues ends idle typed
      (by rintro rfl; cases four) continuing (by omega) stream
    refine fails_of_after rfl delivered ?_
    obtain ⟨-, count, -, -⟩ := foldl_push digits {}
    cases rest with
    | nil => exact fails_of_short waits (by rw [remaining]; decide)
    | cons digit rest =>
      -- the fifth length byte is read before the count is tested
      obtain ⟨left, remains, taken⟩ := step_taken ends [digit] waits remaining
      have beyond :=
        onLengthByte_beyond (l.after ends k).r [digit]
        (Nat.le_of_eq (four.symm.trans (by rw [count]; exact (Nat.zero_add _).symm)))
      refine ⟨1, .messageSize, ?_, ?_⟩ <;>
        rw [after_one, taken, ReadState.onRead, beyond] <;> rfl

theorem rejected_fails {l : ReadLoop} (idle : l.Idle) (rejected : Rejected l.segments.flatten) :
    Fails ends l := by
  rcases rejected with ⟨first, rest, stream, reserved⟩ | ⟨first, digits, rest, stream, four, continuing⟩
  · exact reserved_fails idle reserved stream
  · exact overlong_fails idle four continuing stream

theorem header_cut {l : ReadLoop} {first : UInt8} {digits : Bytes} (idle : l.Idle)
    (typed : isValidPacketType (first >>> 4) = true) (continuing : digits.all continues = true)
    (room : digits.length ≤ 4) (stream : l.segments.flatten = first :: digits) : Fails ends l := by
  by_cases none : digits = []
  · exact fails_of_short idle.1 (by rw [stream, none]; exact Nat.one_lt_two)
  · obtain ⟨k, waits, remaining, -, delivered⟩ := header_continues ends idle typed none continuing room
      (stream.trans (List.append_nil _).symm)
    exact fails_of_after rfl delivered (fails_of_short waits (by rw [remaining]; decide))

theorem incomplete_fails {l : ReadLoop} (idle : l.Idle) (incomplete : Incomplete l.segments.flatten) :
    Fails ends l := by
  obtain ⟨fr, missing, absent, cut⟩ := incomplete
  obtain ⟨digits, last, field, continuing, -⟩ := isLengthField_split fr.field
  have room := fr.short
  rw [field, List.length_append, List.length_singleton] at room
  have whole : fr.bytes = (fr.first :: digits) ++ (last :: fr.body) := by simp [Frame.bytes, field]
  rw [whole] at cut
  rcases List.append_eq_append_iff.mp cut with ⟨later, header, -⟩ | ⟨more, stream, rest⟩
  · -- the stream ends inside the fixed header
    cases shape : l.segments.flatten with
    | nil => exact fails_of_short idle.1 (by rw [shape]; decide)
    | cons first early =>
      rw [shape, List.cons_append, List.cons.injEq] at header
      obtain ⟨rfl, rfl⟩ := header
      rw [List.all_append, Bool.and_eq_true] at continuing
      rw [List.length_append] at room
      exact header_cut idle fr.typed continuing.1 (by omega) shape
  · cases more with
    | nil => exact header_cut idle fr.typed continuing (by omega) (by rw [stream, List.append_nil])
    | cons digit more =>
      -- the stream ends inside the body
      obtain ⟨rfl, body⟩ := List.cons.inj rest
      have split : l.segments.flatten = fr.first :: fr.lengthField ++ more := by
        rw [stream, field]; simp
      obtain ⟨k, m, r, reached, -, remains, delivered⟩ := header_read ends idle fr.typed
        fr.field fr.short split
      rw [fr.exact] at reached
      obtain ⟨kept, fails⟩ := body_cut r body.symm absent remains
      exact fails_of_after reached (kept.trans delivered) fails

variable (ends) in
/-- Any number of whole frames is delivered, in order, before the tail is looked at. -/
theorem frames_read {frames : List Frame} {l : ReadLoop} {tail : Bytes} (idle : l.Idle)
    (stream : l.segments.flatten = (frames.map Frame.bytes).flatten ++ tail) :
    ∃ k, (l.after ends k).Idle ∧ (l.after ends k).segments.flatten = tail ∧
      (l.after ends k).delivered = l.delivered ++ frames.map fun fr => (none, fr.bytes) := by
  induction frames generalizing l with
  | nil => exact ⟨0, idle, stream, (List.append_nil _).symm⟩
  | cons fr frames ih =>
    rw [List.map_cons, List.flatten_cons, List.append_assoc] at stream
    obtain ⟨k, idles, remains, handed⟩ := frame_read ends idle stream
    obtain ⟨j, last, remaining, delivered⟩ := ih idles remains
    refine ⟨k + j, ?_, ?_, ?_⟩
    · rw [after_add]; exact last
    · rw [after_add]; exact remaining
    · rw [after_add, delivered, handed]; simp

/-- Whatever the segments: the frames are delivered byte for byte and in order, then an
error for what follows them, and at no moment anything else. -/
theorem delivers_frames (frames : List Frame) (segments : List Bytes) (tail : Bytes)
    (ends : AsioError) (cut : segments.flatten = (frames.map Frame.bytes).flatten ++ tail)
    (stops : Rejected tail ∨ Incomplete tail) :
    ∃ ec, let all := (frames.map fun fr => (none, fr.bytes)) ++ [(some ec, [])]
      (∃ k, ∀ j, k ≤ j → ((start segments).after ends j).delivered = all) ∧
        ∀ j, ((start segments).after ends j).delivered <+: all := by
  obtain ⟨k, idles, remains, delivered⟩ := frames_read ends (start_idle segments) cut
  have fails : Fails ends ((start segments).after ends k) := by
    rcases stops with rejected | incomplete
    · exact rejected_fails idles (remains ▸ rejected)
    · exact incomplete_fails idles (remains ▸ incomplete)
  obtain ⟨i, ec, stopped, failed⟩ := fails
  rw [← after_add] at stopped failed
  have final : ∀ j, k + i ≤ j → (start segments).after ends j = (start segments).after ends (k + i) := by
    intro j late
    obtain ⟨d, rfl⟩ := Nat.exists_eq_add_of_le late
    rw [after_add, after_stopped stopped]
  have all : ((start segments).after ends (k + i)).delivered =
      (frames.map fun fr => (none, fr.bytes)) ++ [(some ec, [])] := by
    rw [failed, delivered]; rfl
  refine ⟨ec, ⟨k + i, fun j late => by rw [final j late, all]⟩, fun j => ?_⟩
  rcases Nat.le_total (k + i) j with late | early
  · exact (final j late ▸ all : _ = _) ▸ List.prefix_refl _
  · obtain ⟨d, rest⟩ := Nat.exists_eq_add_of_le early
    rw [← all, rest, after_add]
    exact after_delivered _ d

/-- A PINGRESP whose length field is not minimal. -/
def paddedPingresp : Frame where
  first := 0xD0
  lengthField := [0x80, 0x00]
  body := []
  typed := by decide
  field := by decide
  short := by decide
  exact := by decide

/-- One padded frame in three segments, then a reserved type nibble. -/
theorem delivers_padded_pingresp :
    ∃ ec, let all := [(none, [0xD0, 0x80, 0x00])] ++ [(some ec, [])]
      (∃ k, ∀ j, k ≤ j →
        ((start [[0xD0], [0x80, 0x00, 0xF0], [0x00]]).after .eof j).delivered = all) ∧
        ∀ j, ((start [[0xD0], [0x80, 0x00, 0xF0], [0x00]]).after .eof j).delivered <+: all :=
  delivers_frames [paddedPingresp] [[0xD0], [0x80, 0x00, 0xF0], [0x00]] [0xF0, 0x00] .eof rfl
    (.inl (.inl ⟨0xF0, [0x00], rfl, by decide⟩))

end ReadLoop

end LiteMqtt
