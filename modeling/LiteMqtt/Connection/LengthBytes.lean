import LiteMqtt.Connection.ReadLoop

/-!
# The length bytes of a packet

The connection takes a remaining length from one-byte reads, the parser from the packet that it is handed.
The two decode alike. The connection counts a length byte after it has stored it.
-/

namespace LiteMqtt

/-! ### Two decoders -/

namespace BufferReader

/-- The value `read_remaining_length` gives, and the bytes behind it. -/
def decodeLength (bytes : Bytes) : Option (Nat × Bytes) :=
  match ({ buf := bytes } : BufferReader).readRemainingLength32 with
  | (true, value, r) => some (value, bytes.drop r.pos)
  | (false, _, _) => none

theorem decodeLength_field {field : Bytes} (isField : isLengthField field = true) (short : field.length ≤ 4)
    (rest : Bytes) :
    decodeLength (field ++ rest) = some (lengthValue field, rest) := by
  have read : ({ buf := field ++ rest } : BufferReader).readRemainingLength =
      (true, lengthValue field, between ([] ++ field) rest) := readRemainingLength_field isField short [] rest
  rw [decodeLength, readRemainingLength32_exact, read]
  simp [between]

theorem decodeLength_cut {digits : Bytes} (continuing : digits.all continues = true) (short : digits.length ≤ 4) :
    decodeLength digits = none := by
  obtain ⟨value, failed⟩ := readRemainingLength_cut continuing short []
  have read : ({ buf := digits } : BufferReader).readRemainingLength = (false, value, between ([] ++ digits) []) := by
    rw [← failed]
    simp [between]
  rw [decodeLength, readRemainingLength32_exact, read]

theorem decodeLength_overlong {digits : Bytes} (continuing : digits.all continues = true) (four : digits.length = 4)
    (fifth : UInt8) (rest : Bytes) : decodeLength (digits ++ fifth :: rest) = none := by
  obtain ⟨value, failed⟩ := readRemainingLength_overlong continuing four [] fifth rest
  have read : ({ buf := digits ++ fifth :: rest } : BufferReader).readRemainingLength =
      (false, value, between ([] ++ digits ++ [fifth]) rest) := failed
  rw [decodeLength, readRemainingLength32_exact, read]

end BufferReader

namespace ReadState

/-- The chain of one-byte reads on these bytes: how many bytes of body it asks for, and the bytes left. -/
def chain : Bytes → ReadState × ReadOutcome → Option (Nat × Bytes)
  | b :: rest, (r, .read (.lengthByte st) _) => chain rest (r.onRead (.lengthByte st) (.ok [b]))
  | rest, (_, .read (.body _) count) => some (count, rest)
  | rest, (_, .post none _) => some (0, rest)
  | _, _ => none

/-- `read_remaining_length` on the first byte, and the reads that it starts. -/
def decodeLength (r : ReadState) : Bytes → Option (Nat × Bytes)
  | [] => none
  | first :: rest => chain rest (r.readRemainingLength first)

open ReadLoop

theorem readRemainingLength_first (r : ReadState) (digit : UInt8) : r.readRemainingLength digit =
    if continues digit then r.readRemainingLengthStep (push {} digit)
      else r.readPacketBody (push {} digit).remainingLength := by
  simp [readRemainingLength, continues, push]

theorem pushed (digits : Bytes) : (digits.foldl push {}).byteBuffer.length = 4 ∧
    (digits.foldl push {}).bytesRead = digits.length := by
  obtain ⟨buffer, count, -⟩ := foldl_push digits {}
  exact ⟨buffer, count.trans (Nat.zero_add _)⟩

theorem chain_body (r : ReadState) (length : Nat) (rest : Bytes) :
    chain rest (r.readPacketBody length) = some (length, rest) := by
  unfold readPacketBody
  split
  · rename_i empty
    cases rest <;> rw [chain, empty]
  · cases rest <;> rw [chain]

theorem chain_continues {digits : Bytes} (continuing : digits.all continues = true) {st : RemainingLengthState}
    (buffer : st.byteBuffer.length = 4) (room : st.bytesRead + digits.length ≤ 4) (r : ReadState) (rest : Bytes) :
    ∃ r' : ReadState, chain (digits ++ rest) (r.readRemainingLengthStep st) =
      chain rest (r'.readRemainingLengthStep (digits.foldl push st)) := by
  induction digits generalizing r st with
  | nil => exact ⟨r, rfl⟩
  | cons digit digits ih =>
    rw [List.all_cons, Bool.and_eq_true] at continuing
    rw [List.length_cons] at room
    have within := onLengthByte_within r digit buffer (by omega)
    simp only [continuing.1, if_true] at within
    have kept : (push st digit).byteBuffer.length = 4 := by simpa [push] using buffer
    obtain ⟨r', same⟩ := ih continuing.2 kept (by simp only [push]; omega)
      { r with readHeader := r.readHeader ++ [digit] }
    refine ⟨r', ?_⟩
    rw [List.foldl_cons, ← same, ← within]
    rfl

theorem decodeLength_continues {digits : Bytes} (continuing : digits.all continues = true) (short : digits.length ≤ 4)
    (some_digit : digits ≠ []) (r : ReadState) (rest : Bytes) : ∃ r' : ReadState, r.decodeLength (digits ++ rest) =
      chain rest (r'.readRemainingLengthStep (digits.foldl push {})) := by
  obtain ⟨digit, digits, rfl⟩ := List.exists_cons_of_ne_nil some_digit
  rw [List.all_cons, Bool.and_eq_true] at continuing
  rw [List.length_cons] at short
  have buffer : (push {} digit).byteBuffer.length = 4 := rfl
  obtain ⟨r', same⟩ := chain_continues continuing.2 buffer (by simp only [push]; omega) r rest
  refine ⟨r', ?_⟩
  rw [List.cons_append, decodeLength, readRemainingLength_first, if_pos continuing.1, same, List.foldl_cons]

theorem decodeLength_field {field : Bytes} (isField : isLengthField field = true) (short : field.length ≤ 4)
    (r : ReadState) (rest : Bytes) : r.decodeLength (field ++ rest) = some (lengthValue field, rest) := by
  obtain ⟨digits, last, rfl, continuing, stops⟩ := isLengthField_split isField
  rw [List.length_append, List.length_singleton] at short
  rw [List.append_assoc, ← push_remainingLength_last]
  by_cases none : digits = []
  · rw [none, List.nil_append, List.singleton_append, decodeLength, readRemainingLength_first, if_neg (by simp [stops]),
      chain_body]
    rfl
  · obtain ⟨r', same⟩ := decodeLength_continues continuing (by omega) none r ([last] ++ rest)
    obtain ⟨buffer, count⟩ := pushed digits
    have within := onLengthByte_within r' last buffer (by omega)
    simp only [stops, Bool.false_eq_true, if_false] at within
    rw [same, List.singleton_append]
    have taken : chain (last :: rest) (r'.readRemainingLengthStep (digits.foldl push {})) =
        chain rest (r'.onLengthByte (digits.foldl push {}) [last]) := rfl
    rw [taken, within, chain_body]

theorem decodeLength_cut {digits : Bytes} (continuing : digits.all continues = true) (short : digits.length ≤ 4)
    (r : ReadState) : r.decodeLength digits = none := by
  by_cases nothing : digits = []
  · rw [nothing, decodeLength]
  · obtain ⟨r', same⟩ := decodeLength_continues continuing short nothing r []
    rw [List.append_nil] at same
    rw [same]
    rfl

theorem decodeLength_overlong {digits : Bytes} (continuing : digits.all continues = true) (four : digits.length = 4)
    (r : ReadState) (fifth : UInt8) (rest : Bytes) : r.decodeLength (digits ++ fifth :: rest) = none := by
  obtain ⟨r', same⟩ := decodeLength_continues continuing (by omega) (by rintro rfl; cases four) r (fifth :: rest)
  have beyond := onLengthByte_beyond r' [fifth] (Nat.le_of_eq (four.symm.trans (pushed digits).2.symm))
  have taken : chain (fifth :: rest) (r'.readRemainingLengthStep (digits.foldl push {})) =
      chain rest (r'.onLengthByte (digits.foldl push {}) [fifth]) := rfl
  rw [same, taken, beyond]
  cases rest <;> rfl

/-- The two decoders take the same fields, for the same value, and leave the same bytes. -/
theorem decodeLength_agrees (r : ReadState) (bytes : Bytes) :
    r.decodeLength bytes = BufferReader.decodeLength bytes := by
  rcases lengthField_cases bytes with ⟨field, rest, rfl, isField, short⟩ | ⟨continuing, short⟩ |
    ⟨digits, fifth, rest, rfl, continuing, four⟩
  · rw [decodeLength_field isField short, BufferReader.decodeLength_field isField short]
  · rw [decodeLength_cut continuing short, BufferReader.decodeLength_cut continuing short]
  · rw [decodeLength_overlong continuing four, BufferReader.decodeLength_overlong continuing four]

/-! ### What is being read -/

/-- The read is one that the header bytes read so far lead to. -/
def Fits (header : Bytes) : ReadPhase → Nat → Prop
  | .fixedHeader, count => count = 2
  | .lengthByte st, count => count = 1 ∧ ∃ first digits, header = first :: digits ∧
      isValidPacketType (first >>> 4) = true ∧ digits.all continues = true ∧ digits.length ≤ 4 ∧
        st = digits.foldl push {}
  | .body header, count => ∃ first field, header = first :: field ∧ isValidPacketType (first >>> 4) = true ∧
      isLengthField field = true ∧ field.length ≤ 4 ∧ count = lengthValue field

/-- The bytes of the packet that were read before. -/
def taken (r : ReadState) : ReadPhase → Bytes
  | .fixedHeader => []
  | .lengthByte _ => r.readHeader
  | .body header => header

/-- What a read that completed leads to: another read of the same packet, a whole packet, or an error. -/
inductive Continues (r : ReadState) (phase : ReadPhase) (bytes : Bytes) : ReadState × ReadOutcome → Prop
  | reads (r' : ReadState) (phase' : ReadPhase) (count : Nat) (fits : Fits r'.readHeader phase' count)
      (more : r'.taken phase' = r.taken phase ++ bytes) (depth : r'.readingDepth = r.readingDepth) :
      Continues r phase bytes (r', .read phase' count)
  | delivers (r' : ReadState) (fr : Frame) (whole : fr.bytes = r.taken phase ++ bytes) (depth : r'.readingDepth = 0) :
      Continues r phase bytes (r', .post none fr.bytes)
  | fails (r' : ReadState) (ec : AsioError) (depth : r'.readingDepth = 0) :
      Continues r phase bytes (r', .post (some ec) [])

theorem readPacketBody_continues {r r' : ReadState} {phase : ReadPhase} {bytes : Bytes} {first : UInt8} {field : Bytes}
    (header : r'.readHeader = first :: field) (more : r'.readHeader = r.taken phase ++ bytes)
    (depth : r'.readingDepth = r.readingDepth) (typed : isValidPacketType (first >>> 4) = true)
    (isField : isLengthField field = true) (short : field.length ≤ 4) :
    Continues r phase bytes (r'.readPacketBody (lengthValue field)) := by
  unfold readPacketBody
  split
  · rename_i empty
    have whole : Frame.bytes ⟨first, field, [], typed, isField, short, empty⟩ = r'.readHeader := by
      simp [Frame.bytes, header]
    rw [← whole] at more ⊢
    exact .delivers _ _ more rfl
  · exact .reads _ _ _ ⟨first, field, header, typed, isField, short, rfl⟩ more depth

theorem onRead_continues {r : ReadState} {phase : ReadPhase} {bytes : Bytes}
    (fits : Fits r.readHeader phase bytes.length) :
    Continues r phase bytes (r.onRead phase (.ok bytes)) := by
  cases phase with
  | fixedHeader =>
    obtain ⟨first, digit, rfl⟩ := List.length_eq_two.mp fits
    cases typed : isValidPacketType (first >>> 4) with
    | false =>
      have failed : r.onRead .fixedHeader (.ok [first, digit]) =
          ({ r with fixedHeader := [first, digit] }).readFailed .invalidArgument := by
        simp [onRead, onFixedHeader, typed]
      rw [failed]
      exact .fails _ _ rfl
    | true =>
      rw [onRead, onFixedHeader_typed r digit typed]
      dsimp only
      split
      · rename_i more
        exact .reads _ _ _ ⟨rfl, first, [digit], rfl, typed, by simp [more], (by decide : 1 ≤ 4), rfl⟩ rfl rfl
      · rename_i last
        have value : (push {} digit).remainingLength = lengthValue [digit] := push_remainingLength_last [] digit
        rw [value]
        exact readPacketBody_continues rfl rfl rfl typed (by simpa [isLengthField] using last)
          (by decide : 1 ≤ 4)
  | lengthByte st =>
    obtain ⟨one, first, digits, header, typed, continuing, few, rfl⟩ := fits
    obtain ⟨digit, rfl⟩ := List.length_eq_one_iff.mp one
    obtain ⟨buffer, count⟩ := pushed digits
    by_cases full : digits.length = 4
    · rw [onRead, onLengthByte_beyond r [digit] (by omega)]
      exact .fails _ _ rfl
    · rw [onRead, onLengthByte_within r digit buffer (by omega)]
      dsimp only
      split
      · rename_i more
        refine .reads _ _ _ ⟨rfl, first, digits ++ [digit], by simp [header], typed, by simp [continuing, more], ?_,
          ?_⟩ rfl rfl
        · rw [List.length_append, List.length_singleton]
          omega
        · rw [List.foldl_append]
          rfl
      · rename_i last
        rw [push_remainingLength_last]
        have whole : r.readHeader ++ [digit] = first :: (digits ++ [digit]) := by simp [header]
        refine readPacketBody_continues whole rfl rfl typed (isLengthField_append continuing (by simpa using last)) ?_
        rw [List.length_append, List.length_singleton]
        omega
  | body header =>
    obtain ⟨first, field, rfl, typed, isField, short, count⟩ := fits
    exact .delivers _ ⟨first, field, bytes, typed, isField, short, count.symm⟩ rfl rfl

/-- The places of `byte_buffer` that a completed read touches, in order. The first length byte is stored, a
later one is stored by the read and loaded by its handler. -/
def touched : ReadPhase → Except AsioError Bytes → List Nat
  | .fixedHeader, .ok bytes => if isValidPacketType (bytes.getD 0 0 >>> 4) then [0] else []
  | .lengthByte st, .ok _ => [st.bytesRead, st.bytesRead]
  | _, _ => []

end ReadState

/-! ### The places of the buffer -/

/-- Behind some whole frames: a type byte, four length bytes that continue, and one more byte. -/
def Overrun (stream : Bytes) : Prop :=
  ∃ (frames : List Frame) (first : UInt8) (digits : Bytes) (fifth : UInt8) (rest : Bytes),
    stream = (frames.map Frame.bytes).flatten ++ (first :: digits ++ fifth :: rest) ∧
    isValidPacketType (first >>> 4) = true ∧ digits.all continues = true ∧ digits.length = 4

namespace ReadLoop

variable {ends : AsioError}

/-- The places that the next completion touches. -/
def touched (l : ReadLoop) : List Nat :=
  match l.waiting with
  | none => []
  | some (phase, count) =>
      match Segments.take count l.segments with
      | some (bytes, _) => ReadState.touched phase (.ok bytes)
      | none => []

/-- What is being read is what the stream holds behind the frames that were delivered. -/
def Tracks (stream : Bytes) (l : ReadLoop) : Prop :=
  ∀ phase count, l.waiting = some (phase, count) → ReadState.Fits l.r.readHeader phase count ∧
    ∃ frames : List Frame, stream = (frames.map Frame.bytes).flatten ++ (l.r.taken phase ++ l.segments.flatten)

theorem tracks_asks {stream : Bytes} {l : ReadLoop} (frames : List Frame) (idle : l.r.readingDepth = 0)
    (behind : stream = (frames.map Frame.bytes).flatten ++ l.segments.flatten) : Tracks stream l.asyncReadPacket := by
  have asks : l.asyncReadPacket =
      { l with r := { l.r with readingDepth := 1 }, waiting := some (.fixedHeader, 2) } := by
    simp [asyncReadPacket, ReadState.asyncReadPacket, ReadState.readFixedHeader, idle]
  rw [asks]
  rintro _ _ ⟨⟩
  exact ⟨rfl, frames, behind⟩

theorem tracks_step {stream : Bytes} {l : ReadLoop} (tracks : Tracks stream l) : Tracks stream (l.step ends) := by
  unfold step
  split
  · exact tracks
  · rename_i phase count waiting
    obtain ⟨fits, frames, behind⟩ := tracks phase count waiting
    split
    · rename_i bytes left front
      obtain ⟨size, remains⟩ := Segments.take_some front
      rw [remains, ← List.append_assoc (l.r.taken phase)] at behind
      have next : ReadState.Continues l.r phase bytes (l.r.onRead phase (.ok bytes)) :=
        ReadState.onRead_continues (size ▸ fits)
      generalize l.r.onRead phase (.ok bytes) = out at next
      cases next with
      | reads r' phase' count' fits more depth =>
        rintro _ _ ⟨⟩
        exact ⟨fits, frames, more ▸ behind⟩
      | delivers r' fr whole depth =>
        refine tracks_asks (frames ++ [fr]) depth ?_
        rw [behind, ← whole]
        simp
      | fails r' ec depth => exact nofun
    · exact nofun

theorem tracks_after (segments : List Bytes) (k : Nat) : Tracks segments.flatten ((start segments).after ends k) := by
  induction k with
  | zero => exact tracks_asks (l := { segments }) [] rfl rfl
  | succ k ih =>
    rw [after_add]
    exact tracks_step ih

theorem overrun_of_touched {stream : Bytes} {l : ReadLoop} (tracks : Tracks stream l) {index : Nat}
    (among : index ∈ l.touched) (outside : 4 ≤ index) : Overrun stream := by
  unfold touched at among
  split at among
  · cases among
  · rename_i phase count waiting
    obtain ⟨fits, frames, behind⟩ := tracks phase count waiting
    split at among
    · rename_i bytes left front
      obtain ⟨size, remains⟩ := Segments.take_some front
      cases phase with
      | fixedHeader =>
        have zero : index = 0 := by
          simp only [ReadState.touched] at among
          split at among
          · exact List.mem_singleton.mp among
          · cases among
        omega
      | lengthByte st =>
        obtain ⟨one, first, digits, header, typed, continuing, few, rfl⟩ := fits
        obtain ⟨fifth, rfl⟩ := List.length_eq_one_iff.mp (size.trans one)
        have place : index = digits.length := by
          rw [← (ReadState.pushed digits).2]
          simpa [ReadState.touched] using among
        refine ⟨frames, first, digits, fifth, left.flatten, ?_, typed, continuing, by omega⟩
        rw [behind, remains, ReadState.taken, header]
        rfl
      | body header => cases among
    · cases among

/-- Every place that is stored to or loaded from lies in the buffer, exactly if the peer never sends a fifth
length byte. -/
theorem length_bytes_inside_iff (segments : List Bytes) (ends : AsioError) :
    (∀ k, ∀ index ∈ ((start segments).after ends k).touched, index < 4) ↔ ¬ Overrun segments.flatten := by
  constructor
  · rintro inside ⟨frames, first, digits, fifth, rest, stream, typed, continuing, four⟩
    obtain ⟨j, idles, remains, -⟩ := frames_read ends (start_idle segments) stream
    obtain ⟨k, waits, remaining, -⟩ := header_continues ends idles typed (by rintro rfl; cases four) continuing
      (Nat.le_of_eq four) remains
    rw [← after_add] at waits remaining
    have cut : ((start segments).after ends (j + k)).segments.flatten = [fifth] ++ rest := remaining
    obtain ⟨left, front, -⟩ := Segments.take_of_append cut
    have place : 4 ∈ ((start segments).after ends (j + k)).touched := by
      unfold touched
      rw [waits]
      have front : Segments.take 1 ((start segments).after ends (j + k)).segments = some ([fifth], left) := front
      simp only [front, ReadState.touched, (ReadState.pushed digits).2, four]
      exact List.mem_cons_self ..
    exact absurd (inside _ _ place) (Nat.lt_irrefl 4)
  · intro bounded k index among
    by_contra outside
    exact bounded (overrun_of_touched (tracks_after segments k) among (Nat.le_of_not_lt outside))

/-- Four length bytes that continue, and a fifth. -/
theorem fifth_length_byte_outside : ¬ ∀ (segments : List Bytes) (k : Nat),
    ∀ index ∈ ((start segments).after .eof k).touched, index < 4 := by
  intro inside
  have place : 4 ∈ ((start [[0x30, 0xFF, 0xFF, 0xFF, 0xFF, 0x00]]).after .eof 4).touched := by decide
  exact absurd (inside _ 4 4 place) (by decide)

end ReadLoop

end LiteMqtt
