import LiteMqtt.Codec.RoundTrip
import LiteMqtt.Connection.ReadLoop

/-!
# What a parser makes of a body

The parsers get every frame that the framing lets through, whatever its body holds. Here is what
they read of a body that is too short for them, and of one that is not.
-/

namespace LiteMqtt
open BufferReader

/-- What follows the type byte and the remaining length. -/
def bodyOf (data : Bytes) : Bytes :=
  let r := (afterFixedHeader data).2
  r.buf.drop r.pos

theorem afterFixedHeader_bytes (fr : Frame) :
    afterFixedHeader fr.bytes = (fr.first, between (fr.first :: fr.lengthField) fr.body) := by
  have start : ({ buf := fr.bytes } : BufferReader) = between [] (fr.first :: (fr.lengthField ++ fr.body)) := rfl
  rw [afterFixedHeader, start, readUint8_between]
  simp only [Option.getD_some, List.nil_append, readRemainingLength_field fr.field fr.short, List.singleton_append]

/-! ### CONNACK -/

theorem ConnackPacket.parse_returnCode (data : Bytes) :
    (ConnackPacket.parse data).returnCode = (bodyOf data).getD 1 0 := by
  unfold ConnackPacket.parse bodyOf
  obtain ⟨typeByte, r⟩ := afterFixedHeader data
  have second : (r.buf.drop r.pos)[1]? = r.buf[r.pos + 1]? := by rw [List.getElem?_drop]
  dsimp only
  rw [List.getD_eq_getElem?_getD, second]
  cases first : r.buf[r.pos]? with
  | none =>
    have ended : r.buf[r.pos + 1]? = none := by
      rw [List.getElem?_eq_none_iff] at first ⊢
      omega
    simp [readUint8, first, ended]
  | some byte =>
    cases later : r.buf[r.pos + 1]? <;> simp [readUint8, first, later]

/-! ### PUBLISH -/

/-- Two bytes, the high one first. -/
def word (bytes : Bytes) : UInt16 := (bytes.getD 0 0).toUInt16 <<< 8 ||| (bytes.getD 1 0).toUInt16

/-- The topic length that the body declares. -/
def declared (body : Bytes) : Nat := (word body).toNat

/-- Where the payload begins. -/
def payloadStart (qos : UInt8) (body : Bytes) : Nat := 2 + declared body + if qos = 0 then 0 else 2

/-- The body holds a topic of the length it declares and, except at QoS 0, a packet id. -/
def WellFormedPublish (qos : UInt8) (body : Bytes) : Prop := qos ≤ 2 ∧ payloadStart qos body ≤ body.length

instance (qos : UInt8) (body : Bytes) : Decidable (WellFormedPublish qos body) := inferInstanceAs (Decidable (_ ∧ _))

def topicSlice (body : Bytes) : Bytes := (body.drop 2).take (declared body)

def idSlice (body : Bytes) : UInt16 := word (body.drop (2 + declared body))

def payloadSlice (qos : UInt8) (body : Bytes) : Bytes := body.drop (payloadStart qos body)

theorem readUint16_word (done rest : Bytes) (enough : 2 ≤ rest.length) :
    (between done rest).readUint16 = (some (word rest), between (done ++ rest.take 2) (rest.drop 2)) := by
  have room : ¬ done.length + 2 > (done ++ rest).length := by
    rw [List.length_append]
    omega
  have same : done ++ rest.take 2 ++ rest.drop 2 = done ++ rest := by rw [List.append_assoc, List.take_append_drop]
  rw [readUint16]
  unfold between
  rw [if_neg room]
  simp only [same, word, List.getD_eq_getElem?_getD,
    List.getElem?_append_right (Nat.le_refl _), List.getElem?_append_right (Nat.le_add_right _ 1), Nat.sub_self,
    Nat.add_sub_cancel_left, List.length_append, List.length_take, Nat.min_eq_left enough]

theorem readString_declared (done body : Bytes) (enough : 2 + declared body ≤ body.length) :
    (between done body).readString =
      (some (topicSlice body), between (done ++ body.take (2 + declared body)) (body.drop (2 + declared body))) := by
  have taken : body.take (2 + declared body) = body.take 2 ++ (body.drop 2).take (declared body) := List.take_add
  unfold readString
  rw [readUint16_word done body (by omega)]
  dsimp only
  split
  · rename_i zero
    have none : declared body = 0 := by simp [declared, zero]
    simp [topicSlice, none]
  · have room : ¬ (between (done ++ body.take 2) (body.drop 2)).pos + (word body).toNat >
        (between (done ++ body.take 2) (body.drop 2)).buf.length := by
      have count : (word body).toNat = declared body := rfl
      simp only [between, List.length_append, List.length_take, List.length_drop, count]
      omega
    rw [if_neg room]
    have left : body.drop (2 + declared body) = (body.drop 2).drop (declared body) := by rw [List.drop_drop]
    refine Prod.ext ?_ ?_
    · have two : min 2 body.length = 2 := Nat.min_eq_left (by omega)
      simp [between, topicSlice, declared, two]
    · rw [taken, left]
      simp only [between, List.append_assoc, List.take_append_drop, List.length_append, List.length_take,
        List.length_drop, BufferReader.mk.injEq, true_and]
      change _ + declared body = _
      omega

theorem PublishPacket.parse_wellFormed (fr : Frame) (wellFormed : WellFormedPublish ((fr.first >>> 1) &&& 3) fr.body) :
    let pkt := PublishPacket.parse fr.bytes
    pkt.qos = (fr.first >>> 1) &&& 3 ∧ pkt.topicName = topicSlice fr.body ∧
      pkt.payload = payloadSlice ((fr.first >>> 1) &&& 3) fr.body ∧
      ((fr.first >>> 1) &&& 3 ≠ 0 → pkt.packetId = idSlice fr.body) := by
  obtain ⟨-, enough⟩ := wellFormed
  unfold payloadStart at enough
  have topic : 2 + declared fr.body ≤ fr.body.length := by omega
  rw [PublishPacket.parse, afterFixedHeader_bytes]
  dsimp only
  generalize (fr.first >>> 1) &&& 3 = qos at enough ⊢
  simp only [readString_declared _ _ topic, Option.getD_some, true_and]
  by_cases zero : qos = 0
  · simp only [payloadSlice, payloadStart, zero]
    simp [readRest_between]
  · have positive : qos > 0 := UInt8.pos_iff_ne_zero.mpr zero
    rw [if_neg zero] at enough
    have id : 2 ≤ (fr.body.drop (2 + declared fr.body)).length := by
      rw [List.length_drop]
      omega
    simp only [if_pos positive, readUint16_word _ _ id, Option.getD_some, readRest_between, payloadSlice, payloadStart,
      if_neg zero, List.drop_drop]
    exact ⟨trivial, fun _ => rfl⟩

theorem PublishPacket.length_parse_topicName (data : Bytes) : (PublishPacket.parse data).topicName.length ≤ 65535 := by
  unfold PublishPacket.parse
  obtain ⟨typeByte, r⟩ := afterFixedHeader data
  change (r.readString.1.getD []).length ≤ 65535
  unfold readString
  split
  · exact Nat.zero_le _
  · rename_i len r' _
    have bound := len.toNat_lt
    split
    · exact Nat.zero_le _
    · split
      · exact Nat.zero_le _
      · simp only [Option.getD_some, List.length_take]
        omega

/-! ### What the framing makes of a written frame -/

open BufferWriter in
theorem remainingLengthDigits_beyond (k rounds val : Nat) (enough : k < rounds) (large : 128 ^ k ≤ val) :
    ∃ digits rest, remainingLengthDigits rounds val = digits ++ rest ∧ digits.length = k ∧
      digits.all continues = true := by
  induction k generalizing rounds val with
  | zero => exact ⟨[], _, rfl, rfl, rfl⟩
  | succ k ih =>
    obtain ⟨rounds, rfl⟩ : ∃ n, rounds = n + 1 := ⟨rounds - 1, by omega⟩
    have whole : 128 ^ k ≤ val / 128 :=
      (Nat.le_div_iff_mul_le (by decide)).mpr (by rw [Nat.pow_succ] at large; exact large)
    have another : val / 128 > 0 := Nat.lt_of_lt_of_le (Nat.pow_pos (by decide)) whole
    obtain ⟨-, more⟩ := lengthDigit val _ true rfl
    simp only [if_true, iff_true] at more
    obtain ⟨digits, rest, same, count, continuing⟩ := ih rounds (val / 128) (by omega) whole
    refine ⟨(UInt8.ofNat (val % 128) ||| 0x80) :: digits, rest, ?_, by simp [count], ?_⟩
    · simp only [remainingLengthDigits, if_pos another, same, List.cons_append]
    · simp [continues, more, continuing]

/-- However the bytes arrive, the framing delivers them as one packet. -/
def FramedWhole (data : Bytes) : Prop := ∀ (ends : AsioError) (segments : List Bytes), segments.flatten = data →
  ∃ k, ((ReadLoop.start segments).after ends k).delivered = [(none, data)]

theorem framedWhole_bytes (fr : Frame) : FramedWhole fr.bytes := by
  intro ends segments same
  have stream : (ReadLoop.start segments).segments.flatten = fr.bytes ++ [] := by
    rw [List.append_nil]
    exact same
  obtain ⟨k, -, -, delivered⟩ := ReadLoop.frame_read ends (ReadLoop.start_idle segments) stream
  exact ⟨k, delivered⟩

theorem FramedWhole.first {data : Bytes} (framed : FramedWhole data) (ends : AsioError) {k : Nat}
    {first : ErrorCode × Bytes} (delivered : ((ReadLoop.start [data]).after ends k).delivered = [first]) :
    first = (none, data) := by
  obtain ⟨j, whole⟩ := framed ends [data] (by simp)
  rcases Nat.le_total k j with before | after
  · obtain ⟨d, rfl⟩ := Nat.exists_eq_add_of_le before
    have longer : ((ReadLoop.start [data]).after ends k).delivered <+:
        (((ReadLoop.start [data]).after ends k).after ends d).delivered := ReadLoop.after_delivered _ d
    rw [← ReadLoop.after_add, delivered, whole] at longer
    simpa using longer
  · obtain ⟨d, rfl⟩ := Nat.exists_eq_add_of_le after
    have longer : ((ReadLoop.start [data]).after ends j).delivered <+:
        (((ReadLoop.start [data]).after ends j).after ends d).delivered := ReadLoop.after_delivered _ d
    rw [← ReadLoop.after_add, delivered, whole] at longer
    exact (by simpa using longer : (none, data) = first).symm

open BufferWriter in
theorem frame_eq (typeByte : UInt8) (header : Bytes) :
    frame typeByte header = typeByte :: remainingLengthDigits 5 (header.length % 2 ^ 32) ++ header := by
  simp [frame, writeBytes, writeRemainingLength]

theorem framedWhole_frame (typeByte : UInt8) (header : Bytes) (typed : isValidPacketType (typeByte >>> 4) = true) :
    FramedWhole (frame typeByte header) ↔ header.length ≤ maxRemainingLength := by
  unfold maxRemainingLength
  rw [frame_eq]
  by_cases small : header.length % 2 ^ 32 < 128 ^ 4
  · obtain ⟨field, value⟩ := BufferWriter.digits_say 4 (header.length % 2 ^ 32) (by omega)
    have length := BufferWriter.length_digits_le 5 3 (header.length % 2 ^ 32) small
    generalize BufferWriter.remainingLengthDigits 5 (header.length % 2 ^ 32) = digits at field length value ⊢
    have count : (header.take (header.length % 2 ^ 32)).length = header.length % 2 ^ 32 := by
      rw [List.length_take]
      exact Nat.min_eq_left (Nat.mod_le _ _)
    let fr : Frame :=
      ⟨typeByte, digits, header.take (header.length % 2 ^ 32), typed, field, length, by rw [value, count]⟩
    have split : typeByte :: digits ++ header = fr.bytes ++ header.drop (header.length % 2 ^ 32) := by
      simp [fr, Frame.bytes]
    constructor
    · intro framed
      obtain ⟨k, -, -, delivered⟩ := ReadLoop.frame_read .eof
        (ReadLoop.start_idle [typeByte :: digits ++ header]) ((List.flatten_singleton).trans split)
      have whole := congrArg Prod.snd (framed.first .eof delivered)
      rw [split] at whole
      have nothing : (header.drop (header.length % 2 ^ 32)).length = 0 := by simpa using congrArg List.length whole
      rw [List.length_drop] at nothing
      omega
    · intro fits
      have exact : header.length % 2 ^ 32 = header.length := Nat.mod_eq_of_lt (by omega)
      have rest : header.drop (header.length % 2 ^ 32) = [] := List.drop_eq_nil_of_le (Nat.le_of_eq exact.symm)
      rw [split, rest, List.append_nil]
      exact framedWhole_bytes fr
  · have large : 128 ^ 4 ≤ header.length % 2 ^ 32 := not_lt.mp small
    refine iff_of_false (fun framed => ?_) (by omega)
    obtain ⟨digits, rest, same, four, continuing⟩ := remainingLengthDigits_beyond 4 5 _ (by decide) large
    rw [same] at framed
    have rejected : Rejected (ReadLoop.start [typeByte :: (digits ++ rest) ++ header]).segments.flatten :=
      .inr ⟨typeByte, digits, rest ++ header, (List.flatten_singleton).trans (by simp), four, continuing⟩
    have fails : ReadLoop.Fails .eof (ReadLoop.start [typeByte :: (digits ++ rest) ++ header]) :=
      ReadLoop.rejected_fails (ReadLoop.start_idle _) rejected
    obtain ⟨k, e, -, delivered⟩ := fails
    exact absurd (framed.first .eof delivered) (by simp)

end LiteMqtt
