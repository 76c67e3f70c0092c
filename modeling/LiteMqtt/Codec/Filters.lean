import LiteMqtt.Codec.RoundTrip

/-!
# SUBSCRIBE and UNSUBSCRIBE

The library writes these and never reads them. Their topic filters follow one another without a count;
what a reader makes of the frame is one packet all the same.
-/

namespace LiteMqtt
open BufferWriter

structure UnsubscribePacket where
  packetId : UInt16 := 0
  topicFilters : List Bytes := []
  deriving DecidableEq, Repr

def UnsubscribePacket.serialize (pkt : UnsubscribePacket) : Bytes :=
  let header := writeUint16 [] pkt.packetId
  let header := pkt.topicFilters.foldl writeString header
  frame (PacketType.unsubscribe.toUint8 <<< 4 ||| 0x02) header

/-! ### Reading with `buffer_reader` -/

/-- What was read, the number of bytes behind the remaining length, and the number left at the end. -/
structure FilterList (α : Type) where
  typeByte : UInt8
  remainingLength : Nat
  behind : Nat
  packetId : UInt16
  topicFilters : List α
  left : Nat
  deriving DecidableEq, Repr

namespace BufferReader

variable {α : Type}

def readFilter (r : BufferReader) : Option (Bytes × BufferReader) :=
  match r.readString with
  | (none, _) => none
  | (some filter, r) => some (filter, r)

def readFilterQos (r : BufferReader) : Option ((Bytes × UInt8) × BufferReader) :=
  match r.readString with
  | (none, _) => none
  | (some filter, r) =>
      match r.readUint8 with
      | (none, _) => none
      | (some qos, r) => some ((filter, qos), r)

/-- Entries until `empty()`. Each takes bytes, so as many rounds as bytes are left suffice. -/
def readEntries (entry : BufferReader → Option (α × BufferReader)) :
    Nat → BufferReader → Option (List α × BufferReader)
  | 0, r => if r.empty then some ([], r) else none
  | rounds + 1, r =>
      if r.empty then some ([], r)
      else
        match entry r with
        | none => none
        | some (x, r) => (readEntries entry rounds r).map fun (xs, r) => (x :: xs, r)

/-- Type byte, remaining length, packet id, and entries. -/
def readFilterList (entry : BufferReader → Option (α × BufferReader)) (data : Bytes) : Option (FilterList α) :=
  match ({ buf := data } : BufferReader).readUint8 with
  | (none, _) => none
  | (some typeByte, r) =>
      match r.readRemainingLength with
      | (false, _, _) => none
      | (true, remainingLength, r) =>
          let behind := r.remaining
          match r.readUint16 with
          | (none, _) => none
          | (some packetId, r) =>
              (readEntries entry r.remaining r).map fun (topicFilters, r) =>
                { typeByte, remainingLength, behind, packetId, topicFilters, left := r.remaining }

theorem remaining_between (done rest : Bytes) : (between done rest).remaining = rest.length := by
  simp [remaining, between]

theorem empty_between (done rest : Bytes) : (between done rest).empty = rest.isEmpty := by
  cases rest <;> simp [empty, between]

/-- Entries that are each read back as they were written, whatever follows, are all read back. -/
theorem readEntries_between {entry : BufferReader → Option (α × BufferReader)} {encode : α → Bytes} (xs : List α)
    (reads : ∀ x ∈ xs, ∀ done rest, entry (between done (encode x ++ rest)) = some (x, between (done ++ encode x) rest))
    (nonempty : ∀ x ∈ xs, encode x ≠ []) (rounds : Nat) (enough : xs.length ≤ rounds) (done : Bytes) :
    readEntries entry rounds (between done (xs.flatMap encode)) = some (xs,
      between (done ++ xs.flatMap encode) []) := by
  induction xs generalizing rounds done with
  | nil => cases rounds <;> simp [readEntries, empty_between]
  | cons x xs ih =>
    obtain ⟨rounds, rfl⟩ : ∃ more, rounds = more + 1 := ⟨rounds - 1, by rw [List.length_cons] at enough; omega⟩
    have more : (encode x ++ xs.flatMap encode).isEmpty = false := by
      have := nonempty x (List.mem_cons_self ..)
      simp [this]
    have later := ih (fun y among => reads y (List.mem_cons_of_mem x among))
      (fun y among => nonempty y (List.mem_cons_of_mem x among)) rounds (Nat.le_of_succ_le_succ enough)
        (done ++ encode x)
    rw [List.flatMap_cons, readEntries, empty_between, more]
    simp only [Bool.false_eq_true, if_false, reads x (List.mem_cons_self ..), later, Option.map_some, List.append_assoc]

/-- A frame with a packet id and such entries is read back. -/
theorem readFilterList_frame {entry : BufferReader → Option (α × BufferReader)} {encode : α → Bytes} (xs : List α)
    (reads : ∀ x ∈ xs, ∀ done rest, entry (between done (encode x ++ rest)) = some (x, between (done ++ encode x) rest))
    (nonempty : ∀ x ∈ xs, encode x ≠ []) (typeByte : UInt8) (packetId : UInt16)
    (fits : (writeUint16 [] packetId ++ xs.flatMap encode).length ≤ maxRemainingLength) :
    readFilterList entry (frame typeByte (writeUint16 [] packetId ++ xs.flatMap encode)) =
      some { typeByte, packetId, topicFilters := xs, left := 0
             remainingLength := (writeUint16 [] packetId ++ xs.flatMap encode).length
             behind := (writeUint16 [] packetId ++ xs.flatMap encode).length } := by
  generalize body : writeUint16 [] packetId ++ xs.flatMap encode = bytes at fits ⊢
  obtain ⟨isField, value, -, short⟩ := digits_field fits
  have start : ({ buf := frame typeByte bytes } : BufferReader) =
      between [] (typeByte :: (remainingLengthDigits 5 bytes.length ++ bytes)) := by
    rw [frame, writeBytes, writeRemainingLength_fits fits]
    simp [between]
  -- an entry takes at least one byte, so the rounds suffice
  have enough : ∀ ys : List α, (∀ y ∈ ys, encode y ≠ []) → ys.length ≤ (ys.flatMap encode).length := by
    intro ys each
    induction ys with
    | nil => exact Nat.zero_le _
    | cons y ys ih =>
      have one := List.length_pos_iff.mpr (each y (List.mem_cons_self ..))
      have later := ih fun z among => each z (List.mem_cons_of_mem y among)
      rw [List.flatMap_cons, List.length_append, List.length_cons]
      omega
  rw [readFilterList, start, readUint8_between]
  simp only [readRemainingLength_field isField short, value, remaining_between]
  rw [← body, readUint16_between]
  simp only [remaining_between, readEntries_between xs reads nonempty _ (enough xs nonempty), Option.map_some,
    List.length_nil]

end BufferReader

/-! ### The two packets -/

open BufferReader

theorem readFilter_between (done rest : Bytes) {filter : Bytes} (fits : filter.length ≤ 65535) :
    readFilter (between done (writeString [] filter ++ rest)) = some (filter,
      between (done ++ writeString [] filter) rest) := by
  rw [readFilter, readString_between done rest filter fits]

theorem readFilterQos_between (done rest : Bytes) {entry : Bytes × UInt8} (fits : entry.1.length ≤ 65535) :
    readFilterQos (between done ((writeString [] entry.1 ++ [entry.2]) ++ rest)) =
      some (entry, between (done ++ (writeString [] entry.1 ++ [entry.2])) rest) := by
  rw [readFilterQos, List.append_assoc, readString_between done _ entry.1 fits, List.singleton_append]
  simp only [readUint8_between, List.append_assoc]

namespace SubscribePacket

def header (pkt : SubscribePacket) : Bytes :=
  writeUint16 [] pkt.packetId ++ pkt.topicFilters.flatMap fun entry => writeString [] entry.1 ++ [entry.2]

/-- Each filter has at most 65535 bytes, and the remaining length can be said. -/
structure Fits (pkt : SubscribePacket) : Prop where
  topicFilters : ∀ entry ∈ pkt.topicFilters, entry.1.length ≤ 65535
  remainingLength : pkt.header.length ≤ maxRemainingLength

theorem serialize_eq (pkt : SubscribePacket) :
    pkt.serialize = frame (PacketType.subscribe.toUint8 <<< 4 ||| 0x02) pkt.header := by
  have written : ∀ (entries : List (Bytes × UInt8)) (buf : Bytes),
      entries.foldl (fun buf tf => writeUint8 (writeString buf tf.1) tf.2) buf =
        buf ++ entries.flatMap fun entry => writeString [] entry.1 ++ [entry.2] := by
    intro entries
    induction entries with
    | nil => simp
    | cons entry entries ih =>
      intro buf
      rw [List.foldl_cons, ih, writeUint8, writeString_eq, List.flatMap_cons]
      simp only [List.append_assoc]
  rw [serialize, written, header]

theorem read_serialize (pkt : SubscribePacket) (fits : pkt.Fits) :
    readFilterList readFilterQos pkt.serialize = some
      { typeByte := 0x82, remainingLength := pkt.header.length, behind := pkt.header.length
        packetId := pkt.packetId, topicFilters := pkt.topicFilters, left := 0 } := by
  rw [serialize_eq]
  exact readFilterList_frame pkt.topicFilters
    (fun entry among done rest => readFilterQos_between done rest (fits.topicFilters entry among))
    (fun entry _ => by simp) _ _ fits.remainingLength

end SubscribePacket

namespace UnsubscribePacket

def header (pkt : UnsubscribePacket) : Bytes :=
  writeUint16 [] pkt.packetId ++ pkt.topicFilters.flatMap (writeString [])

/-- Each filter has at most 65535 bytes, and the remaining length can be said. -/
structure Fits (pkt : UnsubscribePacket) : Prop where
  topicFilters : ∀ filter ∈ pkt.topicFilters, filter.length ≤ 65535
  remainingLength : pkt.header.length ≤ maxRemainingLength

theorem serialize_eq (pkt : UnsubscribePacket) :
    pkt.serialize = frame (PacketType.unsubscribe.toUint8 <<< 4 ||| 0x02) pkt.header := by
  have written : ∀ (filters : List Bytes) (buf : Bytes),
      filters.foldl writeString buf = buf ++ filters.flatMap (writeString []) := by
    intro filters
    induction filters with
    | nil => simp
    | cons filter filters ih =>
      intro buf
      rw [List.foldl_cons, ih, writeString_eq, List.flatMap_cons, List.append_assoc]
  rw [serialize, written, header]

theorem read_serialize (pkt : UnsubscribePacket) (fits : pkt.Fits) :
    readFilterList readFilter pkt.serialize = some
      { typeByte := 0xA2, remainingLength := pkt.header.length, behind := pkt.header.length
        packetId := pkt.packetId, topicFilters := pkt.topicFilters, left := 0 } := by
  rw [serialize_eq]
  refine readFilterList_frame pkt.topicFilters
    (fun filter among done rest => readFilter_between done rest (fits.topicFilters filter among))
      (fun filter _ => ?_) _ _
    fits.remainingLength
  rw [← List.length_pos_iff, length_writeString]
  exact Nat.succ_pos _

end UnsubscribePacket

/-- What `buffer_reader` makes of a SUBSCRIBE or an UNSUBSCRIBE is the packet it was built from, with
nothing left, so no two packets give the same frame. -/
theorem filter_frames_unambiguous :
    (∀ pkt : SubscribePacket, pkt.Fits → readFilterList readFilterQos pkt.serialize = some
      { typeByte := 0x82, remainingLength := pkt.header.length, behind := pkt.header.length
        packetId := pkt.packetId, topicFilters := pkt.topicFilters, left := 0 }) ∧
    (∀ pkt : UnsubscribePacket, pkt.Fits → readFilterList readFilter pkt.serialize = some
      { typeByte := 0xA2, remainingLength := pkt.header.length, behind := pkt.header.length
        packetId := pkt.packetId, topicFilters := pkt.topicFilters, left := 0 }) ∧
    (∀ p q : SubscribePacket, p.Fits → q.Fits → p.serialize = q.serialize → p = q) ∧
    (∀ p q : UnsubscribePacket, p.Fits → q.Fits → p.serialize = q.serialize → p = q) ∧
    (∀ (p : SubscribePacket) (q : UnsubscribePacket), p.serialize ≠ q.serialize) := by
  refine ⟨SubscribePacket.read_serialize, UnsubscribePacket.read_serialize, ?_, ?_, ?_⟩
  · intro p q fits fits' same
    have read := p.read_serialize fits
    rw [same, q.read_serialize fits', Option.some.injEq, FilterList.mk.injEq] at read
    obtain ⟨-, -, -, packetId, topicFilters, -⟩ := read
    cases p
    cases q
    exact SubscribePacket.mk.injEq .. ▸ ⟨packetId.symm, topicFilters.symm⟩
  · intro p q fits fits' same
    have read := p.read_serialize fits
    rw [same, q.read_serialize fits', Option.some.injEq, FilterList.mk.injEq] at read
    obtain ⟨-, -, -, packetId, topicFilters, -⟩ := read
    cases p
    cases q
    exact UnsubscribePacket.mk.injEq .. ▸ ⟨packetId.symm, topicFilters.symm⟩
  · intro p q same
    rw [p.serialize_eq, q.serialize_eq] at same
    have first : (0x82 : UInt8) = 0xA2 := List.head_eq_of_cons_eq same
    exact absurd first (by decide)

/-- An empty filter, and one that looks like two. -/
theorem filter_frames_unambiguous_examples :
    readFilterList readFilterQos (SubscribePacket.serialize ⟨7, [([], 1), ([0, 1, 0x61, 2], 0)]⟩) = some
        { typeByte := 0x82, remainingLength := 12, behind := 12, packetId := 7
          topicFilters := [([], 1), ([0, 1, 0x61, 2], 0)], left := 0 } ∧
      readFilterList readFilter (UnsubscribePacket.serialize ⟨7, [[0x61]]⟩) = some
        { typeByte := 0xA2, remainingLength := 5, behind := 5, packetId := 7, topicFilters := [[0x61]], left := 0 } :=
  ⟨filter_frames_unambiguous.1 _ ⟨by decide, by decide⟩, filter_frames_unambiguous.2.1 _ ⟨by decide, by decide⟩⟩

end LiteMqtt
