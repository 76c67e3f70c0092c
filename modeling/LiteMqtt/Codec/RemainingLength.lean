import LiteMqtt.Codec.Buffer
import Mathlib.Tactic.Ring

/-!
# The remaining length

A length is written in base 128 digits, low digit first, the last one without the continuation bit. The
reader takes up to four of them, shortest form or not. The writer gives the shortest.
-/

namespace LiteMqtt

/-! ### Length fields -/

def continues (digit : UInt8) : Bool := digit &&& 0x80 ≠ 0

/-- Exactly the last byte of a length field lacks the continuation bit. -/
def isLengthField : Bytes → Bool
  | [] => false
  | [last] => !continues last
  | digit :: rest => continues digit && isLengthField rest

def lengthValue : Bytes → Nat
  | [] => 0
  | digit :: rest => (digit &&& 0x7F).toNat + 128 * lengthValue rest

/-- One byte, or a last byte that is not zero. -/
def isShortest (field : Bytes) : Bool := field.length == 1 || field.getLast? != some 0

/-- The largest remaining length that four digits can say. -/
def maxRemainingLength : Nat := 268435455

theorem isLengthField_split {field : Bytes} (h : isLengthField field = true) :
    ∃ digits last, field = digits ++ [last] ∧ digits.all continues = true ∧ continues last = false := by
  induction field with
  | nil => cases h
  | cons digit rest ih =>
    cases rest with
    | nil => exact ⟨[], digit, rfl, rfl, by simpa [isLengthField] using h⟩
    | cons next rest =>
      simp only [isLengthField, Bool.and_eq_true] at h ih
      obtain ⟨digits, last, shape, continuing, stops⟩ := ih h.2
      exact ⟨digit :: digits, last, by rw [shape]; rfl, by simp [h.1, continuing], stops⟩

theorem isLengthField_append {digits : Bytes} {last : UInt8} (continuing : digits.all continues = true)
    (stops : continues last = false) : isLengthField (digits ++ [last]) = true := by
  induction digits with
  | nil => simp [isLengthField, stops]
  | cons digit rest ih =>
    rw [List.all_cons, Bool.and_eq_true] at continuing
    cases more : rest ++ [last] with
    | nil => simp at more
    | cons next later =>
      rw [List.cons_append, more, isLengthField, ← more, continuing.1, ih continuing.2]
      · rfl
      · nofun

theorem lengthValue_append (digits rest : Bytes) :
    lengthValue (digits ++ rest) = lengthValue digits + 128 ^ digits.length * lengthValue rest := by
  induction digits with
  | nil => simp [lengthValue]
  | cons digit digits ih =>
    rw [List.cons_append, lengthValue, lengthValue, ih, List.length_cons]
    ring

theorem lengthField_or_continues (bytes : Bytes) :
    (∃ field rest, bytes = field ++ rest ∧ isLengthField field = true) ∨ bytes.all continues = true := by
  induction bytes with
  | nil => exact .inr rfl
  | cons digit rest ih =>
    by_cases more : continues digit = true
    · rcases ih with ⟨field, later, rfl, isField⟩ | continuing
      · refine .inl ⟨digit :: field, later, rfl, ?_⟩
        obtain ⟨digits, last, rfl, continuing, stops⟩ := isLengthField_split isField
        have all : (digit :: digits).all continues = true := by simp [more, continuing]
        exact isLengthField_append all stops
      · exact .inr (by simp [more, continuing])
    · exact .inl ⟨[digit], rest, rfl, by simpa [isLengthField] using more⟩

theorem lengthDigit (val : Nat) (digit : UInt8) (more : Bool)
    (is : digit = if more then UInt8.ofNat (val % 128) ||| 0x80 else UInt8.ofNat (val % 128)) :
    (digit &&& 0x7F).toNat = val % 128 ∧ (digit &&& 0x80 ≠ 0 ↔ more = true) := by
  have table : ∀ i : Fin 128, ((UInt8.ofNat i ||| 0x80) &&& 0x7F).toNat = i ∧ (UInt8.ofNat i ||| 0x80) &&& 0x80 ≠ 0 ∧
      (UInt8.ofNat i &&& 0x7F).toNat = i ∧ UInt8.ofNat i &&& 0x80 = 0 := by
    decide +kernel
  obtain ⟨high, flagged, low, clear⟩ := table ⟨val % 128, Nat.mod_lt _ (by decide)⟩
  cases more with
  | true => exact is ▸ ⟨high, by simpa using flagged⟩
  | false => exact is ▸ ⟨low, by simpa using clear⟩

theorem digit_halves (digit : UInt8) : (digit &&& 0x7F).toNat < 128 ∧
    (continues digit = true → UInt8.ofNat (digit &&& 0x7F).toNat ||| 0x80 = digit) ∧
    (continues digit = false → UInt8.ofNat (digit &&& 0x7F).toNat = digit) := by
  have table : ∀ i : Fin 256, ((UInt8.ofNat i) &&& 0x7F).toNat < 128 ∧
      (continues (UInt8.ofNat i) = true → UInt8.ofNat ((UInt8.ofNat i) &&& 0x7F).toNat ||| 0x80 = UInt8.ofNat i) ∧
      (continues (UInt8.ofNat i) = false → UInt8.ofNat ((UInt8.ofNat i) &&& 0x7F).toNat = UInt8.ofNat i) := by
    decide +kernel
  have whole := table ⟨digit.toNat, digit.toNat_lt⟩
  rwa [show UInt8.ofNat digit.toNat = digit from UInt8.ofNat_toNat] at whole

/-! ### The writer -/

namespace BufferWriter

theorem digits_step (rounds val : Nat) : remainingLengthDigits (rounds + 1) val =
    if val / 128 > 0 then (UInt8.ofNat (val % 128) ||| 0x80) :: remainingLengthDigits rounds (val / 128)
    else [UInt8.ofNat (val % 128)] := rfl

theorem digits_say (left val : Nat) (small : val < 128 ^ (left + 1)) :
    isLengthField (remainingLengthDigits (left + 1) val) = true ∧
      lengthValue (remainingLengthDigits (left + 1) val) = val := by
  induction left generalizing val with
  | zero =>
    have last : ¬ val / 128 > 0 := by omega
    obtain ⟨low, more⟩ := lengthDigit val _ false rfl
    rw [digits_step, if_neg last]
    simp only [Bool.false_eq_true, if_false, iff_false, not_not] at low more
    exact ⟨by simp [isLengthField, continues, more], by simp only [lengthValue, low]; omega⟩
  | succ left ih =>
    by_cases another : val / 128 > 0
    · obtain ⟨low, more⟩ := lengthDigit val _ true rfl
      simp only [if_true, iff_true] at low more
      obtain ⟨isField, value⟩ := ih (val / 128) (Nat.div_lt_of_lt_mul (by rw [Nat.pow_succ] at small; omega))
      obtain ⟨digits, final, shape, continuing, stops⟩ := isLengthField_split isField
      rw [digits_step, if_pos another]
      refine ⟨?_, ?_⟩
      · have all : ((UInt8.ofNat (val % 128) ||| 0x80) :: digits).all continues = true := by
          simpa [continues, continuing] using more
        rw [shape]
        exact isLengthField_append all stops
      · rw [lengthValue, low, value, Nat.mod_add_div]
    · obtain ⟨low, more⟩ := lengthDigit val _ false rfl
      rw [digits_step, if_neg another]
      simp only [Bool.false_eq_true, if_false, iff_false, not_not] at low more
      exact ⟨by simp [isLengthField, continues, more], by simp only [lengthValue, low]; omega⟩

theorem length_digits_le (rounds left val : Nat) (small : val < 128 ^ (left + 1)) :
    (remainingLengthDigits rounds val).length ≤ left + 1 := by
  induction left generalizing rounds val with
  | zero =>
    cases rounds with
    | zero => exact Nat.zero_le _
    | succ rounds =>
      rw [digits_step, if_neg (by omega)]
      exact Nat.le_refl 1
  | succ left ih =>
    cases rounds with
    | zero => exact Nat.zero_le _
    | succ rounds =>
      rw [digits_step]
      split
      · have later := ih rounds (val / 128) (Nat.div_lt_of_lt_mul (by rw [Nat.pow_succ] at small; omega))
        rw [List.length_cons]
        omega
      · exact Nat.succ_le_succ (Nat.zero_le _)

theorem digits_last (left val : Nat) (small : val < 128 ^ (left + 1)) (positive : 0 < val) :
    (remainingLengthDigits (left + 1) val).getLast? ≠ some 0 := by
  have nonzero : ∀ v, 0 < v → v < 128 → [UInt8.ofNat (v % 128)].getLast? ≠ some 0 := by
    intro v some below zero
    have low := (lengthDigit v _ false rfl).1
    simp only [List.getLast?_singleton, Option.some.injEq] at zero
    simp only [Bool.false_eq_true, if_false, zero] at low
    have : v % 128 = v := Nat.mod_eq_of_lt below
    change 0 = _ at low
    omega
  induction left generalizing val with
  | zero =>
    rw [digits_step, if_neg (by omega)]
    exact nonzero val positive (by omega)
  | succ left ih =>
    rw [digits_step]
    split
    · rename_i another
      have below : val / 128 < 128 ^ (left + 1) := Nat.div_lt_of_lt_mul (by rw [Nat.pow_succ] at small; omega)
      have later := ih (val / 128) below another
      obtain ⟨digits, last, shape, -⟩ := isLengthField_split (digits_say left (val / 128) below).1
      rw [shape, List.getLast?_concat] at later
      rwa [shape, ← List.cons_append, List.getLast?_concat]
    · exact nonzero val positive (by omega)

theorem digits_shortest (left val : Nat) (small : val < 128 ^ (left + 1)) :
    isShortest (remainingLengthDigits (left + 1) val) = true := by
  by_cases positive : 0 < val
  · simp [isShortest, digits_last left val small positive]
  · obtain rfl : val = 0 := by omega
    rfl

end BufferWriter

theorem lengthValue_lt (field : Bytes) : lengthValue field < 128 ^ field.length := by
  induction field with
  | nil => exact Nat.one_pos
  | cons digit rest ih =>
    have low := (digit_halves digit).1
    rw [lengthValue, List.length_cons, Nat.pow_succ]
    omega

theorem lengthValue_pos {field : Bytes} (isField : isLengthField field = true) (last : field.getLast? ≠ some 0) :
    0 < lengthValue field := by
  obtain ⟨digits, final, rfl, -, stops⟩ := isLengthField_split isField
  rw [List.getLast?_append, List.getLast?_singleton] at last
  have whole := (digit_halves final).2.2 stops
  have some : 0 < (final &&& 0x7F).toNat := by
    refine Nat.pos_of_ne_zero fun zero => last ?_
    rw [zero] at whole
    simp [← whole]
  rw [lengthValue_append, lengthValue, lengthValue, Nat.mul_zero, Nat.add_zero]
  have := Nat.mul_pos (Nat.pow_pos (n := digits.length) (show 0 < 128 by decide)) some
  omega

open BufferWriter in
theorem digits_lengthValue {field : Bytes} (isField : isLengthField field = true) (shortest : isShortest field = true)
    {rounds : Nat} (enough : field.length ≤ rounds) : remainingLengthDigits rounds (lengthValue field) = field := by
  induction field generalizing rounds with
  | nil => cases isField
  | cons digit rest ih =>
    obtain ⟨low, high, bare⟩ := digit_halves digit
    cases rounds with
    | zero => cases enough
    | succ rounds =>
      cases rest with
      | nil =>
        have stops : continues digit = false := by simpa [isLengthField] using isField
        have value : lengthValue [digit] = (digit &&& 0x7F).toNat := by simp [lengthValue]
        rw [value, digits_step, if_neg (by omega), Nat.mod_eq_of_lt low, bare stops]
      | cons next later =>
        simp only [isLengthField, Bool.and_eq_true] at isField
        have last : (next :: later).getLast? ≠ some 0 := by simpa [isShortest] using shortest
        have positive := lengthValue_pos isField.2 last
        have value : lengthValue (digit :: next :: later) / 128 = lengthValue (next :: later) ∧
            lengthValue (digit :: next :: later) % 128 = (digit &&& 0x7F).toNat := by
          rw [lengthValue]
          omega
        have whole : remainingLengthDigits rounds (lengthValue (next :: later)) = next :: later :=
          ih isField.2 (by simp [isShortest, last]) (Nat.le_of_succ_le_succ enough)
        rw [digits_step, value.1, value.2, if_pos positive, whole, high isField.1]

/-- What can be in front of a reader: a length field, its beginning, or four digits that continue and more. -/
theorem lengthField_cases (bytes : Bytes) :
    (∃ field rest, bytes = field ++ rest ∧ isLengthField field = true ∧ field.length ≤ 4) ∨
      (bytes.all continues = true ∧ bytes.length ≤ 4) ∨
      ∃ digits fifth rest, bytes = digits ++ fifth :: rest ∧ digits.all continues = true ∧ digits.length = 4 := by
  -- Of bytes that continue, the first four decide.
  have cut : ∀ digits rest : Bytes, bytes = digits ++ rest → digits.all continues = true → 4 < bytes.length →
      4 ≤ digits.length →
      ∃ digits fifth rest, bytes = digits ++ fifth :: rest ∧ digits.all continues = true ∧ digits.length = 4 := by
    intro digits rest shape continuing long enough
    have some : bytes.drop 4 ≠ [] := by
      intro none
      have := List.drop_eq_nil_iff.mp none
      omega
    obtain ⟨fifth, later, more⟩ := List.exists_cons_of_ne_nil some
    refine ⟨bytes.take 4, fifth, later, ?_, ?_, ?_⟩
    · rw [← more, List.take_append_drop]
    · rw [shape, List.take_append_of_le_length enough]
      exact List.all_eq_true.mpr fun digit among => List.all_eq_true.mp continuing digit (List.mem_of_mem_take among)
    · rw [List.length_take]
      omega
  rcases lengthField_or_continues bytes with ⟨field, rest, shape, isField⟩ | continuing
  · by_cases short : field.length ≤ 4
    · exact .inl ⟨field, rest, shape, isField, short⟩
    · obtain ⟨digits, last, rfl, continuing, -⟩ := isLengthField_split isField
      simp only [List.length_append, List.length_singleton] at short
      refine .inr (.inr (cut digits (last :: rest) (by simpa using shape) continuing ?_ (by omega)))
      rw [shape]
      simp only [List.length_append, List.length_singleton]
      omega
  · by_cases short : bytes.length ≤ 4
    · exact .inr (.inl ⟨continuing, short⟩)
    · exact .inr (.inr (cut bytes [] (List.append_nil _).symm continuing (by omega) (by omega)))

/-! ### The reader -/

namespace BufferReader

/-- The reader that has read `done` and has `rest` to read. -/
def between (done rest : Bytes) : BufferReader := { buf := done ++ rest, pos := done.length }

theorem readUint8_between (done rest : Bytes) (byte : UInt8) :
    (between done (byte :: rest)).readUint8 = (some byte, between (done ++ [byte]) rest) := by
  simp [readUint8, between]

theorem readUint8_end (done : Bytes) : (between done []).readUint8 = (none, between done []) := by
  simp [readUint8, between]

theorem remainingLengthLoop_continues {digits : Bytes} (continuing : digits.all continues = true)
    (rounds value multiplier bytesRead : Nat) (room : bytesRead + digits.length ≤ 4) (done rest : Bytes) :
    remainingLengthLoop (rounds + digits.length) (between done (digits ++ rest)) value multiplier bytesRead =
      remainingLengthLoop rounds (between (done ++ digits) rest) (value + lengthValue digits * multiplier)
        (multiplier * 128 ^ digits.length) (bytesRead + digits.length) := by
  induction digits generalizing value multiplier bytesRead done with
  | nil => simp [lengthValue]
  | cons digit digits ih =>
    rw [List.all_cons, Bool.and_eq_true] at continuing
    rw [List.length_cons] at room ⊢
    have more : digit &&& 0x80 ≠ 0 := by simpa [continues] using continuing.1
    have within : ¬ bytesRead + 1 > 4 := by omega
    rw [← Nat.add_assoc, remainingLengthLoop, List.cons_append, readUint8_between]
    simp only [if_neg within, if_pos more]
    rw [ih continuing.2 _ _ _ (by omega)]
    congr 1
    · simp
    · rw [lengthValue]
      ring
    · ring
    · omega

theorem remainingLengthLoop_last {last : UInt8} (stops : continues last = false)
    (rounds value multiplier bytesRead : Nat)
    (room : bytesRead < 4) (done rest : Bytes) :
    remainingLengthLoop (rounds + 1) (between done (last :: rest)) value multiplier bytesRead =
      (true, value + (last &&& 0x7F).toNat * multiplier, between (done ++ [last]) rest) := by
  have final : ¬ last &&& 0x80 ≠ 0 := by simpa [continues] using stops
  have within : ¬ bytesRead + 1 > 4 := by omega
  rw [remainingLengthLoop, readUint8_between]
  simp only [if_neg within, if_neg final]

theorem readRemainingLength_field {field : Bytes} (isField : isLengthField field = true) (short : field.length ≤ 4)
    (done rest : Bytes) : (between done (field ++ rest)).readRemainingLength =
      (true, lengthValue field, between (done ++ field) rest) := by
  obtain ⟨digits, last, rfl, continuing, stops⟩ := isLengthField_split isField
  rw [List.length_append, List.length_singleton] at short
  obtain ⟨rounds, count⟩ := Nat.exists_eq_add_of_le short
  have all : 5 = rounds + 1 + 1 + digits.length := by omega
  rw [readRemainingLength, all, List.append_assoc, remainingLengthLoop_continues continuing _ 0 1 0 (by omega),
    List.singleton_append, remainingLengthLoop_last stops _ _ _ _ (by omega), lengthValue_append]
  simp [lengthValue, Nat.mul_comm]

theorem readRemainingLength_cut {digits : Bytes} (continuing : digits.all continues = true) (short : digits.length ≤ 4)
    (done : Bytes) :
      ∃ value, (between done digits).readRemainingLength = (false, value, between (done ++ digits) []) := by
  obtain ⟨rounds, count⟩ := Nat.exists_eq_add_of_le short
  have all : 5 = rounds + 1 + digits.length := by omega
  have taken := remainingLengthLoop_continues continuing (rounds + 1) 0 1 0 (by omega) done []
  rw [List.append_nil] at taken
  rw [readRemainingLength, all, taken, remainingLengthLoop, readUint8_end]
  exact ⟨_, rfl⟩

theorem readRemainingLength_overlong {digits : Bytes} (continuing : digits.all continues = true)
    (four : digits.length = 4)
    (done : Bytes) (fifth : UInt8) (rest : Bytes) :
      ∃ value, (between done (digits ++ fifth :: rest)).readRemainingLength =
      (false, value, between (done ++ digits ++ [fifth]) rest) := by
  have all : 5 = 0 + 1 + digits.length := by omega
  rw [readRemainingLength, all, remainingLengthLoop_continues continuing _ 0 1 0 (by omega), remainingLengthLoop,
    readUint8_between]
  simp only [four]
  exact ⟨_, rfl⟩

/-- The loop with the types of the source: the multiplier and the product are `uint32_t`, the sum is a
`size_t`. -/
def remainingLengthLoop32 : Nat → BufferReader → Nat → UInt32 → Nat → Bool × Nat × BufferReader
  | 0, r, value, _, _ => (false, value, r)
  | rounds + 1, r, value, multiplier, bytesRead =>
      match r.readUint8 with
      | (none, r) => (false, value, r)
      | (some digit, r) =>
          if bytesRead + 1 > 4 then (false, value, r)
          else
            let value := value + ((digit &&& 0x7F).toUInt32 * multiplier).toNat
            if digit &&& 0x80 ≠ 0 then
              remainingLengthLoop32 rounds r value (multiplier * 128) (bytesRead + 1)
            else (true, value, r)

def readRemainingLength32 (r : BufferReader) : Bool × Nat × BufferReader :=
  remainingLengthLoop32 5 r 0 1 0

theorem remainingLengthLoop32_exact (rounds : Nat) (r : BufferReader) (value bytesRead : Nat) (multiplier : UInt32)
    (power : bytesRead ≤ 4 → multiplier.toNat = 128 ^ bytesRead) :
    remainingLengthLoop32 rounds r value multiplier bytesRead =
      remainingLengthLoop rounds r value (128 ^ bytesRead) bytesRead := by
  induction rounds generalizing r value bytesRead multiplier with
  | zero => rfl
  | succ rounds ih =>
    unfold remainingLengthLoop32 remainingLengthLoop
    rcases r.readUint8 with ⟨_ | digit, r⟩
    · rfl
    dsimp only
    split
    · rfl
    rename_i within
    have low := (digit_halves digit).1
    have bound : 128 ^ bytesRead ≤ 128 ^ 3 := Nat.pow_le_pow_right (by decide) (by omega)
    have fits : (digit &&& 0x7F).toNat * 128 ^ bytesRead ≤ 127 * 128 ^ 3 := Nat.mul_le_mul (by omega) bound
    have product : ((digit &&& 0x7F).toUInt32 * multiplier).toNat = (digit &&& 0x7F).toNat * 128 ^ bytesRead := by
      rw [UInt32.toNat_mul, power (by omega), UInt8.toNat_toUInt32]
      exact Nat.mod_eq_of_lt (by omega)
    have next : (multiplier * 128).toNat = 128 ^ (bytesRead + 1) := by
      rw [UInt32.toNat_mul, power (by omega), Nat.pow_succ]
      exact Nat.mod_eq_of_lt (by simp only [UInt32.reduceToNat]; omega)
    rw [product]
    split
    · rw [ih _ _ _ _ fun _ => next, Nat.pow_succ]
    · rfl

theorem readRemainingLength32_exact (r : BufferReader) : r.readRemainingLength32 = r.readRemainingLength :=
  remainingLengthLoop32_exact 5 r 0 0 1 fun _ => rfl

theorem field_of_readRemainingLength {done bytes : Bytes} {value : Nat} {r : BufferReader}
    (success : (between done bytes).readRemainingLength = (true, value, r)) :
    ∃ field rest, bytes = field ++ rest ∧ isLengthField field = true ∧ field.length ≤ 4 ∧ value = lengthValue field ∧
      r = between (done ++ field) rest := by
  rcases lengthField_cases bytes with ⟨field, rest, rfl, isField, short⟩ | ⟨continuing, short⟩ |
    ⟨digits, fifth, rest, rfl, continuing, four⟩
  · rw [readRemainingLength_field isField short] at success
    obtain ⟨-, rfl, rfl⟩ := by simpa only [Prod.mk.injEq] using success
    exact ⟨field, rest, rfl, isField, short, rfl, rfl⟩
  · obtain ⟨seen, failed⟩ := readRemainingLength_cut continuing short done
    exact absurd (congrArg Prod.fst (failed.symm.trans success)) nofun
  · obtain ⟨seen, failed⟩ := readRemainingLength_overlong continuing four done fifth rest
    exact absurd (congrArg Prod.fst (failed.symm.trans success)) nofun

end BufferReader

/-! ### Writer and reader -/

open BufferWriter BufferReader

theorem writeRemainingLength_fits {n : Nat} (fits : n ≤ maxRemainingLength) (buf : Bytes) :
    writeRemainingLength buf n = buf ++ remainingLengthDigits 5 n := by
  unfold maxRemainingLength at fits
  rw [writeRemainingLength, Nat.mod_eq_of_lt (by omega)]

theorem digits_field {n : Nat} (fits : n ≤ maxRemainingLength) :
    isLengthField (remainingLengthDigits 5 n) = true ∧ lengthValue (remainingLengthDigits 5 n) = n ∧
      1 ≤ (remainingLengthDigits 5 n).length ∧ (remainingLengthDigits 5 n).length ≤ 4 := by
  unfold maxRemainingLength at fits
  obtain ⟨isField, value⟩ := digits_say 4 n (by omega)
  refine ⟨isField, value, ?_, length_digits_le 5 3 n (by omega)⟩
  obtain ⟨digits, last, shape, -⟩ := isLengthField_split isField
  rw [shape, List.length_append]
  exact Nat.le_add_left 1 _

theorem lengthValue_le {field : Bytes} (short : field.length ≤ 4) : lengthValue field ≤ maxRemainingLength := by
  have below := lengthValue_lt field
  have most : 128 ^ field.length ≤ 128 ^ 4 := Nat.pow_le_pow_right (by decide) short
  unfold maxRemainingLength
  omega

/-- The writer gives the shortest form, the reader takes every form, and the 32-bit arithmetic of both is
exact: what is written is read back, and what is read is written back in at most as many bytes, the same
ones exactly if they were the shortest form. -/
theorem remaining_length_canonical :
    (∀ (n : Nat) (rest : Bytes), n ≤ maxRemainingLength →
      let bytes := writeRemainingLength [] n
      1 ≤ bytes.length ∧ bytes.length ≤ 4 ∧
        ({ buf := bytes ++ rest } : BufferReader).readRemainingLength32 =
          (true, n, { buf := bytes ++ rest, pos := bytes.length })) ∧
    (∀ (bytes : Bytes) (value : Nat) (r : BufferReader),
      ({ buf := bytes } : BufferReader).readRemainingLength32 = (true, value, r) →
      (writeRemainingLength [] value).length ≤ r.pos ∧
        (writeRemainingLength [] value = bytes.take r.pos ↔ r.pos = 1 ∨ bytes[r.pos - 1]? ≠ some 0)) := by
  constructor
  · intro n rest fits
    obtain ⟨isField, value, some, short⟩ := digits_field fits
    rw [writeRemainingLength_fits fits, List.nil_append]
    have read := readRemainingLength_field isField short [] rest
    rw [value] at read
    refine ⟨some, short, ?_⟩
    rw [readRemainingLength32_exact]
    exact read
  · intro bytes value r success
    rw [readRemainingLength32_exact] at success
    have read : (between [] bytes).readRemainingLength = (true, value, r) := success
    obtain ⟨field, rest, rfl, isField, short, rfl, rfl⟩ := field_of_readRemainingLength read
    have position : (between ([] ++ field) rest).pos = field.length := rfl
    have written := writeRemainingLength_fits (lengthValue_le short) []
    rw [List.nil_append] at written
    obtain ⟨digits, last, shape, -⟩ := isLengthField_split isField
    have count : field.length = digits.length + 1 := by rw [shape, List.length_append, List.length_singleton]
    have final : (field ++ rest)[field.length - 1]? = field.getLast? := by
      rw [List.getElem?_append_left (by omega), List.getLast?_eq_getElem?]
    rw [position, written, List.take_left, final]
    refine ⟨?_, ?_⟩
    · have below := lengthValue_lt field
      rw [count] at below ⊢
      exact length_digits_le 5 digits.length _ below
    · have shortest : isShortest field = true ↔ field.length = 1 ∨ field.getLast? ≠ some 0 := by
        simp [isShortest]
      rw [← shortest]
      constructor
      · intro same
        have below : lengthValue field < 128 ^ 5 := by
          have := lengthValue_le short
          unfold maxRemainingLength at this
          omega
        rw [← same]
        exact digits_shortest 4 _ below
      · intro least
        exact digits_lengthValue isField least (by omega)

/-- The largest length is written in four bytes; a zero padded to two is written back in one. -/
theorem remaining_length_canonical_examples :
    ({ buf := writeRemainingLength [] 268435455 ++ [7] } : BufferReader).readRemainingLength32 =
        (true, 268435455, { buf := writeRemainingLength [] 268435455 ++ [7], pos := 4 }) ∧
      (writeRemainingLength [] 0).length ≤ 2 :=
  ⟨(remaining_length_canonical.1 268435455 [7] (by decide)).2.2,
    (remaining_length_canonical.2 [0x80, 0x00, 9] 0 { buf := [0x80, 0x00, 9], pos := 2 } rfl).1⟩

end LiteMqtt
