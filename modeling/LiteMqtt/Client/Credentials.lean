import LiteMqtt.Client.Model
import LiteMqtt.Codec.Reencoding

/-!
# CONNECT and its credentials

A CONNECT as MQTT 3.1.1 has it: the flags say which fields the payload holds, and there is no password
without a user name. The client decides about each of the two by itself.
-/

namespace LiteMqtt

/-- The strings, each behind two bytes that say its length, and nothing after them. -/
def Fields : List Bytes → Bytes → Prop
  | [], bytes => bytes = []
  | str :: strs, bytes =>
      ∃ high low rest, bytes = high :: low :: (str ++ rest) ∧ wordOf high low = str.length ∧ Fields strs rest

structure ConnectContent where
  clientId : Bytes
  will : Option (Bytes × Bytes) := none
  username : Option Bytes := none
  password : Option Bytes := none

namespace ConnectContent

variable (content : ConnectContent)

def fields : List Bytes :=
  content.clientId :: (content.will.elim [] fun will => [will.1, will.2]) ++ content.username.toList ++
    content.password.toList

/-- The flags announce what there is, the reserved bit is clear, and no password goes without a user name. -/
structure Announced (flags : UInt8) : Prop where
  reserved : flags &&& 0x01 = 0
  will : flags &&& 0x04 ≠ 0 ↔ content.will.isSome = true
  username : flags &&& 0x80 ≠ 0 ↔ content.username.isSome = true
  password : flags &&& 0x40 ≠ 0 ↔ content.password.isSome = true
  together : flags &&& 0x40 ≠ 0 → flags &&& 0x80 ≠ 0

end ConnectContent

/-- Type byte, remaining length, protocol name and level, flags, keep-alive, and the payload. -/
def IsConnect (data : Bytes) (cleanSession : Bool) (keepAliveSeconds : UInt16) (content : ConnectContent) : Prop :=
  ∃ field flags high low payload,
    data = 0x10 :: (field ++ ([0, 4, 0x4d, 0x51, 0x54, 0x54, 4, flags, high, low] ++ payload)) ∧
    isLengthField field = true ∧ field.length ≤ 4 ∧ lengthValue field = 10 + payload.length ∧
    content.Announced flags ∧ (flags &&& 0x02 ≠ 0 ↔ cleanSession = true) ∧
    wordOf high low = keepAliveSeconds.toNat ∧ Fields content.fields payload

theorem lengthField_unique {field field' rest rest' : Bytes} (isField : isLengthField field = true)
    (short : field.length ≤ 4) (isField' : isLengthField field' = true) (short' : field'.length ≤ 4)
    (same : field ++ rest = field' ++ rest') : field = field' ∧ rest = rest' := by
  have read := BufferReader.readRemainingLength_field isField short [] rest
  have read' := BufferReader.readRemainingLength_field isField' short' [] rest'
  rw [same, read'] at read
  have position := congrArg (fun result => result.2.2.pos) read
  exact List.append_inj same position.symm

open BufferWriter

theorem writeUint16_bytes (value : UInt16) :
    ∃ high low, writeUint16 [] value = [high, low] ∧ wordOf high low = value.toNat := by
  refine ⟨(value >>> 8).toUInt8, value.toUInt8, rfl, ?_⟩
  have bound := value.toNat_lt
  simp only [wordOf, UInt16.toNat_toUInt8, UInt16.toNat_shiftRight, UInt16.reduceToNat, Nat.reduceMod,
    Nat.shiftRight_eq_div_pow]
  omega

theorem fields_cons {str : Bytes} (fits : str.length ≤ 65535) {strs : List Bytes} {rest : Bytes}
    (others : Fields strs rest) :
    Fields (str :: strs) (writeString [] str ++ rest) := by
  obtain ⟨high, low, bytes, word⟩ := writeUint16_bytes (UInt16.ofNat str.length)
  refine ⟨high, low, rest, ?_, ?_, others⟩
  · rw [writeString, bytes]
    simp
  · rw [word, UInt16.toNat_ofNat']
    exact Nat.mod_eq_of_lt (by omega)

namespace ConnectPacket

variable (pkt : ConnectPacket)

def given (str : Bytes) : Option Bytes := if str = [] then none else some str

theorem given_isSome (str : Bytes) : (given str).isSome = true ↔ str ≠ [] := by
  unfold given
  split <;> simp [*]

theorem fields_optional {str : Bytes} (fits : str.length ≤ 65535) {strs : List Bytes} {rest : Bytes}
    (others : Fields strs rest) : Fields ((given str).toList ++ strs) (optional str ++ rest) := by
  unfold given optional
  by_cases empty : str = []
  · simpa [empty] using others
  · simp only [if_neg empty, List.isEmpty_iff]
    exact fields_cons fits others

def content : ConnectContent :=
  { clientId := pkt.clientId, username := given pkt.username, password := given pkt.password }

theorem content_announced (tied : pkt.password = [] ∨ pkt.username ≠ []) : pkt.content.Announced pkt.connectFlags := by
  obtain ⟨-, username, password⟩ := pkt.connectFlags_bits
  have others : pkt.connectFlags &&& 0x01 = 0 ∧ pkt.connectFlags &&& 0x04 = 0 := by
    unfold connectFlags
    cases pkt.cleanSession <;> cases pkt.username.isEmpty <;> cases pkt.password.isEmpty <;> decide
  constructor
  · exact others.1
  · simp [others.2, content]
  · rw [username]
    exact (given_isSome pkt.username).symm
  · rw [password]
    exact (given_isSome pkt.password).symm
  · rw [password, username]
    exact fun some => tied.resolve_left some

theorem fields_payload (fits : pkt.Fits) :
    Fields pkt.content.fields (writeString [] pkt.clientId ++ (optional pkt.username ++ optional pkt.password)) := by
  have nothing : Fields [] [] := rfl
  have password := fields_optional fits.password nothing
  have username := fields_optional fits.username password
  have whole := fields_cons fits.clientId username
  simpa [ConnectContent.fields, content] using whole

theorem serialize_shape (fits : pkt.Fits) : ∃ field high low payload,
    pkt.serialize = 0x10 :: (field ++ ([0, 4, 0x4d, 0x51, 0x54, 0x54, 4, pkt.connectFlags, high, low] ++ payload)) ∧
    isLengthField field = true ∧ field.length ≤ 4 ∧ lengthValue field = 10 + payload.length ∧
    wordOf high low = pkt.keepAliveSeconds.toNat ∧ Fields pkt.content.fields payload := by
  obtain ⟨isField, value, -, short⟩ := digits_field (pkt.header_fits fits)
  obtain ⟨high, low, bytes, word⟩ := writeUint16_bytes pkt.keepAliveSeconds
  have header : pkt.header = [0, 4, 0x4d, 0x51, 0x54, 0x54, 4, pkt.connectFlags, high, low] ++
      (writeString [] pkt.clientId ++ (optional pkt.username ++ optional pkt.password)) := by
    rw [ConnectPacket.header, bytes]
    rfl
  refine ⟨_, high, low, _, ?_, isField, short, ?_, word, pkt.fields_payload fits⟩
  · rw [serialize_eq, frame, writeBytes, writeRemainingLength_fits (pkt.header_fits fits), header]
    rfl
  · rw [value, header, List.length_append]
    rfl

theorem isConnect_iff (fits : pkt.Fits) :
    (∃ content, IsConnect pkt.serialize pkt.cleanSession pkt.keepAliveSeconds content ∧
      content.clientId = pkt.clientId ∧ content.will = none ∧ content.username.getD [] = pkt.username ∧
      content.password.getD [] = pkt.password) ↔ pkt.password = [] ∨ pkt.username ≠ [] := by
  obtain ⟨field, high, low, payload, shape, isField, short, value, word, fields⟩ := pkt.serialize_shape fits
  obtain ⟨cleanSession, username, password⟩ := pkt.connectFlags_bits
  constructor
  · rintro ⟨content, ⟨field', flags, high', low', payload', shape', isField', short', -, announced, -⟩, -⟩
    have same := List.tail_eq_of_cons_eq (shape.symm.trans shape')
    obtain ⟨-, body⟩ := lengthField_unique isField short isField' short' same
    have flagged : pkt.connectFlags = flags := by
      simp only [List.cons_append, List.cons.injEq, true_and] at body
      exact body.1
    by_cases empty : pkt.password = []
    · exact .inl empty
    · exact .inr (username.mp (flagged ▸ announced.together (flagged ▸ password.mpr empty)))
  · intro tied
    have whole : ∀ str, (given str).getD [] = str := by
      intro str
      unfold given
      split <;> simp [*]
    exact ⟨pkt.content, ⟨field, pkt.connectFlags, high, low, payload, shape, isField, short, value,
      pkt.content_announced tied, cleanSession, word, fields⟩, rfl, rfl, whole _, whole _⟩

end ConnectPacket

namespace Sys

/-- The packet is a CONNECT of the grammar and says what the client was given. -/
def ObeysGrammar (s : Sys) (data : Bytes) : Prop :=
  ∃ content, IsConnect data s.cleanSession s.keepAliveSeconds content ∧ content.clientId = s.clientId ∧
    content.will = none ∧ content.username.getD [] = s.username ∧ content.password.getD [] = s.password

/-- `send_connect_packet` hands over one frame, which obeys the grammar exactly if no password was set
without a user name. -/
theorem connect_obeys_grammar_iff (s : Sys) (attempt : Nat) (clientId : s.clientId.length ≤ 65535)
    (username : s.username.length ≤ 65535) (password : s.password.length ≤ 65535) :
    ∃ item, (s.sendConnectPacket attempt).net.submitted = s.net.submitted ++ [item] ∧
      (s.ObeysGrammar item.buffer ↔ s.password = [] ∨ s.username ≠ []) :=
  ⟨_, rfl, ConnectPacket.isConnect_iff _ ⟨clientId, username, password⟩⟩

/-- Both set. -/
theorem connect_obeys_grammar_both :
    ∃ item, (({ username := [0x75], password := [0x70] } : Sys).sendConnectPacket 0).net.submitted = [item] ∧
      ({ username := [0x75], password := [0x70] } : Sys).ObeysGrammar item.buffer := by
  obtain ⟨item, handed, obeys⟩ := connect_obeys_grammar_iff { username := [0x75], password := [0x70] } 0 (by decide)
    (by decide) (by decide)
  exact ⟨item, handed, obeys.mpr (.inr (by decide))⟩

/-- `set_password` without `set_username`: the password flag is set alone. -/
theorem password_without_username :
    ∃ item, (({ password := [0x70] } : Sys).sendConnectPacket 0).net.submitted = [item] ∧
      ¬ ({ password := [0x70] } : Sys).ObeysGrammar item.buffer := by
  refine ⟨_, rfl, ?_⟩
  intro connects
  have tied := (ConnectPacket.isConnect_iff _ ⟨by decide, by decide, by decide⟩).mp connects
  revert tied
  decide

end Sys

end LiteMqtt
