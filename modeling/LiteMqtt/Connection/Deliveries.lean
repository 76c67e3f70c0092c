import LiteMqtt.Connection.Attempts
import LiteMqtt.Connection.Closing
import LiteMqtt.Connection.LengthBytes

/-!
# What the connection delivers

One packet is read at a time, whatever the owner and the kernel do, so every packet that is handed over
is a frame, and the parser finds in it the length that the connection read.
-/

namespace LiteMqtt

variable {H K : Type}

/-- A read asks for what the header bytes lead to. -/
def SocketOp.Sound (header : Bytes) : SocketOp H → Prop
  | .read phase count _ => ReadState.Fits header phase count
  | _ => True

/-- A completed read has as many bytes as it asked for, and a packet on its way to the owner is a frame. -/
def Task.Sound (header : Bytes) : Task H K → Prop
  | .read phase _ (.ok bytes) => ReadState.Fits header phase bytes.length
  | .readHandler _ none packet => ∃ fr : Frame, packet = fr.bytes
  | _ => True

def StackEntry.Sound : StackEntry H K → Prop
  | .invoke (.read _ none packet) => ∃ fr : Frame, packet = fr.bytes
  | _ => True

theorem SocketOp.sound_other {op : SocketOp H} (other : op.isRead = false) (header : Bytes) : op.Sound header := by
  cases op with
  | read phase count handler => cases other
  | _ => trivial

theorem Task.sound_other {task : Task H K} (other : task.isRead = false) {header : Bytes} (sound : task.Sound header)
    (header' : Bytes) : task.Sound header' := by
  cases task with
  | read phase handler result => cases other
  | readHandler handler ec packet => cases ec <;> exact sound
  | _ => trivial

theorem WriteItem.sound_invocation (item : WriteItem H) (ec : ErrorCode) :
    ∀ entry ∈ (item.invocation ec : List (StackEntry H K)), entry.Sound := by
  intro entry among
  unfold WriteItem.invocation at among
  split at among
  · cases among
  · obtain rfl := List.mem_singleton.mp among
    trivial

namespace Net

variable {n m : Net H K}

/-- The reads that are outstanding or have not been handled. -/
def chains (n : Net H K) : Nat := n.ops.countP (·.isRead) + n.ready.countP (·.isRead)

/-- One read at a time, and it goes on with the packet that was begun. -/
structure Framing (n : Net H K) : Prop where
  one : n.chains = n.reading.readingDepth ∧ n.reading.readingDepth ≤ 1
  ops : ∀ op ∈ n.ops, op.Sound n.reading.readHeader
  ready : ∀ task ∈ n.ready, task.Sound n.reading.readHeader
  stack : ∀ entry ∈ n.stack, entry.Sound

theorem framing_post (h : n.Framing) {task : Task H K} (other : task.isRead = false)
    (sound : task.Sound n.reading.readHeader) : (n.post task).Framing := by
  refine ⟨?_, h.ops, ?_, h.stack⟩
  · have one := h.one
    simp only [chains, post, List.countP_append, List.countP_singleton, other, Bool.false_eq_true, if_false,
      Nat.add_zero] at one ⊢
    exact one
  · intro first among
    rcases List.mem_append.mp among with before | last
    · exact h.ready first before
    · exact List.mem_singleton.mp last ▸ sound

theorem framing_push (h : n.Framing) {entries : List (StackEntry H K)} (sound : ∀ entry ∈ entries, entry.Sound) :
    (n.push entries).Framing := by
  refine ⟨h.one, h.ops, h.ready, fun entry among => ?_⟩
  rcases List.mem_append.mp among with new | old
  · exact sound entry new
  · exact h.stack entry old

theorem framing_closeSocket (h : n.Framing) : n.closeSocket.Framing := by
  have aborts : ∀ op : SocketOp H, (op.abort n.socket.number : Task H K).isRead = op.isRead :=
    fun op => by cases op <;> rfl
  refine ⟨?_, nofun, ?_, h.stack⟩
  · have split : (n.ops.filter (·.isRead) ++ n.ops.filter (!·.isRead)).countP (·.isRead) = n.ops.countP (·.isRead) := by
      rw [List.countP_append, List.countP_filter, List.countP_filter]
      simp
    have moved : n.closeSocket.chains = n.chains := by
      simp only [chains, closeSocket, List.countP_nil, List.countP_append, List.countP_map, Function.comp_def, aborts]
      rw [← List.countP_append, split]
      omega
    rw [moved]
    exact h.one
  · intro task among
    rcases List.mem_append.mp among with before | aborted
    · exact h.ready task before
    · obtain ⟨op, -, rfl⟩ := List.mem_map.mp aborted
      cases op <;> trivial

theorem framing_connectEndpoint (h : n.Framing) (handler : H) (rest : Nat) :
    (n.connectEndpoint handler rest).Framing := by
  have closed := framing_closeSocket h
  refine ⟨?_, ?_, closed.ready, closed.stack⟩
  · have one := closed.one
    simp only [chains, connectEndpoint, List.countP_singleton, SocketOp.isRead] at one ⊢
    exact one
  · intro op among
    obtain rfl := List.mem_singleton.mp among
    trivial

/-- A read is started when there is none. -/
theorem framing_startRead {phase : ReadPhase} {count : Nat} (none : n.chains = 0) (depth : n.reading.readingDepth = 1)
    (fits : ReadState.Fits n.reading.readHeader phase count) (ready : ∀ task ∈ n.ready, task.Sound n.reading.readHeader)
    (stack : ∀ entry ∈ n.stack, entry.Sound) (handler : H) : (n.startRead phase count handler).Framing := by
  have noRead : n.ops.countP (·.isRead) = 0 := Nat.eq_zero_of_add_eq_zero_right none
  have others : ∀ op ∈ n.ops, op.isRead = false := by simpa [List.countP_eq_zero] using noRead
  unfold startRead
  split
  · refine ⟨?_, ?_, ready, stack⟩
    · simp only [chains, List.countP_append, List.countP_singleton, SocketOp.isRead, if_true] at none ⊢
      omega
    · intro op among
      rcases List.mem_append.mp among with before | last
      · exact SocketOp.sound_other (others op before) _
      · obtain rfl := List.mem_singleton.mp last
        exact fits
  · refine ⟨?_, fun op among => SocketOp.sound_other (others op among) _, ?_, stack⟩
    · simp only [chains, post, List.countP_append, List.countP_singleton, Task.isRead, if_true] at none ⊢
      omega
    · intro task among
      rcases List.mem_append.mp among with before | last
      · exact ready task before
      · obtain rfl := List.mem_singleton.mp last
        trivial

theorem framing_asyncReadPacket (h : n.Framing) (handler : H) : (n.asyncReadPacket handler).Framing := by
  unfold asyncReadPacket ReadState.asyncReadPacket ReadState.readFixedHeader
  by_cases deep : n.reading.readingDepth > 0
  · simp only [deep, if_true]
    exact h
  · simp only [deep, if_false]
    have idle : n.reading.readingDepth = 0 := by omega
    let asking : Net H K := { n with reading := { n.reading with readingDepth := n.reading.readingDepth + 1 } }
    have none : asking.chains = 0 := h.one.1.trans idle
    have depth : asking.reading.readingDepth = 1 := congrArg (· + 1) idle
    have fits : ReadState.Fits asking.reading.readHeader .fixedHeader 2 := rfl
    exact framing_startRead none depth fits h.ready h.stack handler

/-! ### A task is taken -/

variable {task : Task H K} {tail : List (Task H K)}

theorem framing_leaving (h : n.Framing) (front : n.ready = task :: tail) (other : task.isRead = false) :
    (n.leaving tail).Framing := by
  refine ⟨?_, h.ops, fun later among => h.ready later (front ▸ List.mem_cons_of_mem task among), h.stack⟩
  have one := h.one
  simp only [chains, front, List.countP_cons, other, Bool.false_eq_true, if_false, Nat.add_zero] at one
  exact one

theorem framing_onRead (h : n.Framing) {phase : ReadPhase} {handler : H} {result : Except AsioError Bytes}
    (front : n.ready = .read phase handler result :: tail) :
      ((n.leaving tail).onRead phase handler result).Framing := by
  have one := h.one
  have reads : (Task.read phase handler result : Task H K).isRead = true := rfl
  simp only [chains, front, List.countP_cons, reads, if_true] at one
  have depth : n.reading.readingDepth = 1 := by omega
  have noOp : n.ops.countP (·.isRead) = 0 := by omega
  have noTask : tail.countP (·.isRead) = 0 := by omega
  have ops : ∀ op ∈ n.ops, op.isRead = false := by simpa [List.countP_eq_zero] using noOp
  have tasks : ∀ later ∈ tail, later.isRead = false := by simpa [List.countP_eq_zero] using noTask
  -- the read was the only one, so what else is there does not depend on the header bytes
  have ready : ∀ header, ∀ later ∈ tail, later.Sound header := fun header later among =>
    Task.sound_other (tasks later among) (h.ready later (front ▸ List.mem_cons_of_mem _ among)) header
  have ended :
      ∀ reading : ReadState, reading.readingDepth = 0 → ({ n.leaving tail with reading } : Net H K).Framing := by
    intro reading idle
    refine ⟨?_, fun op among => SocketOp.sound_other (ops op among) _, ready _, h.stack⟩
    simp [chains, leaving, idle, noOp, noTask]
  unfold onRead
  cases result with
  | error ec => exact framing_post (ended _ rfl) rfl trivial
  | ok bytes =>
    have fits : (Task.read phase handler (.ok bytes) : Task H K).Sound n.reading.readHeader :=
      h.ready _ (front ▸ List.mem_cons_self ..)
    have next : ReadState.Continues n.reading phase bytes ((n.leaving tail).reading.onRead phase (.ok bytes)) :=
      ReadState.onRead_continues fits
    generalize (n.leaving tail).reading.onRead phase (.ok bytes) = out at next
    cases next with
    | reads reading phase' count fits more same =>
      have none : ({ n.leaving tail with reading } : Net H K).chains = 0 := by
        simp only [chains, leaving, noOp, noTask]
      exact framing_startRead none (same.trans depth) fits (ready _) h.stack handler
    | delivers reading fr whole idle => exact framing_post (ended reading idle) rfl ⟨fr, rfl⟩
    | fails reading ec idle => exact framing_post (ended reading idle) rfl trivial

/-- No field that is about reading changes, but for an operation that is no read. -/
theorem framing_doWrite (h : n.Framing) : n.doWrite.Framing := by
  unfold doWrite
  split
  · exact h
  split
  · exact h
  split
  · exact framing_post h rfl trivial
  · rename_i item rest _
    refine ⟨?_, ?_, h.ready, h.stack⟩
    · have one := h.one
      simp only [chains, startWrite, List.countP_append, List.countP_singleton, SocketOp.isRead, Bool.false_eq_true,
        if_false, Nat.add_zero] at one ⊢
      exact one
    · intro op among
      rcases List.mem_append.mp among with before | last
      · exact h.ops op before
      · obtain rfl := List.mem_singleton.mp last
        trivial

theorem framing_failPendingWrites (h : n.Framing) (ec : AsioError) : (n.failPendingWrites ec).Framing := by
  have bare : ({ n with writeQueue := [], writing := false } : Net H K).Framing := ⟨h.one, h.ops, h.ready, h.stack⟩
  refine framing_push bare fun entry among => ?_
  obtain ⟨item, -, called⟩ := List.mem_flatMap.mp among
  exact item.sound_invocation _ entry called

theorem framing_onConnected (h : n.Framing) (handler : H) (ec : ErrorCode) : (n.onConnected handler ec).Framing := by
  have bare : ({ n with state := if ec.isNone then .handshaking else .disconnected } : Net H K).Framing :=
    ⟨h.one, h.ops, h.ready, h.stack⟩
  refine framing_push bare fun entry among => ?_
  obtain rfl := List.mem_singleton.mp among
  trivial

theorem framing_run (h : n.Framing) (taken : n.run = some m) : m.Framing := by
  obtain ⟨idle, task, tail, front, rfl⟩ := run_cases taken
  have left := framing_leaving h front
  cases task with
  | enqueueWrite item =>
    have held := left rfl
    change ((n.leaving tail).enqueueWrite item).Framing
    unfold enqueueWrite
    split
    · exact framing_post held rfl trivial
    · have queued : ({ n.leaving tail with writeQueue := (n.leaving tail).writeQueue ++ [item] } : Net H K).Framing :=
        ⟨held.one, held.ops, held.ready, held.stack⟩
      dsimp only
      split
      · exact framing_doWrite queued
      · exact queued
  | failPendingWrites ec => exact framing_failPendingWrites (left rfl) ec
  | rejectWrite item => exact framing_push (left rfl) (item.sound_invocation _)
  | resolved handler result =>
    cases result with
    | error ec => exact framing_push (left rfl) (by simp [StackEntry.Sound])
    | ok rest => exact framing_connectEndpoint (left rfl) handler rest
  | connected handler rest socket ec =>
    have held := left rfl
    change ((n.leaving tail).onEndpoint handler rest ec).Framing
    unfold onEndpoint
    split
    · exact framing_onConnected held _ _
    · split
      · exact framing_onConnected held _ _
      · exact framing_onConnected held _ _
      · exact framing_connectEndpoint held handler _
  | written serial ec =>
    have held := left rfl
    change ((n.leaving tail).onWritten ec).Framing
    unfold onWritten
    split
    · exact held
    · rename_i item _
      have bare : ({ n.leaving tail with inFlight := none, writing := false } : Net H K).Framing :=
        ⟨held.one, held.ops, held.ready, held.stack⟩
      refine framing_push bare fun entry among => ?_
      rcases List.mem_append.mp among with called | last
      · exact item.sound_invocation _ entry called
      · obtain rfl := List.mem_singleton.mp last
        trivial
  | read phase handler result => exact framing_onRead h front
  | readHandler handler ec packet =>
    have sound : (Task.readHandler handler ec packet : Task H K).Sound n.reading.readHeader :=
      h.ready _ (front ▸ List.mem_cons_self ..)
    refine framing_push (left rfl) fun entry among => ?_
    obtain rfl := List.mem_singleton.mp among
    cases ec <;> exact sound
  | own k => exact framing_push (left rfl) (by simp [StackEntry.Sound])

theorem framing_resume (h : n.Framing) (taken : n.resume = some m) : m.Framing := by
  unfold resume at taken
  split at taken
  · rename_i call rest front
    obtain rfl := Option.some.inj taken
    have stack : ∀ entry ∈ rest, entry.Sound := fun entry among => h.stack entry (front ▸ List.mem_cons_of_mem _ among)
    cases call <;> exact ⟨h.one, h.ops, h.ready, stack⟩
  · rename_i ec rest front
    obtain rfl := Option.some.inj taken
    have stack : ∀ entry ∈ rest, entry.Sound := fun entry among => h.stack entry (front ▸ List.mem_cons_of_mem _ among)
    have popped : ({ n with stack := rest } : Net H K).Framing := ⟨h.one, h.ops, h.ready, stack⟩
    cases ec with
    | some ec =>
      have closed := framing_closeSocket popped
      have bare : ({ ({ n with stack := rest } : Net H K).closeSocket with
          state := .disconnected } : Net H K).Framing :=
        ⟨closed.one, closed.ops, closed.ready, closed.stack⟩
      exact framing_failPendingWrites bare ec
    | none =>
      unfold afterWrite
      dsimp only
      split
      · exact framing_doWrite popped
      · exact popped
  · rename_i rest front
    obtain rfl := Option.some.inj taken
    have stack : ∀ entry ∈ rest, entry.Sound := fun entry among => h.stack entry (front ▸ List.mem_cons_of_mem _ among)
    have popped : ({ n with stack := rest } : Net H K).Framing := ⟨h.one, h.ops, h.ready, stack⟩
    refine framing_push popped fun entry among => ?_
    obtain ⟨handler, -, rfl⟩ := List.mem_map.mp among
    trivial
  · contradiction

/-- An operation completes, and its task stands for it. -/
theorem framing_completed (h : n.Framing) {index : Nat} {op : SocketOp H} {task : Task H K}
    (found : n.ops[index]? = some op)
    (same : task.isRead = op.isRead) (sound : task.Sound n.reading.readHeader) (socket : Socket)
    (succeeded : List Nat) :
    ({ n with ops := n.ops.eraseIdx index, socket, succeeded }.post task).Framing := by
  obtain ⟨xs, ys, whole, erased, -⟩ := Lists.split_at found
  refine ⟨?_, fun other among => h.ops other (List.mem_of_mem_eraseIdx among), ?_, h.stack⟩
  · have one := h.one
    simp only [chains, whole, List.countP_append, List.countP_cons] at one
    simp only [chains, post, erased, List.countP_append, List.countP_singleton, same]
    omega
  · intro first among
    rcases List.mem_append.mp among with before | last
    · exact h.ready first before
    · exact List.mem_singleton.mp last ▸ sound

theorem framing_kernel (h : n.Framing) {event : Event} (taken : n.kernel event = some m) : m.Framing := by
  cases event with
  | resolve index result =>
    obtain ⟨handler, found, rfl⟩ := Option.map_eq_some_iff.mp taken
    have bare : ({ n with resolves := n.resolves.eraseIdx index } : Net H K).Framing := ⟨h.one, h.ops, h.ready, h.stack⟩
    exact framing_post bare rfl trivial
  | connect index ec =>
    simp only [kernel] at taken
    split at taken
    · rename_i handler rest found
      obtain rfl := Option.some.inj taken
      exact framing_completed h found rfl (by trivial) { n.socket with established := ec.isNone } n.succeeded
    · contradiction
  | send index count =>
    simp only [kernel] at taken
    split at taken
    · split at taken
      · rename_i serial unsent found _
        obtain rfl := Option.some.inj taken
        obtain ⟨xs, ys, whole, -, replaced⟩ := Lists.split_at found
        refine ⟨?_, ?_, h.ready, h.stack⟩
        · have one := h.one
          simp only [chains, whole, List.countP_append, List.countP_cons] at one
          simp only [chains, replaced, List.countP_append, List.countP_cons]
          exact one
        · intro op among
          rcases List.mem_or_eq_of_mem_set among with before | rfl
          · exact h.ops op before
          · trivial
      · contradiction
    · contradiction
  | write index ec =>
    simp only [kernel] at taken
    split at taken
    · split at taken
      · obtain rfl := Option.some.inj taken
        exact framing_completed h ‹_› rfl (by trivial) n.socket _
      · contradiction
    · contradiction
  | read index result =>
    simp only [kernel] at taken
    split at taken
    · split at taken
      · rename_i phase count handler bytes found size
        obtain rfl := Option.some.inj taken
        have fits : ReadState.Fits n.reading.readHeader phase count := h.ops _ (List.mem_of_getElem? found)
        exact framing_completed h found rfl (by rw [← size] at fits; exact fits) n.socket n.succeeded
      · contradiction
    · obtain rfl := Option.some.inj taken
      exact framing_completed h ‹_› rfl (by trivial) n.socket n.succeeded
    · contradiction

theorem framing_close (h : n.Framing) : n.close.Framing := by
  unfold close
  split
  · exact h
  · have closed := framing_closeSocket (n := ({ n with closed := true } : Net H K)) ⟨h.one, h.ops, h.ready, h.stack⟩
    have bare : ({ ({ n with closed := true } : Net H K).closeSocket with
        state := .disconnected, inFlight := none, writing := false } : Net H K).Framing :=
      ⟨closed.one, closed.ops, closed.ready, closed.stack⟩
    refine framing_failPendingWrites (framing_push bare fun entry among => ?_) .operationAborted
    rcases List.mem_append.mp among with called | last
    · obtain ⟨item, -, among⟩ := List.mem_flatMap.mp called
      exact item.sound_invocation _ entry among
    · obtain rfl := List.mem_singleton.mp last
      trivial

/-- Every step keeps it, whatever the owner does. -/
theorem framing_step (h : n.Framing) {a : Action H K} (taken : n.step a = some m) : m.Framing := by
  cases a with
  | run => exact framing_run h taken
  | resume => exact framing_resume h taken
  | kernel event => exact framing_kernel h taken
  | asyncReadPacket handler => exact Option.some.inj taken ▸ framing_asyncReadPacket h handler
  | asyncWritePacket data handler =>
    obtain rfl := Option.some.inj taken
    let item : WriteItem H := { serial := n.nextSerial, buffer := data, handler }
    have bare : ({ n with nextSerial := n.nextSerial + 1, submitted := n.submitted ++ [item] } : Net H K).Framing :=
      ⟨h.one, h.ops, h.ready, h.stack⟩
    exact framing_post bare rfl trivial
  | asyncConnect handler => exact Option.some.inj taken ▸ ⟨h.one, h.ops, h.ready, h.stack⟩
  | markConnected => exact Option.some.inj taken ▸ ⟨h.one, h.ops, h.ready, h.stack⟩
  | setCloseHandler handler => exact Option.some.inj taken ▸ ⟨h.one, h.ops, h.ready, h.stack⟩
  | close => exact Option.some.inj taken ▸ framing_close h
  | post k => exact Option.some.inj taken ▸ framing_post h rfl trivial
  | push ks =>
    obtain rfl := Option.some.inj taken
    refine framing_push h fun entry among => ?_
    obtain ⟨k, -, rfl⟩ := List.mem_map.mp among
    trivial
  | pop =>
    simp only [step] at taken
    split at taken
    · rename_i front
      obtain rfl := Option.some.inj taken
      exact ⟨h.one, h.ops, h.ready, fun entry among => h.stack entry (front ▸ List.mem_cons_of_mem _ among)⟩
    · contradiction

/-! ### Deliveries -/

/-- The packet is on its way to the owner's read handler, or handed to it. -/
def Delivers (n : Net H K) (packet : Bytes) : Prop :=
  (∃ handler, .readHandler handler none packet ∈ n.ready) ∨ ∃ handler, .invoke (.read handler none packet) ∈ n.stack

/-- The parser reads the type byte and then the remaining length: it is the number of bytes that are left. -/
def ParsesWhole (packet : Bytes) : Prop :=
  ∃ (first : UInt8) (field body : Bytes), packet = first :: (field ++ body) ∧ isLengthField field = true ∧
    ({ buf := packet } : BufferReader).readUint8 = (some first, { buf := packet, pos := 1 }) ∧
    ({ buf := packet, pos := 1 } : BufferReader).readRemainingLength32 =
      (true, body.length, { buf := packet, pos := 1 + field.length })

theorem parsesWhole_frame (fr : Frame) : ParsesWhole fr.bytes := by
  have read := BufferReader.readRemainingLength_field fr.field fr.short [fr.first] fr.body
  rw [fr.exact] at read
  refine ⟨fr.first, fr.lengthField, fr.body, rfl, fr.field, rfl, ?_⟩
  rw [BufferReader.readRemainingLength32_exact]
  have position : (BufferReader.between ([fr.first] ++ fr.lengthField) fr.body) =
      { buf := fr.bytes, pos := 1 + fr.lengthField.length } := by
    simp [BufferReader.between, Frame.bytes, Nat.add_comm]
  rw [position] at read
  exact read

theorem Framing.delivers (h : n.Framing) {packet : Bytes} (delivers : n.Delivers packet) : ParsesWhole packet := by
  rcases delivers with ⟨handler, among⟩ | ⟨handler, among⟩
  · obtain ⟨fr, rfl⟩ : ∃ fr : Frame, packet = fr.bytes := h.ready _ among
    exact parsesWhole_frame fr
  · obtain ⟨fr, rfl⟩ : ∃ fr : Frame, packet = fr.bytes := h.stack _ among
    exact parsesWhole_frame fr

/-- The connection's chain of one-byte reads and the parser's loop take the same length fields, for the same
value and with the same bytes left, and none that continues for four bytes. So in every run the parser finds
in each packet that is delivered the length of the body. -/
theorem length_decoders_agree :
    (∀ (r : ReadState) (bytes : Bytes), r.decodeLength bytes = BufferReader.decodeLength bytes) ∧
    (∀ (r : ReadState) (digits rest : Bytes), digits.all continues = true → digits.length = 4 →
      r.decodeLength (digits ++ rest) = none ∧ BufferReader.decodeLength (digits ++ rest) = none) ∧
    ∀ actions : List (Action H K), Runs.Throughout step (fun n => ∀ packet, n.Delivers packet → ParsesWhole packet) {}
      actions := by
  refine ⟨ReadState.decodeLength_agrees, ?_, ?_⟩
  · intro r digits rest continuing four
    have rejected : r.decodeLength (digits ++ rest) = none := by
      cases rest with
      | nil =>
        rw [List.append_nil]
        exact ReadState.decodeLength_cut continuing (Nat.le_of_eq four) r
      | cons fifth rest => exact ReadState.decodeLength_overlong continuing four r fifth rest
    exact ⟨rejected, (ReadState.decodeLength_agrees r _).symm.trans rejected⟩
  · intro actions
    have start : Framing ({} : Net H K) := ⟨⟨rfl, Nat.zero_le 1⟩, nofun, nofun, nofun⟩
    exact Runs.throughout_of_invariant (fun _ _ _ h taken => framing_step h taken) (fun _ h _ => h.delivers) start

/-- Four bytes that continue, and a run that delivers a PINGRESP whose length field has two bytes. -/
theorem length_decoders_agree_examples : ({} : ReadState).decodeLength [0x80, 0x80, 0x80, 0x80, 0x00] = none ∧
    Runs.Throughout step (fun n => ∀ packet, n.Delivers packet → ParsesWhole packet) ({} : Net Unit Unit)
      [.asyncConnect (), .kernel (.resolve 0 (.ok 0)), .run, .kernel (.connect 0 none), .run, .resume,
        .asyncReadPacket (), .kernel (.read 0 (.ok [0xD0, 0x80])), .run, .kernel (.read 0 (.ok [0x00])), .run,
        .run, .resume] :=
  ⟨((length_decoders_agree (H := Unit) (K := Unit)).2.1 {} [0x80, 0x80, 0x80, 0x80] [0x00] (by decide) rfl).1,
    length_decoders_agree.2.2 _⟩

end Net
end LiteMqtt
