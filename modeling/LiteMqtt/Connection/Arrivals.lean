import LiteMqtt.Connection.Deliveries
import LiteMqtt.Connection.PacketStream

/-!
# From the bytes of a socket to packets

The bytes that were read off the present socket are the packets that were handed over, one behind the other,
and what there is of the packet that is being read. It stays so until a read of this socket fails, as long as
no read that succeeded is still to be handled when the socket is replaced.
-/

namespace LiteMqtt

variable {H K : Type}

/-- A packet on its way to the read handler. -/
def Task.packet? : Task H K → Option Bytes
  | .readHandler _ none packet => some packet
  | _ => none

/-- A packet that the read handler is about to get, or that the owner's code is about to handle. -/
def StackEntry.packet? (own : K → Option Bytes) : StackEntry H K → Option Bytes
  | .invoke (.read _ none packet) => some packet
  | .own k => own k
  | _ => none

def Task.isArrival : Task H K → Bool
  | .read _ _ (.ok _) => true
  | _ => false

theorem WriteItem.packet?_invocation (own : K → Option Bytes) (item : WriteItem H) (ec : ErrorCode) :
    ∀ entry ∈ (item.invocation ec : List (StackEntry H K)), entry.packet? own = none := by
  intro entry among
  unfold WriteItem.invocation at among
  split at among
  · cases among
  · obtain rfl := List.mem_singleton.mp among
    rfl

theorem Task.isRead_of_isArrival {task : Task H K} (arrival : task.isArrival = true) : task.isRead = true := by
  cases task with
  | read => rfl
  | _ => cases arrival

/-- The packet that a completed read hands over. -/
def ReadOutcome.packet? : ReadOutcome → Option Bytes
  | .post none packet => some packet
  | _ => none

/-- What was read off one socket. After a read failed the bytes are no longer known. -/
structure Intake where
  arrived : Bytes := []
  /-- The packets that were handed over while no read had failed, and those of later reads. -/
  delivered : List Bytes := []
  later : List Bytes := []
  failed : Bool := false
  deriving DecidableEq, Repr

namespace Intake

/-- A read completes. -/
def arrive (i : Intake) : Except AsioError Bytes → Intake
  | .ok bytes => if i.failed then i else { i with arrived := i.arrived ++ bytes }
  | .error _ => { i with failed := true }

/-- Bytes that were read are handled. -/
def handle (i : Intake) : ReadOutcome → Intake
  | .read .. => i
  | .post none packet =>
      if i.failed then { i with later := i.later ++ [packet] } else { i with delivered := i.delivered ++ [packet] }
  | .post (some _) _ => { i with failed := true }

def packets (i : Intake) : List Bytes := i.delivered ++ i.later

/-- A packet is late only behind a read that failed. -/
def Timely (i : Intake) : Prop := i.failed = false → i.later = []

variable {i : Intake}

theorem arrive_packets (i : Intake) (result : Except AsioError Bytes) : (i.arrive result).packets = i.packets := by
  unfold arrive
  split
  · split <;> rfl
  · rfl

theorem timely_arrive (timely : i.Timely) (result : Except AsioError Bytes) : (i.arrive result).Timely := by
  unfold arrive
  split
  · split <;> exact timely
  · exact fun fine => absurd fine (by simp)

theorem handle_packets (timely : i.Timely) (outcome : ReadOutcome) :
    (i.handle outcome).packets = i.packets ++ outcome.packet?.toList := by
  unfold handle ReadOutcome.packet?
  split
  · exact (List.append_nil _).symm
  · cases failed : i.failed with
    | true => simp [packets]
    | false => simp [packets, timely failed]
  · exact (List.append_nil _).symm

theorem timely_handle (timely : i.Timely) (outcome : ReadOutcome) : (i.handle outcome).Timely := by
  unfold handle
  split
  · exact timely
  · split
    · rename_i failed
      exact fun fine => absurd (failed.symm.trans fine) (by simp)
    · exact timely
  · exact fun fine => absurd fine (by simp)

end Intake

namespace Net

variable {n m k : Net H K} {own : K → Option Bytes}

/-- The packets that were read and are not handled yet. -/
def underway (own : K → Option Bytes) (n : Net H K) : List Bytes :=
  n.stack.filterMap (StackEntry.packet? own) ++ n.ready.filterMap Task.packet?

/-! ### Steps that are not about reading -/

/-- No read begins or goes on, and no packet gets ahead. Closing the socket aborts a read. -/
structure Unread (own : K → Option Bytes) (n m : Net H K) : Prop where
  reading : m.reading = n.reading
  number : m.socket.number = n.socket.number
  opened : m.socket.isOpen = true → n.socket.isOpen = true
  ops : ∀ op ∈ m.ops, op.isRead = true → op ∈ n.ops
  ready : ∀ task ∈ m.ready, task.isRead = true →
    task ∈ n.ready ∨ m.socket.isOpen = false ∧ ∃ phase handler ec, task = .read phase handler (.error ec)
  opsKept : m.socket.isOpen = true → ∀ op ∈ n.ops, op.isRead = true → op ∈ m.ops
  readyKept : ∀ task ∈ n.ready, task.isRead = true → task ∈ m.ready
  underway : m.underway own = n.underway own

theorem Unread.refl (n : Net H K) : Unread own n n :=
  ⟨rfl, rfl, id, fun _ among _ => among, fun _ among _ => .inl among, fun _ _ among _ => among,
    fun _ among _ => among, rfl⟩

theorem Unread.trans (first : Unread own n m) (later : Unread own m k) : Unread own n k := by
  refine ⟨later.reading.trans first.reading, later.number.trans first.number, first.opened ∘ later.opened,
    fun op among read => first.ops op (later.ops op among read) read, fun task among read => ?_,
    fun opened op among read => later.opsKept opened op (first.opsKept (later.opened opened) op among read) read,
    fun task among read => later.readyKept task (first.readyKept task among read) read,
      later.underway.trans first.underway⟩
  rcases later.ready task among read with before | aborted
  · rcases first.ready task before read with earlier | ⟨shut, error⟩
    · exact .inl earlier
    · exact .inr ⟨Bool.eq_false_iff.mpr fun opened => absurd ((later.opened opened).symm.trans shut) (by simp), error⟩
  · exact .inr aborted

theorem unread_of_same (reading : m.reading = n.reading) (socket : m.socket = n.socket) (ops : m.ops = n.ops)
    (ready : m.ready = n.ready) (stack : m.stack = n.stack) : Unread own n m := by
  refine ⟨reading, by rw [socket], by rw [socket]; exact id, fun op among _ => ops ▸ among,
    fun task among _ => .inl (ready ▸ among), fun _ op among _ => ops ▸ among, fun task among _ => ready ▸ among, ?_⟩
  rw [Net.underway, stack, ready, Net.underway]

theorem unread_post (n : Net H K) {task : Task H K} (other : task.isRead = false) (empty : task.packet? = none) :
    Unread own n (n.post task) := by
  refine ⟨rfl, rfl, id, fun _ among _ => among, fun first among read => ?_, fun _ _ among _ => among,
    fun first among _ => List.mem_append_left _ among, ?_⟩
  · rcases List.mem_append.mp among with before | last
    · exact .inl before
    · obtain rfl := List.mem_singleton.mp last
      exact absurd (other.symm.trans read) (by simp)
  · simp [Net.underway, post, List.filterMap_append, empty]

theorem unread_asyncWritePacket (n : Net H K) (data : Bytes) (handler : Option H) :
    Unread own n (n.asyncWritePacket data handler) := by
  let item : WriteItem H := { serial := n.nextSerial, buffer := data, handler }
  refine .trans (m := { n with nextSerial := n.nextSerial + 1, submitted := n.submitted ++ [item] })
    (unread_of_same rfl rfl rfl rfl rfl) (unread_post _ rfl rfl)

theorem unread_push (n : Net H K) {entries : List (StackEntry H K)}
    (quiet : ∀ entry ∈ entries, entry.packet? own = none) :
    Unread own n (n.push entries) := by
  refine ⟨rfl, rfl, id, fun _ among _ => among, fun _ among _ => .inl among, fun _ _ among _ => among,
    fun _ among _ => among, ?_⟩
  simp [Net.underway, push, List.filterMap_append, List.filterMap_eq_nil_iff.mpr quiet]

theorem unread_closeSocket (n : Net H K) : Unread own n n.closeSocket := by
  have aborts : ∀ op : SocketOp H, (op.abort n.socket.number : Task H K).packet? = none := fun op => by cases op <;> rfl
  refine ⟨rfl, rfl, nofun, nofun, fun task among read => ?_, nofun,
    fun task among _ => List.mem_append_left _ among, ?_⟩
  · rcases List.mem_append.mp among with before | aborted
    · exact .inl before
    · obtain ⟨op, -, rfl⟩ := List.mem_map.mp aborted
      cases op with
      | read phase count handler => exact .inr ⟨rfl, phase, handler, _, rfl⟩
      | _ => cases read
  · have none : ((n.ops.filter (·.isRead) ++ n.ops.filter (!·.isRead)).map
        (SocketOp.abort n.socket.number)).filterMap (Task.packet? (H := H) (K := K)) = [] := by
      refine List.filterMap_eq_nil_iff.mpr fun task among => ?_
      obtain ⟨op, -, rfl⟩ := List.mem_map.mp among
      exact aborts op
    rw [Net.underway, Net.underway, closeSocket, List.filterMap_append, none, List.append_nil]

theorem unread_doWrite (n : Net H K) : Unread own n n.doWrite := by
  unfold doWrite
  split
  · exact .refl n
  split
  · exact .refl n
  split
  · exact unread_post n rfl rfl
  · rename_i item rest _ _
    refine ⟨rfl, rfl, id, fun op among read => ?_, fun _ among _ => .inl among,
      fun _ op among _ => List.mem_append_left _ among, fun _ among _ => among, rfl⟩
    rcases List.mem_append.mp among with before | last
    · exact before
    · obtain rfl := List.mem_singleton.mp last
      cases read

theorem unread_failPendingWrites (n : Net H K) (ec : AsioError) : Unread own n (n.failPendingWrites ec) := by
  refine .trans (m := { n with writeQueue := [], writing := false }) (unread_of_same rfl rfl rfl rfl rfl) ?_
  refine unread_push _ fun entry among => ?_
  obtain ⟨item, -, called⟩ := List.mem_flatMap.mp among
  exact item.packet?_invocation own _ entry called

theorem unread_enqueueWrite (n : Net H K) (item : WriteItem H) : Unread own n (n.enqueueWrite item) := by
  have queued : Unread own n { n with writeQueue := n.writeQueue ++ [item] } := unread_of_same rfl rfl rfl rfl rfl
  unfold enqueueWrite
  split
  · exact unread_post n rfl rfl
  · dsimp only
    split
    · exact queued.trans (unread_doWrite _)
    · exact queued

theorem unread_onConnected (n : Net H K) (handler : H) (ec : ErrorCode) : Unread own n (n.onConnected handler ec) := by
  refine .trans (m := { n with state := if ec.isNone then .handshaking else .disconnected })
    (unread_of_same rfl rfl rfl rfl rfl) (unread_push _ fun entry among => ?_)
  obtain rfl := List.mem_singleton.mp among
  rfl

theorem unread_onWritten (n : Net H K) (ec : ErrorCode) : Unread own n (n.onWritten ec) := by
  unfold onWritten
  split
  · exact .refl n
  · rename_i item _
    refine .trans (m := { n with inFlight := none, writing := false }) (unread_of_same rfl rfl rfl rfl rfl)
      (unread_push _ fun entry among => ?_)
    rcases List.mem_append.mp among with called | last
    · exact item.packet?_invocation own _ entry called
    · obtain rfl := List.mem_singleton.mp last
      rfl

theorem unread_afterWrite (n : Net H K) (ec : ErrorCode) : Unread own n (n.afterWrite ec) := by
  unfold afterWrite
  split
  · have shut : Unread own n { n.closeSocket with state := .disconnected } :=
      (unread_closeSocket n).trans (unread_of_same rfl rfl rfl rfl rfl)
    exact shut.trans (unread_failPendingWrites _ _)
  · split
    · exact unread_doWrite n
    · exact .refl n

theorem unread_close (n : Net H K) : Unread own n n.close := by
  unfold close
  split
  · exact .refl n
  · have shut : Unread own n { ({ n with closed := true } : Net H K).closeSocket with
        state := .disconnected, inFlight := none, writing := false } := by
      refine .trans (m := { n with closed := true }) (unread_of_same rfl rfl rfl rfl rfl) ?_
      exact (unread_closeSocket _).trans (unread_of_same rfl rfl rfl rfl rfl)
    refine (shut.trans (unread_push _ fun entry among => ?_)).trans (unread_failPendingWrites _ _)
    rcases List.mem_append.mp among with called | last
    · obtain ⟨item, -, among⟩ := List.mem_flatMap.mp called
      exact item.packet?_invocation own _ entry among
    · obtain rfl := List.mem_singleton.mp last
      rfl

/-! ### What was read -/

/-- The packets that were handed over are the first frames of what arrived, and nothing is lost behind them as long
as no read failed. -/
structure Heard (i : Intake) (n : Net H K) : Prop where
  framing : n.Framing
  frames : ∀ packet ∈ i.delivered, ∃ fr : Frame, packet = fr.bytes
  before : i.delivered.flatten <+: i.arrived
  asked : i.failed = false → ∀ phase count handler, .read phase count handler ∈ n.ops →
    i.arrived = i.delivered.flatten ++ n.reading.taken phase
  came : i.failed = false → ∀ phase handler bytes, .read phase handler (.ok bytes) ∈ n.ready →
    i.arrived = i.delivered.flatten ++ (n.reading.taken phase ++ bytes)
  between : i.failed = false → n.socket.isOpen = true → (∀ op ∈ n.ops, op.isRead = false) →
    (∀ task ∈ n.ready, task.isArrival = false) → i.arrived = i.delivered.flatten

variable {i : Intake}

theorem none_reads (none : n.chains = 0) :
    (∀ op ∈ n.ops, op.isRead = false) ∧ ∀ task ∈ n.ready, task.isRead = false := by
  have ops : n.ops.countP (·.isRead) = 0 := Nat.eq_zero_of_add_eq_zero_right none
  have ready : n.ready.countP (·.isRead) = 0 := Nat.eq_zero_of_add_eq_zero_left none
  exact ⟨by simpa [List.countP_eq_zero] using ops, by simpa [List.countP_eq_zero] using ready⟩

theorem no_arrival {tasks : List (Task H K)} (none : ∀ task ∈ tasks, task.isRead = false) :
    ∀ task ∈ tasks, task.isArrival = false := fun task among =>
  Bool.eq_false_iff.mpr fun arrival => absurd (Task.isRead_of_isArrival arrival) (by simp [none task among])

theorem Heard.unread (heard : Heard i n) (unread : Unread own n m) (framing : m.Framing) : Heard i m := by
  refine ⟨framing, heard.frames, heard.before, fun whole phase count handler among => ?_,
    fun whole phase handler bytes among => ?_, fun whole opened none nothing => ?_⟩
  · rw [unread.reading]
    exact heard.asked whole phase count handler (unread.ops _ among rfl)
  · rw [unread.reading]
    rcases unread.ready _ among rfl with before | ⟨-, other, h, ec, same⟩
    · exact heard.came whole phase handler bytes before
    · cases same
  · refine heard.between whole (unread.opened opened) (fun op among => ?_) fun task among => ?_
    · exact Bool.eq_false_iff.mpr fun reads => absurd (none op (unread.opsKept opened op among reads)) (by simp [reads])
    · refine Bool.eq_false_iff.mpr fun arrival => ?_
      exact absurd (nothing task (unread.readyKept task among (Task.isRead_of_isArrival arrival))) (by simp [arrival])

/-- With no read under way, one begins. -/
theorem heard_startRead {phase : ReadPhase} {count : Nat} (handler : H)
    (framing : (n.startRead phase count handler).Framing)
    (frames : ∀ packet ∈ i.delivered, ∃ fr : Frame, packet = fr.bytes) (before : i.delivered.flatten <+: i.arrived)
    (none : n.chains = 0)
    (taken : i.failed = false → n.socket.isOpen = true → i.arrived = i.delivered.flatten ++ n.reading.taken phase) :
    Heard i (n.startRead phase count handler) := by
  obtain ⟨noOp, noTask⟩ := none_reads none
  unfold startRead at framing ⊢
  split at framing
  · rename_i opened
    rw [if_pos opened]
    refine ⟨framing, frames, before, fun whole other size h among => ?_, fun whole other h bytes among => ?_,
      fun whole _ noRead _ => ?_⟩
    · rcases List.mem_append.mp among with old | last
      · exact absurd (noOp _ old) (by simp [SocketOp.isRead])
      · cases List.mem_singleton.mp last
        exact taken whole opened
    · exact absurd (noTask _ among) (by simp [Task.isRead])
    · exact absurd (noRead _ (List.mem_append_right _ List.mem_cons_self)) (by simp [SocketOp.isRead])
  · rename_i shut
    rw [if_neg shut]
    refine ⟨framing, frames, before, fun whole other size h among => ?_, fun whole other h bytes among => ?_,
      fun whole opened => absurd opened shut⟩
    · exact absurd (noOp _ among) (by simp [SocketOp.isRead])
    · rcases List.mem_append.mp among with old | last
      · exact absurd (noTask _ old) (by simp [Task.isRead])
      · cases List.mem_singleton.mp last

theorem heard_asyncReadPacket (heard : Heard i n) (handler : H) : Heard i (n.asyncReadPacket handler) := by
  have framing := framing_asyncReadPacket heard.framing handler
  unfold asyncReadPacket ReadState.asyncReadPacket ReadState.readFixedHeader at framing ⊢
  by_cases deep : n.reading.readingDepth > 0
  · simp only [deep, if_true] at framing ⊢
    exact heard
  · simp only [deep, if_false] at framing ⊢
    have none : n.chains = 0 := heard.framing.one.1.trans (by omega)
    obtain ⟨noOp, noTask⟩ := none_reads none
    refine heard_startRead handler framing heard.frames heard.before none fun whole opened => ?_
    exact (heard.between whole opened noOp (no_arrival noTask)).trans (List.append_nil _).symm

/-! ### The kernel -/

/-- The one read that is outstanding completes. -/
theorem heard_kernel {index : Nat} {result : Except AsioError Bytes} (heard : Heard i n)
    (taken : n.kernel (.read index result) = some m) : Heard (i.arrive result) m := by
  have framing := framing_kernel heard.framing taken
  simp only [kernel] at taken
  split at taken
  · split at taken
    · rename_i phase count handler bytes found size
      obtain rfl := Option.some.inj taken
      cases failed : i.failed with
      | true =>
        have same : i.arrive (.ok bytes) = i := by simp [Intake.arrive, failed]
        rw [same]
        exact ⟨framing, heard.frames, heard.before, by simp [failed], by simp [failed], by simp [failed]⟩
      | false =>
        have more : i.arrive (.ok bytes) = { i with arrived := i.arrived ++ bytes } := by simp [Intake.arrive, failed]
        have arrived := heard.asked failed phase count handler (List.mem_of_getElem? found)
        -- it was the only one, so what else is there does not read
        have none : ({ n with ops := n.ops.eraseIdx index } : Net H K).chains = 0 := by
          have one := framing.one
          simp only [chains, post, List.countP_append, List.countP_singleton, Task.isRead, if_true] at one ⊢
          omega
        obtain ⟨only, other⟩ := none_reads none
        rw [more]
        refine ⟨framing, heard.frames, heard.before.trans (List.prefix_append _ _), fun _ p c h among => ?_,
          fun _ p h b among => ?_, fun _ _ _ nothing => ?_⟩
        · exact absurd (only _ among) (by simp [SocketOp.isRead])
        · rcases List.mem_append.mp among with old | last
          · exact absurd (other _ old) (by simp [Task.isRead])
          · cases List.mem_singleton.mp last
            show i.arrived ++ bytes = i.delivered.flatten ++ (n.reading.taken phase ++ bytes)
            rw [arrived, List.append_assoc]
        · exact absurd (nothing _ (List.mem_append_right _ List.mem_cons_self)) (by simp [Task.isArrival])
    · contradiction
  · obtain rfl := Option.some.inj taken
    exact ⟨framing, heard.frames, heard.before, by simp [Intake.arrive], by simp [Intake.arrive],
      by simp [Intake.arrive]⟩
  · contradiction

theorem unread_completed {index : Nat} {op : SocketOp H} {task : Task H K} (found : n.ops[index]? = some op)
    (other : op.isRead = false) (quiet : task.isRead = false) (empty : task.packet? = none) (established : Bool)
    (succeeded : List Nat) : Unread own n ({ n with
      ops := n.ops.eraseIdx index, socket := { n.socket with established }, succeeded }.post task) := by
  obtain ⟨xs, ys, whole, erased, -⟩ := Lists.split_at found
  have gone : Unread own n { n with
      ops := n.ops.eraseIdx index, socket := { n.socket with established }, succeeded } := by
    refine ⟨rfl, rfl, id, fun _ among _ => List.mem_of_mem_eraseIdx among, fun _ among _ => .inl among,
      fun _ first among read => ?_, fun _ among _ => among, rfl⟩
    show first ∈ n.ops.eraseIdx index
    rw [erased]
    rw [whole] at among
    rcases List.mem_append.mp among with before | rest
    · exact List.mem_append_left _ before
    · rcases List.mem_cons.mp rest with rfl | behind
      · exact absurd (other.symm.trans read) (by simp)
      · exact List.mem_append_right _ behind
  exact gone.trans (unread_post _ quiet empty)

theorem unread_kernel {event : Event} (taken : n.kernel event = some m)
    (other : ∀ index result, event ≠ .read index result) :
    Unread own n m := by
  cases event with
  | resolve index result =>
    obtain ⟨handler, found, rfl⟩ := Option.map_eq_some_iff.mp taken
    have left : Unread own n { n with resolves := n.resolves.eraseIdx index } := unread_of_same rfl rfl rfl rfl rfl
    exact left.trans (unread_post _ rfl rfl)
  | connect index ec =>
    simp only [kernel] at taken
    split at taken
    · obtain rfl := Option.some.inj taken
      exact unread_completed ‹_› rfl rfl rfl ec.isNone n.succeeded
    · contradiction
  | send index count =>
    simp only [kernel] at taken
    split at taken
    · split at taken
      · rename_i serial unsent found _
        obtain rfl := Option.some.inj taken
        obtain ⟨xs, ys, whole, -, replaced⟩ := Lists.split_at found
        refine ⟨rfl, rfl, id, fun op among read => ?_, fun _ among _ => .inl among, fun _ op among read => ?_,
          fun _ among _ => among, rfl⟩
        · rcases List.mem_or_eq_of_mem_set among with before | rfl
          · exact before
          · cases read
        · show op ∈ n.ops.set index _
          rw [replaced]
          rw [whole] at among
          rcases List.mem_append.mp among with before | rest
          · exact List.mem_append_left _ before
          · rcases List.mem_cons.mp rest with rfl | behind
            · cases read
            · exact List.mem_append_right _ (.tail _ behind)
      · contradiction
    · contradiction
  | write index ec =>
    simp only [kernel] at taken
    split at taken
    · split at taken
      · obtain rfl := Option.some.inj taken
        exact unread_completed ‹_› rfl rfl rfl n.socket.established _
      · contradiction
    · contradiction
  | read index result => exact absurd rfl (other index result)

/-! ### A task is taken -/

variable {task : Task H K} {tail : List (Task H K)}

theorem leaving_onRead (n : Net H K) (tail : List (Task H K)) (phase : ReadPhase) (handler : H)
    (result : Except AsioError Bytes) :
    (n.leaving tail).onRead phase handler result = match n.reading.onRead phase result with
      | (reading, .read phase count) => { n.leaving tail with reading }.startRead phase count handler
      | (reading, .post ec packet) => { n.leaving tail with reading }.post (.readHandler handler ec packet) := rfl

/-- The bytes that were read are handled. -/
theorem heard_onRead {phase : ReadPhase} {handler : H} {bytes : Bytes} (heard : Heard i n)
    (front : n.ready = .read phase handler (.ok bytes) :: tail) :
    Heard (i.handle (n.reading.onRead phase (.ok bytes)).2) ((n.leaving tail).onRead phase handler (.ok bytes)) := by
  have framing := framing_onRead heard.framing front
  have one := heard.framing.one
  have reads : (Task.read phase handler (.ok bytes) : Task H K).isRead = true := rfl
  simp only [chains, front, List.countP_cons, reads, if_true] at one
  have none : (n.leaving tail).chains = 0 := by
    simp only [chains, leaving]
    omega
  obtain ⟨noOp, noTask⟩ := none_reads none
  have fits : (Task.read phase handler (.ok bytes) : Task H K).Sound n.reading.readHeader :=
    heard.framing.ready _ (front ▸ List.mem_cons_self ..)
  have came := fun whole => heard.came whole phase handler bytes (front ▸ List.mem_cons_self ..)
  have next : ReadState.Continues n.reading phase bytes (n.reading.onRead phase (.ok bytes)) :=
    ReadState.onRead_continues fits
  rw [leaving_onRead] at framing ⊢
  generalize n.reading.onRead phase (.ok bytes) = out at next framing ⊢
  -- nothing is read while a packet or an error is on its way
  have posted : ∀ {j : Intake} {reading : ReadState} {ec : ErrorCode} {packet : Bytes},
      Framing ({ n.leaving tail with reading }.post (.readHandler handler ec packet)) →
      (∀ p ∈ j.delivered, ∃ fr : Frame, p = fr.bytes) → j.delivered.flatten <+: j.arrived →
      (j.failed = false → j.arrived = j.delivered.flatten) →
      Heard j ({ n.leaving tail with reading }.post (.readHandler handler ec packet)) := by
    intro j reading ec packet framing frames before whole
    refine ⟨framing, frames, before, fun _ p c h among => ?_, fun _ p h b among => ?_, fun fine _ _ _ => whole fine⟩
    · exact absurd (noOp _ among) (by simp [SocketOp.isRead])
    · rcases List.mem_append.mp among with old | last
      · exact absurd (noTask _ old) (by simp [Task.isRead])
      · cases List.mem_singleton.mp last
  cases next with
  | reads reading phase' count fits more depth =>
    exact heard_startRead handler framing heard.frames heard.before none fun whole _ => more ▸ came whole
  | delivers reading fr whole depth =>
    refine posted framing ?_ ?_ ?_
    · intro packet among
      cases failed : i.failed <;> simp only [Intake.handle, failed, if_true, Bool.false_eq_true, if_false] at among
      · rcases List.mem_append.mp among with old | last
        · exact heard.frames packet old
        · exact ⟨fr, List.mem_singleton.mp last⟩
      · exact heard.frames packet among
    · cases failed : i.failed <;> simp only [Intake.handle, failed, if_true, Bool.false_eq_true, if_false]
      · rw [came failed, List.flatten_append, List.flatten_singleton, whole]
      · exact heard.before
    · cases failed : i.failed <;> simp only [Intake.handle, failed, if_true, Bool.false_eq_true, if_false]
      · intro _
        rw [came failed, List.flatten_append, List.flatten_singleton, whole]
      · exact fun fine => absurd fine (by simp)
  | fails reading ec depth => exact posted framing heard.frames heard.before (by simp [Intake.handle])

/-- A read that failed ends without a packet. -/
theorem heard_onRead_error {phase : ReadPhase} {handler : H} {ec : AsioError} (heard : Heard i n)
    (front : n.ready = .read phase handler (.error ec) :: tail) :
      Heard i ((n.leaving tail).onRead phase handler (.error ec)) := by
  have framing := framing_onRead heard.framing front
  have one := heard.framing.one
  have reads : (Task.read phase handler (.error ec) : Task H K).isRead = true := rfl
  simp only [chains, front, List.countP_cons, reads, if_true] at one
  have none : (n.leaving tail).chains = 0 := by
    simp only [chains, leaving]
    omega
  obtain ⟨noOp, noTask⟩ := none_reads none
  refine ⟨framing, heard.frames, heard.before, fun _ p c h among => ?_, fun _ p h b among => ?_,
    fun fine opened _ _ => ?_⟩
  · exact absurd (noOp _ among) (by simp [SocketOp.isRead])
  · rcases List.mem_append.mp among with old | last
    · exact absurd (noTask _ old) (by simp [Task.isRead])
    · cases List.mem_singleton.mp last
  · refine heard.between fine opened noOp fun task among => ?_
    rw [front] at among
    rcases List.mem_cons.mp among with rfl | rest
    · rfl
    · exact no_arrival noTask task rest

/-- A task that does not read is taken, and its packet with it. -/
theorem unread_leaving (front : n.ready = task :: tail) (other : task.isRead = false) (empty : task.packet? = none) :
    Unread own n (n.leaving tail) := by
  refine ⟨rfl, rfl, id, fun _ among _ => among, fun later among _ => .inl (front ▸ List.mem_cons_of_mem task among),
    fun _ _ among _ => among, fun first among read => ?_, ?_⟩
  · rw [front] at among
    rcases List.mem_cons.mp among with rfl | rest
    · exact absurd (other.symm.trans read) (by simp)
    · exact rest
  · rw [Net.underway, Net.underway, front, List.filterMap_cons_none empty]
    rfl

/-- Every other task leaves the reading alone, unless it replaces the socket. -/
theorem unread_runTask (idle : n.stack = []) (front : n.ready = task :: tail) (other : task.isRead = false)
    (posted : ∀ k, task = .own k → own k = none) : Unread own n ((n.leaving tail).runTask task) ∨
      ∃ handler rest, (n.leaving tail).runTask task = (n.leaving tail).connectEndpoint handler rest := by
  have left : task.packet? = none → Unread own n (n.leaving tail) := unread_leaving front other
  have called : ∀ {entry : StackEntry H K}, task.packet? = none → entry.packet? own = none →
      Unread own n ((n.leaving tail).push [entry]) := fun empty quiet =>
    (left empty).trans (unread_push _ fun entry among => List.mem_singleton.mp among ▸ quiet)
  cases task with
  | enqueueWrite item => exact .inl ((left rfl).trans (unread_enqueueWrite _ item))
  | failPendingWrites ec => exact .inl ((left rfl).trans (unread_failPendingWrites _ ec))
  | rejectWrite item => exact .inl ((left rfl).trans (unread_push _ (item.packet?_invocation own _)))
  | resolved handler result =>
    cases result with
    | error ec => exact .inl (called rfl rfl)
    | ok rest => exact .inr ⟨handler, rest, rfl⟩
  | connected handler rest socket ec =>
    have onConnected : ∀ ec, Unread own n ((n.leaving tail).onConnected handler ec) := fun ec =>
      (left rfl).trans (unread_onConnected _ handler ec)
    change Unread own n ((n.leaving tail).onEndpoint handler rest ec) ∨
      ∃ h r, (n.leaving tail).onEndpoint handler rest ec = _
    unfold onEndpoint
    split
    · exact .inl (onConnected _)
    · split
      · exact .inl (onConnected _)
      · exact .inl (onConnected _)
      · exact .inr ⟨_, _, rfl⟩
  | written serial ec => exact .inl ((left rfl).trans (unread_onWritten _ ec))
  | read phase handler result => cases other
  | readHandler handler ec packet =>
    cases ec with
    | some ec => exact .inl (called rfl rfl)
    | none =>
      refine .inl ⟨rfl, rfl, id, fun _ among _ => among,
          fun later among _ => .inl (front ▸ List.mem_cons_of_mem _ among),
        fun _ _ among _ => among, fun first among read => ?_, ?_⟩
      · rw [front] at among
        rcases List.mem_cons.mp among with rfl | rest
        · cases read
        · exact rest
      · rw [Net.underway, Net.underway, front, idle, List.filterMap_cons]
        show ((n.leaving tail).push [.invoke (.read handler none packet)]).stack.filterMap
          (StackEntry.packet? own) ++ _ = _
        rw [push, leaving, idle]
        rfl
  | own k => exact .inl (called rfl (posted k rfl))

theorem socket_startRead (n : Net H K) (phase : ReadPhase) (count : Nat) (handler : H) :
    (n.startRead phase count handler).socket = n.socket := by
  unfold startRead
  split <;> rfl

theorem socket_asyncReadPacket (n : Net H K) (handler : H) : (n.asyncReadPacket handler).socket = n.socket := by
  unfold asyncReadPacket
  split
  · exact socket_startRead _ _ _ _
  · rfl

theorem socket_onRead (n : Net H K) (phase : ReadPhase) (handler : H) (result : Except AsioError Bytes) :
    (n.onRead phase handler result).socket = n.socket := by
  unfold onRead
  split
  · exact socket_startRead _ _ _ _
  · rfl

theorem underway_startRead (n : Net H K) (phase : ReadPhase) (count : Nat) (handler : H) :
    (n.startRead phase count handler).underway own = n.underway own := by
  unfold startRead
  split
  · rfl
  · simp [Net.underway, post, Task.packet?, List.filterMap_append]

theorem underway_asyncReadPacket (n : Net H K) (handler : H) :
    (n.asyncReadPacket handler).underway own = n.underway own := by
  unfold asyncReadPacket
  split
  · exact underway_startRead _ _ _ _
  · rfl

theorem underway_onRead {phase : ReadPhase} {handler : H} {result : Except AsioError Bytes}
    (front : n.ready = .read phase handler result :: tail) :
      ((n.leaving tail).onRead phase handler result).underway own =
      n.underway own ++ (n.reading.onRead phase result).2.packet?.toList := by
  have left : (n.leaving tail).underway own = n.underway own := by
    rw [Net.underway, Net.underway, front, List.filterMap_cons_none rfl]
    rfl
  rw [leaving_onRead, ← left]
  rcases n.reading.onRead phase result with ⟨reading, ⟨phase, count⟩ | ⟨ec, packet⟩⟩
  · exact (underway_startRead _ _ _ _).trans (List.append_nil _).symm
  · show (n.leaving tail).stack.filterMap _ ++ ((n.leaving tail).ready ++ [_]).filterMap _ = _
    rw [List.filterMap_append, ← List.append_assoc]
    cases ec <;> rfl

/-- A read completes, and waits to be handled. -/
theorem kernel_read {index : Nat} {result : Except AsioError Bytes} (taken : n.kernel (.read index result) = some m) :
    ∃ phase handler, m = { n with ops := n.ops.eraseIdx index }.post (.read phase handler result) := by
  simp only [kernel] at taken
  split at taken
  · split at taken
    · exact ⟨_, _, (Option.some.inj taken).symm⟩
    · contradiction
  · exact ⟨_, _, (Option.some.inj taken).symm⟩
  · contradiction

theorem underway_kernel {index : Nat} {result : Except AsioError Bytes}
    (taken : n.kernel (.read index result) = some m) :
    m.underway own = n.underway own := by
  obtain ⟨phase, handler, rfl⟩ := kernel_read taken
  simp [Net.underway, post, Task.packet?, List.filterMap_append]

theorem underway_connectEndpoint (n : Net H K) (handler : H) (rest : Nat) :
    (n.connectEndpoint handler rest).underway own = n.underway own := (unread_closeSocket n).underway

/-- The socket is replaced, with nothing of the old one still to be handled. -/
theorem heard_connectEndpoint (framing : n.Framing) (handled : ∀ task ∈ n.ready, task.isArrival = false) (handler : H)
    (rest : Nat) : Heard {} (n.connectEndpoint handler rest) := by
  refine ⟨framing_connectEndpoint framing handler rest, nofun, List.nil_prefix, fun _ p c h among => ?_,
    fun _ p h b among => ?_, fun _ _ _ _ => rfl⟩
  · cases List.mem_singleton.mp among
  · rcases List.mem_append.mp among with old | aborted
    · exact absurd (handled _ old) (by simp [Task.isArrival])
    · obtain ⟨op, -, same⟩ := List.mem_map.mp aborted
      cases op <;> cases same

end Net
end LiteMqtt
