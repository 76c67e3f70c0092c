import LiteMqtt.Connection.Closing
import LiteMqtt.Connection.Progress

/-!
# What stands behind a write, a read and a queue

An item in flight has its write outstanding or completed, a packet that is being read has its read, and
a queue that is not empty is moved on by the write underway or by a failure that is queued.
-/

namespace LiteMqtt

variable {H K : Type}

theorem ReadState.onRead_done {r s : ReadState} {phase : ReadPhase} {result : Except AsioError Bytes} {ec : ErrorCode}
    {packet : Bytes} (done : r.onRead phase result = (s, .post ec packet)) : s.readingDepth = 0 := by
  have body : ∀ (r s : ReadState) (length : Nat), r.readPacketBody length = (s, .post ec packet) →
      s.readingDepth = 0 := by
    intro r s length done
    unfold readPacketBody at done
    split at done
    · exact congrArg readingDepth (Prod.mk.inj done).1 |>.symm
    · exact absurd (Prod.mk.inj done).2 nofun
  have failed : ∀ (r s : ReadState) (error : AsioError), r.readFailed error = (s, .post ec packet) →
      s.readingDepth = 0 :=
    fun _ _ _ done => (congrArg readingDepth (Prod.mk.inj done).1).symm
  unfold onRead at done
  split at done
  · exact failed _ _ _ done
  · unfold onFixedHeader at done
    dsimp only at done
    split at done
    · exact failed _ _ _ done
    · unfold readRemainingLength at done
      dsimp only at done
      split at done
      · exact absurd (Prod.mk.inj done).2 nofun
      · exact body _ _ _ done
  · unfold onLengthByte at done
    dsimp only at done
    split at done
    · exact failed _ _ _ done
    · split at done
      · exact absurd (Prod.mk.inj done).2 nofun
      · exact body _ _ _ done
  · exact (congrArg readingDepth (Prod.mk.inj done).1).symm

namespace Net

variable {n m : Net H K}

/-- A write is outstanding, or its completion is queued. -/
def Flies (n : Net H K) : Prop :=
  (∃ op ∈ n.ops, op.write?.isSome = true) ∨ ∃ task ∈ n.ready, task.written?.isSome = true

/-- Part of a packet is being read for `h`. -/
def Reads (n : Net H K) (h : H) : Prop :=
  (∃ phase count, .read phase count h ∈ n.ops) ∨ ∃ phase result, .read phase h result ∈ n.ready

structure Sustained (n : Net H K) : Prop where
  shut : n.closed = true → n.writeQueue = [] ∧ n.inFlight = none
  busy : n.writing = true → n.inFlight.isSome = true
  flying : n.inFlight.isSome = true → n.Flies
  queued : n.writeQueue ≠ [] → n.writing = true ∨ (∃ ec, .failPendingWrites ec ∈ n.ready) ∨
    ∃ ec, .afterWrite ec ∈ n.stack
  reading : 0 < n.reading.readingDepth → ∃ h, n.Reads h

/-- What is outstanding and queued in `n` is in `m`. -/
structure Retains (n m : Net H K) : Prop where
  flies : n.Flies → m.Flies
  reads : ∀ h, n.Reads h → m.Reads h
  deferred : ∀ ec, .failPendingWrites ec ∈ n.ready → .failPendingWrites ec ∈ m.ready
  settling : ∀ ec, .afterWrite ec ∈ n.stack → .afterWrite ec ∈ m.stack

theorem retains_of_more (ops : n.ops ⊆ m.ops) (ready : n.ready ⊆ m.ready) (stack : n.stack ⊆ m.stack) : Retains n m :=
  ⟨fun flies => flies.imp (fun ⟨op, among, is⟩ => ⟨op, ops among, is⟩) fun ⟨task, among, is⟩ => ⟨task, ready among, is⟩,
    fun _ reads => reads.imp (fun ⟨phase, count, among⟩ => ⟨phase, count, ops among⟩)
      fun ⟨phase, result, among⟩ => ⟨phase, result, ready among⟩,
    fun _ among => ready among, fun _ among => stack among⟩

theorem retains_closeSocket (n : Net H K) : Retains n n.closeSocket := by
  have aborted : ∀ op ∈ n.ops, op.abort n.socket.number ∈ n.closeSocket.ready := by
    intro op among
    refine List.mem_append_right _ (List.mem_map.mpr ⟨op, ?_, rfl⟩)
    cases reads : op.isRead with
    | true => exact List.mem_append_left _ (List.mem_filter.mpr ⟨among, reads⟩)
    | false => exact List.mem_append_right _ (List.mem_filter.mpr ⟨among, by simp [reads]⟩)
  have before : n.ready ⊆ n.closeSocket.ready := List.subset_append_left _ _
  refine ⟨fun flies => .inr ?_, fun h reads => .inr ?_, fun _ among => before among, fun _ => id⟩
  · rcases flies with ⟨op, among, is⟩ | ⟨task, among, is⟩
    · cases op with
      | write serial unsent => exact ⟨_, aborted _ among, rfl⟩
      | _ => contradiction
    · exact ⟨task, before among, is⟩
  · rcases reads with ⟨phase, count, among⟩ | ⟨phase, result, among⟩
    · exact ⟨phase, _, aborted _ among⟩
    · exact ⟨phase, result, before among⟩

/-- The write queue and the read state are as before, and what they rest on is retained. -/
theorem Sustained.retain (h : n.Sustained) (retains : Retains n m) (closed : m.closed = n.closed)
    (queue : m.writeQueue = n.writeQueue) (inFlight : m.inFlight = n.inFlight) (writing : m.writing = n.writing)
    (reading : m.reading.readingDepth = n.reading.readingDepth) : m.Sustained := by
  refine ⟨?_, ?_, ?_, ?_, ?_⟩
  · rw [closed, queue, inFlight]
    exact h.shut
  · rw [writing, inFlight]
    exact h.busy
  · rw [inFlight]
    exact retains.flies ∘ h.flying
  · rw [queue, writing]
    refine fun some => (h.queued some).imp_right fun rests => rests.imp ?_ ?_
    · exact fun ⟨ec, among⟩ => ⟨ec, retains.deferred ec among⟩
    · exact fun ⟨ec, among⟩ => ⟨ec, retains.settling ec among⟩
  · rw [reading]
    exact fun some => (h.reading some).imp retains.reads

theorem Sustained.more (h : n.Sustained) (ops : n.ops ⊆ m.ops) (ready : n.ready ⊆ m.ready) (stack : n.stack ⊆ m.stack)
    (closed : m.closed = n.closed) (queue : m.writeQueue = n.writeQueue) (inFlight : m.inFlight = n.inFlight)
    (writing : m.writing = n.writing) (reading : m.reading.readingDepth = n.reading.readingDepth) : m.Sustained :=
  h.retain (retains_of_more ops ready stack) closed queue inFlight writing reading

theorem sustained_post (h : n.Sustained) (task : Task H K) : (n.post task).Sustained :=
  h.more (fun _ => id) (List.subset_append_left _ _) (fun _ => id) rfl rfl rfl rfl rfl

theorem sustained_push (h : n.Sustained) (entries : List (StackEntry H K)) : (n.push entries).Sustained :=
  h.more (fun _ => id) (fun _ => id) (List.subset_append_right _ _) rfl rfl rfl rfl rfl

theorem sustained_closeSocket (h : n.Sustained) : n.closeSocket.Sustained :=
  h.retain (retains_closeSocket n) rfl rfl rfl rfl rfl

theorem sustained_connectEndpoint (h : n.Sustained) (handler : H) (rest : Nat) :
    (n.connectEndpoint handler rest).Sustained :=
  (sustained_closeSocket h).more (fun _ among => absurd among List.not_mem_nil) (fun _ => id) (fun _ => id)
    rfl rfl rfl rfl rfl

/-- Either the read is outstanding, or its completion is queued. -/
theorem retains_startRead (n : Net H K) (phase : ReadPhase) (count : Nat) (handler : H) :
    Retains n (n.startRead phase count handler) ∧ (n.startRead phase count handler).Reads handler := by
  unfold startRead
  split
  · exact ⟨retains_of_more (List.subset_append_left _ _) (fun _ => id) fun _ => id, .inl ⟨phase, count, by simp⟩⟩
  · exact ⟨retains_of_more (fun _ => id) (List.subset_append_left _ _) fun _ => id,
      .inr ⟨phase, _, List.mem_append_right _ (.head _)⟩⟩

theorem startRead_same (n : Net H K) (phase : ReadPhase) (count : Nat) (handler : H) :
    (n.startRead phase count handler).closed = n.closed ∧
      (n.startRead phase count handler).writeQueue = n.writeQueue ∧
      (n.startRead phase count handler).inFlight = n.inFlight ∧
      (n.startRead phase count handler).writing = n.writing := by
  unfold startRead
  split <;> exact ⟨rfl, rfl, rfl, rfl⟩

theorem sustained_startRead (h : n.Sustained) (reading : ReadState) (phase : ReadPhase) (count : Nat) (handler : H) :
    ({ n with reading }.startRead phase count handler).Sustained := by
  obtain ⟨retains, reads⟩ := retains_startRead { n with reading } phase count handler
  obtain ⟨closed, queue, inFlight, writing⟩ := startRead_same { n with reading } phase count handler
  refine ⟨?_, ?_, ?_, ?_, fun _ => ⟨handler, reads⟩⟩
  · rw [closed, queue, inFlight]
    exact h.shut
  · rw [writing, inFlight]
    exact h.busy
  · rw [inFlight]
    exact fun some => retains.flies (h.flying some)
  · rw [queue, writing]
    refine fun some => (h.queued some).imp_right fun rests => rests.imp ?_ ?_
    · exact fun ⟨ec, among⟩ => ⟨ec, retains.deferred ec among⟩
    · exact fun ⟨ec, among⟩ => ⟨ec, retains.settling ec among⟩

theorem sustained_asyncReadPacket (h : n.Sustained) (handler : H) : (n.asyncReadPacket handler).Sustained := by
  unfold asyncReadPacket ReadState.asyncReadPacket ReadState.readFixedHeader
  by_cases deep : n.reading.readingDepth > 0
  · simp only [deep, if_true]
    exact h
  · simp only [deep, if_false]
    exact sustained_startRead h _ _ _ handler

/-- The call reads for the handler, unless a packet is being read already. -/
theorem reads_asyncReadPacket (h : n.Sustained) (handler : H) : ∃ other, (n.asyncReadPacket handler).Reads other := by
  unfold asyncReadPacket ReadState.asyncReadPacket ReadState.readFixedHeader
  by_cases deep : n.reading.readingDepth > 0
  · simp only [deep, if_true]
    exact h.reading deep
  · simp only [deep, if_false]
    exact ⟨handler, (retains_startRead _ _ _ handler).2⟩

theorem owes_reads {h : H} (reads : n.Reads h) : n.Owes (.read h) := by
  rcases reads with ⟨phase, count, among⟩ | ⟨phase, result, among⟩
  · exact .inr (.inl ⟨_, among, rfl⟩)
  · exact .inr (.inr (.inl ⟨_, among, rfl⟩))

theorem sustained_doWrite (shut : n.closed = true → n.writeQueue = [] ∧ n.inFlight = none)
    (busy : n.writing = true → n.inFlight.isSome = true) (flying : n.inFlight.isSome = true → n.Flies)
    (reading : 0 < n.reading.readingDepth → ∃ h, n.Reads h) : n.doWrite.Sustained := by
  have does := does_doWrite n
  generalize n.doWrite = m at does
  cases does with
  | rest nothing => exact ⟨shut, busy, flying, fun some => .inl (nothing.resolve_right some), reading⟩
  | defer free unable =>
    have more : Retains n (n.post (.failPendingWrites .badDescriptor)) :=
      retains_of_more (fun _ => id) (List.subset_append_left _ _) fun _ => id
    exact ⟨shut, busy, fun some => more.flies (flying some),
        fun _ => .inr (.inl ⟨_, List.mem_append_right _ (.head _)⟩),
      fun some => (reading some).imp more.reads⟩
  | start item rest free queue able =>
    have more : Retains n (n.startWrite item rest) :=
      retains_of_more (List.subset_append_left _ _) (fun _ => id) fun _ => id
    refine ⟨fun closed => ?_, fun _ => rfl, fun _ => .inl ⟨.write item.serial item.buffer, by simp [startWrite], rfl⟩,
      fun _ => .inl rfl, fun some => (reading some).imp more.reads⟩
    cases queue.symm.trans (shut closed).1

theorem sustained_close (h : n.Sustained) : n.close.Sustained := by
  unfold close
  split
  · exact h
  · have shut := sustained_closeSocket h
    exact ⟨fun _ => ⟨rfl, rfl⟩, nofun, nofun, fun some => absurd rfl some, shut.reading⟩

/-! ### A task is taken -/

variable {task : Task H K} {tail : List (Task H K)}

theorem flies_leaving (front : n.ready = task :: tail) (other : task.written? = none) (flies : n.Flies) :
    (n.leaving tail).Flies := by
  refine flies.imp_right fun ⟨first, among, is⟩ => ⟨first, ?_, is⟩
  rw [front] at among
  refine (List.mem_cons.mp among).resolve_left ?_
  rintro rfl
  simp [other] at is

theorem deferred_leaving (front : n.ready = task :: tail) (other : task.failing? = none)
    (deferred : ∃ ec, .failPendingWrites ec ∈ n.ready) : ∃ ec, .failPendingWrites ec ∈ (n.leaving tail).ready := by
  obtain ⟨ec, among⟩ := deferred
  rw [front] at among
  refine ⟨ec, (List.mem_cons.mp among).resolve_left ?_⟩
  rintro rfl
  contradiction

theorem reads_leaving (front : n.ready = task :: tail) (other : task.isRead = false) (reads : ∃ h, n.Reads h) :
    ∃ h, (n.leaving tail).Reads h := by
  obtain ⟨h, op | ⟨phase, result, among⟩⟩ := reads
  · exact ⟨h, .inl op⟩
  · rw [front] at among
    refine ⟨h, .inr ⟨phase, result, (List.mem_cons.mp among).resolve_left ?_⟩⟩
    rintro rfl
    contradiction

theorem queued_leaving (h : n.Sustained) (front : n.ready = task :: tail) (other : task.failing? = none)
    (some : (n.leaving tail).writeQueue ≠ []) : n.writing = true ∨
      (∃ ec, .failPendingWrites ec ∈ (n.leaving tail).ready) ∨ ∃ ec, .afterWrite ec ∈ n.stack :=
  (h.queued some).imp_right (Or.imp_left (deferred_leaving front other))

theorem sustained_leaving (h : n.Sustained) (front : n.ready = task :: tail) (written : task.written? = none)
    (failing : task.failing? = none) (read : task.isRead = false) : (n.leaving tail).Sustained :=
  ⟨h.shut, h.busy, flies_leaving front written ∘ h.flying, queued_leaving h front failing,
    reads_leaving front read ∘ h.reading⟩

theorem sustained_onRead (h : n.Sustained) {phase : ReadPhase} {handler : H} {result : Except AsioError Bytes}
    (front : n.ready = .read phase handler result :: tail) :
      ((n.leaving tail).onRead phase handler result).Sustained := by
  have flying := flies_leaving front rfl ∘ h.flying
  have queued := queued_leaving h front rfl
  unfold onRead
  split
  · rename_i reading next count _
    have bare : ({ n.leaving tail with reading.readingDepth := 0 } : Net H K).Sustained :=
      ⟨h.shut, h.busy, flying, queued, nofun⟩
    exact sustained_startRead bare reading next count handler
  · rename_i reading ec packet done
    have idle : reading.readingDepth = 0 := ReadState.onRead_done done
    have bare : ({ n.leaving tail with reading } : Net H K).Sustained :=
      ⟨h.shut, h.busy, flying, queued, fun deep => absurd (idle ▸ deep) (Nat.lt_irrefl 0)⟩
    exact sustained_post bare _

theorem sustained_onConnected (h : n.Sustained) (handler : H) (ec : ErrorCode) : (n.onConnected handler ec).Sustained :=
  h.more (fun _ => id) (fun _ => id) (List.subset_append_right _ _) rfl rfl rfl rfl rfl

theorem sustained_run (h : n.Sustained) (taken : n.run = some m) : m.Sustained := by
  obtain ⟨idle, task, tail, front, rfl⟩ := run_cases taken
  have left := sustained_leaving h front
  cases task with
  | enqueueWrite item =>
    have held := left rfl rfl rfl
    change ((n.leaving tail).enqueueWrite item).Sustained
    unfold enqueueWrite
    split
    · exact sustained_post held _
    · rename_i opened
      dsimp only
      split
      · exact sustained_doWrite (fun closed => absurd closed opened) held.busy held.flying held.reading
      · rename_i busy
        exact ⟨fun closed => absurd closed opened, held.busy, held.flying, fun _ => .inl (by simpa using busy),
          held.reading⟩
  | failPendingWrites ec =>
    have flying := flies_leaving front rfl ∘ h.flying
    have reading := reads_leaving front rfl ∘ h.reading
    exact ⟨fun closed => ⟨rfl, (h.shut closed).2⟩, fun busy => absurd busy Bool.false_ne_true, flying,
      fun some => absurd rfl some, reading⟩
  | rejectWrite item => exact sustained_push (left rfl rfl rfl) _
  | resolved handler result =>
    cases result with
    | error ec => exact sustained_push (left rfl rfl rfl) _
    | ok rest => exact sustained_connectEndpoint (left rfl rfl rfl) handler rest
  | connected handler rest socket ec =>
    have held := left rfl rfl rfl
    change ((n.leaving tail).onEndpoint handler rest ec).Sustained
    unfold onEndpoint
    split
    · exact sustained_onConnected held _ _
    · split
      · exact sustained_onConnected held _ _
      · exact sustained_onConnected held _ _
      · exact sustained_connectEndpoint held handler _
  | written serial ec =>
    have reading := reads_leaving front rfl ∘ h.reading
    change ((n.leaving tail).onWritten ec).Sustained
    unfold onWritten
    split
    · rename_i landed
      have landed : n.inFlight = none := landed
      exact ⟨h.shut, h.busy, fun some => absurd some (by simp [leaving, landed]), queued_leaving h front rfl, reading⟩
    · have never {b : Prop} (h : false = true) : b := absurd h Bool.false_ne_true
      exact ⟨fun closed => ⟨(h.shut closed).1, rfl⟩, never, never, fun _ => .inr (.inr ⟨ec, by simp [push]⟩), reading⟩
  | read phase handler result => exact sustained_onRead h front
  | readHandler handler ec packet => exact sustained_push (left rfl rfl rfl) _
  | own k => exact sustained_push (left rfl rfl rfl) _

theorem sustained_popped (h : n.Sustained) {entry : StackEntry H K} {rest : List (StackEntry H K)}
    (front : n.stack = entry :: rest) (other : entry.afterWrite? = none) :
      ({ n with stack := rest } : Net H K).Sustained := by
  refine ⟨h.shut, h.busy, h.flying, fun some => ?_, h.reading⟩
  refine (h.queued some).imp_right (Or.imp_right fun ⟨ec, among⟩ => ⟨ec, ?_⟩)
  rw [front] at among
  refine (List.mem_cons.mp among).resolve_left ?_
  rintro rfl
  contradiction

theorem sustained_resume (h : n.Sustained) (taken : n.resume = some m) : m.Sustained := by
  unfold resume at taken
  split at taken
  · rename_i call rest front
    obtain rfl := Option.some.inj taken
    have popped := sustained_popped h front (by cases call <;> rfl)
    cases call <;> exact ⟨popped.shut, popped.busy, popped.flying, popped.queued, popped.reading⟩
  · rename_i ec rest front
    obtain rfl := Option.some.inj taken
    cases ec with
    | some ec =>
      have shut : ({ n with stack := rest } : Net H K).closeSocket.Flies → _ := fun flies => flies
      exact ⟨fun closed => ⟨rfl, (h.shut closed).2⟩, nofun, (retains_closeSocket n).flies ∘ h.flying,
        fun some => absurd rfl some, fun deep => (h.reading deep).imp (retains_closeSocket n).reads⟩
    | none =>
      unfold afterWrite
      dsimp only
      split
      · exact sustained_doWrite h.shut h.busy h.flying h.reading
      · rename_i done
        refine ⟨h.shut, h.busy, h.flying, fun some => .inl ?_, h.reading⟩
        simpa [some] using done
  · rename_i rest front
    obtain rfl := Option.some.inj taken
    exact sustained_push (sustained_popped h front rfl) _
  · contradiction

/-- An operation completes, and its task stands for it. -/
theorem sustained_completed (h : n.Sustained) {index : Nat} {op : SocketOp H} {task : Task H K}
    (found : n.ops[index]? = some op)
    (flies : op.write?.isSome = true → task.written?.isSome = true)
    (reads : ∀ phase count h, op = .read phase count h → ∃ result, task = .read phase h result) (socket : Socket)
    (succeeded : List Nat) : ({ n with ops := n.ops.eraseIdx index, socket, succeeded }.post task).Sustained := by
  obtain ⟨xs, ys, whole, erased, -⟩ := Lists.split_at found
  have moved : ∀ other ∈ n.ops, other = op ∨ other ∈ n.ops.eraseIdx index := by
    intro other among
    rw [whole] at among
    rw [erased]
    simpa [or_left_comm] using among
  have posted : task ∈ n.ready ++ [task] := List.mem_append_right _ (.head _)
  refine ⟨h.shut, h.busy, fun some => ?_, fun some => ?_, fun deep => ?_⟩
  · rcases h.flying some with ⟨other, among, is⟩ | ⟨other, among, is⟩
    · rcases moved other among with rfl | left
      · exact .inr ⟨task, posted, flies is⟩
      · exact .inl ⟨other, left, is⟩
    · exact .inr ⟨other, List.mem_append_left _ among, is⟩
  · exact (h.queued some).imp_right (Or.imp_left fun ⟨ec, among⟩ => ⟨ec, List.mem_append_left _ among⟩)
  · obtain ⟨handler, ⟨phase, count, among⟩ | ⟨phase, result, among⟩⟩ := h.reading deep
    · rcases moved _ among with same | left
      · obtain ⟨result, rfl⟩ := reads phase count handler same.symm
        exact ⟨handler, .inr ⟨phase, result, posted⟩⟩
      · exact ⟨handler, .inl ⟨phase, count, left⟩⟩
    · exact ⟨handler, .inr ⟨phase, result, List.mem_append_left _ among⟩⟩

theorem sustained_kernel (h : n.Sustained) {event : Event} (taken : n.kernel event = some m) : m.Sustained := by
  cases event with
  | resolve index result =>
    obtain ⟨handler, found, rfl⟩ := Option.map_eq_some_iff.mp taken
    exact h.more (fun _ => id) (List.subset_append_left _ _) (fun _ => id) rfl rfl rfl rfl rfl
  | connect index ec =>
    simp only [kernel] at taken
    split at taken
    · rename_i handler rest found
      obtain rfl := Option.some.inj taken
      exact sustained_completed h found (fun some => by cases some) (fun _ _ _ same => by cases same)
        { n.socket with established := ec.isNone } n.succeeded
    · contradiction
  | send index count =>
    simp only [kernel] at taken
    split at taken
    · split at taken
      · rename_i serial unsent found _
        obtain rfl := Option.some.inj taken
        obtain ⟨xs, ys, whole, -, replaced⟩ := Lists.split_at found
        refine ⟨h.shut, h.busy, fun some => ?_, h.queued, fun deep => ?_⟩
        · exact .inl ⟨.write serial (unsent.drop count), by rw [replaced]; simp, rfl⟩
        · refine (h.reading deep).imp fun handler reads => reads.imp_left ?_
          rintro ⟨phase, size, among⟩
          refine ⟨phase, size, ?_⟩
          rw [whole] at among
          rw [replaced]
          simpa using among
      · contradiction
    · contradiction
  | write index ec =>
    simp only [kernel] at taken
    split at taken
    · split at taken
      · obtain rfl := Option.some.inj taken
        exact sustained_completed h ‹_› (fun _ => rfl) (by simp) n.socket _
      · contradiction
    · contradiction
  | read index result =>
    simp only [kernel] at taken
    split at taken
    · split at taken
      · obtain rfl := Option.some.inj taken
        refine sustained_completed h ‹_› (fun some => by cases some) (fun phase count handler same =>
          ?_) n.socket n.succeeded
        obtain ⟨rfl, -, rfl⟩ := SocketOp.read.inj same
        exact ⟨_, rfl⟩
      · contradiction
    · obtain rfl := Option.some.inj taken
      refine sustained_completed h ‹_› (fun some => by cases some) (fun phase count handler same =>
        ?_) n.socket n.succeeded
      obtain ⟨rfl, -, rfl⟩ := SocketOp.read.inj same
      exact ⟨_, rfl⟩
    · contradiction

/-- Every step keeps it, whatever the owner does. -/
theorem sustained_step (h : n.Sustained) {a : Action H K} (taken : n.step a = some m) : m.Sustained := by
  cases a with
  | run => exact sustained_run h taken
  | resume => exact sustained_resume h taken
  | kernel event => exact sustained_kernel h taken
  | asyncReadPacket handler => exact Option.some.inj taken ▸ sustained_asyncReadPacket h handler
  | asyncWritePacket data handler =>
    obtain rfl := Option.some.inj taken
    exact h.more (fun _ => id) (List.subset_append_left _ _) (fun _ => id) rfl rfl rfl rfl rfl
  | asyncConnect handler =>
    obtain rfl := Option.some.inj taken
    exact ⟨nofun, h.busy, h.flying, h.queued, h.reading⟩
  | markConnected =>
    obtain rfl := Option.some.inj taken
    exact ⟨h.shut, h.busy, h.flying, h.queued, h.reading⟩
  | setCloseHandler handler =>
    obtain rfl := Option.some.inj taken
    exact ⟨h.shut, h.busy, h.flying, h.queued, h.reading⟩
  | close => exact Option.some.inj taken ▸ sustained_close h
  | post k => exact Option.some.inj taken ▸ sustained_post h _
  | push ks => exact Option.some.inj taken ▸ sustained_push h _
  | pop =>
    simp only [step] at taken
    split at taken
    · rename_i front
      exact Option.some.inj taken ▸ sustained_popped h front rfl
    · contradiction

theorem sustained_start : Sustained ({} : Net H K) := ⟨nofun, nofun, nofun, fun some => absurd rfl some, nofun⟩

/-! ### Between two tasks -/

/-- A resolve or an operation on the socket is outstanding, or the connection has a task queued. -/
def Outstanding (n : Net H K) : Prop := n.resolves ≠ [] ∨ n.ops ≠ [] ∨ ∃ task ∈ n.ready, ∀ k, task ≠ .own k

theorem Flies.outstanding (flies : n.Flies) : n.Outstanding := by
  rcases flies with ⟨op, among, -⟩ | ⟨task, among, is⟩
  · exact .inr (.inl (List.ne_nil_of_mem among))
  · refine .inr (.inr ⟨task, among, ?_⟩)
    rintro k rfl
    contradiction

/-- Behind a call that is owed to the owner there is an operation or a task. -/
theorem outstanding_of_owes {p : Debt H K} (h : n.Sustained) (idle : n.stack = []) (foreign : ∀ k, p ≠ .own k)
    (owed : n.Owes p) : n.Outstanding := by
  rcases owed with ⟨handler, among, -⟩ | ⟨op, among, -⟩ | ⟨task, among, mine⟩ | ⟨entry, among, -⟩ | ⟨item, among, -⟩ |
    ⟨item, among, -⟩
  · exact .inl (List.ne_nil_of_mem among)
  · exact .inr (.inl (List.ne_nil_of_mem among))
  · refine .inr (.inr ⟨task, among, ?_⟩)
    rintro k rfl
    exact foreign k (Option.some.inj mine).symm
  · rw [idle] at among
    contradiction
  · rcases h.queued (List.ne_nil_of_mem among) with writing | ⟨ec, deferred⟩ | ⟨ec, settling⟩
    · exact (h.flying (h.busy writing)).outstanding
    · exact .inr (.inr ⟨_, deferred, nofun⟩)
    · rw [idle] at settling
      contradiction
  · exact (h.flying (by rw [Option.mem_def.mp among]; rfl)).outstanding

end Net
end LiteMqtt
