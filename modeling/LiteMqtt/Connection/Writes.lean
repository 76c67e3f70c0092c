import LiteMqtt.Connection.WriteAccounting
import LiteMqtt.General.Lists
import LiteMqtt.General.Runs

/-!
# The connection moves its write queue as `WriteQueue.Step` says

`writes` reads the write queue off a connection. Every step of the connection leaves it alone
or takes one step of the queue, as long as two things do not happen: a deferred
`fail_pending_writes` while an item is in flight, and the completion of another item's write.
-/

namespace LiteMqtt

variable {H K : Type}

def Socket.wire (s : Socket) : Wire := { started := s.started, sent := s.sent }

def SocketOp.write? : SocketOp H → Option (Nat × Bytes)
  | .write serial unsent => some (serial, unsent)
  | _ => none

def Task.enqueued? : Task H K → Option (WriteItem H)
  | .enqueueWrite item => some item
  | _ => none

def Task.rejected? : Task H K → Option (WriteItem H)
  | .rejectWrite item => some item
  | _ => none

def Task.written? : Task H K → Option (Nat × ErrorCode)
  | .written serial ec => some (serial, ec)
  | _ => none

def Task.failing? : Task H K → Option AsioError
  | .failPendingWrites ec => some ec
  | _ => none

def StackEntry.afterWrite? : StackEntry H K → Option ErrorCode
  | .afterWrite ec => some ec
  | _ => none

def StackEntry.call? : StackEntry H K → Option (Nat × ErrorCode)
  | .invoke (.write serial _ ec) => some (serial, ec)
  | _ => none

namespace Net

/-- The write queue of a connection. -/
def writes (n : Net H K) : WriteQueue H where
  closed := n.closed
  isOpen := n.socket.isOpen
  posted := n.ready.filterMap Task.enqueued?
  rejected := n.ready.filterMap Task.rejected?
  queue := n.writeQueue
  inFlight := n.inFlight
  writing := n.writing
  outstanding := n.ops.filterMap SocketOp.write?
  completing := n.ready.filterMap Task.written?
  failing := n.ready.filterMap Task.failing?
  settling := n.stack.filterMap StackEntry.afterWrite?
  calls := n.stack.filterMap StackEntry.call?
  handled := n.handled
  succeeded := n.succeeded
  nextSerial := n.nextSerial
  submitted := n.submitted
  wire := n.socket.wire
  past := n.past.map Socket.wire

/-- A deferred failure may run only while nothing is in flight, and the completion of a write
only while no other item is. -/
def Ripe (n : Net H K) : Task H K → Prop
  | .failPendingWrites _ => n.inFlight = none
  | .written serial _ => ∀ item ∈ n.inFlight, item.serial = serial
  | _ => True

def Orderly (n : Net H K) : Action H K → Prop
  | .run => ∀ task ∈ n.ready.head?, n.Ripe task
  | _ => True

instance (n : Net H K) : ∀ task, Decidable (n.Ripe task)
  | .failPendingWrites _ => inferInstanceAs (Decidable (n.inFlight = none))
  | .written serial _ => inferInstanceAs (Decidable (∀ item ∈ n.inFlight, item.serial = serial))
  | .enqueueWrite _ | .rejectWrite _ | .resolved .. | .connected .. | .read .. | .readHandler ..
  | .own _ => inferInstanceAs (Decidable True)

instance (n : Net H K) : ∀ a, Decidable (n.Orderly a)
  | .run => inferInstanceAs (Decidable (∀ task ∈ n.ready.head?, n.Ripe task))
  | .resume | .kernel _ | .asyncConnect _ | .asyncReadPacket _ | .asyncWritePacket .. | .markConnected
  | .close | .setCloseHandler _ | .post _ | .push _ | .pop => inferInstanceAs (Decidable True)

/-! ### Posting and pushing -/

/-- The task is none of the write queue's. -/
def Foreign (t : Task H K) : Prop :=
  t.enqueued? = none ∧ t.rejected? = none ∧ t.written? = none ∧ t.failing? = none

theorem writes_post (n : Net H K) {t : Task H K} (foreign : Foreign t) :
    (n.post t).writes = n.writes := by
  obtain ⟨enqueued, rejected, written, failing⟩ := foreign
  simp [post, writes, enqueued, rejected, written, failing]

theorem writes_drop {n : Net H K} {t : Task H K} {rest : List (Task H K)} (foreign : Foreign t)
    (front : n.ready = t :: rest) : { n with ready := rest }.writes = n.writes := by
  obtain ⟨enqueued, rejected, written, failing⟩ := foreign
  simp [writes, front, enqueued, rejected, written, failing]

/-- The entries neither answer a write nor wait for a write handler. -/
def Unrelated (es : List (StackEntry H K)) : Prop :=
  es.filterMap StackEntry.afterWrite? = [] ∧ es.filterMap StackEntry.call? = []

theorem writes_push (n : Net H K) {es : List (StackEntry H K)} (unrelated : Unrelated es) :
    (n.push es).writes = n.writes := by
  obtain ⟨settling, calls⟩ := unrelated
  simp only [push, writes, List.filterMap_append, settling, calls, List.nil_append]

theorem writes_push_entries (n : Net H K) (es : List (StackEntry H K)) : (n.push es).writes =
    { n.writes with
      settling := es.filterMap StackEntry.afterWrite? ++ n.writes.settling
      calls := es.filterMap StackEntry.call? ++ n.writes.calls } := by
  simp only [push, writes, List.filterMap_append]

theorem writes_pop {n : Net H K} {e : StackEntry H K} {rest : List (StackEntry H K)}
    (front : n.stack = e :: rest) (settling : e.afterWrite? = none) (call : e.call? = none) :
    { n with stack := rest }.writes = n.writes := by
  simp [writes, front, settling, call]

theorem invocation_settling (item : WriteItem H) (ec : ErrorCode) :
    (item.invocation (K := K) ec).filterMap StackEntry.afterWrite? = [] := by
  unfold WriteItem.invocation
  split <;> rfl

theorem invocation_calls (item : WriteItem H) (ec : ErrorCode) :
    (item.invocation (K := K) ec).filterMap StackEntry.call? = item.answer ec := by
  unfold WriteItem.invocation WriteItem.answer
  split <;> simp [*, StackEntry.call?]

theorem invocations_settling (items : List (WriteItem H)) (ec : ErrorCode) :
    (items.flatMap fun item => item.invocation (K := K) ec).filterMap StackEntry.afterWrite? = [] := by
  induction items with
  | nil => rfl
  | cons item items ih => rw [List.flatMap_cons, List.filterMap_append, invocation_settling, ih]; rfl

theorem invocations_calls (items : List (WriteItem H)) (ec : ErrorCode) :
    (items.flatMap fun item => item.invocation (K := K) ec).filterMap StackEntry.call? =
      items.flatMap fun item => item.answer ec := by
  induction items with
  | nil => rfl
  | cons item items ih =>
    rw [List.flatMap_cons, List.filterMap_append, invocation_calls, ih, List.flatMap_cons]

/-! ### Closing the socket -/

@[simp] theorem isRead_connect (h : H) (rest : Nat) : (SocketOp.connect h rest).isRead = false := rfl

@[simp] theorem isRead_write (serial : Nat) (unsent : Bytes) :
    (SocketOp.write (H := H) serial unsent).isRead = false := rfl

@[simp] theorem isRead_read (phase : ReadPhase) (count : Nat) (h : H) :
    (SocketOp.read phase count h).isRead = true := rfl

theorem abort_foreign (number : Nat) (ops : List (SocketOp H)) :
    (ops.map (SocketOp.abort (K := K) number)).filterMap Task.enqueued? = [] ∧
    (ops.map (SocketOp.abort (K := K) number)).filterMap Task.rejected? = [] ∧
    (ops.map (SocketOp.abort (K := K) number)).filterMap Task.failing? = [] := by
  induction ops with
  | nil => exact ⟨rfl, rfl, rfl⟩
  | cons op ops ih =>
    cases op <;> simpa only [List.map_cons, List.filterMap_cons, SocketOp.abort, Task.enqueued?,
      Task.rejected?, Task.failing?] using ih

theorem abort_reads (number : Nat) (ops : List (SocketOp H)) :
    ((ops.filter (·.isRead)).map (SocketOp.abort (K := K) number)).filterMap Task.written? = [] := by
  induction ops with
  | nil => rfl
  | cons op ops ih =>
    cases op <;> simpa [List.filter_cons, List.filterMap_cons, SocketOp.abort, Task.written?,
      -List.filterMap_eq_nil_iff, -List.filterMap_map] using ih

theorem abort_writes (number : Nat) (ops : List (SocketOp H)) :
    ((ops.filter (!·.isRead)).map (SocketOp.abort (K := K) number)).filterMap Task.written? =
      (ops.filterMap SocketOp.write?).map fun o => (o.1, some .operationAborted) := by
  induction ops with
  | nil => rfl
  | cons op ops ih =>
    cases op <;> simpa [List.filterMap_cons, SocketOp.abort, Task.written?, SocketOp.write?,
      -List.filterMap_map] using ih

theorem writes_closeSocket (n : Net H K) : n.closeSocket.writes = n.writes.abort := by
  simp only [closeSocket, writes, WriteQueue.abort, List.filterMap_append, List.map_append, abort_foreign,
    abort_reads, abort_writes, List.filterMap_nil, List.nil_append, List.append_nil, Socket.wire]

theorem writes_connectEndpoint (n : Net H K) (h : H) (rest : Nat) :
    (n.connectEndpoint h rest).writes = n.writes.abort.replace := by
  rw [← writes_closeSocket]
  have none : n.closeSocket.ops = [] := rfl
  simp [connectEndpoint, writes, WriteQueue.replace, Socket.wire, SocketOp.write?, none]

/-! ### The functions of the connection -/

theorem doWrite_kick (n : Net H K) : WriteQueue.Kick n.writes n.doWrite.writes := by
  unfold doWrite
  split
  · rename_i busy
    exact .rest (.inl busy)
  · rename_i free
    rw [Bool.not_eq_true] at free
    split
    · rename_i empty
      exact .rest (.inr empty)
    · rename_i item rest front
      split
      · have deferred : (n.post (.failPendingWrites .badDescriptor)).writes =
            { n.writes with failing := n.writes.failing ++ [.badDescriptor] } := by
          simp [post, writes, Task.enqueued?, Task.rejected?, Task.written?, Task.failing?]
        exact deferred ▸ .defer .badDescriptor free
      · rename_i usable
        have opened : n.socket.isOpen = true := by
          simp only [Bool.or_eq_true, Bool.not_eq_true', not_or, Bool.not_eq_false] at usable
          exact usable.1.1
        have started : (n.startWrite item rest).writes = n.writes.start item rest := by
          simp [startWrite, writes, WriteQueue.start, SocketOp.write?, Socket.wire, WriteItem.frame]
        exact started ▸ .start item rest free opened front

theorem writes_failPendingWrites (n : Net H K) (ec : AsioError) :
    (n.failPendingWrites ec).writes = n.writes.fail ec := by
  simp only [failPendingWrites, push, writes, WriteQueue.fail, List.filterMap_append,
    invocations_settling, invocations_calls, List.nil_append]

theorem enqueueWrite_step {n : Net H K} {item : WriteItem H} {rest : List (Task H K)}
    (front : n.ready = .enqueueWrite item :: rest) (settled : n.stack = []) :
    WriteQueue.Step n.writes ({ n with ready := rest }.enqueueWrite item).writes := by
  have posted : n.writes.posted = item :: rest.filterMap Task.enqueued? := by
    simp [writes, front, Task.enqueued?]
  unfold enqueueWrite
  split
  · rename_i shut
    have rejected : ({ n with ready := rest }.post (.rejectWrite item)).writes =
        { n.writes with posted := rest.filterMap Task.enqueued?, rejected := n.writes.rejected ++ [item] } := by
      simp [post, writes, front, List.filterMap_cons, Task.enqueued?, Task.rejected?, Task.written?, Task.failing?]
    exact rejected ▸ .reject item _ posted shut
  · rename_i opened
    rw [Bool.not_eq_true] at opened
    have accepted : ({ n with ready := rest, writeQueue := n.writeQueue ++ [item] } : Net H K).writes =
        n.writes.accept item (rest.filterMap Task.enqueued?) := by
      simp [writes, front, WriteQueue.accept, List.filterMap_cons, Task.enqueued?, Task.rejected?, Task.written?,
        Task.failing?]
    refine .accept item _ posted opened (by simp [writes, settled]) ?_
    rw [← accepted]
    dsimp only
    split
    · exact doWrite_kick _
    · rename_i busy
      exact .rest (.inl (by simpa [writes] using busy))

theorem onWritten_step {n : Net H K} {serial : Nat} {ec : ErrorCode} {rest : List (Task H K)}
    (front : n.ready = .written serial ec :: rest) (settled : n.stack = [])
    (own : ∀ item, n.inFlight = some item → item.serial = serial) :
    WriteQueue.Step n.writes ({ n with ready := rest }.onWritten ec).writes := by
  have completing : n.writes.completing = (serial, ec) :: rest.filterMap Task.written? := by
    simp [writes, front, Task.written?]
  have dropped : ({ n with ready := rest } : Net H K).writes =
      { n.writes with completing := rest.filterMap Task.written? } := by
    simp [writes, front, List.filterMap_cons, Task.enqueued?, Task.rejected?, Task.written?, Task.failing?]
  unfold onWritten
  split
  · rename_i landed
    exact dropped ▸ .stale _ _ completing landed
  · rename_i item flying
    obtain rfl := own item flying
    have finished : (({ n with ready := rest, inFlight := none, writing := false } : Net H K).push
        (item.invocation ec ++ [.afterWrite ec])).writes =
        { n.writes.finish item ec with
          completing := rest.filterMap Task.written?, settling := [ec] } := by
      simp [push, writes, WriteQueue.finish, front, settled, List.filterMap_cons, invocation_settling,
        invocation_calls, StackEntry.afterWrite?, StackEntry.call?, Task.enqueued?, Task.rejected?,
        Task.written?, Task.failing?]
    exact finished ▸ .finish item ec _ completing flying (by simp [writes, settled])

theorem afterWrite_step {n : Net H K} {ec : ErrorCode} {rest : List (StackEntry H K)}
    (front : n.stack = .afterWrite ec :: rest) :
    WriteQueue.Step n.writes ({ n with stack := rest }.afterWrite ec).writes := by
  have settling : n.writes.settling = ec :: rest.filterMap StackEntry.afterWrite? := by
    simp [writes, front, StackEntry.afterWrite?]
  have popped : ({ n with stack := rest } : Net H K).writes =
      { n.writes with settling := rest.filterMap StackEntry.afterWrite? } := by
    simp [writes, front, List.filterMap_cons, StackEntry.call?]
  cases ec with
  | none =>
    refine .settle _ settling ?_
    rw [← popped]
    unfold afterWrite
    dsimp only
    split
    · exact doWrite_kick _
    · rename_i nothing
      refine .rest ?_
      simpa [writes, or_iff_not_imp_left] using nothing
  | some ec =>
    have closed : ({ ({ n with stack := rest } : Net H K).closeSocket with state := .disconnected } : Net H K).writes =
        { n.writes.abort with settling := rest.filterMap StackEntry.afterWrite? } :=
      (writes_closeSocket ({ n with stack := rest } : Net H K)).trans (by rw [popped]; rfl)
    unfold afterWrite
    dsimp only
    rw [writes_failPendingWrites, closed]
    exact .collapse ec _ settling

theorem close_step (n : Net H K) : n.close.writes = n.writes ∨ WriteQueue.Step n.writes n.close.writes := by
  unfold close
  split
  · exact .inl rfl
  · rename_i opened
    rw [Bool.not_eq_true] at opened
    refine .inr ?_
    dsimp only
    let shut : Net H K := { ({ n with closed := true } : Net H K).closeSocket with
      state := .disconnected, inFlight := none, writing := false }
    have drained : shut.writes =
        { n.writes.abort with closed := true, inFlight := none, writing := false } := by
      have closed := writes_closeSocket ({ n with closed := true } : Net H K)
      change { ({ n with closed := true } : Net H K).closeSocket.writes with
        inFlight := none, writing := false } = _
      rw [closed]
      rfl
    rw [writes_failPendingWrites, writes_push_entries, List.filterMap_append, List.filterMap_append,
      invocations_settling, invocations_calls]
    change WriteQueue.Step _ (({ shut.writes with
      settling := shut.writes.settling
      calls := (n.inFlight.toList.flatMap fun item : WriteItem H => item.answer (some .operationAborted)) ++ [] ++
        shut.writes.calls } : WriteQueue H).fail .operationAborted)
    rw [drained, List.append_nil]
    exact .close opened

/-! ### Every step -/

/-- From `n` to `m` the write queue rests or takes one step. -/
def Tracks (n m : Net H K) : Prop := m.writes = n.writes ∨ WriteQueue.Step n.writes m.writes

theorem startRead_writes (n : Net H K) (phase : ReadPhase) (count : Nat) (h : H) :
    (n.startRead phase count h).writes = n.writes := by
  unfold startRead
  split
  · simp [writes, SocketOp.write?]
  · exact writes_post n ⟨rfl, rfl, rfl, rfl⟩

theorem asyncReadPacket_writes (n : Net H K) (h : H) : (n.asyncReadPacket h).writes = n.writes := by
  unfold asyncReadPacket
  split
  · rw [startRead_writes]
    rfl
  · rfl

theorem onRead_writes (n : Net H K) (phase : ReadPhase) (h : H) (result : Except AsioError Bytes) :
    (n.onRead phase h result).writes = n.writes := by
  unfold onRead
  split
  · rw [startRead_writes]
    rfl
  · exact writes_post _ ⟨rfl, rfl, rfl, rfl⟩

theorem onConnected_writes (n : Net H K) (h : H) (ec : ErrorCode) :
    (n.onConnected h ec).writes = n.writes := writes_push _ ⟨rfl, rfl⟩

theorem onEndpoint_tracks (n : Net H K) (h : H) (rest : Nat) (ec : ErrorCode) :
    Tracks n (n.onEndpoint h rest ec) := by
  unfold onEndpoint
  split
  · exact .inl (onConnected_writes n h _)
  · split
    · exact .inl (onConnected_writes n h _)
    · exact .inl (onConnected_writes n h _)
    · exact .inr (writes_connectEndpoint n h _ ▸ .replace)

theorem run_tracks {n m : Net H K} (taken : n.run = some m) (orderly : n.Orderly .run) : Tracks n m := by
  unfold run at taken
  split at taken
  · rename_i task rest settled front
    have ripe : n.Ripe task := orderly task (by simp [front])
    obtain rfl := Option.some.inj taken
    -- A task that is none of the queue's leaves the queue alone until it runs.
    have quiet : Foreign task → ∀ k, Tracks { n with ready := rest } k → Tracks n k :=
      fun foreign k tracks => by
        unfold Tracks at tracks ⊢
        rwa [writes_drop foreign front] at tracks
    cases task with
    | enqueueWrite item => exact .inr (enqueueWrite_step front settled)
    | failPendingWrites ec =>
      have failing : n.writes.failing = ec :: rest.filterMap Task.failing? := by
        simp [writes, front, Task.failing?]
      have dropped : ({ n with ready := rest } : Net H K).writes =
          { n.writes with failing := rest.filterMap Task.failing? } := by
        simp [writes, front, List.filterMap_cons, Task.enqueued?, Task.rejected?, Task.written?]
      refine .inr ?_
      simp only [runTask, writes_failPendingWrites, dropped]
      exact .fail ec _ failing ripe
    | rejectWrite item =>
      have rejected : n.writes.rejected = item :: rest.filterMap Task.rejected? := by
        simp [writes, front, List.filterMap_cons, Task.rejected?]
      have dropped : ({ n with ready := rest } : Net H K).writes =
          { n.writes with rejected := rest.filterMap Task.rejected? } := by
        simp [writes, front, List.filterMap_cons, Task.enqueued?, Task.failing?, Task.written?]
      refine .inr ?_
      simp only [runTask, writes_push_entries, dropped, invocation_settling, invocation_calls,
        List.nil_append]
      exact .refuse item _ rejected
    | written serial ec => exact .inr (onWritten_step front settled ripe)
    | resolved h result =>
      refine quiet ⟨rfl, rfl, rfl, rfl⟩ _ ?_
      cases result with
      | error ec => exact .inl (writes_push _ ⟨rfl, rfl⟩)
      | ok more => exact .inr (writes_connectEndpoint _ h more ▸ .replace)
    | connected h more socket ec => exact quiet ⟨rfl, rfl, rfl, rfl⟩ _ (onEndpoint_tracks _ h more ec)
    | read phase h result => exact quiet ⟨rfl, rfl, rfl, rfl⟩ _ (.inl (onRead_writes _ phase h result))
    | readHandler h ec packet => exact quiet ⟨rfl, rfl, rfl, rfl⟩ _ (.inl (writes_push _ ⟨rfl, rfl⟩))
    | own k => exact quiet ⟨rfl, rfl, rfl, rfl⟩ _ (.inl (writes_push _ ⟨rfl, rfl⟩))
  · contradiction

theorem resume_tracks {n m : Net H K} (taken : n.resume = some m) : Tracks n m := by
  unfold resume at taken
  split at taken
  · rename_i call rest front
    obtain rfl := Option.some.inj taken
    cases call with
    | write serial h ec =>
      have calls : n.writes.calls = (serial, ec) :: rest.filterMap StackEntry.call? := by
        simp [writes, front, List.filterMap_cons, StackEntry.call?]
      have handled : ({ n with stack := rest }.recordCall (.write serial h ec)).writes =
          { n.writes with
            calls := rest.filterMap StackEntry.call?, handled := n.writes.handled ++ [(serial, ec)] } := by
        simp [recordCall, writes, front, List.filterMap_cons, StackEntry.afterWrite?]
      exact .inr (handled ▸ .call _ _ calls)
    | _ => exact .inl (writes_pop front rfl rfl)
  · rename_i ec rest front
    obtain rfl := Option.some.inj taken
    exact .inr (afterWrite_step front)
  · rename_i rest front
    obtain rfl := Option.some.inj taken
    refine .inl ((writes_push _ ?_).trans (writes_pop front rfl rfl))
    cases n.closeHandler <;> exact ⟨rfl, rfl⟩
  · contradiction

theorem erase_other {ops : List (SocketOp H)} {index : Nat} {op : SocketOp H}
    (found : ops[index]? = some op) (other : op.write? = none) :
    (ops.eraseIdx index).filterMap SocketOp.write? = ops.filterMap SocketOp.write? := by
  obtain ⟨xs, ys, whole, erased, _⟩ := Lists.split_at found
  rw [erased, whole]
  simp [other]

theorem split_writes {ops : List (SocketOp H)} {index serial : Nat} {unsent : Bytes}
    (found : ops[index]? = some (.write serial unsent)) :
    ∃ xs ys, ops.filterMap SocketOp.write? = xs ++ (serial, unsent) :: ys ∧
      (ops.eraseIdx index).filterMap SocketOp.write? = xs ++ ys ∧
      ∀ left, (ops.set index (.write serial left)).filterMap SocketOp.write? =
        xs ++ (serial, left) :: ys := by
  obtain ⟨xs, ys, whole, erased, replaced⟩ := Lists.split_at found
  refine ⟨xs.filterMap SocketOp.write?, ys.filterMap SocketOp.write?, ?_, ?_, fun left => ?_⟩
  · simp [whole, SocketOp.write?]
  · simp [erased]
  · simp [replaced, SocketOp.write?]

theorem kernel_tracks {n m : Net H K} {event : Event} (taken : n.kernel event = some m) : Tracks n m := by
  cases event with
  | resolve index result =>
    obtain ⟨h, _, rfl⟩ := Option.map_eq_some_iff.mp taken
    exact .inl (writes_post _ ⟨rfl, rfl, rfl, rfl⟩)
  | connect index ec =>
    simp only [kernel] at taken
    split at taken
    · rename_i h rest found
      obtain rfl := Option.some.inj taken
      refine .inl ((writes_post _ ⟨rfl, rfl, rfl, rfl⟩).trans ?_)
      simp only [writes, erase_other found rfl, Socket.wire]
    · contradiction
  | send index count =>
    simp only [kernel] at taken
    split at taken
    · rename_i serial unsent found
      split at taken
      · obtain ⟨xs, ys, flying, _, replaced⟩ := split_writes found
        obtain rfl := Option.some.inj taken
        have sent := WriteQueue.Step.send (w := n.writes) serial unsent count xs ys flying
        simp only [← replaced] at sent
        exact .inr sent
      · contradiction
    · contradiction
  | write index ec =>
    simp only [kernel] at taken
    split at taken
    · rename_i serial unsent found
      split at taken
      · rename_i done
        obtain ⟨xs, ys, flying, erased, _⟩ := split_writes found
        obtain rfl := Option.some.inj taken
        have whole : ec = none → unsent = [] := by
          rintro rfl
          simpa using done
        refine .inr ?_
        have completed := WriteQueue.Step.complete (w := n.writes) serial unsent ec xs ys flying whole
        simpa [post, writes, erased, List.filterMap_cons, Task.enqueued?, Task.rejected?, Task.written?,
          Task.failing?] using completed
      · contradiction
    · contradiction
  | read index result =>
    simp only [kernel] at taken
    split at taken
    · rename_i phase count h bytes found
      split at taken
      · obtain rfl := Option.some.inj taken
        refine .inl ((writes_post _ ⟨rfl, rfl, rfl, rfl⟩).trans ?_)
        simp only [writes, erase_other found rfl]
      · contradiction
    · rename_i phase count h ec found
      obtain rfl := Option.some.inj taken
      refine .inl ((writes_post _ ⟨rfl, rfl, rfl, rfl⟩).trans ?_)
      simp only [writes, erase_other found rfl]
    · contradiction

/-! ### What was submitted -/

theorem doWrite_submitted (n : Net H K) : n.doWrite.submitted = n.submitted := by
  unfold doWrite
  split
  · rfl
  · split
    · rfl
    · split <;> rfl

theorem afterWrite_submitted (n : Net H K) (ec : ErrorCode) : (n.afterWrite ec).submitted = n.submitted := by
  unfold afterWrite
  split
  · rfl
  · split
    · exact doWrite_submitted n
    · rfl

theorem close_submitted (n : Net H K) : n.close.submitted = n.submitted := by
  unfold close
  split <;> rfl

theorem startRead_submitted (n : Net H K) (phase : ReadPhase) (count : Nat) (h : H) :
    (n.startRead phase count h).submitted = n.submitted := by
  unfold startRead
  split <;> rfl

theorem asyncReadPacket_submitted (n : Net H K) (h : H) : (n.asyncReadPacket h).submitted = n.submitted := by
  unfold asyncReadPacket
  split
  · exact startRead_submitted _ _ _ h
  · rfl

theorem onRead_submitted (n : Net H K) (phase : ReadPhase) (h : H) (result : Except AsioError Bytes) :
    (n.onRead phase h result).submitted = n.submitted := by
  unfold onRead
  split
  · exact startRead_submitted _ _ _ h
  · rfl

theorem runTask_submitted (n : Net H K) (task : Task H K) : (n.runTask task).submitted = n.submitted := by
  cases task with
  | enqueueWrite item =>
    show (n.enqueueWrite item).submitted = n.submitted
    unfold enqueueWrite
    split
    · rfl
    · dsimp only
      split
      · exact doWrite_submitted _
      · rfl
  | resolved h result => cases result <;> rfl
  | connected h rest number ec =>
    show (n.onEndpoint h rest ec).submitted = n.submitted
    unfold onEndpoint
    split
    · rfl
    · split <;> rfl
  | written serial ec =>
    show (n.onWritten ec).submitted = n.submitted
    unfold onWritten
    split <;> rfl
  | read phase h result => exact onRead_submitted n phase h result
  | _ => rfl

theorem kernel_submitted {n m : Net H K} {event : Event} (taken : n.kernel event = some m) :
    m.submitted = n.submitted := by
  cases event with
  | resolve index result =>
    obtain ⟨h, -, rfl⟩ := Option.map_eq_some_iff.mp taken
    rfl
  | connect index ec =>
    simp only [kernel] at taken
    split at taken
    · exact Option.some.inj taken ▸ rfl
    · contradiction
  | send index count =>
    simp only [kernel] at taken
    split at taken
    · split at taken
      · exact Option.some.inj taken ▸ rfl
      · contradiction
    · contradiction
  | write index ec =>
    simp only [kernel] at taken
    split at taken
    · split at taken
      · exact Option.some.inj taken ▸ rfl
      · contradiction
    · contradiction
  | read index result =>
    simp only [kernel] at taken
    split at taken
    · split at taken
      · exact Option.some.inj taken ▸ rfl
      · contradiction
    · exact Option.some.inj taken ▸ rfl
    · contradiction

/-! ### Every step -/

/-- Every step of a connection leaves its write queue alone or takes one step of it. -/
theorem step_tracks {n m : Net H K} {a : Action H K} (taken : n.step a = some m) (orderly : n.Orderly a) :
    Tracks n m := by
  cases a with
  | run => exact run_tracks taken orderly
  | resume => exact resume_tracks taken
  | kernel event => exact kernel_tracks taken
  | asyncConnect h => exact Option.some.inj taken ▸ .inr .reopen
  | asyncReadPacket h => exact Option.some.inj taken ▸ .inl (asyncReadPacket_writes n h)
  | asyncWritePacket data h =>
    obtain rfl := Option.some.inj taken
    have submitted : (n.asyncWritePacket data h).writes = { n.writes with
        nextSerial := n.nextSerial + 1
        submitted := n.writes.submitted ++ [{ serial := n.nextSerial, buffer := data, handler := h }]
        posted := n.writes.posted ++ [{ serial := n.nextSerial, buffer := data, handler := h }] } := by
      simp [asyncWritePacket, post, writes, Task.enqueued?, Task.rejected?, Task.written?, Task.failing?]
    exact .inr (submitted ▸ .submit _ rfl)
  | markConnected => exact Option.some.inj taken ▸ .inl rfl
  | close => exact Option.some.inj taken ▸ close_step n
  | setCloseHandler h => exact Option.some.inj taken ▸ .inl rfl
  | post k => exact Option.some.inj taken ▸ .inl (writes_post n ⟨rfl, rfl, rfl, rfl⟩)
  | push ks =>
    refine Option.some.inj taken ▸ .inl (writes_push n ?_)
    simp [Unrelated, StackEntry.afterWrite?, StackEntry.call?]
  | pop =>
    simp only [step] at taken
    split at taken
    · rename_i k rest front
      exact Option.some.inj taken ▸ .inl (writes_pop front rfl rfl)
    · contradiction

end Net

end LiteMqtt
