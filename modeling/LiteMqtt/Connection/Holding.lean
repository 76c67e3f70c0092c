import LiteMqtt.Connection.Attempts

/-!
# What a connection holds for its owner

A write handler is in a posted item, in the queue, in flight, or in the call that is about to be made.
Weighed together with the tasks and the calls of the owner, it is what the connection has taken in and not
given out yet. Only an item in flight is lost, when another write takes its place.
-/

namespace LiteMqtt

variable {H K : Type}

/-- What each handler and each piece of the owner's work counts for. -/
structure Scale (H K : Type) where
  handler : H → Nat
  work : K → Nat

namespace Scale

variable (w : Scale H K)

def item (i : WriteItem H) : Nat := i.handler.elim 0 w.handler

def task : Task H K → Nat
  | .enqueueWrite i | .rejectWrite i => w.item i
  | .own k => w.work k
  | _ => 0

def entry : StackEntry H K → Nat
  | .invoke (.write _ h _) => w.handler h
  | .own k => w.work k
  | _ => 0

def items (l : List (WriteItem H)) : Nat := (l.map w.item).sum

def tasks (l : List (Task H K)) : Nat := (l.map w.task).sum

def entries (l : List (StackEntry H K)) : Nat := (l.map w.entry).sum

@[simp] theorem items_nil : w.items [] = 0 := rfl

@[simp] theorem items_cons (i : WriteItem H) (l : List (WriteItem H)) : w.items (i :: l) = w.item i + w.items l := by
  simp [items]

@[simp] theorem items_append (xs ys : List (WriteItem H)) : w.items (xs ++ ys) = w.items xs + w.items ys := by
  simp [items]

@[simp] theorem tasks_nil : w.tasks [] = 0 := rfl

@[simp] theorem tasks_cons (task : Task H K) (l : List (Task H K)) : w.tasks (task :: l) = w.task task + w.tasks l := by
  simp [tasks]

@[simp] theorem tasks_append (xs ys : List (Task H K)) : w.tasks (xs ++ ys) = w.tasks xs + w.tasks ys := by
  simp [tasks]

@[simp] theorem entries_nil : w.entries [] = 0 := rfl

@[simp] theorem entries_cons (e : StackEntry H K) (l : List (StackEntry H K)) :
    w.entries (e :: l) = w.entry e + w.entries l := by
  simp [entries]

@[simp] theorem entries_append (xs ys : List (StackEntry H K)) :
    w.entries (xs ++ ys) = w.entries xs + w.entries ys := by
  simp [entries]

theorem entries_invocation (i : WriteItem H) (ec : ErrorCode) : w.entries (i.invocation ec) = w.item i := by
  unfold WriteItem.invocation item
  split
  · rename_i none
    rw [none]
    rfl
  · rename_i h some
    rw [some]
    rfl

theorem entries_invocations (l : List (WriteItem H)) (ec : ErrorCode) :
    w.entries (l.flatMap fun i => i.invocation ec) = w.items l := by
  induction l with
  | nil => rfl
  | cons i l ih => rw [List.flatMap_cons, entries_append, entries_invocation, ih, items_cons]

theorem tasks_aborted (ops : List (SocketOp H)) (socket : Nat) : w.tasks (ops.map (SocketOp.abort socket)) = 0 := by
  induction ops with
  | nil => rfl
  | cons op ops ih =>
    rw [List.map_cons, tasks_cons, ih]
    cases op <;> rfl

end Scale

namespace Net

variable {n m : Net H K} (w : Scale H K)

def holds (n : Net H K) : Nat :=
  w.tasks n.ready + w.entries n.stack + w.items n.writeQueue + w.items n.inFlight.toList

/-- What counts for something is somewhere. -/
theorem holds_pos (counts : 0 < n.holds w) : (∃ task ∈ n.ready, 0 < w.task task) ∨ (∃ e ∈ n.stack, 0 < w.entry e) ∨
    (∃ i ∈ n.writeQueue, 0 < w.item i) ∨ ∃ i, n.inFlight = some i ∧ 0 < w.item i := by
  unfold holds at counts
  by_cases ready : 0 < w.tasks n.ready
  · exact .inl (Lists.exists_pos_of_sum ready)
  by_cases stack : 0 < w.entries n.stack
  · exact .inr (.inl (Lists.exists_pos_of_sum stack))
  by_cases queue : 0 < w.items n.writeQueue
  · exact .inr (.inr (.inl (Lists.exists_pos_of_sum queue)))
  · obtain ⟨i, flies, positive⟩ :=
      Lists.exists_pos_of_sum (f := w.item) (l := n.inFlight.toList) (by unfold Scale.items at *; omega)
    exact .inr (.inr (.inr ⟨i, Option.mem_toList.mp flies, positive⟩))

theorem task_le_holds {task : Task H K} (among : task ∈ n.ready) : w.task task ≤ n.holds w := by
  obtain ⟨xs, ys, ready⟩ := List.append_of_mem among
  rw [holds, ready, Scale.tasks_append, Scale.tasks_cons]
  omega

theorem entry_le_holds {e : StackEntry H K} (among : e ∈ n.stack) : w.entry e ≤ n.holds w := by
  obtain ⟨xs, ys, stack⟩ := List.append_of_mem among
  rw [holds, stack, Scale.entries_append, Scale.entries_cons]
  omega

/-- `do_write` may start a write. -/
def able (n : Net H K) : Bool := n.socket.isOpen && n.state != .disconnected && n.state != .connecting

/-- The item in flight whose place the write takes that the next step starts. -/
def displaced (n : Net H K) : Action H K → Option (WriteItem H)
  | .run =>
      match n.ready with
      | .enqueueWrite _ :: _ => if n.closed || n.writing || !n.able then none else n.inFlight
      | _ => none
  | .resume =>
      match n.stack with
      | .afterWrite none :: _ => if n.writing || n.writeQueue.isEmpty || !n.able then none else n.inFlight
      | _ => none
  | _ => none

theorem holds_post (n : Net H K) (task : Task H K) : (n.post task).holds w = n.holds w + w.task task := by
  simp only [holds, post, Scale.tasks_append, Scale.tasks_cons, Scale.tasks_nil]
  omega

theorem holds_push (n : Net H K) (es : List (StackEntry H K)) : (n.push es).holds w = n.holds w + w.entries es := by
  simp only [holds, push, Scale.entries_append]
  omega

theorem holds_closeSocket (n : Net H K) : n.closeSocket.holds w = n.holds w := by
  simp only [holds, closeSocket, Scale.tasks_append, Scale.tasks_aborted, Nat.add_zero]

theorem holds_connectEndpoint (n : Net H K) (h : H) (rest : Nat) : (n.connectEndpoint h rest).holds w = n.holds w :=
  holds_closeSocket w n

theorem holds_startRead (n : Net H K) (phase : ReadPhase) (count : Nat) (h : H) :
    (n.startRead phase count h).holds w = n.holds w := by
  unfold startRead
  split
  · rfl
  · exact holds_post w n _

theorem holds_asyncReadPacket (n : Net H K) (h : H) : (n.asyncReadPacket h).holds w = n.holds w := by
  unfold asyncReadPacket
  split
  · exact holds_startRead w _ _ _ _
  · rfl

theorem holds_onRead (n : Net H K) (phase : ReadPhase) (h : H) (result : Except AsioError Bytes) :
    (n.onRead phase h result).holds w = n.holds w := by
  unfold onRead
  split
  · exact holds_startRead w _ _ _ _
  · exact holds_post w _ _

theorem holds_onConnected (n : Net H K) (h : H) (ec : ErrorCode) : (n.onConnected h ec).holds w = n.holds w :=
  holds_push w _ _

theorem holds_onEndpoint (n : Net H K) (h : H) (rest : Nat) (ec : ErrorCode) :
    (n.onEndpoint h rest ec).holds w = n.holds w := by
  unfold onEndpoint
  split
  · exact holds_onConnected w n h _
  · split
    · exact holds_onConnected w n h _
    · exact holds_onConnected w n h _
    · exact holds_connectEndpoint w n h _

theorem holds_onResolved (n : Net H K) (h : H) (result : Except AsioError Nat) :
    (n.onResolved h result).holds w = n.holds w := by
  cases result with
  | error ec => exact holds_push w n _
  | ok rest => exact holds_connectEndpoint w n h rest

theorem holds_failPendingWrites (n : Net H K) (ec : AsioError) : (n.failPendingWrites ec).holds w = n.holds w := by
  unfold failPendingWrites
  rw [holds_push, Scale.entries_invocations]
  simp only [holds, Scale.items_nil]
  omega

theorem holds_startWrite (n : Net H K) (i : WriteItem H) (rest : List (WriteItem H))
    (front : n.writeQueue = i :: rest) :
    (n.startWrite i rest).holds w + w.items n.inFlight.toList = n.holds w := by
  simp only [holds, startWrite, front, Option.toList_some, Scale.items_cons, Scale.items_nil]
  omega

theorem holds_doWrite (n : Net H K) : (n.doWrite).holds w +
    w.items (if n.writing || n.writeQueue.isEmpty || !n.able then none else n.inFlight).toList = n.holds w := by
  unfold doWrite
  split
  · rename_i busy
    rw [busy]
    rfl
  rename_i free
  split
  · rename_i empty
    simp [empty]
  rename_i i rest front
  split
  · rename_i off
    have unable : n.able = false := by
      simp only [Bool.or_eq_true, Bool.not_eq_true', beq_iff_eq] at off
      unfold able
      rcases off with (shut | down) | early
      · rw [shut]; rfl
      · rw [down]; simp
      · rw [early]; simp
    rw [holds_post, unable]
    simp [Scale.task]
  · rename_i on
    have able : n.able = true := by
      simp only [Bool.or_eq_true, Bool.not_eq_true', beq_iff_eq, not_or, Bool.not_eq_false] at on
      simp [Net.able, on]
    rw [able, front]
    simpa [free] using holds_startWrite w n i rest front

theorem holds_enqueueWrite (n : Net H K) (i : WriteItem H) : (n.enqueueWrite i).holds w +
    w.items (if n.closed || n.writing || !n.able then none else n.inFlight).toList = n.holds w + w.item i := by
  unfold enqueueWrite
  split
  · rename_i shut
    rw [holds_post, shut]
    rfl
  rename_i opened
  have queued : ({ n with writeQueue := n.writeQueue ++ [i] } : Net H K).holds w = n.holds w + w.item i := by
    simp only [holds, Scale.items_append, Scale.items_cons, Scale.items_nil]
    omega
  dsimp only
  split
  · have goes := holds_doWrite w ({ n with writeQueue := n.writeQueue ++ [i] } : Net H K)
    rw [queued] at goes
    simpa [opened, able] using goes
  · rename_i busy
    rw [queued]
    simp only [Bool.not_eq_true', Bool.not_eq_false] at busy
    simp [busy]

theorem holds_onWritten (n : Net H K) (ec : ErrorCode) : (n.onWritten ec).holds w = n.holds w := by
  unfold onWritten
  split
  · rfl
  · rename_i i flying
    rw [holds_push, Scale.entries_append, Scale.entries_invocation]
    simp only [holds, flying, Option.toList_some, Option.toList_none, Scale.items_cons, Scale.items_nil,
      Scale.entries_cons, Scale.entries_nil, Scale.entry]
    omega

theorem holds_afterWrite (n : Net H K) (ec : ErrorCode) : (n.afterWrite ec).holds w +
    w.items (if ec.isSome || n.writing || n.writeQueue.isEmpty || !n.able then none else n.inFlight).toList =
      n.holds w := by
  unfold afterWrite
  cases ec with
  | some ec =>
    dsimp only
    rw [holds_failPendingWrites]
    exact holds_closeSocket w n
  | none =>
    dsimp only
    split
    · exact holds_doWrite w n
    · rename_i idle
      by_cases busy : n.writing = true
      · simp [busy]
      · have empty : n.writeQueue = [] := by simpa [busy] using idle
        simp [empty]

theorem holds_close (n : Net H K) : n.close.holds w = n.holds w := by
  unfold close
  split
  · rfl
  dsimp only
  rw [holds_failPendingWrites, holds_push, Scale.entries_append, Scale.entries_invocations]
  have shut := holds_closeSocket w n
  unfold holds at shut ⊢
  simp only [closeSocket, Option.toList_none, Scale.items_nil, Scale.entries_cons, Scale.entries_nil,
    Scale.entry] at shut ⊢
  omega

theorem holds_asyncWritePacket (n : Net H K) (data : Bytes) (h : H) :
    (n.asyncWritePacket data (some h)).holds w = n.holds w + w.handler h :=
  holds_post w _ _

/-- The task is taken from the queue, and what it held is held elsewhere. -/
theorem holds_run (taken : n.run = some m) : m.holds w + w.items (n.displaced .run).toList = n.holds w := by
  obtain ⟨idle, task, tail, ready, rfl⟩ := run_cases taken
  have before : n.holds w = (n.leaving tail).holds w + w.task task := by
    simp only [holds, leaving, ready, Scale.tasks_cons]
    omega
  rw [before, displaced, ready]
  cases task with
  | enqueueWrite i => exact holds_enqueueWrite w _ i
  | failPendingWrites ec => exact holds_failPendingWrites w _ ec
  | rejectWrite i => exact (holds_push w _ _).trans (congrArg _ (Scale.entries_invocation w i _))
  | resolved h result => exact holds_onResolved w _ h result
  | connected h rest socket ec => exact holds_onEndpoint w _ h rest ec
  | written serial ec => exact holds_onWritten w _ ec
  | read phase h result => exact holds_onRead w _ phase h result
  | readHandler h ec packet => exact holds_push w _ _
  | own k => exact (holds_push w _ _).trans (congrArg _ (Nat.add_zero _))

theorem holds_kernel {event : Event} (taken : n.kernel event = some m) : m.holds w = n.holds w := by
  unfold kernel at taken
  split at taken
  · obtain ⟨h, -, rfl⟩ := Option.map_eq_some_iff.mp taken
    exact holds_post w _ _
  · split at taken
    · obtain rfl := Option.some.inj taken
      exact holds_post w _ _
    · contradiction
  · split at taken
    · split at taken
      · obtain rfl := Option.some.inj taken
        rfl
      · contradiction
    · contradiction
  · split at taken
    · split at taken
      · obtain rfl := Option.some.inj taken
        exact holds_post w _ _
      · contradiction
    · contradiction
  · split at taken
    · split at taken
      · obtain rfl := Option.some.inj taken
        exact holds_post w _ _
      · contradiction
    · obtain rfl := Option.some.inj taken
      exact holds_post w _ _
    · contradiction

end Net
end LiteMqtt
