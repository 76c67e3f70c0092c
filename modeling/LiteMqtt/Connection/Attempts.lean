import LiteMqtt.Connection.Model
import LiteMqtt.General.Lists

/-!
# Connect attempts in progress

Every `async_connect` of the owner is answered at most once, because its resolve, its TCP
connect and its failure follow each other. The connection's own code never calls for a new
attempt, does not open a closed connection, and leaves the owner's pending calls alone.
-/

namespace LiteMqtt

variable {H K : Type}

def SocketOp.connecting? : SocketOp H → Option H
  | .connect h _ => some h
  | _ => none

def Task.connecting? : Task H K → Option H
  | .resolved h _ | .connected h .. => some h
  | _ => none

def Task.own? : Task H K → Option K
  | .own k => some k
  | _ => none

def StackEntry.failing? : StackEntry H K → Option H
  | .invoke (.connect h (some _)) => some h
  | _ => none

def StackEntry.own? : StackEntry H K → Option K
  | .own k => some k
  | _ => none

namespace Net

/-- The owner's calls that are still to be made. -/
def running (n : Net H K) : List K := n.stack.filterMap StackEntry.own?

/-- The owner's tasks that wait for the io thread. -/
def posted (n : Net H K) : List K := n.ready.filterMap Task.own?

/-- How many connect attempts of this handler may still fail or get through. -/
def outstanding [DecidableEq H] (n : Net H K) (h : H) : Nat :=
  n.resolves.count h + (n.ops.filterMap SocketOp.connecting?).count h +
    (n.ready.filterMap Task.connecting?).count h + (n.stack.filterMap StackEntry.failing?).count h

variable {n m k : Net H K}

theorem invocation_tame (item : WriteItem H) (ec : ErrorCode) :
    ∀ e ∈ item.invocation (K := K) ec, e.own? = none ∧ e.failing? = none := by
  unfold WriteItem.invocation
  split
  · nofun
  · intro e among
    obtain rfl := List.mem_singleton.mp among
    exact ⟨rfl, rfl⟩

theorem connecting_aborted (ops : List (SocketOp H)) (socket : Nat) :
    ((ops.filter (·.isRead) ++ ops.filter (!·.isRead)).map (SocketOp.abort (K := K) socket)).filterMap
      Task.connecting? = ops.filterMap SocketOp.connecting? := by
  have reads : (fun op : SocketOp H => if op.isRead = true then
      (Task.connecting? ∘ SocketOp.abort (K := K) socket) op else none) = fun _ => none := by
    funext op
    cases op <;> rfl
  have others : (fun op : SocketOp H => if (!op.isRead) = true then
      (Task.connecting? ∘ SocketOp.abort (K := K) socket) op else none) = SocketOp.connecting? := by
    funext op
    cases op <;> rfl
  simp only [List.map_append, List.filterMap_append, List.filterMap_map, List.filterMap_filter, reads, others]
  simp

theorem close_closed (n : Net H K) : n.close.closed = true := by
  unfold close
  split
  · assumption
  · rfl

/-- The first task is taken, and these are left. -/
def leaving (n : Net H K) (tail : List (Task H K)) : Net H K := { n with ready := tail }

theorem run_cases (taken : n.run = some m) : n.stack = [] ∧ ∃ task tail, n.ready = task :: tail ∧
    m = (n.leaving tail).runTask task := by
  unfold run at taken
  split at taken
  · rename_i task tail idle ready
    exact ⟨idle, task, tail, ready, (Option.some.inj taken).symm⟩
  · contradiction

/-! ### The owner's tasks -/

theorem own_aborted (ops : List (SocketOp H)) (socket : Nat) :
    (ops.map (SocketOp.abort (K := K) socket)).filterMap Task.own? = [] := by
  induction ops with
  | nil => rfl
  | cons op ops ih => cases op <;> simpa [SocketOp.abort, Task.own?] using ih

theorem post_posted (n : Net H K) (task : Task H K) : (n.post task).posted = n.posted ++ task.own?.toList := by
  cases task <;> simp [posted, post, Task.own?]

theorem closeSocket_posted (n : Net H K) : n.closeSocket.posted = n.posted := by
  simp only [posted, closeSocket, List.filterMap_append, own_aborted, List.append_nil]

theorem startRead_posted (n : Net H K) (phase : ReadPhase) (count : Nat) (h : H) :
    (n.startRead phase count h).posted = n.posted := by
  unfold startRead
  split
  · rfl
  · simp [post_posted, Task.own?]

theorem asyncReadPacket_posted (n : Net H K) (h : H) : (n.asyncReadPacket h).posted = n.posted := by
  unfold asyncReadPacket
  split
  · exact startRead_posted _ _ _ _
  · rfl

theorem onRead_posted (n : Net H K) (phase : ReadPhase) (h : H) (result : Except AsioError Bytes) :
    (n.onRead phase h result).posted = n.posted := by
  unfold onRead
  split
  · exact startRead_posted _ _ _ _
  · simp [post, posted, Task.own?]

theorem asyncWritePacket_posted (n : Net H K) (data : Bytes) (h : Option H) :
    (n.asyncWritePacket data h).posted = n.posted := by
  simp [asyncWritePacket, post, posted, Task.own?]

theorem doWrite_posted (n : Net H K) : n.doWrite.posted = n.posted := by
  unfold doWrite
  split
  · rfl
  split
  · rfl
  split
  · simp [post_posted, Task.own?]
  · rfl

theorem enqueueWrite_posted (n : Net H K) (item : WriteItem H) : (n.enqueueWrite item).posted = n.posted := by
  unfold enqueueWrite
  split
  · simp [post_posted, Task.own?]
  · dsimp only
    split
    · exact doWrite_posted _
    · rfl

theorem onWritten_posted (n : Net H K) (ec : ErrorCode) : (n.onWritten ec).posted = n.posted := by
  unfold onWritten
  split <;> rfl

theorem afterWrite_posted (n : Net H K) (ec : ErrorCode) : (n.afterWrite ec).posted = n.posted := by
  unfold afterWrite
  split
  · exact closeSocket_posted n
  · split
    · exact doWrite_posted n
    · rfl

theorem close_posted (n : Net H K) : n.close.posted = n.posted := by
  unfold close
  split
  · rfl
  · exact closeSocket_posted _

theorem runTask_posted (n : Net H K) (task : Task H K) : (n.runTask task).posted = n.posted := by
  cases task with
  | enqueueWrite item => exact enqueueWrite_posted n item
  | written serial ec => exact onWritten_posted n ec
  | resolved h result =>
    cases result with
    | error ec => rfl
    | ok rest => exact closeSocket_posted n
  | connected h rest socket ec =>
    unfold runTask onEndpoint
    dsimp only
    split
    · rfl
    · split
      · rfl
      · rfl
      · exact closeSocket_posted n
  | read phase h result => exact onRead_posted n phase h result
  | _ => rfl

theorem kernel_posted {event : Event} (taken : n.kernel event = some m) : m.posted = n.posted := by
  cases event with
  | resolve index result =>
    obtain ⟨h, _, rfl⟩ := Option.map_eq_some_iff.mp taken
    simp [post, posted, Task.own?]
  | _ =>
    simp only [kernel] at taken
    split at taken <;> try contradiction
    all_goals
      try split at taken
      all_goals
        first
        | contradiction
        | obtain rfl := Option.some.inj taken
          simp [post, posted, Task.own?]

theorem kernel_stack {event : Event} (taken : n.kernel event = some m) : m.stack = n.stack := by
  cases event with
  | resolve index result =>
    obtain ⟨h, _, rfl⟩ := Option.map_eq_some_iff.mp taken
    rfl
  | _ =>
    simp only [kernel] at taken
    split at taken <;> try contradiction
    all_goals
      try split at taken
      all_goals
        first
        | contradiction
        | obtain rfl := Option.some.inj taken
          rfl

variable [DecidableEq H]

/-- The owner's calls and attempts are left alone, and the state does not turn to handshaking. -/
structure Tame (n m : Net H K) : Prop where
  closed : n.closed = true → m.closed = true
  running : m.running = n.running
  handshaking : m.state = .handshaking → n.state = .handshaking
  outstanding : ∀ h, m.outstanding h = n.outstanding h

theorem Tame.refl (n : Net H K) : Tame n n := ⟨id, rfl, id, fun _ => rfl⟩

theorem Tame.trans (h : Tame n m) (g : Tame m k) : Tame n k :=
  ⟨g.closed ∘ h.closed, g.running.trans h.running, h.handshaking ∘ g.handshaking,
    fun x => (g.outstanding x).trans (h.outstanding x)⟩

/-- Nothing of what matters here is touched. -/
theorem Tame.of_same (closed : m.closed = n.closed) (state : m.state = n.state)
    (resolves : m.resolves = n.resolves)
    (ops : m.ops.filterMap SocketOp.connecting? = n.ops.filterMap SocketOp.connecting?)
    (ready : m.ready.filterMap Task.connecting? = n.ready.filterMap Task.connecting?)
    (stack : m.stack = n.stack) : Tame n m :=
  ⟨fun h => closed ▸ h, by rw [Net.running, stack, Net.running], fun h => state ▸ h,
    fun h => by rw [Net.outstanding, resolves, ops, ready, stack, Net.outstanding]⟩

theorem tame_post (n : Net H K) {task : Task H K} (other : task.connecting? = none) : Tame n (n.post task) :=
  .of_same rfl rfl rfl rfl (by simp [post, other]) rfl

theorem tame_push (n : Net H K) {entries : List (StackEntry H K)}
    (others : ∀ e ∈ entries, e.own? = none ∧ e.failing? = none) : Tame n (n.push entries) := by
  have own : entries.filterMap StackEntry.own? = [] :=
    List.filterMap_eq_nil_iff.mpr fun e among => (others e among).1
  have failing : entries.filterMap StackEntry.failing? = [] :=
    List.filterMap_eq_nil_iff.mpr fun e among => (others e among).2
  exact ⟨id, by simp [running, push, own], id, fun h => by simp [Net.outstanding, push, failing]⟩

theorem tame_closeSocket (n : Net H K) : Tame n n.closeSocket := by
  refine ⟨id, rfl, id, fun h => ?_⟩
  simp only [Net.outstanding, closeSocket, List.filterMap_append, connecting_aborted, List.count_append,
    List.filterMap_nil, List.count_nil]
  omega

/-- The attempt goes on with the next endpoint. -/
theorem connectEndpoint_outstanding (n : Net H K) (h : H) (rest : Nat) :
    (n.connectEndpoint h rest).closed = n.closed ∧ (n.connectEndpoint h rest).running = n.running ∧
      (n.connectEndpoint h rest).state = n.state ∧
      ∀ x, (n.connectEndpoint h rest).outstanding x = n.outstanding x + [h].count x := by
  refine ⟨rfl, rfl, rfl, fun x => ?_⟩
  simp only [Net.outstanding, connectEndpoint, closeSocket, List.filterMap_append, connecting_aborted,
    List.count_append, List.filterMap_cons, List.filterMap_nil, SocketOp.connecting?]
  omega

theorem tame_startRead (n : Net H K) (phase : ReadPhase) (count : Nat) (h : H) :
    Tame n (n.startRead phase count h) := by
  unfold startRead
  split
  · exact .of_same rfl rfl rfl (by simp [SocketOp.connecting?]) rfl rfl
  · exact tame_post n rfl

theorem tame_asyncReadPacket (n : Net H K) (h : H) : Tame n (n.asyncReadPacket h) := by
  have keeping : ∀ reading, Tame n { n with reading } := fun _ => .of_same rfl rfl rfl rfl rfl rfl
  unfold asyncReadPacket
  split
  · exact (keeping _).trans (tame_startRead _ _ _ _)
  · exact keeping _

theorem tame_onRead (n : Net H K) (phase : ReadPhase) (h : H) (result : Except AsioError Bytes) :
    Tame n (n.onRead phase h result) := by
  have keeping : ∀ reading, Tame n { n with reading } := fun _ => .of_same rfl rfl rfl rfl rfl rfl
  unfold onRead
  split
  · exact (keeping _).trans (tame_startRead _ _ _ _)
  · exact (keeping _).trans (tame_post _ rfl)

theorem tame_asyncWritePacket (n : Net H K) (data : Bytes) (h : Option H) : Tame n (n.asyncWritePacket data h) :=
  .trans (m := { n with
    nextSerial := n.nextSerial + 1
    submitted := n.submitted ++ [{ serial := n.nextSerial, buffer := data, handler := h }] })
    (.of_same rfl rfl rfl rfl rfl rfl) (tame_post _ rfl)

theorem tame_doWrite (n : Net H K) : Tame n n.doWrite := by
  unfold doWrite
  split
  · exact .refl n
  split
  · exact .refl n
  split
  · exact tame_post n rfl
  · exact .of_same rfl rfl rfl (by simp [startWrite, SocketOp.connecting?]) rfl rfl

theorem tame_enqueueWrite (n : Net H K) (item : WriteItem H) : Tame n (n.enqueueWrite item) := by
  have queued : Tame n { n with writeQueue := n.writeQueue ++ [item] } := .of_same rfl rfl rfl rfl rfl rfl
  unfold enqueueWrite
  split
  · exact tame_post n rfl
  · dsimp only
    split
    · exact queued.trans (tame_doWrite _)
    · exact queued

theorem tame_failPendingWrites (n : Net H K) (ec : AsioError) : Tame n (n.failPendingWrites ec) := by
  refine .trans (m := { n with writeQueue := [], writing := false }) (.of_same rfl rfl rfl rfl rfl rfl) ?_
  refine tame_push _ fun e among => ?_
  obtain ⟨item, _, calls⟩ := List.mem_flatMap.mp among
  exact invocation_tame item _ e calls

theorem tame_onWritten (n : Net H K) (ec : ErrorCode) : Tame n (n.onWritten ec) := by
  unfold onWritten
  split
  · exact .refl n
  · refine .trans (m := { n with inFlight := none, writing := false }) (.of_same rfl rfl rfl rfl rfl rfl) ?_
    refine tame_push _ fun e among => ?_
    rcases List.mem_append.mp among with calls | rest
    · exact invocation_tame _ _ e calls
    · obtain rfl := List.mem_singleton.mp rest
      exact ⟨rfl, rfl⟩

/-- Giving up the socket also leaves the handshake. -/
theorem tame_disconnected (n : Net H K) : Tame n { n with state := .disconnected } :=
  ⟨id, rfl, nofun, fun _ => rfl⟩

theorem tame_afterWrite (n : Net H K) (ec : ErrorCode) : Tame n (n.afterWrite ec) := by
  unfold afterWrite
  split
  · exact (tame_closeSocket n).trans ((tame_disconnected _).trans (tame_failPendingWrites _ _))
  · split
    · exact tame_doWrite n
    · exact .refl n

theorem tame_close (n : Net H K) : Tame n n.close := by
  unfold close
  split
  · exact .refl n
  · have marked : Tame n { n with closed := true } := ⟨fun _ => rfl, rfl, id, fun _ => rfl⟩
    refine marked.trans ((tame_closeSocket _).trans ((tame_disconnected _).trans ?_))
    refine .trans ?_ (tame_failPendingWrites _ _)
    refine .trans (m := { ({ n with closed := true } : Net H K).closeSocket with
      state := .disconnected, inFlight := none, writing := false }) (.of_same rfl rfl rfl rfl rfl rfl) ?_
    refine tame_push _ fun e among => ?_
    rcases List.mem_append.mp among with calls | rest
    · obtain ⟨item, _, calls⟩ := List.mem_flatMap.mp calls
      exact invocation_tame item _ e calls
    · obtain rfl := List.mem_singleton.mp rest
      exact ⟨rfl, rfl⟩

/-- An attempt that failed is about to be reported. -/
theorem failed_outstanding (n : Net H K) (h : H) (ec : AsioError) :
    (n.push [.invoke (.connect h (some ec))]).closed = n.closed ∧
      (n.push [.invoke (.connect h (some ec))]).running = n.running ∧
      ∀ x, (n.push [.invoke (.connect h (some ec))]).outstanding x = n.outstanding x + [h].count x := by
  refine ⟨rfl, rfl, fun x => ?_⟩
  simp only [Net.outstanding, push, List.cons_append, List.nil_append, List.filterMap_cons, StackEntry.failing?]
  rw [List.count_cons]
  simp only [List.count_singleton]
  omega

/-- What running a task does to the owner's calls and attempts: an attempt stays one, unless
its TCP connect got through. -/
structure Ran (n : Net H K) (task : Task H K) (m : Net H K) : Prop where
  closed : n.closed = true → m.closed = true
  running : m.running = task.own?.toList ++ n.running
  outstanding : ∀ h, m.outstanding h ≤ n.outstanding h + task.connecting?.toList.count h
  handshaking : m.state = .handshaking → n.state = .handshaking ∨
    (∃ h rest socket, task = .connected h rest socket none) ∧ ∀ h, m.outstanding h ≤ n.outstanding h

theorem ran_of_tame {task : Task H K} (own : task.own? = none) (h : Tame n m) : Ran n task m :=
  ⟨h.closed, by simp [own, h.running], fun x => by rw [h.outstanding x]; omega, fun now => .inl (h.handshaking now)⟩

theorem ran_failed (n : Net H K) (h : H) (ec : AsioError) {task : Task H K} (own : task.own? = none)
    (attempt : task.connecting? = some h) : Ran n task (n.push [.invoke (.connect h (some ec))]) := by
  obtain ⟨closed, running, outstanding⟩ := failed_outstanding n h ec
  refine ⟨fun now => closed ▸ now, by simp [own, running], fun x => ?_, .inl⟩
  rw [outstanding x, attempt]
  exact Nat.le_refl _

theorem ran_endpoint (n : Net H K) (h : H) (rest : Nat) {task : Task H K} (own : task.own? = none)
    (attempt : task.connecting? = some h) : Ran n task (n.connectEndpoint h rest) := by
  obtain ⟨closed, running, state, outstanding⟩ := connectEndpoint_outstanding n h rest
  refine ⟨fun now => closed ▸ now, by simp [own, running], fun x => ?_, fun now => .inl (state ▸ now)⟩
  rw [outstanding x, attempt]
  exact Nat.le_refl _

theorem ran_onConnected (n : Net H K) (h : H) (ec : AsioError) {task : Task H K} (own : task.own? = none)
    (attempt : task.connecting? = some h) : Ran n task (n.onConnected h (some ec)) := by
  obtain ⟨closed, running, outstanding, -⟩ :=
    ran_failed ({ n with state := .disconnected } : Net H K) h ec own attempt
  exact ⟨closed, running, outstanding, nofun⟩

theorem runTask_ran (n : Net H K) (task : Task H K) : Ran n task (n.runTask task) := by
  cases task with
  | enqueueWrite item => exact ran_of_tame rfl (tame_enqueueWrite n item)
  | failPendingWrites ec => exact ran_of_tame rfl (tame_failPendingWrites n ec)
  | rejectWrite item => exact ran_of_tame rfl (tame_push n (invocation_tame item _))
  | resolved h result =>
    cases result with
    | error ec => exact ran_failed n h ec rfl rfl
    | ok rest => exact ran_endpoint n h rest rfl rfl
  | connected h rest socket ec =>
    unfold runTask onEndpoint
    dsimp only
    split
    · exact ran_onConnected n h _ rfl rfl
    · split
      · refine ⟨id, rfl, fun x => ?_, fun _ => .inr ⟨⟨h, rest, socket, rfl⟩, fun x => ?_⟩⟩
        · exact Nat.le_add_right _ _
        · exact Nat.le_refl _
      · exact ran_onConnected n h _ rfl rfl
      · exact ran_endpoint n h _ rfl rfl
  | written serial ec => exact ran_of_tame rfl (tame_onWritten n ec)
  | read phase h result => exact ran_of_tame rfl (tame_onRead n phase h result)
  | readHandler h ec packet =>
    refine ran_of_tame rfl (tame_push n fun e among => ?_)
    obtain rfl := List.mem_singleton.mp among
    exact ⟨rfl, rfl⟩
  | own k => exact ⟨id, rfl, fun _ => Nat.le_add_right _ _, .inl⟩

theorem ready_outstanding {task : Task H K} {tail : List (Task H K)} (ready : n.ready = task :: tail) (h : H) :
    (n.leaving tail).outstanding h + task.connecting?.toList.count h = n.outstanding h := by
  simp only [Net.outstanding, leaving, ready, List.filterMap_cons]
  cases task.connecting? with
  | none => simp
  | some x =>
    simp only [Option.toList_some, List.count_cons, List.count_nil]
    omega

theorem tame_kernel {event : Event} (taken : n.kernel event = some m) : Tame n m := by
  have erased : ∀ {index : Nat} {op : SocketOp H}, n.ops[index]? = some op → ∀ x,
      (n.ops.filterMap SocketOp.connecting?).count x =
        ((n.ops.eraseIdx index).filterMap SocketOp.connecting?).count x + op.connecting?.toList.count x := by
    intro index op found x
    obtain ⟨xs, ys, whole, erased, _⟩ := Lists.split_at found
    rw [erased, whole]
    cases h : op.connecting? <;> simp [h, List.count_append, List.count_cons]
    omega
  cases event with
  | resolve index result =>
    obtain ⟨h, found, rfl⟩ := Option.map_eq_some_iff.mp taken
    refine ⟨id, rfl, id, fun x => ?_⟩
    have fewer : n.resolves.count x = (n.resolves.eraseIdx index).count x + [h].count x := by
      obtain ⟨xs, ys, whole, erased, _⟩ := Lists.split_at found
      rw [erased, whole]
      simp only [List.count_append, List.count_cons, List.count_nil]
      omega
    simp only [Net.outstanding, post, fewer, List.filterMap_append, List.count_append,
      List.filterMap_cons, List.filterMap_nil, Task.connecting?]
    omega
  | connect index ec =>
    simp only [kernel] at taken
    split at taken
    · rename_i h rest found
      obtain rfl := Option.some.inj taken
      refine ⟨id, rfl, id, fun x => ?_⟩
      simp only [Net.outstanding, post, erased found x, List.filterMap_append, List.count_append,
        List.filterMap_cons, List.filterMap_nil, Task.connecting?, SocketOp.connecting?, Option.toList_some]
      omega
    · contradiction
  | send index count =>
    simp only [kernel] at taken
    split at taken
    · rename_i serial unsent found
      split at taken
      · obtain rfl := Option.some.inj taken
        obtain ⟨xs, ys, whole, _, replaced⟩ := Lists.split_at found
        refine .of_same rfl rfl rfl ?_ rfl rfl
        dsimp only
        rw [replaced, whole]
        simp only [List.filterMap_append]
        rfl
      · contradiction
    · contradiction
  | write index ec =>
    simp only [kernel] at taken
    split at taken
    · rename_i serial unsent found
      split at taken
      · obtain rfl := Option.some.inj taken
        refine ⟨id, rfl, id, fun x => ?_⟩
        simp only [Net.outstanding, post, erased found x, SocketOp.connecting?, List.filterMap_append,
          List.filterMap_cons, List.filterMap_nil, Task.connecting?, List.append_nil]
        simp
      · contradiction
    · contradiction
  | read index result =>
    simp only [kernel] at taken
    split at taken
    · rename_i phase count h bytes found
      split at taken
      · obtain rfl := Option.some.inj taken
        refine ⟨id, rfl, id, fun x => ?_⟩
        simp only [Net.outstanding, post, erased found x, SocketOp.connecting?, List.filterMap_append,
          List.filterMap_cons, List.filterMap_nil, Task.connecting?, List.append_nil]
        simp
      · contradiction
    · rename_i phase count h ec found
      obtain rfl := Option.some.inj taken
      refine ⟨id, rfl, id, fun x => ?_⟩
      simp only [Net.outstanding, post, erased found x, SocketOp.connecting?, List.filterMap_append,
        List.filterMap_cons, List.filterMap_nil, Task.connecting?, List.append_nil]
      simp
    · contradiction

theorem asyncConnect_outstanding (n : Net H K) (h x : H) :
    (n.asyncConnect h).outstanding x = n.outstanding x + [h].count x := by
  simp only [Net.outstanding, asyncConnect, List.count_append]
  omega

end Net
end LiteMqtt
