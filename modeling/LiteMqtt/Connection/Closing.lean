import LiteMqtt.Connection.Attempts
import LiteMqtt.General.Runs

/-!
# A closed connection

`close` closes the socket, which aborts the operations on it. A resolve is no operation on the
socket and goes on. A run leaves a closed connection closed exactly if no resolve succeeds on it,
no read that is underway goes on to its next part, and its owner does not call it connected.
-/

namespace LiteMqtt

variable {H K : Type}

def Task.isRead : Task H K → Bool
  | .read .. => true
  | _ => false

namespace Net

variable {n m k : Net H K}

/-! ### What keeps `closed_` -/

/-- `closed_` is kept, and the state does not become connected. -/
structure Steady (n m : Net H K) : Prop where
  closed : m.closed = n.closed
  connected : m.state = .connected → n.state = .connected

theorem Steady.of_same (closed : m.closed = n.closed) (state : m.state = n.state) : Steady n m :=
  ⟨closed, fun h => state.symm.trans h⟩

theorem Steady.refl (n : Net H K) : Steady n n := .of_same rfl rfl

theorem Steady.trans (h : Steady n m) (g : Steady m k) : Steady n k :=
  ⟨g.closed.trans h.closed, fun connected => h.connected (g.connected connected)⟩

theorem Steady.after (h : Steady m k) (closed : m.closed = n.closed) (state : m.state = n.state) :
    Steady n k :=
  (Steady.of_same closed state).trans h

theorem steady_startRead (n : Net H K) (phase : ReadPhase) (count : Nat) (h : H) :
    Steady n (n.startRead phase count h) := by
  unfold startRead
  split <;> exact .of_same rfl rfl

theorem steady_asyncReadPacket (n : Net H K) (h : H) : Steady n (n.asyncReadPacket h) := by
  unfold asyncReadPacket
  split
  · exact (steady_startRead _ _ _ _).after rfl rfl
  · exact .of_same rfl rfl

theorem steady_onRead (n : Net H K) (phase : ReadPhase) (h : H) (result : Except AsioError Bytes) :
    Steady n (n.onRead phase h result) := by
  unfold onRead
  split
  · exact (steady_startRead _ _ _ _).after rfl rfl
  · exact .of_same rfl rfl

theorem steady_doWrite (n : Net H K) : Steady n n.doWrite := by
  unfold doWrite
  split
  · exact .refl n
  split
  · exact .refl n
  split <;> exact .of_same rfl rfl

theorem steady_enqueueWrite (n : Net H K) (item : WriteItem H) : Steady n (n.enqueueWrite item) := by
  unfold enqueueWrite
  split
  · exact .of_same rfl rfl
  · dsimp only
    split
    · exact (steady_doWrite _).after rfl rfl
    · exact .of_same rfl rfl

theorem steady_onConnected (n : Net H K) (h : H) (ec : ErrorCode) : Steady n (n.onConnected h ec) := by
  refine ⟨rfl, fun connected => ?_⟩
  simp only [onConnected, push] at connected
  split at connected <;> contradiction

theorem steady_onEndpoint (n : Net H K) (h : H) (rest : Nat) (ec : ErrorCode) :
    Steady n (n.onEndpoint h rest ec) := by
  unfold onEndpoint
  split
  · exact steady_onConnected n h _
  · split
    · exact steady_onConnected n h _
    · exact steady_onConnected n h _
    · exact .of_same rfl rfl

theorem steady_afterWrite (n : Net H K) (ec : ErrorCode) : Steady n (n.afterWrite ec) := by
  cases ec with
  | some ec => exact ⟨rfl, nofun⟩
  | none =>
    unfold afterWrite
    dsimp only
    split
    · exact steady_doWrite n
    · exact .refl n

theorem steady_runTask (n : Net H K) (task : Task H K) : Steady n (n.runTask task) := by
  cases task with
  | enqueueWrite item => exact steady_enqueueWrite n item
  | resolved h result => cases result <;> exact .of_same rfl rfl
  | connected h rest socket ec => exact steady_onEndpoint n h rest ec
  | written serial ec =>
    change Steady n (n.onWritten ec)
    unfold onWritten
    split <;> exact .of_same rfl rfl
  | read phase h result => exact steady_onRead n phase h result
  | _ => exact .of_same rfl rfl

theorem steady_kernel {event : Event} (taken : n.kernel event = some m) : Steady n m := by
  cases event with
  | resolve index result =>
    obtain ⟨h, -, rfl⟩ := Option.map_eq_some_iff.mp taken
    exact .of_same rfl rfl
  | read index result =>
    simp only [kernel] at taken
    split at taken
    · split at taken
      · exact Option.some.inj taken ▸ .of_same rfl rfl
      · contradiction
    · exact Option.some.inj taken ▸ .of_same rfl rfl
    · contradiction
  | _ =>
    simp only [kernel] at taken
    split at taken
    · first
        | exact Option.some.inj taken ▸ .of_same rfl rfl
        | split at taken
          · exact Option.some.inj taken ▸ .of_same rfl rfl
          · contradiction
    · contradiction

theorem steady_resume (taken : n.resume = some m) : Steady n m := by
  unfold resume at taken
  split at taken
  · rename_i call rest _
    obtain rfl := Option.some.inj taken
    cases call <;> exact .of_same rfl rfl
  · exact Option.some.inj taken ▸ (steady_afterWrite _ _).after rfl rfl
  · exact Option.some.inj taken ▸ .of_same rfl rfl
  · contradiction

theorem steady_run (taken : n.run = some m) : Steady n m := by
  obtain ⟨-, task, tail, -, rfl⟩ := run_cases taken
  exact (steady_runTask _ task).after rfl rfl

/-- Only three calls of the owner change `closed_` or make the state connected. -/
theorem steady_step {a : Action H K} (taken : n.step a = some m) :
    (∃ h, a = .asyncConnect h) ∨ a = .markConnected ∨ a = .close ∨ Steady n m := by
  cases a with
  | asyncConnect h => exact .inl ⟨h, rfl⟩
  | markConnected => exact .inr (.inl rfl)
  | close => exact .inr (.inr (.inl rfl))
  | run => exact .inr (.inr (.inr (steady_run taken)))
  | resume => exact .inr (.inr (.inr (steady_resume taken)))
  | kernel event => exact .inr (.inr (.inr (steady_kernel taken)))
  | asyncReadPacket h => exact .inr (.inr (.inr (Option.some.inj taken ▸ steady_asyncReadPacket n h)))
  | pop =>
    simp only [step] at taken
    split at taken
    · exact .inr (.inr (.inr (Option.some.inj taken ▸ .of_same rfl rfl)))
    · contradiction
  | _ => exact .inr (.inr (.inr (Option.some.inj taken ▸ .of_same rfl rfl)))

theorem close_state (n : Net H K) (fresh : n.closed = false) : n.close.state = .disconnected := by
  simp [close, fresh, push, failPendingWrites]

/-! ### What a closed connection may still do -/

/-- The tasks that a step adds to the queue. The io thread first takes the one it runs. -/
def added (n m : Net H K) : Action H K → List (Task H K)
  | .run => m.ready.drop (n.ready.length - 1)
  | _ => m.ready.drop n.ready.length

/-- A closed connection is disconnected, its socket is closed, and no operation is outstanding on
it. A read started on a closed socket fails at once, so it shows as its completion. -/
structure Shut (n m : Net H K) (a : Action H K) : Prop where
  state : m.state = .disconnected
  socket : m.socket.isOpen = false
  ops : m.ops = []
  reads : a = .run ∨ a = .resume → ∀ task ∈ n.added m a, task.isRead = false

/-- The step leaves a closed connection closed, and its completions start nothing. -/
def Final (n : Net H K) (a : Action H K) : Prop :=
  ∀ m, n.step a = some m → m.closed = true → Shut n m a

/-- The task does not reopen a closed socket or read on. -/
def endsWith (n : Net H K) : Task H K → Prop
  | .resolved _ (.ok _) => False
  | .read phase _ result => ∀ later count, (n.reading.onRead phase result).2 ≠ .read later count
  | _ => True

/-- On a closed connection no resolve succeeds, no read reads on, and the owner does not call it
connected. -/
def Settled (n : Net H K) (a : Action H K) : Prop :=
  n.closed = true →
    match a with
    | .run => ∀ task ∈ n.ready.head?, n.endsWith task
    | .markConnected => False
    | _ => True

/-- Closed, with nothing left to write, so that nothing is started on the closed socket. -/
structure Idle (n : Net H K) : Prop where
  closed : n.closed = true
  state : n.state = .disconnected
  socket : n.socket.isOpen = false
  ops : n.ops = []
  queue : n.writeQueue = []

def Resting (n : Net H K) : Prop := n.closed = true → n.Idle

theorem idle_close (n : Net H K) (resting : n.Resting) : n.close.Idle := by
  unfold close
  split
  · exact resting ‹_›
  · exact ⟨rfl, rfl, rfl, rfl, rfl⟩

theorem idle_asyncReadPacket (idle : n.Idle) (h : H) : (n.asyncReadPacket h).Idle := by
  unfold asyncReadPacket
  split
  · unfold startRead
    rw [if_neg (by simp [idle.socket])]
    exact ⟨idle.closed, idle.state, idle.socket, idle.ops, idle.queue⟩
  · exact ⟨idle.closed, idle.state, idle.socket, idle.ops, idle.queue⟩

theorem idle_afterWrite (idle : n.Idle) (ec : ErrorCode) :
    (n.afterWrite ec).Idle ∧ (n.afterWrite ec).ready = n.ready := by
  cases ec with
  | some ec =>
    refine ⟨⟨idle.closed, rfl, rfl, rfl, rfl⟩, ?_⟩
    simp [afterWrite, failPendingWrites, closeSocket, push, idle.ops]
  | none =>
    unfold afterWrite
    simp only [idle.queue, List.isEmpty_nil, Bool.not_true, Bool.and_false, Bool.false_eq_true, if_false]
    exact ⟨idle, trivial⟩

theorem idle_runTask (idle : n.Idle) (task : Task H K) (ends : n.endsWith task) :
    (n.runTask task).Idle ∧ ∃ news, (n.runTask task).ready = n.ready ++ news ∧ ∀ task ∈ news, task.isRead = false := by
  obtain ⟨closed, state, socket, ops, queue⟩ := idle
  have calls : ∀ {m : Net H K}, m.closed = n.closed → m.state = n.state → m.socket = n.socket →
      m.ops = n.ops → m.writeQueue = [] → m.ready = n.ready →
      m.Idle ∧ ∃ news, m.ready = n.ready ++ news ∧ ∀ task ∈ news, task.isRead = false :=
    fun c s k o q r => ⟨⟨c.trans closed, s.trans state, k ▸ socket, o.trans ops, q⟩, [], by simp [r], nofun⟩
  cases task with
  | enqueueWrite item =>
    simp only [runTask, enqueueWrite, closed, if_true]
    exact ⟨⟨closed, state, socket, ops, queue⟩, [.rejectWrite item], rfl, by simp [Task.isRead]⟩
  | resolved h result =>
    cases result with
    | error ec => exact calls rfl rfl rfl rfl queue rfl
    | ok rest => exact ends.elim
  | connected h rest number ec =>
    simp only [runTask, onEndpoint, socket, Bool.not_false, if_true]
    exact calls rfl state.symm rfl rfl queue rfl
  | written serial ec =>
    simp only [runTask, onWritten]
    split
    · exact calls rfl rfl rfl rfl queue rfl
    · exact calls rfl rfl rfl rfl queue rfl
  | read phase h result =>
    simp only [runTask, onRead]
    split
    · rename_i later count outcome
      exact absurd (congrArg Prod.snd outcome) (ends later count)
    · exact ⟨⟨closed, state, socket, ops, queue⟩, [.readHandler h _ _], rfl, by simp [Task.isRead]⟩
  | failPendingWrites ec => exact calls rfl rfl rfl rfl rfl rfl
  | _ => exact calls rfl rfl rfl rfl queue rfl

theorem idle_resume (idle : n.Idle) (taken : n.resume = some m) : m.Idle ∧ m.ready = n.ready := by
  have same : ∀ {k : Net H K}, k.closed = n.closed → k.state = n.state → k.socket = n.socket →
      k.ops = n.ops → k.writeQueue = n.writeQueue → k.ready = n.ready → k.Idle ∧ k.ready = n.ready :=
    fun c s k o q r => ⟨⟨c.trans idle.closed, s.trans idle.state, k ▸ idle.socket, o.trans idle.ops,
      q.trans idle.queue⟩, r⟩
  unfold resume at taken
  split at taken
  · rename_i call rest _
    obtain rfl := Option.some.inj taken
    cases call <;> exact same rfl rfl rfl rfl rfl rfl
  · rename_i ec rest _
    obtain rfl := Option.some.inj taken
    exact idle_afterWrite (n := { n with stack := rest })
      ⟨idle.closed, idle.state, idle.socket, idle.ops, idle.queue⟩ ec
  · exact Option.some.inj taken ▸ same rfl rfl rfl rfl rfl rfl
  · contradiction

theorem idle_kernel {event : Event} (idle : n.Idle) (taken : n.kernel event = some m) : m.Idle := by
  cases event with
  | resolve index result =>
    obtain ⟨h, -, rfl⟩ := Option.map_eq_some_iff.mp taken
    exact ⟨idle.closed, idle.state, idle.socket, idle.ops, idle.queue⟩
  | _ => simp [kernel, idle.ops] at taken

theorem idle_step {a : Action H K} (idle : n.Idle) (settled : n.Settled a) (taken : n.step a = some m)
    (shut : m.closed = true) : m.Idle ∧ (a = .run ∨ a = .resume → ∀ task ∈ n.added m a, task.isRead = false) := by
  have kept : n.closed = m.closed → n.state = m.state → n.socket = m.socket → n.ops = m.ops →
      n.writeQueue = m.writeQueue → m.Idle := fun c s k o q =>
    ⟨c ▸ idle.closed, s ▸ idle.state, k ▸ idle.socket, o ▸ idle.ops, q ▸ idle.queue⟩
  cases a with
  | run =>
    obtain ⟨-, task, tail, ready, rfl⟩ := run_cases taken
    have ends : n.endsWith task := settled idle.closed task (by simp [ready])
    obtain ⟨after, news, appended, fresh⟩ := idle_runTask (n := n.leaving tail)
      ⟨idle.closed, idle.state, idle.socket, idle.ops, idle.queue⟩ task ends
    refine ⟨after, fun _ => ?_⟩
    have same : n.added ((n.leaving tail).runTask task) .run = news := by
      rw [added, appended, ready]
      exact List.drop_left
    exact same ▸ fresh
  | resume =>
    obtain ⟨after, same⟩ := idle_resume idle taken
    refine ⟨after, fun _ => ?_⟩
    simp [added, same]
  | kernel event => exact ⟨idle_kernel idle taken, by simp⟩
  | asyncConnect h =>
    obtain rfl := Option.some.inj taken
    exact absurd shut nofun
  | asyncReadPacket h =>
    obtain rfl := Option.some.inj taken
    exact ⟨idle_asyncReadPacket idle h, by simp⟩
  | markConnected => exact (settled idle.closed).elim
  | close =>
    obtain rfl := Option.some.inj taken
    exact ⟨idle_close n fun _ => idle, by simp⟩
  | pop =>
    simp only [step] at taken
    split at taken
    · obtain rfl := Option.some.inj taken
      exact ⟨kept rfl rfl rfl rfl rfl, by simp⟩
    · contradiction
  | _ =>
    obtain rfl := Option.some.inj taken
    exact ⟨kept rfl rfl rfl rfl rfl, by simp⟩

/-- A connection is closed only by `close`. -/
theorem closed_step {a : Action H K} (taken : n.step a = some m) (shut : m.closed = true) :
    a = .close ∨ n.closed = true := by
  rcases steady_step taken with ⟨h, rfl⟩ | rfl | closes | steady
  · obtain rfl := Option.some.inj taken
    exact absurd shut nofun
  · obtain rfl := Option.some.inj taken
    exact .inr shut
  · exact .inl closes
  · exact .inr (steady.closed.symm.trans shut)

theorem resting_step {a : Action H K} (resting : n.Resting) (settled : n.Settled a) (taken : n.step a = some m) :
    m.Resting := by
  intro shut
  rcases closed_step taken shut with rfl | closed
  · obtain rfl := Option.some.inj taken
    exact idle_close n resting
  · exact (idle_step (resting closed) settled taken shut).1

theorem final_of_settled {a : Action H K} (resting : n.Resting) (settled : n.Settled a) : n.Final a := by
  intro m taken shut
  rcases closed_step taken shut with rfl | closed
  · obtain rfl := Option.some.inj taken
    have idle := idle_close n resting
    exact ⟨idle.state, idle.socket, idle.ops, by simp⟩
  · obtain ⟨idle, fresh⟩ := idle_step (resting closed) settled taken shut
    exact ⟨idle.state, idle.socket, idle.ops, fresh⟩

theorem settled_of_final {a : Action H K} (resting : n.Resting) (taken : n.step a = some m) (final : n.Final a) :
    n.Settled a := by
  intro closed
  have idle := resting closed
  cases a with
  | run =>
    obtain ⟨-, task, tail, ready, rfl⟩ := run_cases taken
    have shut := final _ taken ((steady_run taken).closed.trans closed)
    intro first same
    obtain rfl : task = first := by simpa [ready] using same
    cases task with
    | resolved h result =>
      cases result with
      | error ec => trivial
      | ok rest => exact absurd shut.socket nofun
    | read phase h result =>
      intro later count reads
      -- The next part of the packet is read from a closed socket, which fails at once.
      have fails : (n.leaving tail).socket.isOpen = false := idle.socket
      have posted : ((n.leaving tail).runTask (.read phase h result)).ready =
          tail ++ [.read later h (.error .badDescriptor)] := by
        change ((n.leaving tail).onRead phase h result).ready = _
        unfold onRead
        split
        · rename_i reading again more outcome
          obtain ⟨rfl, rfl⟩ := ReadOutcome.read.inj ((congrArg Prod.snd outcome).symm.trans reads)
          unfold startRead
          rw [if_neg (by simp [fails])]
          rfl
        · rename_i reading ec packet outcome
          exact nomatch (congrArg Prod.snd outcome).symm.trans reads
      refine absurd (shut.reads (.inl rfl) (.read later h (.error .badDescriptor)) ?_) nofun
      rw [added, posted, ready]
      simp
    | _ => trivial
  | markConnected =>
    have shut := final _ taken (Option.some.inj taken ▸ closed)
    obtain rfl := Option.some.inj taken
    exact absurd shut.state nofun
  | _ => trivial

/-- In every run of a connection: what follows a `close`, until the next `async_connect`, leaves
it closed and starts nothing exactly if no resolve succeeds on it, no read reads on, and its owner
does not call it connected. -/
theorem close_is_final (actions : List (Action H K)) :
    Runs.Along step Final ({} : Net H K) actions ↔ Runs.Along step Settled {} actions :=
  Runs.along_iff_along_kept (I := Resting) (fun _ _ _ => resting_step)
    (fun _ _ _ resting taken => ⟨settled_of_final resting taken, final_of_settled resting⟩) nofun

/-- The owner connects and closes while the name is being resolved. -/
def closedWhileResolving : List (Action Unit Unit) :=
  [.asyncConnect (), .close, .resume, .kernel (.resolve 0 (.ok 0))]

/-- The resolve that succeeds then opens the socket of the closed connection. -/
theorem resolve_reopens : ¬ ∀ actions : List (Action Unit Unit), Runs.Along step Final {} actions := by
  intro claimed
  have run : (Runs.exec step ({} : Net Unit Unit) closedWhileResolving).map (fun n =>
      n.closed && (n.step .run).any fun m => m.closed && m.socket.isOpen) = some true := by
    decide +kernel
  obtain ⟨n, done, late⟩ := Runs.exec_of_check run
  simp only [Bool.and_eq_true] at late
  obtain ⟨m, taken, reopened⟩ := (Option.any_eq_true _ _).mp late.2
  have final := Runs.along_last (claimed (closedWhileResolving ++ [.run])) done taken
  simp only [Bool.and_eq_true] at reopened
  exact absurd ((final m taken reopened.1).socket.symm.trans reopened.2) nofun

end Net
end LiteMqtt
