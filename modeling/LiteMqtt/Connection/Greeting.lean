import LiteMqtt.Connection.Outstanding

/-!
# The first frame on a socket

The owner greets on every socket, once its TCP connect is through. As long as nothing waits to be written
at that time, and as long as no connect of an earlier attempt cuts in, the greeting is the first frame on
the socket and the only one of its kind.
-/

namespace LiteMqtt

variable {H K : Type}

/-- The first frame on the socket greets, and no other does. -/
def Socket.Greeted (hello : Bytes → Bool) (s : Socket) : Prop :=
  match s.started with
  | [] => True
  | first :: rest => hello first.2 = true ∧ ∀ frame ∈ rest, hello frame.2 = false

def SocketOp.isDial : SocketOp H → Bool
  | .connect .. => true
  | _ => false

/-- The socket whose TCP connect is completed. -/
def Task.dialed? : Task H K → Option Nat
  | .connected _ _ socket _ => some socket
  | _ => none

/-- A TCP connect that succeeded is handed to the owner. -/
def StackEntry.isArrival : StackEntry H K → Bool
  | .invoke (.connect _ none) => true
  | _ => false

namespace Net

variable {n m : Net H K} {hello : Bytes → Bool}

/-- A frame that is queued can be written. -/
def Able (n : Net H K) : Prop := n.Writable ∧ n.closed = false

/-- The frames that were handed over and have not been queued. -/
def handedOver (n : Net H K) : List (WriteItem H) := n.ready.filterMap Task.enqueued?

/-- Connects of the present socket that are outstanding or have not been handled. -/
def dials (n : Net H K) : Nat :=
  n.ops.countP (·.isDial) + n.ready.countP (·.dialed? == some n.socket.number)

/-- The owner is about to hear of a TCP connect that succeeded. -/
def Arriving (n : Net H K) : Prop := ∃ entry : StackEntry H K, entry.isArrival = true ∧ n.stack = [entry]

/-- No such call is on the stack. -/
def Landed (n : Net H K) : Prop := ∀ entry ∈ n.stack, entry.isArrival = false

def Writes (n : Net H K) : Prop := ∃ op ∈ n.ops, op.write?.isSome = true

/-- The frame at the head greets, and no other does. -/
def Opens (hello : Bytes → Bool) : List (WriteItem H) → Prop
  | [] => False
  | first :: rest => hello first.buffer = true ∧ ∀ item ∈ rest, hello item.buffer = false

structure Polite (hello : Bytes → Bool) (n : Net H K) : Prop where
  past : ∀ s ∈ n.past, s.Greeted hello
  present : n.socket.Greeted hello
  fresh : ∀ task ∈ n.ready, ∀ number ∈ task.dialed?, number ≤ n.socket.number
  once : n.dials ≤ 1
  bare : 0 < n.dials → n.socket.started = []
  apart : 0 < n.dials → ¬ n.Able
  unwritten : n.socket.started = [] → ¬ n.Writes
  /-- What an earlier socket wrote is handled before the connect of this one. -/
  order : n.socket.started = [] →
    n.ready.Pairwise fun first later => first.dialed? = some n.socket.number → later.written? = none
  settled : n.socket.started = [] → n.Able → ∀ task ∈ n.ready, task.written? = none
  arriving : n.Landed ∨ n.Arriving ∧ n.socket.started = []
  quiet : n.socket.started ≠ [] → ∀ item ∈ n.writeQueue ++ n.handedOver, hello item.buffer = false

/-- As long as nothing was written, the greeting comes next. -/
def Expectant (hello : Bytes → Bool) (n : Net H K) : Prop :=
  n.socket.started = [] → n.Able → n.Arriving ∨ n.writeQueue = [] ∧ Opens hello n.handedOver

theorem landed_idle (idle : n.stack = []) : n.Landed := by
  intro entry among
  rw [idle] at among
  contradiction

theorem Landed.not_arriving (landed : n.Landed) : ¬ n.Arriving := by
  rintro ⟨entry, arrival, only⟩
  have refused := landed entry (only ▸ .head _)
  exact absurd (arrival.symm.trans refused) nofun

/-- Tasks are queued, none of them a frame, and the connection is no more able to write than it was. -/
structure Aside (n m : Net H K) (tasks : List (Task H K)) : Prop where
  past : m.past = n.past
  started : m.socket.started = n.socket.started
  number : m.socket.number = n.socket.number
  able : m.Able → n.Able
  writes : m.Writes → n.Writes
  dials : m.dials ≤ n.dials
  queue : m.writeQueue = n.writeQueue ∨ m.writeQueue = []
  ready : m.ready = n.ready ++ tasks
  enqueued : ∀ task ∈ tasks, task.enqueued? = none
  numbered : ∀ task ∈ tasks, ∀ number ∈ task.dialed?, number ≤ n.socket.number
  written : ∀ task ∈ tasks, task.written?.isSome = true → n.Writes
  stack : m.stack = n.stack ∨ n.Landed ∧ m.Landed

variable {tasks : List (Task H K)}

theorem Aside.handedOver (aside : Aside n m tasks) : m.handedOver = n.handedOver := by
  unfold Net.handedOver
  rw [aside.ready, List.filterMap_append, List.filterMap_eq_nil_iff.mpr aside.enqueued, List.append_nil]

theorem Aside.unwritten (aside : Aside n m tasks) (h : Polite hello n) (nothing : n.socket.started = []) :
    ∀ task ∈ tasks, task.written? = none := by
  intro task new
  cases written : task.written? with
  | none => rfl
  | some call => exact absurd (aside.written task new (by rw [written]; rfl)) (h.unwritten nothing)

theorem Aside.polite (aside : Aside n m tasks) (h : Polite hello n) : Polite hello m := by
  refine ⟨aside.past ▸ h.past, ?_, ?_, Nat.le_trans aside.dials h.once, ?_, ?_, ?_, ?_, ?_, ?_, ?_⟩
  · unfold Socket.Greeted
    rw [aside.started]
    exact h.present
  · rw [aside.ready, aside.number]
    intro task among
    exact (List.mem_append.mp among).elim (h.fresh task) (aside.numbered task)
  · rw [aside.started]
    exact fun some => h.bare (Nat.lt_of_lt_of_le some aside.dials)
  · exact fun some usable => h.apart (Nat.lt_of_lt_of_le some aside.dials) (aside.able usable)
  · rw [aside.started]
    exact fun nothing writes => h.unwritten nothing (aside.writes writes)
  · rw [aside.started, aside.ready, aside.number]
    intro nothing
    have none := aside.unwritten h nothing
    refine List.pairwise_append.mpr ⟨h.order nothing, ?_, fun _ _ task new _ => none task new⟩
    exact List.pairwise_of_forall_mem_list fun _ _ task new _ => none task new
  · rw [aside.started, aside.ready]
    intro nothing usable task among
    rcases List.mem_append.mp among with before | new
    · exact h.settled nothing (aside.able usable) task before
    · exact aside.unwritten h nothing task new
  · rcases aside.stack with same | landed
    · unfold Landed Arriving
      rw [same, aside.started]
      exact h.arriving
    · exact .inl landed.2
  · rw [aside.started, aside.handedOver]
    refine fun some item among => h.quiet some item ?_
    rcases aside.queue with same | empty
    · exact same ▸ among
    · rw [empty] at among
      exact List.mem_append_right _ among

theorem Aside.expectant (aside : Aside n m tasks) (h : Expectant hello n) : Expectant hello m := by
  unfold Expectant
  rw [aside.started, aside.handedOver]
  intro nothing usable
  rcases h nothing (aside.able usable) with arriving | ⟨empty, opens⟩
  · rcases aside.stack with same | landed
    · exact .inl (by unfold Arriving; rwa [same])
    · exact (landed.1.not_arriving arriving).elim
  · exact .inr ⟨aside.queue.elim (·.trans empty) id, opens⟩

/-! ### What only stands aside -/

theorem Aside.landed (aside : Aside n m tasks) (landed : n.Landed) : m.Landed := by
  rcases aside.stack with same | both
  · unfold Landed
    rw [same]
    exact landed
  · exact both.2

/-- The socket and the operations are the same. -/
theorem aside_of_tasks (tasks : List (Task H K)) (past : m.past = n.past) (socket : m.socket = n.socket)
    (able : m.Able → n.Able) (ops : m.ops = n.ops) (queue : m.writeQueue = n.writeQueue ∨ m.writeQueue = [])
    (ready : m.ready = n.ready ++ tasks)
    (plain : ∀ task ∈ tasks, task.enqueued? = none ∧ task.dialed? = none ∧ task.written? = none)
    (stack : m.stack = n.stack ∨ n.Landed ∧ m.Landed) : Aside n m tasks := by
  have dials : m.dials = n.dials := by
    have none : tasks.countP (·.dialed? == some n.socket.number) = 0 := by
      refine List.countP_eq_zero.mpr fun task new => ?_
      rw [(plain task new).2.1]
      nofun
    unfold Net.dials
    rw [ops, ready, socket, List.countP_append, none, Nat.add_zero]
  refine ⟨past, by rw [socket], by rw [socket], able, by unfold Writes; rw [ops]; exact id, Nat.le_of_eq dials,
    queue, ready, fun task new => (plain task new).1, fun task new number same => ?_, fun task new is => ?_, stack⟩
  · rw [(plain task new).2.1] at same
    contradiction
  · rw [(plain task new).2.2] at is
    contradiction

theorem aside_post {x : Task H K} (plain : x.enqueued? = none ∧ x.dialed? = none ∧ x.written? = none) :
    Aside n (n.post x) [x] :=
  aside_of_tasks _ rfl rfl id rfl (.inl rfl) rfl (fun _ new => List.mem_singleton.mp new ▸ plain) (.inl rfl)

/-- Nothing is queued. -/
theorem aside_of_fields (past : m.past = n.past) (socket : m.socket = n.socket) (able : m.Able → n.Able)
    (ops : m.ops = n.ops) (queue : m.writeQueue = n.writeQueue ∨ m.writeQueue = []) (ready : m.ready = n.ready)
    (stack : m.stack = n.stack ∨ n.Landed ∧ m.Landed) : Aside n m [] :=
  aside_of_tasks [] past socket able ops queue (ready.trans (List.append_nil _).symm)
    (fun _ new => absurd new List.not_mem_nil) stack

theorem landed_push {entries : List (StackEntry H K)} (landed : n.Landed)
    (others : ∀ entry ∈ entries, entry.isArrival = false) : (n.push entries).Landed :=
  fun entry among => (List.mem_append.mp among).elim (others entry) (landed entry)

theorem aside_push {entries : List (StackEntry H K)} (landed : n.Landed)
    (others : ∀ entry ∈ entries, entry.isArrival = false) : Aside n (n.push entries) [] :=
  aside_of_fields rfl rfl id rfl (.inl rfl) rfl (.inr ⟨landed, landed_push landed others⟩)

theorem Aside.trans {k : Net H K} {more : List (Task H K)} (first : Aside n m tasks) (second : Aside m k more) :
    Aside n k (tasks ++ more) := by
  refine ⟨second.past.trans first.past, second.started.trans first.started, second.number.trans first.number,
    first.able ∘ second.able, first.writes ∘ second.writes, Nat.le_trans second.dials first.dials, ?_, ?_, ?_,
      ?_, ?_, ?_⟩
  · rcases second.queue with same | empty
    · exact first.queue.imp same.trans same.trans
    · exact .inr empty
  · rw [second.ready, first.ready, List.append_assoc]
  · exact fun task new => (List.mem_append.mp new).elim (first.enqueued task) (second.enqueued task)
  · exact fun task new => (List.mem_append.mp new).elim (first.numbered task) (first.number ▸ second.numbered task)
  · exact fun task new is => (List.mem_append.mp new).elim (first.written task · is) fun later =>
      first.writes (second.written task later is)
  · rcases second.stack with same | ⟨before, after⟩
    · refine first.stack.imp same.trans fun landed => ⟨landed.1, ?_⟩
      unfold Landed
      rw [same]
      exact landed.2
    · refine .inr ⟨?_, after⟩
      rcases first.stack with same | landed
      · unfold Landed
        rw [← same]
        exact before
      · exact landed.1

theorem aside_closeSocket (n : Net H K) : ∃ tasks, Aside n n.closeSocket tasks := by
  let aborted := (n.ops.filter (·.isRead) ++ n.ops.filter (!·.isRead)).map (SocketOp.abort (K := K) n.socket.number)
  have from_op : ∀ task ∈ aborted, ∃ op ∈ n.ops, task = op.abort n.socket.number := by
    intro task new
    obtain ⟨op, among, rfl⟩ := List.mem_map.mp new
    exact ⟨op, (List.mem_append.mp among).elim List.mem_of_mem_filter List.mem_of_mem_filter, rfl⟩
  have dials : aborted.countP (·.dialed? == some n.socket.number) = n.ops.countP (·.isDial) := by
    have same : (fun op : SocketOp H => (op.abort (K := K) n.socket.number).dialed? == some n.socket.number) =
        (·.isDial) := by
      funext op
      cases op <;> simp [SocketOp.abort, Task.dialed?, SocketOp.isDial]
    rw [List.countP_map, List.countP_append]
    change List.countP (fun op : SocketOp H => (op.abort (K := K) n.socket.number).dialed? == some n.socket.number) _ +
      List.countP (fun op : SocketOp H => (op.abort (K := K) n.socket.number).dialed? == some n.socket.number) _ = _
    rw [same, ← List.countP_eq_countP_filter_add]
  refine ⟨aborted, rfl, rfl, rfl, fun able => absurd able.1.1 Bool.false_ne_true, ?_, ?_, .inl rfl, rfl, ?_, ?_, ?_,
    .inl rfl⟩
  · rintro ⟨op, among, -⟩
    exact absurd among List.not_mem_nil
  · refine Nat.le_of_eq ?_
    change 0 + (n.ready ++ aborted).countP _ = _
    rw [List.countP_append, Nat.zero_add, Nat.add_comm]
    exact congrArg (· + _) dials
  · intro task new
    obtain ⟨op, -, rfl⟩ := from_op task new
    cases op <;> rfl
  · intro task new number same
    obtain ⟨op, -, rfl⟩ := from_op task new
    cases op with
    | connect h rest => exact Nat.le_of_eq (Option.some.inj same).symm
    | _ => contradiction
  · intro task new is
    obtain ⟨op, among, rfl⟩ := from_op task new
    cases op with
    | write serial unsent => exact ⟨_, among, rfl⟩
    | _ => contradiction

theorem invocation_landed (item : WriteItem H) (ec : ErrorCode) :
    ∀ entry ∈ item.invocation (K := K) ec, entry.isArrival = false := by
  unfold WriteItem.invocation
  split
  · exact fun _ among => absurd among List.not_mem_nil
  · intro entry among
    obtain rfl := List.mem_singleton.mp among
    rfl

theorem aside_failPendingWrites (landed : n.Landed) (ec : AsioError) : Aside n (n.failPendingWrites ec) [] := by
  have emptied : Aside n { n with writeQueue := [], writing := false } [] :=
    aside_of_fields rfl rfl id rfl (.inr rfl) rfl (.inl rfl)
  refine emptied.trans (aside_push landed fun entry among => ?_)
  obtain ⟨item, -, mine⟩ := List.mem_flatMap.mp among
  exact invocation_landed item _ entry mine

theorem aside_close (landed : n.Landed) : ∃ tasks, Aside n n.close tasks := by
  unfold close
  split
  · exact ⟨[], aside_of_fields rfl rfl id rfl (.inl rfl) rfl (.inl rfl)⟩
  · dsimp only
    let shut : Net H K := { n with closed := true }
    let cut : Net H K := { shut.closeSocket with state := .disconnected, inFlight := none, writing := false }
    have first : Aside n shut [] :=
      aside_of_fields rfl rfl (fun able => absurd able.2 nofun) rfl (.inl rfl) rfl (.inl rfl)
    obtain ⟨aborted, second⟩ := aside_closeSocket shut
    have third : Aside shut.closeSocket cut [] :=
      aside_of_fields rfl rfl (fun able => absurd able.2 nofun) rfl (.inl rfl) rfl (.inl rfl)
    have others : ∀ entry ∈ n.inFlight.toList.flatMap (fun item : WriteItem H =>
        item.invocation (K := K) (some .operationAborted)) ++ [.closeHandler], entry.isArrival = false := by
      intro entry among
      rcases List.mem_append.mp among with flying | last
      · obtain ⟨item, -, mine⟩ := List.mem_flatMap.mp flying
        exact invocation_landed item _ entry mine
      · obtain rfl := List.mem_singleton.mp last
        rfl
    have calm : cut.Landed := landed
    have fourth := aside_push calm others
    exact ⟨_, (((first.trans second).trans third).trans fourth).trans
      (aside_failPendingWrites (landed_push calm others) _)⟩

theorem aside_startRead (n : Net H K) (phase : ReadPhase) (count : Nat) (h : H) :
    ∃ tasks, Aside n (n.startRead phase count h) tasks := by
  unfold startRead
  split
  · refine ⟨[], rfl, rfl, rfl, id, ?_, ?_, .inl rfl, (List.append_nil _).symm, ?_, ?_, ?_, .inl rfl⟩
    · rintro ⟨op, among, is⟩
      rcases List.mem_append.mp among with before | new
      · exact ⟨op, before, is⟩
      · obtain rfl := List.mem_singleton.mp new
        contradiction
    · exact Nat.le_of_eq (by simp [Net.dials, SocketOp.isDial])
    all_goals exact fun _ new => absurd new List.not_mem_nil
  · exact ⟨_, aside_post ⟨rfl, rfl, rfl⟩⟩

theorem aside_reading (n : Net H K) (reading : ReadState) : Aside n { n with reading } [] :=
  aside_of_fields rfl rfl id rfl (.inl rfl) rfl (.inl rfl)

theorem aside_asyncReadPacket (n : Net H K) (h : H) : ∃ tasks, Aside n (n.asyncReadPacket h) tasks := by
  unfold asyncReadPacket
  split
  · rename_i reading phase count _
    obtain ⟨tasks, started⟩ := aside_startRead { n with reading } phase count h
    exact ⟨_, (aside_reading n reading).trans started⟩
  · exact ⟨[], aside_reading n _⟩

theorem aside_onRead (n : Net H K) (phase : ReadPhase) (h : H) (result : Except AsioError Bytes) :
    ∃ tasks, Aside n (n.onRead phase h result) tasks := by
  unfold onRead
  split
  · rename_i reading next count _
    obtain ⟨tasks, started⟩ := aside_startRead { n with reading } next count h
    exact ⟨_, (aside_reading n reading).trans started⟩
  · rename_i reading ec packet _
    exact ⟨_, (aside_reading n reading).trans (aside_post ⟨rfl, rfl, rfl⟩)⟩

theorem aside_asyncConnect (n : Net H K) (h : H) : Aside n (n.asyncConnect h) [] :=
  aside_of_fields rfl rfl (fun able => absurd rfl able.1.2.2) rfl (.inl rfl) rfl (.inl rfl)

/-! ### What is kept -/

structure Courteous (hello : Bytes → Bool) (n : Net H K) : Prop where
  polite : Polite hello n
  expectant : Expectant hello n

theorem Aside.courteous (aside : Aside n m tasks) (h : Courteous hello n) : Courteous hello m :=
  ⟨aside.polite h.polite, aside.expectant h.expectant⟩

/-- Neither a session nor a handshake goes on. -/
def Between (n : Net H K) : Prop := n.closed = true ∨ n.state = .connecting ∨ n.state = .disconnected

instance (n : Net H K) : Decidable n.Between := inferInstanceAs (Decidable (_ ∨ _ ∨ _))

theorem Between.unable (between : n.Between) : ¬ n.Able := by
  rintro ⟨⟨_, up, dialing⟩, opened⟩
  rcases between with closed | same | same
  · exact absurd (closed.symm.trans opened) nofun
  · exact dialing same
  · exact up same

theorem expectant_unable (unable : ¬ n.Able) : Expectant hello n := fun _ able => absurd able unable

variable {task : Task H K} {tail : List (Task H K)}

theorem polite_leaving (h : Polite hello n) (front : n.ready = task :: tail) : Polite hello (n.leaving tail) := by
  have later : ∀ x ∈ tail, x ∈ n.ready := fun x among => front ▸ List.mem_cons_of_mem task among
  have dials : (n.leaving tail).dials ≤ n.dials := by
    unfold Net.dials
    rw [front, List.countP_cons]
    exact Nat.add_le_add_left (Nat.le_add_right _ _) _
  refine ⟨h.past, h.present, fun x among => h.fresh x (later x among), Nat.le_trans dials h.once,
    fun some => h.bare (Nat.lt_of_lt_of_le some dials), fun some => h.apart (Nat.lt_of_lt_of_le some dials),
    h.unwritten, fun nothing => ?_, fun nothing able x among => h.settled nothing able x (later x among), h.arriving,
    fun some item among => ?_⟩
  · have order := h.order nothing
    rw [front] at order
    exact (List.pairwise_cons.mp order).2
  · refine h.quiet some item ?_
    refine List.mem_append.mpr ((List.mem_append.mp among).imp_right fun handed => ?_)
    obtain ⟨x, within, mine⟩ := List.mem_filterMap.mp handed
    exact List.mem_filterMap.mpr ⟨x, later x within, mine⟩

theorem courteous_leaving (h : Courteous hello n) (front : n.ready = task :: tail) (other : task.enqueued? = none) :
    Courteous hello (n.leaving tail) := by
  refine ⟨polite_leaving h.polite front, ?_⟩
  have same : (n.leaving tail).handedOver = n.handedOver := by
    unfold handedOver
    rw [front, List.filterMap_cons, other]
    rfl
  unfold Expectant
  rw [same]
  exact h.expectant

/-- The next endpoint is tried on a new socket. -/
theorem courteous_connectEndpoint (h : Polite hello n) (landed : n.Landed) (between : n.Between) (handler : H)
    (rest : Nat) : Courteous hello (n.connectEndpoint handler rest) := by
  obtain ⟨tasks, aside⟩ := aside_closeSocket n
  have cut := aside.polite h
  have unable : ¬ (n.connectEndpoint handler rest).Able := Between.unable (n := n.connectEndpoint handler rest) between
  have other : ∀ task ∈ n.closeSocket.ready, task.dialed? ≠ some (n.socket.number + 1) := by
    intro task among same
    exact absurd (cut.fresh task among _ same) (Nat.not_succ_le_self _)
  have dials : (n.connectEndpoint handler rest).dials = 1 := by
    have none : n.closeSocket.ready.countP (·.dialed? == some (n.socket.number + 1)) = 0 :=
      List.countP_eq_zero.mpr fun task among => by simpa using other task among
    change 1 + n.closeSocket.ready.countP (·.dialed? == some (n.socket.number + 1)) = 1
    rw [none]
  refine ⟨⟨fun s among => ?_, trivial, fun task among number same => ?_, Nat.le_of_eq dials, fun _ => rfl,
    fun _ => unable, ?_, fun _ => ?_, fun _ able => absurd able unable, .inl landed, fun some => absurd rfl some⟩,
    expectant_unable unable⟩
  · rcases List.mem_append.mp among with before | last
    · exact cut.past s before
    · obtain rfl := List.mem_singleton.mp last
      exact cut.present
  · exact Nat.le_succ_of_le (cut.fresh task among number same)
  · rintro _ ⟨op, among, is⟩
    obtain rfl := List.mem_singleton.mp among
    contradiction
  · exact List.pairwise_of_forall_mem_list fun first among _ _ same => absurd same (other first among)

theorem courteous_refused (h : Courteous hello n) (landed : n.Landed) (handler : H) (ec : AsioError) :
    Courteous hello (n.onConnected handler (some ec)) := by
  have lost : Aside n { n with state := .disconnected } [] :=
    aside_of_fields rfl rfl (fun able => absurd rfl able.1.2.1) rfl (.inl rfl) rfl (.inl rfl)
  have told : Aside { n with state := .disconnected } (n.onConnected handler (some ec)) [] :=
    aside_push (n := { n with state := .disconnected }) landed fun entry among => by
      obtain rfl := List.mem_singleton.mp among
      rfl
  exact (lost.trans told).courteous h

/-- The TCP connect of the present socket succeeds, before anything was written on it. -/
theorem courteous_arrival (h : Courteous hello n) (idle : n.stack = []) {handler : H} {rest : Nat}
    (front : n.ready = .connected handler rest n.socket.number none :: tail) :
    Courteous hello ((n.leaving tail).onConnected handler none) := by
  have left := polite_leaving h.polite front
  have counted : n.dials = (n.leaving tail).dials + 1 := by
    unfold Net.dials
    rw [front, List.countP_cons_of_pos (by simp [Task.dialed?])]
    rfl
  have none : (n.leaving tail).dials = 0 := by
    have once := h.polite.once
    omega
  have nothing : n.socket.started = [] := h.polite.bare (by omega)
  have order := h.polite.order nothing
  rw [front] at order
  have settled : ∀ task ∈ tail, task.written? = .none :=
    fun task among => (List.pairwise_cons.mp order).1 task among rfl
  have only : ((n.leaving tail).onConnected handler .none).stack = [.invoke (.connect handler .none)] := by
    change [StackEntry.invoke (Invocation.connect handler .none)] ++ n.stack = _
    rw [idle]
    rfl
  have arriving : ((n.leaving tail).onConnected handler .none).Arriving := ⟨_, rfl, only⟩
  refine ⟨⟨left.past, left.present, left.fresh, left.once, left.bare, fun some => ?_, left.unwritten, left.order,
    fun _ _ => settled, .inr ⟨arriving, nothing⟩, left.quiet⟩, fun _ _ => .inl arriving⟩
  have same : ((n.leaving tail).onConnected handler .none).dials = (n.leaving tail).dials := rfl
  omega

/-! ### Writes -/

theorem polite_queue (h : Polite hello n) {queue : List (WriteItem H)}
    (quiet : n.socket.started ≠ [] → ∀ item ∈ queue, hello item.buffer = false) :
    Polite hello { n with writeQueue := queue } := by
  refine ⟨h.past, h.present, h.fresh, h.once, h.bare, h.apart, h.unwritten, h.order, h.settled, h.arriving, ?_⟩
  intro some item among
  rcases List.mem_append.mp among with queued | handed
  · exact quiet some item queued
  · exact h.quiet some item (List.mem_append_right _ handed)

/-- The first write on a socket is that of the greeting. -/
theorem courteous_startWrite (h : Polite hello n) (landed : n.Landed) (able : n.Able) {item : WriteItem H}
    {rest : List (WriteItem H)} (greets : n.socket.started = [] → hello item.buffer = true)
    (going : n.socket.started ≠ [] → hello item.buffer = false)
    (quiet : ∀ other ∈ rest ++ n.handedOver, hello other.buffer = false) : Courteous hello
      (n.startWrite item rest) := by
  have written : (n.startWrite item rest).socket.started ≠ [] := by
    change n.socket.started ++ [(item.serial, item.buffer)] ≠ []
    simp
  have dials : (n.startWrite item rest).dials = n.dials := by
    unfold Net.dials
    change (n.ops ++ [SocketOp.write item.serial item.buffer]).countP _ + _ = _
    rw [List.countP_append]
    rfl
  have none : n.dials = 0 := by
    by_contra some
    exact h.apart (Nat.pos_of_ne_zero some) able
  have greeted : (n.startWrite item rest).socket.Greeted hello := by
    have before := h.present
    unfold Socket.Greeted at before ⊢
    change match n.socket.started ++ [(item.serial, item.buffer)] with
      | [] => True
      | first :: rest => hello first.2 = true ∧ ∀ frame ∈ rest, hello frame.2 = false
    cases started : n.socket.started with
    | nil => exact ⟨greets started, fun _ among => absurd among List.not_mem_nil⟩
    | cons first others =>
      rw [started] at before
      refine ⟨before.1, fun frame among => ?_⟩
      rcases List.mem_append.mp among with old | new
      · exact before.2 frame old
      · obtain rfl := List.mem_singleton.mp new
        exact going (by rw [started]; nofun)
  have silent : 0 < (n.startWrite item rest).dials → False := by
    rw [dials, none]
    exact Nat.lt_irrefl 0
  exact ⟨⟨h.past, greeted, h.fresh, dials ▸ h.once, fun some => (silent some).elim, fun some => (silent some).elim,
    fun nothing => absurd nothing written, fun nothing => absurd nothing written, fun nothing => absurd nothing written,
    .inl landed, fun _ => quiet⟩, fun nothing => absurd nothing written⟩

/-- Where nothing was written, no write is underway that could hold the greeting up. -/
theorem free_of_settled (h : Polite hello n) (sustained : n.Sustained) (nothing : n.socket.started = [])
    (able : n.Able) : n.writing = false := by
  by_contra busy
  have flies := sustained.flying (sustained.busy (by simpa using busy))
  rcases flies with ⟨op, among, is⟩ | ⟨task, among, is⟩
  · exact h.unwritten nothing ⟨op, among, is⟩
  · rw [h.settled nothing able task among] at is
    contradiction

theorem courteous_doWrite (h : Courteous hello n) (landed : n.Landed) (shut : n.closed = true → n.writeQueue = []) :
    Courteous hello n.doWrite := by
  have does := n.does_doWrite
  generalize n.doWrite = m at does
  cases does with
  | rest => exact h
  | defer => exact (aside_post ⟨rfl, rfl, rfl⟩).courteous h
  | start item rest free queue able =>
    have opened : n.closed = false := by
      by_contra closed
      rw [shut (by simpa using closed)] at queue
      contradiction
    have started : n.socket.started ≠ [] := by
      intro nothing
      rcases h.expectant nothing ⟨able, opened⟩ with arriving | ⟨empty, -⟩
      · exact landed.not_arriving arriving
      · rw [empty] at queue
        contradiction
    have quiet := h.polite.quiet started
    rw [queue] at quiet
    exact courteous_startWrite h.polite landed ⟨able, opened⟩ (fun nothing => absurd nothing started)
      (fun _ => quiet item (.head _)) fun other among => quiet other (.tail _ among)

/-- A frame is queued. On a socket that nothing was written on it is the greeting, which is written. -/
theorem courteous_enqueueWrite {item : WriteItem H} (h : Courteous hello n) (sustained : n.Sustained)
    (idle : n.stack = []) (front : n.ready = .enqueueWrite item :: tail) :
    Courteous hello ((n.leaving tail).enqueueWrite item) := by
  have left := polite_leaving h.polite front
  have landed : (n.leaving tail).Landed := landed_idle idle
  have handed : n.handedOver = item :: (n.leaving tail).handedOver := by
    unfold handedOver
    rw [front]
    rfl
  unfold enqueueWrite
  split
  · rename_i closed
    exact (aside_post ⟨rfl, rfl, rfl⟩).courteous
      ⟨left, expectant_unable fun able => absurd (closed.symm.trans able.2) nofun⟩
  rename_i opened
  dsimp only
  by_cases first : n.socket.started = [] ∧ n.Able
  · obtain ⟨nothing, able⟩ := first
    obtain ⟨empty, opens⟩ := (h.expectant nothing able).resolve_left (landed_idle idle).not_arriving
    have free : n.writing = false := free_of_settled h.polite sustained nothing able
    rw [handed] at opens
    have starts : ({ n.leaving tail with writeQueue := n.writeQueue ++ [item] } : Net H K).doWrite =
        (n.leaving tail).startWrite item [] := by
      have writable : (!n.socket.isOpen || n.state == .disconnected || n.state == .connecting) = false := by
        obtain ⟨isOpen, up, dialed⟩ := able.1
        simp [isOpen, up, dialed]
      unfold doWrite leaving
      dsimp only
      rw [free, if_neg nofun, empty, List.nil_append]
      dsimp only
      rw [writable, if_neg nofun]
      rfl
    change Courteous hello (if !n.writing then
      ({ n.leaving tail with writeQueue := n.writeQueue ++ [item] } : Net H K).doWrite else _)
    rw [free, Bool.not_false, if_pos rfl, starts]
    exact courteous_startWrite left landed able (fun _ => opens.1) (fun some => absurd nothing some) opens.2
  · have queued : Courteous hello ({ n.leaving tail with writeQueue := n.writeQueue ++ [item] } : Net H K) := by
      refine ⟨polite_queue left fun some other among => ?_, fun nothing able => absurd ⟨nothing, able⟩ first⟩
      have quiet := h.polite.quiet some
      rw [handed] at quiet
      rcases List.mem_append.mp among with before | new
      · exact quiet other (List.mem_append_left _ before)
      · obtain rfl := List.mem_singleton.mp new
        exact quiet other (List.mem_append_right _ (.head _))
    split
    · exact courteous_doWrite queued landed fun closed => absurd closed opened
    · exact queued

theorem courteous_popped (h : Courteous hello n) {rest : List (StackEntry H K)} (landed : n.Landed)
    (fewer : ∀ entry ∈ rest, entry ∈ n.stack) : Courteous hello { n with stack := rest } := by
  have aside : Aside n { n with stack := rest } [] :=
    aside_of_fields rfl rfl id rfl (.inl rfl) rfl (.inr ⟨landed, fun entry among => landed entry (fewer entry among)⟩)
  exact aside.courteous h

theorem courteous_afterWrite (h : Courteous hello n) (shut : n.closed = true → n.writeQueue = []) (landed : n.Landed)
    (ec : ErrorCode) :
    Courteous hello (n.afterWrite ec) := by
  unfold afterWrite
  split
  · rename_i ec
    obtain ⟨tasks, cut⟩ := aside_closeSocket n
    have down : Aside n.closeSocket { n.closeSocket with state := .disconnected } [] :=
      aside_of_fields rfl rfl (fun able => absurd rfl able.1.2.1) rfl (.inl rfl) rfl (.inl rfl)
    have failed := aside_failPendingWrites (n := { n.closeSocket with state := .disconnected }) landed ec
    exact ((cut.trans down).trans failed).courteous h
  · split
    · exact courteous_doWrite h landed shut
    · exact h

theorem aside_onWritten (landed : n.Landed) (ec : ErrorCode) : Aside n (n.onWritten ec) [] := by
  unfold onWritten
  split
  · exact aside_of_fields rfl rfl id rfl (.inl rfl) rfl (.inl rfl)
  · rename_i item _
    have done : Aside n { n with inFlight := none, writing := false } [] :=
      aside_of_fields rfl rfl id rfl (.inl rfl) rfl (.inl rfl)
    refine done.trans (aside_push (n := { n with inFlight := none, writing := false }) landed fun entry among => ?_)
    rcases List.mem_append.mp among with mine | last
    · exact invocation_landed item ec entry mine
    · obtain rfl := List.mem_singleton.mp last
      rfl

/-! ### The io thread and the kernel -/

/-- The task that comes next does not cut in with a connect of an earlier attempt. -/
def timely (n : Net H K) : Bool :=
  match n.ready with
  | .resolved _ (.ok _) :: _ => decide n.Between
  | .connected _ rest socket ec :: _ =>
      !n.socket.isOpen || (if ec.isNone then socket == n.socket.number else rest == 0 || decide n.Between)
  | _ => true

theorem courteous_run (h : Courteous hello n) (sustained : n.Sustained) (timely : n.timely = true)
    (ran : n.run = some m) :
    Courteous hello m := by
  obtain ⟨idle, task, tail, front, rfl⟩ := run_cases ran
  have landed : (n.leaving tail).Landed := landed_idle idle
  have after : task.enqueued? = none → Courteous hello (n.leaving tail) := courteous_leaving h front
  have pushes : ∀ entries, (∀ entry ∈ entries, entry.isArrival = false) → task.enqueued? = none →
      Courteous hello ((n.leaving tail).push entries) := fun entries others other =>
    (aside_push landed others).courteous (after other)
  unfold Net.timely at timely
  rw [front] at timely
  cases task with
  | enqueueWrite item => exact courteous_enqueueWrite h sustained idle front
  | failPendingWrites ec => exact (aside_failPendingWrites landed ec).courteous (after rfl)
  | rejectWrite item => exact pushes _ (invocation_landed item _) rfl
  | resolved handler result =>
    cases result with
    | error ec => exact pushes _ (fun entry among => by obtain rfl := List.mem_singleton.mp among; rfl) rfl
    | ok rest => exact courteous_connectEndpoint (after rfl).polite landed (of_decide_eq_true timely) handler rest
  | connected handler rest socket ec =>
    change Courteous hello ((n.leaving tail).onEndpoint handler rest ec)
    unfold onEndpoint
    split
    · exact courteous_refused (after rfl) landed handler _
    · rename_i isOpen
      have live : n.socket.isOpen = true := by simpa [leaving] using isOpen
      change (!n.socket.isOpen || (if ec.isNone then socket == n.socket.number else rest == 0 || decide n.Between)) =
        true at timely
      rw [live, Bool.not_true, Bool.false_or] at timely
      split
      · obtain rfl : socket = n.socket.number := by simpa using timely
        exact courteous_arrival h idle front
      · exact courteous_refused (after rfl) landed handler _
      · rename_i more
        have between : n.Between := by simpa using timely
        exact courteous_connectEndpoint (after rfl).polite landed between handler more
  | written serial ec => exact (aside_onWritten landed ec).courteous (after rfl)
  | read phase handler result =>
    obtain ⟨tasks, aside⟩ := aside_onRead (n.leaving tail) phase handler result
    exact aside.courteous (after rfl)
  | readHandler handler ec packet =>
    exact pushes _ (fun entry among => by obtain rfl := List.mem_singleton.mp among; rfl) rfl
  | own k => exact pushes _ (fun entry among => by obtain rfl := List.mem_singleton.mp among; rfl) rfl

/-- An operation completes, and its task stands for it. -/
theorem aside_completed {index : Nat} {op : SocketOp H} {task : Task H K} (found : n.ops[index]? = some op)
    (enqueued : task.enqueued? = none) (dialed : task.dialed? = if op.isDial then some n.socket.number else none)
    (written : task.written?.isSome = true → op.write?.isSome = true) (socket : Socket)
    (started : socket.started = n.socket.started) (number : socket.number = n.socket.number)
    (isOpen : socket.isOpen = n.socket.isOpen) (succeeded : List Nat) :
    Aside n ({ n with ops := n.ops.eraseIdx index, socket, succeeded }.post task) [task] := by
  obtain ⟨xs, ys, whole, erased, -⟩ := Lists.split_at found
  have held : op ∈ n.ops := List.mem_of_getElem? found
  refine ⟨rfl, started, number, fun able => ⟨⟨isOpen ▸ able.1.1, able.1.2⟩, able.2⟩, ?_, ?_, .inl rfl, rfl, ?_, ?_, ?_,
    .inl rfl⟩
  · exact fun ⟨other, among, is⟩ => ⟨other, List.mem_of_mem_eraseIdx among, is⟩
  · change (n.ops.eraseIdx index).countP _ + (n.ready ++ [task]).countP (·.dialed? == some socket.number) ≤ _
    unfold Net.dials
    rw [number, erased, whole]
    simp only [List.countP_append, List.countP_cons, List.countP_nil, dialed]
    cases op.isDial
    · simp
    · simp
      omega
  · exact fun _ new => List.mem_singleton.mp new ▸ enqueued
  · intro x new k same
    obtain rfl := List.mem_singleton.mp new
    rw [dialed] at same
    split at same
    · exact Nat.le_of_eq (Option.some.inj same).symm
    · contradiction
  · intro x new is
    obtain rfl := List.mem_singleton.mp new
    exact ⟨op, held, written is⟩

theorem aside_kernel {event : Event} (taken : n.kernel event = some m) : ∃ tasks, Aside n m tasks := by
  cases event with
  | resolve index result =>
    obtain ⟨handler, found, rfl⟩ := Option.map_eq_some_iff.mp taken
    have fewer : Aside n { n with resolves := n.resolves.eraseIdx index } [] :=
      aside_of_fields rfl rfl id rfl (.inl rfl) rfl (.inl rfl)
    exact ⟨_, fewer.trans (aside_post ⟨rfl, rfl, rfl⟩)⟩
  | connect index ec =>
    simp only [kernel] at taken
    split at taken
    · obtain rfl := Option.some.inj taken
      exact ⟨_, aside_completed ‹_› rfl rfl
        (fun written => by cases written) { n.socket with established := ec.isNone } rfl rfl rfl n.succeeded⟩
    · contradiction
  | send index count =>
    simp only [kernel] at taken
    split at taken
    · split at taken
      · rename_i serial unsent found _
        obtain rfl := Option.some.inj taken
        obtain ⟨xs, ys, whole, -, replaced⟩ := Lists.split_at found
        refine ⟨[], rfl, rfl, rfl, id, fun _ => ⟨_, List.mem_of_getElem? found, rfl⟩, ?_, .inl rfl,
            (List.append_nil _).symm,
          fun _ new => absurd new List.not_mem_nil, fun _ new => absurd new List.not_mem_nil,
          fun _ new => absurd new List.not_mem_nil, .inl rfl⟩
        change (n.ops.set index _).countP _ + _ ≤ _
        unfold Net.dials
        rw [replaced, whole]
        exact Nat.le_of_eq (by simp [SocketOp.isDial])
      · contradiction
    · contradiction
  | write index ec =>
    simp only [kernel] at taken
    split at taken
    · split at taken
      · obtain rfl := Option.some.inj taken
        exact ⟨_, aside_completed ‹_› rfl rfl (fun _ => rfl) _ rfl rfl rfl _⟩
      · contradiction
    · contradiction
  | read index result =>
    simp only [kernel] at taken
    split at taken
    · split at taken
      · obtain rfl := Option.some.inj taken
        exact ⟨_, aside_completed ‹_› rfl rfl (fun written => by cases written) _ rfl rfl rfl _⟩
      · contradiction
    · obtain rfl := Option.some.inj taken
      exact ⟨_, aside_completed ‹_› rfl rfl (fun written => by cases written) _ rfl rfl rfl _⟩
    · contradiction

/-! ### What the owner hands over -/

theorem handedOver_asyncWritePacket (n : Net H K) (data : Bytes) (handler : Option H) :
    (n.asyncWritePacket data handler).handedOver = n.handedOver ++
    [{ serial := n.nextSerial, buffer := data, handler }] := by
  change (n.ready ++ [Task.enqueueWrite _]).filterMap Task.enqueued? = _
  rw [List.filterMap_append]
  rfl

theorem polite_asyncWritePacket (h : Polite hello n) {data : Bytes} (quiet : n.socket.started ≠ [] → hello data = false)
    (handler : Option H) : Polite hello (n.asyncWritePacket data handler) := by
  have dials : (n.asyncWritePacket data handler).dials = n.dials := by
    change _ + (n.ready ++ [Task.enqueueWrite _]).countP _ = _
    rw [List.countP_append]
    rfl
  have unwritten : ∀ item : WriteItem H, ∀ task ∈ [Task.enqueueWrite (K := K) item], task.written? = none := by
    intro item task new
    obtain rfl := List.mem_singleton.mp new
    rfl
  refine ⟨h.past, h.present, fun task among => ?_, dials ▸ h.once, dials ▸ h.bare, dials ▸ h.apart, h.unwritten,
    fun nothing => ?_, fun nothing able task among => ?_, h.arriving, fun some item among => ?_⟩
  · rcases List.mem_append.mp among with before | new
    · exact h.fresh task before
    · obtain rfl := List.mem_singleton.mp new
      nofun
  · refine List.pairwise_append.mpr ⟨h.order nothing, List.pairwise_singleton _ _, ?_⟩
    exact fun _ _ task new _ => unwritten _ task new
  · exact (List.mem_append.mp among).elim (h.settled nothing able task) (unwritten _ task)
  · rw [handedOver_asyncWritePacket, ← List.append_assoc] at among
    rcases List.mem_append.mp among with before | new
    · exact h.quiet some item before
    · obtain rfl := List.mem_singleton.mp new
      exact quiet some

/-- A frame that is not a greeting. -/
theorem courteous_asyncWritePacket (h : Courteous hello n) {data : Bytes} (other : hello data = false)
    (handler : Option H) :
    Courteous hello (n.asyncWritePacket data handler) := by
  refine ⟨polite_asyncWritePacket h.polite (fun _ => other) handler, fun nothing able => ?_⟩
  refine (h.expectant nothing able).imp id fun ⟨empty, opens⟩ => ⟨empty, ?_⟩
  rw [handedOver_asyncWritePacket]
  cases handed : n.handedOver with
  | nil =>
    rw [handed] at opens
    exact opens.elim
  | cons first rest =>
    rw [handed] at opens
    refine ⟨opens.1, fun item among => ?_⟩
    rcases List.mem_append.mp among with before | new
    · exact opens.2 item before
    · obtain rfl := List.mem_singleton.mp new
      exact other

/-- The owner takes up a TCP connect that is through. -/
theorem Polite.arrived (h : Polite hello n) {entry : StackEntry H K} {rest : List (StackEntry H K)}
    (front : n.stack = entry :: rest) (arrival : entry.isArrival = true) :
    n.socket.started = [] ∧ Polite hello { n with stack := rest } := by
  rcases h.arriving with landed | ⟨⟨only, -, alone⟩, nothing⟩
  · exact absurd (arrival.symm.trans (landed entry (front ▸ .head _))) nofun
  · obtain ⟨-, rfl⟩ := List.cons.inj (front.symm.trans alone)
    exact ⟨nothing, h.past, h.present, h.fresh, h.once, h.bare, h.apart, h.unwritten, h.order, h.settled, .inl nofun,
      h.quiet⟩

/-- The owner greets when nothing else waits. -/
theorem courteous_greeting (h : Courteous hello n) {entry : StackEntry H K} {rest : List (StackEntry H K)}
    (front : n.stack = entry :: rest) (arrival : entry.isArrival = true) (clear : n.writeQueue = [] ∧ n.handedOver = [])
    {data : Bytes} (greets : hello data = true) (handler : Option H) :
    Courteous hello (({ n with stack := rest } : Net H K).asyncWritePacket data handler) := by
  obtain ⟨nothing, polite⟩ := h.polite.arrived front arrival
  refine ⟨polite_asyncWritePacket polite (fun some => absurd nothing some) handler, fun _ _ => .inr ⟨clear.1, ?_⟩⟩
  have none : ({ n with stack := rest } : Net H K).handedOver = [] := clear.2
  rw [handedOver_asyncWritePacket, none]
  exact ⟨greets, fun _ among => absurd among List.not_mem_nil⟩

/-- The owner has nothing to say on a connection that it has closed. -/
theorem courteous_closed (h : Courteous hello n) {entry : StackEntry H K} {rest : List (StackEntry H K)}
    (front : n.stack = entry :: rest) (arrival : entry.isArrival = true) (closed : n.closed = true) :
    Courteous hello { n with stack := rest } :=
  ⟨(h.polite.arrived front arrival).2, expectant_unable fun able => absurd (closed.symm.trans able.2) nofun⟩

theorem courteous_start : Courteous hello ({} : Net H K) := by
  have unable : ¬ ({} : Net H K).Able := fun able => absurd able.1.1 nofun
  refine ⟨⟨nofun, trivial, nofun, Nat.zero_le _, fun some => absurd some (Nat.lt_irrefl 0),
    fun _ => unable, fun _ ⟨_, among, _⟩ => absurd among List.not_mem_nil, fun _ => .nil, nofun, .inl nofun,
    fun some => absurd rfl some⟩, expectant_unable unable⟩

theorem aside_markConnected (n : Net H K) (up : n.closed = true ∨ ¬ n.Between) : Aside n n.markConnected [] := by
  refine aside_of_fields rfl rfl (fun able => ?_) rfl (.inl rfl) rfl (.inl rfl)
  have opened : n.closed = false := able.2
  have going : ¬ n.Between := up.resolve_left fun closed => absurd (closed.symm.trans opened) nofun
  exact ⟨⟨able.1.1, fun same => going (.inr (.inr same)), fun same => going (.inr (.inl same))⟩, opened⟩

end Net
end LiteMqtt
