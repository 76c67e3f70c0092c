import LiteMqtt.Connection.Attempts
import LiteMqtt.Connection.Writes

/-!
# The calls a connection still owes

A connection owes its owner the call of a handler whose operation is outstanding, whose completion is
queued, or whose frame waits. It owes the owner's own calls as well. A step forgets none of them, but
for a write that is started over another one, and it makes up none.
-/

namespace LiteMqtt

variable {H K : Type}

inductive Debt (H K : Type) where
  | connect (handler : H)
  | read (handler : H)
  | write (handler : H)
  | own (k : K)

def WriteItem.debt? (item : WriteItem H) : Option (Debt H K) := item.handler.map .write

def SocketOp.debt? : SocketOp H → Option (Debt H K)
  | .connect h _ => some (.connect h)
  | .write .. => none
  | .read _ _ h => some (.read h)

def Task.debt? : Task H K → Option (Debt H K)
  | .enqueueWrite item | .rejectWrite item => item.debt?
  | .resolved h _ | .connected h .. => some (.connect h)
  | .read _ h _ | .readHandler h .. => some (.read h)
  | .own k => some (.own k)
  | .failPendingWrites _ | .written .. => none

def StackEntry.debt? : StackEntry H K → Option (Debt H K)
  | .invoke (.connect h _) => some (.connect h)
  | .invoke (.read h ..) => some (.read h)
  | .invoke (.write _ h _) => some (.write h)
  | .own k => some (.own k)
  | .invoke (.closed _) | .afterWrite _ | .closeHandler => none

namespace Net

variable {n m k : Net H K} {p : Debt H K}

def Owes (n : Net H K) (p : Debt H K) : Prop :=
  (∃ h ∈ n.resolves, p = .connect h) ∨ (∃ op ∈ n.ops, op.debt? = some p) ∨ (∃ task ∈ n.ready, task.debt? = some p) ∨
    (∃ entry ∈ n.stack, entry.debt? = some p) ∨ (∃ item ∈ n.writeQueue, item.debt? = some p) ∨
    ∃ item ∈ n.inFlight, item.debt? = some p

theorem owes_own {k : K} : n.Owes (.own k) ↔ .own k ∈ n.ready ∨ .own k ∈ n.stack := by
  have item : ∀ item : WriteItem H, item.debt? ≠ some (.own k : Debt H K) := by
    intro item
    simp [WriteItem.debt?]
  have task : ∀ task : Task H K, task.debt? = some (.own k) ↔ task = .own k := by
    intro task
    cases task <;> simp [Task.debt?, item]
  have op : ∀ op : SocketOp H, op.debt? ≠ some (.own k : Debt H K) := by
    intro op
    cases op <;> simp [SocketOp.debt?]
  have entry : ∀ entry : StackEntry H K, entry.debt? = some (.own k) ↔ entry = .own k := by
    intro entry
    cases entry with
    | invoke call => cases call <;> simp [StackEntry.debt?]
    | _ => simp [StackEntry.debt?]
  simp [Owes, item, task, op, entry]

theorem owes_post (task : Task H K) : (n.post task).Owes p ↔ n.Owes p ∨ task.debt? = some p := by
  simp only [Owes, post, List.mem_append, List.mem_singleton]
  grind

theorem owes_push (entries : List (StackEntry H K)) :
    (n.push entries).Owes p ↔ n.Owes p ∨ ∃ entry ∈ entries, entry.debt? = some p := by
  simp only [Owes, push, List.mem_append]
  grind

theorem owes_popped {entry : StackEntry H K} {rest : List (StackEntry H K)} (front : n.stack = entry :: rest) :
    n.Owes p ↔ ({ n with stack := rest } : Net H K).Owes p ∨ entry.debt? = some p := by
  simp only [Owes, front, List.mem_cons]
  grind

theorem owes_leaving {task : Task H K} {tail : List (Task H K)} (front : n.ready = task :: tail) :
    n.Owes p ↔ (n.leaving tail).Owes p ∨ task.debt? = some p := by
  simp only [Owes, leaving, front, List.mem_cons]
  grind

theorem owes_closeSocket : n.closeSocket.Owes p ↔ n.Owes p := by
  have aborted : (∃ task ∈ (n.ops.filter (·.isRead) ++ n.ops.filter (!·.isRead)).map
      (SocketOp.abort (K := K) n.socket.number), task.debt? = some p) ↔ ∃ op ∈ n.ops, op.debt? = some p := by
    have same : ∀ op : SocketOp H, (op.abort (K := K) n.socket.number).debt? = (op.debt? : Option (Debt H K)) := by
      intro op
      cases op <;> rfl
    simp only [List.mem_map, List.mem_append, List.mem_filter]
    constructor
    · rintro ⟨_, ⟨op, among, rfl⟩, owed⟩
      exact ⟨op, among.elim And.left And.left, same op ▸ owed⟩
    · rintro ⟨op, among, owed⟩
      refine ⟨_, ⟨op, ?_, rfl⟩, (same op).trans owed⟩
      cases op.isRead <;> simp [among]
  simp only [Owes, closeSocket, List.mem_append]
  grind

theorem owes_connectEndpoint (h : H) (rest : Nat) :
    (n.connectEndpoint h rest).Owes p ↔ n.Owes p ∨ p = .connect h := by
  rw [← owes_closeSocket (n := n)]
  have none : ∀ op ∈ n.closeSocket.ops, op.debt? ≠ some p := fun _ among => absurd among List.not_mem_nil
  have one : (∃ op ∈ ([.connect h rest] : List (SocketOp H)), op.debt? = some p) ↔ p = .connect h := by
    simp [SocketOp.debt?, eq_comm]
  change (_ ∨ (∃ op ∈ ([.connect h rest] : List (SocketOp H)), op.debt? = some p) ∨ _) ↔ _
  rw [one]
  constructor
  · rintro (resolves | same | others)
    · exact .inl (.inl resolves)
    · exact .inr same
    · exact .inl (.inr (.inr others))
  · rintro ((resolves | ⟨op, among, same⟩ | others) | same)
    · exact .inl resolves
    · exact (none op among same).elim
    · exact .inr (.inr others)
    · exact .inr (.inl same)

theorem owes_onConnected (h : H) (ec : ErrorCode) : (n.onConnected h ec).Owes p ↔ n.Owes p ∨ p = .connect h := by
  unfold onConnected
  rw [owes_push]
  simp only [Owes, List.mem_singleton]
  grind [StackEntry.debt?]

theorem owes_onEndpoint (h : H) (rest : Nat) (ec : ErrorCode) :
    (n.onEndpoint h rest ec).Owes p ↔ n.Owes p ∨ p = .connect h := by
  unfold onEndpoint
  split
  · exact owes_onConnected h _
  · split
    · exact owes_onConnected h _
    · exact owes_onConnected h _
    · exact owes_connectEndpoint h _

theorem owes_startRead (phase : ReadPhase) (count : Nat) (h : H) :
    (n.startRead phase count h).Owes p ↔ n.Owes p ∨ p = .read h := by
  unfold startRead
  split
  · simp only [Owes, List.mem_append, List.mem_singleton]
    grind [SocketOp.debt?]
  · rw [owes_post]
    grind [Task.debt?]

theorem owes_onRead (phase : ReadPhase) (h : H) (result : Except AsioError Bytes) :
    (n.onRead phase h result).Owes p ↔ n.Owes p ∨ p = .read h := by
  unfold onRead
  split
  · exact owes_startRead (n := { n with reading := _ }) _ _ h
  · rw [owes_post]
    simp only [Owes, Task.debt?]
    grind

theorem owed_asyncReadPacket (h : H) (owes : (n.asyncReadPacket h).Owes p) : n.Owes p ∨ p = .read h := by
  unfold asyncReadPacket at owes
  split at owes
  · have before := (owes_startRead _ _ h).mp owes
    exact before
  · exact .inl owes

theorem owes_invocation (item : WriteItem H) (ec : ErrorCode) :
    (∃ entry ∈ item.invocation (K := K) ec, entry.debt? = some p) ↔ item.debt? = some p := by
  unfold WriteItem.invocation WriteItem.debt?
  split
  · rename_i none
    simp [none]
  · rename_i h some
    simp [some, StackEntry.debt?]

theorem owes_failPendingWrites (ec : AsioError) : (n.failPendingWrites ec).Owes p ↔ n.Owes p := by
  have queued : (∃ entry ∈ n.writeQueue.flatMap fun item : WriteItem H => item.invocation (K := K) (some ec),
      entry.debt? = some p) ↔ ∃ item ∈ n.writeQueue, item.debt? = some p := by
    simp only [List.mem_flatMap]
    constructor
    · rintro ⟨entry, ⟨item, among, calls⟩, owed⟩
      exact ⟨item, among, (owes_invocation item _).mp ⟨entry, calls, owed⟩⟩
    · rintro ⟨item, among, owed⟩
      obtain ⟨entry, calls, same⟩ := (owes_invocation item (some ec)).mpr owed
      exact ⟨entry, ⟨item, among, calls⟩, same⟩
  unfold failPendingWrites
  rw [owes_push, queued]
  simp only [Owes]
  grind

theorem owes_onWritten (ec : ErrorCode) : (n.onWritten ec).Owes p ↔ n.Owes p := by
  unfold onWritten
  split
  · exact Iff.rfl
  · rename_i item flying
    have calls := owes_invocation (p := p) (K := K) item ec
    rw [owes_push]
    simp only [List.mem_append, List.mem_singleton, Owes, flying]
    grind [StackEntry.debt?]

/-- A write may be started while the item of another one is in flight. -/
def Overlapping (n : Net H K) : Prop := n.writing = false ∧ n.inFlight.isSome = true

/-- What `do_write` requires of the socket. -/
def Writable (n : Net H K) : Prop := n.socket.isOpen = true ∧ n.state ≠ .disconnected ∧ n.state ≠ .connecting

inductive DoesWrite (n : Net H K) : Net H K → Prop where
  | rest (nothing : n.writing = true ∨ n.writeQueue = []) : DoesWrite n n
  | defer (free : n.writing = false) (unable : ¬ n.Writable) : DoesWrite n (n.post (.failPendingWrites .badDescriptor))
  | start (item : WriteItem H) (rest : List (WriteItem H)) (free : n.writing = false)
      (queue : n.writeQueue = item :: rest) (able : n.Writable) : DoesWrite n (n.startWrite item rest)

theorem does_doWrite (n : Net H K) : n.DoesWrite n.doWrite := by
  unfold doWrite
  split
  · rename_i busy
    exact .rest (.inl busy)
  rename_i free
  split
  · rename_i none
    exact .rest (.inr none)
  rename_i item rest queue
  have free : n.writing = false := by simpa using free
  split
  · rename_i unable
    refine .defer free fun able => ?_
    obtain ⟨opened, up, on⟩ := able
    simp [opened, up, on] at unable
  · rename_i able
    simp only [Bool.or_eq_true, Bool.not_eq_true', beq_iff_eq, not_or, Bool.not_eq_false] at able
    exact .start item rest free queue ⟨able.1.1, able.1.2, able.2⟩

theorem owed_startWrite {item : WriteItem H} {rest : List (WriteItem H)} (queue : n.writeQueue = item :: rest)
    (owes : (n.startWrite item rest).Owes p) : n.Owes p := by
  simp only [Owes, startWrite, queue, List.mem_append, List.mem_cons] at owes ⊢
  grind [SocketOp.debt?]

/-- Only the handler of an item in flight may be forgotten. -/
theorem owes_startWrite {item : WriteItem H} {rest : List (WriteItem H)} (queue : n.writeQueue = item :: rest)
    (owed : n.Owes p) : (n.startWrite item rest).Owes p ∨ (∃ h, p = .write h) ∧ n.inFlight.isSome = true := by
  simp only [Owes, startWrite, queue, List.mem_append, List.mem_cons] at owed ⊢
  rcases owed with resolves | ops | ready | stack | ⟨other, rfl | later, same⟩ | ⟨other, flying, same⟩
  · exact .inl (.inl resolves)
  · exact .inl (.inr (.inl (ops.imp fun _ => And.imp_left .inl)))
  · exact .inl (.inr (.inr (.inl ready)))
  · exact .inl (.inr (.inr (.inr (.inl stack))))
  · exact .inl (.inr (.inr (.inr (.inr (.inr ⟨_, rfl, same⟩)))))
  · exact .inl (.inr (.inr (.inr (.inr (.inl ⟨other, later, same⟩)))))
  · obtain ⟨h, -, rfl⟩ := Option.map_eq_some_iff.mp same
    exact .inr ⟨⟨h, rfl⟩, by rw [flying]; rfl⟩

theorem owed_doWrite (owes : n.doWrite.Owes p) : n.Owes p := by
  have does := does_doWrite n
  generalize n.doWrite = m at does owes
  cases does with
  | rest => exact owes
  | defer => exact ((owes_post _).mp owes).resolve_right nofun
  | start item rest free queue => exact owed_startWrite queue owes

/-- A deferred failure would empty the queue, or the next write would be started clash one in flight. -/
def Hazard (n : Net H K) : Prop := (∃ ec, .failPendingWrites ec ∈ n.ready) ∨ n.Overlapping

/-- The frame of `h` has yet to be queued, and no deferred failure comes after that. -/
def Late (n : Net H K) (h : H) : Prop :=
  ∃ before item after, n.ready = before ++ .enqueueWrite item :: after ∧ item.handler = some h ∧
    ∀ ec, .failPendingWrites ec ∉ after

/-- Every call that was owed still is, and no hazard is added. -/
structure Quiet (n m : Net H K) : Prop where
  owes : ∀ p, n.Owes p → m.Owes p
  writable : m.Writable → n.Writable
  hazard : m.Writable → m.Hazard → n.Hazard
  late : ∀ h, n.Late h → m.Late h

theorem Quiet.refl (n : Net H K) : Quiet n n := ⟨fun _ => id, id, fun _ => id, fun _ => id⟩

theorem Quiet.trans (first : Quiet n m) (second : Quiet m k) : Quiet n k :=
  ⟨fun p => second.owes p ∘ first.owes p, first.writable ∘ second.writable,
    fun able => first.hazard (second.writable able) ∘ second.hazard able, fun h => second.late h ∘ first.late h⟩

theorem late_append {tasks : List (Task H K)} {h : H} (harmless : ∀ ec, .failPendingWrites ec ∉ tasks)
    (ready : m.ready = n.ready ++ tasks) (late : n.Late h) : m.Late h := by
  obtain ⟨before, item, after, split, same, clear⟩ := late
  refine ⟨before, item, after ++ tasks, by simp [ready, split], same, fun ec among => ?_⟩
  exact (List.mem_append.mp among).elim (clear ec) (harmless ec)

/-- More tasks wait, and none of them is a deferred failure. -/
theorem quiet_of_tasks (tasks : List (Task H K)) (owes : ∀ p, n.Owes p → m.Owes p)
    (socket : m.socket.isOpen = n.socket.isOpen)
    (state : m.state = n.state) (writing : m.writing = n.writing) (inFlight : m.inFlight = n.inFlight)
    (ready : m.ready = n.ready ++ tasks) (harmless : ∀ ec, .failPendingWrites ec ∉ tasks) : Quiet n m := by
  refine ⟨owes, fun able => ?_, fun _ hazard => ?_, fun h => late_append harmless ready⟩
  · unfold Writable at able ⊢
    rwa [← socket, ← state]
  · rcases hazard with ⟨ec, among⟩ | ⟨free, flying⟩
    · rw [ready] at among
      exact .inl ⟨ec, (List.mem_append.mp among).resolve_right (harmless ec)⟩
    · exact .inr ⟨writing ▸ free, inFlight ▸ flying⟩

theorem quiet_of_unwritable (tasks : List (Task H K)) (owes : ∀ p, n.Owes p → m.Owes p) (unable : ¬ m.Writable)
    (ready : m.ready = n.ready ++ tasks) (harmless : ∀ ec, .failPendingWrites ec ∉ tasks) : Quiet n m :=
  ⟨owes, fun able => (unable able).elim, fun able => (unable able).elim, fun _ => late_append harmless ready⟩

theorem harmless_one {task : Task H K} (harmless : task.failing? = none) (ec : AsioError) :
    .failPendingWrites ec ∉ [task] := by
  rintro among
  obtain rfl := List.mem_singleton.mp among
  contradiction

theorem quiet_post {x : Task H K} (harmless : x.failing? = none) : Quiet n (n.post x) :=
  quiet_of_tasks _ (fun _ owed => (owes_post x).mpr (.inl owed)) rfl rfl rfl rfl rfl (harmless_one harmless)

theorem quiet_push (entries : List (StackEntry H K)) : Quiet n (n.push entries) :=
  quiet_of_tasks [] (fun _ owed => (owes_push entries).mpr (.inl owed)) rfl rfl rfl rfl
    (List.append_nil _).symm fun _ => List.not_mem_nil

theorem aborted_harmless (ops : List (SocketOp H)) (socket : Nat) (ec : AsioError) :
    .failPendingWrites ec ∉ (ops.filter (·.isRead) ++ ops.filter (!·.isRead)).map (SocketOp.abort (K := K) socket) := by
  intro among
  obtain ⟨op, -, same⟩ := List.mem_map.mp among
  cases op <;> contradiction

theorem quiet_closeSocket (n : Net H K) : Quiet n n.closeSocket :=
  quiet_of_unwritable _ (fun _ => owes_closeSocket.mpr) (fun able => absurd able.1 nofun) rfl
    (aborted_harmless n.ops n.socket.number)

theorem quiet_startRead (n : Net H K) (phase : ReadPhase) (count : Nat) (h : H) :
    Quiet n (n.startRead phase count h) := by
  have owes : ∀ p, n.Owes p → (n.startRead phase count h).Owes p := fun _ owed =>
    (owes_startRead phase count h).mpr (.inl owed)
  unfold startRead at owes ⊢
  split at owes
  · rename_i opened
    rw [if_pos opened]
    exact quiet_of_tasks [] owes rfl rfl rfl rfl (List.append_nil _).symm fun _ => List.not_mem_nil
  · rename_i shut
    rw [if_neg shut]
    exact quiet_post rfl

theorem quiet_asyncReadPacket (n : Net H K) (h : H) : Quiet n (n.asyncReadPacket h) := by
  unfold asyncReadPacket
  split
  · rename_i reading phase count next
    have started := quiet_startRead { n with reading } phase count h
    exact ⟨started.owes, started.writable, started.hazard, started.late⟩
  · exact ⟨fun _ => id, id, fun _ => id, fun _ => id⟩

theorem quiet_asyncWritePacket (n : Net H K) (data : Bytes) (h : Option H) : Quiet n (n.asyncWritePacket data h) :=
  quiet_of_tasks _ (fun _ owed => (owes_post _).mpr (.inl owed)) rfl rfl rfl rfl rfl (harmless_one rfl)

theorem owes_close : n.close.Owes p ↔ n.Owes p := by
  unfold close
  split
  · exact Iff.rfl
  · have shut := owes_closeSocket (n := n) (p := p)
    have flying : (∃ entry ∈ n.inFlight.toList.flatMap (fun item : WriteItem H =>
        item.invocation (K := K) (some .operationAborted)) ++ [.closeHandler], entry.debt? = some p) ↔
        ∃ item ∈ n.inFlight, item.debt? = some p := by
      cases n.inFlight with
      | none => simp [StackEntry.debt?]
      | some item => simpa [StackEntry.debt?, or_and_right, exists_or] using owes_invocation item _
    rw [owes_failPendingWrites, owes_push, flying]
    rw [← shut]
    simp only [Owes, closeSocket]
    grind

theorem quiet_close (n : Net H K) : Quiet n n.close := by
  have owes : ∀ p, n.Owes p → n.close.Owes p := fun _ => owes_close.mpr
  unfold close at owes ⊢
  split at owes
  · rename_i closed
    rw [if_pos closed]
    exact .refl n
  · rename_i opened
    rw [if_neg opened]
    exact quiet_of_unwritable _ owes (fun able => absurd able.1 nofun) rfl (aborted_harmless n.ops n.socket.number)

/-- An operation completes, and its task carries its handler. -/
theorem quiet_completed {index : Nat} {op : SocketOp H} {task : Task H K} (found : n.ops[index]? = some op)
    (same : task.debt? = (op.debt? : Option (Debt H K))) (harmless : task.failing? = none) (socket : Socket)
    (opened : socket.isOpen = n.socket.isOpen) (succeeded : List Nat) :
    Quiet n ({ n with ops := n.ops.eraseIdx index, socket, succeeded }.post task) := by
  refine quiet_of_tasks _ (fun p owed => ?_) opened rfl rfl rfl rfl (harmless_one harmless)
  obtain ⟨xs, ys, whole, erased, -⟩ := Lists.split_at found
  refine (owes_post task).mpr ?_
  rw [same]
  simp only [Owes, whole, List.mem_append, List.mem_cons] at owed ⊢
  grind

theorem quiet_kernel {event : Event} (taken : n.kernel event = some m) : Quiet n m := by
  cases event with
  | resolve index result =>
    obtain ⟨h, found, rfl⟩ := Option.map_eq_some_iff.mp taken
    refine quiet_of_tasks _ (fun p owed => ?_) rfl rfl rfl rfl rfl (harmless_one rfl)
    obtain ⟨xs, ys, whole, erased, -⟩ := Lists.split_at found
    refine (owes_post _).mpr ?_
    simp only [Owes, whole, List.mem_append, List.mem_cons, Task.debt?] at owed ⊢
    grind
  | connect index ec =>
    simp only [kernel] at taken
    split at taken
    · rename_i h rest found
      obtain rfl := Option.some.inj taken
      exact quiet_completed found rfl rfl { n.socket with established := ec.isNone } rfl n.succeeded
    · contradiction
  | send index count =>
    simp only [kernel] at taken
    split at taken
    · split at taken
      · rename_i serial unsent found _
        obtain rfl := Option.some.inj taken
        refine quiet_of_tasks [] (fun p owed => ?_) rfl rfl rfl rfl (List.append_nil _).symm
          fun _ => List.not_mem_nil
        obtain ⟨xs, ys, whole, -, replaced⟩ := Lists.split_at found
        simp only [Owes, whole, List.mem_append, List.mem_cons] at owed ⊢
        grind [SocketOp.debt?]
      · contradiction
    · contradiction
  | write index ec =>
    simp only [kernel] at taken
    split at taken
    · split at taken
      · obtain rfl := Option.some.inj taken
        exact quiet_completed ‹_› rfl rfl n.socket rfl _
      · contradiction
    · contradiction
  | read index result =>
    simp only [kernel] at taken
    split at taken
    · split at taken
      · obtain rfl := Option.some.inj taken
        exact quiet_completed ‹_› rfl rfl n.socket rfl n.succeeded
      · contradiction
    · obtain rfl := Option.some.inj taken
      exact quiet_completed ‹_› rfl rfl n.socket rfl n.succeeded
    · contradiction

/-! ### What keeps the owner going -/

/-- The connection owes a call that drives its owner, or the handler of a frame that greets. -/
def Moving (drives : Debt H K → Prop) (greets : H → Prop) (n : Net H K) : Prop :=
  (∃ p, drives p ∧ n.Owes p) ∨ ∃ h, greets h ∧ n.Owes (.write h)

/-- It moves, and no frame that greets can be forgotten. -/
structure Moves (drives : Debt H K → Prop) (greets : H → Prop) (n : Net H K) : Prop where
  on : n.Moving drives greets
  safe : n.Writable → n.Hazard → (∃ p, drives p ∧ n.Owes p) ∨ ∃ h, greets h ∧ n.Late h

variable {drives : Debt H K → Prop} {greets : H → Prop}

theorem moves_of_drives (drive : drives p) (owed : n.Owes p) : n.Moves drives greets :=
  ⟨.inl ⟨p, drive, owed⟩, fun _ _ => .inl ⟨p, drive, owed⟩⟩

theorem owes_all {q : Debt H K → Prop} (kept : ∀ p, q p → n.Owes p → m.Owes p)
    (owed : ∃ p, q p ∧ n.Owes p) : ∃ p, q p ∧ m.Owes p :=
  owed.imp fun p both => ⟨both.1, kept p both.1 both.2⟩

theorem moving_of_owes (kept : ∀ p, n.Owes p → m.Owes p) (moving : n.Moving drives greets) :
    m.Moving drives greets :=
  moving.imp (owes_all fun p _ => kept p) fun ⟨h, greet, owed⟩ => ⟨h, greet, kept _ owed⟩

theorem Moves.quiet (moves : n.Moves drives greets) (quiet : Quiet n m) : m.Moves drives greets := by
  refine ⟨moving_of_owes quiet.owes moves.on, fun able hazard => ?_⟩
  exact (moves.safe (quiet.writable able) (quiet.hazard able hazard)).imp (owes_all fun p _ => quiet.owes p)
    fun ⟨h, greet, late⟩ => ⟨h, greet, quiet.late h late⟩

theorem owes_late {h : H} (late : n.Late h) : n.Owes (.write h) := by
  obtain ⟨before, item, after, split, same, -⟩ := late
  refine .inr (.inr (.inl ⟨.enqueueWrite item, by simp [split], ?_⟩))
  simp [Task.debt?, WriteItem.debt?, same]

/-- The front item's frame is started, and what the queue holds is still owed. -/
theorem moves_startWrite {item : WriteItem H} {rest : List (WriteItem H)} (writes : ∀ h, ¬ drives (.write h))
    (free : n.writing = false) (queue : n.writeQueue = item :: rest)
    (on : n.Moving drives greets)
    (deferred : (∃ ec, .failPendingWrites ec ∈ n.ready) → (∃ p, drives p ∧ n.Owes p) ∨ ∃ h, greets h ∧ n.Late h)
    (clash : n.Overlapping → (∃ p, drives p ∧ n.Owes p) ∨ (∃ h, greets h ∧ n.Late h) ∨
      ∃ h, greets h ∧ ∃ item ∈ n.writeQueue, item.handler = some h) :
    (n.startWrite item rest).Moves drives greets := by
  have kept : (∃ p, drives p ∧ n.Owes p) → ∃ p, drives p ∧ (n.startWrite item rest).Owes p := by
    refine owes_all fun p drive owed => (owes_startWrite queue owed).resolve_right ?_
    rintro ⟨⟨h, rfl⟩, -⟩
    exact writes h drive
  have late : ∀ h, n.Late h → (n.startWrite item rest).Late h := fun h late => late
  refine ⟨?_, fun _ hazard => ?_⟩
  · rcases on with drive | ⟨h, greet, owed⟩
    · exact .inl (kept drive)
    rcases owes_startWrite queue owed with owed | ⟨-, flying⟩
    · exact .inr ⟨h, greet, owed⟩
    rcases clash ⟨free, flying⟩ with drive | ⟨other, greet, before⟩ | ⟨other, greet, waiting, among, same⟩
    · exact .inl (kept drive)
    · exact .inr ⟨other, greet, owes_late (late other before)⟩
    · have owed : waiting.debt? = some (.write other : Debt H K) := by simp [WriteItem.debt?, same]
      refine .inr ⟨other, greet, ?_⟩
      rw [queue] at among
      rcases List.mem_cons.mp among with rfl | later
      · exact .inr (.inr (.inr (.inr (.inr ⟨waiting, rfl, owed⟩))))
      · exact .inr (.inr (.inr (.inr (.inl ⟨waiting, later, owed⟩))))
  · rcases hazard with waiting | ⟨busy, -⟩
    · exact (deferred waiting).imp kept id
    · exact absurd busy nofun

/-- A deferral changes nothing, because the socket is not writable. -/
theorem moves_defer (on : n.Moving drives greets) (unable : ¬ n.Writable) (ec : AsioError) :
    (n.post (.failPendingWrites ec)).Moves drives greets := by
  exact ⟨moving_of_owes (fun p owed => (owes_post _).mpr (.inl owed)) on, fun able => (unable able).elim⟩

theorem moves_doWrite (writes : ∀ h, ¬ drives (.write h)) (moves : n.Moves drives greets) :
    n.doWrite.Moves drives greets := by
  have does := does_doWrite n
  generalize n.doWrite = m at does
  cases does with
  | rest => exact moves
  | defer free unable => exact moves_defer moves.on unable _
  | start item rest free queue able =>
    exact moves_startWrite writes free queue moves.on (fun waiting => moves.safe able (.inl waiting))
      fun clash => (moves.safe able (.inr clash)).imp_right .inl

theorem late_leaving {task : Task H K} {tail : List (Task H K)} {h : H} (front : n.ready = task :: tail)
    (late : n.Late h) : (n.leaving tail).Late h ∨
      ∃ item, task = .enqueueWrite item ∧ item.handler = some h ∧ ∀ ec, .failPendingWrites ec ∉ tail := by
  obtain ⟨before, item, after, split, same, clear⟩ := late
  cases before with
  | nil =>
    obtain ⟨rfl, rfl⟩ := List.cons.inj (front.symm.trans split)
    exact .inr ⟨item, rfl, same, clear⟩
  | cons first before =>
    obtain ⟨-, rfl⟩ := List.cons.inj (front.symm.trans split)
    exact .inl ⟨before, item, after, rfl, same, clear⟩

theorem moves_enqueueWrite {item : WriteItem H} {tail : List (Task H K)} (writes : ∀ h, ¬ drives (.write h))
    (shut : n.closed = true → n.inFlight = none) (front : n.ready = .enqueueWrite item :: tail)
    (moves : n.Moves drives greets) : ((n.leaving tail).enqueueWrite item).Moves drives greets := by
  have deferred : n.Writable → (∃ ec, .failPendingWrites ec ∈ tail) →
      (∃ p, drives p ∧ n.Owes p) ∨ ∃ h, greets h ∧ (n.leaving tail).Late h := by
    rintro able ⟨ec, among⟩
    refine (moves.safe able (.inl ⟨ec, by simp [front, among]⟩)).imp_right fun ⟨h, greet, late⟩ => ⟨h, greet, ?_⟩
    refine (late_leaving front late).resolve_right ?_
    rintro ⟨_, -, -, clear⟩
    exact clear ec among
  unfold enqueueWrite
  split
  · rename_i closed
    have owes : ∀ p, n.Owes p → ((n.leaving tail).post (.rejectWrite item)).Owes p := fun p owed =>
      (owes_post _).mpr ((owes_leaving front).mp owed)
    have kept := owes_all (q := drives) fun p _ => owes p
    refine ⟨moving_of_owes owes moves.on, fun able hazard => ?_⟩
    rcases hazard with ⟨ec, among⟩ | ⟨-, flying⟩
    · have waiting : .failPendingWrites ec ∈ tail :=
        (List.mem_append.mp among).resolve_right (harmless_one rfl ec)
      exact (deferred able ⟨ec, waiting⟩).imp kept fun ⟨h, greet, late⟩ =>
        ⟨h, greet, late_append (harmless_one rfl) rfl late⟩
    · have flying : n.inFlight.isSome = true := flying
      rw [shut closed] at flying
      contradiction
  · let queued : Net H K := { n.leaving tail with writeQueue := n.writeQueue ++ [item] }
    have owes : ∀ p, n.Owes p → queued.Owes p := by
      intro p owed
      have before := (owes_leaving front).mp owed
      simp only [Owes, leaving, queued, Task.debt?, List.mem_append, List.mem_singleton] at before ⊢
      grind
    have kept := owes_all (q := drives) fun p _ => owes p
    have on := moving_of_owes owes moves.on
    change (if !n.writing then queued.doWrite else queued).Moves drives greets
    by_cases busy : n.writing = true
    · simp only [busy, Bool.not_true, Bool.false_eq_true, if_false]
      refine ⟨on, fun able hazard => ?_⟩
      rcases hazard with waiting | ⟨free, -⟩
      · exact (deferred able waiting).imp kept id
      · cases busy.symm.trans free
    · have free : n.writing = false := by simpa using busy
      simp only [free, Bool.not_false, if_true]
      have does := does_doWrite queued
      generalize queued.doWrite = m at does
      cases does with
      | rest nothing =>
        rcases nothing with busy | none
        · cases free.symm.trans busy
        · exact absurd none (by simp [queued])
      | defer _ unable => exact moves_defer on unable _
      | start first rest _ queue able =>
        refine moves_startWrite writes free queue on (fun waiting => (deferred able waiting).imp kept id)
          fun clash => ?_
        rcases moves.safe able (.inr clash) with drive | ⟨h, greet, late⟩
        · exact .inl (kept drive)
        rcases late_leaving front late with later | ⟨_, same, mine, -⟩
        · exact .inr (.inl ⟨h, greet, later⟩)
        · obtain rfl := Task.enqueueWrite.inj same
          exact .inr (.inr ⟨h, greet, item, by simp [queued], mine⟩)

/-- A task runs that is no frame for the queue. -/
theorem quiet_ran {task : Task H K} {tail : List (Task H K)} (front : n.ready = task :: tail)
    (other : task.enqueued? = none) (quiet : Quiet (n.leaving tail) m) (owes : ∀ p, task.debt? = some p → m.Owes p) :
    Quiet n m := by
  refine ⟨fun p owed => ?_, quiet.writable, fun able hazard => ?_, fun h late => quiet.late h ?_⟩
  · exact ((owes_leaving front).mp owed).elim (quiet.owes p) (owes p)
  · rcases quiet.hazard able hazard with ⟨ec, among⟩ | clash
    · exact .inl ⟨ec, by rw [front]; exact .tail _ among⟩
    · exact .inr clash
  · refine (late_leaving front late).resolve_right ?_
    rintro ⟨item, rfl, -⟩
    contradiction

theorem moves_run (writes : ∀ h, ¬ drives (.write h)) (connects : ∀ h, n.Owes (.connect h) → drives (.connect h))
    (shut : n.closed = true → n.inFlight = none) (moves : n.Moves drives greets) (taken : n.run = some m) :
    m.Moves drives greets := by
  obtain ⟨-, task, tail, front, rfl⟩ := run_cases taken
  have invoked : ∀ (call : StackEntry H K), (∀ p, task.debt? = some p → call.debt? = some p) → task.enqueued? = none →
      Quiet n ((n.leaving tail).push [call]) := fun call same other =>
    quiet_ran front other (quiet_push _) fun p owed => (owes_push _).mpr (.inr ⟨call, by simp, same p owed⟩)
  have connecting : ∀ h, task.debt? = some (.connect h) → n.Owes (.connect h) := fun h owed =>
    (owes_leaving front).mpr (.inr owed)
  cases task with
  | enqueueWrite item => exact moves_enqueueWrite writes shut front moves
  | failPendingWrites ec =>
    refine moves.quiet ⟨fun p owed => ?_, id, fun _ _ => .inl ⟨ec, by simp [front]⟩, fun h late => ?_⟩
    · exact (owes_failPendingWrites ec).mpr (((owes_leaving front).mp owed).resolve_right nofun)
    · exact (late_leaving front late).resolve_right nofun
  | rejectWrite item =>
    exact moves.quiet (quiet_ran front rfl (quiet_push _) fun p owed =>
      (owes_push _).mpr (.inr ((owes_invocation item _).mpr owed)))
  | resolved h result =>
    cases result with
    | error ec => exact moves.quiet (invoked (.invoke (.connect h (some ec))) (fun _ => id) rfl)
    | ok rest =>
      exact moves_of_drives (connects h (connecting h rfl)) ((owes_connectEndpoint h rest).mpr (.inr rfl))
  | connected h rest socket ec =>
    exact moves_of_drives (connects h (connecting h rfl)) ((owes_onEndpoint h rest ec).mpr (.inr rfl))
  | written serial ec =>
    refine moves.quiet (quiet_ran front rfl ?_ nofun)
    have owes : ∀ p, (n.leaving tail).Owes p → ((n.leaving tail).onWritten ec).Owes p :=
      fun _ => (owes_onWritten ec).mpr
    unfold onWritten at owes
    change Quiet _ ((n.leaving tail).onWritten ec)
    unfold onWritten
    split at owes
    · exact .refl _
    · refine ⟨owes, id, fun _ hazard => ?_, fun _ => id⟩
      exact hazard.imp_right fun clash => absurd clash.2 nofun
  | read phase h result =>
    refine moves.quiet (quiet_ran front rfl ?_ fun p owed => (owes_onRead phase h result).mpr (.inr ?_))
    · change Quiet _ ((n.leaving tail).onRead phase h result)
      unfold onRead
      split
      · rename_i reading next count _
        have started := quiet_startRead { n.leaving tail with reading } next count h
        exact ⟨started.owes, started.writable, started.hazard, started.late⟩
      · rename_i reading ec packet _
        have posted : Quiet { n.leaving tail with reading } _ := quiet_post (x := .readHandler h ec packet) rfl
        exact ⟨posted.owes, posted.writable, posted.hazard, posted.late⟩
    · exact (Option.some.inj owed).symm
  | readHandler h ec packet => exact moves.quiet (invoked (.invoke (.read h ec packet)) (fun _ => id) rfl)
  | own k => exact moves.quiet (invoked (.own k) (fun _ => id) rfl)

theorem moves_afterWrite {ec : ErrorCode} {rest : List (StackEntry H K)} (writes : ∀ h, ¬ drives (.write h))
    (front : n.stack = .afterWrite ec :: rest) (moves : n.Moves drives greets) :
    ({ n with stack := rest }.afterWrite ec).Moves drives greets := by
  have popped : ({ n with stack := rest } : Net H K).Moves drives greets :=
    moves.quiet ⟨fun p owed => ((owes_popped front).mp owed).resolve_right nofun, id, fun _ => id, fun _ => id⟩
  cases ec with
  | some ec =>
    refine (popped.quiet (quiet_closeSocket _)).quiet ⟨fun p owed => ?_, fun able => absurd able.1 nofun,
      fun able => absurd able.1 nofun, fun _ => id⟩
    exact (owes_failPendingWrites ec).mpr owed
  | none =>
    unfold afterWrite
    dsimp only
    split
    · exact moves_doWrite writes popped
    · exact popped

/-! ### Nothing is made up -/

theorem owed_enqueueWrite {item : WriteItem H} (owes : (n.enqueueWrite item).Owes p) :
    n.Owes p ∨ item.debt? = some p := by
  have queued : ({ n with writeQueue := n.writeQueue ++ [item] } : Net H K).Owes p → n.Owes p ∨
      item.debt? = some p := by
    intro owes
    simp only [Owes, List.mem_append, List.mem_singleton] at owes ⊢
    grind
  unfold enqueueWrite at owes
  split at owes
  · exact (owes_post _).mp owes
  · dsimp only at owes
    split at owes
    · exact queued (owed_doWrite owes)
    · exact queued owes

theorem owed_run (taken : n.run = some m) (owes : m.Owes p) : n.Owes p := by
  obtain ⟨-, task, tail, front, rfl⟩ := run_cases taken
  rw [owes_leaving front]
  have pushed : ∀ call : StackEntry H K, call.debt? = task.debt? → ((n.leaving tail).push [call]).Owes p →
      (n.leaving tail).Owes p ∨ task.debt? = some p := by
    intro call same owes
    refine ((owes_push _).mp owes).imp_right fun ⟨entry, among, owed⟩ => ?_
    obtain rfl := List.mem_singleton.mp among
    exact same ▸ owed
  cases task with
  | enqueueWrite item => exact owed_enqueueWrite owes
  | failPendingWrites ec => exact .inl ((owes_failPendingWrites ec).mp owes)
  | rejectWrite item => exact ((owes_push _).mp owes).imp_right (owes_invocation item _).mp
  | resolved h result =>
    cases result with
    | error ec => exact pushed (.invoke (.connect h (some ec))) rfl owes
    | ok rest => exact ((owes_connectEndpoint h rest).mp owes).imp_right (congrArg some ·.symm)
  | connected h rest socket ec => exact ((owes_onEndpoint h rest ec).mp owes).imp_right (congrArg some ·.symm)
  | written serial ec => exact .inl ((owes_onWritten ec).mp owes)
  | read phase h result => exact ((owes_onRead phase h result).mp owes).imp_right (congrArg some ·.symm)
  | readHandler h ec packet => exact pushed (.invoke (.read h ec packet)) rfl owes
  | own k => exact pushed (.own k) rfl owes

theorem owed_afterWrite {ec : ErrorCode} (owes : (n.afterWrite ec).Owes p) : n.Owes p := by
  cases ec with
  | some ec =>
    have shut := (owes_failPendingWrites ec).mp owes
    exact owes_closeSocket.mp shut
  | none =>
    unfold afterWrite at owes
    dsimp only at owes
    split at owes
    · exact owed_doWrite owes
    · exact owes

theorem owed_completed {index : Nat} {op : SocketOp H} {task : Task H K} (found : n.ops[index]? = some op)
    (same : task.debt? = (op.debt? : Option (Debt H K))) (socket : Socket) (succeeded : List Nat)
    (owes : ({ n with ops := n.ops.eraseIdx index, socket, succeeded }.post task).Owes p) : n.Owes p := by
  have among := List.mem_of_getElem? found
  have fewer : ∀ op ∈ n.ops.eraseIdx index, op ∈ n.ops := fun _ => List.mem_of_mem_eraseIdx
  have before := (owes_post task).mp owes
  rw [same] at before
  simp only [Owes] at before ⊢
  grind

theorem owed_kernel {event : Event} (taken : n.kernel event = some m) (owes : m.Owes p) : n.Owes p := by
  cases event with
  | resolve index result =>
    obtain ⟨h, found, rfl⟩ := Option.map_eq_some_iff.mp taken
    have among := List.mem_of_getElem? found
    have fewer : ∀ h ∈ n.resolves.eraseIdx index, h ∈ n.resolves := fun _ => List.mem_of_mem_eraseIdx
    have before := (owes_post _).mp owes
    simp only [Owes, Task.debt?] at before ⊢
    grind
  | connect index ec =>
    simp only [kernel] at taken
    split at taken
    · obtain rfl := Option.some.inj taken
      exact owed_completed ‹_› rfl { n.socket with established := ec.isNone } n.succeeded owes
    · contradiction
  | send index count =>
    simp only [kernel] at taken
    split at taken
    · split at taken
      · rename_i serial unsent _ _
        obtain rfl := Option.some.inj taken
        have fewer : ∀ op ∈ n.ops.set index (.write serial (unsent.drop count)),
            op ∈ n.ops ∨ op = .write serial (unsent.drop count) := fun _ => List.mem_or_eq_of_mem_set
        simp only [Owes] at owes ⊢
        grind [SocketOp.debt?]
      · contradiction
    · contradiction
  | write index ec =>
    simp only [kernel] at taken
    split at taken
    · split at taken
      · obtain rfl := Option.some.inj taken
        exact owed_completed ‹_› rfl n.socket _ owes
      · contradiction
    · contradiction
  | read index result =>
    simp only [kernel] at taken
    split at taken
    · split at taken
      · obtain rfl := Option.some.inj taken
        exact owed_completed ‹_› rfl n.socket n.succeeded owes
      · contradiction
    · obtain rfl := Option.some.inj taken
      exact owed_completed ‹_› rfl n.socket n.succeeded owes
    · contradiction

end Net
end LiteMqtt
