import LiteMqtt.Client.Looping
import LiteMqtt.General.Ranking

/-!
# Tasks of the io thread end

Client code calls client code: a write that fails ends the session, which closes the connection, which fails further
writes, and so on. Each step of it uses something up: a packet, a write handler, the open session or a place in a
loop. So as long as the callbacks of the user do not connect anew or handle packets themselves, every task comes to
its end.
-/

namespace LiteMqtt

/-! ### What is used up -/

namespace StackEntry

/-- A posted task. -/
def job : StackEntry Handler Work → Nat
  | .own k => if k.isPosted then 1 else 0
  | _ => 0

/-- A packet to be handled. -/
def arrival : StackEntry Handler Work → Nat
  | .own (.handlePacket ..) => 1
  | .invoke (.read ..) => 2
  | _ => 0

/-- Calls of handlers to come, except those of the read handler. -/
def calls : StackEntry Handler Work → Nat
  | .invoke (.read ..) | .own _ => 0
  | .invoke _ | .afterWrite _ => 1
  | .closeHandler => 2

end StackEntry

/-- A call that neither connects anew nor handles a packet. -/
def Call.isModest : Call → Bool
  | .asyncConnect _ | .handlePacket _ | .handlePuback _ | .handlePubrec _ | .handlePubcomp _ | .handlePubrel _
  | .handleSuback _ | .handlePublish _ => false
  | _ => true

namespace Sys

variable {s t u : Sys} {topics : List Topic} {p : UInt16} {rest : List (StackEntry Handler Work)}
  {f : StackEntry Handler Work → Nat}

def tally (f : StackEntry Handler Work → Nat) (s : Sys) : Nat := (s.net.stack.map f).sum

/-- A write whose handler is still to be called has one call, and an open connection has its close handler. -/
def calls (s : Sys) : Nat :=
  s.tally StackEntry.calls + s.net.writeQueue.length + s.net.inFlight.toList.length + 2 * (!s.net.closed).toNat

def openSessions (s : Sys) : Nat := (!s.closed).toNat

/-- The places that the loop over the publishes has still to go through. -/
def publishesFrom (s : Sys) (p : UInt16) : Nat := s.pendingPublishes.weight fun e => if p ≤ e.1 then 3 else 0

/-- The callbacks and turns of the loop for one entry. -/
def filterTurns (e : UInt16 × PendingSubscribe) : Nat := 2 * e.2.filters.length + 3

def subscribesFrom (s : Sys) (p : UInt16) : Nat :=
  s.pendingSubscribes.weight fun e => if p ≤ e.1 then filterTurns e else 0

def subscribesAfter (s : Sys) (p : UInt16) : Nat :=
  s.pendingSubscribes.weight fun e => if p < e.1 then filterTurns e else 0

def allSubscribes (s : Sys) : Nat := s.pendingSubscribes.weight filterTurns

/-- More than the code that the work pushes has together. -/
def turns (s : Sys) : Work → Nat
  | .publishEach p => s.publishesFrom p + s.allSubscribes + 5
  | .publishCancel p => s.publishesFrom p + s.allSubscribes + 3
  | .publishClear => s.allSubscribes + 5
  | .subscribeEach p => s.subscribesFrom p + 4
  | .subscribeFilters p _ rest => 2 * rest.length + s.subscribesAfter p + 5
  | .subscribeClear | .finishPublishFailure _ => 3
  | .subackEach _ rest | .subscribeWritten _ _ rest => 2 * rest.length + 1
  | .notifyClose | .reportConnect .. | .reportPublish .. | .reportSubscribe .. | .onClosed => 2
  | .user | .startReadLoop _ | .acknowledge .. | .notifyClosedOnce => 1
  | .asyncPublishImpl .. | .asyncSubscribeImpl .. | .timer .. | .handlePacket .. => 0

def load (s : Sys) : Nat := (s.net.running.map s.turns).sum

def rank (s : Sys) : Ranking.Five :=
  (s.tally StackEntry.job, s.tally StackEntry.arrival, s.calls, s.openSessions, s.load)

theorem rank_lower_iff : Ranking.Five.Lower t.rank s.rank ↔
    t.tally StackEntry.job < s.tally StackEntry.job ∨ t.tally StackEntry.job = s.tally StackEntry.job ∧
      (t.tally StackEntry.arrival < s.tally StackEntry.arrival ∨
        t.tally StackEntry.arrival = s.tally StackEntry.arrival ∧
          (t.calls < s.calls ∨ t.calls = s.calls ∧
            (t.openSessions < s.openSessions ∨ t.openSessions = s.openSessions ∧ t.load < s.load))) :=
  Ranking.lower_iff

/-! ### What the code brings -/

theorem tally_push (s : Sys) (k : Work) : (s.push [k]).tally f = f (.own k) + s.tally f := rfl

theorem tally_invocations {n : Nat} (each : ∀ serial h ec, f (.invoke (.write serial h ec)) ≤ n)
    (items : List (WriteItem Handler)) (ec : ErrorCode) :
    ((items.flatMap fun item => item.invocation ec).map f).sum ≤ n * items.length := by
  induction items with
  | nil => simp
  | cons item items ih =>
    have one : ((item.invocation ec).map f).sum ≤ n := by
      unfold WriteItem.invocation
      split
      · exact Nat.zero_le n
      · simpa using each _ _ _
    simp only [List.flatMap_cons, List.map_append, List.sum_append, List.length_cons, Nat.mul_add, Nat.mul_one] at ih ⊢
    omega

/-- Closing a connection calls the handlers of its writes, and its close handler. -/
theorem tally_close {n : Net Handler Work} (shut : n.closed = false) (f : StackEntry Handler Work → Nat) :
    (n.close.stack.map f).sum =
      ((n.writeQueue.flatMap fun item => item.invocation (some .operationAborted)).map f).sum +
        (((n.inFlight.toList.flatMap fun item => item.invocation (some .operationAborted)).map f).sum +
          (f .closeHandler + (n.stack.map f).sum)) := by
  simp [Net.close, shut, Net.failPendingWrites, Net.push, Net.closeSocket, List.sum_append]

theorem tally_closeConnection (writes : ∀ serial h ec, f (.invoke (.write serial h ec)) = 0)
    (closing : f .closeHandler = 0) (s : Sys) : s.closeConnection.tally f = s.tally f := by
  unfold closeConnection
  split
  · rfl
  rename_i opened
  have shut : s.net.closed = false := by simpa using opened
  have light : ∀ items : List (WriteItem Handler),
      ((items.flatMap fun item => item.invocation (some .operationAborted)).map f).sum = 0 := fun items =>
    Nat.le_zero.mp (Nat.zero_mul items.length ▸ tally_invocations (fun i h ec => (writes i h ec).le) items _)
  change (s.net.close.stack.map f).sum = _
  rw [tally_close shut, light, light, closing, Nat.zero_add, Nat.zero_add, Nat.zero_add]
  rfl

theorem calls_closeConnection (s : Sys) : s.closeConnection.calls ≤ s.calls := by
  unfold closeConnection
  split
  · exact le_rfl
  rename_i opened
  have shut : s.net.closed = false := by simpa using opened
  have light : ∀ items : List (WriteItem Handler), ((items.flatMap fun item =>
      item.invocation (some .operationAborted)).map StackEntry.calls).sum ≤ items.length := fun items =>
    Nat.one_mul items.length ▸ tally_invocations (fun _ _ _ => le_rfl) items _
  have queued := light s.net.writeQueue
  have flying := light s.net.inFlight.toList
  have emptied : s.net.close.writeQueue = [] ∧ s.net.close.inFlight = Option.none ∧ s.net.close.closed = true := by
    simp [Net.close, shut, Net.failPendingWrites, Net.push, Net.closeSocket]
  have stack := tally_close shut StackEntry.calls
  simp only [calls, tally, record, emptied, shut, List.length_nil, Option.toList_none, Bool.not_true, Bool.not_false,
    Bool.toNat_true, Bool.toNat_false, StackEntry.calls] at stack ⊢
  omega

theorem tally_apply {e : Effect} (writes : ∀ serial h ec, f (.invoke (.write serial h ec)) = 0)
    (closing : f .closeHandler = 0) (pushed : ∀ k, e = .push k → f (.own k) = 0) :
    (s.apply e).tally f = s.tally f := by
  cases e with
  | push k =>
    change (s.push [k]).tally f = _
    rw [tally_push, pushed k rfl, Nat.zero_add]
  | closeConnection => exact tally_closeConnection writes closing s
  | startReadLoop attempt =>
    change (List.map f (s.net.asyncReadPacket _).stack).sum = _
    rw [asyncReadPacket_stack]
    rfl
  | asyncConnect callback =>
    change (List.map f (s.asyncConnect callback).net.stack).sum = _
    rw [asyncConnect_stack]
    rfl
  | _ => rfl

theorem jobs_does (does : Does topics s t) : t.tally StackEntry.job = s.tally StackEntry.job := by
  refine does.keeps (I := fun u => u.tally StackEntry.job = s.tally StackEntry.job) (fun u e inside same => ?_) rfl
  refine (tally_apply (fun _ _ _ => rfl) rfl fun k pushed => ?_).trans same
  subst pushed
  have called : k.isPosted = false := by simpa [Effect.fits] using Effect.fits_of_within inside
  simp [StackEntry.job, called]

theorem arrivals_does (does : Does topics s t) (absent : Topic.packet ∉ topics) :
    t.tally StackEntry.arrival = s.tally StackEntry.arrival := by
  refine does.keeps (I := fun u => u.tally StackEntry.arrival = s.tally StackEntry.arrival)
    (fun u e inside same => ?_) rfl
  refine (tally_apply (fun _ _ _ => rfl) rfl fun k pushed => ?_).trans same
  subst pushed
  have other : k.topic ≠ some .packet := Effect.topic_of_within inside absent
  cases k with
  | handlePacket => exact absurd rfl other
  | _ => rfl

theorem asyncReadPacket_writes (n : Net Handler Work) (h : Handler) : (n.asyncReadPacket h).writeQueue = n.writeQueue ∧
    (n.asyncReadPacket h).inFlight = n.inFlight ∧ (n.asyncReadPacket h).closed = n.closed := by
  unfold Net.asyncReadPacket Net.startRead
  split
  · split <;> exact ⟨rfl, rfl, rfl⟩
  · exact ⟨rfl, rfl, rfl⟩

theorem calls_does (does : Does topics s t) (absent : Topic.connect ∉ topics) :
    t.calls ≤ s.calls ∧ t.openSessions ≤ s.openSessions := by
  refine does.keeps (I := fun u => u.calls ≤ s.calls ∧ u.openSessions ≤ s.openSessions)
    (fun u e inside => And.imp (le_trans ?_) (le_trans ?_)) ⟨le_rfl, le_rfl⟩
  · cases e with
    | closeConnection => exact calls_closeConnection u
    | startReadLoop attempt =>
      obtain ⟨queue, flying, shut⟩ := asyncReadPacket_writes u.net (.read attempt)
      have stack := asyncReadPacket_stack u.net (.read attempt)
      simp [apply, startReadLoop, calls, tally, queue, flying, shut, stack]
    | asyncConnect | accept => exact absurd rfl (Effect.topic_of_within inside absent)
    | push k => simp [apply, calls, tally, push, Net.push, StackEntry.calls]
    | _ => exact le_rfl
  · cases e with
    | asyncConnect | accept => exact absurd rfl (Effect.topic_of_within inside absent)
    | setClosed => exact Nat.zero_le _
    | closeConnection =>
      change (closeConnection u).openSessions ≤ _
      unfold closeConnection
      split <;> exact le_rfl
    | _ => exact le_rfl

/-! ### Turns of the loops -/

/-- No entry is added to a map that a loop goes through. -/
def Fewer (s t : Sys) : Prop :=
  (∀ w, t.pendingPublishes.weight w ≤ s.pendingPublishes.weight w) ∧
    ∀ w, t.pendingSubscribes.weight w ≤ s.pendingSubscribes.weight w

theorem turns_fewer (fewer : Fewer s t) (k : Work) : t.turns k ≤ s.turns k := by
  obtain ⟨publishes, subscribes⟩ := fewer
  cases k with
  | publishEach p | publishCancel p =>
    exact Nat.add_le_add_right (Nat.add_le_add (publishes _) (subscribes _)) _
  | publishClear | subscribeEach => exact Nat.add_le_add_right (subscribes _) _
  | subscribeFilters => exact Nat.add_le_add_right (Nat.add_le_add_left (subscribes _) _) _
  | _ => exact le_rfl

theorem load_fewer (fewer : Fewer s t) (running : t.net.running = s.net.running) : t.load ≤ s.load := by
  rw [load, running]
  exact List.sum_le_sum fun k _ => turns_fewer fewer k

theorem load_push (s : Sys) (k : Work) : (s.push [k]).load = s.turns k + s.load := rfl

theorem load_cancelTimer (s : Sys) (timer : Nat) : (s.cancelTimer timer).load = s.load := rfl

theorem load_crash (s : Sys) : s.crash.load = s.load := rfl

theorem load_closeConnection (s : Sys) : s.closeConnection.load = s.load := by
  have running := (closeConnection_tame s).running
  have maps : s.closeConnection.turns = s.turns := by
    unfold closeConnection
    split <;> rfl
  rw [load, load, running, maps]

theorem load_tellPublish (s : Sys) (cb : Callback) (ok : Bool) (topic : Bytes) (qos : UInt8) (p : UInt16) :
    (s.tellPublish cb ok topic qos p).load ≤ s.load + 1 := by
  unfold tellPublish
  split
  · exact (Nat.add_comm ..).le
  · exact Nat.le_succ _

theorem load_tellSubscribe (s : Sys) (cb : Callback) (ok : Bool) (topic : Bytes) (qos : UInt8) :
    (s.tellSubscribe cb ok topic qos).load ≤ s.load + 1 := by
  unfold tellSubscribe
  split
  · exact (Nat.add_comm ..).le
  · exact Nat.le_succ _

theorem load_reportConnect (s : Sys) (ok : Bool) (rc : UInt8) : (s.reportConnect ok rc).load ≤ s.load + 1 := by
  unfold reportConnect
  split
  · exact (Nat.add_comm ..).le
  · exact Nat.le_succ _

theorem load_notifyClose (s : Sys) : s.notifyClose.load ≤ s.load + 1 := by
  unfold notifyClose
  split
  · exact (Nat.add_comm ..).le
  · exact Nat.le_succ _

theorem weight_publishes_erase (s : Sys) (p : UInt16) :
    Fewer s { s with pendingPublishes := s.pendingPublishes.erase p } :=
  ⟨fun _ => OrderedMap.weight_erase_le p, fun _ => le_rfl⟩

/-- What an iterator has behind it, it does not go through again. -/
theorem publishes_next {next : UInt16} {entry : PendingPublish} (found : s.pendingPublishes.find? p = some entry)
    (above : p < next) : s.publishesFrom next + 3 ≤ s.publishesFrom p := by
  refine OrderedMap.weight_gap found (fun e _ => ?_) ?_
  · split
    · rw [if_pos (above.le.trans ‹_›)]
    · exact Nat.zero_le _
  · rw [if_neg (not_le.mpr above), if_pos le_rfl]

theorem publishes_last {entry : PendingPublish} (found : s.pendingPublishes.find? p = some entry) :
    3 ≤ s.publishesFrom p := by
  have gap := OrderedMap.weight_gap (w := fun _ => 0) (x := fun e => if p ≤ e.1 then 3 else 0) (d := 3) found
    (fun _ _ => Nat.zero_le _) (by rw [if_pos le_rfl])
  exact (Nat.le_add_left ..).trans gap

theorem subscribes_entry {entry : PendingSubscribe} (found : s.pendingSubscribes.find? p = some entry) :
    s.subscribesAfter p + (2 * entry.filters.length + 3) ≤ s.subscribesFrom p := by
  refine OrderedMap.weight_gap found (fun e _ => ?_) ?_
  · split
    · rename_i above
      rw [if_pos above.le]
    · exact Nat.zero_le _
  · rw [if_neg (lt_irrefl p), if_pos le_rfl, Nat.zero_add]
    exact le_rfl

theorem subscribes_next {next : UInt16} (above : p < next) : s.subscribesFrom next ≤ s.subscribesAfter p := by
  refine OrderedMap.weight_le fun e _ => ?_
  split
  · rw [if_pos (above.trans_le ‹_›)]
  · exact Nat.zero_le _

theorem subscribes_all (s : Sys) (p : UInt16) : s.subscribesFrom p ≤ s.allSubscribes := by
  refine OrderedMap.weight_le fun e _ => ?_
  split
  · exact le_rfl
  · exact Nat.zero_le _

/-! ### Each piece of code takes a turn -/

theorem load_notifyClosedOnce (closed : s.closed = true) : s.notifyClosedOnce.load = s.load := by
  rw [notifyClosedOnce, if_pos closed]

theorem load_publishEach (s : Sys) (p : UInt16) : (s.publishEach p).load < s.turns (.publishEach p) + s.load := by
  unfold publishEach
  split
  · rw [load_crash]
    exact Nat.lt_add_of_pos_left (Nat.succ_pos _)
  · have told := load_tellPublish (s.push [.publishCancel p])
    simp only [load_push, turns] at told ⊢
    refine lt_of_le_of_lt (told ..) ?_
    omega

theorem load_publishCancel (s : Sys) (p : UInt16) :
    (s.publishCancel p).load < s.turns (.publishCancel p) + s.load := by
  unfold publishCancel
  split
  · rw [load_crash]
    exact Nat.lt_add_of_pos_left (Nat.succ_pos _)
  rename_i entry found
  split
  · rename_i next behind
    have fewer := publishes_next found (OrderedMap.find?_of_next? behind).1
    rw [load_push, load_cancelTimer]
    change s.publishesFrom next + s.allSubscribes + 5 + _ < s.publishesFrom p + s.allSubscribes + 3 + _
    omega
  · have last := publishes_last found
    rw [load_push, load_cancelTimer]
    change s.allSubscribes + 5 + _ < s.publishesFrom p + s.allSubscribes + 3 + _
    omega

theorem load_cancelTimers (s : Sys) (timers : List Nat) :
    (s.cancelTimers timers).load = s.load ∧ (s.cancelTimers timers).pendingSubscribes = s.pendingSubscribes := by
  induction timers generalizing s with
  | nil => exact ⟨rfl, rfl⟩
  | cons timer timers ih => exact ih (s.cancelTimer timer)

theorem load_publishClear (s : Sys) : s.publishClear.load < s.turns .publishClear + s.load := by
  unfold publishClear
  dsimp only
  obtain ⟨load, subscribes⟩ := load_cancelTimers s (s.pendingPublishes.entries.map fun e => e.2.timer)
  generalize s.cancelTimers _ = u at load subscribes ⊢
  obtain ⟨again, also⟩ := load_cancelTimers u (u.pendingPubrecs.entries.map fun e => e.2.timer)
  generalize u.cancelTimers _ = v at again also ⊢
  have cleared := load_fewer (s := v) (t := { v with pendingPublishes := .empty, pendingPubrecs := .empty })
    ⟨fun _ => Nat.zero_le _, fun _ => le_rfl⟩ rfl
  generalize within : { v with pendingPublishes := .empty, pendingPubrecs := .empty } = w at cleared ⊢
  have all : w.allSubscribes = s.allSubscribes := by
    rw [← within, allSubscribes, allSubscribes, ← subscribes, ← also]
  split
  · rename_i p _
    have places := subscribes_all w p
    rw [load_push]
    simp only [turns]
    omega
  · rw [load_push]
    simp only [turns]
    omega

theorem load_subscribeEach (s : Sys) (p : UInt16) : (s.subscribeEach p).load < s.turns (.subscribeEach p) + s.load := by
  unfold subscribeEach
  split
  · rw [load_crash]
    exact Nat.lt_add_of_pos_left (Nat.succ_pos _)
  rename_i entry found
  have places := subscribes_entry found
  have filters : (if entry.callback.callable then entry.filters else []).length ≤ entry.filters.length := by
    split
    · exact le_rfl
    · exact Nat.zero_le _
  rw [load_push]
  simp only [turns]
  omega

theorem load_subscribeFilters (s : Sys) (p : UInt16) (cb : Callback) (filters : List (Bytes × UInt8)) :
    (s.subscribeFilters p cb filters).load < s.turns (.subscribeFilters p cb filters) + s.load := by
  unfold subscribeFilters
  split
  · cases filters with
    | cons first filters =>
      have told := load_tellSubscribe (s.push [.subscribeFilters p cb filters])
      simp only [load_push, turns, List.length_cons] at told ⊢
      refine lt_of_le_of_lt (told ..) ?_
      omega
    | nil =>
      dsimp only
      split
      · rename_i next behind
        have fewer := subscribes_next (s := s) (OrderedMap.find?_of_next? behind).1
        rw [load_push]
        simp only [turns, List.length_nil]
        omega
      · rw [load_push]
        simp only [turns, List.length_nil]
        omega
  · rw [load_crash]
    exact Nat.lt_add_of_pos_left (Nat.succ_pos _)

theorem load_subscribeClear (s : Sys) : s.subscribeClear.load < s.turns .subscribeClear + s.load := by
  unfold subscribeClear
  have cleared : { s with pendingSubscribes := .empty }.load ≤ s.load :=
    load_fewer ⟨fun _ => le_rfl, fun _ => Nat.zero_le _⟩ rfl
  rw [load_closeConnection, load_push]
  simp only [turns]
  omega

theorem load_finishPublishFailure (s : Sys) (p : UInt16) :
    (s.finishPublishFailure p).load < s.turns (.finishPublishFailure p) + s.load := by
  unfold finishPublishFailure
  split
  · rw [load_push]
    simp only [turns]
    omega
  · have cancelled : (s.cancelPublishRetryTimer p).load = s.load := by
      unfold cancelPublishRetryTimer
      split <;> rfl
    have erased := load_fewer (weight_publishes_erase (s.cancelPublishRetryTimer p) p) rfl
    have told := load_tellPublish ({ s.cancelPublishRetryTimer p with
      pendingPublishes := (s.cancelPublishRetryTimer p).pendingPublishes.erase p }.push [.notifyClosedOnce])
    simp only [load_push, turns] at told ⊢
    refine lt_of_le_of_lt (told ..) ?_
    omega

theorem load_subackEach (s : Sys) (cb : Callback) (codes : List (Bytes × UInt8)) :
    (s.subackEach cb codes).load < s.turns (.subackEach cb codes) + s.load := by
  cases codes with
  | nil => exact Nat.lt_add_of_pos_left Nat.one_pos
  | cons first codes =>
    have told := load_tellSubscribe (s.push [.subackEach cb codes])
    simp only [load_push, turns, List.length_cons] at told ⊢
    refine lt_of_le_of_lt (told ..) ?_
    omega

theorem load_subscribeWritten (s : Sys) (p : UInt16) (cb : Callback) (filters : List (Bytes × UInt8)) :
    (s.subscribeWritten p cb filters).load < s.turns (.subscribeWritten p cb filters) + s.load := by
  cases filters with
  | nil => exact Nat.lt_add_of_pos_left Nat.one_pos
  | cons first filters =>
    unfold subscribeWritten
    dsimp only
    split
    · have told := load_tellSubscribe (s.push [.subscribeWritten p cb filters])
      simp only [load_push, turns, List.length_cons] at told ⊢
      refine lt_of_le_of_lt (told ..) ?_
      omega
    · rw [load_crash]
      exact Nat.lt_add_of_pos_left (Nat.succ_pos _)

/-- A session that is open ends with `notify_closed_once`, and all other code takes a turn. -/
theorem load_execute {k : Work} (called : k.isPosted = false) (other : k.topic ≠ some .packet)
    (ended : k = .notifyClosedOnce → s.closed = true) : (s.execute k).load < s.turns k + s.load := by
  have turn : ∀ {t : Sys}, t.load ≤ s.load + 1 → s.turns k = 2 → t.load < s.turns k + s.load := by
    intro t told two
    omega
  cases k with
  | asyncPublishImpl | asyncSubscribeImpl | timer => simp [Work.isPosted] at called
  | handlePacket => exact absurd rfl other
  | user => exact Nat.lt_add_of_pos_left Nat.one_pos
  | startReadLoop attempt =>
    have running : (s.startReadLoop attempt).net.running = s.net.running :=
      congrArg (List.filterMap StackEntry.own?) (asyncReadPacket_stack s.net _)
    have kept := load_fewer (s := s) (t := s.startReadLoop attempt) ⟨fun _ => le_rfl, fun _ => le_rfl⟩ running
    exact kept.trans_lt (Nat.lt_add_of_pos_left Nat.one_pos)
  | acknowledge qos p =>
    have same : (s.acknowledge qos p).load = s.load := by
      unfold acknowledge
      split
      · rfl
      · split <;> rfl
    exact same.trans_lt (Nat.lt_add_of_pos_left Nat.one_pos)
  | notifyClosedOnce => exact (load_notifyClosedOnce (ended rfl)).trans_lt (Nat.lt_add_of_pos_left Nat.one_pos)
  | publishEach p => exact load_publishEach s p
  | publishCancel p => exact load_publishCancel s p
  | publishClear => exact load_publishClear s
  | subscribeEach p => exact load_subscribeEach s p
  | subscribeFilters p cb filters => exact load_subscribeFilters s p cb filters
  | subscribeClear => exact load_subscribeClear s
  | notifyClose => exact turn (load_notifyClose s) rfl
  | finishPublishFailure p => exact load_finishPublishFailure s p
  | subackEach cb codes => exact load_subackEach s cb codes
  | subscribeWritten p cb filters => exact load_subscribeWritten s p cb filters
  | reportConnect ok rc => exact turn (load_reportConnect s ok rc) rfl
  | reportPublish cb topic qos => exact turn (load_tellPublish s _ _ _ _ _) rfl
  | reportSubscribe cb topic => exact turn (load_tellSubscribe s _ _ _ _) rfl
  | onClosed => exact turn (Nat.add_comm ..).le rfl

/-! ### Every step of a task -/

theorem calls_reportConnect (s : Sys) (ok : Bool) (rc : UInt8) :
    (s.reportConnect ok rc).calls = s.calls ∧ (s.reportConnect ok rc).openSessions = s.openSessions := by
  unfold reportConnect
  split
  · refine ⟨?_, rfl⟩
    simp [calls, tally, push, Net.push, record, StackEntry.calls]
  · exact ⟨rfl, rfl⟩

theorem calls_execute {k : Work} (called : k.isPosted = false) (other : k.topic ≠ some .packet) :
    (s.execute k).calls ≤ s.calls ∧ (s.execute k).openSessions ≤ s.openSessions := by
  have does := does_execute s k
  cases k with
  | asyncPublishImpl | asyncSubscribeImpl | timer => simp [Work.isPosted] at called
  | handlePacket => exact absurd rfl other
  | reportConnect ok rc =>
    obtain ⟨calls, sessions⟩ := calls_reportConnect s ok rc
    exact ⟨calls.le, sessions.le⟩
  | _ => exact calls_does does (by simp [workTopics])

theorem calls_onInvoke (call : Invocation Handler) :
    (s.onInvoke call).calls ≤ s.calls := by
  have does := does_onInvoke s call
  cases call with
  | connect handler ec =>
    cases handler with
    | connect attempt =>
      change (s.onConnect attempt ec).calls ≤ _
      unfold onConnect
      split
      · exact le_rfl
      · split
        · exact (calls_reportConnect s _ _).1.le
        · exact le_rfl
    | _ => exact le_rfl
  | write serial handler ec =>
    refine (calls_does does ?_).1
    cases handler <;> simp [invocationTopics]
  | _ => exact (calls_does does (by simp [invocationTopics])).1

theorem arrivals_onRead (s : Sys) (attempt : Nat) (ec : ErrorCode) (data : Bytes) :
    (s.onRead attempt ec data).tally StackEntry.arrival ≤ s.tally StackEntry.arrival + 1 := by
  unfold onRead
  split
  · rw [tally_push]
    exact (Nat.zero_add _).le.trans (Nat.le_succ _)
  · simp [tally, push, Net.push, StackEntry.arrival]
    omega

theorem calls_afterWrite (s : Sys) (ec : ErrorCode) :
    ({ s with net := s.net.afterWrite ec } : Sys).calls ≤ s.calls := by
  cases ec with
  | some ec =>
    have light : ((s.net.writeQueue.flatMap fun item => item.invocation (some ec)).map StackEntry.calls).sum ≤
        s.net.writeQueue.length := Nat.one_mul s.net.writeQueue.length ▸ tally_invocations (fun _ _ _ => le_rfl) _ _
    simp only [calls, tally, Net.afterWrite, Net.failPendingWrites, Net.push, Net.closeSocket, List.map_append,
      List.sum_append, List.length_nil]
    omega
  | none =>
    unfold Net.afterWrite Net.doWrite
    dsimp only
    split
    · split
      · exact le_rfl
      split
      · exact le_rfl
      · rename_i item queue front
        split
        · exact le_rfl
        · simp only [calls, tally, Net.startWrite, front, List.length_cons, Option.toList_some, List.length_nil]
          omega
    · exact le_rfl

theorem tally_front {entry : StackEntry Handler Work} (front : s.net.stack = entry :: rest)
    (f : StackEntry Handler Work → Nat) : s.tally f = f entry + (s.goesOn rest).tally f := by
  rw [tally, front]
  rfl

theorem calls_front {entry : StackEntry Handler Work} (front : s.net.stack = entry :: rest) :
    s.calls = entry.calls + (s.goesOn rest).calls := by
  rw [calls, tally_front front, Nat.add_assoc, Nat.add_assoc, Nat.add_assoc]
  simp [calls, goesOn, Nat.add_assoc]

theorem falls_work {k : Work} (front : s.net.stack = .own k :: rest) :
    Ranking.Five.Lower ((s.goesOn rest).execute k).rank s.rank := by
  have calls : s.calls = (s.goesOn rest).calls := (calls_front front).trans (Nat.zero_add _)
  have load : s.load = (s.goesOn rest).turns k + (s.goesOn rest).load := by
    rw [load, goesOn_running front]
    rfl
  have jobs := jobs_does (does_execute (s.goesOn rest) k)
  have arrivals := arrivals_does (does_execute (s.goesOn rest) k) fun among =>
    absurd (workTopics_few k among) (by decide)
  rw [rank_lower_iff, tally_front front, tally_front front, jobs, arrivals]
  by_cases posted : k.isPosted = true
  · left
    simp [StackEntry.job, posted]
  have called : k.isPosted = false := by simpa using posted
  rw [StackEntry.job, if_neg posted, Nat.zero_add]
  refine .inr ⟨rfl, ?_⟩
  by_cases packet : k.topic = some .packet
  · left
    cases k with
    | handlePacket => exact Nat.lt_add_of_pos_left Nat.one_pos
    | _ => simp [Work.topic] at packet
  have light : StackEntry.arrival (.own k) = 0 := by
    cases k with
    | handlePacket => exact absurd rfl packet
    | _ => rfl
  obtain ⟨fewer, sessions⟩ := calls_execute (s := s.goesOn rest) called packet
  rw [light, Nat.zero_add]
  refine .inr ⟨rfl, ?_⟩
  by_cases ends : k = .notifyClosedOnce ∧ s.closed = false
  · obtain ⟨rfl, opened⟩ := ends
    have before : s.openSessions = 1 := by simp [openSessions, opened]
    have after : (s.goesOn rest).notifyClosedOnce.openSessions = 0 := by
      rw [openSessions, notifyClosedOnce, if_neg (by simp [goesOn, opened])]
      dsimp only
      split <;> rfl
    change (s.goesOn rest).notifyClosedOnce.calls ≤ _ at fewer
    change (s.goesOn rest).notifyClosedOnce.calls < _ ∨ (s.goesOn rest).notifyClosedOnce.calls = _ ∧
      ((s.goesOn rest).notifyClosedOnce.openSessions < _ ∨ _)
    omega
  · have lighter := load_execute (s := s.goesOn rest) called packet fun same => by
      simpa [goesOn] using fun opened => ends ⟨same, opened⟩
    change _ ≤ s.openSessions at sessions
    omega

theorem falls_invoke {call : Invocation Handler} (front : s.net.stack = .invoke call :: rest) :
    Ranking.Five.Lower ({ s with net := (s.goesOn rest).net.recordCall call }.onInvoke call).rank s.rank := by
  let called : Sys := { s with net := (s.goesOn rest).net.recordCall call }
  change Ranking.Five.Lower (called.onInvoke call).rank s.rank
  have shorter : ∀ f : StackEntry Handler Work → Nat, s.tally f = f (.invoke call) + called.tally f := by
    intro f
    rw [tally, front]
    cases call <;> rfl
  have jobs := jobs_does (does_onInvoke called call)
  have light : StackEntry.job (.invoke call) = 0 := rfl
  rw [rank_lower_iff, shorter, shorter, jobs, light, Nat.zero_add]
  refine .inr ⟨rfl, ?_⟩
  have calls : s.calls = StackEntry.calls (.invoke call) + called.calls := by
    rw [calls, shorter]
    cases call <;> simp [called, Sys.calls, goesOn, Net.recordCall, Nat.add_assoc]
  have fewer := calls_onInvoke (s := called) call
  have arrivals := arrivals_does (does_onInvoke called call)
  cases call with
  | read handler ec packet =>
    left
    change _ < 2 + _
    cases handler with
    | read attempt =>
      have arrived := arrivals_onRead called attempt ec packet
      change (called.onRead attempt ec packet).tally _ < _
      omega
    | _ => exact Nat.lt_add_of_pos_left Nat.two_pos
  | write serial handler ec =>
    have same := arrivals (by cases handler <;> simp [invocationTopics])
    refine .inr ⟨same.trans (Nat.zero_add _).symm, .inl ?_⟩
    change _ = 1 + _ at calls
    omega
  | connect | closed =>
    have same := arrivals (by simp [invocationTopics])
    refine .inr ⟨same.trans (Nat.zero_add _).symm, .inl ?_⟩
    change _ = 1 + _ at calls
    omega

theorem falls_called (jobs : t.tally StackEntry.job = s.tally StackEntry.job)
    (arrivals : t.tally StackEntry.arrival = s.tally StackEntry.arrival) (calls : t.calls < s.calls) :
    Ranking.Five.Lower t.rank s.rank := rank_lower_iff.mpr (.inr ⟨jobs, .inr ⟨arrivals, .inl calls⟩⟩)

theorem tally_afterWrite (writes : ∀ serial h ec, f (.invoke (.write serial h ec)) = 0) (s : Sys) (ec : ErrorCode) :
    ({ s with net := s.net.afterWrite ec } : Sys).tally f = s.tally f := by
  cases ec with
  | some ec =>
    have light : ((s.net.writeQueue.flatMap fun item => item.invocation (some ec)).map f).sum = 0 :=
      Nat.le_zero.mp (Nat.zero_mul s.net.writeQueue.length ▸ tally_invocations (fun i h ec => (writes i h ec).le) _ _)
    simp only [tally, Net.afterWrite, Net.failPendingWrites, Net.push, Net.closeSocket, List.map_append,
      List.sum_append, light, Nat.zero_add]
  | none =>
    unfold Net.afterWrite Net.doWrite
    dsimp only
    split
    · split
      · rfl
      split
      · rfl
      · split <;> rfl
    · rfl

theorem falls_afterWrite {ec : ErrorCode} (front : s.net.stack = .afterWrite ec :: rest) :
    Ranking.Five.Lower ({ s with net := (s.goesOn rest).net.afterWrite ec } : Sys).rank s.rank := by
  have same : ∀ f : StackEntry Handler Work → Nat, (∀ serial h ec, f (.invoke (.write serial h ec)) = 0) →
      f (.afterWrite ec) = 0 → ({ s with net := (s.goesOn rest).net.afterWrite ec } : Sys).tally f = s.tally f := by
    intro f writes light
    rw [tally_front front, light, Nat.zero_add]
    exact tally_afterWrite writes (s.goesOn rest) ec
  have fewer := calls_front front
  change _ = 1 + _ at fewer
  refine falls_called (same _ (fun _ _ _ => rfl) rfl) (same _ (fun _ _ _ => rfl) rfl) ?_
  exact lt_of_le_of_lt (calls_afterWrite (s.goesOn rest) ec) (by omega)

theorem falls_closeHandler (front : s.net.stack = .closeHandler :: rest) :
    Ranking.Five.Lower ({ s with
      net := (s.goesOn rest).net.push (s.net.closeHandler.toList.map fun h => .invoke (.closed h)) } : Sys).rank
      s.rank := by
  have fewer := calls_front front
  change _ = 2 + _ at fewer
  refine falls_called ?_ ?_ ?_
  · rw [tally_front front]
    cases s.net.closeHandler <;> simp [tally, Net.push, goesOn, StackEntry.job]
  · rw [tally_front front]
    cases s.net.closeHandler <;> simp [tally, Net.push, goesOn, StackEntry.arrival]
  · rw [fewer]
    cases s.net.closeHandler with
    | none =>
      simp only [calls, tally, Net.push, goesOn, Option.toList_none, List.map_nil, List.nil_append]
      omega
    | some h =>
      simp only [calls, tally, Net.push, goesOn, Option.toList_some, List.map_cons, List.map_nil, List.cons_append,
        List.nil_append, List.sum_cons, StackEntry.calls]
      omega

/-- A step of the running task. -/
def Busy (s t : Sys) : Prop := s.step .exec = some t ∨ s.step .ret = some t

theorem falls_busy (busy : Busy s t) : Ranking.Five.Lower t.rank s.rank := by
  rcases busy with taken | taken
  · cases (steps taken).2 with
    | work k rest front => exact falls_work front
    | invoke call rest front => exact falls_invoke front
    | afterWrite ec rest front => exact falls_afterWrite front
    | closeHandler rest front => exact falls_closeHandler front
  · cases (steps taken).2 with
    | ret rest front => exact falls_work front

/-- A step beside the running task: the kernel's, the clock's, or a call by a callback or from another thread. -/
inductive Beside (s t : Sys) : Prop where
  | kernel (event : Net.Event) (taken : s.step (.kernel event) = some t)
  | expire (index : Nat) (taken : s.step (.expire index) = some t)
  | advance (ms : Nat) (taken : s.step (.advance ms) = some t)
  | call (c : Call) (modest : c.isModest = true) (taken : s.step (.call c) = some t)

theorem kernel_writes {n m : Net Handler Work} {event : Net.Event} (moved : n.kernel event = some m) :
    m.writeQueue = n.writeQueue ∧ m.inFlight = n.inFlight ∧ m.closed = n.closed := by
  cases event with
  | resolve index result =>
    obtain ⟨h, -, rfl⟩ := Option.map_eq_some_iff.mp moved
    exact ⟨rfl, rfl, rfl⟩
  | _ =>
    simp only [Net.kernel] at moved
    split at moved <;> try contradiction
    all_goals
      try split at moved
      all_goals
        first
        | contradiction
        | obtain rfl := Option.some.inj moved
          exact ⟨rfl, rfl, rfl⟩

theorem load_call {c : Call} (modest : c.isModest = true) : (s.call c).load = s.load := by
  cases c with
  | close => exact load_closeConnection s
  | asyncConnect | handlePacket | handlePuback | handlePubrec | handlePubcomp | handlePubrel | handleSuback
  | handlePublish => simp [Call.isModest] at modest
  | _ => rfl

theorem unraised_call {c : Call} (modest : c.isModest = true) : (s.call c).rank = s.rank ∨
    Ranking.Five.Lower (s.call c).rank s.rank := by
  have topics : callTopics c ⊆ [.publish, .subscribe, .session, .loop, .settings, .crash] := by
    cases c <;> simp [Call.isModest] at modest <;> simp [callTopics]
  have does := (does_call s c).mono topics
  have jobs := jobs_does does
  have arrivals := arrivals_does does (by decide)
  obtain ⟨calls, sessions⟩ := calls_does does (by decide)
  have load := load_call (s := s) modest
  rw [rank_lower_iff]
  simp only [rank, Prod.mk.injEq]
  omega

theorem unraised_beside (beside : Beside s t) : t.rank = s.rank ∨ Ranking.Five.Lower t.rank s.rank := by
  cases beside with
  | kernel event taken =>
    cases (steps taken).2 with
    | kernel _ n moved =>
      obtain ⟨queue, flying, shut⟩ := kernel_writes moved
      have stack := Net.kernel_stack moved
      left
      simp only [rank, tally, calls, openSessions, load, Net.running, stack, queue, flying, shut]
      rfl
  | expire index taken =>
    cases (steps taken).2
    exact .inl rfl
  | advance ms taken =>
    cases (steps taken).2
    exact .inl rfl
  | call c modest taken =>
    cases (steps taken).2
    exact unraised_call modest

theorem busy_of_stack (sane : s.undefined = false) (occupied : s.net.stack ≠ []) : ∃ t, Busy s t := by
  cases stack : s.net.stack with
  | nil => exact absurd stack occupied
  | cons entry rest =>
    cases entry with
    | own k =>
      by_cases user : k = .user
      · exact ⟨s.goesOn rest, .inr (by simp [Sys.step, sane, stack, user, goesOn])⟩
      · exact ⟨(s.goesOn rest).execute k, .inl (by simp [Sys.step, sane, exec, stack, goesOn])⟩
    | invoke | afterWrite | closeHandler =>
      exact ⟨_, .inl (by simp [Sys.step, sane, exec, stack, Net.resume]; rfl)⟩

/-- Every task of the io thread ends: however often the kernel, the clock and the user come between, its steps come to
an end, and it needs no step but its own to get there. -/
theorem tasks_end : (WellFounded fun t s => Ranking.Goes Busy Beside s t) ∧
    ∀ s, ∃ t, Relation.ReflTransGen Busy s t ∧ (t.net.stack = [] ∨ t.undefined = true) := by
  have falls : ∀ s t, Busy s t → Ranking.Five.Lower t.rank s.rank := fun _ _ => falls_busy
  refine ⟨Ranking.goes_wellFounded Ranking.five_wellFounded (fun _ _ => unraised_beside) falls, ?_⟩
  refine Ranking.comes_to_rest Ranking.five_wellFounded falls fun s awake => ?_
  obtain ⟨occupied, sane⟩ := not_or.mp awake
  exact busy_of_stack (by simpa using sane) occupied

end Sys
end LiteMqtt
