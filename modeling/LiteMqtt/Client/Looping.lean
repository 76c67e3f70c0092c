import LiteMqtt.Client.Posting
import LiteMqtt.Connection.Progress

/-!
# What is on the stack

The code of a loop of `notify_closed_once` has only callbacks of the user above it, and as long as these
leave the maps alone its iterator holds an entry. The code that handles a packet has the start of the
next read below it.
-/

namespace LiteMqtt
namespace Sys

variable {s t u : Sys} {topics : List Topic}

/-! ### How the stack grows -/

/-- What is put on the stack is calls of handlers, and code with these topics or none. -/
def Grows (topics : List Topic) (s t : Sys) : Prop :=
  ∃ new, t.net.stack = new ++ s.net.stack ∧ ∀ k, .own k ∈ new → k.topic.all (topics.contains ·) = true

theorem grows_of_same (stack : t.net.stack = s.net.stack) : Grows topics s t :=
  ⟨[], stack, fun _ among => absurd among List.not_mem_nil⟩

theorem Grows.trans (first : Grows topics s t) (second : Grows topics t u) : Grows topics s u := by
  obtain ⟨new, same, about⟩ := first
  obtain ⟨more, again, also⟩ := second
  refine ⟨more ++ new, by rw [again, same, List.append_assoc], fun k among => ?_⟩
  exact (List.mem_append.mp among).elim (also k) (about k)

theorem invocation_foreign (item : WriteItem Handler) (ec : ErrorCode) (k : Work) :
    .own k ∉ item.invocation (K := Work) ec := by
  unfold WriteItem.invocation
  split
  · exact List.not_mem_nil
  · intro among
    exact absurd (List.mem_singleton.mp among) nofun

theorem failPendingWrites_stack (n : Net Handler Work) (ec : AsioError) :
    ∃ new, (n.failPendingWrites ec).stack = new ++ n.stack ∧ ∀ k, .own k ∉ new := by
  refine ⟨_, rfl, fun k among => ?_⟩
  obtain ⟨item, -, calls⟩ := List.mem_flatMap.mp among
  exact invocation_foreign item _ k calls

theorem close_stack (n : Net Handler Work) : ∃ new, n.close.stack = new ++ n.stack ∧ ∀ k, .own k ∉ new := by
  unfold Net.close
  split
  · exact ⟨[], rfl, fun _ => List.not_mem_nil⟩
  · dsimp only
    refine ⟨_, (List.append_assoc _ _ _).symm, fun k among => ?_⟩
    rcases List.mem_append.mp among with queued | flying
    · obtain ⟨item, -, calls⟩ := List.mem_flatMap.mp queued
      exact invocation_foreign item _ k calls
    · rcases List.mem_append.mp flying with flying | last
      · obtain ⟨item, -, calls⟩ := List.mem_flatMap.mp flying
        exact invocation_foreign item _ k calls
      · exact absurd (List.mem_singleton.mp last) nofun

theorem afterWrite_stack (n : Net Handler Work) (ec : ErrorCode) :
    ∃ new, (n.afterWrite ec).stack = new ++ n.stack ∧ ∀ k, .own k ∉ new := by
  cases ec with
  | some ec => exact failPendingWrites_stack { n.closeSocket with state := .disconnected } ec
  | none =>
    refine ⟨[], ?_, fun _ => List.not_mem_nil⟩
    unfold Net.afterWrite Net.doWrite
    dsimp only
    split
    · split
      · rfl
      split
      · rfl
      split <;> rfl
    · rfl

theorem asyncReadPacket_stack (n : Net Handler Work) (h : Handler) : (n.asyncReadPacket h).stack = n.stack := by
  unfold Net.asyncReadPacket Net.startRead
  split
  · split <;> rfl
  · rfl

theorem asyncConnect_stack (s : Sys) (callback : Bool) : (s.asyncConnect callback).net.stack = s.net.stack := by
  obtain ⟨u, which, net⟩ := asyncConnect_net s callback
  rw [net]
  rcases which with rfl | rfl <;> rfl

theorem grows_closeConnection (s : Sys) : Grows topics s s.closeConnection := by
  unfold closeConnection
  split
  · exact grows_of_same rfl
  · obtain ⟨new, same, foreign⟩ := close_stack s.net
    exact ⟨new, same, fun k among => absurd among (foreign k)⟩

theorem grows_apply {e : Effect} (inside : e.within topics = true) : Grows topics s (s.apply e) := by
  cases e with
  | push k =>
    refine ⟨[.own k], rfl, fun other among => ?_⟩
    obtain rfl := StackEntry.own.inj (List.mem_singleton.mp among)
    exact (Bool.and_eq_true_iff.mp inside).2
  | closeConnection => exact grows_closeConnection s
  | startReadLoop attempt => exact grows_of_same (asyncReadPacket_stack s.net _)
  | asyncConnect callback => exact grows_of_same (asyncConnect_stack s callback)
  | _ => exact grows_of_same rfl

theorem grows_does (does : Does topics s t) : Grows topics s t := by
  induction does with
  | refl => exact grows_of_same rfl
  | tail _ last ih =>
    obtain ⟨e, inside, rfl⟩ := last
    exact ih.trans (grows_apply inside)

/-! ### Packets and reads -/

/-- Below the code that handles a packet there is the start of the next read. -/
def Chained : List (StackEntry Handler Work) → Prop
  | [] => True
  | entry :: rest =>
      (∀ attempt data, entry = .own (.handlePacket attempt data) → ∃ i, .own (.startReadLoop i) ∈ rest) ∧ Chained rest

theorem chained_append {new below : List (StackEntry Handler Work)}
    (other : ∀ attempt data, .own (.handlePacket attempt data) ∉ new) (chained : Chained below) :
    Chained (new ++ below) := by
  induction new with
  | nil => exact chained
  | cons entry new ih =>
    refine ⟨fun attempt data same => ?_, ih fun attempt data among => other attempt data (.tail _ among)⟩
    exact absurd (.head _) (same ▸ other attempt data)

theorem chained_grows (grows : Grows topics s t) (absent : Topic.packet ∉ topics) (chained : Chained s.net.stack) :
    Chained t.net.stack := by
  obtain ⟨new, same, about⟩ := grows
  rw [same]
  refine chained_append (fun attempt data among => absent ?_) chained
  simpa [Work.topic] using about _ among

/-! ### Loops and iterators -/

/-- The iterator of the loop is at an entry. -/
def Iterates (s : Sys) : Work → Prop
  | .publishEach p | .publishCancel p => s.pendingPublishes.contains p = true
  | .subscribeEach p | .subscribeFilters p _ _ => s.pendingSubscribes.contains p = true
  | _ => True

def NoLoops (stack : List (StackEntry Handler Work)) : Prop := ∀ k, .own k ∈ stack → k.topic ≠ some .loop

inductive Looping (s : Sys) : Prop where
  | none (quiet : NoLoops s.net.stack)
  | one (users : Nat) (k : Work) (below : List (StackEntry Handler Work))
      (stack : s.net.stack = List.replicate users (.own .user) ++ .own k :: below) (loop : k.topic = some .loop)
      (quiet : NoLoops below) (iterates : s.Iterates k)

theorem noLoops_grows (grows : Grows topics s t) (absent : Topic.loop ∉ topics) (quiet : NoLoops s.net.stack) :
    NoLoops t.net.stack := by
  obtain ⟨new, same, about⟩ := grows
  intro k among loop
  rw [same] at among
  rcases List.mem_append.mp among with fresh | before
  · refine absent ?_
    simpa [loop] using about k fresh
  · exact quiet k before loop

/-- Code runs that is not the user's. A loop that is on the stack is this code. -/
theorem Looping.front {entry : StackEntry Handler Work} {rest : List (StackEntry Handler Work)} (looping : s.Looping)
    (front : s.net.stack = entry :: rest) (busy : entry ≠ .own .user) :
    NoLoops rest ∧ ∀ k, entry = .own k → k.topic = some .loop → s.Iterates k := by
  cases looping with
  | none quiet =>
    rw [front] at quiet
    exact ⟨fun k among => quiet k (.tail _ among), fun k same loop => absurd loop (quiet k (same ▸ .head _))⟩
  | one users k below stack loop quiet iterates =>
    cases users with
    | zero =>
      obtain ⟨rfl, rfl⟩ := List.cons.inj (front.symm.trans stack)
      exact ⟨quiet, fun other same _ => StackEntry.own.inj same ▸ iterates⟩
    | succ users =>
      obtain ⟨rfl, -⟩ := List.cons.inj (front.symm.trans stack)
      contradiction

/-- A loop goes on to the code `k`, perhaps after a callback. -/
theorem looping_on (users : Nat) {k : Work} {rest : List (StackEntry Handler Work)}
    (stack : t.net.stack = List.replicate users (.own .user) ++ .own k :: rest) (quiet : NoLoops rest)
    (iterates : k.topic = some .loop → t.Iterates k) : t.Looping := by
  by_cases loop : k.topic = some .loop
  · exact .one users k rest stack loop quiet (iterates loop)
  · refine .none fun other among => ?_
    rw [stack] at among
    rcases List.mem_append.mp among with user | mine | below
    · obtain rfl := StackEntry.own.inj (List.eq_of_mem_replicate user)
      nofun
    · exact loop
    · rename_i below
      exact quiet other below

theorem looping_push {k : Work} {rest : List (StackEntry Handler Work)} (stack : s.net.stack = rest)
    (quiet : NoLoops rest) (iterates : k.topic = some .loop → s.Iterates k) : (s.push [k]).Looping :=
  looping_on 0 (congrArg (List.cons _) stack) quiet fun loop => by
    have before := iterates loop
    cases k <;> exact before

theorem cancelTimers_stack (s : Sys) (timers : List Nat) : (s.cancelTimers timers).net.stack = s.net.stack ∧
    (s.cancelTimers timers).pendingSubscribes = s.pendingSubscribes := by
  induction timers generalizing s with
  | nil => exact ⟨rfl, rfl⟩
  | cons timer timers ih => exact ih (s.cancelTimer timer)

theorem tellPublish_on (s : Sys) (callback : Callback) (success : Bool) (topic : Bytes) (qos : UInt8)
    (packetId : UInt16) : ∃ users, (s.tellPublish callback success topic qos packetId).net.stack =
        List.replicate users (.own .user) ++ s.net.stack ∧
      (s.tellPublish callback success topic qos packetId).pendingPublishes = s.pendingPublishes := by
  unfold tellPublish
  split
  · exact ⟨1, rfl, rfl⟩
  · exact ⟨0, rfl, rfl⟩

theorem tellSubscribe_on (s : Sys) (callback : Callback) (success : Bool) (topic : Bytes) (qos : UInt8) :
    ∃ users, (s.tellSubscribe callback success topic qos).net.stack = List.replicate users (.own .user) ++ s.net.stack ∧
      (s.tellSubscribe callback success topic qos).pendingSubscribes = s.pendingSubscribes := by
  unfold tellSubscribe
  split
  · exact ⟨1, rfl, rfl⟩
  · exact ⟨0, rfl, rfl⟩

/-- The loop begins at the first entry. -/
theorem looping_notifyClosedOnce (quiet : NoLoops s.net.stack) : s.notifyClosedOnce.Looping := by
  unfold notifyClosedOnce
  split
  · exact .none quiet
  · dsimp only
    split
    · rename_i p first
      have first : s.pendingPublishes.first? = some p := first
      exact looping_push rfl quiet fun _ => (OrderedMap.find?_of_first? first).1
    · exact looping_push rfl quiet fun _ => trivial

theorem looping_publishEach (p : UInt16) (quiet : NoLoops s.net.stack)
    (iterates : s.pendingPublishes.contains p = true) :
    (s.publishEach p).Looping := by
  obtain ⟨entry, found⟩ := Option.isSome_iff_exists.mp iterates
  unfold publishEach
  rw [found]
  obtain ⟨users, stack, same⟩ := tellPublish_on (s.push [.publishCancel p]) entry.callback false entry.topic entry.qos p
  refine looping_on users stack quiet fun _ => ?_
  change (OrderedMap.contains _ p) = true
  rw [same]
  exact iterates

theorem looping_publishCancel (p : UInt16) (quiet : NoLoops s.net.stack)
    (iterates : s.pendingPublishes.contains p = true) :
    (s.publishCancel p).Looping := by
  obtain ⟨entry, found⟩ := Option.isSome_iff_exists.mp iterates
  unfold publishCancel
  rw [found]
  dsimp only
  split
  · rename_i next after
    exact looping_push rfl quiet fun _ => (OrderedMap.find?_of_next? after).2.1
  · exact looping_push rfl quiet fun _ => trivial

theorem looping_publishClear (quiet : NoLoops s.net.stack) : s.publishClear.Looping := by
  unfold publishClear
  obtain ⟨first, -⟩ := cancelTimers_stack s (s.pendingPublishes.entries.map fun e => e.2.timer)
  generalize s.cancelTimers (s.pendingPublishes.entries.map fun e => e.2.timer) = u at first
  obtain ⟨second, subscribes⟩ := cancelTimers_stack u (u.pendingPubrecs.entries.map fun e => e.2.timer)
  have stack := second.trans first
  dsimp only
  split
  · rename_i p found
    exact looping_push stack quiet fun _ => (OrderedMap.find?_of_first? found).1
  · exact looping_push stack quiet fun _ => trivial

theorem looping_subscribeEach (p : UInt16) (quiet : NoLoops s.net.stack)
    (iterates : s.pendingSubscribes.contains p = true) : (s.subscribeEach p).Looping := by
  obtain ⟨entry, found⟩ := Option.isSome_iff_exists.mp iterates
  unfold subscribeEach
  rw [found]
  exact looping_push rfl quiet fun _ => iterates

theorem looping_subscribeFilters (p : UInt16) (callback : Callback) (filters : List (Bytes × UInt8))
    (quiet : NoLoops s.net.stack) (iterates : s.pendingSubscribes.contains p = true) :
    (s.subscribeFilters p callback filters).Looping := by
  unfold subscribeFilters
  rw [if_pos iterates]
  cases filters with
  | cons first rest =>
    obtain ⟨users, stack, same⟩ :=
      tellSubscribe_on (s.push [.subscribeFilters p callback rest]) callback false first.1 0
    refine looping_on users stack quiet fun _ => ?_
    change (OrderedMap.contains _ p) = true
    rw [same]
    exact iterates
  | nil =>
    dsimp only
    split
    · rename_i next after
      exact looping_push rfl quiet fun _ => (OrderedMap.find?_of_next? after).2.1
    · exact looping_push rfl quiet fun _ => trivial

theorem looping_work {k : Work} (quiet : NoLoops s.net.stack) (iterates : k.topic = some .loop → s.Iterates k) :
    (s.execute k).Looping := by
  have other : Topic.loop ∉ workTopics k → (s.execute k).Looping := fun absent =>
    .none (noLoops_grows (grows_does (does_execute s k)) absent quiet)
  cases k with
  | notifyClosedOnce => exact looping_notifyClosedOnce quiet
  | publishEach p => exact looping_publishEach p quiet (iterates rfl)
  | publishCancel p => exact looping_publishCancel p quiet (iterates rfl)
  | publishClear => exact looping_publishClear quiet
  | subscribeEach p => exact looping_subscribeEach p quiet (iterates rfl)
  | subscribeFilters p callback rest => exact looping_subscribeFilters p callback rest quiet (iterates rfl)
  | timer h ec => exact other (by cases h <;> simp [workTopics, timerTopics])
  | handlePacket attempt data => exact other fun among => absurd (packetTopics_few data among) (by decide)
  | _ => exact other (by simp [workTopics])

/-- The code that runs next on an empty stack is a task that was posted. -/
theorem run_posted {n : Net Handler Work} (posting : s.Posting) (ran : s.net.run = some n) {k : Work}
    (among : .own k ∈ n.stack) : k.isPosted = true := by
  obtain ⟨idle, task, tail, ready, -⟩ := Net.run_cases ran
  have owes : n.Owes (.own k) := .inr (.inr (.inr (.inl ⟨_, among, rfl⟩)))
  rcases Net.owes_own.mp (Net.owed_run ran owes) with waiting | within
  · exact posting.posted k (List.mem_filterMap.mpr ⟨_, waiting, rfl⟩)
  · rw [idle] at within
    contradiction

/-- The user's code called the client, which leaves the stack and the maps alone. -/
theorem looping_of_same (looping : s.Looping) (stack : t.net.stack = s.net.stack)
    (publishes : t.pendingPublishes = s.pendingPublishes) (subscribes : t.pendingSubscribes = s.pendingSubscribes) :
    t.Looping := by
  cases looping with
  | none quiet => exact .none (stack ▸ quiet)
  | one users k below split loop quiet iterates =>
    refine .one users k below (stack.trans split) loop quiet ?_
    unfold Iterates at iterates ⊢
    split <;> simp_all

theorem looping_step {a : Action} (posting : s.Posting) (looping : s.Looping) (taken : s.step a = some t)
    (inside : ∀ c, a ≠ .call c) : t.Looping := by
  have frontless : ∀ {entry rest}, s.net.stack = entry :: rest → entry ≠ .own .user → NoLoops rest := fun front busy =>
    (looping.front front busy).1
  cases (steps taken).2 with
  | run n ran =>
    refine .none fun k among loop => ?_
    have posted := run_posted posting ran among
    revert posted loop
    cases k <;> simp [Work.isPosted, Work.topic]
  | work k rest front busy =>
    obtain ⟨quiet, iterates⟩ := looping.front front fun same => busy (StackEntry.own.inj same)
    exact looping_work (s := s.goesOn rest) quiet (iterates k rfl)
  | invoke call rest front =>
    have quiet := frontless front nofun
    have absent : Topic.loop ∉ invocationTopics call :=
      fun among => absurd (invocationTopics_few call among) (by decide)
    refine .none (noLoops_grows (grows_does (does_onInvoke _ call)) absent ?_)
    cases call <;> exact quiet
  | afterWrite ec rest front =>
    have quiet := frontless front nofun
    obtain ⟨new, same, foreign⟩ := afterWrite_stack (s.goesOn rest).net ec
    refine .none fun k among => ?_
    rw [same] at among
    exact (List.mem_append.mp among).elim (fun fresh => absurd fresh (foreign k)) (quiet k)
  | closeHandler rest front =>
    have quiet := frontless front nofun
    refine .none fun k among => ?_
    rcases List.mem_append.mp among with fresh | before
    · obtain ⟨h, -, same⟩ := List.mem_map.mp fresh
      contradiction
    · exact quiet k before
  | ret rest front =>
    cases looping with
    | none quiet =>
      rw [front] at quiet
      exact .none fun k among => quiet k (.tail _ among)
    | one users k below stack loop quiet iterates =>
      cases users with
      | zero =>
        obtain ⟨same, -⟩ := List.cons.inj (front.symm.trans stack)
        obtain rfl := StackEntry.own.inj same
        contradiction
      | succ users =>
        obtain ⟨-, rfl⟩ := List.cons.inj (front.symm.trans stack)
        exact .one users k below rfl loop quiet iterates
  | call c allowed => exact absurd rfl (inside c)
  | kernel event n moved => exact looping_of_same looping (Net.kernel_stack moved) rfl rfl
  | expire index w waiting due => exact looping_of_same looping rfl rfl rfl
  | advance ms => exact looping_of_same looping rfl rfl rfl

theorem chained_step {a : Action} (posting : s.Posting) (chained : Chained s.net.stack) (taken : s.step a = some t)
    (inside : ∀ c, a ≠ .call c) : Chained t.net.stack := by
  have popped : ∀ {entry rest}, s.net.stack = entry :: rest → Chained rest := fun front => (front ▸ chained).2
  have foreign : ∀ {new below : List (StackEntry Handler Work)}, (∀ k, .own k ∉ new) → Chained below →
      Chained (new ++ below) := fun none => chained_append fun _ _ among => none _ among
  cases (steps taken).2 with
  | run n ran =>
    have only : ∀ attempt data, .own (.handlePacket attempt data) ∉ n.stack := fun attempt data among =>
      absurd (run_posted posting ran among) Bool.false_ne_true
    have whole : Chained (n.stack ++ []) := chained_append only trivial
    rwa [List.append_nil] at whole
  | work k rest front busy =>
    have absent : Topic.packet ∉ workTopics k := fun among => absurd (workTopics_few k among) (by decide)
    exact chained_grows (s := s.goesOn rest) (grows_does (does_execute _ k)) absent (popped front)
  | invoke call rest front =>
    have below := popped front
    have grows := grows_does (does_onInvoke { s with net := (s.goesOn rest).net.recordCall call } call)
    cases call with
    | read h ec packet =>
      cases h with
      | read attempt =>
        change Chained ({ s with net := (s.goesOn rest).net }.onRead attempt ec packet).net.stack
        unfold onRead
        split
        · exact ⟨by simp, below⟩
        · exact ⟨fun _ _ _ => ⟨attempt, .head _⟩, by simp, below⟩
      | _ => exact below
    | write serial h ec =>
      refine chained_grows grows ?_ below
      cases h <;> simp [invocationTopics]
    | _ => exact chained_grows grows (by simp [invocationTopics]) below
  | afterWrite ec rest front =>
    obtain ⟨new, same, none⟩ := afterWrite_stack (s.goesOn rest).net ec
    change Chained ((s.goesOn rest).net.afterWrite ec).stack
    rw [same]
    exact foreign none (popped front)
  | closeHandler rest front =>
    refine foreign (fun k among => ?_) (popped front)
    obtain ⟨h, -, same⟩ := List.mem_map.mp among
    contradiction
  | ret rest front => exact popped front
  | call c allowed => exact absurd rfl (inside c)
  | kernel event n moved =>
    have same := Net.kernel_stack moved
    change Chained n.stack
    rwa [same]
  | expire index w waiting due => exact chained
  | advance ms => exact chained

end Sys
end LiteMqtt
