import LiteMqtt.Client.Clearing
import LiteMqtt.Client.Verdicts

/-!
# What is granted

A SUBACK grants the subscription that was made with its packet id. What a step does for the subscriptions is
said once: it makes one, handles a SUBACK, tells what a SUBACK granted, or leaves them alone.
-/

namespace LiteMqtt

/-- The callback of the subscription that was last made with the packet id, if no SUBACK came since. -/
def subscriber (packetId : UInt16) : List Event → Option Callback
  | [] => none
  | .subscribed p callback :: earlier => if p = packetId then some callback else subscriber packetId earlier
  | .received .suback p _ :: earlier => if p = packetId then none else subscriber packetId earlier
  | _ :: earlier => subscriber packetId earlier

/-- A SUBACK with the packet id of the subscription was handled, and its return code is not 0x80. -/
def granted (callback : Callback) : List Event → Bool
  | [] => false
  | .received .suback p codes :: earlier =>
      (subscriber p earlier == some callback && codes.head?.any (· != 0x80)) || granted callback earlier
  | _ :: earlier => granted callback earlier

/-- The event bears on what is granted, or says that it was. -/
def Event.grants : Event → Bool
  | .subscribed .. | .received .suback .. | .subscribeReport _ true .. => true
  | _ => false

/-- The work makes a subscription, or tells what was granted. -/
def Work.grants : Work → Bool
  | .asyncSubscribeImpl .. | .subackEach .. => true
  | _ => false

theorem subscriber_cons {e : Event} (quiet : e.grants = false) (p : UInt16) (log : List Event) :
    subscriber p (e :: log) = subscriber p log := by
  cases e with
  | received pt q codes => cases pt <;> first | rfl | cases quiet
  | subscribed => cases quiet
  | _ => rfl

theorem granted_cons {e : Event} (quiet : e.grants = false) (c : Callback) (log : List Event) :
    granted c (e :: log) = granted c log := by
  cases e with
  | received pt q codes => cases pt <;> first | rfl | cases quiet
  | _ => rfl

/-- What was granted stays granted. -/
theorem granted_later {c : Callback} {log : List Event} (e : Event) (before : granted c log = true) :
    granted c (e :: log) = true := by
  by_cases quiet : e.grants = false
  · exact (granted_cons quiet c log).trans before
  · cases e with
    | received pt q codes => cases pt <;> first | exact before | simp [granted, before]
    | _ => exact before

namespace Sys

variable {s t u : Sys} {p : UInt16} {c : Callback}

/-- The client's tasks, posted and running. -/
def tasks (s : Sys) : List Work := s.net.posted ++ s.net.running

/-- Nothing is granted, and no subscription is new. -/
structure Placid (s t : Sys) : Prop where
  log : ∃ news, t.log = news ++ s.log ∧ ∀ e ∈ news, e.grants = false
  pending : ∀ p entry, t.pendingSubscribes.find? p = some entry → s.pendingSubscribes.find? p = some entry
  tasks : ∀ k ∈ t.tasks, k.grants = true → k ∈ s.tasks

theorem placid_of_same (log : t.log = s.log) (pending : t.pendingSubscribes = s.pendingSubscribes)
    (tasks : ∀ k ∈ t.tasks, k.grants = true → k ∈ s.tasks) : Placid s t :=
  ⟨⟨[], log, fun _ none => absurd none List.not_mem_nil⟩, fun _ _ => pending ▸ id, tasks⟩

theorem Placid.refl (s : Sys) : Placid s s := placid_of_same rfl rfl fun _ among _ => among

theorem Placid.trans (first : Placid s t) (later : Placid t u) : Placid s u := by
  obtain ⟨news, log, quiet⟩ := first.log
  obtain ⟨more, logged, calm⟩ := later.log
  refine ⟨⟨more ++ news, by rw [logged, log, List.append_assoc], fun e among => ?_⟩,
    fun p entry found => first.pending p entry (later.pending p entry found),
    fun k among about => first.tasks k (later.tasks k among about) about⟩
  rcases List.mem_append.mp among with late | soon
  · exact calm e late
  · exact quiet e soon

theorem placid_of_net (log : t.log = s.log) (pending : t.pendingSubscribes = s.pendingSubscribes)
    (posted : t.net.posted = s.net.posted) (running : t.net.running = s.net.running) : Placid s t := by
  refine placid_of_same log pending fun k among _ => ?_
  rw [Sys.tasks, posted, running] at among
  exact among

theorem placid_record {e : Event} (quiet : e.grants = false) : Placid s (s.record e) := by
  refine ⟨⟨[e], rfl, fun x among => ?_⟩, fun _ _ => id, fun _ among _ => among⟩
  obtain rfl := List.mem_singleton.mp among
  exact quiet

theorem tasks_push {k j : Work} (among : j ∈ (s.push [k]).tasks) : j = k ∨ j ∈ s.tasks := by
  rcases List.mem_append.mp among with posted | runs
  · exact .inr (List.mem_append_left _ posted)
  · exact (List.mem_cons.mp runs).imp id (List.mem_append_right _)

theorem placid_push {k : Work} (other : k.grants = false) : Placid s (s.push [k]) := by
  refine placid_of_same rfl rfl fun j among about => (tasks_push among).resolve_left fun same => ?_
  rw [same, other] at about
  exact Bool.false_ne_true about

theorem placid_drop (s : Sys) {entries : OrderedMap UInt16 PendingSubscribe}
    (kept : ∀ p entry, entries.find? p = some entry → s.pendingSubscribes.find? p = some entry) :
    Placid s { s with pendingSubscribes := entries } :=
  ⟨⟨[], rfl, fun _ none => absurd none List.not_mem_nil⟩, kept, fun _ among _ => among⟩

theorem placid_erase (s : Sys) (p : UInt16) :
    Placid s { s with pendingSubscribes := s.pendingSubscribes.erase p } := by
  refine placid_drop s fun q entry found => ?_
  rw [OrderedMap.find?_erase] at found
  split at found
  · contradiction
  · exact found

theorem placid_cancelTimer (s : Sys) (timer : Nat) : Placid s (s.cancelTimer timer) := by
  refine placid_of_same rfl rfl fun k among about => ?_
  rw [Sys.tasks, cancelTimer_posted, List.append_assoc] at among
  rcases List.mem_append.mp among with posted | later
  · exact List.mem_append_left _ posted
  rcases List.mem_append.mp later with aborted | runs
  · obtain ⟨w, -, rfl⟩ := List.mem_map.mp aborted
    cases about
  · exact List.mem_append_right _ runs

theorem placid_closeConnection (s : Sys) : Placid s s.closeConnection := by
  have running := (closeConnection_tame s).running
  have posted := closeConnection_posted s
  unfold closeConnection at running posted ⊢
  split
  · exact .refl s
  · rename_i opened
    rw [if_neg opened] at running posted
    have shut : Placid s { s with net := s.net.close } := placid_of_net rfl rfl posted running
    exact shut.trans (placid_record rfl)

theorem placid_asyncConnect (s : Sys) (callback : Bool) : Placid s (s.asyncConnect callback) := by
  let u : Sys := { s with onConnectCb := s.onConnectCb || callback, closed := false, attempts := s.attempts + 1 }
  have begun : Placid s u := placid_of_net rfl rfl rfl rfl
  have called : Placid s (u.record .connectCalled) := begun.trans (placid_record rfl)
  have dialed : ∀ (v : Sys) (h : Handler), Placid v { v with net := v.net.asyncConnect h } := fun v h =>
    placid_of_net rfl rfl rfl rfl
  have awaited : ∀ (v : Sys) (w : Wait), Placid v { v with waits := v.waits ++ [w] } := fun v w =>
    placid_of_net rfl rfl rfl rfl
  unfold asyncConnect
  dsimp only
  split
  · exact called.trans ((placid_cancelTimer _ connectTimer).trans ((awaited _ _).trans (dialed _ _)))
  · exact called.trans (dialed _ _)

theorem placid_apply {e : Effect}
    (inside : e.within [.connect, .publish, .session, .loop, .packet, .settings, .crash] = true) :
    Placid s (s.apply e) := by
  have other : e.topic ≠ some .subscribe := Effect.topic_of_within inside (by decide)
  have quiet : ∀ k : Work, k.topic ≠ some .subscribe → k.grants = false := by
    intro k apart
    cases k <;> first | rfl | exact absurd rfl apart
  cases e with
  | record e =>
    refine placid_record ?_
    cases e with
    | received pt p codes => cases pt <;> first | rfl | exact absurd rfl other
    | subscribed | subscribeReport => exact absurd rfl other
    | _ => rfl
  | push k => exact placid_push (quiet k other)
  | post k =>
    refine placid_of_same rfl rfl fun j among about => ?_
    rw [Sys.tasks, apply, post, Net.post_posted, List.append_assoc] at among
    rcases List.mem_append.mp among with posted | later
    · exact List.mem_append_left _ posted
    rcases List.mem_append.mp later with new | runs
    · obtain rfl : j = k := by simpa [Task.own?] using new
      rw [quiet j other] at about
      cases about
    · exact List.mem_append_right _ runs
  | write packet h =>
    have sent : Placid s { s with net := s.net.asyncWritePacket packet.serialize (some h) } :=
      placid_of_net rfl rfl (Net.asyncWritePacket_posted s.net _ _) rfl
    exact sent.trans (placid_record rfl)
  | closeConnection => exact placid_closeConnection s
  | cancelTimer timer => exact placid_cancelTimer s timer
  | startReadLoop attempt =>
    exact placid_of_net rfl rfl (Net.asyncReadPacket_posted s.net _) (Net.tame_asyncReadPacket s.net _).running
  | asyncConnect callback => exact placid_asyncConnect s callback
  | setSubscribes => exact absurd rfl other
  | _ => exact placid_of_net rfl rfl rfl rfl

theorem placid_does {topics : List Topic} (does : Does topics s t)
    (few : topics ⊆ [.connect, .publish, .session, .loop, .packet, .settings, .crash]) : Placid s t := by
  have kept := (does.mono few).keeps (I := Placid s) fun u e inside before => before.trans (placid_apply inside)
  exact kept (.refl s)

/-- A callback that is told a failure. -/
theorem placid_tellSubscribe (s : Sys) (cb : Callback) (topic : Bytes) (qos : UInt8) :
    Placid s (s.tellSubscribe cb false topic qos) := by
  unfold tellSubscribe
  split
  · exact (placid_record rfl).trans (placid_push rfl)
  · exact .refl s

/-! ### What a step does for the subscriptions -/

/-- A subscription is made, and waits for its SUBACK. -/
structure Subscribes (s : Sys) (topic : Bytes) (qos : UInt8) (cb : Callback) (p : UInt16) (t : Sys) : Prop where
  opened : s.closed = false
  fresh : s.pendingSubscribes.find? p = none
  log : ∃ packet, t.log = .handed packet :: .subscribed p cb :: s.log
  pending : t.pendingSubscribes = s.pendingSubscribes.insert p { filters := [(topic, qos)], callback := cb }
  closed : t.closed = false
  tasks : ∀ k ∈ t.tasks, k.grants = true → k ∈ s.tasks

/-- A SUBACK takes the subscription with its packet id, and a loop over its return codes may follow. -/
structure Takes (s : Sys) (pkt : SubackPacket) (t : Sys) : Prop where
  closed : t.closed = s.closed
  log : t.log = .received .suback pkt.packetId pkt.returnCodes :: s.log
  pending : t.pendingSubscribes = s.pendingSubscribes.erase pkt.packetId
  tasks : ∀ k ∈ t.tasks, k.grants = true → k ∈ s.tasks ∨ ∃ entry, s.pendingSubscribes.find? pkt.packetId = some entry ∧
    entry.callback.callable = true ∧ k = .subackEach entry.callback ((entry.filters.map Prod.fst).zip pkt.returnCodes)

/-- The callback is told what the SUBACK granted for one filter. -/
structure Tells (s : Sys) (cb : Callback) (code : UInt8) (rest : List (Bytes × UInt8)) (t : Sys) : Prop where
  log : t.log = s.log ∨ ∃ topic qos, t.log = .subscribeReport cb (code != 0x80) topic qos :: s.log
  pending : t.pendingSubscribes = s.pendingSubscribes
  tasks : ∀ k ∈ t.tasks, k.grants = true → k ∈ s.tasks ∨ k = .subackEach cb rest

inductive Grants (s : Sys) (a : Action) (t : Sys) : Prop where
  | placid (placid : Placid s t)
  | asks (topic : Bytes) (qos : UInt8) (able : Bool) (same : t = s.asyncSubscribe topic qos able)
  | subscribes (topic : Bytes) (qos : UInt8) (cb : Callback) (p : UInt16)
      (ran : .asyncSubscribeImpl topic qos cb ∈ s.net.running) (alone : t.net.running = [])
      (subscribes : Subscribes s topic qos cb p t)
  | takes (pkt : SubackPacket) (suback : s.suback a = some pkt) (takes : Takes s pkt t)
  | tells (cb : Callback) (topic : Bytes) (code : UInt8) (rest : List (Bytes × UInt8))
      (ran : .subackEach cb ((topic, code) :: rest) ∈ s.net.running) (tells : Tells s cb code rest t)
  | presumes (early : s.presumes a = true)

theorem subscribes_asyncSubscribeImpl (s : Sys) (topic : Bytes) (qos : UInt8) (cb : Callback) :
    Placid s (s.asyncSubscribeImpl topic qos cb) ∨
      (s.asyncSubscribeImpl topic qos cb).net.running = s.net.running ∧
        ∃ p, Subscribes s topic qos cb p (s.asyncSubscribeImpl topic qos cb) := by
  unfold asyncSubscribeImpl
  split
  · exact .inl (placid_tellSubscribe s cb topic 0)
  rename_i opened
  split
  · exact .inl (placid_tellSubscribe s cb topic 0)
  have acquired : Placid s s.acquirePacketId.1 := placid_of_net rfl rfl rfl rfl
  dsimp only
  split
  · have pushed : Placid s.acquirePacketId.1 (s.acquirePacketId.1.push [.reportSubscribe cb topic]) := placid_push rfl
    exact .inl (acquired.trans (pushed.trans (placid_push (k := .notifyClosedOnce) rfl)))
  · rename_i found
    have fresh : s.pendingSubscribes.find? s.acquirePacketId.2 = none := by
      have free := acquirePacketId_free found
      simp only [takenId, Bool.or_eq_false_iff, OrderedMap.contains] at free
      simpa using free.1.2
    have closed : s.closed = false := by simpa using opened
    refine .inr ⟨rfl, s.acquirePacketId.2, closed, fresh, ⟨_, rfl⟩, rfl, closed, fun k among _ => ?_⟩
    rw [Sys.tasks, write, record, Net.asyncWritePacket_posted] at among
    exact among

theorem takes_handleSuback (s : Sys) (data : Bytes) : Takes s (.parse data) (s.handleSuback data) := by
  unfold handleSuback
  generalize SubackPacket.parse data = pkt
  dsimp only
  split
  · rename_i absent
    exact ⟨rfl, rfl, (OrderedMap.erase_absent absent).symm, fun _ among _ => .inl among⟩
  rename_i entry found
  split
  · exact ⟨rfl, rfl, rfl, fun _ among _ => .inl among⟩
  rename_i callable
  split
  · refine ⟨rfl, rfl, rfl, fun k among about => .inl ((tasks_push among).resolve_left fun same => ?_)⟩
    rw [same] at about
    cases about
  · refine ⟨rfl, rfl, rfl, fun k among about => ?_⟩
    exact (tasks_push among).symm.imp_right fun same => ⟨entry, found, by simpa using callable, same⟩

/-- A SUBACK, or nothing that concerns the subscriptions. -/
theorem takes_handlePacket (s : Sys) (attempt : Nat) (data : Bytes) :
    Placid s (s.handlePacket attempt data) ∨
      ∃ pkt, subackOf data = some pkt ∧ Takes s pkt (s.handlePacket attempt data) := by
  have does := does_handlePacket s attempt data
  cases data with
  | nil => exact .inl (.refl s)
  | cons byte rest =>
    unfold packetTopics at does
    unfold handlePacket at does ⊢
    unfold subackOf
    dsimp only at does ⊢
    cases type : PacketType.ofUint8 (byte >>> 4) <;> simp only [type] at does ⊢
    case suback => exact .inr ⟨_, if_pos trivial, takes_handleSuback s _⟩
    all_goals exact .inl (placid_does does (by decide))

theorem placid_onSubscribeWritten (s : Sys) (p : UInt16) (ec : ErrorCode) : Placid s (s.onSubscribeWritten p ec) := by
  unfold onSubscribeWritten
  split
  · exact .refl s
  · split
    · split
      · exact placid_push rfl
      · exact .refl s
    · have erased := placid_erase s p
      dsimp only
      split
      · exact erased.trans (placid_of_net rfl rfl rfl rfl)
      · exact erased

/-- A loop of `notify_closed_once` tells failures only. -/
theorem placid_subscribeFilters (s : Sys) (p : UInt16) (cb : Callback) (filters : List (Bytes × UInt8)) :
    Placid s (s.subscribeFilters p cb filters) := by
  unfold subscribeFilters
  split
  · split
    · exact (placid_push rfl).trans (placid_tellSubscribe _ _ _ _)
    · split
      · exact placid_push rfl
      · exact placid_push rfl
  · exact placid_of_net rfl rfl rfl rfl

theorem placid_subscribeClear (s : Sys) : Placid s s.subscribeClear := by
  have emptied : Placid s { s with pendingSubscribes := .empty } := placid_drop s fun p entry found => by
    rw [OrderedMap.find?_empty] at found
    contradiction
  exact emptied.trans ((placid_push (k := .notifyClose) rfl).trans (placid_closeConnection _))

theorem tells_subackEach (s : Sys) (cb : Callback) (topic : Bytes) (code : UInt8) (rest : List (Bytes × UInt8)) :
    Tells s cb code rest (s.subackEach cb ((topic, code) :: rest)) := by
  have pushed : ∀ k ∈ (s.push [.subackEach cb rest]).tasks, k.grants = true → k ∈ s.tasks ∨ k = .subackEach cb rest :=
    fun k among _ => (tasks_push among).symm
  unfold subackEach
  dsimp only
  unfold tellSubscribe
  split
  · refine ⟨.inr ⟨topic, _, rfl⟩, rfl,
      fun k among about => pushed k ((tasks_push among).resolve_left fun same => ?_) about⟩
    rw [same] at about
    cases about
  · exact ⟨.inl rfl, rfl, pushed⟩

theorem placid_goesOn {e : StackEntry Handler Work} {rest : List (StackEntry Handler Work)}
    (front : s.net.stack = e :: rest) : Placid s (s.goesOn rest) := by
  refine placid_of_same rfl rfl fun k among _ => ?_
  rcases List.mem_append.mp among with posted | runs
  · exact List.mem_append_left _ posted
  · refine List.mem_append_right _ ?_
    rw [Net.running, front, List.filterMap_cons]
    split
    · exact runs
    · exact List.mem_cons_of_mem _ runs

theorem placid_subscribeWritten {cb : Callback} {filters : List (Bytes × UInt8)} (s : Sys) (p : UInt16)
    (honest : filters ≠ [] → cb.callable = true → s.pendingSubscribes.contains p = false) :
    Placid s (s.subscribeWritten p cb filters) := by
  cases filters with
  | nil => exact .refl s
  | cons filter later =>
    unfold subscribeWritten
    dsimp only
    split
    · rename_i among
      have unable : cb.callable = false := by
        by_contra calls
        exact Bool.false_ne_true ((honest (List.cons_ne_nil _ _) (by simpa using calls)).symm.trans among)
      unfold tellSubscribe
      rw [unable, if_neg Bool.false_ne_true]
      exact placid_push rfl
    · exact placid_of_net rfl rfl rfl rfl

theorem grants_work {k : Work} {rest : List (StackEntry Handler Work)} (posting : s.Posting)
    (front : s.net.stack = .own k :: rest) : Grants s .exec ((s.goesOn rest).execute k) := by
  have popped := placid_goesOn front
  have does := does_execute (s.goesOn rest) k
  have running := goesOn_running front
  cases k with
  | asyncSubscribeImpl topic qos cb =>
    have ran : .asyncSubscribeImpl topic qos cb ∈ s.net.running := by
      rw [running]
      exact .head _
    obtain ⟨-, rfl⟩ := List.cons.inj (front.symm.trans (posting.alone _ ran rfl))
    rcases subscribes_asyncSubscribeImpl (s.goesOn []) topic qos cb with placid | ⟨alone, p, subscribes⟩
    · exact .placid (popped.trans placid)
    · refine .subscribes topic qos cb p ran alone ⟨subscribes.opened, subscribes.fresh, subscribes.log,
        subscribes.pending, subscribes.closed, fun k among about => ?_⟩
      exact popped.tasks k (subscribes.tasks k among about) about
  | handlePacket attempt data =>
    rcases takes_handlePacket (s.goesOn rest) attempt data with placid | ⟨pkt, same, takes⟩
    · exact .placid (popped.trans placid)
    · refine .takes pkt (by simp [suback, dispatched, front, same]) ⟨takes.closed, takes.log, takes.pending,
        fun k among about => ?_⟩
      exact (takes.tasks k among about).imp_left fun before => popped.tasks k before about
  | timer h ec => exact .placid (popped.trans (placid_does does (by cases h <;> simp [workTopics, timerTopics])))
  | subscribeFilters p cb filters => exact .placid (popped.trans (placid_subscribeFilters _ p cb filters))
  | subscribeClear => exact .placid (popped.trans (placid_subscribeClear _))
  | reportSubscribe cb topic => exact .placid (popped.trans (placid_tellSubscribe _ cb topic 0))
  | subackEach cb pairs =>
    cases pairs with
    | nil => exact .placid popped
    | cons pair later =>
      have tells := tells_subackEach (s.goesOn rest) cb pair.1 pair.2 later
      refine .tells cb pair.1 pair.2 later (by rw [running]; exact .head _) ⟨tells.log, tells.pending,
        fun k among about => ?_⟩
      exact (tells.tasks k among about).imp_left fun before => popped.tasks k before about
  | subscribeWritten p cb filters =>
    by_cases early : s.presumes .exec = true
    · exact .presumes early
    refine .placid (popped.trans (placid_subscribeWritten _ p fun some calls => ?_))
    obtain ⟨first, more, rfl⟩ := List.exists_cons_of_ne_nil some
    have gone : s.pendingSubscribes.contains p = false := by simpa [presumes, front, calls] using early
    exact gone
  | _ => exact .placid (popped.trans (placid_does does (by simp [workTopics])))

/-- A task that is taken was posted. -/
theorem placid_run {n : Net Handler Work} (ran : s.net.run = some n) : Placid s { s with net := n } := by
  refine placid_of_same rfl rfl fun k among _ => ?_
  obtain ⟨idle, task, tail, ready, rfl⟩ := Net.run_cases ran
  have running := (Net.runTask_ran (s.net.leaving tail) task).running
  have quiet : (s.net.leaving tail).running = [] := by rw [Net.running, Net.leaving, idle]; rfl
  rw [quiet, List.append_nil] at running
  rw [Sys.tasks, Net.runTask_posted, running] at among
  refine List.mem_append_left _ ?_
  rw [Net.posted, ready, List.filterMap_cons]
  rcases List.mem_append.mp among with posted | runs
  · split
    · exact posted
    · exact List.mem_cons_of_mem _ posted
  · rw [Option.mem_toList.mp runs]
    exact List.mem_cons_self

/-- What every step does for the subscriptions. -/
theorem grants_step {a : Action} (posting : s.Posting) (taken : s.step a = some t) : Grants s a t := by
  cases (steps taken).2 with
  | run n ran => exact .placid (placid_run ran)
  | work k rest front busy => exact grants_work posting front
  | invoke call rest front =>
    have popped : Placid s { s with net := (s.goesOn rest).net.recordCall call } := by
      refine (placid_goesOn front).trans ?_
      cases call <;> exact placid_of_net rfl rfl rfl rfl
    refine .placid (popped.trans ?_)
    have does := does_onInvoke { s with net := (s.goesOn rest).net.recordCall call } call
    cases call with
    | write serial h ec =>
      cases h with
      | subscribe p => exact placid_onSubscribeWritten _ p ec
      | _ => exact placid_does does (by simp [invocationTopics])
    | _ => exact placid_does does (by simp [invocationTopics])
  | afterWrite ec rest front =>
    exact .placid ((placid_goesOn front).trans
      (placid_of_net rfl rfl (Net.afterWrite_posted _ ec) (Net.tame_afterWrite _ ec).running))
  | closeHandler rest front =>
    refine .placid ((placid_goesOn front).trans (placid_of_net rfl rfl rfl ?_))
    cases closing : s.net.closeHandler <;> rfl
  | ret rest front => exact .placid (placid_goesOn front)
  | call d allowed =>
    have does := does_call s d
    cases d with
    | asyncSubscribe topic qos able => exact .asks topic qos able rfl
    | handleSuback data => exact .takes _ rfl (takes_handleSuback s data)
    | handlePacket data =>
      rcases takes_handlePacket s s.attempts data with placid | ⟨pkt, same, takes⟩
      · exact .placid placid
      · exact .takes pkt same takes
    | _ => exact .placid (placid_does does (by simp [callTopics]))
  | kernel event n moved =>
    exact .placid (placid_of_net rfl rfl (Net.kernel_posted moved) (Net.tame_kernel moved).running)
  | expire index w waiting due =>
    refine .placid (placid_of_same rfl rfl fun k among about => ?_)
    rw [Sys.tasks, post, Net.post_posted, List.append_assoc] at among
    rcases List.mem_append.mp among with posted | later
    · exact List.mem_append_left _ posted
    rcases List.mem_append.mp later with timer | runs
    · obtain rfl : k = .timer w.handler none := by simpa [Task.own?] using timer
      cases about
    · exact List.mem_append_right _ runs
  | advance ms => exact .placid (placid_of_net rfl rfl rfl rfl)

end Sys
end LiteMqtt
