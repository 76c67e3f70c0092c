import LiteMqtt.Client.Posting
import LiteMqtt.Client.Retransmission

/-!
# Publishes keep their order

`async_publish` posts, and tasks run in the order in which they were posted. So the publishes that are sent
for the first time are sent in the order of their calls, whatever happens to the others.
-/

namespace LiteMqtt

/-- What `async_publish` is given. -/
structure Request where
  topic : Bytes
  payload : Bytes
  qos : UInt8
  deriving DecidableEq, Repr

def Work.request? : Work → Option Request
  | .asyncPublishImpl topic payload qos _ => some { topic, payload, qos }
  | _ => none

/-- A PUBLISH that is not a retransmission is handed to the connection. -/
def Event.request? : Event → Option Request
  | .handed (.publish pkt) =>
    if pkt.dup then none else some { topic := pkt.topicName, payload := pkt.payload, qos := pkt.qos }
  | _ => none

namespace Sys

def Action.request? : Action → Option Request
  | .call (.asyncPublish topic payload qos _) => some { topic, payload, qos }
  | _ => none

variable {s t u : Sys}

/-- The publishes that were sent, in the order of their first PUBLISH. -/
def sent (s : Sys) : List Request := (s.log.filterMap Event.request?).reverse

/-- The publish that the io thread has taken up. -/
def inHand (s : Sys) : List Request := s.net.running.filterMap Work.request?

/-- The publishes that are posted. -/
def queued (s : Sys) : List Request := s.net.posted.filterMap Work.request?

/-- What `send_publish_entry` sends of an entry from now on has the DUP flag set if it was sent before. -/
def Numbered (s : Sys) : Prop := ∀ p entry, s.pendingPublishes.find? p = some entry → 0 < entry.attempts

/-- These publishes are sent for the first time, and no other goes on its way. -/
structure Issues (news : List Request) (s t : Sys) : Prop where
  sent : t.sent = s.sent ++ news
  inHand : t.inHand = s.inHand
  queued : t.queued = s.queued
  numbered : s.Numbered → t.Numbered

/-- No publish goes on its way. -/
abbrev Aloof : Sys → Sys → Prop := Issues []

theorem Issues.trans {news more : List Request} (first : Issues news s t) (later : Issues more t u) :
    Issues (news ++ more) s u :=
  ⟨by rw [later.sent, first.sent, List.append_assoc], later.inHand.trans first.inHand, later.queued.trans first.queued,
    later.numbered ∘ first.numbered⟩

theorem aloof_of_same (log : t.log = s.log) (posted : t.net.posted = s.net.posted)
    (running : t.net.running = s.net.running)
    (publishes : t.pendingPublishes = s.pendingPublishes) : Aloof s t := by
  refine ⟨?_, ?_, ?_, fun numbered => ?_⟩
  · rw [sent, log, sent, List.append_nil]
  · rw [inHand, running, inHand]
  · rw [queued, posted, queued]
  · rw [Numbered, publishes]
    exact numbered

theorem Issues.refl (s : Sys) : Aloof s s := aloof_of_same rfl rfl rfl rfl

theorem issues_record (s : Sys) (e : Event) : Issues e.request?.toList s (s.record e) := by
  refine ⟨?_, rfl, rfl, id⟩
  show ((e :: s.log).filterMap Event.request?).reverse = _
  cases request : e.request? with
  | none => simp [sent, request]
  | some r => simp [sent, request]

theorem aloof_record {e : Event} (quiet : e.request? = none) : Aloof s (s.record e) := by
  have recorded := issues_record s e
  rwa [quiet] at recorded

theorem aloof_push {k : Work} (other : k.request? = none) : Aloof s (s.push [k]) := by
  refine ⟨(List.append_nil _).symm, ?_, rfl, id⟩
  show (k :: s.net.running).filterMap Work.request? = _
  rw [List.filterMap_cons_none other]
  rfl

theorem aloof_cancelTimer (s : Sys) (timer : Nat) : Aloof s (s.cancelTimer timer) := by
  refine ⟨(List.append_nil _).symm, rfl, ?_, id⟩
  have timers : (s.aborted timer).filterMap Work.request? = [] := by
    refine List.filterMap_eq_nil_iff.mpr fun k among => ?_
    obtain ⟨w, -, rfl⟩ := List.mem_map.mp among
    rfl
  rw [queued, cancelTimer_posted, List.filterMap_append, timers, List.append_nil]
  rfl

theorem issues_write (s : Sys) (packet : Packet) (handler : Handler) :
    Issues (Event.handed packet).request?.toList s (s.write packet handler) := by
  have written : Aloof s { s with net := s.net.asyncWritePacket packet.serialize (some handler) } :=
    aloof_of_same rfl (Net.asyncWritePacket_posted _ _ _) rfl rfl
  exact written.trans (issues_record _ _)

theorem aloof_closeConnection (s : Sys) : Aloof s s.closeConnection := by
  have same : Aloof s { s with net := s.closeConnection.net } :=
    aloof_of_same rfl (closeConnection_posted s) (closeConnection_tame s).running rfl
  refine same.trans ?_
  unfold closeConnection
  split
  · exact .refl _
  · exact aloof_record rfl

/-- Code that is not about publishes leaves them where they are. -/
theorem aloof_apply {e : Effect} (inside : e.within apart = true) : Aloof s (s.apply e) := by
  have other : e.topic ≠ some .publish := Effect.topic_of_within inside (by decide)
  cases e with
  | record x =>
    refine aloof_record ?_
    cases x with
    | handed packet => cases packet <;> first | rfl | exact absurd rfl other
    | _ => rfl
  | push k => exact aloof_push (by cases k <;> first | rfl | exact absurd rfl other)
  | post k =>
    refine ⟨(List.append_nil _).symm, rfl, ?_, id⟩
    have none : k.request? = none := by cases k <;> first | rfl | exact absurd rfl other
    show (s.net.post (.own k)).posted.filterMap Work.request? = _
    rw [Net.post_posted, List.filterMap_append]
    simp [Task.own?, none, queued]
  | write packet handler =>
    have written := issues_write s packet handler
    have quiet : (Event.handed packet).request? = none := by cases packet <;> first | rfl | exact absurd rfl other
    rwa [quiet] at written
  | closeConnection => exact aloof_closeConnection s
  | cancelTimer timer => exact aloof_cancelTimer s timer
  | startReadLoop attempt =>
    exact aloof_of_same rfl (Net.asyncReadPacket_posted _ _) (Net.tame_asyncReadPacket _ _).running rfl
  | asyncConnect callback =>
    obtain ⟨v, which, net⟩ := asyncConnect_net s callback
    have cancelled : Aloof s v := by
      rcases which with same | same
      · exact same ▸ .refl s
      · exact same ▸ aloof_cancelTimer s connectTimer
    have publishes : v.pendingPublishes = s.pendingPublishes ∧ v.log = s.log := by
      rcases which with same | same <;> exact same ▸ ⟨rfl, rfl⟩
    have connects := asyncConnect_connects s callback
    refine cancelled.trans ⟨?_, ?_, ?_, fun numbered => ?_⟩
    · show ((s.asyncConnect callback).log.filterMap Event.request?).reverse = _
      rw [connects.log, sent, publishes.2, List.append_nil]
      rfl
    · show (s.asyncConnect callback).net.running.filterMap Work.request? = _
      rw [net]
      rfl
    · show (s.asyncConnect callback).net.posted.filterMap Work.request? = _
      rw [net]
      rfl
    · show Numbered (s.asyncConnect callback)
      rw [Numbered, connects.publishes, ← publishes.1]
      exact numbered
  | setPublishes entries => exact absurd rfl other
  | _ => exact aloof_of_same rfl rfl rfl rfl

theorem aloof_does (does : Does apart s t) : Aloof s t := by
  refine does.keeps (I := fun u => Aloof s u) (fun u e inside before => ?_) (.refl s)
  exact before.trans (aloof_apply inside)

/-! ### The functions that are about publishes -/

theorem aloof_tellPublish (s : Sys) (cb : Callback) (ok : Bool) (topic : Bytes) (qos : UInt8) (p : UInt16) :
    Aloof s (s.tellPublish cb ok topic qos p) := by
  unfold tellPublish
  split
  · exact (aloof_record rfl).trans (aloof_push rfl)
  · exact .refl s

theorem aloof_cancelPublishRetryTimer (s : Sys) (p : UInt16) : Aloof s (s.cancelPublishRetryTimer p) := by
  unfold cancelPublishRetryTimer
  split
  · exact .refl s
  · exact aloof_cancelTimer s _

theorem aloof_armPublishRetryTimer (s : Sys) (p : UInt16) : Aloof s (s.armPublishRetryTimer p) := by
  unfold armPublishRetryTimer
  split
  · exact .refl s
  · exact (aloof_cancelTimer s _).trans (aloof_of_same rfl rfl rfl rfl)

theorem aloof_entries {entries : OrderedMap UInt16 PendingPublish} (numbered : s.Numbered →
    ∀ p entry, entries.find? p = some entry → 0 < entry.attempts) : Aloof s { s with pendingPublishes := entries } :=
  ⟨(List.append_nil _).symm, rfl, rfl, numbered⟩

theorem aloof_erase (s : Sys) (p : UInt16) : Aloof s { s with pendingPublishes := s.pendingPublishes.erase p } := by
  refine aloof_entries fun numbered q entry found => ?_
  rw [OrderedMap.find?_erase] at found
  split at found
  · cases found
  · exact numbered q entry found

theorem aloof_finishPublishSuccess (s : Sys) (p : UInt16) : Aloof s (s.finishPublishSuccess p) := by
  unfold finishPublishSuccess
  split
  · exact .refl s
  · exact (aloof_cancelPublishRetryTimer s p).trans ((aloof_erase _ p).trans (aloof_tellPublish _ _ _ _ _ _))

theorem aloof_finishPublishFailure (s : Sys) (p : UInt16) : Aloof s (s.finishPublishFailure p) := by
  unfold finishPublishFailure
  split
  · exact aloof_push rfl
  · exact (aloof_cancelPublishRetryTimer s p).trans ((aloof_erase _ p).trans ((aloof_push rfl).trans
      (aloof_tellPublish _ _ _ _ _ _)))

theorem aloof_publishEach (s : Sys) (p : UInt16) : Aloof s (s.publishEach p) := by
  unfold publishEach
  split
  · exact aloof_of_same rfl rfl rfl rfl
  · exact (aloof_push rfl).trans (aloof_tellPublish _ _ _ _ _ _)

theorem aloof_cancelTimers (s : Sys) (timers : List Nat) : Aloof s (s.cancelTimers timers) := by
  induction timers generalizing s with
  | nil => exact .refl s
  | cons timer timers ih => exact (aloof_cancelTimer s timer).trans (ih _)

theorem aloof_publishClear (s : Sys) : Aloof s s.publishClear := by
  have cleared : ∀ u : Sys, Aloof u { u with pendingPublishes := .empty, pendingPubrecs := .empty } := fun u =>
    ⟨(List.append_nil _).symm, rfl, rfl, fun _ p entry found => absurd (OrderedMap.find?_empty p ▸ found) (by simp)⟩
  have before := (aloof_cancelTimers s (s.pendingPublishes.entries.map fun e => e.2.timer)).trans
    ((aloof_cancelTimers _ (s.pendingPubrecs.entries.map fun e => e.2.timer)).trans (cleared _))
  have same : ∀ timers, (s.cancelTimers timers).pendingPubrecs = s.pendingPubrecs :=
    fun timers => (cancelTimers_same s timers).2.2
  unfold publishClear
  dsimp only
  rw [same]
  split
  · exact before.trans (aloof_push rfl)
  · exact before.trans (aloof_push rfl)

/-- An entry is sent, with DUP if it was sent before. -/
theorem issues_sendPublishEntry {p : UInt16} {entry : PendingPublish}
    (found : s.pendingPublishes.find? p = some entry) :
    Issues (if entry.attempts > 1 then [] else [{ topic := entry.topic, payload := entry.payload, qos := entry.qos }]) s
      (s.sendPublishEntry p) := by
  have armed := aloof_armPublishRetryTimer s p
  unfold sendPublishEntry
  rw [found]
  have issued := armed.trans (issues_write _ (.publish (entry.frame p (decide (entry.attempts > 1)))) (.publish p))
  by_cases again : entry.attempts > 1
  · rw [if_pos again]
    simpa [Event.request?, PendingPublish.frame, again] using issued
  · rw [if_neg again]
    simpa [Event.request?, PendingPublish.frame, again] using issued

theorem aloof_insertPublish (s : Sys) (p : UInt16) (topic payload : Bytes) (qos : UInt8) (cb : Callback) :
    Aloof s (s.insertPublish p topic payload qos cb) := by
  let u : Sys := { s with nextTimer := s.nextTimer + 1 }
  have numbered : Aloof s u := aloof_of_same rfl rfl rfl rfl
  let entry : PendingPublish := { topic, qos, payload, callback := cb, timer := s.nextTimer, attempts := 1 }
  have stored : Aloof u { u with pendingPublishes := u.pendingPublishes.insert p entry } := by
    refine aloof_entries fun counted q other found => ?_
    rw [OrderedMap.find?_insert] at found
    split at found
    · obtain rfl := Option.some.inj found
      exact Nat.one_pos
    · exact counted q other found
  exact numbered.trans (stored.trans (aloof_record (e := .accepted p qos cb) rfl))

theorem issues_asyncPublishImpl (s : Sys) (topic payload : Bytes) (qos : UInt8) (cb : Callback) :
    ∃ news, news.Sublist [{ topic, payload, qos }] ∧ Issues news s (s.asyncPublishImpl topic payload qos cb) := by
  have told : ∀ u : Sys, Aloof s u → ∃ news : List Request, news.Sublist [{ topic, payload, qos }] ∧
      Issues news s (u.tellPublish cb false topic qos 0) := fun u before =>
    ⟨[], List.nil_sublist _, before.trans (aloof_tellPublish u cb false topic qos 0)⟩
  have acquired : Aloof s s.acquirePacketId.1 := aloof_of_same rfl rfl rfl rfl
  unfold asyncPublishImpl
  split
  · exact told s (.refl s)
  split
  · exact told s (.refl s)
  split
  · exact told s (.refl s)
  split
  · rename_i zero
    subst zero
    exact ⟨_, .refl _,
      (aloof_record rfl).trans (issues_write _ (.publish { topicName := topic, payload }) (.publish0 cb topic))⟩
  dsimp only
  split
  · have pushed :
        Aloof s.acquirePacketId.1 (s.acquirePacketId.1.push [.notifyClosedOnce, .reportPublish cb topic qos]) :=
      (aloof_push (k := .reportPublish cb topic qos) rfl).trans (aloof_push rfl)
    exact ⟨[], List.nil_sublist _, acquired.trans pushed⟩
  split
  · exact told _ acquired
  · have inserted := aloof_insertPublish s.acquirePacketId.1 s.acquirePacketId.2 topic payload qos cb
    have issued :=
        issues_sendPublishEntry (s := s.acquirePacketId.1.insertPublish s.acquirePacketId.2 topic payload qos cb)
      (p := s.acquirePacketId.2) (by simp [insertPublish, record, OrderedMap.find?_insert]; rfl)
    exact ⟨_, .refl _, acquired.trans (inserted.trans issued)⟩

/-- A publish that was sent before is sent again with DUP. -/
theorem aloof_onPublishRetry (numbered : s.Numbered) (p : UInt16) : Aloof s (s.onPublishRetry p) := by
  unfold onPublishRetry
  split
  · exact .refl s
  · rename_i entry found
    split
    · exact aloof_push rfl
    · have counted : Aloof s { s with
          pendingPublishes := s.pendingPublishes.insert p { entry with attempts := entry.attempts + 1 } } := by
        refine aloof_entries fun numbered q other held => ?_
        rw [OrderedMap.find?_insert] at held
        split at held
        · obtain rfl := Option.some.inj held
          exact Nat.succ_pos _
        · exact numbered q other held
      let u : Sys :=
        { s with pendingPublishes := s.pendingPublishes.insert p { entry with attempts := entry.attempts + 1 } }
      have held : u.pendingPublishes.find? p = some { entry with attempts := entry.attempts + 1 } := by
        simp [u, OrderedMap.find?_insert]
      have again := issues_sendPublishEntry held
      rw [if_pos (Nat.succ_lt_succ (numbered p entry found))] at again
      exact counted.trans again

/-! ### Every run -/

/-- What was sent, what the io thread has in hand and what is posted are publishes in the order of their calls. -/
structure InOrder (requests : List Request) (s : Sys) : Prop where
  numbered : s.Numbered
  order : (s.sent ++ s.inHand ++ s.queued).Sublist requests

variable {requests : List Request}

theorem inOrder_aloof (aloof : Aloof s t) (before : s.InOrder requests) : t.InOrder requests := by
  refine ⟨aloof.numbered before.numbered, ?_⟩
  rw [aloof.sent, aloof.inHand, aloof.queued, List.append_nil]
  exact before.order

theorem inOrder_popped (popped : s.Popped u) (before : s.InOrder requests) : u.InOrder requests := by
  have fewer : u.inHand.Sublist s.inHand := by
    refine List.Sublist.filterMap _ (List.Sublist.filterMap _ ?_)
    rcases popped.stack with same | tail
    · exact same ▸ .refl _
    · exact tail ▸ List.tail_sublist _
  have sent : u.sent = s.sent := by rw [popped.same]; rfl
  have queued : u.queued = s.queued := by rw [popped.same]; rfl
  refine ⟨by rw [popped.same]; exact before.numbered, List.Sublist.trans ?_ before.order⟩
  rw [sent, queued]
  exact ((List.Sublist.refl s.sent).append fewer).append (.refl s.queued)

/-- The io thread takes up what was posted first. -/
theorem inOrder_run {n : Net Handler Work} (before : s.InOrder requests) (ran : s.net.run = some n) :
    InOrder requests { s with net := n } := by
  obtain ⟨idle, task, tail, ready, rfl⟩ := Net.run_cases ran
  refine ⟨before.numbered, ?_⟩
  have quiet : s.inHand = [] := by
    rw [inHand, Net.running, idle]
    rfl
  have first :
      s.queued = (task.own?.bind Work.request?).toList ++ (s.net.leaving tail).posted.filterMap Work.request? := by
    rw [queued, Net.posted, ready, List.filterMap_cons, Net.posted, Net.leaving]
    cases own : task.own? with
    | none => rfl
    | some k => cases request : k.request? <;> simp [request]
  have running : ((s.net.leaving tail).runTask task).running = task.own?.toList := by
    have ran := (Net.runTask_ran (s.net.leaving tail) task).running
    have still : (s.net.leaving tail).running = [] := by rw [Net.running, Net.leaving, idle]; rfl
    rwa [still, List.append_nil] at ran
  have taken : inHand { s with net := (s.net.leaving tail).runTask task } = (task.own?.bind Work.request?).toList := by
    rw [inHand, running]
    cases own : task.own? with
    | none => rfl
    | some k => cases request : k.request? <;> simp [request]
  have order := before.order
  rw [quiet, first, List.append_nil, ← List.append_assoc] at order
  rw [taken, queued, Net.runTask_posted]
  exact order

theorem inOrder_bare {a : Action} (bare : s.Bare a t) (before : s.InOrder requests) : t.InOrder requests := by
  cases bare with
  | run n ran => exact inOrder_run before ran
  | afterWrite ec rest front =>
    refine inOrder_aloof (s := s.goesOn rest) ?_ (inOrder_popped (popped_goesOn front) before)
    exact aloof_of_same rfl (Net.afterWrite_posted _ ec) (Net.tame_afterWrite _ ec).running rfl
  | closeHandler rest front =>
    refine inOrder_aloof (s := s.goesOn rest) ?_ (inOrder_popped (popped_goesOn front) before)
    refine aloof_of_same rfl rfl ?_ rfl
    cases closing : s.net.closeHandler with
    | none => rfl
    | some closed => exact List.filterMap_cons_none rfl
  | kernel event n moved =>
    have aloof : Aloof s { s with net := n } :=
      aloof_of_same rfl (Net.kernel_posted moved) (Net.tame_kernel moved).running rfl
    exact inOrder_aloof aloof before
  | expire index w waiting due =>
    refine inOrder_aloof (s := s) ⟨(List.append_nil _).symm, rfl, ?_, id⟩ before
    show (s.net.post (.own (.timer w.handler none))).posted.filterMap Work.request? = s.queued
    rw [Net.post_posted, List.filterMap_append]
    exact List.append_nil _
  | advance ms =>
    have aloof : Aloof s { s with now := s.now + ms } := aloof_of_same rfl rfl rfl rfl
    exact inOrder_aloof aloof before

/-- The publish in hand is sent, or never will be. -/
theorem inOrder_impl {topic payload : Bytes} {qos : UInt8} {cb : Callback} {rest : List (StackEntry Handler Work)}
    (before : s.InOrder requests) (front : s.net.stack = .own (.asyncPublishImpl topic payload qos cb) :: rest) :
    InOrder requests ((s.goesOn rest).asyncPublishImpl topic payload qos cb) := by
  obtain ⟨news, few, issues⟩ := issues_asyncPublishImpl (s.goesOn rest) topic payload qos cb
  refine ⟨issues.numbered before.numbered, ?_⟩
  have hand : s.inHand = { topic, payload, qos } :: (s.goesOn rest).inHand := by
    rw [inHand, goesOn_running front]
    rfl
  have order := before.order
  rw [hand] at order
  rw [issues.sent, issues.inHand, issues.queued, List.append_assoc (s.goesOn rest).sent]
  refine List.Sublist.trans ?_ order
  have more : (news ++ (s.goesOn rest).inHand).Sublist ({ topic, payload, qos } :: (s.goesOn rest).inHand) :=
    few.append (.refl _)
  exact ((List.Sublist.refl s.sent).append more).append (.refl s.queued)

/-- What a step adds to the requests. -/
theorem inOrder_step {a : Action} (before : s.InOrder requests) (taken : s.step a = some t) :
    t.InOrder (requests ++ a.request?.toList) := by
  have nothing : t.InOrder requests → t.InOrder (requests ++ a.request?.toList) := fun after =>
    ⟨after.numbered, after.order.trans (List.sublist_append_left _ _)⟩
  cases publishing_outline taken with
  | bare a t bare => exact nothing (inOrder_bare bare before)
  | asyncPublish topic payload qos callable =>
    refine ⟨before.numbered, ?_⟩
    have posted : (s.asyncPublish topic payload qos callable).queued = s.queued ++ [Request.mk topic payload qos] := by
      show (s.net.post (.own (.asyncPublishImpl topic payload qos _))).posted.filterMap Work.request? = _
      rw [Net.post_posted, List.filterMap_append]
      rfl
    have sent : (s.asyncPublish topic payload qos callable).sent = s.sent := rfl
    have hand : (s.asyncPublish topic payload qos callable).inHand = s.inHand := rfl
    rw [posted, sent, hand, ← List.append_assoc]
    exact before.order.append (.refl _)
  | impl topic payload qos cb rest front => exact nothing (inOrder_impl before front)
  | retry p rest front =>
    have popped := inOrder_popped (popped_goesOn front) before
    exact nothing (inOrder_aloof (aloof_onPublishRetry popped.numbered p) popped)
  | failure p rest front =>
    exact nothing (inOrder_aloof (aloof_finishPublishFailure _ p) (inOrder_popped (popped_goesOn front) before))
  | report cb topic qos rest front =>
    exact nothing (inOrder_aloof (aloof_tellPublish _ _ _ _ _ _) (inOrder_popped (popped_goesOn front) before))
  | each p rest front =>
    exact nothing (inOrder_aloof (aloof_publishEach _ p) (inOrder_popped (popped_goesOn front) before))
  | clear rest front =>
    exact nothing (inOrder_aloof (aloof_publishClear _) (inOrder_popped (popped_goesOn front) before))
  | written0 serial cb topic ec rest front =>
    exact nothing (inOrder_aloof (aloof_tellPublish _ _ _ _ _ _) (inOrder_popped (popped_recordCall front) before))
  | written serial p rest front =>
    exact nothing (inOrder_aloof (aloof_armPublishRetryTimer _ p) (inOrder_popped (popped_recordCall front) before))
  | acked a u v p popped does deed =>
    exact nothing
      (inOrder_aloof ((aloof_does does).trans (aloof_finishPublishSuccess v p)) (inOrder_popped popped before))
  | other a u t popped does => exact nothing (inOrder_aloof (aloof_does does) (inOrder_popped popped before))

theorem inOrder_run_of {actions : List Action} (before : s.InOrder requests)
    (done : Runs.exec step s actions = some t) :
    t.InOrder (requests ++ actions.filterMap Action.request?) := by
  induction actions generalizing s requests with
  | nil =>
    obtain rfl := Option.some.inj done
    simpa using before
  | cons a rest ih =>
    obtain ⟨m, first, later⟩ := Runs.exec_cons done
    have after := ih (inOrder_step before first) later
    cases request : a.request? <;> simpa [request] using after

theorem inOrder_start : InOrder [] ({} : Sys) :=
  ⟨fun p entry found => by simp [OrderedMap.find?_empty] at found, .refl _⟩

/-- In every run the publishes that are sent are sent for the first time in the order of the `async_publish`
calls, each at most once for its call, and as the call gave them. -/
theorem publishes_keep_order {actions : List Action} (done : Runs.exec step ({} : Sys) actions = some s) :
    s.sent.Sublist (actions.filterMap Action.request?) := by
  have order := (inOrder_run_of inOrder_start done).order
  rw [List.append_assoc] at order
  exact (List.sublist_append_left _ _).trans order

/-- Two publishes are called before the io thread takes up the first. -/
def twoInARow : List Action :=
  opened ++ [.call (.asyncPublish [0x74] [1] 1 true), .call (.asyncPublish [0x74] [2] 0 true), .run, .exec, .run, .exec]

theorem two_publishes_keep_order : ∃ s, Runs.exec step ({} : Sys) twoInARow = some s ∧
    s.sent = [⟨[0x74], [1], 1⟩, ⟨[0x74], [2], 0⟩] ∧ s.sent.Sublist (twoInARow.filterMap Action.request?) := by
  have run : (Runs.exec step ({} : Sys) twoInARow).map
      (fun s => decide (s.sent = [⟨[0x74], [1], 1⟩, ⟨[0x74], [2], 0⟩])) = some true := by
    decide +kernel
  obtain ⟨s, done, sent⟩ := Runs.exec_of_check run
  exact ⟨s, done, of_decide_eq_true sent, publishes_keep_order done⟩

end Sys
end LiteMqtt
