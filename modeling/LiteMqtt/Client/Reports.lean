import LiteMqtt.Client.Posting

/-!
# What the user is told of sessions

The three callbacks of the client, and the two events that open a session. `on_close_` is called at the end of
`notify_closed_once` only, and this runs once for each time that `closed_` was reset.
-/

namespace LiteMqtt

/-- One of the three callbacks is called, or a session may be open from now on. -/
def Event.isSessional : Event → Bool
  | .connectReport .. | .message .. | .closeReport | .connectCalled | .received .connack .. => true
  | _ => false

/-- `async_connect`, or a CONNACK that accepts. -/
def Event.opens : Event → Bool
  | .connectCalled => true
  | .received .connack _ codes => codes == [0]
  | _ => false

theorem Event.isSessional_of_opens {e : Event} (opens : e.opens = true) : e.isSessional = true := by
  cases e with
  | connectCalled => rfl
  | received pt p codes =>
    cases pt with
    | connack => rfl
    | _ => exact absurd opens Bool.false_ne_true
  | _ => exact absurd opens Bool.false_ne_true

/-- The code of `notify_closed_once` behind its test. -/
def Work.isClosing : Work → Bool
  | .publishEach _ | .publishCancel _ | .publishClear | .subscribeEach _ | .subscribeFilters .. | .subscribeClear
  | .notifyClose => true
  | _ => false

theorem Work.isClosing_of_posted {k : Work} (posted : k.isPosted = true) : k.isClosing = false := by
  cases k <;> first | rfl | cases posted

/-- What counts for the reports of a client. -/
structure Standing where
  events : List Event
  closing : List Work
  closed : Bool
  onConnectCb : Bool
  onMessageCb : Bool
  onCloseCb : Bool

/-- What a step is for the session. -/
inductive Standing.Turns (s : Standing) (a : Sys.Action) (t : Standing) : Prop where
  | same (same : t = s)
  | connects (callback : Bool) (called : a = .call (.asyncConnect callback))
      (same : t = { s with
        events := .connectCalled :: s.events, closed := false, onConnectCb := s.onConnectCb || callback })
  | answered (returnCode : UInt8)
      (same : t = { s with events := .received .connack 0 [returnCode] :: s.events, closed := returnCode != 0 })
  | timeout (same : t = { s with closed := true })
  | reports (set : s.onConnectCb = true) (success : Bool) (returnCode : UInt8)
      (same : t = { s with events := .connectReport success returnCode :: s.events })
  | delivers (set : s.onMessageCb = true) (topic payload : Bytes) (qos : UInt8) (packetId : UInt16)
      (same : t = { s with events := .message topic payload qos packetId :: s.events })
  | begins (opened : s.closed = false) (k : Work) (same : t = { s with closed := true, closing := k :: s.closing })
  | goesOn (k : Work) (rest next : List Work) (front : s.closing = k :: rest) (single : next.length ≤ 1)
      (same : t = { s with closing := next ++ rest })
  | ends (rest : List Work) (front : s.closing = .notifyClose :: rest)
      (same : t = { s with closing := rest, events := (if s.onCloseCb then [.closeReport] else []) ++ s.events })
  | sets (connect message close : Bool) (called : a = .call (.onConnect connect) ∨ a = .call (.onMessage message) ∨
      a = .call (.onClose close))
      (same : t = { s with onConnectCb := connect, onMessageCb := message, onCloseCb := close })

namespace Standing

variable {s t : Standing} {a : Sys.Action}

/-- The closes that were reported or are about to be, and that of a session which is still open. -/
def dues (s : Standing) : Nat := s.events.count .closeReport + s.closing.length + if s.closed then 0 else 1

/-- No step makes a close due that nothing opened. -/
theorem Turns.dues_le (turns : s.Turns a t) :
    t.dues + s.events.countP (·.opens) ≤ s.dues + t.events.countP (·.opens) := by
  cases turns with
  | same same => rw [same]
  | connects callback called same =>
    rw [same]
    simp [dues, Event.opens]
    omega
  | answered returnCode same =>
    rw [same]
    by_cases accepted : returnCode = 0
    · simp [dues, Event.opens, accepted]
      omega
    · simp [dues, Event.opens, accepted]
  | timeout same =>
    rw [same]
    simp [dues]
  | reports set success returnCode same =>
    rw [same]
    simp [dues, Event.opens]
  | delivers set topic payload qos p same =>
    rw [same]
    simp [dues, Event.opens]
  | begins opened k same =>
    rw [same]
    simp [dues, opened]
    omega
  | goesOn k rest next front single same =>
    rw [same]
    simp [dues, front]
    omega
  | ends rest front same =>
    rw [same]
    by_cases set : s.onCloseCb = true
    · simp [dues, Event.opens, front, set]
      omega
    · simp [dues, Event.opens, front, set]
  | sets connect message close called same =>
    rw [same]
    simp [dues]

end Standing

namespace Sys

variable {s t : Sys}

def standing (s : Sys) : Standing :=
  ⟨s.log.filter (·.isSessional), s.net.running.filter (·.isClosing), s.closed, s.onConnectCb, s.onMessageCb,
    s.onCloseCb⟩

/-! ### Code that leaves the session alone -/

theorem standing_of_net {n : Net Handler Work} (running : n.running = s.net.running) :
    ({ s with net := n } : Sys).standing = s.standing := by
  simp only [standing, running]

@[simp] theorem standing_write (s : Sys) (packet : Packet) (h : Handler) :
    (s.write packet h).standing = s.standing := rfl

@[simp] theorem standing_cancelTimer (s : Sys) (timer : Nat) : (s.cancelTimer timer).standing = s.standing := rfl

@[simp] theorem standing_armTimer (s : Sys) (timer after : Nat) (h : TimerHandler) :
    (s.armTimer timer after h).standing = s.standing := rfl

@[simp] theorem standing_startReadLoop (s : Sys) (attempt : Nat) : (s.startReadLoop attempt).standing = s.standing :=
  standing_of_net (Net.tame_asyncReadPacket s.net _).running

@[simp] theorem standing_closeConnection (s : Sys) : s.closeConnection.standing = s.standing := by
  have running := (closeConnection_tame s).running
  unfold closeConnection at running ⊢
  split
  · rfl
  · rename_i opened
    rw [if_neg opened] at running
    exact standing_of_net running

@[simp] theorem standing_cancelTimers (s : Sys) (timers : List Nat) :
    (s.cancelTimers timers).standing = s.standing := by
  induction timers generalizing s with
  | nil => rfl
  | cons timer timers ih => exact ih (s.cancelTimer timer)

@[simp] theorem standing_schedulePingreq (s : Sys) (attempt : Nat) :
    (s.schedulePingreq attempt).standing = s.standing := by
  unfold schedulePingreq
  split <;> rfl

@[simp] theorem standing_armPublishRetryTimer (s : Sys) (p : UInt16) :
    (s.armPublishRetryTimer p).standing = s.standing := by
  unfold armPublishRetryTimer
  split <;> rfl

@[simp] theorem standing_armPubrecRetryTimer (s : Sys) (p : UInt16) :
    (s.armPubrecRetryTimer p).standing = s.standing := by
  unfold armPubrecRetryTimer
  split <;> rfl

@[simp] theorem standing_cancelPublishRetryTimer (s : Sys) (p : UInt16) :
    (s.cancelPublishRetryTimer p).standing = s.standing := by
  unfold cancelPublishRetryTimer
  split <;> rfl

@[simp] theorem standing_tellPublish (s : Sys) (cb : Callback) (ok : Bool) (topic : Bytes) (qos : UInt8) (p : UInt16) :
    (s.tellPublish cb ok topic qos p).standing = s.standing := by
  unfold tellPublish
  split <;> rfl

@[simp] theorem standing_tellSubscribe (s : Sys) (cb : Callback) (ok : Bool) (topic : Bytes) (qos : UInt8) :
    (s.tellSubscribe cb ok topic qos).standing = s.standing := by
  unfold tellSubscribe
  split <;> rfl

@[simp] theorem standing_sendPublishEntry (s : Sys) (p : UInt16) : (s.sendPublishEntry p).standing = s.standing := by
  unfold sendPublishEntry
  split
  · rfl
  · exact standing_armPublishRetryTimer s p

theorem standing_sendPubrel (s : Sys) (p : UInt16) : (s.sendPubrel p).standing = s.standing :=
  standing_armPubrecRetryTimer s p

theorem standing_asyncPublishImpl (s : Sys) (topic payload : Bytes) (qos : UInt8) (cb : Callback) :
    (s.asyncPublishImpl topic payload qos cb).standing = s.standing := by
  have told := standing_tellPublish s cb false topic qos 0
  have acquired : s.acquirePacketId.1.standing = s.standing := rfl
  unfold asyncPublishImpl
  split
  · exact told
  split
  · exact told
  split
  · exact told
  split
  · rfl
  dsimp only
  split
  · exact acquired
  split
  · exact (standing_tellPublish _ _ _ _ _ _).trans acquired
  · exact (standing_sendPublishEntry _ _).trans acquired

theorem standing_asyncSubscribeImpl (s : Sys) (topic : Bytes) (qos : UInt8) (cb : Callback) :
    (s.asyncSubscribeImpl topic qos cb).standing = s.standing := by
  have told := standing_tellSubscribe s cb false topic 0
  unfold asyncSubscribeImpl
  split
  · exact told
  split
  · exact told
  dsimp only
  split <;> rfl

theorem standing_onSubscribeWritten (s : Sys) (p : UInt16) (ec : ErrorCode) :
    (s.onSubscribeWritten p ec).standing = s.standing := by
  unfold onSubscribeWritten
  split
  · rfl
  · split
    · split <;> rfl
    · dsimp only
      split <;> rfl

theorem standing_subscribeWritten (s : Sys) (p : UInt16) (cb : Callback) (rest : List (Bytes × UInt8)) :
    (s.subscribeWritten p cb rest).standing = s.standing := by
  unfold subscribeWritten
  split
  · rfl
  · split
    · exact standing_tellSubscribe _ _ _ _ _
    · rfl

theorem standing_finishPublishFailure (s : Sys) (p : UInt16) : (s.finishPublishFailure p).standing = s.standing := by
  unfold finishPublishFailure
  split
  · rfl
  · exact (standing_tellPublish _ _ _ _ _ _).trans (standing_cancelPublishRetryTimer s p)

theorem standing_onPublishRetry (s : Sys) (p : UInt16) : (s.onPublishRetry p).standing = s.standing := by
  unfold onPublishRetry
  split
  · rfl
  · split
    · rfl
    · exact standing_sendPublishEntry _ _

theorem standing_onPubrecRetry (s : Sys) (p : UInt16) : (s.onPubrecRetry p).standing = s.standing := by
  unfold onPubrecRetry
  split
  · rfl
  · split
    · rfl
    · exact standing_sendPubrel _ _

@[simp] theorem standing_erasePubrec (s : Sys) (p : UInt16) : (s.erasePubrec p).standing = s.standing := by
  unfold erasePubrec
  split <;> rfl

theorem standing_handleSuback (s : Sys) (data : Bytes) : (s.handleSuback data).standing = s.standing := by
  unfold handleSuback
  dsimp only
  split
  · rfl
  · split
    · rfl
    · split <;> rfl

theorem standing_subackEach (s : Sys) (cb : Callback) (rest : List (Bytes × UInt8)) :
    (s.subackEach cb rest).standing = s.standing := by
  unfold subackEach
  split
  · rfl
  · exact standing_tellSubscribe _ _ _ _ _

@[simp] theorem standing_finishPublishSuccess (s : Sys) (p : UInt16) :
    (s.finishPublishSuccess p).standing = s.standing := by
  unfold finishPublishSuccess
  split
  · rfl
  · exact (standing_tellPublish _ _ _ _ _ _).trans (standing_cancelPublishRetryTimer s p)

theorem standing_handlePuback (s : Sys) (data : Bytes) : (s.handlePuback data).standing = s.standing :=
  standing_finishPublishSuccess _ _

theorem standing_insertPubrec (s : Sys) (p : UInt16) : (s.insertPubrec p).standing = s.standing := by
  unfold insertPubrec
  dsimp only
  split <;> rfl

theorem standing_handlePubrec (s : Sys) (data : Bytes) : (s.handlePubrec data).standing = s.standing := by
  unfold handlePubrec
  dsimp only
  split
  · exact (standing_sendPubrel _ _).trans ((standing_insertPubrec _ _).trans (standing_cancelPublishRetryTimer _ _))
  · rfl

theorem standing_handlePubcomp (s : Sys) (data : Bytes) : (s.handlePubcomp data).standing = s.standing :=
  (standing_finishPublishSuccess _ _).trans (standing_erasePubrec _ _)

theorem standing_acknowledge (s : Sys) (qos : UInt8) (p : UInt16) : (s.acknowledge qos p).standing = s.standing := by
  unfold acknowledge
  split
  · rfl
  · split <;> rfl

theorem standing_onWritten (s : Sys) (h : Handler) (ec : ErrorCode) : (s.onWritten h ec).standing = s.standing := by
  unfold onWritten
  split
  · unfold onConnectWritten
    split
    · rfl
    · exact (standing_startReadLoop _ _).trans (standing_schedulePingreq s _)
  · exact standing_tellPublish _ _ _ _ _ _
  · split
    · rfl
    · exact standing_armPublishRetryTimer s _
  · unfold onPubrelWritten
    split
    · exact standing_erasePubrec s _
    · exact standing_armPubrecRetryTimer s _
  · exact standing_onSubscribeWritten s _ ec
  · split <;> rfl
  · unfold onPingreqWritten
    split <;> rfl
  · refine (standing_closeConnection _).trans ?_
    split <;> rfl
  · rfl
  · rfl

/-! ### Code that concerns the session -/

theorem standing_goesOn {k : Work} {rest : List (StackEntry Handler Work)} (front : s.net.stack = .own k :: rest) :
    s.standing =
      { (s.goesOn rest).standing with closing := [k].filter (·.isClosing) ++ (s.goesOn rest).standing.closing } := by
  have running : s.net.running = [k] ++ (s.goesOn rest).net.running := goesOn_running front
  simp only [standing, running, List.filter_append]
  rfl

theorem turns_handlePublish (a : Action) (s : Sys) (data : Bytes) :
    s.standing.Turns a (s.handlePublish data).standing := by
  unfold handlePublish
  generalize PublishPacket.parse data = pkt
  dsimp only
  split
  · exact .same rfl
  · split
    · rename_i set
      exact .delivers set _ _ _ _ rfl
    · exact .same rfl

theorem turns_reportConnect (a : Action) (s : Sys) (success : Bool) (returnCode : UInt8) :
    s.standing.Turns a (s.reportConnect success returnCode).standing := by
  unfold reportConnect
  split
  · rename_i set
    exact .reports set success returnCode rfl
  · exact .same rfl

theorem turns_handleConnack (a : Action) (s : Sys) (data : Bytes) :
    s.standing.Turns a (s.handleConnack data).standing := by
  unfold handleConnack
  generalize ConnackPacket.parse data = pkt
  dsimp only
  split
  · rename_i accepted
    refine .answered pkt.returnCode ?_
    rw [accepted]
    rfl
  · rename_i refused
    refine .answered pkt.returnCode ((standing_closeConnection _).trans ?_)
    rw [bne_iff_ne.mpr refused]
    rfl

theorem turns_handlePacket (a : Action) (s : Sys) (attempt : Nat) (data : Bytes) :
    s.standing.Turns a (s.handlePacket attempt data).standing := by
  unfold handlePacket
  split
  · exact .same rfl
  · split
    · exact turns_handleConnack a s _
    · exact turns_handlePublish a s _
    · exact .same (standing_handleSuback s _)
    · exact .same (standing_handlePuback s _)
    · exact .same (standing_handlePubrec s _)
    · exact .same rfl
    · exact .same (standing_handlePubcomp s _)
    · exact .same (standing_schedulePingreq _ _)
    · exact .same rfl

theorem turns_notifyClosedOnce (a : Action) (s : Sys) : s.standing.Turns a s.notifyClosedOnce.standing := by
  unfold notifyClosedOnce
  split
  · exact .same rfl
  · rename_i opened
    dsimp only
    split
    · exact .begins (Bool.eq_false_iff.mpr opened) _ rfl
    · exact .begins (Bool.eq_false_iff.mpr opened) _ rfl

theorem turns_onTimer (a : Action) (s : Sys) (h : TimerHandler) (ec : ErrorCode) :
    s.standing.Turns a (s.onTimer h ec).standing := by
  unfold onTimer
  split
  · exact .same rfl
  · cases h with
    | connectTimeout =>
      dsimp only
      unfold handleConnectTimeout
      split
      · exact .same rfl
      · exact .timeout (standing_closeConnection _)
    | publishRetry p => exact .same (standing_onPublishRetry s p)
    | pubrecRetry p => exact .same (standing_onPubrecRetry s p)
    | _ => exact .same rfl

/-- A piece of `notify_closed_once` is followed by one more, unless it reads freed memory. -/
theorem closing_continues (s : Sys) {k : Work} (closing : k.isClosing = true) (other : k ≠ .notifyClose) :
    ∃ next, next.length ≤ 1 ∧ (s.execute k).standing = { s.standing with closing := next ++ s.standing.closing } := by
  have pushes : ∀ (u : Sys) (next : Work), u.standing = s.standing → next.isClosing = true →
      ∃ more, more.length ≤ 1 ∧
          (u.push [next]).standing = { s.standing with closing := more ++ s.standing.closing } := by
    intro u next same closing
    refine ⟨[next], Nat.le_refl 1, ?_⟩
    rw [← same]
    show Standing.mk _ ((next :: u.net.running).filter _) _ _ _ _ = _
    rw [List.filter_cons_of_pos closing]
    rfl
  have stops : ∃ more, more.length ≤ 1 ∧ s.crash.standing = { s.standing with closing := more ++ s.standing.closing } :=
    ⟨[], Nat.zero_le 1, rfl⟩
  cases k with
  | publishEach p =>
    simp only [execute, publishEach]
    split
    · exact stops
    · obtain ⟨more, few, same⟩ := pushes s (.publishCancel p) rfl rfl
      exact ⟨more, few, (standing_tellPublish _ _ _ _ _ _).trans same⟩
  | publishCancel p =>
    simp only [execute, publishCancel]
    split
    · exact stops
    · split <;> exact pushes _ _ (standing_cancelTimer s _) rfl
  | publishClear =>
    have emptied : ∀ first later,
        ({ (s.cancelTimers first).cancelTimers later with
            pendingPublishes := .empty, pendingPubrecs := .empty } : Sys).standing = s.standing :=
      fun first later => (standing_cancelTimers _ _).trans (standing_cancelTimers _ _)
    simp only [execute, publishClear]
    split <;> exact pushes _ _ (emptied _ _) rfl
  | subscribeEach p =>
    simp only [execute, subscribeEach]
    split
    · exact stops
    · exact pushes s _ rfl rfl
  | subscribeFilters p cb rest =>
    simp only [execute, subscribeFilters]
    split
    · split
      · rename_i later
        obtain ⟨more, few, same⟩ := pushes s (.subscribeFilters p cb later) rfl rfl
        exact ⟨more, few, (standing_tellSubscribe _ _ _ _ _).trans same⟩
      · split <;> exact pushes s _ rfl rfl
    · exact stops
  | subscribeClear =>
    obtain ⟨more, few, same⟩ := pushes { s with pendingSubscribes := .empty } .notifyClose rfl rfl
    exact ⟨more, few, (standing_closeConnection _).trans same⟩
  | notifyClose => exact absurd rfl other
  | _ => cases closing

theorem turns_work (a : Action) {k : Work} {rest : List (StackEntry Handler Work)}
    (front : s.net.stack = .own k :: rest) :
    s.standing.Turns a ((s.goesOn rest).execute k).standing := by
  have popped := standing_goesOn front
  cases closing : k.isClosing with
  | true =>
    rw [List.filter_cons_of_pos closing] at popped
    have first : s.standing.closing = k :: (s.goesOn rest).standing.closing := by
      rw [popped]
      rfl
    by_cases last : k = .notifyClose
    · subst last
      have flag : s.standing.onCloseCb = (s.goesOn rest).onCloseCb := rfl
      refine .ends _ first ?_
      rw [flag, popped]
      show (s.goesOn rest).notifyClose.standing = _
      unfold notifyClose
      split <;> rfl
    · obtain ⟨next, single, same⟩ := closing_continues (s.goesOn rest) closing last
      exact .goesOn k _ next first single (same.trans (by rw [popped]))
  | false =>
    rw [List.filter_cons_of_neg (by simp [closing])] at popped
    have plain : s.standing = (s.goesOn rest).standing := popped
    rw [plain]
    cases k with
    | asyncPublishImpl topic payload qos cb => exact .same (standing_asyncPublishImpl _ topic payload qos cb)
    | asyncSubscribeImpl topic qos cb => exact .same (standing_asyncSubscribeImpl _ topic qos cb)
    | timer h ec => exact turns_onTimer a _ h ec
    | handlePacket attempt data => exact turns_handlePacket a _ attempt data
    | startReadLoop attempt => exact .same (standing_startReadLoop _ attempt)
    | acknowledge qos p => exact .same (standing_acknowledge _ qos p)
    | notifyClosedOnce => exact turns_notifyClosedOnce a _
    | finishPublishFailure p => exact .same (standing_finishPublishFailure _ p)
    | subackEach cb pairs => exact .same (standing_subackEach _ cb pairs)
    | subscribeWritten p cb filters => exact .same (standing_subscribeWritten _ p cb filters)
    | reportConnect success returnCode => exact turns_reportConnect a _ success returnCode
    | reportPublish cb topic qos => exact .same (standing_tellPublish _ cb false topic qos 0)
    | reportSubscribe cb topic => exact .same (standing_tellSubscribe _ cb false topic 0)
    | user => exact .same rfl
    | onClosed => exact .same rfl
    | _ => cases closing

theorem standing_popped {e : StackEntry Handler Work} {rest : List (StackEntry Handler Work)}
    (front : s.net.stack = e :: rest)
    (other : ∀ k, e = .own k → k.isClosing = false) : (s.goesOn rest).standing = s.standing := by
  cases e with
  | own k =>
    have same := standing_goesOn front
    rw [List.filter_cons_of_neg (by simp [other k rfl])] at same
    exact same.symm
  | _ =>
    refine standing_of_net ?_
    rw [Net.running, Net.running, front]
    rfl

theorem turns_onInvoke (a : Action) (s : Sys) (call : Invocation Handler) :
    s.standing.Turns a (s.onInvoke call).standing := by
  unfold onInvoke
  split
  · unfold onConnect
    split
    · exact .same rfl
    split
    · exact turns_reportConnect a s false 255
    · exact .same rfl
  · unfold onRead
    split <;> exact .same rfl
  · exact .same (standing_onWritten s _ _)
  · exact .same rfl

theorem turns_call (s : Sys) (c : Call) : s.standing.Turns (.call c) (s.call c).standing := by
  cases c with
  | asyncConnect callback =>
    refine .connects callback rfl ?_
    show (s.asyncConnect callback).standing = _
    unfold asyncConnect
    dsimp only
    split <;> rfl
  | close => exact .same (standing_closeConnection s)
  | onConnect callback => exact .sets callback s.onMessageCb s.onCloseCb (.inl rfl) rfl
  | onMessage callback => exact .sets s.onConnectCb callback s.onCloseCb (.inr (.inl rfl)) rfl
  | onClose callback => exact .sets s.onConnectCb s.onMessageCb callback (.inr (.inr rfl)) rfl
  | handlePacket data => exact turns_handlePacket _ s s.attempts data
  | handlePuback data => exact .same (standing_handlePuback s data)
  | handlePubrec data => exact .same (standing_handlePubrec s data)
  | handlePubcomp data => exact .same (standing_handlePubcomp s data)
  | handleSuback data => exact .same (standing_handleSuback s data)
  | handlePublish data => exact turns_handlePublish _ s data
  | _ => exact .same rfl

/-- A task that is taken is no code of `notify_closed_once`. -/
theorem standing_run {n : Net Handler Work} (posted : ∀ k ∈ s.net.posted, k.isPosted = true)
    (ran : s.net.run = some n) :
    ({ s with net := n } : Sys).standing = s.standing := by
  obtain ⟨idle, task, tail, ready, rfl⟩ := Net.run_cases ran
  have quiet : s.net.running = [] := by rw [Net.running, idle]; rfl
  have running := (Net.runTask_ran (s.net.leaving tail) task).running
  have left : (s.net.leaving tail).running = [] := quiet
  have none : ((s.net.leaving tail).runTask task).running.filter (·.isClosing) = [] := by
    rw [running, left, List.append_nil, List.filter_eq_nil_iff]
    intro k among closing
    have queued : k.isPosted = true := by
      refine posted k ?_
      rw [Net.posted, ready, List.filterMap_cons, Option.mem_toList.mp among]
      exact List.mem_cons_self
    exact Bool.false_ne_true ((Work.isClosing_of_posted queued).symm.trans closing)
  simp only [standing, none, quiet, List.filter_nil]

/-- Only what is meant to be posted is ever queued. -/
theorem posted_step {a : Action} (posted : ∀ k ∈ s.net.posted, k.isPosted = true) (taken : s.step a = some t) :
    ∀ k ∈ t.net.posted, k.isPosted = true := by
  cases (steps taken).2 with
  | run n ran =>
    obtain ⟨idle, task, tail, ready, rfl⟩ := Net.run_cases ran
    refine Net.runTask_posted (s.net.leaving tail) task ▸ fun k among => posted k ?_
    rw [Net.posted, ready, List.filterMap_cons]
    split
    · exact among
    · exact .tail _ among
  | work k rest front busy => exact posted_does (does_execute (s.goesOn rest) k) posted
  | invoke call rest front =>
    refine posted_does (does_onInvoke _ call) ?_
    cases call <;> exact posted
  | afterWrite ec rest front => exact Net.afterWrite_posted (s.goesOn rest).net ec ▸ posted
  | closeHandler rest front => exact posted
  | ret rest front => exact posted
  | call c allowed => exact posted_does (does_call s c) posted
  | kernel event n moved => exact Net.kernel_posted moved ▸ posted
  | expire index w waiting due =>
    exact posted_post (s := { s with waits := s.waits.eraseIdx index }) (k := .timer w.handler none) rfl posted
  | advance ms => exact posted

/-- What every step is for the session. -/
theorem turns_step {a : Action} (posted : ∀ k ∈ s.net.posted, k.isPosted = true) (taken : s.step a = some t) :
    s.standing.Turns a t.standing := by
  cases (steps taken).2 with
  | run n ran => exact .same (standing_run posted ran)
  | work k rest front busy => exact turns_work .exec front
  | invoke call rest front =>
    have plain : ({ s with net := (s.goesOn rest).net.recordCall call } : Sys).standing = s.standing := by
      refine Eq.trans ?_ (standing_popped front (by simp))
      cases call <;> rfl
    rw [← plain]
    exact turns_onInvoke .exec _ call
  | afterWrite ec rest front =>
    exact .same ((standing_of_net (Net.tame_afterWrite _ ec).running).trans (standing_popped front (by simp)))
  | closeHandler rest front =>
    have plain := standing_popped front (by simp)
    refine .same (Eq.trans (standing_of_net (s := s.goesOn rest) ?_) plain)
    cases closing : s.net.closeHandler <;> rfl
  | ret rest front => exact .same (standing_popped front fun k same => by cases same; rfl)
  | call c allowed => exact turns_call s c
  | kernel event n moved => exact .same (standing_of_net (Net.tame_kernel moved).running)
  | expire index w waiting due => exact .same rfl
  | advance ms => exact .same rfl

/-- In every run the user is told of at most one close for each `async_connect`, for each CONNACK that accepts, and for
the time before them. This counts a close that `notify_closed_once` is about to report, and that of a session which
is still open. -/
theorem closes_counted {actions : List Action} (done : Runs.exec step ({} : Sys) actions = some s) :
    s.log.count .closeReport + s.net.running.countP (·.isClosing) + (if s.closed then 0 else 1) ≤
      1 + s.log.countP (·.opens) := by
  have kept := Runs.Reaches.invariant
    (I := fun s => (∀ k ∈ s.net.posted, k.isPosted = true) ∧ s.standing.dues ≤ 1 + s.standing.events.countP (·.opens))
    ⟨fun _ among => absurd among List.not_mem_nil, Nat.le_refl 1⟩ (fun u a v before _ taken => ?_)
    (Runs.exec_reaches done (Runs.along_any actions))
  · have reported : s.standing.events.count .closeReport = s.log.count .closeReport := List.count_filter rfl
    have opened : s.standing.events.countP (·.opens) = s.log.countP (·.opens) := by
      simp only [standing, List.countP_filter]
      refine List.countP_congr fun e _ => Bool.and_eq_true_iff.trans ⟨And.left, fun opens => ?_⟩
      exact ⟨opens, Event.isSessional_of_opens opens⟩
    rw [← reported, ← opened, List.countP_eq_length_filter]
    exact kept.2
  · have turned := (turns_step before.1 taken).dues_le
    have bound := before.2
    exact ⟨posted_step before.1 taken, by omega⟩

/-- The broker ends an accepted session, and its close is reported. -/
theorem close_counted : ∃ s, Runs.exec step ({} : Sys) (.call (.onClose true) :: opened ++
      [.kernel (.read 0 (.error .eof)), .run, .run] ++ List.replicate 6 .exec) = some s ∧ s.log.count .closeReport = 1 ∧
    s.log.count .closeReport + s.net.running.countP (·.isClosing) + (if s.closed then 0 else 1) ≤
      1 + s.log.countP (·.opens) := by
  have run : (Runs.exec step ({} : Sys) (.call (.onClose true) :: opened ++
      [.kernel (.read 0 (.error .eof)), .run, .run] ++ List.replicate 6 .exec)).map (fun s =>
        s.log.count .closeReport == 1) = some true := by
    decide +kernel
  obtain ⟨s, done, once⟩ := Runs.exec_of_check run
  exact ⟨s, done, eq_of_beq once, closes_counted done⟩

end Sys
end LiteMqtt
