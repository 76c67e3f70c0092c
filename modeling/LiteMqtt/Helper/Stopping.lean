import LiteMqtt.Client.Reports
import LiteMqtt.Helper.Following

/-!
# After stop

From a `stop` to the next `start` the helper connects nowhere and waits for nothing, whatever it had queued and
whatever its client still reports. Once the client is released, nobody hears of it until the next `start`.
-/

namespace LiteMqtt

/-- One of the callbacks of the client is called. -/
def Event.isReport : Event → Bool
  | .connectReport .. | .message .. | .closeReport => true
  | _ => false

namespace Standing

variable {s t : Standing} {a : Sys.Action}

/-- Only `async_connect` starts an attempt. -/
theorem Turns.connects_same (turns : s.Turns a t) (other : ∀ callback, a ≠ .call (.asyncConnect callback)) :
    t.events.count .connectCalled = s.events.count .connectCalled := by
  cases turns with
  | connects callback called same => exact absurd called (other callback)
  | ends rest front same =>
    rw [same]
    by_cases set : s.onCloseCb = true <;> simp [set]
  | _ => simp_all

/-- None of the three callbacks is set. -/
structure Deaf (s : Standing) : Prop where
  connect : s.onConnectCb = false
  message : s.onMessageCb = false
  close : s.onCloseCb = false

/-- A client without callbacks reports nothing. -/
theorem Turns.deaf (turns : s.Turns a t) (deaf : s.Deaf) (other : ∀ c, a ≠ .call c) :
    t.Deaf ∧ t.events.filter (·.isReport) = s.events.filter (·.isReport) := by
  obtain ⟨connect, message, close⟩ := deaf
  cases turns with
  | connects callback called same => exact absurd called (other _)
  | reports set success returnCode same => exact absurd (connect.symm.trans set) Bool.false_ne_true
  | delivers set topic payload qos p same => exact absurd (message.symm.trans set) Bool.false_ne_true
  | ends rest front same =>
    rw [close, if_neg Bool.false_ne_true] at same
    subst same
    exact ⟨⟨connect, message, rfl⟩, rfl⟩
  | sets callback delivery ending called same => rcases called with rfl | rfl | rfl <;> exact absurd rfl (other _)
  | _ =>
    rename_i same
    subst same
    exact ⟨⟨connect, message, close⟩, rfl⟩

end Standing

namespace Helper

variable {h g : Helper}

/-- Nothing of the backoff is left. -/
structure Stopped (h : Helper) : Prop where
  stopped : h.userStopped = true
  should : h.shouldReconnect = false
  running : h.running = false
  wait : h.wait = none

/-- The helper stays stopped and connects nowhere. -/
structure Stays (h g : Helper) : Prop where
  stopped : g.Stopped
  armed : g.armed = h.armed
  asked : ∃ asks, g.asked = h.asked ++ asks ∧ .asyncConnect ∉ asks

theorem Stopped.stays (stopped : h.Stopped) : Stays h h :=
  ⟨stopped, rfl, [], (List.append_nil _).symm, List.not_mem_nil⟩

theorem Stays.of_same {f : Helper} (stays : Stays h g) (stopped : f.userStopped = g.userStopped)
    (should : f.shouldReconnect = g.shouldReconnect) (running : f.running = g.running) (wait : f.wait = g.wait)
    (armed : f.armed = g.armed) (asked : f.asked = g.asked) : Stays h f :=
  ⟨⟨stopped.trans stays.stopped.stopped, should.trans stays.stopped.should, running.trans stays.stopped.running,
    wait.trans stays.stopped.wait⟩, armed.trans stays.armed, asked ▸ stays.asked⟩

theorem Stays.ask (stays : Stays h g) (asks : List Ask) (other : .asyncConnect ∉ asks) :
    Stays h { g with asked := g.asked ++ asks } := by
  obtain ⟨earlier, asked, none⟩ := stays.asked
  obtain ⟨stopped, should, running, wait⟩ := stays.stopped
  refine ⟨⟨stopped, should, running, wait⟩, stays.armed, earlier ++ asks, ?_, ?_⟩
  · rw [← List.append_assoc, ← asked]
  · rw [List.mem_append, not_or]
    exact ⟨none, other⟩

theorem Stopped.doReconnect (stopped : h.Stopped) : h.doReconnect = h := by
  unfold Helper.doReconnect
  rw [if_pos (by simp [stopped.stopped])]

theorem Stopped.onClose (stopped : h.Stopped) : h.onClose = h := by
  unfold Helper.onClose
  rw [if_neg (by simp [stopped.should])]

theorem Stopped.rearmReconnect (stopped : h.Stopped) : h.rearmReconnect = (h, false) := by
  unfold Helper.rearmReconnect
  rw [if_pos (by simp [stopped.stopped])]

theorem Stopped.onConnect (stopped : h.Stopped) (success : Bool) : Stays h (h.onConnect success) := by
  unfold Helper.onConnect
  split
  · exact stopped.doReconnect.symm ▸ stopped.stays
  · have reset : Stays h { h with reconnectAttempts := 0, initialConnect := false } :=
      stopped.stays.of_same rfl rfl rfl rfl rfl rfl
    unfold restoreSubscriptions
    split
    · exact reset.ask _ (by simp)
    · exact reset

/-- A chore that was left in the queue. -/
theorem Stopped.perform {c : Chore} {rest : List Chore} (stopped : h.Stopped) :
    Stays h ({ h with chores := rest }.perform c) := by
  cases c with
  | waited ec =>
    simp only [Helper.perform, onWaited]
    split
    · exact stopped.stays.of_same rfl rfl rfl rfl rfl rfl
    · rw [if_neg (by simp [stopped.should])]
      exact stopped.stays.of_same rfl rfl rfl rfl rfl rfl
  | rearm =>
    simp only [Helper.perform, onRearm]
    rw [if_pos (by simp [stopped.stopped])]
    exact stopped.stays.of_same rfl rfl rfl rfl rfl rfl

theorem stays_abandon (h : Helper) : Stays h { h.abandonReconnect with running := false } :=
  ⟨⟨rfl, rfl, rfl, rfl⟩, rfl, [], (List.append_nil _).symm, List.not_mem_nil⟩

/-- A disconnect is asked for at most. -/
theorem stays_stopOnIoThread (h : Helper) : Stays h h.stopOnIoThread := by
  have abandoned := stays_abandon h
  unfold stopOnIoThread
  dsimp only
  split
  · exact (abandoned.ask [.asyncDisconnect] (by simp)).of_same rfl rfl rfl rfl rfl rfl
  · exact abandoned.of_same rfl rfl rfl rfl rfl rfl

theorem stays_beginStop (h : Helper) : Stays h h.beginStop := by
  have abandoned := stays_abandon h
  unfold beginStop
  dsimp only
  split
  · exact abandoned.ask _ (by simp)
  · exact abandoned

theorem stays_releaseClient (stays : Stays h g) : Stays h g.releaseClient := by
  unfold releaseClient
  split
  · have cleared := stays.ask [.clearCallbacks, .close] (by simp)
    refine cleared.of_same rfl rfl rfl rfl rfl ?_
    exact List.append_assoc g.asked [.clearCallbacks] [.close]
  · exact stays

theorem Stopped.finishStop (stopped : h.Stopped) (wasRunning : Bool) : Stays h (h.finishStop wasRunning) := by
  unfold Helper.finishStop
  dsimp only
  split <;> split <;> exact stays_releaseClient (stopped.stays.of_same rfl rfl rfl rfl rfl rfl)

theorem Stays.trans {f : Helper} (first : Stays h g) (later : Stays g f) : Stays h f := by
  obtain ⟨asks, asked, none⟩ := first.asked
  obtain ⟨more, next, nor⟩ := later.asked
  refine ⟨later.stopped, later.armed.trans first.armed, asks ++ more, by rw [next, asked, List.append_assoc], ?_⟩
  rw [List.mem_append, not_or]
  exact ⟨none, nor⟩

/-! ### Without a client -/

/-- The helper has no client, and asks nothing of it. -/
def Alone (h g : Helper) : Prop := g.client = false ∧ g.asked = h.asked

theorem alone_doReconnect (none : h.client = false) : Alone h h.doReconnect := by
  unfold Helper.doReconnect
  split
  · exact ⟨none, rfl⟩
  split
  · exact ⟨none, rfl⟩
  split
  · exact ⟨none, rfl⟩
  · unfold countAttempt
    dsimp only
    split <;> exact ⟨none, rfl⟩

theorem alone_onClose (none : h.client = false) : Alone h h.onClose := by
  unfold Helper.onClose
  split
  · exact alone_doReconnect none
  · exact ⟨none, rfl⟩

theorem alone_onConnect (none : h.client = false) (success : Bool) : Alone h (h.onConnect success) := by
  unfold Helper.onConnect
  split
  · exact alone_doReconnect none
  · unfold restoreSubscriptions
    rw [if_neg (by simp [none])]
    exact ⟨none, rfl⟩

theorem alone_doConnect (alone : Alone h g) : Alone h g.doConnect := by
  unfold doConnect
  rw [if_neg (by simp [alone.1])]
  exact alone

theorem alone_perform (none : h.client = false) (c : Chore) (rest : List Chore) :
    Alone h ({ h with chores := rest }.perform c) := by
  cases c with
  | waited ec =>
    simp only [Helper.perform, onWaited]
    split
    · exact ⟨none, rfl⟩
    split
    · exact alone_doConnect ⟨none, rfl⟩
    · exact ⟨none, rfl⟩
  | rearm =>
    simp only [Helper.perform, onRearm]
    split
    · exact ⟨none, rfl⟩
    · exact alone_doConnect ⟨none, rfl⟩

theorem alone_rearmReconnect (none : h.client = false) : Alone h h.rearmReconnect.1 := by
  unfold Helper.rearmReconnect
  split
  · exact ⟨none, rfl⟩
  · split <;> exact ⟨none, rfl⟩

theorem alone_stopOnIoThread (none : h.client = false) : Alone h h.stopOnIoThread := by
  have absent : ¬ ({ h.abandonReconnect with running := false } : Helper).client = true := Bool.eq_false_iff.mp none
  unfold stopOnIoThread
  dsimp only
  rw [if_neg absent]
  exact ⟨none, rfl⟩

theorem alone_beginStop (none : h.client = false) : Alone h h.beginStop := by
  have absent : ¬ (h.running && ({ h.abandonReconnect with running := false } : Helper).client) = true := by
    show ¬ (h.running && h.client) = true
    rw [none, Bool.and_false]
    exact Bool.false_ne_true
  unfold beginStop
  dsimp only
  rw [if_neg absent]
  exact ⟨none, rfl⟩

theorem alone_releaseClient (alone : Alone h g) : Alone h g.releaseClient := by
  unfold releaseClient
  rw [if_neg (by simp [alone.1])]
  exact alone

theorem alone_finishStop (none : h.client = false) (wasRunning : Bool) : Alone h (h.finishStop wasRunning) := by
  unfold Helper.finishStop
  dsimp only
  split <;> split <;> exact alone_releaseClient ⟨none, rfl⟩

end Helper

namespace Rig

open Helper (Stopped Stays)

variable {r t u : Rig} {g : Helper} {s : Sys}

/-! ### The client of a stopped helper -/

/-- The helper stays stopped, and its client begins no attempt. -/
structure Final (r t : Rig) : Prop where
  stays : Stays r.helper t.helper
  connects : t.sys.log.count .connectCalled = r.sys.log.count .connectCalled

theorem Final.trans (first : Final r u) (later : Final u t) : Final r t :=
  ⟨first.stays.trans later.stays, later.connects.trans first.connects⟩

theorem connects_of_turns {a : Sys.Action} {v : Sys} (turns : s.standing.Turns a v.standing)
    (other : ∀ callback, a ≠ .call (.asyncConnect callback)) : v.log.count .connectCalled =
      s.log.count .connectCalled := by
  have counted : ∀ w : Sys, w.standing.events.count .connectCalled = w.log.count .connectCalled :=
    fun w => List.count_filter rfl
  rw [← counted v, ← counted s]
  exact turns.connects_same other

theorem connects_carry {a : Ask} (other : a ≠ .asyncConnect) :
    (carry s a).log.count .connectCalled = s.log.count .connectCalled := by
  cases a with
  | asyncConnect => exact absurd rfl other
  | clearCallbacks => rfl
  | asyncSubscribe topic qos => exact connects_of_turns (Sys.turns_call s (.asyncSubscribe topic qos false)) (by simp)
  | asyncDisconnect => exact connects_of_turns (Sys.turns_call s (.asyncDisconnect true)) (by simp)
  | close => exact connects_of_turns (Sys.turns_call s .close) (by simp)

theorem connects_carried {asks : List Ask} (none : .asyncConnect ∉ asks) :
    (asks.foldl carry s).log.count .connectCalled = s.log.count .connectCalled := by
  induction asks generalizing s with
  | nil => rfl
  | cons a rest ih =>
    rw [List.mem_cons, not_or] at none
    exact (ih none.2).trans (connects_carry fun same => none.1 same.symm)

theorem final_follow (stays : Stays r.helper g) : Final r (r.follow g) := by
  obtain ⟨asks, asked, none⟩ := stays.asked
  refine ⟨stays, ?_⟩
  unfold follow
  rw [asked, List.drop_left]
  exact connects_carried none

theorem final_same (stays : Stays r.helper t.helper) (sys : t.sys = r.sys) : Final r t := ⟨stays, by rw [sys]⟩

theorem final_notified (events : List Event) (stopped : r.helper.Stopped) : Final r (events.foldl notify r) := by
  induction events generalizing r with
  | nil => exact final_same stopped.stays rfl
  | cons e rest ih =>
    have first : Final r (r.notify e) := by
      cases e with
      | connectReport success returnCode => exact final_follow (stopped.onConnect success)
      | closeReport =>
        refine final_follow ?_
        rw [stopped.onClose]
        exact stopped.stays
      | _ => exact final_same stopped.stays rfl
    exact first.trans (ih first.stays.stopped)

/-- Only what is meant to be posted is queued. -/
def Posted (r : Rig) : Prop := ∀ k ∈ r.sys.net.posted, k.isPosted = true

theorem posted_carry (a : Ask) (posted : ∀ k ∈ s.net.posted, k.isPosted = true) :
    ∀ k ∈ (carry s a).net.posted, k.isPosted = true := by
  have called : ∀ (v : Sys) (c : Call), (∀ k ∈ v.net.posted, k.isPosted = true) →
      ∀ k ∈ (v.call c).net.posted, k.isPosted = true :=
    fun v c => Sys.posted_does (Sys.does_call v c)
  cases a with
  | asyncConnect => exact called s (.asyncConnect false) posted
  | asyncSubscribe topic qos => exact called s (.asyncSubscribe topic qos false) posted
  | asyncDisconnect => exact called s (.asyncDisconnect true) posted
  | clearCallbacks => exact posted
  | close => exact called s .close posted

theorem posted_follow (posted : r.Posted) (g : Helper) : (r.follow g).Posted := by
  have carried : ∀ (asks : List Ask) (v : Sys), (∀ k ∈ v.net.posted, k.isPosted = true) →
      ∀ k ∈ (asks.foldl carry v).net.posted, k.isPosted = true := by
    intro asks
    induction asks with
    | nil => exact fun _ => id
    | cons a rest ih => exact fun v before => ih _ (posted_carry a before)
  exact carried _ r.sys posted

theorem posted_notified (events : List Event) (posted : r.Posted) : (events.foldl notify r).Posted := by
  induction events generalizing r with
  | nil => exact posted
  | cons e rest ih =>
    refine ih ?_
    cases e <;> first | exact posted | exact posted_follow posted _

theorem posted_step {a : Action} (posted : r.Posted) (taken : r.step a = some t) : t.Posted := by
  unfold step at taken
  split at taken
  · contradiction
  cases a with
  | configure config => exact Option.some.inj taken ▸ posted
  | setReconnectConfig maxAttempts baseDelayMs => exact Option.some.inj taken ▸ posted
  | start =>
    obtain rfl := Option.some.inj taken
    split
    · exact posted
    · have fresh : Posted { r with sys := setupCallbacks (initClient r.config) } := by
        intro k among
        have empty : (setupCallbacks (initClient r.config)).net = {} := initClient_fresh r.config
        rw [empty] at among
        exact absurd among List.not_mem_nil
      exact posted_follow fresh _
  | publish topic payload qos callable =>
    obtain rfl := Option.some.inj taken
    unfold publish
    split
    · exact Sys.posted_does (Sys.does_call r.sys (.asyncPublish topic payload qos callable)) posted
    · exact posted
  | subscribe topic qos callable =>
    obtain rfl := Option.some.inj taken
    unfold subscribe
    dsimp only
    split
    · exact Sys.posted_does (Sys.does_call r.sys (.asyncSubscribe topic qos callable)) posted
    · exact posted
  | rearmReconnect => exact Option.some.inj taken ▸ posted_follow posted _
  | stopOnIoThread =>
    dsimp only at taken
    split at taken
    · exact Option.some.inj taken ▸ posted_follow posted _
    · contradiction
  | beginStop => exact Option.some.inj taken ▸ posted_follow posted _
  | finishStop wasRunning =>
    dsimp only at taken
    split at taken
    · exact Option.some.inj taken ▸ posted_follow posted _
    · contradiction
  | expireReconnectTimer =>
    dsimp only at taken
    split at taken
    · exact Option.some.inj taken ▸ posted
    · contradiction
  | perform =>
    dsimp only at taken
    split at taken
    · exact Option.some.inj taken ▸ posted_follow posted _
    · contradiction
  | io a =>
    cases a with
    | call c => contradiction
    | _ =>
      obtain ⟨u, moved, rfl⟩ := Option.map_eq_some_iff.mp taken
      exact posted_notified _ (Sys.posted_step posted moved)

theorem final_step {a : Action} (posted : r.Posted) (stopped : r.helper.Stopped) (taken : r.step a = some t)
    (other : a ≠ .start) : Final r t := by
  unfold step at taken
  split at taken
  · contradiction
  cases a with
  | start => exact absurd rfl other
  | configure config =>
    obtain rfl := Option.some.inj taken
    exact final_same stopped.stays rfl
  | setReconnectConfig maxAttempts baseDelayMs =>
    obtain rfl := Option.some.inj taken
    exact final_same (stopped.stays.of_same rfl rfl rfl rfl rfl rfl) rfl
  | publish topic payload qos callable =>
    obtain rfl := Option.some.inj taken
    unfold publish
    split
    · exact ⟨stopped.stays,
        connects_of_turns (Sys.turns_call r.sys (.asyncPublish topic payload qos callable)) (by simp)⟩
    · exact final_same stopped.stays rfl
  | subscribe topic qos callable =>
    obtain rfl := Option.some.inj taken
    have pushed : Stays r.helper { r.helper with subscribes := r.helper.subscribes ++ [(topic, qos)] } :=
      stopped.stays.of_same rfl rfl rfl rfl rfl rfl
    unfold subscribe
    dsimp only
    split
    · exact ⟨pushed, connects_of_turns (Sys.turns_call r.sys (.asyncSubscribe topic qos callable)) (by simp)⟩
    · exact final_same pushed rfl
  | rearmReconnect =>
    obtain rfl := Option.some.inj taken
    refine final_follow ?_
    rw [stopped.rearmReconnect]
    exact stopped.stays
  | stopOnIoThread =>
    dsimp only at taken
    split at taken
    · exact Option.some.inj taken ▸ final_follow (Helper.stays_stopOnIoThread r.helper)
    · contradiction
  | beginStop => exact Option.some.inj taken ▸ final_follow (Helper.stays_beginStop r.helper)
  | finishStop wasRunning =>
    dsimp only at taken
    split at taken
    · exact Option.some.inj taken ▸ final_follow (stopped.finishStop wasRunning)
    · contradiction
  | expireReconnectTimer =>
    dsimp only at taken
    split at taken
    · rename_i waits
      rw [stopped.wait] at waits
      contradiction
    · contradiction
  | perform =>
    dsimp only at taken
    split at taken
    · obtain rfl := Option.some.inj taken
      exact final_follow stopped.perform
    · contradiction
  | io a =>
    cases a with
    | call c => contradiction
    | _ =>
      obtain ⟨u, moved, rfl⟩ := Option.map_eq_some_iff.mp taken
      have first : Final r { r with sys := u } :=
        ⟨stopped.stays, connects_of_turns (Sys.turns_step posted moved) (by simp)⟩
      exact first.trans (final_notified _ stopped)

theorem final_run {actions : List Action} (posted : r.Posted) (stopped : r.helper.Stopped)
    (ran : Runs.exec step r actions = some t) (unstarted : .start ∉ actions) : Final r t := by
  induction actions generalizing r with
  | nil =>
    obtain rfl := Option.some.inj ran
    exact final_same stopped.stays rfl
  | cons a rest ih =>
    obtain ⟨m, first, later⟩ := Runs.exec_cons ran
    rw [List.mem_cons, not_or] at unstarted
    have final := final_step posted stopped first fun same => unstarted.1 same.symm
    exact final.trans (ih (posted_step posted first) final.stays.stopped later unstarted.2)

/-- In every run, from a `stop` on any thread to the next `start`: the helper is neither running nor armed, refuses to
be rearmed, waits for nothing and arms no wait, and its client is not told to connect. Every function of the helper is
one step here, so this is about a `stop` that overlaps none of them. -/
theorem stop_is_final {before after : List Action} {stop : Action} (stops : stop = .stopOnIoThread ∨ stop = .beginStop)
    (done : Runs.exec step {} (before ++ [stop]) = some r) (later : Runs.exec step r after = some t)
    (unstarted : .start ∉ after) :
    t.helper.running = false ∧ t.helper.shouldReconnect = false ∧ t.helper.rearmReconnect = (t.helper, false) ∧
      t.helper.wait = none ∧ t.helper.armed = r.helper.armed ∧
        t.sys.log.count .connectCalled = r.sys.log.count .connectCalled := by
  have posted : r.Posted := Runs.Reaches.invariant (I := Posted) (fun _ among => absurd among List.not_mem_nil)
    (fun _ _ _ before _ taken => posted_step before taken) (Runs.exec_reaches done (Runs.along_any _))
  have stopped : r.helper.Stopped := by
    rw [Runs.exec_append] at done
    obtain ⟨u, -, last⟩ := Option.bind_eq_some_iff.mp done
    obtain ⟨v, taken, same⟩ := Runs.exec_cons last
    obtain rfl := Option.some.inj same
    unfold step at taken
    split at taken
    · contradiction
    rcases stops with rfl | rfl
    · dsimp only at taken
      split at taken
      · exact Option.some.inj taken ▸ (Helper.stays_stopOnIoThread u.helper).stopped
      · contradiction
    · exact Option.some.inj taken ▸ (Helper.stays_beginStop u.helper).stopped
  have final := final_run posted stopped later unstarted
  exact ⟨final.stays.stopped.running, final.stays.stopped.should, final.stays.stopped.rearmReconnect,
    final.stays.stopped.wait, final.stays.armed, final.connects⟩

/-- A connect fails, and the helper is stopped while it waits. -/
theorem stop_in_backoff : ∃ r t : Rig,
    Runs.exec step ({} : Rig)
      ([.start, .io (.kernel (.resolve 0 (.error .operationAborted))), .io .run, .io .exec] ++ [.beginStop]) =
      some r ∧ Runs.exec step r [.io .ret, .perform, .rearmReconnect, .finishStop true] = some t ∧
        r.helper.armed = [1000] ∧
    t.helper.running = false ∧ t.helper.shouldReconnect = false ∧ t.helper.rearmReconnect = (t.helper, false) ∧
      t.helper.wait = none ∧ t.helper.armed = r.helper.armed ∧
        t.sys.log.count .connectCalled = r.sys.log.count .connectCalled := by
  have run : (Runs.exec step ({} : Rig)
      ([.start, .io (.kernel (.resolve 0 (.error .operationAborted))), .io .run, .io .exec] ++ [.beginStop])).map
        (fun r => (Runs.exec step r [.io .ret, .perform, .rearmReconnect, .finishStop true]).isSome &&
          r.helper.armed == [1000]) = some true := by
    decide +kernel
  obtain ⟨r, done, facts⟩ := Runs.exec_of_check run
  obtain ⟨ends, armed⟩ := Bool.and_eq_true_iff.mp facts
  obtain ⟨t, later⟩ := Option.isSome_iff_exists.mp ends
  exact ⟨r, t, done, later, eq_of_beq armed, stop_is_final (.inr rfl) done later (by simp)⟩

/-! ### A client that was released -/

/-- The helper has no client, and whatever is left of one reports nothing. -/
structure Silent (r t : Rig) : Prop where
  released : t.helper.client = false
  deaf : t.sys.standing.Deaf
  reports : t.sys.log.filter (·.isReport) = r.sys.log.filter (·.isReport)

/-- Once the client is released it has no callbacks. -/
def Released (r : Rig) : Prop := r.helper.client = false → r.sys.standing.Deaf

theorem alone_follow (alone : Helper.Alone r.helper g) :
    (r.follow g).helper.client = false ∧ (r.follow g).sys = r.sys := by
  unfold follow
  rw [alone.2, List.drop_length]
  exact ⟨alone.1, rfl⟩

theorem alone_notified (events : List Event) (none : r.helper.client = false) :
    (events.foldl notify r).helper.client = false ∧ (events.foldl notify r).sys = r.sys := by
  induction events generalizing r with
  | nil => exact ⟨none, rfl⟩
  | cons e rest ih =>
    have first : (r.notify e).helper.client = false ∧ (r.notify e).sys = r.sys := by
      cases e with
      | connectReport success returnCode => exact alone_follow (Helper.alone_onConnect none success)
      | closeReport => exact alone_follow (Helper.alone_onClose none)
      | _ => exact ⟨none, rfl⟩
    exact (ih first.1).imp_right fun later => later.trans first.2

theorem silent_step {a : Action} (posted : r.Posted) (none : r.helper.client = false) (deaf : r.sys.standing.Deaf)
    (taken : r.step a = some t) (other : a ≠ .start) : Silent r t := by
  have alone : ∀ {u : Rig}, u.helper.client = false ∧ u.sys = r.sys → Silent r u := by
    rintro u ⟨released, sys⟩
    exact ⟨released, sys ▸ deaf, by rw [sys]⟩
  unfold step at taken
  split at taken
  · contradiction
  cases a with
  | start => exact absurd rfl other
  | configure config => exact Option.some.inj taken ▸ alone ⟨none, rfl⟩
  | setReconnectConfig maxAttempts baseDelayMs => exact Option.some.inj taken ▸ alone ⟨none, rfl⟩
  | publish topic payload qos callable =>
    obtain rfl := Option.some.inj taken
    unfold publish
    rw [if_neg (by simp [none])]
    exact alone ⟨none, rfl⟩
  | subscribe topic qos callable =>
    obtain rfl := Option.some.inj taken
    unfold subscribe isConnected
    rw [if_neg (by simp [none])]
    exact alone ⟨none, rfl⟩
  | rearmReconnect => exact Option.some.inj taken ▸ alone (alone_follow (Helper.alone_rearmReconnect none))
  | stopOnIoThread =>
    dsimp only at taken
    split at taken
    · exact Option.some.inj taken ▸ alone (alone_follow (Helper.alone_stopOnIoThread none))
    · contradiction
  | beginStop => exact Option.some.inj taken ▸ alone (alone_follow (Helper.alone_beginStop none))
  | finishStop wasRunning =>
    dsimp only at taken
    split at taken
    · exact Option.some.inj taken ▸ alone (alone_follow (Helper.alone_finishStop none wasRunning))
    · contradiction
  | expireReconnectTimer =>
    dsimp only at taken
    split at taken
    · exact Option.some.inj taken ▸ alone ⟨none, rfl⟩
    · contradiction
  | perform =>
    dsimp only at taken
    split at taken
    · obtain rfl := Option.some.inj taken
      exact alone (alone_follow (Helper.alone_perform none _ _))
    · contradiction
  | io a =>
    have counted : ∀ v : Sys, v.standing.events.filter (·.isReport) = v.log.filter (·.isReport) := by
      intro v
      rw [Sys.standing, List.filter_filter]
      refine List.filter_congr fun e _ => ?_
      cases e <;> rfl
    cases a with
    | call c => contradiction
    | _ =>
      obtain ⟨u, moved, rfl⟩ := Option.map_eq_some_iff.mp taken
      obtain ⟨later, same⟩ := (Sys.turns_step posted moved).deaf deaf (by simp)
      obtain ⟨released, sys⟩ := alone_notified (r := { r with sys := u }) (reports r.sys u) none
      refine ⟨released, sys ▸ later, ?_⟩
      rw [sys, ← counted, same, counted]

/-- A client is released without its callbacks. -/
theorem deaf_finishStop (before : r.Released) (wasRunning : Bool) :
    (r.follow (r.helper.finishStop wasRunning)).sys.standing.Deaf := by
  have releases : ∀ g : Helper, g.client = r.helper.client → g.asked = r.helper.asked →
      (r.follow g.releaseClient).sys.standing.Deaf := by
    intro g client asked
    unfold Helper.releaseClient
    split
    · have asks : (({ g with client := false }.ask .clearCallbacks).ask .close).asked =
          r.helper.asked ++ [.clearCallbacks, .close] := by
        show g.asked ++ [.clearCallbacks] ++ [.close] = _
        rw [asked, List.append_assoc]
        rfl
      unfold follow
      rw [asks, List.drop_left]
      have closed : (carry (carry r.sys .clearCallbacks) .close).standing = (carry r.sys .clearCallbacks).standing :=
        Sys.standing_closeConnection _
      show (carry (carry r.sys .clearCallbacks) .close).standing.Deaf
      rw [closed]
      exact ⟨rfl, rfl, rfl⟩
    · rename_i absent
      have none : r.helper.client = false := client ▸ Bool.eq_false_iff.mpr absent
      rw [(alone_follow ⟨Bool.eq_false_iff.mpr absent, asked⟩).2]
      exact before none
  unfold Helper.finishStop
  dsimp only
  split <;> split <;> exact releases _ rfl rfl

theorem released_step {a : Action} (sound : r.Sound) (posted : r.Posted) (before : r.Released)
    (taken : r.step a = some t) :
    t.Released := by
  intro gone
  have kept : t.helper.client = r.helper.client → a ≠ .start → t.sys.standing.Deaf := fun same other =>
    (silent_step posted (same ▸ gone) (before (same ▸ gone)) taken other).deaf
  cases steps sound taken with
  | start t begins client sys => exact absurd (gone.symm.trans client) Bool.false_ne_true
  | started runs => exact before gone
  | publish topic payload qos callable =>
    refine kept ?_ nofun
    unfold publish
    split <;> rfl
  | subscribe topic qos callable =>
    refine kept ?_ nofun
    unfold subscribe
    dsimp only
    split <;> rfl
  | plain a t plain carried =>
    obtain ⟨asks, gentle, client, sys⟩ := carried
    refine kept client ?_
    rintro rfl
    cases plain
  | finishStop wasRunning t released =>
    unfold step at taken
    split at taken
    · contradiction
    · dsimp only at taken
      split at taken
      · exact Option.some.inj taken ▸ deaf_finishStop before wasRunning
      · contradiction
  | io a u t moved inside carried =>
    obtain ⟨asks, gentle, client, sys⟩ := carried
    exact kept client nofun

theorem silent_run {actions : List Action} (posted : r.Posted) (none : r.helper.client = false)
    (deaf : r.sys.standing.Deaf) (ran : Runs.exec step r actions = some t) (unstarted : .start ∉ actions) :
      Silent r t := by
  induction actions generalizing r with
  | nil =>
    obtain rfl := Option.some.inj ran
    exact ⟨none, deaf, rfl⟩
  | cons a rest ih =>
    obtain ⟨m, first, later⟩ := Runs.exec_cons ran
    rw [List.mem_cons, not_or] at unstarted
    have silent := silent_step posted none deaf first fun same => unstarted.1 same.symm
    obtain ⟨released, unheard, reports⟩ := ih (posted_step posted first) silent.released silent.deaf later unstarted.2
    exact ⟨released, unheard, reports.trans silent.reports⟩

/-- In every run, once a `stop` has released the client and until the next `start`, none of the three callbacks is
called, whatever is still queued, outstanding or received. -/
theorem released_client_silent {before after : List Action} (done : Runs.exec step {} before = some r)
    (released : r.helper.client = false) (later : Runs.exec step r after = some t) (unstarted : .start ∉ after) :
    t.sys.log.filter (·.isReport) = r.sys.log.filter (·.isReport) := by
  have begun : (({} : Rig).Sound ∧ ({} : Rig).Going) ∧ ({} : Rig).Posted ∧ ({} : Rig).Released := by
    refine ⟨⟨⟨?_, ?_, ?_⟩, ?_⟩, fun _ among => absurd among List.not_mem_nil, fun _ => ⟨rfl, rfl, rfl⟩⟩
    · intro client
      cases client
    · intro pending
      cases pending
    · intro running
      cases running
    · intro armed
      cases armed.1
  have kept := Runs.Reaches.invariant (I := fun r => (r.Sound ∧ r.Going) ∧ r.Posted ∧ r.Released) begun
    (fun _ _ _ before _ taken => ⟨kept_step before.1.1 before.1.2 taken, posted_step before.2.1 taken,
      released_step before.1.1 before.2.1 before.2.2 taken⟩)
    (Runs.exec_reaches done (Runs.along_any _))
  obtain ⟨-, posted, unheard⟩ := kept
  exact (silent_run posted released (unheard released) later unstarted).reports

/-- The connect of a client that was released fails, and nobody is told. -/
theorem released_client_fails : ∃ r t : Rig, Runs.exec step ({} : Rig) [.start, .beginStop, .finishStop true] = some r ∧
    Runs.exec step r [.io .exec, .io (.kernel (.resolve 0 (.error .operationAborted))), .io .run, .io .run, .io .exec] =
      some t ∧
    t.sys.log.filter (·.isReport) = r.sys.log.filter (·.isReport) := by
  have run : (Runs.exec step ({} : Rig) [.start, .beginStop, .finishStop true]).map (fun r =>
      (Runs.exec step r [.io .exec, .io (.kernel (.resolve 0 (.error .operationAborted))), .io .run, .io .run,
          .io .exec]).isSome &&
        !r.helper.client) = some true := by
    decide +kernel
  obtain ⟨r, done, facts⟩ := Runs.exec_of_check run
  obtain ⟨ends, released⟩ := Bool.and_eq_true_iff.mp facts
  obtain ⟨t, later⟩ := Option.isSome_iff_exists.mp ends
  exact ⟨r, t, done, later, released_client_silent done (by simpa using released) later (by simp)⟩

end Rig
end LiteMqtt
