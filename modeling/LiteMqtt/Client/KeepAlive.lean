import LiteMqtt.Client.Acceptance
import LiteMqtt.Client.Clocks
import LiteMqtt.Client.Waiting

/-!
# The keep-alive

The write completion of a PINGREQ arms the ping timer for half the keep-alive, in whole seconds, and the
PINGRESP cancels it. A broker that answers within that time never loses its session to the timer.
-/

namespace LiteMqtt

def TimerHandler.isDeadline : TimerHandler → Bool
  | .pingDeadline _ => true
  | _ => false

/-- The expiry of a ping deadline, which calls `notify_closed_once`. -/
def Work.expired : Work → Bool
  | .timer (.pingDeadline _) none => true
  | _ => false

def isPingresp : Bytes → Bool
  | [] => false
  | byte :: _ => PacketType.ofUint8 (byte >>> 4) == .pingresp

namespace Sys

variable {s t u : Sys}

/-! ### Code that sets no deadline -/

/-- From `s` to `t` no ping deadline is armed. -/
def Eases (s t : Sys) : Prop := ∀ w ∈ t.waits, w.handler.isDeadline = true → w ∈ s.waits

theorem Eases.trans (first : Eases s t) (later : Eases t u) : Eases s u :=
  fun w among deadline => first w (later w among deadline) deadline

theorem eases_same (waits : t.waits = s.waits) : Eases s t := fun _ among _ => waits ▸ among

theorem eases_clock (same : t.clock = s.clock) : Eases s t := eases_same (congrArg Clock.waits same)

theorem eases_cancelTimer (s : Sys) (timer : Nat) : Eases s (s.cancelTimer timer) :=
  fun _ among _ => List.mem_of_mem_filter among

theorem eases_cancelTimers (s : Sys) (timers : List Nat) : Eases s (s.cancelTimers timers) := by
  induction timers generalizing s with
  | nil => exact eases_same rfl
  | cons timer rest ih => exact (eases_cancelTimer s timer).trans (ih _)

theorem eases_armTimer (s : Sys) (timer after : Nat) {h : TimerHandler} (other : h.isDeadline = false) :
    Eases s (s.armTimer timer after h) := by
  intro w among deadline
  rcases List.mem_append.mp among with before | last
  · exact List.mem_of_mem_filter before
  · obtain rfl := List.mem_singleton.mp last
    exact absurd (other.symm.trans deadline) nofun

theorem eases_schedulePingreq (s : Sys) (attempt : Nat) : Eases s (s.schedulePingreq attempt) := by
  unfold schedulePingreq
  split
  · exact eases_same rfl
  · exact eases_armTimer s _ _ rfl

theorem eases_armPublishRetryTimer (s : Sys) (p : UInt16) : Eases s (s.armPublishRetryTimer p) := by
  unfold armPublishRetryTimer
  split
  · exact eases_same rfl
  · exact eases_armTimer s _ _ rfl

theorem eases_armPubrecRetryTimer (s : Sys) (p : UInt16) : Eases s (s.armPubrecRetryTimer p) := by
  unfold armPubrecRetryTimer
  split
  · exact eases_same rfl
  · exact eases_armTimer s _ _ rfl

theorem eases_cancelPublishRetryTimer (s : Sys) (p : UInt16) : Eases s (s.cancelPublishRetryTimer p) := by
  unfold cancelPublishRetryTimer
  split
  · exact eases_same rfl
  · exact eases_cancelTimer s _

theorem eases_sendPublishEntry (s : Sys) (p : UInt16) : Eases s (s.sendPublishEntry p) := by
  unfold sendPublishEntry
  split
  · exact eases_same rfl
  · exact eases_armPublishRetryTimer s p

theorem eases_asyncConnect (s : Sys) (callback : Bool) : Eases s (s.asyncConnect callback) := by
  unfold asyncConnect
  dsimp only
  split
  · exact eases_armTimer (Sys.record _ _) _ _ rfl
  · exact eases_same rfl

theorem eases_asyncPublishImpl (s : Sys) (topic payload : Bytes) (qos : UInt8) (cb : Callback) :
    Eases s (s.asyncPublishImpl topic payload qos cb) := by
  have tells : ∀ u : Sys, Eases u (u.tellPublish cb false topic qos 0) := fun u => eases_clock (clock_tellPublish u ..)
  unfold asyncPublishImpl
  split
  · exact tells s
  split
  · exact tells s
  split
  · exact tells s
  split
  · exact eases_same rfl
  dsimp only
  split
  · exact eases_same rfl
  split
  · exact tells _
  · exact eases_sendPublishEntry (Sys.insertPublish _ _ _ _ _ _) _

theorem eases_notifyClosedOnce (s : Sys) : Eases s s.notifyClosedOnce := by
  have cancelled : Eases s ((({ s with closed := true } : Sys).cancelTimer pingTimer).cancelTimer connectTimer) :=
    (eases_cancelTimer { s with closed := true } pingTimer).trans (eases_cancelTimer _ connectTimer)
  unfold notifyClosedOnce
  split
  · exact eases_same rfl
  · dsimp only
    split <;> exact cancelled

theorem eases_publishCancel (s : Sys) (p : UInt16) : Eases s (s.publishCancel p) := by
  unfold publishCancel
  split
  · exact eases_same rfl
  · split <;> exact eases_cancelTimer s _

theorem eases_publishClear (s : Sys) : Eases s s.publishClear := by
  unfold publishClear
  dsimp only
  split <;> exact (eases_cancelTimers s _).trans (eases_cancelTimers _ _)

theorem eases_finishPublishFailure (s : Sys) (p : UInt16) : Eases s (s.finishPublishFailure p) := by
  unfold finishPublishFailure
  split
  · exact eases_same rfl
  · exact (eases_cancelPublishRetryTimer s p).trans (eases_same (tellPublish_waits _ ..))

theorem eases_finishPublishSuccess (s : Sys) (p : UInt16) : Eases s (s.finishPublishSuccess p) := by
  unfold finishPublishSuccess
  split
  · exact eases_same rfl
  · exact (eases_cancelPublishRetryTimer s p).trans (eases_same (tellPublish_waits _ ..))

theorem eases_onPublishRetry (s : Sys) (p : UInt16) : Eases s (s.onPublishRetry p) := by
  unfold onPublishRetry
  split
  · exact eases_same rfl
  split
  · exact eases_same rfl
  · exact eases_sendPublishEntry _ p

theorem eases_onPubrecRetry (s : Sys) (p : UInt16) : Eases s (s.onPubrecRetry p) := by
  unfold onPubrecRetry
  split
  · exact eases_same rfl
  split
  · exact eases_cancelTimer s _
  · exact eases_armPubrecRetryTimer _ p

theorem eases_erasePubrec (s : Sys) (p : UInt16) : Eases s (s.erasePubrec p) := by
  unfold erasePubrec
  split
  · exact eases_same rfl
  · exact eases_cancelTimer s _

theorem eases_insertPubrec (s : Sys) (p : UInt16) : Eases s (s.insertPubrec p) := by
  unfold insertPubrec
  dsimp only
  split
  · exact eases_same rfl
  · exact eases_cancelTimer s _

theorem eases_handlePubrec (s : Sys) (data : Bytes) : Eases s (s.handlePubrec data) := by
  unfold handlePubrec
  dsimp only
  split
  · exact (eases_cancelPublishRetryTimer (Sys.record _ _) _).trans
      ((eases_insertPubrec _ _).trans (eases_armPubrecRetryTimer _ _))
  · exact eases_same rfl

theorem eases_handleConnack (s : Sys) (data : Bytes) : Eases s (s.handleConnack data) := by
  refine (eases_cancelTimer s connectTimer).trans ?_
  unfold handleConnack
  dsimp only
  split
  · exact eases_same rfl
  · exact eases_clock (clock_closeConnection _)

theorem eases_handlePubcomp (s : Sys) (data : Bytes) : Eases s (s.handlePubcomp data) :=
  (eases_erasePubrec (s.record _) _).trans (eases_finishPublishSuccess _ _)

theorem eases_handlePacket (s : Sys) (attempt : Nat) (data : Bytes) : Eases s (s.handlePacket attempt data) := by
  unfold handlePacket
  split
  · exact eases_same rfl
  split
  · exact eases_handleConnack s _
  · exact eases_clock (clock_handlePublish s _)
  · exact eases_clock (clock_handleSuback s _)
  · exact eases_finishPublishSuccess (s.record _) _
  · exact eases_handlePubrec s _
  · exact eases_same rfl
  · exact eases_handlePubcomp s _
  · exact (eases_cancelTimer s pingTimer).trans (eases_schedulePingreq _ attempt)
  · exact eases_same rfl

theorem eases_onTimer (s : Sys) (h : TimerHandler) (ec : ErrorCode) : Eases s (s.onTimer h ec) := by
  unfold onTimer
  split
  · exact eases_same rfl
  · split
    · exact eases_clock (clock_handleConnectTimeout s)
    · exact eases_same rfl
    · exact eases_same rfl
    · exact eases_onPublishRetry s _
    · exact eases_onPubrecRetry s _

theorem eases_execute (s : Sys) (k : Work) : Eases s (s.execute k) := by
  cases k with
  | asyncPublishImpl topic payload qos callback => exact eases_asyncPublishImpl s topic payload qos callback
  | asyncSubscribeImpl topic qos callback => exact eases_clock (clock_asyncSubscribeImpl s topic qos callback)
  | timer h ec => exact eases_onTimer s h ec
  | handlePacket attempt data => exact eases_handlePacket s attempt data
  | acknowledge qos p => exact eases_clock (clock_acknowledge s qos p)
  | notifyClosedOnce => exact eases_notifyClosedOnce s
  | publishEach p => exact eases_clock (clock_publishEach s p)
  | publishCancel p => exact eases_publishCancel s p
  | publishClear => exact eases_publishClear s
  | subscribeEach p => exact eases_clock (clock_subscribeEach s p)
  | subscribeFilters p callback rest => exact eases_clock (clock_subscribeFilters s p callback rest)
  | subscribeClear => exact eases_clock (clock_closeConnection _)
  | notifyClose => exact eases_clock (clock_notifyClose s)
  | finishPublishFailure p => exact eases_finishPublishFailure s p
  | subackEach callback rest => exact eases_clock (clock_subackEach s callback rest)
  | subscribeWritten p callback rest => exact eases_clock (clock_subscribeWritten s p callback rest)
  | reportConnect success returnCode => exact eases_clock (clock_reportConnect s success returnCode)
  | reportPublish callback topic qos => exact eases_clock (clock_tellPublish s ..)
  | reportSubscribe callback topic => exact eases_clock (clock_tellSubscribe s ..)
  | user | startReadLoop attempt | onClosed => exact eases_same rfl

/-- Only the write completion of a PINGREQ arms a deadline. -/
theorem eases_onWritten (s : Sys) (h : Handler) (ec : ErrorCode)
    (other : ∀ attempt, h = .pingreq attempt → ec.isSome = true) :
    Eases s (s.onWritten h ec) := by
  cases h with
  | connectWrite attempt =>
    show Eases s (s.onConnectWritten attempt ec)
    unfold onConnectWritten
    split
    · exact eases_same rfl
    · exact eases_schedulePingreq s attempt
  | publish0 callback topic => exact eases_clock (clock_tellPublish s ..)
  | publish p =>
    unfold onWritten
    dsimp only
    split
    · exact eases_same rfl
    · exact eases_armPublishRetryTimer s p
  | pubrel p =>
    show Eases s (s.onPubrelWritten p ec)
    unfold onPubrelWritten
    split
    · exact eases_erasePubrec s p
    · exact eases_armPubrecRetryTimer s p
  | subscribe p => exact eases_clock (clock_onSubscribeWritten s p ec)
  | acknowledged =>
    unfold onWritten
    dsimp only
    split <;> exact eases_same rfl
  | pingreq attempt =>
    show Eases s (s.onPingreqWritten attempt ec)
    unfold onPingreqWritten
    rw [if_pos (other attempt rfl)]
    exact eases_same rfl
  | disconnect onClosed =>
    unfold onWritten
    cases onClosed <;> exact eases_clock (clock_closeConnection _)
  | connect attempt | read attempt => exact eases_same rfl

theorem eases_onInvoke (s : Sys) (call : Invocation Handler)
    (other : ∀ serial attempt, call ≠ .write serial (.pingreq attempt) none) : Eases s (s.onInvoke call) := by
  unfold onInvoke
  split
  · exact eases_clock (clock_onConnect s ..)
  · rename_i attempt ec packet
    show Eases s (s.onRead attempt ec packet)
    unfold onRead
    split <;> exact eases_same rfl
  · rename_i serial h ec
    refine eases_onWritten s h ec fun attempt same => ?_
    subst same
    cases ec with
    | none => exact absurd rfl (other serial attempt)
    | some error => rfl
  · exact eases_same rfl

theorem eases_call (s : Sys) (c : Call) : Eases s (s.call c) := by
  cases c with
  | asyncConnect callback => exact eases_asyncConnect s callback
  | asyncDisconnect onClosed => exact eases_cancelTimer s pingTimer
  | close => exact eases_clock (clock_closeConnection s)
  | handlePacket data => exact eases_handlePacket s s.attempts data
  | handlePuback data => exact eases_finishPublishSuccess (s.record _) _
  | handlePubrec data => exact eases_handlePubrec s data
  | handlePubcomp data => exact eases_handlePubcomp s data
  | handleSuback data => exact eases_clock (clock_handleSuback s data)
  | handlePublish data => exact eases_clock (clock_handlePublish s data)
  | _ => exact eases_same rfl

/-! ### Expiries that are still to be handled -/

/-- No expiry of a ping deadline is queued or running. -/
structure Punctual (s : Sys) : Prop where
  posted : ∀ k ∈ s.net.posted, k.expired = false
  running : ∀ k ∈ s.net.running, k.expired = false

theorem Punctual.of_fewer (punctual : s.Punctual) (posted : ∀ k ∈ t.net.posted, k ∈ s.net.posted)
    (running : ∀ k ∈ t.net.running, k ∈ s.net.running) : t.Punctual :=
  ⟨fun k among => punctual.posted k (posted k among), fun k among => punctual.running k (running k among)⟩

theorem Punctual.of_same (punctual : s.Punctual) (posted : t.net.posted = s.net.posted)
    (running : t.net.running = s.net.running) : t.Punctual :=
  punctual.of_fewer (fun _ => posted ▸ id) (fun _ => running ▸ id)

theorem punctual_post {k : Work} (other : k.expired = false) (punctual : s.Punctual) : (s.post k).Punctual := by
  refine ⟨fun j among => ?_, punctual.running⟩
  change j ∈ (s.net.post (.own k)).posted at among
  rw [Net.post_posted] at among
  rcases List.mem_append.mp among with before | same
  · exact punctual.posted j before
  · obtain rfl : j = k := by simpa [Task.own?] using same
    exact other

theorem punctual_apply {e : Effect} (fits : e.fits = true) (punctual : s.Punctual) : (s.apply e).Punctual := by
  have cancelled : ∀ timer, (s.cancelTimer timer).Punctual := by
    refine fun timer => ⟨fun k among => ?_, punctual.running⟩
    rw [cancelTimer_posted] at among
    rcases List.mem_append.mp among with before | aborted
    · exact punctual.posted k before
    · obtain ⟨w, -, rfl⟩ := List.mem_map.mp aborted
      cases w.handler <;> rfl
  cases e with
  | push k =>
    refine ⟨punctual.posted, fun j among => ?_⟩
    rcases List.mem_cons.mp among with rfl | before
    · cases j <;> first | rfl | exact absurd fits nofun
    · exact punctual.running j before
  | post k =>
    refine punctual_post ?_ punctual
    cases k <;> first | rfl | exact absurd fits nofun
  | write p handler => exact punctual.of_same (Net.asyncWritePacket_posted _ _ _) rfl
  | closeConnection => exact punctual.of_same (closeConnection_posted s) (closeConnection_tame s).running
  | cancelTimer timer => exact cancelled timer
  | startReadLoop attempt =>
    exact punctual.of_same (Net.asyncReadPacket_posted _ _) (Net.tame_asyncReadPacket _ _).running
  | asyncConnect callback =>
    obtain ⟨u, which, net⟩ := asyncConnect_net s callback
    have before : u.Punctual := by
      rcases which with rfl | rfl
      · exact punctual
      · exact cancelled connectTimer
    exact before.of_same (by show (s.asyncConnect callback).net.posted = _; rw [net]; rfl)
      (by show (s.asyncConnect callback).net.running = _; rw [net]; rfl)
  | _ => exact punctual.of_same rfl rfl

theorem punctual_does {topics : List Topic} (does : Does topics s t) (punctual : s.Punctual) : t.Punctual :=
  does.keeps (fun _ _ inside => punctual_apply (Effect.fits_of_within inside)) punctual

theorem punctual_run {n : Net Handler Work} (ran : s.net.run = some n) (punctual : s.Punctual) :
    Punctual { s with net := n } := by
  obtain ⟨idle, task, tail, ready, rfl⟩ := Net.run_cases ran
  have posted : s.net.posted = task.own?.toList ++ (s.net.leaving tail).posted := by
    rw [Net.posted, ready, List.filterMap_cons]
    cases task.own? <;> rfl
  have none : (s.net.leaving tail).running = [] := by rw [Net.running, Net.leaving, idle]; rfl
  refine ⟨fun k among => punctual.posted k ?_, fun k among => punctual.posted k ?_⟩
  · rw [posted]
    exact List.mem_append_right _ (Net.runTask_posted (s.net.leaving tail) task ▸ among)
  · rw [posted]
    have running := (Net.runTask_ran (s.net.leaving tail) task).running
    rw [none, List.append_nil] at running
    exact List.mem_append_left _ (running ▸ among)

theorem punctual_popped (popped : s.Popped u) (punctual : s.Punctual) : u.Punctual :=
  punctual.of_fewer (fun k => by rw [popped.same]; exact id) (popped_running popped)

theorem punctual_step {a : Action} (taken : s.step a = some t) (punctual : s.Punctual)
    (early : ∀ w ∈ s.waits, w.deadline ≤ s.now → w.handler.isDeadline = false) : t.Punctual := by
  cases (steps taken).2 with
  | run n ran => exact punctual_run ran punctual
  | work k rest front busy => exact punctual_does (does_execute _ k) (punctual_popped (popped_goesOn front) punctual)
  | invoke call rest front =>
    exact punctual_does (does_onInvoke _ call) (punctual_popped (popped_recordCall front) punctual)
  | afterWrite ec rest front =>
    exact (punctual_popped (popped_goesOn front) punctual).of_same (Net.afterWrite_posted _ ec)
      (Net.tame_afterWrite _ ec).running
  | closeHandler rest front =>
    refine (punctual_popped (popped_goesOn front) punctual).of_same rfl ?_
    simp [Net.running, Net.push, goesOn, List.filterMap_append, StackEntry.own?]
  | ret rest front => exact punctual_popped (popped_goesOn front) punctual
  | call c allowed => exact punctual_does (does_call s c) punctual
  | kernel event n moved => exact punctual.of_same (Net.kernel_posted moved) (Net.tame_kernel moved).running
  | expire index w waiting due =>
    have late := early w (List.mem_of_getElem? waiting) due
    refine punctual_post ?_ (punctual.of_same rfl rfl)
    cases handler : w.handler <;> first | rfl | cases handler ▸ late
  | advance ms => exact punctual.of_same rfl rfl

/-! ### One step -/

/-- The write completion of a PINGREQ is handled. -/
def pinged (s : Sys) : Action → Bool
  | .exec =>
      match s.net.stack with
      | .invoke (.write _ (.pingreq _) none) :: _ => true
      | _ => false
  | _ => false

/-- A PINGRESP is handled. -/
def ponged (s : Sys) (a : Action) : Bool := (s.dispatched a).any isPingresp

/-- The session ends, or the user disconnects, and no PINGRESP is waited for any longer. -/
def stopped (s : Sys) : Action → Bool
  | .exec =>
      match s.net.stack with
      | .own .notifyClosedOnce :: _ => !s.closed
      | _ => false
  | .call (.asyncDisconnect _) => true
  | _ => false

theorem eases_step {a : Action} (taken : s.step a = some t) (quiet : s.pinged a = false) : Eases s t := by
  cases (steps taken).2 with
  | work k rest front busy => exact eases_execute (s.goesOn rest) k
  | invoke call rest front =>
    let u : Sys := { s with net := (s.goesOn rest).net.recordCall call }
    refine eases_onInvoke u call ?_
    rintro serial attempt rfl
    simp [pinged, front] at quiet
  | call c allowed => exact eases_call s c
  | expire index w waiting due => exact fun v among _ => List.mem_of_mem_eraseIdx among
  | _ => exact eases_same rfl

/-- No ping deadline is waited for. -/
def Relaxed (s : Sys) : Prop := ∀ w ∈ s.waits, w.handler.isDeadline = false

/-- Every ping deadline is on the ping timer. -/
def Pings (s : Sys) : Prop := ∀ w ∈ s.waits, w.handler.isDeadline = true → w.timer = pingTimer

theorem relaxed_cancelPingTimer (pings : s.Pings) : s.cancelPingTimer.Relaxed := by
  intro w among
  obtain ⟨before, left⟩ := List.mem_filter.mp among
  cases deadline : w.handler.isDeadline with
  | false => rfl
  | true => exact absurd (pings w before deadline) (by simpa using left)

theorem Relaxed.eases (relaxed : s.Relaxed) (eases : Eases s t) : t.Relaxed := by
  intro w among
  cases deadline : w.handler.isDeadline with
  | false => rfl
  | true => exact absurd (relaxed w (eases w among deadline)) (by simp [deadline])

theorem relaxed_pingresp {data : Bytes} (pings : s.Pings) (attempt : Nat) (pingresp : isPingresp data = true) :
    (s.handlePacket attempt data).Relaxed := by
  cases data with
  | nil => contradiction
  | cons byte rest =>
    have type : PacketType.ofUint8 (byte >>> 4) = .pingresp := beq_iff_eq.mp pingresp
    have same : s.handlePacket attempt (byte :: rest) = s.cancelPingTimer.schedulePingreq attempt := by
      simp only [handlePacket, type]
    rw [same]
    exact (relaxed_cancelPingTimer pings).eases (eases_schedulePingreq _ attempt)

/-- A PINGRESP, the end of the session and `async_disconnect` cancel the deadline. -/
theorem relaxed_step {a : Action} (taken : s.step a = some t) (pings : s.Pings)
    (cancels : s.ponged a = true ∨ s.stopped a = true) : t.Relaxed := by
  cases (steps taken).2 with
  | work k rest front busy =>
    rcases cancels with ponged | stopped
    · cases k with
      | handlePacket attempt data =>
        refine relaxed_pingresp (s := s.goesOn rest) pings attempt ?_
        simpa [Sys.ponged, dispatched, front] using ponged
      | _ => simp [Sys.ponged, dispatched, front] at ponged
    · cases k with
      | notifyClosedOnce =>
        have opened : s.closed = false := by simpa [Sys.stopped, front] using stopped
        have cancelled := (relaxed_cancelPingTimer (s := { s.goesOn rest with closed := true }) pings).eases
          (eases_cancelTimer _ connectTimer)
        show (s.goesOn rest).notifyClosedOnce.Relaxed
        unfold notifyClosedOnce
        rw [if_neg (by simp [goesOn, opened])]
        dsimp only
        split <;> exact cancelled
      | _ => simp [Sys.stopped, front] at stopped
  | call c allowed =>
    rcases cancels with ponged | stopped
    · cases c with
      | handlePacket data => exact relaxed_pingresp pings s.attempts ponged
      | _ => contradiction
    · cases c with
      | asyncDisconnect onClosed => exact relaxed_cancelPingTimer pings
      | _ => contradiction
  | invoke call rest front => simp [Sys.ponged, Sys.stopped, dispatched, front] at cancels
  | afterWrite ec rest front => simp [Sys.ponged, Sys.stopped, dispatched, front] at cancels
  | closeHandler rest front => simp [Sys.ponged, Sys.stopped, dispatched, front] at cancels
  | _ => simp [Sys.ponged, Sys.stopped, dispatched] at cancels

theorem armed_step {a : Action} (taken : s.step a = some t) (pinged : s.pinged a = true) :
    ∃ attempt, t.waits = (s.waits.filter fun w => w.timer != pingTimer) ++
      [⟨pingTimer, s.now + s.keepAliveSeconds.toNat / 2 * 1000, .pingDeadline attempt⟩] := by
  unfold Sys.pinged at pinged
  split at pinged
  · split at pinged
    · rename_i serial attempt rest front
      simp only [step, exec, front] at taken
      split at taken
      · contradiction
      · simp only [Net.resume, front, Option.map_some, Option.some.injEq] at taken
        exact ⟨attempt, taken ▸ rfl⟩
    · contradiction
  · contradiction

end Sys

/-! ### Every run -/

/-- A PINGREQ that was written, and the keep-alive at that time. -/
structure Ping where
  written : Nat
  keepAlive : UInt16
  deriving DecidableEq

/-- Less than half the keep-alive has passed since the write. Times are milliseconds. -/
def Ping.answerable (now : Nat) (ping : Ping) : Bool := 2 * now < 2 * ping.written + ping.keepAlive.toNat * 1000

/-- Less than the whole seconds in half the keep-alive have passed since the write. -/
def Ping.timely (now : Nat) (ping : Ping) : Bool := now < ping.written + ping.keepAlive.toNat / 2 * 1000

/-- A client, and the PINGREQs of its session that no PINGRESP has answered yet. -/
structure Pulse where
  sys : Sys := {}
  unanswered : List Ping := []

namespace Pulse

variable {l m : Pulse}

def after (l : Pulse) (a : Sys.Action) : List Ping :=
  if l.sys.ponged a || l.sys.stopped a then []
  else if l.sys.pinged a then ⟨l.sys.now, l.sys.keepAliveSeconds⟩ :: l.unanswered
  else l.unanswered

def step (l : Pulse) (a : Sys.Action) : Option Pulse :=
  (l.sys.step a).map fun sys => { sys, unanswered := l.after a }

/-- No answer is late: each comes less than half the keep-alive after the write. -/
def responsive (l : Pulse) : Bool := l.unanswered.all (·.answerable l.sys.now)

/-- No answer comes after the whole seconds of half the keep-alive. -/
def timely (l : Pulse) : Bool := l.unanswered.all (·.timely l.sys.now)

/-- No expiry of a ping deadline is being handled. -/
def Spared (l : Pulse) : Prop := ∀ k ∈ l.sys.net.running, k.expired = false

/-- Every ping deadline is that of an unanswered PINGREQ, and none has expired. -/
structure Covered (l : Pulse) : Prop where
  pings : l.sys.Pings
  owed : ∀ w ∈ l.sys.waits, w.handler.isDeadline = true →
    ∃ ping ∈ l.unanswered, w.deadline = ping.written + ping.keepAlive.toNat / 2 * 1000
  punctual : l.sys.Punctual

theorem covered_start : ({} : Pulse).Covered := ⟨nofun, nofun, nofun, nofun⟩

theorem covered_step {a : Sys.Action} (covered : l.Covered) (timely : l.timely = true) (taken : l.step a = some m) :
    m.Covered := by
  obtain ⟨t, moved, rfl⟩ := Option.map_eq_some_iff.mp taken
  have punctual : t.Punctual := by
    refine Sys.punctual_step moved covered.punctual fun w among due => ?_
    cases deadline : w.handler.isDeadline with
    | false => rfl
    | true =>
      -- The wait of an unanswered PINGREQ is not over yet.
      obtain ⟨ping, unanswered, same⟩ := covered.owed w among deadline
      have early := decide_eq_true_eq.mp (List.all_eq_true.mp timely ping unanswered)
      omega
  by_cases cancels : l.sys.ponged a = true ∨ l.sys.stopped a = true
  · have relaxed := Sys.relaxed_step moved covered.pings cancels
    exact ⟨fun w among deadline => absurd (relaxed w among) (by simp [deadline]),
      fun w among deadline => absurd (relaxed w among) (by simp [deadline]), punctual⟩
  have kept : ({ sys := t, unanswered := l.after a } : Pulse).unanswered =
      if l.sys.pinged a then ⟨l.sys.now, l.sys.keepAliveSeconds⟩ :: l.unanswered else l.unanswered :=
    if_neg (by simpa using cancels)
  cases pinged : l.sys.pinged a with
  | false =>
    have eases := Sys.eases_step moved pinged
    rw [pinged, if_neg Bool.false_ne_true] at kept
    refine ⟨fun w among deadline => covered.pings w (eases w among deadline) deadline, fun w among deadline => ?_,
      punctual⟩
    rw [kept]
    exact covered.owed w (eases w among deadline) deadline
  | true =>
    obtain ⟨attempt, waits⟩ := Sys.armed_step moved pinged
    rw [pinged, if_pos rfl] at kept
    refine ⟨fun w among deadline => ?_, fun w among deadline => ?_, punctual⟩
    · rw [waits] at among
      rcases List.mem_append.mp among with before | last
      · exact covered.pings w (List.mem_of_mem_filter before) deadline
      · exact List.mem_singleton.mp last ▸ rfl
    · rw [waits] at among
      rw [kept]
      rcases List.mem_append.mp among with before | last
      · obtain ⟨ping, unanswered, same⟩ := covered.owed w (List.mem_of_mem_filter before) deadline
        exact ⟨ping, .tail _ unanswered, same⟩
      · exact ⟨_, .head _, by rw [List.mem_singleton.mp last]⟩

/-- As long as every PINGRESP comes within the whole seconds of half the keep-alive, no session is ended by
the keep-alive. -/
theorem keep_alive_spares {actions : List Sys.Action}
    (prompt : Runs.Along step (fun l _ => l.timely = true) {} actions) :
    Runs.Throughout step Spared {} actions :=
  Runs.throughout_of_along (I := Covered) (fun _ _ _ covered timely => covered_step covered timely)
    (fun _ covered => covered.punctual.running) covered_start prompt

/-- A session with this keep-alive in which a PINGREQ was written. -/
def pinging (seconds : UInt16) : List Sys.Action :=
  .call (.setKeepAlive seconds) :: Sys.opened ++ [.advance (seconds.toNat * 1000), .expire 0, .run, .exec, .run,
    .kernel (.send 1 2), .kernel (.write 1 none), .run, .exec, .exec]

/-- The PINGRESP is handled, and nothing else. -/
def ponging : List Sys.Action := [.kernel (.read 0 (.ok [0xD0, 0])), .run, .run, .exec, .exec, .exec]

theorem answered_session_spared : (Runs.exec step {} (pinging 4 ++ [.advance 1999] ++ ponging)).isSome = true ∧
    Runs.Throughout step Spared {} (pinging 4 ++ [.advance 1999] ++ ponging) :=
  ⟨by decide +kernel, keep_alive_spares (by decide +kernel)⟩

/-- Half of three seconds is more than the one second after which the session ends: the deadline expires while the
PINGRESP waits for its turn, which comes in time. -/
def overtaken : List Sys.Action :=
  pinging 3 ++ [.advance 1000, .kernel (.read 0 (.ok [0xD0, 0])), .run, .expire 0, .run, .exec, .exec, .exec, .run]

theorem responsive_session_ended : ¬ ∀ actions, Runs.Along step (fun l _ => l.responsive = true) {} actions →
    Runs.Throughout step Spared {} actions := by
  intro claimed
  have responsive : Runs.Along step (fun l _ => l.responsive = true) {} overtaken := by decide +kernel
  have run : (Runs.exec step {} overtaken).map (fun l => l.unanswered.isEmpty && l.sys.net.running.any Work.expired) =
      some true := by
    decide +kernel
  obtain ⟨l, reached, facts⟩ := Runs.exec_of_check run
  simp only [Bool.and_eq_true, List.any_eq_true] at facts
  obtain ⟨-, k, among, expired⟩ := facts
  have spared := Runs.throughout_last (claimed overtaken responsive) reached k among
  exact absurd (spared.symm.trans expired) nofun

end Pulse
end LiteMqtt
