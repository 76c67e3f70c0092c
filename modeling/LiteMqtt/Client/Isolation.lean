import LiteMqtt.Client.Exchange
import LiteMqtt.Client.Posting

/-!
# Completions of an earlier attempt

`async_connect` resets `closed_`, and nothing else tells the completions of the new attempt
from those of an earlier one. For each kind of completion this is the exact condition under
which a late one leaves the flags, the maps, the frames and the reports of the new attempt alone.
The socket is left out: a late resolve or a TCP connect that is retried may close the one the new
attempt connects, and what follows is then done by a completion of the new attempt.
-/

namespace LiteMqtt

/-- A frame is handed over, or one of the three callbacks of the client is called. -/
def Event.watched : Event → Bool
  | .handed _ | .connectReport .. | .message .. | .closeReport => true
  | _ => false

namespace Sys

variable {s t u v : Sys}

/-- The flags, the pending maps, and what was sent and reported are as they were. The socket and the timers are not
looked at. -/
structure Unaffected (s t : Sys) : Prop where
  closed : t.closed = s.closed
  state : t.net.state = s.net.state
  publishes : t.pendingPublishes = s.pendingPublishes
  pubrecs : t.pendingPubrecs = s.pendingPubrecs
  subscribes : t.pendingSubscribes = s.pendingSubscribes
  events : t.log.filter Event.watched = s.log.filter Event.watched

/-- The completion descends from an earlier `async_connect`: its resolve or TCP connect, its
read, its ping timer or its connect timer. -/
def stale (s : Sys) : Task Handler Work → Bool
  | .resolved (.connect attempt) _ | .connected (.connect attempt) _ _ _ | .read _ (.read attempt) _
  | .readHandler (.read attempt) _ _ | .own (.timer (.ping attempt) _)
  | .own (.timer (.pingDeadline attempt) _) | .own (.timer (.connectTimeout attempt) _) =>
      decide (attempt < s.attempts)
  | _ => false

/-- The io thread takes its next task and runs `k` pieces of the code it starts. -/
def handling (k : Nat) : List Action := .run :: List.replicate k .exec

/-- A stale completion that is handled leaves the client unaffected, whatever code it starts. -/
def Isolates (s : Sys) : Action → Prop
  | .run => (s.net.ready.head?.any s.stale) = true →
      ∀ k t, Runs.exec step s (handling k) = some t → Unaffected s t
  | _ => True

def quietPacket (s : Sys) (data : Bytes) : Bool :=
  match data with
  | [] => true
  | byte :: _ =>
      match PacketType.ofUint8 (byte >>> 4) with
      | .connack => !s.onConnectCb &&
          if (ConnackPacket.parse data).returnCode = 0 then s.net.state == .connected && !s.closed
          else s.closed
      | .publish =>
          if (PublishPacket.parse data).qos > 2 then s.closed
          else (PublishPacket.parse data).qos == 0 && !s.onMessageCb
      | .suback => !s.pendingSubscribes.contains (SubackPacket.parse data).packetId
      | .puback | .pubrec => !s.pendingPublishes.contains (parseId data)
      | .pubrel => false
      | .pubcomp => !s.pendingPublishes.contains (parseId data) && !s.pendingPubrecs.contains (parseId data)
      | _ => true

def quietTimer (s : Sys) : TimerHandler → ErrorCode → Bool
  | _, some _ => true
  | .pingDeadline _, none | .connectTimeout _, none => s.closed
  | _, none => false

/-- What has to be so before a stale completion is handled. -/
def quiet (s : Sys) : Task Handler Work → Bool
  | .resolved _ (.error _) => s.closed || !s.onConnectCb
  | .connected _ rest _ ec =>
      match s.net.socket.isOpen, ec, rest with
      | true, none, _ => s.net.state == .handshaking && s.closed
      | true, some _, _ + 1 => true
      | _, _, _ => s.net.state == .disconnected && (s.closed || !s.onConnectCb)
  | .readHandler _ ec data => if ec.isSome then s.closed else s.quietPacket data
  | .own (.timer handler ec) => s.quietTimer handler ec
  | _ => true

def Quiet (s : Sys) : Action → Prop
  | .run => ∀ task ∈ s.net.ready.head?, s.stale task = true → s.quiet task = true
  | _ => True

/-! ### What a quiet completion starts -/

/-- The client is unaffected, and what decides the rest is as it was. -/
structure Same (s t : Sys) : Prop extends Unaffected s t where
  onConnectCb : t.onConnectCb = s.onConnectCb
  onMessageCb : t.onMessageCb = s.onMessageCb
  shut : t.net.closed = s.net.closed

theorem Same.trans (h : Same s t) (g : Same t u) : Same s u :=
  ⟨⟨g.closed.trans h.closed, g.state.trans h.state, g.publishes.trans h.publishes,
    g.pubrecs.trans h.pubrecs, g.subscribes.trans h.subscribes, g.events.trans h.events⟩,
    g.onConnectCb.trans h.onConnectCb, g.onMessageCb.trans h.onMessageCb, g.shut.trans h.shut⟩

/-- Code on the stack that does not affect the client. -/
def harmless (s : Sys) : StackEntry Handler Work → Bool
  | .invoke (.connect _ ec) => s.closed || (ec.isSome && !s.onConnectCb)
  | .invoke (.read _ ec data) => if ec.isSome then s.closed else s.quietPacket data
  | .own (.timer handler ec) => s.quietTimer handler ec
  | .own (.handlePacket _ data) => s.quietPacket data
  | .own (.startReadLoop _) => true
  | .own .notifyClosedOnce => s.closed
  | .own (.acknowledge qos _) => qos == 0
  | .own (.reportConnect ..) => !s.onConnectCb
  | _ => false

theorem quietPacket_same (h : Same s t) (data : Bytes) : t.quietPacket data = s.quietPacket data := by
  unfold quietPacket
  rw [h.onConnectCb, h.onMessageCb, h.closed, h.state, h.publishes, h.pubrecs, h.subscribes]

theorem harmless_same (h : Same s t) (e : StackEntry Handler Work) : t.harmless e = s.harmless e := by
  unfold harmless quietTimer
  simp only [quietPacket_same h, h.onConnectCb, h.closed]

/-- The stack of `t` is that of `s` with harmless code on top. -/
structure Adds (s t : Sys) : Prop where
  same : Same s t
  stack : ∃ entries, t.net.stack = entries ++ s.net.stack ∧ ∀ e ∈ entries, s.harmless e = true

theorem Adds.nothing (same : Same s t) (stack : t.net.stack = s.net.stack) : Adds s t :=
  ⟨same, [], stack, nofun⟩

theorem Adds.refl (s : Sys) : Adds s s := .nothing ⟨⟨rfl, rfl, rfl, rfl, rfl, rfl⟩, rfl, rfl, rfl⟩ rfl

theorem adds_push (s : Sys) {k : Work} (harmless : s.harmless (.own k) = true) : Adds s (s.push [k]) :=
  ⟨⟨⟨rfl, rfl, rfl, rfl, rfl, rfl⟩, rfl, rfl, rfl⟩, [.own k], rfl, fun _ among =>
    List.mem_singleton.mp among ▸ harmless⟩

theorem adds_record (s : Sys) {e : Event} (other : e.watched = false) : Adds s (s.record e) :=
  .nothing ⟨⟨rfl, rfl, rfl, rfl, rfl, by simp [record, other]⟩, rfl, rfl, rfl⟩ rfl

theorem Adds.trans (h : Adds s t) (g : Adds t u) : Adds s u := by
  obtain ⟨same, first, stack, harmless⟩ := h
  obtain ⟨same', more, stack', harmless'⟩ := g
  refine ⟨same.trans same', more ++ first, by rw [stack', stack, List.append_assoc], fun e among => ?_⟩
  rcases List.mem_append.mp among with later | before
  · exact harmless_same same e ▸ harmless' e later
  · exact harmless e before

theorem startRead_same (n : Net Handler Work) (phase : ReadPhase) (count : Nat) (h : Handler) :
    (n.startRead phase count h).state = n.state ∧ (n.startRead phase count h).closed = n.closed ∧
      (n.startRead phase count h).stack = n.stack := by
  unfold Net.startRead
  split <;> exact ⟨rfl, rfl, rfl⟩

theorem onRead_same (n : Net Handler Work) (phase : ReadPhase) (h : Handler) (result : Except AsioError Bytes) :
    (n.onRead phase h result).state = n.state ∧ (n.onRead phase h result).closed = n.closed ∧
      (n.onRead phase h result).stack = n.stack := by
  unfold Net.onRead
  split
  · exact startRead_same _ _ _ _
  · exact ⟨rfl, rfl, rfl⟩

theorem adds_startReadLoop (s : Sys) (attempt : Nat) : Adds s (s.startReadLoop attempt) := by
  have same : (s.startReadLoop attempt).net.state = s.net.state ∧
      (s.startReadLoop attempt).net.closed = s.net.closed ∧
      (s.startReadLoop attempt).net.stack = s.net.stack := by
    change (s.net.asyncReadPacket _).state = _ ∧ (s.net.asyncReadPacket _).closed = _ ∧
      (s.net.asyncReadPacket _).stack = _
    unfold Net.asyncReadPacket
    split
    · exact startRead_same _ _ _ _
    · exact ⟨rfl, rfl, rfl⟩
  exact .nothing ⟨⟨rfl, same.1, rfl, rfl, rfl, rfl⟩, rfl, rfl, same.2.1⟩ same.2.2

theorem adds_handleConnack {data : Bytes} (silent : s.onConnectCb = false)
    (calm : if (ConnackPacket.parse data).returnCode = 0 then s.net.state = .connected ∧ s.closed = false
      else s.closed = true) (shut : s.closed = true → s.net.closed = true) : Adds s (s.handleConnack data) := by
  let u := (s.cancelTimer connectTimer).record (.received .connack 0 [(ConnackPacket.parse data).returnCode])
  have first : Adds s u := .nothing ⟨⟨rfl, rfl, rfl, rfl, rfl, rfl⟩, rfl, rfl, rfl⟩ rfl
  have quiet : (!s.onConnectCb) = true := by simp [silent]
  unfold handleConnack
  dsimp only
  split at calm
  · rename_i accepted
    rw [if_pos accepted]
    let v : Sys := { u with net := u.net.markConnected, closed := false }
    have opened : Adds u v := .nothing ⟨⟨calm.2.symm, calm.1.symm, rfl, rfl, rfl, rfl⟩, rfl, rfl, rfl⟩ rfl
    exact first.trans (opened.trans (adds_push v (k := .reportConnect true 0) quiet))
  · rename_i refused
    rw [if_neg refused]
    let v : Sys := { u with closed := true }
    have shutting : Adds u v := .nothing ⟨⟨calm.symm, rfl, rfl, rfl, rfl, rfl⟩, rfl, rfl, rfl⟩ rfl
    let w := v.push [.reportConnect false (ConnackPacket.parse data).returnCode]
    have reporting : Adds v w := adds_push v quiet
    have idle : w.closeConnection = w := if_pos (shut calm)
    change Adds s w.closeConnection
    rw [idle]
    exact first.trans (shutting.trans reporting)

theorem adds_handlePacket (attempt : Nat) {data : Bytes} (calm : s.quietPacket data = true)
    (shut : s.closed = true → s.net.closed = true) : Adds s (s.handlePacket attempt data) := by
  cases data with
  | nil => exact .refl s
  | cons byte rest =>
    unfold handlePacket
    unfold quietPacket at calm
    dsimp only at calm ⊢
    cases type : PacketType.ofUint8 (byte >>> 4) <;> simp only [type] at calm ⊢
    case connack =>
      simp only [Bool.and_eq_true, Bool.not_eq_true'] at calm
      refine adds_handleConnack calm.1 ?_ shut
      obtain ⟨-, calm⟩ := calm
      split at calm
      · rename_i accepted
        rw [if_pos accepted]
        simpa using calm
      · rename_i refused
        rw [if_neg refused]
        exact calm
    case publish =>
      unfold handlePublish
      dsimp only
      split at calm
      · rename_i wrong
        rw [if_pos wrong]
        exact adds_push s calm
      · rename_i fine
        simp only [Bool.and_eq_true, Bool.not_eq_true', beq_iff_eq] at calm
        rw [if_neg fine, if_neg (by simpa [push] using calm.2)]
        exact adds_push s (by simp [harmless, calm.1])
    case suback =>
      have absent : s.pendingSubscribes.find? (SubackPacket.parse (byte :: rest)).packetId = none := by
        simpa [OrderedMap.contains] using calm
      unfold handleSuback
      dsimp only [record]
      rw [absent]
      exact adds_record s rfl
    case puback =>
      have absent : s.pendingPublishes.find? (parseId (byte :: rest)) = none := by
        simpa [OrderedMap.contains] using calm
      have silent : s.handlePuback (byte :: rest) = s.record (.received .puback (parseId (byte :: rest)) []) := by
        change (s.record _).finishPublishSuccess (parseId (byte :: rest)) = _
        simp only [finishPublishSuccess, record, absent]
        rfl
      exact silent ▸ adds_record s rfl
    case pubrec =>
      have absent : s.pendingPublishes.contains (parseId (byte :: rest)) = false := by simpa using calm
      have silent : s.handlePubrec (byte :: rest) = s.record (.received .pubrec (parseId (byte :: rest)) []) :=
        if_neg (show ¬ s.pendingPublishes.contains (parseId (byte :: rest)) = true by simp [absent])
      exact silent ▸ adds_record s rfl
    case pubrel => contradiction
    case pubcomp =>
      simp only [Bool.and_eq_true] at calm
      have absent : s.pendingPublishes.find? (parseId (byte :: rest)) = none := by
        simpa [OrderedMap.contains] using calm.1
      have released : s.pendingPubrecs.find? (parseId (byte :: rest)) = none := by
        simpa [OrderedMap.contains] using calm.2
      have silent : s.handlePubcomp (byte :: rest) = s.record (.received .pubcomp (parseId (byte :: rest)) []) := by
        change ((s.record _).erasePubrec (parseId (byte :: rest))).finishPublishSuccess (parseId (byte :: rest)) = _
        simp only [erasePubrec, finishPublishSuccess, record, absent, released]
        rfl
      exact silent ▸ adds_record s rfl
    case pingresp =>
      refine .nothing ?_ ?_
      · unfold schedulePingreq
        split <;> exact ⟨⟨rfl, rfl, rfl, rfl, rfl, rfl⟩, rfl, rfl, rfl⟩
      · unfold schedulePingreq
        split <;> rfl
    all_goals exact .refl s

theorem adds_onTimer {handler : TimerHandler} {ec : ErrorCode} (calm : s.quietTimer handler ec = true) :
    Adds s (s.onTimer handler ec) := by
  cases ec with
  | some ec => exact .refl s
  | none =>
    cases handler with
    | pingDeadline attempt => exact adds_push s calm
    | connectTimeout attempt =>
      have silent : s.handleConnectTimeout = s := if_pos calm
      change Adds s s.handleConnectTimeout
      rw [silent]
      exact .refl s
    | _ => contradiction

/-- Harmless code leaves the client unaffected and goes on with harmless code. -/
theorem adds_execute {k : Work} (calm : s.harmless (.own k) = true)
    (shut : s.closed = true → s.net.closed = true) : Adds s (s.execute k) := by
  cases k with
  | timer handler ec => exact adds_onTimer calm
  | handlePacket attempt data => exact adds_handlePacket attempt calm shut
  | startReadLoop attempt => exact adds_startReadLoop s attempt
  | notifyClosedOnce =>
    have silent : s.notifyClosedOnce = s := if_pos calm
    change Adds s s.notifyClosedOnce
    rw [silent]
    exact .refl s
  | acknowledge qos p =>
    obtain rfl : qos = 0 := beq_iff_eq.mp calm
    exact .refl s
  | reportConnect ok rc =>
    have silent : s.reportConnect ok rc = s := if_neg (by simpa [harmless] using calm)
    change Adds s (s.reportConnect ok rc)
    rw [silent]
    exact .refl s
  | _ => contradiction

theorem adds_onInvoke {call : Invocation Handler} (calm : s.harmless (.invoke call) = true) :
    Adds s (s.onInvoke call) := by
  cases call with
  | connect handler ec =>
    cases handler with
    | connect attempt =>
      change Adds s (s.onConnect attempt ec)
      unfold onConnect
      split
      · exact .refl s
      · rename_i opened
        obtain ⟨failed, silent⟩ : ec.isSome = true ∧ s.onConnectCb = false := by
          simpa [harmless, opened] using calm
        rw [if_pos failed, reportConnect, if_neg (by simp [silent])]
        exact .refl s
    | _ => exact .refl s
  | read handler ec data =>
    cases handler with
    | read attempt =>
      change Adds s (s.onRead attempt ec data)
      unfold onRead
      unfold harmless at calm
      split
      · rename_i failed
        exact adds_push s (by simpa [harmless, failed] using calm)
      · rename_i fine
        have reading : Adds s (s.push [.startReadLoop attempt]) := adds_push s rfl
        have packet : s.quietPacket data = true := by simpa [fine] using calm
        exact reading.trans (adds_push _ (k := .handlePacket attempt data)
          ((quietPacket_same reading.same data).trans packet))
    | _ => exact .refl s
  | _ => contradiction

/-- The client is as it was, and only harmless code is running. -/
structure Resting (s u : Sys) : Prop where
  same : Same s u
  stack : ∀ e ∈ u.net.stack, s.harmless e = true

theorem resting_exec (before : Resting s u) (shut : s.closed = true → s.net.closed = true)
    (taken : u.step .exec = some v) : Resting s v := by
  have shut : u.closed = true → u.net.closed = true := fun now => before.same.shut ▸ shut (before.same.closed ▸ now)
  have goes : ∀ {rest entry w}, u.net.stack = entry :: rest → Adds (u.goesOn rest) w → Resting s w := by
    intro rest entry w front h
    obtain ⟨same, entries, stack, harmless⟩ := h
    have popped : Same s (u.goesOn rest) := before.same.trans ⟨⟨rfl, rfl, rfl, rfl, rfl, rfl⟩, rfl, rfl, rfl⟩
    refine ⟨popped.trans same, fun e among => ?_⟩
    rw [stack] at among
    rcases List.mem_append.mp among with fresh | old
    · exact harmless_same popped e ▸ harmless e fresh
    · exact before.stack e (front ▸ .tail _ old)
  have calm : ∀ {entry rest}, u.net.stack = entry :: rest → (u.goesOn rest).harmless entry = true := by
    intro entry rest front
    have popped : Same s (u.goesOn rest) := before.same.trans ⟨⟨rfl, rfl, rfl, rfl, rfl, rfl⟩, rfl, rfl, rfl⟩
    exact (harmless_same popped entry).trans (before.stack entry (front ▸ .head _))
  cases (steps taken).2 with
  | work k rest front busy => exact goes front (adds_execute (calm front) shut)
  | invoke call rest front =>
    have quiet := calm front
    have same : { u with net := (u.goesOn rest).net.recordCall call } = u.goesOn rest := by
      cases call <;> first | rfl | contradiction
    rw [same]
    exact goes front (adds_onInvoke quiet)
  | afterWrite ec rest front => exact absurd (calm front) nofun
  | closeHandler rest front => exact absurd (calm front) nofun

theorem resting_run {task : Task Handler Work} (tail : List (Task Handler Work)) (idle : s.net.stack = [])
    (late : s.stale task = true) (calm : s.quiet task = true) :
    Resting s { s with net := (s.net.leaving tail).runTask task } := by
  have one : ∀ (n : Net Handler Work) (e : StackEntry Handler Work), n.state = s.net.state → n.closed = s.net.closed →
      n.stack = [] → s.harmless e = true → Resting s { s with net := n.push [e] } := by
    intro n e state closed stack harmless
    refine ⟨⟨⟨rfl, state, rfl, rfl, rfl, rfl⟩, rfl, rfl, closed⟩, fun x among => ?_⟩
    change x ∈ [e] ++ n.stack at among
    rw [stack] at among
    exact List.mem_singleton.mp among ▸ harmless
  have nothing : ∀ (n : Net Handler Work), n.state = s.net.state → n.closed = s.net.closed → n.stack = [] →
      Resting s { s with net := n } := by
    intro n state closed stack
    refine ⟨⟨⟨rfl, state, rfl, rfl, rfl, rfl⟩, rfl, rfl, closed⟩, fun x among => ?_⟩
    change x ∈ n.stack at among
    rw [stack] at among
    exact absurd among List.not_mem_nil
  cases task with
  | resolved h result =>
    cases result with
    | error ec => exact one (s.net.leaving tail) _ rfl rfl idle (by simpa [harmless, quiet] using calm)
    | ok rest => exact nothing _ rfl rfl idle
  | connected h rest socket ec =>
    have failing : ∀ e, (s.net.state == .disconnected && (s.closed || !s.onConnectCb)) = true →
        Resting s { s with net := (s.net.leaving tail).onConnected h (some e) } := by
      intro e calm
      simp only [Bool.and_eq_true, beq_iff_eq] at calm
      exact one { s.net.leaving tail with state := .disconnected } _ calm.1.symm rfl idle
        (by simpa [harmless] using calm.2)
    simp only [quiet] at calm
    change Resting s { s with net := (s.net.leaving tail).onEndpoint h rest ec }
    unfold Net.onEndpoint
    cases opened : s.net.socket.isOpen with
    | false =>
      have there : (s.net.leaving tail).socket.isOpen = false := opened
      rw [if_pos (by simp [there])]
      exact failing _ (by simpa [opened] using calm)
    | true =>
      have there : (s.net.leaving tail).socket.isOpen = true := opened
      rw [if_neg (by simp [there])]
      simp only [opened] at calm
      cases ec with
      | none =>
        simp only [Bool.and_eq_true, beq_iff_eq] at calm
        exact one { s.net.leaving tail with state := .handshaking } _ calm.1.symm rfl idle
          (by simp [harmless, calm.2])
      | some e =>
        cases rest with
        | zero => exact failing e calm
        | succ rest => exact nothing _ rfl rfl idle
  | read phase h result =>
    obtain ⟨state, closed, stack⟩ := onRead_same (s.net.leaving tail) phase h result
    exact nothing _ state closed (stack.trans idle)
  | readHandler h ec data => exact one (s.net.leaving tail) _ rfl rfl idle calm
  | own k =>
    cases k with
    | timer handler ec => exact one (s.net.leaving tail) _ rfl rfl idle calm
    | _ => contradiction
  | _ => contradiction

theorem resting_execs {k : Nat} (start : Resting s u) (shut : s.closed = true → s.net.closed = true)
    (done : Runs.exec step u (List.replicate k .exec) = some t) : Resting s t := by
  induction k generalizing u with
  | zero => exact Option.some.inj done ▸ start
  | succ k ih =>
    obtain ⟨v, first, rest⟩ := Runs.exec_cons done
    exact ih (resting_exec start shut first) rest

theorem shut_of_idle (ending : s.Ending) (sane : s.undefined = false) (idle : s.net.stack = [])
    (closed : s.closed = true) : s.net.closed = true := by
  rcases ending closed with shut | ⟨k, among, _⟩ | crashed
  · exact shut
  · simp [Net.running, idle] at among
  · cases sane.symm.trans crashed

theorem step_run_cases (taken : s.step .run = some t) : s.undefined = false ∧ s.net.stack = [] ∧
    ∃ task tail, s.net.ready = task :: tail ∧ t = { s with net := (s.net.leaving tail).runTask task } := by
  obtain ⟨sane, how⟩ := steps taken
  cases how with
  | run n ran =>
    obtain ⟨idle, task, tail, ready, rfl⟩ := Net.run_cases ran
    exact ⟨sane, idle, task, tail, ready, rfl⟩

theorem isolates_of_quiet {a : Action} (ending : s.Ending) (calm : s.Quiet a) : s.Isolates a := by
  cases a with
  | run =>
    intro late k t done
    obtain ⟨u, taken, later⟩ := Runs.exec_cons done
    obtain ⟨sane, idle, task, tail, ready, rfl⟩ := step_run_cases taken
    rw [ready] at late
    have quiet := calm task (by rw [ready]; rfl) late
    have shut := shut_of_idle ending sane idle
    have start := resting_run tail idle late quiet
    exact (resting_execs start shut later).same.toUnaffected
  | _ => trivial

/-! ### What any other completion does -/

theorem step_work {k : Work} {rest : List (StackEntry Handler Work)} (sane : u.undefined = false)
    (front : u.net.stack = .own k :: rest) (busy : k ≠ .user) :
    u.step .exec = some ((u.goesOn rest).execute k) := by
  rw [step, if_neg (by simp [sane])]
  simp only [exec, front]
  cases k with
  | user => contradiction
  | _ => rfl

theorem step_invoke {call : Invocation Handler} {rest : List (StackEntry Handler Work)}
    (sane : u.undefined = false) (front : u.net.stack = .invoke call :: rest) :
    u.step .exec = some ({ u with net := (u.goesOn rest).net.recordCall call }.onInvoke call) := by
  rw [step, if_neg (by simp [sane])]
  simp only [exec, front, Net.resume, Option.map_some]
  rfl

/-- The code that runs affects the client sooner or later. -/
def Reveals (s u : Sys) : Prop :=
  ∃ k t, Runs.exec step u (List.replicate k .exec) = some t ∧ ¬ Unaffected s t

theorem reveals_now (affected : ¬ Unaffected s u) : Reveals s u := ⟨0, u, rfl, affected⟩

theorem reveals_later (taken : u.step .exec = some v) (later : Reveals s v) : Reveals s u := by
  obtain ⟨k, t, done, affected⟩ := later
  exact ⟨k + 1, t, by simp [List.replicate_succ, Runs.exec, taken, done], affected⟩

theorem affected_event {e : Event} {rest : List Event} (log : t.log = e :: rest) (watched : e.watched = true)
    (before : rest.filter Event.watched = s.log.filter Event.watched) : ¬ Unaffected s t := by
  intro h
  have events := h.events
  rw [log, List.filter_cons_of_pos watched, before] at events
  exact absurd events (List.cons_ne_self _ _)

theorem affected_closed (before : s.closed = false) (after : t.closed = true) : ¬ Unaffected s t :=
  fun h => absurd (before.symm.trans (h.closed.symm.trans after)) nofun

theorem notifyClosedOnce_closed (s : Sys) : s.notifyClosedOnce.closed = true := by
  unfold notifyClosedOnce
  split
  · assumption
  · dsimp only
    split <;> rfl

theorem reveals_notifyClosedOnce {rest : List (StackEntry Handler Work)} (sane : u.undefined = false)
    (front : u.net.stack = .own .notifyClosedOnce :: rest) (opened : s.closed = false) : Reveals s u :=
  reveals_later (step_work sane front nofun)
    (reveals_now (affected_closed opened (notifyClosedOnce_closed (u.goesOn rest))))

theorem reveals_reportConnect {ok : Bool} {rc : UInt8} {rest : List (StackEntry Handler Work)}
    (sane : u.undefined = false) (front : u.net.stack = .own (.reportConnect ok rc) :: rest)
    (called : u.onConnectCb = true) (events : u.log.filter Event.watched = s.log.filter Event.watched) :
    Reveals s u := by
  have told : ((u.goesOn rest).reportConnect ok rc).log = .connectReport ok rc :: u.log := by
    rw [reportConnect, if_pos (show (u.goesOn rest).onConnectCb = true from called)]
    rfl
  exact reveals_later (step_work sane front nofun) (reveals_now (affected_event told rfl events))

theorem reveals_handleConnack {data : Bytes} (sane : s.undefined = false)
    (shut : s.closed = true → s.net.closed = true)
    (loud : s.onConnectCb = true ∨ ¬ (if (ConnackPacket.parse data).returnCode = 0 then
      s.net.state = .connected ∧ s.closed = false else s.closed = true)) : Reveals s (s.handleConnack data) := by
  unfold handleConnack
  dsimp only
  split
  · rename_i accepted
    rw [if_pos accepted] at loud
    by_cases same : s.net.state = .connected ∧ s.closed = false
    · exact reveals_reportConnect sane rfl (loud.resolve_right (not_not_intro same)) rfl
    · exact reveals_now fun h => same ⟨h.state.symm, h.closed.symm⟩
  · rename_i refused
    rw [if_neg refused] at loud
    cases closed : s.closed with
    | false =>
      refine reveals_now (affected_closed closed ?_)
      unfold closeConnection
      split <;> rfl
    | true =>
      let u := (s.cancelTimer connectTimer).record (.received .connack 0 [(ConnackPacket.parse data).returnCode])
      let v := { u with closed := true }.push [.reportConnect false (ConnackPacket.parse data).returnCode]
      have idle : v.closeConnection = v := if_pos (shut closed)
      change Reveals s v.closeConnection
      rw [idle]
      exact reveals_reportConnect sane rfl (loud.resolve_right (not_not_intro closed)) rfl

theorem reveals_handlePublish {data : Bytes} (sane : s.undefined = false)
    (loud : (if (PublishPacket.parse data).qos > 2 then s.closed
      else (PublishPacket.parse data).qos == 0 && !s.onMessageCb) = false) :
    Reveals s (s.handlePublish data) := by
  unfold handlePublish
  dsimp only
  split at loud
  · rename_i wrong
    rw [if_pos wrong]
    exact reveals_notifyClosedOnce sane rfl loud
  · rename_i fine
    rw [if_neg fine]
    split
    · exact reveals_now (affected_event rfl rfl rfl)
    · rename_i silent
      -- without a callback the acknowledgement shows
      have positive : (PublishPacket.parse data).qos ≠ 0 := by
        have silent : s.onMessageCb = false := by simpa [push] using silent
        simpa [silent] using loud
      refine reveals_later (step_work sane rfl nofun) (reveals_now ?_)
      change ¬ Unaffected s (Sys.acknowledge _ _ _)
      unfold acknowledge
      split
      · exact affected_event rfl rfl rfl
      · split
        · exact affected_event rfl rfl rfl
        · rename_i one two
          rcases qos_acknowledged fine positive with first | second
          · exact absurd first one
          · exact absurd second two

theorem contains_erase_self {V : Type} (m : OrderedMap UInt16 V) (p : UInt16) : (m.erase p).contains p = false := by
  simp [OrderedMap.contains, OrderedMap.find?_erase]

theorem reveals_handleSuback {data : Bytes}
    (found : s.pendingSubscribes.contains (SubackPacket.parse data).packetId = true) :
    Reveals s (s.handleSuback data) := by
  refine reveals_now fun h => ?_
  have gone : (s.handleSuback data).pendingSubscribes.contains (SubackPacket.parse data).packetId = false := by
    obtain ⟨entry, held⟩ := Option.isSome_iff_exists.mp found
    unfold handleSuback
    dsimp only [record]
    rw [held]
    dsimp only
    split
    · exact contains_erase_self _ _
    · split <;> exact contains_erase_self _ _
  rw [h.subscribes, found] at gone
  contradiction

theorem finishPublishSuccess_gone (s : Sys) (p : UInt16) :
    (s.finishPublishSuccess p).pendingPublishes.contains p = false := by
  unfold finishPublishSuccess
  split
  · rename_i absent
    simp [OrderedMap.contains, absent]
  · rw [(tellPublish_publishes _ _ _ _ _ _).1]
    exact contains_erase_self _ _

theorem erasePubrec_gone (s : Sys) (p : UInt16) : (s.erasePubrec p).pendingPubrecs.contains p = false := by
  unfold erasePubrec
  split
  · rename_i absent
    simp [OrderedMap.contains, absent]
  · exact contains_erase_self _ _

theorem reveals_handlePuback {data : Bytes} (found : s.pendingPublishes.contains (parseId data) = true) :
    Reveals s (s.handlePuback data) := by
  refine reveals_now fun h => ?_
  have gone : (s.handlePuback data).pendingPublishes.contains (parseId data) = false :=
    finishPublishSuccess_gone _ _
  rw [h.publishes, found] at gone
  contradiction

theorem reveals_handlePubrec {data : Bytes} (found : s.pendingPublishes.contains (parseId data) = true) :
    Reveals s (s.handlePubrec data) := by
  have log := (handlePubrec_recorded s data).log
  rw [if_pos found] at log
  exact reveals_now (affected_event log rfl rfl)

theorem reveals_handlePubcomp {data : Bytes} (found : s.pendingPublishes.contains (parseId data) = true ∨
    s.pendingPubrecs.contains (parseId data) = true) : Reveals s (s.handlePubcomp data) := by
  refine reveals_now fun h => ?_
  have completed : (s.handlePubcomp data).pendingPublishes.contains (parseId data) = false :=
    finishPublishSuccess_gone _ _
  have released : (s.handlePubcomp data).pendingPubrecs.contains (parseId data) = false := by
    refine (congrArg (OrderedMap.contains · (parseId data)) (finishPublishSuccess_pubrecs _ (parseId data))).trans ?_
    exact erasePubrec_gone _ _
  rw [h.publishes] at completed
  rw [h.pubrecs] at released
  rcases found with publish | pubrec
  · exact absurd (completed.symm.trans publish) nofun
  · exact absurd (released.symm.trans pubrec) nofun

theorem reveals_handlePacket (attempt : Nat) {data : Bytes} (sane : s.undefined = false)
    (shut : s.closed = true → s.net.closed = true) (loud : s.quietPacket data = false) :
    Reveals s (s.handlePacket attempt data) := by
  cases data with
  | nil => contradiction
  | cons byte rest =>
    unfold handlePacket
    unfold quietPacket at loud
    dsimp only at loud ⊢
    cases type : PacketType.ofUint8 (byte >>> 4) <;> simp only [type] at loud ⊢
    case connack =>
      refine reveals_handleConnack sane shut ?_
      cases called : s.onConnectCb with
      | true => exact .inl rfl
      | false =>
        refine .inr fun calm => ?_
        simp only [called, Bool.not_false, Bool.true_and] at loud
        split at loud
        · rename_i accepted
          rw [if_pos accepted] at calm
          simp [calm] at loud
        · rename_i refused
          rw [if_neg refused] at calm
          simp [calm] at loud
    case publish => exact reveals_handlePublish sane loud
    case suback => exact reveals_handleSuback (by simpa using loud)
    case puback => exact reveals_handlePuback (by simpa using loud)
    case pubrec => exact reveals_handlePubrec (by simpa using loud)
    case pubrel => exact reveals_now (affected_event rfl rfl rfl)
    case pubcomp =>
      refine reveals_handlePubcomp ?_
      by_contra none
      simp only [not_or, Bool.not_eq_true] at none
      simp [none] at loud
    all_goals contradiction

theorem reveals_of_same (same : Same s u) (h : Reveals u v) : Reveals s v := by
  obtain ⟨k, t, done, affected⟩ := h
  refine ⟨k, t, done, fun calm => affected ⟨?_, ?_, ?_, ?_, ?_, ?_⟩⟩
  · exact calm.closed.trans same.closed.symm
  · exact calm.state.trans same.state.symm
  · exact calm.publishes.trans same.publishes.symm
  · exact calm.pubrecs.trans same.pubrecs.symm
  · exact calm.subscribes.trans same.subscribes.symm
  · exact calm.events.trans same.events.symm

/-- A failed connect is reported, a TCP connect that got through sends the CONNECT. -/
theorem reveals_connect {attempt : Nat} {ec : ErrorCode} {rest : List (StackEntry Handler Work)}
    (sane : u.undefined = false) (front : u.net.stack = .invoke (.connect (.connect attempt) ec) :: rest)
    (opened : u.closed = false) (loud : ec.isSome = true → u.onConnectCb = true) : Reveals u u := by
  refine reveals_later (step_invoke sane front) (reveals_now ?_)
  change ¬ Unaffected u ((u.goesOn rest).onConnect attempt ec)
  unfold onConnect
  rw [if_neg (show ¬ (u.goesOn rest).closed = true by simp [goesOn, opened])]
  split
  · rename_i failed
    rw [reportConnect, if_pos (show (u.goesOn rest).onConnectCb = true from loud failed)]
    exact affected_event rfl rfl rfl
  · exact affected_event rfl rfl rfl

theorem reveals_readHandler {attempt : Nat} {ec : ErrorCode} {data : Bytes}
    {rest : List (StackEntry Handler Work)} (sane : u.undefined = false)
    (front : u.net.stack = .invoke (.read (.read attempt) ec data) :: rest)
    (shut : u.closed = true → u.net.closed = true)
    (loud : (if ec.isSome then u.closed else u.quietPacket data) = false) : Reveals u u := by
  refine reveals_later (step_invoke sane front) ?_
  change Reveals u ((u.goesOn rest).onRead attempt ec data)
  unfold onRead
  split
  · rename_i failed
    rw [if_pos failed] at loud
    exact reveals_notifyClosedOnce sane rfl loud
  · rename_i fine
    rw [if_neg fine] at loud
    let v := (u.goesOn rest).push [.startReadLoop attempt]
    have same : Same u v := ⟨⟨rfl, rfl, rfl, rfl, rfl, rfl⟩, rfl, rfl, rfl⟩
    let w := v.push [.handlePacket attempt data]
    have next : w.step .exec = some (v.handlePacket attempt data) :=
      step_work (u := w) (k := .handlePacket attempt data) sane rfl nofun
    change Reveals u w
    refine reveals_later next ?_
    refine reveals_of_same same (reveals_handlePacket attempt sane shut ?_)
    exact (quietPacket_same same data).trans loud

theorem reveals_timer {handler : TimerHandler} {ec : ErrorCode} {rest : List (StackEntry Handler Work)}
    (sane : u.undefined = false) (front : u.net.stack = .own (.timer handler ec) :: rest)
    (late : ∃ attempt, handler = .ping attempt ∨ handler = .pingDeadline attempt ∨
      handler = .connectTimeout attempt) (loud : u.quietTimer handler ec = false) : Reveals u u := by
  cases ec with
  | some ec => contradiction
  | none =>
    refine reveals_later (step_work sane front nofun) ?_
    obtain ⟨attempt, rfl | rfl | rfl⟩ := late
    · exact reveals_now (affected_event rfl rfl rfl)
    · exact reveals_notifyClosedOnce sane rfl loud
    · refine reveals_now (affected_closed loud ?_)
      change (Sys.handleConnectTimeout _).closed = true
      unfold handleConnectTimeout
      split
      · assumption
      · unfold closeConnection
        split <;> rfl

theorem reveals_run {task : Task Handler Work} (tail : List (Task Handler Work)) (sane : s.undefined = false)
    (shut : s.closed = true → s.net.closed = true) (late : s.stale task = true)
    (loud : s.quiet task = false) : Reveals s { s with net := (s.net.leaving tail).runTask task } := by
  cases task with
  | resolved h result =>
    cases result with
    | ok rest => contradiction
    | error ec =>
      cases h with
      | connect attempt =>
        let u : Sys := { s with net := (s.net.leaving tail).runTask (.resolved (.connect attempt) (.error ec)) }
        have same : Same s u := ⟨⟨rfl, rfl, rfl, rfl, rfl, rfl⟩, rfl, rfl, rfl⟩
        simp only [quiet, Bool.or_eq_false_iff, Bool.not_eq_false'] at loud
        exact reveals_of_same same (reveals_connect sane rfl loud.1 fun _ => loud.2)
      | _ => contradiction
  | connected h rest socket ec =>
    cases h with
    | connect attempt =>
      have opened : s.closed = false ∨ s.closed = true := by cases s.closed <;> simp
      have failing : ∀ e, (s.net.state == .disconnected && (s.closed || !s.onConnectCb)) = false →
          Reveals s { s with net := (s.net.leaving tail).onConnected (.connect attempt) (some e) } := by
        intro e loud
        let u : Sys := { s with net := (s.net.leaving tail).onConnected (.connect attempt) (some e) }
        by_cases state : s.net.state = .disconnected
        · have same : Same s u := ⟨⟨rfl, state.symm, rfl, rfl, rfl, rfl⟩, rfl, rfl, rfl⟩
          simp only [state, beq_self_eq_true, Bool.true_and, Bool.or_eq_false_iff, Bool.not_eq_false'] at loud
          exact reveals_of_same same (reveals_connect sane rfl loud.1 fun _ => loud.2)
        · exact reveals_now fun calm => state calm.state.symm
      simp only [quiet] at loud
      change Reveals s { s with net := (s.net.leaving tail).onEndpoint (.connect attempt) rest ec }
      unfold Net.onEndpoint
      cases there : s.net.socket.isOpen with
      | false =>
        have there' : (s.net.leaving tail).socket.isOpen = false := there
        rw [if_pos (by simp [there'])]
        exact failing _ (by simpa [there] using loud)
      | true =>
        have there' : (s.net.leaving tail).socket.isOpen = true := there
        rw [if_neg (by simp [there'])]
        simp only [there] at loud
        cases ec with
        | none =>
          let u : Sys := { s with net := (s.net.leaving tail).onConnected (.connect attempt) none }
          by_cases state : s.net.state = .handshaking
          · have same : Same s u := ⟨⟨rfl, state.symm, rfl, rfl, rfl, rfl⟩, rfl, rfl, rfl⟩
            simp only [state, beq_self_eq_true, Bool.true_and] at loud
            exact reveals_of_same same (reveals_connect sane rfl loud nofun)
          · exact reveals_now fun calm => state calm.state.symm
        | some e =>
          cases rest with
          | zero => exact failing e loud
          | succ rest => contradiction
    | _ => contradiction
  | read phase h result => contradiction
  | readHandler h ec data =>
    cases h with
    | read attempt =>
      let u : Sys := { s with net := (s.net.leaving tail).runTask (.readHandler (.read attempt) ec data) }
      have same : Same s u := ⟨⟨rfl, rfl, rfl, rfl, rfl, rfl⟩, rfl, rfl, rfl⟩
      refine reveals_of_same same (reveals_readHandler sane rfl shut ?_)
      rw [quietPacket_same same data]
      exact loud
    | _ => contradiction
  | own k =>
    cases k with
    | timer handler ec =>
      let u : Sys := { s with net := (s.net.leaving tail).runTask (.own (.timer handler ec)) }
      have same : Same s u := ⟨⟨rfl, rfl, rfl, rfl, rfl, rfl⟩, rfl, rfl, rfl⟩
      refine reveals_of_same same (reveals_timer sane rfl ?_ loud)
      cases handler with
      | ping attempt => exact ⟨attempt, .inl rfl⟩
      | pingDeadline attempt => exact ⟨attempt, .inr (.inl rfl)⟩
      | connectTimeout attempt => exact ⟨attempt, .inr (.inr rfl)⟩
      | _ => contradiction
    | _ => contradiction
  | _ => contradiction

theorem quiet_of_isolates {a : Action} (ending : s.Ending) (taken : s.step a = some t) (h : s.Isolates a) :
    s.Quiet a := by
  cases a with
  | run =>
    obtain ⟨sane, idle, task, tail, ready, rfl⟩ := step_run_cases taken
    intro first same late
    obtain rfl : task = first := by simpa [ready] using same
    by_contra loud
    obtain ⟨k, t, done, affected⟩ := reveals_run tail sane (shut_of_idle ending sane idle) late
      (by simpa using loud)
    refine affected (h (by simpa [ready] using late) k t ?_)
    simp [handling, Runs.exec, taken, done]
  | _ => trivial

/-- In every run: the completions of earlier attempts that are handled leave the client
unaffected exactly if each is quiet when it is handled. -/
theorem earlier_attempts_isolated (actions : List Action) :
    Runs.Along step Isolates {} actions ↔ Runs.Along step Quiet {} actions :=
  Runs.along_iff_along (I := Ending) (fun _ _ _ => ending_step)
    (fun _ _ _ ending taken => ⟨quiet_of_isolates ending taken, isolates_of_quiet ending⟩) nofun

/-- A CONNACK refuses the session, and the callback connects again. The read loop of the first
attempt then reads from the closed socket. -/
def refusedThenRead : List Action :=
  connecting ++ receive 0x20 2 0 5 ++
    [.exec, .exec, .call (.asyncConnect true), .ret, .exec, .run, .exec, .run]

/-- The read error of the first attempt sets `closed_` in the second. -/
theorem read_error_ends_next_attempt : ¬ ∀ actions, Runs.Along step Isolates {} actions := by
  intro claimed
  have run : (Runs.exec step ({} : Sys) refusedThenRead).map (fun s => s.net.ready.head?.any s.stale &&
      !s.closed && (Runs.exec step s (handling 2)).any Sys.closed) = some true := by
    decide +kernel
  obtain ⟨s, done, late⟩ := Runs.exec_of_check run
  simp only [Bool.and_eq_true, Bool.not_eq_true'] at late
  obtain ⟨⟨late, opened⟩, closed⟩ := late
  obtain ⟨t, handled, closed⟩ := (Option.any_eq_true _ _).mp closed
  obtain ⟨u, taken, -⟩ := Runs.exec_cons handled
  have isolates := Runs.along_last (claimed (refusedThenRead ++ [.run])) done taken
  exact affected_closed opened closed (isolates late 2 t handled)

end Sys
end LiteMqtt
