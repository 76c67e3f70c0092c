import LiteMqtt.Client.Exchange
import LiteMqtt.Client.Openness
import LiteMqtt.Client.Outcomes
import LiteMqtt.Client.Waiting
import LiteMqtt.Connection.Bodies

/-!
# What makes a session come up

`handle_connack` is the only code that calls `mark_connected`, and the only one that has
`on_connect_cb_` called with true. It goes by the return code that `connack_packet::parse` gives,
and that is 0 also for a CONNACK that ends before its return code.
-/

namespace LiteMqtt

/-- `on_connect_cb_` is called with true. -/
def Event.isUp : Event → Bool
  | .connectReport true _ => true
  | _ => false

/-- A CONNACK that has a return code, and accepts with it. -/
def isAcceptance (data : Bytes) : Bool := isConnack data && (bodyOf data)[1]? == some 0

/-- A CONNACK whose body has fewer than two bytes. -/
def isTruncatedConnack (data : Bytes) : Bool := isConnack data && decide ((bodyOf data).length < 2)

namespace Sys

variable {s t u : Sys}

/-- The frame that `handle_packet` is called with in the step. -/
def dispatched (s : Sys) : Action → Option Bytes
  | .exec =>
      match s.net.stack with
      | .own (.handlePacket _ data) :: _ => some data
      | _ => none
  | .call (.handlePacket data) => some data
  | _ => none

/-- In the step from `s` to `t`, `mark_connected` is called or `on_connect_cb_` is with true. -/
def comesUp (s : Sys) (a : Action) (t : Sys) : Bool :=
  (s.accepting a).isSome || (s.net.state != .connected && t.net.state == .connected) ||
    decide (s.log.countP (·.isUp) < t.log.countP (·.isUp))

theorem accepted_eq (data : Bytes) :
    accepted data = (isConnack data && (ConnackPacket.parse data).returnCode == 0) := by
  cases data <;> rfl

theorem accepting_dispatched {a : Action} (accepts : (s.accepting a).isSome = true) :
    ∃ data, s.dispatched a = some data ∧ accepted data = true := by
  unfold accepting at accepts
  split at accepts
  · split at accepts
    · rename_i attempt data rest front
      refine ⟨data, by simp [dispatched, front], ?_⟩
      by_contra refused
      rw [if_neg refused] at accepts
      contradiction
    · contradiction
  · rename_i data
    refine ⟨data, rfl, ?_⟩
    by_contra refused
    rw [if_neg refused] at accepts
    contradiction
  · contradiction

theorem dispatched_accepting {a : Action} {data : Bytes} (dispatches : s.dispatched a = some data)
    (accepts : accepted data = true) : (s.accepting a).isSome = true := by
  unfold dispatched at dispatches
  split at dispatches
  · split at dispatches
    · rename_i front
      obtain rfl := Option.some.inj dispatches
      simp [accepting, front, accepts]
    · contradiction
  · obtain rfl := Option.some.inj dispatches
    simp [accepting, accepts]
  · contradiction

/-- A CONNACK that the client takes for an acceptance is one exactly if it is not truncated. -/
theorem accepted_acceptance {data : Bytes} (accepts : accepted data = true) :
    isAcceptance data = true ↔ isTruncatedConnack data = false := by
  rw [accepted_eq, ConnackPacket.parse_returnCode, List.getD_eq_getElem?_getD] at accepts
  obtain ⟨connack, zero⟩ := Bool.and_eq_true_iff.mp accepts
  simp only [isAcceptance, isTruncatedConnack, connack, Bool.true_and, beq_iff_eq, decide_eq_false_iff_not, not_lt]
  constructor
  · intro second
    exact (List.getElem?_eq_some_iff.mp second).1
  · intro long
    rw [List.getElem?_eq_getElem long] at zero ⊢
    simpa using zero

theorem accepted_truncated {data : Bytes} (truncated : isTruncatedConnack data = true) : accepted data = true := by
  obtain ⟨connack, short⟩ := Bool.and_eq_true_iff.mp truncated
  have ended : (bodyOf data)[1]? = none := List.getElem?_eq_none_iff.mpr (by simpa [Nat.lt_succ_iff] using short)
  rw [accepted_eq, connack, ConnackPacket.parse_returnCode, List.getD_eq_getElem?_getD, ended]
  rfl

/-! ### Steps in which no session comes up -/

/-- The connection does not become connected, and success is neither reported nor about to be. -/
structure Level (s t : Sys) : Prop where
  connected : t.net.state = .connected → s.net.state = .connected
  reports : t.log.countP (·.isUp) = s.log.countP (·.isUp)
  running : ∀ rc, .reportConnect true rc ∈ t.net.running → .reportConnect true rc ∈ s.net.running

theorem Level.of_same (state : t.net.state = s.net.state) (log : t.log = s.log)
    (running : t.net.running = s.net.running) : Level s t :=
  ⟨fun now => state ▸ now, by rw [log], fun _ => running ▸ id⟩

theorem Level.trans (h : Level s t) (g : Level t u) : Level s u :=
  ⟨h.connected ∘ g.connected, g.reports.trans h.reports, fun rc => h.running rc ∘ g.running rc⟩

theorem level_record {e : Event} (other : e.isUp = false) : Level s (s.record e) :=
  ⟨id, by simp [record, other], fun _ => id⟩

theorem level_push {k : Work} (other : ∀ rc, k ≠ .reportConnect true rc) : Level s (s.push [k]) := by
  refine ⟨id, rfl, fun rc among => ?_⟩
  rcases List.mem_cons.mp (push_running s k ▸ among) with same | before
  · exact absurd same.symm (other rc)
  · exact before

theorem level_write (s : Sys) (p : Packet) (h : Handler) : Level s (s.write p h) :=
  ⟨id, List.countP_cons_of_neg nofun, fun _ => id⟩

theorem level_closeConnection (s : Sys) : Level s s.closeConnection := by
  have running := (closeConnection_tame s).running
  refine ⟨fun now => ?_, ?_, fun _ => running ▸ id⟩
  · unfold closeConnection at now
    split at now
    · exact now
    · have state : s.net.close.state = .disconnected := s.net.close_state (by simpa using ‹¬ s.net.closed = true›)
      exact absurd (state.symm.trans now) nofun
  · unfold closeConnection
    split
    · rfl
    · simp [record, Event.isUp]

theorem level_startReadLoop (s : Sys) (attempt : Nat) : Level s (s.startReadLoop attempt) :=
  ⟨(Net.steady_asyncReadPacket s.net _).connected, rfl, fun _ => (Net.tame_asyncReadPacket s.net _).running ▸ id⟩

theorem level_apply {e : Effect} (inside : e.within elsewhere = true) : Level s (s.apply e) := by
  have other : e.topic ≠ some .connect := Effect.topic_of_within inside (by decide)
  cases e with
  | record x =>
    refine level_record ?_
    cases x <;> first | rfl | exact absurd rfl other
  | push k =>
    refine level_push ?_
    rintro rc rfl
    exact absurd rfl other
  | write p h => exact level_write s p h
  | closeConnection => exact level_closeConnection s
  | startReadLoop attempt => exact level_startReadLoop s attempt
  | asyncConnect callback => exact absurd rfl other
  | accept => exact absurd rfl other
  | _ => exact .of_same rfl rfl rfl

theorem level_does (does : Does elsewhere s t) : Level s t := by
  induction does with
  | refl => exact .of_same rfl rfl rfl
  | tail _ last ih =>
    obtain ⟨e, inside, rfl⟩ := last
    exact ih.trans (level_apply inside)

theorem level_reportConnect (s : Sys) (rc : UInt8) : Level s (s.reportConnect false rc) := by
  unfold reportConnect
  split
  · exact (level_record rfl).trans (level_push nofun)
  · exact .of_same rfl rfl rfl

theorem level_asyncConnect (s : Sys) (callback : Bool) : Level s (s.asyncConnect callback) := by
  refine ⟨fun now => absurd ((asyncConnect_state s callback).symm.trans now) nofun, ?_, fun rc => ?_⟩
  · rw [(asyncConnect_connects s callback).log]
    rfl
  · obtain ⟨v, which, net⟩ := asyncConnect_net s callback
    rw [net]
    rcases which with rfl | rfl <;> exact id

theorem level_onConnect (s : Sys) (attempt : Nat) (ec : ErrorCode) : Level s (s.onConnect attempt ec) := by
  unfold onConnect
  split
  · exact .of_same rfl rfl rfl
  · split
    · exact level_reportConnect s 255
    · exact level_write s _ _

theorem level_handleConnectTimeout (s : Sys) : Level s s.handleConnectTimeout := by
  unfold handleConnectTimeout
  split
  · exact .of_same rfl rfl rfl
  · refine .trans (t := { s with closed := true }) (.of_same rfl rfl rfl) ?_
    exact (level_push (k := .reportConnect false 255) nofun).trans (level_closeConnection _)

theorem level_handleConnack {data : Bytes} (refused : (ConnackPacket.parse data).returnCode ≠ 0) :
    Level s (s.handleConnack data) := by
  unfold handleConnack
  dsimp only
  rw [if_neg refused]
  let v : Sys := (s.cancelTimer connectTimer).record (.received .connack 0 [(ConnackPacket.parse data).returnCode])
  have received : Level s v := .trans (t := s.cancelTimer connectTimer) (.of_same rfl rfl rfl) (level_record rfl)
  have closed : Level v { v with closed := true } := .of_same rfl rfl rfl
  have reporting : Level { v with closed := true }
      (push { v with closed := true } [.reportConnect false (ConnackPacket.parse data).returnCode]) := level_push nofun
  exact received.trans (closed.trans (reporting.trans (level_closeConnection _)))

theorem level_popped (popped : s.Popped u) : Level s u :=
  ⟨fun now => by rw [popped.same] at now; exact now, by rw [popped.same], fun rc => popped_running popped _⟩

theorem level_bare {a : Action} (posting : s.Posting) (bare : s.Bare a t) : Level s t := by
  cases bare with
  | run n ran =>
    refine ⟨(Net.steady_run ran).connected, rfl, fun rc among => ?_⟩
    obtain ⟨idle, task, tail, ready, rfl⟩ := Net.run_cases ran
    have leaving : (s.net.leaving tail).running = [] := by rw [Net.running, Net.leaving, idle]; rfl
    have running := (Net.runTask_ran (s.net.leaving tail) task).running
    rw [leaving, List.append_nil] at running
    have own : .reportConnect true rc ∈ task.own?.toList := running ▸ among
    have posted : .reportConnect true rc ∈ s.net.posted := by
      rw [Net.posted, ready, List.filterMap_cons, Option.mem_toList.mp own]
      exact List.mem_cons_self
    cases posting.posted _ posted
  | afterWrite ec rest front =>
    refine (level_popped (popped_goesOn front)).trans ⟨(Net.steady_afterWrite _ ec).connected, rfl, fun rc => ?_⟩
    exact (Net.tame_afterWrite (s.goesOn rest).net ec).running ▸ id
  | closeHandler rest front =>
    refine (level_popped (popped_goesOn front)).trans (.of_same rfl rfl ?_)
    simp [Net.running, Net.push, List.filterMap_append, StackEntry.own?]
  | kernel event n moved =>
    exact ⟨(Net.steady_kernel moved).connected, rfl, fun _ => (Net.tame_kernel moved).running ▸ id⟩
  | expire index w waiting due => exact .of_same rfl rfl rfl
  | advance ms => exact .of_same rfl rfl rfl

/-- A step that accepts no CONNACK reports a success that was about to be reported, or none. -/
theorem level_step {a : Action} (posting : s.Posting) (taken : s.step a = some t) (refuses : s.accepting a = none) :
    Level s t ∨ ∃ rc rest, a = .exec ∧ s.net.stack = .own (.reportConnect true rc) :: rest ∧
      t = (s.goesOn rest).reportConnect true rc := by
  cases outline taken with
  | bare a t bare => exact .inl (level_bare posting bare)
  | asyncConnect callback idle => exact .inl (level_asyncConnect s callback)
  | connack a u attempt data popped accepting handled =>
    refine .inl ((level_popped popped).trans (level_handleConnack fun zero => ?_))
    rw [refuses, if_pos zero] at accepting
    contradiction
  | timeout attempt rest front =>
    exact .inl ((level_popped (popped_goesOn front)).trans (level_handleConnectTimeout _))
  | onConnect attempt ec rest front =>
    exact .inl ((level_popped (popped_goesOn front)).trans (level_onConnect _ attempt ec))
  | report success rc rest front =>
    cases success with
    | true => exact .inr ⟨rc, rest, rfl, front, rfl⟩
    | false => exact .inl ((level_popped (popped_goesOn front)).trans (level_reportConnect _ rc))
  | other a u t popped does accepting expiring => exact .inl ((level_popped popped).trans (level_does does))

theorem stack_busy {a : Action} (busy : s.idle = false) (other : a ≠ .exec) (taken : s.step a = some t) :
    t.net.stack = s.net.stack := by
  cases (steps taken).2 with
  | run n ran =>
    obtain ⟨empty, -⟩ := Net.run_cases ran
    simp [idle, empty] at busy
  | ret rest front => simp [idle, front] at busy
  | call c allowed =>
    have posts := allowed.resolve_left (by simp [busy])
    cases c <;> first | rfl | contradiction
  | kernel event n moved => exact Net.kernel_stack moved
  | expire index w waiting due => rfl
  | advance ms => rfl
  | _ => contradiction

end Sys

/-! ### Frames and what they bring about -/

/-- A client, with the frame that `handle_packet` was last called with, and the frames during whose
handling the session came up. -/
structure Handshake where
  sys : Sys := {}
  frame : Bytes := []
  ups : List Bytes := []

namespace Handshake
open Sys

variable {l m : Handshake}

def step (l : Handshake) (a : Action) : Option Handshake :=
  (l.sys.step a).map fun t =>
    let frame := (l.sys.dispatched a).getD l.frame
    { sys := t, frame, ups := if l.sys.comesUp a t then frame :: l.ups else l.ups }

/-- The session came up only on a CONNACK that has a return code, and accepts with it. -/
def Accepted (l : Handshake) : Prop := ∀ data ∈ l.ups, isAcceptance data = true

/-- No CONNACK with fewer than two body bytes is handled. -/
def Whole (l : Handshake) (a : Action) : Prop :=
  ∀ data, l.sys.dispatched a = some data → isTruncatedConnack data = false

/-- Success is reported only from the top of the stack, for the frame that is being handled. -/
structure Reporting (l : Handshake) : Prop where
  posting : l.sys.Posting
  below : ∀ entry rest, l.sys.net.stack = entry :: rest → ∀ rc, .reportConnect true rc ∉ (l.sys.goesOn rest).net.running
  top : ∀ rc rest, l.sys.net.stack = .own (.reportConnect true rc) :: rest → l.frame ∈ l.ups

/-- Nothing is about to be reported as a success. -/
def Unreported (s : Sys) : Prop := ∀ rc, Work.reportConnect true rc ∉ s.net.running

theorem reporting_unreported (posting : l.sys.Posting) (unreported : Unreported l.sys) : l.Reporting := by
  refine ⟨posting, fun entry rest front rc among => unreported rc ?_, fun rc rest front => absurd ?_ (unreported rc)⟩
  · exact popped_running (popped_goesOn front) _ among
  · rw [Net.running, front]
    exact List.mem_cons_self

/-- Either nothing is about to be reported as a success, or that is what the code on top does. -/
theorem Reporting.cases (reporting : l.Reporting) : Unreported l.sys ∨
    ∃ rc rest, l.sys.net.stack = .own (.reportConnect true rc) :: rest ∧ Unreported (l.sys.goesOn rest) := by
  cases stack : l.sys.net.stack with
  | nil => exact .inl fun rc => by simp [Net.running, stack]
  | cons entry rest =>
    have below := reporting.below entry rest stack
    have running : l.sys.net.running = entry.own?.toList ++ (l.sys.goesOn rest).net.running := by
      rw [Net.running, stack, List.filterMap_cons]
      cases entry.own? <;> rfl
    by_cases success : ∃ rc, entry = .own (.reportConnect true rc)
    · obtain ⟨rc, rfl⟩ := success
      exact .inr ⟨rc, rest, rfl, below⟩
    · refine .inl fun rc among => ?_
      rw [running] at among
      rcases List.mem_append.mp among with here | later
      · refine success ⟨rc, ?_⟩
        cases entry with
        | own k => exact congrArg StackEntry.own (Option.some.inj (Option.mem_toList.mp here))
        | _ => contradiction
      · exact below rc later

theorem reporting_accepts {a : Action} {t : Sys} (reporting : l.Reporting) (taken : l.sys.step a = some t)
    (accepts : (l.sys.accepting a).isSome = true) (data : Bytes) :
    Reporting { sys := t, frame := data, ups := data :: l.ups } := by
  obtain ⟨u, other, same, zero, popped, from_⟩ := accepting_outline taken accepts
  have unreported : Unreported u := by
    rcases from_ with ⟨entry, rest, front, rfl⟩ | ⟨rfl, idle⟩
    · exact reporting.below entry rest front
    · rcases reporting.cases with none | ⟨rc, rest, front, -⟩
      · exact none
      · simp [Sys.idle, front] at idle
  have stack : t.net.stack = .own (.reportConnect true 0) :: u.net.stack := by
    rw [same]
    unfold handleConnack
    dsimp only
    rw [if_pos zero]
    rfl
  refine ⟨posting_step reporting.posting taken, fun entry rest front rc among => ?_, fun _ _ _ => List.mem_cons_self⟩
  obtain ⟨-, rfl⟩ := List.cons.inj (stack.symm.trans front)
  exact unreported rc among

theorem comesUp_level {s t : Sys} {a : Action} (level : Level s t) (refuses : s.accepting a = none) :
    s.comesUp a t = false := by
  simp only [comesUp, refuses, Option.isSome_none, Bool.false_or, Bool.or_eq_false_iff, Bool.and_eq_false_iff,
    bne_eq_false_iff_eq, beq_eq_false_iff_ne, decide_eq_false_iff_not, not_lt]
  refine ⟨?_, level.reports.le⟩
  by_cases now : t.net.state = .connected
  · exact .inl (level.connected now)
  · exact .inr now

theorem unreported_reportConnect {s : Sys} {rc : UInt8} (below : Unreported s) :
    Unreported (s.reportConnect true rc) := by
  intro rc' among
  unfold reportConnect at among
  split at among
  · exact below rc' ((List.mem_cons.mp among).resolve_left nofun)
  · exact below rc' among

theorem exec_reports {s t : Sys} {rc : UInt8} {rest : List (StackEntry Handler Work)} (taken : s.step .exec = some t)
    (front : s.net.stack = .own (.reportConnect true rc) :: rest) : t = (s.goesOn rest).reportConnect true rc := by
  cases (steps taken).2 with
  | work k other front' busy =>
    obtain ⟨rfl, rfl⟩ : k = .reportConnect true rc ∧ other = rest := by simpa [front'] using front
    rfl
  | invoke call other front' => simp [front'] at front
  | afterWrite ec other front' => simp [front'] at front
  | closeHandler other front' => simp [front'] at front

theorem dispatched_busy {s t : Sys} {a : Action} (taken : s.step a = some t) (busy : s.idle = false)
    (other : a ≠ .exec) : s.dispatched a = none := by
  unfold dispatched
  split
  · contradiction
  · cases (steps taken).2 with
    | call c allowed => simp [busy, Call.anyThread] at allowed
  · rfl

theorem reporting_refuses {a : Action} {t : Sys} (ups : List Bytes) (reporting : l.Reporting)
    (taken : l.sys.step a = some t)
    (refuses : l.sys.accepting a = none) (more : l.ups ⊆ ups) :
    Reporting { sys := t, frame := (l.sys.dispatched a).getD l.frame, ups } := by
  have posting := posting_step reporting.posting taken
  rcases reporting.cases with unreported | ⟨rc, rest, front, below⟩
  · rcases level_step reporting.posting taken refuses with level | ⟨rc, rest, rfl, front, same⟩
    · exact reporting_unreported posting fun rc among => unreported rc (level.running rc among)
    · refine absurd ?_ (unreported rc)
      rw [Net.running, front]
      exact List.mem_cons_self
  · by_cases goes : a = .exec
    · subst goes
      rw [exec_reports taken front] at posting ⊢
      exact reporting_unreported posting (unreported_reportConnect below)
    · have busy : l.sys.idle = false := by simp [Sys.idle, front]
      have stack := stack_busy busy goes taken
      refine ⟨posting, fun entry rest' front' => reporting.below entry rest' (stack ▸ front'),
        fun rc' rest' front' => ?_⟩
      rw [dispatched_busy taken busy goes]
      exact more (reporting.top rc' rest' (stack ▸ front'))

theorem reporting_step {a : Action} (reporting : l.Reporting) (taken : l.step a = some m) : m.Reporting := by
  obtain ⟨t, moved, rfl⟩ := Option.map_eq_some_iff.mp taken
  cases accepts : l.sys.accepting a with
  | some attempt =>
    have some : (l.sys.accepting a).isSome = true := by rw [accepts]; rfl
    have up : l.sys.comesUp a t = true := by simp [comesUp, some]
    simp only [up, if_true]
    exact reporting_accepts reporting moved some _
  | none =>
    refine reporting_refuses _ reporting moved accepts ?_
    split
    · exact List.subset_cons_self _ _
    · exact List.Subset.refl _

theorem accepted_step {a : Action} (reporting : l.Reporting) (accepted : l.Accepted) (taken : l.step a = some m) :
    m.Accepted ↔ l.Whole a := by
  obtain ⟨t, moved, rfl⟩ := Option.map_eq_some_iff.mp taken
  cases accepts : l.sys.accepting a with
  | some attempt =>
    have some : (l.sys.accepting a).isSome = true := by rw [accepts]; rfl
    obtain ⟨data, dispatches, accepting⟩ := accepting_dispatched some
    have up : l.sys.comesUp a t = true := by simp [comesUp, some]
    simp only [dispatches, Option.getD_some, up, if_true]
    constructor
    · intro after other same
      obtain rfl := Option.some.inj (dispatches.symm.trans same)
      exact (accepted_acceptance accepting).mp (after data List.mem_cons_self)
    · intro whole other among
      rcases List.mem_cons.mp among with rfl | before
      · exact (accepted_acceptance accepting).mpr (whole other dispatches)
      · exact accepted other before
  | none =>
    have whole : l.Whole a := fun data dispatches => by
      by_contra truncated
      have taken := dispatched_accepting dispatches (accepted_truncated (by simpa using truncated))
      simp [accepts] at taken
    refine iff_of_true ?_ whole
    rcases level_step reporting.posting moved accepts with level | ⟨rc, rest, rfl, front, -⟩
    · simp only [comesUp_level level accepts, Bool.false_eq_true, if_false]
      exact accepted
    · have unseen : l.sys.dispatched .exec = none := by simp [dispatched, front]
      simp only [unseen, Option.getD_none]
      intro data among
      split at among
      · rcases List.mem_cons.mp among with rfl | before
        · exact accepted l.frame (reporting.top rc rest front)
        · exact accepted data before
      · exact accepted data among

/-- In every run a session comes up only on a CONNACK with the return code 0, exactly if no CONNACK
is handled that ends before its return code. -/
theorem session_up_on_acceptance (actions : List Action) :
    Runs.Throughout step Accepted {} actions ↔ Runs.Along step Whole {} actions :=
  Runs.throughout_iff_along (fun _ _ _ => reporting_step) (fun _ _ _ => accepted_step)
    ⟨⟨nofun, nofun⟩, nofun, nofun⟩ nofun

/-- The broker answers the CONNECT with a CONNACK that has no body. -/
def truncatedConnack : List Action :=
  connecting ++ [.kernel (.read 0 (.ok [0x20, 0])), .run, .run, .exec, .exec, .exec]

/-- The session comes up, and is reported as accepted. -/
theorem truncated_connack_accepted : ¬ ∀ actions l, Runs.exec step {} actions = some l → l.Accepted := by
  intro claimed
  have run : (Runs.exec step ({} : Handshake) truncatedConnack).map (fun l =>
      l.ups == [[0x20, 0], [0x20, 0]] && l.sys.net.state == .connected) = some true := by
    decide +kernel
  obtain ⟨l, done, up⟩ := Runs.exec_of_check run
  obtain ⟨ups, -⟩ := Bool.and_eq_true_iff.mp up
  have accepted := claimed _ l done [0x20, 0] (by rw [eq_of_beq ups]; exact List.mem_cons_self)
  exact absurd accepted (by decide)

end Handshake
end LiteMqtt
