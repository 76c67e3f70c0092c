import LiteMqtt.Client.Effects

/-!
# Every step of a client

Each kind of step in the form the invariants use: how it begins, and the code it then runs.
The client drives its connection: whatever it does to the connection is a run of it.
-/

namespace LiteMqtt
namespace Sys

/-- The stack is left with `rest`. -/
def goesOn (s : Sys) (rest : List (StackEntry Handler Work)) : Sys :=
  { s with net := { s.net with stack := rest } }

inductive Steps (s : Sys) : Action → Sys → Prop where
  | run (n : Net Handler Work) (taken : s.net.run = some n) : Steps s .run { s with net := n }
  | work (k : Work) (rest : List (StackEntry Handler Work)) (front : s.net.stack = .own k :: rest)
      (busy : k ≠ .user) : Steps s .exec ((s.goesOn rest).execute k)
  | invoke (call : Invocation Handler) (rest : List (StackEntry Handler Work))
      (front : s.net.stack = .invoke call :: rest) :
      Steps s .exec ({ s with net := (s.goesOn rest).net.recordCall call }.onInvoke call)
  | afterWrite (ec : ErrorCode) (rest : List (StackEntry Handler Work))
      (front : s.net.stack = .afterWrite ec :: rest) :
      Steps s .exec { s with net := (s.goesOn rest).net.afterWrite ec }
  | closeHandler (rest : List (StackEntry Handler Work)) (front : s.net.stack = .closeHandler :: rest) :
      Steps s .exec { s with
        net := (s.goesOn rest).net.push (s.net.closeHandler.toList.map fun h => .invoke (.closed h)) }
  | ret (rest : List (StackEntry Handler Work)) (front : s.net.stack = .own .user :: rest) :
      Steps s .ret (s.goesOn rest)
  | call (c : Call) (allowed : s.idle = true ∨ c.anyThread = true) : Steps s (.call c) (s.call c)
  | kernel (event : Net.Event) (n : Net Handler Work) (taken : s.net.kernel event = some n) :
      Steps s (.kernel event) { s with net := n }
  | expire (index : Nat) (w : Wait) (waiting : s.waits[index]? = some w) (due : w.deadline ≤ s.now) :
      Steps s (.expire index) ({ s with waits := s.waits.eraseIdx index }.post (.timer w.handler none))
  | advance (ms : Nat) : Steps s (.advance ms) { s with now := s.now + ms }

/-- The steps in which no code of the client runs. -/
inductive Bare (s : Sys) : Action → Sys → Prop where
  | run (n : Net Handler Work) (taken : s.net.run = some n) : Bare s .run { s with net := n }
  | afterWrite (ec : ErrorCode) (rest : List (StackEntry Handler Work))
      (front : s.net.stack = .afterWrite ec :: rest) :
      Bare s .exec { s with net := (s.goesOn rest).net.afterWrite ec }
  | closeHandler (rest : List (StackEntry Handler Work)) (front : s.net.stack = .closeHandler :: rest) :
      Bare s .exec { s with
        net := (s.goesOn rest).net.push (s.net.closeHandler.toList.map fun h => .invoke (.closed h)) }
  | kernel (event : Net.Event) (n : Net Handler Work) (taken : s.net.kernel event = some n) :
      Bare s (.kernel event) { s with net := n }
  | expire (index : Nat) (w : Wait) (waiting : s.waits[index]? = some w) (due : w.deadline ≤ s.now) :
      Bare s (.expire index) ({ s with waits := s.waits.eraseIdx index }.post (.timer w.handler none))
  | advance (ms : Nat) : Bare s (.advance ms) { s with now := s.now + ms }

variable {s t : Sys}

theorem bare_waits {a : Action} (bare : s.Bare a t) : ∀ w ∈ t.waits, w ∈ s.waits := by
  cases bare with
  | expire => exact fun _ => List.mem_of_mem_eraseIdx
  | _ => exact fun _ => id

theorem exec_steps (taken : s.exec = some t) : Steps s .exec t := by
  unfold exec at taken
  split at taken
  · contradiction
  · contradiction
  · rename_i k rest busy front
    exact Option.some.inj taken ▸ .work k rest front busy
  · rename_i call rest front
    simp only [Net.resume, front, Option.map_some, Option.some.injEq] at taken
    exact taken ▸ .invoke call rest front
  · rename_i _ _ _ own invoke
    obtain ⟨n, resumed, rfl⟩ := Option.map_eq_some_iff.mp taken
    unfold Net.resume at resumed
    split at resumed
    · exact (invoke _ _ ‹_›).elim
    · obtain rfl := Option.some.inj resumed
      exact .afterWrite _ _ ‹_›
    · obtain rfl := Option.some.inj resumed
      exact .closeHandler _ ‹_›
    · contradiction

theorem steps {a : Action} (taken : s.step a = some t) : s.undefined = false ∧ Steps s a t := by
  unfold step at taken
  split at taken
  · contradiction
  rename_i sane
  refine ⟨by simpa using sane, ?_⟩
  cases a with
  | run =>
    obtain ⟨n, ran, rfl⟩ := Option.map_eq_some_iff.mp taken
    exact .run n ran
  | exec => exact exec_steps taken
  | ret =>
    dsimp only at taken
    split at taken
    · exact Option.some.inj taken ▸ .ret _ ‹_›
    · contradiction
  | call c =>
    dsimp only at taken
    split at taken
    · rename_i allowed
      exact Option.some.inj taken ▸ .call c (by simpa using allowed)
    · contradiction
  | kernel event =>
    obtain ⟨n, moved, rfl⟩ := Option.map_eq_some_iff.mp taken
    exact .kernel event n moved
  | expire index =>
    simp only [expire] at taken
    split at taken
    · contradiction
    · split at taken
      · exact Option.some.inj taken ▸ .expire index _ ‹_› ‹_›
      · contradiction
  | advance ms => exact Option.some.inj taken ▸ .advance ms

/-! ### The connection's part -/

/-- The tasks that cancelling a timer posts. -/
def aborted (s : Sys) (timer : Nat) : List Work :=
  (s.waits.filter fun w => w.timer == timer).map fun w => .timer w.handler (some .operationAborted)

/-- What an effect asks of the connection. -/
def asks (s : Sys) : Effect → List (Net.Action Handler Work)
  | .push k => [.push [k]]
  | .post k => [.post k]
  | .write packet handler => [.asyncWritePacket packet.serialize (some handler)]
  | .closeConnection => [.close]
  | .cancelTimer timer => (s.aborted timer).map .post
  | .startReadLoop attempt => [.asyncReadPacket (.read attempt)]
  | .asyncConnect _ =>
      (if s.connectTimeoutMs > 0 then (s.aborted connectTimer).map .post else []) ++
        [.asyncConnect (.connect (s.attempts + 1))]
  | .accept => [.markConnected]
  | _ => []

theorem exec_posts (n : Net Handler Work) (ks : List Work) :
    Runs.exec Net.step n (ks.map .post) = some { n with ready := n.ready ++ ks.map .own } := by
  induction ks generalizing n with
  | nil => simp [Runs.exec]
  | cons k ks ih =>
    refine (ih (n.post (.own k))).trans ?_
    simp [Net.post]

theorem exec_asks (s : Sys) (e : Effect) : Runs.exec Net.step s.net (s.asks e) = some (s.apply e).net := by
  have cancelled : ∀ timer, Runs.exec Net.step s.net ((s.aborted timer).map .post) =
      some (s.cancelTimer timer).net := by
    intro timer
    rw [exec_posts]
    simp [cancelTimer, aborted, Function.comp_def]
  cases e with
  | cancelTimer timer => exact cancelled timer
  | closeConnection =>
    simp only [asks, apply, closeConnection, Runs.exec, Net.step, Option.bind_some]
    split
    · simp [Net.close, *]
    · rfl
  | asyncConnect callback =>
    simp only [asks, apply, asyncConnect, Runs.exec_append, record]
    by_cases timed : s.connectTimeoutMs > 0
    · simp only [timed, if_true, cancelled, Option.bind_some]
      rfl
    · simp only [timed, if_false]
      rfl
  | _ => rfl

theorem does_drives {topics : List Topic} (h : Does topics s t) :
    ∃ actions, Runs.exec Net.step s.net actions = some t.net := by
  induction h with
  | refl => exact ⟨[], rfl⟩
  | tail _ last ih =>
    obtain ⟨e, _, rfl⟩ := last
    obtain ⟨actions, before⟩ := ih
    exact ⟨actions ++ asks _ e, by rw [Runs.exec_append, before]; exact exec_asks _ e⟩

/-- The client drives its connection: every step of a client is a run of the connection. -/
theorem step_drives {a : Action} (taken : s.step a = some t) :
    ∃ actions, Runs.exec Net.step s.net actions = some t.net := by
  have after : ∀ (first : Net.Action Handler Work) (u : Sys) {topics : List Topic},
      s.net.step first = some u.net → Does topics u t →
      ∃ actions, Runs.exec Net.step s.net actions = some t.net := by
    intro first u topics one rest
    obtain ⟨actions, later⟩ := does_drives rest
    exact ⟨first :: actions, by simp [Runs.exec, one, later]⟩
  cases (steps taken).2 with
  | run n ran => exact ⟨[.run], by simp [Runs.exec, Net.step, ran]⟩
  | work k rest front busy =>
    exact after .pop (s.goesOn rest) (by simp [Net.step, front, goesOn]) (does_execute _ k)
  | invoke call rest front =>
    refine after .resume { s with net := (s.goesOn rest).net.recordCall call } ?_ (does_onInvoke _ call)
    simp [Net.step, Net.resume, front, goesOn]
  | afterWrite ec rest front =>
    exact ⟨[.resume], by simp [Runs.exec, Net.step, Net.resume, front, goesOn]⟩
  | closeHandler rest front =>
    exact ⟨[.resume], by simp [Runs.exec, Net.step, Net.resume, front, goesOn]⟩
  | ret rest front => exact ⟨[.pop], by simp [Runs.exec, Net.step, front, goesOn]⟩
  | call c allowed => exact does_drives (does_call s c)
  | kernel event n moved => exact ⟨[.kernel event], by simp [Runs.exec, Net.step, moved]⟩
  | expire index w waiting due => exact ⟨[.post (.timer w.handler none)], rfl⟩
  | advance ms => exact ⟨[], rfl⟩

end Sys
end LiteMqtt
