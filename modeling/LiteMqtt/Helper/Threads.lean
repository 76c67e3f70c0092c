import LiteMqtt.General.Runs
import LiteMqtt.Helper.Model

/-!
# The life of the io thread

`start` and `stop` are called one after another, on the io thread or on another thread, and the
last reference may go away on either.
-/

namespace LiteMqtt

inductive Caller where
  | ioThread
  | other
  deriving DecidableEq, Repr

inductive LifeCall where
  | start (caller : Caller)
  | stop (caller : Caller)
  /-- The last reference is dropped, and the helper is destroyed. -/
  | dropLast (caller : Caller)
  /-- `io_.run` returns once the loop was stopped, and the io thread ends. -/
  | loopEnds
  deriving DecidableEq, Repr

/-- `looping` says that the io thread runs its loop, and may make calls. `parked` is history: the last
`stop` was made on the io thread, and nobody has come back to join it. -/
structure Life where
  helper : Helper := {}
  looping : Bool := false
  destroyed : Bool := false
  parked : Bool := false
  last : Option LifeCall := none
  deriving DecidableEq, Repr

namespace Life

/-- A thread can call if it is another one, or the io thread and that is alive. -/
def present (s : Life) : Caller → Bool
  | .ioThread => s.looping
  | .other => true

/-- Nothing follows the destruction of the helper or the end of the process. -/
def step (s : Life) (c : LifeCall) : Option Life :=
  if s.destroyed || s.helper.terminated then none
  else
    let s := { s with last := some c }
    match c with
    | .start caller =>
        if s.present caller then
          some { s with helper := s.helper.start, looping := s.looping || !s.helper.running }
        else none
    | .stop caller =>
        if s.present caller then
          let helper := s.helper.stop (caller == .ioThread)
          some { s with helper, looping := s.looping && helper.joinable, parked := caller == .ioThread }
        else none
    | .dropLast caller =>
        if s.present caller then
          some { s with
            helper := s.helper.destroy (caller == .ioThread), looping := s.looping && caller == .ioThread
            destroyed := true, parked := false }
        else none
    | .loopEnds => if s.looping then some { s with looping := false } else none

/-- The process was not terminated, and after a `stop` on another thread nothing is left running. -/
structure Sound (s : Life) : Prop where
  alive : s.helper.terminated = false
  stopped : s.last = some (.stop .other) →
    s.helper.running = false ∧ s.helper.joinable = false ∧ s.helper.client = false

/-- The helper is not started again before its thread was joined, and not destroyed on it. -/
def Joins (s : Life) : LifeCall → Prop
  | .start _ => s.parked = false
  | .dropLast caller => caller = .other
  | _ => True

instance (s : Life) : ∀ c, Decidable (s.Joins c)
  | .start _ => inferInstanceAs (Decidable (s.parked = false))
  | .dropLast caller => inferInstanceAs (Decidable (caller = .other))
  | .stop _ | .loopEnds => .isTrue trivial

end Life

namespace Helper

variable {h : Helper}

theorem doConnect_same (h : Helper) : h.doConnect.running = h.running ∧ h.doConnect.joinable = h.joinable ∧
    h.doConnect.terminated = h.terminated := by
  unfold doConnect
  split <;> exact ⟨rfl, rfl, rfl⟩

theorem start_idle (idle : h.running = false) : h.start.running = true ∧ h.start.joinable = true ∧
    h.start.terminated = (h.terminated || h.joinable) := by
  unfold start
  rw [if_neg (by simp [idle])]
  obtain ⟨-, joinable, terminated⟩ := doConnect_same { h with
    userStopped := false, shouldReconnect := true, reconnectPending := false, reconnectAttempts := 0
    initialConnect := true, stopped := false, work := true, client := true }
  exact ⟨rfl, rfl, by simp [startIoThread, joinable, terminated]⟩

theorem start_running (runs : h.running = true) : h.start = h := by
  unfold start
  rw [if_pos runs]

theorem stopOnIoThread_same (h : Helper) : h.stopOnIoThread.running = false ∧
    h.stopOnIoThread.joinable = h.joinable ∧ h.stopOnIoThread.terminated = h.terminated := by
  unfold stopOnIoThread
  dsimp only
  split <;> exact ⟨rfl, rfl, rfl⟩

theorem releaseClient_same (h : Helper) : h.releaseClient.client = false ∧ h.releaseClient.running = h.running ∧
    h.releaseClient.joinable = h.joinable ∧ h.releaseClient.terminated = h.terminated := by
  unfold releaseClient
  split
  · exact ⟨rfl, rfl, rfl, rfl⟩
  · rename_i none
    exact ⟨by simpa using none, rfl, rfl, rfl⟩

theorem beginStop_same (h : Helper) : h.beginStop.running = false ∧ h.beginStop.joinable = h.joinable ∧
    h.beginStop.terminated = h.terminated := by
  unfold beginStop
  dsimp only
  split <;> exact ⟨rfl, rfl, rfl⟩

theorem stopElsewhere_done (h : Helper) : h.stopElsewhere.running = false ∧ h.stopElsewhere.joinable = false ∧
    h.stopElsewhere.client = false ∧ h.stopElsewhere.terminated = h.terminated := by
  obtain ⟨running, joinable, terminated⟩ := beginStop_same h
  have finished : ∀ g : Helper, g.running = false → g.terminated = h.terminated →
      ((if g.joinable then { g with stopped := true, joinable := false } else g).releaseClient).running = false ∧
      ((if g.joinable then { g with stopped := true, joinable := false } else g).releaseClient).joinable = false ∧
      ((if g.joinable then { g with stopped := true, joinable := false } else g).releaseClient).client = false ∧
      ((if g.joinable then { g with stopped := true, joinable := false } else g).releaseClient).terminated =
          h.terminated := by
    intro g idle alive
    obtain ⟨client, runs, joins, ends⟩ := releaseClient_same
      (if g.joinable then { g with stopped := true, joinable := false } else g)
    cases joined : g.joinable <;> simp_all
  unfold stopElsewhere finishStop
  dsimp only
  split
  · exact finished _ running terminated
  · exact finished _ running terminated

end Helper

namespace Life

variable {s t : Life}

/-- As long as the helper lives, the io thread is joinable while it runs or the helper does, and
otherwise only if it was parked. -/
structure Threaded (s : Life) : Prop where
  looping : s.looping = true → s.helper.joinable = true
  running : s.helper.running = true → s.helper.joinable = true
  parked : s.parked = (!s.helper.running && s.helper.joinable)

theorem stop_ioThread (threaded : s.Threaded) (there : s.present .ioThread = true) :
    s.helper.stop (Caller.ioThread == .ioThread) = s.helper.stopOnIoThread ∧ s.helper.joinable = true := by
  have joins := threaded.looping there
  refine ⟨?_, joins⟩
  unfold Helper.stop
  rw [if_pos (by rw [joins]; rfl)]

theorem stop_other (s : Life) : s.helper.stop (Caller.other == .ioThread) = s.helper.stopElsewhere := by
  unfold Helper.stop
  rw [if_neg]
  rw [Bool.and_eq_true, not_and]
  nofun

theorem threaded_start {caller : Caller} (threaded : s.Threaded) (joined : s.parked = false) :
    Threaded { s with
      last := some (.start caller), helper := s.helper.start, looping := s.looping || !s.helper.running } := by
  cases runs : s.helper.running with
  | true =>
    rw [Helper.start_running runs]
    exact ⟨by simpa using threaded.looping, threaded.running, threaded.parked⟩
  | false =>
    obtain ⟨running, joinable, -⟩ := Helper.start_idle runs
    exact ⟨fun _ => joinable, fun _ => joinable, by simp [running, joined]⟩

theorem threaded_stop {caller : Caller} (threaded : s.Threaded) (there : s.present caller = true) :
    Threaded { s with
      last := some (.stop caller), helper := s.helper.stop (caller == .ioThread)
      looping := s.looping && (s.helper.stop (caller == .ioThread)).joinable, parked := caller == .ioThread } := by
  cases caller with
  | ioThread =>
    obtain ⟨running, joinable, -⟩ := Helper.stopOnIoThread_same s.helper
    obtain ⟨here, joins⟩ := stop_ioThread threaded there
    rw [here]
    exact ⟨fun _ => joinable.trans joins, fun _ => joinable.trans joins, by simp [running, joinable, joins]⟩
  | other =>
    obtain ⟨running, joinable, -⟩ := Helper.stopElsewhere_done s.helper
    rw [stop_other]
    exact ⟨by simp [joinable], by simp [running], by simp [joinable]⟩

/-- What a step needs of the state, and its effect. -/
theorem step_cases {c : LifeCall} (taken : s.step c = some t) : (s.destroyed || s.helper.terminated) = false ∧
    match c with
    | .start caller => s.present caller = true ∧ t = { s with
        last := some (.start caller), helper := s.helper.start, looping := s.looping || !s.helper.running }
    | .stop caller => s.present caller = true ∧ t = { s with
        last := some (.stop caller), helper := s.helper.stop (caller == .ioThread)
        looping := s.looping && (s.helper.stop (caller == .ioThread)).joinable, parked := caller == .ioThread }
    | .dropLast caller => s.present caller = true ∧ t = { s with
        last := some (.dropLast caller), helper := s.helper.destroy (caller == .ioThread)
        looping := s.looping && caller == .ioThread, destroyed := true, parked := false }
    | .loopEnds => t = { s with last := some .loopEnds, looping := false } := by
  unfold step at taken
  split at taken
  · contradiction
  · rename_i on
    refine ⟨by simpa using on, ?_⟩
    cases c with
    | loopEnds =>
      dsimp only at taken ⊢
      split at taken
      · exact (Option.some.inj taken).symm
      · contradiction
    | _ =>
      dsimp only at taken ⊢
      split at taken
      · exact ⟨‹_›, (Option.some.inj taken).symm⟩
      · contradiction

/-- Until the process or the helper comes to its end. -/
def Kept (s : Life) : Prop := (s.destroyed || s.helper.terminated) = false → s.Threaded

theorem terminated_start (h : Helper) : h.start.terminated = (h.terminated || (!h.running && h.joinable)) := by
  cases runs : h.running with
  | true => simp [Helper.start_running runs]
  | false => simpa using (Helper.start_idle runs).2.2

theorem kept_step {c : LifeCall} (kept : s.Kept) (taken : s.step c = some t) : t.Kept := by
  obtain ⟨on, cases⟩ := step_cases taken
  have threaded := kept on
  cases c with
  | start caller =>
    obtain ⟨-, rfl⟩ := cases
    intro after
    simp only [Bool.or_eq_false_iff, terminated_start] at after
    exact threaded_start threaded (threaded.parked.trans after.2.2)
  | stop caller =>
    obtain ⟨there, rfl⟩ := cases
    exact fun _ => threaded_stop threaded there
  | dropLast caller =>
    obtain ⟨-, rfl⟩ := cases
    exact fun after => absurd after (by simp)
  | loopEnds =>
    obtain rfl : t = _ := cases
    exact fun _ => ⟨nofun, threaded.running, threaded.parked⟩

theorem sound_step {c : LifeCall} (kept : s.Kept) (sound : s.Sound) (taken : s.step c = some t) :
    t.Sound ↔ s.Joins c := by
  obtain ⟨on, cases⟩ := step_cases taken
  have threaded := kept on
  have alive := sound.alive
  cases c with
  | start caller =>
    obtain ⟨-, rfl⟩ := cases
    have ends : s.helper.start.terminated = s.parked := by
      rw [terminated_start, alive, threaded.parked, Bool.false_or]
    exact ⟨fun after => ends.symm.trans after.alive, fun joined => ⟨ends.trans joined, nofun⟩⟩
  | stop caller =>
    obtain ⟨there, rfl⟩ := cases
    refine iff_of_true ?_ trivial
    cases caller with
    | ioThread =>
      obtain ⟨here, -⟩ := stop_ioThread threaded there
      exact ⟨(congrArg Helper.terminated here).trans ((Helper.stopOnIoThread_same _).2.2.trans alive), nofun⟩
    | other =>
      obtain ⟨running, joinable, client, ends⟩ := Helper.stopElsewhere_done s.helper
      have here := stop_other s
      exact ⟨(congrArg Helper.terminated here).trans (ends.trans alive), fun _ =>
        ⟨(congrArg Helper.running here).trans running, (congrArg Helper.joinable here).trans joinable,
          (congrArg Helper.client here).trans client⟩⟩
  | dropLast caller =>
    obtain ⟨there, rfl⟩ := cases
    cases caller with
    | ioThread =>
      obtain ⟨here, joins⟩ := stop_ioThread threaded there
      refine iff_of_false (fun after => ?_) nofun
      have ends : (s.helper.destroy (Caller.ioThread == .ioThread)).terminated = true := by
        simp only [Helper.destroy, here, (Helper.stopOnIoThread_same s.helper).2.1, joins, Bool.or_true]
      exact absurd (ends.symm.trans after.alive) nofun
    | other =>
      obtain ⟨-, joinable, -, ends⟩ := Helper.stopElsewhere_done s.helper
      have fine : (s.helper.destroy (Caller.other == .ioThread)).terminated = false := by
        simp only [Helper.destroy, stop_other, joinable, ends, alive, Bool.or_false]
      exact iff_of_true ⟨fine, nofun⟩ rfl
  | loopEnds =>
    obtain rfl : t = _ := cases
    exact iff_of_true ⟨alive, nofun⟩ trivial

/-- In every sequence of calls: the process is not terminated, and every `stop` on another thread leaves
nothing running, exactly if the helper is never started again before its thread was joined and is not
destroyed on it. -/
theorem thread_lifecycle (calls : List LifeCall) :
    Runs.Throughout step Sound {} calls ↔ Runs.Along step Joins {} calls :=
  Runs.throughout_iff_along (I := Kept) (fun _ _ _ => kept_step) (fun _ _ _ => sound_step)
    (fun _ => ⟨nofun, nofun, rfl⟩) ⟨rfl, nofun⟩

example : Runs.Along step Joins {} [.start .other, .stop .ioThread, .loopEnds, .stop .other, .start .other,
    .dropLast .other] := by decide

/-- The helper is stopped in a callback and then started again: the io thread is still joinable. -/
theorem restart_terminates : ¬ ∀ calls, Runs.Throughout step Sound {} calls := by
  intro claimed
  have run : (Runs.exec step ({} : Life) [.start .other, .stop .ioThread, .start .other]).map
      (fun s => s.helper.terminated) = some true := by decide
  obtain ⟨s, done, ended⟩ := Runs.exec_of_check run
  exact absurd ((Runs.throughout_last (claimed _) done).alive.symm.trans ended) nofun

end Life
end LiteMqtt
