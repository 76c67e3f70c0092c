import LiteMqtt.General.Runs
import LiteMqtt.Client.Model
import LiteMqtt.Helper.Model

/-!
# Rearming while the io thread runs

`rearm_reconnect` is called on a thread of the user and shares its flags and its counter with the
handlers on the io thread. Each operation on one of them is a step here, and the two threads take
their steps in any order. Nobody calls `stop`, so that `user_stopped_` stays as it is.
-/

namespace LiteMqtt

inductive RearmCode where
  | check
  /-- The compare-exchange on `should_reconnect_`. -/
  | exchange
  | resetAttempts
  | resetInitial
  | post
  | returned (result : Bool)
  deriving DecidableEq, Repr

/-- What the handler on the io thread does next. The values that it has loaded are arguments. -/
inductive IoCode where
  /-- `on_close` looks at the flags before it calls `do_reconnect`. -/
  | closing
  /-- `do_reconnect` looks at the flags. -/
  | entry
  | exchangePending
  | loadAttempts
  | giveUp
  | clearGivenUp
  | countAttempt (attempts : Int)
  | arm (delayMs : Int)
  /-- `on_connect(true)` -/
  | resetAttempts
  | restore
  /-- The handler of the backoff wait. -/
  | waited (ec : ErrorCode)
  | waitOver
  /-- The task of `rearm_reconnect`. -/
  | rearm
  | cancelWait
  | clearPending
  | connect
  deriving DecidableEq, Repr

/-- The task that the call has posted, and how many chores the io thread takes before it. -/
inductive RearmTask where
  | not
  | queued (ahead : Nat)
  | running
  | finished
  deriving DecidableEq, Repr

def RearmTask.taken : RearmTask → RearmTask
  | .queued 0 => .running
  | .queued (ahead + 1) => .queued ahead
  | other => other

def IoCode.ofChore : Chore → IoCode
  | .waited ec => .waited ec
  | .rearm => .rearm

def IoCode.reconnects : IoCode → Bool
  | .exchangePending | .loadAttempts | .giveUp | .countAttempt _ | .arm _ => true
  | _ => false

def IoCode.retries : IoCode → Bool
  | .rearm | .cancelWait | .clearPending | .connect => true
  | _ => false

/-- `asked` is history: how many calls into the client there were at the compare-exchange. -/
structure Rearming where
  helper : Helper
  user : RearmCode := .check
  io : Option IoCode := none
  task : RearmTask := .not
  asked : Nat := 0
  deriving DecidableEq, Repr

namespace Rearming

inductive Action where
  /-- The next step of `rearm_reconnect`. -/
  | user
  /-- The next step of the handler on the io thread. -/
  | io
  /-- The client reports that a connect attempt failed, or its timer expired. -/
  | failed
  /-- The client reports that its session is closed. -/
  | closed
  /-- The client reports that its session is up. -/
  | connected
  /-- The backoff wait is over. -/
  | expire
  /-- The io thread takes the first chore of the helper. -/
  | take
  deriving DecidableEq, Repr

/-- One step of a handler, and what it does next. -/
def ioStep (h : Helper) : IoCode → Helper × Option IoCode
  | .closing => (h, if h.shouldReconnect && !h.userStopped then some .entry else none)
  | .entry => (h, if !h.shouldReconnect || h.userStopped then none else some .exchangePending)
  | .exchangePending =>
      ({ h with reconnectPending := true }, if h.reconnectPending then none else some .loadAttempts)
  | .loadAttempts =>
      if h.maxReconnectAttempts ≠ -1 ∧ h.reconnectAttempts ≥ h.maxReconnectAttempts then (h, some .giveUp)
      else (h, some (.countAttempt h.reconnectAttempts))
  | .giveUp => ({ h with shouldReconnect := false }, some .clearGivenUp)
  | .clearGivenUp => ({ h with reconnectPending := false }, none)
  | .countAttempt attempts =>
      (if attempts < 1000000 then { h with reconnectAttempts := h.reconnectAttempts + 1 } else h,
        some (.arm { h with reconnectAttempts := attempts }.reconnectDelay))
  | .arm delayMs => (h.armReconnectTimer delayMs, none)
  | .resetAttempts => ({ h with reconnectAttempts := 0 }, some .restore)
  | .restore => ({ h with initialConnect := false }.restoreSubscriptions, none)
  | .waited ec => ({ h with reconnectPending := false }, if ec.isSome then none else some .waitOver)
  | .waitOver => (h, if h.shouldReconnect && !h.userStopped then some .connect else none)
  | .rearm => (h, if !h.shouldReconnect || h.userStopped then none else some .cancelWait)
  | .cancelWait => (h.cancelReconnectTimer, some .clearPending)
  | .clearPending => ({ h with reconnectPending := false }, some .connect)
  | .connect => (h.doConnect, none)

def userStep (s : Rearming) : Option Rearming :=
  match s.user with
  | .check =>
      some { s with user := if !s.helper.running || s.helper.userStopped then .returned false else .exchange }
  | .exchange =>
      if s.helper.shouldReconnect then some { s with user := .returned true }
      else
        some { s with
          helper := { s.helper with shouldReconnect := true }, user := .resetAttempts
          asked := s.helper.asked.length }
  | .resetAttempts => some { s with helper := { s.helper with reconnectAttempts := 0 }, user := .resetInitial }
  | .resetInitial => some { s with helper := { s.helper with initialConnect := false }, user := .post }
  | .post =>
      some { s with helper := s.helper.queue .rearm, user := .returned true, task := .queued s.helper.chores.length }
  | .returned _ => none

def handlerStep (s : Rearming) (c : IoCode) : Rearming :=
  { s with
    helper := (ioStep s.helper c).1, io := (ioStep s.helper c).2
    task := if s.task = .running ∧ (ioStep s.helper c).2 = none then .finished else s.task }

/-- A handler runs to its end before the io thread takes the next one. Nothing follows the end of the
task that the call has posted. -/
def step (s : Rearming) (a : Action) : Option Rearming :=
  if s.task = .finished then none
  else
    match a with
    | .user => s.userStep
    | .io => s.io.map s.handlerStep
    | .failed => if s.io = none then some { s with io := some .entry } else none
    | .closed => if s.io = none then some { s with io := some .closing } else none
    | .connected => if s.io = none then some { s with io := some .resetAttempts } else none
    | .expire => if s.helper.wait.isSome then some { s with helper := s.helper.expireReconnectTimer } else none
    | .take =>
        match s.helper.chores with
        | [] => none
        | c :: rest =>
            if s.io = none then
              some { s with
                helper := { s.helper with chores := rest }, io := some (IoCode.ofChore c), task := s.task.taken }
            else none

/-! ### Undisturbed, the steps are the helper's functions -/

def runHandler : Nat → Helper → Option IoCode → Helper × Option IoCode
  | 0, h, code => (h, code)
  | _ + 1, h, none => (h, none)
  | n + 1, h, some c => runHandler n (ioStep h c).1 (ioStep h c).2

theorem runHandler_entry (h : Helper) : runHandler 5 h (some .entry) = (h.doReconnect, none) := by
  unfold Helper.doReconnect
  by_cases off : (!h.shouldReconnect || h.userStopped) = true
  · simp only [runHandler, ioStep, off, if_true]
  by_cases pending : h.reconnectPending = true
  · simp only [runHandler, ioStep, off, pending, if_true, Bool.false_eq_true, if_false]
    rw [← pending]
  by_cases spent : h.maxReconnectAttempts ≠ -1 ∧ h.reconnectAttempts ≥ h.maxReconnectAttempts
  · simp only [runHandler, ioStep, off, pending, Bool.false_eq_true, if_false]
    rw [if_pos spent, if_pos spent]
    rfl
  · simp only [runHandler, ioStep, off, pending, Bool.false_eq_true, if_false]
    rw [if_neg spent, if_neg spent]
    rfl

theorem runHandler_closing (h : Helper) : runHandler 6 h (some .closing) = (h.onClose, none) := by
  have entered := runHandler_entry h
  unfold Helper.onClose
  by_cases on : (h.shouldReconnect && !h.userStopped) = true
  · simp only [runHandler, ioStep, on, if_true] at entered ⊢
    exact entered
  · simp only [runHandler, ioStep, on, Bool.false_eq_true, if_false]

theorem runHandler_connected (h : Helper) : runHandler 2 h (some .resetAttempts) = (h.onConnect true, none) := rfl

theorem runHandler_chore (h : Helper) (c : Chore) : runHandler 4 h (some (.ofChore c)) = (h.perform c, none) := by
  cases c with
  | waited ec =>
    simp only [Helper.perform, Helper.onWaited, IoCode.ofChore, runHandler, ioStep]
    cases ec with
    | some code => rfl
    | none =>
      by_cases on : (h.shouldReconnect && !h.userStopped) = true <;>
        simp only [Option.isSome_none, Bool.false_eq_true, if_false, runHandler, ioStep, on, if_true]
  | rearm =>
    by_cases off : (!h.shouldReconnect || h.userStopped) = true
    · simp only [Helper.perform, Helper.onRearm, IoCode.ofChore, runHandler, ioStep, off, if_true]
    · simp only [Helper.perform, Helper.onRearm, IoCode.ofChore, runHandler, ioStep, off, Bool.false_eq_true, if_false]

theorem taken_over {task : RearmTask} (ended : task.taken = .finished) : task = .finished := by
  unfold RearmTask.taken at ended
  split at ended
  · contradiction
  · contradiction
  · exact ended

theorem exec_runHandler {s : Rearming} {g : Helper} {n : Nat} (goes : s.task ≠ .finished)
    (ran : runHandler n s.helper s.io = (g, none)) :
    ∃ k t, Runs.exec step s (List.replicate k .io) = some t ∧ t.helper = g ∧ t.io = none := by
  induction n generalizing s with
  | zero => exact ⟨0, s, rfl, (Prod.mk.inj ran).1, (Prod.mk.inj ran).2⟩
  | succ n ih =>
    cases code : s.io with
    | none =>
      rw [code] at ran
      exact ⟨0, s, rfl, (Prod.mk.inj ran).1, code⟩
    | some c =>
      rw [code] at ran
      have first : s.step .io = some (s.handlerStep c) := by simp [step, goes, code]
      by_cases last : (ioStep s.helper c).2 = none
      · have done : runHandler n (ioStep s.helper c).1 (ioStep s.helper c).2 = ((ioStep s.helper c).1, none) := by
          rw [last]
          cases n <;> rfl
        obtain ⟨same, -⟩ := Prod.mk.inj (done.symm.trans ran)
        exact ⟨1, s.handlerStep c, by simp [Runs.exec, first], same, last⟩
      · have going : (s.handlerStep c).task ≠ .finished := by
          unfold handlerStep
          rw [if_neg fun ended => last ended.2]
          exact goes
        obtain ⟨k, t, later, same⟩ := ih going ran
        exact ⟨k + 1, t, by simp [List.replicate_succ, Runs.exec, first, later], same⟩

def handled (h : Helper) : Action → Option Helper
  | .failed => some (h.onConnect false)
  | .closed => some h.onClose
  | .connected => some (h.onConnect true)
  | .take =>
      match h.chores with
      | [] => none
      | c :: rest => some ({ h with chores := rest }.perform c)
  | _ => none

theorem exec_handled {s : Rearming} {a : Action} {g : Helper} (goes : s.task ≠ .finished) (idle : s.io = none)
    (begins : handled s.helper a = some g) :
    ∃ k t, Runs.exec step s (a :: List.replicate k .io) = some t ∧ t.helper = g ∧ t.io = none := by
  have from_first : ∀ {u : Rearming} {n : Nat}, s.step a = some u → u.task ≠ .finished →
      runHandler n u.helper u.io = (g, none) →
      ∃ k t, Runs.exec step s (a :: List.replicate k .io) = some t ∧ t.helper = g ∧ t.io = none := by
    intro u n first going ran
    obtain ⟨k, t, later, same⟩ := exec_runHandler going ran
    exact ⟨k, t, by simp [Runs.exec, first, later], same⟩
  cases a with
  | failed =>
    obtain rfl := Option.some.inj begins
    exact from_first (u := { s with io := some .entry }) (by simp [step, goes, idle]) goes (runHandler_entry s.helper)
  | closed =>
    obtain rfl := Option.some.inj begins
    exact from_first (u := { s with io := some .closing }) (by simp [step, goes, idle]) goes
      (runHandler_closing s.helper)
  | connected =>
    obtain rfl := Option.some.inj begins
    exact from_first (u := { s with io := some .resetAttempts }) (by simp [step, goes, idle]) goes
      (runHandler_connected s.helper)
  | take =>
    cases queue : s.helper.chores with
    | nil => simp [handled, queue] at begins
    | cons c rest =>
      simp only [handled, queue, Option.some.injEq] at begins
      subst begins
      let u : Rearming := { s with
        helper := { s.helper with chores := rest }, io := some (IoCode.ofChore c), task := s.task.taken }
      have going : u.task ≠ .finished := fun ended => goes (taken_over ended)
      exact from_first (u := u) (by simp [step, goes, idle, queue, u]) going (runHandler_chore u.helper c)
  | user | io | expire => cases begins

theorem exec_rearmReconnect {s : Rearming} (goes : s.task ≠ .finished) (begins : s.user = .check) :
    ∃ k t, Runs.exec step s (List.replicate k .user) = some t ∧ t.helper = s.helper.rearmReconnect.1 ∧
      t.user = .returned s.helper.rearmReconnect.2 := by
  unfold Helper.rearmReconnect
  by_cases off : (!s.helper.running || s.helper.userStopped) = true
  · exact ⟨1, { s with user := .returned false }, by simp [Runs.exec, step, goes, userStep, begins, off], by simp [off],
      by simp [off]⟩
  by_cases should : s.helper.shouldReconnect = true
  · exact ⟨2, { s with user := .returned true }, by simp [Runs.exec, step, goes, userStep, begins, off, should],
      by simp [off, should], by simp [off, should]⟩
  · refine ⟨5, _, by simp [Runs.exec, step, goes, userStep, begins, off, should]; rfl, ?_, ?_⟩
    · simp [off, should]
    · simp [off, should]

/-- Undisturbed by the other thread, the steps of each handler and those of the call make of the helper what its
functions make of it. -/
theorem steps_refine {s : Rearming} (goes : s.task ≠ .finished) :
    (s.io = none → ∀ a g, handled s.helper a = some g →
      ∃ k t, Runs.exec step s (a :: List.replicate k .io) = some t ∧ t.helper = g ∧ t.io = none) ∧
    (s.user = .check → ∃ k t, Runs.exec step s (List.replicate k .user) = some t ∧
      t.helper = s.helper.rearmReconnect.1 ∧ t.user = .returned s.helper.rearmReconnect.2) :=
  ⟨fun idle _ _ => exec_handled goes idle, exec_rearmReconnect goes⟩

/-! ### A helper that has given up -/

/-- The helper runs, and `do_reconnect` has cleared `should_reconnect_`. -/
structure GivenUp (h : Helper) : Prop where
  running : h.running = true
  userStopped : h.userStopped = false
  client : h.client = true
  shouldReconnect : h.shouldReconnect = false

/-- `rearm_reconnect` is called while the io thread may still be about to clear `reconnect_pending_`. -/
def ready (h : Helper) (finishing : Bool) : Rearming :=
  { helper := h, io := if finishing then some .clearGivenUp else none }

/-- A connect attempt was started after the compare-exchange or a backoff wait is armed, and the budget
is whole. -/
def Rearmed (s : Rearming) : Prop :=
  (.asyncConnect ∈ s.helper.asked.drop s.asked ∨ s.helper.wait.isSome = true) ∧ s.helper.reconnectAttempts = 0

/-- A call that returns true has posted its task, and by the time the task has run the helper retries. -/
structure Answered (s : Rearming) : Prop where
  posted : s.user = .returned true → s.task ≠ .not
  rearmed : s.task = .finished → s.Rearmed

/-- No failure that is reported finds the flag set. -/
def Undisturbed (s : Rearming) (a : Action) : Prop :=
  a = .io → s.io = some .entry → s.helper.shouldReconnect = false

instance (s : Rearming) (a : Action) : Decidable (s.Undisturbed a) :=
  inferInstanceAs (Decidable (a = .io → s.io = some .entry → s.helper.shouldReconnect = false))

def Set (s : Rearming) : Prop :=
  match s.user with
  | .check | .exchange => s.helper.shouldReconnect = false ∧ s.task = .not
  | .resetAttempts => s.helper.shouldReconnect = true ∧ s.task = .not
  | .resetInitial | .post => s.helper.shouldReconnect = true ∧ s.helper.reconnectAttempts = 0 ∧ s.task = .not
  | .returned result => result = true ∧ s.helper.shouldReconnect = true ∧ s.helper.reconnectAttempts = 0 ∧ s.task ≠ .not

structure Undisturbing (s : Rearming) : Prop where
  running : s.helper.running = true
  userStopped : s.helper.userStopped = false
  client : s.helper.client = true
  io : ∀ c ∈ s.io, c.reconnects = false
  set : s.Set
  asked : s.asked ≤ s.helper.asked.length
  queued : ∀ ahead, s.task = .queued ahead → s.helper.chores[ahead]? = some .rearm
  task : s.task = .running → ∃ c, s.io = some c ∧ c.retries = true
  finished : s.task = .finished → .asyncConnect ∈ s.helper.asked.drop s.asked

structure Calm (h g : Helper) (next : Option IoCode) : Prop where
  running : g.running = h.running
  userStopped : g.userStopped = h.userStopped
  client : g.client = h.client
  shouldReconnect : g.shouldReconnect = h.shouldReconnect
  attempts : g.reconnectAttempts = h.reconnectAttempts ∨ g.reconnectAttempts = 0
  asked : ∃ asks, g.asked = h.asked ++ asks
  chores : ∃ more, g.chores = h.chores ++ more
  next : ∀ c ∈ next, c.reconnects = false

variable {h : Helper} {s t : Rearming}

theorem calm_ioStep {c : IoCode} (calm : c.reconnects = false) (entry : c = .entry → h.shouldReconnect = false) :
    Calm h (ioStep h c).1 (ioStep h c).2 := by
  have unchanged : ∀ next : Option IoCode, (∀ c ∈ next, c.reconnects = false) → Calm h h next := fun next inside =>
    ⟨rfl, rfl, rfl, rfl, .inl rfl, ⟨[], (List.append_nil _).symm⟩, ⟨[], (List.append_nil _).symm⟩, inside⟩
  cases c with
  | closing =>
    refine unchanged _ fun c among => ?_
    simp only [ioStep] at among
    split at among
    · obtain rfl := Option.some.inj among
      rfl
    · nomatch among
  | entry =>
    have off : (!h.shouldReconnect || h.userStopped) = true := by simp [entry rfl]
    simp only [ioStep, off, if_true]
    exact unchanged none nofun
  | waitOver =>
    refine unchanged _ fun c among => ?_
    simp only [ioStep] at among
    split at among
    · obtain rfl := Option.some.inj among
      rfl
    · nomatch among
  | rearm =>
    refine unchanged _ fun c among => ?_
    simp only [ioStep] at among
    split at among
    · nomatch among
    · obtain rfl := Option.some.inj among
      rfl
  | waited ec =>
    refine ⟨rfl, rfl, rfl, rfl, .inl rfl, ⟨[], (List.append_nil _).symm⟩, ⟨[], (List.append_nil _).symm⟩,
      fun c among => ?_⟩
    simp only [ioStep] at among
    split at among
    · nomatch among
    · obtain rfl := Option.some.inj among
      rfl
  | clearGivenUp =>
    exact ⟨rfl, rfl, rfl, rfl, .inl rfl, ⟨[], (List.append_nil _).symm⟩, ⟨[], (List.append_nil _).symm⟩, nofun⟩
  | resetAttempts =>
    refine ⟨rfl, rfl, rfl, rfl, .inr rfl, ⟨[], (List.append_nil _).symm⟩, ⟨[], (List.append_nil _).symm⟩,
      fun c among => ?_⟩
    obtain rfl := Option.some.inj among
    rfl
  | restore =>
    simp only [ioStep, Helper.restoreSubscriptions]
    split
    · exact ⟨rfl, rfl, rfl, rfl, .inl rfl, ⟨_, rfl⟩, ⟨[], (List.append_nil _).symm⟩, nofun⟩
    · exact ⟨rfl, rfl, rfl, rfl, .inl rfl, ⟨[], (List.append_nil _).symm⟩, ⟨[], (List.append_nil _).symm⟩, nofun⟩
  | cancelWait =>
    refine ⟨rfl, rfl, rfl, rfl, .inl rfl, ⟨[], (List.append_nil _).symm⟩, ⟨_, rfl⟩, fun c among => ?_⟩
    obtain rfl := Option.some.inj among
    rfl
  | clearPending =>
    refine ⟨rfl, rfl, rfl, rfl, .inl rfl, ⟨[], (List.append_nil _).symm⟩, ⟨[], (List.append_nil _).symm⟩,
      fun c among => ?_⟩
    obtain rfl := Option.some.inj among
    rfl
  | connect =>
    simp only [ioStep, Helper.doConnect]
    split
    · exact ⟨rfl, rfl, rfl, rfl, .inl rfl, ⟨_, rfl⟩, ⟨[], (List.append_nil _).symm⟩, nofun⟩
    · exact unchanged none nofun
  | exchangePending | loadAttempts | giveUp | countAttempt attempts | arm delayMs => contradiction

theorem retries_ioStep {c : IoCode} (retries : c.retries = true) (should : h.shouldReconnect = true)
    (on : h.userStopped = false) (client : h.client = true) :
    (∃ next, (ioStep h c).2 = some next ∧ next.retries = true) ∨
      (ioStep h c).2 = none ∧ (ioStep h c).1.asked = h.asked ++ [.asyncConnect] := by
  cases c with
  | rearm =>
    refine .inl ⟨.cancelWait, ?_, rfl⟩
    simp [ioStep, should, on]
  | cancelWait => exact .inl ⟨.clearPending, rfl, rfl⟩
  | clearPending => exact .inl ⟨.connect, rfl, rfl⟩
  | connect =>
    refine .inr ⟨rfl, ?_⟩
    simp [ioStep, Helper.doConnect, Helper.ask, client]
  | _ => contradiction

theorem set_same {g : Helper} {next : Option IoCode} {task : RearmTask}
    (flag : g.shouldReconnect = s.helper.shouldReconnect)
    (attempts : g.reconnectAttempts = s.helper.reconnectAttempts ∨ g.reconnectAttempts = 0) (set : s.Set)
    (posted : task = .not ↔ s.task = .not) : Set { s with helper := g, io := next, task } := by
  have reset : s.helper.reconnectAttempts = 0 → g.reconnectAttempts = 0 := fun zero =>
    attempts.elim (fun same => same.trans zero) id
  unfold Set at set ⊢
  dsimp only
  cases user : s.user with
  | check | exchange =>
    rw [user] at set
    exact ⟨flag.trans set.1, posted.mpr set.2⟩
  | resetAttempts =>
    rw [user] at set
    exact ⟨flag.trans set.1, posted.mpr set.2⟩
  | resetInitial | post =>
    rw [user] at set
    exact ⟨flag.trans set.1, reset set.2.1, posted.mpr set.2.2⟩
  | returned result =>
    rw [user] at set
    obtain ⟨true', should, zero, task'⟩ := set
    exact ⟨true', flag.trans should, reset zero, fun none => task' (posted.mp none)⟩

theorem set_posted (set : s.Set) (posted : s.task ≠ .not) :
    s.helper.shouldReconnect = true ∧ s.helper.reconnectAttempts = 0 := by
  unfold Set at set
  split at set
  · exact absurd set.2 posted
  · exact absurd set.2 posted
  · exact absurd set.2 posted
  · exact absurd set.2.2 posted
  · exact absurd set.2.2 posted
  · exact ⟨set.2.1, set.2.2.1⟩

theorem undisturbing_user (kept : s.Undisturbing) (taken : s.userStep = some t) : t.Undisturbing := by
  have set := kept.set
  unfold Set at set
  unfold userStep at taken
  cases user : s.user with
  | check =>
    simp only [user, kept.running, kept.userStopped, Bool.not_true, Bool.or_false, Bool.false_eq_true,
      if_false] at taken set
    obtain rfl := Option.some.inj taken
    exact ⟨kept.running, kept.userStopped, kept.client, kept.io, set, kept.asked, kept.queued, kept.task, kept.finished⟩
  | exchange =>
    simp only [user] at taken set
    obtain ⟨should, none⟩ := set
    rw [if_neg (by simp [should])] at taken
    obtain rfl := Option.some.inj taken
    exact ⟨kept.running, kept.userStopped, kept.client, kept.io, ⟨rfl, none⟩, Nat.le_refl _, kept.queued, kept.task,
      fun ended => absurd (none.symm.trans ended) nofun⟩
  | resetAttempts =>
    simp only [user] at taken set
    obtain rfl := Option.some.inj taken
    exact ⟨kept.running, kept.userStopped, kept.client, kept.io, ⟨set.1, rfl, set.2⟩, kept.asked, kept.queued,
      kept.task, kept.finished⟩
  | resetInitial =>
    simp only [user] at taken set
    obtain rfl := Option.some.inj taken
    exact ⟨kept.running, kept.userStopped, kept.client, kept.io, set, kept.asked, kept.queued, kept.task, kept.finished⟩
  | post =>
    simp only [user] at taken set
    obtain rfl := Option.some.inj taken
    refine ⟨kept.running, kept.userStopped, kept.client, kept.io, ⟨rfl, set.1, set.2.1, nofun⟩, kept.asked,
      fun ahead same => ?_, nofun, nofun⟩
    obtain rfl := RearmTask.queued.inj same
    exact List.getElem?_concat_length
  | returned result =>
    rw [user] at taken
    contradiction

theorem queued_append {chores more : List Chore} {ahead : Nat} (queued : chores[ahead]? = some .rearm) :
    (chores ++ more)[ahead]? = some .rearm := by
  obtain ⟨inside, -⟩ := List.getElem?_eq_some_iff.mp queued
  rw [List.getElem?_append_left inside, queued]

theorem undisturbing_io {c : IoCode} (kept : s.Undisturbing) (goes : s.task ≠ .finished) (running : s.io = some c)
    (undisturbed : c = .entry → s.helper.shouldReconnect = false) : (s.handlerStep c).Undisturbing := by
  have calm := calm_ioStep (kept.io c running) undisturbed
  obtain ⟨asks, asked⟩ := calm.asked
  have posted : (s.handlerStep c).task = .not ↔ s.task = .not := by
    unfold handlerStep
    dsimp only
    split
    · rename_i ended
      exact iff_of_false nofun fun none => absurd (none.symm.trans ended.1) nofun
    · rfl
  refine ⟨calm.running.trans kept.running, calm.userStopped.trans kept.userStopped, calm.client.trans kept.client,
    calm.next, set_same calm.shouldReconnect calm.attempts kept.set posted, ?_, ?_, ?_, ?_⟩
  · have before := kept.asked
    show s.asked ≤ (ioStep s.helper c).1.asked.length
    rw [asked, List.length_append]
    omega
  · intro ahead still
    have before : s.task = .queued ahead := by
      unfold handlerStep at still
      dsimp only at still
      split at still
      · contradiction
      · exact still
    obtain ⟨more, chores⟩ := calm.chores
    show (ioStep s.helper c).1.chores[ahead]? = some .rearm
    rw [chores]
    exact queued_append (kept.queued ahead before)
  · intro still
    have task : s.task = .running ∧ (ioStep s.helper c).2 ≠ none := by
      unfold handlerStep at still
      dsimp only at still
      split at still
      · contradiction
      · rename_i goes
        exact ⟨still, fun none => goes ⟨still, none⟩⟩
    obtain ⟨code, here, retries⟩ := kept.task task.1
    obtain rfl : c = code := Option.some.inj (running.symm.trans here)
    have should := (set_posted kept.set (by rw [task.1]; nofun)).1
    rcases retries_ioStep retries should kept.userStopped kept.client with next | ⟨ended, -⟩
    · exact next
    · exact absurd ended task.2
  · intro ended
    have task : s.task = .running ∧ (ioStep s.helper c).2 = none := by
      unfold handlerStep at ended
      dsimp only at ended
      split at ended
      · assumption
      · exact absurd ended goes
    obtain ⟨code, here, retries⟩ := kept.task task.1
    obtain rfl : c = code := Option.some.inj (running.symm.trans here)
    have should := (set_posted kept.set (by rw [task.1]; nofun)).1
    rcases retries_ioStep retries should kept.userStopped kept.client with ⟨next, same, -⟩ | ⟨-, connects⟩
    · exact absurd (task.2.symm.trans same) nofun
    · show .asyncConnect ∈ (ioStep s.helper c).1.asked.drop s.asked
      rw [connects, List.drop_append_of_le_length kept.asked]
      exact List.mem_append_right _ (List.mem_singleton.mpr rfl)

theorem taken_not {task : RearmTask} : task.taken = .not ↔ task = .not := by
  unfold RearmTask.taken
  split <;> simp

theorem taken_queued {task : RearmTask} {ahead : Nat} (queued : task.taken = .queued ahead) :
    task = .queued (ahead + 1) := by
  unfold RearmTask.taken at queued
  split at queued
  · contradiction
  · obtain rfl := RearmTask.queued.inj queued
    rfl
  · rename_i other
    cases ahead with
    | zero => exact absurd queued (by assumption)
    | succ n => exact absurd queued (other n)

theorem taken_running {task : RearmTask} (running : task.taken = .running) :
    task = .queued 0 ∨ task = .running := by
  unfold RearmTask.taken at running
  split at running
  · exact .inl rfl
  · contradiction
  · exact .inr running

theorem undisturbing_step {a : Action} (kept : s.Undisturbing) (undisturbed : s.Undisturbed a)
    (taken : s.step a = some t) : t.Undisturbing := by
  unfold step at taken
  split at taken
  · contradiction
  rename_i goes
  -- a handler that begins is none of the task, which is a chore
  have begins : ∀ code : IoCode, code.reconnects = false → s.io = none →
      Undisturbing { s with io := some code } := fun code calm idle =>
    ⟨kept.running, kept.userStopped, kept.client, fun c among => Option.some.inj among ▸ calm, kept.set, kept.asked,
      kept.queued, fun running => by
        obtain ⟨c, here, -⟩ := kept.task running
        exact absurd (idle.symm.trans here) nofun,
      kept.finished⟩
  cases a with
  | user => exact undisturbing_user kept taken
  | io =>
    obtain ⟨c, running, rfl⟩ := Option.map_eq_some_iff.mp taken
    exact undisturbing_io kept goes running fun entry => undisturbed rfl (entry ▸ running)
  | failed | closed | connected =>
    dsimp only at taken
    split at taken
    · obtain rfl := Option.some.inj taken
      exact begins _ rfl ‹_›
    · contradiction
  | expire =>
    dsimp only at taken
    split at taken
    · obtain rfl := Option.some.inj taken
      exact ⟨kept.running, kept.userStopped, kept.client, kept.io, kept.set, kept.asked,
        fun ahead same => queued_append (kept.queued ahead same), kept.task, kept.finished⟩
    · contradiction
  | take =>
    dsimp only at taken
    split at taken
    · contradiction
    rename_i c rest first
    split at taken
    · rename_i idle
      obtain rfl := Option.some.inj taken
      have calm : ∀ code ∈ some (IoCode.ofChore c), code.reconnects = false := fun code among => by
        obtain rfl := Option.some.inj among
        cases c <;> rfl
      refine ⟨kept.running, kept.userStopped, kept.client, calm, set_same rfl (.inl rfl) kept.set taken_not, kept.asked,
        fun ahead queued => ?_, fun running => ?_, fun ended => ?_⟩
      · have next := kept.queued (ahead + 1) (taken_queued queued)
        rwa [first] at next
      · rcases taken_running running with first' | still
        · have next := kept.queued 0 first'
          rw [first] at next
          obtain rfl : c = .rearm := Option.some.inj next
          exact ⟨.rearm, rfl, rfl⟩
        · obtain ⟨c, here, -⟩ := kept.task still
          exact absurd (idle.symm.trans here) nofun
      · exact absurd (taken_over ended) goes
    · contradiction

theorem undisturbing_ready {finishing : Bool} (gaveUp : GivenUp h) : (ready h finishing).Undisturbing := by
  refine ⟨gaveUp.running, gaveUp.userStopped, gaveUp.client, fun c among => ?_, ⟨gaveUp.shouldReconnect, rfl⟩,
    Nat.zero_le _, nofun, nofun, nofun⟩
  cases finishing with
  | true =>
    obtain rfl := Option.some.inj among
    rfl
  | false => nomatch among

theorem answered_of_undisturbing (kept : s.Undisturbing) : s.Answered := by
  constructor
  · intro returned
    have set := kept.set
    unfold Set at set
    rw [returned] at set
    exact set.2.2.2
  · intro ended
    exact ⟨.inl (kept.finished ended), (set_posted kept.set (by rw [ended]; nofun)).2⟩

/-- However the steps of the two threads follow one another: if no failure that the client reports finds
the flag set before the task has run, the helper retries with its whole budget by then. -/
theorem rearm_rearms (h : Helper) (gaveUp : GivenUp h) (finishing : Bool) (actions : List Action)
    (undisturbed : Runs.Along step Undisturbed (ready h finishing) actions) :
    Runs.Throughout step Answered (ready h finishing) actions :=
  Runs.throughout_of_along (I := Undisturbing) (fun _ _ _ => undisturbing_step) (fun _ => answered_of_undisturbing)
    (undisturbing_ready gaveUp) undisturbed

/-- A client whose attempt was refused reports a second failure when its connect timer is over. -/
example : (Runs.exec Sys.step ({} : Sys) [.call (.onConnect true), .call (.asyncConnect true),
    .kernel (.resolve 0 (.ok 0)), .run, .kernel (.connect 0 (some (.system 111))), .run, .exec, .ret, .advance 10000,
    .expire 0, .run, .exec, .exec, .exec]).map Sys.log =
      some [.connectReport false 255, .ended, .connectReport false 255, .connectCalled] := by
  decide +kernel

def refused : Helper := (({} : Helper).setReconnectConfig 0 1000).start.onConnect false

theorem refused_rearmed :
    Runs.Throughout step Answered (ready refused false) [.failed, .io, .user, .user, .user, .user, .user, .take,
      .io, .io, .io, .io] :=
  rearm_rearms refused ⟨rfl, rfl, rfl, rfl⟩ false _ (by decide)

/-- The connect timer of the refused attempt is over between the compare-exchange and the reset of the
counter: the helper gives up again, and the task finds the flag cleared. -/
theorem expiry_undoes_rearm :
    ¬ ∀ h, GivenUp h → ∀ finishing actions, Runs.Throughout step Answered (ready h finishing) actions := by
  intro claimed
  have run : (Runs.exec step (ready refused false) [.user, .user, .failed, .io, .io, .io, .io, .io, .user, .user, .user,
      .take, .io]).map (fun s => s.task == .finished && s.helper.asked.length == s.asked && s.helper.wait.isNone) =
      some true := by
    decide
  obtain ⟨s, done, idle⟩ := Runs.exec_of_check run
  simp only [Bool.and_eq_true, beq_iff_eq, Option.isNone_iff_eq_none] at idle
  obtain ⟨⟨ended, none⟩, quiet⟩ := idle
  have answered := Runs.throughout_last (claimed refused ⟨rfl, rfl, rfl, rfl⟩ false _) done
  rcases (answered.rearmed ended).1 with asked | waits
  · rw [List.drop_of_length_le (Nat.le_of_eq none)] at asked
    nomatch asked
  · rw [quiet] at waits
    contradiction

end Rearming
end LiteMqtt
