import LiteMqtt.Client.Posting
import LiteMqtt.Connection.Holding

/-!
# Accounts of callbacks

A callback of the user is held by a task, by a write handler or by an entry of a pending map until it is
told. An account adds up what is held and what was told. The loops of `notify_closed_once` tell the entries
of a map one after another and clear it at the end, so an entry that a loop has passed counts for nothing.
-/

namespace LiteMqtt

/-- The user calls for a callback, or it is called. -/
def Event.addresses : Event → Bool
  | .publishCalled _ | .subscribeCalled _ | .published .. | .subscribeReport .. => true
  | _ => false

/-- Some callback goes with the work. -/
def Work.carries : Work → Bool
  | .asyncPublishImpl .. | .reportPublish .. | .asyncSubscribeImpl .. | .reportSubscribe .. | .subackEach ..
  | .subscribeWritten .. | .subscribeFilters .. => true
  | _ => false

def Handler.carries : Handler → Bool
  | .publish0 .. => true
  | _ => false

/-- What a callback counts for in the account of `c`. -/
def Callback.share (callback c : Callback) : Nat := if callback = c then 1 else 0

theorem Callback.share_self (c : Callback) : c.share c = 1 := if_pos rfl

theorem Callback.share_other {callback c : Callback} (other : callback ≠ c) : callback.share c = 0 := if_neg other

structure Account where
  scale : Scale Handler Work
  /-- What each entry of the pending map counts for. -/
  pending : OrderedMap UInt16 PendingPublish → OrderedMap UInt16 PendingSubscribe → List (UInt16 × Nat)
  /-- This loop has told the entry of the packet id. -/
  passed : Work → UInt16 → Bool
  asks : Event → Bool
  tells : Event → Bool
  silent : ∀ e, e.addresses = false → asks e = false ∧ tells e = false
  weightless : ∀ k, k.carries = false → scale.work k = 0
  foreign : ∀ h, h.carries = false → scale.handler h = 0
  loops : ∀ k p, k.topic ≠ some .loop → passed k p = false

namespace Sys

/-- The item in flight that is lost to a write the step starts. -/
def displaced (s : Sys) : Action → Option (WriteItem Handler)
  | .run => s.net.displaced .run
  | .exec => s.net.displaced .resume
  | _ => none

end Sys

/-- A loop of `notify_closed_once` finds that its entry is gone. -/
def Sys.Lapses (s t : Sys) : Prop :=
  ∃ k rest, s.net.stack = .own k :: rest ∧ k.topic = some .loop ∧ t = (s.goesOn rest).crash

namespace Account

variable (A : Account) {s t u : Sys} {n m : Nat}

def passes (s : Sys) (p : UInt16) : Bool := s.net.running.any fun k => A.passed k p

def owing (s : Sys) : Nat :=
  ((A.pending s.pendingPublishes s.pendingSubscribes).map fun e => if A.passes s e.1 then 0 else e.2).sum

/-- What is held and what was told. -/
def total (s : Sys) : Nat := s.net.holds A.scale + A.owing s + s.log.countP A.tells

def given (s : Sys) : Nat := s.log.countP A.asks

def lost (s : Sys) (a : Sys.Action) : Nat := A.scale.items (s.displaced a).toList

/-- From `s` to `t` the account rises by `n`, and nothing new is asked for. -/
structure Gains (n : Nat) (s t : Sys) : Prop where
  total : A.total t = A.total s + n
  given : A.given t = A.given s

theorem Gains.refl (s : Sys) : A.Gains 0 s s := ⟨rfl, rfl⟩

variable {A}

theorem Gains.trans (first : A.Gains n s t) (later : A.Gains m t u) : A.Gains (n + m) s u :=
  ⟨by rw [later.total, first.total, Nat.add_assoc], later.given.trans first.given⟩

theorem Gains.after (first : A.Gains 0 s t) (later : A.Gains n t u) : A.Gains n s u :=
  ⟨by rw [later.total, first.total, Nat.add_zero], later.given.trans first.given⟩

theorem passes_of_running (running : t.net.running = s.net.running) : A.passes t = A.passes s := by
  funext p
  rw [passes, running]
  rfl

theorem owing_of_same (publishes : t.pendingPublishes = s.pendingPublishes)
    (subscribes : t.pendingSubscribes = s.pendingSubscribes) (passes : A.passes t = A.passes s) :
    A.owing t = A.owing s := by
  rw [owing, publishes, subscribes, passes]
  rfl

/-- Only what is held in the connection changes. -/
theorem gains_of_net (holds : t.net.holds A.scale = s.net.holds A.scale + n)
    (publishes : t.pendingPublishes = s.pendingPublishes) (subscribes : t.pendingSubscribes = s.pendingSubscribes)
    (passes : A.passes t = A.passes s) (log : t.log = s.log) : A.Gains n s t := by
  refine ⟨?_, by rw [given, log]; rfl⟩
  rw [total, holds, owing_of_same publishes subscribes passes, log, total]
  omega

theorem gains_record (e : Event) (silent : A.asks e = false) :
    A.Gains (if A.tells e then 1 else 0) s (s.record e) := by
  refine ⟨?_, ?_⟩
  · change s.net.holds A.scale + A.owing s + (e :: s.log).countP A.tells = _
    rw [List.countP_cons, total, Nat.add_assoc _ _ (ite _ _ _)]
  · change (e :: s.log).countP A.asks = _
    rw [List.countP_cons_of_neg (by simp [silent]), given]

/-- An event that is about no callback. -/
theorem gains_note {e : Event} (other : e.addresses = false) : A.Gains 0 s (s.record e) := by
  have recorded := gains_record (A := A) (s := s) e (A.silent e other).1
  rw [(A.silent e other).2] at recorded
  exact recorded

theorem passes_push {k : Work} (stays : ∀ p, A.passed k p = false) : A.passes (s.push [k]) = A.passes s := by
  funext p
  change (k :: s.net.running).any (fun k => A.passed k p) = _
  rw [List.any_cons, stays]
  rfl

theorem gains_push {k : Work} (stays : ∀ p, A.passed k p = false) : A.Gains (A.scale.work k) s (s.push [k]) := by
  refine gains_of_net ?_ rfl rfl (passes_push stays) rfl
  exact (Net.holds_push A.scale s.net [.own k]).trans (by simp [Scale.entry])

theorem gains_call {k : Work} (other : k.carries = false) (steady : k.topic ≠ some .loop) :
    A.Gains 0 s (s.push [k]) :=
  A.weightless k other ▸ gains_push fun p => A.loops k p steady

theorem gains_post (s : Sys) (k : Work) : A.Gains (A.scale.work k) s (s.post k) :=
  gains_of_net (Net.holds_post A.scale s.net (.own k)) rfl rfl rfl rfl

theorem gains_write (s : Sys) (packet : Packet) (h : Handler) : A.Gains (A.scale.handler h) s (s.write packet h) := by
  have sent : A.Gains (A.scale.handler h) s { s with net := s.net.asyncWritePacket packet.serialize (some h) } :=
    gains_of_net (Net.holds_asyncWritePacket A.scale s.net _ h) rfl rfl rfl rfl
  exact sent.trans (gains_note rfl)

theorem holds_cancelTimer (s : Sys) (timer : Nat) : (s.cancelTimer timer).net.holds A.scale = s.net.holds A.scale := by
  have weightless : ∀ waits : List Wait,
      A.scale.tasks (waits.map fun w => .own (.timer w.handler (some .operationAborted))) = 0 := by
    intro waits
    induction waits with
    | nil => rfl
    | cons w waits ih =>
      rw [List.map_cons, Scale.tasks_cons, ih]
      exact A.weightless _ rfl
  simp only [Net.holds, Sys.cancelTimer, Scale.tasks_append, weightless, Nat.add_zero]

theorem holds_cancelTimers (s : Sys) (timers : List Nat) :
    (s.cancelTimers timers).net.holds A.scale = s.net.holds A.scale := by
  induction timers generalizing s with
  | nil => rfl
  | cons timer timers ih => exact (ih _).trans (holds_cancelTimer s timer)

theorem gains_cancelTimer (s : Sys) (timer : Nat) : A.Gains 0 s (s.cancelTimer timer) :=
  gains_of_net (holds_cancelTimer s timer) rfl rfl rfl rfl

theorem gains_armTimer (s : Sys) (timer after : Nat) (h : TimerHandler) : A.Gains 0 s (s.armTimer timer after h) :=
  (gains_cancelTimer s timer).after (gains_of_net rfl rfl rfl rfl rfl)

theorem gains_closeConnection (s : Sys) : A.Gains 0 s s.closeConnection := by
  have running := (Sys.closeConnection_tame s).running
  unfold Sys.closeConnection at running ⊢
  split
  · exact .refl A s
  · rename_i opened
    rw [if_neg opened] at running
    have shut : A.Gains 0 s { s with net := s.net.close } :=
      gains_of_net (Net.holds_close A.scale s.net) rfl rfl (passes_of_running running) rfl
    exact shut.trans (gains_note rfl)

theorem gains_asyncConnect (s : Sys) (callback : Bool) : A.Gains 0 s (s.asyncConnect callback) := by
  let u := { s with onConnectCb := s.onConnectCb || callback, closed := false, attempts := s.attempts + 1 }
  have begun : A.Gains 0 s u := gains_of_net rfl rfl rfl rfl rfl
  have called : A.Gains 0 s (u.record .connectCalled) := begun.after (gains_note rfl)
  have dialed : ∀ (v : Sys) (h : Handler), A.Gains 0 v { v with net := v.net.asyncConnect h } :=
    fun v h => gains_of_net rfl rfl rfl rfl rfl
  unfold Sys.asyncConnect
  dsimp only
  split
  · exact called.after ((gains_armTimer _ _ _ _).after (dialed _ _))
  · exact called.after (dialed _ _)

theorem gains_reportConnect (s : Sys) (ok : Bool) (rc : UInt8) : A.Gains 0 s (s.reportConnect ok rc) := by
  unfold Sys.reportConnect
  split
  · exact (gains_note rfl).after (gains_call rfl nofun)
  · exact .refl A s

theorem gains_onConnect (s : Sys) (attempt : Nat) (ec : ErrorCode) : A.Gains 0 s (s.onConnect attempt ec) := by
  unfold Sys.onConnect
  split
  · exact .refl A s
  · split
    · exact gains_reportConnect s _ _
    · exact A.foreign (.connectWrite attempt) rfl ▸ gains_write s _ _

theorem gains_setClosed (s : Sys) : A.Gains 0 s { s with closed := true } := gains_of_net rfl rfl rfl rfl rfl

theorem gains_handleConnectTimeout (s : Sys) : A.Gains 0 s s.handleConnectTimeout := by
  unfold Sys.handleConnectTimeout
  split
  · exact .refl A s
  · exact (gains_setClosed s).after
      ((gains_call (k := .reportConnect false 255) rfl nofun).after (gains_closeConnection _))

theorem gains_handleConnack (s : Sys) (data : Bytes) : A.Gains 0 s (s.handleConnack data) := by
  let u := (s.cancelTimer Sys.connectTimer).record (.received .connack 0 [(ConnackPacket.parse data).returnCode])
  have received : A.Gains 0 s u := (gains_cancelTimer s _).after (gains_note rfl)
  have accepted : A.Gains 0 u { u with net := u.net.markConnected, closed := false } :=
    gains_of_net rfl rfl rfl rfl rfl
  unfold Sys.handleConnack
  dsimp only
  split
  · exact received.after (accepted.after (gains_call (k := .reportConnect true 0) rfl nofun))
  · exact received.after
      ((gains_setClosed u).after ((gains_call (k := .reportConnect false _) rfl nofun).after (gains_closeConnection _)))

/-! ### Code that leaves the account alone -/

/-- The effect neither takes a callback in nor tells one. -/
def Light (A : Account) : Effect → Prop
  | .record e => A.asks e = false ∧ A.tells e = false
  | .push k => A.scale.work k = 0 ∧ ∀ p, A.passed k p = false
  | .post k => A.scale.work k = 0
  | .write _ h => A.scale.handler h = 0
  | .setPublishes _ => ∀ publishes others subscribes, A.pending publishes subscribes = A.pending others subscribes
  | .setSubscribes _ => ∀ publishes subscribes others, A.pending publishes subscribes = A.pending publishes others
  | _ => True

theorem gains_apply {e : Effect} (light : A.Light e) : A.Gains 0 s (s.apply e) := by
  have moved : ∀ {t : Sys}, t.net = s.net → A.pending t.pendingPublishes t.pendingSubscribes =
      A.pending s.pendingPublishes s.pendingSubscribes → t.log = s.log → A.Gains 0 s t := by
    intro t net same log
    refine ⟨?_, by rw [given, log]; rfl⟩
    rw [total, net, owing, same, passes_of_running (congrArg Net.running net), log]
    rfl
  cases e with
  | record e =>
    have recorded := gains_record (A := A) (s := s) e light.1
    rw [light.2] at recorded
    exact recorded
  | push k => exact light.1 ▸ gains_push light.2
  | post k => exact Eq.mp (congrArg (fun n => A.Gains n s (s.post k)) light) (gains_post s k)
  | write packet h => exact Eq.mp (congrArg (fun n => A.Gains n s (s.write packet h)) light) (gains_write s packet h)
  | closeConnection => exact gains_closeConnection s
  | cancelTimer timer => exact gains_cancelTimer s timer
  | startReadLoop attempt =>
    exact gains_of_net (Net.holds_asyncReadPacket A.scale s.net _) rfl rfl
      (passes_of_running (Net.tame_asyncReadPacket s.net _).running) rfl
  | asyncConnect callback => exact gains_asyncConnect s callback
  | setPublishes entries => exact moved rfl (light _ _ _) rfl
  | setSubscribes entries => exact moved rfl (light _ _ _) rfl
  | _ => exact gains_of_net rfl rfl rfl rfl rfl

theorem gains_does {topics : List Topic} (light : ∀ e : Effect, e.within topics = true → A.Light e)
    (does : Sys.Does topics s t) : A.Gains 0 s t := by
  induction does with
  | refl => exact .refl A s
  | tail _ last ih =>
    obtain ⟨e, inside, rfl⟩ := last
    exact ih.after (gains_apply (light e inside))

/-! ### Steps -/

theorem passes_goesOn {entry : StackEntry Handler Work} {rest : List (StackEntry Handler Work)}
    (front : s.net.stack = entry :: rest) (stays : ∀ k, entry.own? = some k → ∀ p, A.passed k p = false) :
    A.passes (s.goesOn rest) = A.passes s := by
  funext p
  unfold passes Net.running
  rw [front, List.filterMap_cons]
  cases own : entry.own? with
  | none => rfl
  | some k =>
    dsimp only
    rw [List.any_cons, stays k own]
    rfl

theorem holds_goesOn {entry : StackEntry Handler Work} {rest : List (StackEntry Handler Work)}
    (front : s.net.stack = entry :: rest) :
    s.net.holds A.scale = (s.goesOn rest).net.holds A.scale + A.scale.entry entry := by
  simp only [Net.holds, Sys.goesOn, front, Scale.entries_cons]
  omega

/-- A frame is taken off the stack, and with it what it held. -/
theorem total_goesOn {entry : StackEntry Handler Work} {rest : List (StackEntry Handler Work)}
    (front : s.net.stack = entry :: rest) (stays : ∀ k, entry.own? = some k → ∀ p, A.passed k p = false) :
    A.total s = A.total (s.goesOn rest) + A.scale.entry entry := by
  rw [total, holds_goesOn front, total, owing_of_same (s := s) (t := s.goesOn rest) rfl rfl (passes_goesOn front stays)]
  change _ = _ + (s.log.countP A.tells) + _
  omega

/-! ### The loops -/

theorem passes_front {k : Work} {rest : List (StackEntry Handler Work)} (front : s.net.stack = .own k :: rest)
    (q : UInt16) : A.passes s q = (A.passed k q || A.passes (s.goesOn rest) q) := by
  unfold passes
  rw [Sys.goesOn_running front, List.any_cons]

/-- Only the place of the loop changes. -/
theorem gains_move (holds : t.net.holds A.scale = s.net.holds A.scale) (owing : A.owing t = A.owing s)
    (log : t.log = s.log) : A.Gains 0 s t :=
  ⟨by rw [total, total, holds, owing, log]; rfl, by rw [given, given, log]⟩

theorem holds_front {k : Work} {rest : List (StackEntry Handler Work)} (front : s.net.stack = .own k :: rest)
    (bare : k.carries = false) : (s.goesOn rest).net.holds A.scale = s.net.holds A.scale := by
  rw [holds_goesOn front, Scale.entry, A.weightless k bare]
  rfl

theorem holds_call {k : Work} (bare : k.carries = false) (v : Sys) :
    (v.push [k]).net.holds A.scale = v.net.holds A.scale := by
  refine (Net.holds_push _ v.net [.own k]).trans ?_
  rw [Scale.entries_cons, Scale.entry, A.weightless k bare]
  rfl

/-- A loop that is not about the account is entered. -/
theorem gains_turn {k : Work} (apart : A.scale.work k = 0) (stays : ∀ p, A.passed k p = false) (v : Sys) :
    A.Gains 0 v (v.push [k]) :=
  Eq.mp (congrArg (fun n => A.Gains n v (v.push [k])) apart) (gains_push stays)

/-- Where no code of the client runs, only a displaced item is lost. -/
theorem total_bare {a : Sys.Action} (posting : s.Posting) (bare : s.Bare a t) :
    A.total t + A.lost s a = A.total s ∧ A.given t = A.given s := by
  have same : ∀ {u : Sys}, u.net.holds A.scale + A.lost s a = s.net.holds A.scale →
      u.pendingPublishes = s.pendingPublishes → u.pendingSubscribes = s.pendingSubscribes →
      A.passes u = A.passes s → u.log = s.log → A.total u + A.lost s a = A.total s ∧ A.given u = A.given s := by
    intro u holds publishes subscribes passes log
    refine ⟨?_, by rw [given, log]; rfl⟩
    rw [total, total, owing_of_same publishes subscribes passes, log, ← holds]
    omega
  cases bare with
  | run n ran =>
    refine same (Net.holds_run A.scale ran) rfl rfl ?_ rfl
    obtain ⟨idle, task, tail, ready, rfl⟩ := Net.run_cases ran
    have running := (Net.runTask_ran (s.net.leaving tail) task).running
    have quiet : s.net.running = [] := by rw [Net.running, idle]; rfl
    have same : (s.net.leaving tail).running = [] := quiet
    rw [same, List.append_nil] at running
    funext p
    unfold passes
    rw [quiet]
    change ((s.net.leaving tail).runTask task).running.any _ = _
    rw [running]
    cases task with
    | own k =>
      have posted : k ∈ s.net.posted := by rw [Net.posted, ready]; exact .head _
      have steady : k.topic ≠ some .loop := by
        have := posting.posted k posted
        cases k <;> first | contradiction | simp [Work.topic]
      simp [Task.own?, A.loops k p steady]
    | _ => rfl
  | afterWrite ec rest front =>
    have running := (Net.tame_afterWrite (s.goesOn rest).net ec).running
    refine same ?_ rfl rfl ?_ rfl
    · rw [holds_goesOn front]
      have goes := Net.holds_afterWrite A.scale (s.goesOn rest).net ec
      rw [← goes, lost, Sys.displaced, Net.displaced, front]
      cases ec <;> rfl
    · exact (passes_of_running (s := s.goesOn rest) running).trans (passes_goesOn front (fun _ own => by cases own))
  | closeHandler rest front =>
    refine same ?_ rfl rfl ?_ rfl
    · rw [holds_goesOn front, Net.holds_push]
      have weightless : A.scale.entries (s.net.closeHandler.toList.map fun h => .invoke (.closed h)) = 0 := by
        cases s.net.closeHandler <;> rfl
      rw [weightless, lost, Sys.displaced, Net.displaced, front]
      rfl
    · refine (passes_of_running (s := s.goesOn rest) ?_).trans (passes_goesOn front (fun _ own => by cases own))
      cases closing : s.net.closeHandler <;> rfl
  | kernel event n moved =>
    refine same (Net.holds_kernel A.scale moved) rfl rfl (passes_of_running ?_) rfl
    rw [Net.running, Net.kernel_stack moved]
    rfl
  | expire index w waiting due =>
    refine same ?_ rfl rfl rfl rfl
    exact (Net.holds_post A.scale s.net _).trans (by rw [Scale.task, A.weightless _ rfl]; rfl)
  | advance ms => exact same rfl rfl rfl rfl rfl

end Account
end LiteMqtt
