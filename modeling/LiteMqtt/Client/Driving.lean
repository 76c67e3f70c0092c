import LiteMqtt.Client.Looping
import LiteMqtt.Connection.Outstanding

/-!
# A client that is not closed goes on

As long as `closed_` is not set, the connection owes the client a call that takes it on: of a connect, of
a read, or of the handler of a CONNECT. The code that sets `closed_` is followed by a report to the user.
-/

namespace LiteMqtt
namespace Sys

variable {s t u : Sys} {topics : List Topic}

/-- The calls after which the client goes on, or says why not. -/
def drives : Debt Handler Work → Prop
  | .connect (.connect _) | .read (.read _) | .own .notifyClosedOnce | .own (.startReadLoop _) => True
  | _ => False

def greets : Handler → Prop
  | .connectWrite _ => True
  | _ => False

/-- The code that ends with a failure reported to the user. -/
def tells : Work → Prop
  | .publishEach _ | .publishCancel _ | .publishClear | .subscribeEach _ | .subscribeFilters .. | .subscribeClear
  | .notifyClose | .reportConnect false _ => True
  | _ => False

def Awake (s : Sys) : Prop :=
  (∃ k, tells k ∧ .own k ∈ s.net.stack) ∨ s.closed = false ∧ s.net.Moves drives greets

/-- The step reports a failed connect or the end of the session. -/
def Told (s t : Sys) : Prop :=
  ∃ e, t.log = e :: s.log ∧ (e = .closeReport ∨ ∃ returnCode, e = .connectReport false returnCode)

/-! ### Connects and reads are the client's -/

def proper : Debt Handler Work → Prop
  | .connect h => ∃ i, h = .connect i
  | .read h => ∃ i, h = .read i
  | _ => True

def Proper (n : Net Handler Work) : Prop := ∀ p, n.Owes p → proper p

theorem owes_tasks (n : Net Handler Work) (tasks : List (Task Handler Work)) (p : Debt Handler Work) :
    ({ n with ready := n.ready ++ tasks } : Net Handler Work).Owes p ↔ n.Owes p ∨
      ∃ task ∈ tasks, task.debt? = some p := by
  simp only [Net.Owes, List.mem_append]
  grind

theorem owed_cancelTimer {p : Debt Handler Work} (s : Sys) (timer : Nat) (owes : (s.cancelTimer timer).net.Owes p) :
    s.net.Owes p ∨ ∃ k, p = .own k := by
  refine ((owes_tasks s.net _ p).mp owes).imp_right fun ⟨task, among, owed⟩ => ?_
  obtain ⟨w, -, rfl⟩ := List.mem_map.mp among
  exact ⟨_, (Option.some.inj owed).symm⟩

theorem proper_cancelTimer (timer : Nat) (only : Proper s.net) : Proper (s.cancelTimer timer).net := by
  intro p owes
  rcases owed_cancelTimer s timer owes with before | ⟨k, rfl⟩
  · exact only p before
  · trivial

theorem proper_asyncConnect (callback : Bool) (only : Proper s.net) : Proper (s.asyncConnect callback).net := by
  obtain ⟨u, which, net⟩ := asyncConnect_net s callback
  have before : Proper u.net := by
    rcases which with rfl | rfl
    · exact only
    · exact proper_cancelTimer connectTimer only
  rw [net]
  rintro p (⟨h, among, rfl⟩ | others)
  · rcases List.mem_append.mp among with old | new
    · exact before _ (.inl ⟨h, old, rfl⟩)
    · exact ⟨_, List.mem_singleton.mp new⟩
  · exact before p (.inr others)

theorem proper_apply (e : Effect) (only : Proper s.net) : Proper (s.apply e).net := by
  cases e with
  | push k =>
    intro p owes
    rcases (Net.owes_push _).mp owes with before | ⟨entry, among, owed⟩
    · exact only p before
    · obtain rfl := List.mem_singleton.mp among
      obtain rfl := Option.some.inj owed
      trivial
  | post k =>
    intro p owes
    rcases (Net.owes_post _).mp owes with before | owed
    · exact only p before
    · obtain rfl := Option.some.inj owed
      trivial
  | write packet handler =>
    intro p owes
    rcases (Net.owes_post _).mp owes with before | owed
    · exact only p before
    · obtain rfl := Option.some.inj owed
      trivial
  | closeConnection =>
    intro p owes
    refine only p ?_
    change (s.closeConnection).net.Owes p at owes
    unfold closeConnection at owes
    split at owes
    · exact owes
    · exact Net.owes_close.mp owes
  | cancelTimer timer => exact proper_cancelTimer timer only
  | startReadLoop attempt =>
    intro p owes
    rcases Net.owed_asyncReadPacket _ owes with before | rfl
    · exact only p before
    · exact ⟨attempt, rfl⟩
  | asyncConnect callback => exact proper_asyncConnect callback only
  | _ => exact only

theorem proper_does (does : Does topics s t) (only : Proper s.net) : Proper t.net :=
  does.keeps (I := fun u => Proper u.net) (fun _ e _ => proper_apply e) only

theorem owed_popped {n : Net Handler Work} {entry : StackEntry Handler Work} {rest : List (StackEntry Handler Work)}
    (front : n.stack = entry :: rest) (only : Proper n) : Proper { n with stack := rest } :=
  fun p owes => only p ((Net.owes_popped front).mpr (.inl owes))

theorem proper_step {a : Action} (only : Proper s.net) (taken : s.step a = some t) : Proper t.net := by
  cases (steps taken).2 with
  | run n ran => exact fun p owes => only p (Net.owed_run ran owes)
  | work k rest front busy => exact proper_does (does_execute _ k) (owed_popped front only)
  | invoke call rest front =>
    refine proper_does (does_onInvoke _ call) ?_
    have popped := owed_popped front only
    cases call <;> exact popped
  | afterWrite ec rest front => exact fun p owes => owed_popped front only p (Net.owed_afterWrite owes)
  | closeHandler rest front =>
    intro p owes
    rcases (Net.owes_push _).mp owes with before | ⟨entry, among, owed⟩
    · exact owed_popped front only p before
    · obtain ⟨h, -, rfl⟩ := List.mem_map.mp among
      contradiction
  | ret rest front => exact owed_popped front only
  | call c allowed => exact proper_does (does_call s c) only
  | kernel event n moved => exact fun p owes => only p (Net.owed_kernel moved owes)
  | expire index w waiting due =>
    intro p owes
    rcases (Net.owes_post _).mp owes with before | owed
    · exact only p before
    · obtain rfl := Option.some.inj owed
      trivial
  | advance ms => exact only

/-! ### What is outstanding -/

theorem sustained_exec {n m : Net Handler Work} {actions : List (Net.Action Handler Work)} (h : n.Sustained)
    (done : Runs.exec Net.step n actions = some m) : m.Sustained :=
  have reached : Runs.Reaches Net.step Runs.Any n m := Runs.exec_reaches done (Runs.along_any actions)
  reached.invariant h fun _ _ _ held _ => Net.sustained_step held

theorem sustained_does (does : Does topics s t) (h : s.net.Sustained) : t.net.Sustained := by
  obtain ⟨actions, done⟩ := does_drives does
  exact sustained_exec h done

theorem sustained_step {a : Action} (h : s.net.Sustained) (taken : s.step a = some t) : t.net.Sustained := by
  obtain ⟨actions, done⟩ := step_drives taken
  exact sustained_exec h done

/-- What holds of every client whose user calls only the functions for any thread. -/
structure Grounded (s : Sys) : Prop where
  sustained : s.net.Sustained
  only : Proper s.net
  looping : s.Looping
  chained : Chained s.net.stack
  posting : s.Posting

theorem grounded_step {a : Action} (h : s.Grounded) (taken : s.step a = some t) (inside : ∀ c, a ≠ .call c) :
    t.Grounded :=
  ⟨sustained_step h.sustained taken, proper_step h.only taken, looping_step h.posting h.looping taken inside,
    chained_step h.posting h.chained taken inside, posting_step h.posting taken⟩

/-- Code ran that leaves the stack and the maps alone. -/
theorem grounded_does (h : s.Grounded) (does : Does topics s t) (stack : t.net.stack = s.net.stack)
    (publishes : t.pendingPublishes = s.pendingPublishes) (subscribes : t.pendingSubscribes = s.pendingSubscribes) :
    t.Grounded :=
  ⟨sustained_does does h.sustained, proper_does does h.only, looping_of_same h.looping stack publishes subscribes,
    stack ▸ h.chained, h.posting.of_left (posted_does does h.posting.posted) stack⟩

/-! ### Effects -/

theorem quiet_cancelTimer (s : Sys) (timer : Nat) : Net.Quiet s.net (s.cancelTimer timer).net := by
  refine Net.quiet_of_tasks _ (fun p owed => (owes_tasks s.net _ p).mpr (.inl owed)) rfl rfl rfl rfl rfl
    fun ec among => ?_
  obtain ⟨w, -, same⟩ := List.mem_map.mp among
  contradiction

theorem quiet_closeConnection (s : Sys) : Net.Quiet s.net s.closeConnection.net := by
  unfold closeConnection
  split
  · exact .refl _
  · exact Net.quiet_close s.net

theorem quiet_apply {e : Effect} (inside : e.within topics = true) (connect : Topic.connect ∉ topics) :
    Net.Quiet s.net (s.apply e).net := by
  cases e with
  | push k => exact Net.quiet_push _
  | post k => exact Net.quiet_post rfl
  | write packet handler => exact Net.quiet_asyncWritePacket _ _ _
  | closeConnection => exact quiet_closeConnection s
  | cancelTimer timer => exact quiet_cancelTimer s timer
  | startReadLoop attempt => exact Net.quiet_asyncReadPacket _ _
  | asyncConnect callback => exact absurd rfl (Effect.topic_of_within inside connect)
  | accept => exact absurd rfl (Effect.topic_of_within inside connect)
  | _ => exact .refl _

theorem closed_kept {e : Effect} (inside : e.within topics = true) (connect : Topic.connect ∉ topics)
    (session : Topic.session ∉ topics) : (s.apply e).closed = s.closed := by
  cases e with
  | closeConnection =>
    change s.closeConnection.closed = s.closed
    unfold closeConnection
    split <;> rfl
  | asyncConnect callback => exact absurd rfl (Effect.topic_of_within inside connect)
  | accept => exact absurd rfl (Effect.topic_of_within inside connect)
  | setClosed => exact absurd rfl (Effect.topic_of_within inside session)
  | _ => rfl

/-- Code that is about neither connects nor the end of a session. -/
theorem quiet_does (does : Does topics s t) (connect : Topic.connect ∉ topics) (session : Topic.session ∉ topics) :
    Net.Quiet s.net t.net ∧ t.closed = s.closed := by
  induction does with
  | refl => exact ⟨.refl _, rfl⟩
  | tail _ last ih =>
    obtain ⟨e, inside, rfl⟩ := last
    exact ⟨ih.1.trans (quiet_apply inside connect), (closed_kept inside connect session).trans ih.2⟩

theorem telling_grows {k : Work} (grows : Grows topics s t) (telling : tells k ∧ .own k ∈ s.net.stack) :
    ∃ k, tells k ∧ .own k ∈ t.net.stack := by
  obtain ⟨new, same, -⟩ := grows
  exact ⟨k, telling.1, by rw [same]; exact List.mem_append_right _ telling.2⟩

theorem awake_does (does : Does topics s t) (connect : Topic.connect ∉ topics) (session : Topic.session ∉ topics)
    (awake : s.Awake) : t.Awake := by
  obtain ⟨quiet, closed⟩ := quiet_does does connect session
  rcases awake with ⟨k, telling⟩ | ⟨opened, moves⟩
  · exact .inl (telling_grows (grows_does does) telling)
  · exact .inr ⟨closed.trans opened, moves.quiet quiet⟩

/-! ### A piece of code is taken off the stack -/

variable {entry : StackEntry Handler Work} {rest : List (StackEntry Handler Work)}

/-- A call that takes the client nowhere is taken off the stack. -/
theorem moves_popped {n : Net Handler Work} (front : n.stack = entry :: rest)
    (idle : ∀ p, entry.debt? = some p → ¬ drives p ∧ ∀ h, p = .write h → ¬ greets h) (moves : n.Moves drives greets) :
    ({ n with stack := rest } : Net Handler Work).Moves drives greets := by
  have kept : (∃ p, drives p ∧ n.Owes p) → ∃ p, drives p ∧ ({ n with stack := rest } : Net Handler Work).Owes p :=
    Net.owes_all fun p drive owed => ((Net.owes_popped front).mp owed).resolve_right fun mine => (idle p mine).1 drive
  refine ⟨moves.on.imp kept ?_, fun able hazard => (moves.safe able hazard).imp kept id⟩
  rintro ⟨h, greet, owed⟩
  exact ⟨h, greet, ((Net.owes_popped front).mp owed).resolve_right fun mine => (idle _ mine).2 h rfl greet⟩

theorem awake_popped (front : s.net.stack = entry :: rest)
    (idle : ∀ p, entry.debt? = some p → ¬ drives p ∧ ∀ h, p = .write h → ¬ greets h)
    (mute : ∀ k, entry = .own k → ¬ tells k) (awake : s.Awake) : (s.goesOn rest).Awake := by
  rcases awake with ⟨k, telling, among⟩ | ⟨opened, moves⟩
  · rw [front] at among
    exact .inl ⟨k, telling, (List.mem_cons.mp among).resolve_left fun same => mute k same.symm telling⟩
  · exact .inr ⟨opened, moves_popped front idle moves⟩

/-- Code of the client that is none of these is taken off the stack. -/
theorem awake_left {k : Work} (front : s.net.stack = .own k :: rest) (idle : ¬ drives (.own k)) (mute : ¬ tells k)
    (awake : s.Awake) : (s.goesOn rest).Awake := by
  refine awake_popped front (fun p same => ?_) (fun other same => StackEntry.own.inj same ▸ mute) awake
  obtain rfl := Option.some.inj same
  exact ⟨idle, nofun⟩

/-- Once it is closed, a report is on its way below. -/
theorem telling_below (front : s.net.stack = entry :: rest) (mute : ∀ k, entry = .own k → ¬ tells k)
    (closed : s.closed = true) (awake : s.Awake) : (s.goesOn rest).Awake := by
  rcases awake with ⟨k, telling, among⟩ | ⟨opened, -⟩
  · rw [front] at among
    exact .inl ⟨k, telling, (List.mem_cons.mp among).resolve_left fun same => mute k same.symm telling⟩
  · exact absurd (closed.symm.trans opened) nofun

theorem awake_tells {k : Work} (telling : tells k) (among : .own k ∈ t.net.stack) : t.Awake := .inl ⟨k, telling, among⟩

theorem awake_drives {p : Debt Handler Work} (opened : t.closed = false) (drive : drives p) (owed : t.net.Owes p) :
    t.Awake := .inr ⟨opened, Net.moves_of_drives drive owed⟩

theorem owes_stack {k : Work} (among : .own k ∈ t.net.stack) : t.net.Owes (.own k) := Net.owes_own.mpr (.inr among)

/-! ### Each piece of code -/

theorem awake_reading (sustained : s.net.Sustained) (only : Proper s.net) (opened : s.closed = false) (attempt : Nat) :
    (s.startReadLoop attempt).Awake := by
  obtain ⟨h, reads⟩ := Net.reads_asyncReadPacket sustained (.read attempt)
  have owed : (s.startReadLoop attempt).net.Owes (.read h) := Net.owes_reads reads
  obtain ⟨i, rfl⟩ := proper_apply (.startReadLoop attempt) only _ owed
  exact awake_drives opened (p := .read (.read i)) trivial owed

theorem awake_startReadLoop (sustained : s.net.Sustained) (only : Proper s.net) (attempt : Nat)
    (telling : s.closed = true → s.Awake) : (s.startReadLoop attempt).Awake := by
  cases opened : s.closed with
  | false => exact awake_reading sustained only opened attempt
  | true =>
    have inside : Effect.within [] (.startReadLoop attempt) = true := rfl
    exact awake_does (does_one _ inside) List.not_mem_nil List.not_mem_nil (telling opened)

theorem awake_notifyClosedOnce (telling : s.closed = true → s.Awake) : s.notifyClosedOnce.Awake := by
  unfold notifyClosedOnce
  split
  · rename_i closed
    exact telling closed
  · dsimp only
    split
    · rename_i p _
      exact awake_tells (k := .publishEach p) trivial (.head _)
    · exact awake_tells (k := .publishClear) trivial (.head _)

theorem awake_publishEach {p : UInt16} (iterates : s.pendingPublishes.contains p = true) : (s.publishEach p).Awake := by
  obtain ⟨entry, found⟩ := Option.isSome_iff_exists.mp iterates
  unfold publishEach
  rw [found]
  obtain ⟨users, stack, -⟩ := tellPublish_on (s.push [.publishCancel p]) entry.callback false entry.topic entry.qos p
  refine awake_tells (k := .publishCancel p) trivial ?_
  rw [stack]
  exact List.mem_append_right _ (.head _)

theorem awake_publishCancel {p : UInt16} (iterates : s.pendingPublishes.contains p = true) :
    (s.publishCancel p).Awake := by
  obtain ⟨entry, found⟩ := Option.isSome_iff_exists.mp iterates
  unfold publishCancel
  rw [found]
  dsimp only
  split
  · rename_i next _
    exact awake_tells (k := .publishEach next) trivial (.head _)
  · exact awake_tells (k := .publishClear) trivial (.head _)

theorem awake_publishClear (s : Sys) : s.publishClear.Awake := by
  unfold publishClear
  dsimp only
  split
  · rename_i p _
    exact awake_tells (k := .subscribeEach p) trivial (.head _)
  · exact awake_tells (k := .subscribeClear) trivial (.head _)

theorem awake_subscribeEach {p : UInt16} (iterates : s.pendingSubscribes.contains p = true) :
    (s.subscribeEach p).Awake := by
  obtain ⟨entry, found⟩ := Option.isSome_iff_exists.mp iterates
  unfold subscribeEach
  rw [found]
  exact awake_tells (k := .subscribeFilters p _ _) trivial (.head _)

theorem awake_subscribeFilters {p : UInt16} (callback : Callback) (filters : List (Bytes × UInt8))
    (iterates : s.pendingSubscribes.contains p = true) : (s.subscribeFilters p callback filters).Awake := by
  unfold subscribeFilters
  rw [if_pos iterates]
  cases filters with
  | cons first rest =>
    obtain ⟨users, stack, -⟩ := tellSubscribe_on (s.push [.subscribeFilters p callback rest]) callback false first.1 0
    refine awake_tells (k := .subscribeFilters p callback rest) trivial ?_
    rw [stack]
    exact List.mem_append_right _ (.head _)
  | nil =>
    dsimp only
    split
    · rename_i next _
      exact awake_tells (k := .subscribeEach next) trivial (.head _)
    · exact awake_tells (k := .subscribeClear) trivial (.head _)

/-- What was put on the stack is still there once the connection is closed. -/
theorem awake_closed {k : Work} (telling : tells k) (among : .own k ∈ s.net.stack) : s.closeConnection.Awake := by
  have grows : Grows [] s s.closeConnection := grows_closeConnection s
  obtain ⟨other, telling, among⟩ := telling_grows grows ⟨telling, among⟩
  exact awake_tells telling among

theorem awake_subscribeClear (s : Sys) : s.subscribeClear.Awake := awake_closed (k := .notifyClose) trivial (.head _)

theorem awake_handleConnectTimeout (telling : s.closed = true → s.Awake) : s.handleConnectTimeout.Awake := by
  unfold handleConnectTimeout
  split
  · rename_i closed
    exact telling closed
  · exact awake_closed (k := .reportConnect false 255) trivial (.head _)

/-- An accepted CONNACK is read by the loop that goes on below. -/
theorem awake_handleConnack (data : Bytes) {i : Nat} (below : .own (.startReadLoop i) ∈ s.net.stack) :
    (s.handleConnack data).Awake := by
  unfold handleConnack
  dsimp only
  split
  · exact awake_drives rfl (p := .own (.startReadLoop i)) trivial (owes_stack (.tail _ below))
  · exact awake_closed (k := .reportConnect false _) trivial (.head _)

theorem awake_handlePacket (attempt : Nat) (data : Bytes) {i : Nat} (below : .own (.startReadLoop i) ∈ s.net.stack)
    (awake : s.Awake) : (s.handlePacket attempt data).Awake := by
  have does := does_handlePacket s attempt data
  cases data with
  | nil => exact awake
  | cons byte rest =>
    unfold packetTopics at does
    unfold handlePacket at does ⊢
    dsimp only at does ⊢
    cases type : PacketType.ofUint8 (byte >>> 4) <;> simp only [type] at does ⊢
    case connack => exact awake_handleConnack _ below
    all_goals exact awake_does does (by decide) (by decide) awake

theorem awake_work {k : Work} (front : s.net.stack = .own k :: rest) (busy : k ≠ .user) (grounded : s.Grounded)
    (connects : s.onConnectCb = true) (closes : s.onCloseCb = true) (awake : s.Awake) :
    ((s.goesOn rest).execute k).Awake ∨ s.Told ((s.goesOn rest).execute k) := by
  have iterates := (grounded.looping.front front fun same => busy (StackEntry.own.inj same)).2 k rfl
  have left : ¬ drives (.own k) → ¬ tells k → (s.goesOn rest).Awake := fun idle mute => awake_left front idle mute awake
  have below : ¬ tells k → s.closed = true → (s.goesOn rest).Awake := fun mute closed =>
    telling_below front (fun _ same => StackEntry.own.inj same ▸ mute) closed awake
  have plain : Topic.connect ∉ workTopics k → Topic.session ∉ workTopics k → ¬ drives (.own k) → ¬ tells k →
      ((s.goesOn rest).execute k).Awake := fun connect session idle mute =>
    awake_does (does_execute _ k) connect session (left idle mute)
  cases k with
  | user => exact absurd rfl busy
  | notifyClosedOnce => exact .inl (awake_notifyClosedOnce (below id))
  | startReadLoop attempt =>
    have popped : ({ s.net with stack := rest } : Net Handler Work).Sustained :=
      Net.sustained_popped grounded.sustained front rfl
    have only := owed_popped front grounded.only
    exact .inl (awake_startReadLoop (s := s.goesOn rest) popped only attempt (below id))
  | publishEach p => exact .inl (awake_publishEach (s := s.goesOn rest) (iterates rfl))
  | publishCancel p => exact .inl (awake_publishCancel (s := s.goesOn rest) (iterates rfl))
  | publishClear => exact .inl (awake_publishClear _)
  | subscribeEach p => exact .inl (awake_subscribeEach (s := s.goesOn rest) (iterates rfl))
  | subscribeFilters p callback filters =>
    exact .inl (awake_subscribeFilters (s := s.goesOn rest) callback filters (iterates rfl))
  | subscribeClear => exact .inl (awake_subscribeClear _)
  | notifyClose =>
    refine .inr ⟨.closeReport, ?_, .inl rfl⟩
    change (if s.onCloseCb then _ else _ : Sys).log = _
    rw [if_pos closes]
    rfl
  | reportConnect success returnCode =>
    cases success with
    | false =>
      refine .inr ⟨.connectReport false returnCode, ?_, .inr ⟨returnCode, rfl⟩⟩
      change (if s.onConnectCb then _ else _ : Sys).log = _
      rw [if_pos connects]
      rfl
    | true =>
      have quiet : Does [] (s.goesOn rest) ((s.goesOn rest).push [.user]) := does_one (.push .user) rfl
      have told := awake_does quiet List.not_mem_nil List.not_mem_nil (left id id)
      refine .inl ?_
      change (if s.onConnectCb then _ else _ : Sys).Awake
      rw [if_pos connects]
      exact told
  | timer h ec =>
    cases h with
    | connectTimeout attempt =>
      cases ec with
      | none => exact .inl (awake_handleConnectTimeout (below id))
      | some ec => exact .inl (left id id)
    | _ => exact .inl (plain (by simp [workTopics, timerTopics]) (by simp [workTopics, timerTopics]) id id)
  | handlePacket attempt data =>
    have chained := front ▸ grounded.chained
    obtain ⟨i, next⟩ := chained.1 attempt data rfl
    exact .inl (awake_handlePacket attempt data (s := s.goesOn rest) next (left id id))
  | _ => exact .inl (plain (by simp [workTopics]) (by simp [workTopics]) id id)

/-- The frame of the CONNECT comes after every failure that was deferred. -/
theorem awake_sendConnectPacket (opened : s.closed = false) (attempt : Nat) : (s.sendConnectPacket attempt).Awake := by
  have late : (s.sendConnectPacket attempt).net.Late (.connectWrite attempt) :=
    ⟨s.net.ready, _, [], rfl, rfl, fun _ => List.not_mem_nil⟩
  exact .inr ⟨opened, .inr ⟨.connectWrite attempt, trivial, Net.owes_late late⟩,
    fun _ _ => .inr ⟨.connectWrite attempt, trivial, late⟩⟩

theorem awake_invoke {call : Invocation Handler} (front : s.net.stack = .invoke call :: rest) (grounded : s.Grounded)
    (connects : s.onConnectCb = true) (awake : s.Awake) :
    ({ s with net := (s.goesOn rest).net.recordCall call }.onInvoke call).Awake ∨
      s.Told ({ s with net := (s.goesOn rest).net.recordCall call }.onInvoke call) := by
  have below : s.closed = true → (s.goesOn rest).Awake := fun closed => telling_below front (by simp) closed awake
  have popped : ({ s.net with stack := rest } : Net Handler Work).Sustained :=
    Net.sustained_popped grounded.sustained front (by cases call <;> rfl)
  have only := owed_popped front grounded.only
  cases call with
  | connect h ec =>
    obtain ⟨attempt, rfl⟩ := grounded.only (.connect h) ((Net.owes_popped front).mpr (.inr rfl))
    change ((s.goesOn rest).onConnect attempt ec).Awake ∨ s.Told ((s.goesOn rest).onConnect attempt ec)
    unfold onConnect
    by_cases closed : s.closed = true
    · rw [if_pos (by exact closed)]
      exact .inl (below closed)
    · rw [if_neg (by exact closed)]
      split
      · refine .inr ⟨.connectReport false 255, ?_, .inr ⟨255, rfl⟩⟩
        unfold reportConnect
        rw [if_pos (by exact connects)]
        rfl
      · exact .inl (awake_sendConnectPacket (s := s.goesOn rest) (Bool.eq_false_iff.mpr closed) attempt)
  | read h ec packet =>
    obtain ⟨attempt, rfl⟩ := grounded.only (.read h) ((Net.owes_popped front).mpr (.inr rfl))
    refine .inl ?_
    change ((s.goesOn rest).onRead attempt ec packet).Awake
    cases opened : s.closed with
    | false =>
      unfold onRead
      split
      · exact awake_drives opened (p := .own .notifyClosedOnce) trivial (owes_stack (.head _))
      · exact awake_drives opened (p := .own (.startReadLoop attempt)) trivial (owes_stack (.tail _ (.head _)))
    | true =>
      have does : Does [.packet] (s.goesOn rest) ((s.goesOn rest).onRead attempt ec packet) :=
        does_onInvoke (s.goesOn rest) (.read (.read attempt) ec packet)
      exact awake_does does (by decide) (by decide) (below opened)
  | write serial h ec =>
    refine .inl ?_
    have recorded : ({ s with net := (s.goesOn rest).net.recordCall (.write serial h ec) } : Sys).Awake → _ :=
      awake_does (does_onInvoke _ (.write serial h ec)) (by cases h <;> simp [invocationTopics])
        (by cases h <;> simp [invocationTopics])
    have same : (s.goesOn rest).Awake →
        ({ s with net := (s.goesOn rest).net.recordCall (.write serial h ec) } : Sys).Awake := by
      refine Or.imp_right ?_
      rintro ⟨opened, moves⟩
      exact ⟨opened, moves.quiet ⟨fun _ => id, id, fun _ => id, fun _ => id⟩⟩
    cases h with
    | connectWrite attempt =>
      by_cases closed : s.closed = true
      · exact recorded (same (below closed))
      have opened := Bool.eq_false_iff.mpr closed
      let u : Sys := { s with net := (s.goesOn rest).net.recordCall (.write serial (.connectWrite attempt) ec) }
      change (u.onConnectWritten attempt ec).Awake
      unfold onConnectWritten
      split
      · exact awake_drives (t := u.push [.notifyClosedOnce]) opened (p := .own .notifyClosedOnce) trivial
          (owes_stack (.head _))
      · have does : Does [] u (u.schedulePingreq attempt) := does_schedulePingreq u attempt
        have sustained : u.net.Sustained := ⟨popped.shut, popped.busy, popped.flying, popped.queued, popped.reading⟩
        refine awake_reading (sustained_does does sustained) (proper_does does only) ?_ attempt
        exact (quiet_does does List.not_mem_nil List.not_mem_nil).2.trans opened
    | _ =>
      refine recorded (same (awake_popped front (fun p owed => ?_) (by simp) awake))
      obtain rfl := Option.some.inj owed
      exact ⟨id, fun h same => by obtain rfl := Debt.write.inj same; exact id⟩
  | closed h => exact .inl (awake_popped front (fun _ owed => by cases owed) (by simp) awake)

/-! ### Every step -/

/-- A client that goes on still does after the step, or the step reports to the user. -/
theorem awake_step {a : Action} (grounded : s.Grounded) (connects : s.onConnectCb = true) (closes : s.onCloseCb = true)
    (awake : s.Awake) (taken : s.step a = some t) (inside : ∀ c, a ≠ .call c) : t.Awake ∨ s.Told t := by
  have writes : ∀ h : Handler, ¬ drives (.write h) := fun _ => id
  cases (steps taken).2 with
  | run n ran =>
    obtain ⟨idle, -⟩ := Net.run_cases ran
    rcases awake with ⟨k, -, among⟩ | ⟨opened, moves⟩
    · rw [idle] at among
      contradiction
    · refine .inl (.inr ⟨opened, Net.moves_run writes (fun h owed => ?_) (fun closed => ?_) moves ran⟩)
      · obtain ⟨i, rfl⟩ := grounded.only _ owed
        trivial
      · exact (grounded.sustained.shut closed).2
  | work k rest front busy => exact awake_work front busy grounded connects closes awake
  | invoke call rest front => exact awake_invoke front grounded connects awake
  | afterWrite ec rest front =>
    refine .inl ?_
    rcases awake with ⟨k, telling, among⟩ | ⟨opened, moves⟩
    · obtain ⟨new, same, -⟩ := afterWrite_stack (s.goesOn rest).net ec
      rw [front] at among
      refine awake_tells telling ?_
      change .own k ∈ ((s.goesOn rest).net.afterWrite ec).stack
      rw [same]
      exact List.mem_append_right _ ((List.mem_cons.mp among).resolve_left nofun)
    · exact .inr ⟨opened, Net.moves_afterWrite writes front moves⟩
  | closeHandler rest front =>
    have popped : (s.goesOn rest).Awake := awake_popped front nofun nofun awake
    refine .inl ?_
    rcases popped with ⟨k, telling, among⟩ | ⟨opened, moves⟩
    · exact awake_tells telling (List.mem_append_right _ among)
    · exact .inr ⟨opened, moves.quiet (Net.quiet_push _)⟩
  | ret rest front => exact .inl (awake_left front id id awake)
  | call c allowed => exact absurd rfl (inside c)
  | kernel event n moved =>
    refine .inl ?_
    rcases awake with ⟨k, telling, among⟩ | ⟨opened, moves⟩
    · exact awake_tells telling (Net.kernel_stack moved ▸ among)
    · exact .inr ⟨opened, moves.quiet (Net.quiet_kernel moved)⟩
  | expire index w waiting due =>
    refine .inl ?_
    rcases awake with ⟨k, telling, among⟩ | ⟨opened, moves⟩
    · exact awake_tells telling among
    · exact .inr ⟨opened, moves.quiet (Net.quiet_post rfl)⟩
  | advance ms => exact .inl awake

/-- A new attempt wakes the client. -/
theorem awake_asyncConnect (s : Sys) (callback : Bool) : (s.asyncConnect callback).Awake := by
  obtain ⟨u, -, net⟩ := asyncConnect_net s callback
  refine awake_drives (asyncConnect_opens s callback) (p := .connect (.connect (s.attempts + 1))) trivial ?_
  rw [net]
  exact .inl ⟨_, List.mem_append_right _ (.head _), rfl⟩

/-! ### The callbacks stay -/

def Listening (s : Sys) : Prop := s.onConnectCb = true ∧ s.onCloseCb = true

theorem listening_apply {e : Effect} (inside : e.within topics = true) (absent : Topic.settings ∉ topics)
    (listening : s.Listening) : (s.apply e).Listening := by
  obtain ⟨connects, closes⟩ := listening
  cases e with
  | configure => exact absurd rfl (Effect.topic_of_within inside absent)
  | asyncConnect callback =>
    have same : (s.asyncConnect callback).onConnectCb = (s.onConnectCb || callback) ∧
        (s.asyncConnect callback).onCloseCb = s.onCloseCb := by
      unfold asyncConnect
      dsimp only
      split <;> exact ⟨rfl, rfl⟩
    exact ⟨same.1.trans (by rw [connects, Bool.true_or]), same.2.trans closes⟩
  | closeConnection =>
    change s.closeConnection.Listening
    unfold closeConnection
    split <;> exact ⟨connects, closes⟩
  | _ => exact ⟨connects, closes⟩

theorem listening_does (does : Does topics s t) (absent : Topic.settings ∉ topics) (listening : s.Listening) :
    t.Listening :=
  does.keeps (I := Listening) (fun _ _ inside => listening_apply inside absent) listening

theorem listening_step {a : Action} (listening : s.Listening) (taken : s.step a = some t) (inside : ∀ c, a ≠ .call c) :
    t.Listening := by
  cases (steps taken).2 with
  | work k rest front busy =>
    exact listening_does (does_execute _ k) (fun among => absurd (workTopics_few k among) (by decide)) listening
  | invoke call rest front =>
    exact listening_does (does_onInvoke _ call)
      (fun among => absurd (invocationTopics_few call among) (by decide)) listening
  | call c allowed => exact absurd rfl (inside c)
  | _ => exact listening

/-! ### A client between the tasks of its io thread -/

theorem grounded_fresh (fresh : s.net = {}) : s.Grounded := by
  have none : ∀ p, ¬ s.net.Owes p := by
    intro p
    simp [fresh, Net.Owes]
  refine ⟨fresh ▸ Net.sustained_start, fun p owes => absurd owes (none p), .none ?_, ?_, ?_⟩
  · intro k among
    rw [fresh] at among
    contradiction
  · rw [fresh]
    trivial
  · constructor <;> simp [fresh, Net.posted, Net.running]

/-- The answer to a connect, to a read or to the CONNECT is still to come. -/
def Awaits (s : Sys) : Prop :=
  ∃ attempt, s.net.Owes (.connect (.connect attempt)) ∨ s.net.Owes (.read (.read attempt)) ∨
    s.net.Owes (.write (.connectWrite attempt))

theorem awake_idle (grounded : s.Grounded) (idle : s.net.stack = []) (awake : s.Awake) :
    s.closed = false ∧ s.Awaits ∧ s.net.Outstanding := by
  have posted : ∀ k, s.net.Owes (.own k) → k.isPosted = true := by
    intro k owed
    rcases Net.owes_own.mp owed with queued | runs
    · exact grounded.posting.posted k (List.mem_filterMap.mpr ⟨_, queued, rfl⟩)
    · rw [idle] at runs
      contradiction
  rcases awake with ⟨k, -, among⟩ | ⟨opened, moves⟩
  · rw [idle] at among
    contradiction
  refine ⟨opened, ?_⟩
  rcases moves.on with ⟨p, drive, owed⟩ | ⟨h, greet, owed⟩
  · cases p with
    | connect h =>
      cases h with
      | connect attempt => exact ⟨⟨attempt, .inl owed⟩, Net.outstanding_of_owes grounded.sustained idle (by nofun) owed⟩
      | _ => exact drive.elim
    | read h =>
      cases h with
      | read attempt =>
        exact ⟨⟨attempt, .inr (.inl owed)⟩, Net.outstanding_of_owes grounded.sustained idle (by nofun) owed⟩
      | _ => exact drive.elim
    | write h => exact drive.elim
    | own k =>
      have is := posted k owed
      cases k <;> first | exact drive.elim | contradiction
  · cases h with
    | connectWrite attempt =>
      exact ⟨⟨attempt, .inr (.inr owed)⟩, Net.outstanding_of_owes grounded.sustained idle (by nofun) owed⟩
    | _ => exact greet.elim

end Sys
end LiteMqtt
