import LiteMqtt.Client.Driving
import LiteMqtt.Helper.Model

/-!
# The helper with its client

The calls of the helper reach its client, and what the client reports reaches the helper. The user calls
from any thread and in every callback. A stopped loop only takes no more steps, so nothing is said of it
here, and a client that was released reports to nobody.
-/

namespace LiteMqtt

/-- What the helper tells a new client. -/
structure Config where
  clientId : Bytes := []
  username : Bytes := []
  password : Bytes := []
  keepAliveSeconds : UInt16 := 60
  cleanSession : Bool := true
  connectTimeoutMs : Int := 10000
  deriving DecidableEq, Repr

structure Rig where
  config : Config := {}
  helper : Helper := {}
  sys : Sys := {}

namespace Rig

inductive Action where
  | configure (config : Config)
  | setReconnectConfig (maxAttempts baseDelayMs : Int)
  | start
  | publish (topic payload : Bytes) (qos : UInt8) (callable : Bool)
  | subscribe (topic : Bytes) (qos : UInt8) (callable : Bool)
  | rearmReconnect
  | stopOnIoThread
  | beginStop
  /-- The wait for the DISCONNECT is over and the io thread is joined. -/
  | finishStop (wasRunning : Bool)
  | expireReconnectTimer
  /-- The io thread takes the first chore. -/
  | perform
  /-- A step of the client. -/
  | io (a : Sys.Action)

def initClient (c : Config) : Sys :=
  let s := ((({} : Sys).call (.setClientId c.clientId)).call (.setKeepAlive c.keepAliveSeconds)).call
    (.setCleanSession c.cleanSession)
  let s := s.call (.setConnectTimeout c.connectTimeoutMs)
  let s := if c.username.isEmpty then s else s.call (.setUsername c.username)
  if c.password.isEmpty then s else s.call (.setPassword c.password)

def setupCallbacks (s : Sys) : Sys := ((s.call (.onMessage true)).call (.onClose true)).call (.onConnect true)

def carry (s : Sys) : Ask → Sys
  | .asyncConnect => s.call (.asyncConnect false)
  | .asyncSubscribe topic qos => s.call (.asyncSubscribe topic qos false)
  | .asyncDisconnect => s.call (.asyncDisconnect true)
  | .clearCallbacks => ((s.call (.onMessage false)).call (.onClose false)).call (.onConnect false)
  | .close => s.call .close

/-- The helper has come from `r.helper` to `h`, and the client gets the calls it made. -/
def follow (r : Rig) (h : Helper) : Rig :=
  { r with helper := h, sys := (h.asked.drop r.helper.asked.length).foldl carry r.sys }

/-- The callbacks of `setup_callbacks`. -/
def notify (r : Rig) : Event → Rig
  | .connectReport success _ => r.follow (r.helper.onConnect success)
  | .closeReport => r.follow r.helper.onClose
  | _ => r

/-- What the client has reported since `s`, oldest first. -/
def reports (s t : Sys) : List Event := (t.log.take (t.log.length - s.log.length)).reverse

/-- Without a client `publish` tells the callback at once, which leaves no trace here. -/
def publish (r : Rig) (topic payload : Bytes) (qos : UInt8) (callable : Bool) : Rig :=
  if r.helper.client then { r with sys := r.sys.call (.asyncPublish topic payload qos callable) } else r

def isConnected (r : Rig) : Bool := r.helper.client && r.sys.net.state == .connected

def subscribe (r : Rig) (topic : Bytes) (qos : UInt8) (callable : Bool) : Rig :=
  let r := { r with helper := { r.helper with subscribes := r.helper.subscribes ++ [(topic, qos)] } }
  if r.isConnected then { r with sys := r.sys.call (.asyncSubscribe topic qos callable) } else r

def step (r : Rig) (a : Action) : Option Rig :=
  if r.helper.terminated then none
  else
    match a with
    | .configure config => some { r with config }
    | .setReconnectConfig maxAttempts baseDelayMs =>
        some { r with helper := r.helper.setReconnectConfig maxAttempts baseDelayMs }
    | .start =>
        some (if r.helper.running then r
          else { r with sys := setupCallbacks (initClient r.config) }.follow r.helper.start)
    | .publish topic payload qos callable => some (r.publish topic payload qos callable)
    | .subscribe topic qos callable => some (r.subscribe topic qos callable)
    | .rearmReconnect => some (r.follow r.helper.rearmReconnect.1)
    | .stopOnIoThread => if r.helper.joinable then some (r.follow r.helper.stopOnIoThread) else none
    | .beginStop => some (r.follow r.helper.beginStop)
    | .finishStop wasRunning =>
        if r.helper.userStopped && !r.helper.running && r.sys.net.stack.isEmpty then
          some (r.follow (r.helper.finishStop wasRunning))
        else none
    | .expireReconnectTimer =>
        if r.helper.wait.isSome then some { r with helper := r.helper.expireReconnectTimer } else none
    | .perform =>
        match r.helper.chores, r.sys.net.stack with
        | c :: rest, [] =>
            let r := { r with helper := { r.helper with chores := rest } }
            some (r.follow (r.helper.perform c))
        | _, _ => none
    | .io (.call _) => none
    | .io a => (r.sys.step a).map fun t => (reports r.sys t).foldl notify { r with sys := t }

/-- The helper is to keep the session up. -/
def Armed (h : Helper) : Prop := h.running = true ∧ h.shouldReconnect = true ∧ h.userStopped = false

/-- A backoff wait is outstanding, or is over and has not been handled. -/
def Waiting (h : Helper) : Prop := h.wait.isSome = true ∨ .waited none ∈ h.chores

/-- The helper is about to connect. -/
def Backing (h : Helper) : Prop := Waiting h ∨ .rearm ∈ h.chores

/-- The helper is about to try again, or its client waits for an answer that something will bring. -/
def Driven (r : Rig) : Prop := Backing r.helper ∨ r.sys.closed = false ∧ r.sys.Awaits ∧ r.sys.net.Outstanding

variable {r t : Rig} {h g : Helper} {s u : Sys}

/-! ### Calls into the client -/

/-- What the client needs to go on is kept. -/
structure Kept (s u : Sys) : Prop where
  grounded : s.Grounded → u.Grounded
  listening : s.Listening → u.Listening
  awake : s.Awake → u.Awake

theorem Kept.refl (s : Sys) : Kept s s := ⟨id, id, id⟩

theorem Kept.trans {v : Sys} (first : Kept s u) (second : Kept u v) : Kept s v :=
  ⟨second.grounded ∘ first.grounded, second.listening ∘ first.listening, second.awake ∘ first.awake⟩

/-- The calls that the helper makes before it releases its client. -/
def Gentle : Ask → Prop
  | .asyncConnect | .asyncSubscribe .. | .asyncDisconnect => True
  | .clearCallbacks | .close => False

theorem kept_call (s : Sys) {c : Call} (posts : c.anyThread = true) : Kept s (s.call c) := by
  have apart : Topic.connect ∉ Sys.callTopics c ∧ Topic.session ∉ Sys.callTopics c ∧
      Topic.settings ∉ Sys.callTopics c := by
    cases c <;> first | contradiction | simp [Sys.callTopics]
  have same : (s.call c).net.stack = s.net.stack ∧ (s.call c).pendingPublishes = s.pendingPublishes ∧
      (s.call c).pendingSubscribes = s.pendingSubscribes := by
    cases c <;> first | contradiction | exact ⟨rfl, rfl, rfl⟩
  exact ⟨fun grounded => Sys.grounded_does grounded (Sys.does_call s c) same.1 same.2.1 same.2.2,
    Sys.listening_does (Sys.does_call s c) apart.2.2, Sys.awake_does (Sys.does_call s c) apart.1 apart.2.1⟩

theorem asyncConnect_maps (s : Sys) (callback : Bool) :
    (s.asyncConnect callback).pendingPublishes = s.pendingPublishes ∧
      (s.asyncConnect callback).pendingSubscribes = s.pendingSubscribes := by
  unfold Sys.asyncConnect
  dsimp only
  split <;> exact ⟨rfl, rfl⟩

theorem kept_carry {a : Ask} (gentle : Gentle a) : Kept s (carry s a) := by
  cases a with
  | asyncConnect =>
    have does : Sys.Does [.connect] s (s.asyncConnect false) := Sys.does_call s (.asyncConnect false)
    obtain ⟨publishes, subscribes⟩ := asyncConnect_maps s false
    exact ⟨fun grounded => Sys.grounded_does grounded does (Sys.asyncConnect_stack s false) publishes subscribes,
      Sys.listening_does does (by decide), fun _ => Sys.awake_asyncConnect s false⟩
  | asyncSubscribe topic qos => exact kept_call s (c := .asyncSubscribe topic qos false) rfl
  | asyncDisconnect => exact kept_call s (c := .asyncDisconnect true) rfl
  | clearCallbacks => exact gentle.elim
  | close => exact gentle.elim

theorem kept_carried {asks : List Ask} (gentle : ∀ a ∈ asks, Gentle a) : Kept s (asks.foldl carry s) := by
  induction asks generalizing s with
  | nil => exact .refl s
  | cons a rest ih =>
    exact (kept_carry (gentle a (.head _))).trans (ih fun b among => gentle b (.tail _ among))

theorem awake_carried {asks : List Ask} (gentle : ∀ a ∈ asks, Gentle a) (connects : .asyncConnect ∈ asks) :
    (asks.foldl carry s).Awake := by
  obtain ⟨before, after, rfl⟩ := List.append_of_mem connects
  rw [List.foldl_append, List.foldl_cons]
  exact (kept_carried fun a among => gentle a (List.mem_append_right _ (.tail _ among))).awake
    (Sys.awake_asyncConnect _ false)

/-! ### What every run keeps -/

structure Sound (r : Rig) : Prop where
  grounded : r.helper.client = true → r.sys.Grounded
  pending : r.helper.reconnectPending = true → Waiting r.helper
  ready : r.helper.running = true → r.helper.userStopped = false → r.helper.client = true ∧ r.sys.Listening

/-- While the helper is armed it is about to connect, or its client goes on. -/
def Going (r : Rig) : Prop := Armed r.helper → Backing r.helper ∨ r.sys.Awake

/-- The helper has come from `h` to `g` with these calls. -/
structure Turn (h g : Helper) (asks : List Ask) : Prop where
  asked : g.asked = h.asked ++ asks
  gentle : ∀ a ∈ asks, Gentle a
  client : g.client = h.client
  running : g.running = true → h.running = true
  stopped : g.userStopped = false → h.userStopped = false
  pending : g.reconnectPending = true → Waiting g

theorem Turn.follow {asks : List Ask} (turn : Turn r.helper g asks) :
    r.follow g = { r with helper := g, sys := asks.foldl carry r.sys } := by
  unfold Rig.follow
  rw [turn.asked, List.drop_left]

theorem sound_follow {asks : List Ask} (sound : r.Sound) (turn : Turn r.helper g asks) : (r.follow g).Sound := by
  have kept : Kept r.sys (asks.foldl carry r.sys) := kept_carried turn.gentle
  rw [turn.follow]
  refine ⟨fun client => kept.grounded (sound.grounded (turn.client ▸ client)), turn.pending, fun runs on => ?_⟩
  obtain ⟨client, listening⟩ := sound.ready (turn.running runs) (turn.stopped on)
  exact ⟨turn.client.trans client, kept.listening listening⟩

theorem going_follow {asks : List Ask} (turn : Turn r.helper g asks)
    (going : Armed g → Backing g ∨ .asyncConnect ∈ asks ∨ r.sys.Awake) : (r.follow g).Going := by
  rw [turn.follow]
  intro armed
  rcases going armed with backing | connects | awake
  · exact .inl backing
  · exact .inr (awake_carried turn.gentle connects)
  · exact .inr ((kept_carried turn.gentle).awake awake)

/-! ### The functions of the helper -/

theorem turn_same (asked : g.asked = h.asked) (client : g.client = h.client)
    (running : g.running = true → h.running = true)
    (stopped : g.userStopped = false → h.userStopped = false) (pending : g.reconnectPending = true → Waiting g) :
    Turn h g [] :=
  ⟨asked.trans (List.append_nil _).symm, fun _ among => absurd among List.not_mem_nil, client, running, stopped,
    pending⟩

theorem turn_doReconnect (pending : h.reconnectPending = true → Waiting h) :
    Turn h h.doReconnect [] ∧ (Armed h.doReconnect → Backing h.doReconnect) := by
  unfold Helper.doReconnect
  split
  · rename_i off
    refine ⟨turn_same rfl rfl id id pending, fun ⟨_, should, on⟩ => ?_⟩
    rw [should, on] at off
    contradiction
  split
  · rename_i waits
    exact ⟨turn_same rfl rfl id id pending, fun _ => .inl (pending waits)⟩
  split
  · exact ⟨turn_same rfl rfl id id nofun, fun ⟨_, should, _⟩ => absurd should nofun⟩
  · unfold Helper.countAttempt
    dsimp only
    split <;> exact ⟨turn_same rfl rfl id id fun _ => .inl rfl, fun _ => .inl (.inl rfl)⟩

theorem turn_onClose (pending : h.reconnectPending = true → Waiting h) :
    Turn h h.onClose [] ∧ (Armed h.onClose → Backing h.onClose) := by
  unfold Helper.onClose
  split
  · exact turn_doReconnect pending
  · rename_i off
    refine ⟨turn_same rfl rfl id id pending, fun ⟨_, should, on⟩ => absurd ?_ off⟩
    rw [should, on]
    rfl

theorem turn_onConnected (pending : h.reconnectPending = true → Waiting h) : ∃ asks, Turn h (h.onConnect true) asks ∧
    (Armed (h.onConnect true) → Armed h) ∧ (Backing h → Backing (h.onConnect true)) := by
  change ∃ asks, Turn h ({ h with reconnectAttempts := 0, initialConnect := false }.restoreSubscriptions) asks ∧ _
  unfold Helper.onConnect Helper.restoreSubscriptions
  dsimp only
  split
  · refine ⟨_, ⟨rfl, fun a among => ?_, rfl, id, id, pending⟩, id, id⟩
    obtain ⟨item, -, rfl⟩ := List.mem_map.mp among
    trivial
  · exact ⟨[], turn_same rfl rfl id id pending, id, id⟩

theorem turn_doConnect (pending : h.reconnectPending = true → Waiting h) : ∃ asks, Turn h h.doConnect asks ∧
    (h.client = true → .asyncConnect ∈ asks) := by
  unfold Helper.doConnect
  split
  · refine ⟨[.asyncConnect], ⟨rfl, fun a among => ?_, rfl, id, id, pending⟩, fun _ => .head _⟩
    obtain rfl := List.mem_singleton.mp among
    trivial
  · rename_i none
    exact ⟨[], turn_same rfl rfl id id pending, fun client => absurd client none⟩

/-- The handler of a wait that was cancelled connects nowhere, but another task is behind it. -/
theorem turn_perform {c : Chore} {rest : List Chore} (first : h.chores = c :: rest)
    (pending : h.reconnectPending = true → Waiting h) :
    ∃ asks, Turn h ({ h with chores := rest }.perform c) asks ∧
      (Armed ({ h with chores := rest }.perform c) → h.client = true →
        .asyncConnect ∈ asks ∨ Armed h ∧ (Backing h → Backing ({ h with chores := rest }.perform c))) := by
  have connects : ∀ g : Helper, g.asked = h.asked → g.client = h.client → (g.running = true → h.running = true) →
      (g.userStopped = false → h.userStopped = false) → g.reconnectPending = false →
      ∃ asks, Turn h g.doConnect asks ∧ (h.client = true → .asyncConnect ∈ asks) := by
    intro g asked client running stopped free
    obtain ⟨asks, turn, connects⟩ := turn_doConnect (h := g) fun waits => absurd (free.symm.trans waits) nofun
    refine ⟨asks, ⟨asked ▸ turn.asked, turn.gentle, turn.client.trans client, running ∘ turn.running,
      stopped ∘ turn.stopped, turn.pending⟩, fun present => connects (client.trans present)⟩
  cases c with
  | waited ec =>
    change ∃ asks, Turn h ({ h with chores := rest }.onWaited ec) asks ∧
      (Armed ({ h with chores := rest }.onWaited ec) → h.client = true →
        _ ∨ _ ∧ (_ → Backing ({ h with chores := rest }.onWaited ec)))
    unfold Helper.onWaited
    cases ec with
    | some ec =>
      refine ⟨[], turn_same rfl rfl id id nofun, fun armed _ => .inr ⟨armed, ?_⟩⟩
      unfold Backing Waiting
      rw [first]
      simp
    | none =>
      dsimp only
      rw [if_neg (by simp)]
      split
      · obtain ⟨asks, turn, asked⟩ := connects { h with chores := rest, reconnectPending := false } rfl rfl id id rfl
        exact ⟨asks, turn, fun _ client => .inl (asked client)⟩
      · rename_i off
        refine ⟨[], turn_same rfl rfl id id nofun, fun ⟨_, should, on⟩ => absurd ?_ off⟩
        rw [should, on]
        rfl
  | rearm =>
    change ∃ asks, Turn h ({ h with chores := rest }.onRearm) asks ∧
      (Armed ({ h with chores := rest }.onRearm) → h.client = true → _ ∨ _ ∧
        (_ → Backing ({ h with chores := rest }.onRearm)))
    unfold Helper.onRearm
    split
    · rename_i off
      refine ⟨[], turn_same rfl rfl id id fun waits => ?_, fun ⟨_, should, on⟩ => absurd off ?_⟩
      · have before := pending waits
        unfold Waiting at before
        rw [first] at before
        exact before.imp_right fun among => (List.mem_cons.mp among).resolve_left (by nofun)
      · rw [should, on]
        nofun
    · obtain ⟨asks, turn, asked⟩ := connects
        { ({ h with chores := rest } : Helper).cancelReconnectTimer with reconnectPending := false } rfl rfl id id rfl
      exact ⟨asks, turn, fun _ client => .inl (asked client)⟩

theorem turn_asked {a : Ask} (gentle : Gentle a) (client : g.client = h.client)
    (running : g.running = true → h.running = true)
    (stopped : g.userStopped = false → h.userStopped = false) (pending : g.reconnectPending = true → Waiting g)
    (asked : g.asked = h.asked ++ [a]) : Turn h g [a] :=
  ⟨asked, fun _ among => List.mem_singleton.mp among ▸ gentle, client, running, stopped, pending⟩

theorem turn_stopOnIoThread (h : Helper) :
    ∃ asks, Turn h h.stopOnIoThread asks ∧ h.stopOnIoThread.userStopped = true := by
  unfold Helper.stopOnIoThread
  dsimp only
  split
  · exact ⟨_, turn_asked (a := .asyncDisconnect) trivial rfl nofun nofun nofun rfl, rfl⟩
  · exact ⟨[], turn_same rfl rfl nofun nofun nofun, rfl⟩

theorem turn_beginStop (h : Helper) : ∃ asks, Turn h h.beginStop asks ∧ h.beginStop.userStopped = true := by
  unfold Helper.beginStop
  dsimp only
  split
  · exact ⟨_, turn_asked (a := .asyncDisconnect) trivial rfl nofun nofun nofun rfl, rfl⟩
  · exact ⟨[], turn_same rfl rfl nofun nofun nofun, rfl⟩

theorem finishStop_released (h : Helper) (wasRunning : Bool) : (h.finishStop wasRunning).client = false ∧
    (h.finishStop wasRunning).running = h.running ∧
    ((h.reconnectPending = true → Waiting h) →
      (h.finishStop wasRunning).reconnectPending = true → Waiting (h.finishStop wasRunning)) := by
  have released : ∀ g : Helper, g.running = h.running → g.reconnectPending = h.reconnectPending →
      (Waiting h → Waiting g) →
      g.releaseClient.client = false ∧ g.releaseClient.running = h.running ∧
        ((h.reconnectPending = true → Waiting h) → g.releaseClient.reconnectPending = true →
            Waiting g.releaseClient) := by
    intro g running same waiting
    unfold Helper.releaseClient
    split
    · exact ⟨rfl, running, fun pending waits => waiting (pending (same.symm.trans waits))⟩
    · rename_i none
      exact ⟨Bool.eq_false_iff.mpr none, running, fun pending waits => waiting (pending (same.symm.trans waits))⟩
  unfold Helper.finishStop
  dsimp only
  split <;> split <;> exact released _ rfl rfl id

/-! ### Every step -/

theorem sound_start (fresh : s.net = {}) (listening : s.Listening) (off : r.helper.running = false) :
    Sound ({ r with sys := s }.follow r.helper.start) ∧ Going ({ r with sys := s }.follow r.helper.start) := by
  have same : r.helper.start = { r.helper with
      userStopped := false, shouldReconnect := true, reconnectPending := false, reconnectAttempts := 0
      initialConnect := true, stopped := false, work := true, client := true, running := true
      terminated := r.helper.terminated || r.helper.joinable, joinable := true
      asked := r.helper.asked ++ [.asyncConnect] } := by
    unfold Helper.start
    rw [if_neg (by rw [off]; nofun)]
    rfl
  have followed : ({ r with sys := s } : Rig).follow r.helper.start =
      { r with helper := r.helper.start, sys := carry s .asyncConnect } := by
    unfold Rig.follow
    rw [same, List.drop_left]
    rfl
  have kept : Kept s (carry s .asyncConnect) := kept_carry trivial
  rw [followed]
  refine ⟨⟨fun _ => kept.grounded (Sys.grounded_fresh fresh), ?_, fun _ _ => ⟨?_, kept.listening listening⟩⟩,
    fun _ => .inr (Sys.awake_asyncConnect s false)⟩
  · rw [same]
    nofun
  · rw [same]

theorem initClient_fresh (c : Config) : (initClient c).net = {} := by
  unfold initClient
  dsimp only
  split <;> split <;> rfl

theorem notify_kept {e : Event} (sound : r.Sound) (going : r.Going) : (r.notify e).Sound ∧ (r.notify e).Going := by
  have failed : ∀ g : Helper, Turn r.helper g [] → (Armed g → Backing g) → (r.follow g).Sound ∧ (r.follow g).Going :=
    fun g turn backing => ⟨sound_follow sound turn, going_follow turn fun armed => .inl (backing armed)⟩
  cases e with
  | connectReport success returnCode =>
    cases success with
    | false =>
      obtain ⟨turn, backing⟩ := turn_doReconnect sound.pending
      exact failed _ turn backing
    | true =>
      obtain ⟨asks, turn, armed, backing⟩ := turn_onConnected sound.pending
      refine ⟨sound_follow sound turn, going_follow turn fun after => ?_⟩
      exact (going (armed after)).imp backing .inr
  | closeReport =>
    obtain ⟨turn, backing⟩ := turn_onClose sound.pending
    exact failed _ turn backing
  | _ => exact ⟨sound, going⟩

theorem notify_told {e : Event} (sound : r.Sound) (failure : e = .closeReport ∨ ∃ code, e = .connectReport false code) :
    (r.notify e).Sound ∧ (r.notify e).Going := by
  rcases failure with rfl | ⟨code, rfl⟩
  · obtain ⟨turn, backing⟩ := turn_onClose sound.pending
    exact ⟨sound_follow sound turn, going_follow turn fun armed => .inl (backing armed)⟩
  · obtain ⟨turn, backing⟩ := turn_doReconnect sound.pending
    exact ⟨sound_follow sound turn, going_follow turn fun armed => .inl (backing armed)⟩

theorem notified_kept (events : List Event) (sound : r.Sound) (going : r.Going) :
    (events.foldl notify r).Sound ∧ (events.foldl notify r).Going := by
  induction events generalizing r with
  | nil => exact ⟨sound, going⟩
  | cons e rest ih =>
    obtain ⟨sound, going⟩ := notify_kept (e := e) sound going
    exact ih sound going

theorem io_kept {a : Sys.Action} (sound : r.Sound) (going : r.Going) (taken : r.sys.step a = some u)
    (inside : ∀ c, a ≠ .call c) : Sound ((reports r.sys u).foldl notify { r with sys := u }) ∧
      Going ((reports r.sys u).foldl notify { r with sys := u }) := by
  have next : Sound { r with sys := u } :=
    ⟨fun client => Sys.grounded_step (sound.grounded client) taken inside, sound.pending, fun runs on =>
      (sound.ready runs on).imp id fun listening => Sys.listening_step listening taken inside⟩
  by_cases armed : Armed r.helper
  · rcases going armed with backing | awake
    · exact notified_kept _ next fun _ => .inl backing
    · obtain ⟨client, connects, closes⟩ := sound.ready armed.1 armed.2.2
      rcases Sys.awake_step (sound.grounded client) connects closes awake taken inside with goes | ⟨e, log, failure⟩
      · exact notified_kept _ next fun _ => .inr goes
      · have told : reports r.sys u = [e] := by
          unfold reports
          rw [log, List.length_cons, Nat.add_sub_cancel_left]
          rfl
        rw [told]
        exact notify_told next failure
  · exact notified_kept _ next fun again => absurd again armed

theorem kept_step {a : Action} (sound : r.Sound) (going : r.Going) (taken : r.step a = some t) : t.Sound ∧ t.Going := by
  have called : ∀ u, Kept r.sys u → Sound { r with sys := u } ∧ Going { r with sys := u } := fun u kept =>
    ⟨⟨kept.grounded ∘ sound.grounded, sound.pending, fun runs on => (sound.ready runs on).imp id kept.listening⟩,
      fun armed => (going armed).imp id kept.awake⟩
  unfold step at taken
  split at taken
  · contradiction
  cases a with
  | configure config =>
    obtain rfl := Option.some.inj taken
    exact ⟨⟨sound.grounded, sound.pending, sound.ready⟩, going⟩
  | setReconnectConfig maxAttempts baseDelayMs =>
    obtain rfl := Option.some.inj taken
    exact ⟨⟨sound.grounded, sound.pending, sound.ready⟩, going⟩
  | start =>
    obtain rfl := Option.some.inj taken
    split
    · exact ⟨sound, going⟩
    · rename_i off
      exact sound_start (initClient_fresh r.config) ⟨rfl, rfl⟩ (Bool.eq_false_iff.mpr off)
  | publish topic payload qos callable =>
    obtain rfl := Option.some.inj taken
    unfold publish
    split
    · exact called _ (kept_call r.sys rfl)
    · exact ⟨sound, going⟩
  | subscribe topic qos callable =>
    obtain rfl := Option.some.inj taken
    unfold subscribe
    dsimp only
    split
    · obtain ⟨after, goes⟩ := called (r.sys.call (.asyncSubscribe topic qos callable)) (kept_call r.sys rfl)
      exact ⟨⟨after.grounded, after.pending, after.ready⟩, goes⟩
    · exact ⟨⟨sound.grounded, sound.pending, sound.ready⟩, going⟩
  | rearmReconnect =>
    obtain rfl := Option.some.inj taken
    unfold Helper.rearmReconnect
    split
    · have turn : Turn r.helper r.helper [] := turn_same rfl rfl id id sound.pending
      exact ⟨sound_follow sound turn, going_follow turn fun armed => (going armed).imp id .inr⟩
    split
    · have turn : Turn r.helper r.helper [] := turn_same rfl rfl id id sound.pending
      exact ⟨sound_follow sound turn, going_follow turn fun armed => (going armed).imp id .inr⟩
    · have turn : Turn r.helper
          ({ r.helper with
              shouldReconnect := true, reconnectAttempts := 0, initialConnect := false }.queue .rearm) [] :=
        turn_same rfl rfl id id fun waits => (sound.pending waits).imp id (List.mem_append_left _)
      refine ⟨sound_follow sound turn, going_follow turn fun _ => .inl (.inr ?_)⟩
      exact List.mem_append_right _ (.head _)
  | stopOnIoThread =>
    dsimp only at taken
    split at taken
    · obtain rfl := Option.some.inj taken
      obtain ⟨asks, turn, off⟩ := turn_stopOnIoThread r.helper
      exact ⟨sound_follow sound turn, going_follow turn fun armed => absurd armed.2.2 (by rw [off]; nofun)⟩
    · contradiction
  | beginStop =>
    obtain rfl := Option.some.inj taken
    obtain ⟨asks, turn, off⟩ := turn_beginStop r.helper
    exact ⟨sound_follow sound turn, going_follow turn fun armed => absurd armed.2.2 (by rw [off]; nofun)⟩
  | finishStop wasRunning =>
    dsimp only at taken
    split at taken
    · rename_i able
      obtain rfl := Option.some.inj taken
      simp only [Bool.and_eq_true, Bool.not_eq_true'] at able
      obtain ⟨client, running, pending⟩ := finishStop_released r.helper wasRunning
      refine ⟨⟨fun present => absurd (client.symm.trans present) nofun, pending sound.pending, fun runs => ?_⟩,
        fun armed => ?_⟩
      · exact absurd (running.symm.trans runs) (by rw [able.1.2]; nofun)
      · exact absurd (running.symm.trans armed.1) (by rw [able.1.2]; nofun)
    · contradiction
  | expireReconnectTimer =>
    dsimp only at taken
    split at taken
    · obtain rfl := Option.some.inj taken
      have waited : Waiting r.helper.expireReconnectTimer := .inr (List.mem_append_right _ (.head _))
      exact ⟨⟨sound.grounded, fun _ => waited, sound.ready⟩, fun _ => .inl (.inl waited)⟩
    · contradiction
  | perform =>
    dsimp only at taken
    split at taken
    · rename_i c rest first _
      obtain rfl := Option.some.inj taken
      obtain ⟨asks, turn, connects⟩ := turn_perform first sound.pending
      change (r.follow _).Sound ∧ (r.follow _).Going
      refine ⟨sound_follow sound turn, going_follow turn fun armed => ?_⟩
      have client := (sound.ready (turn.running armed.1) (turn.stopped armed.2.2)).1
      rcases connects armed client with asked | ⟨before, backing⟩
      · exact .inr (.inl asked)
      · exact (going before).imp backing .inr
    · contradiction
  | io a =>
    cases a with
    | call c => contradiction
    | _ =>
      obtain ⟨u, moved, rfl⟩ := Option.map_eq_some_iff.mp taken
      exact io_kept sound going moved nofun

/-- In every run, whenever no task is running and the helper is armed, it is about to try again or
something outstanding will bring its client an answer. -/
theorem never_stuck (actions : List Action) :
    Runs.Throughout step (fun r => Armed r.helper → r.sys.net.stack = [] → r.Driven) {} actions := by
  refine Runs.throughout_of_invariant (I := fun r => r.Sound ∧ r.Going) (fun r a t kept => kept_step kept.1 kept.2)
    (fun r kept armed idle => ?_) ⟨⟨nofun, nofun, nofun⟩, fun armed => absurd armed.1 nofun⟩
  obtain ⟨sound, going⟩ := kept
  have client := (sound.ready armed.1 armed.2.2).1
  exact (going armed).imp id (Sys.awake_idle (sound.grounded client) idle)

example : (Runs.exec step {} [.start, .io (.kernel (.resolve 0 (.error .operationAborted))), .io .run, .io .exec]).map
    (fun r => r.helper.wait) = some (some 1000) := by decide

end Rig
end LiteMqtt
