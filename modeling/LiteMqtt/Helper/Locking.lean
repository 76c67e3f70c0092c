import LiteMqtt.General.LockOrder

/-!
# The mutexes of the library

What each function does with mutexes, which callbacks and log sinks of the user it runs, and which thread it joins.
`asio` and the user are foreign code, which enters the library again at will. Copying, assigning and destroying a
`std::function` counts for nothing here, although some of it happens under a mutex, and a mutex lasts for ever.
-/

namespace LiteMqtt

/-- `stopped` is the mutex of one call of `stop`, and `clientChannel` that of one client's `log_channel_`. -/
inductive Mutex where
  | logHandler
  | pending
  | callback
  | client
  | helperChannel
  | clientChannel (client : Nat)
  | logger
  | stopped (call : Nat)
  deriving DecidableEq, Repr

namespace Mutex

open Locks (Code Act Thread Trace)

/-! ### Logging -/

/-- `logger::write`. Its level may be disabled, and the default sink is no code of the user. -/
def loggerWrite : Code Mutex := .choice .skip (.seq (.guard .logger .skip) (.choice .foreign .skip))

/-- A log statement through a channel, whose level may be disabled from the start. -/
def logTo (channel : Mutex) : Code Mutex :=
  .choice .skip (.seq (.guard channel .skip) (.choice .foreign loggerWrite))

/-! ### `mqtt_helper` -/

def lockClient : Code Mutex := .guard .client .skip

def isConnected : Code Mutex := lockClient

def setLogHandler (client : Nat) : Code Mutex :=
  .guard .logHandler (.seq (.guard .helperChannel .skip) (.seq lockClient
    (.choice .skip (.guard (.clientChannel client) .skip))))

/-- `get_log_handler` and `has_log_handler`. -/
def getLogHandler : Code Mutex := .guard .helperChannel .skip

def onMessage : Code Mutex := .guard .callback .skip

def subscribe : Code Mutex := .seq (.guard .pending .skip) (.seq isConnected (.choice .skip lockClient))

/-- Without a client the callback is called at once. -/
def publish : Code Mutex := .seq lockClient (.choice .skip .foreign)

def initClient (client : Nat) : Code Mutex :=
  .seq
    (.guard .logHandler (.seq (.guard .helperChannel .skip)
      (.choice .skip (.seq (.guard .helperChannel .skip) (.guard (.clientChannel client) .skip)))))
    (.guard .client .skip)

def setupCallbacks : Code Mutex := lockClient

def doConnect : Code Mutex := .seq lockClient (logTo .helperChannel)

def doReconnect : Code Mutex := .choice .skip (logTo .helperChannel)

def start (client : Nat) : Code Mutex := .choice .skip (.seq (initClient client) (.seq setupCallbacks doConnect))

def rearmReconnect : Code Mutex := logTo .helperChannel

/-- The code of a client: its records, and the callbacks of publishes and subscribes. -/
def clientCode (client : Nat) : Code Mutex := .many (.choice (logTo (.clientChannel client)) .foreign)

/-- The client is closed here, without the callbacks of the helper. -/
def releaseClient (client : Nat) : Code Mutex := .seq (.guard .client .skip) (.choice .skip (clientCode client))

def stopOnIoThread : Code Mutex := lockClient

/-- The bounded wait gives the mutex back and takes it again each time it wakes up. -/
def stopElsewhere (call client io : Nat) : Code Mutex :=
  .seq (.choice .skip (.seq lockClient (.choice .skip
      (.seq (.guard (.stopped call) .skip) (.many (.guard (.stopped call) .skip))))))
    (.seq (.choice .skip (.join io)) (releaseClient client))

/-! ### What the io thread runs -/

def messageCallback : Code Mutex := .seq (.guard .callback .skip) (.choice .skip .foreign)

def closeCallback : Code Mutex := .seq (logTo .helperChannel) (.choice .skip doReconnect)

def connectCallback : Code Mutex :=
  .seq (logTo .helperChannel) (.choice (.seq (logTo .helperChannel) doReconnect)
    (.seq (logTo .helperChannel) (.seq lockClient (.choice .skip (.guard .pending .skip)))))

/-- The handler of the backoff wait, and the task of `rearm_reconnect`. -/
def reconnectTask : Code Mutex := .choice .skip doConnect

/-- What `stop` gives to `async_disconnect`. When the bounded wait was over first, `close` in `release_client` runs it
on the thread that stops, whose mutex is gone by then. -/
def closedCallback (call : Nat) : Code Mutex := .guard (.stopped call) .skip

/-- `run` has returned or thrown. -/
def threadExit : Code Mutex := .seq (.choice .skip (logTo .helperChannel)) (logTo .helperChannel)

/-- What foreign code enters on an io thread, and on another one. `io` tells which threads are io threads. -/
inductive Enters (io : Nat → Bool) : Bool → Code Mutex → Prop where
  | log (own : Bool) : Enters io own loggerWrite
  /-- The process wide handler is set or asked for. -/
  | setHandler (own : Bool) : Enters io own (.guard .logger .skip)
  | setLogHandler (own : Bool) (client : Nat) : Enters io own (setLogHandler client)
  | getLogHandler (own : Bool) : Enters io own getLogHandler
  | onMessage (own : Bool) : Enters io own onMessage
  | subscribe (own : Bool) : Enters io own subscribe
  | publish (own : Bool) : Enters io own publish
  | isConnected (own : Bool) : Enters io own isConnected
  | rearmReconnect (own : Bool) : Enters io own rearmReconnect
  | start (own : Bool) (client : Nat) : Enters io own (start client)
  | stopOnIoThread : Enters io true stopOnIoThread
  | stopElsewhere (call client thread : Nat) (joins : io thread = true) :
    Enters io false (stopElsewhere call client thread)
  | messageCallback : Enters io true messageCallback
  | closeCallback : Enters io true closeCallback
  | connectCallback : Enters io true connectCallback
  | reconnectTask : Enters io true reconnectTask
  | closedCallback (own : Bool) (call : Nat) : Enters io own (closedCallback call)
  | clientCode (client : Nat) : Enters io true (clientCode client)
  | threadExit : Enters io true threadExit

/-! ### The order -/

/-- Only `log_handler_mutex_` is held while others are locked. -/
def rank : Mutex → Nat
  | logHandler => 0
  | _ => 1

/-- Only io threads are joined. -/
def level (io : Nat → Bool) (thread : Nat) : Nat := if io thread then 0 else 1

variable {io : Nat → Bool} {own : Bool} {code : Code Mutex} {threads s : List (Thread Mutex)} {actions : List Nat}

theorem ordered_logTo (own : Nat) (channel : Mutex) : (logTo channel).Ordered rank (level io) own [] :=
  ⟨trivial, ⟨by simp, trivial⟩, rfl, trivial, ⟨by simp, trivial⟩, rfl, trivial⟩

theorem ordered_lockClient (own : Nat) {held : List Mutex} (below : ∀ h ∈ held, h = logHandler) :
    lockClient.Ordered rank (level io) own held :=
  ⟨fun h among => below h among ▸ Nat.zero_lt_one, trivial⟩

theorem ordered_doConnect (own : Nat) : doConnect.Ordered rank (level io) own [] :=
  ⟨ordered_lockClient own (by simp), ordered_logTo own _⟩

theorem ordered_clientCode (own client : Nat) : (clientCode client).Ordered rank (level io) own [] :=
  ⟨ordered_logTo own _, rfl⟩

theorem ordered_initClient (own client : Nat) : (initClient client).Ordered rank (level io) own [] := by
  simp [initClient, Code.Ordered, rank]

theorem ordered_enters {thread : Nat} (enters : Enters io (io thread) code) :
    code.Ordered rank (level io) (level io thread) [] := by
  generalize kind : io thread = own at enters
  cases enters with
  | log => exact ⟨trivial, ⟨by simp, trivial⟩, rfl, trivial⟩
  | setHandler => exact ⟨by simp, trivial⟩
  | setLogHandler _ client => simp [setLogHandler, lockClient, Code.Ordered, rank]
  | getLogHandler => exact ⟨by simp, trivial⟩
  | onMessage => exact ⟨by simp, trivial⟩
  | subscribe => simp [subscribe, isConnected, lockClient, Code.Ordered]
  | publish => exact ⟨ordered_lockClient _ (by simp), trivial, rfl⟩
  | isConnected => exact ordered_lockClient _ (by simp)
  | rearmReconnect => exact ordered_logTo _ _
  | start _ client =>
    exact ⟨trivial, ordered_initClient _ client, ordered_lockClient _ (by simp), ordered_doConnect _⟩
  | stopOnIoThread => exact ordered_lockClient _ (by simp)
  | stopElsewhere call client joined joins =>
    have lower : level io joined < level io thread := by simp [level, joins, kind]
    have waits : (Code.guard (.stopped call) .skip : Code Mutex).Ordered rank (level io) (level io thread) [] :=
      ⟨by simp, trivial⟩
    exact ⟨⟨trivial, ordered_lockClient _ (by simp), trivial, waits, waits⟩, ⟨trivial, rfl, lower⟩,
      ordered_lockClient _ (by simp), trivial, ordered_clientCode _ client⟩
  | messageCallback => exact ⟨⟨by simp, trivial⟩, trivial, rfl⟩
  | closeCallback => exact ⟨ordered_logTo _ _, trivial, trivial, ordered_logTo _ _⟩
  | connectCallback =>
    exact ⟨ordered_logTo _ _, ⟨ordered_logTo _ _, trivial, ordered_logTo _ _⟩, ordered_logTo _ _,
      ordered_lockClient _ (by simp), trivial, by simp, trivial⟩
  | reconnectTask => exact ⟨trivial, ordered_doConnect _⟩
  | closedCallback => exact ⟨by simp, trivial⟩
  | clientCode client => exact ordered_clientCode _ client
  | threadExit => exact ⟨⟨trivial, ordered_logTo _ _⟩, ordered_logTo _ _⟩

/-- However the threads of one helper follow one another: a thread that is not done can go on, or waits for one that
can. Callbacks and log sinks of the user run with none of the mutexes held. -/
theorem never_deadlocked
    (started : ∀ i t, threads[i]? = some t → t.held = [] ∧ Trace (Enters io (io i)) .foreign t.rest)
    (done : Runs.exec Locks.step threads actions = some s) {i : Nat} {t : Thread Mutex} (found : s[i]? = some t) :
    (t.rest ≠ [] → Locks.Freed s i) ∧ ∀ rest, t.rest = .foreign :: rest → t.held = [] := by
  have bounded : ∀ m : Mutex, rank m ≤ 1 := by
    intro m
    cases m <;> simp [rank]
  have disciplined : Locks.Disciplined rank (level io) threads := by
    intro i t begun
    obtain ⟨empty, trace⟩ := started i t begun
    rw [empty]
    exact Locks.fits_of_ordered (fun _ => ordered_enters) trace rfl
  exact Locks.freed_run bounded disciplined done found

/-- The io thread hands a message to the user while another thread stops the helper. -/
def stopping : List (Thread Mutex) :=
  [{ rest := [.foreign, .acquire .callback, .release .callback, .foreign, .foreign] },
    { rest := [.foreign, .acquire .client, .release .client, .acquire (.stopped 0), .release (.stopped 0), .join 0,
        .acquire .client, .release .client, .foreign] }]

theorem stopping_traces (i : Nat) (t : Thread Mutex) (begun : stopping[i]? = some t) :
    t.held = [] ∧ Trace (Enters (· == 0) (i == 0)) .foreign t.rest := by
  cases i with
  | zero =>
    obtain rfl := Option.some.inj begun
    have message : Trace (Enters (· == 0) true) messageCallback [.acquire .callback, .release .callback, .foreign] :=
      .seq (.lock _) (.right .returns)
    exact ⟨rfl, .calls .messageCallback message .returns⟩
  | succ i =>
    cases i with
    | zero =>
      obtain rfl := Option.some.inj begun
      have flushed :
          Trace (Enters (· == 0) false) (.seq (.guard (.stopped 0) .skip) (.many (.guard (.stopped 0) .skip)))
          [.acquire (.stopped 0), .release (.stopped 0)] :=
        .seq (.lock _) .enough
      have stopped : Trace (Enters (· == 0) false) (stopElsewhere 0 0 0) [.acquire .client, .release .client,
          .acquire (.stopped 0), .release (.stopped 0), .join 0, .acquire .client, .release .client] :=
        .seq (.right (.seq (.lock _) (.right flushed)))
          (.seq (.right .join) (.seq (.lock _) (.left .skip)))
      exact ⟨rfl, .calls (.stopElsewhere 0 0 0 rfl) stopped .returns⟩
    | succ i => simp [stopping] at begun

/-- The thread that stops the helper is about to join the io thread, which can go on. -/
theorem stopping_freed : ∃ s, Runs.exec Locks.step stopping [1, 1, 1, 1, 1] = some s ∧ Locks.Freed s 1 := by
  have run : (Runs.exec Locks.step stopping [1, 1, 1, 1, 1]).map (fun s => decide (s[1]? = some
      { rest := [.join 0, .acquire .client, .release .client, .foreign] })) = some true := by
    decide +kernel
  obtain ⟨s, done, fact⟩ := Runs.exec_of_check run
  exact ⟨s, done, (never_deadlocked stopping_traces done (of_decide_eq_true fact)).1 (by simp)⟩

end Mutex
end LiteMqtt
