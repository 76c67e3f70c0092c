import Mathlib.Algebra.Group.Int.Defs
import LiteMqtt.Connection.Framing

/-!
# `mqtt_helper`

The helper owns a client, the io thread, and the timer of its backoff. Its functions are given
here with what they ask of the client; what the client makes of it is another matter.
-/

namespace LiteMqtt

/-- A call into the client, in the order in which the helper makes them. -/
inductive Ask where
  | asyncConnect
  | asyncSubscribe (topic : Bytes) (qos : UInt8)
  | asyncDisconnect
  /-- `release_client` takes the callbacks away before it closes the client. -/
  | clearCallbacks
  | close
  deriving DecidableEq, Repr

/-- What the helper has queued on its `io_context`. -/
inductive Chore where
  /-- The completion of a wait on `reconnect_timer_`. -/
  | waited (ec : ErrorCode)
  /-- The task of `rearm_reconnect`. -/
  | rearm
  deriving DecidableEq, Repr

/-- `client` says whether `client_` is set and `joinable` whether `io_thread_` is. `wait` is the delay
of the wait outstanding on `reconnect_timer_`. The last three fields are history: the calls into the
client, the waits that were armed, and that the process was terminated. -/
structure Helper where
  maxReconnectAttempts : Int := 10
  baseReconnectDelayMs : Int := 1000
  reconnectAttempts : Int := 0
  initialConnect : Bool := true
  running : Bool := false
  shouldReconnect : Bool := true
  reconnectPending : Bool := false
  userStopped : Bool := false
  stopped : Bool := false
  work : Bool := false
  client : Bool := false
  joinable : Bool := false
  subscribes : List (Bytes × UInt8) := []
  wait : Option Int := none
  chores : List Chore := []
  asked : List Ask := []
  armed : List Int := []
  terminated : Bool := false
  deriving DecidableEq, Repr

namespace Helper

def setReconnectConfig (h : Helper) (maxAttempts baseDelayMs : Int) : Helper :=
  { h with
    maxReconnectAttempts := if maxAttempts < -1 then 0 else maxAttempts
    baseReconnectDelayMs := if baseDelayMs < 0 then 0 else baseDelayMs }

def ask (h : Helper) (a : Ask) : Helper := { h with asked := h.asked ++ [a] }

def queue (h : Helper) (c : Chore) : Helper := { h with chores := h.chores ++ [c] }

/-! ### The backoff -/

def cancelReconnectTimer (h : Helper) : Helper :=
  { h with
    wait := none
    chores := h.chores ++ h.wait.toList.map fun _ => .waited (some .operationAborted) }

/-- `expires_after`, which cancels, and `async_wait`. -/
def armReconnectTimer (h : Helper) (delayMs : Int) : Helper :=
  { h.cancelReconnectTimer with wait := some delayMs, armed := h.armed ++ [delayMs] }

/-- The wait is over. -/
def expireReconnectTimer (h : Helper) : Helper := { h.queue (.waited none) with wait := none }

def doConnect (h : Helper) : Helper := if h.client then h.ask .asyncConnect else h

/-- Exponential growth, of which the shift and the result are capped. -/
def reconnectDelay (h : Helper) : Int :=
  if h.maxReconnectAttempts = -1 then h.baseReconnectDelayMs
  else min (h.baseReconnectDelayMs * 2 ^ (min h.reconnectAttempts 20).toNat) 30000

/-- The counter saturates. -/
def countAttempt (h : Helper) : Helper :=
  if h.reconnectAttempts < 1000000 then { h with reconnectAttempts := h.reconnectAttempts + 1 } else h

def doReconnect (h : Helper) : Helper :=
  if !h.shouldReconnect || h.userStopped then h
  else if h.reconnectPending then h
  else if h.maxReconnectAttempts ≠ -1 ∧ h.reconnectAttempts ≥ h.maxReconnectAttempts then
    { h with shouldReconnect := false, reconnectPending := false }
  else { h with reconnectPending := true }.countAttempt.armReconnectTimer h.reconnectDelay

/-- The handler of the backoff wait. -/
def onWaited (h : Helper) (ec : ErrorCode) : Helper :=
  let h := { h with reconnectPending := false }
  if ec.isSome then h else if h.shouldReconnect && !h.userStopped then h.doConnect else h

/-- The result tells whether the helper retries. -/
def rearmReconnect (h : Helper) : Helper × Bool :=
  if !h.running || h.userStopped then (h, false)
  else if h.shouldReconnect then (h, true)
  else ({ h with shouldReconnect := true, reconnectAttempts := 0, initialConnect := false }.queue .rearm, true)

def onRearm (h : Helper) : Helper :=
  if !h.shouldReconnect || h.userStopped then h
  else { h.cancelReconnectTimer with reconnectPending := false }.doConnect

/-- The io thread takes a chore of the helper. -/
def perform (h : Helper) : Chore → Helper
  | .waited ec => h.onWaited ec
  | .rearm => h.onRearm

/-! ### The callbacks that the client is given -/

def onClose (h : Helper) : Helper := if h.shouldReconnect && !h.userStopped then h.doReconnect else h

def restoreSubscriptions (h : Helper) : Helper :=
  if h.client then { h with asked := h.asked ++ h.subscribes.map fun item => .asyncSubscribe item.1 item.2 } else h

def onConnect (h : Helper) (success : Bool) : Helper :=
  if !success then h.doReconnect
  else { h with reconnectAttempts := 0, initialConnect := false }.restoreSubscriptions

/-! ### start -/

/-- Assigning to a joinable `std::thread` terminates the process. -/
def startIoThread (h : Helper) : Helper :=
  { h with running := true, terminated := h.terminated || h.joinable, joinable := true }

def start (h : Helper) : Helper :=
  if h.running then h
  else
    { h with
      userStopped := false, shouldReconnect := true, reconnectPending := false, reconnectAttempts := 0
      initialConnect := true, stopped := false, work := true, client := true }.doConnect.startIoThread

/-! ### stop -/

def abandonReconnect (h : Helper) : Helper :=
  { h.cancelReconnectTimer with userStopped := true, shouldReconnect := false, reconnectPending := false }

/-- `stop` in a callback on the io thread. Without a client the loop is stopped at once. -/
def stopOnIoThread (h : Helper) : Helper :=
  let h := { h.abandonReconnect with running := false }
  let h := if h.client then h.ask .asyncDisconnect else { h with stopped := true }
  { h with work := false }

/-- `stop` on another thread, up to the bounded wait for the DISCONNECT. -/
def beginStop (h : Helper) : Helper :=
  let wasRunning := h.running
  let h := { h.abandonReconnect with running := false }
  if wasRunning && h.client then h.ask .asyncDisconnect else h

def releaseClient (h : Helper) : Helper :=
  if h.client then ({ h with client := false }.ask .clearCallbacks).ask .close else h

/-- What follows that wait. -/
def finishStop (h : Helper) (wasRunning : Bool) : Helper :=
  let h := if wasRunning then { h with work := false, stopped := true } else h
  let h := if h.joinable then { h with stopped := true, joinable := false } else h
  h.releaseClient

def stopElsewhere (h : Helper) : Helper := h.beginStop.finishStop h.running

def stop (h : Helper) (onIoThread : Bool) : Helper :=
  if h.joinable && onIoThread then h.stopOnIoThread else h.stopElsewhere

/-- `~mqtt_helper`. Destroying a joinable `std::thread` terminates the process. -/
def destroy (h : Helper) (onIoThread : Bool) : Helper :=
  let h := h.stop onIoThread
  { h with terminated := h.terminated || h.joinable }

end Helper
end LiteMqtt
