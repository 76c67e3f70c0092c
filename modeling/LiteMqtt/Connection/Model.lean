import LiteMqtt.Connection.Framing

/-!
# The connection on its io thread

`Net` is one `connection` object together with the part of Asio it uses: the socket, the
outstanding operations and the FIFO queue of the single io thread. `H` names the handlers
its owner passes in and `K` the owner's own tasks and pending calls, so the model holds for
any owner.

The io thread runs one ready task at a time. Code that follows a call of an owner's handler
is an entry on `stack`, so that a handler may call back into the connection before it runs.
-/

namespace LiteMqtt

inductive ConnectionState where
  | disconnected | connecting | handshaking | connected
  deriving DecidableEq, Repr

/-- One queued frame. `serial` numbers the calls of `async_write_packet`. -/
structure WriteItem (H : Type) where
  serial : Nat
  buffer : Bytes
  handler : Option H
  deriving DecidableEq, Repr

/-- An operation outstanding on the open socket. -/
inductive SocketOp (H : Type) where
  /-- `rest` endpoints remain to be tried after the present one. -/
  | connect (handler : H) (rest : Nat)
  /-- `unsent` are the bytes that the kernel has not accepted yet. -/
  | write (serial : Nat) (unsent : Bytes)
  | read (phase : ReadPhase) (count : Nat) (handler : H)
  deriving DecidableEq, Repr

/-- A call of a handler that the owner passed in. -/
inductive Invocation (H : Type) where
  | connect (handler : H) (ec : ErrorCode)
  | read (handler : H) (ec : ErrorCode) (packet : Bytes)
  | write (serial : Nat) (handler : H) (ec : ErrorCode)
  | closed (handler : H)
  deriving DecidableEq, Repr

/-- What the io thread has yet to run: posted tasks and completions of operations. -/
inductive Task (H K : Type) where
  | enqueueWrite (item : WriteItem H)
  | failPendingWrites (ec : AsioError)
  /-- The failure that `enqueue_write` posts on a closed connection. -/
  | rejectWrite (item : WriteItem H)
  | resolved (handler : H) (result : Except AsioError Nat)
  | connected (handler : H) (rest : Nat) (socket : Nat) (ec : ErrorCode)
  | written (serial : Nat) (ec : ErrorCode)
  | read (phase : ReadPhase) (handler : H) (result : Except AsioError Bytes)
  | readHandler (handler : H) (ec : ErrorCode) (packet : Bytes)
  | own (k : K)

/-- What the running task has yet to do. -/
inductive StackEntry (H K : Type) where
  | invoke (call : Invocation H)
  /-- The rest of `do_write`'s completion, once the handler has returned. -/
  | afterWrite (ec : ErrorCode)
  /-- The end of `close`, where the close handler is read. -/
  | closeHandler
  | own (k : K)

/-- One TCP connection: the frames whose write was started on it, and the bytes sent. -/
structure Socket where
  number : Nat := 0
  isOpen : Bool := false
  established : Bool := false
  started : List (Nat × Bytes) := []
  sent : Bytes := []
  deriving DecidableEq, Repr

/-- The last three fields are history: every call of `async_write_packet`, the write handlers
run with their result, and the writes that completed without error. -/
structure Net (H K : Type) where
  state : ConnectionState := .disconnected
  closed : Bool := false
  socket : Socket := {}
  reading : ReadState := {}
  closeHandler : Option H := none
  writeQueue : List (WriteItem H) := []
  inFlight : Option (WriteItem H) := none
  writing : Bool := false
  resolves : List H := []
  ops : List (SocketOp H) := []
  ready : List (Task H K) := []
  stack : List (StackEntry H K) := []
  nextSerial : Nat := 0
  /-- Sockets replaced by a later TCP connect, oldest first. -/
  past : List Socket := []
  submitted : List (WriteItem H) := []
  handled : List (Nat × ErrorCode) := []
  succeeded : List Nat := []

variable {H K : Type}

def WriteItem.invocation (item : WriteItem H) (ec : ErrorCode) : List (StackEntry H K) :=
  match item.handler with
  | none => []
  | some h => [.invoke (.write item.serial h ec)]

def SocketOp.isRead : SocketOp H → Bool
  | .read .. => true
  | _ => false

/-- Closing the socket completes an operation on it with `operation_aborted`. -/
def SocketOp.abort (socket : Nat) : SocketOp H → Task H K
  | .connect h rest => .connected h rest socket (some .operationAborted)
  | .write serial _ => .written serial (some .operationAborted)
  | .read phase _ h => .read phase h (.error .operationAborted)

namespace Net

def post (n : Net H K) (task : Task H K) : Net H K := { n with ready := n.ready ++ [task] }

def push (n : Net H K) (entries : List (StackEntry H K)) : Net H K :=
  { n with stack := entries ++ n.stack }

/-! ### The socket -/

/-- `socket_.close()`. The reactor aborts reads before connects and writes. -/
def closeSocket (n : Net H K) : Net H K :=
  { n with
    socket := { n.socket with isOpen := false, established := false }
    ready := n.ready ++ (n.ops.filter (·.isRead) ++ n.ops.filter (!·.isRead)).map
      (SocketOp.abort n.socket.number)
    ops := [] }

/-- One round of `asio::async_connect`: close, reopen, and connect to the next endpoint. -/
def connectEndpoint (n : Net H K) (handler : H) (rest : Nat) : Net H K :=
  let n := n.closeSocket
  { n with
    past := n.past ++ [n.socket]
    socket := { number := n.socket.number + 1, isOpen := true }
    ops := [.connect handler rest] }

/-! ### async_connect -/

def asyncConnect (n : Net H K) (handler : H) : Net H K :=
  { n with state := .connecting, closed := false, resolves := n.resolves ++ [handler] }

/-- A successful resolve passes a non-empty range: one endpoint and `rest` more. -/
def onResolved (n : Net H K) (handler : H) : Except AsioError Nat → Net H K
  | .error ec => n.push [.invoke (.connect handler (some ec))]
  | .ok rest => n.connectEndpoint handler rest

def onConnected (n : Net H K) (handler : H) (ec : ErrorCode) : Net H K :=
  { n with state := if ec.isNone then .handshaking else .disconnected }.push
    [.invoke (.connect handler ec)]

/-- The completion inside `asio::async_connect`, which tries the endpoints in turn and gives
up when it finds the socket closed. -/
def onEndpoint (n : Net H K) (handler : H) (rest : Nat) (ec : ErrorCode) : Net H K :=
  if !n.socket.isOpen then n.onConnected handler (some .operationAborted)
  else
    match ec, rest with
    | none, _ => n.onConnected handler none
    | some ec, 0 => n.onConnected handler (some ec)
    | some _, rest + 1 => n.connectEndpoint handler rest

/-! ### Reading -/

/-- `asio::async_read`. On a closed socket it completes at once with an error. -/
def startRead (n : Net H K) (phase : ReadPhase) (count : Nat) (handler : H) : Net H K :=
  if n.socket.isOpen then { n with ops := n.ops ++ [.read phase count handler] }
  else n.post (.read phase handler (.error .badDescriptor))

def asyncReadPacket (n : Net H K) (handler : H) : Net H K :=
  match n.reading.asyncReadPacket with
  | (reading, some (.read phase count)) => { n with reading }.startRead phase count handler
  | (reading, _) => { n with reading }

def onRead (n : Net H K) (phase : ReadPhase) (handler : H) (result : Except AsioError Bytes) :
    Net H K :=
  match n.reading.onRead phase result with
  | (reading, .read phase count) => { n with reading }.startRead phase count handler
  | (reading, .post ec packet) => { n with reading }.post (.readHandler handler ec packet)

/-! ### Writing -/

def asyncWritePacket (n : Net H K) (data : Bytes) (handler : Option H) : Net H K :=
  let item : WriteItem H := { serial := n.nextSerial, buffer := data, handler }
  { n with nextSerial := n.nextSerial + 1, submitted := n.submitted ++ [item] }.post
    (.enqueueWrite item)

/-- `item` leaves the front of the queue, and `asio::async_write` starts on its buffer. -/
def startWrite (n : Net H K) (item : WriteItem H) (rest : List (WriteItem H)) : Net H K :=
  { n with
    writing := true
    inFlight := some item
    writeQueue := rest
    ops := n.ops ++ [.write item.serial item.buffer]
    socket := { n.socket with started := n.socket.started ++ [(item.serial, item.buffer)] } }

def doWrite (n : Net H K) : Net H K :=
  if n.writing then n
  else
    match n.writeQueue with
    | [] => n
    | item :: rest =>
        if !n.socket.isOpen || n.state == .disconnected || n.state == .connecting then
          n.post (.failPendingWrites .badDescriptor)
        else n.startWrite item rest

def enqueueWrite (n : Net H K) (item : WriteItem H) : Net H K :=
  if n.closed then n.post (.rejectWrite item)
  else
    let n := { n with writeQueue := n.writeQueue ++ [item] }
    if !n.writing then n.doWrite else n

/-- The queue is swapped into a local, whose handlers then run one after another. -/
def failPendingWrites (n : Net H K) (ec : AsioError) : Net H K :=
  { n with writeQueue := [], writing := false }.push
    (n.writeQueue.flatMap fun item : WriteItem H => item.invocation (some ec))

def onWritten (n : Net H K) (ec : ErrorCode) : Net H K :=
  match n.inFlight with
  | none => n
  | some item =>
      let n : Net H K := { n with inFlight := none, writing := false }
      n.push (item.invocation ec ++ [.afterWrite ec])

def afterWrite (n : Net H K) (ec : ErrorCode) : Net H K :=
  match ec with
  | some ec => { n.closeSocket with state := .disconnected }.failPendingWrites ec
  | none => if !n.writing && !n.writeQueue.isEmpty then n.doWrite else n

/-! ### close -/

def close (n : Net H K) : Net H K :=
  if n.closed then n
  else
    let inFlight := n.inFlight.toList
    let n := { ({ n with closed := true } : Net H K).closeSocket with state := .disconnected }
    let n := { n with inFlight := none, writing := false }
    let flying := inFlight.flatMap fun item : WriteItem H => item.invocation (some .operationAborted)
    (n.push (flying ++ [.closeHandler])).failPendingWrites .operationAborted

def markConnected (n : Net H K) : Net H K := { n with state := .connected }

def setCloseHandler (n : Net H K) (handler : Option H) : Net H K := { n with closeHandler := handler }

/-! ### The io thread -/

def runTask (n : Net H K) : Task H K → Net H K
  | .enqueueWrite item => n.enqueueWrite item
  | .failPendingWrites ec => n.failPendingWrites ec
  | .rejectWrite item => n.push (item.invocation (some .operationAborted))
  | .resolved handler result => n.onResolved handler result
  | .connected handler rest _ ec => n.onEndpoint handler rest ec
  | .written _ ec => n.onWritten ec
  | .read phase handler result => n.onRead phase handler result
  | .readHandler handler ec packet => n.push [.invoke (.read handler ec packet)]
  | .own k => n.push [.own k]

/-- The io thread takes the next ready task once the previous one is done. -/
def run (n : Net H K) : Option (Net H K) :=
  match n.stack, n.ready with
  | [], task :: rest => some ({ n with ready := rest }.runTask task)
  | _, _ => none

def recordCall (n : Net H K) : Invocation H → Net H K
  | .write serial _ ec => { n with handled := n.handled ++ [(serial, ec)] }
  | _ => n

/-- The running task goes on. Calling a handler hands control to the owner, whose calls into
the connection are actions of their own. -/
def resume (n : Net H K) : Option (Net H K) :=
  match n.stack with
  | .invoke call :: rest => some ({ n with stack := rest }.recordCall call)
  | .afterWrite ec :: rest => some ({ n with stack := rest }.afterWrite ec)
  | .closeHandler :: rest =>
      some ({ n with stack := rest }.push (n.closeHandler.toList.map fun h => .invoke (.closed h)))
  | _ => none

/-! ### The kernel -/

inductive Event where
  | resolve (index : Nat) (result : Except AsioError Nat)
  | connect (index : Nat) (ec : ErrorCode)
  /-- Bytes of an outstanding write are put on the wire. -/
  | send (index count : Nat)
  | write (index : Nat) (ec : ErrorCode)
  | read (index : Nat) (result : Except AsioError Bytes)

/-- An outstanding operation makes progress, or completes and is queued. A write succeeds
once all its bytes are sent, a read of `count` bytes delivers exactly so many. -/
def kernel (n : Net H K) : Event → Option (Net H K)
  | .resolve index result =>
      n.resolves[index]?.map fun h => { n with resolves := n.resolves.eraseIdx index }.post (.resolved h result)
  | .connect index ec =>
      match n.ops[index]? with
      | some (.connect h rest) =>
          some ({ n with
            ops := n.ops.eraseIdx index
            socket := { n.socket with established := ec.isNone } }.post
              (.connected h rest n.socket.number ec))
      | _ => none
  | .send index count =>
      match n.ops[index]? with
      | some (.write serial unsent) =>
          if n.socket.established && decide (count ≤ unsent.length) then
            some { n with
              ops := n.ops.set index (.write serial (unsent.drop count))
              socket := { n.socket with sent := n.socket.sent ++ unsent.take count } }
          else none
      | _ => none
  | .write index ec =>
      match n.ops[index]? with
      | some (.write serial unsent) =>
          if ec.isSome || unsent.isEmpty then
            some ({ n with
              ops := n.ops.eraseIdx index
              succeeded := if ec.isNone then n.succeeded ++ [serial] else n.succeeded }.post
                (.written serial ec))
          else none
      | _ => none
  | .read index result =>
      match n.ops[index]?, result with
      | some (.read phase count h), .ok bytes =>
          if bytes.length = count then
            some ({ n with ops := n.ops.eraseIdx index }.post (.read phase h (.ok bytes)))
          else none
      | some (.read phase _ h), .error ec =>
          some ({ n with ops := n.ops.eraseIdx index }.post (.read phase h (.error ec)))
      | _, _ => none

/-! ### Runs -/

inductive Action (H K : Type) where
  | run
  | resume
  | kernel (event : Event)
  | asyncConnect (handler : H)
  | asyncReadPacket (handler : H)
  | asyncWritePacket (data : Bytes) (handler : Option H)
  | markConnected
  | close
  | setCloseHandler (handler : Option H)
  /-- The owner posts a task of its own. -/
  | post (k : K)
  /-- The owner's running code calls a function that it continues after. -/
  | push (ks : List K)
  | pop

/-- The owner may call into the connection between any two steps. -/
def step (n : Net H K) : Action H K → Option (Net H K)
  | .run => n.run
  | .resume => n.resume
  | .kernel event => n.kernel event
  | .asyncConnect h => some (n.asyncConnect h)
  | .asyncReadPacket h => some (n.asyncReadPacket h)
  | .asyncWritePacket data h => some (n.asyncWritePacket data h)
  | .markConnected => some n.markConnected
  | .close => some n.close
  | .setCloseHandler h => some (n.setCloseHandler h)
  | .post k => some (n.post (.own k))
  | .push ks => some (n.push (ks.map .own))
  | .pop =>
      match n.stack with
      | .own _ :: rest => some { n with stack := rest }
      | _ => none

end Net

end LiteMqtt
