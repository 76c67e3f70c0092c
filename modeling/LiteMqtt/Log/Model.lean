import LiteMqtt.General.Runs

/-!
# Logging

A log statement constructs a `log_stream`, which asks the process wide logger once whether its level is
enabled. What is streamed goes into the buffer, a move hands it on, and the destructor writes a record to the
channel or to the logger. Every access to the logger or to a channel is a step of its own, and handlers and the
level may be set between any two of them.
-/

namespace LiteMqtt

inductive LogLevel where
  | trace
  | debug
  | info
  | warn
  | error
  | off
  deriving DecidableEq, Repr

namespace LogLevel

def toInt : LogLevel → Int
  | trace => 0
  | debug => 1
  | info => 2
  | warn => 3
  | error => 4
  | off => 5

def name : LogLevel → String
  | trace => "trace"
  | debug => "debug"
  | info => "info"
  | warn => "warn"
  | error => "error"
  | off => "off"

end LogLevel

structure LogRecord where
  level : LogLevel
  file : String
  line : Int
  message : String
  deriving DecidableEq, Repr

inductive Ostream where
  | cout
  | cerr
  deriving DecidableEq, Repr

inductive Output (H : Type) where
  | handled (handler : H) (record : LogRecord)
  | printed (os : Ostream) (text : String)
  deriving DecidableEq, Repr

def defaultLogSink {H : Type} (record : LogRecord) : Output H :=
  .printed (if record.level.toInt ≥ LogLevel.warn.toInt then .cerr else .cout)
    ("[litemqtt][" ++ record.level.name ++ "] " ++ record.message ++ "\n")

/-- An empty handler is `none`. -/
structure Logger (H : Type) where
  handler : Option H := none
  level : LogLevel := .trace
  deriving DecidableEq, Repr

namespace Logger

variable {H : Type}

def isEnabled (l : Logger H) (level : LogLevel) : Bool := decide (level.toInt ≥ l.level.toInt)

/-- What a handler throws goes no further. -/
def dispatch (handler : Option H) (record : LogRecord) : Output H :=
  match handler with
  | some handler => .handled handler record
  | none => defaultLogSink record

end Logger

/-- `channel` is the number of a `log_channel`. -/
structure LogStream where
  channel : Option Nat
  level : LogLevel
  file : String
  line : Int
  enabled : Bool
  buffer : String := ""
  deriving DecidableEq, Repr

namespace LogStream

/-- `operator<<`. -/
def append (o : LogStream) (text : String) : LogStream :=
  if o.enabled then { o with buffer := o.buffer ++ text } else o

def movedFrom (o : LogStream) : LogStream := { o with enabled := false, buffer := "" }

def record (o : LogStream) : LogRecord := { level := o.level, file := o.file, line := o.line, message := o.buffer }

end LogStream

inductive Writing (H : Type) where
  /-- `log_channel::write`, before it looks for the channel's own handler. -/
  | channel (channel : Nat) (record : LogRecord)
  /-- `logger::write`, before it looks at the level. -/
  | logger (record : LogRecord)
  /-- `logger::write`, before it copies the handler. -/
  | enabled (record : LogRecord)
  | dispatch (handler : Option H) (record : LogRecord)
  deriving DecidableEq, Repr

namespace Writing

variable {H : Type}

def record : Writing H → LogRecord
  | .channel _ record | .logger record | .enabled record | .dispatch _ record => record

end Writing

/-- `~log_stream`, up to its first look at what other threads may change. -/
def LogStream.destroy {H : Type} (o : LogStream) : List (Writing H) :=
  if o.enabled then
    match o.channel with
    | some channel => [.channel channel o.record]
    | none => [.logger o.record]
  else []

/-- The stream that a statement constructed, those that it was moved to, and what became of them. `begun`, `text`
and the last two fields are history: the stream as constructed, what was streamed while it was enabled, what the
sinks got, and how often `logger::write` found the level disabled. -/
structure Statement (H : Type) where
  begun : LogStream
  text : String := ""
  streams : List LogStream := [begun]
  writing : List (Writing H) := []
  outputs : List (Output H) := []
  discarded : Nat := 0
  deriving DecidableEq, Repr

inductive Part where
  | append (index : Nat) (text : String)
  | move (index : Nat)
  | destroy (index : Nat)
  /-- A destructor goes on. -/
  | write (index : Nat)
  deriving DecidableEq, Repr

structure Logs (H : Type) where
  logger : Logger H := {}
  channels : Nat → Option H := fun _ => none
  statements : List (Statement H) := []

namespace Logs

variable {H : Type}

def construct (s : Logs H) (channel : Option Nat) (level : LogLevel) (file : String) (line : Int) : LogStream :=
  { channel, level, file, line, enabled := s.logger.isEnabled level }

/-- One access of `write` to what other threads may change, or the call of the sink. -/
def proceed (s : Logs H) (st : Statement H) : Writing H → Statement H
  | .channel channel record =>
      match s.channels channel with
      | some handler => { st with writing := st.writing ++ [.dispatch (some handler) record] }
      | none => { st with writing := st.writing ++ [.logger record] }
  | .logger record =>
      if s.logger.isEnabled record.level then { st with writing := st.writing ++ [.enabled record] }
      else { st with discarded := st.discarded + 1 }
  | .enabled record => { st with writing := st.writing ++ [.dispatch s.logger.handler record] }
  | .dispatch handler record => { st with outputs := st.outputs ++ [Logger.dispatch handler record] }

def perform (s : Logs H) (st : Statement H) : Part → Option (Statement H)
  | .append index text =>
      st.streams[index]?.map fun o =>
        { st with
          streams := st.streams.set index (o.append text)
          text := if o.enabled then st.text ++ text else st.text }
  | .move index =>
      st.streams[index]?.map fun o => { st with streams := st.streams.set index o.movedFrom ++ [o] }
  | .destroy index =>
      st.streams[index]?.map fun o =>
        { st with streams := st.streams.eraseIdx index, writing := st.writing ++ o.destroy }
  | .write index =>
      st.writing[index]?.map fun w => s.proceed { st with writing := st.writing.eraseIdx index } w

inductive Action (H : Type) where
  /-- `logger::set_handler`. -/
  | setHandler (handler : Option H)
  /-- `logger::set_level`. -/
  | setLevel (level : LogLevel)
  /-- `log_channel::set_handler`. -/
  | setChannelHandler (channel : Nat) (handler : Option H)
  | construct (channel : Option Nat) (level : LogLevel) (file : String) (line : Int)
  | perform (statement : Nat) (part : Part)

def step (s : Logs H) : Action H → Option (Logs H)
  | .setHandler handler => some { s with logger := { s.logger with handler } }
  | .setLevel level => some { s with logger := { s.logger with level } }
  | .setChannelHandler channel handler =>
      some { s with channels := fun other => if other = channel then handler else s.channels other }
  | .construct channel level file line =>
      some { s with statements := s.statements ++ [{ begun := s.construct channel level file line }] }
  | .perform statement part =>
      match s.statements[statement]? with
      | none => none
      | some st => (s.perform st part).map fun st => { s with statements := s.statements.set statement st }

end Logs
end LiteMqtt
