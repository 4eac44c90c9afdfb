import EvmClient.Logging.LoggerName
import EvmClient.Logging.Record

/-!
# Logging

The loggers of the library lie under one root, which has a level, can be switched off, and writes to
at most one stream. A record reaches the stream if its level is at least the root's; switching the
root off stops the records of the root itself and not those of the loggers below it. A context adds
entries to the records that go through it.
-/

set_option autoImplicit false

namespace EvmClient

structure LogHandler where
  format : String
  /-- the stream that is written to, if anybody looks at it -/
  stream : Option String
  deriving DecidableEq, Repr

structure LogContext where
  logger : String
  entries : Fields
  deriving Inhabited

structure Logging where
  level : Value := .int 0
  isDisabled : Bool := false
  handler : Option LogHandler := none
  /-- the names of the loggers that were asked for -/
  loggers : List String := []
  contexts : List (String × LogContext) := []
  deriving Inhabited

structure LogOutput where
  stream : String
  text : String
  deriving DecidableEq, Repr

namespace Logging

/-! ## Configuration -/

def getLogger (s : Logging) (name : Value) : Except Defect (String × Logging) :=
  (LoggerName.ofValue name).map fun full => (full, { s with loggers := full :: s.loggers })

def setLevel (s : Logging) (level : Value) : Except Defect Logging :=
  (Level.ofValue level).map fun v => { s with level := v }

def disable (s : Logging) : Logging := { s with isDisabled := true }

def enableDebug (s : Logging) : Logging :=
  { s with isDisabled := false, level := .int Level.debug }

/-- Writes to a stream from now on. The handler before is gone in any case; the new one stays even
if the level is refused. -/
def configure (s : Logging) (level format : Value) (stream : Option String) :
    Except Defect Unit × Logging :=
  match Format.ofValue format with
  | .error d => (.error d, { s with handler := none })
  | .ok f =>
    let s := { s with handler := some ⟨f, stream⟩ }
    match s.setLevel level with
    | .ok s => (.ok (), s)
    | .error d => (.error d, s)

/-! ## Records -/

def reachesRoot (s : Logging) (logger : String) : Bool := LoggerName.isUnderRoot s.loggers logger

def threshold (s : Logging) (logger : String) : Int :=
  let own := if s.reachesRoot logger then s.level.integer?.getD 0 else 0
  if own = 0 then Level.outermost else own

/-- Whether a logger takes records of a level, which has to be positive. -/
def takes (s : Logging) (logger : String) (level : Int) : Bool :=
  !(s.isDisabled && logger == LoggerName.root) && 0 < level && s.threshold logger ≤ level

def write (s : Logging) (r : Record) : List LogOutput :=
  match s.handler with
  | some ⟨format, some stream⟩ =>
    if s.reachesRoot r.logger then ((r.line? format).map (⟨stream, ·⟩)).toList else []
  | _ => []

/-- Logs a message through a logger. A level that is no whole number is passed over, and defects of
the entries only count for a record that is taken. -/
def log (s : Logging) (logger : String) (level message : Value) (arguments : List Value)
    (entries : Except Defect LogEntries) : Except Defect (List LogOutput) :=
  match level.integer? with
  | none => .ok []
  | some n =>
    if s.takes logger n then
      match Level.name level with
      | none => .error .malformedValue
      | some levelName =>
        entries.map fun entries => s.write ⟨logger, level, levelName, message, arguments, entries⟩
    else .ok []

end Logging

namespace LogContext

/-- The entries of a context may not be named like its own parts. -/
def make (logger : String) (entries : Fields) : Except Defect LogContext :=
  if entries.has "self" || entries.has "logger" then .error .wrongKind else .ok ⟨logger, entries⟩

def bind (c : LogContext) (entries : Fields) : Except Defect LogContext :=
  if entries.has "self" then .error .wrongKind else make c.logger (c.entries.update entries)

/-- The entries of a record that goes through a context: those of the context, and those given for
the record, which win. -/
def entriesWith (c : LogContext) (given : Value) : Except Defect LogEntries :=
  (LogEntries.ofPairs given).map fun more => (LogEntries.ofFields c.entries).update more

def takes (s : Logging) (logger : String) (level : Value) : Except Defect Bool :=
  if s.isDisabled && logger == LoggerName.root then .ok false
  else
    match level with
    | .float x => .ok (0.0 < x && Number.compareWithFloat (s.threshold logger) x != .gt)
    | v =>
      match v.integer? with
      | some n => .ok (s.takes logger n)
      | none => .error .wrongKind

def log (s : Logging) (c : LogContext) (level message given : Value) :
    Except Defect (List LogOutput) := do
  if ← takes s c.logger level then
    let entries ← c.entriesWith given
    s.log c.logger level message [] entries.free
  else return []

end LogContext
end EvmClient
