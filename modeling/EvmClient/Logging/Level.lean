import EvmClient.Defect
import EvmClient.Value.Text

/-!
# Levels of log records

A level is a number; the usual ones have names. A name is read in either case of its letters.
-/

set_option autoImplicit false

namespace EvmClient.Logging.Level

def named : List (String × Int) :=
  [("CRITICAL", 50), ("FATAL", 50), ("ERROR", 40), ("WARNING", 30), ("WARN", 30), ("INFO", 20),
    ("DEBUG", 10), ("NOTSET", 0)]

def outermost : Int := 30

def debug : Int := 10

/-- A letter as a capital, including the two letters beyond ASCII whose capitals are ASCII. -/
def capital (c : Char) : Char :=
  if c == 'ı' then 'I' else if c == 'ſ' then 'S' else c.toUpper

def ofValue : Value → Except Defect Value
  | .int i => .ok (.int i)
  | .bool b => .ok (.bool b)
  | .text s =>
    match named.lookup (String.ofList (s.toList.map capital)) with
    | some i => .ok (.int i)
    | none => .error .malformedValue
  | _ => .error .wrongKind

def name (level : Value) : Option String :=
  match named.find? fun entry => some entry.2 == level.integer? with
  | some entry => some entry.1
  | none => level.text?.map fun s => "Level " ++ s

end EvmClient.Logging.Level
