import EvmClient.Value.Equality

/-!
# Entries of log records

The names of entries are texts as a rule, but any fixed value can be one. Names that are equal are
one name, so that one and true are not told apart. Only entries with texts for names can be asked
for in a format.
-/

set_option autoImplicit false

namespace EvmClient

abbrev LogEntries := List (Value × Value)

namespace LogEntries

def ofFields (fields : Fields) : LogEntries := fields.map fun entry => (.text entry.1, entry.2)

def toFields : LogEntries → Fields
  | [] => []
  | (.text name, value) :: rest => (name, value) :: toFields rest
  | _ :: rest => toFields rest

def has (entries : LogEntries) (name : Value) : Bool :=
  entries.any fun entry => entry.1.equals name

/-- Puts a value under a name: in place if the name is there, else at the end. -/
def insert : LogEntries → Value → Value → LogEntries
  | [], name, value => [(name, value)]
  | (n, v) :: rest, name, value =>
    if n.equals name then (n, value) :: rest else (n, v) :: insert rest name value

def update (entries more : LogEntries) : LogEntries :=
  more.foldl (fun acc entry => acc.insert entry.1 entry.2) entries

/-- Names that entries may not have, because every record has parts of these names. -/
def reservedNames : List String :=
  ["name", "msg", "args", "levelname", "levelno", "pathname", "filename", "module", "exc_info",
    "exc_text", "stack_info", "lineno", "funcName", "created", "msecs", "relativeCreated", "thread",
    "threadName", "processName", "process", "message", "asctime"]

def isReserved : Value → Bool
  | .text name => reservedNames.contains name
  | _ => false

def free (entries : LogEntries) : Except Defect LogEntries :=
  if entries.any fun entry => isReserved entry.1 then .error .reservedName else .ok entries

def collect (source : Value) : List Value → LogEntries → Except Defect LogEntries
  | [], entries => .ok entries
  | name :: rest, entries =>
    if !name.isFixed then .error .wrongKind
    else if isReserved name || entries.has name then .error .reservedName
    else do
      let value ← source.entryAt name
      collect source rest (entries.insert name value)

/-- The entries of a record that are given as a dictionary or not at all. Another value is gone
through for the names and then asked for each of them. -/
def ofValue (v : Value) : Except Defect LogEntries :=
  if v.isNull then .ok []
  else
    match v.elements? with
    | some names => collect v names []
    | none => .error .wrongKind

def pairOf (v : Value) : Except Defect (Value × Value) :=
  match v.elements? with
  | some [name, value] => if name.isFixed then .ok (name, value) else .error .wrongKind
  | some _ => .error .malformedValue
  | none => .error .wrongKind

def ofPairs (v : Value) : Except Defect LogEntries :=
  if v.isTruthy then
    match v with
    | .dict entries => .ok (ofFields entries)
    | v =>
      match v.elements? with
      | some items => items.mapM pairOf
      | none => .error .wrongKind
  else .ok []

end LogEntries
end EvmClient
