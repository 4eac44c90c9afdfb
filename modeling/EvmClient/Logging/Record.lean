import EvmClient.Logging.Entries
import EvmClient.Logging.Level
import EvmClient.Text.Alphanumeric
import EvmClient.Text.Template

/-!
# Log records

A record is a message with its level, the logger it came through and further entries. A format is a
template over all of these by name; it must ask for at least one of them.
-/

set_option autoImplicit false

namespace EvmClient.Logging

structure Record where
  logger : String
  level : Value
  levelName : String
  message : Value
  /-- values for a message that is a template -/
  arguments : List Value := []
  entries : LogEntries := []
  deriving Inhabited

namespace Record

/-- The values for the message: a single dictionary gives them by name. -/
def supply (r : Record) : Supply :=
  match r.arguments with
  | [.dict (entry :: entries)] => Supply.ofFields (entry :: entries)
  | arguments => Supply.ofList arguments

def text? (r : Record) : Option String := do
  let template ← r.message.text?
  if r.arguments.isEmpty then return template else Template.fill template r.supply

def argumentsValue (r : Record) : Value :=
  match r.arguments with
  | [.dict (entry :: entries)] => .dict (entry :: entries)
  | arguments => .tuple arguments

def fields? (r : Record) : Option Fields := do
  let text ← r.text?
  return [("name", .text r.logger), ("msg", r.message), ("args", r.argumentsValue),
    ("levelname", .text r.levelName), ("levelno", r.level), ("exc_info", .null),
    ("exc_text", .null), ("stack_info", .null), ("threadName", .text "MainThread"),
    ("processName", .text "MainProcess")] ++ r.entries.toFields ++ [("message", .text text)]

def line? (r : Record) (format : String) : Option String := do
  let fields ← r.fields?
  let text ← Template.fill format (Supply.ofFields fields)
  return text ++ "\n"

end Record

namespace Format

def messageOnly : String := "%(message)s"

def isWordChar (c : Char) : Bool := Text.isAlphanumeric c || c == '_'

def isDecimal (c : Char) : Bool := (Text.decimalDigit? c).isSome

/-- Letters of conversions in either case, with the three letters beyond ASCII that count as `i` and
`s` where case does not matter. -/
def isConversion (c : Char) : Bool :=
  "diouxefgcrsa%DIOUXEFGCRSAİıſ".toList.contains c

def dropExtent : List Char → List Char
  | '*' :: rest => rest
  | cs => cs.dropWhile isDecimal

def dropPrecision : List Char → List Char
  | '.' :: rest =>
    let tail := dropExtent rest
    if tail.length < rest.length then tail else '.' :: rest
  | cs => cs

def startsDirective : List Char → Bool
  | '(' :: cs =>
    match cs.dropWhile isWordChar with
    | ')' :: rest =>
      !(cs.takeWhile isWordChar).isEmpty &&
        ((dropPrecision (dropExtent (rest.dropWhile Directive.isFlag))).head?.any isConversion)
    | _ => false
  | _ => false

def hasDirective : List Char → Bool
  | [] => false
  | '%' :: cs => startsDirective cs || hasDirective cs
  | _ :: cs => hasDirective cs

def ofValue (v : Value) : Except Defect String :=
  if v.isTruthy then
    match v with
    | .text s => if hasDirective s.toList then .ok s else .error .malformedValue
    | _ => .error .wrongKind
  else .ok messageOnly

end Format
end EvmClient.Logging
