import EvmClient.Value
import EvmClient.Number.Integer
import EvmClient.Number.Shortest
import EvmClient.Text.Quoted

/-!
# The text of a value

`literal?` writes a value so that its kind can be seen, `text?` leaves a text as it is. There is no
text where a whole number inside the value has too many digits to be written.
-/

set_option autoImplicit false

namespace EvmClient

def commaSeparated (items : List String) : String := String.intercalate ", " items

/-- Items in parentheses; a comma follows a single one. -/
def parenthesized : List String → String
  | [item] => "(" ++ item ++ ",)"
  | items => "(" ++ commaSeparated items ++ ")"

namespace Value

mutual

def literal? : Value → Option String
  | null => some "None"
  | bool b => some (if b then "True" else "False")
  | int i => Number.decimal? i
  | float x => some (Number.floatText x)
  | text s => some (Text.quoted s)
  | bytes bs => some (Text.quotedBytes bs)
  | list items => (literals? items).map fun parts => "[" ++ commaSeparated parts ++ "]"
  | tuple items => (literals? items).map parenthesized
  | dict entries =>
    (entryLiterals? entries).map fun parts => "\x7b" ++ commaSeparated parts ++ "\x7d"

def literals? : List Value → Option (List String)
  | [] => some []
  | v :: rest => do
    let part ← literal? v
    let parts ← literals? rest
    return part :: parts

def entryLiterals? : List (String × Value) → Option (List String)
  | [] => some []
  | (name, v) :: rest => do
    let part ← literal? v
    let parts ← entryLiterals? rest
    return (Text.quoted name ++ ": " ++ part) :: parts

end

def text? : Value → Option String
  | text s => some s
  | v => v.literal?

end Value

def textListLiteral (texts : List String) : String :=
  "[" ++ commaSeparated (texts.map Text.quoted) ++ "]"

end EvmClient
