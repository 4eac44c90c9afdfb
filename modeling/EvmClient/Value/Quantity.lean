import EvmClient.Defect
import EvmClient.Hex
import EvmClient.Value.Text

/-!
# Values as hexadecimal texts and as numbers

A node gives hashes, data and quantities as bytes, as numbers or as hexadecimal text. These
functions bring them to one form; null stays null.
-/

set_option autoImplicit false

namespace EvmClient.Value

def textOf (v : Value) : Except Defect String := v.text?.elim (.error .malformedValue) .ok

/-- A value as hexadecimal text. What is neither bytes nor a number keeps its own text. -/
def hexText : Value → Except Defect Value
  | null => .ok null
  | bytes bs => .ok (text (Hex.markedText bs))
  | int i => .ok (text (Hex.quantity i))
  | bool b => .ok (text (Hex.quantity (if b then 1 else 0)))
  | v => v.textOf.map text

def quantityText (v : Value) : Except Defect Value :=
  match v.integer? with
  | some i => .ok (text (Hex.quantity i))
  | none => .error .wrongKind

def asciiText? (bs : List UInt8) : Option String :=
  if bs.all (· < 128) then some (String.ofList (bs.map fun b => Char.ofNat b.toNat)) else none

/-- The whole number that a value denotes; the fraction of a double is dropped. -/
def wholeNumber : Value → Except Defect Int
  | int i => .ok i
  | bool b => .ok (if b then 1 else 0)
  | float x =>
    if x.isNaN then .error .malformedValue
    else if x.isInf then .error .tooLarge
    else .ok (Number.truncate x)
  | text s => (Number.integer? s).elim (.error .malformedValue) .ok
  | bytes bs => ((asciiText? bs).bind Number.integer?).elim (.error .malformedValue) .ok
  | _ => .error .wrongKind

/-- A quantity as a number. Bytes are the digits of a number in base 256, and a text may be
hexadecimal or decimal; truth values stay as they are. -/
def quantity : Value → Except Defect Value
  | null => .ok null
  | int i => .ok (int i)
  | bool b => .ok (bool b)
  | bytes bs => .ok (int (Hex.toNat bs))
  | text s =>
    if "0x".isPrefixOf s then
      (Number.hexInteger? s).elim (.error .malformedValue) fun n => .ok (int n)
    else (wholeNumber (text s)).map int
  | v => do
    let _ ← v.textOf
    return int (← wholeNumber v)

end EvmClient.Value
