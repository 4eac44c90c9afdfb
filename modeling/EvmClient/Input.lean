import EvmClient.Address
import EvmClient.Error
import EvmClient.Value.Arithmetic

/-!
# Inputs that are checked before use

Addresses, amounts and hexadecimal payloads from callers. Each check gives the input in the form in
which it is used, or an error that names the field it was meant for.
-/

set_option autoImplicit false

namespace EvmClient.Input

def address (v : Value) (field : String := "address") : Outcome String := do
  let refuse (shown : Value) (reason : String) : Outcome String :=
    fail (.invalidAddress shown (.text field) (.text reason))
  if !v.isTruthy then refuse (.text "") s!"{field} is required"
  else
    match v with
    | .text s =>
      if Address.isText s then Outcome.ofDefect (Address.canonical (.text s))
      else refuse v "must be 0x followed by 40 hex characters"
    | _ => do
      let shown ← Outcome.ofDefect v.textOf
      refuse (.text shown) s!"{field} must be a string"

def maxAmount : Int := Nat.pow 2 256 - 1

def amountNumber : Value → Except String Int
  | .int i => .ok i
  | .text s => (Number.integer? s).elim (.error "must be a valid number") .ok
  | _ => .error "must be an integer"

/-- An amount between zero and a maximum, given as a number or as a text. -/
def amount (v : Value) (field : String := "value") (maximum : Value := .int maxAmount) :
    Outcome Int := do
  let refuse (shown : Value) (reason : String) : Outcome Int :=
    fail (.invalidAmount shown (.text field) (.text reason))
  match amountNumber v with
  | .error reason => refuse v reason
  | .ok n =>
    if n < 0 then refuse (.int n) "cannot be negative"
    else if ← Outcome.ofDefect (maximum.isLess (.int n)) then
      let limit ← Outcome.ofDefect maximum.textOf
      refuse (.int n) s!"exceeds maximum allowed ({limit})"
    else return n

def isMarkedHex : List Char → Bool
  | '0' :: 'x' :: cs => cs.all Hex.isDigit
  | _ => false

/-- A hexadecimal payload, unchanged. One line end may follow it, and counts for its length. -/
def hex (v : Value) (field : String := "data") : Outcome Value :=
  match v with
  | .text s =>
    if !isMarkedHex (Address.withoutLineEnd s.toList) then fail (.validation (.hexForm field))
    else if s.toList.length % 2 = 1 then fail (.validation (.hexLength field))
    else .ok v
  | _ => fail (.validation (.hexForm field))

end EvmClient.Input
