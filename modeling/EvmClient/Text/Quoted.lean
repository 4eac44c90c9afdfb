import EvmClient.Text.Printable

/-!
# Quoted texts and byte strings

A quoted text stands between apostrophes, or between double quotes if it holds an apostrophe and no
double quote. Inside, the quote in use, the backslash, line ends and tabs are escaped, and so is
every character that is not printable, by its code point in hexadecimal.
-/

set_option autoImplicit false

namespace EvmClient.Text

def lowerHexDigit (n : Nat) : Char := (Nat.digitChar (n % 16))

def hexDigits : Nat → Nat → List Char
  | 0, _ => []
  | width + 1, n => hexDigits width (n / 16) ++ [lowerHexDigit n]

def quoteFor (hasSingle hasDouble : Bool) : Char :=
  if hasSingle && !hasDouble then '"' else '\''

def escapeCommon? (quote c : Char) : Option (List Char) :=
  if c == quote || c == '\\' then some ['\\', c]
  else if c == '\n' then some ['\\', 'n']
  else if c == '\r' then some ['\\', 'r']
  else if c == '\t' then some ['\\', 't']
  else none

def escapeChar (quote c : Char) : List Char :=
  match escapeCommon? quote c with
  | some cs => cs
  | none =>
    if isPrintable c then [c]
    else if c.toNat < 0x100 then '\\' :: 'x' :: hexDigits 2 c.toNat
    else if c.toNat < 0x10000 then '\\' :: 'u' :: hexDigits 4 c.toNat
    else '\\' :: 'U' :: hexDigits 8 c.toNat

def quoted (s : String) : String :=
  let cs := s.toList
  let quote := quoteFor (cs.contains '\'') (cs.contains '"')
  String.ofList (quote :: cs.flatMap (escapeChar quote) ++ [quote])

def escapeByte (quote : Char) (b : UInt8) : List Char :=
  let c := Char.ofNat b.toNat
  match escapeCommon? quote c with
  | some cs => cs
  | none =>
    if 32 ≤ b.toNat && b.toNat < 127 then [c] else '\\' :: 'x' :: hexDigits 2 b.toNat

/-- A byte string reads like a text with a mark in front; bytes outside ASCII are escaped. -/
def quotedBytes (bs : List UInt8) : String :=
  let quote := quoteFor (bs.contains 39) (bs.contains 34)
  String.ofList ('b' :: quote :: bs.flatMap (escapeByte quote) ++ [quote])

end EvmClient.Text
