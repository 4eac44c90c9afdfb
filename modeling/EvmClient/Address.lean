import EvmClient.Crypto.Keccak
import EvmClient.Crypto.Secp256k1
import EvmClient.Defect
import EvmClient.Hex
import EvmClient.Value

/-!
# Addresses

An address is twenty bytes. Its checksum form writes a letter as a capital exactly where the hash of
the lower-case form has a digit of eight or more. `Address.isText` is the shape that is asked of an
address text; one line end may follow it.
-/

set_option autoImplicit false

namespace EvmClient.Address

def length : Nat := 20

def ofDigits? (cs : List Char) : Option (List UInt8) :=
  if cs.length = 2 * length then Hex.ofChars? cs else none

/-- The address in a text of forty digits, with or without the mark. -/
def ofText? (s : String) : Option (List UInt8) := ofDigits? (Hex.unmarkChars s.toList)

def lowerText (bs : List UInt8) : String := Hex.markedText bs

def capitalize (c : Char) (digit : Nat) : Char := if 8 ≤ digit then c.toUpper else c

def checksumDigits (bs : List UInt8) : List Char :=
  let digits := Hex.chars bs
  let hash := Keccak.hash (digits.map fun c => UInt8.ofNat c.toNat)
  List.zipWith capitalize digits (hash.flatMap fun b => [b.toNat / 16, b.toNat % 16])

def checksumText (bs : List UInt8) : String := String.ofList ('0' :: 'x' :: checksumDigits bs)

/-- The bytes of an address given as a text, as bytes, or as a number of forty digits. -/
def ofValue : Value → Except Defect (List UInt8)
  | .text s => (ofText? s).elim (.error .malformedValue) .ok
  | .bytes bs => if bs.length = length then .ok bs else .error .malformedValue
  | .int i =>
    let digits := Nat.toDigits 16 i.natAbs
    if i < 0 then .error .malformedValue else (ofDigits? digits).elim (.error .malformedValue) .ok
  | .bool _ => .error .malformedValue
  | _ => .error .wrongKind

def canonical (v : Value) : Except Defect String := (ofValue v).map checksumText

def withoutLineEnd (cs : List Char) : List Char :=
  if cs.getLast? = some '\n' then cs.dropLast else cs

def isChars : List Char → Bool
  | '0' :: 'x' :: cs => cs.length == 2 * length && cs.all Hex.isDigit
  | _ => false

def isText (s : String) : Bool := isChars (withoutLineEnd s.toList)

def isAddress : Value → Bool
  | .text s => isText s
  | _ => false

/-- The number in a private key: thirty-two bytes, given as hexadecimal text, as bytes or as a
number, that is a key of the curve. -/
def privateKey? (v : Value) : Option Nat := do
  let bs ← match v with
    | .text s =>
      let cs := Hex.unmarkChars s.toList
      Hex.ofChars? (if cs.length % 2 = 1 then '0' :: cs else cs)
    | .bytes bs => some bs
    | .int i =>
      let cs := Nat.toDigits 16 i.natAbs
      if i < 0 then none else Hex.ofChars? (if cs.length % 2 = 1 then '0' :: cs else cs)
    | _ => none
  let k := Hex.toNat bs
  if bs.length = 32 && Secp256k1.isPrivateKey k then some k else none

def ofPrivateKey (k : Nat) : List UInt8 :=
  let (x, y) := Secp256k1.publicKey k
  (Keccak.hash (Hex.ofNat 32 x ++ Hex.ofNat 32 y)).drop 12

end EvmClient.Address
