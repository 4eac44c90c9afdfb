import EvmClient.Abi.Type
import EvmClient.Address

/-!
# Encoding contract data

A sequence of values is laid out as heads followed by tails. The head of a static value is its
encoding; the head of a dynamic one is the distance from the first head to its tail.
`AbiType.encode?` gives no bytes where a value does not fit its type.
-/

set_option autoImplicit false

namespace EvmClient

namespace Abi

def wordLength : Nat := 32

def word (n : Nat) : List UInt8 := Hex.ofNat wordLength n

theorem length_word (n : Nat) : (word n).length = wordLength := Hex.length_ofNat _ _

def roundedUp (n : Nat) : Nat := (n + 31) / 32 * 32

def padRight (bs : List UInt8) : List UInt8 :=
  bs ++ List.replicate (roundedUp bs.length - bs.length) 0

structure EncodedMember where
  dynamic : Bool
  encoding : List UInt8
  deriving Repr

def EncodedMember.headLength (p : EncodedMember) : Nat :=
  if p.dynamic then wordLength else p.encoding.length

def headsLength : List EncodedMember → Nat
  | [] => 0
  | p :: rest => p.headLength + headsLength rest

/-- The heads of parts whose first tail stands at `offset`. -/
def heads : Nat → List EncodedMember → List UInt8
  | _, [] => []
  | offset, p :: rest =>
    if p.dynamic then word offset ++ heads (offset + p.encoding.length) rest
    else p.encoding ++ heads offset rest

def tails : List EncodedMember → List UInt8
  | [] => []
  | p :: rest => (if p.dynamic then p.encoding else []) ++ tails rest

def layout (parts : List EncodedMember) : List UInt8 :=
  heads (headsLength parts) parts ++ tails parts

theorem length_heads (offset : Nat) (parts : List EncodedMember) :
    (heads offset parts).length = headsLength parts := by
  induction parts generalizing offset with
  | nil => rfl
  | cons p rest ih =>
    by_cases h : p.dynamic <;>
      simp [heads, headsLength, EncodedMember.headLength, h, length_word, ih]

end Abi

namespace AbiType
open Abi

/-- The word of a value of an elementary type that fits it. The text of an address may be marked or
not and in any letter case: its checksum form is not asked for. -/
def encodeWord? : AbiType → Value → Option (List UInt8)
  | uint bits, .int i => if 0 ≤ i ∧ i < Nat.pow 2 bits then some (word i.toNat) else none
  | int bits, .int i =>
    let bound : Int := Nat.pow 2 (bits - 1)
    if -bound ≤ i ∧ i < bound then some (word (i % Nat.pow 2 256).toNat) else none
  | bool, .bool b => some (word (if b then 1 else 0))
  | address, .text s => (Address.ofText? s).map fun bs => List.replicate 12 0 ++ bs
  | address, .bytes bs =>
    if bs.length = Address.length then some (List.replicate 12 0 ++ bs) else none
  | fixedBytes n, .bytes bs =>
    if bs.length ≤ n then some (bs ++ List.replicate (32 - bs.length) 0) else none
  | _, _ => none

mutual

def encode? : AbiType → Value → Option (List UInt8)
  | bytes, .bytes bs => some (word bs.length ++ padRight bs)
  | string, .text s =>
    let bs := Keccak.utf8 s
    some (word bs.length ++ padRight bs)
  | array item length, v => do
    let items ← v.sequence?
    let parts ← items.mapM fun x => (encode? item x).map (EncodedMember.mk (isDynamic item))
    match length with
    | none => some (word items.length ++ layout parts)
    | some n => if items.length = n then some (layout parts) else none
  | tuple members, v => do
    let items ← v.sequence?
    let parts ← encodeEach? members items
    return layout parts
  | t, v => encodeWord? t v

def encodeEach? : List AbiType → List Value → Option (List EncodedMember)
  | [], [] => some []
  | t :: ts, v :: vs => do
    let encoding ← encode? t v
    let parts ← encodeEach? ts vs
    return ⟨isDynamic t, encoding⟩ :: parts
  | _, _ => none

end

def encodeAll? (types : List AbiType) (values : List Value) : Option (List UInt8) :=
  (encodeEach? types values).map layout

end AbiType
end EvmClient
