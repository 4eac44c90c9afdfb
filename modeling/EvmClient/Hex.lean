/-!
# Hexadecimal text

Bytes are written as two lower-case digits each and read in either case. A text may carry the mark
`0x` or `0X`. Quantities are written with the mark and without leading zeros.
-/

set_option autoImplicit false

namespace EvmClient.Hex

def digit? (c : Char) : Option Nat :=
  if '0' ≤ c && c ≤ '9' then some (c.toNat - '0'.toNat)
  else if 'a' ≤ c && c ≤ 'f' then some (c.toNat - 'a'.toNat + 10)
  else if 'A' ≤ c && c ≤ 'F' then some (c.toNat - 'A'.toNat + 10)
  else none

def isDigit (c : Char) : Bool := (digit? c).isSome

def digitChar (n : Nat) : Char := Nat.digitChar n

theorem digit?_digitChar {n : Nat} (h : n < 16) : digit? (digitChar n) = some n := by
  have all : ∀ i : Fin 16, digit? (digitChar i) = some i.val := by decide
  exact all ⟨n, h⟩

def byteChars (b : UInt8) : List Char := [digitChar (b.toNat / 16), digitChar (b.toNat % 16)]

def chars (bs : List UInt8) : List Char := bs.flatMap byteChars

theorem length_chars (bs : List UInt8) : (chars bs).length = 2 * bs.length := by
  induction bs with
  | nil => rfl
  | cons b bs ih =>
    simp only [chars, List.flatMap_cons, List.length_append, List.length_cons] at ih ⊢
    rw [ih, byteChars]
    simp only [List.length_cons, List.length_nil]
    omega

def encode (bs : List UInt8) : String := String.ofList (chars bs)

def markedText (bs : List UInt8) : String := String.ofList ('0' :: 'x' :: chars bs)

def ofChars? : List Char → Option (List UInt8)
  | [] => some []
  | [_] => none
  | a :: b :: rest => do
    let high ← digit? a
    let low ← digit? b
    let bs ← ofChars? rest
    return UInt8.ofNat (16 * high + low) :: bs

theorem ofChars?_chars (bs : List UInt8) : ofChars? (chars bs) = some bs := by
  induction bs with
  | nil => rfl
  | cons b bs ih =>
    have hb := b.toNat_lt
    have high := digit?_digitChar (show b.toNat / 16 < 16 by omega)
    have low := digit?_digitChar (show b.toNat % 16 < 16 by omega)
    have joined : UInt8.ofNat (16 * (b.toNat / 16) + b.toNat % 16) = b := by
      rw [show 16 * (b.toNat / 16) + b.toNat % 16 = b.toNat by omega]
      exact UInt8.ofNat_toNat
    rw [chars] at ih
    simp only [chars, List.flatMap_cons, byteChars, List.cons_append, List.nil_append, ofChars?,
      high, low, ih, Option.bind_eq_bind, Option.bind_some, Option.pure_def, joined]

def unmarkChars : List Char → List Char
  | '0' :: 'x' :: cs => cs
  | '0' :: 'X' :: cs => cs
  | cs => cs

def isMarked : List Char → Bool
  | '0' :: 'x' :: _ => true
  | '0' :: 'X' :: _ => true
  | _ => false

def unmark (s : String) : String := String.ofList (unmarkChars s.toList)

/-- Puts the mark in front of a text that has none. -/
def mark (s : String) : String := if isMarked s.toList then s else "0x" ++ s

/-- The bytes of a text of whole bytes, with or without the mark. -/
def decode? (s : String) : Option (List UInt8) := ofChars? (unmarkChars s.toList)

def quantity (i : Int) : String :=
  (if i < 0 then "-0x" else "0x") ++ String.ofList (Nat.toDigits 16 i.natAbs)

def toNat (bs : List UInt8) : Nat := bs.foldl (fun acc b => 256 * acc + b.toNat) 0

theorem toNat_append_singleton (bs : List UInt8) (b : UInt8) :
    toNat (bs ++ [b]) = 256 * toNat bs + b.toNat := by
  simp [toNat]

def ofNat : Nat → Nat → List UInt8
  | 0, _ => []
  | width + 1, n => ofNat width (n / 256) ++ [UInt8.ofNat n]

theorem length_ofNat (width n : Nat) : (ofNat width n).length = width := by
  induction width generalizing n with
  | zero => rfl
  | succ w ih => simp [ofNat, ih]

end EvmClient.Hex
