import EvmClient.Number.Shortest

/-!
# Doubles with a given number of places

A double is written with so many places behind the point, with an exponent, or with so many
significant digits. Its exact value is rounded to the nearest decimal, a half to the even one.
-/

set_option autoImplicit false

namespace EvmClient.Number

/-- A quotient rounded to the nearest whole number, a half to the even one. -/
def roundedQuotient (n d : Nat) : Nat :=
  let q := n / d
  let r := n % d
  if 2 * r < d then q else if d < 2 * r then q + 1 else q + q % 2

def Dyadic.atPlaces (m : Dyadic) (places : Int) : Nat :=
  roundedQuotient (m.numerator * Nat.pow 10 places.toNat)
    (m.denominator * Nat.pow 10 (-places).toNat)

def withPoint (n places : Nat) (keepPoint : Bool) : List Char :=
  let ds := Nat.toDigits 10 n
  let ds := List.replicate (places + 1 - ds.length) '0' ++ ds
  let whole := ds.take (ds.length - places)
  let fraction := ds.drop (ds.length - places)
  whole ++ (if places = 0 && !keepPoint then [] else ['.']) ++ fraction

def Dyadic.scientific (m : Dyadic) (places : Nat) : Nat × Int :=
  if m.significand = 0 then (0, 0)
  else
    let e := leadingPower m.numerator m.denominator
    let n := m.atPlaces (places - e)
    if n = Nat.pow 10 (places + 1) then (Nat.pow 10 places, e + 1) else (n, e)

inductive FloatLayout where
  | fixed
  | exponent
  | general
  deriving DecidableEq, Repr

def withoutFractionZeros (cs : List Char) : List Char :=
  if cs.contains '.' then
    let rest := withoutTrailingZeros cs
    if rest.getLast? = some '.' then rest.dropLast else rest
  else cs

/-- A magnitude with so many significant digits, with an exponent where it is very small or has more
digits than that in front of the point. -/
def Dyadic.generalChars (m : Dyadic) (digits : Nat) (keepZeros : Bool) : List Char :=
  let digits := max 1 digits
  let (n, e) := m.scientific (digits - 1)
  let trim (cs : List Char) := if keepZeros then cs else withoutFractionZeros cs
  if -4 ≤ e && e < digits then
    trim (withPoint n (digits - 1 - e).toNat keepZeros)
  else trim (withPoint n (digits - 1) keepZeros) ++ (exponentText e).toList

/-- A magnitude as a layout asks for it; `full` keeps points and zeros that could be left out. -/
def Dyadic.chars (m : Dyadic) (layout : FloatLayout) (precision : Nat) (full : Bool) : List Char :=
  match layout with
  | .fixed => withPoint (m.atPlaces precision) precision full
  | .exponent =>
    let (n, e) := m.scientific precision
    withPoint n precision full ++ (exponentText e).toList
  | .general => m.generalChars precision full

def floatChars (x : Float) (layout : FloatLayout) (precision : Nat) (full : Bool) : List Char :=
  if x.isNaN then "nan".toList
  else
    let digits := if x.isInf then "inf".toList else (magnitude x).chars layout precision full
    if isNegative x then '-' :: digits else digits

end EvmClient.Number
