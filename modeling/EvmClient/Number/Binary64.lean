/-!
# Binary floating point numbers as exact numbers

A finite double is a sign, a whole significand and a power of two. Truncation and comparison with
whole numbers are done on that form, so they are exact at every magnitude.
-/

set_option autoImplicit false

namespace EvmClient.Number

structure Dyadic where
  significand : Nat
  exponent : Int
  deriving DecidableEq, Repr

namespace Dyadic

def numerator (d : Dyadic) : Nat := d.significand * Nat.pow 2 d.exponent.toNat

def denominator (d : Dyadic) : Nat := Nat.pow 2 (-d.exponent).toNat

def floor (d : Dyadic) : Nat := d.numerator / d.denominator

end Dyadic

def isNegative (x : Float) : Bool := x.toBits.toNat / Nat.pow 2 63 == 1

def magnitude (x : Float) : Dyadic :=
  let bits : Nat := x.toBits.toNat
  let fraction : Nat := bits % Nat.pow 2 52
  let biased : Nat := bits / Nat.pow 2 52 % Nat.pow 2 11
  if biased = 0 then ⟨fraction, -1074⟩ else ⟨Nat.pow 2 52 + fraction, (biased : Int) - 1075⟩

def truncate (x : Float) : Int :=
  let n : Int := (magnitude x).floor
  if isNegative x then -n else n

/-- The double nearest to a whole number, unless the number is beyond all of them. -/
def nearestFloat? (i : Int) : Option Float :=
  let x := Float.ofScientific i.natAbs false 0
  if x.isInf then none else some (if i < 0 then -x else x)

def compareWithFloat (i : Int) (x : Float) : Ordering :=
  if x.isInf then if isNegative x then .gt else .lt
  else
    let m := magnitude x
    let n : Int := if isNegative x then -(m.numerator : Int) else m.numerator
    compare (i * m.denominator) n

end EvmClient.Number
