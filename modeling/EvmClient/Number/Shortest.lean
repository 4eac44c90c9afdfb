import EvmClient.Number.Binary64

/-!
# The shortest decimal that reads back

Among the decimals that lie in the interval of numbers rounding to a given double, the digits
written are the fewest possible, and of those the nearest to the double.
-/

set_option autoImplicit false

namespace EvmClient.Number

/-- The interval of numbers that round to a double, in quarters of its unit `2 ^ exponent`. The ends
belong to it when the significand is even. -/
structure RoundingInterval where
  low : Nat
  middle : Nat
  high : Nat
  closed : Bool
  exponent : Int

/-- Below a power of two the neighbours are closer than above it. -/
def roundingInterval (d : Dyadic) : RoundingInterval :=
  let narrow := d.significand == Nat.pow 2 52 && d.exponent != -1074
  { low := 4 * d.significand - (if narrow then 1 else 2)
    middle := 4 * d.significand
    high := 4 * d.significand + 2
    closed := d.significand % 2 == 0
    exponent := d.exponent - 2 }

structure Decimal where
  digits : Nat
  exponent : Int
  deriving DecidableEq, Repr

def scaled (a : Nat) (x : Int) (b : Nat) (y : Int) : Nat × Nat :=
  (a * Nat.pow 2 x.toNat * Nat.pow 10 (-y).toNat, b * Nat.pow 10 y.toNat * Nat.pow 2 (-x).toNat)

def RoundingInterval.contains (r : RoundingInterval) (d : Decimal) : Bool :=
  let (l, v) := scaled r.low r.exponent d.digits d.exponent
  let (h, w) := scaled r.high r.exponent d.digits d.exponent
  if r.closed then l ≤ v && w ≤ h else l < v && w < h

def RoundingInterval.below (r : RoundingInterval) (y : Int) : Nat :=
  let (v, u) := scaled r.middle r.exponent 1 y
  v / u

/-- Whether the upper neighbour on a grid is nearer to the middle than the lower one; a tie goes to
the even neighbour. -/
def RoundingInterval.nearerAbove (r : RoundingInterval) (k : Nat) (y : Int) : Bool :=
  let (v, u) := scaled (2 * r.middle) r.exponent (2 * k + 1) y
  if v = u then k % 2 == 1 else u < v

def RoundingInterval.onGrid? (r : RoundingInterval) (y : Int) : Option Decimal :=
  let k := r.below y
  let lower : Decimal := ⟨k, y⟩
  let upper : Decimal := ⟨k + 1, y⟩
  match r.contains lower, r.contains upper with
  | true, true => some (if r.nearerAbove k y then upper else lower)
  | true, false => some lower
  | false, true => some upper
  | false, false => none

def decimalLength (n : Nat) : Nat := (Nat.toDigits 10 n).length

def leadingPower (n d : Nat) : Int :=
  if d ≤ n then (decimalLength (n / d) : Int) - 1
  else
    let k := decimalLength (d / n)
    if d ≤ n * Nat.pow 10 (k - 1) then -((k : Int) - 1) else -(k : Int)

/-- The shortest decimal of a positive magnitude: grids of one digit, of two, up to seventeen. -/
def shortest (d : Dyadic) : Decimal :=
  let r := roundingInterval d
  let top := leadingPower d.numerator d.denominator
  ((List.range 17).findSome? fun (n : Nat) => r.onGrid? (top - n)).getD
    ⟨r.below (top - 16), top - 16⟩

/-- How doubles are written: positionally while the point stands at most `lowest` zeros before the
first digit or at most `highest` places after it, and with an exponent of at least two digits
otherwise. -/
structure FloatFormat where
  lowest : Int
  highest : Int

def plainFloat : FloatFormat := ⟨-3, 16⟩

def withoutTrailingZeros (cs : List Char) : List Char :=
  (cs.reverse.dropWhile (· == '0')).reverse

def exponentText (e : Int) : String :=
  let digits := toString e.natAbs
  (if e < 0 then "e-" else "e+") ++ (if digits.length < 2 then "0" ++ digits else digits)

def FloatFormat.layout (f : FloatFormat) (ds : List Char) (point : Int) : String :=
  if point < f.lowest || f.highest < point then
    match ds with
    | [] => ""
    | [c] => String.ofList [c] ++ exponentText (point - 1)
    | c :: rest => String.ofList (c :: '.' :: rest) ++ exponentText (point - 1)
  else if point ≤ 0 then
    "0." ++ String.ofList (List.replicate (-point).toNat '0' ++ ds)
  else
    let whole := ds.take point.toNat
    let rest := ds.drop point.toNat
    String.ofList (whole ++ List.replicate (point.toNat - whole.length) '0') ++ "." ++
      (if rest.isEmpty then "0" else String.ofList rest)

def floatText (x : Float) : String :=
  if x.isNaN then "nan"
  else
    let sign := if isNegative x then "-" else ""
    if x.isInf then sign ++ "inf"
    else
      let m := magnitude x
      if m.significand = 0 then sign ++ "0.0"
      else
        let d := shortest m
        let ds := Nat.toDigits 10 d.digits
        let point := (ds.length : Int) + d.exponent
        sign ++ plainFloat.layout (withoutTrailingZeros ds) point

end EvmClient.Number
