/-!
# Reading doubles

A numeral is an optional sign, digits with at most one point among or around them, and an optional
exponent; or one of the words for infinity and for no number. Blanks around it do not count.
-/

set_option autoImplicit false

namespace EvmClient.Number

def isNumeralBlank (c : Char) : Bool :=
  (9 ≤ c.toNat && c.toNat ≤ 13) || c == ' ' || c.toNat == 0x85 || c.toNat == 0xa0 ||
    c.toNat == 0x1680 || (0x2000 ≤ c.toNat && c.toNat ≤ 0x200a) || c.toNat == 0x2028 ||
    c.toNat == 0x2029 || c.toNat == 0x202f || c.toNat == 0x205f || c.toNat == 0x3000

def trimNumeral (cs : List Char) : List Char :=
  ((cs.dropWhile isNumeralBlank).reverse.dropWhile isNumeralBlank).reverse

def isAsciiDigit (c : Char) : Bool := '0' ≤ c && c ≤ '9'

def ofAsciiDigits (cs : List Char) : Nat :=
  cs.foldl (fun acc c => 10 * acc + (c.toNat - '0'.toNat)) 0

def splitSign : List Char → Bool × List Char
  | '-' :: cs => (true, cs)
  | '+' :: cs => (false, cs)
  | cs => (false, cs)

def exponent? : List Char → Option Int
  | [] => some 0
  | c :: cs =>
    if c == 'e' || c == 'E' then
      let (negative, ds) := splitSign cs
      if ds.isEmpty || !ds.all isAsciiDigit then none
      else some (if negative then -(ofAsciiDigits ds : Int) else ofAsciiDigits ds)
    else none

/-- The double nearest to `m * 10 ^ e`. Powers beyond the range of doubles are cut off first. -/
def ofDecimal (m : Nat) (e : Int) : Float :=
  if m = 0 then 0.0
  else
    let top := (Nat.toDigits 10 m).length + e
    if 400 < top then 1.0 / 0.0
    else if top < -400 then 0.0
    else if e < 0 then Float.ofScientific m true (-e).toNat
    else Float.ofScientific m false e.toNat

def unsignedFloat? (cs : List Char) : Option Float :=
  let word := String.ofList (cs.map Char.toLower)
  if word == "inf" || word == "infinity" then some (1.0 / 0.0)
  else if word == "nan" then some (0.0 / 0.0)
  else
    let whole := cs.takeWhile isAsciiDigit
    let rest := cs.dropWhile isAsciiDigit
    let (fraction, tail) := match rest with
      | '.' :: more => (more.takeWhile isAsciiDigit, more.dropWhile isAsciiDigit)
      | _ => ([], rest)
    if whole.isEmpty && fraction.isEmpty then none
    else (exponent? tail).map fun e =>
      ofDecimal (ofAsciiDigits (whole ++ fraction)) (e - fraction.length)

def signedFloat? (cs : List Char) : Option Float :=
  let (negative, rest) := splitSign cs
  (unsignedFloat? rest).map fun x => if negative then -x else x

/-- A text without underscores, of which none may stand at an end or beside another. -/
def withoutUnderscores? : List Char → Option (List Char)
  | [] => some []
  | ['_'] => none
  | '_' :: '_' :: _ => none
  | '_' :: c :: cs => (withoutUnderscores? cs).map (c :: ·)
  | c :: cs => (withoutUnderscores? cs).map (c :: ·)

/-- The double that a text denotes. A numeral with underscores stands without blanks around it. -/
def float? (s : String) : Option Float :=
  match signedFloat? (trimNumeral s.toList) with
  | some x => some x
  | none =>
    if s.toList.head? == some '_' then none else (withoutUnderscores? s.toList).bind signedFloat?

end EvmClient.Number
