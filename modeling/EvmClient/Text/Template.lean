import EvmClient.Number.Places
import EvmClient.Value.Quantity

/-!
# Templates

A template is a text with directives. A directive is a percent sign, the name of a value in
parentheses or nothing, flags, a width, a precision and a conversion. `Template.fill` puts values in
the places of the directives; there is no text where a value does not fit its directive, or where
the values are too few or too many. Two percent signs are a plain one.
-/

set_option autoImplicit false

namespace EvmClient

inductive Extent where
  | fixed (n : Nat)
  /-- taken from the values -/
  | next
  deriving DecidableEq, Repr

structure DirectiveFlags where
  toLeft : Bool := false
  plus : Bool := false
  blank : Bool := false
  alternate : Bool := false
  zeros : Bool := false
  deriving DecidableEq, Repr

structure Directive where
  name : Option (List Char)
  flags : DirectiveFlags
  width : Option Extent
  precision : Option Extent
  conversion : Char
  deriving DecidableEq, Repr

inductive TemplatePiece where
  | plain (c : Char)
  | directive (d : Directive)
  deriving DecidableEq, Repr

namespace Directive

def isFlag (c : Char) : Bool := c == '-' || c == '+' || c == ' ' || c == '#' || c == '0'

def flagsOf (cs : List Char) : DirectiveFlags :=
  ⟨cs.contains '-', cs.contains '+', cs.contains ' ', cs.contains '#', cs.contains '0'⟩

def isDigit (c : Char) : Bool := '0' ≤ c && c ≤ '9'

def number (cs : List Char) : Nat := cs.foldl (fun n c => 10 * n + (c.toNat - '0'.toNat)) 0

def takeExtent (cs : List Char) : Option Extent × List Char :=
  match cs with
  | '*' :: rest => (some .next, rest)
  | _ =>
    let ds := cs.takeWhile isDigit
    (if ds.isEmpty then none else some (.fixed (number ds)), cs.dropWhile isDigit)

def takePrecision (cs : List Char) : Option Extent × List Char :=
  match cs with
  | '.' :: rest =>
    let (extent, rest) := takeExtent rest
    (some (extent.getD (.fixed 0)), rest)
  | _ => (none, cs)

def takeName : Nat → List Char → Option (List Char × List Char)
  | _, [] => none
  | 0, ')' :: rest => some ([], rest)
  | depth + 1, ')' :: rest => (takeName depth rest).map fun (name, r) => (')' :: name, r)
  | depth, '(' :: rest => (takeName (depth + 1) rest).map fun (name, r) => ('(' :: name, r)
  | depth, c :: rest => (takeName depth rest).map fun (name, r) => (c :: name, r)

def dropSizeMark : List Char → List Char
  | 'h' :: rest => rest
  | 'l' :: rest => rest
  | 'L' :: rest => rest
  | cs => cs

def take (cs : List Char) : Option (Directive × List Char) := do
  let (name, cs) ← match cs with
    | '(' :: rest => (takeName 0 rest).map fun (name, r) => (some name, r)
    | _ => some (none, cs)
  let flags := flagsOf (cs.takeWhile isFlag)
  let (width, cs) := takeExtent (cs.dropWhile isFlag)
  let (precision, cs) := takePrecision cs
  match dropSizeMark cs with
  | conversion :: rest => some (⟨name, flags, width, precision, conversion⟩, rest)
  | [] => none

end Directive

structure Supply where
  named : Option Fields
  values : List Value

namespace Supply

def ofList (vs : List Value) : Supply := ⟨none, vs⟩

/-- Values by name; a directive without a name gets all of them together. -/
def ofFields (fields : Fields) : Supply := ⟨some fields, [.dict fields]⟩

def next (s : Supply) : Option (Value × Supply) :=
  match s.values with
  | v :: rest => some (v, { s with values := rest })
  | [] => none

def select (s : Supply) (name : List Char) : Option Supply := do
  let fields ← s.named
  let v ← fields.lookup (String.ofList name)
  return { s with values := [v] }

def isUsedUp (s : Supply) : Bool := s.named.isSome || s.values.isEmpty

end Supply

namespace Directive

/-- Widths and precisions from here on are refused. -/
def extentBound : Nat := Nat.pow 2 31

/-- The number that a width or precision stands for; a negative one comes from a value. -/
def extentOf (s : Supply) : Extent → Option (Int × Supply)
  | .fixed n => some (n, s)
  | .next => do
    let (v, s) ← s.next
    return (← v.integer?, s)

def optionalExtent (s : Supply) : Option Extent → Option (Option Int × Supply)
  | none => some (none, s)
  | some e => do
    let (n, s) ← extentOf s e
    if n.natAbs < extentBound then some (some n, s) else none

structure Written where
  sign : List Char := []
  mark : List Char := []
  body : List Char
  /-- zeros may fill up the width -/
  isNumber : Bool := false

namespace Written

/-- Filled up to a width. Zeros go between the sign and the digits, blanks outside. -/
def padded (w : Written) (flags : DirectiveFlags) (width : Nat) : List Char :=
  let length := w.sign.length + w.mark.length + w.body.length
  let missing := width - length
  let all := w.sign ++ w.mark ++ w.body
  if flags.toLeft then all ++ List.replicate missing ' '
  else if flags.zeros && w.isNumber then
    w.sign ++ w.mark ++ List.replicate missing '0' ++ w.body
  else List.replicate missing ' ' ++ all

end Written

def signChars (flags : DirectiveFlags) (negative : Bool) : List Char :=
  if negative then ['-'] else if flags.plus then ['+'] else if flags.blank then [' '] else []

def atLeast (precision : Option Nat) (ds : List Char) : List Char :=
  List.replicate (precision.getD 0 - ds.length) '0' ++ ds

def wholeNumber (flags : DirectiveFlags) (precision : Option Nat) (i : Int) (base : Nat)
    (mark : List Char) : Written :=
  { sign := signChars flags (i < 0)
    mark := if flags.alternate then mark else []
    body := atLeast precision (Nat.toDigits base i.natAbs)
    isNumber := true }

def capitals (w : Written) : Written :=
  { w with mark := w.mark.map Char.toUpper, body := w.body.map Char.toUpper }

/-- A number in the decimal system; the fraction of a double is dropped. -/
def decimal (flags : DirectiveFlags) (precision : Option Nat) (v : Value) : Option Written := do
  let i ← match v with
    | .int i => some i
    | .bool b => some (if b then 1 else 0)
    | .float x => if x.isFinite then some (Number.truncate x) else none
    | _ => none
  let _ ← Number.decimal? i
  return wholeNumber flags precision i 10 []

def double? : Value → Option Float
  | .float x => some x
  | v => v.integer?.bind Number.nearestFloat?

def double (flags : DirectiveFlags) (precision : Option Nat) (layout : Number.FloatLayout)
    (v : Value) : Option Written := do
  let x ← double? v
  match Number.floatChars x layout (precision.getD 6) flags.alternate with
  | '-' :: rest => some { sign := ['-'], body := rest, isNumber := true }
  | cs => some { sign := signChars flags false, body := cs, isNumber := true }

def character : Value → Option Written
  | .text s =>
    match s.toList with
    | [c] => some { body := [c] }
    | _ => none
  | v => do
    let i ← v.integer?
    if 0 ≤ i ∧ i.toNat.isValidChar then some { body := [Char.ofNat i.toNat] } else none

def textual (precision : Option Nat) (s : Option String) : Option Written :=
  s.map fun s => { body := precision.elim s.toList s.toList.take }

def asciiChar (c : Char) : List Char :=
  if c.toNat < 0x80 then [c]
  else if c.toNat < 0x100 then '\\' :: 'x' :: Text.hexDigits 2 c.toNat
  else if c.toNat < 0x10000 then '\\' :: 'u' :: Text.hexDigits 4 c.toNat
  else '\\' :: 'U' :: Text.hexDigits 8 c.toNat

def asciiLiteral (v : Value) : Option String :=
  v.literal?.map fun s => String.ofList (s.toList.flatMap asciiChar)

def convert (conversion : Char) (flags : DirectiveFlags) (precision : Option Nat) (v : Value) :
    Option Written :=
  let number := v.integer?.map fun i => wholeNumber flags precision i
  match conversion with
  | 's' => textual precision v.text?
  | 'r' => textual precision v.literal?
  | 'a' => textual precision (asciiLiteral v)
  | 'd' | 'i' | 'u' => decimal flags precision v
  | 'o' => number.map fun write => write 8 ['0', 'o']
  | 'x' => number.map fun write => write 16 ['0', 'x']
  | 'X' => number.map fun write => capitals (write 16 ['0', 'x'])
  | 'c' => character v
  | 'e' => double flags precision .exponent v
  | 'E' => (double flags precision .exponent v).map capitals
  | 'f' => double flags precision .fixed v
  | 'F' => (double flags precision .fixed v).map capitals
  | 'g' => double flags precision .general v
  | 'G' => (double flags precision .general v).map capitals
  | _ => none

def fill (d : Directive) (s : Supply) : Option (List Char × Supply) := do
  let s ← d.name.elim (some s) s.select
  let (width, s) ← optionalExtent s d.width
  let (precision, s) ← optionalExtent s d.precision
  let (v, s) ← s.next
  let w ← convert d.conversion d.flags (precision.map Int.toNat) v
  let flags := if width.any (· < 0) then { d.flags with toLeft := true } else d.flags
  return (w.padded flags (width.elim 0 Int.natAbs), s)

end Directive

namespace Template

def piecesFrom : Nat → List Char → Option (List TemplatePiece)
  | _, [] => some []
  | 0, _ :: _ => none
  | fuel + 1, '%' :: '%' :: rest => (piecesFrom fuel rest).map (.plain '%' :: ·)
  | fuel + 1, '%' :: rest => do
    let (d, rest) ← Directive.take rest
    let pieces ← piecesFrom fuel rest
    return .directive d :: pieces
  | fuel + 1, c :: rest => (piecesFrom fuel rest).map (.plain c :: ·)

def pieces (s : String) : Option (List TemplatePiece) :=
  let cs := s.toList
  piecesFrom cs.length cs

def fillPieces : List TemplatePiece → Supply → Option (List Char)
  | [], s => if s.isUsedUp then some [] else none
  | .plain c :: rest, s => (fillPieces rest s).map (c :: ·)
  | .directive d :: rest, s => do
    let (cs, s) ← d.fill s
    let more ← fillPieces rest s
    return cs ++ more

def fill (template : String) (s : Supply) : Option String := do
  let ps ← pieces template
  let cs ← fillPieces ps s
  return String.ofList cs

end Template
end EvmClient
