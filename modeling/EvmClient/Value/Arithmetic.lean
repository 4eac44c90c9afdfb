import EvmClient.Defect
import EvmClient.Value
import EvmClient.Number.Binary64

/-!
# Sums, products and order of values

Numbers of both kinds add, multiply and compare with each other; a sum or product with a double is a
double, and comparisons are exact. A sequence times a whole number is that many copies of it.
-/

set_option autoImplicit false

namespace EvmClient.Value

inductive Numeric where
  | whole (i : Int)
  | double (x : Float)

def numeric? : Value → Option Numeric
  | int i => some (.whole i)
  | bool b => some (.whole (if b then 1 else 0))
  | float x => some (.double x)
  | _ => none

def Numeric.toDouble : Numeric → Except Defect Float
  | .double x => .ok x
  | .whole i => (Number.nearestFloat? i).elim (.error .tooLarge) .ok

def Numeric.times : Numeric → Numeric → Except Defect Value
  | .whole i, .whole j => .ok (int (i * j))
  | m, n => do
    let x ← m.toDouble
    let y ← n.toDouble
    return float (x * y)

/-- Items as many times as told. The number must fit in 64 bits. -/
def copies {α : Type} (k : Int) (items : List α) : Except Defect (List α) :=
  if -9223372036854775808 ≤ k ∧ k < 9223372036854775808 then
    .ok (if items.isEmpty then [] else (List.replicate k.toNat items).flatten)
  else .error .tooLarge

def repeated (k : Int) : Value → Except Defect Value
  | text s => (copies k s.toList).map fun cs => text (String.ofList cs)
  | bytes bs => (copies k bs).map bytes
  | list items => (copies k items).map list
  | tuple items => (copies k items).map tuple
  | _ => .error .wrongKind

def times (v w : Value) : Except Defect Value :=
  match v.numeric?, w.numeric? with
  | some m, some n => m.times n
  | none, some (.whole k) => v.repeated k
  | some (.whole k), none => w.repeated k
  | _, _ => .error .wrongKind

def Numeric.plus : Numeric → Numeric → Except Defect Value
  | .whole i, .whole j => .ok (int (i + j))
  | m, n => do
    let x ← m.toDouble
    let y ← n.toDouble
    return float (x + y)

/-- The sum of two numbers, or two sequences of one kind behind each other. -/
def plus : Value → Value → Except Defect Value
  | text s, text t => .ok (text (s ++ t))
  | bytes bs, bytes cs => .ok (bytes (bs ++ cs))
  | list vs, list ws => .ok (list (vs ++ ws))
  | tuple vs, tuple ws => .ok (tuple (vs ++ ws))
  | v, w =>
    match v.numeric?, w.numeric? with
    | some m, some n => m.plus n
    | _, _ => .error .wrongKind

/-- The order of two numbers; none if one of them is no number. -/
def Numeric.isLess : Numeric → Numeric → Bool
  | .whole i, .whole j => i < j
  | .double x, .double y => x < y
  | .whole i, .double y => !y.isNaN && Number.compareWithFloat i y == .lt
  | .double x, .whole j => !x.isNaN && Number.compareWithFloat j x == .gt

def isLess (v w : Value) : Except Defect Bool :=
  match v.numeric?, w.numeric? with
  | some m, some n => .ok (m.isLess n)
  | _, _ => .error .wrongKind

def least (v w : Value) : Except Defect Value :=
  (w.isLess v).map fun less => if less then w else v

def greatest (v w : Value) : Except Defect Value :=
  (v.isLess w).map fun less => if less then w else v

end EvmClient.Value
