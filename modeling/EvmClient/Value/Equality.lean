import EvmClient.Text.Search
import EvmClient.Value.Arithmetic

/-!
# Equality and parts of values

Numbers are equal by what they are worth, in whatever form they are held, and NaN equals nothing.
Sequences are equal item by item if they are of one kind, dictionaries name by name in any order.
What a value contains, and what stands at a place in it, is told by equality.
-/

set_option autoImplicit false

namespace EvmClient.Value

def Numeric.equals : Numeric → Numeric → Bool
  | .whole i, .whole j => i == j
  | .double x, .double y => x == y
  | .whole i, .double y => !y.isNaN && Number.compareWithFloat i y == .eq
  | .double x, .whole j => !x.isNaN && Number.compareWithFloat j x == .eq

mutual

def equals : Value → Value → Bool
  | null, null => true
  | text s, text t => s == t
  | bytes bs, bytes cs => bs == cs
  | list vs, list ws => allEqual vs ws
  | tuple vs, tuple ws => allEqual vs ws
  | dict es, dict fs => es.length == fs.length && allEntered es fs
  | v, w =>
    match v.numeric?, w.numeric? with
    | some m, some n => m.equals n
    | _, _ => false

def allEqual : List Value → List Value → Bool
  | [], [] => true
  | v :: vs, w :: ws => equals v w && allEqual vs ws
  | _, _ => false

def allEntered : List (String × Value) → Fields → Bool
  | [], _ => true
  | (name, v) :: rest, fields =>
    (fields.lookup name).any (fun w => equals v w) && allEntered rest fields

end

mutual

/-- Values that do not change, all the way down. Only these can be names of entries. -/
def isFixed : Value → Bool
  | list _ | dict _ => false
  | tuple items => areFixed items
  | _ => true

def areFixed : List Value → Bool
  | [] => true
  | v :: vs => isFixed v && areFixed vs

end

def bytesContain (bs : List UInt8) : Value → Except Defect Bool
  | bytes cs => .ok (Text.occursIn cs bs)
  | v =>
    match v.integer? with
    | some i =>
      if 0 ≤ i ∧ i < 256 then .ok (bs.contains (UInt8.ofNat i.toNat)) else .error .malformedValue
    | none => .error .wrongKind

/-- Whether a value is found in another: as a part of a text or a byte string, an item of a sequence
or a name of a dictionary. -/
def contains (v w : Value) : Except Defect Bool :=
  match v, w with
  | text s, text t => .ok (Text.occursIn t.toList s.toList)
  | bytes bs, w => bytesContain bs w
  | list items, w | tuple items, w => .ok (items.any w.equals)
  | dict entries, w =>
    if w.isFixed then .ok (entries.any fun entry => w.equals (text entry.1)) else .error .wrongKind
  | _, _ => .error .wrongKind

def first (n : Nat) : Value → Except Defect Value
  | text s => .ok (text (String.ofList (s.toList.take n)))
  | bytes bs => .ok (bytes (bs.take n))
  | list items => .ok (list (items.take n))
  | tuple items => .ok (tuple (items.take n))
  | _ => .error .wrongKind

/-- The item at a place; places below zero count from the end. -/
def itemAt? {α : Type} (items : List α) (i : Int) : Option α :=
  if 0 ≤ i then items[i.toNat]?
  else if i.natAbs ≤ items.length then items[items.length - i.natAbs]?
  else none

def entryAt (v place : Value) : Except Defect Value :=
  match v, place with
  | dict entries, text name => .ok (Fields.get entries name)
  | v, place =>
    match v.elements?, place.integer? with
    | some items, some i => (itemAt? items i).elim (.error .outOfRange) .ok
    | _, _ => .error .wrongKind

end EvmClient.Value
