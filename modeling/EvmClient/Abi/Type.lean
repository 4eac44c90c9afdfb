import EvmClient.Abi.TypeText
import EvmClient.Defect
import EvmClient.Number.Integer

/-!
# Types of contract data

`AbiType.ofText` gives the type that a text names or the reason why there is none. Short names stand
for full ones: `uint` and `int` have 256 bits, `function` is `bytes24`, and inside a composite type
`byte` is `bytes1`. The sizes of a composite type are checked before any of its names is looked up,
and before that no number in it may have more digits than are read.
-/

set_option autoImplicit false

namespace EvmClient

inductive AbiType where
  | uint (bits : Nat)
  | int (bits : Nat)
  | address
  | bool
  | fixedBytes (length : Nat)
  | bytes
  | string
  | array (item : AbiType) (length : Option Nat)
  | tuple (members : List AbiType)
  deriving Repr, Inhabited

def TypeSize.isReadable : TypeSize → Bool
  | absent => true
  | width n => Number.isReadable n
  | ratio m n => Number.isReadable m && Number.isReadable n

namespace TypeExpr

mutual

def isReadable : TypeExpr → Bool
  | word _ size => size.isReadable
  | tuple members => areReadable members
  | array item length => isReadable item && length.all Number.isReadable

def areReadable : List TypeExpr → Bool
  | [] => true
  | e :: rest => isReadable e && areReadable rest

end

def isIntegerWidth (n : Nat) : Bool := 8 ≤ n && n ≤ 256 && n % 8 == 0

def expandWord (letters : String) (size : TypeSize) : String × TypeSize :=
  match letters, size with
  | "uint", .absent => ("uint", .width 256)
  | "int", .absent => ("int", .width 256)
  | "function", .absent => ("bytes", .width 24)
  | "byte", .absent => ("bytes", .width 1)
  | _, _ => (letters, size)

/-- Whether the size of a word may stand behind its letters; unknown letters take any size. -/
def isSizedWord (letters : String) (size : TypeSize) : Bool :=
  match letters, size with
  | "uint", .width n => isIntegerWidth n
  | "uint", _ => false
  | "int", .width n => isIntegerWidth n
  | "int", _ => false
  | "bytes", .width n => n ≤ 32
  | "bytes", .ratio _ _ => false
  | "bytes", .absent => true
  | "string", .absent => true
  | "string", _ => false
  | "address", .absent => true
  | "address", _ => false
  | "hash", .width _ => true
  | "hash", _ => false
  | _, _ => true

def namedType (letters : String) (size : TypeSize) : Except Defect AbiType :=
  match letters, size with
  | "uint", .width n => .ok (.uint n)
  | "int", .width n => .ok (.int n)
  | "address", _ => .ok .address
  | "bool", _ => .ok .bool
  | "bytes", .width n => .ok (.fixedBytes n)
  | "bytes", _ => .ok .bytes
  | "string", _ => .ok .string
  | "function", _ => .error .malformedValue
  | _, _ => .error .unknownType

mutual

def isSized : TypeExpr → Bool
  | word letters size =>
    let expanded := expandWord letters size
    isSizedWord expanded.1 expanded.2
  | tuple members => areSized members
  | array item _ => isSized item

def areSized : List TypeExpr → Bool
  | [] => true
  | e :: rest => isSized e && areSized rest

end

mutual

def denoted : TypeExpr → Except Defect AbiType
  | word letters size =>
    let expanded := expandWord letters size
    namedType expanded.1 expanded.2
  | tuple members => (denotedAll members).map .tuple
  | array item length => (denoted item).map (.array · length)

def denotedAll : List TypeExpr → Except Defect (List AbiType)
  | [] => .ok []
  | e :: rest => do
    let t ← denoted e
    let ts ← denotedAll rest
    return t :: ts

end

/-- The type that an expression denotes. A lone `byte` is no name, and a name is known before its
size is checked. -/
def resolve (e : TypeExpr) : Except Defect AbiType :=
  match e with
  | .word "byte" .absent => .error .unknownType
  | .word "hash" _ => .error .unknownType
  | e => if e.isSized then e.denoted else .error .badTypeSize

end TypeExpr

namespace AbiType

def hasEmptyTuple : List Char → Bool
  | '(' :: ')' :: _ => true
  | _ :: cs => hasEmptyTuple cs
  | [] => false

def ofText (s : String) : Except Defect AbiType :=
  match TypeExpr.read? s with
  | some e => if e.isReadable then e.resolve else .error .oversizedNumber
  | none => .error (if hasEmptyTuple s.toList then .malformedValue else .unreadableType)

def ofTexts (texts : List String) : Except Defect (List AbiType) := texts.mapM ofText

mutual

def isDynamic : AbiType → Bool
  | bytes | string => true
  | array _ none => true
  | array item (some _) => isDynamic item
  | tuple members => anyDynamic members
  | _ => false

def anyDynamic : List AbiType → Bool
  | [] => false
  | t :: rest => isDynamic t || anyDynamic rest

end

end AbiType
end EvmClient
