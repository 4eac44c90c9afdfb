import EvmClient.Abi.Decode
import EvmClient.Error

/-!
# Functions and events of a contract

A function is named by its signature, of which the first four bytes of the hash select it; an event
is named by the whole hash of its signature, its first topic. Blanks do not count in a signature.
Arguments and results travel as values with the texts of their types.
-/

set_option autoImplicit false

namespace EvmClient

structure TypedValue where
  type : String
  value : Value
  deriving Inhabited

structure Function where
  name : String
  inputs : List TypedValue := []
  outputs : List String := []
  deriving Inhabited

structure EventParameter where
  type : String
  isIndexed : Bool
  deriving DecidableEq, Repr, Inhabited

structure Event where
  name : String
  parameters : List EventParameter
  deriving DecidableEq, Repr, Inhabited

def signatureText (name : String) (types : List String) : String :=
  name ++ "(" ++ String.intercalate "," types ++ ")"

/-- The hash of a signature, in which blanks do not count. -/
def signatureHash (signature : String) : List UInt8 :=
  Keccak.hashText (String.ofList (signature.toList.filter (· != ' ')))

namespace TypedValue

/-- Values of struct types keep their type when the others are unwrapped. -/
def isStruct (v : TypedValue) : Bool := "(".isPrefixOf v.type || "tuple".isPrefixOf v.type

def text (v : TypedValue) : Except Defect String :=
  if v.type = "address" then Address.canonical v.value else v.value.textOf

end TypedValue

namespace Function

def inputTypes (f : Function) : List String := f.inputs.map TypedValue.type

def signature (f : Function) : String := signatureText f.name f.inputTypes

def selector (f : Function) : List UInt8 := (signatureHash f.signature).take 4

end Function

namespace Event

def signature (e : Event) : String := signatureText e.name (e.parameters.map EventParameter.type)

def topic (e : Event) : String := Hex.markedText (signatureHash e.signature)

def indexed (e : Event) : List EventParameter := e.parameters.filter EventParameter.isIndexed

def unindexed (e : Event) : List EventParameter := e.parameters.filter fun p => !p.isIndexed

end Event

namespace Abi

def dataBytes (data : Value) : Outcome (List UInt8) :=
  if data.isTruthy then
    match data with
    | .text s => (Hex.decode? s).elim (fail (.validation (.hexData data))) .ok
    | _ => fail (.validation (.hexData data))
  else .ok []

/-- The encoding of arguments. A type text that cannot be read is a defect, and so is an encoding of
more bytes than there can be; everything else that does not work is an error. -/
def encodeArguments (arguments : List TypedValue) : Outcome (List UInt8) :=
  let texts := arguments.map TypedValue.type
  match AbiType.ofTexts texts with
  | .ok types =>
    match AbiType.encodeAll? types (arguments.map TypedValue.value) with
    | some bs => if bs.length < lengthBound then .ok bs else .error (Failure.ofDefect .tooLarge)
    | none => fail (.validation (.arguments texts .misfit))
  | .error .unreadableType => .error (Failure.ofDefect .unreadableType)
  | .error .oversizedNumber => .error (Failure.ofDefect .oversizedNumber)
  | .error d => fail (.validation (.arguments texts (.type d)))

def encodeCall (f : Function) : Outcome String := do
  let arguments ← encodeArguments f.inputs
  return Hex.markedText (f.selector ++ arguments)

def encodeConstructor (arguments : List TypedValue) : Outcome String := do
  if arguments.isEmpty then return ""
  else return Hex.encode (← encodeArguments arguments)

def decodeValues (types : List String) (bs : List UInt8) (mismatch : ClientError) :
    Outcome (List Value) := do
  let types ← Outcome.ofDefect (AbiType.ofTexts types)
  match AbiType.decodeAll types bs with
  | .ok vs => .ok vs
  | .error failure =>
    match failure.defect? with
    | some d => .error (Failure.ofDefect d)
    | none => fail mismatch

/-- The results of a call. No data is no result. -/
def decodeReturn (data : Value) (types : List String) : Outcome (List TypedValue) := do
  let bs ← dataBytes data
  if bs.isEmpty || types.isEmpty then return []
  else
    let vs ← decodeValues types bs (.conversion (.response data types))
    return List.zipWith TypedValue.mk types vs

def isHashedType (type : String) : Bool :=
  type == "string" || type == "bytes" || type.toList.getLast? == some ']' ||
    "(".isPrefixOf type || "tuple".isPrefixOf type

/-- The value in a topic; the hash itself where the topic holds one. -/
def decodeTopic (topic : Value) (type : String) : Outcome TypedValue := do
  let bs ← dataBytes topic
  if isHashedType type then return ⟨"bytes32", .bytes bs⟩
  else
    let vs ← decodeValues [type] bs (.conversion (.topic topic type))
    return ⟨type, vs.headD .null⟩

def unwrap (vs : List TypedValue) : List (TypedValue ⊕ Value) :=
  vs.map fun v => if v.isStruct then .inl v else .inr v.value

end Abi
end EvmClient
