import EvmClient.Hex
import EvmClient.Value.Equality

/-!
# Code of contracts

Compilers put a section of metadata behind the code of a contract. It changes with comments and
build settings, so code is compared without it: `stripped` is the code up to the first metadata
marker, and `isValid` asks whether that much of it occurs in a known binary.
-/

set_option autoImplicit false

namespace EvmClient.Bytecode

def metadataMarkers : List (List Char) :=
  ["a165627a7a72305820", "a265627a7a72315820", "a2646970667358221220",
    "a164736f6c634300080a000a"].map String.toList

def withoutMetadata (cs : List Char) : List Char :=
  Text.beforeMarker metadataMarkers (Hex.unmarkChars cs)

/-- The code without metadata; there is none where nothing was given. -/
def stripped (code : Value) : Except Defect (List Char) :=
  if code.isTruthy then
    match code with
    | .text s => .ok (withoutMetadata s.toList)
    | _ => .error .wrongKind
  else .ok []

def isValid (code binary : Value) : Except Defect Bool := do
  let cs ← stripped code
  if cs.isEmpty then return false else binary.contains (.text (String.ofList cs))

end EvmClient.Bytecode
