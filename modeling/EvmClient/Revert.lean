import EvmClient.Abi.Descriptor
import EvmClient.Response

/-!
# Reverted calls

A node reports a failed call by an error, or by a result that starts with the selector of
`Error(string)` and holds the reason. An error with code three whose data starts with the selector
of an off-chain lookup asks for data from elsewhere, and is no revert. `decodeRevert` tells these
apart.
-/

set_option autoImplicit false

namespace EvmClient

inductive RevertKind where
  | noError
  | rpcError
  | abiEncodedRevert
  | offchainLookup
  deriving DecidableEq, Repr, Inhabited

namespace RevertKind

def text : RevertKind → String
  | noError => "no-error"
  | rpcError => "rpc-error"
  | abiEncodedRevert => "abi-encoded-revert"
  | offchainLookup => "offchain-lookup"

def isReverted : RevertKind → Bool
  | rpcError | abiEncodedRevert => true
  | noError | offchainLookup => false

end RevertKind

structure RevertOutcome where
  kind : RevertKind
  reason : Value := .null
  encodedData : Value := .null
  deriving Inhabited

def RevertOutcome.isReverted (o : RevertOutcome) : Bool := o.kind.isReverted

namespace Revert

/-- The mark and the first four bytes of the hash of `Error(string)`. -/
def errorSelector : List Char := "0x08c379a0".toList

/-- The mark and the first four bytes of the hash of
`OffchainLookup(address,string[],bytes,bytes4,bytes)`. -/
def lookupSelector : List Char := "0x556f1830".toList

def revertedCode : Int := 3

/-- Whether a text starts with a selector, in either case of its letters. -/
def hasSelector (selector cs : List Char) : Bool :=
  (cs.take selector.length).map Char.toLower == selector

def isOffchainLookup (data : Value) : Bool :=
  match data with
  | .text s => hasSelector lookupSelector s.toList
  | _ => false

def isErrorResult : Value → Except Defect Bool
  | .null => .ok false
  | .text s => .ok (hasSelector errorSelector s.toList)
  | .bytes _ => .error .wrongKind
  | _ => .error .missingPart

/-- The reason in what follows the selector. There is none where that cannot be decoded, save that a
length beyond all bounds is a defect. -/
def reasonText (cs : List Char) : Except Defect Value :=
  match Hex.ofChars? (Hex.unmarkChars cs) with
  | none => .ok .null
  | some bs =>
    match AbiType.decodeAll [.string] bs with
    | .ok vs => .ok (vs.headD .null)
    | .error .lengthTooLarge => .error .tooLarge
    | .error _ => .ok .null

def decodeReason (raw : Value) : Except Defect Value := do
  if ← isErrorResult raw then
    match raw with
    | .text s => reasonText (s.toList.drop errorSelector.length)
    | _ => return .null
  else return .null

def isLookupRequest (e : RpcError) : Bool :=
  e.code.equals (.int revertedCode) && !e.data.isNull && isOffchainLookup e.data

def decode (response : CallResponse) : Except Defect RevertOutcome := do
  let data : Value := response.error.elim .null RpcError.data
  match response.error.filter isLookupRequest with
  | some e => return ⟨.offchainLookup, e.message, data⟩
  | none =>
    if ← isErrorResult response.result then
      return ⟨.abiEncodedRevert, ← decodeReason response.result, data⟩
    else
      match response.error with
      | some e => return ⟨.rpcError, e.message, data⟩
      | none => return { kind := .noError }

end Revert
end EvmClient
