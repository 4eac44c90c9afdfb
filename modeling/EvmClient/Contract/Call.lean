import EvmClient.Bytecode
import EvmClient.Contract

/-!
# Calls through a handle

Read calls look at the handle's block and give the decoded results of a function. Transactions are
executed with the handle's strategy. `isValid` compares the code at the address with the binary.
-/

set_option autoImplicit false

namespace EvmClient

inductive ReturnKind where
  | int
  | text
  | bytes
  | bool
  | tuple
  | list
  | float
  | typedValue
  deriving DecidableEq, Repr

namespace ReturnKind

def name : ReturnKind → String
  | int => "int"
  | text => "str"
  | bytes => "bytes"
  | bool => "bool"
  | tuple => "tuple"
  | list => "list"
  | float => "float"
  | typedValue => "TypedValue"

def all : List ReturnKind := [int, text, bytes, bool, tuple, list, float, typedValue]

def ofName? (s : String) : Option ReturnKind := all.find? fun k => k.name == s

/-- Whether a value is of a kind; truth values count as numbers. -/
def accepts : ReturnKind → Value → Bool
  | int, .int _ | int, .bool _ => true
  | text, .text _ => true
  | bytes, .bytes _ => true
  | bool, .bool _ => true
  | tuple, .tuple _ => true
  | list, .list _ => true
  | float, .float _ => true
  | _, _ => false

end ReturnKind

inductive SingleResult where
  | typed (v : TypedValue)
  | plain (v : Value)

namespace SingleResult

def convert (result : TypedValue) (kind : ReturnKind) : Outcome SingleResult :=
  if kind = .typedValue then .ok (typed result)
  else if result.type = "address" ∧ kind = .text then
    Outcome.ofDefect ((Address.canonical result.value).map fun s => plain (.text s))
  else if kind.accepts result.value then .ok (plain result.value)
  else fail (.conversion (.kind result.value kind.name))

/-- The first of the results, in its own form if no kind of value is expected. -/
def select (results : List TypedValue) (expected : Option ReturnKind) :
    Outcome (Option SingleResult) :=
  match results.head?, expected with
  | first, none => .ok (first.map typed)
  | none, some _ => fail (.conversion .nothingReturned)
  | some result, some kind => (convert result kind).map some

end SingleResult

namespace Contract

def logger : String := "ethwrap.contract"

def callRequest (c : Contract) (f : Function) : Outcome TransactionRequest := do
  let data ← Abi.encodeCall f
  return { sender := c.manager.sender, recipient := c.address, data := .text data }

def resultOf (f : Function) (response : CallResponse) : Outcome Value := do
  let outcome ← Outcome.ofDefect (Revert.decode response)
  if outcome.isReverted then
    fail (.contractCall (.reverted f.name outcome.reason outcome.encodedData))
  else return response.result

def callRaw (c : Contract) (f : Function) : Action Value := do
  let r ← Action.ofOutcome (c.callRequest f)
  let response ← c.manager.call r c.block
  Action.ofOutcome (resultOf f response)

def call (c : Contract) (f : Function) : Action (List TypedValue) := do
  let raw ← c.callRaw f
  Action.ofOutcome (Abi.decodeReturn raw f.outputs)

def callSingle (c : Contract) (f : Function) (expected : Option ReturnKind) :
    Action (Option SingleResult) := do
  let results ← c.call f
  Action.ofOutcome (SingleResult.select results expected)

def transact (c : Contract) (f : Function) (value : Value) : Action Receipt := do
  let data ← Action.ofOutcome (Abi.encodeCall f)
  c.execution.run (.text data) value f.name false

def comparable (c : Contract) : Outcome Unit :=
  let isMissing : Bool := match c.binary with
    | .text s => s == missingBinary
    | _ => false
  if !c.binary.isTruthy || isMissing then fail (.unsupportedOperation .noBinary)
  else if !c.address.isTruthy then fail (.unsupportedOperation .noAddress)
  else .ok ()

/-- Whether the code at the address is that of the contract. Where the node answers with an error it
is not. -/
def isValid (c : Contract) : Action Bool := do
  Action.ofOutcome c.comparable
  let response ← c.manager.code c.address (.text "latest")
  match response.error with
  | some e =>
    Action.log .warning logger "eth_getCode failed, treating contract as invalid"
      [("contract", .text c.kind.name), ("address", c.address), ("rpc_message", e.message)]
    return false
  | none => Action.ofDefect (Bytecode.isValid response.code c.binary)

end Contract
end EvmClient
