import EvmClient.Contract.Call

/-!
# Deployments

A deployment submits the binary of a contract with the encoded arguments of its constructor behind
it, in a transaction without a recipient. The handle it gives is bound to the address in the
receipt.
-/

set_option autoImplicit false

namespace EvmClient

structure Deployment where
  kind : ContractClass
  manager : Manager
  strategy : Option GasStrategy
  binary : Value
  /-- encoded arguments of the constructor -/
  arguments : Value := .text ""
  value : Value := .int 0
  /-- makes the handle instead of the class -/
  factory : Option ContractClass := none

namespace Deployment

def functionName : String := "deploy"

def unmarked (v : Value) : Except Defect String :=
  match v with
  | .text s => .ok (Hex.unmark s)
  | _ => .error .wrongKind

/-- What is submitted: the binary and the arguments behind one mark. -/
def payload (binary arguments : Value) : Outcome Value := do
  let code ← Outcome.ofDefect (unmarked binary)
  let rest ← Outcome.ofDefect (unmarked (arguments.orElse (.text "")))
  Input.hex (.text (Hex.mark (code ++ rest))) "binary"

def handle (d : Deployment) : Action Contract := do
  match d.factory with
  | some kind =>
    Action.tell (.construction .null)
    Contract.make kind d.manager .null d.strategy
  | none => Contract.make d.kind d.manager .null d.strategy

def bound (c : Contract) (receipt : Receipt) : Outcome Contract :=
  if receipt.contractAddress.isTruthy then
    .ok ((c.setAddress receipt.contractAddress).setReceipt receipt)
  else fail (.deployment (.text "Empty contract address returned") receipt.transactionHash)

def run (d : Deployment) : Action Contract := do
  let c ← d.handle
  let data ← Action.ofOutcome (payload d.binary d.arguments)
  let receipt ← c.execution.run data d.value functionName true
  let c ← Action.ofOutcome (bound c receipt)
  Action.log .info Contract.logger "Contract deployed"
    [("contract", .text c.kind.name), ("address", receipt.contractAddress),
      ("tx_hash", receipt.transactionHash)]
  return c

end Deployment
end EvmClient
