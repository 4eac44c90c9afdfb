import EvmClient.Gas
import EvmClient.Manager
import EvmClient.Revert

/-!
# Executing transactions

An execution checks the value, computes the gas limit, submits the payload once and looks at the
receipt. A failed transaction is replayed as a read call at its block, because a receipt does not
say why the transaction failed. Nothing is tried twice, save that a fee-market submission which does
not apply is followed by one at a fixed price.
-/

set_option autoImplicit false

namespace EvmClient

structure Execution where
  manager : Manager
  address : Value
  strategy : Option GasStrategy

namespace Execution

def logger : String := "ethwrap.executor"

def missingReason : Value := .text "N/A"

/-- The transaction for a payload; one that creates a contract has no recipient. -/
def request (x : Execution) (data value : Value) (isCreation : Bool) : TransactionRequest :=
  { sender := x.manager.sender
    recipient := if isCreation then .null else x.address.orElse .null
    data := data
    value := value }

/-- The gas limit of a request. A fault on the way to it is an error about the function. -/
def gasLimit (strategy : Option GasStrategy) (r : TransactionRequest) (function : String) :
    Action (GasStrategy × Int) := do
  let limit : Action (GasStrategy × Int) :=
    match strategy with
    | some s => do return (s, ← s.gasLimit (some r))
    | none => Action.ofDefect (.error .missingPart)
  match ← Action.attempt limit with
  | .ok known => return known
  | .error (.fault fault) => Action.fail (.transaction (.gasLimit function fault))
  | .error failure => Action.pass failure

def legacyOrder (s : GasStrategy) (r : TransactionRequest) (limit : Int) (isCreation : Bool) :
    LegacyOrder :=
  ⟨r.recipient, r.data, r.value, s.gasPrice, .int limit, isCreation⟩

def feeMarketOrder (s : FeeMarketStrategy) (r : TransactionRequest) (limit : Int)
    (isCreation : Bool) : FeeMarketOrder :=
  ⟨s.chainId, r.recipient, r.data, r.value, .int limit, s.maxPriorityFee, s.maxFee, isCreation⟩

def submit (m : Manager) (s : GasStrategy) (r : TransactionRequest) (limit : Int)
    (function : String) (isCreation : Bool) : Action (Option Receipt) := do
  match s with
  | .legacy _ =>
    Action.log .info logger "Submitting legacy transaction"
      [("function", .text function), ("to", r.recipient)]
    m.sendLegacy (legacyOrder s r limit isCreation)
  | .feeMarket f =>
    Action.log .info logger "Submitting fee-market transaction"
      [("function", .text function), ("to", r.recipient), ("chain_id", f.chainId)]
    match ← m.sendFeeMarket (feeMarketOrder f r limit isCreation) with
    | some receipt => return some receipt
    | none =>
      Action.log .info logger
        "Fee-market submission produced no receipt, falling back to legacy pricing"
        [("function", .text function)]
      m.sendLegacy (legacyOrder s r limit isCreation)

/-- An error of the node that answers a submission is an error about the transaction. -/
def rejection : Failure → Failure
  | .client (.rpcProtocol code message data) =>
    Failure.ofError (.transaction (.rejected code message data))
  | failure => failure

def replay (m : Manager) (r : TransactionRequest) (receipt : Receipt) : Action RevertOutcome := do
  let block := if receipt.blockNumber.isNull then .text "latest" else receipt.blockNumber
  Action.log .debug "ethwrap.revert" "Replaying failed transaction"
    [("tx_hash", receipt.transactionHash), ("block", block)]
  let response ← m.call r block
  Action.ofDefect (Revert.decode response)

def settle (m : Manager) (r : TransactionRequest) (receipt : Receipt) (function : String) :
    Action Receipt := do
  if receipt.isFailed then
    let outcome ← replay m r receipt
    Action.log .warning logger "Transaction reverted"
      [("function", .text function), ("tx_hash", receipt.transactionHash),
        ("status", receipt.status), ("reason", outcome.reason)]
    Action.fail
      (.revertedTransaction receipt (outcome.reason.orElse missingReason) outcome.encodedData)
  else return receipt

def run (x : Execution) (data value : Value) (function : String) (isCreation : Bool) :
    Action Receipt := do
  let amount ← Action.ofOutcome (Input.amount value "value")
  let r := x.request data (.int amount) isCreation
  let (strategy, limit) ← gasLimit x.strategy r function
  match ← Action.attempt (submit x.manager strategy r limit function isCreation) with
  | .ok (some receipt) => settle x.manager r receipt function
  | .ok none => Action.ofDefect (.error .missingPart)
  | .error failure => Action.pass (rejection failure)

end Execution
end EvmClient
