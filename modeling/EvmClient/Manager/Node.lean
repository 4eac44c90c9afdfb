import EvmClient.Action
import EvmClient.Input
import EvmClient.Settings

/-!
# Managers over a node

A node manager submits transactions of one sender and makes read calls. If it holds the sender's
account it asks for nonces and signatures and submits signed transactions, else the node signs. An
answer of the node with an error is data for a read and a failure for a submission; a node that
cannot be reached, or that gives no proper answer, is a failure for both.
-/

set_option autoImplicit false

namespace EvmClient

structure NodeManager where
  sender : Value
  /-- the sender's account is held here -/
  hasAccount : Bool
  settings : Settings := {}
  /-- where the node is reached, null if that is not known -/
  endpoint : Value := .null
  deriving Inhabited

namespace NodeManager

def ofAccount (address : Value) (settings : Settings) (endpoint : Value) : NodeManager :=
  ⟨address, true, settings, endpoint⟩

def ofSender (sender : Value) (settings : Settings) (endpoint : Value) : Outcome NodeManager := do
  if sender.isNull then fail (.validation .noSender)
  else
    let address ← Input.address sender "from_address"
    return ⟨.text address, false, settings, endpoint⟩

def ofPrivateKey (key : Value) (settings : Settings) (endpoint : Value) : Outcome NodeManager :=
  match Address.privateKey? key with
  | some k =>
    .ok (ofAccount (.text (Address.checksumText (Address.ofPrivateKey k))) settings endpoint)
  | none => fail (.validation .privateKey)

def logger : String := "ethwrap.manager"

/-- The error in an answer, if there is one. What is no dictionary is the message of an error. -/
def errorOf (answer : Fields) : Except Defect (Option RpcError) := do
  let e := answer.get "error"
  if e.isTruthy then
    match e with
    | .dict members => return some (← RpcError.ofMembers members)
    | v => return some { code := .int 0, message := .text (← v.textOf) }
  else return none

def properAnswer? : Value → Option Fields
  | .dict members =>
    if Fields.has members "result" || Fields.has members "error" then some members else none
  | _ => none

def request (m : NodeManager) (method : String) (params : List Value) : Action Fields := do
  match ← Action.attempt (Action.ask (.rpc method params)) with
  | .ok answer =>
    match properAnswer? answer with
    | some members => return members
    | none => Action.fail (.transport (.malformedResponse method answer m.endpoint))
  | .error failure =>
    let reason ← Action.ofDefect failure.text
    Action.fail (.transport (.request method reason m.endpoint))

def result (m : NodeManager) (method : String) (params : List Value) : Action Value := do
  let answer ← m.request method params
  match ← Action.ofDefect (errorOf answer) with
  | some e => Action.fail (.rpcProtocol e.code e.message e.data)
  | none => return answer.get "result"

/-! ## Reads -/

def call (m : NodeManager) (r : TransactionRequest) (block : Value) : Action CallResponse := do
  let parameters ← Action.ofDefect r.nodeParameters
  let answer ← m.request "eth_call" [.dict parameters, blockParameter block]
  match ← Action.ofDefect (errorOf answer) with
  | some e =>
    Action.log .debug logger "eth_call returned error"
      [("to", r.recipient), ("rpc_code", e.code), ("rpc_message", e.message)]
    return { error := some e }
  | none => return { result := answer.get "result" }

def code (m : NodeManager) (address block : Value) : Action CodeResponse := do
  let answer ← m.request "eth_getCode" [address, blockParameter block]
  match ← Action.ofDefect (errorOf answer) with
  | some e => return { error := some e }
  | none => return { code := answer.get "result" }

/-! ## Nonces and chain -/

def pendingNonce (m : NodeManager) : Action Value := do
  let count ← m.result "eth_getTransactionCount" [m.sender, .text "pending"]
  Action.ofDefect count.quantity

def successor (nonce : Value) : Except Defect Value :=
  match nonce.integer? with
  | some n => .ok (.int (n + 1))
  | none => .error .wrongKind

/-- The nonce that comes next by the manager's own count, which the node starts. -/
def countedNonce (m : NodeManager) : Action Value := do
  let known := (← Action.memory).nextNonce
  if known.isNull then
    let nonce ← m.pendingNonce
    Action.setNextNonce nonce
    return nonce
  else return known

def nonce (m : NodeManager) : Action Value := do
  if m.settings.manualNonce then
    let nonce ← m.countedNonce
    Action.setNextNonce (← Action.ofDefect (successor nonce))
    return nonce
  else m.pendingNonce

/-- The chain of the node, asked for once. -/
def chainId (m : NodeManager) : Action Value := do
  let known := (← Action.memory).chainId
  if known.isNull then
    let answer ← m.result "eth_chainId" []
    let chain ← Action.ofDefect answer.quantity
    Action.setChainId chain
    return chain
  else return known

/-! ## Submissions -/

def isRejection : Failure → Bool
  | .client (.rpcProtocol ..) | .client (.transport _) => true
  | _ => false

/-- Hands in a signed transaction. If it is not taken, its nonce has not been used. -/
def submitRaw (m : NodeManager) (raw : List UInt8) : Action Value := do
  match ← Action.attempt (m.result "eth_sendRawTransaction" [.text (Hex.markedText raw)]) with
  | .ok hash => return hash
  | .error failure =>
    if isRejection failure then Action.setNextNonce .null
    Action.pass failure

def submitSigned (m : NodeManager) (transaction : Fields) : Action Value := do
  let nonce ← m.nonce
  let raw ← Action.ask (.sign (transaction ++ [("nonce", nonce)]))
  m.submitRaw raw

def submitUnsigned (m : NodeManager) (transaction : Fields) : Action Value :=
  m.result "eth_sendTransaction"
    [.dict (("from", m.sender) :: transaction.map fun entry => (entry.1, entry.2.nodeForm))]

def receipt (m : NodeManager) (hash : Value) : Action Receipt := do
  if m.settings.waitForReceipt then
    let timeout := m.settings.receiptTimeout
    match ← Action.attempt (Action.ask (.wait hash timeout m.settings.pollLatency)) with
    | .ok (some raw) => Action.ofDefect (Receipt.ofNode raw)
    | .ok none => Action.fail (.transactionTimeout hash timeout)
    | .error failure =>
      let reason ← Action.ofDefect failure.text
      Action.fail (.transport (.receiptWait hash reason))
  else return Receipt.unawaited hash

def addressed (transaction : Fields) (recipient : Value) : Except Defect Fields :=
  if recipient.isNull then .ok transaction
  else (Address.canonical recipient).map fun address => transaction ++ [("to", .text address)]

def send (m : NodeManager) (transaction : Fields) (recipient : Value) : Action Receipt := do
  let transaction ← Action.ofDefect (addressed transaction recipient)
  let hash ← if m.hasAccount then m.submitSigned transaction else m.submitUnsigned transaction
  Action.log .debug logger "Transaction submitted" [("tx_hash", hash), ("to", recipient)]
  m.receipt hash

def chainEntry (m : NodeManager) : Action Fields := do
  if m.hasAccount then return [("chainId", ← m.chainId)] else return []

def sendLegacy (m : NodeManager) (o : LegacyOrder) : Action Receipt := do
  let transaction : Fields :=
    [("data", o.data), ("value", o.value), ("gas", o.gasLimit), ("gasPrice", o.gasPrice)]
  let chain ← m.chainEntry
  m.send (transaction ++ chain) (if o.isCreation then .null else o.recipient)

/-- Submits a transaction priced by the fee market, unless the newest block has no base fee. -/
def sendFeeMarket (m : NodeManager) (o : FeeMarketOrder) : Action (Option Receipt) := do
  let block ← m.result "eth_getBlockByNumber" [.text "latest", .bool false]
  let members ← Action.ofDefect (Value.members (block.orElse (.dict [])))
  if (members.get "baseFeePerGas").isNull then
    Action.log .warning logger
      "Node does not report a base fee, fee-market submission not applicable"
      [("chain_id", o.chainId)]
    return none
  else
    let receipt ← m.send
      [("type", .int 2), ("chainId", o.chainId), ("data", o.data), ("value", o.value),
        ("gas", o.gasLimit), ("maxPriorityFeePerGas", o.maxPriorityFee), ("maxFeePerGas", o.maxFee)]
      (if o.isCreation then .null else o.recipient)
    return some receipt

end NodeManager
end EvmClient
