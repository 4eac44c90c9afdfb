import EvmClient.Receipt

/-!
# Errors

A `ClientError` is a cause; its wording, its code and the facts it carries are computed from the
cause. The families of errors lie within each other, all within the general one. A `Failure` is what
an operation may end with: an error of this library, a fault that it passes on, or settings that do
not hold.
-/

set_option autoImplicit false

namespace EvmClient

inductive ErrorFamily where
  | general
  | validation
  | invalidAddress
  | invalidAmount
  | transport
  | rpcProtocol
  | transaction
  | transactionTimeout
  | revertedTransaction
  | contractCall
  | conversion
  | deployment
  | unsupportedOperation
  | nameResolution
  deriving DecidableEq, Repr, Inhabited

namespace ErrorFamily

def lineage : ErrorFamily → List ErrorFamily
  | general => [general]
  | validation => [validation, general]
  | invalidAddress => [invalidAddress, validation, general]
  | invalidAmount => [invalidAmount, validation, general]
  | transport => [transport, general]
  | rpcProtocol => [rpcProtocol, general]
  | transaction => [transaction, general]
  | transactionTimeout => [transactionTimeout, transaction, general]
  | revertedTransaction => [revertedTransaction, transaction, general]
  | contractCall => [contractCall, general]
  | conversion => [conversion, contractCall, general]
  | deployment => [deployment, general]
  | unsupportedOperation => [unsupportedOperation, general]
  | nameResolution => [nameResolution, general]

def name : ErrorFamily → String
  | general => "EthWrapError"
  | validation => "ValidationError"
  | invalidAddress => "InvalidAddressError"
  | invalidAmount => "InvalidAmountError"
  | transport => "TransportError"
  | rpcProtocol => "RpcProtocolError"
  | transaction => "TransactionError"
  | transactionTimeout => "TransactionTimeoutError"
  | revertedTransaction => "RevertedTransaction"
  | contractCall => "ContractCallError"
  | conversion => "ConversionError"
  | deployment => "DeploymentError"
  | unsupportedOperation => "UnsupportedOperation"
  | nameResolution => "NameResolutionError"

def all : List ErrorFamily :=
  [general, validation, invalidAddress, invalidAmount, transport, rpcProtocol, transaction,
    transactionTimeout, revertedTransaction, contractCall, conversion, deployment,
    unsupportedOperation, nameResolution]

def ofName? (s : String) : Option ErrorFamily := all.find? fun f => f.name == s

def code : ErrorFamily → String
  | general => "ETHWRAP_ERROR"
  | validation => "VALIDATION_ERROR"
  | invalidAddress => "INVALID_ADDRESS"
  | invalidAmount => "INVALID_AMOUNT"
  | transport => "TRANSPORT_ERROR"
  | rpcProtocol => "RPC_ERROR"
  | transaction => "TRANSACTION_FAILED"
  | transactionTimeout => "TRANSACTION_TIMEOUT"
  | revertedTransaction => "TRANSACTION_REVERTED"
  | contractCall => "CONTRACT_CALL_FAILED"
  | conversion => "CONVERSION_ERROR"
  | deployment => "DEPLOYMENT_FAILED"
  | unsupportedOperation => "UNSUPPORTED_OPERATION"
  | nameResolution => "NAME_RESOLUTION_FAILED"

end ErrorFamily

/-- A fault that is not an error of this library: what a collaborator raises, or a defect. -/
inductive Fault where
  | raised (text : String)
  | defect (d : Defect)
  deriving DecidableEq, Repr

def Fault.text : Fault → String
  | raised text => text
  | defect d => d.describe

inductive EncodeFailure where
  /-- a value that its type does not take -/
  | misfit
  /-- a text that names no type -/
  | type (d : Defect)
  deriving DecidableEq, Repr

def EncodeFailure.describe : EncodeFailure → String
  | misfit => "a value does not fit its type"
  | type d => d.describe

inductive ValidationCause where
  | stated (message field details : Value)
  | hexData (data : Value)
  | arguments (types : List String) (why : EncodeFailure)
  | hexForm (field : String)
  | hexLength (field : String)
  | noSender
  | privateKey

inductive TransportCause where
  | stated (message endpoint details : Value)
  | request (method : String) (reason : String) (endpoint : Value)
  | malformedResponse (method : String) (response endpoint : Value)
  | receiptWait (hash : Value) (reason : String)

inductive TransactionCause where
  | stated (message txHash details : Value)
  | gasLimit (function : String) (fault : Fault)
  /-- the node answered with an error -/
  | rejected (code message data : Value)

inductive ContractCallCause where
  | stated (message reason details : Value)
  | reverted (function : String) (reason encodedData : Value)

inductive ConversionCause where
  | stated (message details : Value)
  | response (data : Value) (types : List String)
  | topic (topic : Value) (type : String)
  | nothingReturned
  | kind (value : Value) (expected : String)

inductive UnsupportedCause where
  | stated (message : Value)
  | noBinary
  | noAddress

inductive ClientError where
  | general (message code txHash details : Value)
  | validation (cause : ValidationCause)
  | invalidAddress (address field reason : Value)
  | invalidAmount (amount field reason : Value)
  | transport (cause : TransportCause)
  | rpcProtocol (code message data : Value)
  | transaction (cause : TransactionCause)
  | transactionTimeout (txHash timeout : Value)
  | revertedTransaction (receipt : Receipt) (reason encodedData : Value)
  | contractCall (cause : ContractCallCause)
  | conversion (cause : ConversionCause)
  | deployment (message txHash : Value)
  | unsupportedOperation (cause : UnsupportedCause)
  | nameResolution (name reason : Value)

namespace ClientError

def family : ClientError → ErrorFamily
  | general .. => .general
  | validation _ => .validation
  | invalidAddress .. => .invalidAddress
  | invalidAmount .. => .invalidAmount
  | transport _ => .transport
  | rpcProtocol .. => .rpcProtocol
  | transaction _ => .transaction
  | transactionTimeout .. => .transactionTimeout
  | revertedTransaction .. => .revertedTransaction
  | contractCall _ => .contractCall
  | conversion _ => .conversion
  | deployment .. => .deployment
  | unsupportedOperation _ => .unsupportedOperation
  | nameResolution .. => .nameResolution

def withReason (message : String) (reason : Value) : Option String :=
  if reason.isTruthy then reason.text?.map fun r => s!"{message} ({r})" else some message

def invalidMessage (value field reason : Value) : Option String := do
  let f ← field.text?
  let v ← value.literal?
  withReason s!"Invalid {f}: {v}" reason

end ClientError

namespace ValidationCause

def message? : ValidationCause → Option Value
  | stated m _ _ => some m
  | hexData data => data.literal?.map fun d => .text s!"Invalid hex data: {d}"
  | arguments types why =>
    some (.text s!"Unable to ABI-encode arguments {textListLiteral types}: {why.describe}")
  | hexForm field => some (.text s!"Invalid {field}: must be 0x followed by hex characters")
  | hexLength field => some (.text s!"Invalid {field}: odd number of hex characters")
  | noSender => some (.text "Either an account or a from_address is required")
  | privateKey => some (.text "Invalid private key format (key not shown for security)")

def field : ValidationCause → Value
  | stated _ f _ => f
  | hexData _ => .text "data"
  | hexForm f | hexLength f => .text f
  | noSender => .text "from_address"
  | arguments .. | privateKey => .null

def details : ValidationCause → Value
  | stated _ _ d => d
  | _ => .dict []

end ValidationCause

namespace TransportCause

def message? : TransportCause → Option Value
  | stated m _ _ => some m
  | request method reason _ => some (.text s!"{method} failed: {reason}")
  | malformedResponse method response _ =>
    response.literal?.map fun r => .text s!"Malformed JSON-RPC response to {method}: {r}"
  | receiptWait hash reason =>
    hash.text?.map fun h => .text s!"Failed while waiting for receipt of {h}: {reason}"

def endpoint : TransportCause → Value
  | stated _ e _ => e
  | request _ _ e | malformedResponse _ _ e => e
  | receiptWait .. => .null

def details : TransportCause → Value
  | stated _ _ d => d
  | _ => .dict []

end TransportCause

def TransactionCause.message? : TransactionCause → Option Value
  | stated m _ _ => some m
  | gasLimit function fault =>
    some (.text s!"Gas limit estimation failed for {function}: {fault.text}")
  | rejected code message data =>
    if data.isNull then do
      let c ← code.text?
      let m ← message.text?
      return .text s!"JsonRpcError thrown with code {c}. Message: {m}"
    else data.text?.map .text

def ContractCallCause.message? : ContractCallCause → Option Value
  | stated m _ _ => some m
  | reverted _ reason _ => reason.text?.map fun r =>
    .text s!"Contract Call has been reverted by the EVM with the reason: '{r}'."

def ConversionCause.message? : ConversionCause → Option Value
  | stated m _ => some m
  | response data types => data.text?.map fun d =>
    .text s!"Unable to decode response {d} as {textListLiteral types}: the data does not match"
  | topic t type => t.text?.map fun s =>
    .text s!"Unable to decode topic {s} as {type}: the data does not match"
  | nothingReturned => some (.text "Empty value (0x) returned from contract")
  | kind value expected => value.literal?.map fun v =>
    .text s!"Unable to convert response: {v} to expected type: {expected}"

def UnsupportedCause.message : UnsupportedCause → Value
  | stated m => m
  | noBinary => .text ("Contract binary not present in contract wrapper, " ++
      "please generate your wrapper with the contract binary")
  | noAddress => .text ("Contract address not set, " ++
      "deploy the contract or load it from an address first")

namespace ClientError

/-- The message, unless a number in it has too many digits to be written. -/
def message? : ClientError → Option Value
  | general m _ _ _ => some m
  | validation cause => cause.message?
  | invalidAddress address field reason => (invalidMessage address field reason).map .text
  | invalidAmount amount field reason => (invalidMessage amount field reason).map .text
  | transport cause => cause.message?
  | rpcProtocol _ m _ => some m
  | transaction cause => cause.message?
  | transactionTimeout txHash timeout => do
    let t ← timeout.text?
    let h ← txHash.text?
    return .text s!"Transaction receipt was not generated after {t} seconds for transaction: {h}"
  | revertedTransaction receipt reason _ => do
    let hash ← receipt.transactionHash.text?
    let status ← receipt.status.text?
    let gas ← if receipt.gasUsed.isNull then some "unknown" else receipt.gasUsed.text?
    let r ← reason.text?
    return .text (s!"Transaction {hash} has failed with status: {status}. " ++
      s!"Gas used: {gas}. Revert reason: '{r}'.")
  | contractCall cause => cause.message?
  | conversion cause => cause.message?
  | deployment m _ => some m
  | unsupportedOperation cause => some cause.message
  | nameResolution name reason => do
    let n ← name.text?
    (withReason s!"Unable to resolve address for name: {n}" reason).map .text

def message (e : ClientError) : Value := e.message?.getD .null

def code : ClientError → Value
  | general _ c _ _ => c
  | e => .text e.family.code

def txHash : ClientError → Value
  | general _ _ h _ => h
  | transaction (.stated _ h _) => h
  | transactionTimeout h _ => h
  | revertedTransaction receipt _ _ => receipt.transactionHash
  | deployment _ h => h
  | _ => .null

def withEntry (details : Value) (name : String) (v : Value) : Value :=
  match details with
  | .dict entries => if v.isTruthy then .dict (Fields.insert entries name v) else details
  | d => d

def details : ClientError → Value
  | general _ _ _ d => d.orElse (.dict [])
  | validation cause => withEntry (cause.details.orElse (.dict [])) "field" cause.field
  | invalidAddress address field _ => withEntry (.dict [("address", address)]) "field" field
  | invalidAmount amount field _ =>
    withEntry (.dict [("amount", .text (amount.text?.getD ""))]) "field" field
  | transport cause => withEntry (cause.details.orElse (.dict [])) "endpoint" cause.endpoint
  | rpcProtocol c _ data =>
    .dict ([("rpc_code", c)] ++ if data.isNull then [] else [("data", data)])
  | transaction (.stated _ _ d) => d.orElse (.dict [])
  | transactionTimeout _ timeout => .dict [("timeout", timeout)]
  | revertedTransaction receipt reason data =>
    .dict [("status", receipt.status), ("gas_used", receipt.gasUsed), ("reason", reason),
      ("encoded_data", data)]
  | contractCall (.stated _ _ d) => d.orElse (.dict [])
  | contractCall (.reverted function _ data) =>
    .dict [("function", .text function), ("encoded_data", data)]
  | conversion (.stated _ d) => d.orElse (.dict [])
  | nameResolution name _ => .dict [("name", name)]
  | _ => .dict []

def attributes : ClientError → Fields
  | validation cause => [("field", cause.field)]
  | invalidAddress address field reason =>
    [("field", field), ("address", address), ("reason", reason)]
  | invalidAmount amount field reason => [("field", field), ("amount", amount), ("reason", reason)]
  | transport cause => [("endpoint", cause.endpoint)]
  | rpcProtocol c m data => [("rpc_code", c), ("rpc_message", m), ("data", data)]
  | transactionTimeout _ timeout => [("timeout", timeout)]
  | revertedTransaction receipt reason data =>
    [("status", receipt.status), ("gas_used", receipt.gasUsed), ("reason", reason),
      ("encoded_data", data)]
  | contractCall (.stated _ reason _) => [("reason", reason)]
  | contractCall (.reverted _ reason _) => [("reason", reason)]
  | conversion _ => [("reason", .null)]
  | nameResolution name _ => [("name", name)]
  | _ => []

def faultText? : ClientError → Option String
  | validation (.arguments _ why) => some why.describe
  | transaction (.gasLimit _ (.defect d)) => some d.describe
  | conversion (.response ..) | conversion (.topic ..) => some "the data does not match"
  | _ => none

/-- Code and message, and the start of the transaction's hash if the message does not hold it. -/
def text (e : ClientError) : Except Defect String := do
  let code ← e.code.textOf
  let message ← e.message.textOf
  let line := s!"[{code}] {message}"
  if e.txHash.isTruthy then
    if ← e.message.contains e.txHash then return line
    else
      let start ← (← e.txHash.first 10).textOf
      return s!"{line} (tx: {start}...)"
  else return line

def literal (e : ClientError) : Except Defect String := do
  let part (v : Value) : Except Defect String := v.literal?.elim (.error .malformedValue) .ok
  let message ← part e.message
  let code ← part e.code
  let hash ← part e.txHash
  let details ← part e.details
  return s!"{e.family.name}(message={message}, code={code}, tx_hash={hash}, details={details})"

end ClientError

inductive SettingProblem where
  | notPositive
  | unreadableNumber
  | noNumber
  | unreadableSwitch
  | noSwitch
  | frozen
  deriving DecidableEq, Repr

inductive Failure where
  | client (e : ClientError)
  | fault (f : Fault)
  | settings (problems : List (String × SettingProblem))

namespace Failure

def ofDefect (d : Defect) : Failure := .fault (.defect d)

/-- An error whose message cannot be written is a defect instead. -/
def ofError (e : ClientError) : Failure :=
  if e.message?.isSome then .client e else ofDefect .malformedValue

def text : Failure → Except Defect String
  | client e => e.text
  | fault f => .ok f.text
  | settings _ => .ok "the settings do not hold"

end Failure

abbrev Outcome := Except Failure

def Outcome.ofDefect {α : Type} (r : Except Defect α) : Outcome α :=
  match r with
  | .ok a => .ok a
  | .error d => .error (Failure.ofDefect d)

def fail {α : Type} (e : ClientError) : Outcome α := .error (Failure.ofError e)

end EvmClient
