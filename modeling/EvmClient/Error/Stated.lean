import EvmClient.Error

/-!
# Errors stated by a caller

A caller builds an error of any family from positional and named arguments. `bindArguments` matches
them with the parameters of the family: each parameter is given once, positional ones come first,
and one without a default must be given.
-/

set_option autoImplicit false

namespace EvmClient

structure Parameter where
  name : String
  isPositional : Bool
  fallback : Option Value

namespace Parameter

def required (name : String) : Parameter := ⟨name, true, none⟩

def optional (name : String) (v : Value) : Parameter := ⟨name, true, some v⟩

def option (name : String) (v : Value) : Parameter := ⟨name, false, some v⟩

def bindArguments : List Parameter → List Value → Fields → Except Defect Fields
  | [], [], _ => .ok []
  | [], _ :: _, _ => .error .wrongKind
  | p :: rest, args, options =>
    match p.isPositional, args with
    | true, v :: more =>
      if options.has p.name then .error .wrongKind
      else (bindArguments rest more options).map ((p.name, v) :: ·)
    | _, _ =>
      match (options.lookup p.name).or p.fallback with
      | some v => (bindArguments rest args options).map ((p.name, v) :: ·)
      | none => .error .wrongKind

end Parameter

namespace ErrorFamily
open Parameter

def parameters : ErrorFamily → List Parameter
  | general => [required "message", option "code" (.text "ETHWRAP_ERROR"), option "tx_hash" .null,
      option "details" .null]
  | validation => [required "message", option "field" .null, option "details" .null]
  | invalidAddress => [required "address", option "field" (.text "address"), option "reason" .null]
  | invalidAmount => [required "amount", option "field" (.text "value"), option "reason" .null]
  | transport => [required "message", option "endpoint" .null, option "details" .null]
  | rpcProtocol => [required "rpc_code", required "rpc_message", optional "data" .null]
  | transaction => [required "message", option "tx_hash" .null, option "details" .null]
  | transactionTimeout => [required "tx_hash", required "timeout"]
  | revertedTransaction => [⟨"reason", false, none⟩, option "encoded_data" .null]
  | contractCall => [required "message", option "reason" .null, option "details" .null]
  | conversion => [required "message", option "details" .null]
  | deployment => [required "message", option "tx_hash" .null]
  | unsupportedOperation => [required "message"]
  | nameResolution => [required "name", optional "reason" .null]

end ErrorFamily

namespace ClientError

/-- The error of a family with the given facts; only a reverted transaction has a receipt. -/
def ofFacts (family : ErrorFamily) (receipt : Receipt) (facts : Fields) : ClientError :=
  let get := facts.get
  match family with
  | .general => general (get "message") (get "code") (get "tx_hash") (get "details")
  | .validation => validation (.stated (get "message") (get "field") (get "details"))
  | .invalidAddress => invalidAddress (get "address") (get "field") (get "reason")
  | .invalidAmount => invalidAmount (get "amount") (get "field") (get "reason")
  | .transport => transport (.stated (get "message") (get "endpoint") (get "details"))
  | .rpcProtocol => rpcProtocol (get "rpc_code") (get "rpc_message") (get "data")
  | .transaction => transaction (.stated (get "message") (get "tx_hash") (get "details"))
  | .transactionTimeout => transactionTimeout (get "tx_hash") (get "timeout")
  | .revertedTransaction => revertedTransaction receipt (get "reason") (get "encoded_data")
  | .contractCall => contractCall (.stated (get "message") (get "reason") (get "details"))
  | .conversion => conversion (.stated (get "message") (get "details"))
  | .deployment => deployment (get "message") (get "tx_hash")
  | .unsupportedOperation => unsupportedOperation (.stated (get "message"))
  | .nameResolution => nameResolution (get "name") (get "reason")

def enteredFact (family : ErrorFamily) (facts : Fields) : Value :=
  match family with
  | .validation => facts.get "field"
  | .transport => facts.get "endpoint"
  | _ => .null

/-- Whether a fact can be entered into details: there is none, or they can hold it. -/
def takesEntry (details fact : Value) : Bool :=
  !fact.isTruthy || !details.isTruthy || details.members.isOk

def ofArguments (family : ErrorFamily) (receipt : Receipt) (args : List Value) (options : Fields) :
    Except Defect ClientError := do
  let parameters := family.parameters
  if options.any fun entry => !parameters.any fun p => p.name == entry.1 then .error .wrongKind
  else
    let facts ← Parameter.bindArguments parameters args options
    let e := ofFacts family receipt facts
    if !takesEntry (facts.get "details") (enteredFact family facts) then .error .wrongKind
    else if e.message?.isSome then .ok e else .error .malformedValue

end ClientError
end EvmClient
