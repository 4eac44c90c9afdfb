import EvmClient.Value.Quantity

/-!
# Transactions to be made

A request says what is to be executed; it has no recipient exactly if it creates a contract. An
order adds the price and hands it to whoever submits it.
-/

set_option autoImplicit false

namespace EvmClient

structure TransactionRequest where
  sender : Value
  recipient : Value
  data : Value
  value : Value := .int 0
  gasPrice : Value := .null
  gasLimit : Value := .null
  deriving Inhabited

structure LegacyOrder where
  recipient : Value
  data : Value
  value : Value
  gasPrice : Value
  gasLimit : Value
  isCreation : Bool
  deriving Inhabited

structure FeeMarketOrder where
  chainId : Value
  recipient : Value
  data : Value
  value : Value
  gasLimit : Value
  maxPriorityFee : Value
  maxFee : Value
  isCreation : Bool
  deriving Inhabited

def Fields.unlessNull (name : String) (v : Value) : Fields := if v.isNull then [] else [(name, v)]

namespace TransactionRequest

def isCreation (r : TransactionRequest) : Bool := r.recipient.isNull

def parameters (r : TransactionRequest) : Fields :=
  [("from", r.sender), ("data", r.data), ("value", r.value)] ++
    Fields.unlessNull "to" r.recipient ++ Fields.unlessNull "gasPrice" r.gasPrice ++
    Fields.unlessNull "gas" r.gasLimit

/-- The request with its value as hexadecimal text, and without prices. -/
def nodeParameters (r : TransactionRequest) : Except Defect Fields := do
  let value ← r.value.quantityText
  return [("from", r.sender), ("data", r.data), ("value", value)] ++
    Fields.unlessNull "to" r.recipient

end TransactionRequest

/-- A value as a node takes it: a number as hexadecimal text, all else as it is. -/
def Value.nodeForm (v : Value) : Value :=
  match v.integer? with
  | some i => .text (Hex.quantity i)
  | none => v

def blockParameter (block : Value) : Value := block.nodeForm

end EvmClient
