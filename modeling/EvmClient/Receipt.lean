import EvmClient.Value.Equality
import EvmClient.Value.Quantity

/-!
# Logs and receipts

A receipt tells how a submitted transaction was included. What a node answers is brought to one
form: hashes, topics and data as hexadecimal text, quantities as numbers. An empty receipt is one of
which only the hash is known, because nobody waited for it.
-/

set_option autoImplicit false

namespace EvmClient

structure Log where
  address : Value := .null
  /-- the topics, if the log has a list of them -/
  topics : Option (List Value) := some []
  data : Value := .text "0x"
  blockNumber : Value := .null
  transactionHash : Value := .null
  logIndex : Value := .null
  deriving Inhabited

structure Receipt where
  transactionHash : Value := .null
  status : Value := .null
  contractAddress : Value := .null
  gasUsed : Value := .null
  blockNumber : Value := .null
  sender : Value := .null
  recipient : Value := .null
  logs : List Log := []
  isEmpty : Bool := false
  deriving Inhabited

def Value.members : Value → Except Defect Fields
  | .dict entries => .ok entries
  | _ => .error .missingPart

def Value.optionalElements (v : Value) : Except Defect (List Value) :=
  if v.isTruthy then v.elements?.elim (.error .wrongKind) .ok else .ok []

namespace Log

def ofNode (raw : Value) : Except Defect Log := do
  let members ← raw.members
  let topics ← (members.get "topics").optionalElements
  let topics ← topics.mapM Value.hexText
  let data ← (members.get "data").hexText
  let blockNumber ← (members.get "blockNumber").quantity
  let transactionHash ← (members.get "transactionHash").hexText
  let logIndex ← (members.get "logIndex").quantity
  return {
    address := members.get "address"
    topics := some topics
    data := data.orElse (.text "0x")
    blockNumber := blockNumber
    transactionHash := transactionHash
    logIndex := logIndex }

end Log

namespace Receipt

/-- A receipt without a status comes from a time before receipts had one. -/
def isStatusOk (r : Receipt) : Bool := r.status.isNull || r.status.equals (.int 1)

def isFailed (r : Receipt) : Bool := !r.isEmpty && !r.isStatusOk

def unawaited (hash : Value) : Receipt := { transactionHash := hash, isEmpty := true }

def ofNode (raw : Value) : Except Defect Receipt := do
  let members ← raw.members
  let transactionHash ← (members.get "transactionHash").hexText
  let status ← (members.get "status").quantity
  let gasUsed ← (members.get "gasUsed").quantity
  let blockNumber ← (members.get "blockNumber").quantity
  let logs ← (members.get "logs").optionalElements
  let logs ← logs.mapM Log.ofNode
  return {
    transactionHash := transactionHash
    status := status
    contractAddress := members.get "contractAddress"
    gasUsed := gasUsed
    blockNumber := blockNumber
    sender := members.get "from"
    recipient := members.get "to"
    logs := logs }

end Receipt
end EvmClient
