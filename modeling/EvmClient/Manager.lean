import EvmClient.Manager.Node

/-!
# Managers

A manager submits transactions and makes read calls on behalf of one sender. One in memory asks
whoever holds it; its answers are arbitrary, so it stands for every manager there can be.
-/

set_option autoImplicit false

namespace EvmClient

inductive Manager where
  | inMemory (sender : Value)
  | node (m : NodeManager)
  deriving Inhabited

namespace Manager

def sender : Manager → Value
  | inMemory sender => sender
  | node m => m.sender

/-- A read call; an error that the node answers is part of the response. -/
def call (m : Manager) (request : TransactionRequest) (block : Value) : Action CallResponse :=
  match m with
  | inMemory _ => Action.ask (.call request block)
  | node m => m.call request block

def code (m : Manager) (address block : Value) : Action CodeResponse :=
  match m with
  | inMemory _ => Action.ask (.code address block)
  | node m => m.code address block

def sendLegacy (m : Manager) (order : LegacyOrder) : Action (Option Receipt) :=
  match m with
  | inMemory _ => Action.ask (.legacy order)
  | node m => do return some (← m.sendLegacy order)

/-- Submits a transaction priced by the fee market; there is no receipt if that does not apply. -/
def sendFeeMarket (m : Manager) (order : FeeMarketOrder) : Action (Option Receipt) :=
  match m with
  | inMemory _ => Action.ask (.feeMarket order)
  | node m => m.sendFeeMarket order

end Manager
end EvmClient
