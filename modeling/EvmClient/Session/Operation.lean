import EvmClient.Contract.Deployment
import EvmClient.Event.Extraction

/-!
# Operations on a handle

What can be asked of one handle, and the answers. An operation gives the handle as it is afterwards;
only the operations named `set…` change it.
-/

set_option autoImplicit false

namespace EvmClient

/-- A strategy as a caller chooses it; it may have to be priced first. -/
inductive StrategyChoice where
  | none
  | given (s : GasStrategy)
  | latestBlock (chainId : Value) (limit : GasLimit)

def StrategyChoice.make : StrategyChoice → Action (Option GasStrategy)
  | none => pure Option.none
  | given s => pure (some s)
  | latestBlock chainId limit => do
    return some (.feeMarket (← FeeMarketStrategy.ofLatestBlock chainId limit))

def strategyLimit (s : Option GasStrategy) (request : Option TransactionRequest) : Action Int :=
  match s with
  | some s => s.gasLimit request
  | none => Action.ofDefect (.error .missingPart)

inductive EventSource where
  | log (log : Log)
  | receipt (receipt : Receipt)

inductive Invocation where
  | raw
  | all
  | native
  | single (expected : Option ReturnKind)
  | transaction (value : Value)

inductive Operation where
  | invoke (f : Function) (how : Invocation)
  | setStrategy (s : StrategyChoice)
  | setGasPrice (price : Value)
  | setBlock (block : Value)
  | setAddress (address : Value)
  | setReceipt (receipt : Receipt)
  | setDeployment (network address : Value)
  | gasPrice
  | gasLimit (request : Option TransactionRequest)
  | deployment (network : Value)
  | classDeployment (network : Value)
  | isValid
  | events (e : Event) (source : EventSource)
  | state

inductive Answer where
  | nothing
  /-- a name that nothing was stored under -/
  | unknownName
  | value (v : Value)
  | typedValues (vs : List TypedValue)
  | native (vs : List (TypedValue ⊕ Value))
  | single (result : Option SingleResult)
  | receipt (receipt : Option Receipt)
  | handle (c : Contract)
  | request (r : TransactionRequest)
  | outcome (o : RevertOutcome)
  | strategy (s : Option GasStrategy)
  | call (response : CallResponse)
  | code (response : CodeResponse)
  | occurrence (found : Option (EventValues × Log))
  | occurrences (found : List (EventValues × Log))

namespace Event

def occurrences (e : Event) : EventSource → Outcome Answer
  | .log log => do
    let found ← e.ofLog log
    return .occurrence (found.map (·, log))
  | .receipt receipt => do
    return .occurrences (← e.ofReceipt receipt)

end Event

namespace Contract

def invoke (c : Contract) (f : Function) : Invocation → Action Answer
  | .raw => do return .value (← c.callRaw f)
  | .all => do return .typedValues (← c.call f)
  | .native => do return .native (Abi.unwrap (← c.call f))
  | .single expected => do return .single (← c.callSingle f expected)
  | .transaction value => do return .receipt (some (← c.transact f value))

def perform (c : Contract) : Operation → Action (Answer × Contract)
  | .invoke f how => do return (← c.invoke f how, c)
  | .setStrategy choice => do return (.nothing, c.setStrategy (← choice.make))
  | .setGasPrice price => do return (.nothing, ← Action.ofDefect (c.setGasPrice price))
  | .setBlock block => return (.nothing, c.setBlock block)
  | .setAddress address => return (.nothing, c.setAddress address)
  | .setReceipt receipt => return (.nothing, c.setReceipt receipt)
  | .setDeployment network address => do
    return (.nothing, ← Action.ofDefect (c.setDeployment network address))
  | .gasPrice => do return (.value (← Action.ofDefect c.gasPrice), c)
  | .gasLimit request => do return (.value (.int (← strategyLimit c.strategy request)), c)
  | .deployment network => do return (.value (← Action.ofDefect (c.deployment network)), c)
  | .classDeployment network => do
    return (.value (← Action.ofDefect (c.classDeployment network)), c)
  | .isValid => do return (.value (.bool (← c.isValid)), c)
  | .events e source => do return (← Action.ofOutcome (e.occurrences source), c)
  | .state => return (.handle c, c)

end Contract
end EvmClient
