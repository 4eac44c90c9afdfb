import EvmClient.Action
import EvmClient.Value.Arithmetic

/-!
# Gas strategies

A strategy says what is paid for a transaction: a fixed price, or a tip and a ceiling on a fee
market. Its limit is a constant, is computed from the request, or is estimated by a node and
increased by a factor up to a cap.
-/

set_option autoImplicit false

namespace EvmClient

inductive GasLimit where
  | constant (limit : Value)
  | computed (f : TransactionRequest → Outcome Value)
  | estimated (factor cap : Value)

namespace GasLimit

def default : GasLimit := .constant (.int 9000000)

def defaultFactor : Value := .float 1.15

def defaultCap : Value := .int 30000000

def perCharacter (n : Value) : GasLimit := .computed fun request => Outcome.ofDefect do
  let count ← match request.data with
    | .text s => pure (.int s.toList.length)
    | .bytes bs => pure (.int bs.length)
    | .list items | .tuple items => pure (.int items.length)
    | .dict entries => pure (.int entries.length)
    | _ => .error .wrongKind
  let product ← n.times count
  product.plus request.value

/-- The limit of an estimate: increased, without its fraction, and at most the cap. -/
def ofEstimate (estimate factor cap : Value) : Except Defect Value := do
  let increased ← estimate.times factor
  let whole ← increased.wholeNumber
  Value.least (.int whole) cap

/-- The limit for a request. Only a constant limit is known without one. -/
def resolve (limit : GasLimit) (request : Option TransactionRequest) : Action Int := do
  let given ← match limit, request with
    | .constant v, _ => pure v
    | _, none => Action.ofDefect (.error .malformedValue)
    | .computed f, some r => Action.ofOutcome (f r)
    | .estimated factor cap, some r => do
      let estimate ← Action.ask (.estimate r.parameters)
      Action.ofDefect (ofEstimate estimate factor cap)
  Action.ofDefect given.wholeNumber

end GasLimit

structure LegacyStrategy where
  price : Value
  limit : GasLimit

structure FeeMarketStrategy where
  chainId : Value
  maxPriorityFee : Value
  maxFee : Value
  limit : GasLimit
  /-- the price where the fee market cannot be used; null means the maximal fee -/
  price : Value := .null

inductive GasStrategy where
  | legacy (s : LegacyStrategy)
  | feeMarket (s : FeeMarketStrategy)

namespace GasStrategy

def default : GasStrategy := .legacy ⟨.int 4100000000, GasLimit.default⟩

def kindName : GasStrategy → String
  | legacy _ => "legacy"
  | feeMarket _ => "fee-market"

def limit : GasStrategy → GasLimit
  | legacy s => s.limit
  | feeMarket s => s.limit

def gasPrice : GasStrategy → Value
  | legacy s => s.price
  | feeMarket s => if s.price.isNull then s.maxFee else s.price

def gasLimit (s : GasStrategy) (request : Option TransactionRequest) : Action Int :=
  s.limit.resolve request

end GasStrategy

namespace FeeMarketStrategy

def leastMaxFee : Value := .int 10000000

def priorityFee : Value := .int 1000000

def maxFeeAt (baseFee : Value) : Except Defect Value := do
  let doubled ← baseFee.times (.int 2)
  doubled.greatest leastMaxFee

def ofLatestBlock (chainId : Value) (limit : GasLimit) : Action FeeMarketStrategy := do
  let block ← Action.ask .latestBlock
  let members ← Action.ofDefect (Value.members block)
  let baseFee := (members.lookup "baseFeePerGas").getD (.int 0)
  let maxFee ← Action.ofDefect (maxFeeAt baseFee)
  Action.log .debug "ethwrap.gas" "Priced fee-market strategy"
    [("base_fee", baseFee), ("max_fee", maxFee), ("priority_fee", priorityFee)]
  return { chainId := chainId, maxPriorityFee := priorityFee, maxFee := maxFee, limit := limit }

end FeeMarketStrategy
end EvmClient
