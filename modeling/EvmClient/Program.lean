import EvmClient.Error
import EvmClient.Response
import EvmClient.Transaction

/-!
# Programs that ask others

An operation that needs a node, a signer or a name service is a `Program`: a tree whose branching
points are questions, with one branch for every answer and every failure. What happens when it is
run depends only on the answers, so a statement about all branches holds for all collaborators.
-/

set_option autoImplicit false

namespace EvmClient

inductive Question where
  /-- a read call through a manager in memory -/
  | call (request : TransactionRequest) (block : Value)
  /-- the code at an address, through a manager in memory -/
  | code (address block : Value)
  /-- a submission at a fixed price, through a manager in memory -/
  | legacy (order : LegacyOrder)
  /-- a submission priced by the fee market, through a manager in memory -/
  | feeMarket (order : FeeMarketOrder)
  /-- a request to a node -/
  | rpc (method : String) (params : List Value)
  /-- the signature of an account -/
  | sign (transaction : Fields)
  /-- the receipt of a transaction, as a client of the node gives it -/
  | wait (hash timeout latency : Value)
  /-- the newest block -/
  | latestBlock
  /-- the gas that a transaction needs -/
  | estimate (parameters : Fields)
  /-- the address behind a name -/
  | lookup (name : Value)

abbrev Question.Answer : Question → Type
  | call .. => CallResponse
  | code .. => CodeResponse
  | legacy _ | feeMarket _ => Option Receipt
  | rpc .. => Value
  | sign _ => List UInt8
  /- nothing if the time is over -/
  | wait .. => Option Value
  | latestBlock => Value
  | estimate _ => Value
  | lookup _ => Value

inductive Severity where
  | debug
  | info
  | warning
  deriving DecidableEq, Repr

def Severity.name : Severity → String
  | debug => "DEBUG"
  | info => "INFO"
  | warning => "WARNING"

/-- What a program says without waiting for an answer. -/
inductive Notice where
  | log (severity : Severity) (logger message : String) (extra : Fields)
  /-- a factory makes a handle -/
  | construction (address : Value)

inductive Program (α : Type) where
  | done (result : α)
  | ask (q : Question) (next : Except Failure q.Answer → Program α)
  | tell (n : Notice) (next : Program α)

namespace Program

def bind {α β : Type} : Program α → (α → Program β) → Program β
  | done a, f => f a
  | ask q next, f => ask q fun answer => bind (next answer) f
  | tell n next, f => tell n (bind next f)

def map {α β : Type} (f : α → β) (p : Program α) : Program β := p.bind fun a => done (f a)

theorem bind_done {α : Type} (p : Program α) : p.bind done = p := by
  induction p with
  | done a => rfl
  | ask q next ih => simp only [bind, ih]
  | tell n next ih => simp only [bind, ih]

theorem bind_assoc {α β γ : Type} (p : Program α) (f : α → Program β) (g : β → Program γ) :
    (p.bind f).bind g = p.bind fun a => (f a).bind g := by
  induction p with
  | done a => rfl
  | ask q next ih => simp only [bind, ih]
  | tell n next ih => simp only [bind, ih]

inductive TraceEntry where
  | asked (q : Question)
  | told (n : Notice)

def run {σ α : Type} (answer : (q : Question) → σ → Except Failure q.Answer × σ) :
    Program α → σ → α × σ × List TraceEntry
  | done a, s => (a, s, [])
  | ask q next, s =>
    let (reply, s) := answer q s
    let (a, s, trace) := run answer (next reply) s
    (a, s, .asked q :: trace)
  | tell n next, s =>
    let (a, s, trace) := run answer next s
    (a, s, .told n :: trace)

end Program
end EvmClient
