import EvmClient.Execution
import EvmClient.Naming

/-!
# Contract handles

A handle stands for one contract at one address. It knows how its transactions are paid for, at
which block its read calls look, the binary the contract should have, the receipt of its deployment
if it was deployed through a handle, and addresses of known deployments by network. The name given
for a contract is resolved once, when the handle is made.
-/

set_option autoImplicit false

namespace EvmClient

structure ContractClass where
  name : String := "Contract"
  binary : Value := .text "Bin file was not provided"
  /-- addresses of known deployments by network -/
  deployments : Fields := []
  deriving Inhabited

structure Contract where
  kind : ContractClass
  manager : Manager
  address : Value
  binary : Value
  strategy : Option GasStrategy
  receipt : Option Receipt := none
  /-- the block at which read calls look -/
  block : Value := .text "latest"
  /-- addresses of deployments by network, beside those known to the class -/
  deployments : Fields := []

namespace Contract

def missingBinary : String := "Bin file was not provided"

/-- Makes a handle for a contract that is named or at an address; there may be none yet. -/
def make (kind : ContractClass) (m : Manager) (name : Value) (strategy : Option GasStrategy)
    (resolver : Resolver := .nameService) (binary : Option Value := none) : Action Contract := do
  let address ← resolver.resolve name
  return {
    kind := kind
    manager := m
    address := address.orElse (.text "")
    binary := binary.getD kind.binary
    strategy := some (strategy.getD GasStrategy.default) }

def execution (c : Contract) : Execution := ⟨c.manager, c.address, c.strategy⟩

/-! ## Settings of a handle -/

def setAddress (c : Contract) (address : Value) : Contract := { c with address := address }

def setReceipt (c : Contract) (receipt : Receipt) : Contract := { c with receipt := some receipt }

def setStrategy (c : Contract) (s : Option GasStrategy) : Contract := { c with strategy := s }

def setBlock (c : Contract) (block : Value) : Contract := { c with block := block }

def gasPrice (c : Contract) : Except Defect Value :=
  match c.strategy with
  | some s => .ok s.gasPrice
  | none => .error .missingPart

/-- A fixed price from now on, with the limit as it is. -/
def setGasPrice (c : Contract) (price : Value) : Except Defect Contract :=
  match c.strategy with
  | some s => .ok (c.setStrategy (some (.legacy ⟨price, s.limit⟩)))
  | none => .error .missingPart

/-! ## Known deployments -/

def setDeployment (c : Contract) (network address : Value) : Except Defect Contract := do
  let key ← network.textOf
  return { c with deployments := c.deployments.insert key address }

def classDeployment (c : Contract) (network : Value) : Except Defect Value := do
  let key ← network.textOf
  return c.kind.deployments.get key

/-- The address on a network: the one that was set, or else the one that the class knows. -/
def deployment (c : Contract) (network : Value) : Except Defect Value := do
  let key ← network.textOf
  let own := c.deployments.get key
  if own.isNull then c.classDeployment network else return own

end Contract
end EvmClient
