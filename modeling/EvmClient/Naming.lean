import EvmClient.Action
import EvmClient.Address

/-!
# Names of contracts

A contract is named by its address or by a name that a name service knows. Addresses and empty names
stand for themselves.
-/

set_option autoImplicit false

namespace EvmClient

inductive Resolver where
  | nameService
  /-- gives the same address for every name -/
  | fixed (address : Value)
  deriving Inhabited

namespace Resolver

def logger : String := "ethwrap.ens"

def needsLookup (name : Value) : Bool := name.isTruthy && !Address.isAddress name

def lookUp (name : Value) : Action Value := do
  match ← Action.attempt (Action.ask (.lookup name)) with
  | .error failure =>
    let reason ← Action.ofDefect failure.text
    Action.fail (.nameResolution name (.text reason))
  | .ok .null => Action.fail (.nameResolution name (.text "no address record"))
  | .ok address =>
    Action.log .debug logger "Resolved ENS name" [("ens_name", name), ("address", address)]
    return address

def resolve (r : Resolver) (name : Value) : Action Value :=
  match r with
  | fixed address => pure address
  | nameService => if needsLookup name then lookUp name else pure name

end Resolver
end EvmClient
