import EvmClient.Settings
import EvmClient.Value.Equality

/-!
# Networks

The networks that are known by name, and the choice of the endpoint to connect to.
-/

set_option autoImplicit false

namespace EvmClient

inductive Network where
  | mainnet
  | sepolia
  | holesky
  | base
  | baseSepolia
  deriving DecidableEq, Repr, Inhabited

namespace Network

def all : List Network := [mainnet, sepolia, holesky, base, baseSepolia]

def name : Network → String
  | mainnet => "mainnet"
  | sepolia => "sepolia"
  | holesky => "holesky"
  | base => "base"
  | baseSepolia => "base-sepolia"

def chainId : Network → Nat
  | mainnet => 1
  | sepolia => 11155111
  | holesky => 17000
  | base => 8453
  | baseSepolia => 84532

def publicEndpoint : Network → String
  | mainnet => "https://ethereum-rpc.publicnode.com"
  | sepolia => "https://ethereum-sepolia-rpc.publicnode.com"
  | holesky => "https://ethereum-holesky-rpc.publicnode.com"
  | base => "https://mainnet.base.org"
  | baseSepolia => "https://sepolia.base.org"

def ofName? (s : String) : Option Network := all.find? fun n => n.name == s

def ofValue (v : Value) : Except Defect Network :=
  match v with
  | .text s => (ofName? s).elim (.error .malformedValue) .ok
  | _ => .error .malformedValue

end Network

structure NetworkConfig where
  network : Network
  endpoint : Value
  deriving Inhabited

namespace NetworkConfig

def networkId (c : NetworkConfig) : String := toString c.network.chainId

def ofNetwork (n : Network) (endpoint : Value) : NetworkConfig :=
  ⟨n, endpoint.orElse (.text n.publicEndpoint)⟩

def ofValue (network endpoint : Value) : Except Defect NetworkConfig :=
  (Network.ofValue network).map fun n => ofNetwork n endpoint

end NetworkConfig

structure Connection where
  endpoint : Value
  timeout : Value
  deriving Inhabited

namespace Connection

def localEndpoint : String := "http://localhost:8545"

def chosenEndpoint (network given : Value) : Except Defect Value :=
  if network.isFixed then
    match Network.ofValue network with
    | .ok n => .ok (NetworkConfig.ofNetwork n given).endpoint
    | .error _ =>
      let chosen := given.orElse network
      .ok (if chosen.isNull then .text localEndpoint else chosen)
  else .error .wrongKind

/-- A connection; without a timeout of its own it takes that of the settings. -/
def choose (network given timeout : Value) (settings : Settings) : Except Defect Connection := do
  let url ← chosenEndpoint network given
  return ⟨url, if timeout.isNull then settings.requestTimeout else timeout⟩

end Connection
end EvmClient
