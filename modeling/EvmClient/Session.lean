import EvmClient.Session.Operation

/-!
# Sessions

A session is work with one manager: handles, deferred calls and executions are stored under names
and used step by step. A name stands for the object that was stored last under it; a deferred call
keeps the handle it was made from.
-/

set_option autoImplicit false

namespace EvmClient

structure DeploymentPlan where
  kind : ContractClass := {}
  strategy : StrategyChoice := .none
  binary : Value
  arguments : Value := .text ""
  value : Value := .int 0
  factory : Option ContractClass := none

def DeploymentPlan.make (plan : DeploymentPlan) (m : Manager) : Action Deployment := do
  let strategy ← plan.strategy.make
  return ⟨plan.kind, m, strategy, plan.binary, plan.arguments, plan.value, plan.factory⟩

inductive Deferred where
  | invoke (handle : Nat) (f : Function) (how : Invocation)
  | deploy (d : Deployment)

namespace Deferred

def function : Deferred → Except Defect Function
  | invoke _ f _ => .ok f
  | deploy _ => .error .missingPart

end Deferred

inductive Step where
  | load (name : String) (kind : ContractClass) (address : Value) (strategy : StrategyChoice)
      (binary : Option Value) (resolver : Resolver)
  | deploy (name : String) (plan : DeploymentPlan)
  | deferDeployment (name : String) (plan : DeploymentPlan)
  | defer (name handle : String) (f : Function) (how : Invocation)
  /-- sends a deferred call, and stores the handle it may give -/
  | send (name : String) (handle : Option String)
  | encodeDeferred (name : String)
  | decodeDeferred (name : String) (data : Value)
  | operate (handle : String) (op : Operation)
  | makeStrategy (choice : StrategyChoice)
  | gasLimit (choice : StrategyChoice) (request : Option TransactionRequest)
  | setExecution (name : String) (strategy : StrategyChoice) (address : Value)
  | buildRequest (name : String) (data value : Value) (isCreation : Bool)
  | execute (name : String) (data value : Value) (function : String) (isCreation : Bool)
  | replay (request : TransactionRequest) (receipt : Receipt)
  | resolve (name : Value)
  | sender
  | call (request : TransactionRequest) (block : Value)
  | code (address block : Value)
  | legacy (order : LegacyOrder)
  | feeMarket (order : FeeMarketOrder)

structure Session where
  manager : Manager
  memory : Memory := {}
  /-- all handles ever made, by number -/
  handles : Array Contract := #[]
  handleNames : List (String × Nat) := []
  deferred : List (String × Deferred) := []
  executions : List (String × Execution) := []

namespace Session

def store (s : Session) (name : String) (c : Contract) : Session :=
  { s with handles := s.handles.push c, handleNames := (name, s.handles.size) :: s.handleNames }

def storeDeferred (s : Session) (name : String) (d : Deferred) : Session :=
  { s with deferred := (name, d) :: s.deferred }

def storeExecution (s : Session) (name : String) (x : Execution) : Session :=
  { s with executions := (name, x) :: s.executions }

def update (s : Session) (i : Nat) (c : Contract) : Session :=
  { s with handles := s.handles.setIfInBounds i c }

def found {α : Type} (s : Session) (o : Option α) (f : α → Action (Answer × Session)) :
    Action (Answer × Session) :=
  match o with
  | some a => f a
  | none => pure (.unknownName, s)

def answer (s : Session) (x : Action Answer) : Action (Answer × Session) := do return (← x, s)

def sendDeferred (s : Session) (name : Option String) : Deferred → Action (Answer × Session)
  | .invoke i f how =>
    s.found s.handles[i]? fun c => s.answer (c.invoke f how)
  | .deploy d => do
    let c ← d.run
    return (.handle c, name.elim s fun name => s.store name c)

/-- Carries out a step; a step that fails leaves the session as it is. -/
def perform (s : Session) : Step → Action (Answer × Session)
  | .load name kind address choice binary resolver => do
    let strategy ← choice.make
    let c ← Contract.make kind s.manager address strategy resolver binary
    return (.handle c, s.store name c)
  | .deploy name plan => do
    let d ← plan.make s.manager
    let c ← d.run
    return (.handle c, s.store name c)
  | .deferDeployment name plan => do
    let d ← plan.make s.manager
    return (.nothing, s.storeDeferred name (.deploy d))
  | .defer name handle f how =>
    s.found (s.handleNames.lookup handle) fun i =>
      pure (.nothing, s.storeDeferred name (.invoke i f how))
  | .send name handle => s.found (s.deferred.lookup name) fun d => s.sendDeferred handle d
  | .encodeDeferred name => s.found (s.deferred.lookup name) fun d => s.answer do
    let f ← Action.ofDefect d.function
    return .value (.text (← Action.ofOutcome (Abi.encodeCall f)))
  | .decodeDeferred name data => s.found (s.deferred.lookup name) fun d => s.answer do
    let f ← Action.ofDefect d.function
    return .typedValues (← Action.ofOutcome (Abi.decodeReturn data f.outputs))
  | .operate handle op => s.found (s.handleNames.lookup handle) fun i =>
    s.found s.handles[i]? fun c => do
      let (a, c) ← c.perform op
      return (a, s.update i c)
  | .makeStrategy choice => s.answer do return .strategy (← choice.make)
  | .gasLimit choice request => s.answer do
    return .value (.int (← strategyLimit (← choice.make) request))
  | .setExecution name choice address => do
    let strategy ← choice.make
    return (.nothing, s.storeExecution name ⟨s.manager, address, strategy⟩)
  | .buildRequest name data value isCreation =>
    s.found (s.executions.lookup name) fun x =>
      pure (.request (x.request data value isCreation), s)
  | .execute name data value function isCreation =>
    s.found (s.executions.lookup name) fun x => s.answer do
      return .receipt (some (← x.run data value function isCreation))
  | .replay request receipt => s.answer do
    return .outcome (← Execution.replay s.manager request receipt)
  | .resolve name => s.answer do return .value (← Resolver.nameService.resolve name)
  | .sender => pure (.value s.manager.sender, s)
  | .call request block => s.answer do return .call (← s.manager.call request block)
  | .code address block => s.answer do return .code (← s.manager.code address block)
  | .legacy order => s.answer do return .receipt (← s.manager.sendLegacy order)
  | .feeMarket order => s.answer do return .receipt (← s.manager.sendFeeMarket order)

/-- Carries out a step and gives the session after it, also if the step fails. -/
def step (s : Session) (x : Step) : Program (Except Failure Answer × Session) :=
  (s.perform x s.memory).map fun
    | (.ok (a, s), memory) => (.ok a, { s with memory := memory })
    | (.error failure, memory) => (.error failure, { s with memory := memory })

end Session
end EvmClient
