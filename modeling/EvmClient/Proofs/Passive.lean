import EvmClient.Proofs.Node.Send
import EvmClient.Proofs.Questions
import EvmClient.Session

/-!
# Work that submits nothing

Most of what is done with a manager makes no transaction: reads, gas limits, names and receipts. It
is made of steps that ask for no signature and no count of nonces, so it has every property of
actions that such steps have and that carries over: `Action.IsClosed`. One of them is to be passive,
which is to hand nothing over and to leave the next nonce as it is.
-/

set_option autoImplicit false

namespace EvmClient

variable {α β : Type}

/-- No transaction is made by the question, and it has nothing to do with nonces. -/
def Question.IsPassive : Question → Prop
  | .rpc method _ =>
    method ∉ ["eth_sendTransaction", "eth_sendRawTransaction", "eth_getTransactionCount"]
  | .legacy _ | .feeMarket _ | .sign _ => False
  | _ => True

/-- A property of actions is closed if plain steps have it, and so has what is made of actions that
have it. Of the questions only those count that make no transaction. -/
structure Action.IsClosed (P : {α : Type} → Action α → Prop) : Prop where
  ofOutcome {α : Type} (o : Outcome α) : P (Action.ofOutcome o)
  ask {q : Question} (h : q.IsPassive) : P (Action.ask q)
  tell (n : Notice) : P (Action.tell n)
  bind {α β : Type} {x : Action α} {f : α → Action β} (hx : P x) (hf : ∀ a, P (f a)) :
    P (x >>= f)
  attempt {α : Type} {x : Action α} (hx : P x) : P (Action.attempt x)

structure Action.IsPassive (x : Action α) : Prop where
  asks : x.Asks Question.IsPassive
  keeps : ∀ {m es r m'}, x.Path m es r m' → m'.nextNonce = m.nextNonce

namespace Action.IsPassive

theorem pure {a : α} : (Pure.pure a : Action α).IsPassive where
  asks := .pure
  keeps := by
    intro m es r m' h
    rw [(path_pure.mp h).2.2]

theorem ofOutcome {o : Outcome α} : (Action.ofOutcome o).IsPassive where
  asks := .ofOutcome
  keeps := by
    intro m es r m' h
    rw [(path_ofOutcome.mp h).2.2]

theorem ofDefect {d : Except Defect α} : (Action.ofDefect d).IsPassive := ofOutcome

theorem pass {failure : Failure} : (Action.pass failure : Action α).IsPassive := ofOutcome

theorem ask {q : Question} (h : q.IsPassive) : (Action.ask q).IsPassive where
  asks := .ask h
  keeps := by
    intro m es r m' hp
    rw [(path_ask.mp hp).2]

theorem tell {n : Notice} : (Action.tell n).IsPassive where
  asks := .tell
  keeps := by
    intro m es r m' h
    rw [(path_tell.mp h).2.2]

theorem log {severity : Severity} {logger message : String} {extra : Fields} :
    (Action.log severity logger message extra).IsPassive := tell

theorem memory : Action.memory.IsPassive where
  asks := .memory
  keeps := by
    intro m es r m' h
    rw [(path_memory.mp h).2.2]

theorem setChainId {v : Value} : (Action.setChainId v).IsPassive where
  asks := .setChainId
  keeps := by
    intro m es r m' h
    rw [(path_setChainId.mp h).2.2]

theorem bind {x : Action α} {f : α → Action β} (hx : x.IsPassive) (hf : ∀ a, (f a).IsPassive) :
    (x >>= f).IsPassive where
  asks := hx.asks.bind fun a => (hf a).asks
  keeps := by
    intro m es r m' h
    obtain ⟨failure, h, _⟩ | ⟨a, m₁, es₁, es₂, _, h, h'⟩ := path_bind.mp h
    · exact hx.keeps h
    · exact ((hf a).keeps h').trans (hx.keeps h)

theorem map {x : Action α} {f : α → β} (hx : x.IsPassive) :
    (x >>= fun a => Pure.pure (f a)).IsPassive := hx.bind fun _ => pure

theorem attempt {x : Action α} (hx : x.IsPassive) : (Action.attempt x).IsPassive where
  asks := hx.asks.attempt
  keeps := by
    intro m es r m' h
    obtain ⟨r₁, _, h⟩ := path_attempt.mp h
    exact hx.keeps h

theorem ite {c : Prop} [Decidable c] {x y : Action α} (hx : c → x.IsPassive)
    (hy : ¬c → y.IsPassive) : (if c then x else y).IsPassive := by
  by_cases h : c
  · rw [if_pos h]
    exact hx h
  · rw [if_neg h]
    exact hy h

end Action.IsPassive

/-! ## Closed properties -/

def Invocation.isTransaction : Invocation → Bool
  | transaction _ => true
  | _ => false

def Operation.isTransaction : Operation → Bool
  | invoke _ how => how.isTransaction
  | _ => false

namespace Action.IsClosed

variable {P : {α : Type} → Action α → Prop} (hP : IsClosed P)
include hP

theorem pure (a : α) : P (Pure.pure a) := hP.ofOutcome (.ok a)

theorem ofDefect (d : Except Defect α) : P (Action.ofDefect d) := hP.ofOutcome _

theorem fail (e : ClientError) : P (Action.fail e : Action α) := hP.ofOutcome _

theorem pass (failure : Failure) : P (Action.pass failure : Action α) := hP.ofOutcome _

theorem log (severity : Severity) (logger message : String) (extra : Fields) :
    P (Action.log severity logger message extra) := hP.tell _

theorem map {x : Action α} {f : α → β} (hx : P x) : P (x >>= fun a => Pure.pure (f a)) :=
  hP.bind hx fun _ => hP.pure _

theorem query {q : Question} (f : Except Failure q.Answer → Outcome α) (h : q.IsPassive) :
    P (Action.query q f) :=
  hP.bind (hP.attempt (hP.ask h)) fun reply => hP.ofOutcome (f reply)

omit hP in
theorem ite {c : Prop} [Decidable c] {x y : Action α} (hx : P x) (hy : P y) :
    P (if c then x else y) := by
  by_cases h : c
  · rw [if_pos h]
    exact hx
  · rw [if_neg h]
    exact hy

/-! ### Managers -/

variable (n : NodeManager) (manager : Manager)

theorem request {method : String} (params : List Value)
    (h : (Question.rpc method params).IsPassive) : P (n.request method params) := by
  rw [NodeManager.request_eq]
  exact hP.query _ h

theorem result {method : String} (params : List Value)
    (h : (Question.rpc method params).IsPassive) : P (n.result method params) := by
  rw [NodeManager.result_eq]
  exact hP.query _ h

theorem nodeCall (r : TransactionRequest) (block : Value) : P (n.call r block) := by
  refine hP.bind (hP.ofDefect _) fun parameters => ?_
  refine hP.bind (hP.request n _ (by simp [Question.IsPassive])) fun answer => ?_
  refine hP.bind (hP.ofDefect _) fun e => ?_
  cases e with
  | none => exact hP.pure _
  | some e => exact hP.bind (hP.log _ _ _ _) fun _ => hP.pure _

theorem nodeCode (address block : Value) : P (n.code address block) := by
  refine hP.bind (hP.request n _ (by simp [Question.IsPassive])) fun answer => ?_
  refine hP.bind (hP.ofDefect _) fun e => ?_
  cases e <;> exact hP.pure _

theorem receipt (hash : Value) : P (n.receipt hash) := by
  refine ite (hP.bind (hP.attempt (hP.ask trivial)) fun reply => ?_) (hP.pure _)
  rcases reply with failure | _ | raw
  · exact hP.bind (hP.ofDefect _) fun _ => hP.fail _
  · exact hP.fail _
  · exact hP.ofDefect _

theorem call (r : TransactionRequest) (block : Value) : P (manager.call r block) := by
  cases manager with
  | inMemory sender => exact hP.ask trivial
  | node n => exact hP.nodeCall n r block

theorem code (address block : Value) : P (manager.code address block) := by
  cases manager with
  | inMemory sender => exact hP.ask trivial
  | node n => exact hP.nodeCode n address block

/-! ### Executions -/

theorem resolveLimit (limit : GasLimit) (request : Option TransactionRequest) :
    P (limit.resolve request) := by
  have hd : ∀ given : Value, P (Action.ofDefect given.wholeNumber) := fun _ => hP.ofDefect _
  cases limit with
  | constant v => exact hP.bind (hP.pure v) hd
  | computed f =>
    cases request with
    | none => exact hP.bind (hP.ofDefect _) hd
    | some r => exact hP.bind (hP.ofOutcome _) hd
  | estimated factor cap =>
    cases request with
    | none => exact hP.bind (hP.ofDefect _) hd
    | some r => exact hP.bind (hP.ask trivial) fun _ => hP.bind (hP.ofDefect _) hd

theorem gasLimit (strategy : Option GasStrategy) (r : TransactionRequest) (function : String) :
    P (Execution.gasLimit strategy r function) := by
  refine hP.bind (hP.attempt ?_) fun known => ?_
  · cases strategy with
    | none => exact hP.ofDefect _
    | some s => exact hP.map (hP.resolveLimit s.limit (some r))
  · rcases known with (e | fault | problems) | known
    · exact hP.pass _
    · exact hP.fail _
    · exact hP.pass _
    · exact hP.pure _

theorem replay (r : TransactionRequest) (receipt : Receipt) :
    P (Execution.replay manager r receipt) :=
  hP.bind (hP.log _ _ _ _) fun _ => hP.bind (hP.call manager r _) fun _ => hP.ofDefect _

theorem settle (r : TransactionRequest) (receipt : Receipt) (function : String) :
    P (Execution.settle manager r receipt function) :=
  ite (hP.bind (hP.replay manager r receipt) fun _ =>
    hP.bind (hP.log _ _ _ _) fun _ => hP.fail _) (hP.pure _)

/-! ### Handles -/

theorem resolve (resolver : Resolver) (name : Value) : P (resolver.resolve name) := by
  cases resolver with
  | fixed address => exact hP.pure _
  | nameService =>
    have hreply : P (Resolver.lookUp name) := by
      refine hP.bind (hP.attempt (hP.ask trivial)) fun reply => ?_
      rcases reply with failure | address
      · exact hP.bind (hP.ofDefect _) fun _ => hP.fail _
      · cases address with
        | null => exact hP.fail _
        | _ => exact hP.bind (hP.log _ _ _ _) fun _ => hP.pure _
    exact ite hreply (hP.pure name)

theorem makeStrategy (choice : StrategyChoice) : P choice.make := by
  cases choice with
  | none => exact hP.pure _
  | given s => exact hP.pure _
  | latestBlock chainId limit =>
    refine hP.map ?_
    exact hP.bind (hP.ask trivial) fun _ => hP.bind (hP.ofDefect _) fun _ =>
      hP.bind (hP.ofDefect _) fun _ => hP.bind (hP.log _ _ _ _) fun _ => hP.pure _

theorem strategyLimit (strategy : Option GasStrategy) (request : Option TransactionRequest) :
    P (EvmClient.strategyLimit strategy request) := by
  cases strategy with
  | none => exact hP.ofDefect _
  | some s => exact hP.resolveLimit s.limit request

theorem make (kind : ContractClass) (name : Value) (strategy : Option GasStrategy)
    (resolver : Resolver) (binary : Option Value) :
    P (Contract.make kind manager name strategy resolver binary) :=
  hP.map (hP.resolve resolver name)

theorem handle (d : Deployment) : P d.handle := by
  unfold Deployment.handle
  cases d.factory with
  | none => exact hP.make _ _ _ _ _ _
  | some kind => exact hP.bind (hP.tell _) fun _ => hP.make _ _ _ _ _ _

variable (c : Contract)

theorem callRaw (f : Function) : P (c.callRaw f) :=
  hP.bind (hP.ofOutcome _) fun r => hP.bind (hP.call c.manager r c.block) fun _ => hP.ofOutcome _

theorem callResults (f : Function) : P (c.call f) :=
  hP.bind (hP.callRaw c f) fun _ => hP.ofOutcome _

theorem isValid : P c.isValid := by
  refine hP.bind (hP.ofOutcome _) fun _ => hP.bind (hP.code c.manager _ _) fun response => ?_
  cases response.error with
  | none => exact hP.ofDefect _
  | some e => exact hP.bind (hP.log _ _ _ _) fun _ => hP.pure _

theorem invoke (f : Function) {how : Invocation} (h : how.isTransaction = false) :
    P (c.invoke f how) := by
  cases how with
  | raw => exact hP.map (hP.callRaw c f)
  | all => exact hP.map (hP.callResults c f)
  | native => exact hP.map (hP.callResults c f)
  | single expected => exact hP.map (hP.bind (hP.callResults c f) fun _ => hP.ofOutcome _)
  | transaction value => cases h

theorem perform {op : Operation} (h : op.isTransaction = false) : P (c.perform op) := by
  cases op with
  | invoke f how => exact hP.map (hP.invoke c f h)
  | setStrategy choice => exact hP.map (hP.makeStrategy choice)
  | gasLimit request => exact hP.map (hP.strategyLimit c.strategy request)
  | isValid => exact hP.map (hP.isValid c)
  | events e source => exact hP.map (hP.ofOutcome _)
  | setBlock | setAddress | setReceipt | state => exact hP.pure _
  | setGasPrice | setDeployment | gasPrice | deployment | classDeployment =>
    exact hP.map (hP.ofDefect _)

end Action.IsClosed

/-! ## Passive work -/

theorem Action.IsPassive.isClosed : Action.IsClosed Action.IsPassive where
  ofOutcome _ := .ofOutcome
  ask h := .ask h
  tell _ := .tell
  bind hx hf := .bind hx hf
  attempt hx := .attempt hx

namespace NodeManager

variable (n : NodeManager)

theorem result_passive {method : String} (params : List Value)
    (h : (Question.rpc method params).IsPassive) : (n.result method params).IsPassive :=
  Action.IsPassive.isClosed.result n params h

theorem call_passive (r : TransactionRequest) (block : Value) : (n.call r block).IsPassive :=
  Action.IsPassive.isClosed.nodeCall n r block

theorem code_passive (address block : Value) : (n.code address block).IsPassive :=
  Action.IsPassive.isClosed.nodeCode n address block

theorem chainId_passive : n.chainId.IsPassive := by
  refine .bind .memory fun known => .ite ?_ ?_
  · intro _
    exact .bind (n.result_passive _ (by simp [Question.IsPassive])) fun _ =>
      .bind .ofDefect fun _ => .bind .setChainId fun _ => .pure
  · intro _
    exact .pure

theorem receipt_passive (hash : Value) : (n.receipt hash).IsPassive :=
  Action.IsPassive.isClosed.receipt n hash

end NodeManager

namespace Manager

variable (manager : Manager)

theorem call_passive (r : TransactionRequest) (block : Value) :
    (manager.call r block).IsPassive :=
  Action.IsPassive.isClosed.call manager r block

theorem code_passive (address block : Value) : (manager.code address block).IsPassive :=
  Action.IsPassive.isClosed.code manager address block

end Manager

namespace Execution

theorem gasLimit_passive (strategy : Option GasStrategy) (r : TransactionRequest)
    (function : String) : (gasLimit strategy r function).IsPassive :=
  Action.IsPassive.isClosed.gasLimit strategy r function

theorem replay_passive (m : Manager) (r : TransactionRequest) (receipt : Receipt) :
    (replay m r receipt).IsPassive :=
  Action.IsPassive.isClosed.replay m r receipt

theorem settle_passive (m : Manager) (r : TransactionRequest) (receipt : Receipt)
    (function : String) : (settle m r receipt function).IsPassive :=
  Action.IsPassive.isClosed.settle m r receipt function

end Execution

theorem Resolver.resolve_passive (resolver : Resolver) (name : Value) :
    (resolver.resolve name).IsPassive :=
  Action.IsPassive.isClosed.resolve resolver name

theorem StrategyChoice.make_passive (choice : StrategyChoice) : choice.make.IsPassive :=
  Action.IsPassive.isClosed.makeStrategy choice

theorem strategyLimit_passive (strategy : Option GasStrategy)
    (request : Option TransactionRequest) : (strategyLimit strategy request).IsPassive :=
  Action.IsPassive.isClosed.strategyLimit strategy request

namespace Contract

theorem make_passive (kind : ContractClass) (m : Manager) (name : Value)
    (strategy : Option GasStrategy) (resolver : Resolver) (binary : Option Value) :
    (make kind m name strategy resolver binary).IsPassive :=
  Action.IsPassive.isClosed.make m kind name strategy resolver binary

variable (c : Contract)

theorem invoke_passive (f : Function) {how : Invocation} (h : how.isTransaction = false) :
    (c.invoke f how).IsPassive :=
  Action.IsPassive.isClosed.invoke c f h

theorem perform_passive {op : Operation} (h : op.isTransaction = false) :
    (c.perform op).IsPassive :=
  Action.IsPassive.isClosed.perform c h

end Contract

theorem Deployment.handle_passive (d : Deployment) : d.handle.IsPassive :=
  Action.IsPassive.isClosed.handle d

end EvmClient
