import EvmClient.Proofs.Execution.Phases
import EvmClient.Proofs.Node.Asked

/-!
# What an execution may ask

An execution asks for an estimate of its gas, hands its request to the manager, and may make the
same request again as a read call. All that it asks is about the one request that it builds.
-/

set_option autoImplicit false

namespace EvmClient

inductive Calls (request : TransactionRequest) : Question → Prop where
  | inMemory (block : Value) : Calls request (.call request block)
  | node {parameters : Fields} (h : request.nodeParameters = .ok parameters) (block : Value) :
      Calls request (.rpc "eth_call" [.dict parameters, block])

theorem Manager.call_asks (manager : Manager) (request : TransactionRequest) (block : Value) :
    (manager.call request block).Asks (Calls request) := by
  cases manager with
  | inMemory sender => exact .ask (.inMemory block)
  | node n =>
    refine (n.call_asks request block).mono ?_
    rintro _ ⟨parameters, hp, rfl⟩
    exact .node hp _

inductive Inspects (address : Value) : Question → Prop where
  | inMemory (block : Value) : Inspects address (.code address block)
  | node (block : Value) : Inspects address (.rpc "eth_getCode" [address, block])

theorem Manager.code_asks (manager : Manager) (address block : Value) :
    (manager.code address block).Asks (Inspects address) := by
  cases manager with
  | inMemory sender => exact .ask (.inMemory block)
  | node n => exact (n.code_asks address block).mono fun _ hq => hq ▸ .node _

namespace Execution

/-- What is asked to have a request executed: an estimate of its gas, what has it submitted, and the
same request as a read call. -/
inductive Asked (manager : Manager) (request : TransactionRequest) (isCreation : Bool) :
    Question → Prop where
  | estimate : Asked manager request isCreation (.estimate request.parameters)
  | legacy {o : LegacyOrder} (recipient : o.recipient = request.recipient)
      (data : o.data = request.data) (mark : o.isCreation = isCreation) :
      Asked manager request isCreation (.legacy o)
  | feeMarket {o : FeeMarketOrder} (recipient : o.recipient = request.recipient)
      (data : o.data = request.data) (mark : o.isCreation = isCreation) :
      Asked manager request isCreation (.feeMarket o)
  | node {n : NodeManager} {q : Question} (h : manager = .node n)
      (hq : n.Delivers (NodeManager.destination isCreation request.recipient) request.data q) :
      Asked manager request isCreation q
  | call {q : Question} (h : Calls request q) : Asked manager request isCreation q

variable {manager : Manager} {request : TransactionRequest} {isCreation : Bool}

theorem resolve_asks (limit : GasLimit) (request : TransactionRequest) :
    (limit.resolve (some request)).Asks (· = .estimate request.parameters) := by
  have hwhole : ∀ given : Value, (Action.ofDefect given.wholeNumber).Asks
      (· = .estimate request.parameters) := fun _ => .ofDefect
  cases limit with
  | constant v => exact .bind .pure hwhole
  | computed f => exact .bind .ofOutcome hwhole
  | estimated factor cap => exact .bind (.ask rfl) fun _ => .bind .ofDefect hwhole

theorem gasLimit_asks (strategy : Option GasStrategy) (request : TransactionRequest)
    (function : String) :
    (gasLimit strategy request function).Asks (· = .estimate request.parameters) := by
  refine .bind (.attempt ?_) fun known => ?_
  · cases strategy with
    | none => exact .ofDefect
    | some s => exact .map (resolve_asks s.limit request)
  · rcases known with (_ | _ | _) | known
    · exact .pass
    · exact .fail
    · exact .pass
    · exact .pure

theorem sendLegacy_asked {o : LegacyOrder} (hr : o.recipient = request.recipient)
    (hd : o.data = request.data) (hm : o.isCreation = isCreation) :
    (manager.sendLegacy o).Asks (Asked manager request isCreation) := by
  cases manager with
  | inMemory sender => exact .ask (.legacy hr hd hm)
  | node n => exact .map ((n.sendLegacy_asks o).mono fun _ hq => .node rfl (hr ▸ hd ▸ hm ▸ hq))

theorem sendFeeMarket_asked {o : FeeMarketOrder} (hr : o.recipient = request.recipient)
    (hd : o.data = request.data) (hm : o.isCreation = isCreation) :
    (manager.sendFeeMarket o).Asks (Asked manager request isCreation) := by
  cases manager with
  | inMemory sender => exact .ask (.feeMarket hr hd hm)
  | node n => exact (n.sendFeeMarket_asks o).mono fun _ hq => .node rfl (hr ▸ hd ▸ hm ▸ hq)

theorem submit_asked (s : GasStrategy) (limit : Int) (function : String) :
    (submit manager s request limit function isCreation).Asks
      (Asked manager request isCreation) := by
  have hlegacy : (manager.sendLegacy (legacyOrder s request limit isCreation)).Asks
      (Asked manager request isCreation) := sendLegacy_asked rfl rfl rfl
  cases s with
  | legacy s => exact .bind .log fun _ => hlegacy
  | feeMarket s =>
    refine .bind .log fun _ => .bind (sendFeeMarket_asked rfl rfl rfl) fun receipt => ?_
    cases receipt with
    | none => exact .bind .log fun _ => hlegacy
    | some receipt => exact .pure

theorem replay_asks (manager : Manager) (request : TransactionRequest) (receipt : Receipt) :
    (replay manager request receipt).Asks (Calls request) :=
  .bind .log fun _ => .bind (manager.call_asks _ _) fun _ => .ofDefect

theorem settle_asks (manager : Manager) (request : TransactionRequest) (receipt : Receipt)
    (function : String) : (settle manager request receipt function).Asks (Calls request) :=
  .ite (fun _ => .bind (replay_asks _ _ _) fun _ => .bind .log fun _ => .fail) fun _ => .pure

theorem run_asks (x : Execution) (data value : Value) (function : String) (isCreation : Bool) :
    (x.run data value function isCreation).Asks fun q => ∃ amount,
      Asked x.manager (x.request data (.int amount) isCreation) isCreation q := by
  refine .bind .ofOutcome fun amount => ?_
  have hlimit : (gasLimit x.strategy (x.request data (.int amount) isCreation) function).Asks
      fun q => ∃ amount, Asked x.manager (x.request data (.int amount) isCreation) isCreation q :=
    (gasLimit_asks _ _ _).mono fun _ hq => ⟨amount, hq ▸ .estimate⟩
  refine .bind hlimit fun known => ?_
  have hsubmit : (submit x.manager known.1 (x.request data (.int amount) isCreation) known.2
      function isCreation).Asks
        (Asked x.manager (x.request data (.int amount) isCreation) isCreation) :=
    submit_asked _ _ _
  refine .bind (.attempt (hsubmit.mono fun _ hq => ⟨amount, hq⟩)) fun reply => ?_
  rcases reply with failure | _ | receipt
  · exact .pass
  · exact .ofDefect
  · exact (settle_asks _ _ _ _).mono fun _ hq => ⟨amount, .call hq⟩

end Execution
end EvmClient
