import EvmClient.Contract.Deployment
import EvmClient.Proofs.Execution.Phases
import EvmClient.Proofs.Node.Send

/-!
# Which errors an execution ends with

An execution makes errors of six families itself. An error of any other family is one that somebody
who was asked has raised, or a gas limit that is given as a function.
-/

set_option autoImplicit false

namespace EvmClient

variable {α β : Type} {families : List ErrorFamily} {m m' : Memory} {es : List Exchange}

/-! ## Work that asks nobody -/

theorem Input.hex_avoids (h : .validation ∉ families) (v : Value) (field : String) :
    Avoids families (Input.hex v field) := by
  cases v with
  | text s => exact .ite (.fail h) (.ite (.fail h) (.ok _))
  | _ => exact .fail h

theorem Abi.encodeArguments_avoids (h : .validation ∉ families) (arguments : List TypedValue) :
    Avoids families (Abi.encodeArguments arguments) := by
  unfold Abi.encodeArguments
  dsimp only
  cases AbiType.ofTexts (arguments.map TypedValue.type) with
  | ok types =>
    dsimp only
    cases AbiType.encodeAll? types (arguments.map TypedValue.value) with
    | none => exact .fail h
    | some bs => exact .ite (.ok bs) (.defect _)
  | error d =>
    cases d with
    | unreadableType | oversizedNumber => exact .defect _
    | _ => exact .fail h

theorem Abi.encodeCall_avoids (h : .validation ∉ families) (f : Function) :
    Avoids families (Abi.encodeCall f) :=
  .bind (encodeArguments_avoids h f.inputs) fun _ => .ok _

theorem Deployment.payload_avoids (h : .validation ∉ families) (binary arguments : Value) :
    Avoids families (payload binary arguments) :=
  .bind (.ofDefect _) fun _ => .bind (.ofDefect _) fun _ => Input.hex_avoids h _ _

/-! ## Errors that are passed on -/

def Replied (es : List Exchange) (failure : Failure) : Prop :=
  ∃ q, .asked q (.error failure) ∈ es

theorem Replied.after {failure : Failure} (h : Replied es failure) (es' : List Exchange) :
    Replied (es' ++ es) failure := by
  obtain ⟨q, hq⟩ := h
  exact ⟨q, List.mem_append_right es' hq⟩

namespace Action

/-- The errors of these families that an action ends with are those of others. -/
def Relays (families : List ErrorFamily) (x : Action α) : Prop :=
  ∀ m es e m', x.Path m es (.error (.client e)) m' → e.family ∈ families → Replied es (.client e)

namespace Relays

theorem pure {a : α} : (Pure.pure a : Action α).Relays families := by
  intro m es e m' h
  cases (path_pure.mp h).2.1

theorem ofOutcome {o : Outcome α} (ho : Avoids families o) : (ofOutcome o).Relays families := by
  intro m es e m' h hmem
  exact absurd hmem (ho e (path_ofOutcome.mp h).2.1.symm)

theorem ofDefect {d : Except Defect α} : (ofDefect d).Relays families := ofOutcome (.ofDefect d)

theorem fail {e : ClientError} (he : e.family ∉ families) :
    (Action.fail e : Action α).Relays families := ofOutcome (.fail he)

theorem query {q : Question} {f : Except Failure q.Answer → Outcome α}
    (hf : ∀ reply, Avoids families (f reply)) : (query q f).Relays families := by
  intro m es e m' h hmem
  obtain ⟨reply, _, hr, _⟩ := path_query.mp h
  exact absurd hmem (hf reply e hr.symm)

theorem ask {q : Question} : (ask q).Relays families := by
  intro m es e m' h _
  obtain ⟨rfl, _⟩ := path_ask.mp h
  exact ⟨q, List.mem_singleton_self _⟩

theorem tell {n : Notice} : (tell n).Relays families := by
  intro m es e m' h
  cases (path_tell.mp h).2.1

theorem log {severity : Severity} {logger message : String} {extra : Fields} :
    (log severity logger message extra).Relays families := tell

theorem memory : Action.memory.Relays families := by
  intro m es e m' h
  cases (path_memory.mp h).2.1

theorem setNextNonce {v : Value} : (Action.setNextNonce v).Relays families := by
  intro m es e m' h
  cases (path_setNextNonce.mp h).2.1

theorem setChainId {v : Value} : (Action.setChainId v).Relays families := by
  intro m es e m' h
  cases (path_setChainId.mp h).2.1

theorem bind {x : Action α} {f : α → Action β} (hx : x.Relays families)
    (hf : ∀ a, (f a).Relays families) : (x >>= f).Relays families := by
  intro m es e m' h hmem
  obtain ⟨failure, hp, heq⟩ | ⟨a, m₁, es₁, es₂, rfl, _, hp⟩ := path_bind.mp h
  · cases heq
    exact hx m es e m' hp hmem
  · exact (hf a m₁ es₂ e m' hp hmem).after es₁

theorem map {x : Action α} {f : α → β} (hx : x.Relays families) :
    (x >>= fun a => Pure.pure (f a)).Relays families := hx.bind fun _ => pure

theorem ite {c : Prop} [Decidable c] {x y : Action α} (hx : x.Relays families)
    (hy : y.Relays families) : (if c then x else y).Relays families := by
  by_cases h : c
  · rw [if_pos h]
    exact hx
  · rw [if_neg h]
    exact hy

end Relays
end Action

/-- None of the families is one of those whose errors an execution makes itself. -/
structure AreForeign (families : List ErrorFamily) : Prop where
  invalidAmount : .invalidAmount ∉ families
  transport : .transport ∉ families
  rpcProtocol : .rpcProtocol ∉ families
  transaction : .transaction ∉ families
  transactionTimeout : .transactionTimeout ∉ families
  revertedTransaction : .revertedTransaction ∉ families

section

variable (hf : AreForeign families)
include hf

namespace NodeManager

variable (n : NodeManager)

theorem replyResult_foreign (method : String) (reply : Except Failure Value) :
    Avoids families (n.replyResult method reply) :=
  replyResult_avoids hf.transport hf.rpcProtocol method reply

theorem result_relays (method : String) (params : List Value) :
    (n.result method params).Relays families := by
  rw [result_eq]
  exact .query (n.replyResult_foreign hf method)

theorem pendingNonce_relays : n.pendingNonce.Relays families :=
  .bind (n.result_relays hf _ _) fun _ => .ofDefect

theorem nonce_relays : n.nonce.Relays families := by
  refine .ite (.bind ?_ fun _ => .bind .ofDefect fun _ => .bind .setNextNonce fun _ => .pure)
    (n.pendingNonce_relays hf)
  exact .bind .memory fun _ => .ite (.bind (n.pendingNonce_relays hf) fun _ =>
    .bind .setNextNonce fun _ => .pure) .pure

theorem chainId_relays : n.chainId.Relays families :=
  .bind .memory fun _ => .ite (.bind (n.result_relays hf _ _) fun _ =>
    .bind .ofDefect fun _ => .bind .setChainId fun _ => .pure) .pure

theorem submitRaw_relays (raw : List UInt8) : (n.submitRaw raw).Relays families := by
  intro m es e m' h hmem
  obtain ⟨reply, _, hr, _⟩ := submitRaw_path.mp h
  exact absurd hmem (n.replyResult_foreign hf _ reply e hr.symm)

theorem submit_relays (transaction : Fields) : (n.submit transaction).Relays families :=
  .ite (.bind (n.nonce_relays hf) fun _ => .bind .ask fun _ => n.submitRaw_relays hf _)
    (n.result_relays hf _ _)

theorem replyReceipt_foreign (hash : Value) (reply : Except Failure (Option Value)) :
    Avoids families (n.replyReceipt hash reply) := by
  rcases reply with failure | _ | raw
  · exact .bind (.ofDefect _) fun _ => .fail hf.transport
  · exact .fail hf.transactionTimeout
  · exact .ofDefect _

theorem receipt_relays (hash : Value) : (n.receipt hash).Relays families := by
  intro m es e m' h hmem
  obtain ⟨_, reply, _, hr, _⟩ | ⟨_, _, hr, _⟩ := receipt_path.mp h
  · exact absurd hmem (n.replyReceipt_foreign hf hash reply e hr.symm)
  · cases hr

theorem send_relays (transaction : Fields) (recipient : Value) :
    (n.send transaction recipient).Relays families := by
  rw [send_eq]
  exact .bind .ofDefect fun whole => .bind (n.submit_relays hf whole) fun hash =>
    .bind .log fun _ => n.receipt_relays hf hash

theorem sendLegacy_relays (o : LegacyOrder) : (n.sendLegacy o).Relays families := by
  rw [sendLegacy_eq]
  exact .ite (.bind (n.chainId_relays hf) fun _ => n.send_relays hf _ _) (n.send_relays hf _ _)

theorem sendFeeMarket_relays (o : FeeMarketOrder) : (n.sendFeeMarket o).Relays families :=
  .bind (n.result_relays hf _ _) fun _ => .bind .ofDefect fun _ =>
    .ite (.bind .log fun _ => .pure) (.map (n.send_relays hf _ _))

theorem call_relays (request : TransactionRequest) (block : Value) :
    (n.call request block).Relays families := by
  intro m es e m' h hmem
  obtain ⟨_, ⟨_, _, _, hr⟩ | ⟨_, reply, _, _, _, hr, _⟩⟩ := call_path h
  · cases hr
  · exact absurd hmem (replyCall_avoids hf.transport reply e hr.symm)

end NodeManager

namespace Manager

variable (manager : Manager)

theorem sendLegacy_relays (o : LegacyOrder) : (manager.sendLegacy o).Relays families := by
  cases manager with
  | inMemory sender => exact .ask
  | node n => exact .map (n.sendLegacy_relays hf o)

theorem sendFeeMarket_relays (o : FeeMarketOrder) : (manager.sendFeeMarket o).Relays families := by
  cases manager with
  | inMemory sender => exact .ask
  | node n => exact n.sendFeeMarket_relays hf o

theorem call_relays (request : TransactionRequest) (block : Value) :
    (manager.call request block).Relays families := by
  cases manager with
  | inMemory sender => exact .ask
  | node n => exact n.call_relays hf request block

end Manager

namespace Execution

theorem submit_relays (manager : Manager) (s : GasStrategy) (request : TransactionRequest)
    (limit : Int) (function : String) (isCreation : Bool) :
    (submit manager s request limit function isCreation).Relays families := by
  cases s with
  | legacy s => exact .bind .log fun _ => manager.sendLegacy_relays hf _
  | feeMarket s =>
    refine .bind .log fun _ => .bind (manager.sendFeeMarket_relays hf _) fun receipt => ?_
    cases receipt with
    | none => exact .bind .log fun _ => manager.sendLegacy_relays hf _
    | some receipt => exact .pure

theorem settle_relays (manager : Manager) (request : TransactionRequest) (receipt : Receipt)
    (function : String) : (settle manager request receipt function).Relays families :=
  .ite (.bind (.bind .log fun _ => .bind (manager.call_relays hf _ _) fun _ => .ofDefect) fun _ =>
    .bind .log fun _ => .fail hf.revertedTransaction) .pure

omit hf in
theorem rejection_avoids (failure : Failure) :
    Avoids [.rpcProtocol] (.error (rejection failure) : Outcome α) := by
  rcases failure with e | _ | _
  · cases e with
    | rpcProtocol code message data =>
      have h : .transaction ∉ [ErrorFamily.rpcProtocol] := by decide
      exact Avoids.ofError (e := .transaction _) h
    | _ =>
      intro e' h
      cases h
      simp [ClientError.family]
  · intro _ h
    cases h
  · intro _ h
    cases h

theorem rejection_eq_client {failure : Failure} {e : ClientError}
    (h : rejection failure = .client e) (he : e.family ∈ families) : failure = .client e := by
  rcases failure with e' | _ | _
  · cases e' with
    | rpcProtocol code message data =>
      have hs : Avoids families (.error (Failure.ofError (.transaction
        (.rejected code message data))) : Outcome Unit) := .ofError hf.transaction
      exact absurd he (hs e (congrArg Except.error h))
    | _ => exact h
  · cases h
  · cases h

theorem limitFailure_eq_client {function : String} {failure : Failure} {e : ClientError}
    (h : limitFailure function failure = .client e) (he : e.family ∈ families) :
    failure = .client e := by
  rcases failure with e' | fault | _
  · exact h
  · have hs : Avoids families
        (.error (Failure.ofError (.transaction (.gasLimit function fault))) : Outcome Unit) :=
      .ofError hf.transaction
    exact absurd he (hs e (congrArg Except.error h))
  · cases h

theorem gasLimit_relays {strategy : Option GasStrategy} {request : TransactionRequest}
    {function : String} {e : ClientError}
    (h : (gasLimit strategy request function).Path m es (.error (.client e)) m')
    (he : e.family ∈ families) :
    Replied es (.client e) ∨ IsComputed strategy request (.client e) := by
  obtain ⟨cause, heq, hcause⟩ := gasLimit_failed h
  obtain rfl := limitFailure_eq_client hf heq.symm he
  obtain hcomputed | hestimate | ⟨d, hd⟩ := hcause
  · exact .inr hcomputed
  · exact .inl ⟨_, hestimate⟩
  · cases hd

/-- An error of a family that an execution does not make itself was raised by somebody else. -/
theorem run_relays {x : Execution} {data value : Value} {function : String} {isCreation : Bool}
    {e : ClientError}
    (h : (x.run data value function isCreation).Path m es (.error (.client e)) m')
    (he : e.family ∈ families) :
    Replied es (.client e) ∨ ∃ amount, Input.amount value "value" = .ok amount ∧
      IsComputed x.strategy (x.request data (.int amount) isCreation) (.client e) := by
  obtain ⟨failure, hs, heq⟩ | ⟨request, receipt, m₁, es₁, es₂, rfl, _, hsettle⟩ := run_path.mp h
  · cases heq
    obtain ⟨failure, ha, _, heq, _⟩ | ⟨amount, ha, hl⟩ := submission_path.mp hs
    · cases heq
      exact absurd he (amount_avoids hf.invalidAmount _ _ _ e ha)
    obtain ⟨failure, hg, heq⟩ | ⟨s, limit, m₁, es₁, es₂, reply, rfl, _, hsubmit, heq⟩ := hl
    · cases heq
      exact (gasLimit_relays hf hg he).imp_right fun hcomputed => ⟨amount, ha, hcomputed⟩
    · rcases reply with failure | _ | receipt
      · obtain rfl := rejection_eq_client hf (Except.error.inj heq).symm he
        exact .inl ((submit_relays hf _ _ _ _ _ _ _ _ e _ hsubmit he).after es₁)
      · cases heq
      · cases heq
  · exact .inl ((settle_relays hf _ _ _ _ _ _ e _ hsettle he).after es₁)

end Execution
end

end EvmClient
