import EvmClient.Proofs.Passive
import EvmClient.Proofs.Target
import EvmClient.Script

/-!
# Which transactions have a recipient

A transaction is handed over as an order to a manager, as fields to a signer, or as a dictionary to
a node that signs. It creates a contract if it has no recipient. What an execution hands over has
one exactly if it is no creation and there is an address; all other work hands over nothing.
-/

set_option autoImplicit false

namespace EvmClient

namespace Question

def recipient? : Question → Option Value
  | legacy order => some order.recipient
  | feeMarket order => some order.recipient
  | sign transaction => some (transaction.get "to")
  | rpc method params =>
    if method = "eth_sendTransaction" then
      match params with
      | [.dict transaction] => some (Fields.get transaction "to")
      | _ => none
    else none
  | _ => none

def IsIdle (q : Question) : Prop := q.recipient? = none

/-- A transaction that is handed over creates a contract or calls one, as told. -/
def Creates (creation : Bool) (q : Question) : Prop :=
  ∀ recipient, q.recipient? = some recipient → recipient.isNull = creation

theorem IsIdle.creates {q : Question} (h : q.IsIdle) (creation : Bool) : q.Creates creation := by
  intro recipient hr
  rw [h] at hr
  cases hr

theorem isIdle_rpc {method : String} {params : List Value} (h : method ≠ "eth_sendTransaction") :
    (rpc method params).IsIdle := if_neg h

theorem IsPassive.idle {q : Question} (h : q.IsPassive) : q.IsIdle := by
  cases q with
  | rpc method params => exact isIdle_rpc fun heq => h (heq ▸ List.mem_cons_self)
  | legacy | feeMarket | sign => cases h
  | _ => rfl

end Question

open Question

variable {α β : Type} {creation : Bool}

theorem Action.Asks.idle {x : Action α} (h : x.Asks IsIdle) : x.Asks (Creates creation) :=
  h.mono fun _ hq => hq.creates creation

theorem Action.IsPassive.idle {x : Action α} (h : x.IsPassive) : x.Asks IsIdle :=
  h.asks.mono fun _ hq => hq.idle

theorem Action.IsPassive.creates {x : Action α} (h : x.IsPassive) : x.Asks (Creates creation) :=
  h.idle.idle

/-! ## Executions -/

theorem Question.target?_of_recipient? {q : Question} {v : Value} (h : q.recipient? = some v) :
    q.target? = some v := by
  cases q with
  | rpc method params =>
    simp only [recipient?, Option.ite_none_right_eq_some] at h
    obtain ⟨rfl, h⟩ := h
    split at h
    · exact h
    · cases h
  | legacy | feeMarket | sign => exact h
  | _ => cases h

theorem Question.IsAbout.creates {q : Question} {recipient : Value} (h : q.IsAbout recipient) :
    q.Creates recipient.isNull :=
  fun _ hv => (h _ (target?_of_recipient? hv)).isNull

namespace Execution

def creates (x : Execution) (isCreation : Bool) : Bool := isCreation || !x.address.isTruthy

theorem request_recipient_isNull (x : Execution) (data value : Value) (isCreation : Bool) :
    (x.request data value isCreation).recipient.isNull = x.creates isCreation := by
  unfold request creates Value.orElse
  cases isCreation with
  | true => rfl
  | false =>
    cases ht : x.address.isTruthy with
    | false => rfl
    | true => cases ha : x.address <;> simp_all [Value.isNull, Value.isTruthy]

theorem run_creates (x : Execution) (data value : Value) (function : String) (isCreation : Bool) :
    (x.run data value function isCreation).Asks (Creates (x.creates isCreation)) := by
  refine (x.run_asks data value function isCreation).mono ?_
  rintro q ⟨amount, hq⟩
  rw [← x.request_recipient_isNull data (.int amount) isCreation]
  exact (hq.isAbout fun hc => if_pos hc).creates

end Execution

end EvmClient
