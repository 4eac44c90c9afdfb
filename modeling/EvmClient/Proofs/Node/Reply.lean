import EvmClient.Manager.Node
import EvmClient.Proofs.Outcome
import EvmClient.Proofs.Path

/-!
# What a manager makes of the replies of a node

A request is one question. Its outcome is a function of the reply alone, and it leaves the memory of
the manager as it is.
-/

set_option autoImplicit false

namespace EvmClient.NodeManager

variable {n : NodeManager} {m m' : Memory} {es : List Exchange}

def replyMembers (n : NodeManager) (method : String) : Except Failure Value → Outcome Fields
  | .ok answer =>
    match properAnswer? answer with
    | some members => .ok members
    | none => fail (.transport (.malformedResponse method answer n.endpoint))
  | .error failure => do
    let reason ← Outcome.ofDefect failure.text
    fail (.transport (.request method reason n.endpoint))

theorem request_eq (n : NodeManager) (method : String) (params : List Value) :
    n.request method params = Action.query (.rpc method params) (n.replyMembers method) := by
  apply Action.attempt_ask_bind
  intro hx
  obtain failure | answer := hx
  · exact Action.ofOutcome_bind _ _
  · cases h : properAnswer? answer <;> simp only [replyMembers, h] <;> rfl

theorem properAnswer?_eq_some {answer : Value} {members : Fields}
    (h : properAnswer? answer = some members) : answer = .dict members := by
  cases answer with
  | dict entries =>
    simp only [properAnswer?, Option.ite_none_right_eq_some, Option.some.injEq] at h
    rw [h.2]
  | _ => cases h

theorem replyMembers_eq_ok {method : String} {reply : Except Failure Value} {members : Fields}
    (h : n.replyMembers method reply = .ok members) : reply = .ok (.dict members) := by
  cases reply with
  | error failure =>
    obtain ⟨_, _, hf⟩ := bind_eq_ok.mp h
    exact absurd hf fail_ne_ok
  | ok answer =>
    cases hp : properAnswer? answer with
    | none =>
      simp only [replyMembers, hp] at h
      exact absurd h fail_ne_ok
    | some entries =>
      simp only [replyMembers, hp, Except.ok.injEq] at h
      rw [properAnswer?_eq_some hp, h]

theorem replyMembers_avoids {families : List ErrorFamily} (h : .transport ∉ families)
    (method : String) (reply : Except Failure Value) :
    Avoids families (n.replyMembers method reply) := by
  cases reply with
  | error failure => exact .bind (.ofDefect _) fun _ => .fail h
  | ok answer =>
    cases hp : properAnswer? answer with
    | none =>
      simp only [replyMembers, hp]
      exact .fail h
    | some members =>
      simp only [replyMembers, hp]
      exact .ok members

def resultOf (members : Fields) : Outcome Value := do
  match ← Outcome.ofDefect (errorOf members) with
  | some e => fail (.rpcProtocol e.code e.message e.data)
  | none => return members.get "result"

theorem resultOf_eq_ok {members : Fields} {v : Value} :
    resultOf members = .ok v ↔ errorOf members = .ok none ∧ v = members.get "result" := by
  unfold resultOf
  rw [bind_eq_ok]
  constructor
  · intro hx
    obtain ⟨_ | e, he, hv⟩ := hx
    · cases hv
      exact ⟨Outcome.ofDefect_eq_ok.mp he, rfl⟩
    · exact absurd hv fail_ne_ok
  · intro hx
    obtain ⟨he, rfl⟩ := hx
    exact ⟨none, Outcome.ofDefect_eq_ok.mpr he, rfl⟩

theorem resultOf_avoids {families : List ErrorFamily} (h : .rpcProtocol ∉ families)
    (members : Fields) : Avoids families (resultOf members) := by
  refine .bind (.ofDefect _) fun e => ?_
  cases e with
  | none => exact .ok _
  | some e => exact .fail h

def replyResult (n : NodeManager) (method : String) (reply : Except Failure Value) :
    Outcome Value :=
  n.replyMembers method reply >>= resultOf

theorem replyResult_avoids {families : List ErrorFamily} (ht : .transport ∉ families)
    (hr : .rpcProtocol ∉ families) (method : String) (reply : Except Failure Value) :
    Avoids families (n.replyResult method reply) :=
  .bind (replyMembers_avoids ht method reply) (resultOf_avoids hr)

theorem replyResult_plain (method : String) (reply : Except Failure Value) :
    Plain (n.replyResult method reply) :=
  plain_iff.mpr (replyResult_avoids (by decide) (by decide) method reply)

theorem replyResult_eq_ok {method : String} {reply : Except Failure Value} {v : Value}
    (h : n.replyResult method reply = .ok v) :
    ∃ members, reply = .ok (.dict members) ∧ errorOf members = .ok none ∧
      v = Fields.get members "result" := by
  obtain ⟨members, hm, hr⟩ := bind_eq_ok.mp h
  exact ⟨members, replyMembers_eq_ok hm, resultOf_eq_ok.mp hr⟩

theorem result_eq (n : NodeManager) (method : String) (params : List Value) :
    n.result method params = Action.query (.rpc method params) (n.replyResult method) := by
  unfold result
  rw [request_eq]
  apply Action.query_bind
  intro members
  unfold resultOf
  cases h : errorOf members with
  | error d => rfl
  | ok e => cases e <;> rfl

def replyNonce (n : NodeManager) (reply : Except Failure Value) : Outcome Value := do
  Outcome.ofDefect (← n.replyResult "eth_getTransactionCount" reply).quantity

theorem pendingNonce_eq (n : NodeManager) :
    n.pendingNonce = Action.query
      (.rpc "eth_getTransactionCount" [n.sender, .text "pending"]) n.replyNonce := by
  unfold pendingNonce
  rw [result_eq]
  exact Action.query_bind fun _ => rfl

def replyCall (n : NodeManager) (reply : Except Failure Value) : Outcome CallResponse := do
  let members ← n.replyMembers "eth_call" reply
  match ← Outcome.ofDefect (errorOf members) with
  | some e => return { error := some e }
  | none => return { result := members.get "result" }

theorem replyCall_avoids {families : List ErrorFamily} (h : .transport ∉ families)
    (reply : Except Failure Value) : Avoids families (n.replyCall reply) := by
  refine .bind (replyMembers_avoids h _ reply) fun members => .bind (.ofDefect _) fun e => ?_
  cases e <;> exact .ok _

/-- A read call asks once, and has nothing but notices after that. -/
theorem call_path {request : TransactionRequest} {block : Value}
    {r : Except Failure CallResponse} (h : (n.call request block).Path m es r m') :
    m' = m ∧
      ((∃ d, request.nodeParameters = .error d ∧ es = [] ∧ r = .error (Failure.ofDefect d)) ∨
        ∃ parameters reply rest, request.nodeParameters = .ok parameters ∧
          es = .asked (.rpc "eth_call" [.dict parameters, blockParameter block]) reply :: rest ∧
          r = n.replyCall reply ∧ ∀ e ∈ rest, ∃ notice, e = .told notice) := by
  unfold call at h
  obtain ⟨d, hd, rfl, rfl, rfl⟩ | ⟨parameters, hp, h⟩ := Action.path_ofDefect_bind.mp h
  · exact ⟨rfl, .inl ⟨d, hd, rfl, rfl⟩⟩
  rw [request_eq] at h
  obtain ⟨reply, ⟨failure, hr, rfl, rfl, rfl⟩ | ⟨members, rest, hr, rfl, hm⟩⟩ :=
    Action.path_query_bind.mp h
  · refine ⟨rfl, .inr ⟨parameters, reply, [], hp, rfl, ?_, by simp⟩⟩
    rw [replyCall, hr]
    rfl
  suffices m' = m ∧ r = n.replyCall reply ∧ ∀ e ∈ rest, ∃ notice, e = .told notice from
    ⟨this.1, .inr ⟨parameters, reply, rest, hp, rfl, this.2⟩⟩
  rw [replyCall, hr]
  simp only [bind, Except.bind]
  obtain ⟨d, hd, rfl, rfl, rfl⟩ | ⟨_ | e, he, ha⟩ := Action.path_ofDefect_bind.mp hm
  · rw [hd]
    exact ⟨rfl, rfl, by simp⟩
  · obtain ⟨rfl, rfl, rfl⟩ := Action.path_pure.mp ha
    rw [he]
    exact ⟨rfl, rfl, by simp⟩
  · obtain ⟨last, rfl, hl⟩ := Action.path_log_bind.mp ha
    obtain ⟨rfl, rfl, rfl⟩ := Action.path_pure.mp hl
    rw [he]
    exact ⟨rfl, rfl, by simp⟩

end EvmClient.NodeManager
