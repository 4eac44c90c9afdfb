import EvmClient.Proofs.Execution.Asked
import EvmClient.Session.Operation

/-!
# What questions are about

A question that reads a contract, calls it or changes it names the contract, and a call has a
payload. What an execution asks is about its recipient and carries its payload, in whatever form it
goes out: as an order, as fields to be signed, or as a dictionary for a node.
-/

set_option autoImplicit false

namespace EvmClient

/-- The value is the recipient, as it was given or in checksum form. -/
inductive StandsFor (recipient : Value) : Value → Prop where
  | itself : StandsFor recipient recipient
  | checksum {address : String} (h : Address.canonical recipient = .ok address) :
      StandsFor recipient (.text address)

theorem StandsFor.isNull {recipient v : Value} (h : StandsFor recipient v) :
    v.isNull = recipient.isNull := by
  cases h with
  | itself => rfl
  | checksum h =>
    cases recipient with
    | null => cases h
    | _ => rfl

namespace Question

def nodeFields? : String → List Value → Option Fields
  | method, .dict fields :: _ =>
    if method = "eth_call" ∨ method = "eth_sendTransaction" then some fields else none
  | _, _ => none

/-- The contract that is read, called or changed, null if a contract is made. -/
def target? : Question → Option Value
  | call request _ => some request.recipient
  | code address _ => some address
  | legacy order => some order.recipient
  | feeMarket order => some order.recipient
  | sign transaction => some (transaction.get "to")
  | rpc method params =>
    if method = "eth_getCode" then params.head?
    else (nodeFields? method params).map fun fields => fields.get "to"
  | _ => none

def payload? : Question → Option Value
  | call request _ => some request.data
  | legacy order => some order.data
  | feeMarket order => some order.data
  | sign transaction => some (transaction.get "data")
  | rpc method params => (nodeFields? method params).map fun fields => fields.get "data"
  | _ => none

def IsAbout (recipient : Value) (q : Question) : Prop :=
  ∀ v, q.target? = some v → StandsFor recipient v

def Carries (data : Value) (q : Question) : Prop := ∀ v, q.payload? = some v → v = data

theorem nodeFields?_eq_none {method : String} {params : List Value} (h : method ≠ "eth_call")
    (h' : method ≠ "eth_sendTransaction") : nodeFields? method params = none := by
  rcases params with _ | ⟨param, params⟩
  · rfl
  · cases param with
    | dict fields => simp [nodeFields?, h, h']
    | _ => rfl

variable {recipient data : Value} {method : String} {params : List Value}

theorem isAbout_rpc (hcode : method ≠ "eth_getCode") (h : method ≠ "eth_call")
    (h' : method ≠ "eth_sendTransaction") : (rpc method params).IsAbout recipient := by
  intro v hv
  rw [target?, if_neg hcode, nodeFields?_eq_none h h'] at hv
  cases hv

theorem carries_rpc (h : method ≠ "eth_call") (h' : method ≠ "eth_sendTransaction") :
    (rpc method params).Carries data := by
  intro v hv
  rw [payload?, nodeFields?_eq_none h h'] at hv
  cases hv

end Question

theorem lookup_nodeForm (transaction : Fields) (name : String) :
    (transaction.map fun entry => (entry.1, entry.2.nodeForm)).lookup name =
      (transaction.lookup name).map Value.nodeForm := by
  induction transaction with
  | nil => rfl
  | cons entry rest ih =>
    obtain ⟨key, v⟩ := entry
    cases h : name == key <;> simp [List.lookup_cons, h, ih]

/-! ## Sends -/

theorem IsTransaction.get_to {recipient data : Value} {whole : Fields}
    (h : IsTransaction recipient data whole) :
    StandsFor recipient (whole.get "to") ∧ (whole.get "to").nodeForm = whole.get "to" := by
  obtain ⟨hnull, hto⟩ | ⟨address, hcanonical, hto⟩ := h.recipient
  · cases recipient <;> cases hnull
    rw [Fields.get, hto]
    exact ⟨.itself, rfl⟩
  · rw [Fields.get, hto]
    exact ⟨.checksum hcanonical, rfl⟩

namespace NodeManager

variable {n : NodeManager} {recipient data : Value} {text : String} {whole : Fields} {q : Question}

theorem get_unsignedForm (sender : Value) (whole : Fields) {name : String}
    (hname : (name == "from") = false) :
    Fields.get (("from", sender) :: whole.map fun entry => (entry.1, entry.2.nodeForm)) name =
      (whole.get name).nodeForm := by
  rw [Fields.get, Fields.get, List.lookup_cons, hname, lookup_nodeForm]
  cases whole.lookup name <;> rfl

theorem get_numbered (whole : Fields) (nonce : Value) {name : String}
    (hname : (name == "nonce") = false) :
    Fields.get (whole ++ [("nonce", nonce)]) name = whole.get name := by
  rw [Fields.get, Fields.get, List.lookup_append, List.lookup_cons, hname]
  cases whole.lookup name <;> rfl

theorem Sends.isAbout (h : IsTransaction recipient data whole) (hq : n.Sends whole q) :
    q.IsAbout recipient := by
  obtain ⟨hto, hform⟩ := h.get_to
  cases hq with
  | count | raw _ _ => exact Question.isAbout_rpc (by decide) (by decide) (by decide)
  | wait hash => exact fun v hv => nomatch hv
  | sign nonce =>
    intro v hv
    cases hv
    rw [get_numbered whole nonce (by decide)]
    exact hto
  | unsigned =>
    intro v hv
    cases hv
    change StandsFor recipient (Fields.get _ "to")
    rw [get_unsignedForm n.sender whole (by decide), hform]
    exact hto

theorem Sends.carries (h : IsTransaction recipient (.text text) whole) (hq : n.Sends whole q) :
    q.Carries (.text text) := by
  have hdata : whole.get "data" = .text text := by
    rw [Fields.get, h.data]
    rfl
  cases hq with
  | count | raw _ _ => exact Question.carries_rpc (by decide) (by decide)
  | wait hash => exact fun v hv => nomatch hv
  | sign nonce =>
    intro v hv
    cases hv
    rw [get_numbered whole nonce (by decide), hdata]
  | unsigned =>
    intro v hv
    cases hv
    refine (get_unsignedForm n.sender whole (by decide)).trans ?_
    rw [hdata]
    rfl

theorem Delivers.isAbout (h : n.Delivers recipient data q) : q.IsAbout recipient := by
  cases h with
  | block | chain => exact Question.isAbout_rpc (by decide) (by decide) (by decide)
  | send h hq => exact hq.isAbout h

theorem Delivers.carries (h : n.Delivers recipient (.text text) q) : q.Carries (.text text) := by
  cases h with
  | block | chain => exact Question.carries_rpc (by decide) (by decide)
  | send h hq => exact hq.carries h

theorem destination_eq {isCreation : Bool} {recipient : Value}
    (h : isCreation = true → recipient = .null) : destination isCreation recipient = recipient := by
  cases isCreation with
  | false => rfl
  | true => exact (h rfl).symm

end NodeManager

/-! ## Executions -/

namespace TransactionRequest

variable {request : TransactionRequest} {parameters : Fields}

theorem nodeParameters_get (h : request.nodeParameters = .ok parameters) :
    Fields.get parameters "to" = request.recipient ∧
      Fields.get parameters "data" = request.data := by
  obtain ⟨value, _, heq⟩ := bind_eq_ok.mp h
  cases heq
  refine ⟨?_, rfl⟩
  cases hr : request.recipient <;> rfl

end TransactionRequest

variable {manager : Manager} {request : TransactionRequest} {isCreation : Bool} {text : String}
  {q : Question}

theorem Calls.isAbout (h : Calls request q) : q.IsAbout request.recipient := by
  intro v hv
  cases h with
  | inMemory block =>
    cases hv
    exact .itself
  | @node parameters h block =>
    cases hv
    change StandsFor request.recipient (Fields.get parameters "to")
    rw [(TransactionRequest.nodeParameters_get h).1]
    exact .itself

theorem Inspects.isAbout {address : Value} (h : Inspects address q) : q.IsAbout address := by
  cases h <;> exact fun v hv => Option.some.inj hv ▸ .itself

theorem Calls.carries (h : Calls request q) : q.Carries request.data := by
  intro v hv
  cases h with
  | inMemory block =>
    cases hv
    rfl
  | node h block =>
    cases hv
    exact (TransactionRequest.nodeParameters_get h).2

namespace Execution

theorem Asked.isAbout (hr : isCreation = true → request.recipient = .null)
    (h : Asked manager request isCreation q) : q.IsAbout request.recipient := by
  cases h with
  | estimate => exact fun v hv => nomatch hv
  | legacy recipient data mark | feeMarket recipient data mark =>
    intro v hv
    cases hv
    rw [recipient]
    exact .itself
  | node h hq =>
    rw [NodeManager.destination_eq hr] at hq
    exact hq.isAbout
  | call h => exact h.isAbout

theorem Asked.carries (hd : request.data = .text text) (h : Asked manager request isCreation q) :
    q.Carries (.text text) := by
  cases h with
  | estimate => exact fun v hv => nomatch hv
  | legacy recipient data mark | feeMarket recipient data mark =>
    intro v hv
    cases hv
    rw [data, hd]
  | node h hq =>
    rw [hd] at hq
    exact hq.carries
  | call h =>
    rw [← hd]
    exact h.carries

end Execution

/-! ## Handles -/

theorem StrategyChoice.make_asks (choice : StrategyChoice) :
    choice.make.Asks (· = .latestBlock) := by
  cases choice with
  | none | given s => exact .pure
  | latestBlock chainId limit =>
    refine .map ?_
    exact .bind (.ask rfl) fun _ => .bind .ofDefect fun _ => .bind .ofDefect fun _ =>
      .bind .log fun _ => .pure

theorem strategyLimit_asks (strategy : Option GasStrategy) (request : Option TransactionRequest) :
    (strategyLimit strategy request).Asks fun q => ∃ parameters, q = .estimate parameters := by
  cases strategy with
  | none => exact .ofDefect
  | some s =>
    cases request with
    | some request => exact (Execution.resolve_asks s.limit request).mono fun _ hq => ⟨_, hq⟩
    | none =>
      rw [strategyLimit, GasStrategy.gasLimit]
      cases s.limit with
      | constant v => exact .bind .pure fun _ => .ofDefect
      | computed | estimated => exact .bind .ofDefect fun _ => .ofDefect

namespace Contract

variable {c : Contract} {f : Function}

/-- What is asked when a function is called through a handle: the encoded call goes to the address
of the handle, as a read call or in a transaction. -/
inductive Invokes (c : Contract) (f : Function) : Question → Prop where
  | call {text : String} {request : TransactionRequest} {q : Question}
      (encoded : Abi.encodeCall f = .ok text) (recipient : request.recipient = c.address)
      (data : request.data = .text text) (h : Calls request q) : Invokes c f q
  | transaction {text : String} {amount : Int} {q : Question}
      (encoded : Abi.encodeCall f = .ok text)
      (h : Execution.Asked c.manager (c.execution.request (.text text) (.int amount) false) false
        q) : Invokes c f q

theorem callRaw_asks (c : Contract) (f : Function) : (c.callRaw f).Asks (c.Invokes f) := by
  refine .ofOutcome_bind fun request hr => .bind ?_ fun _ => .ofOutcome
  obtain ⟨text, hencoded, heq⟩ := bind_eq_ok.mp hr
  cases heq
  exact (c.manager.call_asks _ _).mono fun q hq => .call hencoded rfl rfl hq

theorem transact_asks (c : Contract) (f : Function) (value : Value) :
    (c.transact f value).Asks (c.Invokes f) := by
  refine .ofOutcome_bind fun text hencoded => ?_
  refine (c.execution.run_asks _ _ _ _).mono ?_
  rintro q ⟨amount, hq⟩
  exact .transaction hencoded hq

theorem invoke_asks (c : Contract) (f : Function) (how : Invocation) :
    (c.invoke f how).Asks (c.Invokes f) := by
  have hcall : (c.call f).Asks (c.Invokes f) := .bind (c.callRaw_asks f) fun _ => .ofOutcome
  cases how with
  | raw => exact .map (c.callRaw_asks f)
  | all | native => exact .map hcall
  | single expected => exact .map (.bind hcall fun _ => .ofOutcome)
  | transaction value => exact .map (c.transact_asks f value)

theorem Invokes.isAbout (ha : c.address.isTruthy = true) {q : Question} (h : c.Invokes f q) :
    q.IsAbout c.address := by
  cases h with
  | call _ recipient _ h => exact recipient ▸ h.isAbout
  | transaction _ h =>
    have habout := h.isAbout fun hc => absurd hc Bool.false_ne_true
    have hrecipient : ∀ data value,
        (c.execution.request data value false).recipient = c.address := fun _ _ => if_pos ha
    rwa [hrecipient] at habout

theorem Invokes.carries {q : Question} (h : c.Invokes f q) {v : Value} (hv : q.payload? = some v) :
    ∃ text, Abi.encodeCall f = .ok text ∧ v = .text text := by
  cases h with
  | @call text _ _ encoded _ data h => exact ⟨text, encoded, (h.carries v hv).trans data⟩
  | @transaction text _ _ encoded h => exact ⟨text, encoded, h.carries rfl v hv⟩

theorem isValid_asks (c : Contract) : c.isValid.Asks (Inspects c.address) := by
  refine .bind .ofOutcome fun _ => .bind (c.manager.code_asks _ _) fun response => ?_
  cases response.error with
  | none => exact .ofDefect
  | some e => exact .bind .log fun _ => .pure

theorem perform_isAbout (ha : c.address.isTruthy = true) (op : Operation) :
    (c.perform op).Asks (Question.IsAbout c.address) := by
  cases op with
  | invoke f how => exact .map ((c.invoke_asks f how).mono fun _ hq => hq.isAbout ha)
  | isValid => exact .map (c.isValid_asks.mono fun _ hq => hq.isAbout)
  | setStrategy choice => exact .map (choice.make_asks.mono fun _ hq => hq ▸ nofun)
  | gasLimit request =>
    refine .map ((strategyLimit_asks c.strategy request).mono ?_)
    rintro _ ⟨parameters, rfl⟩
    exact nofun
  | events e source => exact .map .ofOutcome
  | setBlock | setAddress | setReceipt | state => exact .pure
  | setGasPrice | setDeployment | gasPrice | deployment | classDeployment => exact .map .ofDefect

end Contract
end EvmClient
