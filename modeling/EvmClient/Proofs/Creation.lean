import EvmClient.Proofs.Recipient

/-!
# Who creates contracts

A step of a session creates a contract if it makes a deployment, and also if it makes a transaction
through a handle that has no address. The main statement is `Session.creates_iff`. Steps that hand
over a transaction as the caller gives it, past all handles, create what they are told to.
-/

set_option autoImplicit false

namespace EvmClient

open Question

/-! ## Handles -/

namespace Contract

theorem transact_creates (c : Contract) (f : Function) (value : Value) :
    (c.transact f value).Asks (Creates !c.address.isTruthy) :=
  .bind .ofOutcome fun data => c.execution.run_creates (.text data) value f.name false

theorem invoke_creates (c : Contract) (f : Function) (how : Invocation) :
    (c.invoke f how).Asks (Creates !c.address.isTruthy) := by
  cases how with
  | transaction value => exact .map (c.transact_creates f value)
  | _ => exact (c.invoke_passive f rfl).creates

theorem perform_creates (c : Contract) (op : Operation) :
    (c.perform op).Asks (Creates !c.address.isTruthy) := by
  cases op with
  | invoke f how => exact .map (c.invoke_creates f how)
  | _ => exact (c.perform_passive rfl).creates

end Contract

/-! ## Deployments -/

namespace Deployment

theorem run_creates (d : Deployment) : d.run.Asks (Creates true) := by
  refine .bind d.handle_passive.creates fun c => .bind .ofOutcome fun data => ?_
  refine .bind (c.execution.run_creates data d.value functionName true) fun receipt => ?_
  exact .bind .ofOutcome fun _ => .bind .log fun _ => .pure

end Deployment

/-! ## Sessions -/

namespace Session

def transacting? (s : Session) : Step → Option Contract
  | .operate handle (.invoke _ (.transaction _)) => do s.handles[← s.handleNames.lookup handle]?
  | .send name _ =>
    match s.deferred.lookup name with
    | some (.invoke i _ (.transaction _)) => s.handles[i]?
    | _ => none
  | _ => none

def deploys (s : Session) : Step → Bool
  | .deploy .. => true
  | .send name _ =>
    match s.deferred.lookup name with
    | some (.deploy _) => true
    | _ => false
  | _ => false

end Session

def Step.isDirect : Step → Bool
  | execute .. | legacy _ | feeMarket _ => true
  | _ => false

namespace Session

/-- What a step may hand over: a deployment creates, a transaction through a handle goes to the
address of the handle. -/
def Permits (s : Session) (x : Step) (q : Question) : Prop :=
  q.IsIdle ∨ (s.deploys x = true ∧ q.Creates true) ∨
    ∃ c, s.transacting? x = some c ∧ q.Creates !c.address.isTruthy

variable {P : Question → Prop} (s : Session)

theorem found_asks {α : Type} {o : Option α} {f : α → Action (Answer × Session)}
    (h : ∀ a, o = some a → (f a).Asks P) : (s.found o f).Asks P := by
  cases o with
  | none => exact .pure
  | some a => exact h a rfl

variable {s}

theorem permits_passive {α : Type} {a : Action α} {x : Step} (h : a.IsPassive) :
    a.Asks (s.Permits x) := h.idle.mono fun _ hq => .inl hq

theorem permits_deployment {α : Type} {a : Action α} {x : Step} (hx : s.deploys x = true)
    (h : a.Asks (Creates true)) : a.Asks (s.Permits x) := h.mono fun _ hq => .inr (.inl ⟨hx, hq⟩)

theorem permits_transaction {α : Type} {a : Action α} {x : Step} {c : Contract}
    (hx : s.transacting? x = some c) (h : a.Asks (Creates !c.address.isTruthy)) :
    a.Asks (s.Permits x) := h.mono fun _ hq => .inr (.inr ⟨c, hx, hq⟩)

variable (s)

theorem operate_permits (handle : String) (op : Operation) :
    (s.perform (.operate handle op)).Asks (s.Permits (.operate handle op)) := by
  refine s.found_asks fun i hi => s.found_asks fun c hc => .map ?_
  cases h : op.isTransaction with
  | false => exact permits_passive (c.perform_passive h)
  | true =>
    refine permits_transaction (c := c) ?_ (c.perform_creates op)
    rcases op with ⟨f, _ | _ | _ | _ | _⟩ | _ <;> cases h
    simp [transacting?, hi, hc]

theorem send_permits (name : String) (handle : Option String) :
    (s.perform (.send name handle)).Asks (s.Permits (.send name handle)) := by
  refine s.found_asks fun d hd => ?_
  cases d with
  | deploy d =>
    refine .map (permits_deployment ?_ d.run_creates)
    simp [deploys, hd]
  | invoke i f how =>
    refine s.found_asks fun c hc => .map ?_
    cases h : how.isTransaction with
    | false => exact permits_passive (c.invoke_passive f h)
    | true =>
      refine permits_transaction (c := c) ?_ (c.invoke_creates f how)
      cases how <;> cases h
      simp [transacting?, hd, hc]

theorem perform_permits {x : Step} (hx : x.isDirect = false) :
    (s.perform x).Asks (s.Permits x) := by
  cases x with
  | operate handle op => exact s.operate_permits handle op
  | send name handle => exact s.send_permits name handle
  | deploy name plan =>
    have hp : (plan.make s.manager).IsPassive := .map plan.strategy.make_passive
    exact .bind (permits_passive hp) fun d => .map (permits_deployment rfl d.run_creates)
  | load name kind address choice binary resolver =>
    refine permits_passive (.bind choice.make_passive fun strategy => .map ?_)
    exact Contract.make_passive _ _ _ _ _ _
  | deferDeployment name plan => exact permits_passive (.map (.map plan.strategy.make_passive))
  | defer name handle f how => exact s.found_asks fun _ _ => .pure
  | encodeDeferred name =>
    exact s.found_asks fun d _ => .map (.bind .ofDefect fun _ => .map .ofOutcome)
  | decodeDeferred name data =>
    exact s.found_asks fun d _ => .map (.bind .ofDefect fun _ => .map .ofOutcome)
  | makeStrategy choice => exact permits_passive (.map (.map choice.make_passive))
  | gasLimit choice request =>
    exact permits_passive (.map (.bind choice.make_passive fun strategy =>
      .map (strategyLimit_passive strategy request)))
  | setExecution name choice address => exact permits_passive (.map choice.make_passive)
  | buildRequest name data value isCreation => exact s.found_asks fun _ _ => .pure
  | execute | legacy | feeMarket => cases hx
  | replay request receipt =>
    exact permits_passive (.map (.map (Execution.replay_passive s.manager request receipt)))
  | resolve name => exact permits_passive (.map (.map (Resolver.nameService.resolve_passive name)))
  | sender => exact .pure
  | call request block => exact permits_passive (.map (.map (s.manager.call_passive request block)))
  | code address block => exact permits_passive (.map (.map (s.manager.code_passive address block)))

theorem step_permits {x : Step} (hx : x.isDirect = false) : (s.step x).Asks (s.Permits x) :=
  (s.perform_permits hx s.memory).bind fun _ => trivial

theorem deploys_of_transacting {s : Session} {x : Step} {c : Contract}
    (h : s.transacting? x = some c) : s.deploys x = false := by
  cases x with
  | send name handle =>
    cases hd : s.deferred.lookup name with
    | none => simp [deploys, hd]
    | some d =>
      cases d with
      | invoke i f how => simp [deploys, hd]
      | deploy d => simp [transacting?, hd] at h
  | deploy name plan => cases h
  | _ => rfl

/-- What a step hands over has no recipient exactly if the step makes a deployment, or makes a
transaction through a handle that has no address. -/
theorem creates_iff (s : Session) {x : Step} (hx : x.isDirect = false) {es : List Exchange}
    {r : Except Failure Answer} {s' : Session} (h : (s.step x).Path es (r, s')) {q : Question}
    {reply : Except Failure q.Answer} (hq : .asked q reply ∈ es) {recipient : Value}
    (hr : q.recipient? = some recipient) :
    recipient.isNull = true ↔
      s.deploys x = true ∨ ∃ c, s.transacting? x = some c ∧ c.address.isTruthy = false := by
  have hp : s.Permits x q := (s.step_permits hx).path h q reply hq
  obtain hidle | ⟨hd, hc⟩ | ⟨c, ht, hc⟩ := hp
  · rw [hidle] at hr
    cases hr
  · have hnull : recipient.isNull = true := hc recipient hr
    exact ⟨fun _ => .inl hd, fun _ => hnull⟩
  · have hnull : recipient.isNull = !c.address.isTruthy := hc recipient hr
    have hd : s.deploys x = false := deploys_of_transacting ht
    rw [hnull, hd, ht]
    simp

def loaded (m : Manager) (address : Value) : Session :=
  store { manager := m } "h" {
    kind := {}
    manager := m
    address := address
    binary := .text Contract.missingBinary
    strategy := some GasStrategy.default }

def plainFunction : Function := { name := "f" }

def plainData : Value := .text (Hex.markedText (plainFunction.selector ++ []))

def payingCall : Step := .operate "h" (.invoke plainFunction (.transaction (.int 7)))

def payingOrder : LegacyOrder :=
  ⟨.text "0xbB", plainData, .int 7, .int 4100000000, .int 9000000, false⟩

theorem addressed_handle_calls :
    ∃ es r s', ((loaded (.inMemory (.text "0xAA")) (.text "0xbB")).step payingCall).Path
        es (r, s') ∧
      .asked (.legacy payingOrder) (.ok none) ∈ es ∧ payingOrder.recipient.isNull = false := by
  have h := Program.path_history Script.answer
    ((loaded (.inMemory (.text "0xAA")) (.text "0xbB")).step payingCall) {}
  have hq := List.mem_of_getElem? (i := 1) (a := Exchange.asked (.legacy payingOrder) (.ok none))
    (l := Program.history Script.answer
      ((loaded (.inMemory (.text "0xAA")) (.text "0xbB")).step payingCall) {}) rfl
  have hiff := creates_iff _ rfl h hq rfl
  refine ⟨_, _, _, h, hq, ?_⟩
  rw [← Bool.not_eq_true, hiff]
  intro hx
  obtain hd | ⟨c, hc, ht⟩ := hx
  · cases hd
  · cases hc
    cases ht

def accountManager : Manager :=
  .node (.ofAccount (.text "0x00000000000000000000000000000000000000AA") {} .null)

def willingNode : Script where
  methods := [("eth_chainId", [.ok (.dict [("result", .int 1)])]),
    ("eth_getTransactionCount", [.ok (.dict [("result", .int 5)])]),
    ("eth_sendRawTransaction", [.ok (.dict [("result", .text "0x1111")])])]

def signedCreation : Fields :=
  [("data", plainData), ("value", .int 7), ("gas", .int 9000000), ("gasPrice", .int 4100000000),
    ("chainId", .int 1), ("nonce", .int 5)]

/-- A handle that is loaded without an address makes a contract of a function call and its value. -/
theorem empty_handle_creates :
    ∃ r es r' s',
      (step { manager := accountManager } (.load "h" {} .null .none none .nameService)).Path []
        (.ok r, loaded accountManager (.text "")) ∧
      ((loaded accountManager (.text "")).step payingCall).Path es (r', s') ∧
      .asked (.sign signedCreation) (.ok [0x02, 0xf8, 0x01]) ∈ es ∧
      signedCreation.has "to" = false ∧
      (loaded accountManager (.text "")).deploys payingCall = false := by
  have h := Program.path_history Script.answer
    ((loaded accountManager (.text "")).step payingCall) willingNode
  refine ⟨_, _, _, _, ⟨rfl, rfl⟩, h, ?_, by decide, rfl⟩
  exact List.mem_of_getElem? (i := 3) rfl

end Session
end EvmClient
