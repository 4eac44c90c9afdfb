import EvmClient.Proofs.Deferred
import EvmClient.Proofs.Value

/-!
# When names are looked up

The name service is asked once for each handle that is made by a name, while the handle is made, and
at no other time. `Session.Constructed` finds the handles that a run makes in what the run says and
asks. The lookups of the run are those inside of them, and those of a caller who resolves a name
without a handle.
-/

set_option autoImplicit false

namespace EvmClient

/-! ## Lookups -/

def Question.name? : Question → Option Value
  | lookup name => some name
  | _ => none

def Question.IsNameless (q : Question) : Prop := q.name? = none

namespace Exchange

def name? : Exchange → Option Value
  | asked q _ => q.name?
  | told _ => none

def lookups (es : List Exchange) : List Value := es.filterMap name?

@[simp]
theorem lookups_append (es es' : List Exchange) : lookups (es ++ es') = lookups es ++ lookups es' :=
  List.filterMap_append

theorem lookups_of_nameless {es : List Exchange}
    (h : ∀ q reply, .asked q reply ∈ es → q.IsNameless) : lookups es = [] := by
  refine List.filterMap_eq_nil_iff.mpr fun e he => ?_
  cases e with
  | asked q reply => exact h q reply he
  | told n => rfl

end Exchange

open Question Exchange

/-! ## What is done without names -/

section

variable {q : Question}

theorem Calls.nameless {request : TransactionRequest} (h : Calls request q) : q.IsNameless := by
  cases h <;> rfl

theorem Inspects.nameless {address : Value} (h : Inspects address q) : q.IsNameless := by
  cases h <;> rfl

theorem NodeManager.Delivers.nameless {n : NodeManager} {recipient data : Value}
    (h : n.Delivers recipient data q) : q.IsNameless := by
  cases h with
  | block | chain => rfl
  | send _ h => cases h <;> rfl

theorem Execution.Asked.nameless {manager : Manager} {request : TransactionRequest}
    {isCreation : Bool} (h : Asked manager request isCreation q) : q.IsNameless := by
  cases h with
  | estimate | legacy | feeMarket => rfl
  | node _ h => exact h.nameless
  | call h => exact h.nameless

theorem Contract.Invokes.nameless {c : Contract} {f : Function} (h : c.Invokes f q) :
    q.IsNameless := by
  cases h with
  | call _ _ _ h => exact h.nameless
  | transaction _ h => exact h.nameless

end

theorem StrategyChoice.make_nameless (choice : StrategyChoice) : choice.make.Asks IsNameless :=
  choice.make_asks.mono fun _ hq => hq ▸ rfl

theorem strategyLimit_nameless (strategy : Option GasStrategy)
    (request : Option TransactionRequest) : (strategyLimit strategy request).Asks IsNameless := by
  refine (strategyLimit_asks strategy request).mono ?_
  rintro _ ⟨parameters, rfl⟩
  rfl

namespace Manager

variable (manager : Manager)

theorem sendLegacy_nameless (o : LegacyOrder) : (manager.sendLegacy o).Asks IsNameless := by
  have hasked : (manager.sendLegacy o).Asks (Execution.Asked manager
      { sender := .null, recipient := o.recipient, data := o.data } o.isCreation) :=
    Execution.sendLegacy_asked rfl rfl rfl
  exact hasked.mono fun _ hq => hq.nameless

theorem sendFeeMarket_nameless (o : FeeMarketOrder) :
    (manager.sendFeeMarket o).Asks IsNameless := by
  have hasked : (manager.sendFeeMarket o).Asks (Execution.Asked manager
      { sender := .null, recipient := o.recipient, data := o.data } o.isCreation) :=
    Execution.sendFeeMarket_asked rfl rfl rfl
  exact hasked.mono fun _ hq => hq.nameless

end Manager

theorem Execution.run_nameless (x : Execution) (data value : Value) (function : String)
    (isCreation : Bool) : (x.run data value function isCreation).Asks IsNameless := by
  refine (x.run_asks data value function isCreation).mono ?_
  rintro _ ⟨_, hq⟩
  exact hq.nameless

theorem Contract.invoke_nameless (c : Contract) (f : Function) (how : Invocation) :
    (c.invoke f how).Asks IsNameless := (c.invoke_asks f how).mono fun _ hq => hq.nameless

theorem Contract.perform_nameless (c : Contract) (op : Operation) :
    (c.perform op).Asks IsNameless := by
  cases op with
  | invoke f how => exact .map (c.invoke_nameless f how)
  | isValid => exact .map (c.isValid_asks.mono fun _ hq => hq.nameless)
  | setStrategy choice => exact .map choice.make_nameless
  | gasLimit request => exact .map (strategyLimit_nameless c.strategy request)
  | events e source => exact .map .ofOutcome
  | setBlock | setAddress | setReceipt | state => exact .pure
  | setGasPrice | setDeployment | gasPrice | deployment | classDeployment => exact .map .ofDefect

namespace Deployment

variable {d : Deployment}

theorem lookups_announcement : lookups d.announcement = [] :=
  lookups_of_nameless fun q reply hasked => absurd hasked (asked_notMem_announcement q reply)

theorem handle_nameless (d : Deployment) : d.handle.Asks IsNameless := by
  unfold handle
  cases d.factory with
  | none => exact .bind .pure fun _ => .pure
  | some kind => exact .bind .tell fun _ => .bind .pure fun _ => .pure

theorem run_nameless (d : Deployment) : d.run.Asks IsNameless :=
  .bind d.handle_nameless fun c => .bind .ofOutcome fun data =>
    .bind (c.execution.run_nameless data d.value functionName true) fun _ =>
      .bind .ofOutcome fun _ => .bind .log fun _ => .pure

end Deployment

/-! ## Names -/

namespace Resolver

def asksFor : Resolver → Value → Bool
  | nameService, name => needsLookup name
  | fixed _, _ => false

def standing : Resolver → Value → Value
  | nameService, name => name
  | fixed address, _ => address

def remark (name : Value) : Except Failure Value → List Exchange
  | .error _ | .ok .null => []
  | .ok address =>
    [.told (.log .debug logger "Resolved ENS name" [("ens_name", name), ("address", address)])]

def addressIn (name : Value) : Except Failure Value → Outcome Value
  | .error failure => do
    let reason ← Outcome.ofDefect failure.text
    fail (.nameResolution name (.text reason))
  | .ok .null => fail (.nameResolution name (.text "no address record"))
  | .ok address => .ok address

variable {name : Value} {resolver : Resolver} {m m' : Memory} {es : List Exchange}
  {r : Except Failure Value}

theorem lookUp_path (h : (lookUp name).Path m es r m') :
    ∃ reply, es = .asked (.lookup name) reply :: remark name reply ∧ r = addressIn name reply := by
  obtain ⟨reply, _, _, es₂, rfl, hasked, hrest⟩ := Action.path_attempt_bind.mp h
  obtain ⟨rfl, rfl⟩ := Action.path_ask.mp hasked
  refine ⟨reply, ?_⟩
  rcases reply with failure | address
  · obtain ⟨defect, htext, rfl, rfl, _⟩ | ⟨reason, htext, hp⟩ :=
      Action.path_ofDefect_bind.mp hrest
    · rw [addressIn, htext]
      exact ⟨rfl, rfl⟩
    · obtain ⟨rfl, rfl, _⟩ := Action.path_fail.mp hp
      rw [addressIn, htext]
      exact ⟨rfl, rfl⟩
  · cases address with
    | null =>
      obtain ⟨rfl, rfl, _⟩ := Action.path_fail.mp hrest
      exact ⟨rfl, rfl⟩
    | _ =>
      obtain ⟨_, rfl, hp⟩ := Action.path_log_bind.mp hrest
      obtain ⟨rfl, rfl, _⟩ := Action.path_pure.mp hp
      exact ⟨rfl, rfl⟩

theorem resolve_of_asksFor (h : resolver.asksFor name = true) :
    resolver.resolve name = lookUp name := by
  cases resolver with
  | nameService => exact if_pos h
  | fixed address => cases h

theorem resolve_of_not_asksFor (h : resolver.asksFor name = false) :
    resolver.resolve name = pure (resolver.standing name) := by
  cases resolver with
  | nameService => exact if_neg (Bool.not_eq_true _ ▸ h)
  | fixed address => rfl

theorem lookups_asked (name : Value) (reply : Except Failure Value) :
    lookups (.asked (.lookup name) reply :: remark name reply) = [name] := by
  rcases reply with failure | address
  · rfl
  · cases address <;> rfl

theorem resolve_lookups (h : (resolver.resolve name).Path m es r m') :
    lookups es = if resolver.asksFor name then [name] else [] := by
  cases hasks : resolver.asksFor name with
  | true =>
    rw [resolve_of_asksFor hasks] at h
    obtain ⟨reply, rfl, _⟩ := lookUp_path h
    exact lookups_asked name reply
  | false =>
    rw [resolve_of_not_asksFor hasks] at h
    obtain ⟨rfl, _⟩ := Action.path_pure.mp h
    rfl

theorem resolve_reply (h : (resolver.resolve name).Path m es r m')
    {reply : Except Failure Value} (hasked : .asked (.lookup name) reply ∈ es) :
    r = addressIn name reply := by
  cases hasks : resolver.asksFor name with
  | true =>
    rw [resolve_of_asksFor hasks] at h
    obtain ⟨reply', rfl, rfl⟩ := lookUp_path h
    obtain heq | hmem := List.mem_cons.mp hasked
    · cases heq
      rfl
    · -- What is said afterwards is no question.
      rcases reply' with _ | _ | _ <;> simp [remark] at hmem
  | false =>
    rw [resolve_of_not_asksFor hasks] at h
    obtain ⟨rfl, _⟩ := Action.path_pure.mp h
    cases hasked

theorem fail_nameResolution (s reason : String) :
    (fail (.nameResolution (.text s) (.text reason)) : Outcome Value) =
      .error (.client (.nameResolution (.text s) (.text reason))) := by
  refine fail_of_message ?_
  simp [ClientError.message?, Value.text?]

end Resolver

/-! ## Constructions -/

/-- A handle that is made by a name or at an address, or that cannot be made, with all that is asked
and said in it. -/
structure Construction where
  resolver : Resolver
  name : Value
  exchanges : List Exchange
  outcome : Except Failure Contract

namespace Construction

def needsLookup (c : Construction) : Bool := c.resolver.asksFor c.name

/-- A handle is made with what its name stands for or with the address in the one reply of the name
service. It cannot be made by a name that has no address. -/
structure Settled (c : Construction) : Prop where
  lookups : Exchange.lookups c.exchanges = if c.needsLookup then [c.name] else []
  plain : c.needsLookup = false → ∃ handle, c.outcome = .ok handle ∧
    handle.address = (c.resolver.standing c.name).orElse (.text "")
  found : ∀ address, .asked (.lookup c.name) (.ok address) ∈ c.exchanges →
    address.isNull = false → ∃ handle, c.outcome = .ok handle ∧
      handle.address = address.orElse (.text "")
  unknown : ∀ s, c.name = .text s → .asked (.lookup c.name) (.ok .null) ∈ c.exchanges →
    c.outcome = .error (.client (.nameResolution (.text s) (.text "no address record")))
  /-- the reason is the text of what was raised -/
  failed : ∀ s failure, c.name = .text s →
    .asked (.lookup c.name) (.error failure) ∈ c.exchanges →
      c.outcome = Outcome.ofDefect failure.text >>= fun reason =>
        .error (.client (.nameResolution (.text s) (.text reason)))

variable {resolver : Resolver} {name : Value} {m m' : Memory} {es : List Exchange}

theorem needsLookup_iff {c : Construction} {text : String} (hr : c.resolver = .nameService)
    (hn : c.name = .text text) :
    c.needsLookup = true ↔ text ≠ "" ∧ Address.isText text = false := by
  rw [needsLookup, hr, hn]
  simp [Resolver.asksFor, Resolver.needsLookup, Value.isTruthy, Address.isAddress]

theorem settled_of_make {kind : ContractClass} {manager : Manager}
    {strategy : Option GasStrategy} {binary : Option Value} {r : Except Failure Contract}
    (h : (Contract.make kind manager name strategy resolver binary).Path m es r m') :
    Settled ⟨resolver, name, es, r⟩ := by
  obtain ⟨r₁, hr, rfl⟩ := (Action.path_bind_of_ofOutcome fun _ => rfl).mp h
  constructor
  case lookups => exact Resolver.resolve_lookups hr
  case plain =>
    intro hasks
    rw [Resolver.resolve_of_not_asksFor hasks] at hr
    rw [(Action.path_pure.mp hr).2.1]
    exact ⟨_, rfl, rfl⟩
  case found =>
    intro address hasked hnull
    rw [Resolver.resolve_reply hr hasked]
    cases address with
    | null => cases hnull
    | _ => exact ⟨_, rfl, rfl⟩
  case unknown =>
    rintro s rfl hasked
    rw [Resolver.resolve_reply hr hasked, Resolver.addressIn, Resolver.fail_nameResolution]
    rfl
  case failed =>
    rintro s failure rfl hasked
    rw [Resolver.resolve_reply hr hasked, Resolver.addressIn]
    simp only [Resolver.fail_nameResolution]
    cases failure.text <;> rfl

theorem settled_of_handle {d : Deployment} {r : Except Failure Contract}
    (h : d.handle.Path m es r m') : Settled ⟨.nameService, .null, es, r⟩ := by
  obtain ⟨rfl, rfl, _⟩ := Deployment.handle_path.mp h
  constructor
  case lookups => exact Deployment.lookups_announcement
  case plain => exact fun _ => ⟨_, rfl, rfl⟩
  case found =>
    exact fun _ hasked => absurd hasked (Deployment.asked_notMem_announcement _ _)
  case unknown => exact nofun
  case failed => exact nofun

end Construction

/-! ## Sessions -/

def Step.choice? : Step → Option StrategyChoice
  | load _ _ _ choice _ _ => some choice
  | deploy _ plan => some plan.strategy
  | _ => none

def Step.loads : Step → Bool
  | load .. => true
  | _ => false

/-- The name that the caller has looked up without a handle. -/
def Step.inquiry? : Step → Option Value
  | resolve name => if Resolver.needsLookup name then some name else none
  | _ => none

def Step.inquires (x : Step) : Bool := x.inquiry?.isSome

def Step.isNaming : Step → Bool
  | load .. | resolve _ => true
  | _ => false

namespace Session

/-- The handles that a step makes on its way. It makes none if its strategy cannot be made. -/
inductive Constructs (s : Session) : Step → List Exchange → List Construction → Prop where
  | load {label : String} {kind : ContractClass} {name : Value} {choice : StrategyChoice}
      {binary : Option Value} {resolver : Resolver} {before inside : List Exchange}
      {strategy : Option GasStrategy} {m₁ m₂ : Memory} {r : Except Failure Contract}
      (chosen : choice.make.Path s.memory before (.ok strategy) m₁)
      (made : (Contract.make kind s.manager name strategy resolver binary).Path m₁ inside r m₂) :
      Constructs s (.load label kind name choice binary resolver) (before ++ inside)
        [⟨resolver, name, inside, r⟩]
  | deploy {label : String} {plan : DeploymentPlan} {before inside after : List Exchange}
      {d : Deployment} {m₁ m₂ : Memory} {r : Except Failure Contract}
      (planned : (plan.make s.manager).Path s.memory before (.ok d) m₁)
      (made : d.handle.Path m₁ inside r m₂) :
      Constructs s (.deploy label plan) (before ++ inside ++ after)
        [⟨.nameService, .null, inside, r⟩]
  | send {label : String} {store : Option String} {inside after : List Exchange} {d : Deployment}
      {m₂ : Memory} {r : Except Failure Contract}
      (held : s.deferred.lookup label = some (.deploy d))
      (made : d.handle.Path s.memory inside r m₂) :
      Constructs s (.send label store) (inside ++ after) [⟨.nameService, .null, inside, r⟩]
  | stopped {x : Step} {choice : StrategyChoice} {es : List Exchange} {failure : Failure}
      {m₁ : Memory} (hx : x.choice? = some choice)
      (h : choice.make.Path s.memory es (.error failure) m₁) : Constructs s x es []
  | other {x : Step} {es : List Exchange} (hload : x.loads = false)
      (hdeploy : s.deploys x = false) : Constructs s x es []

inductive Constructed : Session → List Step → List Exchange → List Construction → Prop where
  | nil (s : Session) : Constructed s [] [] []
  | cons {s s₁ : Session} {x : Step} {xs : List Step} {es₁ es₂ : List Exchange}
      {r : Except Failure Answer} {cs₁ cs₂ : List Construction}
      (path : (s.step x).Path es₁ (r, s₁)) (first : s.Constructs x es₁ cs₁)
      (rest : Constructed s₁ xs es₂ cs₂) : Constructed s (x :: xs) (es₁ ++ es₂) (cs₁ ++ cs₂)

/-- All lookups are inside of constructions, one where it is needed, or are inquiries. -/
structure LooksUpOnce (xs : List Step) (es : List Exchange) (cs : List Construction) : Prop where
  inside : (lookups es).Perm
    ((cs.flatMap fun c => lookups c.exchanges) ++ xs.filterMap Step.inquiry?)
  within : ∀ c ∈ cs, c.exchanges <:+: es
  settled : ∀ c ∈ cs, c.Settled

variable {s s' : Session} {x : Step} {xs : List Step} {es : List Exchange}
  {r : Except Failure Answer} {cs : List Construction}

/-! ### Steps -/

theorem perform_nameless (s : Session) (hx : x.isNaming = false) :
    (s.perform x).Asks IsNameless := by
  cases x with
  | load | resolve => cases hx
  | operate handle op =>
    exact s.found_asks fun i _ => s.found_asks fun c _ => .map (c.perform_nameless op)
  | send name handle =>
    refine s.found_asks fun d _ => ?_
    cases d with
    | deploy d => exact .map d.run_nameless
    | invoke i f how => exact s.found_asks fun c _ => .map (c.invoke_nameless f how)
  | deploy name plan =>
    exact .bind (.map plan.strategy.make_nameless) fun d => .map d.run_nameless
  | deferDeployment name plan => exact .map (.map plan.strategy.make_nameless)
  | defer | buildRequest => exact s.found_asks fun _ _ => .pure
  | encodeDeferred | decodeDeferred =>
    exact s.found_asks fun d _ => .map (.bind .ofDefect fun _ => .map .ofOutcome)
  | makeStrategy choice => exact .map (.map choice.make_nameless)
  | gasLimit choice request =>
    exact .map (.bind choice.make_nameless fun strategy =>
      .map (strategyLimit_nameless strategy request))
  | setExecution name choice address => exact .map choice.make_nameless
  | execute name data value function isCreation =>
    exact s.found_asks fun x _ => .map (.map (x.run_nameless data value function isCreation))
  | replay request receipt =>
    exact .map (.map ((Execution.replay_asks _ _ _).mono fun _ hq => hq.nameless))
  | sender => exact .pure
  | call request block => exact .map (.map ((s.manager.call_asks _ _).mono fun _ hq => hq.nameless))
  | code address block => exact .map (.map ((s.manager.code_asks _ _).mono fun _ hq => hq.nameless))
  | legacy order => exact .map (.map (s.manager.sendLegacy_nameless order))
  | feeMarket order => exact .map (.map (s.manager.sendFeeMarket_nameless order))

theorem step_nameless (hx : x.isNaming = false) (h : (s.step x).Path es (r, s')) :
    lookups es = [] := by
  have hasks : (s.step x).Asks IsNameless := (s.perform_nameless hx s.memory).bind fun _ => trivial
  exact lookups_of_nameless (hasks.path h)

/-! ### Constructions -/

theorem run_constructs {d : Deployment} {m m' : Memory} {r : Except Failure Contract}
    (h : d.run.Path m es r m') :
    ∃ inside after r₁ m₁, es = inside ++ after ∧ d.handle.Path m inside r₁ m₁ := by
  obtain ⟨failure, hh, _⟩ | ⟨c, m₁, inside, after, rfl, hh, _⟩ := Action.path_bind.mp h
  · exact ⟨es, [], _, _, (List.append_nil es).symm, hh⟩
  · exact ⟨inside, after, _, _, rfl, hh⟩

theorem load_constructs {label : String} {kind : ContractClass} {name : Value}
    {choice : StrategyChoice} {binary : Option Value} {resolver : Resolver} {m : Memory}
    {r : Except Failure (Answer × Session)}
    (h : (s.perform (.load label kind name choice binary resolver)).Path s.memory es r m) :
    ∃ cs, s.Constructs (.load label kind name choice binary resolver) es cs := by
  obtain ⟨failure, hchoice, _⟩ | ⟨strategy, m₁, before, rest, rfl, hchoice, hrest⟩ :=
    Action.path_bind.mp h
  · exact ⟨_, .stopped rfl hchoice⟩
  · obtain ⟨_, hmake, _⟩ := (Action.path_bind_of_ofOutcome fun _ => rfl).mp hrest
    exact ⟨_, .load hchoice hmake⟩

theorem deploy_constructs {label : String} {plan : DeploymentPlan} {m : Memory}
    {r : Except Failure (Answer × Session)}
    (h : (s.perform (.deploy label plan)).Path s.memory es r m) :
    ∃ cs, s.Constructs (.deploy label plan) es cs := by
  obtain ⟨failure, hplan, _⟩ | ⟨d, m₁, before, rest, rfl, hplan, hrest⟩ := Action.path_bind.mp h
  · obtain ⟨r₁, hchoice, hr⟩ := (Action.path_bind_of_ofOutcome fun _ => rfl).mp hplan
    cases r₁ with
    | error failure => exact ⟨_, .stopped rfl hchoice⟩
    | ok strategy => cases hr
  · obtain ⟨_, hrun, _⟩ := (Action.path_bind_of_ofOutcome fun _ => rfl).mp hrest
    obtain ⟨inside, after, _, _, rfl, hh⟩ := run_constructs hrun
    rw [← List.append_assoc]
    exact ⟨_, .deploy hplan hh⟩

theorem send_constructs {label : String} {store : Option String} {m : Memory}
    {r : Except Failure (Answer × Session)}
    (h : (s.perform (.send label store)).Path s.memory es r m) :
    ∃ cs, s.Constructs (.send label store) es cs := by
  cases hdeferred : s.deferred.lookup label with
  | none => exact ⟨_, .other rfl (by simp [deploys, hdeferred])⟩
  | some call =>
    cases call with
    | invoke i f how => exact ⟨_, .other rfl (by simp [deploys, hdeferred])⟩
    | deploy d =>
      simp only [perform, hdeferred, found, sendDeferred] at h
      obtain ⟨_, hrun, _⟩ := (Action.path_bind_of_ofOutcome fun _ => rfl).mp h
      obtain ⟨inside, after, _, _, rfl, hh⟩ := run_constructs hrun
      exact ⟨_, .send hdeferred hh⟩

theorem perform_path (h : (s.step x).Path es (r, s')) :
    ∃ r₁ m, (s.perform x).Path s.memory es r₁ m := by
  obtain ⟨_, _, hp, _⟩ | ⟨_, _, _, hp, _⟩ := step_path h <;> exact ⟨_, _, hp⟩

theorem exists_constructs (h : (s.step x).Path es (r, s')) : ∃ cs, s.Constructs x es cs := by
  obtain ⟨_, _, hp⟩ := perform_path h
  cases x with
  | load => exact load_constructs hp
  | deploy => exact deploy_constructs hp
  | send => exact send_constructs hp
  | _ => exact ⟨_, .other rfl rfl⟩

theorem exists_constructed {rs : List (Except Failure Answer)}
    (h : (s.follow xs).Path es (rs, s')) : ∃ cs, s.Constructed xs es cs := by
  induction xs generalizing s es rs with
  | nil =>
    obtain ⟨rfl, _⟩ := h
    exact ⟨_, .nil s⟩
  | cons x rest ih =>
    obtain ⟨_, _, _, _, _, hp, hp', _, rfl⟩ := follow_cons_path h
    obtain ⟨cs₁, hfirst⟩ := exists_constructs hp
    obtain ⟨cs₂, hrest⟩ := ih hp'
    exact ⟨_, .cons hp hfirst hrest⟩

theorem make_path_of_ok {plan : DeploymentPlan} {manager : Manager} {m m' : Memory}
    {d : Deployment} (h : (plan.make manager).Path m es (.ok d) m') :
    ∃ strategy, plan.strategy.make.Path m es (.ok strategy) m' := by
  obtain ⟨r₁, hchoice, hr⟩ := (Action.path_bind_of_ofOutcome fun _ => rfl).mp h
  cases r₁ with
  | error failure => cases hr
  | ok strategy => exact ⟨strategy, hchoice⟩

theorem Constructs.eq_nil_of_stopped {choice : StrategyChoice} {failure : Failure} {m₁ : Memory}
    (h : s.Constructs x es cs) (hx : x.choice? = some choice)
    (hfailed : choice.make.Path s.memory es (.error failure) m₁) : cs = [] := by
  cases h with
  | load chosen made =>
    cases hx
    exact absurd hfailed (Action.not_path_error_of_ok chosen)
  | deploy planned made =>
    cases hx
    obtain ⟨strategy, hchoice⟩ := make_path_of_ok planned
    rw [List.append_assoc] at hfailed
    exact absurd hfailed (Action.not_path_error_of_ok hchoice)
  | send => cases hx
  | stopped | other => rfl

theorem Constructs.eq_nil_of_other (h : s.Constructs x es cs) (hload : x.loads = false)
    (hdeploy : s.deploys x = false) : cs = [] := by
  cases h with
  | load => cases hload
  | deploy => cases hdeploy
  | send held => simp [deploys, held] at hdeploy
  | stopped | other => rfl

theorem Constructs.unique {es' : List Exchange} {cs' : List Construction}
    (h : s.Constructs x es cs) (h' : s.Constructs x es' cs') (hes : es = es') : cs = cs' := by
  cases h with
  | load chosen made =>
    cases h' with
    | load chosen' made' =>
      obtain ⟨rfl, hstrategy⟩ := Program.path_determined chosen chosen' hes
      cases hstrategy
      obtain ⟨rfl, houtcome⟩ := Program.path_determined made made'
        (congrArg (· ++ []) (List.append_cancel_left hes))
      cases houtcome
      rfl
    | stopped hx hfailed => exact (Constructs.load chosen made).eq_nil_of_stopped hx (hes ▸ hfailed)
    | other hload => cases hload
  | deploy planned made =>
    cases h' with
    | deploy planned' made' =>
      rw [List.append_assoc, List.append_assoc] at hes
      obtain ⟨rfl, hplan⟩ := Program.path_determined planned planned' hes
      cases hplan
      obtain ⟨rfl, rfl, _⟩ := Deployment.handle_path.mp made
      obtain ⟨rfl, rfl, _⟩ := Deployment.handle_path.mp made'
      rfl
    | stopped hx hfailed =>
      exact (Constructs.deploy planned made).eq_nil_of_stopped hx (hes ▸ hfailed)
    | other _ hdeploy => cases hdeploy
  | send held made =>
    cases h' with
    | send held' made' =>
      cases held.symm.trans held'
      obtain ⟨rfl, rfl, _⟩ := Deployment.handle_path.mp made
      obtain ⟨rfl, rfl, _⟩ := Deployment.handle_path.mp made'
      rfl
    | stopped hx => cases hx
    | other _ hdeploy => simp [deploys, held] at hdeploy
  | stopped hx hfailed => exact (h'.eq_nil_of_stopped hx (hes ▸ hfailed)).symm
  | other hload hdeploy => exact (h'.eq_nil_of_other hload hdeploy).symm

theorem Constructed.unique {es' : List Exchange} {cs' : List Construction}
    (h : s.Constructed xs es cs) (h' : s.Constructed xs es' cs') (hes : es = es') : cs = cs' := by
  induction h generalizing es' cs' with
  | nil s =>
    cases h'
    rfl
  | cons path first rest ih =>
    cases h' with
    | cons path' first' rest' =>
      obtain ⟨rfl, hresult⟩ := Program.path_determined path path' hes
      cases hresult
      rw [first.unique first' rfl, ih rest' (List.append_cancel_left hes)]

/-! ### Lookups -/

theorem LooksUpOnce.inquiry (h : lookups es = x.inquiry?.toList) : LooksUpOnce [x] es [] where
  inside := by
    rw [h]
    cases hx : x.inquiry? <;> simp [hx]
  within _ hc := absurd hc List.not_mem_nil
  settled _ hc := absurd hc List.not_mem_nil

theorem LooksUpOnce.single {before after : List Exchange} {c : Construction} (hc : c.Settled)
    (hx : x.inquiry? = none) (hbefore : lookups before = []) (hafter : lookups after = []) :
    LooksUpOnce [x] (before ++ c.exchanges ++ after) [c] where
  inside := by simp [hx, hbefore, hafter]
  within c' hc' := by
    obtain rfl := List.mem_singleton.mp hc'
    exact ⟨before, after, rfl⟩
  settled c' hc' := by
    obtain rfl := List.mem_singleton.mp hc'
    exact hc

theorem LooksUpOnce.append {xs₁ xs₂ : List Step} {es₁ es₂ : List Exchange}
    {cs₁ cs₂ : List Construction} (h₁ : LooksUpOnce xs₁ es₁ cs₁) (h₂ : LooksUpOnce xs₂ es₂ cs₂) :
    LooksUpOnce (xs₁ ++ xs₂) (es₁ ++ es₂) (cs₁ ++ cs₂) where
  inside := by
    simp only [lookups_append, List.flatMap_append, List.filterMap_append]
    refine (h₁.inside.append h₂.inside).trans ?_
    simp only [List.append_assoc]
    refine .append_left _ ?_
    simp only [← List.append_assoc]
    exact .append_right _ List.perm_append_comm
  within c hc := by
    obtain hc | hc := List.mem_append.mp hc
    · exact (h₁.within c hc).trans (List.prefix_append es₁ es₂).isInfix
    · exact (h₂.within c hc).trans (List.suffix_append es₁ es₂).isInfix
  settled c hc := by
    obtain hc | hc := List.mem_append.mp hc
    · exact h₁.settled c hc
    · exact h₂.settled c hc

theorem length_lookups_inside (h : ∀ c ∈ cs, c.Settled) :
    (cs.flatMap fun c => lookups c.exchanges).length = cs.countP (·.needsLookup) := by
  induction cs with
  | nil => rfl
  | cons c rest ih =>
    rw [List.flatMap_cons, List.length_append, (h c List.mem_cons_self).lookups,
      ih fun c hc => h c (List.mem_cons_of_mem _ hc), List.countP_cons, Nat.add_comm]
    cases c.needsLookup <;> rfl

/-- There are as many lookups as there are constructions by names that have to be looked up, beside
those without a handle. -/
theorem LooksUpOnce.count (h : LooksUpOnce xs es cs) :
    (lookups es).length = cs.countP (·.needsLookup) + xs.countP (·.inquires) := by
  rw [h.inside.length_eq, List.length_append, length_lookups_inside h.settled,
    List.length_filterMap_eq_countP]
  rfl

theorem inquiry_lookups {name : Value} (h : (s.step (.resolve name)).Path es (r, s')) :
    lookups es = (Step.resolve name).inquiry?.toList := by
  obtain ⟨_, _, hp⟩ := perform_path h
  obtain ⟨_, hanswer, _⟩ := (Action.path_bind_of_ofOutcome fun _ => rfl).mp hp
  obtain ⟨_, hresolve, _⟩ := (Action.path_bind_of_ofOutcome fun _ => rfl).mp hanswer
  rw [Resolver.resolve_lookups hresolve, Step.inquiry?, Resolver.asksFor]
  split <;> rfl

theorem Constructs.looksUpOnce (hc : s.Constructs x es cs) (h : (s.step x).Path es (r, s')) :
    LooksUpOnce [x] es cs := by
  cases hc with
  | @load _ _ _ _ _ _ before inside _ _ _ _ chosen made =>
    have hbefore : lookups before = [] :=
      lookups_of_nameless ((StrategyChoice.make_nameless _).path chosen)
    rw [← List.append_nil (before ++ inside)]
    exact .single (Construction.settled_of_make made) rfl hbefore rfl
  | @deploy _ _ before inside after _ _ _ _ planned made =>
    have hall := step_nameless rfl h
    rw [lookups_append, lookups_append] at hall
    simp only [List.append_eq_nil_iff] at hall
    exact .single (Construction.settled_of_handle made) rfl hall.1.1 hall.2
  | @send _ _ inside after _ _ _ held made =>
    have hall := step_nameless rfl h
    rw [lookups_append, List.append_eq_nil_iff] at hall
    change LooksUpOnce _ ([] ++ inside ++ after) _
    exact .single (Construction.settled_of_handle made) rfl rfl hall.2
  | stopped hx hchoice =>
    have hnone : lookups es = [] :=
      lookups_of_nameless ((StrategyChoice.make_nameless _).path hchoice)
    refine .inquiry ?_
    cases x with
    | load | deploy => exact hnone
    | _ => cases hx
  | other hload hdeploy =>
    refine .inquiry ?_
    cases x with
    | load => cases hload
    | resolve name => exact inquiry_lookups h
    | _ => exact step_nameless rfl h

theorem Constructed.looksUpOnce (h : s.Constructed xs es cs) : LooksUpOnce xs es cs := by
  induction h with
  | nil s =>
    exact ⟨.nil, fun _ hc => absurd hc List.not_mem_nil, fun _ hc => absurd hc List.not_mem_nil⟩
  | cons path first rest ih => exact (first.looksUpOnce path).append ih

/-- Names are looked up when handles are made by them, and at no other time. What a run asks and
says determines the handles that it makes. There are as many lookups as there are constructions by
names that are neither empty nor addresses, beside the names that are resolved without a handle.
Each lookup is made inside of its construction, which fails if there is no address. A step that is
given no name looks none up, whatever the handles are and whatever their addresses have been set
to. -/
theorem names_resolved_at_construction (s : Session) (xs : List Step) (es : List Exchange)
    (rs : List (Except Failure Answer)) (s' : Session) (h : (s.follow xs).Path es (rs, s')) :
    (∃ cs, s.Constructed xs es cs ∧ (∀ cs', s.Constructed xs es cs' → cs' = cs) ∧
      (lookups es).length = cs.countP (·.needsLookup) + xs.countP (·.inquires) ∧
      LooksUpOnce xs es cs ∧
      ∀ c ∈ cs, ∀ text, c.resolver = .nameService → c.name = .text text →
        (c.needsLookup = true ↔ text ≠ "" ∧ Address.isText text = false)) ∧
    ∀ (t : Session) (x : Step) es r t', x.isNaming = false → (t.step x).Path es (r, t') →
      lookups es = [] := by
  refine ⟨?_, fun _ _ _ _ _ hx hp => step_nameless hx hp⟩
  obtain ⟨cs, hcs⟩ := exists_constructed h
  have honce : LooksUpOnce xs es cs := hcs.looksUpOnce
  exact ⟨cs, hcs, fun _ hcs' => hcs'.unique hcs rfl, honce.count, honce,
    fun _ _ _ hr hn => Construction.needsLookup_iff hr hn⟩

def registry : Script where
  names := [("wallet.eth", .ok (.text "0x00000000000000000000000000000000000000aA")),
    ("gone.eth", .ok .null)]

def naming : List Step :=
  [.load "h" {} (.text "wallet.eth") .none (some (.text "0x60")) .nameService,
    .load "g" {} (.text "gone.eth") .none none .nameService,
    .load "p" {} (.text "0x00000000000000000000000000000000000000bB") .none none .nameService,
    .operate "h" (.setAddress (.text "other.eth")), .operate "h" .isValid,
    .deploy "d" { binary := .text "0x60", factory := some {} }]

theorem two_names_looked_up : ∃ es rs s' cs,
    (follow { manager := .inMemory (.text "0xAA") } naming).Path es (rs, s') ∧
      Constructed { manager := .inMemory (.text "0xAA") } naming es cs ∧
      lookups es = [.text "wallet.eth", .text "gone.eth"] ∧ cs.countP (·.needsLookup) = 2 := by
  have h := Program.path_history Script.answer
    (follow { manager := .inMemory (.text "0xAA") } naming) registry
  have hlookups : lookups (Program.history Script.answer
      (follow { manager := .inMemory (.text "0xAA") } naming) registry) =
        [.text "wallet.eth", .text "gone.eth"] := rfl
  obtain ⟨⟨cs, hcs, _, hcount, _⟩, _⟩ := names_resolved_at_construction _ _ _ _ _ h
  rw [hlookups, show naming.countP (·.inquires) = 0 from rfl] at hcount
  exact ⟨_, _, _, cs, h, hcs, hlookups, hcount.symm⟩

end Session
end EvmClient
