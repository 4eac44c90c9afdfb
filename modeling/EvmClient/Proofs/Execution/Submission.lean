import EvmClient.Proofs.Execution.Phases
import EvmClient.Proofs.Node.Submission
import EvmClient.Script

/-!
# One submission per execution

An execution over a node hands in at most one transaction, whatever the node, the signer and the
client that waits reply. If it tells of a transaction, by a receipt or by a failure, there is
exactly one. The statements range over all paths and all memories.
-/

set_option autoImplicit false

namespace EvmClient.Execution

variable {n : NodeManager} {s : Submission} {strategy : Option GasStrategy}
variable {m m' : Memory} {es es' : List Exchange}

/-- The failure comes from the signer, or from the gas limit for the request of the execution. Both
fail as they like. -/
inductive Foreign (x : Execution) (data value : Value) (isCreation : Bool) (es : List Exchange)
    (failure : Failure) : Prop where
  | signer {transaction : Fields} (h : .asked (.sign transaction) (.error failure) ∈ es)
  | estimate {amount : Int} (ha : Input.amount value "value" = .ok amount)
      (h : .asked (.estimate (x.request data (.int amount) isCreation).parameters)
        (.error failure) ∈ es)
  | computed {amount : Int} (ha : Input.amount value "value" = .ok amount)
      (h : IsComputed x.strategy (x.request data (.int amount) isCreation) failure)

variable {x : Execution} {data value : Value} {isCreation : Bool}

/-! ## Phases that hand in nothing -/

theorem isSettlement_limitFailure {function : String} {failure : Failure}
    (h : (limitFailure function failure).isSettlement = true) :
    limitFailure function failure = failure := by
  cases failure with
  | fault f =>
    have hf : (limitFailure function (.fault f)).isSettlement = false :=
      Failure.isSettlement_ofError rfl
    exact absurd h (ne_true_of_eq_false hf)
  | _ => rfl

theorem gasLimit_quiet {request : TransactionRequest} {function : String}
    {r : Except Failure (GasStrategy × Int)}
    (h : (gasLimit strategy request function).Path m es r m') : Quiet es := by
  obtain rfl | ⟨reply, rfl⟩ := gasLimit_asked h
  · exact Quiet.nil
  · exact Quiet.estimate

theorem gasLimit_foreign {amount : Int} {function : String} {failure : Failure}
    (ha : Input.amount value "value" = .ok amount)
    (h : (gasLimit x.strategy (x.request data (.int amount) isCreation) function).Path
      m es (.error failure) m')
    (ht : failure.isSettlement = true) : Foreign x data value isCreation es failure := by
  obtain ⟨cause, rfl, hcause⟩ := gasLimit_failed h
  have hf := isSettlement_limitFailure ht
  rw [hf] at ht ⊢
  obtain hcomputed | hestimate | ⟨d, rfl⟩ := hcause
  · exact .computed ha hcomputed
  · exact .estimate ha hestimate
  · cases ht

theorem replay_quiet {request : TransactionRequest} {receipt : Receipt}
    {r : Except Failure RevertOutcome}
    (h : (replay (.node n) request receipt).Path m es r m') : Quiet es := by
  obtain ⟨rest, reply, rfl, hc, _⟩ := replay_path.mp h
  obtain ⟨_, ⟨d, _, rfl, _⟩ | ⟨parameters, answer, last, _, rfl, _, hlast⟩⟩ :=
    NodeManager.call_path hc
  · exact Quiet.told
  · have hcall : Quiet [.asked (.rpc "eth_call"
        [.dict parameters, blockParameter (replayBlock receipt)]) answer] :=
      Quiet.rpc (by decide) (by decide)
    exact Quiet.told.append (hcall.append (Quiet.of_told hlast))

theorem settle_quiet {request : TransactionRequest} {receipt : Receipt} {function : String}
    {r : Except Failure Receipt}
    (h : (settle (.node n) request receipt function).Path m es r m') :
    Quiet es ∧ ∀ given, r = .ok given → given = receipt := by
  by_cases hf : receipt.isFailed = true
  · obtain ⟨failure, hr, rfl⟩ | ⟨outcome, rest, hr, rfl, rfl⟩ := (settle_path_of_failed hf).mp h
    · refine ⟨replay_quiet hr, ?_⟩
      intro given hg
      cases hg
    · refine ⟨(replay_quiet hr).append Quiet.told, ?_⟩
      intro given hg
      exact absurd hg fail_ne_ok
  · rw [Bool.not_eq_true] at hf
    obtain ⟨rfl, rfl, _⟩ := (settle_path_of_not_failed hf).mp h
    refine ⟨Quiet.nil, ?_⟩
    intro given hg
    cases hg
    rfl

/-! ## The phase that submits -/

theorem sendLegacy_sent {o : LegacyOrder} {r : Except Failure (Option Receipt)}
    (h : ((Manager.node n).sendLegacy o).Path m es r m') :
    ∃ sent, Sent n es sent ∧ r = sent >>= fun receipt => .ok (some receipt) := by
  obtain ⟨sent, hs, rfl⟩ := (Action.path_bind_of_ofOutcome fun _ => rfl).mp h
  exact ⟨sent, NodeManager.sendLegacy_once hs, rfl⟩

theorem submit_sent {g : GasStrategy} {request : TransactionRequest} {limit : Int}
    {function : String} {isCreation : Bool} {r : Except Failure (Option Receipt)}
    (h : (submit (.node n) g request limit function isCreation).Path m es r m') :
    ∃ sent, Sent n es sent ∧ r = sent >>= fun receipt => .ok (some receipt) := by
  cases g with
  | legacy g =>
    obtain ⟨rest, rfl, hs⟩ := submit_legacy_path.mp h
    obtain ⟨sent, hsent, rfl⟩ := sendLegacy_sent hs
    exact ⟨sent, hsent.after Quiet.told, rfl⟩
  | feeMarket g =>
    obtain ⟨rest, rfl, ⟨hne, hs⟩ | ⟨m₁, es₁, es₂, rfl, hs, hl⟩⟩ := submit_feeMarket_path.mp h
    · obtain ⟨heq, _⟩ | ⟨sent, hsent, rfl⟩ := NodeManager.sendFeeMarket_once hs
      · exact absurd heq hne
      · exact ⟨sent, hsent.after Quiet.told, rfl⟩
    · obtain ⟨_, hq⟩ | ⟨sent, _, heq⟩ := NodeManager.sendFeeMarket_once hs
      · obtain ⟨sent, hsent, rfl⟩ := sendLegacy_sent hl
        exact ⟨sent, ((hsent.after Quiet.told).after hq).after Quiet.told, rfl⟩
      · obtain ⟨_, _, hsome⟩ := bind_eq_ok.mp heq.symm
        cases hsome

/-! ## Executions -/

/-- Steps on which no transaction is handed in, before a failure that is not taken for an outcome of
one unless it is foreign. -/
structure Stopped (x : Execution) (data value : Value) (isCreation : Bool) (es : List Exchange)
    (failure : Failure) : Prop where
  submissions : submissions es = []
  awaited : awaited es = []
  source : failure.isSettlement = true → Foreign x data value isCreation es failure

theorem isSettlement_rejection {failure : Failure} (h : (rejection failure).isSettlement = true) :
    rejection failure = failure := by
  rcases failure with e | f | problems
  · cases e with
    | rpcProtocol code message data =>
      have hf : (rejection (.client (.rpcProtocol code message data))).isSettlement = false :=
        Failure.isSettlement_ofError rfl
      exact absurd h (ne_true_of_eq_false hf)
    | _ => rfl
  · rfl
  · rfl

theorem stopped_of_quiet {failure : Failure} (h : Quiet es)
    (hf : failure.isSettlement = true → Foreign x data value isCreation es failure) :
    Stopped x data value isCreation es failure :=
  ⟨h.submissions, h.awaited, hf⟩

theorem Stopped.of_held {failure : Failure} (hq : Quiet es) (h : Held es' failure) :
    Stopped x data value isCreation (es ++ es') (rejection failure) := by
  have hh := h.after hq
  refine ⟨hh.submissions, hh.awaited, ?_⟩
  intro ht
  have hf := isSettlement_rejection ht
  rw [hf] at ht ⊢
  obtain ⟨_, hsign⟩ := hh.signer ht
  exact .signer hsign

theorem submission_once {function : String} {r : Except Failure (TransactionRequest × Receipt)}
    (hx : x.manager = .node n)
    (h : (x.submission data value function isCreation).Path m es r m') :
    (∃ failure, r = .error failure ∧ Stopped x data value isCreation es failure) ∨
      ∃ s, HandedIn n s es ∧ ∀ request receipt, r = .ok (request, receipt) →
        receipt.isEmpty = true → s.result? = some receipt.transactionHash := by
  obtain ⟨failure, ha, rfl, rfl, _⟩ | ⟨amount, ha, hl⟩ := submission_path.mp h
  · have hp := plain_iff.mpr (amount_avoids (by decide) _ _ _) failure ha
    exact .inl ⟨failure, rfl, stopped_of_quiet Quiet.nil fun ht =>
      absurd ht (ne_true_of_eq_false hp)⟩
  obtain ⟨failure, hg, rfl⟩ | ⟨g, limit, m₁, es₁, es₂, reply, rfl, hg, hs, rfl⟩ := hl
  · exact .inl ⟨failure, rfl, stopped_of_quiet (gasLimit_quiet hg) (gasLimit_foreign ha hg)⟩
  have hq := gasLimit_quiet hg
  rw [hx] at hs
  obtain ⟨sent, hsent, rfl⟩ := submit_sent hs
  cases hsent with
  | held hheld => exact .inl ⟨_, rfl, Stopped.of_held hq hheld⟩
  | @handedIn sent s hin hempty =>
    refine .inr ⟨s, hin.after hq, ?_⟩
    intro request receipt hr he
    cases sent with
    | error failure => cases hr
    | ok _ =>
      cases hr
      exact hempty _ rfl he

/-- At most one transaction is handed in, and all that is told or waited for is about it. -/
structure SingleSubmission (n : NodeManager) (x : Execution) (data value : Value)
    (isCreation : Bool) (es : List Exchange) (r : Outcome Receipt) : Prop where
  atMostOnce : (submissions es).length ≤ 1
  ofReceipt : ∀ receipt, r = .ok receipt → (submissions es).length = 1
  ofSettlement : ∀ failure, r = .error failure → failure.isSettlement = true →
    ¬Foreign x data value isCreation es failure → (submissions es).length = 1
  signed : n.hasAccount = true → ∀ s ∈ submissions es, s.IsSigned es
  awaited : ∀ hash ∈ awaited es, ∃ s ∈ submissions es, s.result? = some hash
  unawaited : ∀ receipt, r = .ok receipt → receipt.isEmpty = true →
    ∃ s ∈ submissions es, s.result? = some receipt.transactionHash

theorem Stopped.single {failure : Failure} (h : Stopped x data value isCreation es failure) :
    SingleSubmission n x data value isCreation es (.error failure) where
  atMostOnce := by simp [h.submissions]
  ofReceipt := by
    intro receipt hr
    cases hr
  ofSettlement := by
    intro failure' hr ht hf
    cases hr
    exact absurd (h.source ht) hf
  signed := by simp [h.submissions]
  awaited := by simp [h.awaited]
  unawaited := by
    intro receipt hr
    cases hr

theorem single_of_handedIn {r : Outcome Receipt} (h : HandedIn n s es)
    (he : ∀ receipt, r = .ok receipt → receipt.isEmpty = true →
      s.result? = some receipt.transactionHash) :
    SingleSubmission n x data value isCreation es r where
  atMostOnce := by simp [h.once]
  ofReceipt := by simp [h.once]
  ofSettlement := by simp [h.once]
  signed := by
    intro hn s' hs
    rw [h.once] at hs
    rw [List.mem_singleton.mp hs]
    exact h.signed hn
  awaited := by
    intro hash hm
    exact ⟨s, h.once ▸ List.mem_singleton_self s, h.awaited hash hm⟩
  unawaited := by
    intro receipt hr hempty
    exact ⟨s, h.once ▸ List.mem_singleton_self s, he receipt hr hempty⟩

theorem run_single {function : String} {r : Except Failure Receipt} (hx : x.manager = .node n)
    (h : (x.run data value function isCreation).Path m es r m') :
    SingleSubmission n x data value isCreation es r := by
  obtain ⟨failure, hs, rfl⟩ | ⟨request, receipt, m₁, es₁, es₂, rfl, hs, hsettle⟩ := run_path.mp h
  · obtain ⟨_, heq, hstop⟩ | ⟨s, hin, _⟩ := submission_once hx hs
    · cases heq
      exact hstop.single
    · refine single_of_handedIn hin ?_
      intro receipt hr
      cases hr
  · obtain ⟨_, heq, _⟩ | ⟨s, hin, hempty⟩ := submission_once hx hs
    · cases heq
    rw [hx] at hsettle
    obtain ⟨hq, hgiven⟩ := settle_quiet hsettle
    refine single_of_handedIn (hin.before hq.submissions hq.signatures ?_) ?_
    · intro hash hm
      rw [hq.awaited] at hm
      cases hm
    · intro given hr he
      rw [hgiven given hr] at he ⊢
      exact hempty request receipt rfl he

/-- One submission at most on every path of an execution, and none if the amount is refused or the
gas limit cannot be had. -/
theorem run_submits_at_most_once (n : NodeManager) (strategy : Option GasStrategy)
    (address data value : Value) (function : String) (isCreation : Bool) (m m' : Memory)
    (es : List Exchange) (r : Except Failure Receipt)
    (h : (run ⟨.node n, address, strategy⟩ data value function isCreation).Path m es r m') :
    SingleSubmission n ⟨.node n, address, strategy⟩ data value isCreation es r ∧
    ((∃ failure, Input.amount value "value" = .error failure) → submissions es = []) ∧
    ∀ amount limited rest failure m₁, Input.amount value "value" = .ok amount →
      es = limited ++ rest →
      (gasLimit strategy (request ⟨.node n, address, strategy⟩ data (.int amount) isCreation)
        function).Path m limited (.error failure) m₁ → submissions es = [] := by
  refine ⟨run_single rfl h, ?_, ?_⟩
  · intro hx
    obtain ⟨failure, ha⟩ := hx
    rw [(run_of_refused ha h).1]
    rfl
  · intro amount limited rest failure m₁ ha hes hg
    rw [hes] at h ⊢
    obtain ⟨rfl, _⟩ := run_of_gasLimit_error ha hg h
    rw [List.append_nil]
    exact (gasLimit_quiet hg).submissions

def creation : Execution :=
  ⟨.node (.ofAccount (.text "0x01") {} .null), .null, some .default⟩

def takingNode : Script where
  methods := [("eth_chainId", [.ok (.dict [("result", .int 1)])]),
    ("eth_getTransactionCount", [.ok (.dict [("result", .int 7)])]),
    ("eth_sendRawTransaction", [.ok (.dict [("result", .text "0xaa")])])]

theorem creation_submits_once :
    ∃ es r m',
      (creation.run (.text "0x") (.int 0) "create" true).Path {} es r m' ∧
      SingleSubmission (.ofAccount (.text "0x01") {} .null) creation (.text "0x") (.int 0) true
        es r ∧
      (submissions es).length = 1 := by
  have h := Program.path_history Script.answer
    (creation.run (.text "0x") (.int 0) "create" true {}) takingNode
  exact ⟨_, _, _, h, (run_submits_at_most_once _ _ _ _ _ _ _ _ _ _ _ h).1, rfl⟩

end EvmClient.Execution
