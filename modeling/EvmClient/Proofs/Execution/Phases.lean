import EvmClient.Execution
import EvmClient.Proofs.Gas

/-!
# The phases of an execution

An execution first gets a receipt: it checks the amount, computes the gas limit and submits. Then it
settles the receipt, which asks again only if the transaction failed.
-/

set_option autoImplicit false

namespace EvmClient.Execution

variable {m m' : Memory} {es es' : List Exchange}

/-! ## Gas limit -/

def limitFailure (function : String) : Failure → Failure
  | .fault fault => Failure.ofError (.transaction (.gasLimit function fault))
  | failure => failure

def limitResult (s : GasStrategy) (function : String) :
    Except Failure Int → Outcome (GasStrategy × Int)
  | .ok limit => .ok (s, limit)
  | .error failure => .error (limitFailure function failure)

theorem gasLimit_path {s : GasStrategy} {request : TransactionRequest} {function : String}
    {r : Except Failure (GasStrategy × Int)} :
    (gasLimit (some s) request function).Path m es r m' ↔
      ∃ reply, GasLimit.Evaluates request s.limit es reply ∧ m' = m ∧
        r = limitResult s function reply := by
  have hr : ∀ reply, limitResult s function reply =
      (reply >>= fun limit => .ok (s, limit)).mapError (limitFailure function) := by
    rintro (failure | limit) <;> rfl
  have hg : gasLimit (some s) request function =
      (Action.attempt (do return (s, ← s.gasLimit (some request))) >>= fun known =>
        Action.ofOutcome (known.mapError (limitFailure function))) := by
    refine congrArg (Action.attempt (do return (s, ← s.gasLimit (some request))) >>= ·)
      (funext fun known => ?_)
    rcases known with (e | fault | problems) | known <;> rfl
  rw [hg, Action.path_attempt_of_ofOutcome fun _ => rfl]
  constructor
  · intro hx
    obtain ⟨known, h, rfl⟩ := hx
    obtain ⟨reply, hl, rfl⟩ := (Action.path_bind_of_ofOutcome fun _ => rfl).mp h
    obtain ⟨hl, hm⟩ := GasLimit.resolve_path.mp hl
    exact ⟨reply, hl, hm, (hr reply).symm⟩
  · intro hx
    obtain ⟨reply, hl, hm, rfl⟩ := hx
    exact ⟨_, (Action.path_bind_of_ofOutcome fun _ => rfl).mpr
      ⟨reply, GasLimit.resolve_path.mpr ⟨hl, hm⟩, rfl⟩, hr reply⟩

theorem gasLimit_path_none {request : TransactionRequest} {function : String}
    {r : Except Failure (GasStrategy × Int)} :
    (gasLimit none request function).Path m es r m' ↔
      es = [] ∧ r = .error (limitFailure function (Failure.ofDefect .missingPart)) ∧ m' = m :=
  Action.path_ofOutcome

section

variable {strategy : Option GasStrategy} {request : TransactionRequest} {function : String}

theorem gasLimit_asked {r : Except Failure (GasStrategy × Int)}
    (h : (gasLimit strategy request function).Path m es r m') :
    es = [] ∨ ∃ reply, es = [.asked (.estimate request.parameters) reply] := by
  cases strategy with
  | none => exact .inl (gasLimit_path_none.mp h).1
  | some s =>
    obtain ⟨_, hl, _⟩ := gasLimit_path.mp h
    generalize s.limit = limit at hl
    cases hl with
    | constant v => exact .inl rfl
    | computed f => exact .inl rfl
    | estimated factor cap reply => exact .inr ⟨reply, rfl⟩

theorem gasLimit_ok {s : GasStrategy} {limit : Int}
    (h : (gasLimit strategy request function).Path m es (.ok (s, limit)) m') :
    strategy = some s ∧ GasLimit.Evaluates request s.limit es (.ok limit) ∧ m' = m := by
  cases strategy with
  | none =>
    obtain ⟨_, heq, _⟩ := gasLimit_path_none.mp h
    cases heq
  | some s' =>
    obtain ⟨reply, hl, hm, heq⟩ := gasLimit_path.mp h
    cases reply with
    | error failure => cases heq
    | ok limit' =>
      cases heq
      exact ⟨rfl, hl, hm⟩

/-- The failure is that of a limit given as a function, at this request. -/
def IsComputed (strategy : Option GasStrategy) (request : TransactionRequest) (failure : Failure) :
    Prop :=
  ∃ s f, strategy = some s ∧ s.limit = .computed f ∧ f request = .error failure

theorem gasLimit_failed {failure : Failure}
    (h : (gasLimit strategy request function).Path m es (.error failure) m') :
    ∃ cause, failure = limitFailure function cause ∧
      (IsComputed strategy request cause ∨
        .asked (.estimate request.parameters) (.error cause) ∈ es ∨
        ∃ d, cause = Failure.ofDefect d) := by
  cases strategy with
  | none =>
    obtain ⟨_, heq, _⟩ := gasLimit_path_none.mp h
    exact ⟨_, Except.error.inj heq, .inr (.inr ⟨_, rfl⟩)⟩
  | some s =>
    obtain ⟨reply, hl, _, heq⟩ := gasLimit_path.mp h
    cases reply with
    | ok limit => cases heq
    | error cause =>
      refine ⟨cause, Except.error.inj heq, ?_⟩
      obtain ⟨f, hf, hfail⟩ | hother := hl.failed
      · exact .inl ⟨s, f, rfl, hf, hfail⟩
      · exact .inr hother

end

/-! ## Submission -/

theorem amount_avoids {families : List ErrorFamily} (h : .invalidAmount ∉ families) (v : Value)
    (field : String) (maximum : Value) : Avoids families (Input.amount v field maximum) := by
  unfold Input.amount
  cases Input.amountNumber v with
  | error reason => exact .fail h
  | ok i =>
    refine .ite (.fail h) (.bind (.ofDefect _) fun isBeyond => ?_)
    cases isBeyond with
    | true => exact .bind (.ofDefect _) fun _ => .fail h
    | false => exact .ok i

theorem submit_legacy_path {manager : Manager} {s : LegacyStrategy} {request : TransactionRequest}
    {limit : Int} {function : String} {isCreation : Bool} {r : Except Failure (Option Receipt)} :
    (submit manager (.legacy s) request limit function isCreation).Path m es r m' ↔
      ∃ rest, es = .told (.log .info logger "Submitting legacy transaction"
          [("function", .text function), ("to", request.recipient)]) :: rest ∧
        (manager.sendLegacy (legacyOrder (.legacy s) request limit isCreation)).Path m rest r m' :=
  Action.path_log_bind

/-- A submission on the fee market is followed by one at a fixed price exactly if it gives no
receipt. -/
theorem submit_feeMarket_path {manager : Manager} {s : FeeMarketStrategy}
    {request : TransactionRequest} {limit : Int} {function : String} {isCreation : Bool}
    {r : Except Failure (Option Receipt)} :
    (submit manager (.feeMarket s) request limit function isCreation).Path m es r m' ↔
      ∃ rest, es = .told (.log .info logger "Submitting fee-market transaction"
          [("function", .text function), ("to", request.recipient), ("chain_id", s.chainId)]) ::
            rest ∧
        ((r ≠ .ok none ∧
            (manager.sendFeeMarket (feeMarketOrder s request limit isCreation)).Path m rest r m') ∨
          ∃ m₁ es₁ es₂, rest = es₁ ++ .told (.log .info logger
              "Fee-market submission produced no receipt, falling back to legacy pricing"
              [("function", .text function)]) :: es₂ ∧
            (manager.sendFeeMarket (feeMarketOrder s request limit isCreation)).Path
              m es₁ (.ok none) m₁ ∧
            (manager.sendLegacy (legacyOrder (.feeMarket s) request limit isCreation)).Path
              m₁ es₂ r m') := by
  unfold submit
  rw [Action.path_log_bind]
  refine exists_congr fun rest => and_congr Iff.rfl ?_
  rw [Action.path_bind]
  constructor
  · intro hx
    obtain ⟨failure, hf, rfl⟩ | ⟨_ | receipt, m₁, es₁, es₂, rfl, hs, h⟩ := hx
    · refine .inl ⟨?_, hf⟩
      intro heq
      cases heq
    · obtain ⟨last, rfl, hl⟩ := Action.path_log_bind.mp h
      exact .inr ⟨m₁, es₁, last, rfl, hs, hl⟩
    · obtain ⟨rfl, rfl, rfl⟩ := Action.path_pure.mp h
      rw [List.append_nil]
      refine .inl ⟨?_, hs⟩
      intro heq
      cases heq
  · intro hx
    obtain ⟨hne, hs⟩ | ⟨m₁, es₁, es₂, rfl, hs, hl⟩ := hx
    · rcases r with failure | _ | receipt
      · exact .inl ⟨failure, hs, rfl⟩
      · exact absurd rfl hne
      · exact .inr ⟨some receipt, m', rest, [], (List.append_nil rest).symm, hs,
          Action.path_pure.mpr ⟨rfl, rfl, rfl⟩⟩
    · exact .inr ⟨none, m₁, es₁, _, rfl, hs, Action.path_log_bind.mpr ⟨es₂, rfl, hl⟩⟩

def submissionResult (request : TransactionRequest) :
    Except Failure (Option Receipt) → Outcome (TransactionRequest × Receipt)
  | .ok (some receipt) => .ok (request, receipt)
  | .ok none => .error (Failure.ofDefect .missingPart)
  | .error failure => .error (rejection failure)

theorem submissionResult_eq_ok {request request' : TransactionRequest} {receipt : Receipt}
    {reply : Except Failure (Option Receipt)}
    (h : submissionResult request reply = .ok (request', receipt)) :
    request' = request ∧ reply = .ok (some receipt) := by
  rcases reply with failure | _ | given
  · cases h
  · cases h
  · cases h
    exact ⟨rfl, rfl⟩

/-- The way to a receipt, and the request that it is the receipt of. -/
def submission (x : Execution) (data value : Value) (function : String) (isCreation : Bool) :
    Action (TransactionRequest × Receipt) := do
  let amount ← Action.ofOutcome (Input.amount value "value")
  let r := x.request data (.int amount) isCreation
  let (strategy, limit) ← gasLimit x.strategy r function
  let reply ← Action.attempt (submit x.manager strategy r limit function isCreation)
  Action.ofOutcome (submissionResult r reply)

theorem run_eq (x : Execution) (data value : Value) (function : String) (isCreation : Bool) :
    x.run data value function isCreation = (do
      let (request, receipt) ← x.submission data value function isCreation
      settle x.manager request receipt function) := by
  unfold run submission
  simp only [bind_assoc]
  congr 1
  funext amount
  congr 1
  funext known
  congr 1
  funext reply
  rcases reply with failure | _ | receipt <;> rfl

theorem run_path {x : Execution} {data value : Value} {function : String} {isCreation : Bool}
    {r : Except Failure Receipt} :
    (x.run data value function isCreation).Path m es r m' ↔
      (∃ failure, (x.submission data value function isCreation).Path m es (.error failure) m' ∧
        r = .error failure) ∨
      ∃ request receipt m₁ es₁ es₂, es = es₁ ++ es₂ ∧
        (x.submission data value function isCreation).Path m es₁ (.ok (request, receipt)) m₁ ∧
        (settle x.manager request receipt function).Path m₁ es₂ r m' := by
  rw [run_eq, Action.path_bind]
  refine or_congr Iff.rfl ?_
  constructor
  · intro hx
    obtain ⟨⟨request, receipt⟩, m₁, es₁, es₂, h⟩ := hx
    exact ⟨request, receipt, m₁, es₁, es₂, h⟩
  · intro hx
    obtain ⟨request, receipt, m₁, es₁, es₂, h⟩ := hx
    exact ⟨(request, receipt), m₁, es₁, es₂, h⟩

theorem settle_of_run {x : Execution} {data value : Value} {function : String}
    {isCreation : Bool} {request : TransactionRequest} {receipt : Receipt} {m₁ : Memory}
    {r : Except Failure Receipt}
    (hs : (x.submission data value function isCreation).Path m es (.ok (request, receipt)) m₁)
    (h : (x.run data value function isCreation).Path m (es ++ es') r m') :
    (settle x.manager request receipt function).Path m₁ es' r m' := by
  rw [run_eq] at h
  exact Action.path_rest (f := fun known => settle x.manager known.1 known.2 function) hs h

theorem submission_path {x : Execution} {data value : Value} {function : String}
    {isCreation : Bool} {r : Except Failure (TransactionRequest × Receipt)} :
    (x.submission data value function isCreation).Path m es r m' ↔
      (∃ failure, Input.amount value "value" = .error failure ∧ es = [] ∧ r = .error failure ∧
        m' = m) ∨
      ∃ amount, Input.amount value "value" = .ok amount ∧
        ((∃ failure, (gasLimit x.strategy (x.request data (.int amount) isCreation) function).Path
            m es (.error failure) m' ∧ r = .error failure) ∨
          ∃ s limit m₁ es₁ es₂ reply, es = es₁ ++ es₂ ∧
            (gasLimit x.strategy (x.request data (.int amount) isCreation) function).Path
              m es₁ (.ok (s, limit)) m₁ ∧
            (submit x.manager s (x.request data (.int amount) isCreation) limit function
              isCreation).Path m₁ es₂ reply m' ∧
            r = submissionResult (x.request data (.int amount) isCreation) reply) := by
  unfold submission
  rw [Action.path_ofOutcome_bind]
  refine or_congr Iff.rfl (exists_congr fun amount => and_congr Iff.rfl ?_)
  rw [Action.path_bind]
  refine or_congr Iff.rfl ?_
  constructor
  · intro hx
    obtain ⟨⟨s, limit⟩, m₁, es₁, es₂, rfl, hl, h⟩ := hx
    obtain ⟨reply, hs, rfl⟩ := (Action.path_attempt_of_ofOutcome fun _ => rfl).mp h
    exact ⟨s, limit, m₁, es₁, es₂, reply, rfl, hl, hs, rfl⟩
  · intro hx
    obtain ⟨s, limit, m₁, es₁, es₂, reply, rfl, hl, hs, rfl⟩ := hx
    exact ⟨(s, limit), m₁, es₁, es₂, rfl, hl,
      (Action.path_attempt_of_ofOutcome fun _ => rfl).mpr ⟨reply, hs, rfl⟩⟩

theorem run_of_refused {x : Execution} {data value : Value} {function : String}
    {isCreation : Bool} {r : Except Failure Receipt} {failure : Failure}
    (ha : Input.amount value "value" = .error failure)
    (h : (x.run data value function isCreation).Path m es r m') :
    es = [] ∧ r = .error failure := by
  unfold run at h
  rw [ha] at h
  obtain ⟨_, heq, rfl, rfl, _⟩ | ⟨_, heq, _⟩ := Action.path_ofOutcome_bind.mp h
  · cases heq
    exact ⟨rfl, rfl⟩
  · cases heq

theorem run_of_gasLimit_error {x : Execution} {data value : Value} {function : String}
    {isCreation : Bool} {r : Except Failure Receipt} {failure : Failure} {amount : Int}
    (ha : Input.amount value "value" = .ok amount)
    (hg : (gasLimit x.strategy (x.request data (.int amount) isCreation) function).Path
      m es (.error failure) m')
    {m'' : Memory}
    (h : (x.run data value function isCreation).Path m (es ++ es') r m'') :
    es' = [] ∧ r = .error failure := by
  have hp : (x.run data value function isCreation).Path m es (.error failure) m' := by
    unfold run
    rw [ha]
    exact Action.path_ofOutcome_bind.mpr (.inr ⟨amount, rfl,
      Action.path_bind.mpr (.inl ⟨failure, hg, rfl⟩)⟩)
  obtain ⟨hes, heq⟩ := Program.path_unique _ _ _ _ _ hp h
  cases heq
  exact ⟨hes, rfl⟩

/-! ## Settlement -/

/-- The receipt tells of a transaction that was included with another status than one. -/
structure IsMinedFailure (receipt : Receipt) : Prop where
  waited : receipt.isEmpty = false
  known : receipt.status.isNull = false
  other : receipt.status.equals (.int 1) = false

theorem isFailed_iff {receipt : Receipt} : receipt.isFailed = true ↔ IsMinedFailure receipt := by
  simp only [Receipt.isFailed, Receipt.isStatusOk, Bool.and_eq_true, Bool.not_eq_true',
    Bool.or_eq_false_iff]
  constructor
  · intro h
    exact ⟨h.1, h.2.1, h.2.2⟩
  · intro h
    exact ⟨h.waited, h.known, h.other⟩

def replayBlock (receipt : Receipt) : Value :=
  if receipt.blockNumber.isNull then .text "latest" else receipt.blockNumber

theorem replay_path {manager : Manager} {request : TransactionRequest} {receipt : Receipt}
    {r : Except Failure RevertOutcome} :
    (replay manager request receipt).Path m es r m' ↔
      ∃ rest reply, es = .told (.log .debug "ethwrap.revert" "Replaying failed transaction"
          [("tx_hash", receipt.transactionHash), ("block", replayBlock receipt)]) :: rest ∧
        (manager.call request (replayBlock receipt)).Path m rest reply m' ∧
        r = reply >>= fun response => Outcome.ofDefect (Revert.decode response) := by
  unfold replay
  rw [Action.path_log_bind]
  constructor
  · intro hx
    obtain ⟨rest, rfl, h⟩ := hx
    obtain ⟨reply, hc, rfl⟩ := (Action.path_bind_of_ofOutcome fun _ => rfl).mp h
    exact ⟨rest, reply, rfl, hc, rfl⟩
  · intro hx
    obtain ⟨rest, reply, rfl, hc, rfl⟩ := hx
    exact ⟨rest, rfl, (Action.path_bind_of_ofOutcome fun _ => rfl).mpr ⟨reply, hc, rfl⟩⟩

theorem settle_path_of_not_failed {manager : Manager} {request : TransactionRequest}
    {receipt : Receipt} {function : String} {r : Except Failure Receipt}
    (hf : receipt.isFailed = false) :
    (settle manager request receipt function).Path m es r m' ↔
      es = [] ∧ r = .ok receipt ∧ m' = m := by
  unfold settle
  rw [hf]
  exact Action.path_pure

theorem settle_path_of_failed {manager : Manager} {request : TransactionRequest}
    {receipt : Receipt} {function : String} {r : Except Failure Receipt}
    (hf : receipt.isFailed = true) :
    (settle manager request receipt function).Path m es r m' ↔
      (∃ failure, (replay manager request receipt).Path m es (.error failure) m' ∧
        r = .error failure) ∨
      ∃ outcome rest, (replay manager request receipt).Path m rest (.ok outcome) m' ∧
        es = rest ++ [.told (.log .warning logger "Transaction reverted"
          [("function", .text function), ("tx_hash", receipt.transactionHash),
            ("status", receipt.status), ("reason", outcome.reason)])] ∧
        r = fail (.revertedTransaction receipt (outcome.reason.orElse missingReason)
          outcome.encodedData) := by
  unfold settle
  rw [hf, if_pos rfl, Action.path_bind]
  refine or_congr Iff.rfl ?_
  constructor
  · intro hx
    obtain ⟨outcome, m₁, es₁, es₂, rfl, hr, h⟩ := hx
    obtain ⟨rest, rfl, hl⟩ := Action.path_log_bind.mp h
    obtain ⟨rfl, rfl, rfl⟩ := Action.path_fail.mp hl
    exact ⟨outcome, es₁, hr, rfl, rfl⟩
  · intro hx
    obtain ⟨outcome, rest, hr, rfl, rfl⟩ := hx
    exact ⟨outcome, m', rest, _, rfl, hr,
      Action.path_log_bind.mpr ⟨[], rfl, Action.path_fail.mpr ⟨rfl, rfl, rfl⟩⟩⟩

end EvmClient.Execution
