import EvmClient.Proofs.Execution.Phases
import EvmClient.Proofs.Revert
import EvmClient.Script

/-!
# How a mined failure is reported

The receipt of a failed transaction is followed by one more call, made to learn the reason. The
failure is reported by an error that carries the receipt exactly if that call is answered, the
answer can be told apart and the message can be written. Else another error takes its place, and the
receipt is lost.
-/

set_option autoImplicit false

namespace EvmClient.Execution

variable {receipt : Receipt} {m m' : Memory} {es : List Exchange}

def failureOf (receipt : Receipt) (outcome : RevertOutcome) : ClientError :=
  .revertedTransaction receipt (outcome.reason.orElse (.text "N/A")) outcome.encodedData

def report (receipt : Receipt) (reply : Except Failure CallResponse) : Outcome Receipt := do
  let outcome ← Outcome.ofDefect (Revert.decode (← reply))
  fail (failureOf receipt outcome)

theorem report_of_decoded {response : CallResponse} {outcome : RevertOutcome}
    (h : Revert.decode response = .ok outcome) :
    report receipt (.ok response) = fail (failureOf receipt outcome) := by
  change Outcome.ofDefect (Revert.decode response) >>= _ = _
  rw [h]
  rfl

theorem report_of_undecoded {response : CallResponse} {d : Defect}
    (h : Revert.decode response = .error d) :
    report receipt (.ok response) = .error (Failure.ofDefect d) := by
  change Outcome.ofDefect (Revert.decode response) >>= _ = _
  rw [h]
  rfl

theorem settle_reports {manager : Manager} {request : TransactionRequest} {function : String}
    {r : Except Failure Receipt} (hf : IsMinedFailure receipt)
    (h : (settle manager request receipt function).Path m es r m') :
    ∃ notice rest last reply, es = .told notice :: (rest ++ last) ∧
      (manager.call request (replayBlock receipt)).Path m rest reply m' ∧
      r = report receipt reply := by
  obtain ⟨failure, hr, rfl⟩ | ⟨outcome, replayed, hr, rfl, rfl⟩ :=
    (settle_path_of_failed (isFailed_iff.mpr hf)).mp h
  · obtain ⟨rest, reply, rfl, hc, heq⟩ := replay_path.mp hr
    refine ⟨_, rest, [], reply, congrArg _ (List.append_nil rest).symm, hc, ?_⟩
    obtain rfl | ⟨response, rfl, hd⟩ := bind_eq_error.mp heq.symm
    · rfl
    · cases hdecode : Revert.decode response with
      | ok outcome =>
        rw [hdecode] at hd
        cases hd
      | error d =>
        rw [hdecode] at hd
        rw [report_of_undecoded hdecode]
        cases hd
        rfl
  · obtain ⟨rest, reply, rfl, hc, heq⟩ := replay_path.mp hr
    obtain ⟨response, rfl, hd⟩ := bind_eq_ok.mp heq.symm
    refine ⟨_, rest, _, .ok response, rfl, hc, ?_⟩
    rw [report_of_decoded (Outcome.ofDefect_eq_ok.mp hd)]
    rfl

/-- The outcome is an error that carries the receipt of a failed transaction, its hash, its status
and the gas it has used. -/
def Reported (receipt : Receipt) (r : Outcome Receipt) : Prop :=
  ∃ e reason data, r = .error (.client e) ∧ e = .revertedTransaction receipt reason data ∧
    e.txHash = receipt.transactionHash ∧
    e.attributes = [("status", receipt.status), ("gas_used", receipt.gasUsed),
      ("reason", reason), ("encoded_data", data)]

theorem reported_iff {r : Outcome Receipt} :
    Reported receipt r ↔
      ∃ reason data, r = .error (.client (.revertedTransaction receipt reason data)) := by
  constructor
  · intro hx
    obtain ⟨_, reason, data, hr, rfl, _⟩ := hx
    exact ⟨reason, data, hr⟩
  · intro hx
    obtain ⟨reason, data, hr⟩ := hx
    exact ⟨_, reason, data, hr, rfl, rfl, rfl⟩

/-- The replay is answered, the answer can be told apart and the message can be written. -/
def IsExplained (receipt : Receipt) (reply : Except Failure CallResponse) : Prop :=
  ∃ response, reply = .ok response ∧
    ¬(¬Revert.IsLookup response ∧ Revert.IsUnreadable response.result) ∧
    ∀ outcome, Revert.decode response = .ok outcome →
      (failureOf receipt outcome).message?.isSome = true

theorem report_of_isExplained {reply : Except Failure CallResponse}
    (h : IsExplained receipt reply) :
    ∃ response outcome, reply = .ok response ∧ Revert.decode response = .ok outcome ∧
      report receipt reply = .error (.client (failureOf receipt outcome)) := by
  obtain ⟨response, rfl, hread, hwrite⟩ := h
  cases hd : Revert.decode response with
  | error d => exact absurd (Revert.decode_fails_iff.mp ⟨d, hd⟩) hread
  | ok outcome =>
    refine ⟨response, outcome, rfl, hd, ?_⟩
    rw [report_of_decoded hd, fail, Failure.ofError, if_pos (hwrite outcome hd)]

theorem isExplained_of_report {reply : Except Failure CallResponse}
    (h : Reported receipt (report receipt reply)) :
    IsExplained receipt reply ∨
      ∃ reason data, reply = .error (.client (.revertedTransaction receipt reason data)) := by
  obtain ⟨reason, data, hr⟩ := reported_iff.mp h
  cases reply with
  | error failure =>
    cases hr
    exact .inr ⟨reason, data, rfl⟩
  | ok response =>
    refine .inl ⟨response, rfl, ?_, ?_⟩
    · intro hu
      obtain ⟨d, hd⟩ := Revert.decode_fails_iff.mpr hu
      rw [report_of_undecoded hd] at hr
      cases hr
    · intro outcome hd
      rw [report_of_decoded hd, fail, Failure.ofError] at hr
      by_cases hm : (failureOf receipt outcome).message?.isSome = true
      · exact hm
      · rw [if_neg hm] at hr
        cases hr

/-- Exactly an explained failure is reported, with the best reason that is known. -/
theorem run_reports_mined_failure_iff (x : Execution) (data value : Value) (function : String)
    (isCreation : Bool) (request : TransactionRequest) (receipt : Receipt) (m m₁ m' : Memory)
    (es es' : List Exchange) (r : Except Failure Receipt)
    (hs : (x.submission data value function isCreation).Path m es (.ok (request, receipt)) m₁)
    (hf : IsMinedFailure receipt)
    (h : (x.run data value function isCreation).Path m (es ++ es') r m') :
    ∃ notice rest last reply, es' = .told notice :: (rest ++ last) ∧
      (x.manager.call request (replayBlock receipt)).Path m₁ rest reply m' ∧
      (Reported receipt r ↔ IsExplained receipt reply ∨
        ∃ reason data, reply = .error (.client (.revertedTransaction receipt reason data))) ∧
      (IsExplained receipt reply → ∃ response outcome, reply = .ok response ∧
        Revert.decode response = .ok outcome ∧
        r = .error (.client (.revertedTransaction receipt (outcome.reason.orElse (.text "N/A"))
          outcome.encodedData))) ∧
      ∀ failure, reply = .error failure → r = .error failure := by
  have hsettle : (settle x.manager request receipt function).Path m₁ es' r m' :=
    settle_of_run hs h
  obtain ⟨notice, rest, last, reply, hes, hc, rfl⟩ := settle_reports hf hsettle
  refine ⟨notice, rest, last, reply, hes, hc, ?_, ?_, ?_⟩
  · constructor
    · exact isExplained_of_report
    · intro hx
      obtain hexp | ⟨reason, data, rfl⟩ := hx
      · obtain ⟨response, outcome, _, _, hr⟩ := report_of_isExplained hexp
        exact reported_iff.mpr ⟨_, _, hr⟩
      · exact reported_iff.mpr ⟨reason, data, rfl⟩
  · exact report_of_isExplained
  · rintro failure rfl
    rfl

def fixedPriceExecution : Execution :=
  ⟨.inMemory (.text "0x01"), .text "0x02", some .default⟩

def failedReceipt : Receipt :=
  { transactionHash := .text "0xaa", status := .int 0, gasUsed := .int 21000
    blockNumber := .int 12 }

def failedRequest : TransactionRequest :=
  { sender := .text "0x01", recipient := .text "0x02", data := .text "0x" }

def silentNode : Script where
  legacy := [.ok (some failedReceipt)]

theorem silent_failure_reported :
    ∃ es r m', (fixedPriceExecution.run (.text "0x") (.int 0) "f" false).Path {} es r m' ∧
      Reported failedReceipt r := by
  have hs : (fixedPriceExecution.submission (.text "0x") (.int 0) "f" false).Path {} _
      (.ok (failedRequest, failedReceipt)) {} :=
    Program.path_history Script.answer
      (fixedPriceExecution.submission (.text "0x") (.int 0) "f" false {}) silentNode
  have h := Program.path_history Script.answer
    (fixedPriceExecution.run (.text "0x") (.int 0) "f" false {}) silentNode
  obtain ⟨notice, rest, last, reply, hes, hc, hiff, _⟩ := run_reports_mined_failure_iff
    fixedPriceExecution (.text "0x") (.int 0) "f" false failedRequest failedReceipt {} {} {} _
    [_, _, _] _ hs ⟨rfl, rfl, rfl⟩ h
  obtain ⟨rfl, _⟩ := Action.path_ask.mp hc
  have hreply : reply = .ok { result := .text "0x" } := by
    cases hes
    rfl
  refine ⟨_, _, _, h, hiff.mpr (.inl ⟨_, hreply, ?_, ?_⟩)⟩
  · intro hx
    obtain ⟨_, hsel, _⟩ := hx
    exact absurd hsel (by decide)
  · intro outcome hd
    cases hd
    decide +kernel

def overlongReason : String :=
  "0x08c379a0" ++
  "0000000000000000000000000000000000000000000000000000000000000020" ++
  "ffffffffffffffffffffffffffffffffffffffffffffffffffffffffffffffff"

def overlongNode : Script where
  legacy := [.ok (some failedReceipt)]
  calls := [.ok { result := .text overlongReason }]

set_option maxRecDepth 1000 in
/-- Who reverts with this reason hides that the transaction was mined and failed. -/
theorem overlong_reason_hides_failure :
    ∃ es es' request receipt m₁ r m',
      (fixedPriceExecution.submission (.text "0x") (.int 0) "f" false).Path {} es
        (.ok (request, receipt)) m₁ ∧
      IsMinedFailure receipt ∧
      (fixedPriceExecution.run (.text "0x") (.int 0) "f" false).Path {} (es ++ es') r m' ∧
      r = .error (Failure.ofDefect .tooLarge) ∧ ¬Reported receipt r := by
  have hs : (fixedPriceExecution.submission (.text "0x") (.int 0) "f" false).Path {} _
      (.ok (failedRequest, failedReceipt)) {} :=
    Program.path_history Script.answer
      (fixedPriceExecution.submission (.text "0x") (.int 0) "f" false {}) overlongNode
  have h := Program.path_history Script.answer
    (fixedPriceExecution.run (.text "0x") (.int 0) "f" false {}) overlongNode
  refine ⟨_, [_, _], failedRequest, failedReceipt, _, _, _, hs, ⟨rfl, rfl, rfl⟩, h, rfl, ?_⟩
  intro hr
  obtain ⟨reason, data, heq⟩ := reported_iff.mp hr
  cases heq

end EvmClient.Execution
