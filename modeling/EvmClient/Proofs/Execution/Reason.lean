import EvmClient.Proofs.Abi.Arguments
import EvmClient.Proofs.Execution.MinedFailure

/-!
# The reason of a reverted transaction

A reason that a contract gives is encoded, found in the answer to the replay and put into the error,
letter by letter, unless it is empty: an empty reason counts as none, and the placeholder takes its
place. The error can be raised only if what the receipt says can be written.
-/

set_option autoImplicit false

namespace EvmClient

/-- What a message says about the receipt has numbers of few enough digits to be written. -/
structure Receipt.IsWritable (receipt : Receipt) : Prop where
  hash : receipt.transactionHash.text?.isSome = true
  status : receipt.status.text?.isSome = true
  gas : receipt.gasUsed.isNull = true ∨ receipt.gasUsed.text?.isSome = true

theorem Revert.decode_of_encoded_reason {s text : String} {bs : List UInt8}
    (hbs : Abi.encodeArguments [⟨"string", .text s⟩] = .ok bs)
    (htext : Hex.IsMarkedText text (errorCode ++ bs)) :
    decode { result := .text text } = .ok ⟨.abiEncodedRevert, .text s, .null⟩ := by
  have hsel : hasSelector errorSelector text.toList = true := by
    rw [errorSelector_eq, hasSelector_iff htext]
    exact List.prefix_append errorCode bs
  have hpayload : payload? text = some bs := by
    rw [payload?_of_marked htext, List.drop_left]
  rw [decode_text, if_pos hsel, reasonText_eq hpayload, Abi.decodeAll_text hbs]
  rfl

namespace Execution

variable {receipt : Receipt} {reason : Value} {r : Outcome Receipt}

theorem message?_isSome_iff {data : Value} (hreason : reason.text?.isSome = true) :
    (ClientError.revertedTransaction receipt reason data).message?.isSome = true ↔
      receipt.IsWritable := by
  obtain ⟨word, hword⟩ := Option.isSome_iff_exists.mp hreason
  constructor
  · intro h
    obtain ⟨message, h⟩ := Option.isSome_iff_exists.mp h
    obtain ⟨hash, hhash, h⟩ := Option.bind_eq_some_iff.mp h
    obtain ⟨status, hstatus, h⟩ := Option.bind_eq_some_iff.mp h
    refine ⟨Option.isSome_of_eq_some hhash, Option.isSome_of_eq_some hstatus, ?_⟩
    by_cases hnull : receipt.gasUsed.isNull = true
    · -- the message says that the gas is unknown, which is always possible
      exact .inl hnull
    · simp only [if_neg hnull] at h
      obtain ⟨gas, hgas, _⟩ := Option.bind_eq_some_iff.mp h
      exact .inr (Option.isSome_of_eq_some hgas)
  · intro h
    obtain ⟨hash, hhash⟩ := Option.isSome_iff_exists.mp h.hash
    obtain ⟨status, hstatus⟩ := Option.isSome_iff_exists.mp h.status
    by_cases hnull : receipt.gasUsed.isNull = true
    · simp only [ClientError.message?, hhash, hstatus, hword, if_pos hnull]
      rfl
    · obtain ⟨gas, hgas⟩ := Option.isSome_iff_exists.mp (h.gas.resolve_left hnull)
      simp only [ClientError.message?, hhash, hstatus, hword, if_neg hnull, hgas]
      rfl

def Carries (receipt : Receipt) (reason : Value) (r : Outcome Receipt) : Prop :=
  ∃ data, r = .error (.client (.revertedTransaction receipt reason data))

theorem carries_fail_iff {outcome : RevertOutcome} :
    Carries receipt reason (fail (failureOf receipt outcome)) ↔
      reason = outcome.reason.orElse (.text "N/A") ∧
        (failureOf receipt outcome).message?.isSome = true := by
  unfold Carries fail Failure.ofError
  by_cases hwrite : (failureOf receipt outcome).message?.isSome = true
  · rw [if_pos hwrite, and_iff_left hwrite]
    constructor
    · intro hx
      obtain ⟨data, h⟩ := hx
      cases h
      rfl
    · rintro rfl
      exact ⟨outcome.encodedData, rfl⟩
  · rw [if_neg hwrite]
    apply iff_of_false
    · intro hx
      obtain ⟨data, h⟩ := hx
      cases h
    · intro h
      exact hwrite h.2

theorem reason_of_carries {outcome : RevertOutcome}
    (h : Carries receipt reason (fail (failureOf receipt outcome))) :
    (outcome.reason.isTruthy = true ∧ reason = outcome.reason) ∨
      outcome.reason.isTruthy = false ∧ reason = .text "N/A" := by
  obtain ⟨rfl, _⟩ := carries_fail_iff.mp h
  unfold Value.orElse
  cases outcome.reason.isTruthy
  · exact .inr ⟨rfl, rfl⟩
  · exact .inl ⟨rfl, rfl⟩

theorem carries_text_iff {s : String} :
    Carries receipt (.text s)
        (fail (failureOf receipt ⟨.abiEncodedRevert, .text s, .null⟩)) ↔
      s ≠ "" ∧ receipt.IsWritable := by
  rw [carries_fail_iff]
  by_cases hs : s = ""
  · obtain rfl := hs
    apply iff_of_false
    · intro h
      have hplaceholder : "" = "N/A" := Value.text.inj h.1
      exact absurd hplaceholder (by decide)
    · intro h
      exact h.1 rfl
  · have htruthy : Value.isTruthy (.text s) = true := by simpa [Value.isTruthy] using hs
    have hreason : Value.orElse (.text s) (.text "N/A") = .text s := by
      rw [Value.orElse, if_pos htruthy]
    rw [failureOf, hreason, message?_isSome_iff rfl, and_iff_right rfl, and_iff_right hs]

theorem run_of_decoded {x : Execution} {data value : Value} {function : String} {isCreation : Bool}
    {request : TransactionRequest} {m m₁ m' : Memory} {es rest : List Exchange}
    {response : CallResponse} {outcome : RevertOutcome}
    (hs : (x.submission data value function isCreation).Path m es (.ok (request, receipt)) m₁)
    (hf : IsMinedFailure receipt)
    (hcall : (x.manager.call request (replayBlock receipt)).Path m₁ rest (.ok response) m')
    (hdecode : Revert.decode response = .ok outcome) :
    ∃ notice last, (x.run data value function isCreation).Path m
      (es ++ .told notice :: (rest ++ [.told last])) (fail (failureOf receipt outcome)) m' := by
  have hreply : (.ok outcome : Except Failure RevertOutcome) =
      .ok response >>= fun response => Outcome.ofDefect (Revert.decode response) :=
    (Outcome.ofDefect_eq_ok.mpr hdecode).symm
  have hreplay := replay_path.mpr ⟨rest, .ok response, rfl, hcall, hreply⟩
  have hsettle : (settle x.manager request receipt function).Path m₁ _
      (fail (failureOf receipt outcome)) m' :=
    (settle_path_of_failed (isFailed_iff.mpr hf)).mpr (.inr ⟨outcome, _, hreplay, rfl, rfl⟩)
  exact ⟨_, _, run_path.mpr (.inr ⟨request, receipt, m₁, es, _, rfl, hs, hsettle⟩)⟩

/-- A reason that was encoded is carried by the error exactly if it is not empty. -/
theorem run_carries_reason (x : Execution) (data value : Value) (function : String)
    (isCreation : Bool) (request : TransactionRequest) (receipt : Receipt) (s text : String)
    (bs : List UInt8) (m m₁ : Memory) (es : List Exchange)
    (hs : (x.submission data value function isCreation).Path m es (.ok (request, receipt)) m₁)
    (hf : IsMinedFailure receipt)
    (hbs : Abi.encodeArguments [⟨"string", .text s⟩] = .ok bs)
    (htext : Hex.IsMarkedText text (Revert.errorCode ++ bs)) :
    Revert.decode { result := .text text } = .ok ⟨.abiEncodedRevert, .text s, .null⟩ ∧
    (∀ rest m', (x.manager.call request (replayBlock receipt)).Path m₁ rest
        (.ok { result := .text text }) m' →
      ∃ notice last r, (x.run data value function isCreation).Path m
          (es ++ .told notice :: (rest ++ [.told last])) r m' ∧
        (Carries receipt (.text s) r ↔ s ≠ "" ∧ receipt.IsWritable)) ∧
    ∀ es' r m', (x.run data value function isCreation).Path m (es ++ es') r m' →
      ∃ notice rest last reply, es' = .told notice :: (rest ++ last) ∧
        (x.manager.call request (replayBlock receipt)).Path m₁ rest reply m' ∧
        (reply = .ok { result := .text text } →
          (Carries receipt (.text s) r ↔ s ≠ "" ∧ receipt.IsWritable)) ∧
        ∀ response outcome reason, reply = .ok response → Revert.decode response = .ok outcome →
          Carries receipt reason r →
          (outcome.reason.isTruthy = true ∧ reason = outcome.reason) ∨
            outcome.reason.isTruthy = false ∧ reason = .text "N/A" := by
  have hdecode := Revert.decode_of_encoded_reason hbs htext
  refine ⟨hdecode, ?_, ?_⟩
  · intro rest m' hcall
    obtain ⟨notice, last, hrun⟩ := run_of_decoded hs hf hcall hdecode
    exact ⟨notice, last, _, hrun, carries_text_iff⟩
  · intro es' r m' h
    obtain ⟨notice, rest, last, reply, hes, hcall, rfl⟩ := settle_reports hf (settle_of_run hs h)
    refine ⟨notice, rest, last, reply, hes, hcall, ?_, ?_⟩
    · rintro rfl
      rw [report_of_decoded hdecode]
      exact carries_text_iff
    · rintro response outcome reason rfl hd hcarries
      rw [report_of_decoded hd] at hcarries
      exact reason_of_carries hcarries

theorem failedReceipt_isMinedFailure : IsMinedFailure failedReceipt := ⟨rfl, rfl, rfl⟩

theorem failedReceipt_isWritable : failedReceipt.IsWritable where
  hash := rfl
  status := by decide +kernel
  gas := .inr (by decide +kernel)

theorem fixedPriceExecution_submits :
    ∃ es, (fixedPriceExecution.submission (.text "0x") (.int 0) "f" false).Path {} es
      (.ok (failedRequest, failedReceipt)) {} :=
  ⟨_, Program.path_history Script.answer
    (fixedPriceExecution.submission (.text "0x") (.int 0) "f" false {}) silentNode⟩

theorem fixedPriceExecution_replays (text : String) :
    (fixedPriceExecution.manager.call failedRequest (replayBlock failedReceipt)).Path {}
      [.asked (.call failedRequest (.int 12)) (.ok { result := .text text })]
      (.ok { result := .text text }) {} :=
  Action.path_ask.mpr ⟨rfl, rfl⟩

theorem word_reason_carried :
    ∃ es r m', (fixedPriceExecution.run (.text "0x") (.int 0) "f" false).Path {} es r m' ∧
      Carries failedReceipt (.text "Paused") r := by
  obtain ⟨bs, hbs⟩ := exists_ok_of_toBool
    (by decide +kernel : (Abi.encodeArguments [⟨"string", .text "Paused"⟩]).toBool = true)
  obtain ⟨es, hs⟩ := fixedPriceExecution_submits
  obtain ⟨_, hrun, _⟩ := run_carries_reason fixedPriceExecution (.text "0x") (.int 0) "f" false
    failedRequest failedReceipt "Paused" (Hex.markedText (Revert.errorCode ++ bs)) bs {} {} es hs
    failedReceipt_isMinedFailure hbs (Hex.isMarkedText_markedText _)
  obtain ⟨notice, last, r, h, hcarries⟩ := hrun _ _ (fixedPriceExecution_replays _)
  exact ⟨_, r, _, h, hcarries.mpr ⟨by decide, failedReceipt_isWritable⟩⟩

/-- The reason that was given is read as empty, and the error says that there was none. -/
theorem empty_reason_replaced :
    ∃ es rest notice last bs text r,
      (fixedPriceExecution.submission (.text "0x") (.int 0) "f" false).Path {} es
        (.ok (failedRequest, failedReceipt)) {} ∧
      IsMinedFailure failedReceipt ∧
      Abi.encodeArguments [⟨"string", .text ""⟩] = .ok bs ∧
      Hex.IsMarkedText text (Revert.errorCode ++ bs) ∧
      Revert.decode { result := .text text } = .ok ⟨.abiEncodedRevert, .text "", .null⟩ ∧
      (fixedPriceExecution.manager.call failedRequest (replayBlock failedReceipt)).Path {} rest
        (.ok { result := .text text }) {} ∧
      (fixedPriceExecution.run (.text "0x") (.int 0) "f" false).Path {}
        (es ++ .told notice :: (rest ++ [.told last])) r {} ∧
      Carries failedReceipt (.text "N/A") r ∧ ¬Carries failedReceipt (.text "") r := by
  obtain ⟨bs, hbs⟩ := exists_ok_of_toBool
    (by decide +kernel : (Abi.encodeArguments [⟨"string", .text ""⟩]).toBool = true)
  have htext := Hex.isMarkedText_markedText (Revert.errorCode ++ bs)
  have hdecode := Revert.decode_of_encoded_reason hbs htext
  have hcall := fixedPriceExecution_replays (Hex.markedText (Revert.errorCode ++ bs))
  obtain ⟨es, hs⟩ := fixedPriceExecution_submits
  obtain ⟨notice, last, h⟩ := run_of_decoded hs failedReceipt_isMinedFailure hcall hdecode
  have hplaceholder : Carries failedReceipt (.text "N/A")
      (fail (failureOf failedReceipt ⟨.abiEncodedRevert, .text "", .null⟩)) :=
    carries_fail_iff.mpr ⟨rfl, (message?_isSome_iff rfl).mpr failedReceipt_isWritable⟩
  refine ⟨es, _, notice, last, bs, _, _, hs, failedReceipt_isMinedFailure, hbs, htext, hdecode,
    hcall, h, hplaceholder, ?_⟩
  intro hx
  exact (carries_text_iff.mp hx).1 rfl

end Execution
end EvmClient
