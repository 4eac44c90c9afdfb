import EvmClient.Proofs.Event
import EvmClient.Proofs.ReadCall
import EvmClient.Proofs.Value

/-!
# Letters in either case

Hexadecimal text means the same in either case of its letters. A log or a response is brought to
lower case, and what is read from it stays as it was: the values of an event, what a response says
about a call, the results of the call. Where nothing can be read, an error shows the text as it was
written, so two spellings have errors of one kind that may differ in their message. The main
statement is `letter_case_is_immaterial`.
-/

set_option autoImplicit false

namespace EvmClient

/-! ## Values, logs and responses in lower case -/

namespace Value

mutual

/-- The value with all of its texts in lower case. -/
def lowered : Value → Value
  | text s => text (Text.lowered s)
  | list items => list (loweredItems items)
  | tuple items => tuple (loweredItems items)
  | dict entries => dict (loweredEntries entries)
  | v => v

def loweredItems : List Value → List Value
  | [] => []
  | v :: rest => lowered v :: loweredItems rest

def loweredEntries : List (String × Value) → List (String × Value)
  | [] => []
  | (name, v) :: rest => (Text.lowered name, lowered v) :: loweredEntries rest

end

end Value

def Log.lowered (log : Log) : Log :=
  { log with
    topics := log.topics.map fun topics => topics.map Value.lowered
    data := log.data.lowered }

def RpcError.lowered (e : RpcError) : RpcError := { e with data := e.data.lowered }

def CallResponse.lowered (response : CallResponse) : CallResponse :=
  { result := response.result.lowered, error := response.error.map RpcError.lowered }

def RevertOutcome.lowered (outcome : RevertOutcome) : RevertOutcome :=
  { outcome with encodedData := outcome.encodedData.lowered }

namespace Text

theorem toList_lowered (s : String) : (lowered s).toList = s.toList.map Char.toLower := by
  rw [lowered, String.toList_ofList]

theorem map_toLower_toLower (cs : List Char) :
    (cs.map Char.toLower).map Char.toLower = cs.map Char.toLower := by
  rw [List.map_map]
  exact List.map_congr_left fun c _ => Hex.toLower_toLower c

theorem lowered_lowered (s : String) : lowered (lowered s) = lowered s := by
  rw [lowered, toList_lowered, map_toLower_toLower, ← toList_lowered, String.ofList_toList]

theorem isEmpty_lowered (s : String) : (lowered s).isEmpty = s.isEmpty := by
  rw [Bool.eq_iff_iff, String.isEmpty_iff, String.isEmpty_iff, ← String.toList_eq_nil_iff,
    ← String.toList_eq_nil_iff, toList_lowered, List.map_eq_nil_iff]

end Text

theorem Hex.decode?_lowered (s : String) : decode? (Text.lowered s) = decode? s := by
  rw [decode?, Text.toList_lowered, unmarkChars_map_toLower, ofChars?_map_toLower, decode?]

namespace Value

theorem isTruthy_lowered (v : Value) : v.lowered.isTruthy = v.isTruthy := by
  cases v with
  | text s => simp [lowered, isTruthy, Text.isEmpty_lowered]
  | list items | tuple items => cases items <;> simp [lowered, loweredItems, isTruthy]
  | dict entries => cases entries <;> simp [lowered, loweredEntries, isTruthy]
  | _ => rw [lowered] <;> simp

theorem isNull_lowered (v : Value) : v.lowered.isNull = v.isNull := by
  cases v <;> simp [lowered, isNull]

theorem isSome_literals?_cons (v : Value) (rest : List Value) :
    (literals? (v :: rest)).isSome = (v.literal?.isSome && (literals? rest).isSome) := by
  rw [literals?]
  cases v.literal? <;> cases literals? rest <;> rfl

theorem isSome_entryLiterals?_cons (name : String) (v : Value) (rest : List (String × Value)) :
    (entryLiterals? ((name, v) :: rest)).isSome =
      (v.literal?.isSome && (entryLiterals? rest).isSome) := by
  rw [entryLiterals?]
  cases v.literal? <;> cases entryLiterals? rest <;> rfl

mutual

theorem isSome_literal?_lowered (v : Value) : v.lowered.literal?.isSome = v.literal?.isSome := by
  cases v with
  | text s => rw [lowered, literal?, literal?, Option.isSome_some, Option.isSome_some]
  | list items | tuple items =>
    rw [lowered, literal?, literal?, Option.isSome_map, Option.isSome_map,
      isSome_literals?_lowered items]
  | dict entries =>
    rw [lowered, literal?, literal?, Option.isSome_map, Option.isSome_map,
      isSome_entryLiterals?_lowered entries]
  | _ => rw [lowered] <;> simp

theorem isSome_literals?_lowered (items : List Value) :
    (literals? (loweredItems items)).isSome = (literals? items).isSome := by
  cases items with
  | nil => rw [loweredItems]
  | cons v rest =>
    rw [loweredItems, isSome_literals?_cons, isSome_literals?_cons, isSome_literal?_lowered v,
      isSome_literals?_lowered rest]

theorem isSome_entryLiterals?_lowered (entries : List (String × Value)) :
    (entryLiterals? (loweredEntries entries)).isSome = (entryLiterals? entries).isSome := by
  cases entries with
  | nil => rw [loweredEntries]
  | cons entry rest =>
    obtain ⟨name, v⟩ := entry
    rw [loweredEntries, isSome_entryLiterals?_cons, isSome_entryLiterals?_cons,
      isSome_literal?_lowered v, isSome_entryLiterals?_lowered rest]

end

theorem isSome_text?_lowered (v : Value) : v.lowered.text?.isSome = v.text?.isSome := by
  have hliteral := isSome_literal?_lowered v
  cases v with
  | text s => simp [lowered, text?]
  | list items | tuple items | dict entries =>
    simp only [lowered] at hliteral ⊢
    exact hliteral
  | _ => rw [lowered] <;> simp

end Value

/-! ## Values read from a log -/

namespace Abi

theorem fail_hexData_lowered (v : Value) :
    (fail (.validation (.hexData v.lowered)) : Outcome (List UInt8)).classified =
      (fail (.validation (.hexData v)) : Outcome (List UInt8)).classified := by
  refine Outcome.classified_fail rfl ?_
  rw [ClientError.message?, ClientError.message?, ValidationCause.message?,
    ValidationCause.message?, Option.isSome_map, Option.isSome_map, Value.isSome_literal?_lowered]

theorem dataBytes_lowered (v : Value) :
    (dataBytes v.lowered).classified = (dataBytes v).classified := by
  have hfail := fail_hexData_lowered v
  unfold dataBytes
  rw [Value.isTruthy_lowered]
  by_cases hv : v.isTruthy = true
  · rw [if_pos hv, if_pos hv]
    cases v with
    | text s =>
      simp only [Value.lowered] at hfail ⊢
      rw [Hex.decode?_lowered]
      cases Hex.decode? s with
      | none =>
        rw [Option.elim_none, Option.elim_none]
        exact hfail
      | some bs => rw [Option.elim_some, Option.elim_some]
    | list items | tuple items | dict entries =>
      simp only [Value.lowered] at hfail ⊢
      exact hfail
    | _ => simp only [Value.lowered]
  · rw [if_neg hv, if_neg hv]

theorem decodeReturn_lowered (data : Value) (types : List String) :
    (decodeReturn data.lowered types).classified = (decodeReturn data types).classified := by
  refine Outcome.classified_bind (dataBytes_lowered data) fun bs => ?_
  split
  · rfl
  · refine Outcome.classified_bind (decodeValues_classified rfl bs rfl ?_) fun _ => rfl
    simp [ClientError.message?, ConversionCause.message?, Value.isSome_text?_lowered]

theorem decodeTopic_lowered (topic : Value) (type : String) :
    (decodeTopic topic.lowered type).classified = (decodeTopic topic type).classified := by
  refine Outcome.classified_bind (dataBytes_lowered topic) fun bs => ?_
  split
  · rfl
  · refine Outcome.classified_bind (decodeValues_classified rfl bs rfl ?_) fun _ => rfl
    simp [ClientError.message?, ConversionCause.message?, Value.isSome_text?_lowered]

end Abi

namespace Event

theorem isTopic_lowered (e : Event) (topic : Value) :
    e.isTopic topic.lowered = e.isTopic topic := by
  cases topic with
  | text s => rw [Value.lowered, isTopic, Text.lowered_lowered, isTopic]
  | _ => rw [Value.lowered] <;> simp [isTopic]

theorem furtherTopics?_lowered (e : Event) (log : Log) :
    e.furtherTopics? log.lowered =
      (e.furtherTopics? log).map (Option.map (List.map Value.lowered)) := by
  unfold furtherTopics?
  rw [Log.lowered]
  cases log.topics with
  | none => rfl
  | some topics =>
    cases topics with
    | nil => rfl
    | cons first rest =>
      simp only [Option.map_some, List.map_cons, isTopic_lowered]
      cases e.isTopic first with
      | error d => rfl
      | ok found =>
        by_cases hlength : rest.length = e.indexed.length
        · cases found <;> simp [bind, Except.bind, pure, Except.pure, Except.map, hlength]
        · cases found <;> simp [bind, Except.bind, pure, Except.pure, Except.map, hlength]

theorem topicValues_lowered (parameters : List EventParameter) (topics : List Value) :
    (topicValues parameters (topics.map Value.lowered)).classified =
      (topicValues parameters topics).classified := by
  induction parameters generalizing topics with
  | nil => rfl
  | cons p ps ih =>
    cases topics with
    | nil => rfl
    | cons topic topics =>
      rw [List.map_cons, topicValues, topicValues]
      refine Outcome.classified_bind (Abi.decodeTopic_lowered topic p.type) fun v => ?_
      exact Outcome.classified_bind (ih topics) fun _ => rfl

theorem ofLog_lowered (e : Event) (log : Log) :
    (e.ofLog log.lowered).classified = (e.ofLog log).classified := by
  rw [ofLog, ofLog, furtherTopics?_lowered]
  cases e.furtherTopics? log with
  | error d => rfl
  | ok found =>
    cases found with
    | none => rfl
    | some topics =>
      simp only [Except.map, Option.map_some, Outcome.ofDefect, bind, Except.bind]
      refine Outcome.classified_bind (Abi.decodeReturn_lowered log.data _) fun unindexed => ?_
      exact Outcome.classified_bind (topicValues_lowered e.indexed topics) fun _ => rfl

end Event

/-! ## What a response says -/

namespace Revert

theorem hasSelector_map_toLower (selector cs : List Char) :
    hasSelector selector (cs.map Char.toLower) = hasSelector selector cs := by
  rw [hasSelector, ← List.map_take, Text.map_toLower_toLower, hasSelector]

theorem isOffchainLookup_lowered (data : Value) :
    isOffchainLookup data.lowered = isOffchainLookup data := by
  cases data with
  | text s =>
    rw [Value.lowered, isOffchainLookup, Text.toList_lowered, hasSelector_map_toLower,
      isOffchainLookup]
  | _ => rw [Value.lowered] <;> simp [isOffchainLookup]

theorem isLookupRequest_lowered (e : RpcError) : isLookupRequest e.lowered = isLookupRequest e := by
  rw [isLookupRequest, RpcError.lowered, Value.isNull_lowered, isOffchainLookup_lowered,
    isLookupRequest]

theorem isErrorResult_lowered (raw : Value) : isErrorResult raw.lowered = isErrorResult raw := by
  cases raw with
  | text s =>
    rw [Value.lowered, isErrorResult, Text.toList_lowered, hasSelector_map_toLower, isErrorResult]
  | _ => rw [Value.lowered] <;> simp [isErrorResult]

theorem reasonText_map_toLower (cs : List Char) :
    reasonText (cs.map Char.toLower) = reasonText cs := by
  rw [reasonText, Hex.unmarkChars_map_toLower, Hex.ofChars?_map_toLower, reasonText]

theorem decodeReason_lowered (raw : Value) : decodeReason raw.lowered = decodeReason raw := by
  cases raw with
  | text s =>
    have hcheck := isErrorResult_lowered (.text s)
    rw [Value.lowered] at hcheck ⊢
    rw [decodeReason, hcheck, Text.toList_lowered, ← List.map_drop, reasonText_map_toLower,
      decodeReason]
  | list items | tuple items | dict entries =>
    rw [Value.lowered]
    rfl
  | _ => rw [Value.lowered] <;> simp

theorem filter_isLookupRequest_lowered (error : Option RpcError) :
    (error.map RpcError.lowered).filter isLookupRequest =
      (error.filter isLookupRequest).map RpcError.lowered := by
  cases error with
  | none => rfl
  | some e =>
    rw [Option.map_some, Option.filter_some, Option.filter_some, isLookupRequest_lowered]
    split <;> rfl

theorem decode_lowered (response : CallResponse) :
    decode response.lowered = (decode response).map RevertOutcome.lowered := by
  have hdata : (response.error.map RpcError.lowered).elim .null RpcError.data =
      (response.error.elim .null RpcError.data).lowered := by
    cases response.error <;> simp [RpcError.lowered, Value.lowered]
  unfold decode
  rw [CallResponse.lowered, filter_isLookupRequest_lowered, hdata, isErrorResult_lowered,
    decodeReason_lowered]
  cases response.error.filter isLookupRequest with
  | some e => rfl
  | none =>
    simp only [Option.map_none]
    cases isErrorResult response.result with
    | error d => rfl
    | ok found =>
      cases found with
      | true => cases decodeReason response.result <;> rfl
      | false =>
        cases response.error with
        | some e => rfl
        | none =>
          simp [bind, Except.bind, Except.map, pure, Except.pure, RevertOutcome.lowered,
            Value.lowered]

/-- What a response is taken for, apart from the data that is handed on. -/
def verdict (outcome : RevertOutcome) : RevertKind × Value := (outcome.kind, outcome.reason)

theorem decode_lowered_verdict (response : CallResponse) :
    (decode response.lowered).map verdict = (decode response).map verdict := by
  rw [decode_lowered]
  cases decode response <;> rfl

end Revert

/-! ## Read calls -/

namespace Contract

variable {c : Contract} {f : Function} {request : TransactionRequest} {m m' : Memory}
  {es : List Exchange}

theorem resultOf_lowered (f : Function) (response : CallResponse) :
    (resultOf f response.lowered).classified =
      Outcome.classified ((resultOf f response).map Value.lowered) := by
  rw [resultOf, resultOf, Revert.decode_lowered]
  cases Revert.decode response with
  | error d => rfl
  | ok outcome =>
    have hkind : outcome.lowered.isReverted = outcome.isReverted := rfl
    simp only [Except.map, Outcome.ofDefect, bind, Except.bind, hkind]
    split
    · exact Outcome.classified_fail rfl rfl
    · rfl

/-- What each way to call a function for its results comes to. -/
structure Reads (c : Contract) (f : Function) (m : Memory) (es : List Exchange) (m' : Memory)
    (raw : Outcome Value) (results : Outcome (List TypedValue))
    (single : Option ReturnKind → Outcome (Option SingleResult)) : Prop where
  raw : (c.callRaw f).Path m es raw m'
  results : (c.call f).Path m es results m'
  single : ∀ expected, (c.callSingle f expected).Path m es (single expected) m'

def resultsOf (f : Function) (response : CallResponse) : Outcome (List TypedValue) :=
  resultOf f response >>= fun raw => Abi.decodeReturn raw f.outputs

theorem reads_of_reply {response : CallResponse} (hrequest : c.callRequest f = .ok request)
    (hreply : (c.manager.call request c.block).Path m es (.ok response) m') :
    c.Reads f m es m' (resultOf f response) (resultsOf f response)
      fun expected => resultsOf f response >>= fun results =>
        SingleResult.select results expected :=
  ⟨callRaw_path_of_reply hrequest hreply, call_path_of_reply hrequest hreply,
    callSingle_path_of_reply hrequest hreply⟩

theorem resultsOf_lowered (f : Function) (response : CallResponse) :
    (resultsOf f response.lowered).classified = (resultsOf f response).classified :=
  Outcome.classified_bind_map (resultOf_lowered f response) fun raw =>
    Abi.decodeReturn_lowered raw f.outputs

end Contract

/-- Logs that differ only in the case of letters in their topics and data show the same values, or
no event, or fail alike. Responses that differ only so in their result and in the data of their
error are taken for the same, with the same reason, and so read calls end alike. -/
theorem letter_case_is_immaterial :
    (∀ (e : Event) (log log' : Log), log.lowered = log'.lowered →
      (e.ofLog log).classified = (e.ofLog log').classified) ∧
    ∀ response response' : CallResponse, response.lowered = response'.lowered →
      (Revert.decode response).map Revert.verdict = (Revert.decode response').map Revert.verdict ∧
      (Revert.decode response).map RevertOutcome.isReverted =
        (Revert.decode response').map RevertOutcome.isReverted ∧
      ∀ (c : Contract) (f : Function) (request : TransactionRequest) (m m₁ m₁' : Memory)
        (es es' : List Exchange), c.callRequest f = .ok request →
        (c.manager.call request c.block).Path m es (.ok response) m₁ →
        (c.manager.call request c.block).Path m es' (.ok response') m₁' →
        ∃ raw raw' results results' single single',
          c.Reads f m es m₁ raw results single ∧ c.Reads f m es' m₁' raw' results' single' ∧
          Outcome.classified (raw.map Value.lowered) =
            Outcome.classified (raw'.map Value.lowered) ∧
          results.classified = results'.classified ∧
          ∀ expected, (single expected).classified = (single' expected).classified := by
  constructor
  · intro e log log' h
    rw [← Event.ofLog_lowered, h, Event.ofLog_lowered]
  · intro response response' h
    have hverdict : (Revert.decode response).map Revert.verdict =
        (Revert.decode response').map Revert.verdict := by
      rw [← Revert.decode_lowered_verdict, h, Revert.decode_lowered_verdict]
    have hreverted : ∀ r : Except Defect RevertOutcome, r.map RevertOutcome.isReverted =
        (r.map Revert.verdict).map fun verdict => verdict.1.isReverted := by
      intro r
      cases r <;> rfl
    refine ⟨hverdict, by rw [hreverted, hreverted, hverdict], ?_⟩
    intro c f request m m₁ m₁' es es' hrequest hreply hreply'
    have hresults : (Contract.resultsOf f response).classified =
        (Contract.resultsOf f response').classified := by
      rw [← Contract.resultsOf_lowered, h, Contract.resultsOf_lowered]
    refine ⟨_, _, _, _, _, _, Contract.reads_of_reply hrequest hreply,
      Contract.reads_of_reply hrequest hreply', ?_, hresults, fun expected => ?_⟩
    · rw [← Contract.resultOf_lowered, h, Contract.resultOf_lowered]
    · exact Outcome.classified_bind hresults fun _ => rfl

def capitalText (bs : List UInt8) : String := String.ofList ('0' :: 'X' :: Hex.chars bs)

theorem lowered_capitalText (bs : List UInt8) :
    Text.lowered (capitalText bs) = Text.lowered (Hex.markedText bs) := by
  rw [Text.lowered, Text.lowered, capitalText, Hex.markedText, String.toList_ofList,
    String.toList_ofList]
  rfl

def namedEvent : Event := ⟨"Named", [⟨"string", true⟩]⟩

def namedLog (first second : String) : Log := { topics := some [.text first, .text second] }

theorem ofLog_namedLog :
    namedEvent.ofLog (namedLog namedEvent.topic "0xab") =
      .ok (some ⟨[⟨"bytes32", .bytes [0xab]⟩], []⟩) := by
  have htopics : namedEvent.furtherTopics? (namedLog namedEvent.topic "0xab") =
      .ok (some [.text "0xab"]) := by
    rw [Event.furtherTopics?, namedLog]
    simp only [Event.isTopic_topic]
    rfl
  rw [Event.ofLog, htopics]
  rfl

def revertedResponse (selector : String) : CallResponse := { result := .text selector }

theorem resultsOf_reverted :
    (Contract.resultsOf (Contract.getter []) (revertedResponse "0x08c379a0")).classified =
      .error (.client .contractCall) := by
  have hdecode : Revert.decode (revertedResponse "0x08c379a0") =
      .ok ⟨.abiEncodedRevert, .null, .null⟩ := rfl
  rw [Contract.resultsOf, Contract.resultOf, hdecode]
  rfl

def getterReply (response : CallResponse) : List Exchange :=
  [.asked (.call (Contract.getterRequest []) Contract.reader.block) (.ok response)]

theorem getterReply_path (response : CallResponse) :
    (Contract.reader.manager.call (Contract.getterRequest []) Contract.reader.block).Path {}
      (getterReply response) (.ok response) {} := by
  rw [getterReply]
  exact Action.path_ask.mpr ⟨rfl, rfl⟩

theorem capital_letters_read :
    ((namedLog namedEvent.topic "0xab").lowered =
        (namedLog (capitalText (signatureHash namedEvent.signature)) "0XAB").lowered ∧
      namedEvent.ofLog (namedLog (capitalText (signatureHash namedEvent.signature)) "0XAB") =
        .ok (some ⟨[⟨"bytes32", .bytes [0xab]⟩], []⟩)) ∧
    (revertedResponse "0x08c379a0").lowered = (revertedResponse "0X08C379A0").lowered ∧
      ∃ results, (Contract.reader.call (Contract.getter [])).Path {}
          (getterReply (revertedResponse "0X08C379A0")) results {} ∧
        Outcome.classified results = .error (.client .contractCall) := by
  obtain ⟨hlogs, hresponses⟩ := letter_case_is_immaterial
  have hlog : (namedLog namedEvent.topic "0xab").lowered =
      (namedLog (capitalText (signatureHash namedEvent.signature)) "0XAB").lowered := by
    have hdata : Text.lowered "0xab" = Text.lowered "0XAB" := by decide
    simp only [namedLog, Log.lowered, Option.map_some, List.map_cons, List.map_nil, Value.lowered,
      lowered_capitalText, Event.topic, hdata]
  have hresponse : (revertedResponse "0x08c379a0").lowered =
      (revertedResponse "0X08C379A0").lowered := by
    have hselector : Text.lowered "0x08c379a0" = Text.lowered "0X08C379A0" := by decide
    simp only [revertedResponse, CallResponse.lowered, Value.lowered, hselector, Option.map_none]
  have hread := hlogs namedEvent _ _ hlog
  rw [ofLog_namedLog] at hread
  have hrequest := Contract.callRequest_getter []
  obtain ⟨_, _, hcall⟩ := hresponses _ _ hresponse
  obtain ⟨_, _, results, results', _, _, hreads, hreads', _, hresults, _⟩ :=
    hcall Contract.reader (Contract.getter []) (Contract.getterRequest []) {} {} {} _ _
      hrequest (getterReply_path _) (getterReply_path _)
  have hplain := Contract.call_path_of_reply hrequest
    (getterReply_path (revertedResponse "0x08c379a0"))
  refine ⟨⟨hlog, ?_⟩, hresponse, results', hreads'.results, ?_⟩
  · cases hfound : namedEvent.ofLog
        (namedLog (capitalText (signatureHash namedEvent.signature)) "0XAB") with
    | error failure =>
      rw [hfound] at hread
      cases hread
    | ok found =>
      rw [hfound] at hread
      cases hread
      rfl
  · rw [← List.append_nil (getterReply _)] at hplain
    cases (Program.path_unique _ _ _ _ _ hreads.results hplain).2
    rw [← hresults]
    exact resultsOf_reverted

end EvmClient
