import EvmClient.Contract.Call
import EvmClient.Proofs.Abi.Arguments
import EvmClient.Proofs.Abi.Leading
import EvmClient.Proofs.Path
import EvmClient.Proofs.Revert

/-!
# Read calls

A read call gives back what the contract returned, value by value, unless the data begins as that of
a revert does. Then it gives no values at all. The types of the results tell whether their data can
begin so: only a number of a whole word, or four fixed bytes or more, can be in front of it.
-/

set_option autoImplicit false

namespace EvmClient.Contract

open Revert

variable {c : Contract} {f : Function} {request : TransactionRequest} {m m₁ m' : Memory}
  {es rest : List Exchange}

section

variable {response : CallResponse} (hrequest : c.callRequest f = .ok request)
  (hreply : (c.manager.call request c.block).Path m es (.ok response) m₁)
include hrequest hreply

theorem callRaw_path_of_reply : (c.callRaw f).Path m es (resultOf f response) m₁ := by
  unfold callRaw
  apply Action.path_ofOutcome_bind.mpr
  exact .inr ⟨request, hrequest,
    (Action.path_bind_of_ofOutcome fun _ => rfl).mpr ⟨.ok response, hreply, rfl⟩⟩

theorem call_path_of_reply :
    (c.call f).Path m es
      (resultOf f response >>= fun raw => Abi.decodeReturn raw f.outputs) m₁ :=
  (Action.path_bind_of_ofOutcome fun _ => rfl).mpr
    ⟨resultOf f response, callRaw_path_of_reply hrequest hreply, rfl⟩

theorem callSingle_path_of_reply (expected : Option ReturnKind) :
    (c.callSingle f expected).Path m es
      (resultOf f response >>= (fun raw => Abi.decodeReturn raw f.outputs) >>= fun results =>
        SingleResult.select results expected) m₁ :=
  (Action.path_bind_of_ofOutcome fun _ => rfl).mpr
    ⟨_, call_path_of_reply hrequest hreply, rfl⟩

end

section

variable {text : String} {bs : List UInt8} (htext : Hex.IsMarkedText text bs)
include htext

theorem resultOf_of_other_data (h : ¬errorCode <+: bs) :
    resultOf f { result := .text text } = .ok (.text text) := by
  have hsel : hasSelector errorSelector text.toList = false := by
    rw [errorSelector_eq, ← Bool.not_eq_true, hasSelector_iff htext]
    exact h
  rw [resultOf, decode_text, hsel]
  rfl

theorem resultOf_of_errorCode (h : errorCode <+: bs) :
    (IsOverlong (bs.drop errorCode.length) ∧
        resultOf f { result := .text text } = .error (Failure.ofDefect .tooLarge)) ∨
      ¬IsOverlong (bs.drop errorCode.length) ∧ ∃ reason,
        resultOf f { result := .text text } =
          .error (.client (.contractCall (.reverted f.name reason .null))) := by
  have hsel : hasSelector errorSelector text.toList = true := by
    rw [errorSelector_eq, hasSelector_iff htext]
    exact h
  have hpayload := payload?_of_marked htext
  rw [resultOf, decode_text, if_pos hsel]
  by_cases ho : IsOverlong (bs.drop errorCode.length)
  · rw [reasonText_of_overlong hpayload ho]
    exact .inl ⟨ho, rfl⟩
  · obtain ⟨reason, hreason, hwrite⟩ := reasonText_of_not_overlong hpayload ho
    have hmessage : (ClientError.contractCall (.reverted f.name reason .null)).message?.isSome =
        true := by
      rw [ClientError.message?, ContractCallCause.message?, Option.isSome_map, hwrite]
    have hfail : (fail (.contractCall (.reverted f.name reason .null)) : Outcome Value) =
        .error (.client (.contractCall (.reverted f.name reason .null))) := by
      rw [fail, Failure.ofError, if_pos hmessage]
    rw [hreason]
    exact .inr ⟨ho, reason, hfail⟩

end

/-- What a contract returned is what a read call gives, unless it begins as a revert does. -/
theorem call_returns_results (c : Contract) (f : Function) (results : List TypedValue)
    (request : TransactionRequest) (text : String) (bs : List UInt8) (m m₁ m' : Memory)
    (es rest : List Exchange) (r : Except Failure (List TypedValue))
    (houtputs : f.outputs = results.map TypedValue.type)
    (hbs : Abi.encodeArguments results = .ok bs) (htext : Hex.IsMarkedText text bs)
    (hrequest : c.callRequest f = .ok request)
    (hreply : (c.manager.call request c.block).Path m es (.ok { result := .text text }) m₁)
    (h : (c.call f).Path m (es ++ rest) r m') :
    rest = [] ∧ m' = m₁ ∧
      (¬errorCode <+: bs → r = .ok (results.map TypedValue.canonical)) ∧
      (errorCode <+: bs →
        (∃ failure, r = .error failure) ∧
        (¬IsOverlong (bs.drop errorCode.length) → ∃ reason,
          r = .error (.client (.contractCall (.reverted f.name reason .null)))) ∧
        ∃ types front, AbiType.ofTexts f.outputs = .ok types ∧
          AbiType.frontOf? types = some front ∧ front.IsWide errorCode.length) := by
  obtain ⟨hrest, heq⟩ := Program.path_unique _ _ _ _ _ (call_path_of_reply hrequest hreply) h
  cases heq
  refine ⟨hrest, rfl, ?_, ?_⟩
  · intro hcode
    rw [resultOf_of_other_data htext hcode, houtputs]
    exact Abi.decodeReturn_of_dataBytes hbs (Abi.dataBytes_of_decode? htext.2)
  · intro hcode
    refine ⟨?_, ?_, ?_⟩
    · obtain ⟨_, hr⟩ | ⟨_, reason, hr⟩ := resultOf_of_errorCode htext hcode
      · exact ⟨_, by rw [hr]; rfl⟩
      · exact ⟨_, by rw [hr]; rfl⟩
    · intro hshort
      obtain ⟨reason, hr⟩ :=
        ((resultOf_of_errorCode htext hcode).resolve_left fun ho => hshort ho.1).2
      exact ⟨reason, by rw [hr]; rfl⟩
    · obtain ⟨types, htypes, hencode, hsmall⟩ := Abi.encodeArguments_eq_ok hbs
      have hbegin : (0x08 : UInt8) :: [0xc3, 0x79] ++ [0xa0] <+: bs := hcode
      obtain ⟨front, hfront, hwide⟩ := AbiType.front_isWide_of_encodeAll
        (Abi.ofTexts_wellFormed htypes).2 hencode hsmall (by decide) (by decide) (by decide)
        (by decide) hbegin
      rw [houtputs]
      exact ⟨types, front, htypes, hfront, hwide⟩

def reader : Contract where
  kind := {}
  manager := .inMemory (.text "0x01")
  address := .text "0x02"
  binary := .null
  strategy := none

def getter (results : List TypedValue) : Function :=
  ⟨"get", [], results.map TypedValue.type⟩

def getterRequest (results : List TypedValue) : TransactionRequest where
  sender := .text "0x01"
  recipient := .text "0x02"
  data := .text (Hex.markedText (getter results).selector)

theorem callRequest_getter (results : List TypedValue) :
    reader.callRequest (getter results) = .ok (getterRequest results) := by
  have hdata : Abi.encodeCall (getter results) =
      .ok (Hex.markedText ((getter results).selector ++ [])) := rfl
  rw [callRequest, hdata, List.append_nil]
  rfl

theorem nested_results_returned :
    ∃ es m', (reader.call (getter Abi.nestedArguments)).Path {} es (.ok Abi.nestedResults) m' := by
  obtain ⟨bs, hbs⟩ := Abi.nestedArguments_encoded
  have hreply : (reader.manager.call (getterRequest Abi.nestedArguments) reader.block).Path {} _
      (.ok { result := .text (Hex.markedText bs) }) {} := Action.path_ask.mpr ⟨rfl, rfl⟩
  have h := call_path_of_reply (callRequest_getter Abi.nestedArguments) hreply
  rw [← List.append_nil [_]] at h
  obtain ⟨_, _, hother, hcode⟩ := call_returns_results reader (getter Abi.nestedArguments)
    Abi.nestedArguments (getterRequest Abi.nestedArguments) (Hex.markedText bs) bs {} {} {} _ [] _
    rfl hbs (Hex.isMarkedText_markedText bs)
    (callRequest_getter Abi.nestedArguments) hreply h
  rw [Abi.nestedArguments_canonical] at hother
  rw [hother] at h
  · exact ⟨_, _, h⟩
  · -- an array of dynamic length is in front, so the data begins with an offset
    intro hbegin
    obtain ⟨_, _, types, front, htypes, hfront, _⟩ := hcode hbegin
    obtain ⟨t, ts, rfl, ht, _⟩ := Abi.ofTexts_cons htypes
    rw [Abi.nestedArguments_tuples] at ht
    cases ht
    cases hfront

def codeResults : List TypedValue := [⟨"bytes4", .bytes errorCode⟩]

def codeData : List UInt8 := errorCode ++ List.replicate 28 0

theorem codeResults_encoded : Abi.encodeArguments codeResults = .ok codeData := by
  have htokens : TypeExpr.tokens? "bytes4".toList = some [.word "bytes" (.width 4)] := by
    decide +kernel
  have htype : AbiType.ofText "bytes4" = .ok (.fixedBytes 4) :=
    Abi.ofText_eq_ok htokens rfl (by decide +kernel) rfl
  have htypes : AbiType.ofTexts (codeResults.map TypedValue.type) = .ok [.fixedBytes 4] :=
    Abi.ofTexts_singleton htype
  rw [Abi.encodeArguments, htypes]
  rfl

theorem code_result_not_returned :
    Abi.encodeArguments codeResults = .ok codeData ∧
      Hex.IsMarkedText (Hex.markedText codeData) codeData ∧
      reader.callRequest (getter codeResults) = .ok (getterRequest codeResults) ∧
      ∃ es reason,
        (reader.manager.call (getterRequest codeResults) reader.block).Path {} es
          (.ok { result := .text (Hex.markedText codeData) }) {} ∧
        (reader.call (getter codeResults)).Path {} es
          (.error (.client (.contractCall (.reverted "get" reason .null)))) {} := by
  have hmarked := Hex.isMarkedText_markedText codeData
  have hrequest := callRequest_getter codeResults
  have hreply : (reader.manager.call (getterRequest codeResults) reader.block).Path {} _
      (.ok { result := .text (Hex.markedText codeData) }) {} := Action.path_ask.mpr ⟨rfl, rfl⟩
  have h := call_path_of_reply hrequest hreply
  refine ⟨codeResults_encoded, hmarked, hrequest, ?_⟩
  have hshort : ¬IsOverlong (codeData.drop errorCode.length) := by
    intro hx
    obtain ⟨offset, rest, n, rest', ho, _⟩ := hx
    cases ho
  obtain ⟨ho, _⟩ | ⟨_, reason, hr⟩ :=
    resultOf_of_errorCode (f := getter codeResults) hmarked (List.prefix_append _ _)
  · exact absurd ho hshort
  · rw [hr] at h
    exact ⟨_, reason, hreply, h⟩

end EvmClient.Contract
