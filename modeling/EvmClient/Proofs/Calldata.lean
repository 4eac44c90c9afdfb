import EvmClient.Proofs.Abi.Admission
import EvmClient.Proofs.Abi.Arguments
import EvmClient.Proofs.Binding

/-!
# The form of encoded arguments

Arguments of readable types either fit their types or they do not. If they fit, a call carries the
selector and whole words, a constructor whole words, and code with them behind it stays valid; if
they do not, both encodings end with the same validation error. The main statement is
`Abi.encodes_or_refuses`.
-/

set_option autoImplicit false

namespace EvmClient

def Function.inputValues (f : Function) : List Value := f.inputs.map TypedValue.value

namespace Abi

variable {args : List TypedValue} {types : List AbiType} {f : Function} {bs : List UInt8}

/-! ## Outcomes of an encoding -/

def misfit (args : List TypedValue) : Failure :=
  .client (.validation (.arguments (args.map TypedValue.type) .misfit))

theorem encodeArguments_of_fits (htypes : AbiType.ofTexts (args.map TypedValue.type) = .ok types)
    (hbs : AbiType.encodeAll? types (args.map TypedValue.value) = some bs)
    (hsmall : bs.length < lengthBound) : encodeArguments args = .ok bs := by
  unfold encodeArguments
  simp only [htypes, hbs, if_pos hsmall]

theorem encodeArguments_of_misfit
    (htypes : AbiType.ofTexts (args.map TypedValue.type) = .ok types)
    (h : ¬AbiType.AdmitsEach types (args.map TypedValue.value)) :
    encodeArguments args = .error (misfit args) := by
  have hnone : AbiType.encodeAll? types (args.map TypedValue.value) = none := by
    cases hencode : AbiType.encodeAll? types (args.map TypedValue.value) with
    | none => rfl
    | some bs => exact absurd (AbiType.exists_encodeAll_iff.mp ⟨bs, hencode⟩) h
  unfold encodeArguments
  simp only [htypes, hnone]
  rfl

theorem encodeArguments_of_oversized
    (htypes : AbiType.ofTexts (args.map TypedValue.type) = .ok types)
    (hbs : AbiType.encodeAll? types (args.map TypedValue.value) = some bs)
    (hlarge : ¬bs.length < lengthBound) :
    encodeArguments args = .error (Failure.ofDefect .tooLarge) ∧
      Nat.pow 2 56 ≤ Value.extents (args.map TypedValue.value) := by
  constructor
  · unfold encodeArguments
    simp only [htypes, hbs, if_neg hlarge]
  · have hle := (AbiType.areSized_encodeAll (ofTexts_wellFormed htypes).2 hbs).bounded
    have hbound : 96 * Nat.pow 2 56 ≤ lengthBound := by decide
    omega

theorem encodeConstructor_eq (htypes : AbiType.ofTexts (args.map TypedValue.type) = .ok types) :
    encodeConstructor args = (encodeArguments args).map Hex.encode := by
  cases args with
  | nil => rfl
  | cons a args =>
    unfold encodeConstructor
    cases encodeArguments (a :: args) <;> rfl

theorem encodeCall_eq (f : Function) :
    encodeCall f =
      (encodeArguments f.inputs).map fun bs => Hex.markedText (f.selector ++ bs) := by
  unfold encodeCall
  cases encodeArguments f.inputs <;> rfl

/-! ## Their form -/

/-- The mark, and behind it digits in lower case: those of the selector, then whole words. -/
def IsCalldata (f : Function) (data : String) : Prop :=
  ∃ digits k, data.toList = '0' :: 'x' :: digits ∧ digits.length = 8 + 64 * k ∧
    (∀ c ∈ digits, c ∈ Hex.lowerDigits) ∧ digits.take 8 = Hex.chars f.selector

structure IsConstructorData (data : String) : Prop where
  whole : ∃ k, data.toList.length = 64 * k
  lower : ∀ c ∈ data.toList, c ∈ Hex.lowerDigits

/-- Behind code of whole bytes it makes a valid payload, also that of a deployment. -/
def Completes (data : String) : Prop :=
  ∀ binary : HexText, binary.digits.length % 2 = 0 →
    let joined := Value.text ("0x" ++ String.ofList (binary.digits ++ data.toList))
    (∀ field, Input.hex joined field = .ok joined) ∧
      Deployment.payload (.text binary.text) (.text data) = .ok joined

theorem length_chars_of_dvd (h : wordLength ∣ bs.length) : ∃ k, (Hex.chars bs).length = 64 * k := by
  obtain ⟨k, hk⟩ := h
  refine ⟨k, ?_⟩
  rw [Hex.length_chars, hk, wordLength]
  omega

theorem isCalldata_markedText (f : Function) (h : wordLength ∣ bs.length) :
    IsCalldata f (Hex.markedText (f.selector ++ bs)) := by
  obtain ⟨k, hk⟩ := length_chars_of_dvd h
  have hselector : (Hex.chars f.selector).length = 8 := by
    rw [Hex.length_chars, length_selector]
  refine ⟨Hex.chars (f.selector ++ bs), k, String.toList_ofList, ?_, ?_, ?_⟩
  · rw [Hex.chars_append, List.length_append, hselector, hk]
  · exact fun c hc => Hex.mem_lowerDigits_of_mem_chars hc
  · rw [Hex.chars_append, List.take_left' hselector]

theorem isConstructorData_encode (h : wordLength ∣ bs.length) :
    IsConstructorData (Hex.encode bs) := by
  constructor <;> rw [Hex.encode, String.toList_ofList]
  · exact length_chars_of_dvd h
  · exact fun c hc => Hex.mem_lowerDigits_of_mem_chars hc

theorem IsConstructorData.completes {data : String} (h : IsConstructorData data) :
    Completes data := by
  intro binary heven joined
  obtain ⟨k, hk⟩ := h.whole
  have hdata : ∀ c ∈ data.toList, Hex.isDigit c = true := fun c hc =>
    Hex.isDigit_of_mem_lowerDigits (h.lower c hc)
  have hdigits : ∀ c ∈ binary.digits ++ data.toList, Hex.isDigit c = true := by
    intro c hc
    obtain hc | hc := List.mem_append.mp hc
    · exact binary.areDigits c hc
    · exact hdata c hc
  have hjoined : (binary.digits ++ data.toList).length % 2 = 0 := by
    rw [List.length_append, hk]
    omega
  have hvalid : ∀ field, Input.hex joined field = .ok joined := fun field =>
    Input.hex_of_even hdigits hjoined
  have hunmarked : Deployment.unmarked (.text data) = .ok (String.ofList data.toList) := by
    have htext := HexText.unmarked_text ⟨[], data.toList, by simp, hdata⟩
    rw [HexText.text, List.nil_append, String.ofList_toList] at htext
    rw [htext, String.ofList_toList]
  have hmark := HexText.not_isMarked ⟨[], _, by simp, hdigits⟩
  refine ⟨hvalid, ?_⟩
  rw [Deployment.payload_of_unmarked binary.unmarked_text hunmarked hmark]
  exact hvalid "binary"

/-- Arguments of readable types that fit them are encoded in the form of calldata, and all others
end with a validation error. Only arguments of `2 ^ 56` values and bytes, which no memory holds,
can have an encoding that is too large to be made. -/
theorem encodes_or_refuses (htypes : AbiType.ofTexts f.inputTypes = .ok types) :
    (AbiType.AdmitsEach types f.inputValues ∧
        (∃ data, encodeCall f = .ok data ∧ IsCalldata f data) ∧
        ∃ data, encodeConstructor f.inputs = .ok data ∧ IsConstructorData data ∧
          Completes data) ∨
      (¬AbiType.AdmitsEach types f.inputValues ∧
        encodeCall f = .error (misfit f.inputs) ∧
        encodeConstructor f.inputs = .error (misfit f.inputs)) ∨
      (AbiType.AdmitsEach types f.inputValues ∧ Nat.pow 2 56 ≤ Value.extents f.inputValues ∧
        encodeCall f = .error (Failure.ofDefect .tooLarge) ∧
        encodeConstructor f.inputs = .error (Failure.ofDefect .tooLarge)) := by
  rw [encodeCall_eq, encodeConstructor_eq htypes]
  by_cases hfits : AbiType.AdmitsEach types f.inputValues
  · obtain ⟨bs, hbs⟩ := AbiType.exists_encodeAll_iff.mpr hfits
    by_cases hsmall : bs.length < lengthBound
    · have hwords := (AbiType.areSized_encodeAll (ofTexts_wellFormed htypes).2 hbs).whole
      have hdata := isConstructorData_encode hwords
      rw [encodeArguments_of_fits htypes hbs hsmall]
      exact .inl ⟨hfits, ⟨_, rfl, isCalldata_markedText f hwords⟩, _, rfl, hdata, hdata.completes⟩
    · obtain ⟨herror, hsize⟩ := encodeArguments_of_oversized htypes hbs hsmall
      rw [herror]
      exact .inr (.inr ⟨hfits, hsize, rfl, rfl⟩)
  · rw [encodeArguments_of_misfit htypes hfits]
    exact .inr (.inl ⟨hfits, rfl, rfl⟩)

theorem ofText_address : AbiType.ofText "address" = .ok .address := by
  have htokens : TypeExpr.tokens? "address".toList = some [.word "address" .absent] := by
    decide +kernel
  exact ofText_eq_ok htokens rfl (by decide +kernel) rfl

theorem nestedArguments_types :
    AbiType.ofTexts (nestedArguments.map TypedValue.type) =
      .ok [.array (.tuple [.address, .string, .int 16]) none,
        .array (.fixedBytes 4) (some 2)] := by
  simp only [AbiType.ofTexts, nestedArguments, List.map_cons, List.map_nil, List.mapM_cons,
    List.mapM_nil, nestedArguments_tuples, nestedArguments_words]
  rfl

theorem nested_call_encoded_bad_recipient_refused :
    (∃ data, encodeCall ⟨"store", nestedArguments, []⟩ = .ok data ∧
        IsCalldata ⟨"store", nestedArguments, []⟩ data) ∧
      encodeCall ⟨"transfer", [⟨"address", .text "not-an-address"⟩], []⟩ =
        .error (misfit [⟨"address", .text "not-an-address"⟩]) := by
  have htypes : AbiType.ofTexts ["address"] = .ok [.address] := by
    simp only [AbiType.ofTexts, List.mapM_cons, List.mapM_nil, ofText_address]
    rfl
  constructor
  · obtain ⟨bs, hbs⟩ := nestedArguments_encoded
    have hcall := encodeCall_eq ⟨"store", nestedArguments, []⟩
    rw [hbs] at hcall
    obtain ⟨_, hdata, _⟩ | ⟨_, herror, _⟩ | ⟨_, _, herror, _⟩ :=
      encodes_or_refuses (f := ⟨"store", nestedArguments, []⟩) nestedArguments_types
    · exact hdata
    · cases hcall.symm.trans herror
    · cases hcall.symm.trans herror
  · obtain ⟨hfits, _⟩ | ⟨_, herror, _⟩ | ⟨_, hsize, _⟩ :=
      encodes_or_refuses (f := ⟨"transfer", [⟨"address", .text "not-an-address"⟩], []⟩) htypes
    · have haddress := (AbiType.admitsEach_cons.mp hfits).1
      cases haddress with
      | addressText h =>
        have hnone : Address.ofText? "not-an-address" = none := by decide +kernel
        cases hnone.symm.trans h
    · exact herror
    · exact absurd hsize (by decide +kernel)

end Abi
end EvmClient
