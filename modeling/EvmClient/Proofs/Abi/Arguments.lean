import EvmClient.Abi.Descriptor
import EvmClient.Proofs.Abi.RoundTrip

/-!
# Arguments read back

The arguments of a constructor and of a call come back from their data as they were, with canonical
values; the main statement is `Abi.decodeReturn_encode`. Nothing is assumed of the arguments but
that they were encoded: the types of their texts are well-formed then, and the data is not empty.
-/

set_option autoImplicit false

namespace EvmClient

def TypedValue.canonical (a : TypedValue) : TypedValue :=
  match AbiType.ofText a.type with
  | .ok t => { a with value := t.canonical a.value }
  | .error _ => a

theorem TypedValue.type_canonical (a : TypedValue) : a.canonical.type = a.type := by
  unfold canonical
  split <;> rfl

namespace Abi

variable {args : List TypedValue} {types : List AbiType} {bs : List UInt8}

theorem ofTexts_cons {s : String} {texts : List String}
    (h : AbiType.ofTexts (s :: texts) = .ok types) :
    ∃ t ts, types = t :: ts ∧ AbiType.ofText s = .ok t ∧ AbiType.ofTexts texts = .ok ts := by
  rw [AbiType.ofTexts, List.mapM_cons] at h
  obtain ⟨t, ht, h⟩ := bind_eq_ok.mp h
  obtain ⟨ts, hts, h⟩ := bind_eq_ok.mp h
  cases h
  exact ⟨t, ts, rfl, ht, hts⟩

theorem ofTexts_singleton {s : String} {t : AbiType} (h : AbiType.ofText s = .ok t) :
    AbiType.ofTexts [s] = .ok [t] := by
  simp only [AbiType.ofTexts, List.mapM_cons, List.mapM_nil, h]
  rfl

theorem ofTexts_wellFormed {texts : List String} (h : AbiType.ofTexts texts = .ok types) :
    types.length = texts.length ∧ ∀ t ∈ types, t.WellFormed := by
  induction texts generalizing types with
  | nil =>
    cases h
    simp
  | cons s texts ih =>
    obtain ⟨t, ts, rfl, ht, hts⟩ := ofTexts_cons h
    obtain ⟨hlength, hwell⟩ := ih hts
    refine ⟨by simp [hlength], ?_⟩
    intro u hu
    obtain rfl | hu := List.mem_cons.mp hu
    · exact AbiType.ofText_wellFormed ht
    · exact hwell u hu

theorem canonicalEach_values (h : AbiType.ofTexts (args.map TypedValue.type) = .ok types) :
    AbiType.canonicalEach types (args.map TypedValue.value) =
      (args.map TypedValue.canonical).map TypedValue.value := by
  induction args generalizing types with
  | nil =>
    cases h
    rfl
  | cons a args ih =>
    obtain ⟨t, ts, rfl, ht, hts⟩ := ofTexts_cons h
    have ha : a.canonical.value = t.canonical a.value := by
      rw [TypedValue.canonical, ht]
    rw [List.map_cons, AbiType.canonicalEach, ih hts, List.map_cons, List.map_cons, ha]

theorem zipWith_canonical (args : List TypedValue) :
    List.zipWith TypedValue.mk (args.map TypedValue.type)
        ((args.map TypedValue.canonical).map TypedValue.value) =
      args.map TypedValue.canonical := by
  induction args with
  | nil => rfl
  | cons a args ih =>
    rw [List.map_cons, List.map_cons, List.map_cons, List.zipWith_cons_cons, ih,
      ← a.type_canonical]

theorem encodeArguments_eq_ok (h : encodeArguments args = .ok bs) :
    ∃ types, AbiType.ofTexts (args.map TypedValue.type) = .ok types ∧
      AbiType.encodeAll? types (args.map TypedValue.value) = some bs ∧
      bs.length < lengthBound := by
  unfold encodeArguments at h
  dsimp only at h
  split at h
  · rename_i types htypes
    split at h
    · rename_i bs' hbs
      by_cases hsmall : bs'.length < lengthBound
      · rw [if_pos hsmall] at h
        cases h
        exact ⟨types, htypes, hbs, hsmall⟩
      · rw [if_neg hsmall] at h
        cases h
    · exact absurd h fail_ne_ok
  · cases h
  · cases h
  · exact absurd h fail_ne_ok

theorem encodeArguments_ne_nil (hargs : args ≠ []) (h : encodeArguments args = .ok bs) :
    bs ≠ [] := by
  obtain ⟨types, htypes, hencode, _⟩ := encodeArguments_eq_ok h
  obtain ⟨parts, hparts, rfl⟩ := Option.map_eq_some_iff.mp hencode
  obtain ⟨hlength, hwell⟩ := ofTexts_wellFormed htypes
  have hsequence := AbiType.length_sequence hwell
    (fun t ht v bs => AbiType.length_encode (hwell t ht)) hparts
  have hpos := List.length_pos_iff.mpr hargs
  intro hnil
  rw [hnil, hlength, List.length_map] at hsequence
  simp only [wordLength, List.length_nil] at hsequence
  omega

theorem decodeValues_of_encode (h : encodeArguments args = .ok bs) (mismatch : ClientError) :
    decodeValues (args.map TypedValue.type) bs mismatch =
      .ok ((args.map TypedValue.canonical).map TypedValue.value) := by
  obtain ⟨types, htypes, hencode, hsmall⟩ := encodeArguments_eq_ok h
  have hdecode := AbiType.decodeAll_encodeAll (ofTexts_wellFormed htypes).2 hencode hsmall
  rw [decodeValues, htypes]
  simp only [bind, Except.bind, Outcome.ofDefect, hdecode, canonicalEach_values htypes]

/-- Only the types that the texts name matter, and the kind of the error for data that does not
match. -/
theorem decodeValues_classified {texts texts' : List String}
    (htexts : AbiType.ofTexts texts = AbiType.ofTexts texts') (bs : List UInt8)
    {e e' : ClientError} (hfamily : e.family = e'.family)
    (hmessage : e.message?.isSome = e'.message?.isSome) :
    (decodeValues texts bs e).classified = (decodeValues texts' bs e').classified := by
  unfold decodeValues
  rw [htexts]
  refine Outcome.classified_bind rfl fun types => ?_
  split
  · rfl
  · split
    · rfl
    · exact Outcome.classified_fail hfamily hmessage

theorem decodeReturn_of_dataBytes (h : encodeArguments args = .ok bs) {data : Value}
    (hdata : dataBytes data = .ok bs) :
    decodeReturn data (args.map TypedValue.type) = .ok (args.map TypedValue.canonical) := by
  rw [decodeReturn, hdata]
  cases args with
  | nil =>
    simp only [bind, Except.bind, List.map_nil, List.isEmpty_nil, Bool.or_true, if_true]
    rfl
  | cons a args =>
    have hempty : (bs.isEmpty || ((a :: args).map TypedValue.type).isEmpty) = false := by
      simp [encodeArguments_ne_nil (List.cons_ne_nil a args) h]
    simp only [bind, Except.bind, hempty, Bool.false_eq_true, if_false, decodeValues_of_encode h]
    exact congrArg Except.ok (zipWith_canonical (a :: args))

theorem dataBytes_of_decode? {s : String} (h : Hex.decode? s = some bs) :
    dataBytes (.text s) = .ok bs := by
  unfold dataBytes
  by_cases hs : Value.isTruthy (.text s) = true
  · simp only [if_pos hs, h, Option.elim_some]
  · rw [if_neg hs]
    have hempty : s = "" := by simpa [Value.isTruthy] using hs
    rw [hempty] at h
    cases h
    rfl

theorem dataBytes_text {s : String} (h : Hex.unmarkChars s.toList = Hex.chars bs) :
    dataBytes (.text s) = .ok bs := by
  apply dataBytes_of_decode?
  rw [Hex.decode?, h, Hex.ofChars?_chars]

theorem dataBytes_encode (bs : List UInt8) : dataBytes (.text (Hex.encode bs)) = .ok bs := by
  refine dataBytes_text ?_
  rw [Hex.encode, String.toList_ofList, Hex.unmarkChars_of_not_isMarked Hex.not_isMarked_chars]

theorem dataBytes_marked (bs : List UInt8) :
    dataBytes (.text ("0x" ++ Hex.encode bs)) = .ok bs := by
  have hmark : "0x".toList = ['0', 'x'] := rfl
  refine dataBytes_text ?_
  rw [String.toList_append, hmark, Hex.encode, String.toList_ofList]
  rfl

theorem length_selector (f : Function) : f.selector.length = 4 := by
  have hlength : (signatureHash f.signature).length = 32 := Keccak.length_hash _
  rw [Function.selector, List.length_take, hlength]
  rfl

theorem drop_markedText {selector : List UInt8} (h : selector.length = 4) :
    String.ofList ((Hex.markedText (selector ++ bs)).toList.drop 10) = Hex.encode bs := by
  have hlength : ('0' :: 'x' :: Hex.chars selector).length = 10 := by
    simp [Hex.length_chars, h]
  rw [Hex.markedText, String.toList_ofList, Hex.chars_append, ← List.cons_append,
    ← List.cons_append, List.drop_left' hlength, Hex.encode]

/-- Decoding undoes encoding: what was encoded for a constructor comes back argument by argument,
and so does what a call carries behind the mark and the selector. -/
theorem decodeReturn_encode (hargs : args ≠ []) :
    (∀ text, encodeConstructor args = .ok text →
        decodeReturn (.text ("0x" ++ text)) (args.map TypedValue.type) =
          .ok (args.map TypedValue.canonical)) ∧
      ∀ f text, f.inputs = args → encodeCall f = .ok text →
        decodeReturn (.text (String.ofList (text.toList.drop 10))) f.inputTypes =
          .ok (args.map TypedValue.canonical) := by
  constructor
  · intro text h
    rw [encodeConstructor, if_neg (by simpa using hargs)] at h
    obtain ⟨bs, hbs, h⟩ := bind_eq_ok.mp h
    cases h
    exact decodeReturn_of_dataBytes hbs (dataBytes_marked bs)
  · intro f text hf h
    rw [encodeCall, hf] at h
    obtain ⟨bs, hbs, h⟩ := bind_eq_ok.mp h
    cases h
    rw [Function.inputTypes, hf, drop_markedText (length_selector f)]
    exact decodeReturn_of_dataBytes hbs (dataBytes_encode bs)

/-! ## Nested arguments -/

theorem ofText_eq_ok {s : String} {tokens : List TypeExpr.Token} {e : TypeExpr} {t : AbiType}
    (htokens : TypeExpr.tokens? s.toList = some tokens)
    (he : TypeExpr.ofTokens? tokens = some e) (hreadable : e.isReadable = true)
    (ht : e.resolve = .ok t) : AbiType.ofText s = .ok t := by
  have hread : TypeExpr.read? s = some e := by
    rw [TypeExpr.read?, htokens, Option.bind_some, he]
  rw [AbiType.ofText, hread]
  simp only [hreadable, if_true, ht]

theorem ofText_string : AbiType.ofText "string" = .ok .string := by
  have htokens : TypeExpr.tokens? "string".toList = some [.word "string" .absent] := by
    decide +kernel
  exact ofText_eq_ok htokens rfl (by decide +kernel) rfl

theorem decodeAll_text {s : String} (h : encodeArguments [⟨"string", .text s⟩] = .ok bs) :
    AbiType.decodeAll [.string] bs = .ok [.text s] := by
  obtain ⟨types, htypes, hencode, hsmall⟩ := encodeArguments_eq_ok h
  obtain ⟨t, ts, rfl, ht, hts⟩ := ofTexts_cons htypes
  rw [ofText_string] at ht
  cases ht
  cases hts
  exact AbiType.decodeAll_encodeAll (ofTexts_wellFormed htypes).2 hencode hsmall

def nestedArguments : List TypedValue :=
  [⟨"(address,string,int16)[]",
      .list [.tuple [.text "abcdefabcdef0123456789abcdefabcdef012345", .text "first", .int (-2)],
        .list [.bytes (List.replicate 20 255), .text "", .int 300]]⟩,
    ⟨"bytes4[2]", .tuple [.bytes [1, 2], .bytes []]⟩]

def nestedResults : List TypedValue :=
  [⟨"(address,string,int16)[]",
      .tuple [.tuple [.text "0xabcdefabcdef0123456789abcdefabcdef012345", .text "first", .int (-2)],
        .tuple [.text "0xffffffffffffffffffffffffffffffffffffffff", .text "", .int 300]]⟩,
    ⟨"bytes4[2]", .tuple [.bytes [1, 2, 0, 0], .bytes [0, 0, 0, 0]]⟩]

theorem nestedArguments_tuples : AbiType.ofText "(address,string,int16)[]" =
    .ok (.array (.tuple [.address, .string, .int 16]) none) := by
  have htokens : TypeExpr.tokens? "(address,string,int16)[]".toList =
      some [.opening, .word "address" .absent, .comma, .word "string" .absent, .comma,
        .word "int" (.width 16), .closing, .suffix none] := by decide +kernel
  exact ofText_eq_ok htokens rfl (by decide +kernel) rfl

theorem nestedArguments_words :
    AbiType.ofText "bytes4[2]" = .ok (.array (.fixedBytes 4) (some 2)) := by
  have htokens : TypeExpr.tokens? "bytes4[2]".toList =
      some [.word "bytes" (.width 4), .suffix (some 2)] := by decide +kernel
  exact ofText_eq_ok htokens rfl (by decide +kernel) rfl

theorem nestedArguments_canonical : nestedArguments.map TypedValue.canonical = nestedResults := by
  simp only [nestedArguments, List.map_cons, List.map_nil, TypedValue.canonical,
    nestedArguments_tuples, nestedArguments_words]
  rfl

theorem nestedArguments_encoded : ∃ bs, encodeArguments nestedArguments = .ok bs :=
  exists_ok_of_toBool (by decide +kernel)

theorem nestedArguments_read_back :
    ∃ code data, encodeConstructor nestedArguments = .ok code ∧
      encodeCall ⟨"store", nestedArguments, []⟩ = .ok data ∧
      decodeReturn (.text ("0x" ++ code)) (nestedArguments.map TypedValue.type) =
        .ok nestedResults ∧
      decodeReturn (.text (String.ofList (data.toList.drop 10)))
        (Function.inputTypes ⟨"store", nestedArguments, []⟩) = .ok nestedResults := by
  obtain ⟨bs, hbs⟩ := nestedArguments_encoded
  have hconstructor : encodeConstructor nestedArguments = .ok (Hex.encode bs) := by
    rw [encodeConstructor, hbs]
    rfl
  have hcall : encodeCall ⟨"store", nestedArguments, []⟩ =
      .ok (Hex.markedText (Function.selector ⟨"store", nestedArguments, []⟩ ++ bs)) := by
    rw [encodeCall, hbs]
    rfl
  have hne : nestedArguments ≠ [] := by simp [nestedArguments]
  obtain ⟨hcode, hdata⟩ := decodeReturn_encode hne
  rw [nestedArguments_canonical] at hcode hdata
  exact ⟨_, _, hconstructor, hcall, hcode _ hconstructor,
    hdata ⟨"store", nestedArguments, []⟩ _ rfl hcall⟩

end Abi
end EvmClient
