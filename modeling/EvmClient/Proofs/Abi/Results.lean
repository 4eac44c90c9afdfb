import EvmClient.Proofs.Abi.Arguments
import EvmClient.Proofs.Abi.Reading

/-!
# Results of calls

No data is no result. All other data that answers a call gives one result for each type, or an error
that says that it is no hexadecimal text or does not match the types, unless reading comes to a
length beyond all bounds or to a text that is not UTF-8. The main statement is
`Abi.decodeReturn_settled_iff`.
-/

set_option autoImplicit false

namespace EvmClient

namespace AbiType

open Abi

/-! ## No data carries no value -/

theorem checkHeads_nil {ts : List AbiType} (hts : ts ≠ [])
    (h : ∀ t ∈ ts, read t [] = .error .mismatch) (members : Nat) (frame : List UInt8) :
    checkHeads ts members frame [] = .error .mismatch := by
  cases ts with
  | nil => exact absurd rfl hts
  | cons t ts =>
    have ht : read t [] = .error .mismatch := h t List.mem_cons_self
    rw [checkHeads, ht]
    cases isDynamic t <;> rfl

theorem readEach_nil {ts : List AbiType} (hts : ts ≠ [])
    (h : ∀ t ∈ ts, read t [] = .error .mismatch) (frame : List UInt8) :
    readEach ts frame [] = .error .mismatch := by
  cases ts with
  | nil => exact absurd rfl hts
  | cons t ts =>
    have ht : read t [] = .error .mismatch := h t List.mem_cons_self
    rw [readEach, ht]
    cases isDynamic t <;> rfl

theorem WellFormed.read_nil {t : AbiType} (h : t.WellFormed) : read t [] = .error .mismatch := by
  induction h with
  | uint | int | address | bool | fixedBytes | bytes | string => rfl
  | @array item length hlength _ ih =>
    cases length with
    | none =>
      rw [read_array_none]
      rfl
    | some n =>
      have hn : List.replicate n item ≠ [] := by
        rw [ne_eq, List.replicate_eq_nil_iff]
        exact fun hzero => hlength (congrArg some hzero)
      have hitems : ∀ t ∈ List.replicate n item, read t [] = .error .mismatch := by
        intro t ht
        rw [List.eq_of_mem_replicate ht]
        exact ih
      rw [read_array_some, readItems, readEach_nil hn hitems, checkHeads_nil hn hitems]
      cases isDynamic item <;> rfl
  | tuple hmembers _ ih =>
    rw [read, checkHeads_nil hmembers ih]
    rfl

theorem decodeAll_nil {ts : List AbiType} (hts : ts ≠ []) (h : ∀ t ∈ ts, t.WellFormed) :
    decodeAll ts [] = .error .mismatch := by
  rw [decodeAll, checkHeads_nil hts fun t ht => (h t ht).read_nil]
  rfl

theorem length_of_readEach {ts : List AbiType} {frame bs rest : List UInt8} {vs : List Value}
    (h : readEach ts frame bs = .ok (vs, rest)) : vs.length = ts.length := by
  induction ts generalizing bs vs with
  | nil =>
    cases h
    rfl
  | cons t ts ih =>
    rw [readEach_cons] at h
    obtain ⟨_, _, h⟩ := bind_eq_ok.mp h
    obtain ⟨⟨vs', last⟩, hvs, h⟩ := bind_eq_ok.mp h
    cases h
    rw [List.length_cons, List.length_cons, ih hvs]

theorem length_of_decodeAll {ts : List AbiType} {bs : List UInt8} {vs : List Value}
    (h : decodeAll ts bs = .ok vs) : vs.length = ts.length := by
  obtain ⟨_, _, h⟩ := bind_eq_ok.mp h
  obtain ⟨⟨vs', rest⟩, hvs, h⟩ := bind_eq_ok.mp h
  cases h
  exact length_of_readEach hvs

end AbiType

namespace Abi

def Carries (data : Value) (types : List String) : Prop :=
  ∃ bs ts vs, dataBytes data = .ok bs ∧ AbiType.ofTexts types = .ok ts ∧
    AbiType.decodeAll ts bs = .ok vs

theorem not_carries_of_empty {data : Value} {types : List String} (htypes : types ≠ [])
    (h : dataBytes data = .ok []) : ¬Carries data types := by
  rintro ⟨bs, ts, vs, hbs, hts, hvs⟩
  rw [h] at hbs
  cases hbs
  obtain ⟨hlength, hwell⟩ := ofTexts_wellFormed hts
  have hne : ts ≠ [] := by
    rintro rfl
    exact htypes (List.length_eq_zero_iff.mp hlength.symm)
  rw [AbiType.decodeAll_nil hne hwell] at hvs
  cases hvs

theorem map_type_zipWith {types : List String} {vs : List Value} (h : vs.length = types.length) :
    (List.zipWith TypedValue.mk types vs).map TypedValue.type = types := by
  induction types generalizing vs with
  | nil => rfl
  | cons s types ih =>
    cases vs with
    | nil => cases h
    | cons v vs => rw [List.zipWith_cons_cons, List.map_cons, ih (Nat.succ.inj h)]

theorem decodeValues_eq_ok {types : List String} {bs : List UInt8} {mismatch : ClientError}
    {vs : List Value} (h : decodeValues types bs mismatch = .ok vs) :
    ∃ ts, AbiType.ofTexts types = .ok ts ∧ AbiType.decodeAll ts bs = .ok vs := by
  obtain ⟨ts, hts, h⟩ := bind_eq_ok.mp h
  refine ⟨ts, Outcome.ofDefect_eq_ok.mp hts, ?_⟩
  cases hd : AbiType.decodeAll ts bs with
  | ok vs' =>
    rw [hd] at h
    cases h
    rfl
  | error failure =>
    rw [hd] at h
    cases hf : failure.defect? with
    | none =>
      simp only [hf] at h
      exact absurd h fail_ne_ok
    | some d =>
      simp only [hf] at h
      cases h

theorem decodeReturn_eq_ok {data : Value} {types : List String} {results : List TypedValue}
    (h : decodeReturn data types = .ok results) :
    (Carries data types ∧ results.map TypedValue.type = types) ∨
      (types ≠ [] ∧ dataBytes data = .ok [] ∧ results = []) := by
  obtain ⟨bs, hbs, h⟩ := bind_eq_ok.mp h
  by_cases hempty : (bs.isEmpty || types.isEmpty) = true
  · rw [if_pos hempty] at h
    cases h
    cases types with
    | nil => exact .inl ⟨⟨bs, [], [], hbs, rfl, rfl⟩, rfl⟩
    | cons s types =>
      have hnil : bs = [] := by simpa using hempty
      exact .inr ⟨List.cons_ne_nil s types, hnil ▸ hbs, rfl⟩
  · rw [if_neg hempty] at h
    obtain ⟨vs, hvs, h⟩ := bind_eq_ok.mp h
    cases h
    obtain ⟨ts, hts, hd⟩ := decodeValues_eq_ok hvs
    have hlength : vs.length = types.length := by
      rw [AbiType.length_of_decodeAll hd, (ofTexts_wellFormed hts).1]
    exact .inl ⟨⟨bs, ts, vs, hbs, hts, hd⟩, map_type_zipWith hlength⟩

/-! ## The data of an answer -/

inductive IsReturnData : Value → Prop where
  | nothing : IsReturnData .null
  | text (s : String) : IsReturnData (.text s)

/-- The bytes that data stands for: those of its digits, with or without the mark, and none where
there is nothing. -/
inductive Spells : Value → List UInt8 → Prop where
  | nothing : Spells .null []
  | text {s : String} {bs : List UInt8} (h : Hex.decode? s = some bs) : Spells (.text s) bs

def IsBlank (data : Value) : Prop :=
  data = .null ∨ data = .text "" ∨ data = .text "0x" ∨ data = .text "0X"

variable {data : Value} {types : List String} {ts : List AbiType} {bs : List UInt8}

theorem dataBytes_of_spells (h : Spells data bs) : dataBytes data = .ok bs := by
  cases h with
  | nothing => rfl
  | text h => exact dataBytes_of_decode? h

theorem spells_unique {bs' : List UInt8} (h : Spells data bs) (h' : Spells data bs') : bs = bs' :=
  Except.ok.inj ((dataBytes_of_spells h).symm.trans (dataBytes_of_spells h'))

theorem dataBytes_of_unspelled (hdata : IsReturnData data) (h : ∀ bs, ¬Spells data bs) :
    dataBytes data = .error (.client (.validation (.hexData data))) := by
  cases hdata with
  | nothing => exact absurd .nothing (h [])
  | text s =>
    have hdecode : Hex.decode? s = none := by
      rw [Option.eq_none_iff_forall_ne_some]
      exact fun bs hbs => h bs (.text hbs)
    have hs : s ≠ "" := by
      rintro rfl
      cases hdecode
    rw [dataBytes, if_pos (by simpa [Value.isTruthy] using hs)]
    simp only [hdecode]
    rfl

theorem ofChars?_eq_nil {cs : List Char} : Hex.ofChars? cs = some [] ↔ cs = [] := by
  constructor
  · intro h
    have hcount := congrArg List.length (Hex.chars_of_ofChars? h)
    rw [Hex.length_chars, List.length_map] at hcount
    exact List.length_eq_zero_iff.mp hcount.symm
  · rintro rfl
    rfl

theorem spells_nil_iff : Spells data [] ↔ IsBlank data := by
  constructor
  · intro h
    cases h with
    | nothing => exact .inl rfl
    | @text s _ h =>
      have hdigits := ofChars?_eq_nil.mp h
      unfold Hex.unmarkChars at hdigits
      split at hdigits
      · rename_i cs hs
        rw [hdigits] at hs
        exact .inr (.inr (.inl (congrArg Value.text (String.toList_inj.mp hs))))
      · rename_i cs hs
        rw [hdigits] at hs
        exact .inr (.inr (.inr (congrArg Value.text (String.toList_inj.mp hs))))
      · exact .inr (.inl (congrArg Value.text (String.toList_inj.mp hdigits)))
  · rintro (rfl | rfl | rfl | rfl)
    · exact .nothing
    · exact .text rfl
    · exact .text rfl
    · exact .text rfl

/-! ## How decoding ends -/

theorem decodeReturn_of_unspelled (hdata : IsReturnData data) (h : ∀ bs, ¬Spells data bs) :
    decodeReturn data types = .error (.client (.validation (.hexData data))) := by
  rw [decodeReturn, dataBytes_of_unspelled hdata h]
  rfl

theorem decodeReturn_of_nothing (h : Spells data bs) (hnone : bs = [] ∨ types = []) :
    decodeReturn data types = .ok [] := by
  have hempty : (bs.isEmpty || types.isEmpty) = true := by simpa using hnone
  rw [decodeReturn, dataBytes_of_spells h]
  simp only [bind, Except.bind, hempty, if_true]
  rfl

theorem fail_response (h : Spells data bs) :
    (fail (.conversion (.response data types)) : Outcome (List Value)) =
      .error (.client (.conversion (.response data types))) := by
  cases h <;> rfl

theorem decodeReturn_of_bytes (h : Spells data bs) (hbs : bs ≠ []) (hne : types ≠ [])
    (htypes : AbiType.ofTexts types = .ok ts) :
    decodeReturn data types =
      match AbiType.decodeAll ts bs with
      | .ok vs => .ok (List.zipWith TypedValue.mk types vs)
      | .error .mismatch => .error (.client (.conversion (.response data types)))
      | .error .lengthTooLarge => .error (Failure.ofDefect .tooLarge)
      | .error .invalidText => .error (Failure.ofDefect .invalidText) := by
  have hempty : (bs.isEmpty || types.isEmpty) = false := by simp [hbs, hne]
  rw [decodeReturn, dataBytes_of_spells h]
  simp only [bind, Except.bind, hempty, Bool.false_eq_true, if_false, decodeValues, htypes,
    Outcome.ofDefect]
  cases hd : AbiType.decodeAll ts bs with
  | ok vs => rfl
  | error failure =>
    cases failure with
    | mismatch =>
      simp only [DecodeFailure.defect?, fail_response h]
    | lengthTooLarge => rfl
    | invalidText => rfl

/-! ## What a caller may expect -/

/-- There are no results exactly if there is no data, or if no types are given for data that can be
read. Otherwise there is one result for each type, or an error that says that the data is not
hexadecimal or that it does not carry values of the types. -/
structure Settled (data : Value) (types : List String) (r : Outcome (List TypedValue)) : Prop where
  nothing_iff : r = .ok [] ↔ IsBlank data ∨ (types = [] ∧ ∃ bs, Spells data bs)
  results : ∀ results, r = .ok results → results ≠ [] →
    Carries data types ∧ results.map TypedValue.type = types
  failures : ∀ failure, r = .error failure →
    ((∀ bs, ¬Spells data bs) ∧ failure = .client (.validation (.hexData data))) ∨
      ((∃ bs, Spells data bs) ∧ ¬Carries data types ∧
        failure = .client (.conversion (.response data types)))

theorem settled_of_unspelled (hdata : IsReturnData data) (h : ∀ bs, ¬Spells data bs) :
    Settled data types (decodeReturn data types) := by
  rw [decodeReturn_of_unspelled hdata h]
  constructor
  · apply iff_of_false
    · intro heq
      cases heq
    · rintro (hblank | ⟨_, bs, hbs⟩)
      · exact h [] (spells_nil_iff.mpr hblank)
      · exact h bs hbs
  · intro results heq
    cases heq
  · intro failure heq
    cases heq
    exact .inl ⟨h, rfl⟩

theorem settled_of_nothing (h : Spells data bs) (hnone : bs = [] ∨ types = []) :
    Settled data types (decodeReturn data types) := by
  rw [decodeReturn_of_nothing h hnone]
  constructor
  · apply iff_of_true rfl
    obtain rfl | hnone := hnone
    · exact .inl (spells_nil_iff.mp h)
    · exact .inr ⟨hnone, bs, h⟩
  · intro results heq hresults
    cases heq
    exact absurd rfl hresults
  · intro failure heq
    cases heq

section

variable (h : Spells data bs) (hbs : bs ≠ []) (hne : types ≠ [])
  (htypes : AbiType.ofTexts types = .ok ts)
include h hbs hne

theorem not_nothing : ¬(IsBlank data ∨ (types = [] ∧ ∃ bs, Spells data bs)) := by
  rintro (hblank | ⟨htypes, _⟩)
  · exact hbs (spells_unique h (spells_nil_iff.mpr hblank))
  · exact hne htypes

include htypes

theorem settled_of_decoded {vs : List Value} (hd : AbiType.decodeAll ts bs = .ok vs) :
    Settled data types (decodeReturn data types) := by
  have hlength : vs.length = types.length := by
    rw [AbiType.length_of_decodeAll hd, (ofTexts_wellFormed htypes).1]
  have hmap := map_type_zipWith hlength
  rw [decodeReturn_of_bytes h hbs hne htypes, hd]
  constructor
  · refine iff_of_false (fun heq => ?_) (not_nothing h hbs hne)
    rw [Except.ok.inj heq] at hmap
    exact hne hmap.symm
  · intro results heq _
    cases heq
    exact ⟨⟨bs, ts, vs, dataBytes_of_spells h, htypes, hd⟩, hmap⟩
  · intro failure heq
    cases heq

theorem settled_of_mismatch (hd : AbiType.decodeAll ts bs = .error .mismatch) :
    Settled data types (decodeReturn data types) := by
  rw [decodeReturn_of_bytes h hbs hne htypes, hd]
  constructor
  · exact iff_of_false (fun heq => by cases heq) (not_nothing h hbs hne)
  · intro results heq
    cases heq
  · intro failure heq
    cases heq
    refine .inr ⟨⟨bs, h⟩, ?_, rfl⟩
    rintro ⟨bs', ts', vs, hbs', hts', hvs⟩
    rw [dataBytes_of_spells h] at hbs'
    rw [htypes] at hts'
    cases hbs'
    cases hts'
    rw [hd] at hvs
    cases hvs

end

theorem not_settled_of_defect {d : Defect} :
    ¬Settled data types (.error (Failure.ofDefect d)) := by
  intro h
  obtain ⟨_, heq⟩ | ⟨_, _, heq⟩ := h.failures _ rfl
  · cases heq
  · cases heq

theorem decodeAll_of_nothing (htypes : AbiType.ofTexts types = .ok ts)
    (hnone : bs = [] ∨ types = []) {failure : DecodeFailure} (hf : failure ≠ .mismatch) :
    AbiType.decodeAll ts bs ≠ .error failure := by
  obtain ⟨hlength, hwell⟩ := ofTexts_wellFormed htypes
  intro hd
  by_cases hts : ts = []
  · rw [hts] at hd
    cases hd
  · obtain rfl | rfl := hnone
    · rw [AbiType.decodeAll_nil hts hwell] at hd
      cases hd
      exact hf rfl
    · exact hts (List.length_eq_zero_iff.mp hlength)

theorem decodeReturn_of_spells (h : Spells data bs) (htypes : AbiType.ofTexts types = .ok ts) :
    (Settled data types (decodeReturn data types) ↔
      AbiType.decodeAll ts bs ≠ .error .lengthTooLarge ∧
        AbiType.decodeAll ts bs ≠ .error .invalidText) ∧
    (AbiType.decodeAll ts bs = .error .lengthTooLarge →
      decodeReturn data types = .error (Failure.ofDefect .tooLarge)) ∧
    (AbiType.decodeAll ts bs = .error .invalidText →
      decodeReturn data types = .error (Failure.ofDefect .invalidText)) := by
  by_cases hnone : bs = [] ∨ types = []
  · have hlength : AbiType.decodeAll ts bs ≠ .error .lengthTooLarge :=
      decodeAll_of_nothing htypes hnone (by decide)
    have htext : AbiType.decodeAll ts bs ≠ .error .invalidText :=
      decodeAll_of_nothing htypes hnone (by decide)
    exact ⟨iff_of_true (settled_of_nothing h hnone) ⟨hlength, htext⟩,
      fun hd => absurd hd hlength, fun hd => absurd hd htext⟩
  · obtain ⟨hbs, hne⟩ := not_or.mp hnone
    have hreturn := decodeReturn_of_bytes h hbs hne htypes
    cases hd : AbiType.decodeAll ts bs with
    | ok vs => simp [settled_of_decoded h hbs hne htypes hd]
    | error failure =>
      cases failure with
      | mismatch => simp [settled_of_mismatch h hbs hne htypes hd]
      | lengthTooLarge =>
        rw [hd] at hreturn
        simp [hreturn, not_settled_of_defect]
      | invalidText =>
        rw [hd] at hreturn
        simp [hreturn, not_settled_of_defect]

/-- A call is answered as a caller may expect, whatever the data, unless reading it comes to a
length beyond all bounds or to a text that is not UTF-8. Then a defect takes the place of the error,
and it tells which of the two. -/
theorem decodeReturn_settled_iff (hdata : IsReturnData data)
    (htypes : AbiType.ofTexts types = .ok ts) :
    (Settled data types (decodeReturn data types) ↔
      ∀ bs, Spells data bs → ¬AbiType.MeetsOverlong ts bs ∧ ¬AbiType.MeetsNoText ts bs) ∧
    ∀ bs, Spells data bs →
      (AbiType.MeetsOverlong ts bs →
        decodeReturn data types = .error (Failure.ofDefect .tooLarge)) ∧
      (AbiType.MeetsNoText ts bs →
        decodeReturn data types = .error (Failure.ofDefect .invalidText)) := by
  simp only [← AbiType.decodeAll_eq_tooLarge, ← AbiType.decodeAll_eq_invalidText]
  refine ⟨?_, fun bs h => (decodeReturn_of_spells h htypes).2⟩
  by_cases hspells : ∃ bs, Spells data bs
  · obtain ⟨bs, h⟩ := hspells
    rw [(decodeReturn_of_spells h htypes).1]
    constructor
    · intro hread bs' h'
      rwa [← spells_unique h h']
    · exact fun hread => hread bs h
  · rw [not_exists] at hspells
    exact iff_of_true (settled_of_unspelled hdata hspells) fun bs h => absurd h (hspells bs)

/-! ## Texts that are cut off, too long or broken -/

def textData (piece : List UInt8) : Value := .text (Hex.markedText (word 32 ++ piece))

theorem textData_spells (piece : List UInt8) : Spells (textData piece) (word 32 ++ piece) :=
  .text (Hex.isMarkedText_markedText _).2

theorem ofTexts_string : AbiType.ofTexts ["string"] = .ok [.string] :=
  ofTexts_singleton ofText_string

theorem cut_text_settled :
    IsReturnData (textData (word 5 ++ [104])) ∧ AbiType.ofTexts ["string"] = .ok [.string] ∧
      Settled (textData (word 5 ++ [104])) ["string"]
        (decodeReturn (textData (word 5 ++ [104])) ["string"]) := by
  refine ⟨.text _, ofTexts_string, ?_⟩
  apply (decodeReturn_settled_iff (.text _) ofTexts_string).1.mpr
  intro bs h
  rw [← spells_unique (textData_spells _) h, ← AbiType.decodeAll_eq_tooLarge,
    ← AbiType.decodeAll_eq_invalidText]
  have hd : AbiType.decodeAll [.string] (word 32 ++ (word 5 ++ [104])) = .error .mismatch := rfl
  simp [hd]

/-- A length of all ones, and a byte that no text has. -/
theorem unreadable_results_escape :
    (decodeReturn (textData (List.replicate 32 255)) ["string"] =
        .error (Failure.ofDefect .tooLarge) ∧
      ¬Settled (textData (List.replicate 32 255)) ["string"]
        (decodeReturn (textData (List.replicate 32 255)) ["string"])) ∧
    (decodeReturn (textData (word 1 ++ padRight [255])) ["string"] =
        .error (Failure.ofDefect .invalidText) ∧
      ¬Settled (textData (word 1 ++ padRight [255])) ["string"]
        (decodeReturn (textData (word 1 ++ padRight [255])) ["string"])) := by
  have hoverlong : AbiType.decodeAll [.string] (word 32 ++ List.replicate 32 255) =
      .error .lengthTooLarge := rfl
  have hbroken : AbiType.decodeAll [.string] (word 32 ++ (word 1 ++ padRight [255])) =
      .error .invalidText := rfl
  have hlong := (decodeReturn_of_spells (textData_spells _) ofTexts_string).2.1 hoverlong
  have htext := (decodeReturn_of_spells (textData_spells _) ofTexts_string).2.2 hbroken
  rw [hlong, htext]
  exact ⟨⟨rfl, not_settled_of_defect⟩, rfl, not_settled_of_defect⟩

end Abi
end EvmClient
