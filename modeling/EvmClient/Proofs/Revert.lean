import EvmClient.Proofs.Abi.Pieces
import EvmClient.Revert

/-!
# Reverts that cannot be read

The answer to a call can be told apart in all cases but one: the payload of an `Error(string)` whose
length is beyond all bounds. An answer whose result is no text at all does not come from a node that
keeps to its interface, and is a defect as well.
-/

set_option autoImplicit false

namespace EvmClient

open Abi

theorem decodeAll_string (bs : List UInt8) :
    AbiType.decodeAll [.string] bs = (do
      let (offset, _) ← takeNat bs
      if isInside 1 offset bs then
        let content ← takeBytes (bs.drop offset)
        match textOfBytes? content with
        | some s => .ok [.text s]
        | none => .error .invalidText
      else .error .mismatch) := by
  unfold AbiType.decodeAll
  simp only [AbiType.checkHeads, AbiType.readEach, AbiType.headCounts, AbiType.headCount,
    AbiType.isDynamic, AbiType.read]
  cases takeNat bs with
  | error e => rfl
  | ok word =>
    obtain ⟨offset, rest⟩ := word
    by_cases hi : isInside 1 offset bs = true
    · simp only [bind, Except.bind, hi, if_true]
      cases takeBytes (bs.drop offset) with
      | error e => rfl
      | ok content =>
        dsimp only
        cases textOfBytes? content <;> rfl
    · simp only [bind, Except.bind, hi]
      rfl

/-- The offset of the first word points to a length that is beyond all bounds. -/
def IsOverlong (bs : List UInt8) : Prop :=
  ∃ offset rest n rest', takeNat bs = .ok (offset, rest) ∧ isInside 1 offset bs = true ∧
    takeNat (bs.drop offset) = .ok (n, rest') ∧ lengthBound ≤ roundedUp n

theorem decodeAll_string_eq_tooLarge {bs : List UInt8} :
    AbiType.decodeAll [.string] bs = .error .lengthTooLarge ↔ IsOverlong bs := by
  rw [decodeAll_string, bind_eq_error]
  constructor
  · intro hx
    obtain h | ⟨⟨offset, rest⟩, ho, h⟩ := hx
    · cases takeNat_eq_error h
    · by_cases hi : isInside 1 offset bs = true
      · simp only [if_pos hi] at h
        obtain hb | ⟨content, _, ht⟩ := bind_eq_error.mp h
        · obtain ⟨n, rest', hn, hbound⟩ := takeBytes_eq_tooLarge.mp hb
          exact ⟨offset, rest, n, rest', ho, hi, hn, hbound⟩
        · cases hs : textOfBytes? content with
          | none =>
            rw [hs] at ht
            cases ht
          | some s =>
            rw [hs] at ht
            cases ht
      · simp only [if_neg hi] at h
        cases h
  · intro hx
    obtain ⟨offset, rest, n, rest', ho, hi, hn, hbound⟩ := hx
    refine .inr ⟨(offset, rest), ho, ?_⟩
    simp only [if_pos hi]
    exact bind_eq_error.mpr (.inl (takeBytes_eq_tooLarge.mpr ⟨n, rest', hn, hbound⟩))

theorem decodeAll_string_eq_ok {bs : List UInt8} {vs : List Value}
    (h : AbiType.decodeAll [.string] bs = .ok vs) : ∃ s, vs = [.text s] := by
  rw [decodeAll_string] at h
  obtain ⟨⟨offset, rest⟩, _, h⟩ := bind_eq_ok.mp h
  by_cases hi : isInside 1 offset bs = true
  · simp only [if_pos hi] at h
    obtain ⟨content, _, h⟩ := bind_eq_ok.mp h
    cases ht : textOfBytes? content with
    | none =>
      rw [ht] at h
      cases h
    | some s =>
      rw [ht] at h
      cases h
      exact ⟨s, rfl⟩
  · simp only [if_neg hi] at h
    cases h

namespace Revert

def payload? (s : String) : Option (List UInt8) :=
  Hex.ofChars? (Hex.unmarkChars (s.toList.drop errorSelector.length))

/-! ## Selectors -/

def errorCode : List UInt8 := [0x08, 0xc3, 0x79, 0xa0]

theorem errorSelector_eq : errorSelector = '0' :: 'x' :: Hex.chars errorCode := by decide

theorem hasSelector_iff {s : String} {bs code : List UInt8} (h : Hex.IsMarkedText s bs) :
    hasSelector ('0' :: 'x' :: Hex.chars code) s.toList = true ↔ code <+: bs := by
  obtain ⟨x, cs, hs, hx, hcs⟩ := h.split
  have hzero : '0'.toLower = '0' := rfl
  have htake : (cs.take (Hex.chars code).length).map Char.toLower =
      Hex.chars (bs.take code.length) := by
    rw [List.map_take, ← Hex.chars_of_ofChars? hcs, Hex.length_chars, Hex.take_chars]
  rw [hasSelector, hs, List.length_cons, List.length_cons, List.take_succ_cons,
    List.take_succ_cons, List.map_cons, List.map_cons, hx, hzero, htake, beq_iff_eq,
    List.prefix_iff_eq_take]
  constructor
  · intro heq
    simp only [List.cons.injEq, true_and] at heq
    exact (Hex.chars_injective heq).symm
  · intro heq
    rw [← heq]

theorem payload?_of_marked {s : String} {bs : List UInt8} (h : Hex.IsMarkedText s bs) :
    payload? s = some (bs.drop errorCode.length) := by
  obtain ⟨x, cs, hs, _, hcs⟩ := h.split
  have hdrop := Hex.ofChars?_drop errorCode.length hcs
  have hcount : errorSelector.length = 2 * errorCode.length + 1 + 1 := rfl
  rw [payload?, hs, hcount, List.drop_succ_cons, List.drop_succ_cons,
    Hex.unmarkChars_of_not_isMarked (Hex.not_isMarked_of_ofChars? hdrop), hdrop]

/-- A result that cannot be looked into for a reason. -/
def IsUnreadable : Value → Prop
  | .null => False
  | .text s =>
    hasSelector errorSelector s.toList = true ∧ ∃ bs, payload? s = some bs ∧ IsOverlong bs
  | _ => True

def IsLookup (response : CallResponse) : Prop :=
  ∃ e, response.error = some e ∧ isLookupRequest e = true

theorem reasonText_eq {s : String} {bs : List UInt8} (h : payload? s = some bs) :
    reasonText (s.toList.drop errorSelector.length) =
      match AbiType.decodeAll [.string] bs with
      | .ok vs => .ok (vs.headD .null)
      | .error .lengthTooLarge => .error .tooLarge
      | .error _ => .ok .null := by
  unfold payload? at h
  unfold reasonText
  rewrite [h]
  rfl

theorem reasonText_of_overlong {s : String} {bs : List UInt8} (h : payload? s = some bs)
    (ho : IsOverlong bs) :
    reasonText (s.toList.drop errorSelector.length) = .error .tooLarge := by
  rw [reasonText_eq h, decodeAll_string_eq_tooLarge.mpr ho]

theorem reasonText_of_not_overlong {s : String} {bs : List UInt8} (h : payload? s = some bs)
    (ho : ¬IsOverlong bs) :
    ∃ reason, reasonText (s.toList.drop errorSelector.length) = .ok reason ∧
      reason.text?.isSome = true := by
  rw [reasonText_eq h]
  cases hd : AbiType.decodeAll [.string] bs with
  | error e =>
    cases e with
    | lengthTooLarge => exact absurd (decodeAll_string_eq_tooLarge.mp hd) ho
    | mismatch => exact ⟨.null, rfl, rfl⟩
    | invalidText => exact ⟨.null, rfl, rfl⟩
  | ok vs =>
    obtain ⟨reason, rfl⟩ := decodeAll_string_eq_ok hd
    exact ⟨.text reason, rfl, rfl⟩

theorem reasonText_fails_iff {s : String} :
    (∃ d, reasonText (s.toList.drop errorSelector.length) = .error d) ↔
      ∃ bs, payload? s = some bs ∧ IsOverlong bs := by
  constructor
  · intro hx
    obtain ⟨d, h⟩ := hx
    cases hp : payload? s with
    | none =>
      unfold payload? at hp
      unfold reasonText at h
      rw [hp] at h
      cases h
    | some bs =>
      refine ⟨bs, rfl, ?_⟩
      by_cases ho : IsOverlong bs
      · exact ho
      · obtain ⟨reason, hreason, _⟩ := reasonText_of_not_overlong hp ho
        rw [hreason] at h
        cases h
  · intro hx
    obtain ⟨bs, hp, ho⟩ := hx
    exact ⟨_, reasonText_of_overlong hp ho⟩

theorem decodeReason_text {s : String} (h : hasSelector errorSelector s.toList = true) :
    decodeReason (.text s) = reasonText (s.toList.drop errorSelector.length) := by
  simp only [decodeReason, isErrorResult, h]
  rfl

theorem decode_of_lookup {response : CallResponse} (h : IsLookup response) :
    ∃ outcome, decode response = .ok outcome := by
  obtain ⟨e, he, hl⟩ := h
  have hf : response.error.filter isLookupRequest = some e := by
    rw [he, Option.filter_some, if_pos hl]
  unfold decode
  rw [hf]
  exact ⟨_, rfl⟩

section

variable {response : CallResponse} (h : ¬IsLookup response)
include h

theorem filter_lookup_eq_none : response.error.filter isLookupRequest = none := by
  rw [Option.filter_eq_none_iff]
  intro e he hl
  exact h ⟨e, he, hl⟩

theorem decode_of_unchecked {d : Defect} (hr : isErrorResult response.result = .error d) :
    decode response = .error d := by
  unfold decode
  rw [filter_lookup_eq_none h, hr]
  rfl

theorem decode_of_plain_result (hr : isErrorResult response.result = .ok false) :
    ∃ outcome, decode response = .ok outcome := by
  unfold decode
  rw [filter_lookup_eq_none h, hr]
  cases response.error with
  | none => exact ⟨_, rfl⟩
  | some e => exact ⟨_, rfl⟩

theorem decode_of_error_result (hr : isErrorResult response.result = .ok true) :
    decode response = decodeReason response.result >>= fun reason =>
      .ok ⟨.abiEncodedRevert, reason, response.error.elim .null RpcError.data⟩ := by
  unfold decode
  rw [filter_lookup_eq_none h, hr]
  rfl

end

theorem decode_text (s : String) :
    decode { result := .text s } =
      if hasSelector errorSelector s.toList then
        (reasonText (s.toList.drop errorSelector.length)).map fun reason =>
          ⟨.abiEncodedRevert, reason, .null⟩
      else .ok { kind := .noError } := by
  have hl : ¬IsLookup { result := .text s } := by
    intro hx
    obtain ⟨e, he, _⟩ := hx
    cases he
  by_cases hs : hasSelector errorSelector s.toList = true
  · rw [if_pos hs, decode_of_error_result hl (congrArg Except.ok hs), decodeReason_text hs]
    cases reasonText (s.toList.drop errorSelector.length) <;> rfl
  · rw [if_neg hs, decode, filter_lookup_eq_none hl]
    simp only [isErrorResult, hs]
    rfl

theorem not_fails_of_ok {response : CallResponse} (h : ∃ outcome, decode response = .ok outcome) :
    ¬∃ d, decode response = .error d := by
  obtain ⟨outcome, hok⟩ := h
  intro hx
  obtain ⟨d, hd⟩ := hx
  rw [hok] at hd
  cases hd

/-- Exactly the answers with an unreadable result cannot be told apart, unless they ask for data
from elsewhere. -/
theorem decode_fails_iff {response : CallResponse} :
    (∃ d, decode response = .error d) ↔ ¬IsLookup response ∧ IsUnreadable response.result := by
  by_cases hl : IsLookup response
  · exact iff_of_false (not_fails_of_ok (decode_of_lookup hl)) fun h => h.1 hl
  rw [and_iff_right hl]
  cases hr : response.result with
  | null =>
    have hplain : isErrorResult response.result = .ok false := by
      rw [hr]
      rfl
    exact iff_of_false (not_fails_of_ok (decode_of_plain_result hl hplain)) id
  | text s =>
    have hcheck : isErrorResult response.result = .ok (hasSelector errorSelector s.toList) := by
      rw [hr]
      rfl
    by_cases hs : hasSelector errorSelector s.toList = true
    · rw [hs] at hcheck
      rw [decode_of_error_result hl hcheck, hr, IsUnreadable, and_iff_right hs,
        ← reasonText_fails_iff, ← decodeReason_text hs]
      constructor
      · intro hx
        obtain ⟨d, h⟩ := hx
        obtain h | ⟨reason, _, h⟩ := bind_eq_error.mp h
        · exact ⟨d, h⟩
        · cases h
      · intro hx
        obtain ⟨d, h⟩ := hx
        exact ⟨d, bind_eq_error.mpr (.inl h)⟩
    · rw [Bool.not_eq_true] at hs
      rw [hs] at hcheck
      refine iff_of_false (not_fails_of_ok (decode_of_plain_result hl hcheck)) ?_
      intro hx
      obtain ⟨h, _⟩ := hx
      rw [hs] at h
      cases h
  | bytes bs =>
    have hcheck : isErrorResult response.result = .error .wrongKind := by
      rw [hr]
      rfl
    exact iff_of_true ⟨_, decode_of_unchecked hl hcheck⟩ trivial
  | _ =>
    have hcheck : isErrorResult response.result = .error .missingPart := by
      rw [hr]
      rfl
    exact iff_of_true ⟨_, decode_of_unchecked hl hcheck⟩ trivial

end Revert
end EvmClient
