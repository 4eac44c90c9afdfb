import EvmClient.Proofs.Abi.Pieces
import EvmClient.Proofs.Revert

/-!
# Reasons of reverts

A reason is found exactly in a payload that is written for a single text. Every other text gives no
reason, whatever its offset, its length and its bytes are, with one exception: a length that is
beyond all bounds is a defect. The main statement is `Revert.reason_told_iff`.
-/

set_option autoImplicit false

namespace EvmClient

open Abi

namespace Abi

/-- The first word of the data is the offset of a text, behind this word, and the text is there. -/
def HoldsText (bs : List UInt8) (s : String) : Prop :=
  ∃ offset, offset < 256 ^ wordLength ∧ word offset <+: bs ∧ wordLength ≤ offset ∧
    BeginsWithBytes (bs.drop offset) (Keccak.utf8 s)

variable {bs content : List UInt8} {offset : Nat}

theorem BeginsWithBytes.offset_lt (h : BeginsWithBytes (bs.drop offset) content) :
    offset < bs.length := by
  have hlength := h.begins.length_le
  rw [List.length_append, length_word, List.length_drop] at hlength
  simp only [wordLength] at hlength
  omega

end Abi

theorem decodeAll_string_eq_ok_iff {bs : List UInt8} {s : String} :
    AbiType.decodeAll [.string] bs = .ok [.text s] ↔ HoldsText bs s := by
  rw [decodeAll_string, bind_eq_ok]
  constructor
  · intro hx
    obtain ⟨⟨offset, rest⟩, hoffset, h⟩ := hx
    have hword := takeNat_eq_ok.mp hoffset
    by_cases hi : isInside 1 offset bs = true
    · simp only [if_pos hi] at h
      obtain ⟨content, hcontent, h⟩ := bind_eq_ok.mp h
      cases ht : textOfBytes? content with
      | none =>
        rw [ht] at h
        cases h
      | some text =>
        rw [ht] at h
        cases h
        rw [textOfBytes?_eq_some] at ht
        rw [takeBytes_eq_ok, ht] at hcontent
        simp only [isInside, Bool.and_eq_true, decide_eq_true_eq, Nat.mul_one] at hi
        refine ⟨offset, hword.1, ?_, hi.1, hcontent⟩
        rw [hword.2]
        exact List.prefix_append _ _
    · simp only [if_neg hi] at h
      cases h
  · intro hx
    obtain ⟨offset, hlt, ⟨rest, hrest⟩, hle, hbytes⟩ := hx
    have hi : isInside 1 offset bs = true := by
      have hoffset := hbytes.offset_lt
      simp only [isInside, Bool.and_eq_true, decide_eq_true_eq, Nat.mul_one]
      exact ⟨hle, hoffset⟩
    refine ⟨(offset, rest), takeNat_eq_ok.mpr ⟨hlt, hrest.symm⟩, ?_⟩
    simp only [if_pos hi]
    rw [takeBytes_eq_ok.mpr hbytes]
    simp only [bind, Except.bind, AbiType.textOfBytes?_utf8]

namespace Revert

def IsPayload (s : String) (bs : List UInt8) : Prop :=
  hasSelector errorSelector s.toList = true ∧ payload? s = some bs

theorem decodeReason_of_other {s : String} (h : hasSelector errorSelector s.toList = false) :
    decodeReason (.text s) = .ok .null := by
  simp only [decodeReason, isErrorResult, h]
  rfl

theorem reasonText_of_undecoded {s : String} (h : payload? s = none) :
    reasonText (s.toList.drop errorSelector.length) = .ok .null := by
  unfold payload? at h
  unfold reasonText
  rw [h]

theorem decodeReason_of_no_payload {s : String} (h : ∀ bs, ¬IsPayload s bs) :
    decodeReason (.text s) = .ok .null := by
  cases hs : hasSelector errorSelector s.toList with
  | false => exact decodeReason_of_other hs
  | true =>
    rw [decodeReason_text hs]
    apply reasonText_of_undecoded
    rw [Option.eq_none_iff_forall_ne_some]
    exact fun bs hbs => h bs ⟨hs, hbs⟩

section

variable {s : String} {bs : List UInt8} (h : IsPayload s bs)
include h

theorem exists_payload_iff {p : List UInt8 → Prop} : (∃ bs, IsPayload s bs ∧ p bs) ↔ p bs := by
  constructor
  · rintro ⟨bs', h', hp⟩
    rwa [Option.some.inj (h.2.symm.trans h'.2)]
  · exact fun hp => ⟨bs, h, hp⟩

theorem forall_payload_iff {p : List UInt8 → Prop} : (∀ bs, IsPayload s bs → p bs) ↔ p bs := by
  constructor
  · exact fun hp => hp bs h
  · intro hp bs' h'
    rwa [← Option.some.inj (h.2.symm.trans h'.2)]

end

/-- A text gives a reason exactly if it is a payload that holds this reason, and is a defect exactly
if it is a payload with a length beyond all bounds; every other text gives none. -/
theorem reason_told_iff (s : String) :
    (∀ reason, decodeReason (.text s) = .ok (.text reason) ↔
      ∃ bs, IsPayload s bs ∧ HoldsText bs reason) ∧
    (decodeReason (.text s) = .ok .null ↔
      ∀ bs, IsPayload s bs → (∀ reason, ¬HoldsText bs reason) ∧ ¬IsOverlong bs) ∧
    ∀ d, decodeReason (.text s) = .error d ↔
      d = .tooLarge ∧ ∃ bs, IsPayload s bs ∧ IsOverlong bs := by
  by_cases hp : ∃ bs, IsPayload s bs
  · obtain ⟨bs, h⟩ := hp
    simp only [exists_payload_iff h, forall_payload_iff h, ← decodeAll_string_eq_ok_iff,
      ← decodeAll_string_eq_tooLarge]
    rw [decodeReason_text h.1, reasonText_eq h.2]
    cases hd : AbiType.decodeAll [.string] bs with
    | ok vs =>
      obtain ⟨reason, rfl⟩ := decodeAll_string_eq_ok hd
      simp
    | error failure =>
      cases failure with
      | mismatch => simp
      | lengthTooLarge => simp [eq_comm]
      | invalidText => simp
  · rw [not_exists] at hp
    rw [decodeReason_of_no_payload hp]
    simp [hp]

def countlessReason : String :=
  Hex.markedText (errorCode ++ word 32 ++ List.replicate 32 255)

/-- Who reverts with this payload makes the search for a reason fail. -/
theorem countless_reason_escapes :
    decodeReason (.text countlessReason) = .error .tooLarge := by
  have hmarked := Hex.isMarkedText_markedText (errorCode ++ word 32 ++ List.replicate 32 255)
  have hselector : hasSelector errorSelector countlessReason.toList = true := by
    rw [errorSelector_eq]
    exact (hasSelector_iff hmarked).mpr ⟨_, (List.append_assoc _ _ _).symm⟩
  have hpayload : payload? countlessReason = some (word 32 ++ List.replicate 32 255) :=
    payload?_of_marked hmarked
  have hoverlong : IsOverlong (word 32 ++ List.replicate 32 255) :=
    decodeAll_string_eq_tooLarge.mp rfl
  rw [decodeReason_text hselector, reasonText_of_overlong hpayload hoverlong]

end Revert
end EvmClient
