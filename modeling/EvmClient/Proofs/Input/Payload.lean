import EvmClient.Proofs.Deployment
import EvmClient.Proofs.Input.Address
import EvmClient.Proofs.Target

/-!
# Which values are payloads

A payload is a text of the mark `0x` and digits of whole bytes. The check takes one more kind of
text: an odd number of digits and a line end, which together make the number of characters even. A
deployment checks its two texts joined behind one mark, but a joined text that begins with a mark
of its own is left as it is, so the mark is not in what is sent. What is sent is the joined text in
all other cases.
-/

set_option autoImplicit false

namespace EvmClient

def Value.IsBytesText (v : Value) : Prop := ∃ digits, v.IsMarked digits [] ∧ digits.length % 2 = 0

/-- The value is a text of the mark, an odd number of digits and a line end. -/
def Value.IsOddLine (v : Value) : Prop :=
  ∃ digits, v.IsMarked digits ['\n'] ∧ digits.length % 2 = 1

namespace Input

variable {v w : Value} {field s : String}

theorem isMarkedHex_iff : isMarkedHex (Address.withoutLineEnd s.toList) = true ↔
    ∃ digits, (Value.text s).IsMarked digits [] ∨ (Value.text s).IsMarked digits ['\n'] := by
  constructor
  · intro h
    unfold isMarkedHex at h
    split at h
    · rename_i digits hcs
      exact ⟨digits, Value.IsMarked.withoutLineEnd_iff.mp ⟨hcs, List.all_eq_true.mp h⟩⟩
    · cases h
  · rintro ⟨digits, h⟩
    obtain ⟨hcs, hdigits⟩ := Value.IsMarked.withoutLineEnd_iff.mpr h
    rw [hcs]
    exact List.all_eq_true.mpr hdigits

theorem isPayload_iff (h : isMarkedHex (Address.withoutLineEnd s.toList) = true) :
    (Value.text s).IsBytesText ∨ (Value.text s).IsOddLine ↔ s.toList.length % 2 = 0 := by
  constructor
  · rintro (⟨digits, hmarked, heven⟩ | ⟨digits, hmarked, hodd⟩)
    · rw [hmarked.toList]
      simp only [List.append_nil, List.length_cons]
      omega
    · rw [hmarked.toList]
      simp only [List.length_append, List.length_cons, List.length_nil]
      omega
  · intro heven
    obtain ⟨digits, hmarked | hmarked⟩ := isMarkedHex_iff.mp h
    · rw [hmarked.toList] at heven
      simp only [List.append_nil, List.length_cons] at heven
      exact .inl ⟨digits, hmarked, by omega⟩
    · rw [hmarked.toList] at heven
      simp only [List.length_append, List.length_cons, List.length_nil] at heven
      exact .inr ⟨digits, hmarked, by omega⟩

theorem hex_cases (v : Value) (field : String) :
    ((v.IsBytesText ∨ v.IsOddLine) ∧ hex v field = .ok v) ∨
    (¬(v.IsBytesText ∨ v.IsOddLine) ∧ ∃ cause, cause.field = .text field ∧
      hex v field = .error (.client (.validation cause))) := by
  by_cases hv : ∃ s, v = .text s
  · obtain ⟨s, rfl⟩ := hv
    by_cases hmarked : isMarkedHex (Address.withoutLineEnd s.toList) = true
    · have hhex : hex (.text s) field = if s.toList.length % 2 = 1 then
          fail (.validation (.hexLength field)) else .ok (.text s) := by
        rw [hex, hmarked]
        rfl
      rw [isPayload_iff hmarked, hhex]
      by_cases hodd : s.toList.length % 2 = 1
      · exact .inr ⟨by omega, .hexLength field, rfl, if_pos hodd⟩
      · exact .inl ⟨by omega, if_neg hodd⟩
    · refine .inr ⟨?_, .hexForm field, rfl, ?_⟩
      · rintro (⟨digits, h, _⟩ | ⟨digits, h, _⟩)
        · exact hmarked (isMarkedHex_iff.mpr ⟨digits, .inl h⟩)
        · exact hmarked (isMarkedHex_iff.mpr ⟨digits, .inr h⟩)
      · rw [hex, Bool.eq_false_iff.mpr hmarked]
        rfl
  · refine .inr ⟨?_, .hexForm field, rfl, ?_⟩
    · rintro (⟨_, h, _⟩ | ⟨_, h, _⟩)
      · exact hv ⟨_, h.text⟩
      · exact hv ⟨_, h.text⟩
    · cases v with
      | text s => exact absurd ⟨s, rfl⟩ hv
      | _ => rfl

theorem hex_eq_ok_iff : hex v field = .ok w ↔ w = v ∧ (v.IsBytesText ∨ v.IsOddLine) := by
  obtain ⟨hv, hhex⟩ | ⟨hv, cause, _, hhex⟩ := hex_cases v field
  · rw [hhex, Except.ok.injEq, and_iff_left hv, eq_comm]
  · rw [hhex]
    exact iff_of_false nofun fun h => hv h.2

end Input

namespace Deployment

def sent (binary arguments : String) : String := Hex.mark (joined binary arguments)

variable {text : String}

theorem decode?_mark (h : Hex.isMarked text.toList = false) :
    (Hex.mark text).toList = '0' :: 'x' :: text.toList ∧
      Hex.decode? (Hex.mark text) = Hex.ofChars? text.toList := by
  have hmark : (Hex.mark text).toList = '0' :: 'x' :: text.toList := by
    rw [Hex.mark, if_neg (ne_true_of_eq_false h), String.toList_append]
    rfl
  exact ⟨hmark, by rw [Hex.decode?, hmark]; rfl⟩

theorem encode_ne_of_isMarked (h : Hex.isMarked text.toList = true) {bs : List UInt8}
    (hbs : Hex.decode? text = some bs) : Hex.encode bs ≠ Text.lowered text := by
  intro heq
  have hchars : Hex.chars bs = text.toList.map Char.toLower := by
    have hlists := congrArg String.toList heq
    rwa [Hex.encode, Text.lowered, String.toList_ofList, String.toList_ofList] at hlists
  have hread := Hex.chars_of_ofChars? hbs
  rw [hchars] at hread
  have hlength := congrArg List.length hread
  rw [List.length_map, List.length_map] at hlength
  obtain hplain | ⟨x, _, hmarked⟩ := Hex.unmarkChars_cases text.toList
  · rw [Hex.decode?, hplain] at hbs
    rw [Hex.not_isMarked_of_ofChars? hbs] at h
    cases h
  · have hlonger := congrArg List.length hmarked
    simp only [List.length_cons] at hlonger
    omega

theorem decodes_iff (h : (Value.text (Hex.mark text)).IsBytesText ∨
      (Value.text (Hex.mark text)).IsOddLine) :
    (∃ bs, Hex.decode? (Hex.mark text) = some bs ∧ Hex.encode bs = Text.lowered text) ↔
      Hex.isMarked text.toList = false ∧ '\n' ∉ text.toList := by
  cases hmarked : Hex.isMarked text.toList with
  | true =>
    refine iff_of_false ?_ fun h => Bool.noConfusion h.1
    rintro ⟨bs, hbs, hencode⟩
    have hmark : Hex.mark text = text := if_pos hmarked
    rw [hmark] at hbs
    exact encode_ne_of_isMarked hmarked hbs hencode
  | false =>
    obtain ⟨hmark, hdecode⟩ := decode?_mark hmarked
    rw [hdecode, and_iff_right rfl]
    constructor
    · rintro ⟨bs, hbs, _⟩ hend
      have hdigits := (Hex.exists_ofChars?_iff.mp ⟨bs, hbs⟩).2
      exact absurd (hdigits _ hend) (by decide)
    · intro hend
      obtain ⟨digits, hdigits, heven⟩ | ⟨digits, hdigits, _⟩ := h
      · have htext : text.toList = digits := by
          have hlists := hmark.symm.trans hdigits.toList
          simpa using hlists
        obtain ⟨bs, hbs⟩ := Hex.exists_ofChars?_iff.mpr ⟨heven, hdigits.areDigits⟩
        refine ⟨bs, by rw [htext, hbs], ?_⟩
        rw [Hex.encode, Hex.chars_of_ofChars? hbs, Text.lowered, htext]
      · have htext : text.toList = digits ++ ['\n'] := by
          have hlists := hmark.symm.trans hdigits.toList
          simpa using hlists
        rw [htext] at hend
        simp at hend

variable {d : Deployment} {m m' : Memory} {es : List Exchange} {r : Except Failure Contract}

theorem run_carries {t : String} (hp : payload d.binary d.arguments = .ok (.text t))
    (h : d.run.Path m es r m') : ∀ q reply, .asked q reply ∈ es → q.Carries (.text t) := by
  obtain ⟨failure, hf, _⟩ | ⟨data, reply, m₁, rest, notices, hdata, hx, _, rfl, hnotices⟩ :=
    run_path h
  · cases hp.symm.trans hf
  · cases hp.symm.trans hdata
    intro q answer hmem
    rw [List.mem_append, List.mem_append] at hmem
    obtain (htold | hasked) | htold := hmem
    · exact absurd htold (asked_notMem_announcement q answer)
    · obtain ⟨amount, hq⟩ := (Execution.run_asks _ _ _ _ _).path hx q answer hasked
      exact hq.carries rfl
    · obtain ⟨n, hn⟩ := hnotices _ htold
      cases hn

theorem run_of_payload_error {failure : Failure}
    (hp : payload d.binary d.arguments = .error failure) (h : d.run.Path m es r m') :
    (∀ q reply, .asked q reply ∉ es) ∧ r = .error failure := by
  obtain ⟨failure', hf, rfl, rfl⟩ | ⟨data, _, _, _, _, hdata, _⟩ := run_path h
  · cases hp.symm.trans hf
    exact ⟨asked_notMem_announcement, rfl⟩
  · cases hp.symm.trans hdata

/-- The mark and the digits of whole bytes pass the check of a payload, and so does an odd number of
digits with a line end; all other values are refused by an error about the field. A deployment sends
what passes the check and asks nothing if nothing does. What it sends is read back as the bytes of
its two texts exactly if these, joined without their marks, bear no mark and have no line end. -/
theorem payload_exact (v : Value) (field : String) (d : Deployment) :
    ((∀ w, Input.hex v field = .ok w ↔ w = v ∧ (v.IsBytesText ∨ v.IsOddLine)) ∧
      (¬(v.IsBytesText ∨ v.IsOddLine) → ∃ cause, cause.field = .text field ∧
        Input.hex v field = .error (.client (.validation cause)))) ∧
    ∀ binary arguments m es r m',
      d.binary = .text binary → d.arguments = .text arguments → d.run.Path m es r m' →
      let v := Value.text (sent binary arguments)
      ((v.IsBytesText ∨ v.IsOddLine) ∧ (∀ q reply, .asked q reply ∈ es → q.Carries v) ∧
        ((∃ bs, Hex.decode? (sent binary arguments) = some bs ∧
            Hex.encode bs = Text.lowered (joined binary arguments)) ↔
          Hex.isMarked (joined binary arguments).toList = false ∧
            '\n' ∉ (joined binary arguments).toList)) ∨
      (¬(v.IsBytesText ∨ v.IsOddLine) ∧ (∀ q reply, .asked q reply ∉ es) ∧
        ∃ cause, cause.field = .text "binary" ∧ r = .error (.client (.validation cause))) := by
  refine ⟨⟨fun w => Input.hex_eq_ok_iff, fun hv => ?_⟩, ?_⟩
  · obtain ⟨h, _⟩ | ⟨_, hrefused⟩ := Input.hex_cases v field
    · exact absurd h hv
    · exact hrefused
  · intro binary arguments m es r m' hbinary harguments h v
    have hpayload : payload d.binary d.arguments = Input.hex v "binary" := by
      rw [hbinary, harguments]
      exact payload_eq_hex binary arguments
    obtain ⟨hv, hhex⟩ | ⟨hv, cause, hcause, hhex⟩ := Input.hex_cases v "binary"
    · rw [hhex] at hpayload
      exact .inl ⟨hv, run_carries hpayload h, decodes_iff hv⟩
    · rw [hhex] at hpayload
      obtain ⟨hasked, hr⟩ := run_of_payload_error hpayload h
      exact .inr ⟨hv, hasked, cause, hcause, hr⟩

/-- Three digits and a line end are no bytes, and of two marks one is left. -/
theorem other_payloads_pass :
    (Input.hex (.text "0xabc\n") = .ok (.text "0xabc\n") ∧
      ¬(Value.text "0xabc\n").IsBytesText ∧ Hex.decode? "0xabc\n" = none) ∧
    payload (.text "0x0x60") (.text "") = .ok (.text "0x60") ∧ joined "0x0x60" "" = "0x60" ∧
      ¬∃ bs, Hex.decode? "0x60" = some bs ∧ Hex.encode bs = Text.lowered "0x60" := by
  refine ⟨⟨rfl, ?_, by decide +kernel⟩, ?_, by decide +kernel, ?_⟩
  · rintro ⟨digits, h, _⟩
    have hdigits : ['a', 'b', 'c', '\n'] = digits ++ [] :=
      (List.cons.inj (List.cons.inj h.toList).2).2
    rw [List.append_nil] at hdigits
    exact absurd (h.areDigits '\n' (hdigits ▸ by decide)) (by decide)
  · rw [payload_eq_hex]
    rfl
  · rintro ⟨bs, hbs, hencode⟩
    exact encode_ne_of_isMarked (by decide +kernel) hbs hencode

end Deployment
end EvmClient
