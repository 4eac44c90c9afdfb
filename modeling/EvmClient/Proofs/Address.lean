import EvmClient.Input
import EvmClient.Proofs.Hex
import EvmClient.Proofs.Outcome
import EvmClient.Text.Search

/-!
# Checked addresses

A text that passes the check is the mark `0x` and forty digits. The shape that is asked of it lets a
line end follow, but a text with a line end has no checksum form. The checksum form differs from the
text in the case of its letters alone.
-/

set_option autoImplicit false

namespace EvmClient

namespace Address

theorem withoutLineEnd_eq_iff {cs ds : List Char} (h : '\n' ∉ ds) :
    withoutLineEnd cs = ds ↔ cs = ds ∨ cs = ds ++ ['\n'] := by
  unfold withoutLineEnd
  by_cases hend : cs.getLast? = some '\n'
  · rw [if_pos hend]
    obtain ⟨before, rfl⟩ := List.getLast?_eq_some_iff.mp hend
    rw [List.dropLast_concat, List.append_left_inj]
    refine (or_iff_right fun heq => h ?_).symm
    rw [← heq]
    simp
  · rw [if_neg hend]
    refine (or_iff_left fun heq => hend ?_).symm
    rw [heq, List.getLast?_concat]

theorem lineEnd_notMem {digits : List Char} (h : ∀ c ∈ digits, Hex.isDigit c = true) :
    '\n' ∉ '0' :: 'x' :: digits := by
  simp only [List.mem_cons, not_or]
  exact ⟨by decide, by decide, fun hmem => absurd (h _ hmem) (by decide)⟩

theorem isChars_iff {cs : List Char} :
    isChars cs = true ↔
      ∃ digits, cs = '0' :: 'x' :: digits ∧ digits.length = 40 ∧
        ∀ c ∈ digits, Hex.isDigit c = true := by
  constructor
  · intro h
    unfold isChars at h
    split at h
    · rename_i digits
      simp only [length, Bool.and_eq_true, beq_iff_eq, List.all_eq_true] at h
      exact ⟨digits, rfl, h⟩
    · cases h
  · rintro ⟨digits, rfl, hlength, hdigits⟩
    simpa [isChars, length, hlength] using hdigits

theorem canonical_text_length {s t : String} (h : canonical (.text s) = .ok t) :
    (Hex.unmarkChars s.toList).length = 40 := by
  by_cases hlength : (Hex.unmarkChars s.toList).length = 2 * length
  · exact hlength
  · simp only [canonical, ofValue, ofText?, ofDigits?, if_neg hlength] at h
    cases h

theorem toLower_capitalize {n : Nat} (hn : n < 16) (digit : Nat) :
    (capitalize (Hex.digitChar n) digit).toLower = Hex.digitChar n := by
  have all : ∀ i : Fin 16, (Hex.digitChar i).toUpper.toLower = Hex.digitChar i ∧
      (Hex.digitChar i).toLower = Hex.digitChar i := by decide
  unfold capitalize
  split
  · exact (all ⟨n, hn⟩).1
  · exact (all ⟨n, hn⟩).2

theorem map_toLower_capitalize {cs : List Char} {digits : List Nat}
    (hcs : ∀ c ∈ cs, ∃ n, n < 16 ∧ c = Hex.digitChar n) (h : cs.length ≤ digits.length) :
    (List.zipWith capitalize cs digits).map Char.toLower = cs := by
  induction cs generalizing digits with
  | nil => rfl
  | cons c cs ih =>
    cases digits with
    | nil => cases h
    | cons digit digits =>
      obtain ⟨n, hn, rfl⟩ := hcs c List.mem_cons_self
      have hrest := ih (fun d hd => hcs d (List.mem_cons_of_mem _ hd)) (Nat.le_of_succ_le_succ h)
      rw [List.zipWith_cons_cons, List.map_cons, toLower_capitalize hn, hrest]

theorem exists_digitChar_of_mem_chars {bs : List UInt8} :
    ∀ c ∈ Hex.chars bs, ∃ n, n < 16 ∧ c = Hex.digitChar n := by
  intro c hc
  obtain ⟨b, _, hc⟩ := List.mem_flatMap.mp hc
  have hb := b.toNat_lt
  simp only [Hex.byteChars, List.mem_cons, List.not_mem_nil, or_false] at hc
  obtain rfl | rfl := hc
  · exact ⟨_, by omega, rfl⟩
  · exact ⟨_, by omega, rfl⟩

theorem map_toLower_checksumDigits {bs : List UInt8} (h : bs.length = length) :
    (checksumDigits bs).map Char.toLower = Hex.chars bs := by
  have hhash : ∀ message, (Hex.chars bs).length ≤
      ((Keccak.hash message).flatMap fun b => [b.toNat / 16, b.toNat % 16]).length := by
    intro message
    have hsum : ∀ hash : List UInt8,
        (hash.flatMap fun b => [b.toNat / 16, b.toNat % 16]).length = 2 * hash.length := by
      intro hash
      induction hash with
      | nil => rfl
      | cons b hash ih =>
        rw [List.flatMap_cons, List.length_append, ih]
        simp only [List.length_cons, List.length_nil]
        omega
    rw [hsum, Hex.length_chars, h, Keccak.length_hash]
    decide
  rw [checksumDigits, map_toLower_capitalize exists_digitChar_of_mem_chars (hhash _)]

theorem lowered_checksumText {bs : List UInt8} (h : bs.length = length) :
    Text.lowered (checksumText bs) = lowerText bs := by
  rw [Text.lowered, checksumText, String.toList_ofList, List.map_cons, List.map_cons,
    map_toLower_checksumDigits h]
  rfl

end Address

namespace Input

theorem address_eq_ok {v : Value} {field t : String} (h : address v field = .ok t) :
    ∃ s, v = .text s ∧ Address.isText s = true ∧ Address.canonical v = .ok t := by
  unfold address at h
  by_cases ht : v.isTruthy = true
  · simp only [ht, Bool.not_true, Bool.false_eq_true, if_false] at h
    cases v with
    | text s =>
      by_cases hs : Address.isText s = true
      · simp only [hs, if_true] at h
        exact ⟨s, rfl, hs, Outcome.ofDefect_eq_ok.mp h⟩
      · simp only [hs] at h
        exact absurd h fail_ne_ok
    | _ =>
      obtain ⟨_, _, h⟩ := bind_eq_ok.mp h
      exact absurd h fail_ne_ok
  · simp only [ht] at h
    exact absurd h fail_ne_ok

theorem address_chars {s field t : String} (h : address (.text s) field = .ok t) :
    ∃ digits, s.toList = '0' :: 'x' :: digits ∧ digits.length = 40 ∧
      ∀ c ∈ digits, Hex.isDigit c = true := by
  obtain ⟨_, heq, hs, hc⟩ := address_eq_ok h
  cases heq
  have hlength := Address.canonical_text_length hc
  unfold Address.isText Address.withoutLineEnd at hs
  by_cases hend : s.toList.getLast? = some '\n'
  · rw [if_pos hend] at hs
    obtain ⟨before, hbefore⟩ := List.getLast?_eq_some_iff.mp hend
    rw [hbefore, List.dropLast_concat] at hs
    obtain ⟨digits, rfl, hdigits, _⟩ := Address.isChars_iff.mp hs
    rw [hbefore] at hlength
    simp [Hex.unmarkChars, hdigits] at hlength
  · rw [if_neg hend] at hs
    exact Address.isChars_iff.mp hs

/-- The checksum form of a text that passes the check is the text, up to the case of letters. -/
theorem lowered_address {s field t : String} (h : address (.text s) field = .ok t) :
    Text.lowered t = Text.lowered s := by
  obtain ⟨digits, hs, hlength, _⟩ := address_chars h
  obtain ⟨_, heq, _, hc⟩ := address_eq_ok h
  cases heq
  have hdigits : Address.ofText? s = Hex.ofChars? digits := by
    rw [Address.ofText?, Address.ofDigits?, hs]
    exact if_pos hlength
  obtain ⟨bs, hbs, rfl⟩ := map_eq_ok.mp hc
  cases hread : Hex.ofChars? digits with
  | none =>
    rw [Address.ofValue, hdigits, hread] at hbs
    cases hbs
  | some bytes =>
    rw [Address.ofValue, hdigits, hread] at hbs
    cases hbs
    have hchars := Hex.chars_of_ofChars? hread
    have hbytes : bs.length = Address.length := by
      have hboth := congrArg List.length hchars
      rw [Hex.length_chars, List.length_map, hlength] at hboth
      exact Nat.eq_of_mul_eq_mul_left (by decide : 0 < 2) hboth
    rw [Address.lowered_checksumText hbytes, Address.lowerText, Hex.markedText, hchars,
      Text.lowered, hs]
    rfl

end Input
end EvmClient
