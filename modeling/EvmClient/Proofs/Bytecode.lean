import EvmClient.Bytecode
import EvmClient.Proofs.Hex
import EvmClient.Proofs.Text.Occurrence

/-!
# Digits and bytes of code

Code is cut and searched for as text, digit by digit: a marker may stand half a byte in, and so may
the code in the binary. `Bytecode.MatchesText` is this comparison, and `Bytecode.MatchesBytes` is
the one of bytes. `Bytecode.isValid_searches_text` says where they agree.
-/

set_option autoImplicit false

namespace EvmClient.Bytecode

def markerBytes : List (List UInt8) :=
  [[0xa1, 0x65, 0x62, 0x7a, 0x7a, 0x72, 0x30, 0x58, 0x20],
    [0xa2, 0x65, 0x62, 0x7a, 0x7a, 0x72, 0x31, 0x58, 0x20],
    [0xa2, 0x64, 0x69, 0x70, 0x66, 0x73, 0x58, 0x22, 0x12, 0x20],
    [0xa1, 0x64, 0x73, 0x6f, 0x6c, 0x63, 0x43, 0x00, 0x08, 0x0a, 0x00, 0x0a]]

theorem chars_markerBytes : markerBytes.map Hex.chars = metadataMarkers := by decide

/-- The bytes of code up to the first marker are some, and occur in the bytes of a binary. -/
def MatchesBytes (code binary : List UInt8) : Prop :=
  ∃ n, Text.IsCut markerBytes code n ∧ n ≠ 0 ∧ code.take n <:+: binary

instance (code binary : List UInt8) : Decidable (MatchesBytes code binary) :=
  decidable_of_iff
    (∃ n < code.length + 1, Text.IsCut markerBytes code n ∧ n ≠ 0 ∧
      Text.occursIn (code.take n) binary = true)
    ⟨fun ⟨n, _, hcut, hn, hoccurs⟩ => ⟨n, hcut, hn, Text.occursIn_iff.mp hoccurs⟩,
      fun ⟨n, hcut, hn, hoccurs⟩ =>
        ⟨n, Nat.lt_succ_of_le hcut.le, hcut, hn, Text.occursIn_iff.mpr hoccurs⟩⟩

/-- The digits of code up to the first marker are some, `n` of them, and stand at a place of the
text of a binary. -/
structure MatchesText (code binary : List Char) (n i : Nat) : Prop where
  cut : Text.IsCut metadataMarkers code n
  nonempty : n ≠ 0
  occurs : Text.OccursAt (code.take n) binary i

section

variable {code binary : List UInt8} {n i : Nat}

theorem occursAt_chars_iff {marker bs : List UInt8} :
    Text.OccursAt (Hex.chars marker) (Hex.chars bs) (2 * i) ↔ Text.OccursAt marker bs i := by
  rw [Text.OccursAt, Hex.drop_chars, Hex.chars_begins_iff, Text.OccursAt]

theorem chars_mem_metadataMarkers {marker : List UInt8} (h : marker ∈ markerBytes) :
    Hex.chars marker ∈ metadataMarkers := by
  rw [← chars_markerBytes]
  exact List.mem_map_of_mem h

theorem exists_markerBytes {marker : List Char} (h : marker ∈ metadataMarkers) :
    ∃ bs ∈ markerBytes, Hex.chars bs = marker := by
  rw [← chars_markerBytes] at h
  exact List.mem_map.mp h

theorem isCut_of_chars (h : Text.IsCut metadataMarkers (Hex.chars code) (2 * n)) :
    Text.IsCut markerBytes code n := by
  have hle := h.le
  rw [Hex.length_chars] at hle
  refine ⟨by omega, ?_, ?_⟩
  · intro i hi marker hmem hoccurs
    exact h.before (2 * i) (by omega) _ (chars_mem_metadataMarkers hmem)
      (occursAt_chars_iff.mpr hoccurs)
  · obtain hend | ⟨marker, hmem, hoccurs⟩ := h.stands
    · rw [Hex.length_chars] at hend
      exact .inl (by omega)
    · obtain ⟨bs, hbs, rfl⟩ := exists_markerBytes hmem
      exact .inr ⟨bs, hbs, occursAt_chars_iff.mp hoccurs⟩

/-- Text is cut no later than its bytes are: a marker may stand half a byte in before. -/
theorem le_of_isCut_chars {k : Nat} (h : Text.IsCut markerBytes code n)
    (htext : Text.IsCut metadataMarkers (Hex.chars code) k) : k ≤ 2 * n := by
  obtain rfl | ⟨marker, hmem, hoccurs⟩ := h.stands
  · rw [← Hex.length_chars]
    exact htext.le
  · exact htext.le_of_stands (chars_mem_metadataMarkers hmem) (occursAt_chars_iff.mpr hoccurs)

theorem ne_zero_of_isCut_chars {k : Nat} (h : Text.IsCut markerBytes code n) (hn : n ≠ 0)
    (htext : Text.IsCut metadataMarkers (Hex.chars code) k) : k ≠ 0 := by
  rintro rfl
  exact hn ((isCut_of_chars (n := 0) htext).unique h).symm

theorem MatchesText.of_bytes {text : List Char} (h : MatchesBytes code binary)
    (hbinary : Hex.chars binary <:+: text) : ∃ k i, MatchesText (Hex.chars code) text k i := by
  obtain ⟨n, hcut, hn, before, after, rfl⟩ := h
  obtain ⟨k, htext, _⟩ := Text.exists_beforeMarker metadataMarkers (Hex.chars code)
  have hinfix : (Hex.chars code).take k <:+: text := by
    refine List.IsInfix.trans ?_ hbinary
    rw [Hex.chars_append, Hex.chars_append]
    have hle := le_of_isCut_chars hcut htext
    have hbegins : (Hex.chars code).take k <+: Hex.chars (code.take n) := by
      rw [← Hex.take_chars]
      exact List.take_prefix_take_left hle
    exact hbegins.isInfix.trans (List.infix_append _ _ _)
  obtain ⟨i, hoccurs⟩ := Text.occursIn_iff_occursAt.mp (Text.occursIn_iff.mpr hinfix)
  exact ⟨k, i, htext, ne_zero_of_isCut_chars hcut hn htext, hoccurs⟩

/-- A place between two bytes in the text of a binary, which may carry the mark, is one in its
bytes: the mark is two characters long, and is no part of code. -/
theorem occursAt_of_text {text : List Char} (htext : Hex.unmarkChars text = Hex.chars binary)
    (hcode : code ≠ []) (h : Text.OccursAt (Hex.chars code) text (2 * i)) : code <:+: binary := by
  obtain hplain | ⟨x, hx, hmarked⟩ := Hex.unmarkChars_cases text
  · rw [← hplain, htext] at h
    exact (occursAt_chars_iff.mp h).isInfix
  · rw [hmarked, htext] at h
    cases i with
    | succ i => exact (occursAt_chars_iff.mp h).isInfix
    | zero =>
      cases code with
      | nil => exact absurd rfl hcode
      | cons b bs =>
        obtain ⟨_, hrest⟩ := List.cons_prefix_cons.mp h
        obtain ⟨hdigit, _⟩ := List.cons_prefix_cons.mp hrest
        have hlow : Hex.isDigit (Hex.digitChar (b.toNat % 16)) = true :=
          Hex.isDigit_digitChar (Nat.mod_lt _ (by decide))
        rw [hdigit, hx] at hlow
        cases hlow

theorem MatchesText.bytes {text : List Char} (htext : Hex.unmarkChars text = Hex.chars binary)
    (h : MatchesText (Hex.chars code) text (2 * n) (2 * i)) : MatchesBytes code binary := by
  have hcut := isCut_of_chars h.cut
  have hn : n ≠ 0 := by
    rintro rfl
    exact h.nonempty rfl
  have hcode : code.take n ≠ [] := by
    rw [ne_eq, List.take_eq_nil_iff, not_or, ← List.length_eq_zero_iff]
    have hle := hcut.le
    omega
  have hoccurs := h.occurs
  rw [Hex.take_chars] at hoccurs
  exact ⟨n, hcut, hn, occursAt_of_text htext hcode hoccurs⟩

end

/-! ## What is answered -/

theorem stripped_text (code : String) :
    stripped (.text code) = .ok (withoutMetadata code.toList) := by
  by_cases h : code = ""
  · subst h
    rfl
  · rw [stripped, if_pos (by simpa [Value.isTruthy] using h)]

theorem isValid_text (code binary : String) :
    isValid (.text code) (.text binary) =
      .ok (!(withoutMetadata code.toList).isEmpty &&
        Text.occursIn (withoutMetadata code.toList) binary.toList) := by
  rw [isValid, stripped_text]
  cases h : (withoutMetadata code.toList).isEmpty <;>
    simp [bind, Except.bind, h, Value.contains, pure, Except.pure, String.toList_ofList]

theorem searched_iff (code binary : List Char) :
    (!(withoutMetadata code).isEmpty && Text.occursIn (withoutMetadata code) binary) = true ↔
      ∃ n i, MatchesText (Hex.unmarkChars code) binary n i := by
  obtain ⟨n, hcut, heq⟩ := Text.exists_beforeMarker metadataMarkers (Hex.unmarkChars code)
  have hempty : (withoutMetadata code).isEmpty = true ↔ n = 0 := by
    have hle := hcut.le
    rw [withoutMetadata, heq, List.isEmpty_iff_length_eq_zero, List.length_take]
    omega
  rw [Bool.and_eq_true, Bool.not_eq_true', ← Bool.not_eq_true, hempty,
    Text.occursIn_iff_occursAt, withoutMetadata, heq]
  constructor
  · intro hx
    obtain ⟨hn, i, hoccurs⟩ := hx
    exact ⟨n, i, hcut, hn, hoccurs⟩
  · intro hx
    obtain ⟨m, i, h⟩ := hx
    obtain rfl := hcut.unique h.cut
    exact ⟨h.nonempty, i, h.occurs⟩

/-- The text has the digits of the bytes in lower case, with or without the mark. -/
def Writes (s : String) (bs : List UInt8) : Prop := Hex.unmarkChars s.toList = Hex.chars bs

instance (s : String) (bs : List UInt8) : Decidable (Writes s bs) :=
  inferInstanceAs (Decidable (Hex.unmarkChars s.toList = Hex.chars bs))

/-- Code is always compared with a binary digit by digit, as the two are written. For texts in lower
case this finds what a comparison of bytes finds; it finds more only where a marker or the code
stands half a byte in. -/
theorem isValid_searches_text (code binary : String) :
    ∃ found, isValid (.text code) (.text binary) = .ok found ∧
      (found = true ↔
        ∃ n i, MatchesText (Hex.unmarkChars code.toList) binary.toList n i) ∧
      ∀ codeBytes binaryBytes, Writes code codeBytes → Writes binary binaryBytes →
        (MatchesBytes codeBytes binaryBytes → found = true) ∧
        ∀ n i, MatchesText (Hex.unmarkChars code.toList) binary.toList (2 * n) (2 * i) →
          MatchesBytes codeBytes binaryBytes := by
  refine ⟨_, isValid_text code binary, searched_iff code.toList binary.toList, ?_⟩
  intro codeBytes binaryBytes hcode hbinary
  rw [searched_iff, hcode]
  constructor
  · intro hmatches
    have hdigits : Hex.chars binaryBytes <:+: binary.toList := by
      rw [← hbinary]
      exact (Hex.unmarkChars_suffix binary.toList).isInfix
    exact MatchesText.of_bytes hmatches hdigits
  · intro n i hmatches
    exact hmatches.bytes hbinary

theorem known_code_found :
    (Writes "0x5050" [0x50, 0x50] ∧ Writes "605050" [0x60, 0x50, 0x50] ∧
      MatchesText (Hex.unmarkChars "0x5050".toList) "605050".toList (2 * 2) (2 * 1)) ∧
    MatchesBytes [0x50, 0x50] [0x60, 0x50, 0x50] ∧
    isValid (.text "0x5050") (.text "605050") = .ok true := by
  have hcode : Writes "0x5050" [0x50, 0x50] := by decide
  have hbinary : Writes "605050" [0x60, 0x50, 0x50] := by decide
  have htext : MatchesText (Hex.unmarkChars "0x5050".toList) "605050".toList (2 * 2) (2 * 1) :=
    ⟨by decide, by decide, by decide⟩
  obtain ⟨found, hvalid, _, hbytes⟩ := isValid_searches_text "0x5050" "605050"
  obtain ⟨hcomplete, hsound⟩ := hbytes _ _ hcode hbinary
  have hmatches : MatchesBytes [0x50, 0x50] [0x60, 0x50, 0x50] := hsound 2 1 htext
  rw [hcomplete hmatches] at hvalid
  exact ⟨⟨hcode, hbinary, htext⟩, hmatches, hvalid⟩

/-- The case of a letter changes what is answered, and so does code that stands half a byte in. -/
theorem text_is_not_bytes :
    (Hex.decode? "0xAB" = some [0xab] ∧ Hex.decode? "ab" = some [0xab] ∧
      MatchesBytes [0xab] [0xab] ∧ isValid (.text "0xAB") (.text "ab") = .ok false) ∧
    (Hex.decode? "0x50" = some [0x50] ∧ Hex.decode? "0x0500" = some [0x05, 0x00] ∧
      ¬MatchesBytes [0x50] [0x05, 0x00] ∧
      isValid (.text "0x50") (.text "0x0500") = .ok true) :=
  ⟨⟨by decide, by decide, by decide, rfl⟩, by decide, by decide, by decide, rfl⟩

end EvmClient.Bytecode
