import EvmClient.Proofs.Bytecode

/-!
# Code in front of metadata

What is compared is always some of the code that stands in front of a metadata section, even where
markers stand within this code or begin in it and end in the section. So code that a binary has is
found there whatever the section says and whatever is around the code in the binary; the main
statement is `Bytecode.isValid_ignores_metadata`.
-/

set_option autoImplicit false

namespace EvmClient.Bytecode

/-- Nothing, or text that begins with a marker. -/
def IsMetadata (cs : List Char) : Prop := cs = [] ∨ ∃ marker ∈ metadataMarkers, marker <+: cs

section

variable {code metadata : List Char} {n : Nat}

theorem le_of_isMetadata (hmetadata : IsMetadata metadata)
    (h : Text.IsCut metadataMarkers (code ++ metadata) n) : n ≤ code.length := by
  obtain rfl | ⟨marker, hmem, hbegins⟩ := hmetadata
  · have hle := h.le
    rwa [List.append_nil] at hle
  · apply h.le_of_stands hmem
    rwa [Text.OccursAt, List.drop_left]

theorem ne_zero_iff_of_isCut (hcode : code ≠ []) (h : Text.IsCut metadataMarkers code n) :
    n ≠ 0 ↔ ∀ marker ∈ metadataMarkers, ¬Text.OccursAt marker code 0 := by
  constructor
  · intro hn
    exact h.before 0 (Nat.pos_of_ne_zero hn)
  · rintro hstart rfl
    obtain hend | ⟨marker, hmem, hoccurs⟩ := h.stands
    · exact hcode (List.length_eq_zero_iff.mp hend.symm)
    · exact hstart marker hmem hoccurs

theorem exists_matchesText_iff (hmetadata : IsMetadata metadata) (before after : List Char) :
    (∃ n i, MatchesText (code ++ metadata) (before ++ code ++ after) n i) ↔
      code ≠ [] ∧ ∀ marker ∈ metadataMarkers, ¬Text.OccursAt marker (code ++ metadata) 0 := by
  constructor
  · rintro ⟨n, i, hcut, hn, _⟩
    have hle := le_of_isMetadata hmetadata hcut
    have hcode : code ≠ [] := by
      rintro rfl
      exact hn (Nat.le_zero.mp hle)
    exact ⟨hcode, (ne_zero_iff_of_isCut (List.append_ne_nil_of_left_ne_nil hcode _) hcut).mp hn⟩
  · rintro ⟨hcode, hstart⟩
    obtain ⟨n, hcut, _⟩ := Text.exists_beforeMarker metadataMarkers (code ++ metadata)
    have hn := (ne_zero_iff_of_isCut (List.append_ne_nil_of_left_ne_nil hcode _) hcut).mpr hstart
    refine ⟨n, before.length, hcut, hn, ?_⟩
    rw [List.take_append_of_le_length (le_of_isMetadata hmetadata hcut), Text.OccursAt,
      List.append_assoc, List.drop_left]
    exact (List.take_prefix n code).trans (List.prefix_append code after)

end

/-- Code is found in a binary that has it, whatever metadata is behind it and whatever is around it
there, unless a marker stands at its very start: then nothing is left of it, and nothing found. -/
theorem isValid_ignores_metadata (code metadata before after : String)
    (hmetadata : IsMetadata metadata.toList) :
    ∃ found,
      isValid (.text ("0x" ++ (code ++ metadata))) (.text (before ++ code ++ after)) = .ok found ∧
      (found = true ↔ code ≠ "" ∧
        ∀ marker ∈ metadataMarkers, ¬Text.OccursAt marker (code ++ metadata).toList 0) := by
  have hmark : ("0x" ++ (code ++ metadata)).toList = '0' :: 'x' :: (code ++ metadata).toList :=
    String.toList_append
  refine ⟨_, isValid_text _ _, ?_⟩
  rw [searched_iff, hmark, Hex.unmarkChars, String.toList_append, String.toList_append,
    String.toList_append, exists_matchesText_iff hmetadata, ne_eq, String.toList_eq_nil_iff]

theorem straddling_marker_ignored :
    IsMetadata "a165627a7a72305820ff".toList ∧
      Text.OccursAt "a164736f6c634300080a000a".toList
        ("60a164736f6c634300080a000" ++ "a165627a7a72305820ff").toList 2 ∧
      isValid (.text ("0x" ++ ("60a164736f6c634300080a000" ++ "a165627a7a72305820ff")))
        (.text ("5b" ++ "60a164736f6c634300080a000" ++ "a26469")) = .ok true := by
  have hmetadata : IsMetadata "a165627a7a72305820ff".toList := .inr (by decide)
  obtain ⟨found, hvalid, hfound⟩ :=
    isValid_ignores_metadata "60a164736f6c634300080a000" "a165627a7a72305820ff" "5b" "a26469"
      hmetadata
  rw [hfound.mpr ⟨by decide, by decide⟩] at hvalid
  exact ⟨hmetadata, by decide, hvalid⟩

end EvmClient.Bytecode
