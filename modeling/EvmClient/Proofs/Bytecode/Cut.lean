import EvmClient.Proofs.Bytecode

/-!
# Where code is cut

`Text.beforeMarker` goes through a text once and looks for all markers at each place. One can also
look for each marker by itself and cut at the least place found. `Text.beforeLeastPlace` is this
search, and it comes to the same text in whatever order the markers are looked for. What is left of
code is then described by `Text.IsFront` without any search; the main statement is
`Bytecode.stripped_is_front`.
-/

set_option autoImplicit false

namespace EvmClient

namespace Text

def firstPlace? (pattern : List Char) : List Char → Option Nat
  | [] => if pattern.isEmpty then some 0 else none
  | c :: cs =>
    if pattern.isPrefixOf (c :: cs) then some 0 else (firstPlace? pattern cs).map (· + 1)

def leastPlace? (markers : List (List Char)) (cs : List Char) : Option Nat :=
  (markers.filterMap (firstPlace? · cs)).min?

def beforeLeastPlace (markers : List (List Char)) (cs : List Char) : List Char :=
  match leastPlace? markers cs with
  | some n => cs.take n
  | none => cs

section

variable {pattern cs front other : List Char} {markers order : List (List Char)} {i n : Nat}

theorem occursAt_cons_succ {c : Char} :
    OccursAt pattern (c :: cs) (i + 1) ↔ OccursAt pattern cs i := Iff.rfl

theorem firstPlace?_eq_some_iff :
    firstPlace? pattern cs = some n ↔
      n ≤ cs.length ∧ OccursAt pattern cs n ∧ ∀ i < n, ¬OccursAt pattern cs i := by
  induction cs generalizing n with
  | nil => cases n <;> simp [firstPlace?, OccursAt]
  | cons c cs ih =>
    by_cases hbegins : pattern <+: c :: cs
    · rw [firstPlace?, if_pos (List.isPrefixOf_iff_prefix.mpr hbegins), Option.some.injEq]
      constructor
      · rintro rfl
        exact ⟨Nat.zero_le _, hbegins, fun i hi => absurd hi (Nat.not_lt_zero i)⟩
      · rintro ⟨_, _, hfirst⟩
        exact (Nat.eq_zero_of_not_pos fun hn => hfirst 0 hn hbegins).symm
    · rw [firstPlace?, if_neg (mt List.isPrefixOf_iff_prefix.mp hbegins)]
      cases n with
      | zero =>
        have hzero : ¬OccursAt pattern (c :: cs) 0 := hbegins
        simp [hzero]
      | succ n =>
        have hmap : (firstPlace? pattern cs).map (· + 1) = some (n + 1) ↔
            firstPlace? pattern cs = some n := by
          simp
        rw [hmap, ih, occursAt_cons_succ, List.length_cons, Nat.add_le_add_iff_right]
        refine and_congr_right fun _ => and_congr_right fun _ =>
          ⟨fun h i hi => ?_, fun h i hi => ?_⟩
        · cases i with
          | zero => exact hbegins
          | succ i => exact h i (Nat.lt_of_succ_lt_succ hi)
        · exact h (i + 1) (Nat.succ_lt_succ hi)

theorem firstPlace?_eq_none_iff : firstPlace? pattern cs = none ↔ ¬pattern <:+: cs := by
  induction cs with
  | nil => simp [firstPlace?]
  | cons c cs ih =>
    rw [firstPlace?, List.infix_cons_iff, not_or, ← ih]
    by_cases hbegins : pattern <+: c :: cs
    · rw [if_pos (List.isPrefixOf_iff_prefix.mpr hbegins)]
      simp [hbegins]
    · rw [if_neg (mt List.isPrefixOf_iff_prefix.mp hbegins), Option.map_eq_none_iff]
      simp [hbegins]

theorem exists_firstPlace? (h : OccursAt pattern cs i) :
    ∃ n ≤ i, firstPlace? pattern cs = some n := by
  cases hplace : firstPlace? pattern cs with
  | none => exact absurd h.isInfix (firstPlace?_eq_none_iff.mp hplace)
  | some n =>
    obtain ⟨_, _, hfirst⟩ := firstPlace?_eq_some_iff.mp hplace
    exact ⟨n, Nat.le_of_not_lt fun hi => hfirst i hi h, rfl⟩

theorem leastPlace?_eq_none_iff :
    leastPlace? markers cs = none ↔ ∀ marker ∈ markers, ¬marker <:+: cs := by
  rw [leastPlace?, List.min?_eq_none_iff, List.filterMap_eq_nil_iff]
  exact forall₂_congr fun _ _ => firstPlace?_eq_none_iff

theorem isCut_of_leastPlace? (h : leastPlace? markers cs = some n) :
    IsCut markers cs n ∧ ∃ marker ∈ markers, OccursAt marker cs n := by
  obtain ⟨hmem, hleast⟩ := List.min?_eq_some_iff.mp h
  obtain ⟨marker, hmarker, hplace⟩ := List.mem_filterMap.mp hmem
  obtain ⟨hle, hoccurs, _⟩ := firstPlace?_eq_some_iff.mp hplace
  refine ⟨⟨hle, ?_, .inr ⟨marker, hmarker, hoccurs⟩⟩, marker, hmarker, hoccurs⟩
  intro i hi other hother hstands
  obtain ⟨k, hk, hfirst⟩ := exists_firstPlace? hstands
  have hn := hleast k (List.mem_filterMap.mpr ⟨other, hother, hfirst⟩)
  omega

/-! ## What is in front of the markers -/

/-- A front of a text: no marker stands before its end, and one stands there unless the front is
all of a text without markers. -/
structure IsFront (markers : List (List Char)) (cs front : List Char) : Prop where
  begins : front <+: cs
  before : ∀ marker ∈ markers, ∀ i < front.length, ¬OccursAt marker cs i
  ends : (front = cs ∧ ∀ marker ∈ markers, ¬marker <:+: cs) ∨
    ∃ marker ∈ markers, OccursAt marker cs front.length

theorem isFront_beforeLeastPlace (markers : List (List Char)) (cs : List Char) :
    IsFront markers cs (beforeLeastPlace markers cs) := by
  rw [beforeLeastPlace]
  cases hplace : leastPlace? markers cs with
  | none =>
    have habsent := leastPlace?_eq_none_iff.mp hplace
    refine ⟨List.prefix_refl cs, ?_, .inl ⟨rfl, habsent⟩⟩
    intro marker hmem i _ hoccurs
    exact habsent marker hmem hoccurs.isInfix
  | some n =>
    obtain ⟨hcut, hstands⟩ := isCut_of_leastPlace? hplace
    have hlength : (cs.take n).length = n := List.length_take_of_le hcut.le
    refine ⟨List.take_prefix n cs, ?_, .inr (hlength.symm ▸ hstands)⟩
    intro marker hmem i hi
    exact hcut.before i (hlength ▸ hi) marker hmem

namespace IsFront

theorem isCut (h : IsFront markers cs front) : IsCut markers cs front.length := by
  refine ⟨h.begins.length_le, fun i hi marker hmem => h.before marker hmem i hi, ?_⟩
  exact h.ends.imp_left fun hall => congrArg List.length hall.1

theorem eq_take (h : IsFront markers cs front) : front = cs.take front.length :=
  List.prefix_iff_eq_take.mp h.begins

theorem unique (h : IsFront markers cs front) (h' : IsFront markers cs other) : front = other := by
  rw [h.eq_take, h.isCut.unique h'.isCut, ← h'.eq_take]

theorem perm (h : IsFront markers cs front) (hperm : order.Perm markers) :
    IsFront order cs front := by
  refine ⟨h.begins, fun marker hmem => h.before marker (hperm.mem_iff.mp hmem), ?_⟩
  simpa only [hperm.mem_iff] using h.ends

theorem absent (h : IsFront markers cs front) {marker : List Char} (hmem : marker ∈ markers)
    (hmarker : marker ≠ []) : ¬marker <:+: front := by
  rintro ⟨before, after, hfront⟩
  have hlength := congrArg List.length hfront
  rw [List.length_append, List.length_append] at hlength
  have hpos := List.length_pos_iff.mpr hmarker
  apply h.before marker hmem before.length (by omega)
  obtain ⟨rest, rfl⟩ := h.begins
  rw [OccursAt, ← hfront, List.append_assoc, List.append_assoc, List.drop_left]
  exact List.prefix_append marker _

end IsFront

theorem isFront_beforeMarker (markers : List (List Char)) (cs : List Char) :
    IsFront markers cs (beforeMarker markers cs) := by
  obtain ⟨n, hcut, heq⟩ := exists_beforeMarker markers cs
  have h := isFront_beforeLeastPlace markers cs
  rwa [heq, hcut.unique h.isCut, ← h.eq_take]

/-- One pass for all markers and a search for each of them in any order cut at the same place. -/
theorem beforeLeastPlace_eq_beforeMarker (hperm : order.Perm markers) (cs : List Char) :
    beforeLeastPlace order cs = beforeMarker markers cs :=
  (isFront_beforeLeastPlace order cs).unique ((isFront_beforeMarker markers cs).perm hperm)

theorem beforeMarker_of_absent (h : ∀ marker ∈ markers, ¬marker <:+: cs) :
    beforeMarker markers cs = cs :=
  (isFront_beforeMarker markers cs).unique
    ⟨List.prefix_refl cs, fun marker hmem _ _ hoccurs => h marker hmem hoccurs.isInfix,
      .inl ⟨rfl, h⟩⟩

end

end Text

namespace Bytecode

theorem ne_nil_of_mem_metadataMarkers : ∀ marker ∈ metadataMarkers, marker ≠ [] := by decide

theorem metadataMarker_absent (cs : List Char) {marker : List Char}
    (hmem : marker ∈ metadataMarkers) : ¬marker <:+: withoutMetadata cs :=
  (Text.isFront_beforeMarker metadataMarkers (Hex.unmarkChars cs)).absent hmem
    (ne_nil_of_mem_metadataMarkers marker hmem)

theorem mem_of_mem_withoutMetadata {cs : List Char} {d : Char} (h : d ∈ withoutMetadata cs) :
    d ∈ Hex.unmarkChars cs :=
  (Text.isFront_beforeMarker metadataMarkers (Hex.unmarkChars cs)).begins.subset h

/-- Code is cut at the first marker, in whatever order the markers are looked for. What is left is
the one front of the code, has no marker in it, and is not cut again. -/
theorem stripped_is_front (code : String) (order : List (List Char))
    (horder : order.Perm metadataMarkers) :
    ∃ front, stripped (.text code) = .ok front ∧
      Text.beforeLeastPlace order (Hex.unmarkChars code.toList) = front ∧
      Text.IsFront order (Hex.unmarkChars code.toList) front ∧
      (∀ other, Text.IsFront order (Hex.unmarkChars code.toList) other → other = front) ∧
      (∀ marker ∈ order, ¬marker <:+: front) ∧
      ((∀ d ∈ Hex.unmarkChars code.toList, Hex.isDigit d = true) →
        stripped (.text (String.ofList front)) = .ok front) := by
  have hfront := (Text.isFront_beforeMarker metadataMarkers (Hex.unmarkChars code.toList)).perm
    horder
  have habsent : ∀ marker ∈ metadataMarkers, ¬marker <:+: withoutMetadata code.toList :=
    fun _ hmem => metadataMarker_absent code.toList hmem
  refine ⟨withoutMetadata code.toList, stripped_text code,
    Text.beforeLeastPlace_eq_beforeMarker horder _, hfront,
    fun other hother => hother.unique hfront, ?_, ?_⟩
  · intro marker hmem
    exact habsent marker (horder.mem_iff.mp hmem)
  · intro hdigits
    have hplain : Hex.unmarkChars (withoutMetadata code.toList) = withoutMetadata code.toList :=
      Hex.unmarkChars_of_isDigit fun d hd => hdigits d (mem_of_mem_withoutMetadata hd)
    have hagain : withoutMetadata (withoutMetadata code.toList) = withoutMetadata code.toList :=
      (congrArg (Text.beforeMarker metadataMarkers) hplain).trans
        (Text.beforeMarker_of_absent habsent)
    rw [stripped_text, String.toList_ofList, hagain]

theorem reversed_order_cuts_at_first :
    metadataMarkers.reverse.Perm metadataMarkers ∧
      (∀ d ∈ Hex.unmarkChars "0x60a165627a7a72305820a2646970667358221220ff".toList,
        Hex.isDigit d = true) ∧
      stripped (.text "0x60a165627a7a72305820a2646970667358221220ff") = .ok "60".toList ∧
      Text.beforeLeastPlace metadataMarkers.reverse
        (Hex.unmarkChars "0x60a165627a7a72305820a2646970667358221220ff".toList) = "60".toList ∧
      stripped (.text "60") = .ok "60".toList := by
  have horder : metadataMarkers.reverse.Perm metadataMarkers := List.reverse_perm _
  have hdigits : ∀ d ∈ Hex.unmarkChars "0x60a165627a7a72305820a2646970667358221220ff".toList,
      Hex.isDigit d = true := List.all_eq_true.mp (by decide)
  obtain ⟨front, hstripped, hleast, _, _, _, hagain⟩ :=
    stripped_is_front "0x60a165627a7a72305820a2646970667358221220ff" metadataMarkers.reverse horder
  have hfront : front = "60".toList := by
    rw [← hleast]
    decide
  subst hfront
  exact ⟨horder, hdigits, hstripped, hleast, hagain hdigits⟩

end Bytecode
end EvmClient
