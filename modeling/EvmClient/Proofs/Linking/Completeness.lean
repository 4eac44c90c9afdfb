import EvmClient.Proofs.Linking.Substitution
import EvmClient.Proofs.Text.Occurrence

/-!
# Linking leaves nothing to link

In text of any kind placeholders may overlap, themselves and each other. Still every pass of linking
does away with its placeholder for good: placeholders have underscores at both ends and addresses
have none. `LinkReference.link_complete` says what this comes to for a list of references.
-/

set_option autoImplicit false

namespace EvmClient

/-! ## References -/

namespace LinkReference

variable {k : TextHash} {r : LinkReference} {references : List LinkReference}

/-- The address was accepted when the reference was made, and the names of the library leave room
for an underscore behind them. -/
structure Fits (r : LinkReference) : Prop where
  isChecked : check r.library (.text r.address) = .ok r
  short : r.library.qualifiedName.length ≤ 37

def passes (k : TextHash) (references : List LinkReference) : List (List Char × List Char) :=
  references.flatMap fun r => (r.library.placeholders k).map (·, r.replacement)

theorem link_eq_replaceEach (references : List LinkReference) (code : String) :
    link references code k =
      String.ofList (Text.replaceEach (passes k references) code.toList) := by
  rw [link, passes, Text.replaceEach, List.foldl_flatMap]
  simp only [List.foldl_map]
  rfl

theorem mem_passes {pass : List Char × List Char} :
    pass ∈ passes k references ↔
      ∃ r ∈ references, ∃ p ∈ r.library.placeholders k, pass = (p, r.replacement) := by
  simp only [passes, List.mem_flatMap, List.mem_map, eq_comm]

theorem Fits.edgeless (h : r.Fits) :
    Text.IsEdgeless '_' Library.placeholderLength r.replacement where
  clean hmem := Hex.ne_underscore_of_digit (isDigit_of_mem_replacement h.isChecked _ hmem) rfl
  length := length_replacement h.isChecked

end LinkReference

namespace Library

theorem padded_isEdged {name : List Char} (h : name.length ≤ 37) :
    Text.IsEdged '_' placeholderLength (padded name) := by
  have hroom : placeholderLength - name.length - 2 = (37 - name.length) + 1 := by
    simp only [placeholderLength]
    omega
  have hpadded : padded name =
      '_' :: '_' :: name ++ List.replicate (37 - name.length) '_' ++ ['_'] := by
    rw [padded, hroom, List.replicate_succ', List.append_assoc]
  refine ⟨rfl, ?_, ?_⟩
  · rw [hpadded, List.getLast?_concat]
  · rw [hpadded]
    simp only [List.length_append, List.length_cons, List.length_replicate, List.length_nil,
      placeholderLength]
    omega

theorem placeholder_isEdged {l : Library} {k : TextHash} {p : List Char}
    (h : l.qualifiedName.length ≤ 37) (hp : p ∈ l.placeholders k) :
    Text.IsEdged '_' placeholderLength p := by
  rw [← String.length_toList] at h
  simp only [placeholders, List.mem_cons, List.not_mem_nil, or_false] at hp
  obtain rfl | rfl | rfl := hp
  · obtain ⟨hbody, heq⟩ := hashBody_isBody (k.length_hash l.qualifiedName)
    rw [heq]
    exact padded_isEdged (Nat.le_succ_of_le hbody.short)
  · exact padded_isEdged h
  · refine padded_isEdged ?_
    rw [qualifiedName_toList, List.length_append, List.length_cons] at h
    omega

end Library

namespace LinkReference

variable {k : TextHash} {references : List LinkReference}

theorem isPass_of_fits (h : ∀ r ∈ references, r.Fits) :
    ∀ pass ∈ passes k references, Text.IsPass '_' Library.placeholderLength pass := by
  intro pass hmem
  obtain ⟨r, hr, p, hp, rfl⟩ := mem_passes.mp hmem
  exact ⟨Library.placeholder_isEdged (h r hr).short hp, (h r hr).edgeless⟩

/-- Whatever the text is, linking keeps its length, leaves no placeholder of any reference in it,
and changes it only where one stood. To link again changes nothing. -/
theorem link_complete (k : TextHash) (references : List LinkReference) (code : String)
    (h : ∀ r ∈ references, r.Fits) :
    (link references code k).length = code.length ∧
    (∀ r ∈ references, ∀ p ∈ r.library.placeholders k,
      Text.occursIn p (link references code k).toList = false) ∧
    link references (link references code k) k = link references code k ∧
    ∀ i, (link references code k).toList[i]? = code.toList[i]? ∨
      ∃ r ∈ references, ∃ p ∈ r.library.placeholders k, Text.Covered p code.toList i := by
  have hpasses : ∀ pass ∈ passes k references, Text.IsPass '_' Library.placeholderLength pass :=
    isPass_of_fits h
  have htext : (link references code k).toList =
      Text.replaceEach (passes k references) code.toList := by
    rw [link_eq_replaceEach, String.toList_ofList]
  have hgone : ∀ pass ∈ passes k references,
      Text.occursIn pass.1 (link references code k).toList = false := by
    intro pass hmem
    rw [htext]
    exact Text.IsPass.occursIn_replaceEach hpasses hmem _
  refine ⟨?_, ?_, ?_, ?_⟩
  · rw [← String.length_toList, htext, Text.IsPass.length_replaceEach hpasses,
      String.length_toList]
  · intro r hr p hp
    exact hgone (p, r.replacement) (mem_passes.mpr ⟨r, hr, p, hp, rfl⟩)
  · rw [link_eq_replaceEach, Text.IsPass.replaceEach_of_absent hpasses hgone, String.ofList_toList]
  · intro i
    rw [htext]
    refine (Text.IsPass.getElem?_replaceEach hpasses code.toList i).imp_right ?_
    rintro ⟨pass, hmem, hcovered⟩
    obtain ⟨r, hr, p, hp, rfl⟩ := mem_passes.mp hmem
    exact ⟨r, hr, p, hp, hcovered⟩

def underscored : LinkReference :=
  ⟨⟨"", "_"⟩, "0x00000000000000000000000000000000000000AA"⟩

def crowded : String := String.ofList (List.replicate 41 '_')

theorem crowded_linked :
    underscored.Fits ∧
    (Text.OccursAt (Library.padded ['_']) crowded.toList 0 ∧
      Text.OccursAt (Library.padded ['_']) crowded.toList 1) ∧
    link [underscored] crowded = "00000000000000000000000000000000000000aa_" ∧
    Text.occursIn (Library.padded ['_']) (link [underscored] crowded).toList = false ∧
    link [underscored] (link [underscored] crowded) = link [underscored] crowded := by
  have hfits : underscored.Fits := ⟨rfl, by decide⟩
  obtain ⟨_, hgone, hagain, _⟩ := link_complete .keccak [underscored] crowded
    (List.forall_mem_singleton.mpr hfits)
  have hmem : Library.padded ['_'] ∈ underscored.library.placeholders :=
    .tail _ (.tail _ (.head _))
  exact ⟨hfits, ⟨⟨['_'], rfl⟩, ⟨[], rfl⟩⟩, rfl, hgone _ List.mem_cons_self _ hmem, hagain⟩

end LinkReference
end EvmClient
