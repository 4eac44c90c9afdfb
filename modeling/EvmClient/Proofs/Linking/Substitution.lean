import EvmClient.Proofs.Address
import EvmClient.Proofs.Linking.Placeholder

/-!
# Linking is substitution by segments

Linking searches the whole text once for each placeholder of each reference, with no notion of where
placeholders stand. For code that is made of digits and of placeholders of well-named libraries it
comes to the same as going through the segments: each search leaves such code behind, so that
neither an address that was put in nor the underscores of a neighbour are ever taken for a
placeholder.
-/

set_option autoImplicit false

namespace EvmClient

/-- A piece of code that may still have to be linked. -/
inductive Segment where
  | code (digits : List Char)
  | placeholder (text : List Char)

namespace Segment

variable {segments : List Segment} {q digits front : List Char} {ps : List (List Char)}

def text : Segment → List Char
  | code digits => digits
  | placeholder t => t

def join (segments : List Segment) : List Char := segments.flatMap text

def IsProper : Segment → Prop
  | code digits => ∀ c ∈ digits, Hex.isDigit c = true
  | placeholder t => ∃ b, Library.IsBody b ∧ t = Library.padded b

def fill (ps : List (List Char)) (digits : List Char) : Segment → Segment
  | code ds => code ds
  | placeholder t => if t ∈ ps then code digits else placeholder t

theorem fill_isProper (hd : ∀ c ∈ digits, Hex.isDigit c = true) {segment : Segment}
    (h : segment.IsProper) : (segment.fill ps digits).IsProper := by
  cases segment with
  | code ds => exact h
  | placeholder t =>
    by_cases ht : t ∈ ps
    · rw [fill, if_pos ht]
      exact hd
    · rw [fill, if_neg ht]
      exact h

theorem fill_cons (p : List Char) (ps : List (List Char)) (digits : List Char)
    (segment : Segment) :
    segment.fill (p :: ps) digits = (segment.fill [p] digits).fill ps digits := by
  cases segment with
  | code ds => rfl
  | placeholder t => by_cases hp : t = p <;> simp [fill, hp]

theorem join_resumes (h : ∀ segment ∈ segments, segment.IsProper) :
    Library.Resumes (join segments) := by
  induction segments with
  | nil => exact ⟨[], [], rfl, by simp, .inl rfl⟩
  | cons segment segments ih =>
    cases segment with
    | code ds =>
      obtain ⟨digits, rest, heq, hdigits, hrest⟩ := ih fun s hs => h s (by simp [hs])
      refine ⟨ds ++ digits, rest, by simp [join, text, ← heq], ?_, hrest⟩
      intro c hc
      obtain hc | hc := List.mem_append.mp hc
      · exact h (code ds) (by simp) c hc
      · exact hdigits c hc
    | placeholder t =>
      obtain ⟨b, hb, rfl⟩ := h (placeholder t) (by simp)
      exact ⟨[], _, rfl, by simp, .inr (hb.opens (join segments))⟩

theorem replaceFrom_front {cs : List Char} (hf : '_' ∉ front) :
    Text.replaceFrom (Library.padded q) digits 0 (front ++ cs) =
      front ++ Text.replaceFrom (Library.padded q) digits 0 cs := by
  refine Text.replaceFrom_append_of_no_start ?_
  intro s hs hsuffix hprefix
  cases s with
  | nil => exact hs rfl
  | cons c s =>
    have hc : '_' = c := (List.cons_prefix_cons.mp hprefix).1
    exact hf (hc ▸ hsuffix.subset (by simp))

theorem replaceFrom_join (hq : Library.IsBody q) (h : ∀ segment ∈ segments, segment.IsProper) :
    Text.replaceFrom (Library.padded q) digits 0 (join segments) =
      join (segments.map (fill [Library.padded q] digits)) := by
  induction segments with
  | nil => rfl
  | cons segment segments ih =>
    have hrest : ∀ s ∈ segments, s.IsProper := fun s hs => h s (by simp [hs])
    have ih := ih hrest
    simp only [join, List.flatMap_cons, List.map_cons] at ih ⊢
    cases segment with
    | code ds =>
      have hno : '_' ∉ ds := by
        intro hmem
        exact Hex.ne_underscore_of_digit (h (code ds) (by simp) _ hmem) rfl
      rw [text, replaceFrom_front hno, ih]
      rfl
    | placeholder t =>
      obtain ⟨b, hb, rfl⟩ := h (placeholder t) (by simp)
      by_cases hbq : b = q
      · subst hbq
        rw [text, Text.replaceFrom_pattern (by simp [Library.padded]), ih]
        simp [fill, text]
      · have hne : Library.padded b ≠ Library.padded q := by
          intro heq
          rw [Library.padded_eq hb.short, Library.padded_eq hq.short] at heq
          simp only [List.cons.injEq, true_and] at heq
          exact hbq (hb.separable.cut hq.separable heq).1
        rw [text, Text.replaceFrom_append_of_no_start, ih]
        · simp [fill, hne, text]
        · intro s hs hsuffix
          exact hq.not_prefix hb hbq (join_resumes hrest) hs hsuffix

theorem replaceAll_join (hq : Library.IsBody q) (hf : '_' ∉ front)
    (h : ∀ segment ∈ segments, segment.IsProper) :
    Text.replaceAll (Library.padded q) digits (front ++ join segments) =
      front ++ join (segments.map (fill [Library.padded q] digits)) := by
  have hq' : (Library.padded q).isEmpty = false := rfl
  rw [Text.replaceAll, hq', if_neg (by decide), replaceFrom_front hf, replaceFrom_join hq h]

theorem foldl_replaceAll_join (hps : ∀ p ∈ ps, ∃ b, Library.IsBody b ∧ p = Library.padded b)
    (hd : ∀ c ∈ digits, Hex.isDigit c = true) (hf : '_' ∉ front)
    (h : ∀ segment ∈ segments, segment.IsProper) :
    ps.foldl (fun cs p => Text.replaceAll p digits cs) (front ++ join segments) =
      front ++ join (segments.map (fill ps digits)) := by
  induction ps generalizing segments with
  | nil =>
    have hid : segments.map (fill [] digits) = segments := by
      refine List.map_id'' (fun segment => ?_) segments
      cases segment <;> simp [fill]
    simp [hid]
  | cons p ps ih =>
    obtain ⟨b, hb, rfl⟩ := hps p (by simp)
    rw [List.foldl_cons, replaceAll_join hb hf h, ih fun p hp => hps p (by simp [hp])]
    · simp only [List.map_map, Function.comp_def, ← fill_cons]
    · intro segment hs
      obtain ⟨s, hmem, rfl⟩ := List.mem_map.mp hs
      exact fill_isProper hd (h s hmem)

end Segment

/-! ## References -/

namespace LinkReference

variable {r : LinkReference}

theorem exists_replacement (h : check r.library (.text r.address) = .ok r) :
    ∃ cs, r.address.toList = '0' :: 'x' :: cs ∧ r.replacement = cs.map Char.toLower ∧
      cs.length = 40 ∧ ∀ c ∈ cs, Hex.isDigit c = true := by
  obtain ⟨_, hchecked, _⟩ := bind_eq_ok.mp h
  obtain ⟨cs, haddress, hlength, hcs⟩ := Input.address_chars hchecked
  refine ⟨cs, haddress, ?_, hlength, hcs⟩
  rw [replacement, haddress]
  rfl

theorem isDigit_of_mem_replacement (h : check r.library (.text r.address) = .ok r) :
    ∀ c ∈ r.replacement, Hex.isDigit c = true := by
  obtain ⟨cs, _, heq, _, hcs⟩ := exists_replacement h
  intro c hc
  rw [heq] at hc
  obtain ⟨d, hd, rfl⟩ := List.mem_map.mp hc
  rw [Hex.isDigit_toLower]
  exact hcs d hd

theorem length_replacement (h : check r.library (.text r.address) = .ok r) :
    r.replacement.length = 40 := by
  obtain ⟨cs, _, heq, hlength, _⟩ := exists_replacement h
  rw [heq, List.length_map, hlength]

theorem marked_replacement (h : check r.library (.text r.address) = .ok r) :
    '0' :: 'x' :: r.replacement = r.address.toList.map Char.toLower := by
  obtain ⟨cs, haddress, heq, _⟩ := exists_replacement h
  rw [haddress, heq]
  rfl

end LinkReference

/-- A reference to a well-named library, whose address was accepted when it was made. -/
structure Link where
  reference : LinkReference
  isWellNamed : reference.library.IsWellNamed
  isChecked : LinkReference.check reference.library (.text reference.address) = .ok reference

namespace Link

def digits (l : Link) : List Char := (l.reference.address.toList.drop 2).map Char.toLower

def covers (k : TextHash) (l : Link) (placeholder : List Char) : Bool :=
  (l.reference.library.placeholders k).contains placeholder

theorem replacement_eq (l : Link) : l.reference.replacement = l.digits := by
  obtain ⟨cs, haddress, heq, _⟩ := LinkReference.exists_replacement l.isChecked
  rw [heq, digits, haddress]
  rfl

theorem isDigit_of_mem_digits (l : Link) : ∀ c ∈ l.digits, Hex.isDigit c = true := by
  rw [← l.replacement_eq]
  exact LinkReference.isDigit_of_mem_replacement l.isChecked

theorem length_digits (l : Link) : l.digits.length = 40 := by
  rw [← l.replacement_eq]
  exact LinkReference.length_replacement l.isChecked

theorem marked_digits (l : Link) :
    '0' :: 'x' :: l.digits = l.reference.address.toList.map Char.toLower := by
  rw [← l.replacement_eq]
  exact LinkReference.marked_replacement l.isChecked

end Link

namespace Segment

variable {k : TextHash}

/-- The address of the first library that has the placeholder takes its place. -/
def linked (k : TextHash) (links : List Link) : Segment → Segment
  | code digits => code digits
  | placeholder t =>
    match links.find? (Link.covers k · t) with
    | some l => code l.digits
    | none => placeholder t

theorem linked_cons (l : Link) (links : List Link) (segment : Segment) :
    segment.linked k (l :: links) =
      (segment.fill (l.reference.library.placeholders k) l.digits).linked k links := by
  cases segment with
  | code digits => rfl
  | placeholder t =>
    by_cases ht : t ∈ l.reference.library.placeholders k <;> simp [linked, fill, Link.covers, ht]

theorem foldl_apply_join (links : List Link) {segments : List Segment} {front : List Char}
    (hf : '_' ∉ front) (h : ∀ segment ∈ segments, segment.IsProper) :
    (links.map Link.reference).foldl (fun cs r => r.apply cs k) (front ++ join segments) =
      front ++ join (segments.map (linked k links)) := by
  induction links generalizing segments with
  | nil =>
    have hid : segments.map (linked k []) = segments := by
      refine List.map_id'' (fun segment => ?_) segments
      cases segment <;> rfl
    rw [hid]
    rfl
  | cons l links ih =>
    have hfill : l.reference.apply (front ++ join segments) k = front ++
        join (segments.map (fill (l.reference.library.placeholders k) l.digits)) := by
      rw [LinkReference.apply, l.replacement_eq]
      exact foldl_replaceAll_join (fun _ hp => l.isWellNamed.placeholder_padded hp)
        l.isDigit_of_mem_digits hf h
    rw [List.map_cons, List.foldl_cons, hfill, ih]
    · simp only [List.map_map, Function.comp_def, ← linked_cons]
    · intro segment hs
      obtain ⟨s, hmem, rfl⟩ := List.mem_map.mp hs
      exact fill_isProper l.isDigit_of_mem_digits (h s hmem)

def IsOfLibrary (k : TextHash) : Segment → Prop
  | code digits => ∀ c ∈ digits, Hex.isDigit c = true
  | placeholder t => ∃ l : Library, l.IsWellNamed ∧ t ∈ l.placeholders k

theorem IsOfLibrary.isProper {segment : Segment} (h : segment.IsOfLibrary k) :
    segment.IsProper := by
  cases segment with
  | code digits => exact h
  | placeholder t =>
    obtain ⟨l, hl, ht⟩ := h
    exact hl.placeholder_padded ht

end Segment

/-! ## Code -/

/-- Compiled code: digits and placeholders in any order, perhaps behind a mark. -/
structure Code (k : TextHash) where
  isMarked : Bool
  segments : List Segment
  ofLibraries : ∀ segment ∈ segments, segment.IsOfLibrary k

namespace Code

variable {k : TextHash}

def front (isMarked : Bool) : List Char := if isMarked then ['0', 'x'] else []

theorem underscore_notMem_front (isMarked : Bool) : '_' ∉ front isMarked := by
  cases isMarked <;> simp [front]

def text (code : Code k) : String :=
  String.ofList (front code.isMarked ++ Segment.join code.segments)

def linkedSegments (code : Code k) (links : List Link) : List Segment :=
  code.segments.map (Segment.linked k links)

theorem link_text (code : Code k) (links : List Link) :
    LinkReference.link (links.map Link.reference) code.text k =
      String.ofList (front code.isMarked ++ Segment.join (code.linkedSegments links)) := by
  rw [LinkReference.link, text, String.toList_ofList, Segment.foldl_apply_join links
    (underscore_notMem_front _) fun s hs => (code.ofLibraries s hs).isProper]
  rfl

/-- Linking goes through the segments: it leaves digits and unknown placeholders as they are, and
puts the forty lower-case digits of an address in the place of the others. -/
theorem link_substitutes (k : TextHash) (code : Code k) (links : List Link) :
    LinkReference.link (links.map Link.reference) code.text k =
      String.ofList (front code.isMarked ++ code.segments.flatMap fun segment =>
        match segment with
        | .code digits => digits
        | .placeholder t => ((links.find? (Link.covers k · t)).map Link.digits).getD t) ∧
    ∀ l ∈ links, l.digits.length = 40 ∧ (∀ c ∈ l.digits, Hex.isDigit c = true) ∧
      '0' :: 'x' :: l.digits = l.reference.address.toList.map Char.toLower := by
  refine ⟨?_, fun l _ => ⟨l.length_digits, l.isDigit_of_mem_digits, l.marked_digits⟩⟩
  rw [link_text, linkedSegments, Segment.join, List.flatMap_map]
  congr 3
  funext segment
  cases segment with
  | code digits => rfl
  | placeholder t =>
    cases h : links.find? (Link.covers k · t) <;> simp [Segment.linked, h, Segment.text]

end Code
end EvmClient
