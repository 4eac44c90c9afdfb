import EvmClient.Abi.Descriptor
import EvmClient.Proofs.Outcome

/-!
# How types are spelled

The text of a type is made of the spellings of its tokens, so its ends tell what kind of type it is:
a tuple begins with a parenthesis, an array ends with a bracket, and a single word does neither.
Whether a topic holds a value or its hash is told by such signs alone. They tell rightly, which is
`Abi.isHashedType_eq`.
-/

set_option autoImplicit false

namespace EvmClient

namespace TypeExpr

/-! ## Tokens -/

inductive Spells : Token → List Char → Prop where
  | opening : Spells .opening ['(']
  | closing : Spells .closing [')']
  | comma : Spells .comma [',']
  | suffix {length : Option Nat} (number : List Char) :
      Spells (.suffix length) ('[' :: number ++ [']'])
  | word {letters number : List Char} {size : TypeSize} (hletters : ']' ∉ letters)
      (hnumber : ']' ∉ number) (hsize : size = .absent ↔ number = []) :
      Spells (.word (String.ofList letters) size) (letters ++ number)

inductive Written : List Token → List Char → Prop where
  | nil : Written [] []
  | cons {t : Token} {ts : List Token} {piece cs : List Char} (h : Spells t piece)
      (hrest : Written ts cs) : Written (t :: ts) (piece ++ cs)

section

variable {cs rest : List Char} {n : Nat}

theorem notMem_takeWhile {p : Char → Bool} {c : Char} (h : p c = false) (cs : List Char) :
    c ∉ cs.takeWhile p := by
  intro hc
  have hall := List.all_eq_true.mp List.all_takeWhile c hc
  rw [h] at hall
  cases hall

theorem number?_split (h : number? cs = some (n, rest)) :
    ∃ digits, cs = digits ++ rest ∧ digits ≠ [] ∧ ']' ∉ digits := by
  cases cs with
  | nil => cases h
  | cons c cs =>
    rw [number?] at h
    by_cases hc : ('1' ≤ c && c ≤ '9') = true
    · rw [if_pos hc] at h
      cases h
      refine ⟨c :: cs.takeWhile isDigit, ?_, List.cons_ne_nil _ _, ?_⟩
      · rw [List.cons_append, List.takeWhile_append_dropWhile]
      · intro hmem
        obtain rfl | hmem := List.mem_cons.mp hmem
        · exact absurd hc (by decide)
        · exact notMem_takeWhile (by decide) cs hmem
    · rw [if_neg hc] at h
      cases h

theorem size_split (cs : List Char) :
    ∃ number, cs = number ++ (size cs).2 ∧ ']' ∉ number ∧
      ((size cs).1 = .absent ↔ number = []) := by
  unfold size
  split
  · exact ⟨[], rfl, by simp, by simp⟩
  · rename_i m rest hm
    obtain ⟨digits, rfl, hne, hdigits⟩ := number?_split hm
    split
    · rename_i n rest' hn
      obtain ⟨digits', rfl, _, hdigits'⟩ := number?_split hn
      exact ⟨digits ++ 'x' :: digits', by simp, by simp [hdigits, hdigits'], by simp⟩
    · exact ⟨digits, rfl, hdigits, by simp [hne]⟩
  · rename_i m rest _ hm
    obtain ⟨digits, rfl, hne, hdigits⟩ := number?_split hm
    exact ⟨digits, rfl, hdigits, by simp [hne]⟩

theorem suffix?_split {length : Option Nat} (h : suffix? cs = some (length, rest)) :
    ∃ number, cs = number ++ ']' :: rest := by
  unfold suffix? at h
  split at h
  · cases h
    exact ⟨[], rfl⟩
  · split at h
    · rename_i hn
      cases h
      obtain ⟨digits, rfl, _⟩ := number?_split hn
      exact ⟨digits, rfl⟩
    · cases h

end

theorem written_of_tokens? {cs : List Char} {ts : List Token} (h : tokens? cs = some ts) :
    Written ts cs := by
  fun_induction tokens? cs generalizing ts with
  | case1 =>
    cases h
    exact .nil
  | case2 cs ih =>
    obtain ⟨ts, hts, rfl⟩ := Option.map_eq_some_iff.mp h
    exact .cons .opening (ih hts)
  | case3 cs ih =>
    obtain ⟨ts, hts, rfl⟩ := Option.map_eq_some_iff.mp h
    exact .cons .closing (ih hts)
  | case4 cs ih =>
    obtain ⟨ts, hts, rfl⟩ := Option.map_eq_some_iff.mp h
    exact .cons .comma (ih hts)
  | case5 cs length rest hs _ ih =>
    obtain ⟨ts, hts, rfl⟩ := Option.map_eq_some_iff.mp h
    obtain ⟨number, rfl⟩ := suffix?_split hs
    have hpiece : '[' :: (number ++ ']' :: rest) = ('[' :: number ++ [']']) ++ rest := by simp
    rw [hpiece]
    exact .cons (.suffix number) (ih hts)
  | case6 => cases h
  | case7 c cs _ _ _ _ hc sized _ =>
    rename_i ih
    obtain ⟨ts, hts, rfl⟩ := Option.map_eq_some_iff.mp h
    obtain ⟨number, hnumber, hmem, hsize⟩ := size_split (cs.dropWhile isLetter)
    have hpiece : c :: cs = (c :: cs.takeWhile isLetter ++ number) ++ sized.2 := by
      rw [List.append_assoc, ← hnumber, List.cons_append, List.takeWhile_append_dropWhile]
    rw [hpiece]
    refine .cons (.word ?_ hmem hsize) (ih hts)
    intro hbracket
    obtain rfl | hbracket := List.mem_cons.mp hbracket
    · exact absurd hc (by decide)
    · exact notMem_takeWhile (by decide) cs hbracket
  | case8 => cases h

theorem Written.concat {ts : List Token} {t : Token} {cs : List Char}
    (h : Written (ts ++ [t]) cs) : ∃ front piece, cs = front ++ piece ∧ Spells t piece := by
  induction ts generalizing cs with
  | nil =>
    cases h with
    | @cons _ _ piece _ hpiece hrest =>
      cases hrest
      exact ⟨[], piece, List.append_nil piece, hpiece⟩
  | cons u ts ih =>
    cases h with
    | @cons _ _ piece cs hpiece hrest =>
      obtain ⟨front, last, rfl, hlast⟩ := ih hrest
      exact ⟨piece ++ front, last, (List.append_assoc piece front last).symm, hlast⟩

theorem Written.opening {ts : List Token} {cs : List Char} (h : Written (.opening :: ts) cs) :
    ∃ rest, cs = '(' :: rest := by
  cases h with
  | @cons _ _ _ cs hpiece _ =>
    cases hpiece
    exact ⟨cs, rfl⟩

theorem Written.single {letters : String} {size : TypeSize} {cs : List Char}
    (h : Written [.word letters size] cs) :
    ∃ number, cs = letters.toList ++ number ∧ ']' ∉ cs ∧ (size = .absent ↔ number = []) := by
  cases h with
  | cons hpiece hrest =>
    cases hrest
    cases hpiece with
    | @word letters number _ hletters hnumber hsize =>
      rw [String.toList_ofList, List.append_nil]
      exact ⟨number, rfl, by simp [hletters, hnumber], hsize⟩

/-! ## Expressions -/

theorem ofTokens?_eq_some {ts : List Token} {e : TypeExpr} :
    ofTokens? ts = some e ↔ ts.foldlM shift ([], none) = some ([], some e) := by
  unfold ofTokens?
  split
  · rename_i hfold
    simp [hfold]
  · rename_i hfold
    constructor
    · intro h
      cases h
    · intro h
      exact absurd h (hfold e)

theorem ofTokens?_last {ts : List Token} {e : TypeExpr} (h : ofTokens? ts = some e) :
    ∃ front t p, ts = front ++ [t] ∧ front.foldlM shift ([], none) = some p ∧
      shift p t = some ([], some e) := by
  rw [ofTokens?_eq_some] at h
  obtain rfl | ⟨front, t, rfl⟩ := List.eq_nil_or_concat ts
  · cases h
  · rw [List.concat_eq_append, List.foldlM_append] at h
    obtain ⟨p, hp, h⟩ := Option.bind_eq_some_iff.mp h
    obtain ⟨p', hp', h⟩ := Option.bind_eq_some_iff.mp h
    cases h
    exact ⟨front, t, p, List.concat_eq_append, hp, hp'⟩

theorem shift_ne_start (p : Progress) (t : Token) : shift p t ≠ some ([], none) := by
  intro h
  unfold shift at h
  split at h <;> cases h

theorem ofTokens?_word {ts : List Token} {letters : String} {size : TypeSize}
    (h : ofTokens? ts = some (.word letters size)) : ts = [.word letters size] := by
  obtain ⟨front, t, p, rfl, hfront, ht⟩ := ofTokens?_last h
  unfold shift at ht
  split at ht <;> cases ht
  obtain rfl | ⟨front', t', rfl⟩ := List.eq_nil_or_concat front
  · rfl
  · rw [List.concat_eq_append, List.foldlM_append] at hfront
    obtain ⟨p, _, hfront⟩ := Option.bind_eq_some_iff.mp hfront
    obtain ⟨p', hp', hfront⟩ := Option.bind_eq_some_iff.mp hfront
    cases hfront
    exact absurd hp' (shift_ne_start p t')

theorem ofTokens?_array {ts : List Token} {item : TypeExpr} {length : Option Nat}
    (h : ofTokens? ts = some (.array item length)) :
    ∃ front, ts = front ++ [.suffix length] := by
  obtain ⟨front, t, p, rfl, _, ht⟩ := ofTokens?_last h
  unfold shift at ht
  split at ht <;> cases ht
  exact ⟨front, rfl⟩

/-- Outside of parentheses, a complete expression only becomes an array. -/
theorem foldlM_shift_complete {ts : List Token} {e e' : TypeExpr}
    (h : ts.foldlM shift ([], some e) = some ([], some e')) :
    e' = e ∨ ∃ item length, e' = .array item length := by
  induction ts generalizing e with
  | nil =>
    cases h
    exact .inl rfl
  | cons t ts ih =>
    rw [List.foldlM_cons] at h
    obtain ⟨p, hp, h⟩ := Option.bind_eq_some_iff.mp h
    cases t with
    | suffix n =>
      cases hp
      obtain rfl | harray := ih h
      · exact .inr ⟨e, n, rfl⟩
      · exact .inr harray
    | _ => cases hp

theorem ofTokens?_tuple {ts : List Token} {members : List TypeExpr}
    (h : ofTokens? ts = some (.tuple members)) : ∃ rest, ts = .opening :: rest := by
  rw [ofTokens?_eq_some] at h
  cases ts with
  | nil => cases h
  | cons t ts =>
    rw [List.foldlM_cons] at h
    obtain ⟨p, hp, h⟩ := Option.bind_eq_some_iff.mp h
    cases t with
    | opening => exact ⟨ts, rfl⟩
    | word letters size =>
      cases hp
      obtain heq | ⟨item, length, heq⟩ := foldlM_shift_complete h
      · cases heq
      · cases heq
    | _ => cases hp

end TypeExpr

/-! ## Kinds of types -/

namespace AbiType

def isElementary : AbiType → Bool
  | uint _ | int _ | address | bool | fixedBytes _ => true
  | _ => false

end AbiType

namespace TypeExpr

theorem namedType_cases {letters : String} {size : TypeSize} {t : AbiType}
    (hsized : isSizedWord letters size = true) (h : namedType letters size = .ok t) :
    (t.isElementary = true ∧ letters ∈ ["uint", "int", "address", "bool", "bytes"] ∧
        (letters = "bytes" → size ≠ .absent)) ∨
      t.isElementary = false ∧ size = .absent ∧ (letters = "bytes" ∨ letters = "string") := by
  unfold namedType at h
  split at h <;> cases h
  · exact .inl ⟨rfl, by simp, by simp⟩
  · exact .inl ⟨rfl, by simp, by simp⟩
  · exact .inl ⟨rfl, by simp, by simp⟩
  · exact .inl ⟨rfl, by simp, by simp⟩
  · exact .inl ⟨rfl, by simp, by simp⟩
  · rename_i hwidth
    cases size with
    | absent => exact .inr ⟨rfl, rfl, .inl rfl⟩
    | width n => exact absurd rfl (hwidth n)
    | ratio m n => cases hsized
  · cases size with
    | absent => exact .inr ⟨rfl, rfl, .inr rfl⟩
    | width n => cases hsized
    | ratio m n => cases hsized

theorem expandWord_cases (letters : String) (size : TypeSize) :
    expandWord letters size = (letters, size) ∨
      letters ∈ ["uint", "int", "function", "byte"] ∧ size = .absent := by
  unfold expandWord
  split
  · exact .inr ⟨by simp, rfl⟩
  · exact .inr ⟨by simp, rfl⟩
  · exact .inr ⟨by simp, rfl⟩
  · exact .inr ⟨by simp, rfl⟩
  · exact .inl rfl

theorem resolve_word {letters : String} {size : TypeSize} {t : AbiType}
    (h : (word letters size).resolve = .ok t) :
    (t.isElementary = true ∧
        letters ∈ ["uint", "int", "address", "bool", "bytes", "function"] ∧
        (letters = "bytes" → size ≠ .absent)) ∨
      t.isElementary = false ∧ size = .absent ∧ (letters = "bytes" ∨ letters = "string") := by
  unfold resolve at h
  split at h
  · cases h
  · cases h
  · rename_i hbyte _
    by_cases hsized : (word letters size).isSized = true
    · rw [if_pos hsized, denoted] at h
      rw [isSized] at hsized
      obtain hexpand | ⟨hletters, rfl⟩ := expandWord_cases letters size
      · rw [hexpand] at h hsized
        obtain ⟨ht, hmem, hbytes⟩ | hother := namedType_cases hsized h
        · have hsuper : letters ∈ ["uint", "int", "address", "bool", "bytes", "function"] :=
            List.mem_append_left ["function"] hmem
          exact .inl ⟨ht, hsuper, hbytes⟩
        · exact .inr hother
      · simp only [List.mem_cons, List.not_mem_nil, or_false] at hletters
        obtain rfl | rfl | rfl | rfl := hletters
        · cases h
          exact .inl ⟨rfl, by simp, by simp⟩
        · cases h
          exact .inl ⟨rfl, by simp, by simp⟩
        · cases h
          exact .inl ⟨rfl, by simp, by simp⟩
        · exact absurd rfl hbyte
    · rw [if_neg hsized] at h
      cases h

theorem isElementary_of_tuple {members : List TypeExpr} {t : AbiType}
    (h : (tuple members).resolve = .ok t) : t.isElementary = false := by
  unfold resolve at h
  dsimp only at h
  split at h
  · obtain ⟨ts, _, rfl⟩ := map_eq_ok.mp h
    rfl
  · cases h

theorem isElementary_of_array {item : TypeExpr} {length : Option Nat} {t : AbiType}
    (h : (array item length).resolve = .ok t) : t.isElementary = false := by
  unfold resolve at h
  dsimp only at h
  split at h
  · obtain ⟨u, _, rfl⟩ := map_eq_ok.mp h
    rfl
  · cases h

/-- The signs of a text that names a type of single words: it is none of the two words for bytes of
any length, and neither end of it is that of a composite type. -/
theorem word_signs {letters : String} {size : TypeSize} {number : List Char}
    (hletters : letters ∈ ["uint", "int", "address", "bool", "bytes", "function"])
    (hbytes : letters = "bytes" → size ≠ .absent) (hsize : size = .absent ↔ number = []) :
    letters.toList ++ number ≠ "string".toList ∧ letters.toList ++ number ≠ "bytes".toList ∧
      ¬"(".toList <+: letters.toList ++ number ∧ ¬"tuple".toList <+: letters.toList ++ number := by
  simp only [List.mem_cons, List.not_mem_nil, or_false] at hletters
  obtain rfl | rfl | rfl | rfl | rfl | rfl := hletters
  · simp
  · simp
  · simp
  · simp
  · have hnumber : number ≠ [] := fun hn => hbytes rfl (hsize.mpr hn)
    simp [hnumber]
  · simp

end TypeExpr

namespace Abi

theorem isHashedType_iff {s : String} :
    isHashedType s = true ↔ s.toList = "string".toList ∨ s.toList = "bytes".toList ∨
      s.toList.getLast? = some ']' ∨ "(".toList <+: s.toList ∨ "tuple".toList <+: s.toList := by
  simp only [isHashedType, Bool.or_eq_true, beq_iff_eq, String.isPrefixOf,
    String.startsWith_string_iff, String.toList_inj, or_assoc]

section

open TypeExpr

variable {s : String} {t : AbiType}

theorem isHashedType_of_word {letters : String} {size : TypeSize}
    (hwritten : Written [.word letters size] s.toList)
    (h : (TypeExpr.word letters size).resolve = .ok t) : isHashedType s = !t.isElementary := by
  obtain ⟨number, hs, hbracket, hsize⟩ := hwritten.single
  obtain ⟨ht, hletters, hbytes⟩ | ⟨ht, rfl, hletters⟩ := resolve_word h
  · obtain ⟨hstring, hbare, hopening, htuple⟩ := word_signs hletters hbytes hsize
    have hlast : s.toList.getLast? ≠ some ']' := by
      intro hlast
      exact hbracket (List.mem_of_getLast? hlast)
    rw [← hs] at hstring hbare hopening htuple
    rw [ht, Bool.not_true, ← Bool.not_eq_true, isHashedType_iff]
    simp only [hstring, hbare, hlast, hopening, htuple, or_self, not_false_eq_true]
  · rw [hsize.mp rfl, List.append_nil, String.toList_inj] at hs
    rw [ht, hs, Bool.not_false, isHashedType_iff]
    obtain rfl | rfl := hletters
    · exact .inr (.inl rfl)
    · exact .inl rfl

theorem isHashedType_of_opening {ts : List Token} (hwritten : Written (.opening :: ts) s.toList) :
    isHashedType s = true := by
  obtain ⟨cs, hs⟩ := hwritten.opening
  rw [isHashedType_iff, hs]
  exact .inr (.inr (.inr (.inl ⟨cs, rfl⟩)))

theorem isHashedType_of_suffix {ts : List Token} {length : Option Nat}
    (hwritten : Written (ts ++ [.suffix length]) s.toList) : isHashedType s = true := by
  obtain ⟨start, piece, hs, hpiece⟩ := hwritten.concat
  cases hpiece with
  | suffix number =>
    rw [isHashedType_iff, hs, ← List.append_assoc, List.getLast?_concat]
    exact .inr (.inr (.inl rfl))

/-- A topic holds the hash of a value exactly if the value is not a single word. -/
theorem isHashedType_eq (h : AbiType.ofText s = .ok t) : isHashedType s = !t.isElementary := by
  unfold AbiType.ofText at h
  split at h
  · rename_i e he
    obtain ⟨ts, htokens, hread⟩ := Option.bind_eq_some_iff.mp he
    have hwritten := written_of_tokens? htokens
    by_cases hreadable : e.isReadable = true
    · rw [if_pos hreadable] at h
      cases e with
      | word letters size =>
        obtain rfl := ofTokens?_word hread
        exact isHashedType_of_word hwritten h
      | tuple members =>
        obtain ⟨rest, rfl⟩ := ofTokens?_tuple hread
        rw [isElementary_of_tuple h]
        exact isHashedType_of_opening hwritten
      | array item length =>
        obtain ⟨front, rfl⟩ := ofTokens?_array hread
        rw [isElementary_of_array h]
        exact isHashedType_of_suffix hwritten
    · rw [if_neg hreadable] at h
      cases h
  · cases h

end

end Abi
end EvmClient
