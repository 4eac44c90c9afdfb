import EvmClient.Proofs.Abi.Grammar
import EvmClient.Proofs.Calldata
import EvmClient.Proofs.Event

/-!
# What a topic holds

The two ends of a type's text tell whether a topic of this type holds a value or the hash of one.
They tell it rightly of every text that the grammar derives, however deep tuples and arrays are
nested in it: `string`, `bytes`, tuples and arrays are hashed. A value of any other type is one
word, and its topic reads back as the canonical value. The main statement is
`Abi.topic_told_by_text`.
-/

set_option autoImplicit false

namespace EvmClient

/-- The types of which a topic holds no value. -/
def AbiType.IsHashed (t : AbiType) : Prop :=
  t = .string ∨ t = .bytes ∨ (∃ members, t = .tuple members) ∨ ∃ item length, t = .array item length

def TypeExpr.IsHashed (e : TypeExpr) : Prop :=
  e = .word "string" .absent ∨ e = .word "bytes" .absent ∨ (∃ members, e = .tuple members) ∨
    ∃ item length, e = .array item length

theorem AbiType.isHashed_iff {t : AbiType} : t.IsHashed ↔ t.isElementary = false := by
  cases t <;> simp [AbiType.IsHashed, AbiType.isElementary]

/-! ## Signs of a text -/

namespace TypeExpr

theorem notMem_size_chars {c : Char} (hdigit : isDigit c = false) (hx : c ≠ 'x')
    (s : TypeSize) : c ∉ s.chars := by
  have hnumber : ∀ n, c ∉ Nat.toDigits 10 n := by
    intro n hmem
    rw [isDigit_of_mem_toDigits hmem] at hdigit
    cases hdigit
  cases s with
  | absent => exact List.not_mem_nil
  | width n => exact hnumber n
  | ratio m n => simp [TypeSize.chars, hnumber, hx]

theorem size_chars_eq_nil {s : TypeSize} : s.chars = [] ↔ s = .absent := by
  cases s <;> simp [TypeSize.chars]

/-- A name with a number behind it is `string` or `bytes` only if the number is empty, and it does
not begin as a tuple does. `byte` begins another name, but the last letter of that is in no
number. -/
theorem name_signs {letters : String} (hname : letters ∈ elementaryNames) {number : List Char}
    (hs : 's' ∉ number) :
    (letters.toList ++ number = "string".toList ↔ letters = "string" ∧ number = []) ∧
      (letters.toList ++ number = "bytes".toList ↔ letters = "bytes" ∧ number = []) ∧
      ¬"(".toList <+: letters.toList ++ number ∧ ¬"tuple".toList <+: letters.toList ++ number := by
  have hsingle : number ≠ ['s'] := by
    rintro rfl
    exact hs List.mem_cons_self
  simp only [elementaryNames, List.mem_cons, List.not_mem_nil, or_false] at hname
  obtain rfl | rfl | rfl | rfl | rfl | rfl | rfl | rfl | rfl | rfl := hname <;> simp [hsingle]

theorem bracket_notMem_word {letters : String} (hname : letters ∈ elementaryNames)
    (s : TypeSize) : ']' ∉ letters.toList ++ s.chars := by
  obtain ⟨c, cs, hcs, hc, hletters⟩ := letters_of_name hname
  intro hmem
  rw [hcs] at hmem
  obtain hmem | hmem := List.mem_append.mp hmem
  · obtain rfl | hmem := List.mem_cons.mp hmem
    · cases hc
    · cases hletters ']' hmem
  · exact notMem_size_chars rfl (by decide) s hmem

end TypeExpr

namespace Abi

section

open TypeExpr

theorem isHashedType_word {letters : String} {size : TypeSize} (hname : letters ∈ elementaryNames) :
    isHashedType (TypeExpr.word letters size).text = true ↔
      letters = "string" ∧ size = .absent ∨ letters = "bytes" ∧ size = .absent := by
  have htext : (TypeExpr.word letters size).text.toList = letters.toList ++ size.chars := by
    rw [text, String.toList_ofList, tokens, chars, List.flatMap_singleton, Token.chars]
  have hlast : (letters.toList ++ size.chars).getLast? ≠ some ']' := fun hlast =>
    bracket_notMem_word hname size (List.mem_of_getLast? hlast)
  obtain ⟨hstring, hbytes, hopening, htuple⟩ :=
    name_signs hname (notMem_size_chars rfl (by decide) size : 's' ∉ size.chars)
  rw [isHashedType_iff, htext, hstring, hbytes, size_chars_eq_nil]
  simp only [hlast, hopening, htuple, or_false]

theorem isHashedType_text {e : TypeExpr} (he : e.IsDerivable) :
    isHashedType e.text = true ↔ e.IsHashed := by
  cases he with
  | @word letters size hname _ =>
    rw [isHashedType_word hname]
    simp [TypeExpr.IsHashed]
  | @tuple members _ =>
    refine iff_of_true ?_ (.inr (.inr (.inl ⟨members, rfl⟩)))
    rw [isHashedType_iff, text, String.toList_ofList]
    exact .inr (.inr (.inr (.inl ⟨chars (memberTokens members ++ [.closing]), rfl⟩)))
  | @array item length _ =>
    refine iff_of_true ?_ (.inr (.inr (.inr ⟨item, length, rfl⟩)))
    have hlast : (TypeExpr.array item length).text.toList.getLast? = some ']' := by
      rw [text, String.toList_ofList, tokens, chars_append, chars, chars, List.flatMap_singleton,
        Token.chars, ← List.cons_append, ← List.append_assoc, List.getLast?_concat]
    rw [isHashedType_iff]
    exact .inr (.inr (.inl hlast))

end

/-! ## Topics of single words -/

section

variable {s : String} {t : AbiType} {v : Value} {w : List UInt8}

theorem encode?_of_isElementary (h : t.isElementary = true) :
    AbiType.isDynamic t = false ∧ ∀ v, AbiType.encode? t v = AbiType.encodeWord? t v := by
  cases t with
  | uint | int | address | bool | fixedBytes => exact ⟨rfl, fun _ => rfl⟩
  | _ => cases h

theorem encodeAll?_single (h : AbiType.isDynamic t = false) (v : Value) :
    AbiType.encodeAll? [t] [v] = AbiType.encode? t v := by
  rw [AbiType.encodeAll?, AbiType.encodeEach?]
  cases AbiType.encode? t v with
  | none => rfl
  | some bs => simp [AbiType.encodeEach?, layout, heads, tails, h]

theorem length_encode_word (ht : t.WellFormed) (he : t.isElementary = true)
    (h : AbiType.encode? t v = some w) : w.length = wordLength := by
  rw [(encode?_of_isElementary he).2 v] at h
  exact (AbiType.decodeWord_encodeWord ht h).1

theorem encodeArguments_word (ht : AbiType.ofText s = .ok t) (he : t.isElementary = true) :
    encodeArguments [⟨s, v⟩] = .ok w ↔ AbiType.encode? t v = some w := by
  have hstatic := (encode?_of_isElementary he).1
  have htypes : AbiType.ofTexts ([⟨s, v⟩].map TypedValue.type) = .ok [t] := ofTexts_singleton ht
  constructor
  · intro h
    obtain ⟨types, htypes', hencode, _⟩ := encodeArguments_eq_ok h
    rw [htypes] at htypes'
    cases htypes'
    rwa [← encodeAll?_single hstatic]
  · intro h
    refine encodeArguments_of_fits htypes ((encodeAll?_single hstatic v).trans h) ?_
    rw [length_encode_word (AbiType.ofText_wellFormed ht) he h]
    decide

theorem length_of_word (ht : AbiType.ofText s = .ok t) (he : t.isElementary = true)
    (h : encodeArguments [⟨s, v⟩] = .ok w) : w.length = wordLength :=
  length_encode_word (AbiType.ofText_wellFormed ht) he ((encodeArguments_word ht he).mp h)

theorem exists_word_iff (ht : AbiType.ofText s = .ok t) (he : t.isElementary = true) :
    (∃ w, encodeArguments [⟨s, v⟩] = .ok w) ↔ t.Admits v := by
  simp only [encodeArguments_word ht he]
  exact ⟨fun ⟨_, h⟩ => AbiType.admits_of_encode h, AbiType.exists_encode_of_admits⟩

theorem decodeTopic_word (ht : AbiType.ofText s = .ok t) (he : t.isElementary = true)
    (h : encodeArguments [⟨s, v⟩] = .ok w) :
    decodeTopic (.text (Hex.markedText w)) s = .ok ⟨s, t.canonical v⟩ := by
  have htopical : EventArgument.IsTopical ⟨⟨s, true⟩, v, w⟩ := by
    refine ⟨t, ht, ?_⟩
    rw [if_pos he]
    exact h
  have hfrom : EventArgument.fromTopic ⟨⟨s, true⟩, v, w⟩ = ⟨s, t.canonical v⟩ := by
    rw [EventArgument.fromTopic, ht]
    simp only [he, if_true, EventArgument.typed, TypedValue.canonical, ht]
  have hdecode := Event.decodeTopic_of_isTopical htopical
  rw [hfrom] at hdecode
  exact hdecode

end

/-- Of every text that the grammar derives it is told that topics hold hashes exactly if it is the
text of `string`, `bytes`, a tuple or an array. The texts that name a type are those derived as an
expression of it, and if the type is none of the four, then each value that fits it is encoded as
one word, and the topic with this word reads back as the canonical value under the same text. -/
theorem topic_told_by_text (s : String) :
    (∀ e : TypeExpr, e.IsDerivable → s = e.text → (isHashedType s = true ↔ e.IsHashed)) ∧
      ∀ t, (AbiType.ofText s = .ok t ↔ ∃ e : TypeExpr, e.Denotes t ∧ s = e.text) ∧
        (AbiType.ofText s = .ok t →
          (isHashedType s = true ↔ t.IsHashed) ∧
            (¬t.IsHashed → ∀ v, ((∃ w, encodeArguments [⟨s, v⟩] = .ok w) ↔ t.Admits v) ∧
              ∀ w, encodeArguments [⟨s, v⟩] = .ok w → w.length = wordLength ∧
                decodeTopic (.text (Hex.markedText w)) s = .ok ⟨s, t.canonical v⟩)) := by
  constructor
  · rintro e he rfl
    exact isHashedType_text he
  · intro t
    refine ⟨AbiType.ofText_eq_ok_iff, fun ht => ⟨?_, ?_⟩⟩
    · rw [isHashedType_eq ht, AbiType.isHashed_iff, Bool.not_eq_true']
    · intro hkind v
      rw [AbiType.isHashed_iff, Bool.not_eq_false] at hkind
      refine ⟨exists_word_iff ht hkind, fun w hw => ?_⟩
      exact ⟨length_of_word ht hkind hw, decodeTopic_word ht hkind hw⟩

/-! ## A nested type and a single word -/

def nestedExpr : TypeExpr :=
  .array (.tuple [.word "bytes" (.width 32), .array (.word "ufixed" (.ratio 128 18)) (some 2)]) none

theorem nestedExpr_isDerivable : nestedExpr.IsDerivable := by
  refine .array (.tuple (List.forall_mem_cons.mpr ⟨?_, List.forall_mem_singleton.mpr ?_⟩))
  · exact .word (by decide) (by decide : (32 : Nat) ≠ 0)
  · exact .array (.word (by decide) (by decide : (128 : Nat) ≠ 0 ∧ (18 : Nat) ≠ 0))

theorem bytes4_denotes : (TypeExpr.word "bytes" (.width 4)).Denotes (.fixedBytes 4) where
  derivable := .word (by decide) (by decide : (4 : Nat) ≠ 0)
  proper := .word
  readable := by decide +kernel
  resolves := rfl

theorem nested_type_hashed_short_bytes_read :
    isHashedType "(bytes32,ufixed128x18[2])[]" = true ∧ isHashedType "bytes4" = false ∧
      ∃ w, encodeArguments [⟨"bytes4", .bytes [1, 2]⟩] = .ok w ∧ w.length = wordLength ∧
        decodeTopic (.text (Hex.markedText w)) "bytes4" =
          .ok ⟨"bytes4", .bytes [1, 2, 0, 0]⟩ := by
  obtain ⟨hnested, _⟩ := topic_told_by_text "(bytes32,ufixed128x18[2])[]"
  obtain ⟨_, hbytes⟩ := topic_told_by_text "bytes4"
  obtain ⟨hnames, htells⟩ := hbytes (.fixedBytes 4)
  obtain ⟨hkind, hread⟩ := htells (hnames.mpr ⟨_, bytes4_denotes, by decide +kernel⟩)
  have hplain : ¬AbiType.IsHashed (.fixedBytes 4) := by
    rw [AbiType.isHashed_iff]
    decide
  obtain ⟨hfits, hword⟩ := hread hplain (.bytes [1, 2])
  obtain ⟨w, hw⟩ := hfits.mpr (.fixedBytes (by decide))
  obtain ⟨hlength, hdecode⟩ := hword w hw
  refine ⟨?_, ?_, w, hw, hlength, hdecode⟩
  · exact (hnested nestedExpr nestedExpr_isDerivable (by decide +kernel)).mpr
      (.inr (.inr (.inr ⟨_, _, rfl⟩)))
  · rw [← Bool.not_eq_true, hkind]
    exact hplain

end Abi
end EvmClient
