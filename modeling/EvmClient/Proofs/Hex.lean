import EvmClient.Hex

/-!
# Digits

What is written for bytes are digits in lower case, whatever the case of the digits they were read
from. A mark is no pair of digits, and a byte is a pair of digits wherever it stands.
-/

set_option autoImplicit false

namespace EvmClient.Hex

theorem isDigit_digitChar {n : Nat} (h : n < 16) : isDigit (digitChar n) = true := by
  rw [isDigit, digit?_digitChar h]
  rfl

def lowerDigits : List Char := "0123456789abcdef".toList

theorem digitChar_mem_lowerDigits {n : Nat} (h : n < 16) : digitChar n ∈ lowerDigits := by
  have all : ∀ i : Fin 16, digitChar i ∈ lowerDigits := by decide
  exact all ⟨n, h⟩

theorem mem_lowerDigits_of_mem_chars {bs : List UInt8} {c : Char} (h : c ∈ chars bs) :
    c ∈ lowerDigits := by
  obtain ⟨b, _, hc⟩ := List.mem_flatMap.mp h
  have hb := b.toNat_lt
  simp only [byteChars, List.mem_cons, List.not_mem_nil, or_false] at hc
  obtain rfl | rfl := hc
  · exact digitChar_mem_lowerDigits (by omega)
  · exact digitChar_mem_lowerDigits (by omega)

theorem isDigit_of_mem_lowerDigits {c : Char} (h : c ∈ lowerDigits) : isDigit c = true := by
  have all : lowerDigits.all isDigit = true := by decide
  exact List.all_eq_true.mp all c h

theorem isDigit_of_mem_chars {bs : List UInt8} {c : Char} (h : c ∈ chars bs) :
    isDigit c = true :=
  isDigit_of_mem_lowerDigits (mem_lowerDigits_of_mem_chars h)

theorem ne_underscore_of_digit {c : Char} (h : isDigit c = true) : c ≠ '_' := by
  rintro rfl
  exact absurd h (by decide)

theorem toNat_le_of_digit {c : Char} (h : isDigit c = true) : c.toNat ≤ 102 := by
  have hle : ∀ d : Char, c ≤ d → d.toNat ≤ 102 → c.toNat ≤ 102 := by
    intro d hcd hd
    have hval : c.toNat ≤ d.toNat := hcd
    omega
  unfold isDigit digit? at h
  split at h
  · rename_i hc
    simp only [Bool.and_eq_true, decide_eq_true_eq] at hc
    exact hle '9' hc.2 (by decide)
  · split at h
    · rename_i hc
      simp only [Bool.and_eq_true, decide_eq_true_eq] at hc
      exact hle 'f' hc.2 (by decide)
    · split at h
      · rename_i hc
        simp only [Bool.and_eq_true, decide_eq_true_eq] at hc
        exact hle 'F' hc.2 (by decide)
      · cases h

theorem toLower_of_ninety_lt {c : Char} (h : 90 < c.toNat) : c.toLower = c := by
  unfold Char.toLower
  rw [dif_neg]
  rintro ⟨_, hle⟩
  have : c.toNat ≤ 90 := hle
  omega

theorem toLower_cases {p : Char → Char → Prop}
    (hsmall : ∀ n : Fin 91, p (Char.ofNat n) (Char.ofNat n).toLower)
    (hsame : ∀ c : Char, 90 < c.toNat → p c c) (c : Char) : p c c.toLower := by
  by_cases hc : c.toNat < 91
  · have := hsmall ⟨c.toNat, hc⟩
    simp only [Char.ofNat_toNat] at this
    exact this
  · rw [toLower_of_ninety_lt (by omega)]
    exact hsame c (by omega)

theorem toLower_toLower (c : Char) : c.toLower.toLower = c.toLower :=
  toLower_cases (p := fun _ d => d.toLower = d) (by decide) (fun _ => toLower_of_ninety_lt) c

theorem digit?_toLower (c : Char) : digit? c.toLower = digit? c :=
  toLower_cases (p := fun c d => digit? d = digit? c) (by decide) (fun _ _ => rfl) c

theorem isDigit_toLower (c : Char) : isDigit c.toLower = isDigit c := by
  rw [isDigit, digit?_toLower, isDigit]

theorem digitChar_of_digit? {c : Char} {d : Nat} (h : digit? c = some d) :
    d < 16 ∧ digitChar d = c.toLower := by
  have hsmall : ∀ n : Fin 103, ∀ d ∈ digit? (Char.ofNat n),
      d < 16 ∧ digitChar d = (Char.ofNat n).toLower := by decide
  have hc : c.toNat ≤ 102 := toNat_le_of_digit (by rw [isDigit, h]; rfl)
  have := hsmall ⟨c.toNat, by omega⟩ d
  simp only [Char.ofNat_toNat] at this
  exact this h

/-- What is read and written again is the same text in lower case. -/
theorem chars_of_ofChars? {cs : List Char} {bs : List UInt8} (h : ofChars? cs = some bs) :
    chars bs = cs.map Char.toLower := by
  fun_induction ofChars? cs generalizing bs with
  | case1 =>
    cases h
    rfl
  | case2 => cases h
  | case3 a b rest ih =>
    obtain ⟨high, hhigh, h⟩ := Option.bind_eq_some_iff.mp h
    obtain ⟨low, hlow, h⟩ := Option.bind_eq_some_iff.mp h
    obtain ⟨bs', hbs, h⟩ := Option.bind_eq_some_iff.mp h
    cases h
    obtain ⟨hlt, ha⟩ := digitChar_of_digit? hhigh
    obtain ⟨hlt', hb⟩ := digitChar_of_digit? hlow
    have hbyte : (UInt8.ofNat (16 * high + low)).toNat = 16 * high + low := by
      rw [UInt8.toNat_ofNat']
      exact Nat.mod_eq_of_lt (by omega)
    have hdiv : (16 * high + low) / 16 = high := by omega
    have hmod : (16 * high + low) % 16 = low := by omega
    have hrest := ih hbs
    rw [chars] at hrest
    simp only [chars, List.flatMap_cons, byteChars, hbyte, hdiv, hmod, ha, hb, hrest,
      List.map_cons, List.cons_append, List.nil_append]

theorem chars_injective {bs bs' : List UInt8} (h : chars bs = chars bs') : bs = bs' := by
  have hread := congrArg ofChars? h
  rwa [ofChars?_chars, ofChars?_chars, Option.some.injEq] at hread

theorem exists_ofChars?_iff {cs : List Char} :
    (∃ bs, ofChars? cs = some bs) ↔ cs.length % 2 = 0 ∧ ∀ c ∈ cs, isDigit c = true := by
  fun_induction ofChars? cs with
  | case1 => simp
  | case2 c => simp
  | case3 a b rest ih =>
    have hlength : (a :: b :: rest).length % 2 = rest.length % 2 := by
      simp only [List.length_cons]
      omega
    rw [hlength]
    constructor
    · rintro ⟨bs, h⟩
      obtain ⟨high, hhigh, h⟩ := Option.bind_eq_some_iff.mp h
      obtain ⟨low, hlow, h⟩ := Option.bind_eq_some_iff.mp h
      obtain ⟨bs', hbs, _⟩ := Option.bind_eq_some_iff.mp h
      obtain ⟨heven, hrest⟩ := ih.mp ⟨bs', hbs⟩
      refine ⟨heven, List.forall_mem_cons.mpr ⟨?_, List.forall_mem_cons.mpr ⟨?_, hrest⟩⟩⟩
      · rw [isDigit, hhigh]
        rfl
      · rw [isDigit, hlow]
        rfl
    · rintro ⟨heven, h⟩
      obtain ⟨ha, h⟩ := List.forall_mem_cons.mp h
      obtain ⟨hb, hrest⟩ := List.forall_mem_cons.mp h
      obtain ⟨high, hhigh⟩ := Option.isSome_iff_exists.mp ha
      obtain ⟨low, hlow⟩ := Option.isSome_iff_exists.mp hb
      obtain ⟨bs, hbs⟩ := ih.mpr ⟨heven, hrest⟩
      exact ⟨UInt8.ofNat (16 * high + low) :: bs, by simp [hhigh, hlow, hbs]⟩

theorem ofChars?_map_toLower (cs : List Char) : ofChars? (cs.map Char.toLower) = ofChars? cs := by
  fun_induction ofChars? cs with
  | case1 => rfl
  | case2 => rfl
  | case3 a b rest ih =>
    rw [List.map_cons, List.map_cons, ofChars?, digit?_toLower, digit?_toLower, ih]

/-! ## Marks -/

theorem isMarked_eq_true {cs : List Char} (h : isMarked cs = true) :
    ∃ c rest, cs = '0' :: c :: rest ∧ isDigit c = false ∧ c ≠ '_' := by
  unfold isMarked at h
  split at h
  · exact ⟨'x', _, rfl, by decide, by decide⟩
  · exact ⟨'X', _, rfl, by decide, by decide⟩
  · cases h

theorem unmarkChars_of_not_isMarked {cs : List Char} (h : isMarked cs = false) :
    unmarkChars cs = cs := by
  unfold unmarkChars
  split
  · cases h
  · cases h
  · rfl

theorem unmarkChars_cases (cs : List Char) :
    unmarkChars cs = cs ∨ ∃ x, isDigit x = false ∧ cs = '0' :: x :: unmarkChars cs := by
  unfold unmarkChars
  split
  · exact .inr ⟨'x', by decide, rfl⟩
  · exact .inr ⟨'X', by decide, rfl⟩
  · exact .inl rfl

theorem unmarkChars_map_toLower (cs : List Char) :
    unmarkChars (cs.map Char.toLower) = (unmarkChars cs).map Char.toLower := by
  have hzero : ∀ c : Char, c.toLower = '0' → c = '0' :=
    toLower_cases (p := fun c d => d = '0' → c = '0') (by decide) fun _ _ => id
  have hletter : ∀ c : Char, c.toLower = 'x' ∨ c.toLower = 'X' → c = 'x' ∨ c = 'X' :=
    toLower_cases (p := fun c d => d = 'x' ∨ d = 'X' → c = 'x' ∨ c = 'X') (by decide) fun _ _ => id
  have hmarked : ∀ c rest, cs.map Char.toLower = '0' :: c :: rest → c = 'x' ∨ c = 'X' →
      ∃ rest', cs = '0' :: 'x' :: rest' ∨ cs = '0' :: 'X' :: rest' := by
    intro c rest hcs hc
    obtain ⟨a, cs', rfl, ha, hcs'⟩ := List.map_eq_cons_iff.mp hcs
    obtain ⟨b, rest', rfl, rfl, _⟩ := List.map_eq_cons_iff.mp hcs'
    rw [hzero a ha]
    obtain rfl | rfl := hletter b hc
    · exact ⟨rest', .inl rfl⟩
    · exact ⟨rest', .inr rfl⟩
  fun_cases unmarkChars cs with
  | case1 | case2 => rfl
  | case3 cs hlower hcapital =>
    have hno : ¬∃ rest', cs = '0' :: 'x' :: rest' ∨ cs = '0' :: 'X' :: rest' := by
      rintro ⟨rest', hcs | hcs⟩
      · exact hlower rest' hcs
      · exact hcapital rest' hcs
    unfold unmarkChars
    split
    · rename_i rest hcs
      exact absurd (hmarked _ rest hcs (.inl rfl)) hno
    · rename_i rest hcs
      exact absurd (hmarked _ rest hcs (.inr rfl)) hno
    · rfl

theorem unmarkChars_suffix (cs : List Char) : unmarkChars cs <:+ cs := by
  obtain hplain | ⟨x, _, hmarked⟩ := unmarkChars_cases cs
  · exact ⟨[], hplain⟩
  · exact ⟨['0', x], hmarked.symm⟩

theorem unmarkChars_of_isDigit {cs : List Char} (h : ∀ d ∈ cs, isDigit d = true) :
    unmarkChars cs = cs := by
  obtain hplain | ⟨x, hx, hmarked⟩ := unmarkChars_cases cs
  · exact hplain
  · have hmem : x ∈ cs := by
      rw [hmarked]
      exact List.mem_cons_of_mem _ List.mem_cons_self
    rw [h x hmem] at hx
    cases hx

theorem not_isMarked_of_ofChars? {cs : List Char} {bs : List UInt8} (h : ofChars? cs = some bs) :
    isMarked cs = false := by
  rw [← Bool.not_eq_true]
  intro hmark
  obtain ⟨c, rest, rfl, hc, _⟩ := isMarked_eq_true hmark
  obtain ⟨low, hlow, _⟩ := Option.bind_eq_some_iff.mp h
  rw [isDigit, hlow] at hc
  cases hc

theorem not_isMarked_chars {bs : List UInt8} : isMarked (chars bs) = false :=
  not_isMarked_of_ofChars? (ofChars?_chars bs)

/-! ## Runs of bytes in a text -/

theorem take_chars (n : Nat) (bs : List UInt8) : (chars bs).take (2 * n) = chars (bs.take n) := by
  induction n generalizing bs with
  | zero => rfl
  | succ n ih =>
    cases bs with
    | nil => simp [chars]
    | cons b bs =>
      have hrest := ih bs
      simp only [chars] at hrest
      simp only [chars, List.flatMap_cons, List.take_succ_cons, byteChars, List.cons_append,
        List.nil_append, Nat.mul_add, Nat.mul_one, hrest]

theorem drop_chars (n : Nat) (bs : List UInt8) : (chars bs).drop (2 * n) = chars (bs.drop n) := by
  induction n generalizing bs with
  | zero => rfl
  | succ n ih =>
    cases bs with
    | nil => simp [chars]
    | cons b bs => exact ih bs

theorem chars_append (bs bs' : List UInt8) : chars (bs ++ bs') = chars bs ++ chars bs' :=
  List.flatMap_append

theorem chars_begins_iff {bs bs' : List UInt8} : chars bs <+: chars bs' ↔ bs <+: bs' := by
  constructor
  · intro h
    have hlength := h.length_le
    rw [length_chars, length_chars] at hlength
    have htake := List.prefix_iff_eq_take.mp h
    rw [length_chars, take_chars] at htake
    exact List.prefix_iff_eq_take.mpr (chars_injective htake)
  · intro h
    obtain ⟨rest, rfl⟩ := h
    rw [chars_append]
    exact List.prefix_append (chars bs) (chars rest)

theorem ofChars?_drop {cs : List Char} {bs : List UInt8} (n : Nat) (h : ofChars? cs = some bs) :
    ofChars? (cs.drop (2 * n)) = some (bs.drop n) := by
  induction n generalizing cs bs with
  | zero => exact h
  | succ n ih =>
    match cs, h with
    | [], h =>
      cases h
      simp [ofChars?]
    | a :: b :: rest, h =>
      obtain ⟨high, _, h⟩ := Option.bind_eq_some_iff.mp h
      obtain ⟨low, _, h⟩ := Option.bind_eq_some_iff.mp h
      obtain ⟨bs', hbs, h⟩ := Option.bind_eq_some_iff.mp h
      cases h
      exact ih hbs

/-- A text of bytes behind the mark, in either case of its letters. -/
def IsMarkedText (s : String) (bs : List UInt8) : Prop :=
  isMarked s.toList = true ∧ decode? s = some bs

theorem IsMarkedText.split {s : String} {bs : List UInt8} (h : IsMarkedText s bs) :
    ∃ x cs, s.toList = '0' :: x :: cs ∧ x.toLower = 'x' ∧ ofChars? cs = some bs := by
  obtain ⟨hmark, hdecode⟩ := h
  unfold decode? at hdecode
  unfold isMarked at hmark
  split at hmark
  · rename_i cs hs
    rw [hs] at hdecode
    exact ⟨'x', cs, hs, rfl, hdecode⟩
  · rename_i cs hs
    rw [hs] at hdecode
    exact ⟨'X', cs, hs, rfl, hdecode⟩
  · cases hmark

theorem isMarkedText_markedText (bs : List UInt8) : IsMarkedText (markedText bs) bs := by
  unfold IsMarkedText decode? markedText
  rw [String.toList_ofList]
  exact ⟨rfl, ofChars?_chars bs⟩

end EvmClient.Hex
