import EvmClient.Proofs.Abi.Alias
import EvmClient.Proofs.Abi.WellFormed

/-!
# Texts derived in the grammar

A type is a name with its size, types in parentheses, or a type with a length behind it. Every such
expression has one text, which its tokens make up. Reading the text gives the expression back,
unless a fixed length is zero or a tuple is empty, and nothing else names a type: the main
statements are `TypeExpr.read?_text` and `AbiType.ofText_eq_ok_iff`.
-/

set_option autoImplicit false

namespace EvmClient

namespace TypeSize

def chars : TypeSize → List Char
  | absent => []
  | width n => Nat.toDigits 10 n
  | ratio m n => Nat.toDigits 10 m ++ 'x' :: Nat.toDigits 10 n

def IsPositive : TypeSize → Prop
  | absent => True
  | width n => n ≠ 0
  | ratio m n => m ≠ 0 ∧ n ≠ 0

end TypeSize

namespace TypeExpr

/-! ## Texts of expressions -/

def Token.chars : Token → List Char
  | .word letters size => letters.toList ++ size.chars
  | .opening => ['(']
  | .closing => [')']
  | .comma => [',']
  | .suffix length => '[' :: (length.elim [] (Nat.toDigits 10) ++ [']'])

mutual

def tokens : TypeExpr → List Token
  | word letters size => [.word letters size]
  | tuple members => .opening :: memberTokens members ++ [.closing]
  | array item length => tokens item ++ [.suffix length]

def memberTokens : List TypeExpr → List Token
  | [] => []
  | [e] => tokens e
  | e :: rest => tokens e ++ .comma :: memberTokens rest

end

def chars (ts : List Token) : List Char := ts.flatMap Token.chars

def text (e : TypeExpr) : String := String.ofList (chars e.tokens)

/-- The names of the types that are not made of others. `byte` is one only inside of these. -/
def elementaryNames : List String :=
  ["uint", "int", "fixed", "ufixed", "address", "bool", "bytes", "byte", "string", "function"]

inductive IsDerivable : TypeExpr → Prop where
  | word {letters : String} {size : TypeSize} (hname : letters ∈ elementaryNames)
      (hsize : size.IsPositive) : IsDerivable (.word letters size)
  | tuple {members : List TypeExpr} (hmembers : ∀ e ∈ members, IsDerivable e) :
      IsDerivable (.tuple members)
  | array {item : TypeExpr} {length : Option Nat} (hitem : IsDerivable item) :
      IsDerivable (.array item length)

/-! ## Numbers -/

section

variable {n : Nat} {cs rest : List Char}

theorem digitsValue_toDigits (n : Nat) : digitsValue (Nat.toDigits 10 n) = n := by
  have hvalue : digitsValue (Nat.toDigits 10 n) = Nat.ofDigitChars 10 (Nat.toDigits 10 n) 0 :=
    Nat.ofDigitChars_eq_foldl.symm
  rw [hvalue, Nat.ofDigitChars_toDigits (by decide) (by decide)]

theorem isDigit_of_mem_toDigits {c : Char} (h : c ∈ Nat.toDigits 10 n) : isDigit c = true :=
  Nat.isDigit_of_mem_toDigits (by decide) (by decide) h

theorem exists_toDigits_cons (hn : n ≠ 0) :
    ∃ c cs, Nat.toDigits 10 n = c :: cs ∧ ('1' ≤ c && c ≤ '9') = true := by
  induction n using Nat.strongRecOn with
  | ind n ih =>
    by_cases hsmall : n < 10
    · have all : ∀ i : Fin 10, i.val ≠ 0 →
          ('1' ≤ Nat.digitChar i && Nat.digitChar i ≤ '9') = true := by decide
      exact ⟨_, [], Nat.toDigits_of_lt_base hsmall, all ⟨n, hsmall⟩ hn⟩
    · -- the first digit of a larger number is that of its tenth
      obtain ⟨c, cs, hcs, hc⟩ := ih (n / 10) (by omega) (by omega)
      rw [Nat.toDigits_of_base_le (by decide) (by omega), hcs]
      exact ⟨c, cs ++ [Nat.digitChar (n % 10)], rfl, hc⟩

theorem number?_toDigits (hn : n ≠ 0) (hrest : ∀ c, rest.head? = some c → isDigit c = false) :
    number? (Nat.toDigits 10 n ++ rest) = some (n, rest) := by
  obtain ⟨c, cs, hcs, hc⟩ := exists_toDigits_cons hn
  have hdigits : ∀ d ∈ cs, isDigit d = true := by
    intro d hd
    have hmem : d ∈ Nat.toDigits 10 n := hcs ▸ List.mem_cons_of_mem c hd
    exact isDigit_of_mem_toDigits hmem
  obtain ⟨htake, hdrop⟩ := span_append hdigits hrest
  rw [hcs, List.cons_append, number?, if_pos hc, htake, hdrop, ← hcs, digitsValue_toDigits]

theorem toDigits_digit {c : Char} (h : isDigit c = true) :
    c.toNat - '0'.toNat < 10 ∧ Nat.toDigits 10 (c.toNat - '0'.toNat) = [c] := by
  simp only [isDigit, Bool.and_eq_true, toNat_le_iff] at h
  have hzero : '0'.toNat = 48 := rfl
  have hnine : '9'.toNat = 57 := rfl
  have hsmall : c.toNat - '0'.toNat < 10 := by omega
  have hchar : Nat.digitChar (c.toNat - '0'.toNat) = c := by
    apply Char.toNat_inj.mp
    rw [Nat.toNat_digitChar_of_lt_ten hsmall]
    omega
  exact ⟨hsmall, by rw [Nat.toDigits_of_lt_base hsmall, hchar]⟩

theorem toDigits_foldl (hdigits : ∀ c ∈ cs, isDigit c = true) {acc : Nat} (hacc : 0 < acc) :
    Nat.toDigits 10 (cs.foldl (fun acc c => 10 * acc + (c.toNat - '0'.toNat)) acc) =
      Nat.toDigits 10 acc ++ cs := by
  induction cs generalizing acc with
  | nil => rw [List.foldl_nil, List.append_nil]
  | cons c cs ih =>
    obtain ⟨hsmall, hlast⟩ := toDigits_digit (hdigits c List.mem_cons_self)
    have hnext := Nat.toDigits_append_toDigits (by decide : 1 < 10) hacc hsmall
    rw [hlast] at hnext
    rw [List.foldl_cons, ih (fun d hd => hdigits d (List.mem_cons_of_mem c hd)) (by omega),
      ← hnext, List.append_assoc, List.singleton_append]

theorem eq_of_number? (h : number? cs = some (n, rest)) : cs = Nat.toDigits 10 n ++ rest := by
  cases cs with
  | nil => cases h
  | cons c cs =>
    rw [number?] at h
    by_cases hc : ('1' ≤ c && c ≤ '9') = true
    · rw [if_pos hc] at h
      cases h
      simp only [Bool.and_eq_true, toNat_le_iff] at hc
      have hone : '1'.toNat = 49 := rfl
      have hzero : '0'.toNat = 48 := rfl
      have hdigit : isDigit c = true := by
        simp only [isDigit, Bool.and_eq_true, toNat_le_iff]
        omega
      have hdigits : ∀ d ∈ cs.takeWhile isDigit, isDigit d = true :=
        fun d hd => List.all_eq_true.mp List.all_takeWhile d hd
      rw [digitsValue, List.foldl_cons, toDigits_foldl hdigits (by omega), Nat.mul_zero,
        Nat.zero_add, (toDigits_digit hdigit).2, List.append_assoc,
        List.takeWhile_append_dropWhile, List.singleton_append]
    · rw [if_neg hc] at h
      cases h

end

/-! ## Tokens -/

/-- The text begins with neither a letter nor a digit, so that no word goes on in it. -/
def Breaks (cs : List Char) : Prop :=
  ∀ c, cs.head? = some c → isLetter c = false ∧ isDigit c = false

section

variable {rest : List Char}

theorem size_chars {s : TypeSize} (hs : s.IsPositive) (hrest : Breaks rest) :
    size (s.chars ++ rest) = (s, rest) := by
  have hdigit : ∀ c, rest.head? = some c → isDigit c = false := fun c hc => (hrest c hc).2
  cases s with
  | absent => exact size_of_no_digit hdigit
  | width n =>
    rw [TypeSize.chars, size, number?_toDigits hs hdigit]
    split
    · rename_i heq
      cases heq
    · rename_i heq
      cases heq
      exact absurd (hrest 'x' rfl).1 (by decide)
    · rename_i heq
      cases heq
      rfl
  | ratio m n =>
    have hx : ∀ c, ('x' :: (Nat.toDigits 10 n ++ rest)).head? = some c → isDigit c = false := by
      rintro _ ⟨⟩
      rfl
    rw [TypeSize.chars, List.append_assoc, List.cons_append, size, number?_toDigits hs.1 hx]
    simp only [number?_toDigits hs.2 hdigit]

theorem suffix?_chars {length : Option Nat} (hlength : length ≠ some 0) :
    suffix? (length.elim [] (Nat.toDigits 10) ++ ']' :: rest) = some (length, rest) := by
  cases length with
  | none => rfl
  | some n =>
    have hn : n ≠ 0 := fun h => hlength (congrArg some h)
    have hnumber : number? (Nat.toDigits 10 n ++ ']' :: rest) = some (n, ']' :: rest) := by
      refine number?_toDigits hn ?_
      rintro _ ⟨⟩
      rfl
    rw [Option.elim_some]
    unfold suffix?
    split
    · rename_i heq
      rw [heq] at hnumber
      cases hnumber
    · simp only [hnumber]

def Token.IsMark : Token → Prop
  | .word _ _ => False
  | .suffix length => length ≠ some 0
  | _ => True

theorem breaks_mark {t : Token} (ht : t.IsMark) : Breaks (t.chars ++ rest) := by
  cases t with
  | word letters s => exact ht.elim
  | _ =>
    rintro _ ⟨⟩
    decide

theorem tokens?_mark {t : Token} (ht : t.IsMark) :
    tokens? (t.chars ++ rest) = (tokens? rest).map (t :: ·) := by
  cases t with
  | word letters s => exact ht.elim
  | suffix length =>
    rw [Token.chars, List.cons_append, List.append_assoc, List.singleton_append,
      tokens?_of_bracket, suffix?_chars ht, Option.bind_some]
  | _ => rw [Token.chars, List.singleton_append, tokens?]

theorem letters_of_name {letters : String} (h : letters ∈ elementaryNames) :
    ∃ c cs, letters.toList = c :: cs ∧ isLetter c = true ∧ ∀ d ∈ cs, isLetter d = true := by
  have all : ∀ name ∈ elementaryNames, name.toList ≠ [] ∧ name.toList.all isLetter = true := by
    decide
  obtain ⟨hne, hall⟩ := all letters h
  obtain ⟨c, cs, hcs⟩ := List.exists_cons_of_ne_nil hne
  rw [hcs, List.all_eq_true, List.forall_mem_cons] at hall
  exact ⟨c, cs, hcs, hall⟩

theorem not_isLetter_head {s : TypeSize} (hrest : Breaks rest) {c : Char}
    (hc : (s.chars ++ rest).head? = some c) : isLetter c = false := by
  have hnumber : ∀ n tail, (Nat.toDigits 10 n ++ tail).head? = some c → isLetter c = false := by
    intro n tail hhead
    obtain ⟨d, ds, hds⟩ := List.exists_cons_of_ne_nil (Nat.toDigits_ne_nil : Nat.toDigits 10 n ≠ [])
    rw [hds] at hhead
    cases hhead
    exact isLetter_of_isDigit (isDigit_of_mem_toDigits (hds ▸ List.mem_cons_self))
  cases s with
  | absent => exact (hrest c hc).1
  | width n => exact hnumber n rest hc
  | ratio m n =>
    rw [TypeSize.chars, List.append_assoc] at hc
    exact hnumber m _ hc

theorem tokens?_word {letters : String} {s : TypeSize} (hname : letters ∈ elementaryNames)
    (hs : s.IsPositive) (hrest : Breaks rest) :
    tokens? ((Token.word letters s).chars ++ rest) = (tokens? rest).map (.word letters s :: ·) := by
  obtain ⟨c, cs, hcs, hc, hletters⟩ := letters_of_name hname
  obtain ⟨htake, hdrop⟩ := span_append hletters fun d => not_isLetter_head (s := s) hrest
  rw [Token.chars, hcs, List.append_assoc, List.cons_append, tokens?_of_isLetter hc, htake, hdrop,
    size_chars hs hrest, ← hcs, String.ofList_toList]

end

/-- The tokens are read from their characters, whatever breaks off behind them. -/
def Lexes (ts : List Token) : Prop :=
  ∀ rest, Breaks rest → tokens? (chars ts ++ rest) = (tokens? rest).map (ts ++ ·)

section

variable {t : Token} {ts us : List Token}

theorem chars_append (ts us : List Token) : chars (ts ++ us) = chars ts ++ chars us :=
  List.flatMap_append

theorem Lexes.nil : Lexes [] := by
  intro rest _
  rw [chars, List.flatMap_nil, List.nil_append]
  simp

theorem Lexes.cons_mark (ht : t.IsMark) (h : Lexes ts) : Lexes (t :: ts) := by
  intro rest hrest
  rw [chars, List.flatMap_cons, List.append_assoc, tokens?_mark ht]
  have hts := h rest hrest
  rw [chars] at hts
  rw [hts, Option.map_map]
  rfl

theorem Lexes.append_mark (h : Lexes ts) (ht : t.IsMark) (hus : Lexes us) :
    Lexes (ts ++ t :: us) := by
  intro rest hrest
  have hmark : Breaks (chars (t :: us) ++ rest) := by
    rw [chars, List.flatMap_cons, List.append_assoc]
    exact breaks_mark ht
  rw [chars_append, List.append_assoc, h _ hmark, hus.cons_mark ht rest hrest, Option.map_map]
  congr 1
  funext more
  exact (List.append_assoc ts (t :: us) more).symm

theorem lexes_members {members : List TypeExpr} (h : ∀ e ∈ members, Lexes e.tokens) :
    Lexes (memberTokens members) := by
  induction members with
  | nil => exact .nil
  | cons e rest ih =>
    rw [List.forall_mem_cons] at h
    cases rest with
    | nil => exact h.1
    | cons e' rest => exact h.1.append_mark trivial (ih h.2)

theorem lexes_tokens {e : TypeExpr} (he : e.IsDerivable) (hproper : e.IsProper) :
    Lexes e.tokens := by
  -- by what makes it proper, since marks need their lengths; that its words are names goes along
  induction hproper with
  | word =>
    cases he with
    | word hname hsize =>
      intro rest hrest
      rw [tokens, chars, List.flatMap_singleton, tokens?_word hname hsize hrest]
      rfl
  | array hlength _ ih =>
    cases he with
    | array hitem => exact (ih hitem).append_mark hlength .nil
  | tuple _ _ ih =>
    cases he with
    | tuple hmembers =>
      have hall := lexes_members fun e he => ih e he (hmembers e he)
      have hclosed : Lexes (memberTokens _ ++ [.closing]) := hall.append_mark trivial .nil
      exact hclosed.cons_mark trivial

end

/-! ## Expressions -/

section

variable {e : TypeExpr}

theorem memberTokens_cons_cons (e e' : TypeExpr) (rest : List TypeExpr) :
    memberTokens (e :: e' :: rest) = e.tokens ++ .comma :: memberTokens (e' :: rest) := rfl

/-- The members of a tuple are put behind those that were read before it; at each comma one more has
been read. -/
theorem foldlM_members {members : List TypeExpr} (hne : members ≠ [])
    (h : ∀ e ∈ members, ∀ pending,
      e.tokens.foldlM shift (pending, none) = some (pending, some e))
    (before : List TypeExpr) (pending : List (List TypeExpr)) :
    (memberTokens members ++ [Token.closing]).foldlM shift (before :: pending, none) =
      some (pending, some (.tuple (before ++ members))) := by
  induction members generalizing before with
  | nil => exact absurd rfl hne
  | cons e rest ih =>
    rw [List.forall_mem_cons] at h
    cases rest with
    | nil =>
      rw [memberTokens, List.foldlM_append, h.1]
      rfl
    | cons e' rest =>
      rw [memberTokens_cons_cons, List.append_assoc, List.cons_append, List.foldlM_append, h.1]
      have hrest := ih (List.cons_ne_nil e' rest) h.2 (before ++ [e])
      rw [List.append_assoc, List.singleton_append] at hrest
      exact hrest

theorem foldlM_tokens (he : e.IsProper) (pending : List (List TypeExpr)) :
    e.tokens.foldlM shift (pending, none) = some (pending, some e) := by
  induction he generalizing pending with
  | word => rfl
  | array _ _ ih =>
    rw [tokens, List.foldlM_append, ih]
    rfl
  | tuple hmembers _ ih =>
    rw [tokens, List.cons_append]
    exact foldlM_members hmembers ih [] pending

theorem read?_text (he : e.IsDerivable) (hproper : e.IsProper) : read? e.text = some e := by
  have hlexes := lexes_tokens he hproper [] (fun c hc => by cases hc)
  rw [List.append_nil, tokens?, Option.map_some, List.append_nil] at hlexes
  rw [read?, text, String.toList_ofList, hlexes, Option.bind_some, ofTokens?_eq_some]
  exact foldlM_tokens hproper []

end

/-! ## Texts that are read -/

def Token.IsPositive : Token → Prop
  | .word _ size => size.IsPositive
  | _ => True

section

variable {cs rest : List Char} {ts : List Token}

theorem size_eq (cs : List Char) : cs = (size cs).1.chars ++ (size cs).2 ∧
    (size cs).1.IsPositive := by
  unfold size
  split
  · exact ⟨rfl, trivial⟩
  · rename_i m rest hm
    have hcs := eq_of_number? hm
    split
    · rename_i n rest' hn
      have hrest := eq_of_number? hn
      refine ⟨?_, number?_pos hm, number?_pos hn⟩
      rw [hcs, hrest, TypeSize.chars, List.append_assoc, List.cons_append]
    · exact ⟨hcs, number?_pos hm⟩
  · rename_i m rest _ hm
    exact ⟨eq_of_number? hm, number?_pos hm⟩

theorem eq_of_suffix? {length : Option Nat} (h : suffix? cs = some (length, rest)) :
    cs = length.elim [] (Nat.toDigits 10) ++ ']' :: rest := by
  unfold suffix? at h
  split at h
  · cases h
    rfl
  · split at h
    · rename_i hn
      cases h
      exact eq_of_number? hn
    · cases h

theorem chars_of_map {t : Token} {o : Option (List Token)} (h : o.map (t :: ·) = some ts)
    (ht : t.IsPositive)
    (ih : ∀ us, o = some us → rest = chars us ∧ ∀ u ∈ us, u.IsPositive) :
    t.chars ++ rest = chars ts ∧ ∀ u ∈ ts, u.IsPositive := by
  obtain ⟨us, hus, rfl⟩ := Option.map_eq_some_iff.mp h
  obtain ⟨rfl, hall⟩ := ih us hus
  exact ⟨rfl, List.forall_mem_cons.mpr ⟨ht, hall⟩⟩

theorem chars_of_tokens? (h : tokens? cs = some ts) :
    cs = chars ts ∧ ∀ t ∈ ts, t.IsPositive := by
  fun_induction tokens? cs generalizing ts with
  | case1 =>
    cases h
    exact ⟨rfl, by simp⟩
  | case2 cs ih => exact chars_of_map h trivial fun us => ih
  | case3 cs ih => exact chars_of_map h trivial fun us => ih
  | case4 cs ih => exact chars_of_map h trivial fun us => ih
  | case5 cs length rest hs _ ih =>
    have hchars := chars_of_map (t := .suffix length) h trivial fun us => ih
    rw [Token.chars, List.cons_append, List.append_assoc, List.singleton_append,
      ← eq_of_suffix? hs] at hchars
    exact hchars
  | case6 => cases h
  | case7 c cs _ _ _ _ hc sized _ =>
    rename_i ih
    obtain ⟨hsplit, hpositive⟩ := size_eq (cs.dropWhile isLetter)
    have hchars := chars_of_map h hpositive fun us => ih
    rw [Token.chars, String.toList_ofList, List.append_assoc, ← hsplit, List.cons_append,
      List.takeWhile_append_dropWhile] at hchars
    exact hchars
  | case8 => cases h

end

/-- The tokens in front of the type that is being read. The innermost parenthesis stands last, and
each member that has been read has its comma behind it. -/
def openTokens : List (List TypeExpr) → List Token
  | [] => []
  | members :: pending =>
    openTokens pending ++ .opening :: members.flatMap fun e => e.tokens ++ [.comma]

def Progress.tokens (p : Progress) : List Token := openTokens p.1 ++ p.2.elim [] TypeExpr.tokens

theorem memberTokens_concat (members : List TypeExpr) (e : TypeExpr) :
    memberTokens (members ++ [e]) =
      (members.flatMap fun m => m.tokens ++ [.comma]) ++ e.tokens := by
  induction members with
  | nil => rfl
  | cons m members ih =>
    have hcons : memberTokens (m :: (members ++ [e])) =
        m.tokens ++ .comma :: memberTokens (members ++ [e]) := by
      cases members <;> rfl
    rw [List.cons_append, hcons, ih, List.flatMap_cons]
    simp

theorem shift_tokens {p p' : Progress} {t : Token} (h : shift p t = some p') :
    Progress.tokens p' = Progress.tokens p ++ [t] := by
  unfold shift at h
  -- a word, an opening, a suffix, a comma, a closing
  split at h <;> cases h
  · simp [Progress.tokens, tokens]
  · simp [Progress.tokens, openTokens]
  · simp [Progress.tokens, tokens]
  · simp [Progress.tokens, openTokens]
  · simp [Progress.tokens, openTokens, tokens, memberTokens_concat]

theorem foldlM_shift_tokens {ts : List Token} {p p' : Progress}
    (h : ts.foldlM shift p = some p') : Progress.tokens p' = Progress.tokens p ++ ts := by
  induction ts generalizing p with
  | nil =>
    cases h
    rw [List.append_nil]
  | cons t ts ih =>
    rw [List.foldlM_cons] at h
    obtain ⟨q, hq, h⟩ := Option.bind_eq_some_iff.mp h
    rw [ih h, shift_tokens hq, List.append_assoc, List.singleton_append]

theorem text_of_read? {s : String} {e : TypeExpr} (h : read? s = some e) :
    s = e.text ∧ ∀ t ∈ e.tokens, t.IsPositive := by
  obtain ⟨ts, hts, he⟩ := Option.bind_eq_some_iff.mp h
  obtain ⟨hchars, hpositive⟩ := chars_of_tokens? hts
  have htokens : e.tokens = ts := foldlM_shift_tokens (ofTokens?_eq_some.mp he)
  rw [htokens, text, htokens, ← hchars, String.ofList_toList]
  exact ⟨rfl, hpositive⟩

/-! ## Types -/

theorem name_of_namedType {letters : String} {size : TypeSize} {t : AbiType}
    (h : namedType letters size = .ok t) : letters ∈ elementaryNames := by
  unfold namedType at h
  split at h <;> cases h <;> decide

theorem name_of_denoted {letters : String} {size : TypeSize} {t : AbiType}
    (h : (word letters size).denoted = .ok t) : letters ∈ elementaryNames := by
  rw [denoted] at h
  obtain hexpand | ⟨hshort, _⟩ := expandWord_cases letters size
  · rw [hexpand] at h
    exact name_of_namedType h
  · have hsubset : ["uint", "int", "function", "byte"] ⊆ elementaryNames := by decide
    exact hsubset hshort

theorem exists_denoted {es : List TypeExpr} {ts : List AbiType} (h : denotedAll es = .ok ts) :
    ∀ e ∈ es, ∃ t, e.denoted = .ok t := by
  induction es generalizing ts with
  | nil => simp
  | cons e es ih =>
    rw [denotedAll] at h
    obtain ⟨t, ht, h⟩ := bind_eq_ok.mp h
    obtain ⟨rest, hrest, _⟩ := bind_eq_ok.mp h
    exact List.forall_mem_cons.mpr ⟨⟨t, ht⟩, ih hrest⟩

theorem mem_memberTokens {members : List TypeExpr} {e : TypeExpr} (he : e ∈ members) {t : Token}
    (ht : t ∈ e.tokens) : t ∈ memberTokens members := by
  induction members with
  | nil => cases he
  | cons m members ih =>
    obtain rfl | he := List.mem_cons.mp he
    · cases members with
      | nil => exact ht
      | cons _ _ => exact List.mem_append_left _ ht
    · cases members with
      | nil => cases he
      | cons _ _ => exact List.mem_append_right _ (List.mem_cons_of_mem _ (ih he))

theorem isDerivable_of_denoted {e : TypeExpr} (hproper : e.IsProper)
    (hpositive : ∀ t ∈ e.tokens, t.IsPositive) {t : AbiType} (h : e.denoted = .ok t) :
    e.IsDerivable := by
  induction hproper generalizing t with
  | word => exact .word (name_of_denoted h) (hpositive _ (List.mem_singleton_self _))
  | array _ _ ih =>
    obtain ⟨u, hu, _⟩ := map_eq_ok.mp h
    exact .array (ih (fun v hv => hpositive v (List.mem_append_left _ hv)) hu)
  | tuple _ _ ih =>
    obtain ⟨ts, hts, _⟩ := map_eq_ok.mp h
    refine .tuple fun e he => ?_
    obtain ⟨u, hu⟩ := exists_denoted hts e he
    have hmem : ∀ v ∈ e.tokens, v.IsPositive := fun v hv =>
      hpositive v (List.mem_append_left _ (List.mem_cons_of_mem _ (mem_memberTokens he hv)))
    exact ih e he hmem hu

theorem denoted_of_resolve {e : TypeExpr} {t : AbiType} (h : e.resolve = .ok t) :
    e.denoted = .ok t := by
  unfold resolve at h
  split at h
  · cases h
  · cases h
  · split at h
    · exact h
    · cases h

/-- The expression is one of the grammar, it can be read, and it stands for the type. -/
structure Denotes (e : TypeExpr) (t : AbiType) : Prop where
  derivable : e.IsDerivable
  proper : e.IsProper
  readable : e.isReadable = true
  resolves : e.resolve = .ok t

end TypeExpr

/-- A text names a type exactly if it is derived in the grammar as an expression of the type. -/
theorem AbiType.ofText_eq_ok_iff {s : String} {t : AbiType} :
    ofText s = .ok t ↔ ∃ e : TypeExpr, e.Denotes t ∧ s = e.text := by
  constructor
  · intro h
    unfold ofText at h
    split at h
    · rename_i e he
      obtain ⟨hs, hpositive⟩ := TypeExpr.text_of_read? he
      have hproper := TypeExpr.read?_isProper he
      split at h
      · rename_i hreadable
        have hderivable := TypeExpr.isDerivable_of_denoted hproper hpositive
          (TypeExpr.denoted_of_resolve h)
        exact ⟨e, ⟨hderivable, hproper, hreadable, h⟩, hs⟩
      · cases h
    · cases h
  · rintro ⟨e, he, rfl⟩
    rw [ofText, TypeExpr.read?_text he.derivable he.proper]
    simp only [he.readable, if_true, he.resolves]

end EvmClient
