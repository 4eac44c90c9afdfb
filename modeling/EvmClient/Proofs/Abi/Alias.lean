import EvmClient.Proofs.Abi.Spelling

/-!
# Short names written in full

Where `uint` or `int` stands alone in the text of a type it is short for the type of 256 bits. Such
a text can be written in full. The tokens of the two texts differ only by the sizes of these words,
so the texts name the same type, or fail to name one for the same reason: `AbiType.ofText_inFull`.
-/

set_option autoImplicit false

namespace EvmClient

namespace TypeExpr

/-! ## Texts -/

/-- Whether a word is a short name. A digit behind it would be its size. -/
def isShort (word rest : List Char) : Bool :=
  (word == "uint".toList || word == "int".toList) && !rest.head?.any isDigit

def inFull : List Char → List Char
  | [] => []
  | c :: cs =>
    if isLetter c then
      c :: cs.takeWhile isLetter ++
        ((if isShort (c :: cs.takeWhile isLetter) (cs.dropWhile isLetter) then "256".toList
          else []) ++ inFull (cs.dropWhile isLetter))
    else c :: inFull cs
termination_by cs => cs.length
decreasing_by
  · exact Nat.lt_succ_of_le (length_dropWhile_le isLetter cs)
  · exact Nat.lt_succ_self _

section

variable {c : Char} {cs : List Char}

theorem inFull_of_not_isLetter (h : isLetter c = false) : inFull (c :: cs) = c :: inFull cs := by
  rw [inFull, h]
  rfl

theorem inFull_of_isLetter (h : isLetter c = true) :
    inFull (c :: cs) = c :: cs.takeWhile isLetter ++
      ((if isShort (c :: cs.takeWhile isLetter) (cs.dropWhile isLetter) then "256".toList
        else []) ++ inFull (cs.dropWhile isLetter)) := by
  rw [inFull, if_pos h]

/-- What is kept when a word may get digits behind it, and when anything else stays as it is, holds
of a text and the text in full. -/
theorem inFull_induction {p : List Char → List Char → Prop} (hnil : p [] [])
    (hother : ∀ c cs, isLetter c = false → p cs (inFull cs) → p (c :: cs) (c :: inFull cs))
    (hword : ∀ word digits rest, (∀ c ∈ word, isLetter c = true) →
      (∀ c ∈ digits, isDigit c = true) → p rest (inFull rest) →
      p (word ++ rest) (word ++ (digits ++ inFull rest)))
    (cs : List Char) : p cs (inFull cs) := by
  fun_induction inFull cs with
  | case1 => exact hnil
  | case2 c cs h ih =>
    have hletters : ∀ d ∈ c :: cs.takeWhile isLetter, isLetter d = true :=
      List.forall_mem_cons.mpr ⟨h, fun d hd => List.all_eq_true.mp List.all_takeWhile d hd⟩
    have hsplit : c :: cs = (c :: cs.takeWhile isLetter) ++ cs.dropWhile isLetter := by
      rw [List.cons_append, List.takeWhile_append_dropWhile]
    have hdigits : ∀ d ∈ (if isShort (c :: cs.takeWhile isLetter) (cs.dropWhile isLetter) then
        "256".toList else []), isDigit d = true := by
      split
      · exact List.all_eq_true.mp (by decide)
      · simp
    have hpair := hword _ _ _ hletters hdigits ih
    rwa [← hsplit] at hpair
  | case3 c cs h ih => exact hother c cs (Bool.eq_false_iff.mpr h) ih

theorem head?_inFull (cs : List Char) : (inFull cs).head? = cs.head? := by
  fun_cases inFull cs <;> rfl

theorem toNat_le_iff {c d : Char} : decide (c ≤ d) = true ↔ c.toNat ≤ d.toNat := decide_eq_true_iff

theorem isDigit_of_isLetter (h : isLetter c = true) : isDigit c = false := by
  simp only [isLetter, isDigit, Bool.or_eq_true, Bool.and_eq_true, toNat_le_iff,
    ← Bool.not_eq_true] at h ⊢
  have hz : 'a'.toNat = 97 ∧ 'z'.toNat = 122 ∧ 'A'.toNat = 65 ∧ 'Z'.toNat = 90 ∧
    '0'.toNat = 48 ∧ '9'.toNat = 57 := by decide
  omega

theorem isLetter_of_isDigit (h : isDigit c = true) : isLetter c = false := by
  rw [← Bool.not_eq_true]
  intro hletter
  rw [isDigit_of_isLetter hletter] at h
  cases h

theorem takeWhile_of_head {p : Char → Bool} (hhead : cs.head? = some c) (h : p c = false) :
    cs.takeWhile p = [] ∧ cs.dropWhile p = cs := by
  obtain ⟨rest, rfl⟩ := List.head?_eq_some_iff.mp hhead
  rw [List.takeWhile_cons, List.dropWhile_cons, h]
  exact ⟨rfl, rfl⟩

theorem span_isDigit_inFull (cs : List Char) :
    (inFull cs).takeWhile isDigit = cs.takeWhile isDigit ∧
      (inFull cs).dropWhile isDigit = inFull (cs.dropWhile isDigit) := by
  induction cs with
  | nil => simp [inFull]
  | cons c cs ih =>
    by_cases h : isDigit c = true
    · rw [inFull_of_not_isLetter (isLetter_of_isDigit h), List.takeWhile_cons_of_pos h,
        List.takeWhile_cons_of_pos h, List.dropWhile_cons_of_pos h, List.dropWhile_cons_of_pos h,
        ih.1, ih.2]
      exact ⟨rfl, rfl⟩
    · rw [Bool.not_eq_true] at h
      obtain ⟨htake, hdrop⟩ := takeWhile_of_head (head?_inFull (c :: cs)) h
      obtain ⟨htake', hdrop'⟩ := takeWhile_of_head (show (c :: cs).head? = some c from rfl) h
      rw [htake, hdrop, htake', hdrop']
      exact ⟨rfl, rfl⟩

theorem number?_of_head (hhead : cs.head? = some c) (h : isDigit c = false) :
    number? cs = none := by
  obtain ⟨rest, rfl⟩ := List.head?_eq_some_iff.mp hhead
  rw [number?, if_neg]
  rw [isDigit, ← Bool.not_eq_true, Bool.and_eq_true] at h
  rw [Bool.and_eq_true]
  rintro ⟨hone, hnine⟩
  have hzero : decide ('0' ≤ c) = true := by
    rw [toNat_le_iff] at hone ⊢
    exact Nat.le_trans (by decide) hone
  exact h ⟨hzero, hnine⟩

theorem number?_inFull (cs : List Char) :
    number? (inFull cs) = (number? cs).map fun result => (result.1, inFull result.2) := by
  cases cs with
  | nil => simp [inFull, number?]
  | cons c cs =>
    by_cases h : isLetter c = true
    · have hdigit := isDigit_of_isLetter h
      rw [number?_of_head (head?_inFull (c :: cs)) hdigit,
        number?_of_head List.head?_cons hdigit]
      rfl
    · rw [Bool.not_eq_true] at h
      obtain ⟨htake, hdrop⟩ := span_isDigit_inFull cs
      rw [inFull_of_not_isLetter h, number?, number?, htake, hdrop]
      split <;> rfl

theorem inFull_x (cs : List Char) :
    ∃ rest, inFull ('x' :: cs) = 'x' :: rest ∧
      number? rest = (number? cs).map fun result => (result.1, inFull result.2) := by
  have hshort : isShort ('x' :: cs.takeWhile isLetter) (cs.dropWhile isLetter) = false := rfl
  rw [inFull_of_isLetter rfl, hshort]
  refine ⟨_, rfl, ?_⟩
  cases hhead : cs.head? with
  | none =>
    rw [List.head?_eq_none_iff.mp hhead]
    simp [inFull, number?]
  | some c =>
    by_cases h : isLetter c = true
    · obtain ⟨rest, rfl⟩ := List.head?_eq_some_iff.mp hhead
      have hdigit := isDigit_of_isLetter h
      rw [List.takeWhile_cons_of_pos h, number?_of_head rfl hdigit,
        number?_of_head List.head?_cons hdigit]
      rfl
    · rw [Bool.not_eq_true] at h
      obtain ⟨htake, hdrop⟩ := takeWhile_of_head hhead h
      rw [htake, hdrop]
      exact number?_inFull cs

theorem size_inFull (cs : List Char) : size (inFull cs) = ((size cs).1, inFull (size cs).2) := by
  rw [size, size, number?_inFull]
  cases number? cs with
  | none => rfl
  | some result =>
    obtain ⟨m, rest⟩ := result
    simp only [Option.map_some]
    cases hhead : rest.head? with
    | none =>
      rw [List.head?_eq_none_iff.mp hhead]
      simp [inFull]
    | some c =>
      obtain ⟨rest, rfl⟩ := List.head?_eq_some_iff.mp hhead
      by_cases hx : c = 'x'
      · subst hx
        obtain ⟨rest', hrest, hnumber⟩ := inFull_x rest
        rw [hrest]
        simp only [hnumber]
        cases number? rest with
        | none => simp [hrest]
        | some result => rfl
      · obtain ⟨rest', hrest⟩ := List.head?_eq_some_iff.mp (head?_inFull (c :: rest))
        rw [hrest]
        simp [hx, hrest]

theorem inFull_bracket (cs : List Char) : inFull (']' :: cs) = ']' :: inFull cs :=
  inFull_of_not_isLetter rfl

theorem inFull_of_not_bracket (h : ∀ rest, cs ≠ ']' :: rest) (rest : List Char) :
    inFull cs ≠ ']' :: rest := by
  intro hfull
  have hhead := head?_inFull cs
  rw [hfull] at hhead
  obtain ⟨rest', hcs⟩ := List.head?_eq_some_iff.mp hhead.symm
  exact h rest' hcs

theorem suffix?_inFull (cs : List Char) :
    suffix? (inFull cs) = (suffix? cs).map fun result => (result.1, inFull result.2) := by
  fun_cases suffix? cs with
  | case1 cs =>
    rw [inFull_bracket]
    rfl
  | case2 cs hopen n rest hnumber =>
    have hfull : number? (inFull cs) = some (n, ']' :: inFull rest) := by
      rw [number?_inFull, hnumber, Option.map_some, inFull_bracket]
    unfold suffix?
    split
    · rename_i hbracket
      exact absurd hbracket (inFull_of_not_bracket hopen _)
    · rw [hfull]
      rfl
  | case3 cs hopen hno =>
    unfold suffix?
    split
    · rename_i hbracket
      exact absurd hbracket (inFull_of_not_bracket hopen _)
    · rw [number?_inFull]
      cases hnumber : number? cs with
      | none => rfl
      | some result =>
        obtain ⟨n, rest⟩ := result
        have hrest : ∀ rest', rest ≠ ']' :: rest' := by
          rintro rest' rfl
          exact hno n rest' hnumber
        simp only [Option.map_some]
        split
        · rename_i heq
          obtain ⟨_, hbracket⟩ := Prod.mk.inj (Option.some.inj heq)
          exact absurd hbracket (inFull_of_not_bracket hrest _)
        · rfl

end

/-! ## Tokens -/

def fullSize (letters : String) (size : TypeSize) : TypeSize :=
  match letters, size with
  | "uint", .absent => .width 256
  | "int", .absent => .width 256
  | _, size => size

def Token.inFull : Token → Token
  | .word letters size => .word letters (fullSize letters size)
  | t => t

theorem tokens?_of_isLetter {c : Char} (h : isLetter c = true) (cs : List Char) :
    tokens? (c :: cs) = (tokens? (size (cs.dropWhile isLetter)).2).map (.word
      (String.ofList (c :: cs.takeWhile isLetter)) (size (cs.dropWhile isLetter)).1 :: ·) := by
  have hne : ∀ d, isLetter d = false → c ≠ d := by
    rintro d hd rfl
    rw [h] at hd
    cases hd
  rw [tokens?, if_pos h]
  · exact hne '(' rfl
  · exact hne ')' rfl
  · exact hne ',' rfl
  · exact hne '[' rfl

theorem tokens?_of_bracket (cs : List Char) :
    tokens? ('[' :: cs) =
      (suffix? cs).bind fun result => (tokens? result.2).map (.suffix result.1 :: ·) := by
  rw [tokens?]
  split
  · rename_i n rest hsuffix
    simp only [hsuffix, Option.bind_some]
  · rename_i hsuffix
    simp only [hsuffix, Option.bind_none]

theorem tokens?_of_isDigit {c : Char} (h : isDigit c = true) (cs : List Char) :
    tokens? (c :: cs) = none := by
  have hne : ∀ d, isDigit d = false → c ≠ d := by
    rintro d hd rfl
    rw [h] at hd
    cases hd
  rw [tokens?, isLetter_of_isDigit h]
  · rfl
  · exact hne '(' rfl
  · exact hne ')' rfl
  · exact hne ',' rfl
  · exact hne '[' rfl

theorem head?_dropWhile_isLetter {c : Char} {cs : List Char}
    (h : (cs.dropWhile isLetter).head? = some c) : isLetter c = false := by
  have hnot := List.head?_dropWhile_not isLetter cs
  rw [h] at hnot
  simpa using hnot

theorem span_append {p : Char → Bool} {front rest : List Char} (hfront : ∀ c ∈ front, p c = true)
    (hrest : ∀ c, rest.head? = some c → p c = false) :
    (front ++ rest).takeWhile p = front ∧ (front ++ rest).dropWhile p = rest := by
  rw [List.takeWhile_append_of_pos hfront, List.dropWhile_append_of_pos hfront]
  cases hhead : rest.head? with
  | none =>
    rw [List.head?_eq_none_iff.mp hhead]
    simp
  | some c =>
    obtain ⟨htake, hdrop⟩ := takeWhile_of_head hhead (hrest c hhead)
    rw [htake, hdrop, List.append_nil]
    exact ⟨rfl, rfl⟩

theorem fullSize_cases (letters : String) (size : TypeSize) :
    fullSize letters size = size ∨
      (letters = "uint" ∨ letters = "int") ∧ size = .absent := by
  unfold fullSize
  split
  · exact .inr ⟨.inl rfl, rfl⟩
  · exact .inr ⟨.inr rfl, rfl⟩
  · exact .inl rfl

theorem isShort_iff {word rest : List Char} :
    isShort word rest = true ↔
      (word = "uint".toList ∨ word = "int".toList) ∧
        ∀ c, rest.head? = some c → isDigit c = false := by
  rw [isShort, Bool.and_eq_true, Bool.or_eq_true, beq_iff_eq, beq_iff_eq, Bool.not_eq_true']
  cases rest.head? <;> simp

theorem size_of_no_digit {cs : List Char} (h : ∀ c, cs.head? = some c → isDigit c = false) :
    size cs = (.absent, cs) := by
  have hnumber : number? cs = none := by
    cases hhead : cs.head? with
    | none =>
      rw [List.head?_eq_none_iff.mp hhead]
      rfl
    | some d => exact number?_of_head hhead (h d hhead)
  rw [size, hnumber]

theorem size_full {rest : List Char}
    (h : ∀ c, rest.head? = some c → isDigit c = false ∧ isLetter c = false) :
    size ("256".toList ++ rest) = (.width 256, rest) := by
  have hnumber : number? ("256".toList ++ rest) = some (256, rest) := by
    have hdigits : ∀ c ∈ "56".toList, isDigit c = true := List.all_eq_true.mp (by decide)
    obtain ⟨htake, hdrop⟩ := span_append hdigits fun c hc => (h c hc).1
    change number? ('2' :: ("56".toList ++ rest)) = _
    rw [number?, if_pos (by decide), htake, hdrop]
    rfl
  rw [size, hnumber]
  split
  · rename_i heq
    cases heq
  · rename_i heq
    cases heq
    exact absurd (h 'x' rfl).2 (by decide)
  · rename_i heq
    cases heq
    rfl

theorem fullSize_of_isShort {word rest : List Char} (h : isShort word rest = true) :
    fullSize (String.ofList word) (size rest).1 = .width 256 := by
  obtain ⟨hword, hdigit⟩ := isShort_iff.mp h
  rw [size_of_no_digit hdigit]
  obtain rfl | rfl := hword <;> rfl

/-- A short name that is followed by a digit has a size of its own, unless the digit is a zero. No
token begins with that. -/
theorem fullSize_of_not_isShort {word rest : List Char} (h : isShort word rest ≠ true) :
    fullSize (String.ofList word) (size rest).1 = (size rest).1 ∨
      tokens? (size rest).2 = none := by
  refine (fullSize_cases (String.ofList word) (size rest).1).imp_right fun hcase => ?_
  obtain ⟨hword, habsent⟩ := hcase
  obtain ⟨number, hsplit, _, hempty⟩ := size_split rest
  rw [hempty.mp habsent, List.nil_append] at hsplit
  rw [← hsplit]
  have hletters : word = "uint".toList ∨ word = "int".toList := by
    rw [← String.toList_ofList (l := word)]
    exact hword.imp (congrArg String.toList) (congrArg String.toList)
  cases rest with
  | nil => exact absurd (isShort_iff.mpr ⟨hletters, by simp⟩) h
  | cons d rest =>
    refine tokens?_of_isDigit ?_ rest
    rw [← Bool.not_eq_false]
    intro hdigit
    refine h (isShort_iff.mpr ⟨hletters, ?_⟩)
    rintro _ ⟨⟩
    exact hdigit

/-- A word in full has the same letters, and the size that it is short for. A word that is followed
by a zero is followed by no token. -/
theorem word_inFull {c : Char} (h : isLetter c = true) (cs : List Char) :
    ∃ rest s, inFull (c :: cs) = c :: rest ∧ rest.takeWhile isLetter = cs.takeWhile isLetter ∧
      size (rest.dropWhile isLetter) = (s, inFull (size (cs.dropWhile isLetter)).2) ∧
      (s = fullSize (String.ofList (c :: cs.takeWhile isLetter)) (size (cs.dropWhile isLetter)).1 ∨
        tokens? (size (cs.dropWhile isLetter)).2 = none) := by
  have hletters : ∀ d ∈ cs.takeWhile isLetter, isLetter d = true :=
    fun d hd => List.all_eq_true.mp List.all_takeWhile d hd
  have hnext : ∀ d, (inFull (cs.dropWhile isLetter)).head? = some d → isLetter d = false :=
    fun d hd => head?_dropWhile_isLetter ((head?_inFull _).symm.trans hd)
  rw [inFull_of_isLetter h, List.cons_append]
  by_cases hshort : isShort (c :: cs.takeWhile isLetter) (cs.dropWhile isLetter) = true
  · have hdigit := (isShort_iff.mp hshort).2
    have hfull : ∀ d, ("256".toList ++ inFull (cs.dropWhile isLetter)).head? = some d →
        isLetter d = false := by
      rintro d ⟨⟩
      rfl
    obtain ⟨htake, hdrop⟩ := span_append hletters hfull
    rw [if_pos hshort, fullSize_of_isShort hshort]
    refine ⟨_, .width 256, rfl, htake, ?_, .inl rfl⟩
    rw [hdrop, size_of_no_digit hdigit]
    exact size_full fun d hd => ⟨hdigit d ((head?_inFull _).symm.trans hd), hnext d hd⟩
  · obtain ⟨htake, hdrop⟩ := span_append hletters hnext
    rw [if_neg hshort, List.nil_append]
    refine ⟨_, (size (cs.dropWhile isLetter)).1, rfl, htake, by rw [hdrop, size_inFull], ?_⟩
    exact (fullSize_of_not_isShort hshort).imp_left Eq.symm

theorem tokens?_inFull (cs : List Char) :
    tokens? (inFull cs) = (tokens? cs).map (List.map Token.inFull) := by
  fun_induction tokens? cs with
  | case1 => simp [inFull, tokens?]
  | case2 cs ih | case3 cs ih | case4 cs ih =>
    rw [inFull_of_not_isLetter rfl, tokens?, ih, Option.map_map, Option.map_map]
    rfl
  | case5 cs n rest hsuffix _ ih =>
    rw [inFull_of_not_isLetter rfl, tokens?_of_bracket, suffix?_inFull, hsuffix, Option.map_some,
      Option.bind_some, ih, Option.map_map, Option.map_map]
    rfl
  | case6 cs hsuffix =>
    rw [inFull_of_not_isLetter rfl, tokens?_of_bracket, suffix?_inFull, hsuffix]
    rfl
  | case7 c cs _ _ _ _ hc sized _ ih =>
    obtain ⟨rest, s, hrest, htake, hsize, hfull⟩ := word_inFull hc cs
    have hsized : sized = size (cs.dropWhile isLetter) := rfl
    rw [← hsized] at hsize hfull
    rw [hrest, tokens?_of_isLetter hc, htake, hsize, ih]
    obtain rfl | hnone := hfull
    · rw [Option.map_map, Option.map_map]
      rfl
    · rw [hnone]
      rfl
  | case8 c cs hopening hclosing hcomma hbracket hc =>
    rw [Bool.not_eq_true] at hc
    rw [inFull_of_not_isLetter hc, tokens?, hc]
    · rfl
    · exact hopening
    · exact hclosing
    · exact hcomma
    · exact hbracket

/-! ## Expressions -/

mutual

def withSizes : TypeExpr → TypeExpr
  | word letters size => word letters (fullSize letters size)
  | tuple members => tuple (allWithSizes members)
  | array item length => array (withSizes item) length

def allWithSizes : List TypeExpr → List TypeExpr
  | [] => []
  | e :: rest => withSizes e :: allWithSizes rest

end

theorem allWithSizes_eq (members : List TypeExpr) :
    allWithSizes members = members.map withSizes := by
  induction members with
  | nil => rw [allWithSizes]; rfl
  | cons e rest ih => rw [allWithSizes, ih]; rfl

def Progress.withSizes (p : Progress) : Progress :=
  (p.1.map fun members => members.map TypeExpr.withSizes, p.2.map TypeExpr.withSizes)

theorem shift_withSizes (p : Progress) (t : Token) :
    shift (Progress.withSizes p) t.inFull = (shift p t).map Progress.withSizes := by
  fun_cases shift p t with
  | case1 => simp [Progress.withSizes, Token.inFull, shift, TypeExpr.withSizes]
  | case2 => simp [Progress.withSizes, Token.inFull, shift]
  | case3 => simp [Progress.withSizes, Token.inFull, shift, TypeExpr.withSizes]
  | case4 => simp [Progress.withSizes, Token.inFull, shift]
  | case5 => simp [Progress.withSizes, Token.inFull, shift, TypeExpr.withSizes, allWithSizes_eq]
  | case6 p t hword hopening hsuffix hcomma hclosing =>
    obtain ⟨pending, current⟩ := p
    cases t <;> cases current <;> cases pending <;>
      simp_all [Progress.withSizes, Token.inFull, shift]

theorem foldlM_shift_withSizes (p : Progress) (ts : List Token) :
    (ts.map Token.inFull).foldlM shift (Progress.withSizes p) =
      (ts.foldlM shift p).map Progress.withSizes := by
  induction ts generalizing p with
  | nil => rfl
  | cons t ts ih =>
    rw [List.map_cons, List.foldlM_cons, List.foldlM_cons, shift_withSizes]
    cases shift p t with
    | none => rfl
    | some p' => exact ih p'

theorem ofTokens?_inFull (ts : List Token) :
    ofTokens? (ts.map Token.inFull) = (ofTokens? ts).map withSizes := by
  have hfold := foldlM_shift_withSizes ([], none) ts
  have hstart : Progress.withSizes ([], none) = ([], none) := rfl
  rw [hstart] at hfold
  rw [ofTokens?, hfold, ofTokens?]
  cases ts.foldlM shift ([], none) with
  | none => rfl
  | some p =>
    obtain ⟨pending, current⟩ := p
    cases pending <;> cases current <;> rfl

theorem isReadable_fullSize (letters : String) (size : TypeSize) :
    (fullSize letters size).isReadable = size.isReadable := by
  obtain hsame | ⟨rfl | rfl, rfl⟩ := fullSize_cases letters size
  · rw [hsame]
  · decide +kernel
  · decide +kernel

mutual

theorem isReadable_withSizes (e : TypeExpr) : e.withSizes.isReadable = e.isReadable := by
  cases e with
  | word letters size => rw [withSizes, isReadable, isReadable, isReadable_fullSize]
  | tuple members => rw [withSizes, isReadable, isReadable, areReadable_allWithSizes members]
  | array item length => rw [withSizes, isReadable, isReadable, isReadable_withSizes item]

theorem areReadable_allWithSizes (members : List TypeExpr) :
    areReadable (allWithSizes members) = areReadable members := by
  cases members with
  | nil => rw [allWithSizes]
  | cons e rest =>
    rw [allWithSizes, areReadable, areReadable, isReadable_withSizes e,
      areReadable_allWithSizes rest]

end

theorem expandWord_fullSize (letters : String) (size : TypeSize) :
    expandWord letters (fullSize letters size) = expandWord letters size := by
  obtain hsame | ⟨rfl | rfl, rfl⟩ := fullSize_cases letters size
  · rw [hsame]
  · rfl
  · rfl

mutual

theorem isSized_withSizes (e : TypeExpr) : e.withSizes.isSized = e.isSized := by
  cases e with
  | word letters size => rw [withSizes, isSized, isSized, expandWord_fullSize]
  | tuple members => rw [withSizes, isSized, isSized, areSized_allWithSizes members]
  | array item length => rw [withSizes, isSized, isSized, isSized_withSizes item]

theorem areSized_allWithSizes (members : List TypeExpr) :
    areSized (allWithSizes members) = areSized members := by
  cases members with
  | nil => rw [allWithSizes]
  | cons e rest =>
    rw [allWithSizes, areSized, areSized, isSized_withSizes e, areSized_allWithSizes rest]

end

mutual

theorem denoted_withSizes (e : TypeExpr) : e.withSizes.denoted = e.denoted := by
  cases e with
  | word letters size => rw [withSizes, denoted, denoted, expandWord_fullSize]
  | tuple members => rw [withSizes, denoted, denoted, denotedAll_allWithSizes members]
  | array item length => rw [withSizes, denoted, denoted, denoted_withSizes item]

theorem denotedAll_allWithSizes (members : List TypeExpr) :
    denotedAll (allWithSizes members) = denotedAll members := by
  cases members with
  | nil => rw [allWithSizes]
  | cons e rest =>
    rw [allWithSizes, denotedAll, denotedAll, denoted_withSizes e, denotedAll_allWithSizes rest]

end

theorem resolve_withSizes (e : TypeExpr) : e.withSizes.resolve = e.resolve := by
  have hsized := isSized_withSizes e
  have hdenoted := denoted_withSizes e
  cases e with
  | word letters size =>
    obtain hsame | ⟨rfl | rfl, rfl⟩ := fullSize_cases letters size
    · rw [withSizes, hsame]
    · rfl
    · rfl
  | tuple members | array item length =>
    rw [withSizes] at hsized hdenoted ⊢
    unfold resolve
    simp only
    rw [hsized, hdenoted]

theorem read?_inFull (cs : List Char) :
    read? (String.ofList (inFull cs)) = (read? (String.ofList cs)).map withSizes := by
  rw [read?, read?, String.toList_ofList, String.toList_ofList, tokens?_inFull]
  cases tokens? cs with
  | none => rfl
  | some ts => exact ofTokens?_inFull ts

end TypeExpr

/-! ## Types -/

namespace Abi

def inFull (s : String) : String := String.ofList (TypeExpr.inFull s.toList)

end Abi

namespace AbiType

theorem hasEmptyTuple_cons (c : Char) (cs : List Char) :
    hasEmptyTuple (c :: cs) = (c == '(' && cs.head? == some ')' || hasEmptyTuple cs) := by
  by_cases hc : c = '('
  · subst hc
    cases cs with
    | nil => rfl
    | cons d rest =>
      by_cases hd : d = ')'
      · subst hd
        rfl
      · simp [hasEmptyTuple, hd]
  · simp [hasEmptyTuple, hc]

theorem hasEmptyTuple_append {front : List Char} (h : '(' ∉ front) (cs : List Char) :
    hasEmptyTuple (front ++ cs) = hasEmptyTuple cs := by
  induction front with
  | nil => rfl
  | cons c front ih =>
    rw [List.mem_cons, not_or] at h
    rw [List.cons_append, hasEmptyTuple_cons, ih h.2, beq_eq_false_iff_ne.mpr (Ne.symm h.1),
      Bool.false_and, Bool.false_or]

theorem hasEmptyTuple_inFull (cs : List Char) :
    hasEmptyTuple (TypeExpr.inFull cs) = hasEmptyTuple cs := by
  induction cs using TypeExpr.inFull_induction with
  | hnil => rfl
  | hother c cs h ih => rw [hasEmptyTuple_cons, hasEmptyTuple_cons, TypeExpr.head?_inFull, ih]
  | hword word digits rest hletters hdigits ih =>
    have hword : '(' ∉ word := fun hmem => absurd (hletters _ hmem) (by decide)
    have hextra : '(' ∉ digits := fun hmem => absurd (hdigits _ hmem) (by decide)
    rw [hasEmptyTuple_append hword, hasEmptyTuple_append hextra, hasEmptyTuple_append hword, ih]

/-- Short names do not matter for the type that a text names. -/
theorem ofText_inFull (s : String) : ofText (Abi.inFull s) = ofText s := by
  rw [ofText, Abi.inFull, TypeExpr.read?_inFull, String.ofList_toList, ofText,
    String.toList_ofList, hasEmptyTuple_inFull]
  cases TypeExpr.read? s with
  | none => rfl
  | some e => simp only [Option.map_some, TypeExpr.isReadable_withSizes, TypeExpr.resolve_withSizes]

theorem ofTexts_inFull (texts : List String) :
    ofTexts (texts.map Abi.inFull) = ofTexts texts := by
  rw [ofTexts, ofTexts, List.mapM_map]
  exact congrArg (fun f => texts.mapM f) (funext ofText_inFull)

end AbiType

namespace TypeExpr

variable {cs word : List Char}

theorem sublist_inFull (cs : List Char) : cs.Sublist (inFull cs) := by
  induction cs using inFull_induction with
  | hnil => exact .slnil
  | hother c cs _ ih => exact ih.cons_cons c
  | hword word digits rest _ _ ih =>
    exact (List.Sublist.refl word).append (ih.trans (List.sublist_append_right digits _))

theorem takeWhile_isLetter_inFull (cs : List Char) :
    (inFull cs).takeWhile isLetter = cs.takeWhile isLetter := by
  cases cs with
  | nil => rw [inFull]
  | cons c cs =>
    by_cases h : isLetter c = true
    · obtain ⟨rest, _, hrest, htake, _⟩ := word_inFull h cs
      rw [hrest, List.takeWhile_cons_of_pos h, htake, List.takeWhile_cons_of_pos h]
    · rw [Bool.not_eq_true] at h
      rw [(takeWhile_of_head (head?_inFull (c :: cs)) h).1,
        (takeWhile_of_head List.head?_cons h).1]

theorem begins_inFull_iff (hword : word.all isLetter = true) :
    word <+: inFull cs ↔ word <+: cs := by
  have hletters : ∀ ds : List Char, word <+: ds ↔ word <+: ds.takeWhile isLetter := by
    intro ds
    constructor
    · rintro ⟨rest, rfl⟩
      rw [List.takeWhile_append_of_pos (List.all_eq_true.mp hword)]
      exact List.prefix_append _ _
    · exact fun h => h.trans (List.takeWhile_prefix isLetter)
  rw [hletters, takeWhile_isLetter_inFull, ← hletters]

theorem inFull_eq_iff (hword : word.all isLetter = true) (hfull : inFull word = word) :
    inFull cs = word ↔ cs = word := by
  constructor
  · intro h
    have hbegins : word <+: cs := (begins_inFull_iff hword).mp (h ▸ List.prefix_refl word)
    have hlength := (sublist_inFull cs).length_le
    rw [h] at hlength
    exact (hbegins.eq_of_length_le hlength).symm
  · rintro rfl
    exact hfull

theorem getLast?_append_bracket {front : List Char} (h : ']' ∉ front) (cs : List Char) :
    (front ++ cs).getLast? = some ']' ↔ cs.getLast? = some ']' := by
  rw [List.getLast?_append]
  cases cs.getLast? with
  | none =>
    rw [Option.none_or]
    exact iff_of_false (fun hlast => h (List.mem_of_getLast? hlast)) nofun
  | some c => rw [Option.some_or]

theorem ends_inFull_iff (cs : List Char) :
    (inFull cs).getLast? = some ']' ↔ cs.getLast? = some ']' := by
  induction cs using inFull_induction with
  | hnil => rfl
  | hother c cs h ih =>
    cases hhead : cs.head? with
    | none =>
      rw [List.head?_eq_none_iff.mp hhead, inFull]
    | some d =>
      obtain ⟨rest, hcs⟩ := List.head?_eq_some_iff.mp hhead
      obtain ⟨rest', hfull⟩ := List.head?_eq_some_iff.mp ((head?_inFull cs).trans hhead)
      rw [hfull] at ih ⊢
      rw [hcs] at ih ⊢
      rwa [List.getLast?_cons_cons, List.getLast?_cons_cons]
  | hword word digits rest hletters hdigits ih =>
    have hword : ']' ∉ word := fun hmem => absurd (hletters _ hmem) (by decide)
    have hextra : ']' ∉ digits := fun hmem => absurd (hdigits _ hmem) (by decide)
    rw [getLast?_append_bracket hword, getLast?_append_bracket hextra,
      getLast?_append_bracket hword, ih]

end TypeExpr

namespace Abi

theorem isHashedType_inFull (type : String) : isHashedType (inFull type) = isHashedType type := by
  have hopening : ∀ cs : List Char, "(".toList <+: cs ↔ cs.head? = some '(' := by
    intro cs
    cases cs <;> simp [List.cons_prefix_cons, eq_comm]
  rw [Bool.eq_iff_iff, isHashedType_iff, isHashedType_iff, inFull, String.toList_ofList,
    TypeExpr.inFull_eq_iff (by decide) (by decide +kernel),
    TypeExpr.inFull_eq_iff (by decide) (by decide +kernel), TypeExpr.ends_inFull_iff, hopening,
    TypeExpr.head?_inFull, ← hopening, TypeExpr.begins_inFull_iff (by decide)]

end Abi
end EvmClient
