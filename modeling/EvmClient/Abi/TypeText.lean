/-!
# The grammar of type texts

A type is a word of letters with an optional size, or types in parentheses with commas between them;
array suffixes may follow either. A size is a number or two numbers with an `x` between them, and
numbers have no leading zero. Reading first splits a text into tokens and then folds them over a
stack of open parentheses.
-/

set_option autoImplicit false

namespace EvmClient

inductive TypeSize where
  | absent
  | width (n : Nat)
  | ratio (m n : Nat)
  deriving DecidableEq, Repr

/-- A type as it is written; an array's length is absent when it is not fixed. -/
inductive TypeExpr where
  | word (letters : String) (size : TypeSize)
  | tuple (members : List TypeExpr)
  | array (item : TypeExpr) (length : Option Nat)
  deriving Repr

namespace TypeExpr

inductive Token where
  | word (letters : String) (size : TypeSize)
  | opening
  | closing
  | comma
  | suffix (length : Option Nat)
  deriving DecidableEq, Repr

def isLetter (c : Char) : Bool := ('a' ≤ c && c ≤ 'z') || ('A' ≤ c && c ≤ 'Z')

def isDigit (c : Char) : Bool := '0' ≤ c && c ≤ '9'

def digitsValue (cs : List Char) : Nat :=
  cs.foldl (fun acc c => 10 * acc + (c.toNat - '0'.toNat)) 0

def number? : List Char → Option (Nat × List Char)
  | [] => none
  | c :: cs =>
    if '1' ≤ c && c ≤ '9' then
      some (digitsValue (c :: cs.takeWhile isDigit), cs.dropWhile isDigit)
    else none

theorem length_dropWhile_le (p : Char → Bool) (cs : List Char) :
    (cs.dropWhile p).length ≤ cs.length :=
  (List.dropWhile_suffix p).length_le

theorem length_number? {cs rest : List Char} {n : Nat} (h : number? cs = some (n, rest)) :
    rest.length < cs.length := by
  unfold number? at h
  split at h
  · contradiction
  · split at h
    · have := length_dropWhile_le isDigit ‹List Char›
      simp only [Option.some.injEq, Prod.mk.injEq] at h
      simp only [← h.2, List.length_cons]
      omega
    · contradiction

def size (cs : List Char) : TypeSize × List Char :=
  match number? cs with
  | none => (.absent, cs)
  | some (m, 'x' :: rest) =>
    match number? rest with
    | some (n, rest') => (.ratio m n, rest')
    | none => (.width m, 'x' :: rest)
  | some (m, rest) => (.width m, rest)

theorem length_size_le (cs : List Char) : (size cs).2.length ≤ cs.length := by
  unfold size
  split
  · exact Nat.le_refl _
  · rename_i m rest h
    have h1 := length_number? h
    split
    · rename_i n rest' h'
      have h2 := length_number? h'
      simp only [List.length_cons] at h1 ⊢
      omega
    · simp only
      omega
  · rename_i m rest _ h
    have h1 := length_number? h
    simp only
    omega

def suffix? : List Char → Option (Option Nat × List Char)
  | ']' :: cs => some (none, cs)
  | cs =>
    match number? cs with
    | some (n, ']' :: rest) => some (some n, rest)
    | _ => none

theorem length_suffix? {cs rest : List Char} {n : Option Nat} (h : suffix? cs = some (n, rest)) :
    rest.length < cs.length := by
  unfold suffix? at h
  split at h
  · simp only [Option.some.injEq, Prod.mk.injEq] at h
    simp [h.2]
  · split at h
    · rename_i hn
      have := length_number? hn
      simp only [Option.some.injEq, Prod.mk.injEq] at h
      simp only [h.2, List.length_cons] at this
      omega
    · contradiction

def tokens? : List Char → Option (List Token)
  | [] => some []
  | '(' :: cs => (tokens? cs).map (.opening :: ·)
  | ')' :: cs => (tokens? cs).map (.closing :: ·)
  | ',' :: cs => (tokens? cs).map (.comma :: ·)
  | '[' :: cs =>
    match h : suffix? cs with
    | some (n, rest) =>
      have := length_suffix? h
      (tokens? rest).map (.suffix n :: ·)
    | none => none
  | c :: cs =>
    if isLetter c then
      let sized := size (cs.dropWhile isLetter)
      have : sized.2.length < (c :: cs).length := by
        have h1 : sized.2.length ≤ _ := length_size_le (cs.dropWhile isLetter)
        have h2 := length_dropWhile_le isLetter cs
        simp only [List.length_cons]
        omega
      (tokens? sized.2).map (.word (String.ofList (c :: cs.takeWhile isLetter)) sized.1 :: ·)
    else none
termination_by cs => cs.length
decreasing_by all_goals (simp only [List.length_cons] at *; omega)

/-- The members read so far of every open parenthesis, innermost first, and the type just read. -/
abbrev Progress := List (List TypeExpr) × Option TypeExpr

def shift : Progress → Token → Option Progress
  | (pending, none), .word letters size => some (pending, some (.word letters size))
  | (pending, none), .opening => some ([] :: pending, none)
  | (pending, some t), .suffix n => some (pending, some (.array t n))
  | (members :: pending, some t), .comma => some ((members ++ [t]) :: pending, none)
  | (members :: pending, some t), .closing => some (pending, some (.tuple (members ++ [t])))
  | _, _ => none

def ofTokens? (ts : List Token) : Option TypeExpr :=
  match ts.foldlM shift ([], none) with
  | some ([], some t) => some t
  | _ => none

def read? (s : String) : Option TypeExpr := (tokens? s.toList).bind ofTokens?

end TypeExpr
end EvmClient
