import EvmClient.Value.Quantity

/-!
# Quantities read back

A whole number that is not negative is written in hexadecimal digits behind the mark, and reads back
as itself whatever its size. A negative number has its sign in front of the mark and does not.
-/

set_option autoImplicit false

namespace EvmClient

namespace Number

theorem hexDigit?_digitChar {d : Nat} (h : d < 16) : hexDigit? (Nat.digitChar d) = some d := by
  have all : ∀ i : Fin 16, hexDigit? (Nat.digitChar i) = some i.val := by decide
  exact all ⟨d, h⟩

theorem digitChar_ne_underscore {d : Nat} (h : d < 16) : Nat.digitChar d ≠ '_' := by
  have all : ∀ i : Fin 16, Nat.digitChar i ≠ '_' := by decide
  exact all ⟨d, h⟩

theorem isBlank_digitChar {d : Nat} (h : d < 16) : Text.isBlank (Nat.digitChar d) = false := by
  have all : ∀ i : Fin 16, Text.isBlank (Nat.digitChar i) = false := by decide
  exact all ⟨d, h⟩

theorem toDigits_eq_map (n : Nat) :
    ∃ ds, Nat.toDigits 16 n = ds.map Nat.digitChar ∧ ds ≠ [] ∧ (∀ d ∈ ds, d < 16) ∧
      ofDigits 16 ds = n := by
  induction n using Nat.strongRecOn with
  | ind n ih =>
    by_cases hn : n < 16
    · exact ⟨[n], Nat.toDigits_of_lt_base hn, by simp, by simpa using hn, by simp [ofDigits]⟩
    · obtain ⟨ds, hds, _, hsmall, hvalue⟩ := ih (n / 16) (by omega)
      refine ⟨ds ++ [n % 16], ?_, by simp, ?_, ?_⟩
      · rw [Nat.toDigits_of_base_le (by decide) (by omega), hds]
        simp
      · intro d hd
        obtain hd | hd := List.mem_append.mp hd
        · exact hsmall d hd
        · rw [List.mem_singleton.mp hd]
          omega
      · rw [ofDigits_append_singleton, hvalue]
        omega

theorem digitRun?_digits {ds : List Nat} (h : ∀ d ∈ ds, d < 16) :
    digitRun? hexDigit? (ds.map Nat.digitChar) = some ds := by
  induction ds with
  | nil => rfl
  | cons d ds ih =>
    have hd : d < 16 := h d List.mem_cons_self
    have hrest := ih fun e he => h e (List.mem_cons_of_mem d he)
    have hhead : ∀ (c : Char) (cs : List Char), c ≠ '_' →
        digitRun? hexDigit? (c :: cs) = (do
          let d ← hexDigit? c
          let ds ← digitRun? hexDigit? cs
          return d :: ds) := by
      intro c cs hc
      rw [digitRun?]
      rintro _ _ rfl
      exact absurd rfl hc
    rw [List.map_cons, hhead _ _ (digitChar_ne_underscore hd), hexDigit?_digitChar hd, hrest]
    rfl

theorem trimBlanks_eq {cs : List Char} (h : ∀ c ∈ cs, Text.isBlank c = false) :
    Text.trimBlanks cs = cs := by
  have drop : ∀ {ds : List Char}, (∀ c ∈ ds, Text.isBlank c = false) →
      ds.dropWhile Text.isBlank = ds := by
    intro ds hds
    cases ds with
    | nil => rfl
    | cons c ds => rw [List.dropWhile_cons, hds c List.mem_cons_self, if_neg Bool.false_ne_true]
  have hreverse : ∀ c ∈ cs.reverse, Text.isBlank c = false :=
    fun c hc => h c (List.mem_reverse.mp hc)
  rw [Text.trimBlanks, drop h, drop hreverse, List.reverse_reverse]

end Number

namespace Hex

theorem quantity_natCast (n : Nat) :
    (quantity n).toList = '0' :: 'x' :: Nat.toDigits 16 n := by
  have hn : ¬(n : Int) < 0 := by omega
  rw [quantity, if_neg hn, String.toList_append, Int.natAbs_natCast]
  exact congrArg ("0x".toList ++ ·) String.toList_ofList

theorem isPrefixOf_quantity (n : Nat) : "0x".isPrefixOf (quantity n) = true := by
  rw [String.isPrefixOf, String.startsWith_string_iff, quantity_natCast]
  exact ⟨Nat.toDigits 16 n, rfl⟩

theorem hexInteger?_quantity (n : Nat) : Number.hexInteger? (quantity n) = some n := by
  obtain ⟨ds, hds, hne, hsmall, hvalue⟩ := Number.toDigits_eq_map n
  have hblank : ∀ c ∈ (quantity n).toList, Text.isBlank c = false := by
    intro c hc
    rw [quantity_natCast, hds] at hc
    obtain rfl | hc := List.mem_cons.mp hc
    · decide
    obtain rfl | hc := List.mem_cons.mp hc
    · decide
    obtain ⟨d, hd, rfl⟩ := List.mem_map.mp hc
    exact Number.isBlank_digitChar (hsmall d hd)
  rw [Number.hexInteger?, Number.trimBlanks_eq hblank, quantity_natCast, hds]
  cases ds with
  | nil => exact absurd rfl hne
  | cons d ds =>
    rw [List.map_cons]
    change (Number.digitRun? Number.hexDigit? ((d :: ds).map Nat.digitChar)).map _ = _
    rw [Number.digitRun?_digits hsmall, Option.map_some, hvalue]

end Hex

theorem Value.quantity_text (n : Nat) : (text (Hex.quantity n)).quantity = .ok (int n) := by
  rw [quantity, if_pos (Hex.isPrefixOf_quantity n), Hex.hexInteger?_quantity]
  rfl

end EvmClient
