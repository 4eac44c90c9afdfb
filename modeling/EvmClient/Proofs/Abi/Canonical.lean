import EvmClient.Proofs.Abi.WellFormed
import EvmClient.Proofs.Abi.Word
import EvmClient.Proofs.Hex

/-!
# Canonical values

Several values have the same encoding, and one of them is what decoding gives: an address as text in
lower case, fixed bytes filled up to their length, a sequence as a tuple of canonical items. All
other values are canonical. Words of elementary types are read back to canonical values.
-/

set_option autoImplicit false

namespace EvmClient

namespace Address

def lowerForm : Value → Value
  | .text s => .text (String.ofList ('0' :: 'x' :: (Hex.unmarkChars s.toList).map Char.toLower))
  | .bytes bs => .text (lowerText bs)
  | v => v

theorem ofText?_eq_some {s : String} {bs : List UInt8} (h : ofText? s = some bs) :
    bs.length = length ∧ lowerForm (.text s) = .text (lowerText bs) := by
  unfold ofText? ofDigits? at h
  by_cases hlength : (Hex.unmarkChars s.toList).length = 2 * length
  · rw [if_pos hlength] at h
    have hchars := Hex.chars_of_ofChars? h
    have hcount := congrArg List.length hchars
    rw [Hex.length_chars, List.length_map, hlength] at hcount
    refine ⟨by omega, ?_⟩
    rw [lowerForm, lowerText, Hex.markedText, hchars]
  · rw [if_neg hlength] at h
    cases h

end Address

namespace AbiType
open Abi

mutual

/-- The value that decoding gives for the encoding of a value. -/
def canonical : AbiType → Value → Value
  | address, v => Address.lowerForm v
  | fixedBytes n, .bytes bs => .bytes (bs ++ List.replicate (n - bs.length) 0)
  | array item _, v => (v.sequence?.map fun items => .tuple (items.map (canonical item))).getD v
  | tuple members, v =>
    (v.sequence?.map fun items => .tuple (canonicalEach members items)).getD v
  | _, v => v

def canonicalEach : List AbiType → List Value → List Value
  | t :: ts, v :: vs => canonical t v :: canonicalEach ts vs
  | _, _ => []

end

/-! ## Elementary types -/

variable {w : List UInt8}

theorem two_pow_width (width : Nat) : Nat.pow 2 (8 * width) = 256 ^ width := Nat.pow_mul 2 8 width

theorem decodeWord_uint {bits : Nat} (hbits : IsWidth bits) {i : Int}
    (h : 0 ≤ i ∧ i < Nat.pow 2 bits) :
    decodeWord (.uint bits) (word i.toNat) = .ok (.int i) := by
  obtain ⟨width, rfl, hpos, hle⟩ := hbits
  rw [two_pow_width] at h
  have hn : i.toNat < 256 ^ width := by omega
  obtain ⟨htake, hdrop⟩ := word_split i.toNat hle
  rw [Nat.div_eq_of_lt hn, Hex.ofNat_zero] at htake
  have hwidth : 8 * width / 8 = width := by omega
  simp only [decodeWord, hwidth, htake, hdrop, Hex.toNat_ofNat, Nat.mod_eq_of_lt hn]
  rw [if_pos (by simp)]
  congr 2
  omega

section

variable {front back : Nat} {i : Int}

theorem split_nonneg (hfront : 0 < front) (hi : 0 ≤ i) (hlt : i < back) :
    (i % (front * back : Nat)).toNat / back = 0 ∧
      ((i % (front * back : Nat)).toNat % back : Nat) = i := by
  have hle : back ≤ front * back := Nat.le_mul_of_pos_left back hfront
  have hmod : i % (front * back : Nat) = i := Int.emod_eq_of_lt hi (by omega)
  have hn : i.toNat < back := by omega
  rw [hmod, Nat.div_eq_of_lt hn, Nat.mod_eq_of_lt hn]
  exact ⟨rfl, Int.toNat_of_nonneg hi⟩

/-- A negative number fills the bytes before its own with ones. -/
theorem split_neg (hfront : 0 < front) (hi : i < 0) (hle : -back ≤ i) :
    (i % (front * back : Nat)).toNat / back = front - 1 ∧
      ((i % (front * back : Nat)).toNat % back : Nat) = back + i := by
  have hmul : front * back = back * (front - 1) + back := by
    conv => lhs; rw [← Nat.sub_add_cancel hfront, Nat.add_mul, Nat.one_mul, Nat.mul_comm]
  have hmod : i % (front * back : Nat) = i + (front * back : Nat) := by
    rw [← Int.add_emod_right, Int.emod_eq_of_lt (by omega) (by omega)]
  have hn : (i % (front * back : Nat)).toNat = back * (front - 1) + (back + i).toNat := by
    omega
  have hlt : (back + i).toNat < back := by omega
  rw [hn, Nat.mul_add_div (by omega), Nat.mul_add_mod, Nat.div_eq_of_lt hlt, Nat.mod_eq_of_lt hlt]
  exact ⟨rfl, by omega⟩

end

theorem decodeWord_int {bits : Nat} (hbits : IsWidth bits) {i : Int}
    (h : -(Nat.pow 2 (bits - 1) : Int) ≤ i ∧ i < Nat.pow 2 (bits - 1)) :
    decodeWord (.int bits) (word (i % Nat.pow 2 256).toNat) = .ok (.int i) := by
  obtain ⟨width, rfl, hpos, hle⟩ := hbits
  have hhalf : 256 ^ width = 2 * Nat.pow 2 (8 * width - 1) := by
    have hpred : 8 * width = 8 * width - 1 + 1 := by omega
    calc 256 ^ width = Nat.pow 2 (8 * width - 1 + 1) := by rw [← hpred, two_pow_width]
      _ = 2 * Nat.pow 2 (8 * width - 1) := Nat.pow_succ'
  have hword : Nat.pow 2 256 = 256 ^ (wordLength - width) * 256 ^ width := by
    rw [← Nat.pow_add, Nat.sub_add_cancel (by simpa [wordLength] using hle)]
    rfl
  have hwidth : 8 * width / 8 = width := by omega
  have hfront : 0 < 256 ^ (wordLength - width) := Nat.pow_pos (by decide)
  rw [hword]
  obtain ⟨htake, hdrop⟩ :=
    word_split (i % (256 ^ (wordLength - width) * 256 ^ width : Nat)).toNat hle
  simp only [decodeWord, hwidth, htake, hdrop, Hex.toNat_ofNat, two_pow_width]
  generalize Nat.pow 2 (8 * width - 1) = half at h hhalf
  by_cases hi : 0 ≤ i
  · obtain ⟨hdiv, hmod⟩ := split_nonneg hfront hi (by omega : i < (256 ^ width : Nat))
    have hsmall : ¬half ≤ (i % (256 ^ (wordLength - width) * 256 ^ width : Nat)).toNat %
        256 ^ width := by omega
    rw [hdiv, Hex.ofNat_zero, decide_eq_false hsmall, if_pos (by simp),
      if_neg Bool.false_ne_true, hmod]
  · obtain ⟨hdiv, hmod⟩ := split_neg hfront (by omega) (by omega : -(256 ^ width : Nat) ≤ i)
    have hlarge : half ≤ (i % (256 ^ (wordLength - width) * 256 ^ width : Nat)).toNat %
        256 ^ width := by omega
    rw [hdiv, Hex.ofNat_ones, decide_eq_true hlarge, if_pos (by simp), if_pos rfl, hmod]
    congr 2
    omega

theorem decodeWord_address {bs : List UInt8} :
    decodeWord .address (List.replicate 12 0 ++ bs) = .ok (.text (Address.lowerText bs)) := by
  have htake : (List.replicate 12 (0 : UInt8) ++ bs).take 12 = List.replicate 12 0 :=
    List.take_left' List.length_replicate
  have hdrop : (List.replicate 12 (0 : UInt8) ++ bs).drop 12 = bs :=
    List.drop_left' List.length_replicate
  simp only [decodeWord, htake, hdrop]
  rfl

theorem decodeWord_fixedBytes {n : Nat} {bs : List UInt8} (hn : n ≤ 32) (h : bs.length ≤ n) :
    decodeWord (.fixedBytes n) (bs ++ List.replicate (32 - bs.length) 0) =
      .ok (.bytes (bs ++ List.replicate (n - bs.length) 0)) := by
  have hsplit : bs ++ List.replicate (32 - bs.length) 0 =
      (bs ++ List.replicate (n - bs.length) 0) ++ List.replicate (32 - n) (0 : UInt8) := by
    have hcount : 32 - bs.length = (n - bs.length) + (32 - n) := by omega
    rw [hcount, ← List.replicate_append_replicate, List.append_assoc]
  have hlength : (bs ++ List.replicate (n - bs.length) (0 : UInt8)).length = n := by
    simp only [List.length_append, List.length_replicate]
    omega
  rw [hsplit, decodeWord, List.drop_left' hlength, List.take_left' hlength, if_pos (by simp)]

theorem decodeWord_encodeWord {t : AbiType} (ht : t.WellFormed) {v : Value}
    (h : encodeWord? t v = some w) :
    w.length = wordLength ∧ decodeWord t w = .ok (t.canonical v) := by
  unfold encodeWord? at h
  split at h
  · simp only [Option.ite_none_right_eq_some, Option.some.injEq] at h
    obtain ⟨hi, rfl⟩ := h
    cases ht with
    | uint hbits => exact ⟨length_word _, decodeWord_uint hbits hi⟩
  · simp only [Option.ite_none_right_eq_some, Option.some.injEq] at h
    obtain ⟨hi, rfl⟩ := h
    cases ht with
    | int hbits => exact ⟨length_word _, decodeWord_int hbits hi⟩
  · rename_i b
    obtain rfl := Option.some.inj h
    refine ⟨length_word _, ?_⟩
    rw [decodeWord, word, Hex.toNat_ofNat]
    cases b <;> rfl
  · obtain ⟨bs, hbs, rfl⟩ := Option.map_eq_some_iff.mp h
    obtain ⟨hlength, hform⟩ := Address.ofText?_eq_some hbs
    refine ⟨by simp [hlength, Address.length, wordLength], ?_⟩
    rw [decodeWord_address, canonical, hform]
  · simp only [Option.ite_none_right_eq_some, Option.some.injEq] at h
    obtain ⟨hlength, rfl⟩ := h
    exact ⟨by simp [hlength, Address.length, wordLength], decodeWord_address⟩
  · simp only [Option.ite_none_right_eq_some, Option.some.injEq] at h
    obtain ⟨hlength, rfl⟩ := h
    cases ht with
    | fixedBytes hn =>
      refine ⟨?_, decodeWord_fixedBytes hn hlength⟩
      simp only [List.length_append, List.length_replicate, wordLength]
      omega
  · cases h

end AbiType
end EvmClient
