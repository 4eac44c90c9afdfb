import Mathlib.Algebra.Group.Nat.Defs
import EvmClient.Abi.Decode

/-!
# Words

A word read back is the number that was written, as far as a word can hold it. A number of fewer
bytes stands at the end of its word, behind zeros, or behind bytes of ones if it is negative.
-/

set_option autoImplicit false

namespace EvmClient

namespace Hex

theorem toNat_ofNat (width n : Nat) : toNat (ofNat width n) = n % 256 ^ width := by
  induction width generalizing n with
  | zero => simp [ofNat, toNat, Nat.mod_one]
  | succ width ih =>
    have hlast : (UInt8.ofNat n).toNat = n % 256 := rfl
    rw [ofNat, toNat_append_singleton, ih, hlast, Nat.pow_succ', Nat.mod_mul]
    omega

theorem ofNat_add (front back n : Nat) :
    ofNat (front + back) n = ofNat front (n / 256 ^ back) ++ ofNat back n := by
  induction back generalizing n with
  | zero => simp [ofNat]
  | succ back ih =>
    rw [← Nat.add_assoc, ofNat, ih, ofNat, Nat.pow_succ', Nat.div_div_eq_div_mul, List.append_assoc]

theorem ofNat_zero (width : Nat) : ofNat width 0 = List.replicate width 0 := by
  induction width with
  | zero => rfl
  | succ width ih =>
    rw [ofNat, Nat.zero_div, ih, List.replicate_succ']
    rfl

theorem ofNat_ones (width : Nat) : ofNat width (256 ^ width - 1) = List.replicate width 255 := by
  induction width with
  | zero => rfl
  | succ width ih =>
    have hpos : 0 < 256 ^ width := Nat.pow_pos (by decide)
    have hfront : (256 ^ (width + 1) - 1) / 256 = 256 ^ width - 1 := by omega
    have hlast : UInt8.ofNat (256 ^ (width + 1) - 1) = 255 := by
      refine UInt8.toNat.inj ?_
      have hmod : (256 ^ (width + 1) - 1) % 256 = 255 := by omega
      exact hmod
    rw [ofNat, hfront, ih, hlast, List.replicate_succ']

end Hex

namespace Abi

theorem takeWord_append {w : List UInt8} (rest : List UInt8) (h : w.length = wordLength) :
    takeWord (w ++ rest) = .ok (w, rest) := by
  have htake : (w ++ rest).take wordLength = w := by rw [← h, List.take_left]
  have hdrop : (w ++ rest).drop wordLength = rest := by rw [← h, List.drop_left]
  rw [takeWord, htake, hdrop, if_pos h]

theorem takeNat_word {n : Nat} (rest : List UInt8) (h : n < 256 ^ wordLength) :
    takeNat (word n ++ rest) = .ok (n, rest) := by
  rw [takeNat, takeWord_append rest (length_word n)]
  simp only [Except.map, word, Hex.toNat_ofNat, Nat.mod_eq_of_lt h]

theorem le_roundedUp (n : Nat) : n ≤ roundedUp n := by
  unfold roundedUp
  omega

theorem length_padRight (bs : List UInt8) : (padRight bs).length = roundedUp bs.length := by
  have h := le_roundedUp bs.length
  simp only [padRight, List.length_append, List.length_replicate]
  omega

theorem takeBytes_append {bs : List UInt8} (rest : List UInt8)
    (h : roundedUp bs.length < lengthBound) :
    takeBytes (word bs.length ++ padRight bs ++ rest) = .ok bs := by
  have hword : bs.length < 256 ^ wordLength := by
    have hle := le_roundedUp bs.length
    have hbound : lengthBound ≤ 256 ^ wordLength := by decide
    omega
  have htake : (padRight bs ++ rest).take (roundedUp bs.length) = padRight bs := by
    rw [← length_padRight, List.take_left]
  have hzeros : ((padRight bs).drop bs.length).all (· == 0) = true := by
    rw [padRight, List.drop_left]
    simp
  rw [List.append_assoc, takeBytes, takeNat_word _ hword]
  simp only [bind, Except.bind, htake, length_padRight, hzeros, and_self, if_true,
    if_neg (Nat.not_le.mpr h)]
  rw [padRight, List.take_left]

theorem word_split {width : Nat} (n : Nat) (h : width ≤ wordLength) :
    (word n).take (wordLength - width) = Hex.ofNat (wordLength - width) (n / 256 ^ width) ∧
      (word n).drop (wordLength - width) = Hex.ofNat width n := by
  have hwidth : wordLength = wordLength - width + width := by omega
  have hlength := Hex.length_ofNat (wordLength - width) (n / 256 ^ width)
  have hsplit : word n = Hex.ofNat (wordLength - width) (n / 256 ^ width) ++ Hex.ofNat width n := by
    rw [← Hex.ofNat_add, ← hwidth]
    rfl
  rw [hsplit]
  constructor
  · rw [List.take_append_of_le_length (Nat.le_of_eq hlength.symm), List.take_of_length_le]
    exact Nat.le_of_eq hlength
  · rw [List.drop_append_of_le_length (Nat.le_of_eq hlength.symm), List.drop_of_length_le]
    · rfl
    · exact Nat.le_of_eq hlength

end Abi
end EvmClient
