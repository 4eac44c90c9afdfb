import Mathlib.Data.List.Induction
import EvmClient.Proofs.Abi.RoundTrip
import EvmClient.Proofs.Outcome

/-!
# Pieces of data

A number, bytes and a text are read from nothing but what is written for them: reading gives a
number exactly where its word stands, bytes exactly where they stand behind their length and filled
up, and a text exactly from its UTF-8 form.
-/

set_option autoImplicit false

namespace EvmClient

namespace Hex

theorem toNat_lt (bs : List UInt8) : toNat bs < 256 ^ bs.length := by
  induction bs using List.reverseRecOn with
  | nil => decide
  | append_singleton bs b ih =>
    have hb := b.toNat_lt
    rw [toNat_append_singleton, List.length_append, List.length_singleton, Nat.pow_succ']
    omega

theorem ofNat_toNat (bs : List UInt8) : ofNat bs.length (toNat bs) = bs := by
  induction bs using List.reverseRecOn with
  | nil => rfl
  | append_singleton bs b ih =>
    have hb := b.toNat_lt
    have hfront : (256 * toNat bs + b.toNat) / 256 = toNat bs := by omega
    have hlast : UInt8.ofNat (256 * toNat bs + b.toNat) = b := by
      apply UInt8.toNat.inj
      have hmod : (256 * toNat bs + b.toNat) % 256 = b.toNat := by omega
      exact hmod
    rw [toNat_append_singleton, List.length_append, List.length_singleton, ofNat, hfront, ih, hlast]

end Hex

namespace Abi

variable {bs content : List UInt8}

theorem takeWord_eq_ok {w rest : List UInt8} :
    takeWord bs = .ok (w, rest) ↔ w.length = wordLength ∧ bs = w ++ rest := by
  constructor
  · intro h
    unfold takeWord at h
    by_cases hlength : (bs.take wordLength).length = wordLength
    · rw [if_pos hlength] at h
      cases h
      exact ⟨hlength, (List.take_append_drop wordLength bs).symm⟩
    · rw [if_neg hlength] at h
      cases h
  · rintro ⟨hlength, rfl⟩
    exact takeWord_append rest hlength

theorem takeNat_eq_ok {n : Nat} {rest : List UInt8} :
    takeNat bs = .ok (n, rest) ↔ n < 256 ^ wordLength ∧ bs = word n ++ rest := by
  constructor
  · intro h
    obtain ⟨⟨w, rest'⟩, hw, heq⟩ := map_eq_ok.mp h
    obtain ⟨hlength, rfl⟩ := takeWord_eq_ok.mp hw
    obtain ⟨rfl, rfl⟩ := Prod.mk.inj heq
    rw [word, ← hlength, Hex.ofNat_toNat]
    exact ⟨Hex.toNat_lt w, rfl⟩
  · intro h
    rw [h.2]
    exact takeNat_word rest h.1

/-- The bytes stand at the start of the data, behind their length and filled up. There are no more
of them than can be counted. -/
structure BeginsWithBytes (bs content : List UInt8) : Prop where
  begins : word content.length ++ padRight content <+: bs
  countable : roundedUp content.length < lengthBound

theorem padRight_take {block : List UInt8} {n : Nat} (hlength : block.length = roundedUp n)
    (hzeros : (block.drop n).all (· == 0) = true) :
    (block.take n).length = n ∧ padRight (block.take n) = block := by
  have hle := le_roundedUp n
  have htake : (block.take n).length = n := by
    rw [List.length_take]
    omega
  have hdrop : block.drop n = List.replicate (roundedUp n - n) 0 := by
    rw [List.eq_replicate_iff]
    refine ⟨by rw [List.length_drop, hlength], ?_⟩
    intro b hb
    simpa using List.all_eq_true.mp hzeros b hb
  refine ⟨htake, ?_⟩
  rw [padRight, htake, ← hdrop, List.take_append_drop]

theorem takeBytes_eq_ok : takeBytes bs = .ok content ↔ BeginsWithBytes bs content := by
  constructor
  · intro h
    obtain ⟨⟨n, rest⟩, hn, h⟩ := bind_eq_ok.mp h
    have hbs := (takeNat_eq_ok.mp hn).2
    by_cases hbound : lengthBound ≤ roundedUp n
    · simp only [if_pos hbound] at h
      cases h
    · simp only [if_neg hbound] at h
      by_cases hblock : (rest.take (roundedUp n)).length = roundedUp n ∧
          ((rest.take (roundedUp n)).drop n).all (· == 0) = true
      · rw [if_pos hblock] at h
        cases h
        obtain ⟨hlength, hpadded⟩ := padRight_take hblock.1 hblock.2
        refine ⟨?_, by rw [hlength]; omega⟩
        rw [hlength, hpadded, hbs]
        exact List.prefix_append_right_inj _ |>.mpr (List.take_prefix _ rest)
      · rw [if_neg hblock] at h
        cases h
  · rintro ⟨⟨rest, rfl⟩, hcount⟩
    exact takeBytes_append rest hcount

theorem textOfBytes?_eq_some {s : String} : textOfBytes? bs = some s ↔ bs = Keccak.utf8 s := by
  constructor
  · intro h
    unfold textOfBytes? String.fromUTF8? at h
    split at h
    · obtain rfl := Option.some.inj h
      rfl
    · cases h
  · rintro rfl
    exact AbiType.textOfBytes?_utf8 s

/-! ## Failures -/

theorem takeWord_eq_error {bs : List UInt8} {e : DecodeFailure} (h : takeWord bs = .error e) :
    e = .mismatch := by
  unfold takeWord at h
  by_cases hl : (bs.take wordLength).length = wordLength
  · rw [if_pos hl] at h
    cases h
  · rw [if_neg hl] at h
    cases h
    rfl

theorem takeNat_eq_error {bs : List UInt8} {e : DecodeFailure} (h : takeNat bs = .error e) :
    e = .mismatch := by
  unfold takeNat at h
  cases hw : takeWord bs with
  | error e' =>
    rw [hw] at h
    cases h
    exact takeWord_eq_error hw
  | ok word =>
    rw [hw] at h
    cases h

theorem takeBytes_eq_tooLarge {bs : List UInt8} :
    takeBytes bs = .error .lengthTooLarge ↔
      ∃ n rest, takeNat bs = .ok (n, rest) ∧ lengthBound ≤ roundedUp n := by
  unfold takeBytes
  rw [bind_eq_error]
  constructor
  · intro hx
    obtain h | ⟨⟨n, rest⟩, hn, h⟩ := hx
    · cases takeNat_eq_error h
    · refine ⟨n, rest, hn, ?_⟩
      by_cases hb : lengthBound ≤ roundedUp n
      · exact hb
      · simp only [if_neg hb] at h
        split at h <;> cases h
  · intro hx
    obtain ⟨n, rest, hn, hb⟩ := hx
    refine .inr ⟨(n, rest), hn, ?_⟩
    exact if_pos hb

theorem takeBytes_ne_invalidText : takeBytes bs ≠ .error .invalidText := by
  intro h
  obtain h | ⟨⟨n, rest⟩, _, h⟩ := bind_eq_error.mp h
  · cases takeNat_eq_error h
  · by_cases hb : lengthBound ≤ roundedUp n
    · simp only [if_pos hb] at h
      cases h
    · simp only [if_neg hb] at h
      split at h <;> cases h

/-- The length at the start of the data is beyond all bounds. -/
def BeginsOverlong (bs : List UInt8) : Prop :=
  ∃ n, n < 256 ^ wordLength ∧ word n <+: bs ∧ lengthBound ≤ roundedUp n

theorem takeBytes_eq_tooLarge_iff :
    takeBytes bs = .error .lengthTooLarge ↔ BeginsOverlong bs := by
  rw [takeBytes_eq_tooLarge]
  constructor
  · rintro ⟨n, rest, hn, hbound⟩
    obtain ⟨hlt, hbs⟩ := takeNat_eq_ok.mp hn
    exact ⟨n, hlt, ⟨rest, hbs.symm⟩, hbound⟩
  · rintro ⟨n, hlt, ⟨rest, hbs⟩, hbound⟩
    exact ⟨n, rest, takeNat_eq_ok.mpr ⟨hlt, hbs.symm⟩, hbound⟩

def BeginsWithNoText (bs : List UInt8) : Prop :=
  ∃ content, BeginsWithBytes bs content ∧ ∀ s, content ≠ Keccak.utf8 s

end Abi
end EvmClient
