import EvmClient.Proofs.Abi.Layout

/-!
# Values that can be encoded

`AbiType.Admits` says which values fit a type, and exactly these have an encoding. An encoding is a
whole number of words, and it is not longer than the value is large: `Value.extent` counts the
values and bytes that a value is made of.
-/

set_option autoImplicit false

namespace EvmClient

namespace Value

mutual

def extent : Value → Nat
  | text s => 1 + (Keccak.utf8 s).length
  | bytes bs => 1 + bs.length
  | list items => 1 + extents items
  | tuple items => 1 + extents items
  | _ => 1

def extents : List Value → Nat
  | [] => 0
  | v :: vs => extent v + extents vs

end

theorem one_le_extent (v : Value) : 1 ≤ v.extent := by
  cases v <;> simp [extent]

theorem extent_of_sequence? {v : Value} {items : List Value} (h : v.sequence? = some items) :
    v.extent = 1 + extents items := by
  cases v with
  | list _ | tuple _ =>
    obtain rfl := Option.some.inj h
    rfl
  | _ => cases h

end Value

namespace AbiType

open Abi

/-- The value fits the type: a number in its range, bytes of no more than its length, an address in
one of its forms, or a sequence with as many items as the type says, all of which fit theirs. -/
inductive Admits : AbiType → Value → Prop where
  | uint {bits : Nat} {i : Int} (h : 0 ≤ i ∧ i < Nat.pow 2 bits) : Admits (.uint bits) (.int i)
  | int {bits : Nat} {i : Int}
      (h : -(Nat.pow 2 (bits - 1) : Int) ≤ i ∧ i < Nat.pow 2 (bits - 1)) :
      Admits (.int bits) (.int i)
  | bool (b : Bool) : Admits .bool (.bool b)
  | addressText {s : String} {bs : List UInt8} (h : Address.ofText? s = some bs) :
      Admits .address (.text s)
  | addressBytes {bs : List UInt8} (h : bs.length = Address.length) : Admits .address (.bytes bs)
  | fixedBytes {n : Nat} {bs : List UInt8} (h : bs.length ≤ n) : Admits (.fixedBytes n) (.bytes bs)
  | bytes (bs : List UInt8) : Admits .bytes (.bytes bs)
  | string (s : String) : Admits .string (.text s)
  | array {item : AbiType} {length : Option Nat} {v : Value} {items : List Value}
      (hitems : v.sequence? = some items) (hlength : ∀ n, length = some n → items.length = n)
      (h : ∀ x ∈ items, Admits item x) : Admits (.array item length) v
  | tuple {members : List AbiType} {v : Value} {items : List Value}
      (hitems : v.sequence? = some items) (hlength : items.length = members.length)
      (h : ∀ p ∈ members.zip items, Admits p.1 p.2) : Admits (.tuple members) v

def AdmitsEach (ts : List AbiType) (vs : List Value) : Prop :=
  vs.length = ts.length ∧ ∀ p ∈ ts.zip vs, Admits p.1 p.2

variable {t item : AbiType} {ts : List AbiType} {v : Value} {vs : List Value} {bs : List UInt8}
  {parts : List EncodedMember}

theorem admitsEach_cons : AdmitsEach (t :: ts) (v :: vs) ↔ Admits t v ∧ AdmitsEach ts vs := by
  simp only [AdmitsEach, List.zip_cons_cons, List.forall_mem_cons, List.length_cons,
    Nat.add_right_cancel_iff]
  exact and_left_comm

theorem admitsEach_replicate {items : List Value} :
    AdmitsEach (List.replicate items.length item) items ↔ ∀ x ∈ items, Admits item x := by
  induction items with
  | nil => simp [AdmitsEach]
  | cons x items ih =>
    rw [List.length_cons, List.replicate_succ, admitsEach_cons, ih, List.forall_mem_cons]

/-! ## What is encoded -/

theorem admits_of_encodeWord (h : encodeWord? t v = some bs) : Admits t v := by
  unfold encodeWord? at h
  split at h
  · simp only [Option.ite_none_right_eq_some] at h
    exact .uint h.1
  · simp only [Option.ite_none_right_eq_some] at h
    exact .int h.1
  · exact .bool _
  · obtain ⟨bs, hbs, _⟩ := Option.map_eq_some_iff.mp h
    exact .addressText hbs
  · simp only [Option.ite_none_right_eq_some] at h
    exact .addressBytes h.1
  · simp only [Option.ite_none_right_eq_some] at h
    exact .fixedBytes h.1
  · cases h

theorem admitsEach_of_encodeEach
    (ih : ∀ t ∈ ts, ∀ v bs, encode? t v = some bs → Admits t v)
    (h : encodeEach? ts vs = some parts) : AdmitsEach ts vs := by
  induction ts generalizing vs parts with
  | nil =>
    obtain ⟨rfl, _⟩ := encodeEach?_nil h
    simp [AdmitsEach]
  | cons t ts iht =>
    obtain ⟨v, vs', bs, parts', rfl, hbs, hparts, _⟩ := encodeEach?_cons h
    apply admitsEach_cons.mpr
    exact ⟨ih t (by simp) v bs hbs, iht (fun u hu => ih u (by simp [hu])) hparts⟩

theorem admits_of_encode (h : encode? t v = some bs) : Admits t v := by
  induction t using nested_induction generalizing v bs with
  | uint | int | address | bool | fixedBytes => exact admits_of_encodeWord h
  | bytes =>
    obtain ⟨content, rfl, _⟩ := encode?_bytes h
    exact .bytes content
  | string =>
    obtain ⟨s, rfl, _⟩ := encode?_string h
    exact .string s
  | array item length ih =>
    obtain ⟨items, parts, hitems, hparts, hlength⟩ := encode?_array h
    have heach := admitsEach_of_encodeEach
      (fun t ht => List.eq_of_mem_replicate ht ▸ fun v bs => ih) hparts
    refine .array hitems ?_ (admitsEach_replicate.mp heach)
    rintro n rfl
    obtain ⟨hnone, _⟩ | ⟨hsome, _⟩ := hlength
    · cases hnone
    · exact (Option.some.inj hsome).symm
  | tuple members ih =>
    obtain ⟨items, parts, hitems, hparts, _⟩ := encode?_tuple h
    obtain ⟨hlength, heach⟩ := admitsEach_of_encodeEach (fun t ht v bs => ih t ht) hparts
    exact .tuple hitems hlength heach

/-! ## What fits is encoded -/

theorem exists_encodeEach (hlength : vs.length = ts.length)
    (h : ∀ p ∈ ts.zip vs, ∃ bs, encode? p.1 p.2 = some bs) :
    ∃ parts, encodeEach? ts vs = some parts := by
  induction ts generalizing vs with
  | nil =>
    obtain rfl := List.length_eq_zero_iff.mp hlength
    exact ⟨[], rfl⟩
  | cons t ts ih =>
    cases vs with
    | nil => cases hlength
    | cons v vs =>
      rw [List.zip_cons_cons, List.forall_mem_cons] at h
      obtain ⟨⟨bs, hbs⟩, hrest⟩ := h
      obtain ⟨parts, hparts⟩ := ih (Nat.succ.inj hlength) hrest
      refine ⟨⟨isDynamic t, bs⟩ :: parts, ?_⟩
      rw [encodeEach?, hbs, Option.bind_eq_bind, Option.bind_some, hparts]
      rfl

theorem exists_encode_of_admits (h : Admits t v) : ∃ bs, encode? t v = some bs := by
  induction h with
  | uint h => exact ⟨_, if_pos h⟩
  | int h => exact ⟨_, if_pos h⟩
  | bool b => exact ⟨_, rfl⟩
  | addressText h => exact ⟨_, Option.map_eq_some_iff.mpr ⟨_, h, rfl⟩⟩
  | addressBytes h => exact ⟨_, if_pos h⟩
  | fixedBytes h => exact ⟨_, if_pos h⟩
  | bytes bs => exact ⟨_, rfl⟩
  | string s => exact ⟨_, rfl⟩
  | @array item length v items hitems hlength _ ih =>
    have heach : ∃ parts, encodeEach? (List.replicate items.length item) items = some parts := by
      apply exists_encodeEach (by simp)
      intro p hp
      have hmem := List.of_mem_zip hp
      rw [List.eq_of_mem_replicate hmem.1]
      exact ih p.2 hmem.2
    obtain ⟨parts, hparts⟩ := heach
    rw [encode?, hitems]
    simp only [Option.bind_eq_bind, Option.bind_some, mapM_eq_encodeEach?, hparts]
    cases length with
    | none => exact ⟨_, rfl⟩
    | some n => exact ⟨_, if_pos (hlength n rfl)⟩
  | tuple hitems hlength _ ih =>
    obtain ⟨parts, hparts⟩ := exists_encodeEach hlength ih
    rw [encode?, hitems]
    simp only [Option.bind_eq_bind, Option.bind_some, hparts]
    exact ⟨_, rfl⟩

/-- Exactly the values that fit the types have an encoding. -/
theorem exists_encodeAll_iff : (∃ bs, encodeAll? ts vs = some bs) ↔ AdmitsEach ts vs := by
  constructor
  · rintro ⟨bs, h⟩
    obtain ⟨parts, hparts, _⟩ := Option.map_eq_some_iff.mp h
    exact admitsEach_of_encodeEach (fun t _ v bs => admits_of_encode) hparts
  · rintro ⟨hlength, h⟩
    obtain ⟨parts, hparts⟩ := exists_encodeEach hlength fun p hp =>
      exists_encode_of_admits (h p hp)
    exact ⟨layout parts, by rw [encodeAll?, hparts, Option.map_some]⟩

/-! ## Size -/

/-- A whole number of words, no more than three for each value and byte of the value, of which one
is left for an offset. -/
structure IsSized (v : Value) (bs : List UInt8) : Prop where
  whole : wordLength ∣ bs.length
  bounded : bs.length + 32 ≤ 96 * v.extent

structure AreSized (vs : List Value) (bs : List UInt8) : Prop where
  whole : wordLength ∣ bs.length
  bounded : bs.length ≤ 96 * Value.extents vs

theorem isSized_word {w : List UInt8} (v : Value) (h : w.length = wordLength) : IsSized v w := by
  have hv := v.one_le_extent
  refine ⟨⟨1, h.trans (Nat.mul_one _).symm⟩, ?_⟩
  rw [h, wordLength]
  omega

theorem isSized_piece {content : List UInt8} (h : v.extent = 1 + content.length) :
    IsSized v (word content.length ++ padRight content) := by
  have hlength : (word content.length ++ padRight content).length =
      wordLength + roundedUp content.length := by
    rw [List.length_append, length_word, length_padRight]
  constructor
  · rw [hlength, wordLength, roundedUp]
    omega
  · rw [hlength, h, wordLength, roundedUp]
    omega

theorem areSized_layout (ih : ∀ t ∈ ts, ∀ v bs, encode? t v = some bs → IsSized v bs)
    (h : encodeEach? ts vs = some parts) : AreSized vs (layout parts) := by
  induction ts generalizing vs parts with
  | nil =>
    obtain ⟨rfl, rfl⟩ := encodeEach?_nil h
    exact ⟨Nat.dvd_zero _, Nat.zero_le _⟩
  | cons t ts iht =>
    obtain ⟨v, vs', bs, parts', rfl, hbs, hparts, rfl⟩ := encodeEach?_cons h
    obtain ⟨hwhole, hbounded⟩ := ih t (by simp) v bs hbs
    obtain ⟨hwholes, hbounds⟩ := iht (fun u hu => ih u (by simp [hu])) hparts
    have hlength : (layout (⟨isDynamic t, bs⟩ :: parts')).length =
        (if isDynamic t then wordLength else 0) + bs.length + (layout parts').length := by
      rw [length_layout, length_layout, headsLength, tails, List.length_append]
      cases isDynamic t <;> simp [EncodedMember.headLength] <;> omega
    rw [wordLength] at hwhole hwholes hlength
    constructor
    · rw [hlength, wordLength]
      split <;> omega
    · rw [hlength, Value.extents]
      split <;> omega

section

variable {items : List Value} (hitems : v.sequence? = some items) (h : AreSized items bs)
include hitems h

theorem isSized_sequence : IsSized v bs := by
  have hextent := Value.extent_of_sequence? hitems
  have hbounded := h.bounded
  exact ⟨h.whole, by omega⟩

theorem isSized_counted (n : Nat) : IsSized v (word n ++ bs) := by
  have hextent := Value.extent_of_sequence? hitems
  obtain ⟨hwhole, hbounded⟩ := h
  have hlength : (word n ++ bs).length = wordLength + bs.length := by
    rw [List.length_append, length_word]
  rw [wordLength] at hwhole hlength
  constructor
  · rw [hlength, wordLength]
    omega
  · omega

end

theorem isSized_encode (ht : t.WellFormed) (h : encode? t v = some bs) : IsSized v bs := by
  induction ht generalizing v bs with
  | uint hbits => exact isSized_word v (decodeWord_encodeWord (.uint hbits) h).1
  | int hbits => exact isSized_word v (decodeWord_encodeWord (.int hbits) h).1
  | address => exact isSized_word v (decodeWord_encodeWord .address h).1
  | bool => exact isSized_word v (decodeWord_encodeWord .bool h).1
  | fixedBytes hn => exact isSized_word v (decodeWord_encodeWord (.fixedBytes hn) h).1
  | bytes =>
    obtain ⟨content, rfl, hbs⟩ := encode?_bytes h
    rw [hbs]
    exact isSized_piece rfl
  | string =>
    obtain ⟨s, rfl, hbs⟩ := encode?_string h
    rw [hbs]
    exact isSized_piece rfl
  | array _ _ ih =>
    obtain ⟨items, parts, hitems, hparts, hlength⟩ := encode?_array h
    have hsize := areSized_layout
      (fun t ht => List.eq_of_mem_replicate ht ▸ fun v bs => ih) hparts
    obtain ⟨_, hbs⟩ | ⟨_, hbs⟩ := hlength
    · rw [hbs]
      exact isSized_counted hitems hsize _
    · rw [hbs]
      exact isSized_sequence hitems hsize
  | tuple _ _ ih =>
    obtain ⟨items, parts, hitems, hparts, rfl⟩ := encode?_tuple h
    exact isSized_sequence hitems (areSized_layout (fun t ht v bs => ih t ht) hparts)

/-- Encoded arguments are whole words, and not longer than the arguments are large. -/
theorem areSized_encodeAll (hts : ∀ t ∈ ts, t.WellFormed) (h : encodeAll? ts vs = some bs) :
    AreSized vs bs := by
  obtain ⟨parts, hparts, rfl⟩ := Option.map_eq_some_iff.mp h
  exact areSized_layout (fun t ht v bs => isSized_encode (hts t ht)) hparts

end AbiType
end EvmClient
