import EvmClient.Proofs.Abi.Canonical

/-!
# Layouts

Where the members of a laid-out sequence are. The heads are gone through one by one: the offset of
the next dynamic member always leads to the tails that have not been passed yet, with the bytes
behind the sequence after them. No encoding is shorter than the heads it is counted for.
-/

set_option autoImplicit false

namespace EvmClient

open Abi

/-! ## Frames -/

namespace Abi

/-- The frame of a sequence of which some members are still to be read: their tails begin at the
next offset, and other bytes are behind them. -/
structure Framed (frame : List UInt8) (offset : Nat) (parts : List EncodedMember)
    (rest : List UInt8) : Prop where
  tails : frame.drop offset = tails parts ++ rest
  small : ∀ p ∈ parts, p.encoding.length < lengthBound
  offset_lt : offset + (Abi.tails parts).length < lengthBound

variable {frame rest : List UInt8} {offset : Nat} {p : EncodedMember} {parts : List EncodedMember}

theorem heads_cons_dynamic (offset : Nat) (h : p.dynamic = true) :
    heads offset (p :: parts) = word offset ++ heads (offset + p.encoding.length) parts := by
  rw [heads, if_pos h]

theorem heads_cons_static (offset : Nat) (h : p.dynamic = false) :
    heads offset (p :: parts) = p.encoding ++ heads offset parts := by
  simp [heads, h]

theorem tails_cons_dynamic (h : p.dynamic = true) :
    tails (p :: parts) = p.encoding ++ tails parts := by
  rw [tails, if_pos h]

theorem tails_cons_static (h : p.dynamic = false) : tails (p :: parts) = tails parts := by
  simp [tails, h]

theorem Framed.skip (h : Framed frame offset (p :: parts) rest) (hp : p.dynamic = false) :
    Framed frame offset parts rest where
  tails := by rw [h.tails, tails_cons_static hp]
  small := fun q hq => h.small q (by simp [hq])
  offset_lt := by
    have := h.offset_lt
    rwa [tails_cons_static hp] at this

theorem Framed.next (h : Framed frame offset (p :: parts) rest) (hp : p.dynamic = true) :
    Framed frame (offset + p.encoding.length) parts rest where
  tails := by
    rw [← List.drop_drop, h.tails, tails_cons_dynamic hp, List.append_assoc, List.drop_left]
  small := fun q hq => h.small q (by simp [hq])
  offset_lt := by
    have := h.offset_lt
    rw [tails_cons_dynamic hp, List.length_append] at this
    omega

theorem Framed.offset_word (h : Framed frame offset parts rest) : offset < 256 ^ wordLength := by
  have hlt := h.offset_lt
  have hbound : lengthBound ≤ 256 ^ wordLength := by decide
  omega

theorem Framed.isInside {members : Nat} (h : Framed frame offset (p :: parts) rest)
    (hp : p.dynamic = true) (hmembers : wordLength * members ≤ offset)
    (hlength : 0 < p.encoding.length) : isInside members offset frame = true := by
  have hdrop := congrArg List.length h.tails
  rw [tails_cons_dynamic hp] at hdrop
  simp only [List.length_drop, List.length_append] at hdrop
  simp only [Abi.isInside, Bool.and_eq_true, decide_eq_true_eq]
  omega

theorem length_le_layout (hp : p ∈ parts) : p.encoding.length ≤ (layout parts).length := by
  have hsum : ∀ ps : List EncodedMember, p ∈ ps →
      p.encoding.length ≤ headsLength ps + (tails ps).length := by
    intro ps hmem
    induction ps with
    | nil => cases hmem
    | cons q ps ih =>
      rw [headsLength, tails, List.length_append]
      obtain rfl | hmem := List.mem_cons.mp hmem
      · cases hd : p.dynamic <;> simp [EncodedMember.headLength, hd] <;> omega
      · have := ih hmem
        omega
  have := hsum parts hp
  rw [layout, List.length_append, length_heads]
  exact this

theorem framed_layout (rest : List UInt8) (h : (layout parts).length < lengthBound) :
    Framed (layout parts ++ rest) (headsLength parts) parts rest where
  tails := by
    rw [layout, List.append_assoc, List.drop_left' (length_heads _ _)]
  small := fun p hp => Nat.lt_of_le_of_lt (length_le_layout hp) h
  offset_lt := by
    rwa [layout, List.length_append, length_heads] at h

end Abi

namespace AbiType

variable {t item : AbiType} {ts : List AbiType} {v : Value} {vs : List Value} {bs : List UInt8}
  {parts : List EncodedMember}

/-! ## Sequences of types -/

theorem encodeEach?_cons (h : encodeEach? (t :: ts) vs = some parts) :
    ∃ v vs' bs parts', vs = v :: vs' ∧ encode? t v = some bs ∧ encodeEach? ts vs' = some parts' ∧
      parts = ⟨isDynamic t, bs⟩ :: parts' := by
  cases vs with
  | nil => cases h
  | cons v vs =>
    rw [encodeEach?] at h
    obtain ⟨bs, hbs, h⟩ := Option.bind_eq_some_iff.mp h
    obtain ⟨parts', hparts, h⟩ := Option.bind_eq_some_iff.mp h
    cases h
    exact ⟨v, vs, bs, parts', rfl, hbs, hparts, rfl⟩

theorem encodeEach?_nil (h : encodeEach? [] vs = some parts) : vs = [] ∧ parts = [] := by
  cases vs with
  | nil =>
    cases h
    exact ⟨rfl, rfl⟩
  | cons v vs => cases h

theorem anyDynamic_eq_false : anyDynamic ts = false ↔ ∀ t ∈ ts, isDynamic t = false := by
  induction ts with
  | nil => simp [anyDynamic]
  | cons t ts ih => simp [anyDynamic, ih]

theorem tails_of_static (hts : ∀ t ∈ ts, isDynamic t = false)
    (h : encodeEach? ts vs = some parts) : tails parts = [] := by
  induction ts generalizing vs parts with
  | nil =>
    obtain ⟨_, rfl⟩ := encodeEach?_nil h
    rfl
  | cons t ts ih =>
    obtain ⟨v, vs', bs, parts', rfl, _, hparts, rfl⟩ := encodeEach?_cons h
    rw [tails_cons_static (hts t (by simp))]
    exact ih (fun u hu => hts u (by simp [hu])) hparts

/-! ## Lengths -/

theorem headCount_array (item : AbiType) (n : Nat) :
    headCount (.array item (some n)) = if isDynamic item then 1 else n := rfl

theorem headCount_of_dynamic (h : isDynamic t = true) : headCount t = 1 := by
  unfold headCount
  split
  · rename_i item n
    rw [isDynamic] at h
    rw [if_pos h]
  · rfl

theorem one_le_headCount (h : t.WellFormed) : 1 ≤ headCount t := by
  unfold headCount
  split
  · rename_i item n
    cases h with
    | array hlength _ =>
      have hn : n ≠ 0 := fun hn => hlength (by rw [hn])
      by_cases hd : isDynamic item = true
      · simp only [if_pos hd, Nat.le_refl]
      · rw [if_neg hd]
        omega
  · exact Nat.le_refl 1

theorem length_le_headCounts (h : ∀ t ∈ ts, WellFormed t) : ts.length ≤ headCounts ts := by
  induction ts with
  | nil => exact Nat.le_refl 0
  | cons t ts ih =>
    have hhead := one_le_headCount (h t (by simp))
    have htail := ih fun u hu => h u (by simp [hu])
    rw [headCounts, List.length_cons]
    omega

theorem headCounts_le
    (hts : ∀ t ∈ ts, ∀ v bs, encode? t v = some bs → wordLength * headCount t ≤ bs.length)
    (h : encodeEach? ts vs = some parts) : wordLength * headCounts ts ≤ headsLength parts := by
  induction ts generalizing vs parts with
  | nil => simp [headCounts]
  | cons t ts ih =>
    obtain ⟨v, vs', bs, parts', rfl, hbs, hparts, rfl⟩ := encodeEach?_cons h
    have hrest := ih (fun u hu => hts u (by simp [hu])) hparts
    have hhead : wordLength * headCount t ≤ EncodedMember.headLength ⟨isDynamic t, bs⟩ := by
      unfold EncodedMember.headLength
      by_cases hd : isDynamic t = true
      · simp only [if_pos hd, headCount_of_dynamic hd, Nat.mul_one, Nat.le_refl]
      · rw [if_neg hd]
        exact hts t (by simp) v bs hbs
    rw [headCounts, headsLength, Nat.mul_add]
    omega

theorem mapM_eq_encodeEach? (item : AbiType) (items : List Value) :
    (items.mapM fun x => (encode? item x).map (EncodedMember.mk (isDynamic item))) =
      encodeEach? (List.replicate items.length item) items := by
  induction items with
  | nil => rfl
  | cons v items ih =>
    rw [List.mapM_cons, ih, List.length_cons, List.replicate_succ, encodeEach?]
    cases encode? item v <;> rfl

theorem encode?_array {length : Option Nat} (h : encode? (.array item length) v = some bs) :
    ∃ items parts, v.sequence? = some items ∧
      encodeEach? (List.replicate items.length item) items = some parts ∧
      ((length = none ∧ bs = word items.length ++ layout parts) ∨
        (length = some items.length ∧ bs = layout parts)) := by
  rw [encode?] at h
  obtain ⟨items, hitems, h⟩ := Option.bind_eq_some_iff.mp h
  obtain ⟨parts, hparts, h⟩ := Option.bind_eq_some_iff.mp h
  rw [mapM_eq_encodeEach?] at hparts
  refine ⟨items, parts, hitems, hparts, ?_⟩
  cases length with
  | none => exact .inl ⟨rfl, (Option.some.inj h).symm⟩
  | some n =>
    simp only [Option.ite_none_right_eq_some, Option.some.injEq] at h
    exact .inr ⟨congrArg some h.1.symm, h.2.symm⟩

theorem encode?_tuple (h : encode? (.tuple ts) v = some bs) :
    ∃ items parts, v.sequence? = some items ∧ encodeEach? ts items = some parts ∧
      bs = layout parts := by
  rw [encode?] at h
  obtain ⟨items, hitems, h⟩ := Option.bind_eq_some_iff.mp h
  obtain ⟨parts, hparts, h⟩ := Option.bind_eq_some_iff.mp h
  exact ⟨items, parts, hitems, hparts, (Option.some.inj h).symm⟩

theorem encode?_bytes (h : encode? .bytes v = some bs) :
    ∃ content, v = .bytes content ∧ bs = word content.length ++ padRight content := by
  cases v with
  | bytes content => exact ⟨content, rfl, (Option.some.inj h).symm⟩
  | _ => cases h

theorem encode?_string (h : encode? .string v = some bs) :
    ∃ s, v = .text s ∧
      bs = word (Keccak.utf8 s).length ++ padRight (Keccak.utf8 s) := by
  cases v with
  | text s => exact ⟨s, rfl, (Option.some.inj h).symm⟩
  | _ => cases h

theorem length_layout (parts : List EncodedMember) :
    (layout parts).length = headsLength parts + (tails parts).length := by
  rw [layout, List.length_append, length_heads]

theorem length_sequence (hts : ∀ t ∈ ts, WellFormed t)
    (ih : ∀ t ∈ ts, ∀ v bs, encode? t v = some bs → wordLength * headCount t ≤ bs.length)
    (h : encodeEach? ts vs = some parts) : wordLength * ts.length ≤ (layout parts).length := by
  have hcounts : wordLength * ts.length ≤ wordLength * headCounts ts :=
    Nat.mul_le_mul_left _ (length_le_headCounts hts)
  have hheads := headCounts_le ih h
  rw [length_layout]
  omega

theorem length_word_append (n : Nat) (bs : List UInt8) :
    wordLength * 1 ≤ (word n ++ bs).length := by
  rw [List.length_append, length_word]
  omega

/-- An encoding takes at least the words that its head is counted for; above all it is not empty. -/
theorem length_encode (ht : t.WellFormed) (h : encode? t v = some bs) :
    wordLength * headCount t ≤ bs.length := by
  induction ht generalizing v bs with
  | uint hbits => exact Nat.le_of_eq (decodeWord_encodeWord (.uint hbits) h).1.symm
  | int hbits => exact Nat.le_of_eq (decodeWord_encodeWord (.int hbits) h).1.symm
  | address => exact Nat.le_of_eq (decodeWord_encodeWord .address h).1.symm
  | bool => exact Nat.le_of_eq (decodeWord_encodeWord .bool h).1.symm
  | fixedBytes hn => exact Nat.le_of_eq (decodeWord_encodeWord (.fixedBytes hn) h).1.symm
  | bytes =>
    obtain ⟨content, _, hbs⟩ := encode?_bytes h
    rw [hbs]
    exact length_word_append _ _
  | string =>
    obtain ⟨s, _, hbs⟩ := encode?_string h
    rw [hbs]
    exact length_word_append _ _
  | @array item length hlength hitem ih =>
    obtain ⟨items, parts, _, hparts, ⟨hnone, hbs⟩ | ⟨rfl, hbs⟩⟩ := encode?_array h
    · rw [hbs, hnone]
      exact length_word_append _ _
    · rw [hbs]
      have hsequence := length_sequence (fun t ht => (List.eq_of_mem_replicate ht) ▸ hitem)
        (fun t ht => (List.eq_of_mem_replicate ht) ▸ fun v bs => ih) hparts
      have hpos : items.length ≠ 0 := fun hzero => hlength (by rw [hzero])
      rw [List.length_replicate] at hsequence
      rw [headCount_array]
      by_cases hd : isDynamic item = true
      · rw [if_pos hd]
        simp only [wordLength] at hsequence ⊢
        omega
      · rwa [if_neg hd]
  | @tuple members hmembers hts ih =>
    obtain ⟨items, parts, _, hparts, hbs⟩ := encode?_tuple h
    rw [hbs]
    have hsequence := length_sequence hts (fun t ht v bs => ih t ht) hparts
    have hpos : members.length ≠ 0 := fun hzero => hmembers (List.length_eq_zero_iff.mp hzero)
    simp only [headCount, wordLength] at hsequence ⊢
    omega

end AbiType
end EvmClient
