import EvmClient.Proofs.Abi.Layout

/-!
# Decoding undoes encoding

An encoding reads back as the canonical value, whatever bytes follow it. The induction is on the
type, and on the list of members within a sequence; reading an array is reading a tuple of equal
types. The main statement is `AbiType.decodeAll_encodeAll`.
-/

set_option autoImplicit false

namespace EvmClient

namespace AbiType
open Abi

variable {t item : AbiType} {ts : List AbiType} {v : Value} {vs : List Value} {bs : List UInt8}
  {parts : List EncodedMember}

/-! ## Reading -/

/-- Every encoding that there can be reads back as the canonical value, in front of any bytes; a
static type leaves these bytes. -/
def Reads (t : AbiType) : Prop :=
  ∀ v bs, encode? t v = some bs → bs.length < lengthBound → ∀ rest,
    ∃ after, read t (bs ++ rest) = .ok (t.canonical v, after) ∧
      (isDynamic t = false → after = rest)

section

variable {frame rest : List UInt8} {offset members : Nat}

theorem read_static (ht : Reads t) (hd : isDynamic t = false) (h : encode? t v = some bs)
    (hbs : bs.length < lengthBound) (rest : List UInt8) :
    read t (bs ++ rest) = .ok (t.canonical v, rest) := by
  obtain ⟨after, hread, hafter⟩ := ht v bs h hbs rest
  rw [hread, hafter hd]

/-- All heads pass the check: a static member can be read, and an offset points behind the heads to
an encoding that is not empty. -/
theorem checkHeads_heads (hts : ∀ t ∈ ts, WellFormed t ∧ Reads t)
    (h : encodeEach? ts vs = some parts) (hframe : Framed frame offset parts rest)
    (hmembers : wordLength * members ≤ offset) (more : List UInt8) :
    checkHeads ts members frame (heads offset parts ++ more) = .ok () := by
  induction ts generalizing vs parts offset with
  | nil => rw [checkHeads]
  | cons t ts ih =>
    obtain ⟨v, vs', bs, parts', rfl, hbs, hparts, rfl⟩ := encodeEach?_cons h
    obtain ⟨hwell, hreads⟩ := hts t (by simp)
    have hrest : ∀ u ∈ ts, WellFormed u ∧ Reads u := fun u hu => hts u (by simp [hu])
    rw [checkHeads]
    by_cases hd : isDynamic t = true
    · have hlength := length_encode hwell hbs
      rw [headCount_of_dynamic hd] at hlength
      have hpos : 0 < bs.length := by
        simp only [wordLength] at hlength
        omega
      have hinside := hframe.isInside hd hmembers hpos
      have hnext := ih hrest hparts (hframe.next hd) (Nat.le_add_right_of_le hmembers)
      rw [heads_cons_dynamic _ hd, List.append_assoc, if_pos hd,
        takeNat_word _ hframe.offset_word]
      simpa only [bind, Except.bind, hinside, if_true] using hnext
    · have hs := eq_false_of_ne_true hd
      have hsmall : bs.length < lengthBound := hframe.small ⟨isDynamic t, bs⟩ (by simp)
      have hread := read_static hreads hs hbs hsmall (heads offset parts' ++ more)
      have hnext := ih hrest hparts (hframe.skip hs) hmembers
      rw [heads_cons_static _ hs, List.append_assoc, if_neg hd, hread]
      simpa only [bind, Except.bind] using hnext

theorem readEach_heads (hts : ∀ t ∈ ts, Reads t)
    (h : encodeEach? ts vs = some parts) (hframe : Framed frame offset parts rest)
    (more : List UInt8) :
    readEach ts frame (heads offset parts ++ more) = .ok (canonicalEach ts vs, more) := by
  induction ts generalizing vs parts offset with
  | nil =>
    obtain ⟨rfl, rfl⟩ := encodeEach?_nil h
    rw [readEach, canonicalEach, heads, List.nil_append]
    simp
  | cons t ts ih =>
    obtain ⟨v, vs', bs, parts', rfl, hbs, hparts, rfl⟩ := encodeEach?_cons h
    have hreads := hts t (by simp)
    have hrest : ∀ u ∈ ts, Reads u := fun u hu => hts u (by simp [hu])
    have hsmall : bs.length < lengthBound := hframe.small ⟨isDynamic t, bs⟩ (by simp)
    rw [readEach, canonicalEach]
    by_cases hd : isDynamic t = true
    · have hdrop := hframe.tails
      rw [tails_cons_dynamic hd, List.append_assoc] at hdrop
      obtain ⟨after, hread, _⟩ := hreads v bs hbs hsmall (tails parts' ++ rest)
      have hnext := ih hrest hparts (hframe.next hd)
      rw [heads_cons_dynamic _ hd, List.append_assoc, if_pos hd,
        takeNat_word _ hframe.offset_word]
      simp only [bind, Except.bind, pure, Except.pure, hdrop, hread, hnext]
    · have hs := eq_false_of_ne_true hd
      have hread := read_static hreads hs hbs hsmall (heads offset parts' ++ more)
      have hnext := ih hrest hparts (hframe.skip hs)
      rw [heads_cons_static _ hs, List.append_assoc, if_neg hd, hread]
      simp only [bind, Except.bind, pure, Except.pure, hnext]

theorem read_layout (hts : ∀ t ∈ ts, WellFormed t ∧ Reads t)
    (h : encodeEach? ts vs = some parts) (hsmall : (layout parts).length < lengthBound)
    (rest : List UInt8) :
    checkHeads ts (headCounts ts) (layout parts ++ rest) (layout parts ++ rest) = .ok () ∧
      readEach ts (layout parts ++ rest) (layout parts ++ rest) =
        .ok (canonicalEach ts vs, tails parts ++ rest) := by
  have hframe := framed_layout rest hsmall
  have hcounts := headCounts_le (fun t ht v bs => length_encode (hts t ht).1) h
  have hlayout : layout parts ++ rest =
      heads (headsLength parts) parts ++ (tails parts ++ rest) := by
    rw [layout, List.append_assoc]
  refine ⟨?_, ?_⟩
  · have hcheck := checkHeads_heads hts h hframe hcounts (tails parts ++ rest)
    rwa [← hlayout] at hcheck
  · have hread := readEach_heads (fun t ht => (hts t ht).2) h hframe (tails parts ++ rest)
    rwa [← hlayout] at hread

/-! ## Arrays -/

theorem checkOffsets_eq_checkHeads {item : AbiType} (hd : isDynamic item = true) (n : Nat)
    (cursor : List UInt8) :
    checkOffsets members frame n cursor =
      checkHeads (List.replicate n item) members frame cursor := by
  induction n generalizing cursor with
  | zero => rw [checkOffsets, List.replicate_zero, checkHeads]
  | succ n ih =>
    rw [checkOffsets, List.replicate_succ, checkHeads, if_pos hd]
    simp only [ih]

theorem readMany_eq_readEach_of_dynamic {item : AbiType} (hd : isDynamic item = true) (n : Nat)
    (cursor : List UInt8) :
    readMany (fun cursor => do
      let (offset, rest) ← takeNat cursor
      let (v, _) ← read item (frame.drop offset)
      return (v, rest)) n cursor = readEach (List.replicate n item) frame cursor := by
  induction n generalizing cursor with
  | zero => rw [readMany, List.replicate_zero, readEach]
  | succ n ih =>
    rw [readMany, List.replicate_succ, readEach, if_pos hd]
    simp only [ih, bind_assoc, pure_bind]

theorem readMany_eq_readEach_of_static {item : AbiType} (hd : isDynamic item = false) (n : Nat)
    (frame cursor : List UInt8) :
    readMany (read item) n cursor = readEach (List.replicate n item) frame cursor := by
  induction n generalizing cursor with
  | zero => rw [readMany, List.replicate_zero, readEach]
  | succ n ih =>
    rw [readMany, List.replicate_succ, readEach, hd, if_neg Bool.false_ne_true]
    simp only [ih]

theorem headCounts_replicate {item : AbiType} (hd : isDynamic item = true) (n : Nat) :
    headCounts (List.replicate n item) = n := by
  induction n with
  | zero => rfl
  | succ n ih =>
    rw [List.replicate_succ, headCounts, ih, headCount_of_dynamic hd]
    omega

theorem canonicalEach_replicate (item : AbiType) (items : List Value) :
    canonicalEach (List.replicate items.length item) items = items.map (canonical item) := by
  induction items with
  | nil => rfl
  | cons v items ih =>
    rw [List.length_cons, List.replicate_succ, canonicalEach, ih, List.map_cons]

theorem canonical_array {items : List Value} (length : Option Nat)
    (h : v.sequence? = some items) :
    canonical (.array item length) v =
      .tuple (canonicalEach (List.replicate items.length item) items) := by
  rw [canonical, h, canonicalEach_replicate]
  rfl

theorem canonical_tuple {items : List Value} (h : v.sequence? = some items) :
    canonical (.tuple ts) v = .tuple (canonicalEach ts items) := by
  rw [canonical, h]
  rfl

def readItems (item : AbiType) (n : Nat) (frame : List UInt8) : Decoded (Value × List UInt8) := do
  if isDynamic item then
    checkHeads (List.replicate n item) (headCounts (List.replicate n item)) frame frame
  let (vs, rest) ← readEach (List.replicate n item) frame frame
  return (.tuple vs, rest)

theorem read_array_some (item : AbiType) (n : Nat) (bs : List UInt8) :
    read (.array item (some n)) bs = readItems item n bs := by
  rw [read, readItems]
  by_cases hd : isDynamic item = true
  · simp only [if_pos hd, checkOffsets_eq_checkHeads hd, readMany_eq_readEach_of_dynamic hd,
      headCounts_replicate hd, pure_bind]
  · have hstatic := readMany_eq_readEach_of_static (eq_false_of_ne_true hd) n bs bs
    simp only [if_neg hd, hstatic, pure_bind]

theorem read_array_none (item : AbiType) (bs : List UInt8) :
    read (.array item none) bs = (do
      let (n, frame) ← takeNat bs
      read (.array item (some n)) frame) := by
  rw [read]
  simp only [read, pure_bind]

theorem readItems_layout (hwell : WellFormed item) (ih : Reads item) {items : List Value}
    (h : encodeEach? (List.replicate items.length item) items = some parts)
    (hsmall : (layout parts).length < lengthBound) (rest : List UInt8) :
    readItems item items.length (layout parts ++ rest) =
      .ok (.tuple (canonicalEach (List.replicate items.length item) items),
        tails parts ++ rest) := by
  have hts : ∀ t ∈ List.replicate items.length item, WellFormed t ∧ Reads t := by
    intro t ht
    obtain rfl := List.eq_of_mem_replicate ht
    exact ⟨hwell, ih⟩
  obtain ⟨hcheck, hread⟩ := read_layout hts h hsmall rest
  rw [readItems, hcheck, hread]
  cases isDynamic item <;> rfl

end

/-! ## The round trip -/

theorem textOfBytes?_utf8 (s : String) : textOfBytes? (Keccak.utf8 s) = some s := by
  have hvalid : ByteArray.IsValidUTF8 ⟨s.toUTF8.data.toList.toArray⟩ := s.isValidUTF8
  rw [textOfBytes?, Keccak.utf8, String.fromUTF8?, dif_pos hvalid]
  rfl

theorem reads_word (ht : t.WellFormed) (hencode : ∀ v, encode? t v = encodeWord? t v)
    (hread : ∀ bs, read t bs = do
      let (w, rest) ← takeWord bs
      let v ← decodeWord t w
      return (v, rest)) : Reads t := by
  intro v bs h _ rest
  rw [hencode] at h
  obtain ⟨hlength, hdecode⟩ := decodeWord_encodeWord ht h
  refine ⟨rest, ?_, fun _ => rfl⟩
  rw [hread, takeWord_append rest hlength]
  simp only [bind, Except.bind, pure, Except.pure, hdecode]

theorem reads_bytes : Reads .bytes := by
  intro v bs h hsmall rest
  obtain ⟨content, rfl, hbs⟩ := encode?_bytes h
  have hlength := length_padRight content
  rw [hbs, List.length_append] at hsmall
  refine ⟨[], ?_, fun hd => by cases hd⟩
  rw [hbs, read, takeBytes_append rest (by omega)]
  rfl

theorem reads_string : Reads .string := by
  intro v bs h hsmall rest
  obtain ⟨s, rfl, hbs⟩ := encode?_string h
  have hlength := length_padRight (Keccak.utf8 s)
  rw [hbs, List.length_append] at hsmall
  refine ⟨[], ?_, fun hd => by cases hd⟩
  rw [hbs, read, takeBytes_append rest (by omega)]
  simp only [bind, Except.bind, textOfBytes?_utf8]
  rfl

theorem reads_array {length : Option Nat} (hitem : WellFormed item) (ih : Reads item) :
    Reads (.array item length) := by
  intro v bs h hsmall rest
  obtain ⟨items, parts, hitems, hparts, ⟨rfl, hbs⟩ | ⟨rfl, hbs⟩⟩ := encode?_array h
  · rw [hbs, List.length_append] at hsmall
    have hsequence := length_sequence (fun t ht => List.eq_of_mem_replicate ht ▸ hitem)
      (fun t ht v bs => length_encode (List.eq_of_mem_replicate ht ▸ hitem)) hparts
    rw [List.length_replicate] at hsequence
    have hword : items.length < 256 ^ wordLength := by
      have hbound : lengthBound ≤ 256 ^ wordLength := by decide
      simp only [wordLength] at hsequence
      omega
    refine ⟨tails parts ++ rest, ?_, fun hd => by cases hd⟩
    rw [hbs, List.append_assoc, read_array_none, takeNat_word _ hword]
    simp only [bind, Except.bind, read_array_some]
    rw [readItems_layout hitem ih hparts (by omega), canonical_array _ hitems]
  · rw [hbs] at hsmall
    refine ⟨tails parts ++ rest, ?_, ?_⟩
    · rw [hbs, read_array_some, readItems_layout hitem ih hparts hsmall, canonical_array _ hitems]
    · intro hd
      have hstatic : isDynamic item = false := hd
      rw [tails_of_static (fun t ht => List.eq_of_mem_replicate ht ▸ hstatic) hparts,
        List.nil_append]

theorem reads_tuple (hts : ∀ t ∈ ts, WellFormed t ∧ Reads t) : Reads (.tuple ts) := by
  intro v bs h hsmall rest
  obtain ⟨items, parts, hitems, hparts, hbs⟩ := encode?_tuple h
  rw [hbs] at hsmall
  obtain ⟨hcheck, hread⟩ := read_layout hts hparts hsmall rest
  refine ⟨tails parts ++ rest, ?_, ?_⟩
  · rw [hbs, read, hcheck, hread, canonical_tuple hitems]
    rfl
  · intro hd
    rw [tails_of_static (anyDynamic_eq_false.mp hd) hparts, List.nil_append]

theorem WellFormed.reads (ht : t.WellFormed) : Reads t := by
  induction ht with
  | uint hbits => exact reads_word (.uint hbits) (fun _ => rfl) (fun _ => rfl)
  | int hbits => exact reads_word (.int hbits) (fun _ => rfl) (fun _ => rfl)
  | address => exact reads_word .address (fun _ => rfl) (fun _ => rfl)
  | bool => exact reads_word .bool (fun _ => rfl) (fun _ => rfl)
  | fixedBytes hn => exact reads_word (.fixedBytes hn) (fun _ => rfl) (fun _ => rfl)
  | bytes => exact reads_bytes
  | string => exact reads_string
  | array _ hitem ih => exact reads_array hitem ih
  | tuple _ hts ih => exact reads_tuple fun t ht => ⟨hts t ht, ih t ht⟩

theorem decodeAll_encodeAll (hts : ∀ t ∈ ts, WellFormed t) (h : encodeAll? ts vs = some bs)
    (hsmall : bs.length < lengthBound) : decodeAll ts bs = .ok (canonicalEach ts vs) := by
  obtain ⟨parts, hparts, hbs⟩ := Option.map_eq_some_iff.mp h
  rw [← hbs] at hsmall
  obtain ⟨hcheck, hread⟩ := read_layout (fun t ht => ⟨hts t ht, (hts t ht).reads⟩) hparts hsmall []
  rw [List.append_nil] at hcheck hread
  rw [decodeAll, ← hbs, hcheck, hread]
  rfl

end AbiType
end EvmClient
