import EvmClient.Proofs.Abi.Pieces

/-!
# Where reading stops

Data that does not match its types is told apart from two kinds of data that cannot be read at all:
bytes or a text whose length is beyond all bounds, and a text that is not UTF-8. `AbiType.Reaches`
says which values reading comes to once everything before them was read. Reading stops for one of
these two reasons exactly if it reaches such a value; the main statements are
`AbiType.decodeAll_eq_tooLarge` and `AbiType.decodeAll_eq_invalidText`.
-/

set_option autoImplicit false

namespace EvmClient.AbiType

open Abi

/-- Reading a value of one type from the start of some data comes to a value of another type at the
start of other data. Values that stand where a head is are gone by on the way. -/
inductive Reaches : AbiType → List UInt8 → AbiType → List UInt8 → Prop where
  | refl (t : AbiType) (bs : List UInt8) : Reaches t bs t bs
  | member {before after : List AbiType} {t u : AbiType} {bs cursor rest cs : List UInt8}
      {vs : List Value} {offset : Nat}
      (heads : checkHeads (before ++ t :: after) (headCounts (before ++ t :: after)) bs bs = .ok ())
      (front : readEach before bs bs = .ok (vs, cursor))
      (dynamic : isDynamic t = true)
      (head : takeNat cursor = .ok (offset, rest))
      (inner : Reaches t (bs.drop offset) u cs) :
      Reaches (.tuple (before ++ t :: after)) bs u cs
  | items {item u : AbiType} {n : Nat} {bs cs : List UInt8}
      (inner : Reaches (.tuple (List.replicate n item)) bs u cs) :
      Reaches (.array item (some n)) bs u cs
  | counted {item u : AbiType} {n : Nat} {bs frame cs : List UInt8}
      (count : takeNat bs = .ok (n, frame)) (inner : Reaches (.array item (some n)) frame u cs) :
      Reaches (.array item none) bs u cs

variable {t item : AbiType} {ts : List AbiType} {bs frame cursor : List UInt8}
  {failure : DecodeFailure}

/-! ## Static values -/

/-- A value that can only fail to be read by not matching its type. -/
def IsPlain (t : AbiType) : Prop := ∀ bs failure, read t bs = .error failure → failure = .mismatch

theorem decodeWord_eq_error {w : List UInt8} (h : decodeWord t w = .error failure) :
    failure = .mismatch := by
  unfold decodeWord at h
  split at h <;> grind

theorem isPlain_of_word (hread : ∀ bs, read t bs = do
      let (w, rest) ← takeWord bs
      let v ← decodeWord t w
      return (v, rest)) : IsPlain t := by
  intro bs failure h
  rw [hread] at h
  obtain h | ⟨⟨w, rest⟩, _, h⟩ := bind_eq_error.mp h
  · exact takeWord_eq_error h
  · exact decodeWord_eq_error ((bind_total_eq_error fun _ => ⟨_, rfl⟩).mp h)

theorem checkHeads_eq_error {members : Nat} (hts : ∀ t ∈ ts, isDynamic t = false → IsPlain t)
    (h : checkHeads ts members frame cursor = .error failure) : failure = .mismatch := by
  induction ts generalizing cursor with
  | nil => cases h
  | cons t ts ih =>
    have hrest : ∀ u ∈ ts, isDynamic u = false → IsPlain u :=
      fun u hu => hts u (List.mem_cons_of_mem t hu)
    rw [checkHeads] at h
    by_cases hd : isDynamic t = true
    · rw [if_pos hd] at h
      obtain h | ⟨⟨offset, rest⟩, _, h⟩ := bind_eq_error.mp h
      · exact takeNat_eq_error h
      · by_cases hi : isInside members offset frame = true
        · simp only [if_pos hi] at h
          exact ih hrest h
        · simp only [if_neg hi] at h
          cases h
          rfl
    · rw [if_neg hd] at h
      obtain h | ⟨⟨v, rest⟩, _, h⟩ := bind_eq_error.mp h
      · exact hts t List.mem_cons_self (eq_false_of_ne_true hd) _ _ h
      · exact ih hrest h

def readMember (t : AbiType) (frame cursor : List UInt8) : Decoded (Value × List UInt8) :=
  if isDynamic t then do
    let (offset, rest) ← takeNat cursor
    let (v, _) ← read t (frame.drop offset)
    return (v, rest)
  else read t cursor

theorem readEach_cons (t : AbiType) (ts : List AbiType) (frame cursor : List UInt8) :
    readEach (t :: ts) frame cursor = (do
      let (v, rest) ← readMember t frame cursor
      let (vs, rest) ← readEach ts frame rest
      return (v :: vs, rest)) := by
  rw [readEach, readMember]
  by_cases hd : isDynamic t = true
  · simp only [if_pos hd, bind_assoc]
  · simp only [if_neg hd]

theorem readEach_eq_error (h : readEach ts frame cursor = .error failure) :
    ∃ before t after vs cursor', ts = before ++ t :: after ∧
      readEach before frame cursor = .ok (vs, cursor') ∧
      readMember t frame cursor' = .error failure := by
  induction ts generalizing cursor with
  | nil => cases h
  | cons t ts ih =>
    rw [readEach_cons] at h
    obtain h | ⟨⟨v, rest⟩, hv, h⟩ := bind_eq_error.mp h
    · exact ⟨[], t, ts, [], cursor, rfl, rfl, h⟩
    · obtain h | ⟨_, _, h⟩ := bind_eq_error.mp h
      · obtain ⟨before, u, after, vs, cursor', rfl, hbefore, hu⟩ := ih h
        refine ⟨t :: before, u, after, v :: vs, cursor', rfl, ?_, hu⟩
        rw [readEach_cons, hv]
        simp only [bind, Except.bind, hbefore]
        rfl
      · cases h

theorem readEach_append_error {before after : List AbiType} {vs : List Value}
    {cursor' : List UInt8} (hbefore : readEach before frame cursor = .ok (vs, cursor'))
    (h : readMember t frame cursor' = .error failure) :
    readEach (before ++ t :: after) frame cursor = .error failure := by
  induction before generalizing cursor vs with
  | nil =>
    cases hbefore
    rw [List.nil_append, readEach_cons, h]
    rfl
  | cons u before ih =>
    rw [readEach_cons] at hbefore
    obtain ⟨⟨v, rest⟩, hv, hbefore⟩ := bind_eq_ok.mp hbefore
    obtain ⟨⟨vs', rest'⟩, hrest, hbefore⟩ := bind_eq_ok.mp hbefore
    cases hbefore
    rw [List.cons_append, readEach_cons, hv]
    simp only [bind, Except.bind, ih hrest]

theorem readMember_of_static (hd : isDynamic t = false) :
    readMember t frame cursor = read t cursor := by
  rw [readMember, if_neg (ne_true_of_eq_false hd)]

theorem readMember_eq_error (hd : isDynamic t = true) :
    readMember t frame cursor = .error failure ↔
      takeNat cursor = .error failure ∨
        ∃ offset rest, takeNat cursor = .ok (offset, rest) ∧
          read t (frame.drop offset) = .error failure := by
  rw [readMember, if_pos hd, bind_eq_error, Prod.exists]
  apply or_congr_right
  apply exists₂_congr
  intro offset rest
  apply and_congr_right
  intro _
  exact bind_total_eq_error fun _ => ⟨_, rfl⟩

theorem sequence_eq_error {α : Type} {f : List Value × List UInt8 → Decoded α}
    (hf : ∀ a, ∃ b, f a = .ok b) :
    (do checkHeads ts (headCounts ts) bs bs
        readEach ts bs bs >>= f) = .error failure ↔
      checkHeads ts (headCounts ts) bs bs = .error failure ∨
        (checkHeads ts (headCounts ts) bs bs = .ok () ∧ readEach ts bs bs = .error failure) := by
  rw [bind_eq_error]
  apply or_congr_right
  rw [bind_total_eq_error hf]
  constructor
  · rintro ⟨_, hheads, h⟩
    exact ⟨hheads, h⟩
  · rintro ⟨hheads, h⟩
    exact ⟨(), hheads, h⟩

theorem read_tuple_eq_error :
    read (.tuple ts) bs = .error failure ↔
      checkHeads ts (headCounts ts) bs bs = .error failure ∨
        (checkHeads ts (headCounts ts) bs bs = .ok () ∧ readEach ts bs bs = .error failure) := by
  rw [read]
  exact sequence_eq_error fun _ => ⟨_, rfl⟩

theorem read_array_of_dynamic (hd : isDynamic item = true) (n : Nat) (bs : List UInt8) :
    read (.array item (some n)) bs = read (.tuple (List.replicate n item)) bs := by
  rw [read_array_some, readItems, if_pos hd, read]

theorem readEach_isPlain (hts : ∀ t ∈ ts, isDynamic t = false ∧ IsPlain t)
    (h : readEach ts frame cursor = .error failure) : failure = .mismatch := by
  obtain ⟨before, t, after, vs, cursor', rfl, _, ht⟩ := readEach_eq_error h
  obtain ⟨hd, hplain⟩ := hts t (by simp)
  rw [readMember_of_static hd] at ht
  exact hplain _ _ ht

theorem isPlain_of_static (hd : isDynamic t = false) : IsPlain t := by
  induction t using nested_induction with
  | uint | int | address | bool | fixedBytes => exact isPlain_of_word fun _ => rfl
  | bytes => cases hd
  | string => cases hd
  | array item length ih =>
    cases length with
    | none => cases hd
    | some n =>
      have hitem : isDynamic item = false := hd
      intro bs failure h
      rw [read_array_some, readItems, hitem, if_neg Bool.false_ne_true] at h
      obtain h | ⟨_, _, h⟩ := bind_eq_error.mp h
      · refine readEach_isPlain (fun t ht => ?_) h
        rw [List.eq_of_mem_replicate ht]
        exact ⟨hitem, ih hitem⟩
      · cases h
  | tuple members ih =>
    have hmembers := anyDynamic_eq_false.mp hd
    intro bs failure h
    obtain h | ⟨_, h⟩ := read_tuple_eq_error.mp h
    · exact checkHeads_eq_error (fun t ht _ => ih t ht (hmembers t ht)) h
    · exact readEach_isPlain (fun t ht => ⟨hmembers t ht, ih t ht (hmembers t ht)⟩) h

/-! ## What reading reaches -/

def IsPiece (t : AbiType) : Prop := t = .bytes ∨ t = .string

/-- Reading comes to a piece that fails to be read in this way. -/
def FailsAtPiece (t : AbiType) (bs : List UInt8) (failure : DecodeFailure) : Prop :=
  ∃ u cs, Reaches t bs u cs ∧ IsPiece u ∧ read u cs = .error failure

section

variable (hf : failure ≠ .mismatch)
include hf

theorem failsAtPiece_of_tuple
    (ih : ∀ t ∈ ts, ∀ bs, read t bs = .error failure → FailsAtPiece t bs failure)
    (h : read (.tuple ts) bs = .error failure) : FailsAtPiece (.tuple ts) bs failure := by
  obtain h | ⟨hheads, h⟩ := read_tuple_eq_error.mp h
  · exact absurd (checkHeads_eq_error (fun t _ => isPlain_of_static) h) hf
  · obtain ⟨before, t, after, vs, cursor, rfl, hbefore, ht⟩ := readEach_eq_error h
    cases hd : isDynamic t with
    | false =>
      rw [readMember_of_static hd] at ht
      exact absurd (isPlain_of_static hd _ _ ht) hf
    | true =>
      obtain ht | ⟨offset, rest, hoffset, ht⟩ := (readMember_eq_error hd).mp ht
      · exact absurd (takeNat_eq_error ht) hf
      · obtain ⟨u, cs, hreaches, hpiece, hu⟩ := ih t (by simp) _ ht
        exact ⟨u, cs, .member hheads hbefore hd hoffset hreaches, hpiece, hu⟩

theorem failsAtPiece_of_items {n : Nat}
    (ih : ∀ bs, read item bs = .error failure → FailsAtPiece item bs failure)
    (h : read (.array item (some n)) bs = .error failure) :
    FailsAtPiece (.array item (some n)) bs failure := by
  cases hd : isDynamic item with
  | false => exact absurd (isPlain_of_static (t := .array item (some n)) hd _ _ h) hf
  | true =>
    rw [read_array_of_dynamic hd] at h
    have hitems : ∀ t ∈ List.replicate n item, ∀ bs, read t bs = .error failure →
        FailsAtPiece t bs failure := by
      intro t ht
      rw [List.eq_of_mem_replicate ht]
      exact ih
    obtain ⟨u, cs, hreaches, hpiece, hu⟩ := failsAtPiece_of_tuple hf hitems h
    exact ⟨u, cs, .items hreaches, hpiece, hu⟩

theorem failsAtPiece_of_read_eq_error (h : read t bs = .error failure) :
    FailsAtPiece t bs failure := by
  induction t using nested_induction generalizing bs with
  | uint | int | address | bool | fixedBytes => exact absurd (isPlain_of_static rfl _ _ h) hf
  | bytes => exact ⟨_, _, .refl .bytes bs, .inl rfl, h⟩
  | string => exact ⟨_, _, .refl .string bs, .inr rfl, h⟩
  | array item length ih =>
    cases length with
    | some n => exact failsAtPiece_of_items hf (fun bs => ih) h
    | none =>
      rw [read_array_none] at h
      obtain h | ⟨⟨n, frame⟩, hn, h⟩ := bind_eq_error.mp h
      · exact absurd (takeNat_eq_error h) hf
      · obtain ⟨u, cs, hreaches, hpiece, hu⟩ := failsAtPiece_of_items hf (fun bs => ih) h
        exact ⟨u, cs, .counted hn hreaches, hpiece, hu⟩
  | tuple members ih => exact failsAtPiece_of_tuple hf (fun t ht bs => ih t ht) h

theorem Reaches.read_eq_error {u : AbiType} {cs : List UInt8} (h : Reaches t bs u cs)
    (hu : read u cs = .error failure) : read t bs = .error failure := by
  induction h with
  | refl => exact hu
  | member heads front dynamic head _ ih =>
    refine read_tuple_eq_error.mpr (.inr ⟨heads, readEach_append_error front ?_⟩)
    exact (readMember_eq_error dynamic).mpr (.inr ⟨_, _, head, ih hu⟩)
  | @items item u n bs cs _ ih =>
    cases hd : isDynamic item with
    | true =>
      rw [read_array_of_dynamic hd]
      exact ih hu
    | false =>
      have hstatic : isDynamic (.tuple (List.replicate n item)) = false :=
        anyDynamic_eq_false.mpr fun t ht => List.eq_of_mem_replicate ht ▸ hd
      exact absurd (isPlain_of_static hstatic _ _ (ih hu)) hf
  | counted count _ ih =>
    rw [read_array_none, count]
    exact ih hu

theorem decodeAll_eq_error :
    decodeAll ts bs = .error failure ↔ FailsAtPiece (.tuple ts) bs failure := by
  have htuple : decodeAll ts bs = .error failure ↔ read (.tuple ts) bs = .error failure := by
    rw [read_tuple_eq_error, decodeAll]
    exact sequence_eq_error fun _ => ⟨_, rfl⟩
  rw [htuple]
  constructor
  · exact failsAtPiece_of_read_eq_error hf
  · rintro ⟨u, cs, hreaches, _, hu⟩
    exact hreaches.read_eq_error hf hu

end

/-! ## Data that cannot be read -/

def MeetsOverlong (ts : List AbiType) (bs : List UInt8) : Prop :=
  ∃ u cs, Reaches (.tuple ts) bs u cs ∧ IsPiece u ∧ BeginsOverlong cs

def MeetsNoText (ts : List AbiType) (bs : List UInt8) : Prop :=
  ∃ cs, Reaches (.tuple ts) bs .string cs ∧ BeginsWithNoText cs

theorem read_bytes_eq_error :
    read .bytes bs = .error failure ↔ takeBytes bs = .error failure := by
  rw [read]
  exact bind_total_eq_error fun _ => ⟨_, rfl⟩

theorem read_string_eq_error :
    read .string bs = .error failure ↔
      takeBytes bs = .error failure ∨ (failure = .invalidText ∧ BeginsWithNoText bs) := by
  rw [read, bind_eq_error]
  constructor
  · rintro (h | ⟨content, hcontent, h⟩)
    · exact .inl h
    · cases ht : textOfBytes? content with
      | some s =>
        rw [ht] at h
        cases h
      | none =>
        rw [ht] at h
        cases h
        refine .inr ⟨rfl, content, takeBytes_eq_ok.mp hcontent, ?_⟩
        rintro s rfl
        rw [textOfBytes?_utf8] at ht
        cases ht
  · rintro (h | ⟨rfl, content, hcontent, hno⟩)
    · exact .inl h
    · refine .inr ⟨content, takeBytes_eq_ok.mpr hcontent, ?_⟩
      have ht : textOfBytes? content = none := by
        rw [Option.eq_none_iff_forall_ne_some]
        exact fun s hs => hno s (textOfBytes?_eq_some.mp hs)
      rw [ht]

theorem read_piece_eq_tooLarge (ht : t.IsPiece) :
    read t bs = .error .lengthTooLarge ↔ BeginsOverlong bs := by
  obtain rfl | rfl := ht
  · rw [read_bytes_eq_error, takeBytes_eq_tooLarge_iff]
  · rw [read_string_eq_error, takeBytes_eq_tooLarge_iff]
    simp

theorem read_piece_eq_invalidText (ht : t.IsPiece) :
    read t bs = .error .invalidText ↔ t = .string ∧ BeginsWithNoText bs := by
  obtain rfl | rfl := ht
  · simp [read_bytes_eq_error, takeBytes_ne_invalidText]
  · simp [read_string_eq_error, takeBytes_ne_invalidText]

theorem decodeAll_eq_tooLarge :
    decodeAll ts bs = .error .lengthTooLarge ↔ MeetsOverlong ts bs := by
  rw [decodeAll_eq_error (by decide)]
  constructor
  · rintro ⟨u, cs, hreaches, hpiece, hu⟩
    exact ⟨u, cs, hreaches, hpiece, (read_piece_eq_tooLarge hpiece).mp hu⟩
  · rintro ⟨u, cs, hreaches, hpiece, hu⟩
    exact ⟨u, cs, hreaches, hpiece, (read_piece_eq_tooLarge hpiece).mpr hu⟩

theorem decodeAll_eq_invalidText :
    decodeAll ts bs = .error .invalidText ↔ MeetsNoText ts bs := by
  rw [decodeAll_eq_error (by decide)]
  constructor
  · rintro ⟨u, cs, hreaches, hpiece, hu⟩
    obtain ⟨rfl, hno⟩ := (read_piece_eq_invalidText hpiece).mp hu
    exact ⟨cs, hreaches, hno⟩
  · rintro ⟨cs, hreaches, hno⟩
    exact ⟨_, cs, hreaches, .inr rfl, (read_piece_eq_invalidText (.inr rfl)).mpr ⟨rfl, hno⟩⟩

end EvmClient.AbiType
