import EvmClient.Proofs.Abi.Layout

/-!
# How encodings begin

The encoding of a static value begins with the word of an elementary value, and the type alone says
of which type this is. A sequence whose first member is dynamic begins with an offset instead. So it
can be told from the types of a sequence whether its encoding may begin with given bytes: offsets
and short numbers begin with a zero, or with ones if they are negative, and fixed bytes end where
their length says.
-/

set_option autoImplicit false

namespace EvmClient.AbiType

open Abi

mutual

/-- The type of the word that begins the encodings of a static type. -/
def front? : AbiType → Option AbiType
  | array item _ => front? item
  | tuple members => frontOf? members
  | t => some t

def frontOf? : List AbiType → Option AbiType
  | [] => none
  | t :: _ => if isDynamic t then none else front? t

end

def BeginsWith (front : Option AbiType) (bs : List UInt8) : Prop :=
  ∃ t v w rest, front = some t ∧ t.WellFormed ∧ encodeWord? t v = some w ∧ bs = w ++ rest

variable {t : AbiType} {ts : List AbiType} {v : Value} {vs : List Value} {bs : List UInt8}
  {parts : List EncodedMember}

theorem frontOf?_cons_static (hd : isDynamic t = false) (ts : List AbiType) :
    frontOf? (t :: ts) = front? t := by
  simp [frontOf?, hd]

theorem beginsWith_word (ht : t.WellFormed) (hfront : front? t = some t)
    (h : encodeWord? t v = some bs) : BeginsWith (front? t) bs :=
  ⟨t, v, bs, [], hfront, ht, h, (List.append_nil bs).symm⟩

theorem layout_beginsWith (hd : isDynamic t = false)
    (ih : ∀ v bs, encode? t v = some bs → BeginsWith (front? t) bs)
    (h : encodeEach? (t :: ts) vs = some parts) :
    BeginsWith (frontOf? (t :: ts)) (layout parts) := by
  obtain ⟨v, vs', bs, parts', rfl, hbs, _, rfl⟩ := encodeEach?_cons h
  obtain ⟨u, x, w, rest, hfront, hu, hw, rfl⟩ := ih v bs hbs
  rw [frontOf?_cons_static hd, layout, heads_cons_static _ hd, List.append_assoc, List.append_assoc]
  exact ⟨u, x, w, _, hfront, hu, hw, rfl⟩

theorem layout_begins_with_offset (hd : isDynamic t = true)
    (h : encodeEach? (t :: ts) vs = some parts) :
    ∃ rest, layout parts = word (headsLength parts) ++ rest := by
  obtain ⟨v, vs', bs, parts', rfl, _, _, rfl⟩ := encodeEach?_cons h
  rw [layout, heads_cons_dynamic _ hd, List.append_assoc]
  exact ⟨_, rfl⟩

theorem encode?_beginsWith (ht : t.WellFormed) (hd : isDynamic t = false)
    (h : encode? t v = some bs) : BeginsWith (front? t) bs := by
  induction ht generalizing v bs with
  | uint hbits => exact beginsWith_word (.uint hbits) rfl h
  | int hbits => exact beginsWith_word (.int hbits) rfl h
  | address => exact beginsWith_word .address rfl h
  | bool => exact beginsWith_word .bool rfl h
  | fixedBytes hn => exact beginsWith_word (.fixedBytes hn) rfl h
  | bytes => cases hd
  | string => cases hd
  | @array item length hlength _ ih =>
    obtain ⟨items, parts, _, hparts, ⟨rfl, _⟩ | ⟨rfl, rfl⟩⟩ := encode?_array h
    · cases hd
    · have hitem : isDynamic item = false := hd
      cases items with
      | nil => exact absurd rfl hlength
      | cons x items =>
        have hbegins := layout_beginsWith hitem (fun v bs => ih hitem) hparts
        rwa [frontOf?_cons_static hitem] at hbegins
  | @tuple members hmembers _ ih =>
    obtain ⟨items, parts, _, hparts, rfl⟩ := encode?_tuple h
    have hstatic := anyDynamic_eq_false.mp hd
    cases members with
    | nil => exact absurd rfl hmembers
    | cons t ts =>
      have ht := hstatic t (by simp)
      exact layout_beginsWith ht (fun v bs => ih t (by simp) ht) hparts

/-! ## Words that begin with given bytes -/

/-- Numbers of whole words, and fixed bytes of at least this many bytes. -/
def IsWide (width : Nat) : AbiType → Prop
  | uint bits | int bits => bits = 256
  | fixedBytes n => width ≤ n
  | _ => False

section

variable {first last : UInt8} {inner : List UInt8}

theorem width_eq_of_take_all {bits : Nat} (hbits : IsWidth bits) {filler : UInt8} {w : List UInt8}
    (h : ((first :: w).take (wordLength - bits / 8)).all (· == filler) = true)
    (hfirst : first ≠ filler) : bits = 256 := by
  obtain ⟨width, rfl, _, hle⟩ := hbits
  by_cases hwidth : width = 32
  · omega
  · have hcount : wordLength - 8 * width / 8 = 31 - width + 1 := by
      simp only [wordLength]
      omega
    rw [hcount, List.take_succ_cons, List.all_cons, Bool.and_eq_true, beq_iff_eq] at h
    exact absurd h.1 hfirst

theorem length_le_of_drop_all {n : Nat} {w : List UInt8}
    (h : ((inner ++ last :: w).drop n).all (· == 0) = true) (hlast : last ≠ 0) :
    inner.length + 1 ≤ n := by
  by_cases hn : n ≤ inner.length
  · rw [List.drop_append_of_le_length hn, List.all_append, List.all_cons] at h
    simp only [Bool.and_eq_true, beq_iff_eq] at h
    exact absurd h.2.1 hlast
  · omega

theorem isWide_of_encodeWord (ht : t.WellFormed) (hzero : first ≠ 0) (hones : first ≠ 255)
    (hlast : last ≠ 0) {rest : List UInt8}
    (h : encodeWord? t v = some (first :: inner ++ last :: rest)) :
    t.IsWide (inner.length + 2) := by
  obtain ⟨_, hdecode⟩ := decodeWord_encodeWord ht h
  cases ht with
  | @uint bits hbits =>
    by_cases hfill : ((first :: inner ++ last :: rest).take (wordLength - bits / 8)).all
        (· == 0) = true
    · exact width_eq_of_take_all hbits hfill hzero
    · rw [decodeWord, if_neg hfill] at hdecode
      cases hdecode
  | @int bits hbits =>
    -- a narrow number is filled with zeros or, if it is negative, with ones
    rw [decodeWord] at hdecode
    generalize decide (Nat.pow 2 (bits - 1) ≤ _) = negative at hdecode
    by_cases hfill : ((first :: inner ++ last :: rest).take (wordLength - bits / 8)).all
        (· == if negative then 255 else 0) = true
    · apply width_eq_of_take_all hbits hfill
      cases negative
      · exact hzero
      · exact hones
    · rw [if_neg hfill] at hdecode
      cases hdecode
  | address =>
    rw [decodeWord, List.cons_append, List.take_succ_cons, List.all_cons, beq_false_of_ne hzero]
      at hdecode
    cases hdecode
  | bool =>
    cases v with
    | bool b =>
      have hfirst := congrArg List.head? (Option.some.inj h)
      cases b
      · exact absurd (Option.some.inj hfirst).symm hzero
      · exact absurd (Option.some.inj hfirst).symm hzero
    | _ => cases h
  | @fixedBytes n hn =>
    by_cases hfill : ((first :: inner ++ last :: rest).drop n).all (· == 0) = true
    · exact length_le_of_drop_all hfill hlast
    · rw [decodeWord, if_neg hfill] at hdecode
      cases hdecode
  | bytes => cases h
  | string => cases h
  | array => cases h
  | tuple => cases h

theorem head?_word_of_lt {n : Nat} (h : n < lengthBound) : (word n).head? = some 0 := by
  have hbound : lengthBound ≤ 256 ^ 31 := by decide
  have hzero : n / 256 ^ 31 = 0 := Nat.div_eq_of_lt (by omega)
  have hsplit : word n = Hex.ofNat 1 (n / 256 ^ 31) ++ Hex.ofNat 31 n := Hex.ofNat_add 1 31 n
  rw [hsplit, hzero]
  rfl

/-- Only arguments with a wide type in front can begin with bytes of which the first is neither zero
nor all ones and the last is not zero. -/
theorem front_isWide_of_encodeAll (hts : ∀ t ∈ ts, t.WellFormed)
    (h : encodeAll? ts vs = some bs) (hsmall : bs.length < lengthBound) (hzero : first ≠ 0)
    (hones : first ≠ 255) (hlast : last ≠ 0) (hinner : inner.length + 2 ≤ wordLength)
    (hbegin : first :: inner ++ [last] <+: bs) :
    ∃ t, frontOf? ts = some t ∧ t.IsWide (inner.length + 2) := by
  obtain ⟨parts, hparts, rfl⟩ := Option.map_eq_some_iff.mp h
  cases ts with
  | nil =>
    obtain ⟨_, rfl⟩ := encodeEach?_nil hparts
    cases List.prefix_nil.mp hbegin
  | cons t ts =>
    have ht := hts t (by simp)
    cases hd : isDynamic t with
    | true =>
      obtain ⟨rest, hlayout⟩ := layout_begins_with_offset hd hparts
      rw [length_layout] at hsmall
      have hhead : (word (headsLength parts)).head? = some 0 := head?_word_of_lt (by omega)
      obtain ⟨more, hmore⟩ := hbegin
      have hfirst : some first = (word (headsLength parts) ++ rest).head? :=
        congrArg List.head? (hmore.trans hlayout)
      rw [List.head?_append, hhead] at hfirst
      exact absurd (Option.some.inj hfirst) hzero
    | false =>
      obtain ⟨u, x, w, rest, hfront, hu, hw, hlayout⟩ :=
        layout_beginsWith hd (fun v bs => encode?_beginsWith ht hd) hparts
      have hlength := (decodeWord_encodeWord hu hw).1
      rw [hlayout] at hbegin
      have hprefix : first :: inner ++ [last] <+: w := by
        apply List.prefix_of_prefix_length_le hbegin (List.prefix_append w rest)
        rw [hlength, List.length_append, List.length_cons, List.length_singleton]
        omega
      obtain ⟨more, rfl⟩ := hprefix
      rw [List.append_assoc] at hw
      exact ⟨u, hfront, isWide_of_encodeWord hu hzero hones hlast hw⟩

end

end EvmClient.AbiType
