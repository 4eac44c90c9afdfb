import EvmClient.Proofs.Address
import EvmClient.Proofs.Value

/-!
# Which values are addresses

An address is a text of the mark `0x` and forty digits. The shape that is asked of an address lets
one line end follow; such a text counts as an address and has no checksum form, so the check of it
ends with a defect. The checksum form depends on the bytes alone and passes the check unchanged.
-/

set_option autoImplicit false

namespace EvmClient

/-- The value is a text: the mark `0x`, these digits and an ending. -/
structure Value.IsMarked (v : Value) (digits ending : List Char) : Prop where
  text : v = .text (String.ofList ('0' :: 'x' :: digits ++ ending))
  areDigits : ∀ c ∈ digits, Hex.isDigit c = true

namespace Value.IsMarked

variable {v : Value} {digits ending : List Char}

theorem of_toList {s : String} (h : s.toList = '0' :: 'x' :: digits ++ ending)
    (hdigits : ∀ c ∈ digits, Hex.isDigit c = true) : (Value.text s).IsMarked digits ending :=
  ⟨by rw [← h, String.ofList_toList], hdigits⟩

theorem toList {s : String} (h : (Value.text s).IsMarked digits ending) :
    s.toList = '0' :: 'x' :: digits ++ ending := by
  obtain ⟨htext, _⟩ := h
  rw [Value.text.injEq] at htext
  rw [htext, String.toList_ofList]

theorem isDecoded (h : v.IsMarked digits ending) : v.IsDecoded := by
  rw [h.text]
  exact .text _

theorem append_unique {digits' ending' : List Char} (h : v.IsMarked digits ending)
    (h' : v.IsMarked digits' ending') : digits ++ ending = digits' ++ ending' := by
  have htexts := congrArg String.toList (Value.text.inj (h.text.symm.trans h'.text))
  rw [String.toList_ofList, String.toList_ofList] at htexts
  exact (List.cons.inj (List.cons.inj htexts).2).2

theorem digits_unique {digits' : List Char} (h : v.IsMarked digits ending)
    (h' : v.IsMarked digits' ending) : digits = digits' :=
  List.append_cancel_right (h.append_unique h')

theorem withoutLineEnd_iff {s : String} :
    (Address.withoutLineEnd s.toList = '0' :: 'x' :: digits ∧
        ∀ c ∈ digits, Hex.isDigit c = true) ↔
      (Value.text s).IsMarked digits [] ∨ (Value.text s).IsMarked digits ['\n'] := by
  constructor
  · rintro ⟨hcs, hdigits⟩
    obtain hs | hs := (Address.withoutLineEnd_eq_iff (Address.lineEnd_notMem hdigits)).mp hcs
    · exact .inl (of_toList (by rw [hs, List.append_nil]) hdigits)
    · exact .inr (of_toList hs hdigits)
  · rintro (h | h)
    all_goals
      have hend := Address.lineEnd_notMem h.areDigits
      refine ⟨(Address.withoutLineEnd_eq_iff hend).mpr ?_, h.areDigits⟩
      rw [h.toList]
      simp

end Value.IsMarked

def Value.IsAddress (v : Value) : Prop := ∃ digits, v.IsMarked digits [] ∧ digits.length = 40

def Value.IsAddressLine (v : Value) : Prop :=
  ∃ digits, v.IsMarked digits ['\n'] ∧ digits.length = 40

theorem Value.IsAddress.not_isAddressLine {v : Value} (h : v.IsAddress) : ¬v.IsAddressLine := by
  rintro ⟨digits', hmarked', _⟩
  obtain ⟨digits, hmarked, _⟩ := h
  have hmem : '\n' ∈ digits := by
    rw [← List.append_nil digits, hmarked.append_unique hmarked']
    simp
  exact absurd (hmarked.areDigits _ hmem) (by decide)

namespace Address

variable {v : Value} {digits : List Char}

theorem isText_iff {s : String} :
    isText s = true ↔ (Value.text s).IsAddress ∨ (Value.text s).IsAddressLine := by
  rw [isText, isChars_iff]
  constructor
  · rintro ⟨digits, hcs, hlength, hdigits⟩
    obtain h | h := Value.IsMarked.withoutLineEnd_iff.mp ⟨hcs, hdigits⟩
    · exact .inl ⟨digits, h, hlength⟩
    · exact .inr ⟨digits, h, hlength⟩
  · rintro (⟨digits, h, hlength⟩ | ⟨digits, h, hlength⟩)
    · obtain ⟨hcs, hdigits⟩ := Value.IsMarked.withoutLineEnd_iff.mpr (.inl h)
      exact ⟨digits, hcs, hlength, hdigits⟩
    · obtain ⟨hcs, hdigits⟩ := Value.IsMarked.withoutLineEnd_iff.mpr (.inr h)
      exact ⟨digits, hcs, hlength, hdigits⟩

theorem isAddress_iff : isAddress v = true ↔ v.IsAddress ∨ v.IsAddressLine := by
  cases v with
  | text s => exact isText_iff
  | _ =>
    refine iff_of_false Bool.false_ne_true ?_
    rintro (⟨_, ⟨htext, _⟩, _⟩ | ⟨_, ⟨htext, _⟩, _⟩) <;> cases htext

theorem canonical_of_isMarked (h : v.IsMarked digits []) (hlength : digits.length = 40) :
    ∃ bs, Hex.ofChars? digits = some bs ∧ bs.length = length ∧
      canonical v = .ok (checksumText bs) := by
  obtain ⟨bs, hbs⟩ := Hex.exists_ofChars?_iff.mpr ⟨by omega, h.areDigits⟩
  have hchars := congrArg List.length (Hex.chars_of_ofChars? hbs)
  rw [Hex.length_chars, List.length_map, hlength] at hchars
  refine ⟨bs, hbs, by rw [length]; omega, ?_⟩
  have hdigits : ofDigits? digits = some bs := (if_pos hlength).trans hbs
  rw [h.text, canonical, ofValue, ofText?, String.toList_ofList, List.append_nil]
  change Except.map checksumText
    ((ofDigits? digits).elim (Except.error Defect.malformedValue) Except.ok) = _
  rw [hdigits]
  rfl

theorem canonical_of_isAddressLine (h : v.IsAddressLine) :
    canonical v = .error .malformedValue := by
  obtain ⟨digits, hmarked, hlength⟩ := h
  have hdigits : ofDigits? (digits ++ ['\n']) = none := by
    rw [ofDigits?, if_neg]
    simp [hlength, length]
  rw [hmarked.text, canonical, ofValue, ofText?, String.toList_ofList]
  change Except.map checksumText
    ((ofDigits? (digits ++ ['\n'])).elim (Except.error Defect.malformedValue) Except.ok) = _
  rw [hdigits]
  rfl

theorem checksumText_isMarked {bs : List UInt8} (h : bs.length = length) :
    (Value.text (checksumText bs)).IsMarked (checksumDigits bs) [] ∧
      (checksumDigits bs).length = 40 := by
  have hlower := map_toLower_checksumDigits h
  constructor
  · refine .of_toList ?_ fun c hc => ?_
    · rw [checksumText, String.toList_ofList, List.append_nil]
    · have hmem : c.toLower ∈ (checksumDigits bs).map Char.toLower := List.mem_map_of_mem hc
      rw [hlower] at hmem
      rw [← Hex.isDigit_toLower]
      exact Hex.isDigit_of_mem_chars hmem
  · have hlength := congrArg List.length hlower
    rw [List.length_map, Hex.length_chars, h] at hlength
    exact hlength

end Address

namespace Input

def RefusesAddress {α : Type} (field : String) (r : Outcome α) : Prop :=
  ∃ shown reason, r = .error (.client (.invalidAddress shown (.text field) (.text reason)))

variable {v : Value} {field : String}

theorem refusesAddress_of_isDecoded {α : Type} {shown : Value} {reason : String}
    (h : shown.IsDecoded) : RefusesAddress (α := α) field
      (fail (.invalidAddress shown (.text field) (.text reason))) := by
  refine ⟨shown, reason, fail_of_message ?_⟩
  rw [ClientError.message?, Option.isSome_map]
  exact ClientError.isSome_invalidMessage.mpr h

theorem isTruthy_of_isMarked {digits ending : List Char} (h : v.IsMarked digits ending) :
    v.isTruthy = true := by
  rw [h.text, Value.isTruthy, Bool.not_eq_true', ← Bool.not_eq_true, String.isEmpty_iff]
  intro hempty
  cases (String.toList_ofList.symm.trans (congrArg String.toList hempty))

/-- What the check of an address comes to. -/
inductive ChecksAddress (field : String) : Value → Outcome String → Prop where
  | address {v : Value} {digits : List Char} {bs : List UInt8} (marked : v.IsMarked digits [])
      (forty : digits.length = 40) (read : Hex.ofChars? digits = some bs) :
      ChecksAddress field v (.ok (Address.checksumText bs))
  | line {v : Value} (h : v.IsAddressLine) :
      ChecksAddress field v (.error (Failure.ofDefect .malformedValue))
  | other {v : Value} {r : Outcome String} (h : ¬v.IsAddress) (h' : ¬v.IsAddressLine)
      (decoded : v.IsDecoded) (refused : RefusesAddress field r) : ChecksAddress field v r
  | countless {v : Value} (h : ¬v.IsDecoded) :
      ChecksAddress field v (.error (Failure.ofDefect .malformedValue))

theorem checksAddress_of_not_text {v : Value} (field : String) (ht : v.isTruthy = true)
    (hv : ∀ s, v ≠ .text s) : ChecksAddress field v (address v field) := by
  have haddress : address v field = Outcome.ofDefect v.textOf >>= fun shown =>
      fail (.invalidAddress (.text shown) (.text field)
        (.text s!"{field} must be a string")) := by
    unfold address
    rw [ht]
    cases v with
    | text s => exact absurd rfl (hv s)
    | _ => rfl
  rw [haddress]
  by_cases hdecoded : v.IsDecoded
  · obtain ⟨shown, hshown⟩ := hdecoded.exists_textOf
    rw [hshown]
    refine .other ?_ ?_ hdecoded (refusesAddress_of_isDecoded (.text shown))
    · rintro ⟨_, hmarked, _⟩
      exact hv _ hmarked.text
    · rintro ⟨_, hmarked, _⟩
      exact hv _ hmarked.text
  · rw [Value.textOf_of_not_isDecoded hdecoded]
    exact .countless hdecoded

theorem checksAddress_of_text {s : String} (field : String)
    (ht : (Value.text s).isTruthy = true) :
    ChecksAddress field (.text s) (address (.text s) field) := by
  have haddress : address (.text s) field =
      if Address.isText s then Outcome.ofDefect (Address.canonical (.text s))
      else fail (.invalidAddress (.text s) (.text field)
        (.text "must be 0x followed by 40 hex characters")) := by
    unfold address
    rw [ht]
    rfl
  rw [haddress]
  by_cases hs : Address.isText s = true
  · rw [if_pos hs]
    obtain ⟨digits, hmarked, hlength⟩ | hline := Address.isText_iff.mp hs
    · obtain ⟨bs, hbs, _, hcanonical⟩ := Address.canonical_of_isMarked hmarked hlength
      rw [hcanonical]
      exact .address hmarked hlength hbs
    · rw [Address.canonical_of_isAddressLine hline]
      exact .line hline
  · rw [if_neg hs]
    obtain ⟨hno, hno'⟩ := not_or.mp (mt Address.isText_iff.mpr hs)
    exact .other hno hno' (.text s) (refusesAddress_of_isDecoded (.text s))

theorem checksAddress_of_not_isTruthy {v : Value} (field : String) (ht : ¬v.isTruthy = true) :
    ChecksAddress field v (address v field) := by
  have haddress : address v field =
      fail (.invalidAddress (.text "") (.text field) (.text s!"{field} is required")) := by
    unfold address
    rw [Bool.eq_false_iff.mpr ht]
    rfl
  rw [haddress]
  refine .other ?_ ?_ (.of_not_isTruthy ht) (refusesAddress_of_isDecoded (.text ""))
  · rintro ⟨_, hmarked, _⟩
    exact ht (isTruthy_of_isMarked hmarked)
  · rintro ⟨_, hmarked, _⟩
    exact ht (isTruthy_of_isMarked hmarked)

theorem checksAddress (v : Value) (field : String) :
    ChecksAddress field v (address v field) := by
  by_cases ht : v.isTruthy = true
  · by_cases hv : ∃ s, v = .text s
    · obtain ⟨s, rfl⟩ := hv
      exact checksAddress_of_text field ht
    · exact checksAddress_of_not_text field ht (not_exists.mp hv)
  · exact checksAddress_of_not_isTruthy field ht

theorem address_eq_ok_iff {t : String} : address v field = .ok t ↔
    ∃ digits bs, v.IsMarked digits [] ∧ digits.length = 40 ∧ Hex.ofChars? digits = some bs ∧
      t = Address.checksumText bs := by
  constructor
  · intro h
    have hchecks := checksAddress v field
    rw [h] at hchecks
    cases hchecks with
    | address marked forty read => exact ⟨_, _, marked, forty, read, rfl⟩
    | other _ _ _ refused =>
      obtain ⟨_, _, heq⟩ := refused
      cases heq
  · rintro ⟨digits, bs, hmarked, hlength, hbs, rfl⟩
    have haddress : v.IsAddress := ⟨digits, hmarked, hlength⟩
    have hchecks := checksAddress v field
    generalize address v field = r at hchecks
    cases hchecks with
    | address marked forty read =>
      cases hmarked.digits_unique marked
      cases hbs.symm.trans read
      rfl
    | line h => exact absurd h haddress.not_isAddressLine
    | other h => exact absurd haddress h
    | countless h => exact absurd hmarked.isDecoded h

theorem refusesAddress_iff : RefusesAddress field (address v field) ↔
    v.IsDecoded ∧ ¬v.IsAddress ∧ ¬v.IsAddressLine := by
  have hchecks := checksAddress v field
  generalize address v field = r at hchecks
  cases hchecks with
  | address marked forty read =>
    refine iff_of_false ?_ fun h => h.2.1 ⟨_, marked, forty⟩
    rintro ⟨_, _, heq⟩
    cases heq
  | line h' =>
    refine iff_of_false ?_ fun h => h.2.2 h'
    rintro ⟨_, _, heq⟩
    cases heq
  | other h h' decoded refused => exact iff_of_true refused ⟨decoded, h, h'⟩
  | countless h' =>
    refine iff_of_false ?_ fun h => h' h.1
    rintro ⟨_, _, heq⟩
    cases heq

theorem address_escapes_iff : address v field = .error (Failure.ofDefect .malformedValue) ↔
    ¬v.IsDecoded ∨ v.IsAddressLine := by
  have hchecks := checksAddress v field
  generalize address v field = r at hchecks
  cases hchecks with
  | address marked forty read =>
    refine iff_of_false nofun ?_
    rintro (h | h)
    · exact h marked.isDecoded
    · exact Value.IsAddress.not_isAddressLine ⟨_, marked, forty⟩ h
  | line h => exact iff_of_true rfl (.inr h)
  | other h h' decoded refused =>
    obtain ⟨_, _, rfl⟩ := refused
    refine iff_of_false nofun ?_
    rintro (h'' | h'')
    · exact h'' decoded
    · exact h' h''
  | countless h => exact iff_of_true rfl (.inl h)

theorem address_of_same_letters {s s' t field' : String} (h : address (.text s) field = .ok t)
    (hs' : (Value.text s').IsAddress) (hletters : Text.lowered s' = Text.lowered s) :
    address (.text s') field' = .ok t := by
  obtain ⟨digits, bs, hmarked, _, hbs, rfl⟩ := address_eq_ok_iff.mp h
  obtain ⟨digits', hmarked', hlength'⟩ := hs'
  obtain ⟨bs', hbs', _, _⟩ := Address.canonical_of_isMarked hmarked' hlength'
  have hlower : digits'.map Char.toLower = digits.map Char.toLower := by
    have hlists := congrArg String.toList hletters
    simpa [Text.lowered, hmarked.toList, hmarked'.toList] using hlists
  have hdecoded := congrArg Hex.ofChars? hlower
  rw [Hex.ofChars?_map_toLower, Hex.ofChars?_map_toLower, hbs', hbs] at hdecoded
  cases hdecoded
  exact address_eq_ok_iff.mpr ⟨digits', bs, hmarked', hlength', hbs', rfl⟩

theorem address_fixed {t field' : String} (h : address v field = .ok t) :
    address (.text t) field' = .ok t := by
  obtain ⟨digits, bs, hmarked, hlength, hbs, rfl⟩ := address_eq_ok_iff.mp h
  obtain ⟨bs', hbs', hlength', _⟩ := Address.canonical_of_isMarked hmarked hlength
  cases hbs.symm.trans hbs'
  obtain ⟨hchecksum, hforty⟩ := Address.checksumText_isMarked hlength'
  obtain ⟨bs'', hbs'', _⟩ := Address.canonical_of_isMarked hchecksum hforty
  have hsame : bs'' = bs := Hex.chars_injective
    ((Hex.chars_of_ofChars? hbs'').trans (Address.map_toLower_checksumDigits hlength'))
  rw [hsame] at hbs''
  exact address_eq_ok_iff.mpr ⟨_, bs, hchecksum, hforty, hbs'', rfl⟩

/-- A value passes the check exactly if it is an address. The result is the checksum form of its
bytes, which is the value in another case of its letters, the same for every case of them, and
passes the check unchanged. All other values are refused by an error about the field, except those
with a line end behind an address, which count as addresses, and those that cannot be shown. -/
theorem address_exact (v : Value) :
    (Address.isAddress v = true ↔ v.IsAddress ∨ v.IsAddressLine) ∧
    ∀ field,
      ((∃ t, address v field = .ok t) ↔ v.IsAddress) ∧
      (∀ t, address v field = .ok t ↔ ∃ digits bs, v.IsMarked digits [] ∧ digits.length = 40 ∧
        Hex.ofChars? digits = some bs ∧ t = Address.checksumText bs) ∧
      (∀ t, address v field = .ok t → ∃ s, v = .text s ∧ Text.lowered t = Text.lowered s ∧
        ∀ field', address (.text t) field' = .ok t ∧
          ∀ s', (Value.text s').IsAddress → Text.lowered s' = Text.lowered s →
            address (.text s') field' = .ok t) ∧
      (RefusesAddress field (address v field) ↔
        v.IsDecoded ∧ ¬v.IsAddress ∧ ¬v.IsAddressLine) ∧
      (address v field = .error (Failure.ofDefect .malformedValue) ↔
        ¬v.IsDecoded ∨ v.IsAddressLine) := by
  refine ⟨Address.isAddress_iff, fun field => ⟨?_, fun t => address_eq_ok_iff, fun t h => ?_,
    refusesAddress_iff, address_escapes_iff⟩⟩
  · constructor
    · rintro ⟨t, h⟩
      obtain ⟨digits, _, hmarked, hlength, _⟩ := address_eq_ok_iff.mp h
      exact ⟨digits, hmarked, hlength⟩
    · rintro ⟨digits, hmarked, hlength⟩
      obtain ⟨bs, hbs, _⟩ := Address.canonical_of_isMarked hmarked hlength
      exact ⟨_, address_eq_ok_iff.mpr ⟨digits, bs, hmarked, hlength, hbs, rfl⟩⟩
  · obtain ⟨s, rfl, _⟩ := address_eq_ok h
    exact ⟨s, rfl, lowered_address h, fun field' => ⟨address_fixed h, fun s' hs' hletters =>
      address_of_same_letters h hs' hletters⟩⟩

def addressLine : String := String.ofList ('0' :: 'x' :: List.replicate 40 '0' ++ ['\n'])

/-- Neither a line end behind an address nor a number of 4301 digits is refused by an error about
the address. -/
theorem other_values_escape :
    (Address.isAddress (.text addressLine) = true ∧ ¬(Value.text addressLine).IsAddress ∧
      address (.text addressLine) = .error (Failure.ofDefect .malformedValue) ∧
      ¬RefusesAddress "address" (address (.text addressLine))) ∧
    address (.int (Nat.pow 10 Number.digitLimit)) = .error (Failure.ofDefect .malformedValue) ∧
      ¬RefusesAddress "address" (address (.int (Nat.pow 10 Number.digitLimit))) := by
  have hline : (Value.text addressLine).IsAddressLine := by
    refine ⟨List.replicate 40 '0', ⟨rfl, fun c hc => ?_⟩, rfl⟩
    rw [List.eq_of_mem_replicate hc]
    decide
  have hlong : ¬(Value.int (Nat.pow 10 Number.digitLimit)).IsDecoded := Value.not_isDecoded_limit
  refine ⟨⟨Address.isAddress_iff.mpr (.inr hline), fun h => h.not_isAddressLine hline,
    address_escapes_iff.mpr (.inr hline), fun h => ?_⟩, address_escapes_iff.mpr (.inl hlong),
    fun h => ?_⟩
  · exact (refusesAddress_iff.mp h).2.2 hline
  · exact hlong (refusesAddress_iff.mp h).1

end Input
end EvmClient
