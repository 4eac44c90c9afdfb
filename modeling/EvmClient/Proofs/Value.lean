import EvmClient.Error
import EvmClient.Value.Text

/-!
# Values that can be written

A value is written with all that is in it. That fails for a whole number of more than 4300 digits,
however deep it lies, and for nothing else. A number that is read from a text is never that long, so
it can be written again. An error that shows a value has a message exactly if the value can be
written.
-/

set_option autoImplicit false

namespace EvmClient

/-- A value as a client of a node decodes it from the text that the node sends. A whole number of
more than 4300 digits is not read. -/
inductive Value.IsDecoded : Value → Prop where
  | null : IsDecoded .null
  | bool (b : Bool) : IsDecoded (.bool b)
  | int {i : Int} (h : i.natAbs < Nat.pow 10 Number.digitLimit) : IsDecoded (.int i)
  | float (x : Float) : IsDecoded (.float x)
  | text (s : String) : IsDecoded (.text s)
  | bytes (bs : List UInt8) : IsDecoded (.bytes bs)
  | list {items : List Value} (h : ∀ v ∈ items, v.IsDecoded) : IsDecoded (.list items)
  | tuple {items : List Value} (h : ∀ v ∈ items, v.IsDecoded) : IsDecoded (.tuple items)
  | dict {entries : Fields} (h : ∀ entry ∈ entries, entry.2.IsDecoded) : IsDecoded (.dict entries)

namespace Value

theorem exists_literals {items : List Value} (h : ∀ v ∈ items, ∃ s, v.literal? = some s) :
    ∃ parts, literals? items = some parts := by
  induction items with
  | nil => exact ⟨[], by simp [literals?]⟩
  | cons v rest ih =>
    obtain ⟨part, hpart⟩ := h v List.mem_cons_self
    obtain ⟨parts, hparts⟩ := ih fun w hw => h w (List.mem_cons_of_mem v hw)
    exact ⟨part :: parts, by simp [literals?, hpart, hparts]⟩

theorem exists_entryLiterals {entries : Fields}
    (h : ∀ entry ∈ entries, ∃ s, entry.2.literal? = some s) :
    ∃ parts, entryLiterals? entries = some parts := by
  induction entries with
  | nil => exact ⟨[], by simp [entryLiterals?]⟩
  | cons entry rest ih =>
    obtain ⟨name, v⟩ := entry
    obtain ⟨part, hpart⟩ := h (name, v) List.mem_cons_self
    obtain ⟨parts, hparts⟩ := ih fun w hw => h w (List.mem_cons_of_mem _ hw)
    exact ⟨_, by simp [entryLiterals?, hpart, hparts]; rfl⟩

theorem IsDecoded.exists_literal {v : Value} (h : v.IsDecoded) : ∃ s, v.literal? = some s := by
  induction h with
  | null => exact ⟨_, by rw [literal?]⟩
  | bool b => exact ⟨_, by rw [literal?]⟩
  | @int i h => exact ⟨toString i, by rw [literal?, Number.decimal?, if_pos h]⟩
  | float x => exact ⟨_, by rw [literal?]⟩
  | text s => exact ⟨_, by rw [literal?]⟩
  | bytes bs => exact ⟨_, by rw [literal?]⟩
  | list _ ih | tuple _ ih =>
    obtain ⟨parts, hparts⟩ := exists_literals ih
    exact ⟨_, by rw [literal?, hparts]; rfl⟩
  | dict _ ih =>
    obtain ⟨parts, hparts⟩ := exists_entryLiterals ih
    exact ⟨_, by rw [literal?, hparts]; rfl⟩

theorem IsDecoded.exists_text {v : Value} (h : v.IsDecoded) : ∃ s, v.text? = some s := by
  cases v with
  | text s => exact ⟨s, rfl⟩
  | _ => exact h.exists_literal

theorem IsDecoded.of_not_isTruthy {v : Value} (h : ¬v.isTruthy = true) : v.IsDecoded := by
  cases v with
  | null => exact .null
  | bool b => exact .bool b
  | int i =>
    have hi : i = 0 := by simpa [isTruthy] using h
    rw [hi]
    exact .int (by decide +kernel)
  | float x => exact .float x
  | text s => exact .text s
  | bytes bs => exact .bytes bs
  | list items =>
    have hitems : items = [] := by simpa [isTruthy] using h
    rw [hitems]
    exact .list (by simp)
  | tuple items =>
    have hitems : items = [] := by simpa [isTruthy] using h
    rw [hitems]
    exact .tuple (by simp)
  | dict entries =>
    have hentries : entries = [] := by simpa [isTruthy] using h
    rw [hentries]
    exact .dict (by simp)

mutual

theorem isDecoded_of_literal {v : Value} {s : String} (h : v.literal? = some s) :
    v.IsDecoded := by
  cases v with
  | null => exact .null
  | bool b => exact .bool b
  | int i =>
    rw [literal?] at h
    refine .int (Nat.lt_of_not_le fun hlarge => ?_)
    rw [(Number.decimal?_eq_none_iff i).mpr hlarge] at h
    cases h
  | float x => exact .float x
  | text t => exact .text t
  | bytes bs => exact .bytes bs
  | list items =>
    rw [literal?] at h
    obtain ⟨parts, hparts, _⟩ := Option.map_eq_some_iff.mp h
    exact .list (areDecoded_of_literals hparts)
  | tuple items =>
    rw [literal?] at h
    obtain ⟨parts, hparts, _⟩ := Option.map_eq_some_iff.mp h
    exact .tuple (areDecoded_of_literals hparts)
  | dict entries =>
    rw [literal?] at h
    obtain ⟨parts, hparts, _⟩ := Option.map_eq_some_iff.mp h
    exact .dict (areDecoded_of_entryLiterals hparts)

theorem areDecoded_of_literals {items : List Value} {parts : List String}
    (h : literals? items = some parts) : ∀ v ∈ items, v.IsDecoded := by
  cases items with
  | nil => simp
  | cons v rest =>
    rw [literals?] at h
    obtain ⟨part, hpart, h⟩ := Option.bind_eq_some_iff.mp h
    obtain ⟨others, hothers, _⟩ := Option.bind_eq_some_iff.mp h
    have hv := isDecoded_of_literal hpart
    have hrest := areDecoded_of_literals hothers
    intro w hw
    obtain rfl | hw := List.mem_cons.mp hw
    · exact hv
    · exact hrest w hw

theorem areDecoded_of_entryLiterals {entries : Fields} {parts : List String}
    (h : entryLiterals? entries = some parts) : ∀ entry ∈ entries, entry.2.IsDecoded := by
  cases entries with
  | nil => simp
  | cons entry rest =>
    obtain ⟨name, v⟩ := entry
    rw [entryLiterals?] at h
    obtain ⟨part, hpart, h⟩ := Option.bind_eq_some_iff.mp h
    obtain ⟨others, hothers, _⟩ := Option.bind_eq_some_iff.mp h
    have hv := isDecoded_of_literal hpart
    have hrest := areDecoded_of_entryLiterals hothers
    intro w hw
    obtain rfl | hw := List.mem_cons.mp hw
    · exact hv
    · exact hrest w hw

end

/-- Exactly the values without too long numbers can be written. -/
theorem exists_literal_iff {v : Value} : (∃ s, v.literal? = some s) ↔ v.IsDecoded :=
  ⟨fun h => isDecoded_of_literal h.choose_spec, IsDecoded.exists_literal⟩

theorem IsDecoded.exists_textOf {v : Value} (h : v.IsDecoded) : ∃ s, v.textOf = .ok s := by
  obtain ⟨s, hs⟩ := h.exists_text
  exact ⟨s, by rw [textOf, hs]; rfl⟩

theorem textOf_of_not_isDecoded {v : Value} (h : ¬v.IsDecoded) :
    v.textOf = .error .malformedValue := by
  have hnone : v.literal? = none := by
    rw [← Option.not_isSome_iff_eq_none, Option.isSome_iff_exists, exists_literal_iff]
    exact h
  have htext : v.text? = none := by
    cases v with
    | text s => exact absurd (.text s) h
    | _ => exact hnone
  rw [textOf, htext]
  rfl

end Value

/-! ## Numbers read from texts -/

namespace Number

theorem lt_of_decimalDigit? {c : Char} {d : Nat} (h : Text.decimalDigit? c = some d) : d < 10 := by
  obtain ⟨start, hstart, rfl⟩ := Option.map_eq_some_iff.mp h
  have hrange := List.find?_some hstart
  simp only [Bool.and_eq_true, decide_eq_true_eq] at hrange
  omega

theorem mem_digitRun? {digit? : Char → Option Nat} {cs : List Char} {ds : List Nat}
    (h : digitRun? digit? cs = some ds) : ∀ d ∈ ds, ∃ c, digit? c = some d := by
  fun_induction digitRun? digit? cs generalizing ds with
  | case1 =>
    cases h
    simp
  | case2 c rest ih | case3 c rest _ ih =>
    obtain ⟨first, hfirst, h⟩ := Option.bind_eq_some_iff.mp h
    obtain ⟨others, hothers, h⟩ := Option.bind_eq_some_iff.mp h
    cases h
    intro d hd
    obtain rfl | hd := List.mem_cons.mp hd
    · exact ⟨c, hfirst⟩
    · exact ih hothers d hd

theorem ofDigits_lt {base : Nat} {ds : List Nat} (h : ∀ d ∈ ds, d < base) :
    ofDigits base ds < Nat.pow base ds.length := by
  have hfold : ∀ acc,
      ds.foldl (fun acc d => base * acc + d) acc < Nat.pow base ds.length * (acc + 1) := by
    induction ds with
    | nil => simp
    | cons d ds ih =>
      intro acc
      have hd := h d List.mem_cons_self
      have hrest := ih (fun d' hd' => h d' (List.mem_cons_of_mem d hd')) (base * acc + d)
      have hstep : base * acc + d + 1 ≤ base * (acc + 1) := by
        rw [Nat.mul_add]
        omega
      calc (d :: ds).foldl (fun acc d => base * acc + d) acc
          < Nat.pow base ds.length * (base * acc + d + 1) := hrest
        _ ≤ Nat.pow base ds.length * (base * (acc + 1)) := Nat.mul_le_mul_left _ hstep
        _ = Nat.pow base (d :: ds).length * (acc + 1) := (Nat.mul_assoc _ _ _).symm
  simpa [ofDigits] using hfold 0

theorem ofDigits_lt_limit {ds : List Nat} (h : ∀ d ∈ ds, d < 10) {limit : Nat}
    (hlength : ds.length ≤ limit) : ofDigits 10 ds < Nat.pow 10 limit :=
  Nat.lt_of_lt_of_le (ofDigits_lt h) (Nat.pow_le_pow_right (by decide) hlength)

theorem natural?_lt {cs : List Char} {n : Nat} (h : natural? cs = some n) :
    n < Nat.pow 10 digitLimit := by
  obtain ⟨ds, hds, h⟩ := Option.bind_eq_some_iff.mp h
  have hrun : digitRun? Text.decimalDigit? cs = some ds := by
    unfold digits? at hds
    split at hds
    · cases hds
    · cases hds
    · exact hds
  have hdigits : ∀ d ∈ ds, d < 10 := fun d hd =>
    lt_of_decimalDigit? (mem_digitRun? hrun d hd).choose_spec
  split at h
  · rename_i hlength
    cases h
    exact ofDigits_lt_limit hdigits hlength
  · cases h

theorem natAbs_integer?_lt {s : String} {i : Int} (h : integer? s = some i) :
    i.natAbs < Nat.pow 10 digitLimit := by
  unfold integer? at h
  split at h
  · obtain ⟨i, hi, rfl⟩ := Option.map_eq_some_iff.mp h
    obtain ⟨n, hn, hi⟩ := Option.bind_eq_some_iff.mp hi
    cases hi
    simpa using natural?_lt hn
  all_goals
    obtain ⟨n, hn, rfl⟩ := Option.map_eq_some_iff.mp h
    exact natural?_lt hn

end Number

/-! ## Messages that show a value -/

theorem Value.IsDecoded.int_iff {i : Int} :
    (Value.int i).IsDecoded ↔ i.natAbs < Nat.pow 10 Number.digitLimit :=
  ⟨fun h => by cases h; assumption, .int⟩

theorem Value.not_isDecoded_limit : ¬(Value.int (Nat.pow 10 Number.digitLimit)).IsDecoded := by
  rw [IsDecoded.int_iff, Int.natAbs_natCast]
  exact Nat.lt_irrefl _

namespace ClientError

@[simp]
theorem isSome_withReason (message reason : String) :
    (withReason message (.text reason)).isSome = true := by
  unfold withReason
  split <;> rfl

theorem isSome_invalidMessage {v : Value} {field reason : String} :
    (invalidMessage v (.text field) (.text reason)).isSome = true ↔ v.IsDecoded := by
  rw [← Value.exists_literal_iff, ← Option.isSome_iff_exists]
  cases hv : v.literal? with
  | none => simp [invalidMessage, Value.text?, hv]
  | some shown => simp [invalidMessage, Value.text?, hv]

end ClientError

end EvmClient
