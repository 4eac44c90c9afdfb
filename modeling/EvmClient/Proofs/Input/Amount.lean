import EvmClient.Input
import EvmClient.Proofs.Outcome
import EvmClient.Proofs.Value

/-!
# Amounts

An amount is a whole number between zero and a maximum, given as a number or as a text. What is none
is refused by an error that shows it, unless the error cannot show it because a number in it is too
long.
-/

set_option autoImplicit false

namespace EvmClient

namespace Input

/-- The whole number that a value stands for where an amount is asked for. -/
inductive Denotes : Value → Int → Prop where
  | number (i : Int) : Denotes (.int i) i
  | text {s : String} {i : Int} (h : Number.integer? s = some i) : Denotes (.text s) i

/-- The value stands for this amount, which is not above the maximum. -/
structure IsAmount (maximum : Int) (v : Value) (n : Int) : Prop where
  denotes : Denotes v n
  nonneg : 0 ≤ n
  le : n ≤ maximum

def RefusesAmount {α : Type} (field : String) (r : Outcome α) : Prop :=
  ∃ shown reason, r = .error (.client (.invalidAmount shown (.text field) (.text reason)))

/-- All that an error about a refused amount has to show can be written: the value, and the maximum
where the amount is beyond it. -/
def CanRefuse (maximum : Int) (v : Value) : Prop :=
  v.IsDecoded ∧ ∀ n, Denotes v n → 0 ≤ n → maximum < n → (Value.int maximum).IsDecoded

variable {α : Type} {v shown : Value} {n maximum : Int} {field reason : String}

theorem amountNumber_eq_ok : amountNumber v = .ok n ↔ Denotes v n := by
  constructor
  · intro h
    cases v with
    | int i =>
      cases h
      exact .number _
    | text s =>
      cases hs : Number.integer? s with
      | none =>
        rw [amountNumber, hs] at h
        cases h
      | some i =>
        rw [amountNumber, hs] at h
        cases h
        exact .text hs
    | _ => cases h
  · intro h
    cases h with
    | number i => rfl
    | text h => rw [amountNumber, h]; rfl

theorem Denotes.unique {n' : Int} (h : Denotes v n) (h' : Denotes v n') : n = n' := by
  have hsame := (amountNumber_eq_ok.mpr h).symm.trans (amountNumber_eq_ok.mpr h')
  exact Except.ok.inj hsame

theorem Denotes.isDecoded_iff (h : Denotes v n) : v.IsDecoded ↔ (Value.int n).IsDecoded := by
  cases h with
  | number i => rfl
  | text h => exact iff_of_true (.text _) (.int (Number.natAbs_integer?_lt h))

theorem refuse_cases (field reason : String) (shown : Value) :
    (shown.IsDecoded ∧ RefusesAmount (α := α) field
      (fail (.invalidAmount shown (.text field) (.text reason)))) ∨
    (¬shown.IsDecoded ∧ (fail (.invalidAmount shown (.text field) (.text reason)) : Outcome α) =
      .error (Failure.ofDefect .malformedValue)) := by
  have hmessage : (ClientError.invalidAmount shown (.text field) (.text reason)).message?.isSome =
      true ↔ shown.IsDecoded := by
    rw [ClientError.message?, Option.isSome_map]
    exact ClientError.isSome_invalidMessage
  by_cases hshown : shown.IsDecoded
  · exact .inl ⟨hshown, shown, reason, fail_of_message (hmessage.mpr hshown)⟩
  · exact .inr ⟨hshown, fail_of_no_message (mt hmessage.mp hshown)⟩

theorem amount_of_not_denotes (h : ∀ n, ¬Denotes v n) (field : String) (maximum : Value) :
    ∃ reason, amount v field maximum = fail (.invalidAmount v (.text field) (.text reason)) := by
  cases hn : amountNumber v with
  | error reason => exact ⟨reason, by rw [amount, hn]⟩
  | ok n => exact absurd (amountNumber_eq_ok.mp hn) (h n)

theorem amount_of_denotes (h : Denotes v n) (field : String) (maximum : Int) :
    amount v field (.int maximum) =
      if n < 0 then fail (.invalidAmount (.int n) (.text field) (.text "cannot be negative"))
      else if maximum < n then do
        let limit ← Outcome.ofDefect (Value.int maximum).textOf
        fail (.invalidAmount (.int n) (.text field) (.text s!"exceeds maximum allowed ({limit})"))
      else .ok n := by
  rw [amount, amountNumber_eq_ok.mpr h]
  have hless : (Value.int maximum).isLess (.int n) = .ok (decide (maximum < n)) := rfl
  simp only [hless, Outcome.ofDefect, bind, Except.bind, decide_eq_true_eq]
  rfl

theorem Denotes.canRefuse_iff (h : Denotes v n) : CanRefuse maximum v ↔
    (Value.int n).IsDecoded ∧ (0 ≤ n → maximum < n → (Value.int maximum).IsDecoded) := by
  rw [CanRefuse, h.isDecoded_iff]
  refine and_congr_right fun _ => ⟨fun hall => hall n h, fun hone m hm => ?_⟩
  cases hm.unique h
  exact hone

theorem amount_cases_of_denotes (h : Denotes v n) (hout : ¬(0 ≤ n ∧ n ≤ maximum))
    (field : String) :
    (CanRefuse maximum v ∧ RefusesAmount field (amount v field (.int maximum))) ∨
    (¬CanRefuse maximum v ∧
      amount v field (.int maximum) = .error (Failure.ofDefect .malformedValue)) := by
  rw [amount_of_denotes h, h.canRefuse_iff]
  by_cases hneg : n < 0
  · rw [if_pos hneg, and_iff_left fun hpos => absurd hpos (Int.not_le.mpr hneg)]
    exact refuse_cases field _ (.int n)
  · have hlarge : maximum < n := by omega
    rw [if_neg hneg, if_pos hlarge]
    by_cases hmaximum : (Value.int maximum).IsDecoded
    · obtain ⟨limit, hlimit⟩ := hmaximum.exists_textOf
      rw [hlimit, and_iff_left fun _ _ => hmaximum]
      exact refuse_cases field _ (.int n)
    · rw [Value.textOf_of_not_isDecoded hmaximum]
      exact .inr ⟨fun hcan => hmaximum (hcan.2 (Int.not_lt.mp hneg) hlarge), rfl⟩

theorem amount_cases (v : Value) (field : String) (maximum : Int) :
    (∃ n, IsAmount maximum v n ∧ amount v field (.int maximum) = .ok n) ∨
    (¬∃ n, IsAmount maximum v n) ∧
      ((CanRefuse maximum v ∧ RefusesAmount field (amount v field (.int maximum))) ∨
        (¬CanRefuse maximum v ∧
          amount v field (.int maximum) = .error (Failure.ofDefect .malformedValue))) := by
  by_cases hv : ∃ n, Denotes v n
  · obtain ⟨n, hn⟩ := hv
    by_cases hrange : 0 ≤ n ∧ n ≤ maximum
    · refine .inl ⟨n, ⟨hn, hrange.1, hrange.2⟩, ?_⟩
      rw [amount_of_denotes hn, if_neg (Int.not_lt.mpr hrange.1), if_neg (Int.not_lt.mpr hrange.2)]
    · refine .inr ⟨fun ⟨m, hm⟩ => hrange ?_, amount_cases_of_denotes hn hrange field⟩
      cases hm.denotes.unique hn
      exact ⟨hm.nonneg, hm.le⟩
  · rw [not_exists] at hv
    obtain ⟨reason, hreason⟩ := amount_of_not_denotes hv field (.int maximum)
    rw [hreason]
    have hcan : CanRefuse maximum v ↔ v.IsDecoded :=
      and_iff_left fun n hn => absurd hn (hv n)
    rw [hcan]
    exact .inr ⟨fun ⟨n, hn⟩ => hv n hn.denotes, refuse_cases field reason v⟩

theorem isAmount_of_amount (h : amount v field (.int maximum) = .ok n) : IsAmount maximum v n := by
  obtain ⟨n', hn', heq⟩ | ⟨_, ⟨_, _, _, heq⟩ | ⟨_, heq⟩⟩ := amount_cases v field maximum
  · cases h.symm.trans heq
    exact hn'
  · cases h.symm.trans heq
  · cases h.symm.trans heq

theorem amount_eq_ok : amount v field (.int maximum) = .ok n ↔ IsAmount maximum v n := by
  refine ⟨isAmount_of_amount, fun hn => ?_⟩
  obtain ⟨n', hn', heq⟩ | ⟨hnone, _⟩ := amount_cases v field maximum
  · rw [heq, hn'.denotes.unique hn.denotes]
  · exact absurd ⟨n, hn⟩ hnone

theorem refusesAmount_iff : RefusesAmount field (amount v field (.int maximum)) ↔
    (¬∃ n, IsAmount maximum v n) ∧ CanRefuse maximum v := by
  obtain ⟨n, hn, heq⟩ | ⟨hnone, ⟨hcan, hrefused⟩ | ⟨hcan, heq⟩⟩ := amount_cases v field maximum
  · refine iff_of_false ?_ fun h => h.1 ⟨n, hn⟩
    rw [heq]
    rintro ⟨_, _, h⟩
    cases h
  · exact iff_of_true hrefused ⟨hnone, hcan⟩
  · refine iff_of_false ?_ fun h => hcan h.2
    rw [heq]
    rintro ⟨_, _, h⟩
    cases h

theorem amount_escapes_iff :
    amount v field (.int maximum) = .error (Failure.ofDefect .malformedValue) ↔
      (¬∃ n, IsAmount maximum v n) ∧ ¬CanRefuse maximum v := by
  obtain ⟨n, hn, heq⟩ | ⟨hnone, ⟨hcan, _, _, heq⟩ | ⟨hcan, heq⟩⟩ := amount_cases v field maximum
  · rw [heq]
    exact iff_of_false nofun fun h => h.1 ⟨n, hn⟩
  · rw [heq]
    exact iff_of_false nofun fun h => h.2 hcan
  · exact iff_of_true heq ⟨hnone, hcan⟩

theorem canRefuse_maxAmount : CanRefuse maxAmount v ↔ v.IsDecoded := by
  have hmaximum : (Value.int maxAmount).IsDecoded := .int (by decide +kernel)
  exact and_iff_left fun _ _ _ _ => hmaximum

end Input
end EvmClient
