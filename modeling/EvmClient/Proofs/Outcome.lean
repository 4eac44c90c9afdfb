import EvmClient.Error

/-!
# Outcomes

How a sequence of computations that may fail comes to its result, and which failures tell what
became of a transaction.
-/

set_option autoImplicit false

namespace EvmClient

section

variable {ε α β : Type}

theorem bind_eq_ok {r : Except ε α} {f : α → Except ε β} {b : β} :
    r >>= f = .ok b ↔ ∃ a, r = .ok a ∧ f a = .ok b := by
  cases r with
  | error e =>
    constructor
    · intro h
      cases h
    · intro hx
      obtain ⟨a, h, _⟩ := hx
      cases h
  | ok a =>
    constructor
    · intro h
      exact ⟨a, rfl, h⟩
    · intro hx
      obtain ⟨_, h, hf⟩ := hx
      cases h
      exact hf

theorem bind_eq_error {r : Except ε α} {f : α → Except ε β} {e : ε} :
    r >>= f = .error e ↔ r = .error e ∨ ∃ a, r = .ok a ∧ f a = .error e := by
  cases r with
  | error e' =>
    constructor
    · intro h
      cases h
      exact .inl rfl
    · intro hx
      obtain h | ⟨a, h, _⟩ := hx
      · cases h
        rfl
      · cases h
  | ok a =>
    constructor
    · intro h
      exact .inr ⟨a, rfl, h⟩
    · intro hx
      obtain h | ⟨_, h, hf⟩ := hx
      · cases h
      · cases h
        exact hf

theorem bind_total_eq_error {r : Except ε α} {f : α → Except ε β} {e : ε}
    (hf : ∀ a, ∃ b, f a = .ok b) : r >>= f = .error e ↔ r = .error e := by
  rw [bind_eq_error]
  constructor
  · rintro (h | ⟨a, _, h⟩)
    · exact h
    · obtain ⟨b, hb⟩ := hf a
      cases hb.symm.trans h
  · exact .inl

theorem exists_ok_of_toBool {r : Except ε α} (h : r.toBool = true) : ∃ a, r = .ok a := by
  cases r with
  | error e => cases h
  | ok a => exact ⟨a, rfl⟩

theorem map_eq_ok {r : Except ε α} {f : α → β} {b : β} :
    r.map f = .ok b ↔ ∃ a, r = .ok a ∧ f a = b := by
  cases r <;> simp [Except.map]

end

variable {α β : Type}

theorem Outcome.ofDefect_eq_ok {d : Except Defect α} {a : α} :
    Outcome.ofDefect d = .ok a ↔ d = .ok a := by
  cases d <;> simp [Outcome.ofDefect]

theorem Outcome.ofDefect_eq_error {d : Except Defect α} {failure : Failure}
    (h : Outcome.ofDefect d = .error failure) : ∃ e, failure = Failure.ofDefect e := by
  cases d with
  | ok a => cases h
  | error e =>
    cases h
    exact ⟨e, rfl⟩

theorem fail_ne_ok {e : ClientError} {a : α} : (fail e : Outcome α) ≠ .ok a := by
  intro h
  cases h

/-- An outcome that is no error of these families. -/
def Avoids (families : List ErrorFamily) (r : Outcome α) : Prop :=
  ∀ e, r = .error (.client e) → e.family ∉ families

namespace Avoids

variable {families : List ErrorFamily}

theorem ok (a : α) : Avoids families (.ok a) := by
  intro e h
  cases h

theorem defect (d : Defect) : Avoids families (.error (Failure.ofDefect d) : Outcome α) := by
  intro e h
  cases h

theorem failed {failure : Failure} (h : Avoids families (.error failure : Outcome α)) :
    Avoids families (.error failure : Outcome β) := by
  intro e he
  cases he
  exact h e rfl

theorem ofDefect (d : Except Defect α) : Avoids families (Outcome.ofDefect d) := by
  cases d with
  | error d => exact defect d
  | ok a => exact ok a

theorem ofError {e : ClientError} (he : e.family ∉ families) :
    Avoids families (.error (Failure.ofError e) : Outcome α) := by
  unfold Failure.ofError
  by_cases hm : e.message?.isSome = true
  · rw [if_pos hm]
    intro e' h
    cases h
    exact he
  · rw [if_neg hm]
    exact defect _

theorem fail {e : ClientError} (he : e.family ∉ families) :
    Avoids families (EvmClient.fail e : Outcome α) := ofError he

theorem bind {r : Outcome α} {f : α → Outcome β} (h : Avoids families r)
    (hf : ∀ a, Avoids families (f a)) : Avoids families (r >>= f) := by
  intro e heq
  obtain hr | ⟨a, _, ha⟩ := bind_eq_error.mp heq
  · exact h e hr
  · exact hf a e ha

theorem ite {c : Prop} [Decidable c] {r s : Outcome α} (hr : Avoids families r)
    (hs : Avoids families s) : Avoids families (if c then r else s) := by
  by_cases h : c
  · rw [if_pos h]
    exact hr
  · rw [if_neg h]
    exact hs

end Avoids

/-- A failure that says what became of a transaction that was handed in. -/
def Failure.isSettlement : Failure → Bool
  | .client (.revertedTransaction ..) | .client (.transactionTimeout ..) => true
  | _ => false

def ErrorFamily.settlements : List ErrorFamily := [revertedTransaction, transactionTimeout]

theorem Failure.isSettlement_client (e : ClientError) :
    (client e).isSettlement = true ↔ e.family ∈ ErrorFamily.settlements := by
  cases e <;> simp [isSettlement, ClientError.family, ErrorFamily.settlements]

/-- An outcome that does not claim to know what became of a transaction. -/
def Plain (r : Outcome α) : Prop :=
  ∀ failure, r = .error failure → failure.isSettlement = false

theorem plain_iff {r : Outcome α} : Plain r ↔ Avoids ErrorFamily.settlements r := by
  constructor
  · intro h e hr hmem
    rw [← Failure.isSettlement_client, h _ hr] at hmem
    cases hmem
  · intro h failure hr
    rcases failure with e | _ | _
    · rw [← Bool.not_eq_true, Failure.isSettlement_client]
      exact h e hr
    · rfl
    · rfl

theorem Failure.isSettlement_ofError {e : ClientError} (h : (client e).isSettlement = false) :
    (ofError e).isSettlement = false := by
  have he : e.family ∉ ErrorFamily.settlements := by
    rw [← isSettlement_client, h]
    exact Bool.false_ne_true
  have hplain : Plain (.error (ofError e) : Outcome Unit) := plain_iff.mpr (.ofError he)
  exact hplain _ rfl

namespace Plain

theorem ok (a : α) : Plain (.ok a) := plain_iff.mpr (.ok a)

theorem ofDefect (d : Except Defect α) : Plain (Outcome.ofDefect d) := plain_iff.mpr (.ofDefect d)

theorem bind {r : Outcome α} {f : α → Outcome β} (h : Plain r) (hf : ∀ a, Plain (f a)) :
    Plain (r >>= f) :=
  plain_iff.mpr (.bind (plain_iff.mp h) fun a => plain_iff.mp (hf a))

end Plain

/-! ## Errors of one kind -/

theorem fail_of_message {e : ClientError} (h : e.message?.isSome = true) :
    (fail e : Outcome α) = .error (.client e) := by
  rw [fail, Failure.ofError, if_pos h]

theorem fail_of_no_message {e : ClientError} (h : ¬e.message?.isSome = true) :
    (fail e : Outcome α) = .error (Failure.ofDefect .malformedValue) := by
  rw [fail, Failure.ofError, if_neg h]

inductive FailureKind where
  | client (family : ErrorFamily)
  | fault (f : Fault)
  | settings
  deriving DecidableEq, Repr

def Failure.kind : Failure → FailureKind
  | client e => .client e.family
  | fault f => .fault f
  | settings _ => .settings

namespace Outcome

def classified (r : Outcome α) : Except FailureKind α := r.mapError Failure.kind

theorem classified_bind {r s : Outcome α} {f g : α → Outcome β} (h : r.classified = s.classified)
    (hf : ∀ a, (f a).classified = (g a).classified) :
    (r >>= f).classified = (s >>= g).classified := by
  cases r with
  | error failure =>
    cases s with
    | error failure' =>
      have hkind : failure.kind = failure'.kind := Except.error.inj h
      exact congrArg Except.error hkind
    | ok a => cases h
  | ok a =>
    cases s with
    | error failure => cases h
    | ok a' =>
      cases h
      exact hf a

theorem classified_fail {e e' : ClientError} (hfamily : e.family = e'.family)
    (hmessage : e.message?.isSome = e'.message?.isSome) :
    (fail e : Outcome α).classified = (fail e' : Outcome α).classified := by
  by_cases hm : e'.message?.isSome = true
  · rw [fail_of_message hm, fail_of_message (hmessage.trans hm)]
    exact congrArg (Except.error ∘ FailureKind.client) hfamily
  · rw [fail_of_no_message hm, fail_of_no_message (hmessage ▸ hm)]

theorem classified_bind_map {γ : Type} {r : Outcome β} {s : Outcome α} {g : α → β}
    {f : β → Outcome γ} {f' : α → Outcome γ} (h : r.classified = classified (s.map g))
    (hf : ∀ a, (f (g a)).classified = (f' a).classified) :
    (r >>= f).classified = (s >>= f').classified := by
  have hmap : s.map g >>= f = s >>= fun a => f (g a) := by cases s <;> rfl
  rw [classified_bind h fun _ => rfl, hmap, classified_bind rfl hf]

theorem map_bind {γ : Type} (r : Outcome α) (f : α → Outcome β) (g : β → γ) :
    (r >>= f).map g = r >>= fun a => (f a).map g := by
  cases r <;> rfl

end Outcome

end EvmClient
