import EvmClient.Proofs.Path

/-!
# What a program may ask

`Asks P` says that every question of a program has a property, whatever the replies are. It is built
up along a program: each operation says which questions it adds, and `Asks.path` reads it off for
the paths.
-/

set_option autoImplicit false

namespace EvmClient

variable {α β : Type} {P Q : Question → Prop}

namespace Program

def Asks (P : Question → Prop) : Program α → Prop
  | done _ => True
  | ask q next => P q ∧ ∀ reply, (next reply).Asks P
  | tell _ next => next.Asks P

theorem Asks.bind {p : Program α} {f : α → Program β} (hp : p.Asks P) (hf : ∀ a, (f a).Asks P) :
    (p.bind f).Asks P := by
  induction p with
  | done a => exact hf a
  | ask q next ih => exact ⟨hp.1, fun reply => ih reply (hp.2 reply)⟩
  | tell n next ih => exact ih hp

theorem Asks.mono {p : Program α} (hp : p.Asks P) (h : ∀ q, P q → Q q) : p.Asks Q := by
  induction p with
  | done a => trivial
  | ask q next ih => exact ⟨h q hp.1, fun reply => ih reply (hp.2 reply)⟩
  | tell n next ih => exact ih hp

theorem Asks.path {p : Program α} {es : List Exchange} {a : α} (hp : p.Asks P)
    (h : p.Path es a) : ∀ q reply, .asked q reply ∈ es → P q := by
  induction p generalizing es with
  | done b =>
    obtain ⟨rfl, _⟩ := h
    simp
  | ask q next ih =>
    obtain ⟨reply, rest, rfl, h⟩ := h
    intro q' reply' hmem
    obtain heq | hmem := List.mem_cons.mp hmem
    · cases heq
      exact hp.1
    · exact ih reply (hp.2 reply) h q' reply' hmem
  | tell n next ih =>
    obtain ⟨rest, rfl, h⟩ := h
    intro q' reply' hmem
    obtain heq | hmem := List.mem_cons.mp hmem
    · cases heq
    · exact ih hp h q' reply' hmem

end Program

namespace Action

def Asks (P : Question → Prop) (x : Action α) : Prop := ∀ m, (x m).Asks P

namespace Asks

theorem mono {x : Action α} (hx : x.Asks P) (h : ∀ q, P q → Q q) : x.Asks Q :=
  fun m => (hx m).mono h

theorem path {x : Action α} {m m' : Memory} {es : List Exchange} {r : Except Failure α}
    (hx : x.Asks P) (h : x.Path m es r m') : ∀ q reply, .asked q reply ∈ es → P q :=
  (hx m).path h

theorem pure {a : α} : (Pure.pure a : Action α).Asks P := fun _ => trivial

theorem ofOutcome {o : Outcome α} : (ofOutcome o).Asks P := fun _ => trivial

theorem ofDefect {d : Except Defect α} : (ofDefect d).Asks P := fun _ => trivial

theorem fail {e : ClientError} : (fail e : Action α).Asks P := fun _ => trivial

theorem pass {failure : Failure} : (pass failure : Action α).Asks P := fun _ => trivial

theorem ask {q : Question} (h : P q) : (ask q).Asks P := fun _ => ⟨h, fun _ => trivial⟩

theorem query {q : Question} {f : Except Failure q.Answer → Outcome α} (h : P q) :
    (query q f).Asks P := fun _ => ⟨h, fun _ => trivial⟩

theorem tell {n : Notice} : (tell n).Asks P := fun _ => trivial

theorem log {severity : Severity} {logger message : String} {extra : Fields} :
    (log severity logger message extra).Asks P := tell

theorem memory : Action.memory.Asks P := fun _ => trivial

theorem setNextNonce {v : Value} : (setNextNonce v).Asks P := fun _ => trivial

theorem setChainId {v : Value} : (setChainId v).Asks P := fun _ => trivial

theorem bind {x : Action α} {f : α → Action β} (hx : x.Asks P) (hf : ∀ a, (f a).Asks P) :
    (x >>= f).Asks P := by
  intro m
  refine (hx m).bind ?_
  intro result
  obtain ⟨failure | a, m'⟩ := result
  · trivial
  · exact hf a m'

theorem map {x : Action α} {f : α → β} (hx : x.Asks P) :
    (x >>= fun a => Pure.pure (f a)).Asks P :=
  hx.bind fun _ => pure

theorem ofOutcome_bind {o : Outcome α} {f : α → Action β}
    (hf : ∀ a, o = .ok a → (f a).Asks P) : (Action.ofOutcome o >>= f).Asks P := by
  cases o with
  | error failure => exact fun _ => trivial
  | ok a => exact hf a rfl

theorem ofDefect_bind {d : Except Defect α} {f : α → Action β}
    (hf : ∀ a, d = .ok a → (f a).Asks P) : (Action.ofDefect d >>= f).Asks P := by
  cases d with
  | error defect => exact fun _ => trivial
  | ok a => exact hf a rfl

theorem attempt {x : Action α} (hx : x.Asks P) : (Action.attempt x).Asks P :=
  fun m => (hx m).bind fun _ => trivial

theorem ite {c : Prop} [Decidable c] {x y : Action α} (hx : c → x.Asks P) (hy : ¬c → y.Asks P) :
    (if c then x else y).Asks P := by
  by_cases h : c
  · rw [if_pos h]
    exact hx h
  · rw [if_neg h]
    exact hy h

end Asks
end Action
end EvmClient
