import EvmClient.Gas
import EvmClient.Proofs.Outcome
import EvmClient.Proofs.Path

/-!
# Gas limits

A limit is a constant, a function of the request or what a node estimates for the request. Only an
estimate asks, and it asks once: all that is said of limits is read off `GasLimit.Evaluates`.
-/

set_option autoImplicit false

namespace EvmClient.GasLimit

variable {m m' : Memory} {es : List Exchange} {request : TransactionRequest}
variable {r : Except Failure Int}

def replyLimit (factor cap : Value) (reply : Except Failure Value) : Outcome Int := do
  let given ← Outcome.ofDefect (ofEstimate (← reply) factor cap)
  Outcome.ofDefect given.wholeNumber

/-- What a limit comes to for a request, and what is asked for it. -/
inductive Evaluates (request : TransactionRequest) :
    GasLimit → List Exchange → Outcome Int → Prop where
  | constant (v : Value) :
      Evaluates request (.constant v) [] (Outcome.ofDefect v.wholeNumber)
  | computed (f : TransactionRequest → Outcome Value) :
      Evaluates request (.computed f) []
        (f request >>= fun given => Outcome.ofDefect given.wholeNumber)
  | estimated (factor cap : Value) (reply : Except Failure Value) :
      Evaluates request (.estimated factor cap) [.asked (.estimate request.parameters) reply]
        (replyLimit factor cap reply)

theorem Evaluates.of_constant {limit : GasLimit} {v : Value} {given known : Int}
    (h : Evaluates request limit es (.ok given)) (hl : limit = .constant v)
    (hv : v.wholeNumber = .ok known) : es = [] ∧ given = known := by
  subst hl
  generalize hr : (.ok given : Outcome Int) = r at h
  cases h
  rw [hv] at hr
  exact ⟨rfl, Except.ok.inj hr⟩

theorem Evaluates.failed {limit : GasLimit} {failure : Failure}
    (h : Evaluates request limit es (.error failure)) :
    (∃ f, limit = .computed f ∧ f request = .error failure) ∨
      .asked (.estimate request.parameters) (.error failure) ∈ es ∨
      ∃ d, failure = Failure.ofDefect d := by
  generalize hr : (.error failure : Outcome Int) = r at h
  cases h with
  | constant v => exact .inr (.inr (Outcome.ofDefect_eq_error hr.symm))
  | computed f =>
    obtain hf | ⟨given, _, hg⟩ := bind_eq_error.mp hr.symm
    · exact .inl ⟨f, rfl, hf⟩
    · exact .inr (.inr (Outcome.ofDefect_eq_error hg))
  | estimated factor cap reply =>
    obtain rfl | ⟨estimate, _, hg⟩ := bind_eq_error.mp hr.symm
    · exact .inr (.inl (List.mem_singleton_self _))
    · obtain hg | ⟨given, _, hg⟩ := bind_eq_error.mp hg
      · exact .inr (.inr (Outcome.ofDefect_eq_error hg))
      · exact .inr (.inr (Outcome.ofDefect_eq_error hg))

theorem resolve_computed {f : TransactionRequest → Outcome Value} :
    (computed f).resolve (some request) =
      Action.ofOutcome (f request >>= fun given => Outcome.ofDefect given.wholeNumber) :=
  Action.ofOutcome_bind (f request) fun given => Outcome.ofDefect given.wholeNumber

theorem resolve_estimated {factor cap : Value} :
    (estimated factor cap).resolve (some request) =
      Action.query (.estimate request.parameters) (replyLimit factor cap) := by
  funext m
  refine congrArg (Program.ask _) (funext fun reply => ?_)
  rcases reply with failure | estimate
  · rfl
  · exact congrFun (Action.ofOutcome_bind (Outcome.ofDefect (ofEstimate estimate factor cap))
      fun given => Outcome.ofDefect given.wholeNumber) m

theorem resolve_path {limit : GasLimit} :
    (limit.resolve (some request)).Path m es r m' ↔ Evaluates request limit es r ∧ m' = m := by
  cases limit with
  | constant v =>
    refine Action.path_ofDefect.trans ⟨?_, ?_⟩
    · intro h
      obtain ⟨rfl, rfl, hm⟩ := h
      exact ⟨.constant v, hm⟩
    · intro h
      obtain ⟨h, hm⟩ := h
      cases h
      exact ⟨rfl, rfl, hm⟩
  | computed f =>
    rw [resolve_computed, Action.path_ofOutcome]
    constructor
    · intro h
      obtain ⟨rfl, rfl, hm⟩ := h
      exact ⟨.computed f, hm⟩
    · intro h
      obtain ⟨h, hm⟩ := h
      cases h
      exact ⟨rfl, rfl, hm⟩
  | estimated factor cap =>
    rw [resolve_estimated, Action.path_query]
    constructor
    · intro h
      obtain ⟨reply, rfl, rfl, hm⟩ := h
      exact ⟨.estimated factor cap reply, hm⟩
    · intro h
      obtain ⟨h, hm⟩ := h
      cases h with
      | estimated _ _ reply => exact ⟨reply, rfl, rfl, hm⟩

end EvmClient.GasLimit
