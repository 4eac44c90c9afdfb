import EvmClient.Action

/-!
# Paths through programs

A path is one way in which a program can go: its questions with the replies they got, its notices in
between, and the result at the end. Every run against a collaborator follows a path, so what holds
on all paths holds whatever collaborators reply.
-/

set_option autoImplicit false

namespace EvmClient

inductive Exchange where
  | asked (q : Question) (reply : Except Failure q.Answer)
  | told (n : Notice)

namespace Program

variable {α β : Type}

/-- A program can take these steps and end with this result. -/
def Path : Program α → List Exchange → α → Prop
  | done a, es, b => es = [] ∧ b = a
  | ask q next, es, b => ∃ reply rest, es = .asked q reply :: rest ∧ Path (next reply) rest b
  | tell n next, es, b => ∃ rest, es = .told n :: rest ∧ Path next rest b

theorem path_bind (p : Program α) (f : α → Program β) (es : List Exchange) (b : β) :
    (p.bind f).Path es b ↔
      ∃ a es₁ es₂, es = es₁ ++ es₂ ∧ p.Path es₁ a ∧ (f a).Path es₂ b := by
  induction p generalizing es with
  | done a =>
    constructor
    · intro h
      exact ⟨a, [], es, rfl, ⟨rfl, rfl⟩, h⟩
    · intro hx
      obtain ⟨a, es₁, es₂, rfl, ⟨rfl, rfl⟩, h⟩ := hx
      exact h
  | ask q next ih =>
    constructor
    · intro hx
      obtain ⟨reply, rest, rfl, h⟩ := hx
      obtain ⟨a, es₁, es₂, rfl, hp, hf⟩ := (ih reply rest).mp h
      exact ⟨a, .asked q reply :: es₁, es₂, rfl, ⟨reply, es₁, rfl, hp⟩, hf⟩
    · intro hx
      obtain ⟨a, es₁, es₂, rfl, ⟨reply, rest, rfl, hp⟩, hf⟩ := hx
      exact ⟨reply, rest ++ es₂, rfl, (ih reply _).mpr ⟨a, rest, es₂, rfl, hp, hf⟩⟩
  | tell n next ih =>
    constructor
    · intro hx
      obtain ⟨rest, rfl, h⟩ := hx
      obtain ⟨a, es₁, es₂, rfl, hp, hf⟩ := (ih rest).mp h
      exact ⟨a, .told n :: es₁, es₂, rfl, ⟨es₁, rfl, hp⟩, hf⟩
    · intro hx
      obtain ⟨a, es₁, es₂, rfl, ⟨rest, rfl, hp⟩, hf⟩ := hx
      exact ⟨rest ++ es₂, rfl, (ih _).mpr ⟨a, rest, es₂, rfl, hp, hf⟩⟩

theorem path_rest (p : Program α) (f : α → Program β) (es rest : List Exchange) (a : α) (b : β)
    (h : p.Path es a) (h' : (p.bind f).Path (es ++ rest) b) : (f a).Path rest b := by
  induction p generalizing es with
  | done c =>
    obtain ⟨rfl, rfl⟩ := h
    exact h'
  | ask q next ih =>
    obtain ⟨reply, es₁, rfl, h⟩ := h
    obtain ⟨reply', es₂, heq, h'⟩ := h'
    cases heq
    exact ih reply es₁ h h'
  | tell n next ih =>
    obtain ⟨es₁, rfl, h⟩ := h
    obtain ⟨es₂, heq, h'⟩ := h'
    cases heq
    exact ih es₁ h h'

/-- A path cannot be left once it has been taken: the replies decide all that follows. -/
theorem path_unique (p : Program α) (es rest : List Exchange) (a b : α)
    (h : p.Path es a) (h' : p.Path (es ++ rest) b) : rest = [] ∧ b = a := by
  rw [← bind_done p] at h'
  exact path_rest p done es rest a b h h'

/-- Of one run a program takes one part and gives one result. -/
theorem path_determined {p : Program α} {es₁ es₂ rest₁ rest₂ : List Exchange} {a b : α}
    (h₁ : p.Path es₁ a) (h₂ : p.Path es₂ b) (h : es₁ ++ rest₁ = es₂ ++ rest₂) :
    es₁ = es₂ ∧ a = b := by
  obtain ⟨rest, rfl, _⟩ | ⟨rest, rfl, _⟩ := List.append_eq_append_iff.mp h
  · obtain ⟨rfl, rfl⟩ := path_unique p es₁ rest a b h₁ h₂
    exact ⟨(List.append_nil es₁).symm, rfl⟩
  · obtain ⟨rfl, rfl⟩ := path_unique p es₂ rest b a h₂ h₁
    exact ⟨List.append_nil es₂, rfl⟩

theorem bind_congr_of_path {p : Program α} {f g : α → Program β}
    (h : ∀ es a, p.Path es a → f a = g a) : p.bind f = p.bind g := by
  induction p with
  | done a => exact h [] a ⟨rfl, rfl⟩
  | ask q next ih =>
    refine congrArg (ask q) (funext fun reply => ih reply fun es a hp => ?_)
    exact h (.asked q reply :: es) a ⟨reply, es, rfl, hp⟩
  | tell n next ih =>
    exact congrArg (tell n) (ih fun es a hp => h (.told n :: es) a ⟨es, rfl, hp⟩)

def history {σ : Type} (answer : (q : Question) → σ → Except Failure q.Answer × σ) :
    Program α → σ → List Exchange
  | done _, _ => []
  | ask q next, s => .asked q (answer q s).1 :: history answer (next (answer q s).1) (answer q s).2
  | tell n next, s => .told n :: history answer next s

theorem path_history {σ : Type} (answer : (q : Question) → σ → Except Failure q.Answer × σ)
    (p : Program α) (s : σ) : p.Path (p.history answer s) (p.run answer s).1 := by
  induction p generalizing s with
  | done a => exact ⟨rfl, rfl⟩
  | ask q next ih => exact ⟨_, _, rfl, ih _ _⟩
  | tell n next ih => exact ⟨_, rfl, ih _⟩

end Program

namespace Action

variable {α β : Type}

def Path (x : Action α) (m : Memory) (es : List Exchange) (r : Except Failure α) (m' : Memory) :
    Prop :=
  (x m).Path es (r, m')

theorem exists_path (x : Action α) (m : Memory) : ∃ es r m', x.Path m es r m' :=
  ⟨_, _, _, Program.path_history (fun _ _ => (.error (.fault (.raised "")), ())) (x m) ()⟩

variable {m m' : Memory} {es : List Exchange}

@[simp]
theorem path_pure {a : α} {r : Except Failure α} :
    (Pure.pure a : Action α).Path m es r m' ↔ es = [] ∧ r = .ok a ∧ m' = m := by
  simp only [Path, Pure.pure, Action.pure, Program.Path, Prod.mk.injEq]

theorem path_bind {x : Action α} {f : α → Action β} {r : Except Failure β} :
    (x >>= f).Path m es r m' ↔
      (∃ failure, x.Path m es (.error failure) m' ∧ r = .error failure) ∨
      ∃ a m₁ es₁ es₂, es = es₁ ++ es₂ ∧ x.Path m es₁ (.ok a) m₁ ∧ (f a).Path m₁ es₂ r m' := by
  simp only [Path, bind_apply, Program.path_bind]
  constructor
  · intro hx
    obtain ⟨⟨r₁ | a, m₁⟩, es₁, es₂, rfl, hx, hf⟩ := hx
    · obtain ⟨rfl, heq⟩ := hf
      cases heq
      rw [List.append_nil]
      exact .inl ⟨r₁, hx, rfl⟩
    · exact .inr ⟨a, m₁, es₁, es₂, rfl, hx, hf⟩
  · intro hx
    obtain ⟨failure, hx, rfl⟩ | ⟨a, m₁, es₁, es₂, rfl, hx, hf⟩ := hx
    · exact ⟨(.error failure, m'), es, [], (List.append_nil es).symm, hx, rfl, rfl⟩
    · exact ⟨(.ok a, m₁), es₁, es₂, rfl, hx, hf⟩

theorem path_rest {x : Action α} {f : α → Action β} {a : α} {m₁ : Memory} {rest : List Exchange}
    {r : Except Failure β} (h : x.Path m es (.ok a) m₁)
    (h' : (x >>= f).Path m (es ++ rest) r m') : (f a).Path m₁ rest r m' :=
  Program.path_rest (x m) _ es rest (.ok a, m₁) (r, m') h h'

theorem not_path_error_of_ok {x : Action α} {a : α} {failure : Failure} {m₁ m₂ : Memory}
    {rest : List Exchange} (h : x.Path m es (.ok a) m₁) :
    ¬x.Path m (es ++ rest) (.error failure) m₂ := by
  intro h'
  cases (Program.path_unique (x m) es rest _ _ h h').2

theorem path_ask {q : Question} {r : Except Failure q.Answer} :
    (ask q).Path m es r m' ↔ es = [.asked q r] ∧ m' = m := by
  simp only [Path, ask, Program.Path, Prod.mk.injEq]
  constructor
  · intro hx
    obtain ⟨reply, rest, rfl, rfl, rfl, rfl⟩ := hx
    exact ⟨rfl, rfl⟩
  · intro hx
    obtain ⟨rfl, rfl⟩ := hx
    exact ⟨r, [], rfl, rfl, rfl, rfl⟩

@[simp]
theorem path_tell {n : Notice} {r : Except Failure Unit} :
    (tell n).Path m es r m' ↔ es = [.told n] ∧ r = .ok () ∧ m' = m := by
  simp only [Path, tell, Program.Path, Prod.mk.injEq]
  constructor
  · intro hx
    obtain ⟨rest, rfl, rfl, rfl, rfl⟩ := hx
    exact ⟨rfl, rfl, rfl⟩
  · intro hx
    obtain ⟨rfl, rfl, rfl⟩ := hx
    exact ⟨[], rfl, rfl, rfl, rfl⟩

@[simp]
theorem path_ofOutcome {o : Outcome α} {r : Except Failure α} :
    (ofOutcome o).Path m es r m' ↔ es = [] ∧ r = o ∧ m' = m := by
  simp only [Path, ofOutcome, Program.Path, Prod.mk.injEq]

@[simp]
theorem path_ofDefect {d : Except Defect α} {r : Except Failure α} :
    (ofDefect d).Path m es r m' ↔ es = [] ∧ r = Outcome.ofDefect d ∧ m' = m :=
  path_ofOutcome

@[simp]
theorem path_fail {e : ClientError} {r : Except Failure α} :
    (fail e).Path m es r m' ↔ es = [] ∧ r = EvmClient.fail e ∧ m' = m :=
  path_ofOutcome

@[simp]
theorem path_pass {failure : Failure} {r : Except Failure α} :
    (pass failure).Path m es r m' ↔ es = [] ∧ r = .error failure ∧ m' = m :=
  path_ofOutcome

@[simp]
theorem path_attempt {x : Action α} {r : Except Failure (Except Failure α)} :
    (attempt x).Path m es r m' ↔ ∃ r₁, r = .ok r₁ ∧ x.Path m es r₁ m' := by
  simp only [Path, attempt, Program.map, Program.path_bind, Program.Path]
  constructor
  · intro hx
    obtain ⟨⟨r₁, m₁⟩, es₁, es₂, rfl, hx, rfl, heq⟩ := hx
    cases heq
    rw [List.append_nil]
    exact ⟨r₁, rfl, hx⟩
  · intro hx
    obtain ⟨r₁, rfl, hx⟩ := hx
    exact ⟨(r₁, m'), es, [], (List.append_nil es).symm, hx, rfl, rfl⟩

@[simp]
theorem path_memory {r : Except Failure Memory} :
    memory.Path m es r m' ↔ es = [] ∧ r = .ok m ∧ m' = m := by
  simp only [Path, memory, Program.Path, Prod.mk.injEq]

@[simp]
theorem path_setNextNonce {v : Value} {r : Except Failure Unit} :
    (setNextNonce v).Path m es r m' ↔ es = [] ∧ r = .ok () ∧ m' = { m with nextNonce := v } := by
  simp only [Path, setNextNonce, Program.Path, Prod.mk.injEq]

@[simp]
theorem path_setChainId {v : Value} {r : Except Failure Unit} :
    (setChainId v).Path m es r m' ↔ es = [] ∧ r = .ok () ∧ m' = { m with chainId := v } := by
  simp only [Path, setChainId, Program.Path, Prod.mk.injEq]

theorem ofOutcome_bind (o : Outcome α) (g : α → Outcome β) :
    (ofOutcome o >>= fun a => ofOutcome (g a)) = ofOutcome (o >>= g) := by
  cases o <;> rfl

theorem path_ite {c : Prop} [Decidable c] {x y : Action α} {r : Except Failure α} :
    (if c then x else y).Path m es r m' ↔
      (c ∧ x.Path m es r m') ∨ (¬c ∧ y.Path m es r m') := by
  by_cases h : c <;> simp [h]

def query (q : Question) (f : Except Failure q.Answer → Outcome α) : Action α :=
  fun m => .ask q fun reply => .done (f reply, m)

@[simp]
theorem path_query {q : Question} {f : Except Failure q.Answer → Outcome α}
    {r : Except Failure α} :
    (query q f).Path m es r m' ↔ ∃ reply, es = [.asked q reply] ∧ r = f reply ∧ m' = m := by
  simp only [Path, query, Program.Path, Prod.mk.injEq]
  constructor
  · intro hx
    obtain ⟨reply, rest, rfl, rfl, rfl, rfl⟩ := hx
    exact ⟨reply, rfl, rfl, rfl⟩
  · intro hx
    obtain ⟨reply, rfl, rfl, rfl⟩ := hx
    exact ⟨reply, [], rfl, rfl, rfl, rfl⟩

theorem attempt_ask_bind {q : Question} {k : Except Failure q.Answer → Action α}
    {f : Except Failure q.Answer → Outcome α} (h : ∀ reply, k reply = ofOutcome (f reply)) :
    attempt (ask q) >>= k = query q f := by
  obtain rfl : k = fun reply => ofOutcome (f reply) := funext h
  rfl

theorem query_bind {q : Question} {f : Except Failure q.Answer → Outcome α}
    {k : α → Action β} {g : α → Outcome β} (h : ∀ a, k a = ofOutcome (g a)) :
    query q f >>= k = query q fun reply => f reply >>= g := by
  obtain rfl : k = fun a => ofOutcome (g a) := funext h
  funext m
  refine congrArg (Program.ask q) (funext fun reply => ?_)
  change (Program.done (f reply, m)).bind _ = .done (f reply >>= g, m)
  cases f reply <;> rfl

/-! ## What follows a single step -/

variable {r : Except Failure β}

@[simp]
theorem path_attempt_bind {x : Action α} {f : Except Failure α → Action β} :
    (attempt x >>= f).Path m es r m' ↔
      ∃ r₁ m₁ es₁ es₂, es = es₁ ++ es₂ ∧ x.Path m es₁ r₁ m₁ ∧ (f r₁).Path m₁ es₂ r m' := by
  rw [path_bind]
  constructor
  · intro hx
    obtain ⟨failure, hx, rfl⟩ | ⟨r₁, m₁, es₁, es₂, rfl, hx, hf⟩ := hx
    · obtain ⟨_, heq, _⟩ := path_attempt.mp hx
      cases heq
    · obtain ⟨_, heq, hx⟩ := path_attempt.mp hx
      cases heq
      exact ⟨r₁, m₁, es₁, es₂, rfl, hx, hf⟩
  · intro hx
    obtain ⟨r₁, m₁, es₁, es₂, rfl, hx, hf⟩ := hx
    exact .inr ⟨r₁, m₁, es₁, es₂, rfl, path_attempt.mpr ⟨r₁, rfl, hx⟩, hf⟩

/-- What follows an action without asking changes its result alone. -/
theorem path_bind_of_ofOutcome {x : Action α} {k : α → Action β} {g : α → Outcome β}
    (h : ∀ a, k a = ofOutcome (g a)) :
    (x >>= k).Path m es r m' ↔ ∃ r₁, x.Path m es r₁ m' ∧ r = r₁ >>= g := by
  obtain rfl : k = fun a => ofOutcome (g a) := funext h
  rw [path_bind]
  constructor
  · intro hx
    obtain ⟨failure, hx, rfl⟩ | ⟨a, m₁, es₁, es₂, rfl, hx, hp⟩ := hx
    · exact ⟨.error failure, hx, rfl⟩
    · obtain ⟨rfl, rfl, rfl⟩ := path_ofOutcome.mp hp
      rw [List.append_nil]
      exact ⟨.ok a, hx, rfl⟩
  · intro hx
    obtain ⟨failure | a, hx, rfl⟩ := hx
    · exact .inl ⟨failure, hx, rfl⟩
    · exact .inr ⟨a, m', es, [], (List.append_nil es).symm, hx, path_ofOutcome.mpr ⟨rfl, rfl, rfl⟩⟩

theorem path_attempt_of_ofOutcome {x : Action α} {k : Except Failure α → Action β}
    {f : Except Failure α → Outcome β} (h : ∀ reply, k reply = ofOutcome (f reply)) :
    (attempt x >>= k).Path m es r m' ↔ ∃ r₁, x.Path m es r₁ m' ∧ r = f r₁ := by
  rw [path_bind_of_ofOutcome h]
  constructor
  · intro hx
    obtain ⟨r₁, ha, rfl⟩ := hx
    obtain ⟨reply, rfl, hx⟩ := path_attempt.mp ha
    exact ⟨reply, hx, rfl⟩
  · intro hx
    obtain ⟨r₁, hx, rfl⟩ := hx
    exact ⟨.ok r₁, path_attempt.mpr ⟨r₁, rfl, hx⟩, rfl⟩

@[simp]
theorem path_memory_bind {f : Memory → Action β} :
    (memory >>= f).Path m es r m' ↔ (f m).Path m es r m' := Iff.rfl

@[simp]
theorem path_setNextNonce_bind {v : Value} {f : Unit → Action β} :
    (setNextNonce v >>= f).Path m es r m' ↔ (f ()).Path { m with nextNonce := v } es r m' := Iff.rfl

@[simp]
theorem path_tell_bind {n : Notice} {f : Unit → Action β} :
    (tell n >>= f).Path m es r m' ↔
      ∃ rest, es = .told n :: rest ∧ (f ()).Path m rest r m' := Iff.rfl

@[simp]
theorem path_log_bind {severity : Severity} {logger message : String} {extra : Fields}
    {f : Unit → Action β} :
    (log severity logger message extra >>= f).Path m es r m' ↔
      ∃ rest, es = .told (.log severity logger message extra) :: rest ∧
        (f ()).Path m rest r m' := path_tell_bind

@[simp]
theorem path_ofOutcome_bind {o : Outcome α} {f : α → Action β} :
    (ofOutcome o >>= f).Path m es r m' ↔
      (∃ failure, o = .error failure ∧ es = [] ∧ r = .error failure ∧ m' = m) ∨
      ∃ a, o = .ok a ∧ (f a).Path m es r m' := by
  cases o with
  | error failure =>
    rw [show ofOutcome (.error failure) >>= f = ofOutcome (.error failure) from rfl]
    simp
  | ok a =>
    rw [show ofOutcome (.ok a) >>= f = f a from rfl]
    simp

@[simp]
theorem path_ofDefect_bind {d : Except Defect α} {f : α → Action β} :
    (ofDefect d >>= f).Path m es r m' ↔
      (∃ defect, d = .error defect ∧ es = [] ∧ r = .error (Failure.ofDefect defect) ∧ m' = m) ∨
      ∃ a, d = .ok a ∧ (f a).Path m es r m' := by
  unfold ofDefect
  rw [path_ofOutcome_bind]
  cases d with
  | error defect => simp [Outcome.ofDefect]
  | ok a => simp [Outcome.ofDefect]

@[simp]
theorem path_query_bind {q : Question} {g : Except Failure q.Answer → Outcome α}
    {f : α → Action β} :
    (query q g >>= f).Path m es r m' ↔
      ∃ reply,
        (∃ failure, g reply = .error failure ∧ es = [.asked q reply] ∧ r = .error failure ∧
          m' = m) ∨
        ∃ a rest, g reply = .ok a ∧ es = .asked q reply :: rest ∧ (f a).Path m rest r m' := by
  rw [path_bind]
  constructor
  · intro hx
    obtain ⟨failure, hq, rfl⟩ | ⟨a, m₁, es₁, es₂, rfl, hq, hf⟩ := hx
    · obtain ⟨reply, rfl, hg, rfl⟩ := path_query.mp hq
      exact ⟨reply, .inl ⟨failure, hg.symm, rfl, rfl, rfl⟩⟩
    · obtain ⟨reply, rfl, hg, rfl⟩ := path_query.mp hq
      exact ⟨reply, .inr ⟨a, es₂, hg.symm, rfl, hf⟩⟩
  · intro hx
    obtain ⟨reply, ⟨failure, hg, rfl, rfl, rfl⟩ | ⟨a, rest, hg, rfl, hf⟩⟩ := hx
    · exact .inl ⟨failure, path_query.mpr ⟨reply, rfl, hg.symm, rfl⟩, rfl⟩
    · exact .inr ⟨a, m, [.asked q reply], rest, rfl,
        path_query.mpr ⟨reply, rfl, hg.symm, rfl⟩, hf⟩

theorem path_ask_bind {q : Question} {f : q.Answer → Action β} :
    (ask q >>= f).Path m es r m' ↔
      ∃ reply,
        (∃ failure, reply = .error failure ∧ es = [.asked q reply] ∧ r = .error failure ∧
          m' = m) ∨
        ∃ a rest, reply = .ok a ∧ es = .asked q reply :: rest ∧ (f a).Path m rest r m' :=
  path_query_bind

end Action
end EvmClient
