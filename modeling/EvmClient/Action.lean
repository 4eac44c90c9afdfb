import EvmClient.Program

/-!
# Actions

An action is a program that may fail and that works on what a manager remembers. What it has changed
there stays changed when it fails.
-/

set_option autoImplicit false

namespace EvmClient

structure Memory where
  /-- the nonce of the next transaction, null while it is not known -/
  nextNonce : Value := .null
  /-- the chain of the node, null while it is not known -/
  chainId : Value := .null
  deriving Inhabited

def Action (α : Type) := Memory → Program (Except Failure α × Memory)

namespace Action

def pure {α : Type} (a : α) : Action α := fun m => .done (.ok a, m)

def bind {α β : Type} (x : Action α) (f : α → Action β) : Action β := fun m =>
  (x m).bind fun
    | (.ok a, m) => f a m
    | (.error failure, m) => .done (.error failure, m)

instance : Monad Action where
  pure := Action.pure
  bind := Action.bind

theorem bind_apply {α β : Type} (x : Action α) (f : α → Action β) (m : Memory) :
    (x >>= f) m = (x m).bind fun
      | (.ok a, m) => f a m
      | (.error failure, m) => .done (.error failure, m) := rfl

theorem map_id {α : Type} (x : Action α) : id <$> x = x := by
  funext m
  refine Eq.trans (congrArg (Program.bind (x m)) ?_) (Program.bind_done (x m))
  funext r
  rcases r with ⟨_ | _, _⟩ <;> rfl

theorem bind_assoc {α β γ : Type} (x : Action α) (f : α → Action β) (g : β → Action γ) :
    x >>= f >>= g = x >>= fun a => f a >>= g := by
  funext m
  refine (Program.bind_assoc (x m) _ _).trans (congrArg (Program.bind (x m)) ?_)
  funext r
  rcases r with ⟨_ | _, _⟩ <;> rfl

instance : LawfulMonad Action :=
  LawfulMonad.mk' Action map_id (fun _ _ => rfl) bind_assoc

def ask (q : Question) : Action q.Answer := fun m => .ask q fun answer => .done (answer, m)

def tell (n : Notice) : Action Unit := fun m => .tell n (.done (.ok (), m))

def log (severity : Severity) (logger message : String) (extra : Fields) : Action Unit :=
  tell (.log severity logger message extra)

def ofOutcome {α : Type} (r : Outcome α) : Action α := fun m => .done (r, m)

def ofDefect {α : Type} (r : Except Defect α) : Action α := ofOutcome (Outcome.ofDefect r)

def fail {α : Type} (e : ClientError) : Action α := ofOutcome (EvmClient.fail e)

def pass {α : Type} (failure : Failure) : Action α := ofOutcome (.error failure)

/-- An action that gives the failure of another as its result. -/
def attempt {α : Type} (x : Action α) : Action (Except Failure α) := fun m =>
  (x m).map fun (result, m) => (.ok result, m)

def memory : Action Memory := fun m => .done (.ok m, m)

def setNextNonce (v : Value) : Action Unit := fun m => .done (.ok (), { m with nextNonce := v })

def setChainId (v : Value) : Action Unit := fun m => .done (.ok (), { m with chainId := v })

end Action
end EvmClient
