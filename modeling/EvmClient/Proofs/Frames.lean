import EvmClient.Proofs.Outcome
import EvmClient.Proofs.Path
import EvmClient.Session

/-!
# What work leaves as it is

A handle has five parts that can be set. An operation on it changes the part that it sets, and most
set none. A step of a session adds handles and deferred calls under names and never takes one away,
so a name keeps its meaning until something else is stored under it; a step that fails stores
nothing.
-/

set_option autoImplicit false

namespace EvmClient

variable {α β : Type} {P : α → Prop} {Q : β → Prop}

namespace Action

def Yields (x : Action α) (P : α → Prop) : Prop := ∀ m es a m', x.Path m es (.ok a) m' → P a

namespace Yields

theorem pure {a : α} (h : P a) : (Pure.pure a : Action α).Yields P := by
  intro m es b m' hp
  cases (path_pure.mp hp).2.1
  exact h

theorem bind {x : Action α} {f : α → Action β} (hx : x.Yields P)
    (hf : ∀ a, P a → (f a).Yields Q) : (x >>= f).Yields Q := by
  intro m es b m' h
  obtain ⟨_, _, heq⟩ | ⟨a, m₁, es₁, es₂, _, ha, hp⟩ := path_bind.mp h
  · cases heq
  · exact hf a (hx _ _ _ _ ha) _ _ _ _ hp

theorem after {x : Action α} {f : α → Action β} (hf : ∀ a, (f a).Yields Q) :
    (x >>= f).Yields Q :=
  bind (fun _ _ _ _ _ => trivial) fun a (_ : True) => hf a

theorem ofDefect_bind {d : Except Defect α} {f : α → Action β}
    (hf : ∀ a, d = .ok a → (f a).Yields Q) : (Action.ofDefect d >>= f).Yields Q := by
  intro m es b m' h
  obtain ⟨_, _, _, heq, _⟩ | ⟨a, ha, hp⟩ := path_ofDefect_bind.mp h
  · cases heq
  · exact hf a ha _ _ _ _ hp

end Yields
end Action

/-! ## Handles -/

inductive Setting where
  | address
  | strategy
  | receipt
  | block
  | deployments
  deriving DecidableEq, Repr

def Operation.sets? : Operation → Option Setting
  | setAddress _ => some .address
  | setStrategy _ | setGasPrice _ => some .strategy
  | setReceipt _ => some .receipt
  | setBlock _ => some .block
  | setDeployment .. => some .deployments
  | _ => none

def Setting.Same (c c' : Contract) : Setting → Prop
  | address => c'.address = c.address
  | strategy => c'.strategy = c.strategy
  | receipt => c'.receipt = c.receipt
  | block => c'.block = c.block
  | deployments => c'.deployments = c.deployments

namespace Contract

variable {c c' c'' : Contract} {parts parts' : Setting → Prop}

/-- A handle has changed in some of its parts alone; what cannot be set is as it was. -/
structure ChangesOnly (parts : Setting → Prop) (c c' : Contract) : Prop where
  kind : c'.kind = c.kind
  manager : c'.manager = c.manager
  binary : c'.binary = c.binary
  others : ∀ part, ¬parts part → part.Same c c'

theorem ChangesOnly.refl (parts : Setting → Prop) (c : Contract) : c.ChangesOnly parts c where
  kind := rfl
  manager := rfl
  binary := rfl
  others part _ := by cases part <;> rfl

theorem ChangesOnly.trans (h : c.ChangesOnly parts c') (h' : c'.ChangesOnly parts c'') :
    c.ChangesOnly parts c'' where
  kind := h'.kind.trans h.kind
  manager := h'.manager.trans h.manager
  binary := h'.binary.trans h.binary
  others part hpart := by
    have hfirst := h.others part hpart
    have hsecond := h'.others part hpart
    cases part <;> exact Eq.trans hsecond hfirst

theorem ChangesOnly.mono (h : c.ChangesOnly parts c') (hparts : ∀ part, parts part → parts' part) :
    c.ChangesOnly parts' c' where
  kind := h.kind
  manager := h.manager
  binary := h.binary
  others part hpart := h.others part fun hchanged => hpart (hparts part hchanged)

theorem ChangesOnly.eq (h : c.ChangesOnly parts c') (hparts : ∀ part, ¬parts part) : c' = c := by
  obtain ⟨kind, manager, address, binary, strategy, receipt, block, deployments⟩ := c
  obtain ⟨kind', manager', address', binary', strategy', receipt', block', deployments'⟩ := c'
  obtain rfl := h.kind
  obtain rfl := h.manager
  obtain rfl := h.binary
  obtain rfl := h.others .address (hparts _)
  obtain rfl := h.others .strategy (hparts _)
  obtain rfl := h.others .receipt (hparts _)
  obtain rfl := h.others .block (hparts _)
  obtain rfl := h.others .deployments (hparts _)
  rfl

theorem setStrategy_changesOnly (c : Contract) (s : Option GasStrategy) :
    c.ChangesOnly (some Setting.strategy = some ·) (c.setStrategy s) where
  kind := rfl
  manager := rfl
  binary := rfl
  others part hpart := by
    cases part with
    | strategy => exact absurd rfl hpart
    | _ => rfl

theorem setGasPrice_eq_ok {price : Value} :
    c.setGasPrice price = .ok c' ↔
      ∃ s, c.strategy = some s ∧ c' = c.setStrategy (some (.legacy ⟨price, s.limit⟩)) := by
  unfold setGasPrice
  cases c.strategy with
  | none => simp
  | some s => simp [eq_comm]

theorem setDeployment_changesOnly {network address : Value}
    (h : c.setDeployment network address = .ok c') :
    c.ChangesOnly (some Setting.deployments = some ·) c' := by
  obtain ⟨key, _, heq⟩ := bind_eq_ok.mp h
  cases heq
  refine ⟨rfl, rfl, rfl, fun part hpart => ?_⟩
  cases part with
  | deployments => exact absurd rfl hpart
  | _ => rfl

theorem perform_changesOnly (c : Contract) (op : Operation) :
    (c.perform op).Yields fun result => c.ChangesOnly (op.sets? = some ·) result.2 := by
  cases op with
  | setStrategy choice => exact .after fun s => .pure (c.setStrategy_changesOnly s)
  | setGasPrice price =>
    refine .ofDefect_bind fun c' h => .pure ?_
    obtain ⟨s, _, rfl⟩ := setGasPrice_eq_ok.mp h
    exact c.setStrategy_changesOnly _
  | setDeployment network address =>
    exact .ofDefect_bind fun _ h => .pure (setDeployment_changesOnly h)
  | setAddress | setReceipt | setBlock =>
    refine .pure ⟨rfl, rfl, rfl, fun part hpart => ?_⟩
    cases part <;> first | rfl | exact absurd rfl hpart
  | state => exact .pure (.refl _ c)
  | _ => exact .after fun _ => .pure (.refl _ c)

theorem perform_address (c : Contract) {op : Operation}
    (hop : ∀ address, op ≠ .setAddress address) :
    (c.perform op).Yields fun result => result.2.address = c.address := by
  intro m es result m' h
  refine (c.perform_changesOnly op m es result m' h).others .address ?_
  intro hsets
  cases op with
  | setAddress address => exact hop address rfl
  | _ => cases hsets

/-- The handle comes to another state by operations that do not set its address. -/
inductive Reaches (c : Contract) : Contract → Prop where
  | same : Reaches c c
  | operation {c₁ c₂ : Contract} {op : Operation} {a : Answer} {m m' : Memory}
      {es : List Exchange} (before : Reaches c c₁) (hop : ∀ address, op ≠ .setAddress address)
      (h : (c₁.perform op).Path m es (.ok (a, c₂)) m') : Reaches c c₂

theorem Reaches.address (h : c.Reaches c') : c'.address = c.address := by
  induction h with
  | same => rfl
  | operation _ hop h ih => exact (perform_address _ hop _ _ _ _ h).trans ih

end Contract

/-! ## Sessions -/

def Step.defers? : Step → Option String
  | deferDeployment name _ | defer name .. => some name
  | _ => none

def Step.stores? : Step → Option String
  | load name .. | deploy name _ => some name
  | send _ handle => handle
  | _ => none

namespace Session

variable {s s' : Session} {x : Step}

/-- What a step can make of a session, beside what is remembered. -/
inductive Becomes (s : Session) (x : Step) : Session → Prop where
  | same : Becomes s x s
  | stored {name : String} (c : Contract) (hx : x.stores? = some name) :
      Becomes s x (s.store name c)
  | deferring {name : String} (d : Deferred) (hx : x.defers? = some name) :
      Becomes s x (s.storeDeferred name d)
  | executing (name : String) (e : Execution) : Becomes s x (s.storeExecution name e)
  | updated {handle : String} {op : Operation} {i : Nat} {c c' : Contract}
      (hx : x = .operate handle op) (hhandle : s.handleNames.lookup handle = some i)
      (hc : s.handles[i]? = some c) (h : c.ChangesOnly (op.sets? = some ·) c') :
      Becomes s x (s.update i c')

theorem found_yields {o : Option α} {f : α → Action (Answer × Session)}
    (h : ∀ a, o = some a → (f a).Yields fun result => s.Becomes x result.2) :
    (s.found o f).Yields fun result => s.Becomes x result.2 := by
  cases o with
  | none => exact .pure .same
  | some a => exact h a rfl

theorem perform_becomes (s : Session) (x : Step) :
    (s.perform x).Yields fun result => s.Becomes x result.2 := by
  have hsame : ∀ {a : Answer}, (Pure.pure (a, s) : Action (Answer × Session)).Yields
      fun result => s.Becomes x result.2 := .pure .same
  cases x with
  | load | deploy => exact .after fun _ => .after fun c => .pure (.stored c rfl)
  | deferDeployment => exact .after fun _ => .pure (.deferring _ rfl)
  | defer => exact found_yields fun _ _ => .pure (.deferring _ rfl)
  | send name handle =>
    refine found_yields fun d _ => ?_
    cases d with
    | invoke i f how => exact found_yields fun c _ => .after fun _ => hsame
    | deploy d =>
      refine .after fun c => .pure ?_
      cases handle with
      | none => exact .same
      | some name => exact .stored c rfl
  | operate handle op =>
    refine found_yields fun i hhandle => found_yields fun c hc => ?_
    exact .bind (c.perform_changesOnly op) fun result hresult =>
      .pure (.updated rfl hhandle hc hresult)
  | setExecution => exact .after fun _ => .pure (.executing _ _)
  | encodeDeferred | decodeDeferred | execute =>
    exact found_yields fun _ _ => .after fun _ => hsame
  | buildRequest => exact found_yields fun _ _ => hsame
  | sender => exact hsame
  | _ => exact .after fun _ => hsame

theorem step_path {es : List Exchange} {r : Except Failure Answer}
    (h : (s.step x).Path es (r, s')) :
    (∃ failure, r = .error failure ∧
      (s.perform x).Path s.memory es (.error failure) s'.memory ∧
      s' = { s with memory := s'.memory }) ∨
    ∃ a s₁, r = .ok a ∧ (s.perform x).Path s.memory es (.ok (a, s₁)) s'.memory ∧
      s' = { s₁ with memory := s'.memory } := by
  obtain ⟨⟨result, memory⟩, es₁, es₂, rfl, hp, hd⟩ := (Program.path_bind _ _ _ _).mp h
  rcases result with failure | ⟨a, s₁⟩
  · obtain ⟨rfl, heq⟩ := hd
    cases heq
    rw [List.append_nil]
    exact .inl ⟨failure, rfl, hp, rfl⟩
  · obtain ⟨rfl, heq⟩ := hd
    cases heq
    rw [List.append_nil]
    exact .inr ⟨a, s₁, rfl, hp, rfl⟩

theorem step_becomes {es : List Exchange} {r : Except Failure Answer}
    (h : (s.step x).Path es (r, s')) :
    ∃ s₁, s.Becomes x s₁ ∧ s' = { s₁ with memory := s'.memory } ∧
      ∀ failure, r = .error failure → s₁ = s := by
  obtain ⟨_, _, _, heq⟩ | ⟨a, s₁, rfl, hp, heq⟩ := step_path h
  · exact ⟨s, .same, heq, fun _ _ => rfl⟩
  · exact ⟨s₁, perform_becomes s x _ _ _ _ hp, heq, nofun⟩

/-- Names under which the step stores nothing keep their meaning, and no handle is lost. -/
structure Frames (s : Session) (x : Step) (s' : Session) : Prop where
  deferred : ∀ name, x.defers? ≠ some name → s'.deferred.lookup name = s.deferred.lookup name
  handleNames : ∀ name, x.stores? ≠ some name →
    s'.handleNames.lookup name = s.handleNames.lookup name
  handles : s.handles.size ≤ s'.handles.size

theorem Becomes.frames (h : s.Becomes x s') : s.Frames x s' := by
  have hnew : ∀ {o : Option String} {name name' : String}, o = some name → o ≠ some name' →
      (name' == name) = false :=
    fun ho hne => beq_eq_false_iff_ne.mpr fun heq => hne (ho.trans (congrArg some heq.symm))
  cases h with
  | same | executing => exact ⟨fun _ _ => rfl, fun _ _ => rfl, Nat.le_refl _⟩
  | stored c hx =>
    refine ⟨fun _ _ => rfl, fun name h => ?_, by simp [store]⟩
    rw [store, List.lookup_cons, hnew hx h]
  | deferring d hx =>
    refine ⟨fun name h => ?_, fun _ _ => rfl, Nat.le_refl _⟩
    rw [storeDeferred, List.lookup_cons, hnew hx h]
  | updated => exact ⟨fun _ _ => rfl, fun _ _ => rfl, by simp [update]⟩

theorem step_frames {es : List Exchange} {r : Except Failure Answer}
    (h : (s.step x).Path es (r, s')) : s.Frames x s' := by
  obtain ⟨s₁, hbecomes, heq, _⟩ := step_becomes h
  rw [heq]
  exact ⟨hbecomes.frames.deferred, hbecomes.frames.handleNames, hbecomes.frames.handles⟩

end Session
end EvmClient
