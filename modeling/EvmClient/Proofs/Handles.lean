import EvmClient.Proofs.Deferred

/-!
# What happens to handles

Handles of a session share a manager and nothing else. A step changes a handle only if it is an
operation on it that sets one of its parts; calls and transactions, through this handle or another
one, change none, whatever becomes of them. So every part is as it was set last:
`Session.handles_intact`.
-/

set_option autoImplicit false

namespace EvmClient.Session

variable {s s' : Session} {x : Step} {es : List Exchange} {r : Except Failure Answer} {i : Nat}
  {c c' : Contract}

/-- The step sets this part of this handle, if it succeeds. -/
def Sets (s : Session) (x : Step) (i : Nat) (part : Setting) : Prop :=
  ∃ handle op, x = .operate handle op ∧ s.handleNames.lookup handle = some i ∧
    op.sets? = some part

/-- Handles are there after a step as before it, changed in what the step sets at most, and have no
new names. -/
structure Intact (s : Session) (x : Step) (s' : Session) : Prop where
  handles : ∀ (i : Nat) (c : Contract), s.handles[i]? = some c →
    ∃ c', s'.handles[i]? = some c' ∧ c.ChangesOnly (s.Sets x i) c'
  names : ∀ (name : String) (i : Nat), i < s.handles.size → s'.handleNames.lookup name = some i →
    s.handleNames.lookup name = some i

theorem Intact.of_handles (hh : s'.handles = s.handles) (hn : s'.handleNames = s.handleNames) :
    s.Intact x s' where
  handles i c hc := by
    rw [hh]
    exact ⟨c, hc, .refl _ c⟩
  names name i _ h := by rwa [hn] at h

theorem intact_store (name : String) (c : Contract) : s.Intact x (s.store name c) where
  handles i c' hc := by
    have hi : i < s.handles.size := (Array.getElem?_eq_some_iff.mp hc).1
    refine ⟨c', ?_, .refl _ c'⟩
    rw [store, Array.getElem?_push_lt hi, ← Array.getElem?_eq_getElem hi, hc]
  names name' i hi h := by
    rw [store, List.lookup_cons] at h
    split at h
    · cases h
      exact absurd hi (Nat.lt_irrefl _)
    · exact h

theorem intact_update {handle : String} {op : Operation}
    (hhandle : s.handleNames.lookup handle = some i) (hc : s.handles[i]? = some c)
    (h : c.ChangesOnly (op.sets? = some ·) c') :
    s.Intact (.operate handle op) (s.update i c') where
  handles j d hd := by
    have hj : j < s.handles.size := (Array.getElem?_eq_some_iff.mp hd).1
    by_cases hij : i = j
    · subst hij
      rw [hc] at hd
      cases hd
      refine ⟨c', ?_, h.mono fun part hpart => ⟨handle, op, rfl, hhandle, hpart⟩⟩
      rw [update, Array.getElem?_setIfInBounds_self_of_lt hj]
    · refine ⟨d, ?_, .refl _ d⟩
      rw [update, Array.getElem?_setIfInBounds_ne hij, hd]
  names _ _ _ h := h

theorem Becomes.intact (h : s.Becomes x s') : s.Intact x s' := by
  cases h with
  | same | deferring | executing => exact .of_handles rfl rfl
  | stored c _ => exact intact_store _ c
  | updated hx hhandle hc h =>
    subst hx
    exact intact_update hhandle hc h

/-! ## Steps and runs -/

theorem step_intact (h : (s.step x).Path es (r, s')) : s.Intact x s' := by
  obtain ⟨s₁, hbecomes, heq, _⟩ := step_becomes h
  rw [heq]
  exact ⟨hbecomes.intact.handles, hbecomes.intact.names⟩

theorem handles_of_failure {failure : Failure} (h : (s.step x).Path es (.error failure, s')) :
    s'.handles = s.handles := by
  obtain ⟨s₁, _, heq, hfailed⟩ := step_becomes h
  rw [heq, hfailed failure rfl]

theorem follow_intact {xs : List Step} {rs : List (Except Failure Answer)}
    (h : (s.follow xs).Path es (rs, s')) (hc : s.handles[i]? = some c) :
    ∃ c', s'.handles[i]? = some c' ∧ c.ChangesOnly (fun part => ∃ x ∈ xs, s.Sets x i part) c' := by
  induction xs generalizing s es rs c with
  | nil =>
    obtain ⟨_, heq⟩ := h
    cases heq
    exact ⟨c, hc, .refl _ c⟩
  | cons x rest ih =>
    obtain ⟨_, _, _, _, _, hp, hp', _, _⟩ := follow_cons_path h
    have hintact := step_intact hp
    obtain ⟨c₁, hc₁, hfirst⟩ := hintact.handles i c hc
    obtain ⟨c', hc', hlater⟩ := ih hp' hc₁
    have hi : i < s.handles.size := (Array.getElem?_eq_some_iff.mp hc).1
    -- The handle was there from the start, so no name that it is found under later is new.
    refine ⟨c', hc', (hfirst.mono ?_).trans (hlater.mono ?_)⟩
    · intro part hsets
      exact ⟨x, List.mem_cons_self, hsets⟩
    · intro part hx
      obtain ⟨y, hy, handle, op, rfl, hhandle, hop⟩ := hx
      exact ⟨_, List.mem_cons_of_mem _ hy, handle, op, rfl, hintact.names handle i hi hhandle, hop⟩

/-! ## Setters -/

theorem step_setGasPrice {handle : String} {price : Value} {g : GasStrategy}
    (hhandle : s.handleNames.lookup handle = some i) (hc : s.handles[i]? = some c)
    (hg : c.strategy = some g) :
    s.step (.operate handle (.setGasPrice price)) =
      .done (.ok .nothing, s.update i (c.setStrategy (some (.legacy ⟨price, g.limit⟩)))) := by
  have hset : c.setGasPrice price = .ok (c.setStrategy (some (.legacy ⟨price, g.limit⟩))) :=
    Contract.setGasPrice_eq_ok.mpr ⟨g, hg, rfl⟩
  simp only [step, perform, hhandle, found, hc, Contract.perform, hset]
  rfl

theorem deployment_of_other {handle : String} {network address : Value} {j : Nat}
    (hhandle : s.handleNames.lookup handle = some i) (hij : j ≠ i)
    (h : (s.step (.operate handle (.setDeployment network address))).Path es (r, s'))
    (hc : s.handles[j]? = some c) :
    ∃ c', s'.handles[j]? = some c' ∧ ∀ other, c'.deployment other = c.deployment other := by
  obtain ⟨c', hc', hchanged⟩ := (step_intact h).handles j c hc
  have hnothing : ∀ part, ¬s.Sets (.operate handle (.setDeployment network address)) j part := by
    intro part hsets
    obtain ⟨_, _, heq, hname, _⟩ := hsets
    cases heq
    rw [hhandle] at hname
    cases hname
    exact hij rfl
  refine ⟨c', hc', fun other => ?_⟩
  rw [hchanged.eq hnothing]

/-- Every handle of a session is still there after a step, and as it was unless the step sets a part
of it and succeeds; then only this part is another. The same holds of whole runs. A price is set
with the limit that the handle has, and an address that is set for a network is set for one
handle. -/
theorem handles_intact (s : Session) :
    (∀ x es r s', (s.step x).Path es (r, s') →
      ∀ (i : Nat) (c : Contract), s.handles[i]? = some c →
        ∃ c', s'.handles[i]? = some c' ∧ c.ChangesOnly (s.Sets x i) c' ∧
          ((∀ part, ¬s.Sets x i part) ∨ (∃ failure, r = .error failure) → c' = c)) ∧
    (∀ xs es rs s', (s.follow xs).Path es (rs, s') →
      ∀ (i : Nat) (c : Contract), s.handles[i]? = some c →
        ∃ c', s'.handles[i]? = some c' ∧
          c.ChangesOnly (fun part => ∃ x ∈ xs, s.Sets x i part) c') ∧
    (∀ handle price es r s' i c g,
      (s.step (.operate handle (.setGasPrice price))).Path es (r, s') →
      s.handleNames.lookup handle = some i → s.handles[i]? = some c → c.strategy = some g →
        s'.handles[i]? = some (c.setStrategy (some (.legacy ⟨price, g.limit⟩)))) ∧
    (∀ handle network address es r s' i j c,
      (s.step (.operate handle (.setDeployment network address))).Path es (r, s') →
      s.handleNames.lookup handle = some i → j ≠ i → s.handles[j]? = some c →
        ∃ c', s'.handles[j]? = some c' ∧ ∀ other, c'.deployment other = c.deployment other) := by
  refine ⟨?_, ?_, ?_, ?_⟩
  · intro x es r s' h i c hc
    obtain ⟨c', hc', hchanged⟩ := (step_intact h).handles i c hc
    refine ⟨c', hc', hchanged, ?_⟩
    rintro (hnothing | ⟨failure, rfl⟩)
    · exact hchanged.eq hnothing
    · rw [handles_of_failure h, hc] at hc'
      cases hc'
      rfl
  · intro xs es rs s' h i c hc
    exact follow_intact h hc
  · intro handle price es r s' i c g h hhandle hc hg
    rw [step_setGasPrice hhandle hc hg] at h
    obtain ⟨_, heq⟩ := h
    cases heq
    exact Array.getElem?_setIfInBounds_self_of_lt (Array.getElem?_eq_some_iff.mp hc).1
  · intro handle network address es r s' i j c h hhandle hij hc
    exact deployment_of_other hhandle hij h hc

def metered : Contract where
  kind := {}
  manager := accountManager
  address := .text "0xcC"
  binary := .text Contract.missingBinary
  strategy := some (.feeMarket {
    chainId := .int 1
    maxPriorityFee := .int 2
    maxFee := .int 10
    limit := .perCharacter (.int 68) })

def neighbours : Session := (loaded accountManager (.text "0xbB")).store "k" metered

def repricing : Step := .operate "k" (.setGasPrice (.int 3))

def registration : Step := .operate "h" (.setDeployment (.text "1") (.text "0xdD"))

theorem neighbours_keep_apart :
    (∃ es failure s', (neighbours.step payingCall).Path es (.error failure, s') ∧
      s'.handles[1]? = some metered) ∧
    (∃ s', (neighbours.step repricing).Path [] (.ok .nothing, s') ∧
      s'.handles[1]? =
        some (metered.setStrategy (some (.legacy ⟨.int 3, .perCharacter (.int 68)⟩)))) ∧
    (∃ s' c', (neighbours.step registration).Path [] (.ok .nothing, s') ∧
      s'.handles[1]? = some c' ∧ c'.deployment (.text "1") = .ok .null) ∧
    ∃ es rs s' c', (neighbours.follow [payingCall, registration]).Path es (rs, s') ∧
      s'.handles[1]? = some c' ∧ c'.strategy = metered.strategy := by
  obtain ⟨hstep, hrun, hprice, hdeployment⟩ := handles_intact neighbours
  refine ⟨?_, ?_, ?_, ?_⟩
  · have h := Program.path_history Script.answer (neighbours.step payingCall) {}
    obtain ⟨c', hc', _, hsame⟩ := hstep _ _ _ _ h 1 metered rfl
    rw [hsame (.inr ⟨_, rfl⟩)] at hc'
    exact ⟨_, _, _, h, hc'⟩
  · have h : (neighbours.step repricing).Path [] _ := ⟨rfl, rfl⟩
    exact ⟨_, h, hprice _ _ _ _ _ 1 metered _ h rfl rfl rfl⟩
  · have h : (neighbours.step registration).Path [] _ := ⟨rfl, rfl⟩
    obtain ⟨c', hc', hsame⟩ := hdeployment _ _ _ _ _ _ 0 1 metered h rfl (by decide) rfl
    exact ⟨_, c', h, hc', hsame _⟩
  · have h := Program.path_history Script.answer (neighbours.follow [payingCall, registration]) {}
    obtain ⟨c', hc', hchanged⟩ := hrun _ _ _ _ h 1 metered rfl
    refine ⟨_, _, _, c', h, hc', hchanged.others .strategy ?_⟩
    rintro ⟨x, hx, handle, op, rfl, hhandle, hop⟩
    have hxs : .operate handle op = payingCall ∨ .operate handle op = registration := by
      simpa using hx
    obtain heq | heq := hxs <;> cases heq <;> cases hop

end EvmClient.Session
