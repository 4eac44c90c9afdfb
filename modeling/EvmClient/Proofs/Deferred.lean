import EvmClient.Proofs.Binding
import EvmClient.Proofs.Creation

/-!
# Calls that are made later

A deferred call keeps the function, how it is called, and which handle it was built from. All else
is read when it is sent: then it is the call that the handle would make itself at that moment. To
build it asks nobody.

So a caller who remembers what was deferred need not send it. Whoever makes each call directly in
place of the send has the same run, with the same questions, results and sessions.
-/

set_option autoImplicit false

namespace EvmClient

/-! ## Payloads -/

def Question.isMessage : Question → Bool
  | call .. | legacy _ | feeMarket _ => true
  | rpc method _ => method ∈ ["eth_call", "eth_sendTransaction", "eth_sendRawTransaction"]
  | _ => false

/-- The question has the payload in it, or what the signer made of fields with this payload. -/
inductive Question.Bears (payload : Value) (es : List Exchange) : Question → Prop where
  | plain {q : Question} (carried : q.payload? = some payload) : Bears payload es q
  | signed {fields : Fields} {raw : List UInt8}
      (signature : .asked (.sign fields) (.ok raw) ∈ es) (carried : fields.get "data" = payload) :
      Bears payload es (.rpc "eth_sendRawTransaction" [.text (Hex.markedText raw)])

namespace Contract

variable {c : Contract} {f : Function} {how : Invocation} {m m' : Memory} {es : List Exchange}
  {q : Question}

theorem Invokes.payload_or_raw (h : c.Invokes f q) (hq : q.isMessage = true) :
    (∃ v, q.payload? = some v) ∨ ∃ n bytes, c.manager = .node n ∧ n.hasAccount = true ∧
      q = .rpc "eth_sendRawTransaction" [.text (Hex.markedText bytes)] := by
  cases h with
  | call _ _ _ h => cases h <;> exact .inl ⟨_, rfl⟩
  | transaction _ h =>
    cases h with
    | estimate => cases hq
    | legacy | feeMarket => exact .inl ⟨_, rfl⟩
    | call h => cases h <;> exact .inl ⟨_, rfl⟩
    | node hx h =>
      cases h with
      | block | chain => cases hq
      | send _ h =>
        cases h with
        | count | sign | wait => cases hq
        | unsigned => exact .inl ⟨_, rfl⟩
        | raw held bytes => exact .inr ⟨_, bytes, hx, held, rfl⟩

theorem transact_signed {n : NodeManager} {value : Value} {r : Except Failure Receipt}
    (hn : c.manager = .node n) (held : n.hasAccount = true)
    (h : (c.transact f value).Path m es r m') {params : List Value} {reply : Except Failure Value}
    (hasked : .asked (.rpc "eth_sendRawTransaction" params) reply ∈ es) :
    ∃ fields raw, .asked (.sign fields) (.ok raw) ∈ es ∧
      params = [.text (Hex.markedText raw)] := by
  obtain ⟨_, _, rfl, _⟩ | ⟨text, _, hrun⟩ := Action.path_ofOutcome_bind.mp h
  · cases hasked
  · exact Execution.run_signed hn held hrun hasked

theorem invoke_signed {n : NodeManager} {r : Except Failure Answer} (hn : c.manager = .node n)
    (held : n.hasAccount = true) (h : (c.invoke f how).Path m es r m') {params : List Value}
    {reply : Except Failure Value}
    (hasked : .asked (.rpc "eth_sendRawTransaction" params) reply ∈ es) :
    ∃ fields raw, .asked (.sign fields) (.ok raw) ∈ es ∧
      params = [.text (Hex.markedText raw)] := by
  by_cases hhow : how.isTransaction = true
  · cases how with
    | transaction value =>
      obtain ⟨_, hp, _⟩ | ⟨_, _, es₁, es₂, rfl, hp, hrest⟩ := Action.path_bind.mp h
      · exact transact_signed hn held hp hasked
      · obtain ⟨rfl, _⟩ := Action.path_pure.mp hrest
        rw [List.append_nil] at hasked ⊢
        exact transact_signed hn held hp hasked
    | _ => cases hhow
  · -- A read call is passive, so nothing is handed over.
    rw [Bool.not_eq_true] at hhow
    have hpassive := (c.invoke_passive f hhow).asks.path h _ _ hasked
    exact absurd hpassive (by simp [Question.IsPassive])

theorem invoke_bears {r : Except Failure Answer} (h : (c.invoke f how).Path m es r m')
    {reply : Except Failure q.Answer} (hasked : .asked q reply ∈ es) (hq : q.isMessage = true) :
    ∃ text, Abi.encodeCall f = .ok text ∧ q.Bears (.text text) es := by
  have hinvokes := (c.invoke_asks f how).path h
  obtain ⟨v, hv⟩ | ⟨n, bytes, hn, held, rfl⟩ := (hinvokes _ _ hasked).payload_or_raw hq
  · obtain ⟨text, hencoded, rfl⟩ := (hinvokes _ _ hasked).carries hv
    exact ⟨text, hencoded, .plain hv⟩
  · obtain ⟨fields, raw, hsignature, hparams⟩ := invoke_signed hn held h hasked
    obtain ⟨text, hencoded, hdata⟩ := (hinvokes _ _ hsignature).carries rfl
    rw [hparams]
    exact ⟨text, hencoded, .signed hsignature hdata⟩

end Contract

namespace Session

variable {s s' : Session} {name handle : String} {store : Option String} {i : Nat} {c : Contract}
  {f : Function} {how : Invocation} {es : List Exchange} {r : Except Failure Answer}

/-! ## Building -/

theorem step_defer (h : s.handleNames.lookup handle = some i) :
    s.step (.defer name handle f how) =
      .done (.ok .nothing, s.storeDeferred name (.invoke i f how)) := by
  rw [step, perform, h]
  rfl

theorem step_defer_unknown (h : s.handleNames.lookup handle = none) :
    s.step (.defer name handle f how) = .done (.ok .unknownName, s) := by
  rw [step, perform, h]
  rfl

/-! ## Sending -/

theorem step_of_answer {x : Step} {y : Action Answer} (h : s.perform x = s.answer y) :
    s.step x = (y s.memory).map fun (result, memory) => (result, { s with memory := memory }) := by
  rw [step, h]
  refine (Program.bind_assoc (y s.memory) _ _).trans (congrArg (Program.bind (y s.memory)) ?_)
  funext ⟨result, memory⟩
  cases result <;> rfl

theorem update_same (h : s.handles[i]? = some c) : s.update i c = s := by
  obtain ⟨hi, rfl⟩ := Array.getElem?_eq_some_iff.mp h
  rw [update, Array.setIfInBounds, dif_pos hi, Array.set_getElem_self]

theorem step_send (hd : s.deferred.lookup name = some (.invoke i f how))
    (hc : s.handles[i]? = some c) :
    s.step (.send name store) = (c.invoke f how s.memory).map fun (result, memory) =>
      (result, { s with memory := memory }) := by
  refine step_of_answer ?_
  simp only [perform, hd, found, sendDeferred, hc]

theorem step_invoke (hh : s.handleNames.lookup handle = some i) (hc : s.handles[i]? = some c) :
    s.step (.operate handle (.invoke f how)) =
      (c.invoke f how s.memory).map fun (result, memory) =>
        (result, { s with memory := memory }) := by
  refine step_of_answer ?_
  simp only [perform, hh, found, hc, Contract.perform, answer, bind_assoc, pure_bind,
    update_same hc]

theorem step_send_eq_invoke (hd : s.deferred.lookup name = some (.invoke i f how))
    (hh : s.handleNames.lookup handle = some i) :
    s.step (.send name store) = s.step (.operate handle (.invoke f how)) := by
  cases hc : s.handles[i]? with
  | some c => exact (step_send hd hc).trans (step_invoke hh hc).symm
  | none => simp only [step, perform, hd, hh, found, sendDeferred, hc]

theorem step_encodeDeferred {text : String}
    (hd : s.deferred.lookup name = some (.invoke i f how)) (ht : Abi.encodeCall f = .ok text) :
    s.step (.encodeDeferred name) = .done (.ok (.value (.text text)), s) := by
  have hencoded : (Action.ofOutcome (Abi.encodeCall f) >>= fun text =>
      (pure (.value (.text text)) : Action Answer)) =
        Action.ofOutcome (.ok (.value (.text text))) := by
    rw [ht]
    rfl
  have hperform : s.perform (.encodeDeferred name) =
      s.answer (Action.ofOutcome (.ok (.value (.text text)))) := by
    rw [perform, hd, ← hencoded]
    rfl
  exact step_of_answer hperform

theorem step_send_bears (hd : s.deferred.lookup name = some (.invoke i f how))
    (hc : s.handles[i]? = some c) (h : (s.step (.send name store)).Path es (r, s')) {q : Question}
    {reply : Except Failure q.Answer} (hasked : .asked q reply ∈ es) (hq : q.isMessage = true) :
    ∃ v, s.step (.encodeDeferred name) = .done (.ok (.value v), s) ∧ q.Bears v es := by
  rw [step_send hd hc] at h
  obtain ⟨⟨result, memory⟩, es₁, es₂, rfl, hp, rfl, _⟩ := (Program.path_bind _ _ _ _).mp h
  rw [List.append_nil] at hasked ⊢
  obtain ⟨text, hencoded, hbears⟩ := Contract.invoke_bears hp hasked hq
  exact ⟨.text text, step_encodeDeferred hd hencoded, hbears⟩

/-! ## Runs -/

def follow : Session → List Step → Program (List (Except Failure Answer) × Session)
  | s, [] => .done ([], s)
  | s, x :: rest => (s.step x).bind fun (r, s) => (s.follow rest).map fun (rs, s) => (r :: rs, s)

theorem follow_cons_path {x : Step} {xs : List Step} {rs : List (Except Failure Answer)}
    (h : (s.follow (x :: xs)).Path es (rs, s')) :
    ∃ r s₁ es₁ es₂ rest, (s.step x).Path es₁ (r, s₁) ∧ (s₁.follow xs).Path es₂ (rest, s') ∧
      rs = r :: rest ∧ es = es₁ ++ es₂ := by
  obtain ⟨⟨r, s₁⟩, es₁, es₂, rfl, hp, hrest⟩ := (Program.path_bind _ _ _ _).mp h
  obtain ⟨⟨rest, s₂⟩, es₃, es₄, rfl, hp', rfl, heq⟩ := (Program.path_bind _ _ _ _).mp hrest
  cases heq
  rw [List.append_nil]
  exact ⟨r, s₁, es₁, es₃, rest, hp, hp', rfl, rfl⟩

structure Holds (s : Session) (name : String) (i : Nat) (f : Function) (how : Invocation) :
    Prop where
  stored : s.deferred.lookup name = some (.invoke i f how)
  made : i < s.handles.size

theorem Holds.step (hs : s.Holds name i f how) {x : Step} (hx : x.defers? ≠ some name)
    (h : (s.step x).Path es (r, s')) : s'.Holds name i f how where
  stored := ((step_frames h).deferred name hx).trans hs.stored
  made := Nat.lt_of_lt_of_le hs.made (step_frames h).handles

theorem Holds.follow {xs : List Step} {rs : List (Except Failure Answer)}
    (hs : s.Holds name i f how) (hxs : ∀ x ∈ xs, x.defers? ≠ some name)
    (h : (s.follow xs).Path es (rs, s')) : s'.Holds name i f how := by
  induction xs generalizing s es rs with
  | nil =>
    obtain ⟨_, heq⟩ := h
    cases heq
    exact hs
  | cons x rest ih =>
    obtain ⟨_, _, _, _, _, hp, hp', _, _⟩ := follow_cons_path h
    exact ih (hs.step (hxs x List.mem_cons_self) hp)
      (fun x hx => hxs x (List.mem_cons_of_mem _ hx)) hp'

end Session

/-! ## Direct runs -/

/-- A deferred call as the caller remembers it. -/
structure Recalled where
  handle : String
  function : Function
  how : Invocation

abbrev Recall := String → Option Recalled

namespace Recall

def remember (calls : Recall) (name : String) (call : Recalled) : Recall := fun name' =>
  if name' = name then some call else calls name'

/-- Forgets calls under a name that is used again, and calls through a handle whose name is. -/
def forget (calls : Recall) (x : Step) : Recall := fun name =>
  if x.defers? = some name then none
  else (calls name).filter fun call => x.stores? ≠ some call.handle

def after (calls : Recall) : Step → Except Failure Answer → Recall
  | .defer name handle f how, .ok .nothing => calls.remember name ⟨handle, f, how⟩
  | .defer .., _ => calls
  | x, _ => calls.forget x

end Recall

/-- The step of a caller who makes a remembered call directly and does not send it. -/
def Step.direct (calls : Recall) : Step → Step
  | .send name store =>
    match calls name with
    | some known => .operate known.handle (.invoke known.function known.how)
    | none => .send name store
  | x => x

namespace Session

variable {s s' : Session} {calls : Recall} {x : Step} {es : List Exchange}
  {r : Except Failure Answer}

/-- Carries out steps one after another; remembered calls are made directly and not sent. -/
def followDirectly : Session → Recall → List Step → Program (List (Except Failure Answer) × Session)
  | s, _, [] => .done ([], s)
  | s, calls, x :: rest => (s.step (x.direct calls)).bind fun (r, s) =>
    (s.followDirectly (calls.after x r) rest).map fun (rs, s) => (r :: rs, s)

def Matches (s : Session) (calls : Recall) : Prop :=
  ∀ name call, calls name = some call → ∃ i, s.handleNames.lookup call.handle = some i ∧
    s.deferred.lookup name = some (.invoke i call.function call.how)

theorem Matches.step_direct (hs : s.Matches calls) (x : Step) :
    s.step (x.direct calls) = s.step x := by
  cases x with
  | send name store =>
    cases hcall : calls name with
    | none => simp only [Step.direct, hcall]
    | some known =>
      obtain ⟨i, hhandle, hdeferred⟩ := hs name known hcall
      simp only [Step.direct, hcall]
      exact (step_send_eq_invoke hdeferred hhandle).symm
  | _ => rfl

theorem Matches.forget (hs : s.Matches calls) (h : (s.step x).Path es (r, s')) :
    s'.Matches (calls.forget x) := by
  intro name call hcall
  unfold Recall.forget at hcall
  by_cases hname : x.defers? = some name
  · rw [if_pos hname] at hcall
    cases hcall
  · rw [if_neg hname, Option.filter_eq_some_iff, decide_eq_true_iff] at hcall
    obtain ⟨i, hhandle, hdeferred⟩ := hs name call hcall.1
    have hframes := step_frames h
    exact ⟨i, (hframes.handleNames _ hcall.2).trans hhandle,
      (hframes.deferred _ hname).trans hdeferred⟩

theorem Matches.remember {name handle : String} {i : Nat} {f : Function} {how : Invocation}
    (hs : s.Matches calls) (hhandle : s.handleNames.lookup handle = some i) :
    (s.storeDeferred name (.invoke i f how)).Matches (calls.remember name ⟨handle, f, how⟩) := by
  intro name' call hcall
  unfold Recall.remember at hcall
  by_cases hname : name' = name
  · rw [if_pos hname] at hcall
    cases hcall
    rw [hname]
    exact ⟨i, hhandle, List.lookup_cons_self⟩
  · rw [if_neg hname] at hcall
    obtain ⟨j, hhandle', hdeferred⟩ := hs name' call hcall
    refine ⟨j, hhandle', ?_⟩
    rw [storeDeferred, List.lookup_cons, beq_eq_false_iff_ne.mpr hname]
    exact hdeferred

theorem Matches.after (hs : s.Matches calls) (h : (s.step x).Path es (r, s')) :
    s'.Matches (calls.after x r) := by
  cases x with
  | defer name handle f how =>
    cases hhandle : s.handleNames.lookup handle with
    | none =>
      rw [step_defer_unknown hhandle] at h
      cases h.2
      exact hs
    | some i =>
      rw [step_defer hhandle] at h
      cases h.2
      exact hs.remember hhandle
  | _ => exact hs.forget h

theorem Matches.follow (hs : s.Matches calls) (xs : List Step) :
    s.follow xs = s.followDirectly calls xs := by
  -- The first steps are equal by what is remembered, and they keep it right for the rest.
  induction xs generalizing s calls with
  | nil => rfl
  | cons x rest ih =>
    rw [Session.follow, followDirectly, hs.step_direct]
    refine Program.bind_congr_of_path fun es result hp => ?_
    exact congrArg (Program.map _) (ih (hs.after hp))

/-! ## Deferred and direct calls -/

structure SendsDirectly (s : Session) (name : String) (i : Nat) (f : Function) (how : Invocation)
    (c : Contract) : Prop where
  current : s.handles[i]? = some c
  call : ∀ store, s.step (.send name store) =
    (c.invoke f how s.memory).map fun (result, memory) => (result, { s with memory := memory })
  step : ∀ store handle, s.handleNames.lookup handle = some i →
    s.step (.send name store) = s.step (.operate handle (.invoke f how))
  payload : ∀ store es result q reply, (s.step (.send name store)).Path es result →
    .asked q reply ∈ es → q.isMessage = true →
      ∃ v, s.step (.encodeDeferred name) = .done (.ok (.value v), s) ∧ q.Bears v es

theorem Holds.sendsDirectly {name : String} {i : Nat} {f : Function} {how : Invocation}
    {c : Contract} (hs : s.Holds name i f how) (hc : s.handles[i]? = some c) :
    s.SendsDirectly name i f how c where
  current := hc
  call _ := step_send hs.stored hc
  step _ _ hhandle := step_send_eq_invoke hs.stored hhandle
  payload _ _ _ _ _ h hasked hq := step_send_bears hs.stored hc h hasked hq

/-- A deferred call is built without a question. Whatever is done before it is sent, and as often as
it is sent, it is the call that its handle makes at that moment. A run is the same if all calls are
made directly. -/
theorem deferred_call_is_direct (s : Session) (name handle : String) (f : Function)
    (how : Invocation) (i : Nat) (c : Contract) (xs : List Step)
    (hhandle : s.handleNames.lookup handle = some i) (hc : s.handles[i]? = some c)
    (hxs : ∀ x ∈ xs, x.defers? ≠ some name) :
    s.step (.defer name handle f how) =
        .done (.ok .nothing, s.storeDeferred name (.invoke i f how)) ∧
      (∀ es rs s', ((s.storeDeferred name (.invoke i f how)).follow xs).Path es (rs, s') →
        ∃ c', s'.SendsDirectly name i f how c') ∧
      ∀ run, s.follow run = s.followDirectly (fun _ => none) run := by
  refine ⟨step_defer hhandle, ?_, ?_⟩
  · intro es rs s' h
    have hbuilt : (s.storeDeferred name (.invoke i f how)).Holds name i f how :=
      ⟨List.lookup_cons_self, (Array.getElem?_eq_some_iff.mp hc).1⟩
    have hholds := hbuilt.follow hxs h
    exact ⟨_, hholds.sendsDirectly (Array.getElem?_eq_getElem hholds.made)⟩
  · exact Matches.follow fun _ _ hcall => nomatch hcall

def deferring : Session :=
  (loaded (.inMemory (.text "0xAA")) (.text "0xbB")).storeDeferred "later"
    (.invoke 0 plainFunction (.transaction (.int 7)))

def redirection : List Step :=
  [.operate "h" (.setAddress (.text "0xcC")), .operate "h" (.setBlock (.int 7))]

theorem redirected_call_is_direct : ∃ rs s' c,
    (deferring.follow redirection).Path [] (rs, s') ∧
      s'.SendsDirectly "later" 0 plainFunction (.transaction (.int 7)) c ∧
      c.address = .text "0xcC" := by
  have hpath : (deferring.follow redirection).Path [] _ := ⟨rfl, rfl⟩
  obtain ⟨_, hsends, _⟩ := deferred_call_is_direct
    (loaded (.inMemory (.text "0xAA")) (.text "0xbB")) "later" "h" plainFunction
    (.transaction (.int 7)) 0 _ redirection rfl rfl (by decide)
  obtain ⟨c, hdirect⟩ := hsends _ _ _ hpath
  have hcurrent := hdirect.current
  cases hcurrent
  exact ⟨_, _, _, hpath, hdirect, rfl⟩

end Session
end EvmClient
