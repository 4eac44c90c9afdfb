import EvmClient.Proofs.Node.Asked
import EvmClient.Script

/-!
# What the replies of a node are taken for

A reply says one of three things: that the node was not reached, that it rejects the request, or
what the result is. Every request tells which of them, exactly if the reply is clear: a failure and
an improper answer have to be such that a message can be written, and an error has to be one that
can be read and does not count as nothing. An error that counts as nothing is taken for a success.
In a send, each failed request is the failure of the whole.
-/

set_option autoImplicit false

namespace EvmClient.NodeManager

variable {α β : Type} {n : NodeManager} {m m' : Memory} {es : List Exchange}

/-! ## Verdicts -/

inductive Verdict where
  | unreachable
  | rejected (e : Value)
  | answered (v : Value)

/-- What a reply says. An error that is null is none. -/
def verdict : Except Failure Value → Verdict
  | .ok (.dict members) =>
    if Fields.has members "result" || Fields.has members "error" then
      if (Fields.get members "error").isNull then .answered (Fields.get members "result")
      else .rejected (Fields.get members "error")
    else .unreachable
  | _ => .unreachable

def readError : Value → Except Defect RpcError
  | .dict members => RpcError.ofMembers members
  | v => do return { code := .int 0, message := .text (← v.textOf) }

/-- The reply can be told for what it is. -/
def IsClear (reply : Except Failure Value) : Prop :=
  match verdict reply with
  | .unreachable =>
    match reply with
    | .error failure => ∃ reason, failure.text = .ok reason
    | .ok answer => answer.literal?.isSome = true
  | .rejected e => e.isTruthy = true ∧ ∃ error, readError e = .ok error
  | .answered _ => True

def Tells (rejected : RpcError → Outcome α) (answered : Value → Outcome α)
    (reply : Except Failure Value) (r : Outcome α) : Prop :=
  match verdict reply with
  | .unreachable => ∃ cause, r = .error (.client (.transport cause))
  | .rejected _ => ∃ error, r = rejected error
  | .answered v => r = answered v

/-! ## Single requests -/

def replyWith (n : NodeManager) (method : String) (rejected : RpcError → Outcome α)
    (answered : Value → Outcome α) (reply : Except Failure Value) : Outcome α := do
  let members ← n.replyMembers method reply
  match ← Outcome.ofDefect (errorOf members) with
  | some e => rejected e
  | none => answered (members.get "result")

section

variable {method : String} {rejected : RpcError → Outcome α} {answered : Value → Outcome α}
  {reply : Except Failure Value}

theorem replyCall_eq (n : NodeManager) (reply : Except Failure Value) :
    n.replyCall reply = n.replyWith "eth_call" (fun e => .ok { error := some e })
      (fun v => .ok { result := v }) reply := rfl

theorem replyResult_eq (n : NodeManager) (method : String) (reply : Except Failure Value) :
    n.replyResult method reply = n.replyWith method
      (fun e => fail (.rpcProtocol e.code e.message e.data)) .ok reply := rfl

theorem errorOf_eq (members : Fields) :
    errorOf members = if (members.get "error").isTruthy then
      (readError (members.get "error")).map some else .ok none := by
  unfold errorOf
  by_cases ht : (members.get "error").isTruthy = true
  · simp only [if_pos ht]
    cases members.get "error" with
    | dict entries => cases h : RpcError.ofMembers entries <;> simp [readError, h] <;> rfl
    | _ => simp only [readError]; cases Value.textOf _ <;> rfl
  · simp only [if_neg ht]
    rfl

theorem isTruthy_of_isNull {v : Value} (h : v.isNull = true) : v.isTruthy = false := by
  cases v with
  | null => rfl
  | _ => cases h

theorem verdict_of_proper {members : Fields} (h : properAnswer? (.dict members) = some members) :
    verdict (.ok (.dict members)) = if (members.get "error").isNull then
      .answered (members.get "result") else .rejected (members.get "error") := by
  simp only [properAnswer?, Option.ite_none_right_eq_some] at h
  rw [verdict, if_pos h.1]

theorem verdict_of_improper {answer : Value} (h : properAnswer? answer = none) :
    verdict (.ok answer) = .unreachable := by
  cases answer with
  | dict members =>
    simp only [properAnswer?, ite_eq_right_iff, reduceCtorEq] at h
    exact if_neg h
  | _ => rfl

theorem tells_of_unreachable (h : verdict reply = .unreachable) {r : Outcome α} :
    Tells rejected answered reply r ↔ ∃ cause, r = .error (.client (.transport cause)) := by
  rw [Tells, h]

theorem transport_ne_defect {d : Defect} :
    ¬∃ cause, (.error (Failure.ofDefect d) : Outcome α) = .error (.client (.transport cause)) := by
  intro hx
  obtain ⟨cause, h⟩ := hx
  cases h

theorem tells_failure_iff (failure : Failure) :
    Tells rejected answered (.error failure)
      (n.replyWith method rejected answered (.error failure)) ↔ IsClear (.error failure) := by
  rw [tells_of_unreachable rfl, replyWith, replyMembers, IsClear]
  dsimp only [verdict]
  cases failure.text with
  | ok reason => exact iff_of_true ⟨_, rfl⟩ ⟨reason, rfl⟩
  | error d =>
    refine iff_of_false transport_ne_defect ?_
    intro hx
    obtain ⟨reason, h⟩ := hx
    cases h

theorem tells_improper_iff {answer : Value} (h : properAnswer? answer = none) :
    Tells rejected answered (.ok answer)
      (n.replyWith method rejected answered (.ok answer)) ↔ IsClear (.ok answer) := by
  have hv := verdict_of_improper h
  rw [tells_of_unreachable hv, IsClear, hv, replyWith]
  simp only [replyMembers, h, fail, Failure.ofError, ClientError.message?,
    TransportCause.message?, Option.isSome_map]
  by_cases hl : answer.literal?.isSome = true
  · rw [if_pos hl]
    exact iff_of_true ⟨_, rfl⟩ hl
  · rw [if_neg hl]
    exact iff_of_false transport_ne_defect hl

theorem tells_proper_iff (hrejected : ∀ error v, rejected error ≠ answered v)
    (hdefect : ∀ error d, rejected error ≠ .error (Failure.ofDefect d)) {members : Fields}
    (h : properAnswer? (.dict members) = some members) :
    Tells rejected answered (.ok (.dict members))
      (n.replyWith method rejected answered (.ok (.dict members))) ↔
      IsClear (.ok (.dict members)) := by
  have hmembers : n.replyMembers method (.ok (.dict members)) = .ok members := by
    simp only [replyMembers, h]
  have hv := verdict_of_proper h
  rw [replyWith, hmembers, Tells, IsClear, hv]
  simp only [bind, Except.bind, errorOf_eq]
  by_cases hnull : (members.get "error").isNull = true
  · simp only [if_pos hnull, isTruthy_of_isNull hnull]
    simp [Outcome.ofDefect]
  · simp only [if_neg hnull]
    by_cases ht : (members.get "error").isTruthy = true
    · rw [if_pos ht]
      cases readError (members.get "error") with
      | ok error => exact iff_of_true ⟨error, rfl⟩ ⟨ht, error, rfl⟩
      | error d =>
        refine iff_of_false ?_ ?_
        · intro hx
          obtain ⟨error, heq⟩ := hx
          exact hdefect error d heq.symm
        · intro hx
          obtain ⟨_, error, heq⟩ := hx
          cases heq
    · rw [if_neg ht]
      refine iff_of_false ?_ fun hx => ht hx.1
      intro hx
      obtain ⟨error, heq⟩ := hx
      exact hrejected error _ heq.symm

theorem tells_iff (hrejected : ∀ error v, rejected error ≠ answered v)
    (hdefect : ∀ error d, rejected error ≠ .error (Failure.ofDefect d)) :
    Tells rejected answered reply (n.replyWith method rejected answered reply) ↔
      IsClear reply := by
  cases reply with
  | error failure => exact tells_failure_iff failure
  | ok answer =>
    cases h : properAnswer? answer with
    | none => exact tells_improper_iff h
    | some members =>
      obtain rfl := properAnswer?_eq_some h
      exact tells_proper_iff hrejected hdefect h

end

theorem call_tells_iff {request : TransactionRequest} {block : Value} {r : Outcome CallResponse}
    (h : (n.call request block).Path m es r m') {method : String} {params : List Value}
    {reply : Except Failure Value} (hasked : .asked (.rpc method params) reply ∈ es) :
    Tells (fun e => .ok { error := some e }) (fun v => .ok { result := v }) reply r ↔
      IsClear reply := by
  obtain ⟨_, ⟨_, _, rfl, _⟩ | ⟨parameters, given, rest, _, rfl, rfl, htold⟩⟩ := call_path h
  · cases hasked
  · obtain heq | hmem := List.mem_cons.mp hasked
    · cases heq
      rw [replyCall_eq]
      exact tells_iff (by simp) (by simp)
    · obtain ⟨notice, heq⟩ := htold _ hmem
      cases heq

theorem code_eq (n : NodeManager) (address block : Value) :
    n.code address block = Action.query (.rpc "eth_getCode" [address, blockParameter block])
      (n.replyWith "eth_getCode" (fun e => .ok { error := some e })
        (fun v => .ok { code := v })) := by
  unfold code
  rw [request_eq]
  apply Action.query_bind
  intro members
  cases h : errorOf members with
  | error d => rfl
  | ok e => cases e <;> rfl

theorem code_tells_iff {address block : Value} {r : Outcome CodeResponse}
    (h : (n.code address block).Path m es r m') {method : String} {params : List Value}
    {reply : Except Failure Value} (hasked : .asked (.rpc method params) reply ∈ es) :
    Tells (fun e => .ok { error := some e }) (fun v => .ok { code := v }) reply r ↔
      IsClear reply := by
  rw [code_eq] at h
  obtain ⟨given, rfl, rfl, _⟩ := Action.path_query.mp h
  cases List.mem_singleton.mp hasked
  exact tells_iff (by simp) (by simp)

theorem replyResult_tells_iff (n : NodeManager) (method : String) (reply : Except Failure Value) :
    Tells (fun e => .error (.client (.rpcProtocol e.code e.message e.data))) .ok reply
      (n.replyResult method reply) ↔ IsClear reply := by
  rw [replyResult_eq]
  exact tells_iff (by simp) (by simp [Failure.ofDefect])

theorem result_tells_iff {method : String} {params : List Value} {r : Outcome Value}
    (h : (n.result method params).Path m es r m') {method' : String} {params' : List Value}
    {reply : Except Failure Value} (hasked : .asked (.rpc method' params') reply ∈ es) :
    Tells (fun e => .error (.client (.rpcProtocol e.code e.message e.data))) .ok reply r ↔
      IsClear reply := by
  rw [result_eq] at h
  obtain ⟨given, rfl, rfl, _⟩ := Action.path_query.mp h
  cases List.mem_singleton.mp hasked
  exact n.replyResult_tells_iff method reply

/-! ## Sends -/

/-- A request that fails is the last step of the action, which fails with the same failure. -/
def Halts (n : NodeManager) (x : Action α) : Prop :=
  ∀ m es r m', x.Path m es r m' → ∀ before method params reply after failure,
    es = before ++ .asked (.rpc method params) reply :: after →
    n.replyResult method reply = .error failure → after = [] ∧ r = .error failure

/-- A request that fails is what the action fails with. -/
def Heeds (n : NodeManager) (x : Action α) : Prop :=
  ∀ m es r m', x.Path m es r m' → ∀ method params reply failure,
    .asked (.rpc method params) reply ∈ es → n.replyResult method reply = .error failure →
      r = .error failure

def IsElsewhere (q : Question) : Prop := ∀ method params, q ≠ .rpc method params

namespace Halts

theorem of_asks {x : Action α} (h : x.Asks IsElsewhere) : n.Halts x := by
  intro m es r m' hp before method params reply after failure hes
  have hasked : .asked (.rpc method params) reply ∈ es := by
    rw [hes]
    exact List.mem_append_right before List.mem_cons_self
  exact absurd rfl (h.path hp _ _ hasked method params)

theorem bind {x : Action α} {f : α → Action β} (hx : n.Halts x) (hf : ∀ a, n.Halts (f a)) :
    n.Halts (x >>= f) := by
  intro m es r m' h before method params reply after failure hes hfail
  obtain ⟨failure', hp, rfl⟩ | ⟨a, m₁, es₁, es₂, rfl, hp₁, hp₂⟩ := Action.path_bind.mp h
  · obtain ⟨hafter, heq⟩ := hx _ _ _ _ hp _ _ _ _ _ _ hes hfail
    cases heq
    exact ⟨hafter, rfl⟩
  obtain ⟨between, _, hsecond⟩ | ⟨rest, hfirst, hrest⟩ := List.append_eq_append_iff.mp hes
  · exact hf a _ _ _ _ hp₂ _ _ _ _ _ _ hsecond hfail
  · cases rest with
    | nil => exact hf a _ _ _ _ hp₂ [] _ _ _ _ _ hrest.symm hfail
    | cons e rest =>
      cases hrest
      obtain ⟨_, heq⟩ := hx _ _ _ _ hp₁ _ _ _ _ _ _ hfirst hfail
      cases heq

theorem ite {c : Prop} [Decidable c] {x y : Action α} (hx : n.Halts x) (hy : n.Halts y) :
    n.Halts (if c then x else y) := by
  by_cases h : c
  · rw [if_pos h]
    exact hx
  · rw [if_neg h]
    exact hy

theorem of_single {x : Action α}
    (hx : ∀ m es r m', x.Path m es r m' → ∃ method params reply,
      es = [.asked (.rpc method params) reply] ∧
        ∀ failure, n.replyResult method reply = .error failure → r = .error failure) :
    n.Halts x := by
  intro m es r m' h before method params reply after failure hes hfail
  obtain ⟨method', params', reply', heq, hr⟩ := hx m es r m' h
  rw [heq, eq_comm, List.append_eq_cons_iff] at hes
  obtain ⟨rfl, hes⟩ | ⟨rest, rfl, hes⟩ := hes
  · cases hes
    exact ⟨rfl, hr failure hfail⟩
  · cases rest <;> cases hes

theorem heeds {x : Action α} (hx : n.Halts x) : n.Heeds x := by
  intro m es r m' h method params reply failure hasked hfail
  obtain ⟨before, after, hes⟩ := List.append_of_mem hasked
  exact (hx _ _ _ _ h _ _ _ _ _ _ hes hfail).2

end Halts

variable (n)

theorem result_halts (method : String) (params : List Value) :
    n.Halts (n.result method params) := by
  refine .of_single fun m es r m' h => ?_
  rw [result_eq] at h
  obtain ⟨reply, rfl, rfl, _⟩ := Action.path_query.mp h
  exact ⟨method, params, reply, rfl, fun _ hfail => hfail⟩

theorem pendingNonce_halts : n.Halts n.pendingNonce :=
  .bind (n.result_halts _ _) fun _ => .of_asks .ofDefect

theorem countedNonce_halts : n.Halts n.countedNonce := by
  refine .bind (.of_asks .memory) fun known => .ite ?_ (.of_asks .pure)
  exact .bind n.pendingNonce_halts fun _ => .of_asks (.bind .setNextNonce fun _ => .pure)

theorem nonce_halts : n.Halts n.nonce := by
  refine .ite ?_ n.pendingNonce_halts
  exact .bind n.countedNonce_halts fun _ =>
    .of_asks (.bind .ofDefect fun _ => .bind .setNextNonce fun _ => .pure)

theorem chainId_halts : n.Halts n.chainId := by
  refine .bind (.of_asks .memory) fun known => .ite ?_ (.of_asks .pure)
  exact .bind (n.result_halts _ _) fun _ =>
    .of_asks (.bind .ofDefect fun _ => .bind .setChainId fun _ => .pure)

theorem submitRaw_halts (raw : List UInt8) : n.Halts (n.submitRaw raw) := by
  refine .of_single fun m es r m' h => ?_
  obtain ⟨reply, rfl, rfl, _⟩ := submitRaw_path.mp h
  exact ⟨_, _, reply, rfl, fun _ hfail => hfail⟩

theorem submit_halts (transaction : Fields) : n.Halts (n.submit transaction) := by
  refine .ite ?_ (n.result_halts _ _)
  refine .bind n.nonce_halts fun nonce => .bind (.of_asks (.ask ?_)) n.submitRaw_halts
  intro method params h
  cases h

theorem receipt_halts (hash : Value) : n.Halts (n.receipt hash) := by
  refine .of_asks ((n.receipt_asks hash).mono ?_)
  intro q hq method params h
  cases hq.symm.trans h

theorem send_halts (transaction : Fields) (recipient : Value) :
    n.Halts (n.send transaction recipient) := by
  rw [send_eq]
  exact .bind (.of_asks .ofDefect) fun whole => .bind (n.submit_halts whole) fun hash =>
    .bind (.of_asks .log) fun _ => n.receipt_halts hash

theorem sendLegacy_halts (o : LegacyOrder) : n.Halts (n.sendLegacy o) := by
  rw [sendLegacy_eq]
  exact .ite (.bind n.chainId_halts fun chain => n.send_halts _ _) (n.send_halts _ _)

theorem sendFeeMarket_halts (o : FeeMarketOrder) : n.Halts (n.sendFeeMarket o) := by
  refine .bind (n.result_halts _ _) fun block => ?_
  refine .bind (.of_asks .ofDefect) fun members => .ite ?_ ?_
  · exact .of_asks (.bind .log fun _ => .pure)
  · exact .bind (n.send_halts _ _) fun receipt => .of_asks .pure

theorem sendLegacy_heeds (o : LegacyOrder) : n.Heeds (n.sendLegacy o) :=
  (n.sendLegacy_halts o).heeds

theorem sendFeeMarket_heeds (o : FeeMarketOrder) : n.Heeds (n.sendFeeMarket o) :=
  (n.sendFeeMarket_halts o).heeds

def Stops (reply : Except Failure Value) (r : Outcome α) : Prop :=
  match verdict reply with
  | .unreachable => ∃ cause, r = .error (.client (.transport cause))
  | .rejected _ => ∃ e : RpcError, r = .error (.client (.rpcProtocol e.code e.message e.data))
  | .answered _ => True

variable {n}

theorem Heeds.stops {x : Action α} {r : Outcome α} (hx : n.Heeds x) (h : x.Path m es r m')
    {method : String} {params : List Value} {reply : Except Failure Value}
    (hasked : .asked (.rpc method params) reply ∈ es) (hclear : IsClear reply) :
    Stops reply r := by
  have htells := (n.replyResult_tells_iff method reply).mpr hclear
  unfold Tells at htells
  unfold Stops
  cases hverdict : verdict reply with
  | unreachable =>
    rw [hverdict] at htells
    obtain ⟨cause, hfail⟩ := htells
    exact ⟨cause, hx _ _ _ _ h _ _ _ _ hasked hfail⟩
  | rejected e =>
    rw [hverdict] at htells
    obtain ⟨error, hfail⟩ := htells
    exact ⟨error, hx _ _ _ _ h _ _ _ _ hasked hfail⟩
  | answered v => trivial

/-- Every single request tells what the reply says exactly if the reply is clear, and a failure that
a clear reply tells of stops a send. -/
theorem replies_told (n : NodeManager) (m m' : Memory) (es : List Exchange) (method : String)
    (params : List Value) (reply : Except Failure Value)
    (hasked : .asked (.rpc method params) reply ∈ es) :
    (∀ request block r, (n.call request block).Path m es r m' →
      (Tells (fun e => .ok { error := some e }) (fun v => .ok { result := v }) reply r ↔
        IsClear reply)) ∧
    (∀ address block r, (n.code address block).Path m es r m' →
      (Tells (fun e => .ok { error := some e }) (fun v => .ok { code := v }) reply r ↔
        IsClear reply)) ∧
    (∀ method' params' r, (n.result method' params').Path m es r m' →
      (Tells (fun e => .error (.client (.rpcProtocol e.code e.message e.data))) .ok reply r ↔
        IsClear reply)) ∧
    (∀ order r, (n.sendLegacy order).Path m es r m' → IsClear reply → Stops reply r) ∧
    ∀ order r, (n.sendFeeMarket order).Path m es r m' → IsClear reply → Stops reply r :=
  ⟨fun _ _ _ h => call_tells_iff h hasked, fun _ _ _ h => code_tells_iff h hasked,
    fun _ _ _ h => result_tells_iff h hasked,
    fun order _ h => (n.sendLegacy_heeds order).stops h hasked,
    fun order _ h => (n.sendFeeMarket_heeds order).stops h hasked⟩

def unsigningManager : NodeManager := { sender := .text "0x01", hasAccount := false }

def plainRequest : TransactionRequest :=
  { sender := .text "0x01", recipient := .text "0x02", data := .text "0x" }

def answeringNode (answer : Value) : Script where
  methods := [("eth_call", [.ok answer])]

def callQuestion : Question :=
  .rpc "eth_call" [.dict [("from", .text "0x01"), ("data", .text "0x"), ("value", .text "0x0"),
    ("to", .text "0x02")], .text "latest"]

def revertedAnswer : Value :=
  .dict [("error", .dict [("code", .int 3), ("message", .text "execution reverted")])]

def emptyError : Value := .dict [("error", .dict [])]

def uncodedError : Value := .dict [("error", .dict [("code", .null), ("message", .text "boom")])]

theorem reverted_answer_told :
    ∃ es r m', (unsigningManager.call plainRequest (.text "latest")).Path {} es r m' ∧
      .asked callQuestion (.ok revertedAnswer) ∈ es ∧
      ∃ error, r = .ok { error := some error } := by
  have h := Program.path_history Script.answer
    (unsigningManager.call plainRequest (.text "latest") {}) (answeringNode revertedAnswer)
  have hasked : Exchange.asked callQuestion (.ok revertedAnswer) ∈ Program.history Script.answer
      (unsigningManager.call plainRequest (.text "latest") {}) (answeringNode revertedAnswer) :=
    List.mem_cons_self
  have hclear : IsClear (.ok revertedAnswer) := ⟨rfl, _, rfl⟩
  exact ⟨_, _, _, h, hasked,
    ((replies_told unsigningManager {} {} _ _ _ _ hasked).1 plainRequest (.text "latest") _ h).mpr
      hclear⟩

/-- An error without members is taken for a success, and one whose code is null is a defect. -/
theorem unclear_errors_not_told :
    (∃ es m', (unsigningManager.call plainRequest (.text "latest")).Path {} es
        (.ok { result := .null, error := none }) m' ∧
      .asked callQuestion (.ok emptyError) ∈ es) ∧
    ∃ es m', (unsigningManager.call plainRequest (.text "latest")).Path {} es
        (.error (Failure.ofDefect .wrongKind)) m' ∧
      .asked callQuestion (.ok uncodedError) ∈ es := by
  have hempty := Program.path_history Script.answer
    (unsigningManager.call plainRequest (.text "latest") {}) (answeringNode emptyError)
  have huncoded := Program.path_history Script.answer
    (unsigningManager.call plainRequest (.text "latest") {}) (answeringNode uncodedError)
  exact ⟨⟨_, _, hempty, List.mem_cons_self⟩, _, _, huncoded, List.mem_cons_self⟩

end EvmClient.NodeManager
