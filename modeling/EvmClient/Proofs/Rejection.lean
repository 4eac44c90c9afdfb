import EvmClient.Proofs.Deployment
import EvmClient.Proofs.Execution.Asked
import EvmClient.Proofs.Failures
import EvmClient.Proofs.Node.Verdict
import EvmClient.Proofs.Value

/-!
# Errors with which a node answers a submission

A transaction or a deployment over a node never ends with an error of the protocol. One that a node
answers while the transaction is on its way is the last thing that happens, and it becomes an error
of the transaction, which says what the node said.
-/

set_option autoImplicit false

namespace EvmClient

variable {α : Type} {n : NodeManager} {m m' : Memory} {es : List Exchange}

/-! ## What a node sends -/

namespace Value.IsDecoded

variable {v : Value} {name : String}

theorem lookup {entries : Fields} (h : (Value.dict entries).IsDecoded)
    (hv : entries.lookup name = some v) : v.IsDecoded := by
  obtain _ | _ | _ | _ | _ | _ | _ | _ | h := h
  induction entries with
  | nil => cases hv
  | cons entry rest ih =>
    obtain ⟨key, w⟩ := entry
    rw [List.lookup_cons] at hv
    split at hv
    · cases hv
      exact h (key, v) List.mem_cons_self
    · exact ih hv fun entry he => h entry (List.mem_cons_of_mem _ he)

theorem lookup_getD {entries : Fields} {missing : Value} (h : (Value.dict entries).IsDecoded)
    (hmissing : missing.IsDecoded) : ((entries.lookup name).getD missing).IsDecoded := by
  cases hv : entries.lookup name with
  | none => exact hmissing
  | some v => exact h.lookup hv

end Value.IsDecoded

/-- An error object that a node sends, whose code is a whole number. -/
structure NodeError where
  entries : Fields
  code : Int
  coded : entries.lookup "code" = some (.int code)
  isDecoded : (Value.dict entries).IsDecoded

namespace NodeError

variable (e : NodeError)

def message : Value := (e.entries.lookup "message").getD (.text "")

def data : Value := e.entries.get "data"

/-- What is said about a transaction that is answered with the error: the data, or the code and the
message if there is no data. -/
def statement? : Option String := do
  let message ← e.message.text?
  if e.data.isNull then
    let code ← Number.decimal? e.code
    return s!"JsonRpcError thrown with code {code}. Message: {message}"
  else e.data.text?

def IsAnswer (reply : Except Failure Value) : Prop :=
  ∃ members, reply = .ok (.dict members) ∧ Fields.get members "error" = .dict e.entries

def Refuses (r : Outcome α) : Prop :=
  ∃ error s, r = .error (.client error) ∧ error.family = .transaction ∧
    e.statement? = some s ∧ error.message = .text s

theorem exists_message : ∃ message, e.message.text? = some message :=
  (e.isDecoded.lookup_getD (.text "")).exists_text

theorem exists_statement : ∃ s, e.statement? = some s := by
  obtain ⟨message, hmessage⟩ := e.exists_message
  rw [statement?, hmessage]
  cases hnull : e.data.isNull with
  | true =>
    obtain ⟨code, hcode⟩ := (e.isDecoded.lookup e.coded).exists_text
    have hdecimal : Number.decimal? e.code = some code := hcode
    exact ⟨_, by simp [hdecimal]; rfl⟩
  | false =>
    have hdata : e.data.IsDecoded := e.isDecoded.lookup_getD .null
    exact hdata.exists_text

variable {e}

theorem Refuses.bind {β : Type} {r : Outcome α} (h : e.Refuses r) (f : α → Outcome β) :
    e.Refuses (r >>= f) := by
  obtain ⟨error, s, rfl, herror⟩ := h
  exact ⟨error, s, rfl, herror⟩

theorem readError_entries (e : NodeError) :
    NodeManager.readError (.dict e.entries) =
      e.message.textOf.map fun message =>
        { code := .int e.code, message := .text message, data := e.data } := by
  rw [NodeManager.readError, RpcError.ofMembers, e.coded]
  cases h : e.message.textOf with
  | error d =>
    simp only [message] at h
    simp only [Option.getD_some, Value.wholeNumber, h]
    rfl
  | ok message =>
    simp only [NodeError.message] at h
    simp only [Option.getD_some, Value.wholeNumber, h]
    rfl

theorem message?_of_rejected {message : String} (h : e.message.text? = some message) :
    (TransactionCause.rejected (.int e.code) (.text message) e.data).message? =
      e.statement?.map .text := by
  rw [TransactionCause.message?, statement?, h]
  by_cases hnull : e.data.isNull = true
  · rw [if_pos hnull]
    cases hcode : Number.decimal? e.code <;>
      simp [Value.text?, Value.literal?, hnull, hcode]
  · rw [if_neg hnull]
    simp [hnull]

theorem refuses_of_rejected {message : String} (h : e.message.text? = some message) :
    e.Refuses (.error (Failure.ofError
      (.transaction (.rejected (.int e.code) (.text message) e.data))) : Outcome α) := by
  obtain ⟨s, hs⟩ := e.exists_statement
  have hm := message?_of_rejected h
  rw [hs, Option.map_some] at hm
  refine ⟨.transaction (.rejected (.int e.code) (.text message) e.data), s, ?_, rfl, hs, ?_⟩
  · rw [Failure.ofError, if_pos]
    rw [ClientError.message?, hm]
    rfl
  · rw [ClientError.message, ClientError.message?, hm]
    rfl

theorem errorOf_of_isAnswer {members : Fields} (h : Fields.get members "error" = .dict e.entries) :
    NodeManager.errorOf members = e.message.textOf.map fun message =>
      some { code := .int e.code, message := .text message, data := e.data } := by
  have htruthy : (Value.dict e.entries).isTruthy = true := by
    have hcoded := e.coded
    rw [Value.isTruthy]
    cases hentries : e.entries with
    | nil =>
      rw [hentries] at hcoded
      cases hcoded
    | cons entry rest => rfl
  rw [NodeManager.errorOf_eq, h, if_pos htruthy, readError_entries]
  cases e.message.textOf <;> rfl

theorem IsAnswer.refuses {reply : Except Failure Value} (h : e.IsAnswer reply) (method : String) :
    ∃ failure, n.replyResult method reply = .error failure ∧
      e.Refuses (.error (Execution.rejection failure) : Outcome α) := by
  obtain ⟨members, rfl, herror⟩ := h
  have hlookup : ∃ v, members.lookup "error" = some v := by
    rw [Fields.get] at herror
    cases hl : members.lookup "error" with
    | none =>
      rw [hl] at herror
      cases herror
    | some v => exact ⟨v, rfl⟩
  have hmembers : n.replyMembers method (.ok (.dict members)) = .ok members := by
    obtain ⟨v, hv⟩ := hlookup
    simp [NodeManager.replyMembers, NodeManager.properAnswer?, Fields.has, hv]
  rw [NodeManager.replyResult, hmembers]
  change ∃ failure, NodeManager.resultOf members = .error failure ∧ _
  obtain ⟨message, hmessage⟩ := e.exists_message
  rw [NodeManager.resultOf, errorOf_of_isAnswer herror, Value.textOf, hmessage]
  exact ⟨_, rfl, refuses_of_rejected hmessage⟩

end NodeError

/-! ## Executions -/

namespace Execution

def submissionMethods : List String :=
  ["eth_getBlockByNumber", "eth_chainId", "eth_getTransactionCount", "eth_sendRawTransaction",
    "eth_sendTransaction"]

/-- The outcome is no error of the protocol. An error that a submission is answered with is the last
thing that happens to a node, and the outcome tells of it. -/
structure MapsErrors (es : List Exchange) (r : Outcome α) : Prop where
  never : ∀ code message data, r ≠ .error (.client (.rpcProtocol code message data))
  halts : ∀ before method params reply after (e : NodeError),
    es = before ++ .asked (.rpc method params) reply :: after → method ∈ submissionMethods →
    e.IsAnswer reply → (∀ q reply', .asked q reply' ∉ after) ∧ e.Refuses r

theorem submit_halts (s : GasStrategy) (request : TransactionRequest) (limit : Int)
    (function : String) (isCreation : Bool) :
    n.Halts (submit (.node n) s request limit function isCreation) := by
  have hlegacy : n.Halts ((Manager.node n).sendLegacy (legacyOrder s request limit isCreation)) :=
    .bind (n.sendLegacy_halts _) fun _ => .of_asks .pure
  cases s with
  | legacy s => exact .bind (.of_asks .log) fun _ => hlegacy
  | feeMarket s =>
    refine .bind (.of_asks .log) fun _ => .bind (n.sendFeeMarket_halts _) fun receipt => ?_
    cases receipt with
    | none => exact .bind (.of_asks .log) fun _ => hlegacy
    | some receipt => exact .of_asks .pure

theorem settle_avoids {request : TransactionRequest} {receipt : Receipt} {function : String}
    {r : Except Failure Receipt}
    (h : (settle (.node n) request receipt function).Path m es r m') :
    Avoids [.rpcProtocol] r := by
  by_cases hf : receipt.isFailed = true
  · obtain ⟨failure, hr, rfl⟩ | ⟨outcome, rest, _, _, rfl⟩ := (settle_path_of_failed hf).mp h
    · obtain ⟨_, reply, _, hc, hreply⟩ := replay_path.mp hr
      have hcall : Avoids [.rpcProtocol] reply := by
        obtain ⟨_, ⟨_, _, _, rfl⟩ | ⟨_, answer, _, _, _, rfl, _⟩⟩ := NodeManager.call_path hc
        · exact .defect _
        · exact NodeManager.replyCall_avoids (by decide) answer
      have hreplay : Avoids [.rpcProtocol] (.error failure : Outcome RevertOutcome) := by
        rw [hreply]
        exact .bind hcall fun _ => .ofDefect _
      exact hreplay.failed
    · exact .fail (by simp [ClientError.family])
  · obtain ⟨_, rfl, _⟩ := (settle_path_of_not_failed (Bool.not_eq_true _ ▸ hf)).mp h
    exact .ok receipt

section

variable {x : Execution} {s : GasStrategy} {v data value : Value} {function : String}
  {isCreation : Bool}

theorem gasLimit_silent {request : TransactionRequest} {r : Except Failure (GasStrategy × Int)}
    (hl : s.limit = .constant v) (h : (gasLimit (some s) request function).Path m es r m') :
    es = [] ∧ Avoids [.rpcProtocol] r := by
  obtain ⟨reply, hreply, _, rfl⟩ := gasLimit_path.mp h
  rw [hl] at hreply
  cases hreply
  refine ⟨rfl, ?_⟩
  cases v.wholeNumber with
  | error d => exact Avoids.ofError (e := .transaction _) (by simp [ClientError.family])
  | ok limit => exact .ok _

variable (hx : x.manager = .node n) (hs : x.strategy = some s) (hl : s.limit = .constant v)
include hx hs hl

/-- A request that fails on the way to a receipt is the last step, and the failure of the whole. -/
theorem submission_stops {r : Except Failure (TransactionRequest × Receipt)}
    (h : (x.submission data value function isCreation).Path m es r m') :
    Avoids [.rpcProtocol] r ∧
      ∀ before method params reply after failure,
        es = before ++ .asked (.rpc method params) reply :: after →
        n.replyResult method reply = .error failure →
        after = [] ∧ r = .error (rejection failure) := by
  obtain ⟨failure, ha, rfl, rfl, _⟩ | ⟨amount, _, hlimit⟩ := submission_path.mp h
  · have hamount : Avoids [.rpcProtocol] (.error failure : Outcome Int) := by
      rw [← ha]
      exact Execution.amount_avoids (by decide) _ _ _
    exact ⟨hamount.failed, by simp⟩
  rw [hs] at hlimit
  obtain ⟨failure, hg, rfl⟩ | ⟨s, limit, m₁, es₁, es₂, reply, rfl, hg, hsubmit, rfl⟩ := hlimit
  · obtain ⟨rfl, havoid⟩ := gasLimit_silent hl hg
    exact ⟨havoid.failed, by simp⟩
  obtain ⟨rfl, _⟩ := gasLimit_silent hl hg
  rw [hx] at hsubmit
  refine ⟨?_, ?_⟩
  · rcases reply with failure | _ | receipt
    · exact rejection_avoids failure
    · exact .defect _
    · exact .ok _
  · intro before method params reply' after failure hes hfail
    obtain ⟨hafter, rfl⟩ := submit_halts s _ _ _ _ _ _ _ _ hsubmit _ _ _ _ _ _ hes hfail
    exact ⟨hafter, rfl⟩

theorem run_mapsErrors {r : Except Failure Receipt}
    (h : (x.run data value function isCreation).Path m es r m') : MapsErrors es r := by
  obtain ⟨failure, hsub, rfl⟩ | ⟨request, receipt, m₁, es₁, es₂, rfl, hsub, hsettle⟩ :=
    run_path.mp h
  · obtain ⟨havoid, hstop⟩ := submission_stops hx hs hl hsub
    refine ⟨?_, ?_⟩
    · intro code message data heq
      cases heq
      exact havoid _ rfl (by simp [ClientError.family])
    · intro before method params reply after e hes _ hanswer
      obtain ⟨failure', hfail, hrefuses⟩ := hanswer.refuses (n := n) method
      obtain ⟨rfl, heq⟩ := hstop _ _ _ _ _ _ hes hfail
      cases heq
      exact ⟨by simp, hrefuses⟩
  · rw [hx] at hsettle
    refine ⟨?_, ?_⟩
    · intro code message data heq
      exact settle_avoids hsettle _ heq (by simp [ClientError.family])
    · intro before method params reply after e hes hmethod hanswer
      have hasked : .asked (.rpc method params) reply ∈ es₁ ++ es₂ := by
        rw [hes]
        exact List.mem_append_right before List.mem_cons_self
      obtain hasked | hasked := List.mem_append.mp hasked
      · have hfails : ∃ failure, n.replyResult method reply = .error failure ∧
            e.Refuses (.error (rejection failure) : Outcome Receipt) := hanswer.refuses method
        obtain ⟨failure, hfail, _⟩ := hfails
        obtain ⟨before', after', hes'⟩ := List.append_of_mem hasked
        obtain ⟨_, heq⟩ := (submission_stops hx hs hl hsub).2 _ _ _ _ _ _ hes' hfail
        cases heq
      · cases (settle_asks _ _ _ _).path hsettle _ _ hasked
        exact absurd hmethod (by decide)

end

end Execution

/-! ## Handles and deployments -/

section

variable {first last before after : List Exchange} {q : Question} {reply : Except Failure q.Answer}

theorem split_after_told (hfirst : ∀ e ∈ first, ∃ notice, e = .told notice)
    (h : first ++ es = before ++ .asked q reply :: after) :
    ∃ between, before = first ++ between ∧ es = between ++ .asked q reply :: after := by
  obtain ⟨between, hbefore, hes⟩ | ⟨rest, hrest, hes⟩ := List.append_eq_append_iff.mp h
  · exact ⟨between, hbefore, hes⟩
  · cases rest with
    | nil => exact ⟨[], by simpa using hrest.symm, hes.symm⟩
    | cons e rest =>
      cases hes
      obtain ⟨notice, heq⟩ := hfirst (.asked q reply) (by simp [hrest])
      cases heq

theorem split_before_told (hlast : ∀ e ∈ last, ∃ notice, e = .told notice)
    (h : es ++ last = before ++ .asked q reply :: after) :
    ∃ rest, es = before ++ .asked q reply :: rest ∧ after = rest ++ last := by
  have hnot : .asked q reply ∉ last := by
    intro hmem
    obtain ⟨notice, heq⟩ := hlast _ hmem
    cases heq
  obtain ⟨between, _, hes⟩ | ⟨rest, hrest, hes⟩ := List.append_eq_append_iff.mp h
  · exact absurd (by simp [hes]) hnot
  · cases rest with
    | nil =>
      rw [List.nil_append] at hes
      exact absurd (hes ▸ List.mem_cons_self) hnot
    | cons e rest =>
      cases hes
      exact ⟨rest, hrest, rfl⟩

end

theorem Contract.transact_path {c : Contract} {f : Function} {value : Value}
    {r : Except Failure Receipt} :
    (c.transact f value).Path m es r m' ↔
      (∃ failure, Abi.encodeCall f = .error failure ∧ es = [] ∧ r = .error failure ∧ m' = m) ∨
      ∃ data, Abi.encodeCall f = .ok data ∧
        (c.execution.run (.text data) value f.name false).Path m es r m' :=
  Action.path_ofOutcome_bind

namespace Execution.MapsErrors

theorem of_silent {r : Outcome α} (hr : Avoids [.rpcProtocol] r)
    (hes : ∀ q reply, .asked q reply ∉ es) : MapsErrors es r where
  never := by
    intro code message data heq
    exact hr _ heq (by simp [ClientError.family])
  halts := by
    intro before method params reply after e heq
    rw [heq] at hes
    exact absurd (List.mem_append_right before List.mem_cons_self) (hes (.rpc method params) reply)

theorem bind {β : Type} {first last : List Exchange} {r : Outcome α} {f : α → Outcome β}
    (h : MapsErrors es r) (hf : ∀ a, Avoids [.rpcProtocol] (f a))
    (hfirst : ∀ e ∈ first, ∃ notice, e = .told notice)
    (hlast : ∀ e ∈ last, ∃ notice, e = .told notice) :
    MapsErrors (first ++ es ++ last) (r >>= f) where
  never := by
    intro code message data heq
    obtain rfl | ⟨a, _, ha⟩ := bind_eq_error.mp heq
    · exact h.never code message data rfl
    · exact hf a _ ha (by simp [ClientError.family])
  halts := by
    intro before method params reply after e heq hmethod hanswer
    rw [List.append_assoc] at heq
    obtain ⟨between, _, hes⟩ := split_after_told hfirst heq
    obtain ⟨rest, rfl, rfl⟩ := split_before_told hlast hes
    obtain ⟨hrest, hrefuses⟩ := h.halts _ _ _ _ _ e rfl hmethod hanswer
    refine ⟨?_, hrefuses.bind f⟩
    intro q reply' hmem
    obtain hmem | hmem := List.mem_append.mp hmem
    · exact hrest q reply' hmem
    · obtain ⟨notice, heq⟩ := hlast _ hmem
      cases heq

end Execution.MapsErrors

namespace NodeManager

/-- Whatever a node, a signer and a client that waits reply to a transaction or to a deployment with
a constant gas limit, the outcome is no error of the protocol, and tells of an error that a
submission was answered with. -/
theorem submission_errors_mapped (n : NodeManager) (m m' : Memory) (es : List Exchange)
    (v : Value) :
    (∀ (c : Contract) (s : GasStrategy) (f : Function) (value : Value) (r : Outcome Receipt),
      c.manager = .node n → c.strategy = some s → s.limit = .constant v →
      (c.transact f value).Path m es r m' → Execution.MapsErrors es r) ∧
    ∀ (d : Deployment) (r : Outcome Contract),
      d.manager = .node n → (d.strategy.getD .default).limit = .constant v →
      d.run.Path m es r m' → Execution.MapsErrors es r := by
  constructor
  · intro c s f value r hc hs hl h
    obtain ⟨failure, hencode, rfl, rfl, _⟩ | ⟨data, _, hrun⟩ := Contract.transact_path.mp h
    · refine .of_silent ?_ (by simp)
      have havoid : Avoids [.rpcProtocol] (.error failure : Outcome String) := by
        rw [← hencode]
        exact Abi.encodeCall_avoids (by decide) f
      exact havoid.failed
    · exact Execution.run_mapsErrors (x := c.execution) hc hs hl hrun
  · intro d r hd hl h
    obtain ⟨failure, hpayload, rfl, rfl⟩ |
        ⟨data, reply, m₁, rest, notices, _, hrun, rfl, rfl, hnotices⟩ := Deployment.run_path h
    · refine .of_silent ?_ ?_
      · have havoid : Avoids [.rpcProtocol] (.error failure : Outcome Value) := by
          rw [← hpayload]
          exact Deployment.payload_avoids (by decide) _ _
        exact havoid.failed
      · exact Deployment.asked_notMem_announcement
    · have hmaps := Execution.run_mapsErrors (x := d.fresh.execution) hd rfl hl hrun
      refine hmaps.bind (fun receipt => ?_) Deployment.announcement_told hnotices
      exact .ite (.ok _) (.fail (by simp [ClientError.family]))

def signingManager : NodeManager :=
  .ofAccount (.text "0x00000000000000000000000000000000000000AA") {} .null

def signingHandle : Contract where
  kind := {}
  manager := .node signingManager
  address := .text "0x00000000000000000000000000000000000000bB"
  binary := .text Contract.missingBinary
  strategy := some .default

def refusingNode (e : NodeError) : Script where
  methods := [("eth_chainId", [.ok (.dict [("result", .int 1)])]),
    ("eth_getTransactionCount", [.ok (.dict [("result", .int 5)])]),
    ("eth_sendRawTransaction", [.ok (.dict [("error", .dict e.entries)])])]

def rawQuestion : Question := .rpc "eth_sendRawTransaction" [.text "0x02f801"]

theorem refusal_asked (e : NodeError) :
    .asked rawQuestion (.ok (.dict [("error", .dict e.entries)])) ∈ Program.history Script.answer
      (signingHandle.transact { name := "f" } (.int 0) {}) (refusingNode e) :=
  List.mem_of_getElem? (i := 4) rfl

def fundsEntries : Fields := [("code", .int (-32000)), ("message", .text "insufficient funds")]

theorem fundsEntries_isDecoded : (Value.dict fundsEntries).IsDecoded := by
  refine .dict fun entry h => ?_
  simp only [fundsEntries, List.mem_cons, List.not_mem_nil, or_false] at h
  obtain rfl | rfl := h
  · exact .int (by decide +kernel)
  · exact .text _

def lackOfFunds : NodeError where
  entries := fundsEntries
  code := -32000
  coded := rfl
  isDecoded := fundsEntries_isDecoded

theorem lack_of_funds_told :
    ∃ es r m', (signingHandle.transact { name := "f" } (.int 0)).Path {} es r m' ∧
      ∃ error, r = .error (.client error) ∧ error.family = .transaction ∧
        error.message =
          .text "JsonRpcError thrown with code -32000. Message: insufficient funds" := by
  have h := Program.path_history Script.answer
    (signingHandle.transact { name := "f" } (.int 0) {}) (refusingNode lackOfFunds)
  obtain ⟨before, after, hes⟩ := List.append_of_mem (refusal_asked lackOfFunds)
  have hmaps := (submission_errors_mapped signingManager {} _ _ (.int 9000000)).1 signingHandle
    .default { name := "f" } (.int 0) _ rfl rfl rfl h
  have hrefuses := (hmaps.halts before _ _ _ after lackOfFunds hes (by decide) ⟨_, rfl, rfl⟩).2
  obtain ⟨error, s, hr, hfamily, hs, hmessage⟩ := hrefuses
  have hstatement : lackOfFunds.statement? =
      some "JsonRpcError thrown with code -32000. Message: insufficient funds" := by decide +kernel
  rw [hs, Option.some.injEq] at hstatement
  exact ⟨_, _, _, h, error, hr, hfamily, hstatement ▸ hmessage⟩

end NodeManager

end EvmClient
