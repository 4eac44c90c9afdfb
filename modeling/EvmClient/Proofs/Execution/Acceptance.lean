import EvmClient.Proofs.Execution.Asked

/-!
# Transactions that are taken, and their receipts

A manager in memory takes a transaction by giving its receipt, and a node by answering with its
hash. The receipt that belongs to a hash is read from what the client of the node gives, or is empty
where nobody waits. An execution has at most one transaction taken. It gives the receipt, or fails
with no receipt at all or with one that tells of a failure.
-/

set_option autoImplicit false

namespace EvmClient

def NodeManager.answered? : Except Failure Value → Option Value
  | .error _ => none
  | .ok answer => do
    let members ← properAnswer? answer
    match errorOf members with
    | .ok none => some (members.get "result")
    | _ => none

namespace Exchange

def hash? : Exchange → Option Value
  | asked (.rpc method _) reply =>
    if method = "eth_sendRawTransaction" ∨ method = "eth_sendTransaction" then
      NodeManager.answered? reply
    else none
  | _ => none

def isAccepted : Exchange → Bool
  | asked (.legacy _) (.ok (some _)) => true
  | asked (.feeMarket _) (.ok (some _)) => true
  | e => e.hash?.isSome

/-- The receipt of a transaction. Over a node it comes with waiting, or else it is empty. -/
def receipt? (awaits : Bool) : Exchange → Option Receipt
  | asked (.legacy _) (.ok receipt) => receipt
  | asked (.feeMarket _) (.ok receipt) => receipt
  | asked (.wait ..) (.ok (some raw)) => (Receipt.ofNode raw).toOption
  | e => if awaits then none else e.hash?.map Receipt.unawaited

end Exchange

def accepted (es : List Exchange) : List Exchange := es.filter Exchange.isAccepted

def Manager.awaits : Manager → Bool
  | inMemory _ => true
  | node n => n.settings.waitForReceipt

def Manager.receipts (manager : Manager) (es : List Exchange) : List Receipt :=
  es.filterMap (Exchange.receipt? manager.awaits)

variable {α : Type} {manager : Manager} {m m' : Memory} {es es' : List Exchange}

theorem accepted_append (es es' : List Exchange) :
    accepted (es ++ es') = accepted es ++ accepted es' := List.filter_append ..

theorem Manager.receipts_append (manager : Manager) (es es' : List Exchange) :
    manager.receipts (es ++ es') = manager.receipts es ++ manager.receipts es' :=
  List.filterMap_append

theorem Manager.receipts_told (manager : Manager) (notice : Notice) (es : List Exchange) :
    manager.receipts (.told notice :: es) = manager.receipts es := by
  refine List.filterMap_cons_none ?_
  cases manager.awaits <;> rfl

structure IsInert (manager : Manager) (es : List Exchange) : Prop where
  accepted : accepted es = []
  receipts : manager.receipts es = []

structure Question.IsInert (q : Question) : Prop where
  accepted : ∀ reply, (Exchange.asked q reply).isAccepted = false
  receipt : ∀ reply awaits, (Exchange.asked q reply).receipt? awaits = none

theorem Question.isInert_rpc {method : String} {params : List Value}
    (h : method ≠ "eth_sendRawTransaction") (h' : method ≠ "eth_sendTransaction") :
    (Question.rpc method params).IsInert where
  accepted reply := by simp [Exchange.isAccepted, Exchange.hash?, h, h']
  receipt reply awaits := by simp [Exchange.receipt?, Exchange.hash?, h, h']

theorem Question.isInert_sign (transaction : Fields) : (Question.sign transaction).IsInert where
  accepted _ := rfl
  receipt _ awaits := by cases awaits <;> rfl

theorem Question.isInert_estimate (parameters : Fields) :
    (Question.estimate parameters).IsInert where
  accepted _ := rfl
  receipt _ awaits := by cases awaits <;> rfl

theorem Question.isInert_call (request : TransactionRequest) (block : Value) :
    (Question.call request block).IsInert where
  accepted _ := rfl
  receipt _ awaits := by cases awaits <;> rfl

namespace IsInert

theorem nil : IsInert manager [] := ⟨rfl, rfl⟩

theorem append (h : IsInert manager es) (h' : IsInert manager es') :
    IsInert manager (es ++ es') := by
  constructor
  · rw [accepted_append, h.accepted, h'.accepted]
    rfl
  · rw [manager.receipts_append, h.receipts, h'.receipts]
    rfl

theorem told {notice : Notice} : IsInert manager [.told notice] :=
  ⟨rfl, manager.receipts_told notice []⟩

theorem of_told (h : ∀ e ∈ es, ∃ notice, e = .told notice) : IsInert manager es := by
  induction es with
  | nil => exact nil
  | cons e es ih =>
    obtain ⟨notice, rfl⟩ := h e List.mem_cons_self
    exact told.append (ih fun e he => h e (List.mem_cons_of_mem _ he))

theorem asked {q : Question} {reply : Except Failure q.Answer} (h : q.IsInert) :
    IsInert manager [.asked q reply] where
  accepted := List.filter_cons_of_neg (by simp [h.accepted])
  receipts := List.filterMap_cons_none (h.receipt _ _)

theorem of_asks {x : Action α} {r : Except Failure α} (hx : x.Asks Question.IsInert)
    (h : x.Path m es r m') : IsInert manager es := by
  have hq := hx.path h
  clear h
  induction es with
  | nil => exact nil
  | cons e es ih =>
    have hrest := ih fun q reply hmem => hq q reply (List.mem_cons_of_mem _ hmem)
    cases e with
    | told notice => exact told.append hrest
    | asked q reply => exact (asked (hq q reply List.mem_cons_self)).append hrest

end IsInert

/-- What has come of a submission: one transaction has been taken and this is the only receipt, or
there is no receipt. -/
inductive Obtains (manager : Manager) (es : List Exchange) : Outcome (Option Receipt) → Prop where
  | receipt {receipt : Receipt} (once : ∃ e, accepted es = [e])
      (only : manager.receipts es = [receipt]) : Obtains manager es (.ok (some receipt))
  | nothing {r : Outcome (Option Receipt)} (h : ∀ receipt, r ≠ .ok (some receipt))
      (none : manager.receipts es = []) : Obtains manager es r

namespace Obtains

variable {r : Outcome (Option Receipt)}

theorem failed {failure : Failure} (h : manager.receipts es = []) :
    Obtains manager es (.error failure) :=
  .nothing (fun _ heq => nomatch heq) h

theorem after (h : Obtains manager es' r) (hes : IsInert manager es) :
    Obtains manager (es ++ es') r := by
  cases h with
  | receipt once only =>
    refine .receipt ?_ ?_
    · rwa [accepted_append, hes.accepted, List.nil_append]
    · rw [manager.receipts_append, hes.receipts, only]
      rfl
  | nothing h none =>
    refine .nothing h ?_
    rw [manager.receipts_append, hes.receipts, none]
    rfl

end Obtains

/-! ## Sends -/

namespace NodeManager

variable {n : NodeManager}

theorem replyResult_eq_ok_iff {method : String} {reply : Except Failure Value} {v : Value} :
    n.replyResult method reply = .ok v ↔ answered? reply = some v := by
  cases reply with
  | error failure =>
    refine iff_of_false (fun h => ?_) nofun
    obtain ⟨_, heq, _⟩ := replyResult_eq_ok h
    cases heq
  | ok answer =>
    cases hp : properAnswer? answer with
    | none =>
      refine iff_of_false (fun h => ?_) (by simp [answered?, hp])
      obtain ⟨members, hm, _⟩ := bind_eq_ok.mp h
      simp only [replyMembers, hp] at hm
      exact absurd hm fail_ne_ok
    | some members =>
      have hmembers : n.replyMembers method (.ok answer) = .ok members := by
        simp only [replyMembers, hp]
      rw [replyResult, hmembers]
      change resultOf members = .ok v ↔ _
      rw [resultOf_eq_ok]
      rcases he : errorOf members with _ | _ | _ <;> simp [answered?, hp, he, eq_comm]

/-- What has come of handing in: the node has taken one transaction, whose receipt has not come yet
unless nobody is going to wait, or there is no receipt. -/
inductive Takes (n : NodeManager) (es : List Exchange) : Outcome Value → Prop where
  | taken {hash : Value} (once : ∃ e, accepted es = [e])
      (receipts : (Manager.node n).receipts es =
        if n.settings.waitForReceipt then [] else [Receipt.unawaited hash]) :
      Takes n es (.ok hash)
  | refused {failure : Failure} (none : (Manager.node n).receipts es = []) :
      Takes n es (.error failure)

theorem Takes.after {r : Outcome Value} (h : Takes n es' r) (hes : IsInert (.node n) es) :
    Takes n (es ++ es') r := by
  cases h with
  | taken once receipts =>
    refine .taken ?_ ?_
    · rwa [accepted_append, hes.accepted, List.nil_append]
    · rw [Manager.receipts_append, hes.receipts, receipts]
      rfl
  | refused none =>
    refine .refused ?_
    rw [Manager.receipts_append, hes.receipts, none]
    rfl

theorem takes_of_reply {method : String} (params : List Value) (reply : Except Failure Value)
    (hmethod : method = "eth_sendRawTransaction" ∨ method = "eth_sendTransaction") :
    Takes n [.asked (.rpc method params) reply] (n.replyResult method reply) := by
  have hhash : (Exchange.asked (.rpc method params) reply).hash? = answered? reply := if_pos hmethod
  have hreceipt : (Manager.node n).receipts [.asked (.rpc method params) reply] =
      (if n.settings.waitForReceipt then none
        else (answered? reply).map Receipt.unawaited).toList := by
    rw [← hhash, Manager.receipts, List.filterMap_cons]
    cases h : n.settings.waitForReceipt <;>
      simp only [Exchange.receipt?, Manager.awaits, h] <;>
      cases (Exchange.asked (.rpc method params) reply).hash? <;> rfl
  cases hr : n.replyResult method reply with
  | ok hash =>
    have hanswered := replyResult_eq_ok_iff.mp hr
    rw [hanswered] at hhash hreceipt
    refine .taken ⟨_, List.filter_cons_of_pos ?_⟩ ?_
    · rw [Exchange.isAccepted, hhash]
      · rfl
      · exact nofun
      · exact nofun
    · rw [hreceipt]
      cases n.settings.waitForReceipt <;> rfl
  | error failure =>
    have hnone : answered? reply = none := by
      cases ha : answered? reply with
      | none => rfl
      | some hash =>
        have hok : n.replyResult method reply = .ok hash := replyResult_eq_ok_iff.mpr ha
        rw [hr] at hok
        cases hok
    refine .refused ?_
    rw [hreceipt, hnone]
    cases n.settings.waitForReceipt <;> rfl

theorem nonce_isInert {r : Except Failure Value} (h : n.nonce.Path m es r m') :
    IsInert (.node n) es :=
  .of_asks (n.nonce_asks.mono fun _ hq => hq ▸ Question.isInert_rpc (by decide) (by decide)) h

theorem chainId_isInert {r : Except Failure Value} (h : n.chainId.Path m es r m') :
    IsInert (.node n) es :=
  .of_asks (n.chainId_asks.mono fun _ hq => hq ▸ Question.isInert_rpc (by decide) (by decide)) h

theorem submit_takes {whole : Fields} {r : Except Failure Value}
    (h : (n.submit whole).Path m es r m') : Takes n es r := by
  unfold submit at h
  by_cases hn : n.hasAccount = true
  · rw [if_pos hn] at h
    have hsign : ∀ transaction reply, IsInert (.node n) [.asked (.sign transaction) reply] :=
      fun transaction _ => .asked (Question.isInert_sign transaction)
    obtain ⟨failure, hf, rfl⟩ | ⟨nonce, m₁, es₁, hnonce, hs⟩ := submitSigned_path.mp h
    · exact .refused (nonce_isInert hf).receipts
    have hinert := nonce_isInert hnonce
    obtain ⟨failure, rfl, _, rfl⟩ | ⟨raw, reply, rfl, _, rfl⟩ := hs
    · exact .refused (hinert.append (hsign _ _)).receipts
    · exact ((takes_of_reply _ reply (.inl rfl)).after (hsign _ _)).after hinert
  · rw [if_neg hn] at h
    obtain ⟨reply, rfl, rfl, _⟩ := submitUnsigned_path.mp h
    exact takes_of_reply _ reply (.inr rfl)

theorem receipt?_wait {hash timeout latency : Value} {reply : Except Failure (Option Value)}
    (n : NodeManager) (awaits : Bool) :
    (Exchange.asked (.wait hash timeout latency) reply).receipt? awaits =
      (n.replyReceipt hash reply).toOption := by
  rcases reply with failure | _ | raw
  · have hnone : (n.replyReceipt hash (.error failure)).toOption = none := by
      simp only [replyReceipt]
      cases failure.text <;> rfl
    rw [hnone]
    cases awaits <;> rfl
  · cases awaits <;> rfl
  · simp only [Exchange.receipt?, replyReceipt]
    cases Receipt.ofNode raw <;> rfl

theorem receipt_receipts {hash : Value} {r : Except Failure Receipt}
    (h : (n.receipt hash).Path m es r m') :
    accepted es = [] ∧
      (if n.settings.waitForReceipt then [] else [Receipt.unawaited hash]) ++
        (Manager.node n).receipts es = r.toOption.toList := by
  obtain ⟨hwait, reply, rfl, rfl, _⟩ | ⟨hwait, rfl, rfl, _⟩ := receipt_path.mp h
  · refine ⟨rfl, ?_⟩
    rw [if_pos hwait, List.nil_append, Manager.receipts, List.filterMap_cons, receipt?_wait n]
    cases (n.replyReceipt hash reply).toOption <;> rfl
  · refine ⟨rfl, ?_⟩
    rw [hwait]
    rfl

theorem send_obtains {base : Fields} {recipient : Value} {r : Except Failure Receipt}
    (h : (n.send base recipient).Path m es r m') :
    Obtains (.node n) es (r >>= fun receipt => .ok (some receipt)) := by
  obtain ⟨d, _, rfl, rfl, _⟩ | ⟨whole, _, hs⟩ := send_path h
  · exact .failed rfl
  obtain ⟨failure, hf, rfl⟩ | ⟨hash, m₁, es₁, es₂, hh, rfl, hr⟩ := hs
  · cases submit_takes hf with
    | refused none => exact .failed none
  · obtain ⟨haccepted, hreceipts⟩ := receipt_receipts hr
    cases submit_takes hh with
    | taken once receipts =>
      have hall : (Manager.node n).receipts (es₁ ++ .told (.log .debug logger
          "Transaction submitted" [("tx_hash", hash), ("to", recipient)]) :: es₂) =
            r.toOption.toList := by
        rw [Manager.receipts_append, Manager.receipts_told, receipts, hreceipts]
      cases r with
      | error failure => exact .failed hall
      | ok receipt =>
        refine .receipt ?_ hall
        obtain ⟨e, he⟩ := once
        have hnotice : ∀ notice, accepted (.told notice :: es₂) = accepted es₂ := fun _ => rfl
        exact ⟨e, by rw [accepted_append, he, hnotice, haccepted]; rfl⟩

theorem sendLegacy_obtains {o : LegacyOrder} {r : Except Failure Receipt}
    (h : (n.sendLegacy o).Path m es r m') :
    Obtains (.node n) es (r >>= fun receipt => .ok (some receipt)) := by
  obtain ⟨_, hc⟩ | ⟨_, hs⟩ := sendLegacy_path.mp h
  · obtain ⟨failure, hf, rfl⟩ | ⟨chain, m₁, es₁, es₂, rfl, hchain, hs⟩ := hc
    · exact .failed (chainId_isInert hf).receipts
    · exact (send_obtains hs).after (chainId_isInert hchain)
  · exact send_obtains hs

theorem sendFeeMarket_obtains {o : FeeMarketOrder} {r : Except Failure (Option Receipt)}
    (h : (n.sendFeeMarket o).Path m es r m') :
    Obtains (.node n) es r ∧ (r = .ok none → IsInert (.node n) es) := by
  obtain ⟨reply, rest, rfl, hr⟩ := sendFeeMarket_path.mp h
  have hblock : IsInert (.node n)
      [.asked (.rpc "eth_getBlockByNumber" [.text "latest", .bool false]) reply] :=
    .asked (Question.isInert_rpc (by decide) (by decide))
  obtain ⟨failure, _, rfl, rfl, _⟩ | ⟨fee, _, ⟨_, rfl, _, rfl⟩ | ⟨_, sent, hs, rfl⟩⟩ := hr
  · exact ⟨.failed hblock.receipts, nofun⟩
  · have hwarning : IsInert (.node n) [.told (.log .warning logger
        "Node does not report a base fee, fee-market submission not applicable"
        [("chain_id", o.chainId)])] := .told
    have hinert := hblock.append hwarning
    exact ⟨.nothing nofun hinert.receipts, fun _ => hinert⟩
  · refine ⟨(send_obtains hs).after hblock, ?_⟩
    intro heq
    obtain ⟨_, _, hsome⟩ := bind_eq_ok.mp heq
    cases hsome

end NodeManager

/-! ## Executions -/

namespace Manager

theorem sendLegacy_obtains {o : LegacyOrder} {r : Except Failure (Option Receipt)}
    (h : (manager.sendLegacy o).Path m es r m') : Obtains manager es r := by
  cases manager with
  | inMemory sender =>
    obtain ⟨rfl, _⟩ := Action.path_ask.mp h
    rcases r with failure | _ | receipt
    · exact .failed rfl
    · exact .nothing nofun rfl
    · exact .receipt ⟨_, rfl⟩ rfl
  | node n =>
    obtain ⟨sent, hs, rfl⟩ := (Action.path_bind_of_ofOutcome fun _ => rfl).mp h
    exact NodeManager.sendLegacy_obtains hs

theorem sendFeeMarket_obtains {o : FeeMarketOrder} {r : Except Failure (Option Receipt)}
    (h : (manager.sendFeeMarket o).Path m es r m') :
    Obtains manager es r ∧ (r = .ok none → IsInert manager es) := by
  cases manager with
  | inMemory sender =>
    obtain ⟨rfl, _⟩ := Action.path_ask.mp h
    rcases r with failure | _ | receipt
    · exact ⟨.failed rfl, nofun⟩
    · exact ⟨.nothing nofun rfl, fun _ => ⟨rfl, rfl⟩⟩
    · exact ⟨.receipt ⟨_, rfl⟩ rfl, nofun⟩
  | node n => exact NodeManager.sendFeeMarket_obtains h

end Manager

namespace Execution

theorem submit_obtains {s : GasStrategy} {request : TransactionRequest} {limit : Int}
    {function : String} {isCreation : Bool} {r : Except Failure (Option Receipt)}
    (h : (submit manager s request limit function isCreation).Path m es r m') :
    Obtains manager es r := by
  cases s with
  | legacy s =>
    obtain ⟨rest, rfl, hs⟩ := submit_legacy_path.mp h
    exact (Manager.sendLegacy_obtains hs).after .told
  | feeMarket s =>
    obtain ⟨rest, rfl, ⟨_, hs⟩ | ⟨m₁, es₁, es₂, rfl, hs, hl⟩⟩ := submit_feeMarket_path.mp h
    · exact (Manager.sendFeeMarket_obtains hs).1.after .told
    · have hinert := (Manager.sendFeeMarket_obtains hs).2 rfl
      exact (((Manager.sendLegacy_obtains hl).after .told).after hinert).after .told

theorem gasLimit_isInert {strategy : Option GasStrategy} {request : TransactionRequest}
    {function : String} {r : Except Failure (GasStrategy × Int)}
    (h : (gasLimit strategy request function).Path m es r m') : IsInert manager es :=
  .of_asks ((gasLimit_asks _ _ _).mono fun _ hq => hq ▸ Question.isInert_estimate _) h

theorem settle_isInert {request : TransactionRequest} {receipt : Receipt} {function : String}
    {r : Except Failure Receipt} (h : (settle manager request receipt function).Path m es r m') :
    IsInert manager es := by
  refine .of_asks ((settle_asks _ _ _ _).mono fun q hq => ?_) h
  cases hq with
  | inMemory block => exact Question.isInert_call _ _
  | node _ block => exact Question.isInert_rpc (by decide) (by decide)

/-- What has come of an execution: its receipt is the only one and tells of no failure, or all
receipts tell of one. -/
inductive Concludes (manager : Manager) (es : List Exchange) : Outcome Receipt → Prop where
  | receipt {receipt : Receipt} (once : ∃ e, accepted es = [e])
      (only : manager.receipts es = [receipt]) (succeeded : receipt.isFailed = false) :
      Concludes manager es (.ok receipt)
  | failure {failure : Failure} (h : ∀ receipt ∈ manager.receipts es, receipt.isFailed = true) :
      Concludes manager es (.error failure)

theorem submission_obtains {x : Execution} {data value : Value} {function : String}
    {isCreation : Bool} {r : Except Failure (TransactionRequest × Receipt)}
    (h : (x.submission data value function isCreation).Path m es r m') :
    Obtains x.manager es (r >>= fun submitted => .ok (some submitted.2)) := by
  obtain ⟨failure, _, rfl, rfl, _⟩ | ⟨amount, _, hl⟩ := submission_path.mp h
  · exact .failed rfl
  obtain ⟨failure, hg, rfl⟩ | ⟨s, limit, m₁, es₁, es₂, reply, rfl, hg, hs, rfl⟩ := hl
  · exact .failed (gasLimit_isInert hg).receipts
  have hobtains := (submit_obtains hs).after (gasLimit_isInert hg)
  rcases reply with failure | _ | receipt
  · cases hobtains with
    | nothing _ none => exact .failed none
  · cases hobtains with
    | nothing _ none => exact .failed none
  · exact hobtains

theorem run_concludes {x : Execution} {data value : Value} {function : String}
    {isCreation : Bool} {r : Except Failure Receipt}
    (h : (x.run data value function isCreation).Path m es r m') : Concludes x.manager es r := by
  obtain ⟨failure, hs, rfl⟩ | ⟨request, receipt, m₁, es₁, es₂, rfl, hs, hsettle⟩ := run_path.mp h
  · cases submission_obtains hs with
    | nothing _ none =>
      refine .failure fun receipt hmem => ?_
      rw [none] at hmem
      cases hmem
  · have hinert : IsInert x.manager es₂ := settle_isInert hsettle
    cases submission_obtains hs with
    | nothing h _ => exact absurd rfl (h receipt)
    | receipt once only =>
      have haccepted : ∃ e, accepted (es₁ ++ es₂) = [e] := by
        rwa [accepted_append, hinert.accepted, List.append_nil]
      have hreceipts : x.manager.receipts (es₁ ++ es₂) = [receipt] := by
        rw [Manager.receipts_append, only, hinert.receipts, List.append_nil]
      by_cases hf : receipt.isFailed = true
      · have hall : ∀ given ∈ x.manager.receipts (es₁ ++ es₂), given.isFailed = true := by
          rw [hreceipts]
          simpa using hf
        obtain ⟨failure, _, rfl⟩ | ⟨outcome, rest, _, _, rfl⟩ :=
          (settle_path_of_failed hf).mp hsettle
        · exact .failure hall
        · exact .failure hall
      · rw [Bool.not_eq_true] at hf
        obtain ⟨_, rfl, _⟩ := (settle_path_of_not_failed hf).mp hsettle
        exact .receipt haccepted hreceipts hf

end Execution
end EvmClient
