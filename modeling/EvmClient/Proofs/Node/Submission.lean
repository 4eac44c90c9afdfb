import EvmClient.Proofs.Node.Send

/-!
# Submissions of a send

A send hands in at most one transaction. It waits for the hash that the node answered, and for no
other. A send that fails before the transaction is handed in fails for a reason that does not look
like an outcome of the transaction, unless the signer says so itself.
-/

set_option autoImplicit false

namespace EvmClient

structure Submission where
  method : String
  params : List Value
  reply : Except Failure Value

def Submission.result? (s : Submission) : Option Value :=
  match s.reply with
  | .ok (.dict members) => some (Fields.get members "result")
  | _ => none

namespace Exchange

def submission? : Exchange → Option Submission
  | .asked (.rpc method params) reply =>
    if method = "eth_sendRawTransaction" ∨ method = "eth_sendTransaction" then
      some ⟨method, params, reply⟩
    else none
  | _ => none

def signature? : Exchange → Option (Fields × Except Failure (List UInt8))
  | .asked (.sign transaction) reply => some (transaction, reply)
  | _ => none

def awaited? : Exchange → Option Value
  | .asked (.wait hash _ _) _ => some hash
  | _ => none

end Exchange

def submissions (es : List Exchange) : List Submission := es.filterMap Exchange.submission?

def signatures (es : List Exchange) : List (Fields × Except Failure (List UInt8)) :=
  es.filterMap Exchange.signature?

def awaited (es : List Exchange) : List Value := es.filterMap Exchange.awaited?

theorem submissions_append (es es' : List Exchange) :
    submissions (es ++ es') = submissions es ++ submissions es' := List.filterMap_append

theorem signatures_append (es es' : List Exchange) :
    signatures (es ++ es') = signatures es ++ signatures es' := List.filterMap_append

theorem awaited_append (es es' : List Exchange) :
    awaited (es ++ es') = awaited es ++ awaited es' := List.filterMap_append

/-- Steps that do not bear on a transaction: nothing is signed, handed in or waited for. -/
structure Quiet (es : List Exchange) : Prop where
  submissions : submissions es = []
  signatures : signatures es = []
  awaited : awaited es = []

namespace Quiet

variable {es es' : List Exchange}

theorem nil : Quiet [] := ⟨rfl, rfl, rfl⟩

theorem append (h : Quiet es) (h' : Quiet es') : Quiet (es ++ es') := by
  constructor
  · rw [submissions_append, h.submissions, h'.submissions]
    rfl
  · rw [signatures_append, h.signatures, h'.signatures]
    rfl
  · rw [awaited_append, h.awaited, h'.awaited]
    rfl

theorem told {notice : Notice} : Quiet [.told notice] := ⟨rfl, rfl, rfl⟩

theorem of_told (h : ∀ e ∈ es, ∃ notice, e = .told notice) : Quiet es := by
  induction es with
  | nil => exact nil
  | cons e es ih =>
    obtain ⟨notice, rfl⟩ := h e List.mem_cons_self
    exact told.append (ih fun e he => h e (List.mem_cons_of_mem _ he))

theorem rpc {method : String} {params : List Value} {reply : Except Failure Value}
    (h : method ≠ "eth_sendRawTransaction") (h' : method ≠ "eth_sendTransaction") :
    Quiet [.asked (.rpc method params) reply] := by
  refine ⟨?_, rfl, rfl⟩
  simp [EvmClient.submissions, Exchange.submission?, h, h']

theorem estimate {parameters : Fields} {reply : Except Failure Value} :
    Quiet [.asked (.estimate parameters) reply] := ⟨rfl, rfl, rfl⟩

end Quiet

namespace NodeManager

variable {n : NodeManager} {m m' : Memory} {es es' : List Exchange}

theorem replyNonce_plain (reply : Except Failure Value) : Plain (n.replyNonce reply) :=
  (replyResult_plain _ reply).bind fun _ => Plain.ofDefect _

theorem replyChain_plain (reply : Except Failure Value) : Plain (n.replyChain reply) :=
  (replyResult_plain _ reply).bind fun _ => Plain.ofDefect _

theorem replyBaseFee_plain (reply : Except Failure Value) : Plain (n.replyBaseFee reply) :=
  (replyResult_plain _ reply).bind fun _ => (Plain.ofDefect _).bind fun _ => Plain.ok _

/-! ## Steps before a transaction is handed in -/

theorem pendingNonce_quiet {r : Except Failure Value} (h : n.pendingNonce.Path m es r m') :
    Quiet es ∧ Plain r := by
  rw [pendingNonce_eq] at h
  obtain ⟨reply, rfl, rfl, _⟩ := Action.path_query.mp h
  exact ⟨Quiet.rpc (by decide) (by decide), replyNonce_plain reply⟩

theorem countedNonce_quiet {r : Except Failure Value} (h : n.countedNonce.Path m es r m') :
    Quiet es ∧ Plain r := by
  obtain ⟨_, reply, rfl, hr⟩ | ⟨_, rfl, rfl, _⟩ := countedNonce_path.mp h
  · refine ⟨Quiet.rpc (by decide) (by decide), ?_⟩
    obtain ⟨failure, hf, rfl, _⟩ | ⟨nonce, _, rfl, _⟩ := hr
    · rw [← hf]
      exact replyNonce_plain reply
    · exact Plain.ok nonce
  · exact ⟨Quiet.nil, Plain.ok _⟩

theorem nonce_quiet {r : Except Failure Value} (h : n.nonce.Path m es r m') :
    Quiet es ∧ Plain r := by
  by_cases hn : n.settings.manualNonce = true
  · obtain ⟨failure, hc, rfl⟩ | ⟨nonce, m₁, hc, hs⟩ := (nonce_path hn).mp h
    · have hq := countedNonce_quiet hc
      refine ⟨hq.1, ?_⟩
      intro failure' hf
      cases hf
      exact hq.2 failure rfl
    · refine ⟨(countedNonce_quiet hc).1, ?_⟩
      obtain ⟨d, _, rfl, _⟩ | ⟨next, _, rfl, _⟩ := hs
      · exact Plain.ofDefect (.error d)
      · exact Plain.ok nonce
  · rw [nonce_eq_pendingNonce (Bool.not_eq_true _ ▸ hn)] at h
    exact pendingNonce_quiet h

theorem chainId_quiet {r : Except Failure Value} (h : n.chainId.Path m es r m') :
    Quiet es ∧ Plain r := by
  obtain ⟨_, reply, rfl, hr⟩ | ⟨_, rfl, rfl, _⟩ := chainId_path.mp h
  · refine ⟨Quiet.rpc (by decide) (by decide), ?_⟩
    obtain ⟨failure, hf, rfl, _⟩ | ⟨chain, _, rfl, _⟩ := hr
    · rw [← hf]
      exact replyChain_plain reply
    · exact Plain.ok chain
  · exact ⟨Quiet.nil, Plain.ok _⟩

end NodeManager

/-! ## Sends -/

/-- Steps on which no transaction is handed in, before a failure that is not taken for an outcome of
one unless it comes from the signer. -/
structure Held (es : List Exchange) (failure : Failure) : Prop where
  submissions : submissions es = []
  awaited : awaited es = []
  signer : failure.isSettlement = true →
    ∃ transaction, .asked (.sign transaction) (.error failure) ∈ es

def Submission.IsSigned (s : Submission) (es : List Exchange) : Prop :=
  ∃ transaction raw, signatures es = [(transaction, .ok raw)] ∧
    s.method = "eth_sendRawTransaction" ∧ s.params = [.text (Hex.markedText raw)]

/-- Steps on which this transaction is handed in, and its hash alone is waited for. -/
structure HandedIn (n : NodeManager) (s : Submission) (es : List Exchange) : Prop where
  once : submissions es = [s]
  signed : n.hasAccount = true → s.IsSigned es
  awaited : ∀ hash ∈ awaited es, s.result? = some hash

inductive Sent (n : NodeManager) (es : List Exchange) : Outcome Receipt → Prop where
  | held {failure : Failure} (h : Held es failure) : Sent n es (.error failure)
  | handedIn {r : Outcome Receipt} {s : Submission} (h : HandedIn n s es)
      (empty : ∀ receipt, r = .ok receipt → receipt.isEmpty = true →
        s.result? = some receipt.transactionHash) : Sent n es r

variable {n : NodeManager} {s : Submission} {m m' : Memory} {es es' : List Exchange}

theorem Held.of_plain {failure : Failure} (h : Quiet es) (hf : failure.isSettlement = false) :
    Held es failure := by
  exact ⟨h.submissions, h.awaited, fun ht => absurd ht (ne_true_of_eq_false hf)⟩

theorem Held.after {failure : Failure} (h : Held es' failure) (hq : Quiet es) :
    Held (es ++ es') failure := by
  refine ⟨?_, ?_, ?_⟩
  · rw [submissions_append, hq.submissions, h.submissions]
    rfl
  · rw [awaited_append, hq.awaited, h.awaited]
    rfl
  · intro ht
    obtain ⟨transaction, hm⟩ := h.signer ht
    exact ⟨transaction, List.mem_append_right es hm⟩

theorem HandedIn.after (h : HandedIn n s es') (hq : Quiet es) : HandedIn n s (es ++ es') := by
  refine ⟨?_, ?_, ?_⟩
  · rw [submissions_append, hq.submissions, h.once]
    rfl
  · intro hn
    obtain ⟨transaction, raw, hs, hr⟩ := h.signed hn
    refine ⟨transaction, raw, ?_, hr⟩
    rw [signatures_append, hq.signatures, hs]
    rfl
  · intro hash hm
    rw [awaited_append, hq.awaited] at hm
    exact h.awaited hash hm

theorem HandedIn.before (h : HandedIn n s es) (hs : submissions es' = [])
    (hg : signatures es' = []) (ha : ∀ hash ∈ EvmClient.awaited es', s.result? = some hash) :
    HandedIn n s (es ++ es') := by
  refine ⟨?_, ?_, ?_⟩
  · rw [submissions_append, h.once, hs]
    rfl
  · intro hn
    obtain ⟨transaction, raw, hsig, hr⟩ := h.signed hn
    refine ⟨transaction, raw, ?_, hr⟩
    rw [signatures_append, hsig, hg]
    rfl
  · intro hash hm
    rw [awaited_append] at hm
    obtain hm | hm := List.mem_append.mp hm
    · exact h.awaited hash hm
    · exact ha hash hm

theorem Sent.after {r : Outcome Receipt} (h : Sent n es' r) (hq : Quiet es) :
    Sent n (es ++ es') r := by
  cases h with
  | held h => exact .held (h.after hq)
  | handedIn h empty => exact .handedIn (h.after hq) empty

namespace NodeManager

theorem submitSigned_once {transaction : Fields} {r : Except Failure Value}
    (h : (n.submitSigned transaction).Path m es r m') :
    (∃ failure, r = .error failure ∧ Held es failure) ∨
      ∃ s, HandedIn n s es ∧ Plain r ∧ ∀ hash, r = .ok hash → s.result? = some hash := by
  obtain ⟨failure, hf, rfl⟩ | ⟨nonce, m₁, es₁, hnonce, hs⟩ := submitSigned_path.mp h
  · have hq := nonce_quiet hf
    exact .inl ⟨failure, rfl, Held.of_plain hq.1 (hq.2 failure rfl)⟩
  have hq := (nonce_quiet hnonce).1
  obtain ⟨failure, rfl, _, rfl⟩ | ⟨raw, reply, rfl, _, rfl⟩ := hs
  · have hh : Held [.asked (.sign (transaction ++ [("nonce", nonce)])) (.error failure)] failure :=
      ⟨rfl, rfl, fun _ => ⟨_, List.mem_singleton_self _⟩⟩
    exact .inl ⟨failure, rfl, hh.after hq⟩
  · refine .inr ⟨⟨"eth_sendRawTransaction", [.text (Hex.markedText raw)], reply⟩, ?_,
      replyResult_plain _ reply, ?_⟩
    · have hh : HandedIn n ⟨"eth_sendRawTransaction", [.text (Hex.markedText raw)], reply⟩
          [.asked (.sign (transaction ++ [("nonce", nonce)])) (.ok raw),
            .asked (.rpc "eth_sendRawTransaction" [.text (Hex.markedText raw)]) reply] := by
        refine ⟨rfl, ?_, ?_⟩
        · intro _
          exact ⟨_, raw, rfl, rfl, rfl⟩
        · intro hash hm
          cases hm
      exact hh.after hq
    · intro hash hr
      obtain ⟨members, rfl, _, rfl⟩ := replyResult_eq_ok hr
      rfl

theorem submitUnsigned_once {transaction : Fields} {r : Except Failure Value}
    (hn : n.hasAccount = false) (h : (n.submitUnsigned transaction).Path m es r m') :
    ∃ s, HandedIn n s es ∧ Plain r ∧ ∀ hash, r = .ok hash → s.result? = some hash := by
  obtain ⟨reply, rfl, rfl, _⟩ := submitUnsigned_path.mp h
  refine ⟨⟨"eth_sendTransaction", [n.unsignedForm transaction], reply⟩, ⟨rfl, ?_, ?_⟩,
    replyResult_plain _ reply, ?_⟩
  · intro ha
    rw [hn] at ha
    cases ha
  · intro hash hm
    cases hm
  · intro hash hr
    obtain ⟨members, rfl, _, rfl⟩ := replyResult_eq_ok hr
    rfl

theorem submit_once {transaction : Fields} {r : Except Failure Value}
    (h : (n.submit transaction).Path m es r m') :
    (∃ failure, r = .error failure ∧ Held es failure) ∨
      ∃ s, HandedIn n s es ∧ Plain r ∧ ∀ hash, r = .ok hash → s.result? = some hash := by
  unfold submit at h
  by_cases hn : n.hasAccount = true
  · rw [if_pos hn] at h
    exact submitSigned_once h
  · rw [if_neg hn] at h
    exact .inr (submitUnsigned_once (Bool.not_eq_true _ ▸ hn) h)

theorem ofNode_not_empty {raw : Value} {receipt : Receipt}
    (h : Receipt.ofNode raw = .ok receipt) : receipt.isEmpty = false := by
  simp only [Receipt.ofNode, bind_eq_ok] at h
  obtain ⟨_, _, _, _, _, _, _, _, _, _, _, _, _, _, h⟩ := h
  cases h
  rfl

theorem receipt_awaits {hash : Value} {r : Except Failure Receipt}
    (h : (n.receipt hash).Path m es r m') :
    submissions es = [] ∧ signatures es = [] ∧ (∀ v ∈ awaited es, v = hash) ∧
      ∀ receipt, r = .ok receipt → receipt.isEmpty = true → receipt = Receipt.unawaited hash := by
  obtain ⟨_, reply, rfl, rfl, _⟩ | ⟨_, rfl, rfl, _⟩ := receipt_path.mp h
  · refine ⟨rfl, rfl, ?_, ?_⟩
    · intro v hv
      exact List.mem_singleton.mp hv
    · intro receipt hr he
      rcases reply with failure | _ | raw
      · obtain ⟨_, _, hf⟩ := bind_eq_ok.mp hr
        exact absurd hf fail_ne_ok
      · exact absurd hr fail_ne_ok
      · rw [ofNode_not_empty (Outcome.ofDefect_eq_ok.mp hr)] at he
        cases he
  · refine ⟨rfl, rfl, ?_, ?_⟩
    · intro v hv
      cases hv
    · intro receipt hr _
      cases hr
      rfl

theorem send_once {transaction : Fields} {recipient : Value} {r : Except Failure Receipt}
    (h : (n.send transaction recipient).Path m es r m') : Sent n es r := by
  obtain ⟨d, _, rfl, rfl, _⟩ | ⟨whole, _, hs⟩ := send_path h
  · exact .held (Held.of_plain Quiet.nil rfl)
  obtain ⟨failure, hf, rfl⟩ | ⟨hash, m₁, es₁, es₂, hh, rfl, hr⟩ := hs
  · obtain ⟨_, heq, hheld⟩ | ⟨s, hin, _⟩ := submit_once hf
    · cases heq
      exact .held hheld
    · refine .handedIn hin ?_
      intro receipt heq
      cases heq
  · obtain ⟨_, heq, _⟩ | ⟨s, hin, _, hhash⟩ := submit_once hh
    · cases heq
    obtain ⟨hsub, hsig, haw, hempty⟩ := receipt_awaits hr
    refine .handedIn (hin.before hsub hsig ?_) ?_
    · intro v hv
      rw [haw v hv]
      exact hhash hash rfl
    · intro receipt heq he
      rw [hempty receipt heq he]
      exact hhash hash rfl

theorem sendLegacy_once {o : LegacyOrder} {r : Except Failure Receipt}
    (h : (n.sendLegacy o).Path m es r m') : Sent n es r := by
  obtain ⟨_, hc⟩ | ⟨_, hs⟩ := sendLegacy_path.mp h
  · obtain ⟨failure, hf, rfl⟩ | ⟨chain, m₁, es₁, es₂, rfl, hchain, hs⟩ := hc
    · have hq := chainId_quiet hf
      exact .held (Held.of_plain hq.1 (hq.2 failure rfl))
    · exact (send_once hs).after (chainId_quiet hchain).1
  · exact send_once hs

theorem sendFeeMarket_once {o : FeeMarketOrder} {r : Except Failure (Option Receipt)}
    (h : (n.sendFeeMarket o).Path m es r m') :
    (r = .ok none ∧ Quiet es) ∨
      ∃ sent, Sent n es sent ∧ r = sent >>= fun receipt => .ok (some receipt) := by
  obtain ⟨reply, rest, rfl, hr⟩ := sendFeeMarket_path.mp h
  have hq : Quiet [.asked (.rpc "eth_getBlockByNumber" [.text "latest", .bool false]) reply] :=
    Quiet.rpc (by decide) (by decide)
  obtain ⟨failure, hf, rfl, rfl, _⟩ | ⟨fee, _, hfee⟩ := hr
  · have hp := replyBaseFee_plain reply failure hf
    exact .inr ⟨_, .held (Held.of_plain hq hp), rfl⟩
  obtain ⟨_, rfl, _, rfl⟩ | ⟨_, sent, hs, rfl⟩ := hfee
  · exact .inl ⟨rfl, hq.append Quiet.told⟩
  · exact .inr ⟨sent, (send_once hs).after hq, rfl⟩

end NodeManager
end EvmClient
