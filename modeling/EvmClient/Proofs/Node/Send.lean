import EvmClient.Proofs.Node.Reply

/-!
# The steps of a send

What each part of a send can ask, what becomes of it by the replies, and what the manager remembers
afterwards.
-/

set_option autoImplicit false

namespace EvmClient.NodeManager

variable {n : NodeManager} {m m' : Memory} {es : List Exchange}

/-! ## Nonces and chain -/

abbrev nonceQuestion (n : NodeManager) : Question :=
  .rpc "eth_getTransactionCount" [n.sender, .text "pending"]

theorem recall_path (get : Memory → Value) (put : Value → Memory → Memory) {q : Question}
    {f : Except Failure q.Answer → Outcome Value} {r : Except Failure Value} :
    (do
      let known := get (← Action.memory)
      if known.isNull then
        let v ← Action.query q f
        let _ ← (fun m => .done (.ok (), put v m) : Action Unit)
        return v
      else return known : Action Value).Path m es r m' ↔
      ((get m).isNull = true ∧ ∃ reply, es = [.asked q reply] ∧
        ((∃ failure, f reply = .error failure ∧ r = .error failure ∧ m' = m) ∨
          ∃ v, f reply = .ok v ∧ r = .ok v ∧ m' = put v m)) ∨
      ((get m).isNull = false ∧ es = [] ∧ r = .ok (get m) ∧ m' = m) := by
  simp only [Action.path_memory_bind, Action.path_ite, Action.path_query_bind, Bool.not_eq_true]
  constructor
  · intro hx
    obtain ⟨hm, reply, ⟨failure, hr, rfl, rfl, rfl⟩ | ⟨v, rest, hr, rfl, rfl, heq⟩⟩ | h := hx
    · exact .inl ⟨hm, reply, rfl, .inl ⟨failure, hr, rfl, rfl⟩⟩
    · cases heq
      exact .inl ⟨hm, reply, rfl, .inr ⟨v, hr, rfl, rfl⟩⟩
    · exact .inr ⟨h.1, Action.path_pure.mp h.2⟩
  · intro hx
    obtain ⟨hm, reply, rfl, ⟨failure, hr, rfl, rfl⟩ | ⟨v, hr, rfl, rfl⟩⟩ | h := hx
    · exact .inl ⟨hm, reply, .inl ⟨failure, hr, rfl, rfl, rfl⟩⟩
    · exact .inl ⟨hm, reply, .inr ⟨v, [], hr, rfl, rfl, rfl⟩⟩
    · exact .inr ⟨h.1, Action.path_pure.mpr h.2⟩

theorem countedNonce_path {r : Except Failure Value} :
    n.countedNonce.Path m es r m' ↔
      (m.nextNonce.isNull = true ∧ ∃ reply, es = [.asked n.nonceQuestion reply] ∧
        ((∃ failure, n.replyNonce reply = .error failure ∧ r = .error failure ∧ m' = m) ∨
          ∃ nonce, n.replyNonce reply = .ok nonce ∧ r = .ok nonce ∧
            m' = { m with nextNonce := nonce })) ∨
      (m.nextNonce.isNull = false ∧ es = [] ∧ r = .ok m.nextNonce ∧ m' = m) := by
  unfold countedNonce
  rw [pendingNonce_eq]
  exact recall_path Memory.nextNonce fun v m => { m with nextNonce := v }

theorem nonce_eq_pendingNonce (hn : n.settings.manualNonce = false) : n.nonce = n.pendingNonce := by
  unfold nonce
  rw [hn]
  rfl

theorem nonce_path {r : Except Failure Value} (hn : n.settings.manualNonce = true) :
    n.nonce.Path m es r m' ↔
      (∃ failure, n.countedNonce.Path m es (.error failure) m' ∧ r = .error failure) ∨
      ∃ nonce m₁, n.countedNonce.Path m es (.ok nonce) m₁ ∧
        ((∃ d, successor nonce = .error d ∧ r = .error (Failure.ofDefect d) ∧ m' = m₁) ∨
          ∃ next, successor nonce = .ok next ∧ r = .ok nonce ∧
            m' = { m₁ with nextNonce := next }) := by
  unfold nonce
  rw [hn, if_pos rfl, Action.path_bind]
  simp only [Action.path_ofDefect_bind, Action.path_setNextNonce_bind, Action.path_pure]
  constructor
  · intro hx
    obtain h | ⟨nonce, m₁, es₁, es₂, rfl, hc, h⟩ := hx
    · exact .inl h
    · obtain ⟨failure, hs, rfl, rfl, rfl⟩ | ⟨next, hs, rfl, rfl, rfl⟩ := h
      · exact .inr ⟨nonce, m', by simpa using hc, .inl ⟨failure, hs, rfl, rfl⟩⟩
      · exact .inr ⟨nonce, m₁, by simpa using hc, .inr ⟨next, hs, rfl, rfl⟩⟩
  · intro hx
    obtain h | ⟨nonce, m₁, hc, ⟨failure, hs, rfl, rfl⟩ | ⟨next, hs, rfl, rfl⟩⟩ := hx
    · exact .inl h
    · exact .inr ⟨nonce, m', es, [], by simp, hc, .inl ⟨failure, hs, rfl, rfl, rfl⟩⟩
    · exact .inr ⟨nonce, m₁, es, [], by simp, hc, .inr ⟨next, hs, rfl, rfl, rfl⟩⟩

def replyChain (n : NodeManager) (reply : Except Failure Value) : Outcome Value := do
  Outcome.ofDefect (← n.replyResult "eth_chainId" reply).quantity

theorem chainId_path {r : Except Failure Value} :
    n.chainId.Path m es r m' ↔
      (m.chainId.isNull = true ∧ ∃ reply, es = [.asked (.rpc "eth_chainId" []) reply] ∧
        ((∃ failure, n.replyChain reply = .error failure ∧ r = .error failure ∧ m' = m) ∨
          ∃ chain, n.replyChain reply = .ok chain ∧ r = .ok chain ∧
            m' = { m with chainId := chain })) ∨
      (m.chainId.isNull = false ∧ es = [] ∧ r = .ok m.chainId ∧ m' = m) := by
  have hq : (n.result "eth_chainId" [] >>= fun answer => Action.ofDefect answer.quantity) =
      Action.query (.rpc "eth_chainId" []) n.replyChain := by
    rw [result_eq]
    exact Action.query_bind fun _ => rfl
  have hc : n.chainId = (do
      let known := (← Action.memory).chainId
      if known.isNull then
        let chain ← Action.query (.rpc "eth_chainId" []) n.replyChain
        Action.setChainId chain
        return chain
      else return known) := by
    unfold chainId
    simp only [← hq, bind_assoc]
  rw [hc]
  exact recall_path Memory.chainId fun v m => { m with chainId := v }

/-! ## Handing in -/

/-- Whether the reply to a signed transaction says that its nonce has not been used. -/
def isRefused (n : NodeManager) (reply : Except Failure Value) : Bool :=
  match n.replyResult "eth_sendRawTransaction" reply with
  | .error failure => isRejection failure
  | .ok _ => false

theorem submitRaw_path {raw : List UInt8} {r : Except Failure Value} :
    (n.submitRaw raw).Path m es r m' ↔
      ∃ reply, es = [.asked (.rpc "eth_sendRawTransaction" [.text (Hex.markedText raw)]) reply] ∧
        r = n.replyResult "eth_sendRawTransaction" reply ∧
        m' = if n.isRefused reply then { m with nextNonce := .null } else m := by
  have hk : ∀ reply m₁ es₂, Action.Path (match n.replyResult "eth_sendRawTransaction" reply with
      | .ok hash => pure hash
      | .error failure => do
        if isRejection failure then Action.setNextNonce .null
        Action.pass failure) m₁ es₂ r m' ↔
      es₂ = [] ∧ r = n.replyResult "eth_sendRawTransaction" reply ∧
        m' = if n.isRefused reply then { m₁ with nextNonce := .null } else m₁ := by
    intro reply m₁ es₂
    unfold isRefused
    cases n.replyResult "eth_sendRawTransaction" reply with
    | ok hash => exact Action.path_pure
    | error failure =>
      cases h : isRejection failure <;> simp [h]
  unfold submitRaw
  rw [result_eq]
  simp only [Action.path_attempt_bind, Action.path_query]
  constructor
  · intro hx
    obtain ⟨r₁, m₁, es₁, es₂, rfl, ⟨reply, rfl, rfl, rfl⟩, h⟩ := hx
    obtain ⟨rfl, hr, hm⟩ := (hk reply m₁ es₂).mp h
    exact ⟨reply, rfl, hr, hm⟩
  · intro hx
    obtain ⟨reply, rfl, hr, hm⟩ := hx
    exact ⟨_, m, _, [], rfl, ⟨reply, rfl, rfl, rfl⟩, (hk reply m []).mpr ⟨rfl, hr, hm⟩⟩

theorem submitSigned_path {transaction : Fields} {r : Except Failure Value} :
    (n.submitSigned transaction).Path m es r m' ↔
      (∃ failure, n.nonce.Path m es (.error failure) m' ∧ r = .error failure) ∨
      ∃ nonce m₁ es₁, n.nonce.Path m es₁ (.ok nonce) m₁ ∧
        ((∃ failure, r = .error failure ∧ m' = m₁ ∧
            es = es₁ ++ [.asked (.sign (transaction ++ [("nonce", nonce)])) (.error failure)]) ∨
          ∃ raw reply, r = n.replyResult "eth_sendRawTransaction" reply ∧
            m' = (if n.isRefused reply then { m₁ with nextNonce := .null } else m₁) ∧
            es = es₁ ++ [.asked (.sign (transaction ++ [("nonce", nonce)])) (.ok raw),
              .asked (.rpc "eth_sendRawTransaction" [.text (Hex.markedText raw)]) reply]) := by
  unfold submitSigned
  rw [Action.path_bind]
  constructor
  · intro hx
    obtain h | ⟨nonce, m₁, es₁, es₂, rfl, hn, h⟩ := hx
    · exact .inl h
    · obtain ⟨_, ⟨failure, rfl, rfl, rfl, rfl⟩ | ⟨raw, rest, rfl, rfl, hraw⟩⟩ :=
        Action.path_ask_bind.mp h
      · exact .inr ⟨nonce, m', es₁, hn, .inl ⟨failure, rfl, rfl, rfl⟩⟩
      · obtain ⟨reply, rfl, hr, hm⟩ := submitRaw_path.mp hraw
        exact .inr ⟨nonce, m₁, es₁, hn, .inr ⟨raw, reply, hr, hm, rfl⟩⟩
  · intro hx
    obtain h | ⟨nonce, m₁, es₁, hn, ⟨failure, rfl, rfl, rfl⟩ | ⟨raw, reply, hr, hm, rfl⟩⟩ := hx
    · exact .inl h
    · exact .inr ⟨nonce, m', es₁, _, rfl, hn,
        Action.path_ask_bind.mpr ⟨_, .inl ⟨failure, rfl, rfl, rfl, rfl⟩⟩⟩
    · exact .inr ⟨nonce, m₁, es₁, _, rfl, hn, Action.path_ask_bind.mpr
        ⟨_, .inr ⟨raw, _, rfl, rfl, submitRaw_path.mpr ⟨reply, rfl, hr, hm⟩⟩⟩⟩

def unsignedForm (n : NodeManager) (transaction : Fields) : Value :=
  .dict (("from", n.sender) :: transaction.map fun entry => (entry.1, entry.2.nodeForm))

theorem submitUnsigned_path {transaction : Fields} {r : Except Failure Value} :
    (n.submitUnsigned transaction).Path m es r m' ↔
      ∃ reply, es = [.asked (.rpc "eth_sendTransaction" [n.unsignedForm transaction]) reply] ∧
        r = n.replyResult "eth_sendTransaction" reply ∧ m' = m := by
  unfold submitUnsigned
  rw [result_eq]
  exact Action.path_query

def submit (n : NodeManager) (transaction : Fields) : Action Value :=
  if n.hasAccount then n.submitSigned transaction else n.submitUnsigned transaction

/-! ## Receipts -/

def replyReceipt (n : NodeManager) (hash : Value) : Except Failure (Option Value) → Outcome Receipt
  | .ok (some raw) => Outcome.ofDefect (Receipt.ofNode raw)
  | .ok none => fail (.transactionTimeout hash n.settings.receiptTimeout)
  | .error failure => do
    let reason ← Outcome.ofDefect failure.text
    fail (.transport (.receiptWait hash reason))

theorem receipt_path {hash : Value} {r : Except Failure Receipt} :
    (n.receipt hash).Path m es r m' ↔
      (n.settings.waitForReceipt = true ∧ ∃ reply,
        es = [.asked (.wait hash n.settings.receiptTimeout n.settings.pollLatency) reply] ∧
        r = n.replyReceipt hash reply ∧ m' = m) ∨
      (n.settings.waitForReceipt = false ∧ es = [] ∧ r = .ok (Receipt.unawaited hash) ∧
        m' = m) := by
  have hq : n.receipt hash =
      if n.settings.waitForReceipt then
        Action.query (.wait hash n.settings.receiptTimeout n.settings.pollLatency)
          (n.replyReceipt hash)
      else pure (Receipt.unawaited hash) := by
    unfold receipt
    cases n.settings.waitForReceipt
    · rfl
    · apply Action.attempt_ask_bind
      intro hx
      obtain failure | _ | raw := hx
      · exact Action.ofOutcome_bind _ _
      · rfl
      · rfl
  simp only [hq, Action.path_ite, Action.path_query, Action.path_pure, Bool.not_eq_true]

/-! ## Sends -/

theorem send_eq (n : NodeManager) (transaction : Fields) (recipient : Value) :
    n.send transaction recipient = (do
      let whole ← Action.ofDefect (addressed transaction recipient)
      let hash ← n.submit whole
      Action.log .debug logger "Transaction submitted" [("tx_hash", hash), ("to", recipient)]
      n.receipt hash) := by
  unfold send submit
  cases n.hasAccount <;> rfl

theorem send_path {transaction : Fields} {recipient : Value} {r : Except Failure Receipt}
    (h : (n.send transaction recipient).Path m es r m') :
    (∃ d, addressed transaction recipient = .error d ∧ es = [] ∧
      r = .error (Failure.ofDefect d) ∧ m' = m) ∨
    ∃ whole, addressed transaction recipient = .ok whole ∧
      ((∃ failure, (n.submit whole).Path m es (.error failure) m' ∧ r = .error failure) ∨
        ∃ hash m₁ es₁ es₂, (n.submit whole).Path m es₁ (.ok hash) m₁ ∧
          es = es₁ ++ .told (.log .debug logger "Transaction submitted"
            [("tx_hash", hash), ("to", recipient)]) :: es₂ ∧
          (n.receipt hash).Path m₁ es₂ r m') := by
  rw [send_eq] at h
  obtain ⟨d, hd, rfl, rfl, rfl⟩ | ⟨whole, hw, h⟩ := Action.path_ofDefect_bind.mp h
  · exact .inl ⟨d, hd, rfl, rfl, rfl⟩
  obtain h | ⟨hash, m₁, es₁, es₂, rfl, hh, h⟩ := Action.path_bind.mp h
  · exact .inr ⟨whole, hw, .inl h⟩
  obtain ⟨rest, rfl, hr⟩ := Action.path_log_bind.mp h
  exact .inr ⟨whole, hw, .inr ⟨hash, m₁, es₁, rest, hh, rfl, hr⟩⟩

def destination (isCreation : Bool) (recipient : Value) : Value :=
  if isCreation then .null else recipient

def legacyFields (o : LegacyOrder) : Fields :=
  [("data", o.data), ("value", o.value), ("gas", o.gasLimit), ("gasPrice", o.gasPrice)]

theorem sendLegacy_eq (n : NodeManager) (o : LegacyOrder) :
    n.sendLegacy o = if n.hasAccount then (do
      let chain ← n.chainId
      n.send (legacyFields o ++ [("chainId", chain)]) (destination o.isCreation o.recipient))
    else n.send (legacyFields o) (destination o.isCreation o.recipient) := by
  unfold sendLegacy chainEntry
  cases n.hasAccount
  · rfl
  · simp only [if_true, bind_assoc, pure_bind]
    rfl

theorem sendLegacy_path {o : LegacyOrder} {r : Except Failure Receipt} :
    (n.sendLegacy o).Path m es r m' ↔
      (n.hasAccount = true ∧
        ((∃ failure, n.chainId.Path m es (.error failure) m' ∧ r = .error failure) ∨
          ∃ chain m₁ es₁ es₂, es = es₁ ++ es₂ ∧ n.chainId.Path m es₁ (.ok chain) m₁ ∧
            (n.send (legacyFields o ++ [("chainId", chain)])
              (destination o.isCreation o.recipient)).Path m₁ es₂ r m')) ∨
      (n.hasAccount = false ∧
        (n.send (legacyFields o) (destination o.isCreation o.recipient)).Path m es r m') := by
  rw [sendLegacy_eq, Action.path_ite, Action.path_bind, Bool.not_eq_true]

def feeMarketFields (o : FeeMarketOrder) : Fields :=
  [("type", .int 2), ("chainId", o.chainId), ("data", o.data), ("value", o.value),
    ("gas", o.gasLimit), ("maxPriorityFeePerGas", o.maxPriorityFee), ("maxFeePerGas", o.maxFee)]

def replyBaseFee (n : NodeManager) (reply : Except Failure Value) : Outcome Value := do
  let block ← n.replyResult "eth_getBlockByNumber" reply
  let members ← Outcome.ofDefect (Value.members (block.orElse (.dict [])))
  return members.get "baseFeePerGas"

theorem sendFeeMarket_path {o : FeeMarketOrder} {r : Except Failure (Option Receipt)} :
    (n.sendFeeMarket o).Path m es r m' ↔
      ∃ reply rest, es =
          .asked (.rpc "eth_getBlockByNumber" [.text "latest", .bool false]) reply :: rest ∧
        ((∃ failure, n.replyBaseFee reply = .error failure ∧ rest = [] ∧ r = .error failure ∧
            m' = m) ∨
          ∃ fee, n.replyBaseFee reply = .ok fee ∧
            ((fee.isNull = true ∧ r = .ok none ∧ m' = m ∧ rest = [.told (.log .warning logger
                "Node does not report a base fee, fee-market submission not applicable"
                [("chain_id", o.chainId)])]) ∨
              (fee.isNull = false ∧ ∃ sent,
                (n.send (feeMarketFields o) (destination o.isCreation o.recipient)).Path
                  m rest sent m' ∧
                r = sent >>= fun receipt => .ok (some receipt)))) := by
  have hq : (do
      let block ← n.result "eth_getBlockByNumber" [.text "latest", .bool false]
      let members ← Action.ofDefect (Value.members (block.orElse (.dict [])))
      pure (members.get "baseFeePerGas")) =
      Action.query (.rpc "eth_getBlockByNumber" [.text "latest", .bool false]) n.replyBaseFee := by
    rw [result_eq]
    exact Action.query_bind fun _ => Action.ofOutcome_bind _ fun _ => .ok _
  have hs : n.sendFeeMarket o = (do
      let fee ← Action.query (.rpc "eth_getBlockByNumber" [.text "latest", .bool false])
        n.replyBaseFee
      if fee.isNull then
        Action.log .warning logger
          "Node does not report a base fee, fee-market submission not applicable"
          [("chain_id", o.chainId)]
        return none
      else
        let receipt ← n.send (feeMarketFields o) (destination o.isCreation o.recipient)
        return some receipt) := by
    unfold sendFeeMarket
    simp only [← hq, bind_assoc, pure_bind]
    rfl
  rw [hs, Action.path_query_bind]
  simp only [Action.path_ite, Action.path_log_bind, Action.path_pure, Bool.not_eq_true]
  constructor
  · rintro ⟨reply, ⟨failure, hf, rfl, rfl, rfl⟩ |
      ⟨fee, rest, hf, rfl, ⟨hn, last, rfl, rfl, rfl, rfl⟩ | ⟨hn, h⟩⟩⟩
    · exact ⟨reply, [], rfl, .inl ⟨failure, hf, rfl, rfl, rfl⟩⟩
    · exact ⟨reply, _, rfl, .inr ⟨fee, hf, .inl ⟨hn, rfl, rfl, rfl⟩⟩⟩
    · have hsent := (Action.path_bind_of_ofOutcome fun _ => rfl).mp h
      exact ⟨reply, rest, rfl, .inr ⟨fee, hf, .inr ⟨hn, hsent⟩⟩⟩
  · rintro ⟨reply, rest, rfl, ⟨failure, hf, rfl, rfl, rfl⟩ |
      ⟨fee, hf, ⟨hn, rfl, rfl, rfl⟩ | ⟨hn, h⟩⟩⟩
    · exact ⟨reply, .inl ⟨failure, hf, rfl, rfl, rfl⟩⟩
    · exact ⟨reply, .inr ⟨fee, _, hf, rfl, .inl ⟨hn, [], rfl, rfl, rfl, rfl⟩⟩⟩
    · have hsent := (Action.path_bind_of_ofOutcome fun _ => rfl).mpr h
      exact ⟨reply, .inr ⟨fee, rest, hf, rfl, .inr ⟨hn, hsent⟩⟩⟩

end EvmClient.NodeManager
