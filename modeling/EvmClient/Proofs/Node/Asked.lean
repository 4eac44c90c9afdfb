import EvmClient.Proofs.Node.Send
import EvmClient.Proofs.Questions

/-!
# What a manager asks a node

A read is one question. A send asks for the newest block or the chain, for a nonce and a signature,
has the transaction taken, and waits for its receipt.
-/

set_option autoImplicit false

namespace EvmClient

/-- The fields of a transaction with its payload. The recipient is in checksum form, and is left out
where there is none. -/
structure IsTransaction (recipient data : Value) (fields : Fields) : Prop where
  data : fields.lookup "data" = some data
  recipient : (recipient.isNull = true ∧ fields.lookup "to" = none) ∨
    ∃ address, Address.canonical recipient = .ok address ∧
      fields.lookup "to" = some (.text address)

namespace NodeManager

variable (n : NodeManager)

/-! ## Single questions -/

theorem result_asks (method : String) (params : List Value) :
    (n.result method params).Asks (· = .rpc method params) := by
  rw [result_eq]
  exact .query rfl

theorem pendingNonce_asks : n.pendingNonce.Asks (· = n.nonceQuestion) :=
  .bind (n.result_asks _ _) fun _ => .ofDefect

theorem nonce_asks : n.nonce.Asks (· = n.nonceQuestion) := by
  refine .ite (fun _ => ?_) fun _ => n.pendingNonce_asks
  refine .bind (.bind .memory fun known => .ite (fun _ => ?_) fun _ => .pure) fun _ =>
    .bind .ofDefect fun _ => .bind .setNextNonce fun _ => .pure
  exact .bind n.pendingNonce_asks fun _ => .bind .setNextNonce fun _ => .pure

theorem chainId_asks : n.chainId.Asks (· = .rpc "eth_chainId" []) := by
  refine .bind .memory fun known => .ite (fun _ => ?_) fun _ => .pure
  exact .bind (n.result_asks _ _) fun _ => .bind .ofDefect fun _ => .bind .setChainId fun _ => .pure

theorem submitRaw_asks (raw : List UInt8) :
    (n.submitRaw raw).Asks (· = .rpc "eth_sendRawTransaction" [.text (Hex.markedText raw)]) := by
  refine .bind (.attempt (n.result_asks _ _)) fun result => ?_
  cases result with
  | ok hash => exact .pure
  | error failure => exact .ite (fun _ => .bind .setNextNonce fun _ => .pass) fun _ => .pass

theorem receipt_asks (hash : Value) : (n.receipt hash).Asks
    (· = .wait hash n.settings.receiptTimeout n.settings.pollLatency) := by
  refine .ite (fun _ => .bind (.attempt (.ask rfl)) fun reply => ?_) fun _ => .pure
  rcases reply with failure | _ | raw
  · exact .bind .ofDefect fun _ => .fail
  · exact .fail
  · exact .ofDefect

theorem call_asks (request : TransactionRequest) (block : Value) :
    (n.call request block).Asks fun q => ∃ parameters, request.nodeParameters = .ok parameters ∧
      q = .rpc "eth_call" [.dict parameters, blockParameter block] := by
  refine .ofDefect_bind fun parameters hp => ?_
  rw [request_eq]
  refine .bind (.query ⟨parameters, hp, rfl⟩) fun members => .bind .ofDefect fun e => ?_
  cases e with
  | none => exact .pure
  | some e => exact .bind .log fun _ => .pure

theorem code_asks (address block : Value) :
    (n.code address block).Asks (· = .rpc "eth_getCode" [address, blockParameter block]) := by
  unfold code
  rw [request_eq]
  refine .bind (.query rfl) fun members => .bind .ofDefect fun e => ?_
  cases e <;> exact .pure

/-! ## Sends -/

inductive Sends (whole : Fields) : Question → Prop where
  | count : Sends whole n.nonceQuestion
  | sign (nonce : Value) : Sends whole (.sign (whole ++ [("nonce", nonce)]))
  | raw (held : n.hasAccount = true) (bytes : List UInt8) :
      Sends whole (.rpc "eth_sendRawTransaction" [.text (Hex.markedText bytes)])
  | unsigned : Sends whole (.rpc "eth_sendTransaction" [n.unsignedForm whole])
  | wait (hash : Value) :
      Sends whole (.wait hash n.settings.receiptTimeout n.settings.pollLatency)

/-- What is asked for an order: the newest block or the chain, and what a send asks. -/
inductive Delivers (recipient data : Value) : Question → Prop where
  | block : Delivers recipient data (.rpc "eth_getBlockByNumber" [.text "latest", .bool false])
  | chain : Delivers recipient data (.rpc "eth_chainId" [])
  | send {whole : Fields} {q : Question} (h : IsTransaction recipient data whole)
      (hq : n.Sends whole q) : Delivers recipient data q

variable {n}

theorem addressed_isTransaction {base whole : Fields} {recipient data : Value}
    (hdata : base.lookup "data" = some data) (hto : base.lookup "to" = none)
    (h : addressed base recipient = .ok whole) : IsTransaction recipient data whole := by
  unfold addressed at h
  by_cases hnull : recipient.isNull = true
  · rw [if_pos hnull] at h
    cases h
    exact ⟨hdata, .inl ⟨hnull, hto⟩⟩
  · rw [if_neg hnull] at h
    obtain ⟨address, hcanonical, rfl⟩ := map_eq_ok.mp h
    refine ⟨?_, .inr ⟨address, hcanonical, ?_⟩⟩
    · simp [List.lookup_append, hdata]
    · simp [List.lookup_append, hto]

variable (n)

theorem submit_asks (whole : Fields) : (n.submit whole).Asks (n.Sends whole) := by
  refine .ite (fun held => ?_) fun _ => (n.result_asks _ _).mono fun _ hq => hq ▸ .unsigned
  refine .bind (n.nonce_asks.mono fun _ hq => hq ▸ .count) fun nonce => ?_
  exact .bind (.ask (.sign nonce)) fun raw =>
    (n.submitRaw_asks raw).mono fun _ hq => hq ▸ .raw held raw

theorem send_asks_of {P : Question → Prop} {base : Fields} {recipient : Value}
    (h : ∀ whole q, addressed base recipient = .ok whole → n.Sends whole q → P q) :
    (n.send base recipient).Asks P := by
  rw [send_eq]
  refine .ofDefect_bind fun whole hw => ?_
  refine .bind ((n.submit_asks whole).mono fun q hq => h whole q hw hq) fun hash => ?_
  exact .bind .log fun _ => (n.receipt_asks hash).mono fun q hq => h whole q hw (hq ▸ .wait hash)

theorem send_asks {base : Fields} {recipient data : Value}
    (hdata : base.lookup "data" = some data) (hto : base.lookup "to" = none) :
    (n.send base recipient).Asks (n.Delivers recipient data) :=
  n.send_asks_of fun _ _ hw hq => .send (addressed_isTransaction hdata hto hw) hq

theorem sendLegacy_asks (o : LegacyOrder) :
    (n.sendLegacy o).Asks (n.Delivers (destination o.isCreation o.recipient) o.data) := by
  rw [sendLegacy_eq]
  refine .ite (fun _ => ?_) fun _ => n.send_asks rfl rfl
  exact .bind (n.chainId_asks.mono fun _ hq => hq ▸ .chain) fun chain => n.send_asks rfl rfl

theorem sendFeeMarket_asks (o : FeeMarketOrder) :
    (n.sendFeeMarket o).Asks (n.Delivers (destination o.isCreation o.recipient) o.data) := by
  refine .bind ((n.result_asks _ _).mono fun _ hq => hq ▸ .block) fun block =>
    .bind .ofDefect fun members => ?_
  exact .ite (fun _ => .bind .log fun _ => .pure) fun _ => .map (n.send_asks rfl rfl)

end NodeManager
end EvmClient
