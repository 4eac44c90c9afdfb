import EvmClient.Proofs.Address
import EvmClient.Proofs.Execution.Phases
import EvmClient.Proofs.Node.Delegation

/-!
# One transaction behind all renderings

The transaction of an execution that fails is written out three times: its gas is estimated, it is
signed here or left to the node, and it is called again to learn why it failed. The three
dictionaries are built apart from each other, with other keys and other forms of numbers. They tell
of one transaction: the same data, the same amount, the same recipient, and the same sender where
they name one.
-/

set_option autoImplicit false

namespace EvmClient

namespace Input

theorem amount_nonneg {v : Value} {field : String} {maximum : Value} {i : Int}
    (h : amount v field maximum = .ok i) : 0 ≤ i := by
  unfold amount at h
  cases hn : amountNumber v with
  | error reason =>
    rw [hn] at h
    exact absurd h fail_ne_ok
  | ok j =>
    rw [hn] at h
    by_cases hj : j < 0
    · simp only [if_pos hj] at h
      exact absurd h fail_ne_ok
    · simp only [if_neg hj] at h
      obtain ⟨isBeyond, _, h⟩ := bind_eq_ok.mp h
      cases isBeyond with
      | true =>
        obtain ⟨_, _, h⟩ := bind_eq_ok.mp h
        exact absurd h fail_ne_ok
      | false =>
        cases h
        omega

end Input

/-- The entries tell what a transaction carries and where it goes. The recipient is a text whose
letters may be of either case; a transaction that creates a contract has none. -/
structure Describes (data : Value) (amount : Int) (recipient : Option String) (entries : Fields) :
    Prop where
  data : Fields.get entries "data" = data
  amount : (Fields.get entries "value").quantity = .ok (.int amount)
  absent : recipient = none → entries.has "to" = false
  present : ∀ s, recipient = some s →
    ∃ t, entries.lookup "to" = some (.text t) ∧ Text.lowered t = Text.lowered s

namespace Describes

variable {data v : Value} {amount : Int} {entries : Fields}

theorem nowhere (hd : entries.lookup "data" = some data) (hv : entries.lookup "value" = some v)
    (hq : v.quantity = .ok (.int amount)) (ht : entries.lookup "to" = none) :
    Describes data amount none entries where
  data := by
    rw [Fields.get, hd]
    rfl
  amount := by
    rw [Fields.get, hv]
    exact hq
  absent := by
    intro _
    rw [Fields.has, ht]
    rfl
  present := by
    intro s hs
    cases hs

theorem somewhere {s t : String} (hd : entries.lookup "data" = some data)
    (hv : entries.lookup "value" = some v) (hq : v.quantity = .ok (.int amount))
    (ht : entries.lookup "to" = some (.text t)) (hl : Text.lowered t = Text.lowered s) :
    Describes data amount (some s) entries where
  data := by
    rw [Fields.get, hd]
    rfl
  amount := by
    rw [Fields.get, hv]
    exact hq
  absent := by
    intro hs
    cases hs
  present := by
    intro s' hs
    cases hs
    exact ⟨t, ht, hl⟩

end Describes

/-- A value as a recipient: null for none, or the text of an address. -/
inductive Names : Value → Option String → Prop where
  | nowhere : Names .null none
  | address {s t field : String} (h : Input.address (.text s) field = .ok t) :
      Names (.text s) (some s)

namespace TransactionRequest

variable {request : TransactionRequest} {amount : Int} {recipient : Option String}

theorem parameters_describes (hv : request.value = .int amount)
    (hr : Names request.recipient recipient) :
    Describes request.data amount recipient request.parameters := by
  have hvalue : request.parameters.lookup "value" = some (.int amount) := by
    rw [← hv]
    rfl
  have hto : request.parameters.lookup "to" =
      (Fields.unlessNull "to" request.recipient).lookup "to" := by
    have hprice : (Fields.unlessNull "gasPrice" request.gasPrice).lookup "to" = none := by
      unfold Fields.unlessNull
      cases request.gasPrice.isNull <;> rfl
    have hlimit : (Fields.unlessNull "gas" request.gasLimit).lookup "to" = none := by
      unfold Fields.unlessNull
      cases request.gasLimit.isNull <;> rfl
    rw [parameters, List.lookup_append, List.lookup_append, List.lookup_append, hprice, hlimit,
      Option.or_none, Option.or_none]
    rfl
  generalize request.recipient = destination at hr hto
  cases hr with
  | nowhere => exact .nowhere rfl hvalue rfl hto
  | address _ => exact .somewhere rfl hvalue rfl hto rfl

theorem nodeParameters_describes (hv : request.value = .int amount) (ha : 0 ≤ amount)
    (hr : Names request.recipient recipient) :
    ∃ parameters, request.nodeParameters = .ok parameters ∧
      Describes request.data amount recipient parameters ∧
      Fields.get parameters "from" = request.sender := by
  obtain ⟨i, rfl⟩ := Int.eq_ofNat_of_zero_le ha
  refine ⟨[("from", request.sender), ("data", request.data), ("value", .text (Hex.quantity i))] ++
    Fields.unlessNull "to" request.recipient, ?_, ?_, rfl⟩
  · rw [nodeParameters, hv]
    rfl
  · generalize request.recipient = destination at hr
    cases hr with
    | nowhere => exact .nowhere rfl rfl (Value.quantity_text i) rfl
    | address _ => exact .somewhere rfl rfl (Value.quantity_text i) rfl rfl

end TransactionRequest

namespace NodeManager

variable {n : NodeManager} {m m' : Memory} {es : List Exchange}
variable {data destination : Value} {amount : Int} {recipient : Option String}

inductive IsEntryFor : Option String → Fields → Prop where
  | nowhere : IsEntryFor none []
  | address {s t : String} (h : Text.lowered t = Text.lowered s) :
      IsEntryFor (some s) [("to", .text t)]

theorem addressed_of_names (h : Names destination recipient) :
    ∃ entry, IsEntryFor recipient entry ∧
      ∀ base, addressed base destination = .ok (base ++ entry) := by
  cases h with
  | nowhere => exact ⟨[], .nowhere, addressed_of_isNull rfl⟩
  | address h =>
    obtain ⟨_, _, _, hc⟩ := Input.address_eq_ok h
    exact ⟨_, .address (Input.lowered_address h), addressed_of_canonical rfl hc⟩

structure IsBase (data value : Value) (base : Fields) : Prop where
  data : base.lookup "data" = some data
  value : base.lookup "value" = some value
  recipient : base.lookup "to" = none

theorem IsLegacyBase.isBase {o : LegacyOrder} {base : Fields} (h : IsLegacyBase n o base) :
    IsBase o.data o.value base := by
  cases h with
  | signed _ _ => exact ⟨rfl, rfl, rfl⟩
  | delegated _ => exact ⟨rfl, rfl, rfl⟩

theorem signed_describes {base entry : Fields} (hb : IsBase data (.int amount) base)
    (he : IsEntryFor recipient entry) (nonce : Value) :
    Describes data amount recipient (base ++ entry ++ [("nonce", nonce)]) := by
  have hd : (base ++ entry ++ [("nonce", nonce)]).lookup "data" = some data := by
    rw [List.lookup_append, List.lookup_append, hb.data]
    rfl
  have hv : (base ++ entry ++ [("nonce", nonce)]).lookup "value" = some (.int amount) := by
    rw [List.lookup_append, List.lookup_append, hb.value]
    rfl
  have ht : (base ++ entry ++ [("nonce", nonce)]).lookup "to" = entry.lookup "to" := by
    rw [List.lookup_append, List.lookup_append, hb.recipient]
    exact Option.or_none
  cases he with
  | nowhere => exact .nowhere hd hv rfl ht
  | address hl => exact .somewhere hd hv rfl ht hl

theorem delegated_describes {base entry : Fields} (hb : IsBase data (.int amount) base)
    (hd : data.integer? = none) (ha : 0 ≤ amount) (he : IsEntryFor recipient entry) :
    Describes data amount recipient (n.delegatedForm (base ++ entry)) := by
  obtain ⟨i, rfl⟩ := Int.eq_ofNat_of_zero_le ha
  have hd' : (n.delegatedForm (base ++ entry)).lookup "data" = some data := by
    rw [lookup_delegatedForm (by decide), List.lookup_append, hb.data, Option.some_or,
      Option.map_some, Value.nodeForm, hd]
  have hv : (n.delegatedForm (base ++ entry)).lookup "value" = some (.text (Hex.quantity i)) := by
    rw [lookup_delegatedForm (by decide), List.lookup_append, hb.value]
    rfl
  have ht : (n.delegatedForm (base ++ entry)).lookup "to" =
      (entry.lookup "to").map Value.nodeForm := by
    rw [lookup_delegatedForm (by decide), List.lookup_append, hb.recipient, Option.none_or]
  cases he with
  | nowhere => exact .nowhere hd' hv (Value.quantity_text i) ht
  | address hl => exact .somewhere hd' hv (Value.quantity_text i) ht hl

theorem WritesOut.describes {base entry : Fields} {α : Type} {given : α}
    (hb : IsBase data (.int amount) base) (hd : data.integer? = none) (ha : 0 ≤ amount)
    (he : IsEntryFor recipient entry)
    (h : n.WritesOut (base ++ entry) es (.ok given : Except Failure α)) :
    ∃ sent, renderings es = [if n.hasAccount then .signed sent else .delegated sent] ∧
      Describes data amount recipient sent ∧
      (n.hasAccount = false → Fields.get sent "from" = n.sender) := by
  cases h with
  | signed nonce held once =>
    refine ⟨_, by rw [once, if_pos held], signed_describes hb he nonce, ?_⟩
    intro hno
    rw [held] at hno
    cases hno
  | delegated held once =>
    refine ⟨_, by rw [once, held]; rfl, delegated_describes hb hd ha he, ?_⟩
    intro _
    rfl

/-! ## Submissions -/

theorem sendLegacy_writesOut_entry {o : LegacyOrder} {entry : Fields} {receipt : Receipt}
    (ha : ∀ base, addressed base (NodeManager.destination o.isCreation o.recipient) =
      .ok (base ++ entry))
    (h : (n.sendLegacy o).Path m es (.ok receipt) m') :
    ∃ base, IsBase o.data o.value base ∧
      WritesOut n (base ++ entry) es (.ok receipt : Except Failure Receipt) := by
  obtain ⟨_, _, failure, hf⟩ | ⟨base, m₁, es₁, es₂, hb, rfl, hquiet, hs⟩ := sendLegacy_writesOut h
  · cases hf
  · refine ⟨base, hb.isBase, (send_writesOut (ha base) hs).within ?_ fun _ => id⟩
    rw [renderings_append, hquiet, List.nil_append]

theorem sendFeeMarket_writesOut_entry {o : FeeMarketOrder} {entry : Fields}
    {given : Option Receipt}
    (ha : ∀ base, addressed base (NodeManager.destination o.isCreation o.recipient) =
      .ok (base ++ entry))
    (h : (n.sendFeeMarket o).Path m es (.ok given) m') :
    (given = none ∧ renderings es = []) ∨ given.isSome = true ∧ ∃ base,
      IsBase o.data o.value base ∧
        WritesOut n (base ++ entry) es (.ok given : Except Failure (Option Receipt)) := by
  obtain ⟨reply, rest, rfl, ⟨failure, _, _, hf, _⟩ | ⟨fee, _, hfee⟩⟩ := sendFeeMarket_path.mp h
  · cases hf
  obtain ⟨_, hnone, _, rfl⟩ | ⟨_, sent, hs, hsent⟩ := hfee
  · cases hnone
    exact .inl ⟨rfl, rfl⟩
  · obtain ⟨receipt, rfl, hreceipt⟩ := bind_eq_ok.mp hsent.symm
    cases hreceipt
    refine .inr ⟨rfl, feeMarketFields o, ⟨rfl, rfl, rfl⟩, (send_writesOut (ha _) hs).within rfl ?_⟩
    intro failure hf
    cases hf

end NodeManager

namespace Execution

variable {n : NodeManager} {m m' : Memory} {es es' : List Exchange}

theorem gasLimit_renders {s : GasStrategy} {factor cap : Value} {request : TransactionRequest}
    {function : String} {r : Except Failure (GasStrategy × Int)}
    (hl : s.limit = .estimated factor cap)
    (h : (gasLimit (some s) request function).Path m es r m') :
    renderings es = [.estimated request.parameters] := by
  obtain ⟨_, hlimit, _⟩ := gasLimit_path.mp h
  rw [hl] at hlimit
  cases hlimit
  rfl

theorem submit_writesOut {g : GasStrategy} {request : TransactionRequest} {limit : Int}
    {function : String} {isCreation : Bool} {entry : Fields} {receipt : Receipt}
    (hc : isCreation = true → request.recipient = .null)
    (ha : ∀ base, NodeManager.addressed base request.recipient = .ok (base ++ entry))
    (h : (submit (.node n) g request limit function isCreation).Path m es (.ok (some receipt)) m') :
    ∃ base, NodeManager.IsBase request.data request.value base ∧
      n.WritesOut (base ++ entry) es (.ok (some receipt) : Except Failure (Option Receipt)) := by
  have hdestination : NodeManager.destination isCreation request.recipient = request.recipient :=
    NodeManager.destination_eq hc
  rw [← hdestination] at ha
  have hlegacy : ∀ {m₁ : Memory} {es₁ : List Exchange}, renderings es = renderings es₁ →
      ((Manager.node n).sendLegacy (legacyOrder g request limit isCreation)).Path m₁ es₁
        (.ok (some receipt)) m' →
      ∃ base, NodeManager.IsBase request.data request.value base ∧
        n.WritesOut (base ++ entry) es (.ok (some receipt) : Except Failure (Option Receipt)) := by
    intro m₁ es₁ hes hs
    obtain ⟨sent, hs, heq⟩ := (Action.path_bind_of_ofOutcome fun _ => rfl).mp hs
    obtain ⟨_, rfl, hreceipt⟩ := bind_eq_ok.mp heq.symm
    cases hreceipt
    obtain ⟨base, hb, hw⟩ := NodeManager.sendLegacy_writesOut_entry
      (o := legacyOrder g request limit isCreation) ha hs
    refine ⟨base, hb, hw.within hes ?_⟩
    intro failure hf
    cases hf
  cases g with
  | legacy g =>
    obtain ⟨rest, rfl, hs⟩ := submit_legacy_path.mp h
    exact hlegacy (renderings_told _ rest) hs
  | feeMarket g =>
    obtain ⟨rest, rfl, ⟨_, hs⟩ | ⟨m₁, es₁, es₂, rfl, hs, hl⟩⟩ := submit_feeMarket_path.mp h
    · obtain ⟨hnone, _⟩ | ⟨_, base, hb, hw⟩ := NodeManager.sendFeeMarket_writesOut_entry
        (o := feeMarketOrder g request limit isCreation) ha hs
      · cases hnone
      · exact ⟨base, hb, hw.within rfl fun _ => id⟩
    · obtain ⟨_, hquiet⟩ | ⟨hsome, _⟩ := NodeManager.sendFeeMarket_writesOut_entry
        (o := feeMarketOrder g request limit isCreation) ha hs
      · refine hlegacy ?_ hl
        rw [renderings_told, renderings_append, hquiet]
        rfl
      · cases hsome

theorem settle_renders {request : TransactionRequest} {receipt : Receipt} {function : String}
    {r : Except Failure Receipt} {parameters : Fields} (hf : IsMinedFailure receipt)
    (hp : request.nodeParameters = .ok parameters)
    (h : (settle (.node n) request receipt function).Path m es r m') :
    renderings es = [.called parameters] := by
  have hreplay : ∀ {es : List Exchange} {r : Except Failure RevertOutcome},
      (replay (.node n) request receipt).Path m es r m' → renderings es = [.called parameters] := by
    intro es r hr
    obtain ⟨rest, reply, rfl, hcall, _⟩ := replay_path.mp hr
    obtain ⟨_, ⟨d, hd, _⟩ | ⟨_, answer, last, hparameters, rfl, _, hlast⟩⟩ :=
      NodeManager.call_path hcall
    · rw [hp] at hd
      cases hd
    · rw [hp] at hparameters
      cases hparameters
      exact congrArg (Rendering.called parameters :: ·) (renderings_eq_nil_of_told hlast)
  obtain ⟨failure, hr, _⟩ | ⟨outcome, rest, hr, rfl, _⟩ :=
    (settle_path_of_failed (isFailed_iff.mpr hf)).mp h
  · exact hreplay hr
  · rw [renderings_append, hreplay hr]
    rfl

theorem request_names (x : Execution) (data value : Value) (isCreation : Bool)
    (ha : x.address.isTruthy = true → ∃ t, Input.address x.address "address" = .ok t) :
    ∃ recipient, Names (x.request data value isCreation).recipient recipient ∧
      (recipient = none ↔ x.creates isCreation = true) := by
  have hnull := x.request_recipient_isNull data value isCreation
  cases hc : x.creates isCreation with
  | true =>
    rw [hc] at hnull
    refine ⟨none, ?_, by simp⟩
    generalize (x.request data value isCreation).recipient = destination at hnull
    cases destination <;> cases hnull
    exact .nowhere
  | false =>
    obtain ⟨hcreation, ht⟩ := Bool.or_eq_false_iff.mp hc
    rw [Bool.not_eq_false'] at ht
    obtain ⟨t, haddress⟩ := ha ht
    obtain ⟨s, hs, _⟩ := Input.address_eq_ok haddress
    have hrecipient : (x.request data value isCreation).recipient = x.address := by
      rw [request, hcreation, Value.orElse, ht]
      rfl
    rw [hs] at haddress
    refine ⟨some s, ?_, by simp⟩
    rw [hrecipient, hs]
    exact .address haddress

/-- What is estimated, what is signed or left to the node, and what is called again after the
failure tell of one transaction. -/
theorem renderings_describe_one_transaction (n : NodeManager) (address : Value) (s : GasStrategy)
    (factor cap data value : Value) (function : String) (isCreation : Bool)
    (request : TransactionRequest) (receipt : Receipt) (m m₁ m' : Memory)
    (es es' : List Exchange) (r : Except Failure Receipt)
    (hl : s.limit = .estimated factor cap) (hd : data.integer? = none)
    (ha : address.isTruthy = true → ∃ t, Input.address address "address" = .ok t)
    (hs : (submission ⟨.node n, address, some s⟩ data value function isCreation).Path m es
      (.ok (request, receipt)) m₁)
    (hf : IsMinedFailure receipt)
    (h : (run ⟨.node n, address, some s⟩ data value function isCreation).Path m (es ++ es') r m') :
    ∃ amount recipient estimated sent called,
      Input.amount value "value" = .ok amount ∧
      (recipient = none ↔ creates ⟨.node n, address, some s⟩ isCreation = true) ∧
      renderings (es ++ es') = [.estimated estimated,
        if n.hasAccount then .signed sent else .delegated sent, .called called] ∧
      Describes data amount recipient estimated ∧ Describes data amount recipient sent ∧
      Describes data amount recipient called ∧
      Fields.get estimated "from" = n.sender ∧ Fields.get called "from" = n.sender ∧
      (n.hasAccount = false → Fields.get sent "from" = n.sender) := by
  have hsettle := settle_of_run hs h
  obtain ⟨_, _, _, hr, _⟩ | ⟨amount, hamount, ⟨_, _, hr⟩ |
    ⟨g, limit, m₂, es₁, es₂, reply, rfl, hg, hsubmit, hr⟩⟩ := submission_path.mp hs
  · cases hr
  · cases hr
  obtain ⟨rfl, rfl⟩ := submissionResult_eq_ok hr.symm
  have hnonneg : 0 ≤ amount := Input.amount_nonneg hamount
  have hestimated := gasLimit_renders hl hg
  obtain ⟨recipient, hnames, hrecipient⟩ :=
    request_names ⟨.node n, address, some s⟩ data (.int amount) isCreation ha
  obtain ⟨entry, hentry, haddressed⟩ := NodeManager.addressed_of_names hnames
  obtain ⟨base, hbase, hwrites⟩ := submit_writesOut (fun hc => if_pos hc) haddressed hsubmit
  obtain ⟨called, hcalled, hdescribed, hsender⟩ :=
    TransactionRequest.nodeParameters_describes rfl hnonneg hnames
  have hreplayed := settle_renders hf hcalled hsettle
  obtain ⟨sent, honce, hsent, hfrom⟩ := hwrites.describes hbase hd hnonneg hentry
  refine ⟨amount, recipient, _, sent, called, hamount, hrecipient, ?_,
    TransactionRequest.parameters_describes rfl hnames, hsent, hdescribed, rfl, hsender, hfrom⟩
  rw [renderings_append, renderings_append, hestimated, honce, hreplayed]
  rfl

def estimatedPayment : Execution :=
  ⟨.node NodeManager.payer, NodeManager.payment.recipient,
    some (.feeMarket ⟨.int 1, .int 1, .int 20, .estimated (.int 1) GasLimit.defaultCap, .null⟩)⟩

def revertedReceipt : Receipt :=
  { transactionHash := .text "0xaa", status := .int 0, blockNumber := .int 12 }

def revertingNode : Script where
  methods := [("eth_chainId", [.ok (.dict [("result", .int 1)])]),
    ("eth_getTransactionCount", [.ok (.dict [("result", .int 5)])]),
    ("eth_getBlockByNumber", [.ok (.dict [("result", .dict [])])]),
    ("eth_sendRawTransaction", [.ok (.dict [("result", .text "0xaa")])]),
    ("eth_call", [.ok (.dict [("result", .text "0x")])])]
  receipts := [.ok (some (.dict [("transactionHash", .text "0xaa"), ("status", .int 0),
    ("blockNumber", .int 12)]))]

theorem reverted_payment_is_one_transaction :
    ∃ es r m' estimated sent called,
      (estimatedPayment.run (.text "0x01") (.int 7) "pay" false).Path {} es r m' ∧
      renderings es = [.estimated estimated, .signed sent, .called called] ∧
      Fields.get estimated "value" = .int 7 ∧ Fields.get called "value" = .text "0x7" ∧
      ∃ recipient, Describes (.text "0x01") 7 (some recipient) sent := by
  have hs : (estimatedPayment.submission (.text "0x01") (.int 7) "pay" false).Path {} _
      (.ok (estimatedPayment.request (.text "0x01") (.int 7) false, revertedReceipt)) _ :=
    Program.path_history Script.answer
      (estimatedPayment.submission (.text "0x01") (.int 7) "pay" false {}) revertingNode
  have h := Program.path_history Script.answer
    (estimatedPayment.run (.text "0x01") (.int 7) "pay" false {}) revertingNode
  have ha : estimatedPayment.address.isTruthy = true →
      ∃ t, Input.address estimatedPayment.address "address" = .ok t := fun _ => ⟨_, rfl⟩
  obtain ⟨amount, recipient, estimated, sent, called, hamount, hrecipient, hrenderings, _, hsent,
    _⟩ := renderings_describe_one_transaction NodeManager.payer estimatedPayment.address _
      (.int 1) GasLimit.defaultCap (.text "0x01") (.int 7) "pay" false _ revertedReceipt _ _ _ _
      [_, _, _] _ rfl rfl ha hs ⟨rfl, rfl, rfl⟩ h
  cases hamount
  have hsome : recipient ≠ none := by
    intro hnone
    cases hrecipient.mp hnone
  obtain ⟨s, rfl⟩ := Option.ne_none_iff_exists'.mp hsome
  refine ⟨_, _, _, estimated, sent, called, h, hrenderings, ?_, ?_, s, hsent⟩
  · cases hrenderings
    rfl
  · cases hrenderings
    rfl

end Execution
end EvmClient
