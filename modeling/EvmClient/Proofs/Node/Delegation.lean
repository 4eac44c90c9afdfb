import EvmClient.Proofs.Node.Rendering
import EvmClient.Proofs.Quantity
import EvmClient.Proofs.Recipient
import Mathlib.Data.List.Forall2

/-!
# Signing here and signing at the node

A manager that holds an account has a transaction signed, with numbers in it; one that does not
leaves it to the node, with hexadecimal texts. The two are the same transaction: the node is given
the sender and every entry that is signed, except for those that only a signer needs.
-/

set_option autoImplicit false

namespace EvmClient

def Value.IsUnsigned (v : Value) : Prop := ∀ i, v.integer? = some i → 0 ≤ i

/-- An entry as a node takes it: a number as hexadecimal text that reads back as the number, all
else as it is. -/
structure Restates (entry restated : String × Value) : Prop where
  name : restated.1 = entry.1
  number : ∀ i, entry.2.integer? = some i → ∃ s, restated.2 = .text s ∧
    "0x".isPrefixOf s = true ∧ (Value.text s).quantity = .ok (.int i)
  other : entry.2.integer? = none → restated.2 = entry.2

theorem restates_nodeForm {entry : String × Value} (h : entry.2.IsUnsigned) :
    Restates entry (entry.1, entry.2.nodeForm) where
  name := rfl
  number := by
    intro i hi
    obtain ⟨n, rfl⟩ := Int.eq_ofNat_of_zero_le (h i hi)
    refine ⟨Hex.quantity n, ?_, Hex.isPrefixOf_quantity n, Value.quantity_text n⟩
    rw [Value.nodeForm, hi]
  other := by
    intro hi
    rw [Value.nodeForm, hi]

/-- What is left to the node: the sender, and what is signed without the entries of a signer. -/
def Delegates (omitted : List String) (sender : Value) (signed delegated : Fields) : Prop :=
  ∃ rest, delegated = ("from", sender) :: rest ∧
    List.Forall₂ Restates (signed.filter fun entry => entry.1 ∉ omitted) rest

/-- The transaction names its recipient by the checksum form, unless it creates a contract or there
is none. -/
structure Addresses (recipient : Value) (isCreation : Bool) (transaction : Fields) : Prop where
  named : transaction.has "to" = true ↔ recipient.isNull = false ∧ isCreation = false
  checksum : ∀ v, transaction.lookup "to" = some v →
    ∃ address, Address.canonical recipient = .ok address ∧ v = .text address

def IsRecipient (recipient : Value) : Prop :=
  recipient.isNull = true ∨ ∃ address, Address.canonical recipient = .ok address

namespace NodeManager

theorem lookup_delegatedForm {n : NodeManager} {transaction : Fields} {name : String}
    (h : (name == "from") = false) :
    (n.delegatedForm transaction).lookup name =
      (transaction.lookup name).map Value.nodeForm := by
  rw [← lookup_nodeForm, delegatedForm, List.lookup_cons, h]

inductive IsRecipientEntry (recipient : Value) (isCreation : Bool) : Fields → Prop where
  | absent (h : ¬(recipient.isNull = false ∧ isCreation = false)) :
      IsRecipientEntry recipient isCreation []
  | present {address : String} (h : recipient.isNull = false ∧ isCreation = false)
      (canonical : Address.canonical recipient = .ok address) :
      IsRecipientEntry recipient isCreation [("to", .text address)]

theorem addressed_of_isNull {recipient : Value} (h : recipient.isNull = true) (base : Fields) :
    addressed base recipient = .ok (base ++ []) := by
  rw [addressed, if_pos h, List.append_nil]

theorem addressed_of_canonical {recipient : Value} {address : String}
    (hn : recipient.isNull = false) (h : Address.canonical recipient = .ok address)
    (base : Fields) : addressed base recipient = .ok (base ++ [("to", .text address)]) := by
  rw [addressed, hn, if_neg Bool.false_ne_true, h]
  rfl

theorem addressed_of_isRecipient {recipient : Value} (isCreation : Bool)
    (h : IsRecipient recipient) :
    ∃ entry, IsRecipientEntry recipient isCreation entry ∧
      ∀ base, addressed base (destination isCreation recipient) = .ok (base ++ entry) := by
  by_cases hc : recipient.isNull = false ∧ isCreation = false
  · obtain ⟨hnull, rfl⟩ := hc
    obtain hr | ⟨address, hr⟩ := h
    · rw [hr] at hnull
      cases hnull
    · exact ⟨_, .present ⟨hnull, rfl⟩ hr, addressed_of_canonical hnull hr⟩
  · have hnull : (destination isCreation recipient).isNull = true := by
      cases isCreation with
      | true => rfl
      | false => simpa [destination] using hc
    exact ⟨[], .absent hc, addressed_of_isNull hnull⟩

theorem addresses_of_lookup {recipient : Value} {isCreation : Bool} {entry transaction : Fields}
    (he : IsRecipientEntry recipient isCreation entry)
    (h : transaction.lookup "to" = entry.lookup "to") :
    Addresses recipient isCreation transaction := by
  cases he with
  | absent hc =>
    refine ⟨?_, ?_⟩
    · rw [Fields.has, h]
      exact iff_of_false Bool.false_ne_true hc
    · intro v hv
      rw [h] at hv
      cases hv
  | @present address hc canonical =>
    refine ⟨?_, ?_⟩
    · rw [Fields.has, h]
      exact iff_of_true rfl hc
    · intro v hv
      rw [h] at hv
      cases hv
      exact ⟨address, canonical, rfl⟩

theorem delegates_of_base {recipient sender nonce : Value} {isCreation : Bool}
    {omitted : List String} {signedBase base entry : Fields}
    (hn : "nonce" ∈ omitted) (ht : "to" ∉ omitted)
    (hb : signedBase.filter (fun entry => entry.1 ∉ omitted) = base)
    (hu : ∀ entry ∈ base, entry.2.IsUnsigned)
    (he : IsRecipientEntry recipient isCreation entry) :
    Delegates omitted sender (signedBase ++ entry ++ [("nonce", nonce)])
      (("from", sender) :: (base ++ entry).map fun entry => (entry.1, entry.2.nodeForm)) := by
  have hentry : entry.filter (fun entry => entry.1 ∉ omitted) = entry := by
    cases he with
    | absent _ => rfl
    | present _ _ => simp [ht]
  have hnonce : [("nonce", nonce)].filter (fun entry => entry.1 ∉ omitted) = [] := by simp [hn]
  have hunsigned : ∀ e ∈ base ++ entry, e.2.IsUnsigned := by
    intro e hmem
    obtain hmem | hmem := List.mem_append.mp hmem
    · exact hu e hmem
    · cases he with
      | absent _ => cases hmem
      | present _ _ =>
        rw [List.mem_singleton.mp hmem]
        intro i hi
        cases hi
  refine ⟨_, rfl, ?_⟩
  rw [List.filter_append, List.filter_append, hb, hentry, hnonce, List.append_nil]
  refine List.forall₂_map_right_iff.mpr (List.forall₂_same.mpr ?_)
  intro e hmem
  exact restates_nodeForm (hunsigned e hmem)

/-! ## The two managers -/

variable {n signer delegate : NodeManager} {m m' : Memory} {es es' : List Exchange}
variable {recipient : Value} {isCreation : Bool}

theorem send_signs {base entry : Fields} {r : Except Failure Receipt} (hn : n.hasAccount = true)
    (ha : addressed base recipient = .ok (base ++ entry))
    (h : (n.send base recipient).Path m es r m') :
    (renderings es = [] ∧ ∃ failure, r = .error failure) ∨
      ∃ nonce, renderings es = [.signed (base ++ entry ++ [("nonce", nonce)])] := by
  cases send_writesOut ha h with
  | withheld _ none => exact .inl ⟨none, _, rfl⟩
  | signed nonce _ once => exact .inr ⟨nonce, once⟩
  | delegated held _ =>
    rw [hn] at held
    cases held

theorem send_delegates {base entry : Fields} {r : Except Failure Receipt}
    (hn : n.hasAccount = false) (ha : addressed base recipient = .ok (base ++ entry))
    (h : (n.send base recipient).Path m es r m') :
    renderings es = [.delegated (n.delegatedForm (base ++ entry))] := by
  cases send_writesOut ha h with
  | withheld held _ | signed _ held _ =>
    rw [hn] at held
    cases held
  | delegated _ once => exact once

/-- One manager leaves a transaction to its node, and the other has the same transaction signed, if
it does not fail before that. -/
def SameSubmission (omitted : List String) (sender recipient : Value) (isCreation : Bool)
    (es es' : List Exchange) {α : Type} (r : Except Failure α) : Prop :=
  ∃ delegated, renderings es' = [.delegated delegated] ∧
    (delegated.map Prod.fst).Nodup ∧ Addresses recipient isCreation delegated ∧
    ((renderings es = [] ∧ ∃ failure, r = .error failure) ∨
      ∃ signed, renderings es = [.signed signed] ∧ Addresses recipient isCreation signed ∧
        Delegates omitted sender signed delegated)

theorem same_of_bases {omitted : List String} {signedBase base entry : Fields} {α : Type}
    {r : Except Failure α} (hn : "nonce" ∈ omitted) (ht : "to" ∉ omitted)
    (hb : signedBase.filter (fun entry => entry.1 ∉ omitted) = base)
    (hto : signedBase.lookup "to" = none) (hto' : base.lookup "to" = none)
    (hnames : ("from" :: (base.map Prod.fst ++ ["to"])).Nodup)
    (hu : ∀ entry ∈ base, entry.2.IsUnsigned)
    (he : IsRecipientEntry recipient isCreation entry)
    (hd : renderings es' = [.delegated (delegate.delegatedForm (base ++ entry))])
    (hs : (renderings es = [] ∧ ∃ failure, r = .error failure) ∨
      ∃ nonce, renderings es = [.signed (signedBase ++ entry ++ [("nonce", nonce)])]) :
    SameSubmission omitted delegate.sender recipient isCreation es es' r := by
  refine ⟨_, hd, ?_, addresses_of_lookup he ?_, ?_⟩
  · have hdistinct : ("from" :: (base ++ entry).map Prod.fst).Nodup := by
      rw [List.map_append]
      refine hnames.sublist (.cons_cons _ (.append (.refl _) ?_))
      cases he with
      | absent _ => exact List.nil_sublist _
      | present _ _ => exact .refl _
    simpa [delegatedForm, Function.comp_def] using hdistinct
  · rw [lookup_delegatedForm (by decide), List.lookup_append, hto']
    cases he <;> rfl
  · obtain hs | ⟨nonce, hs⟩ := hs
    · exact .inl hs
    · refine .inr ⟨_, hs, addresses_of_lookup he ?_, delegates_of_base hn ht hb hu he⟩
      rw [List.lookup_append, List.lookup_append, hto]
      cases he <;> rfl

theorem sendLegacy_same {o : LegacyOrder} {m₁ m₁' : Memory} {r r' : Except Failure Receipt}
    (hs : signer.hasAccount = true) (hd : delegate.hasAccount = false)
    (hr : IsRecipient o.recipient) (hu : ∀ entry ∈ legacyFields o, entry.2.IsUnsigned)
    (h : (signer.sendLegacy o).Path m es r m') (h' : (delegate.sendLegacy o).Path m₁ es' r' m₁') :
    SameSubmission ["nonce", "chainId"] delegate.sender o.recipient o.isCreation es es' r := by
  obtain ⟨entry, he, ha⟩ := addressed_of_isRecipient o.isCreation hr
  have hdelegated : renderings es' =
      [.delegated (delegate.delegatedForm (legacyFields o ++ entry))] := by
    obtain ⟨held, _⟩ | ⟨base, m₂, es₁, es₂, hbase, rfl, hquiet, hsend⟩ := sendLegacy_writesOut h'
    · rw [hd] at held
      cases held
    cases hbase with
    | signed held =>
      rw [hd] at held
      cases held
    | delegated _ =>
      rw [renderings_append, hquiet]
      exact send_delegates hd (ha _) hsend
  have hsigned : ∃ chain, (renderings es = [] ∧ ∃ failure, r = .error failure) ∨ ∃ nonce,
      renderings es = [.signed (legacyFields o ++ [("chainId", chain)] ++ entry ++
        [("nonce", nonce)])] := by
    obtain ⟨_, hfail⟩ | ⟨base, m₂, es₁, es₂, hbase, rfl, hquiet, hsend⟩ := sendLegacy_writesOut h
    · exact ⟨.null, .inl hfail⟩
    cases hbase with
    | signed _ chain =>
      rw [renderings_append, hquiet]
      exact ⟨chain, send_signs hs (ha _) hsend⟩
    | delegated held =>
      rw [hs] at held
      cases held
  obtain ⟨chain, hsigned⟩ := hsigned
  have hbase : (legacyFields o ++ [("chainId", chain)]).filter
      (fun entry => entry.1 ∉ ["nonce", "chainId"]) = legacyFields o := rfl
  have hnames : ("from" :: ((legacyFields o).map Prod.fst ++ ["to"])).Nodup := by
    simp [legacyFields]
  exact same_of_bases (by decide) (by decide) hbase rfl rfl hnames hu he hdelegated hsigned

def IsApplicable (n : NodeManager) (es : List Exchange) : Prop :=
  ∃ reply fee, .asked (.rpc "eth_getBlockByNumber" [.text "latest", .bool false]) reply ∈ es ∧
    n.replyBaseFee reply = .ok fee ∧ fee.isNull = false

theorem sendFeeMarket_of_isApplicable {o : FeeMarketOrder} {r : Except Failure (Option Receipt)}
    (ha : n.IsApplicable es) (h : (n.sendFeeMarket o).Path m es r m') :
    ∃ rest sent, renderings es = renderings rest ∧
      (n.send (feeMarketFields o) (destination o.isCreation o.recipient)).Path m rest sent m' ∧
      r = sent >>= fun receipt => .ok (some receipt) := by
  obtain ⟨reply, fee, hmem, hfee, hnull⟩ := ha
  obtain ⟨reply', rest, rfl, hrest⟩ := sendFeeMarket_path.mp h
  obtain ⟨failure, hf, rfl, _⟩ | ⟨fee', hfee', ⟨hnull', _, _, rfl⟩ | ⟨_, sent, hs, rfl⟩⟩ := hrest
  · cases List.mem_singleton.mp hmem
    rw [hf] at hfee
    cases hfee
  · obtain heq | hmem := List.mem_cons.mp hmem
    · cases heq
      rw [hfee'] at hfee
      cases hfee
      rw [hnull] at hnull'
      cases hnull'
    · cases List.mem_singleton.mp hmem
  · exact ⟨rest, sent, rfl, hs, rfl⟩

theorem sendFeeMarket_same {o : FeeMarketOrder} {m₁ m₁' : Memory}
    {r r' : Except Failure (Option Receipt)}
    (hs : signer.hasAccount = true) (hd : delegate.hasAccount = false)
    (hr : IsRecipient o.recipient) (hu : ∀ entry ∈ feeMarketFields o, entry.2.IsUnsigned)
    (ha : signer.IsApplicable es) (ha' : delegate.IsApplicable es')
    (h : (signer.sendFeeMarket o).Path m es r m')
    (h' : (delegate.sendFeeMarket o).Path m₁ es' r' m₁') :
    SameSubmission ["nonce"] delegate.sender o.recipient o.isCreation es es' r := by
  obtain ⟨entry, he, haddressed⟩ := addressed_of_isRecipient o.isCreation hr
  obtain ⟨rest, sent, hrest, hsend, rfl⟩ := sendFeeMarket_of_isApplicable ha h
  obtain ⟨rest', sent', hrest', hsend', rfl⟩ := sendFeeMarket_of_isApplicable ha' h'
  have hdelegated : renderings es' =
      [.delegated (delegate.delegatedForm (feeMarketFields o ++ entry))] := by
    rw [hrest']
    exact send_delegates hd (haddressed _) hsend'
  have hbase : (feeMarketFields o).filter (fun entry => entry.1 ∉ ["nonce"]) =
      feeMarketFields o := rfl
  have hnames : ("from" :: ((feeMarketFields o).map Prod.fst ++ ["to"])).Nodup := by
    simp [feeMarketFields]
  refine same_of_bases (by decide) (by decide) hbase rfl rfl hnames hu he hdelegated ?_
  rw [hrest]
  obtain ⟨hnone, failure, rfl⟩ | hsigned := send_signs hs (haddressed _) hsend
  · exact .inl ⟨hnone, failure, rfl⟩
  · exact .inr hsigned

/-- The account signs what the other manager leaves to the node, with a nonce, and with a chain
where the price is fixed. -/
theorem signing_and_delegation_agree (signer delegate : NodeManager)
    (hs : signer.hasAccount = true) (hd : delegate.hasAccount = false)
    (sender : delegate.sender = signer.sender) :
    (∀ (o : LegacyOrder) (m m' m₁ m₁' : Memory) (es es' : List Exchange)
      (r r' : Except Failure Receipt),
      IsRecipient o.recipient → (∀ entry ∈ legacyFields o, entry.2.IsUnsigned) →
      (signer.sendLegacy o).Path m es r m' → (delegate.sendLegacy o).Path m₁ es' r' m₁' →
      SameSubmission ["nonce", "chainId"] signer.sender o.recipient o.isCreation es es' r) ∧
    ∀ (o : FeeMarketOrder) (m m' m₁ m₁' : Memory) (es es' : List Exchange)
      (r r' : Except Failure (Option Receipt)),
      IsRecipient o.recipient → (∀ entry ∈ feeMarketFields o, entry.2.IsUnsigned) →
      signer.IsApplicable es → delegate.IsApplicable es' →
      (signer.sendFeeMarket o).Path m es r m' → (delegate.sendFeeMarket o).Path m₁ es' r' m₁' →
      SameSubmission ["nonce"] signer.sender o.recipient o.isCreation es es' r := by
  rw [← sender]
  constructor
  · intro o m m' m₁ m₁' es es' r r' hr hu h h'
    exact sendLegacy_same hs hd hr hu h h'
  · intro o m m' m₁ m₁' es es' r r' hr hu ha ha' h h'
    exact sendFeeMarket_same hs hd hr hu ha ha' h h'

def payment : LegacyOrder :=
  ⟨.text "0x00000000000000000000000000000000000000bb", .text "0x01", .int 7, .int 3, .int 21000,
    false⟩

def pricedPayment : FeeMarketOrder :=
  ⟨.int 1, payment.recipient, payment.data, payment.value, payment.gasLimit, .int 1, .int 20,
    false⟩

def pricedNode : Script where
  methods := [("eth_chainId", [.ok (.dict [("result", .int 1)])]),
    ("eth_getTransactionCount", [.ok (.dict [("result", .int 5)])]),
    ("eth_getBlockByNumber", [.ok (.dict [("result", .dict [("baseFeePerGas", .int 9)])])]),
    ("eth_sendRawTransaction", [.ok (.dict [("result", .text "0xaa")])]),
    ("eth_sendTransaction", [.ok (.dict [("result", .text "0xaa")])])]

def payer : NodeManager := ofAccount (.text "0x01") {} .null

def remotePayer : NodeManager := ⟨payer.sender, false, {}, .null⟩

theorem payment_delegated_as_signed :
    (∃ es es' signed delegated, renderings es = [.signed signed] ∧
      renderings es' = [.delegated delegated] ∧ signed.has "to" = true ∧
      Fields.get delegated "value" = .text "0x7" ∧
      Delegates ["nonce", "chainId"] payer.sender signed delegated) ∧
    ∃ es es' signed delegated, renderings es = [.signed signed] ∧
      renderings es' = [.delegated delegated] ∧ signed.has "to" = true ∧
      Fields.get delegated "maxFeePerGas" = .text "0x14" ∧
      Delegates ["nonce"] payer.sender signed delegated := by
  have hagree := signing_and_delegation_agree payer remotePayer rfl rfl rfl
  have hr : IsRecipient payment.recipient := .inr ⟨_, rfl⟩
  constructor
  · have hu : ∀ entry ∈ legacyFields payment, entry.2.IsUnsigned := by
      simp [legacyFields, payment, Value.IsUnsigned, Value.integer?]
    have h := Program.path_history Script.answer (payer.sendLegacy payment {}) pricedNode
    have h' := Program.path_history Script.answer (remotePayer.sendLegacy payment {}) pricedNode
    obtain ⟨delegated, hdelegated, _, _, ⟨hnone, _⟩ | ⟨signed, hsigned, haddress, hsame⟩⟩ :=
      hagree.1 payment _ _ _ _ _ _ _ _ hr hu h h'
    · cases hnone
    · refine ⟨_, _, signed, delegated, hsigned, hdelegated, haddress.named.mpr ⟨rfl, rfl⟩, ?_,
        hsame⟩
      cases hdelegated
      rfl
  · have hu : ∀ entry ∈ feeMarketFields pricedPayment, entry.2.IsUnsigned := by
      simp [feeMarketFields, pricedPayment, payment, Value.IsUnsigned, Value.integer?]
    have h := Program.path_history Script.answer (payer.sendFeeMarket pricedPayment {}) pricedNode
    have h' := Program.path_history Script.answer (remotePayer.sendFeeMarket pricedPayment {})
      pricedNode
    obtain ⟨delegated, hdelegated, _, _, ⟨hnone, _⟩ | ⟨signed, hsigned, haddress, hsame⟩⟩ :=
      hagree.2 pricedPayment _ _ _ _ _ _ _ _ hr hu ⟨_, _, .head _, rfl, rfl⟩
        ⟨_, _, .head _, rfl, rfl⟩ h h'
    · cases hnone
    · refine ⟨_, _, signed, delegated, hsigned, hdelegated, haddress.named.mpr ⟨rfl, rfl⟩, ?_,
        hsame⟩
      cases hdelegated
      rfl

end NodeManager
end EvmClient
