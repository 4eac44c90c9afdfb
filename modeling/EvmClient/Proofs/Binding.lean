import EvmClient.Proofs.Deployment
import EvmClient.Proofs.Execution.Acceptance
import EvmClient.Proofs.Execution.Submission
import EvmClient.Proofs.Failures
import EvmClient.Proofs.Frames
import EvmClient.Proofs.Target

/-!
# Handles of deployed contracts

A deployment that gives a handle has made one contract, and binds the handle to the address in its
receipt. From then on the address stays, unless it is set, and all that the handle asks for is about
it. A receipt of success without an address is what a deployment error tells of.
-/

set_option autoImplicit false

namespace EvmClient

/-- Hexadecimal digits, perhaps behind a mark in either case. -/
structure HexText where
  mark : List Char
  digits : List Char
  isMark : mark ∈ [[], ['0', 'x'], ['0', 'X']]
  areDigits : ∀ c ∈ digits, Hex.isDigit c = true

namespace HexText

variable (t : HexText)

def text : String := String.ofList (t.mark ++ t.digits)

theorem not_isMarked : Hex.isMarked t.digits = false :=
  Library.Resumes.not_isMarked ⟨t.digits, [], by simp, t.areDigits, .inl rfl⟩

theorem unmarked_text : Deployment.unmarked (.text t.text) = .ok (String.ofList t.digits) := by
  have hchars : Hex.unmarkChars (t.mark ++ t.digits) = t.digits := by
    have hmark := t.isMark
    simp only [List.mem_cons, List.not_mem_nil, or_false] at hmark
    obtain h | h | h := hmark <;> rw [h]
    · exact Hex.unmarkChars_of_not_isMarked t.not_isMarked
    · rfl
    · rfl
  rw [Deployment.unmarked, Hex.unmark, text, String.toList_ofList, hchars]

end HexText

def HexText.payload (binary arguments : HexText) : String :=
  "0x" ++ String.ofList (binary.digits ++ arguments.digits)

theorem Input.hex_eq_ok {v data : Value} {field : String} (h : Input.hex v field = .ok data) :
    data = v := by
  cases v with
  | text s =>
    simp only [Input.hex] at h
    split at h
    · exact absurd h fail_ne_ok
    · split at h
      · exact absurd h fail_ne_ok
      · cases h
        rfl
  | _ => exact absurd h fail_ne_ok

namespace Deployment

theorem payload_of_hexText {binary arguments : HexText} {data : Value}
    (h : payload (.text binary.text) (.text arguments.text) = .ok data) :
    data = .text (binary.payload arguments) := by
  have hdigits : ∀ c ∈ binary.digits ++ arguments.digits, Hex.isDigit c = true := by
    intro c hc
    obtain hc | hc := List.mem_append.mp hc
    · exact binary.areDigits c hc
    · exact arguments.areDigits c hc
  have hjoined := HexText.not_isMarked ⟨[], _, by simp, hdigits⟩
  rw [payload_of_unmarked binary.unmarked_text arguments.unmarked_text hjoined] at h
  exact Input.hex_eq_ok h

end Deployment

/-! ## Creations -/

/-- The question hands over a creation with this payload, or what the signer made of one. -/
inductive IsCreation (payload : Value) (es : List Exchange) : Question → Prop where
  | legacy {o : LegacyOrder} (nowhere : o.recipient = .null) (marked : o.isCreation = true)
      (carried : o.data = payload) : IsCreation payload es (.legacy o)
  | feeMarket {o : FeeMarketOrder} (nowhere : o.recipient = .null) (marked : o.isCreation = true)
      (carried : o.data = payload) : IsCreation payload es (.feeMarket o)
  | delegated {fields : Fields} (nowhere : fields.has "to" = false)
      (carried : fields.lookup "data" = some payload) :
      IsCreation payload es (.rpc "eth_sendTransaction" [.dict fields])
  | signed {fields : Fields} {raw : List UInt8}
      (signature : .asked (.sign fields) (.ok raw) ∈ es) (nowhere : fields.has "to" = false)
      (carried : fields.lookup "data" = some payload) :
      IsCreation payload es (.rpc "eth_sendRawTransaction" [.text (Hex.markedText raw)])

theorem IsTransaction.nowhere {data : Value} {fields : Fields}
    (h : IsTransaction .null data fields) : fields.lookup "to" = none := by
  obtain ⟨_, hto⟩ | ⟨_, hcanonical, _⟩ := h.recipient
  · exact hto
  · cases hcanonical

namespace Execution

variable {x : Execution} {text function : String} {data value : Value} {m m' : Memory}
  {es : List Exchange} {r : Except Failure Receipt}

theorem run_signed {n : NodeManager} {isCreation : Bool} (hx : x.manager = .node n)
    (held : n.hasAccount = true) (h : (x.run data value function isCreation).Path m es r m')
    {params : List Value} {reply : Except Failure Value}
    (hasked : .asked (.rpc "eth_sendRawTransaction" params) reply ∈ es) :
    ∃ fields raw, .asked (.sign fields) (.ok raw) ∈ es ∧
      params = [.text (Hex.markedText raw)] := by
  have hmem : ⟨"eth_sendRawTransaction", params, reply⟩ ∈ submissions es :=
    List.mem_filterMap.mpr ⟨_, hasked, rfl⟩
  obtain ⟨fields, raw, hsignatures, _, hparams⟩ := (run_single hx h).signed held _ hmem
  have hsigned : (fields, .ok raw) ∈ signatures es := hsignatures ▸ List.mem_singleton_self _
  obtain ⟨e, he, hsignature⟩ := List.mem_filterMap.mp hsigned
  refine ⟨fields, raw, ?_, hparams⟩
  unfold Exchange.signature? at hsignature
  split at hsignature
  · cases hsignature
    exact he
  · cases hsignature

theorem run_signs {fields : Fields} {reply : Except Failure (List UInt8)}
    (h : (x.run (.text text) value function true).Path m es r m')
    (hasked : .asked (.sign fields) reply ∈ es) :
    fields.has "to" = false ∧ fields.lookup "data" = some (.text text) := by
  obtain ⟨amount, hq⟩ := (x.run_asks _ _ _ _).path h _ _ hasked
  cases hq with
  | node _ hq =>
    cases hq with
    | send htransaction hs =>
      cases hs with
      | sign nonce =>
        have hnowhere := IsTransaction.nowhere htransaction
        rw [Fields.has, List.lookup_append, List.lookup_append, hnowhere, htransaction.data]
        exact ⟨rfl, rfl⟩
  | call hq => cases hq

theorem accepted_isCreation (h : (x.run (.text text) value function true).Path m es r m')
    {q : Question} {reply : Except Failure q.Answer} (hasked : .asked q reply ∈ es)
    (ha : (Exchange.asked q reply).isAccepted = true) : IsCreation (.text text) es q := by
  obtain ⟨amount, hq⟩ := (x.run_asks _ _ _ _).path h _ _ hasked
  cases hq with
  | estimate => cases ha
  | legacy recipient data mark => exact .legacy recipient mark data
  | feeMarket recipient data mark => exact .feeMarket recipient mark data
  | call hq => cases hq <;> cases ha
  | node hx hq =>
    cases hq with
    | block | chain => cases ha
    | send htransaction hs =>
      cases hs with
      | count | sign nonce | wait hash => cases ha
      | unsigned =>
        have hnowhere := IsTransaction.nowhere htransaction
        refine .delegated ?_ ?_
        · rw [Fields.has, List.lookup_cons, lookup_nodeForm, hnowhere]
          rfl
        · rw [List.lookup_cons, lookup_nodeForm, htransaction.data]
          rfl
      | raw held bytes =>
        obtain ⟨fields, raw, hsigned, hparams⟩ := run_signed hx held h hasked
        obtain ⟨hnowhere, hdata⟩ := run_signs h hsigned
        rw [hparams]
        exact .signed hsigned hnowhere hdata

end Execution

theorem IsCreation.mono {payload : Value} {es es' : List Exchange} {q : Question}
    (h : IsCreation payload es q) (hes : es ⊆ es') : IsCreation payload es' q := by
  cases h with
  | legacy nowhere marked carried => exact .legacy nowhere marked carried
  | feeMarket nowhere marked carried => exact .feeMarket nowhere marked carried
  | delegated nowhere carried => exact .delegated nowhere carried
  | signed signature nowhere carried => exact .signed (hes signature) nowhere carried

/-! ## Deployments -/

structure Receipt.IsNameless (receipt : Receipt) : Prop where
  succeeded : receipt.isFailed = false
  nameless : receipt.contractAddress.isTruthy = false

namespace Deployment

variable {d : Deployment} {m m' : Memory} {es : List Exchange}

/-- One contract has been made, and the handle is bound to the address in its receipt. -/
structure Binds (d : Deployment) (payload : Value) (es : List Exchange) (c : Contract)
    (receipt : Receipt) : Prop where
  once : ∃ q reply, accepted es = [.asked q reply] ∧ IsCreation payload es q
  only : d.manager.receipts es = [receipt]
  succeeded : receipt.isFailed = false
  named : receipt.contractAddress.isTruthy = true
  address : c.address = receipt.contractAddress
  receipt : c.receipt = some receipt

theorem bound_eq_ok {c c' : Contract} {receipt : Receipt} (h : bound c receipt = .ok c') :
    receipt.contractAddress.isTruthy = true ∧ c'.address = receipt.contractAddress ∧
      c'.receipt = some receipt := by
  unfold bound at h
  by_cases ht : receipt.contractAddress.isTruthy = true
  · rw [if_pos ht] at h
    cases h
    exact ⟨ht, rfl, rfl⟩
  · rw [if_neg ht] at h
    exact absurd h fail_ne_ok

def namelessError (receipt : Receipt) : ClientError :=
  .deployment (.text "Empty contract address returned") receipt.transactionHash

theorem bound_eq_error {c : Contract} {receipt : Receipt} {failure : Failure} :
    bound c receipt = .error failure ↔
      receipt.contractAddress.isTruthy = false ∧ failure = .client (namelessError receipt) := by
  unfold bound
  by_cases ht : receipt.contractAddress.isTruthy = true
  · rw [if_pos ht, ht]
    simp
  · rw [Bool.not_eq_true] at ht
    have hfail : (fail (namelessError receipt) : Outcome Contract) =
        .error (.client (namelessError receipt)) := rfl
    rw [ht, if_neg Bool.false_ne_true]
    change fail (namelessError receipt) = _ ↔ _
    rw [hfail]
    simp [eq_comm]

theorem run_phases {r : Except Failure Contract} (h : d.run.Path m es r m') :
    (∃ failure, payload d.binary d.arguments = .error failure ∧ d.manager.receipts es = [] ∧
      r = .error failure) ∨
    ∃ data reply m₁ rest, payload d.binary d.arguments = .ok data ∧
      (d.fresh.execution.run data d.value functionName true).Path m rest reply m₁ ∧
      r = reply >>= bound d.fresh ∧ rest ⊆ es ∧ accepted es = accepted rest ∧
      d.manager.receipts es = d.manager.receipts rest := by
  have hannouncement : IsInert d.manager d.announcement := .of_told announcement_told
  obtain ⟨failure, hp, rfl, rfl⟩ | ⟨data, reply, m₁, rest, notices, hp, hx, hr, rfl, hnotices⟩ :=
    run_path h
  · exact .inl ⟨failure, hp, hannouncement.receipts, rfl⟩
  · have hinert : IsInert d.manager notices := .of_told hnotices
    refine .inr ⟨data, reply, m₁, rest, hp, hx, hr, ?_, ?_, ?_⟩
    · intro e he
      simp [he]
    · rw [accepted_append, accepted_append, hannouncement.accepted, hinert.accepted,
        List.append_nil, List.nil_append]
    · rw [Manager.receipts_append, Manager.receipts_append, hannouncement.receipts,
        hinert.receipts, List.append_nil, List.nil_append]

theorem binds_of_ok {text : String} {c : Contract}
    (hpayload : ∀ data, payload d.binary d.arguments = .ok data → data = .text text)
    (h : d.run.Path m es (.ok c) m') : ∃ receipt, d.Binds (.text text) es c receipt := by
  obtain ⟨_, _, _, heq⟩ | ⟨data, reply, m₁, rest, hp, hx, hr, hsub, haccepted, hreceipts⟩ :=
    run_phases h
  · cases heq
  obtain rfl := hpayload data hp
  obtain ⟨receipt, rfl, hb⟩ := bind_eq_ok.mp hr.symm
  obtain ⟨hnamed, haddress, hreceipt⟩ := bound_eq_ok hb
  cases Execution.run_concludes hx with
  | receipt once only succeeded =>
    obtain ⟨e, he⟩ := once
    have hmem : e ∈ accepted rest := he ▸ List.mem_singleton_self e
    obtain ⟨hasked, ha⟩ := List.mem_filter.mp hmem
    cases e with
    | told notice => cases ha
    | asked q reply =>
      have hcreation := (Execution.accepted_isCreation hx hasked ha).mono hsub
      exact ⟨receipt, ⟨⟨q, reply, haccepted.trans he, hcreation⟩, hreceipts.trans only, succeeded,
        hnamed, haddress, hreceipt⟩⟩

theorem fails_of_isNameless {r : Except Failure Contract} (h : d.run.Path m es r m')
    {receipt : Receipt} (hmem : receipt ∈ d.manager.receipts es) (hn : receipt.IsNameless) :
    r = .error (.client (namelessError receipt)) := by
  obtain ⟨_, _, hnone, _⟩ | ⟨data, reply, m₁, rest, hp, hx, rfl, _, _, hreceipts⟩ := run_phases h
  · rw [hnone] at hmem
    cases hmem
  rw [hreceipts] at hmem
  cases Execution.run_concludes hx with
  | receipt _ only _ =>
    have heq : receipt = _ := List.mem_singleton.mp (only ▸ hmem)
    subst heq
    exact bound_eq_error.mpr ⟨hn.nameless, rfl⟩
  | failure hfailed =>
    have hf := hfailed receipt hmem
    rw [hn.succeeded] at hf
    cases hf

theorem areForeign_deployment : AreForeign [.deployment] := by
  constructor <;> decide

/-- The error is that of a limit given as a function, for the creation that this data asks for. -/
def IsComputed (d : Deployment) (data : Value) (e : ClientError) : Prop :=
  ∃ amount, Input.amount d.value "value" = .ok amount ∧
    Execution.IsComputed d.strategy
      { sender := d.manager.sender, recipient := .null, data := data, value := .int amount }
      (.client e)

theorem isComputed_of_getD {strategy : Option GasStrategy} {request : TransactionRequest}
    {failure : Failure}
    (h : Execution.IsComputed (some (strategy.getD .default)) request failure) :
    Execution.IsComputed strategy request failure := by
  obtain ⟨s, f, heq, hlimit, hf⟩ := h
  cases strategy with
  | some given => exact ⟨s, f, heq, hlimit, hf⟩
  | none =>
    cases heq
    cases hlimit

theorem nameless_of_error {text : String} {e : ClientError} (he : e.family = .deployment)
    (hpayload : ∀ data, payload d.binary d.arguments = .ok data → data = .text text)
    (h : d.run.Path m es (.error (.client e)) m') :
    (∃ receipt ∈ d.manager.receipts es, receipt.IsNameless ∧ e = namelessError receipt) ∨
      Replied es (.client e) ∨ d.IsComputed (.text text) e := by
  have hmem : e.family ∈ [ErrorFamily.deployment] := by simp [he]
  obtain ⟨failure, hp, _, heq⟩ | ⟨data, reply, m₁, rest, hp, hx, hr, hsub, _, hreceipts⟩ :=
    run_phases h
  · cases heq
    exact absurd hmem (payload_avoids (by decide) _ _ e hp)
  obtain rfl := hpayload data hp
  obtain rfl | ⟨receipt, rfl, hb⟩ := bind_eq_error.mp hr.symm
  · obtain ⟨q, hq⟩ | ⟨amount, ha, hcomputed⟩ :=
      Execution.run_relays areForeign_deployment hx hmem
    · exact .inr (.inl ⟨q, hsub hq⟩)
    · exact .inr (.inr ⟨amount, ha, isComputed_of_getD hcomputed⟩)
  · obtain ⟨hnameless, heq⟩ := bound_eq_error.mp hb
    cases heq
    cases Execution.run_concludes hx with
    | receipt _ only succeeded =>
      have hreceipt : receipt ∈ d.manager.receipts es :=
        (hreceipts.trans only) ▸ List.mem_singleton_self receipt
      exact .inl ⟨receipt, hreceipt, ⟨succeeded, hnameless⟩, rfl⟩

/-- A deployment that gives a handle has had one creation taken, of the binary with the arguments
behind it, and binds the handle to the address in the receipt. In all states that the handle comes
to without having its address set, it asks about this address alone. A deployment error is raised
exactly for a receipt of success without an address, unless somebody who was asked raises one, or
the limit that is computed for this creation does. A deployment that fails adds no handle. -/
theorem run_binds_handle (d : Deployment) (binary arguments : HexText) (m m' : Memory)
    (es : List Exchange) (r : Except Failure Contract) (hbinary : d.binary = .text binary.text)
    (harguments : d.arguments = .text arguments.text) (h : d.run.Path m es r m') :
    (∀ c, r = .ok c → ∃ receipt, d.Binds (.text (binary.payload arguments)) es c receipt ∧
      ∀ c', c.Reaches c' → c'.address = receipt.contractAddress ∧
        ∀ op, (c'.perform op).Asks (Question.IsAbout receipt.contractAddress)) ∧
    (∀ receipt ∈ d.manager.receipts es, receipt.IsNameless →
      r = .error (.client (namelessError receipt))) ∧
    (∀ e, e.family = .deployment → r = .error (.client e) →
      (∃ receipt ∈ d.manager.receipts es, receipt.IsNameless ∧ e = namelessError receipt) ∨
        Replied es (.client e) ∨ d.IsComputed (.text (binary.payload arguments)) e) ∧
    ∀ (s s' : Session) (x : Step) (es' : List Exchange) (failure : Failure),
      (s.step x).Path es' (.error failure, s') →
        s'.handles = s.handles ∧ s'.handleNames = s.handleNames := by
  have hpayload : ∀ data, payload d.binary d.arguments = .ok data →
      data = .text (binary.payload arguments) := by
    intro data hdata
    rw [hbinary, harguments] at hdata
    exact payload_of_hexText hdata
  refine ⟨?_, fun receipt hmem hn => fails_of_isNameless h hmem hn, ?_, ?_⟩
  · rintro c rfl
    obtain ⟨receipt, hbinds⟩ := binds_of_ok hpayload h
    refine ⟨receipt, hbinds, fun c' hreaches => ?_⟩
    have haddress : c'.address = receipt.contractAddress := hreaches.address.trans hbinds.address
    refine ⟨haddress, fun op => ?_⟩
    rw [← haddress]
    exact Contract.perform_isAbout (haddress ▸ hbinds.named) op
  · rintro e he rfl
    exact nameless_of_error he hpayload h
  · intro s s' x es' failure hs
    obtain ⟨_, _, _, heq⟩ | ⟨_, _, heq, _⟩ := Session.step_path hs
    · rw [heq]
      exact ⟨rfl, rfl⟩
    · cases heq

def storingBinary : HexText := ⟨['0', 'x'], ['6', '0'], by decide, List.all_eq_true.mp rfl⟩

def storingArguments : HexText := ⟨['0', 'X'], ['0', '1'], by decide, List.all_eq_true.mp rfl⟩

def storing : Deployment where
  kind := {}
  manager := .inMemory (.text "0xAA")
  strategy := some Execution.pricedStrategy
  binary := .text storingBinary.text
  arguments := .text storingArguments.text

def storingReceipt : Receipt := { status := .int 1, contractAddress := .text "0xcC" }

def includingManager : Script where
  feeMarket := [.ok none]
  legacy := [.ok (some storingReceipt)]

theorem storing_bound : ∃ es c m', storing.run.Path {} es (.ok c) m' ∧
    storing.Binds (.text "0x6001") es c storingReceipt ∧
    (c.perform .isValid).Asks (Question.IsAbout (.text "0xcC")) := by
  have h := Program.path_history Script.answer (storing.run {}) includingManager
  have hpath : storing.run.Path {} _
      (.ok ((storing.fresh.setAddress (.text "0xcC")).setReceipt storingReceipt)) _ := h
  obtain ⟨receipt, hbinds, hstates⟩ :=
    (run_binds_handle storing storingBinary storingArguments _ _ _ _ rfl rfl hpath).1 _ rfl
  have hreceipt : storingReceipt = receipt := Option.some.inj hbinds.receipt
  subst hreceipt
  exact ⟨_, _, _, hpath, hbinds, (hstates _ .same).2 .isValid⟩

end Deployment
end EvmClient
