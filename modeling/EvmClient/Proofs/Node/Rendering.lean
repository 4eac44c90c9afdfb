import EvmClient.Proofs.Node.Send

/-!
# How a transaction is written out

A transaction is written out to have its gas estimated, to be signed, to be left to the node, and to
be called again. Each time another dictionary is built. The renderings of a path are these
dictionaries in order; a send adds at most one.
-/

set_option autoImplicit false

namespace EvmClient

inductive Rendering where
  | estimated (parameters : Fields)
  | signed (transaction : Fields)
  /-- the node is to sign it -/
  | delegated (transaction : Fields)
  | called (parameters : Fields)

def Exchange.rendering? : Exchange → Option Rendering
  | .asked (.estimate parameters) _ => some (.estimated parameters)
  | .asked (.sign transaction) _ => some (.signed transaction)
  | .asked (.rpc method (.dict entries :: _)) _ =>
    if method = "eth_sendTransaction" then some (.delegated entries)
    else if method = "eth_call" then some (.called entries)
    else none
  | _ => none

def renderings (es : List Exchange) : List Rendering := es.filterMap Exchange.rendering?

@[simp]
theorem renderings_append (es es' : List Exchange) :
    renderings (es ++ es') = renderings es ++ renderings es' := List.filterMap_append

@[simp]
theorem renderings_told (notice : Notice) (es : List Exchange) :
    renderings (.told notice :: es) = renderings es := rfl

theorem renderings_rpc {method : String} (params : List Value) (reply : Except Failure Value)
    (es : List Exchange) (h : method ≠ "eth_sendTransaction") (h' : method ≠ "eth_call") :
    renderings (.asked (.rpc method params) reply :: es) = renderings es := by
  refine List.filterMap_cons_none ?_
  rcases params with _ | ⟨param, params⟩
  · rfl
  · cases param with
    | dict entries => simp only [Exchange.rendering?, if_neg h, if_neg h']
    | _ => rfl

theorem renderings_eq_nil_of_told {es : List Exchange} (h : ∀ e ∈ es, ∃ notice, e = .told notice) :
    renderings es = [] := by
  refine List.filterMap_eq_nil_iff.mpr ?_
  intro e he
  obtain ⟨notice, rfl⟩ := h e he
  rfl

namespace NodeManager

variable {n : NodeManager} {m m' : Memory} {es : List Exchange}

/-! ## Requests that write nothing out -/

theorem countedNonce_renderings {r : Except Failure Value} (h : n.countedNonce.Path m es r m') :
    renderings es = [] := by
  obtain ⟨_, reply, rfl, _⟩ | ⟨_, rfl, _⟩ := countedNonce_path.mp h
  · exact renderings_rpc _ reply [] (by decide) (by decide)
  · rfl

theorem nonce_renderings {r : Except Failure Value} (h : n.nonce.Path m es r m') :
    renderings es = [] := by
  by_cases hn : n.settings.manualNonce = true
  · obtain ⟨failure, hc, _⟩ | ⟨nonce, m₁, hc, _⟩ := (nonce_path hn).mp h
    · exact countedNonce_renderings hc
    · exact countedNonce_renderings hc
  · rw [nonce_eq_pendingNonce (Bool.not_eq_true _ ▸ hn), pendingNonce_eq] at h
    obtain ⟨reply, rfl, _⟩ := Action.path_query.mp h
    exact renderings_rpc _ reply [] (by decide) (by decide)

theorem chainId_renderings {r : Except Failure Value} (h : n.chainId.Path m es r m') :
    renderings es = [] := by
  obtain ⟨_, reply, rfl, _⟩ | ⟨_, rfl, _⟩ := chainId_path.mp h <;> rfl

theorem receipt_renderings {hash : Value} {r : Except Failure Receipt}
    (h : (n.receipt hash).Path m es r m') : renderings es = [] := by
  obtain ⟨_, reply, rfl, _⟩ | ⟨_, rfl, _⟩ := receipt_path.mp h <;> rfl

/-! ## Sends -/

def delegatedForm (n : NodeManager) (transaction : Fields) : Fields :=
  ("from", n.sender) :: transaction.map fun entry => (entry.1, entry.2.nodeForm)

/-- A transaction is written out once, by the account that is held here or for the one that the node
holds, unless it fails before it is signed. -/
inductive WritesOut (n : NodeManager) (transaction : Fields) (es : List Exchange) {α : Type} :
    Except Failure α → Prop where
  | withheld {failure : Failure} (held : n.hasAccount = true) (none : renderings es = []) :
      WritesOut n transaction es (.error failure)
  | signed {r : Except Failure α} (nonce : Value) (held : n.hasAccount = true)
      (once : renderings es = [.signed (transaction ++ [("nonce", nonce)])]) :
      WritesOut n transaction es r
  | delegated {r : Except Failure α} (held : n.hasAccount = false)
      (once : renderings es = [.delegated (n.delegatedForm transaction)]) :
      WritesOut n transaction es r

theorem WritesOut.within {α β : Type} {transaction : Fields} {es es' : List Exchange}
    {r : Except Failure α} {r' : Except Failure β} (h : WritesOut n transaction es r)
    (hes : renderings es' = renderings es)
    (hr : ∀ failure, r = .error failure → r' = .error failure) :
    WritesOut n transaction es' r' := by
  cases h with
  | withheld held none =>
    rw [hr _ rfl]
    exact .withheld held (hes.trans none)
  | signed nonce held once => exact .signed nonce held (hes.trans once)
  | delegated held once => exact .delegated held (hes.trans once)

theorem submit_writesOut {transaction : Fields} {r : Except Failure Value}
    (h : (n.submit transaction).Path m es r m') : WritesOut n transaction es r := by
  unfold submit at h
  by_cases hn : n.hasAccount = true
  · rw [if_pos hn] at h
    obtain ⟨failure, hf, rfl⟩ | ⟨nonce, m₁, es₁, hnonce, hs⟩ := submitSigned_path.mp h
    · exact .withheld hn (nonce_renderings hf)
    have hbefore := nonce_renderings hnonce
    obtain ⟨failure, _, _, rfl⟩ | ⟨raw, reply, _, _, rfl⟩ := hs
    · exact .signed nonce hn (by rw [renderings_append, hbefore]; rfl)
    · exact .signed nonce hn (by rw [renderings_append, hbefore]; rfl)
  · rw [if_neg hn] at h
    obtain ⟨reply, rfl, _⟩ := submitUnsigned_path.mp h
    exact .delegated (Bool.not_eq_true _ ▸ hn) rfl

theorem send_writesOut {transaction whole : Fields} {recipient : Value}
    {r : Except Failure Receipt} (ha : addressed transaction recipient = .ok whole)
    (h : (n.send transaction recipient).Path m es r m') : WritesOut n whole es r := by
  obtain ⟨d, hd, _⟩ | ⟨_, hw, hs⟩ := send_path h
  · rw [ha] at hd
    cases hd
  rw [ha] at hw
  cases hw
  obtain ⟨failure, hf, rfl⟩ | ⟨hash, m₁, es₁, es₂, hh, rfl, hr⟩ := hs
  · refine (submit_writesOut hf).within rfl ?_
    intro failure' heq
    cases heq
    rfl
  · refine (submit_writesOut hh).within ?_ ?_
    · rw [renderings_append, renderings_told, receipt_renderings hr, List.append_nil]
    · intro failure hf
      cases hf

inductive IsLegacyBase (n : NodeManager) (o : LegacyOrder) : Fields → Prop where
  | signed (held : n.hasAccount = true) (chain : Value) :
      IsLegacyBase n o (legacyFields o ++ [("chainId", chain)])
  | delegated (held : n.hasAccount = false) : IsLegacyBase n o (legacyFields o)

theorem sendLegacy_writesOut {o : LegacyOrder} {r : Except Failure Receipt}
    (h : (n.sendLegacy o).Path m es r m') :
    (n.hasAccount = true ∧ renderings es = [] ∧ ∃ failure, r = .error failure) ∨
      ∃ base m₁ es₁ es₂, IsLegacyBase n o base ∧ es = es₁ ++ es₂ ∧ renderings es₁ = [] ∧
        (n.send base (destination o.isCreation o.recipient)).Path m₁ es₂ r m' := by
  obtain ⟨held, hc⟩ | ⟨held, hs⟩ := sendLegacy_path.mp h
  · obtain ⟨failure, hf, rfl⟩ | ⟨chain, m₁, es₁, es₂, rfl, hchain, hs⟩ := hc
    · exact .inl ⟨held, chainId_renderings hf, failure, rfl⟩
    · exact .inr ⟨_, m₁, es₁, es₂, .signed held chain, rfl, chainId_renderings hchain, hs⟩
  · exact .inr ⟨_, m, [], es, .delegated held, rfl, rfl, hs⟩

end NodeManager
end EvmClient
