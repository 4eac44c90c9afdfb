import EvmClient.Proofs.Execution.Asked
import EvmClient.Proofs.Node.Delegation
import EvmClient.Proofs.SharedManager

/-!
# The chain that a signature is for

A transaction on the fee market names the chain of its strategy. One at a fixed price names the
chain of the node, which is asked for once and remembered, or no chain if the node knows none. An
execution falls back from the one to the other where the node has no base fee, and with the price
the chain changes: `Execution.signed_names_chain`.
-/

set_option autoImplicit false

namespace EvmClient

variable {n : NodeManager} {α β : Type} {m m' : Memory} {es es' : List Exchange}

namespace NodeManager

def TellsChain (n : NodeManager) (es : List Exchange) (chain : Value) : Prop :=
  ∃ reply, .asked (.rpc "eth_chainId" []) reply ∈ es ∧ n.replyChain reply = .ok chain

/-- The node answered a newest block with this base fee, null for none. -/
def TellsBaseFee (n : NodeManager) (es : List Exchange) (fee : Value) : Prop :=
  ∃ reply, .asked (.rpc "eth_getBlockByNumber" [.text "latest", .bool false]) reply ∈ es ∧
    n.replyBaseFee reply = .ok fee

/-- Where the chain in a signature at a fixed price comes from. A number has been told by the node,
now or before. Null is not remembered, so it has been told just now. -/
inductive ChainSource (n : NodeManager) (before es : List Exchange) : Value → Prop where
  | number {chain : Value} {k : Int} (known : chain.integer? = some k)
      (told : n.TellsChain (before ++ es) chain) : ChainSource n before es chain
  | null (told : n.TellsChain es .null) : ChainSource n before es .null

theorem TellsChain.mono {chain : Value} (h : n.TellsChain es chain) (hes : es ⊆ es') :
    n.TellsChain es' chain := by
  obtain ⟨reply, hmem, hchain⟩ := h
  exact ⟨reply, hes hmem, hchain⟩

theorem TellsChain.integer {chain : Value} (h : n.TellsChain es chain) :
    chain = .null ∨ ∃ k, chain.integer? = some k := by
  obtain ⟨reply, _, hchain⟩ := h
  obtain ⟨v, _, hv⟩ := bind_eq_ok.mp hchain
  exact quantity_integer (Outcome.ofDefect_eq_ok.mp hv)

theorem ChainSource.mono {before : List Exchange} {chain : Value}
    (h : n.ChainSource before es chain) (hes : es ⊆ es') : n.ChainSource before es' chain := by
  cases h with
  | number known told =>
    exact .number known (told.mono (List.append_subset.mpr ⟨List.subset_append_left _ _,
      List.subset_append_of_subset_right _ hes⟩))
  | null told => exact .null (told.mono hes)

theorem ChainSource.after {before : List Exchange} {chain : Value}
    (h : n.ChainSource (before ++ es) es' chain) : n.ChainSource before (es ++ es') chain := by
  cases h with
  | number known told =>
    rw [List.append_assoc] at told
    exact .number known told
  | null told => exact .null (told.mono (List.subset_append_right _ _))

theorem TellsBaseFee.mono {fee : Value} (h : n.TellsBaseFee es fee) (hes : es ⊆ es') :
    n.TellsBaseFee es' fee := by
  obtain ⟨reply, hmem, hfee⟩ := h
  exact ⟨reply, hes hmem, hfee⟩

end NodeManager

/-! ## What is remembered of the chain -/

/-- What is remembered of the chain stays as it is, or it is what the node has answered. -/
structure Action.LearnsChain (n : NodeManager) (x : Action α) : Prop where
  learns : ∀ {m es r m'}, x.Path m es r m' → m'.chainId = m.chainId ∨ n.TellsChain es m'.chainId

namespace Action.LearnsChain

theorem of_kept {x : Action α} (h : ∀ {m es r m'}, x.Path m es r m' → m'.chainId = m.chainId) :
    x.LearnsChain n where
  learns hpath := .inl (h hpath)

theorem ofOutcome {o : Outcome α} : (Action.ofOutcome o).LearnsChain n := by
  refine of_kept fun h => ?_
  rw [(path_ofOutcome.mp h).2.2]

theorem ask {q : Question} : (Action.ask q).LearnsChain n := by
  refine of_kept fun h => ?_
  rw [(path_ask.mp h).2]

theorem tell {notice : Notice} : (Action.tell notice).LearnsChain n := by
  refine of_kept fun h => ?_
  rw [(path_tell.mp h).2.2]

theorem memory : Action.memory.LearnsChain n := by
  refine of_kept fun h => ?_
  rw [(path_memory.mp h).2.2]

theorem setNextNonce {v : Value} : (Action.setNextNonce v).LearnsChain n := by
  refine of_kept fun h => ?_
  rw [(path_setNextNonce.mp h).2.2]

theorem bind_of_path {x : Action α} {f : α → Action β} (hx : x.LearnsChain n)
    (hf : ∀ {m es a m'}, x.Path m es (.ok a) m' → (f a).LearnsChain n) :
    (x >>= f).LearnsChain n where
  learns h := by
    obtain ⟨failure, h, _⟩ | ⟨a, m₁, es₁, es₂, rfl, h, h'⟩ := path_bind.mp h
    · exact hx.learns h
    · obtain hkept | htold := (hf h).learns h'
      · rw [hkept]
        exact (hx.learns h).imp_right fun htold => htold.mono (List.subset_append_left _ _)
      · exact .inr (htold.mono (List.subset_append_right _ _))

theorem bind {x : Action α} {f : α → Action β} (hx : x.LearnsChain n)
    (hf : ∀ a, (f a).LearnsChain n) : (x >>= f).LearnsChain n :=
  hx.bind_of_path fun _ => hf _

theorem ite {c : Prop} [Decidable c] {x y : Action α} (hx : x.LearnsChain n)
    (hy : y.LearnsChain n) : (if c then x else y).LearnsChain n :=
  IsClosed.ite (P := LearnsChain n) hx hy

theorem attempt {x : Action α} (hx : x.LearnsChain n) : (Action.attempt x).LearnsChain n where
  learns h := by
    obtain ⟨_, _, h⟩ := path_attempt.mp h
    exact hx.learns h

theorem isClosed (n : NodeManager) : IsClosed (LearnsChain n) where
  ofOutcome _ := .ofOutcome
  ask _ := .ask
  tell _ := .tell
  bind hx hf := .bind hx hf
  attempt hx := .attempt hx

end Action.LearnsChain

open EvmClient.Action (LearnsChain)

namespace NodeManager

variable (n)

theorem chainId_learns : n.chainId.LearnsChain n where
  learns h := by
    obtain ⟨_, reply, rfl, ⟨_, _, _, rfl⟩ | ⟨chain, hchain, _, rfl⟩⟩ | ⟨_, _, _, rfl⟩ :=
      chainId_path.mp h
    · exact .inl rfl
    · exact .inr ⟨reply, List.mem_cons_self, hchain⟩
    · exact .inl rfl

theorem result_learns (method : String) (params : List Value) :
    (n.result method params).LearnsChain n := by
  rw [result_eq]
  exact .bind (.attempt .ask) fun _ => .ofOutcome

theorem pendingNonce_learns : n.pendingNonce.LearnsChain n :=
  .bind (n.result_learns _ _) fun _ => .ofOutcome

theorem countedNonce_learns : n.countedNonce.LearnsChain n := by
  refine .bind .memory fun known => .ite ?_ .ofOutcome
  exact .bind n.pendingNonce_learns fun _ => .bind .setNextNonce fun _ => .ofOutcome

theorem nonce_learns : n.nonce.LearnsChain n := by
  refine .ite ?_ n.pendingNonce_learns
  exact .bind n.countedNonce_learns fun _ =>
    .bind .ofOutcome fun _ => .bind .setNextNonce fun _ => .ofOutcome

theorem submitRaw_learns (raw : List UInt8) : (n.submitRaw raw).LearnsChain n := by
  refine .bind (.attempt (n.result_learns _ _)) fun result => ?_
  cases result with
  | ok hash => exact .ofOutcome
  | error failure => exact .ite (.bind .setNextNonce fun _ => .ofOutcome) .ofOutcome

theorem submit_learns (transaction : Fields) : (n.submit transaction).LearnsChain n := by
  refine .ite ?_ (n.result_learns _ _)
  exact .bind n.nonce_learns fun _ => .bind .ask fun raw => n.submitRaw_learns raw

theorem send_learns (transaction : Fields) (recipient : Value) :
    (n.send transaction recipient).LearnsChain n := by
  rw [send_eq]
  exact .bind .ofOutcome fun whole => .bind (n.submit_learns whole) fun hash =>
    .bind .tell fun _ => (LearnsChain.isClosed n).receipt n hash

theorem sendLegacy_learns (o : LegacyOrder) : (n.sendLegacy o).LearnsChain n := by
  rw [sendLegacy_eq]
  exact .ite (.bind n.chainId_learns fun _ => n.send_learns _ _) (n.send_learns _ _)

theorem sendFeeMarket_learns (o : FeeMarketOrder) : (n.sendFeeMarket o).LearnsChain n := by
  refine .bind (n.result_learns _ _) fun _ => .bind .ofOutcome fun _ => ?_
  exact .ite (.bind .tell fun _ => .ofOutcome) (.bind (n.send_learns _ _) fun _ => .ofOutcome)

end NodeManager

namespace Execution

theorem submit_learns (s : GasStrategy) (r : TransactionRequest) (limit : Int) (function : String)
    (isCreation : Bool) : (submit (.node n) s r limit function isCreation).LearnsChain n := by
  have hlegacy : ((Manager.node n).sendLegacy (legacyOrder s r limit isCreation)).LearnsChain n :=
    .bind (n.sendLegacy_learns _) fun _ => .ofOutcome
  cases s with
  | legacy s => exact .bind .tell fun _ => hlegacy
  | feeMarket s =>
    refine .bind .tell fun _ => .bind (n.sendFeeMarket_learns _) fun receipt => ?_
    cases receipt with
    | none => exact .bind .tell fun _ => hlegacy
    | some receipt => exact .ofOutcome

theorem run_learns {x : Execution} (hx : x.manager = .node n) (data value : Value)
    (function : String) (isCreation : Bool) :
    (x.run data value function isCreation).LearnsChain n := by
  refine .bind .ofOutcome fun amount => ?_
  refine .bind ((LearnsChain.isClosed n).gasLimit _ _ _) fun known => ?_
  rw [hx]
  refine .bind (.attempt (submit_learns _ _ _ _ _)) fun reply => ?_
  rcases reply with failure | _ | receipt
  · exact .ofOutcome
  · exact .ofOutcome
  · exact (LearnsChain.isClosed n).settle _ _ _ _

end Execution

theorem Contract.perform_learns {c : Contract} (hc : c.manager = .node n) (op : Operation) :
    (c.perform op).LearnsChain n := by
  cases h : op.isTransaction with
  | false => exact (LearnsChain.isClosed n).perform c h
  | true =>
    rcases op with ⟨f, _ | _ | _ | _ | value⟩ | _ <;> cases h
    have htransact : (c.transact f value).LearnsChain n :=
      .bind .ofOutcome fun data =>
        Execution.run_learns (x := c.execution) hc (.text data) value f.name false
    exact .bind (.bind htransact fun _ => .ofOutcome) fun _ => .ofOutcome

theorem Deployment.run_learns {d : Deployment} (hd : d.manager = .node n) :
    d.run.LearnsChain n := by
  refine .bind_of_path ((LearnsChain.isClosed n).handle d) fun h => ?_
  obtain ⟨_, heq, _⟩ := handle_path.mp h
  cases heq
  have hrun : ∀ data, (d.fresh.execution.run data d.value functionName true).LearnsChain n :=
    fun data => Execution.run_learns (x := d.fresh.execution) hd data d.value functionName true
  exact .bind .ofOutcome fun data => .bind (hrun data) fun receipt =>
    .bind .ofOutcome fun _ => .bind .tell fun _ => .ofOutcome

namespace NodeManager

theorem Uses.learns {x : Action α} (hx : n.Uses x) : x.LearnsChain n := by
  cases hx with
  | legacy o => exact n.sendLegacy_learns o
  | feeMarket o => exact n.sendFeeMarket_learns o
  | call request block => exact (LearnsChain.isClosed n).nodeCall n request block
  | code address block => exact (LearnsChain.isClosed n).nodeCode n address block
  | execution shared data value function isCreation =>
    exact Execution.run_learns shared data value function isCreation
  | handle shared op => exact Contract.perform_learns shared op
  | deployment shared => exact Deployment.run_learns shared

def KnowsChain (n : NodeManager) (es : List Exchange) (m : Memory) : Prop :=
  m.chainId.isNull = true ∨ n.TellsChain es m.chainId

theorem KnowsChain.after {x : Action α} {r : Except Failure α} (hm : n.KnowsChain es m)
    (hx : x.LearnsChain n) (h : x.Path m es' r m') : n.KnowsChain (es ++ es') m' := by
  obtain hkept | htold := hx.learns h
  · unfold KnowsChain
    rw [hkept]
    exact hm.imp_right fun htold => htold.mono (List.subset_append_left _ _)
  · exact .inr (htold.mono (List.subset_append_right _ _))

theorem History.knowsChain (h : n.History es m) : n.KnowsChain es m := by
  induction h with
  | fresh => exact .inl rfl
  | use before hx h ih => exact ih.after hx.learns h

theorem chainId_source {chain : Value} (hm : n.KnowsChain es m)
    (h : n.chainId.Path m es' (.ok chain) m') : n.ChainSource es es' chain := by
  obtain ⟨_, reply, rfl, ⟨_, _, heq, _⟩ | ⟨_, hchain, heq, _⟩⟩ | ⟨hknown, rfl, heq, _⟩ :=
    chainId_path.mp h
  · cases heq
  · cases heq
    have htold : n.TellsChain [.asked (.rpc "eth_chainId" []) reply] chain :=
      ⟨reply, List.mem_cons_self, hchain⟩
    obtain rfl | ⟨k, hk⟩ := htold.integer
    · exact .null htold
    · exact .number hk (htold.mono (List.subset_append_right _ _))
  · cases heq
    have htold := hm.resolve_left (Bool.not_eq_true _ ▸ hknown)
    obtain hnull | ⟨k, hk⟩ := htold.integer
    · rw [hnull] at hknown
      cases hknown
    · exact .number hk (htold.mono (List.subset_append_left _ _))

end NodeManager

/-! ## What is signed -/

theorem asked_of_told {q : Question} {reply : Except Failure q.Answer} {notice : Notice}
    (h : .asked q reply ∈ Exchange.told notice :: es) : .asked q reply ∈ es :=
  (List.mem_cons.mp h).resolve_left Exchange.noConfusion

/-- The fields have the entries of a transaction, with a recipient and a nonce at most added. -/
def Completes (base fields : Fields) : Prop :=
  ∀ name, name ≠ "to" → name ≠ "nonce" → fields.lookup name = base.lookup name

def Question.SignsOnly (base : Fields) : Question → Prop
  | .sign fields => Completes base fields
  | _ => True

namespace NodeManager

theorem addressed_completes {base whole : Fields} {recipient : Value}
    (h : addressed base recipient = .ok whole) (nonce : Value) :
    Completes base (whole ++ [("nonce", nonce)]) := by
  intro name hto hnonce
  have hto : (name == "to") = false := beq_false_of_ne hto
  have hnonce : (name == "nonce") = false := beq_false_of_ne hnonce
  unfold addressed at h
  by_cases hr : recipient.isNull = true
  · rw [if_pos hr] at h
    cases h
    simp [List.lookup_append, List.lookup_cons, hnonce]
  · rw [if_neg hr] at h
    obtain ⟨address, _, rfl⟩ := map_eq_ok.mp h
    simp [List.lookup_append, List.lookup_cons, hto, hnonce]

variable (n)

theorem send_signsOnly (base : Fields) (recipient : Value) :
    (n.send base recipient).Asks (Question.SignsOnly base) := by
  rw [send_eq]
  refine .ofDefect_bind fun whole hw => .bind ((n.submit_asks whole).mono ?_) fun hash =>
    .bind .log fun _ => (n.receipt_asks hash).mono ?_
  · intro q hq
    cases hq with
    | sign nonce => exact addressed_completes hw nonce
    | _ => trivial
  · rintro _ rfl
    trivial

variable {n} {fields : Fields} {signature : Except Failure (List UInt8)}

theorem sendFeeMarket_signed {o : FeeMarketOrder} {r : Except Failure (Option Receipt)}
    (h : (n.sendFeeMarket o).Path m es r m') (hsign : .asked (.sign fields) signature ∈ es) :
    ∃ fee, n.TellsBaseFee es fee ∧ fee.isNull = false ∧ Completes (feeMarketFields o) fields := by
  obtain ⟨reply, rest, rfl, hrest⟩ := sendFeeMarket_path.mp h
  have hsign : .asked (.sign fields) signature ∈ rest := by
    obtain heq | hmem := List.mem_cons.mp hsign
    · cases heq
    · exact hmem
  obtain ⟨_, _, rfl, _⟩ | ⟨fee, hfee, ⟨_, _, _, rfl⟩ | ⟨hknown, sent, hs, _⟩⟩ := hrest
  · cases hsign
  · obtain heq | hmem := List.mem_cons.mp hsign
    · cases heq
    · cases hmem
  · exact ⟨fee, ⟨reply, List.mem_cons_self, hfee⟩, hknown,
      (n.send_signsOnly _ _).path hs _ _ hsign⟩

theorem sendFeeMarket_unpriced {o : FeeMarketOrder}
    (h : (n.sendFeeMarket o).Path m es (.ok none) m') :
    ∃ fee, n.TellsBaseFee es fee ∧ fee.isNull = true := by
  obtain ⟨reply, rest, rfl, ⟨_, _, _, heq, _⟩ | ⟨fee, hfee, ⟨hnull, _⟩ | ⟨_, _, _, hsent⟩⟩⟩ :=
    sendFeeMarket_path.mp h
  · cases heq
  · exact ⟨fee, ⟨reply, List.mem_cons_self, hfee⟩, hnull⟩
  · obtain ⟨_, _, hreceipt⟩ := bind_eq_ok.mp hsent.symm
    cases hreceipt

theorem sendLegacy_signed {o : LegacyOrder} {r : Except Failure Receipt}
    (ha : n.hasAccount = true) (hm : n.KnowsChain es m)
    (h : (n.sendLegacy o).Path m es' r m') (hsign : .asked (.sign fields) signature ∈ es') :
    ∃ chain, n.ChainSource es es' chain ∧
      Completes (legacyFields o ++ [("chainId", chain)]) fields := by
  have hquiet : ∀ {es₁ m₁ r₁}, n.chainId.Path m es₁ r₁ m₁ →
      .asked (.sign fields) signature ∉ es₁ := by
    intro es₁ m₁ r₁ hchain hmem
    cases n.chainId_asks.path hchain _ _ hmem
  obtain ⟨_, ⟨_, hf, _⟩ | ⟨chain, m₁, es₁, es₂, rfl, hchain, hs⟩⟩ | ⟨hno, _⟩ :=
    sendLegacy_path.mp h
  · exact absurd hsign (hquiet hf)
  · have hsign := (List.mem_append.mp hsign).resolve_left (hquiet hchain)
    exact ⟨chain, (chainId_source hm hchain).mono (List.subset_append_left _ _),
      (n.send_signsOnly _ _).path hs _ _ hsign⟩
  · rw [ha] at hno
    cases hno

end NodeManager

namespace Execution

/-- Which chain a signed transaction names. On the fee market it is that of the strategy; at a fixed
price, where the newest block has no base fee, it is that of the node. -/
inductive NamesChain (n : NodeManager) (s : FeeMarketStrategy) (before es : List Exchange)
    (fields : Fields) : Prop where
  | feeMarket {fee : Value} (told : n.TellsBaseFee es fee) (priced : fee.isNull = false)
      (type : fields.lookup "type" = some (.int 2))
      (chain : fields.lookup "chainId" = some s.chainId) : NamesChain n s before es fields
  | fallback {fee chain : Value} (told : n.TellsBaseFee es fee) (unpriced : fee.isNull = true)
      (type : fields.lookup "type" = none)
      (chain_eq : fields.lookup "chainId" = some chain)
      (source : n.ChainSource before es chain) : NamesChain n s before es fields

variable {s : FeeMarketStrategy} {fields : Fields} {signature : Except Failure (List UInt8)}

theorem NamesChain.mono {before : List Exchange} (h : NamesChain n s before es fields)
    (hes : es ⊆ es') : NamesChain n s before es' fields := by
  cases h with
  | feeMarket told priced type chain => exact .feeMarket (told.mono hes) priced type chain
  | fallback told unpriced type chain_eq source =>
    exact .fallback (told.mono hes) unpriced type chain_eq (source.mono hes)

theorem NamesChain.after {before : List Exchange} (h : NamesChain n s (before ++ es) es' fields) :
    NamesChain n s before (es ++ es') fields := by
  have hes : es' ⊆ es ++ es' := List.subset_append_right _ _
  cases h with
  | feeMarket told priced type chain => exact .feeMarket (told.mono hes) priced type chain
  | fallback told unpriced type chain_eq source =>
    exact .fallback (told.mono hes) unpriced type chain_eq source.after

variable {before : List Exchange} {request : TransactionRequest} {limit : Int}
  {function : String} {isCreation : Bool} {r : Except Failure (Option Receipt)}

theorem sendFeeMarket_namesChain
    (h : (n.sendFeeMarket (feeMarketOrder s request limit isCreation)).Path m es r m')
    (hsign : .asked (.sign fields) signature ∈ es) : NamesChain n s before es fields := by
  obtain ⟨fee, htold, hpriced, hfields⟩ := NodeManager.sendFeeMarket_signed h hsign
  exact .feeMarket htold hpriced (hfields "type" (by decide) (by decide))
    (hfields "chainId" (by decide) (by decide))

theorem fallback_namesChain {m₁ : Memory} {r : Except Failure Receipt}
    (ha : n.hasAccount = true) (hm : n.KnowsChain before m)
    (hs : (n.sendFeeMarket (feeMarketOrder s request limit isCreation)).Path m es (.ok none) m₁)
    (hl : (n.sendLegacy (legacyOrder (.feeMarket s) request limit isCreation)).Path m₁ es' r m')
    (hsign : .asked (.sign fields) signature ∈ es') :
    NamesChain n s before (es ++ es') fields := by
  obtain ⟨fee, htold, hunpriced⟩ := NodeManager.sendFeeMarket_unpriced hs
  obtain ⟨chain, hsource, hfields⟩ :=
    NodeManager.sendLegacy_signed ha (hm.after (n.sendFeeMarket_learns _) hs) hl hsign
  exact .fallback (htold.mono (List.subset_append_left _ _)) hunpriced
    (hfields "type" (by decide) (by decide)) (hfields "chainId" (by decide) (by decide))
    hsource.after

theorem submit_namesChain (ha : n.hasAccount = true) (hm : n.KnowsChain before m)
    (h : (submit (.node n) (.feeMarket s) request limit function isCreation).Path m es r m')
    (hsign : .asked (.sign fields) signature ∈ es) : NamesChain n s before es fields := by
  obtain ⟨rest, rfl, hrest⟩ := submit_feeMarket_path.mp h
  refine NamesChain.mono ?_ (List.subset_cons_self _ _)
  have hsign := asked_of_told hsign
  obtain ⟨_, hs⟩ | ⟨m₁, es₁, es₂, rfl, hs, hl⟩ := hrest
  · exact sendFeeMarket_namesChain hs hsign
  obtain hsign | hsign := List.mem_append.mp hsign
  · exact (sendFeeMarket_namesChain hs hsign).mono (List.subset_append_left _ _)
  obtain ⟨_, hl, _⟩ := (Action.path_bind_of_ofOutcome fun _ => rfl).mp hl
  refine (fallback_namesChain ha hm hs hl (asked_of_told hsign)).mono ?_
  exact List.append_subset.mpr ⟨List.subset_append_left _ _,
    List.subset_append_of_subset_right _ (List.subset_cons_self _ _)⟩

theorem submission_namesChain {address data value : Value}
    {r : Except Failure (TransactionRequest × Receipt)} (ha : n.hasAccount = true)
    (hm : n.KnowsChain before m)
    (h : (submission ⟨.node n, address, some (.feeMarket s)⟩ data value function isCreation).Path
      m es r m')
    (hsign : .asked (.sign fields) signature ∈ es) : NamesChain n s before es fields := by
  have hlimit : ∀ {request es₁ r₁ m₁}, (gasLimit (some (.feeMarket s)) request function).Path
      m es₁ r₁ m₁ → .asked (.sign fields) signature ∉ es₁ := by
    intro request es₁ r₁ m₁ hg hmem
    cases (gasLimit_asks _ _ _).path hg _ _ hmem
  obtain ⟨_, _, rfl, _⟩ | ⟨amount, _, ⟨_, hg, _⟩ |
    ⟨g, limit, m₁, es₁, es₂, reply, rfl, hg, hs, _⟩⟩ := submission_path.mp h
  · cases hsign
  · exact absurd hsign (hlimit hg)
  obtain ⟨heq, _⟩ := gasLimit_ok hg
  cases heq
  have hm₁ := hm.after ((Action.LearnsChain.isClosed n).gasLimit _ _ _) hg
  have hsign := (List.mem_append.mp hsign).resolve_left (hlimit hg)
  exact (submit_namesChain ha hm₁ hs hsign).after

/-- Whatever has been done with the manager before: the transaction that is signed for an execution
on the fee market names the chain of its strategy, unless the node has no base fee. Then it names
the number that the node has told for its chain, which may be another one, or none if the node has
told null. -/
theorem signed_names_chain (n : NodeManager) (address : Value) (s : FeeMarketStrategy)
    (data value : Value) (function : String) (isCreation : Bool) (before es : List Exchange)
    (m m' : Memory) (r : Except Failure Receipt) (fields : Fields)
    (signature : Except Failure (List UInt8)) (ha : n.hasAccount = true)
    (hbefore : n.History before m)
    (h : (run ⟨.node n, address, some (.feeMarket s)⟩ data value function isCreation).Path
      m es r m')
    (hsign : .asked (.sign fields) signature ∈ es) : NamesChain n s before es fields := by
  obtain ⟨_, hs, _⟩ | ⟨request, receipt, m₁, es₁, es₂, rfl, hs, hsettle⟩ := run_path.mp h
  · exact submission_namesChain ha hbefore.knowsChain hs hsign
  obtain hsign | hsign := List.mem_append.mp hsign
  · exact (submission_namesChain ha hbefore.knowsChain hs hsign).mono (List.subset_append_left _ _)
  · cases (settle_asks _ _ _ _).path hsettle _ _ hsign

def firstChain : FeeMarketStrategy := ⟨.int 1, .int 1, .int 20, .constant (.int 21000), .null⟩

def firstChainPayment : Execution :=
  ⟨.node NodeManager.payer, NodeManager.payment.recipient, some (.feeMarket firstChain)⟩

def fifthChainNode (block : Fields) : Script where
  methods := [("eth_chainId", [.ok (.dict [("result", .int 5)])]),
    ("eth_getTransactionCount", [.ok (.dict [("result", .int 5)])]),
    ("eth_getBlockByNumber", [.ok (.dict [("result", .dict block)])]),
    ("eth_sendRawTransaction", [.ok (.dict [("result", .text "0xaa")])])]

theorem priced_payment_names_strategy_chain :
    ∃ es r m' fields signature, NodeManager.payer.History [] {} ∧
      (firstChainPayment.run (.text "0x01") (.int 7) "pay" false).Path {} es r m' ∧
      .asked (.sign fields) signature ∈ es ∧ fields.lookup "chainId" = some firstChain.chainId := by
  have h := Program.path_history Script.answer
    (firstChainPayment.run (.text "0x01") (.int 7) "pay" false {})
    (fifthChainNode [("baseFeePerGas", .int 9)])
  have hnames := signed_names_chain NodeManager.payer NodeManager.payment.recipient firstChain _ _ _
    _ [] _ _ _ _ _ _ rfl .fresh h (.tail _ (.tail _ (.tail _ (.head _))))
  refine ⟨_, _, _, _, _, .fresh, h, .tail _ (.tail _ (.tail _ (.head _))), ?_⟩
  cases hnames with
  | feeMarket _ _ _ chain => exact chain
  | fallback _ _ type _ _ => cases type

/-- Without one, what is signed for the first chain is valid on the fifth. -/
theorem fallback_names_node_chain :
    NodeManager.payer.hasAccount = true ∧ ∃ es r m' fields signature,
      (firstChainPayment.run (.text "0x01") (.int 7) "pay" false).Path {} es r m' ∧
      .asked (.sign fields) signature ∈ es ∧ fields.lookup "chainId" = some (.int 5) ∧
      fields.lookup "chainId" ≠ some firstChain.chainId := by
  have h := Program.path_history Script.answer
    (firstChainPayment.run (.text "0x01") (.int 7) "pay" false {}) (fifthChainNode [])
  refine ⟨rfl, _, _, _, _, _, h,
    .tail _ (.tail _ (.tail _ (.tail _ (.tail _ (.tail _ (.head _)))))), ?_, ?_⟩
  · rfl
  · intro hsame
    cases hsame

end Execution
end EvmClient
