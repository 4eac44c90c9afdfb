import EvmClient.Proofs.Node.Send
import EvmClient.Script

/-!
# The count of nonces

A manager with an account that counts nonces itself remembers the nonce of the next transaction. The
ledger of a history says what that nonce is: the number that the node answered last, plus the
transactions that the node has taken since, plus the nonces that were given out and lost since. A
nonce is lost if the signer fails, or if handing in fails in a way that is not taken for a
rejection. There is a gap exactly if a nonce was lost.
-/

set_option autoImplicit false

namespace EvmClient

/-- What has become of nonces since the node was asked for one. -/
structure Ledger where
  /-- the number that the node answered last -/
  count : Option Int := none
  accepted : Nat := 0
  lost : Nat := 0

namespace NodeManager

def isAccepted (n : NodeManager) (reply : Except Failure Value) : Bool :=
  match n.replyResult "eth_sendRawTransaction" reply with
  | .ok _ => true
  | .error _ => false

def recount (n : NodeManager) (l : Ledger) (reply : Except Failure Value) : Ledger :=
  match n.replyNonce reply with
  | .ok nonce => nonce.integer?.elim l fun i => { count := some i }
  | .error _ => l

def enter (n : NodeManager) (l : Ledger) (reply : Except Failure Value) : Ledger :=
  if n.isAccepted reply then { l with accepted := l.accepted + 1 }
  else if n.isRefused reply then l
  else { l with lost := l.lost + 1 }

def account (n : NodeManager) (l : Ledger) : Exchange → Ledger
  | .asked (.rpc "eth_getTransactionCount" _) reply => n.recount l reply
  | .asked (.rpc "eth_sendRawTransaction" _) reply => n.enter l reply
  | .asked (.sign _) (.error _) => { l with lost := l.lost + 1 }
  | _ => l

def ledger (n : NodeManager) (es : List Exchange) : Ledger := es.foldl n.account {}

/-- The sends of one manager in some order, from a fresh memory: the history and the memory left. -/
inductive Reachable (n : NodeManager) : List Exchange → Memory → Prop where
  | fresh : Reachable n [] {}
  | legacy {es es' : List Exchange} {m m' : Memory} {o : LegacyOrder}
      {r : Except Failure Receipt} (h : Reachable n es m)
      (send : (n.sendLegacy o).Path m es' r m') : Reachable n (es ++ es') m'
  | feeMarket {es es' : List Exchange} {m m' : Memory} {o : FeeMarketOrder}
      {r : Except Failure (Option Receipt)} (h : Reachable n es m)
      (send : (n.sendFeeMarket o).Path m es' r m') : Reachable n (es ++ es') m'

end NodeManager

/-- The remembered nonce is the one that the ledger gives, or none is remembered. -/
def Ledger.Explains (l : Ledger) (nextNonce : Value) : Prop :=
  nextNonce = .null ∨ ∃ i, l.count = some i ∧ nextNonce = .int (i + l.accepted + l.lost)

def Ledger.Pending (l : Ledger) (nextNonce : Value) : Prop :=
  ∃ i, l.count = some i ∧ nextNonce = .int (i + l.accepted + l.lost + 1)

theorem Ledger.Pending.accept {l : Ledger} {v : Value} (h : l.Pending v) :
    { l with accepted := l.accepted + 1 }.Explains v := by
  obtain ⟨i, hc, hi⟩ := h
  have hsum : i + l.accepted + l.lost + 1 = i + ((l.accepted + 1 : Nat) : Int) + l.lost := by omega
  exact .inr ⟨i, hc, hi.trans (congrArg Value.int hsum)⟩

theorem Ledger.Pending.lose {l : Ledger} {v : Value} (h : l.Pending v) :
    { l with lost := l.lost + 1 }.Explains v := by
  obtain ⟨i, hc, hi⟩ := h
  have hsum : i + l.accepted + l.lost + 1 = i + l.accepted + ((l.lost + 1 : Nat) : Int) := by omega
  exact .inr ⟨i, hc, hi.trans (congrArg Value.int hsum)⟩

namespace NodeManager

variable {n : NodeManager} {l : Ledger} {m m' : Memory} {es : List Exchange}

/-! ## Giving out a nonce -/

theorem map_int_integer {d : Except Defect Int} {w : Value} (h : d.map Value.int = .ok w) :
    ∃ i, w.integer? = some i := by
  cases d with
  | error e => cases h
  | ok i =>
    cases h
    exact ⟨i, rfl⟩

theorem quantity_integer {v w : Value} (h : v.quantity = .ok w) :
    w = .null ∨ ∃ i, w.integer? = some i := by
  have other : ∀ v : Value,
      (do let _ ← v.textOf; return Value.int (← v.wholeNumber)) = Except.ok w →
      ∃ i, w.integer? = some i := by
    intro v hv
    obtain ⟨_, _, hv⟩ := bind_eq_ok.mp hv
    obtain ⟨i, _, hv⟩ := bind_eq_ok.mp hv
    cases hv
    exact ⟨i, rfl⟩
  cases v with
  | null =>
    cases h
    exact .inl rfl
  | bool b =>
    cases h
    exact .inr ⟨_, rfl⟩
  | int i =>
    cases h
    exact .inr ⟨i, rfl⟩
  | bytes bs =>
    cases h
    exact .inr ⟨_, rfl⟩
  | text s =>
    simp only [Value.quantity] at h
    by_cases hs : "0x".isPrefixOf s = true
    · rw [if_pos hs] at h
      cases hx : Number.hexInteger? s with
      | none =>
        rw [hx] at h
        cases h
      | some i =>
        rw [hx] at h
        cases h
        exact .inr ⟨i, rfl⟩
    · rw [if_neg hs] at h
      exact .inr (map_int_integer h)
  | float x => exact .inr (other _ h)
  | list items => exact .inr (other _ h)
  | tuple items => exact .inr (other _ h)
  | dict entries => exact .inr (other _ h)

theorem recount_of_error {reply : Except Failure Value} {failure : Failure}
    (h : n.replyNonce reply = .error failure) : n.recount l reply = l := by
  unfold recount
  rw [h]

theorem replyNonce_integer {reply : Except Failure Value} {nonce : Value}
    (h : n.replyNonce reply = .ok nonce) : nonce = .null ∨ ∃ i, nonce.integer? = some i := by
  obtain ⟨v, _, hv⟩ := bind_eq_ok.mp h
  exact quantity_integer (Outcome.ofDefect_eq_ok.mp hv)

theorem recount_of_ok {reply : Except Failure Value} {nonce : Value}
    (h : n.replyNonce reply = .ok nonce) :
    (nonce = .null ∧ n.recount l reply = l) ∨
      ∃ i, nonce.integer? = some i ∧ n.recount l reply = { count := some i } := by
  obtain rfl | ⟨i, hi⟩ := replyNonce_integer h
  · refine .inl ⟨rfl, ?_⟩
    unfold recount
    rw [h]
    rfl
  · refine .inr ⟨i, hi, ?_⟩
    unfold recount
    rw [h]
    change nonce.integer?.elim _ _ = _
    rw [hi]
    rfl

theorem successor_of_integer {nonce : Value} {i : Int} (h : nonce.integer? = some i) :
    successor nonce = .ok (.int (i + 1)) := by
  unfold successor
  rw [h]

theorem remembered_of_integer {given : Value} {i : Int} {m₁ : Memory} {r : Except Failure Value}
    (hi : given.integer? = some i)
    (h : (∃ d, successor given = .error d ∧ r = .error (Failure.ofDefect d) ∧ m' = m₁) ∨
      ∃ next, successor given = .ok next ∧ r = .ok given ∧ m' = { m₁ with nextNonce := next }) :
    r = .ok given ∧ m' = { m₁ with nextNonce := .int (i + 1) } := by
  rw [successor_of_integer hi] at h
  obtain ⟨d, heq, _⟩ | ⟨next, hnext, hr, hm⟩ := h
  · cases heq
  · cases hnext
    exact ⟨hr, hm⟩

theorem countedNonce_ledger {nonce : Value} (hl : l.Explains m.nextNonce)
    (h : n.countedNonce.Path m es (.ok nonce) m') :
    (nonce = .null ∧ m'.nextNonce = .null) ∨
      ∃ i : Int, (es.foldl n.account l).count = some i ∧
        nonce.integer? = some (i + (es.foldl n.account l).accepted +
          (es.foldl n.account l).lost) := by
  obtain ⟨_, reply, rfl, hr⟩ | ⟨hm, rfl, heq, rfl⟩ := countedNonce_path.mp h
  · obtain ⟨failure, _, heq, _⟩ | ⟨given, hg, heq, rfl⟩ := hr
    · cases heq
    · cases heq
      change (_ ∧ _) ∨ ∃ i : Int, (n.recount l reply).count = some i ∧
        _ = some (i + (n.recount l reply).accepted + (n.recount l reply).lost)
      obtain ⟨rfl, _⟩ | ⟨i, hi, hrec⟩ := recount_of_ok (l := l) hg
      · exact .inl ⟨rfl, rfl⟩
      · rw [hrec]
        exact .inr ⟨i, rfl, by simpa using hi⟩
  · cases heq
    obtain hnull | ⟨i, hc, hi⟩ := hl
    · rw [hnull] at hm
      cases hm
    · rw [hi]
      exact .inr ⟨i, hc, rfl⟩

theorem countedNonce_error {failure : Failure} (hl : l.Explains m.nextNonce)
    (h : n.countedNonce.Path m es (.error failure) m') :
    (es.foldl n.account l).Explains m'.nextNonce := by
  obtain ⟨_, reply, rfl, hr⟩ | ⟨_, _, heq, _⟩ := countedNonce_path.mp h
  · obtain ⟨failure', hf, _, rfl⟩ | ⟨_, _, heq, _⟩ := hr
    · change (n.recount l reply).Explains _
      rw [recount_of_error hf]
      exact hl
    · cases heq
  · cases heq

theorem nonce_pending {nonce : Value} (hn : n.settings.manualNonce = true)
    (hl : l.Explains m.nextNonce) (h : n.nonce.Path m es (.ok nonce) m') :
    (es.foldl n.account l).Pending m'.nextNonce := by
  obtain ⟨failure, _, heq⟩ | ⟨given, m₁, hc, hs⟩ := (nonce_path hn).mp h
  · cases heq
  obtain ⟨rfl, _⟩ | ⟨i, hcount, hi⟩ := countedNonce_ledger hl hc
  · obtain ⟨d, _, heq, _⟩ | ⟨next, hnext, _, _⟩ := hs
    · cases heq
    · cases hnext
  · obtain ⟨_, rfl⟩ := remembered_of_integer hi hs
    exact ⟨i, hcount, rfl⟩

theorem nonce_error {failure : Failure} (hn : n.settings.manualNonce = true)
    (hl : l.Explains m.nextNonce) (h : n.nonce.Path m es (.error failure) m') :
    (es.foldl n.account l).Explains m'.nextNonce := by
  obtain ⟨failure', hc, heq⟩ | ⟨given, m₁, hc, hs⟩ := (nonce_path hn).mp h
  · exact countedNonce_error hl hc
  obtain ⟨rfl, hm⟩ | ⟨i, _, hi⟩ := countedNonce_ledger hl hc
  · obtain ⟨d, _, _, rfl⟩ | ⟨next, hnext, _, _⟩ := hs
    · exact .inl hm
    · cases hnext
  · cases (remembered_of_integer hi hs).1

/-! ## What becomes of the nonce -/

theorem isRefused_of_isAccepted {reply : Except Failure Value} (h : n.isAccepted reply = true) :
    n.isRefused reply = false := by
  unfold isAccepted at h
  unfold isRefused
  cases hr : n.replyResult "eth_sendRawTransaction" reply with
  | ok hash => rfl
  | error failure =>
    rw [hr] at h
    cases h

theorem enter_explains {reply : Except Failure Value} (hp : l.Pending m.nextNonce) :
    (n.enter l reply).Explains
      (if n.isRefused reply then { m with nextNonce := .null } else m).nextNonce := by
  unfold enter
  by_cases ha : n.isAccepted reply = true
  · rw [if_pos ha, isRefused_of_isAccepted ha]
    exact hp.accept
  · rw [if_neg ha]
    by_cases hr : n.isRefused reply = true
    · rw [if_pos hr, if_pos hr]
      exact .inl rfl
    · rw [if_neg hr, if_neg hr]
      exact hp.lose

theorem submitSigned_ledger {transaction : Fields} {r : Except Failure Value}
    (hn : n.settings.manualNonce = true) (hl : l.Explains m.nextNonce)
    (h : (n.submitSigned transaction).Path m es r m') :
    (es.foldl n.account l).Explains m'.nextNonce := by
  obtain ⟨failure, hf, _⟩ | ⟨nonce, m₁, es₁, hnonce, hs⟩ := submitSigned_path.mp h
  · exact nonce_error hn hl hf
  have hp := nonce_pending hn hl hnonce
  obtain ⟨failure, _, rfl, rfl⟩ | ⟨raw, reply, _, rfl, rfl⟩ := hs
  · rw [List.foldl_append]
    exact hp.lose
  · rw [List.foldl_append]
    exact enter_explains hp

/-! ## Sends -/

theorem chainId_ledger {r : Except Failure Value} (h : n.chainId.Path m es r m') :
    es.foldl n.account l = l ∧ m'.nextNonce = m.nextNonce := by
  obtain ⟨_, reply, rfl, hr⟩ | ⟨_, rfl, _, rfl⟩ := chainId_path.mp h
  · obtain ⟨failure, _, _, rfl⟩ | ⟨chain, _, _, rfl⟩ := hr
    · exact ⟨rfl, rfl⟩
    · exact ⟨rfl, rfl⟩
  · exact ⟨rfl, rfl⟩

theorem receipt_ledger {hash : Value} {r : Except Failure Receipt}
    (h : (n.receipt hash).Path m es r m') : es.foldl n.account l = l ∧ m' = m := by
  obtain ⟨_, reply, rfl, _, rfl⟩ | ⟨_, rfl, _, rfl⟩ := receipt_path.mp h
  · exact ⟨rfl, rfl⟩
  · exact ⟨rfl, rfl⟩

variable (ha : n.hasAccount = true) (hn : n.settings.manualNonce = true)
include ha hn

theorem send_ledger {transaction : Fields} {recipient : Value} {r : Except Failure Receipt}
    (hl : l.Explains m.nextNonce) (h : (n.send transaction recipient).Path m es r m') :
    (es.foldl n.account l).Explains m'.nextNonce := by
  obtain ⟨d, _, rfl, _, rfl⟩ | ⟨whole, _, hs⟩ := send_path h
  · exact hl
  unfold submit at hs
  rw [if_pos ha] at hs
  obtain ⟨failure, hf, _⟩ | ⟨hash, m₁, es₁, es₂, hh, rfl, hr⟩ := hs
  · exact submitSigned_ledger hn hl hf
  · obtain ⟨hes, rfl⟩ := receipt_ledger hr
    rw [List.foldl_append, List.foldl_cons, hes]
    exact submitSigned_ledger hn hl hh

theorem sendLegacy_ledger {o : LegacyOrder} {r : Except Failure Receipt}
    (hl : l.Explains m.nextNonce) (h : (n.sendLegacy o).Path m es r m') :
    (es.foldl n.account l).Explains m'.nextNonce := by
  obtain ⟨_, hc⟩ | ⟨hno, _⟩ := sendLegacy_path.mp h
  · obtain ⟨failure, hf, _⟩ | ⟨chain, m₁, es₁, es₂, rfl, hchain, hs⟩ := hc
    · obtain ⟨hes, hm⟩ := chainId_ledger hf
      rw [hes, hm]
      exact hl
    · obtain ⟨hes, hm⟩ := chainId_ledger hchain
      rw [List.foldl_append, hes]
      exact send_ledger ha hn (hm ▸ hl) hs
  · rw [ha] at hno
    cases hno

theorem sendFeeMarket_ledger {o : FeeMarketOrder} {r : Except Failure (Option Receipt)}
    (hl : l.Explains m.nextNonce) (h : (n.sendFeeMarket o).Path m es r m') :
    (es.foldl n.account l).Explains m'.nextNonce := by
  obtain ⟨reply, rest, rfl, hr⟩ := sendFeeMarket_path.mp h
  rw [List.foldl_cons]
  change (rest.foldl n.account l).Explains _
  obtain ⟨failure, _, rfl, _, rfl⟩ | ⟨fee, _, hfee⟩ := hr
  · exact hl
  obtain ⟨_, _, rfl, rfl⟩ | ⟨_, sent, hs, _⟩ := hfee
  · exact hl
  · exact send_ledger ha hn hl hs

theorem Reachable.explains (h : n.Reachable es m) : (n.ledger es).Explains m.nextNonce := by
  unfold ledger
  induction h with
  | fresh => exact .inl rfl
  | legacy _ send ih =>
    rw [List.foldl_append]
    exact sendLegacy_ledger ha hn ih send
  | feeMarket _ send ih =>
    rw [List.foldl_append]
    exact sendFeeMarket_ledger ha hn ih send

omit ha hn

/-- No nonce has been skipped: what is remembered is the count of the node and what it has taken
since, or nothing. -/
def Gapless (l : Ledger) (nextNonce : Value) : Prop :=
  nextNonce = .null ∨ ∃ i, l.count = some i ∧ nextNonce = .int (i + l.accepted)

/-- What is remembered is off by the nonces that were lost, so that a nonce is skipped exactly if
one was lost since the node was asked. -/
theorem gapless_iff_none_lost (h : n.Reachable es m) (ha : n.hasAccount = true)
    (hn : n.settings.manualNonce = true) :
    (n.ledger es).Explains m.nextNonce ∧
      (Gapless (n.ledger es) m.nextNonce ↔ m.nextNonce = .null ∨ (n.ledger es).lost = 0) := by
  have he := h.explains ha hn
  refine ⟨he, ?_⟩
  constructor
  · intro hx
    obtain hnull | ⟨i, hc, hi⟩ := hx
    · exact .inl hnull
    · obtain hnull | ⟨i', hc', hi'⟩ := he
      · exact .inl hnull
      · have heq : i = i' := Option.some.inj (hc.symm.trans hc')
        have hsum := Value.int.inj (hi.symm.trans hi')
        exact .inr (by omega)
  · intro hx
    obtain hnull | hlost := hx
    · exact .inl hnull
    · obtain hnull | ⟨i, hc, hi⟩ := he
      · exact .inl hnull
      · refine .inr ⟨i, hc, ?_⟩
        rw [hi, hlost]
        congr 1
        omega

def countingManager : NodeManager :=
  .ofAccount (.text "0x01") { manualNonce := true } .null

def emptyCreation : LegacyOrder := ⟨.null, .text "0x", .int 0, .int 1, .int 21000, true⟩

def fifthNonceNode : Script where
  methods := [("eth_chainId", [.ok (.dict [("result", .int 1)])]),
    ("eth_getTransactionCount", [.ok (.dict [("result", .int 5)])]),
    ("eth_sendRawTransaction", [.ok (.dict [("result", .text "0xaa")])])]

def lockedSigner : Script :=
  { fifthNonceNode with signatures := [.error (.fault (.raised "locked"))] }

theorem taken_send_gapless :
    ∃ es m, countingManager.Reachable es m ∧ m.nextNonce = .int 6 ∧
      (countingManager.ledger es).accepted = 1 ∧
      Gapless (countingManager.ledger es) m.nextNonce := by
  have h := Program.path_history Script.answer (countingManager.sendLegacy emptyCreation {})
    fifthNonceNode
  have hr : countingManager.Reachable _ _ := .legacy .fresh h
  exact ⟨_, _, hr, rfl, rfl, (gapless_iff_none_lost hr rfl rfl).2.mpr (.inr rfl)⟩

/-- The nonce of a transaction that is not signed is skipped by the next one. -/
theorem locked_signer_leaves_gap :
    ∃ es m, countingManager.Reachable es m ∧ m.nextNonce = .int 6 ∧
      countingManager.ledger es = { count := some 5, lost := 1 } ∧
      ¬Gapless (countingManager.ledger es) m.nextNonce := by
  have h := Program.path_history Script.answer (countingManager.sendLegacy emptyCreation {})
    lockedSigner
  have hr : countingManager.Reachable _ _ := .legacy .fresh h
  refine ⟨_, _, hr, rfl, rfl, ?_⟩
  intro hx
  obtain hnull | ⟨i, hc, hi⟩ := hx
  · cases hnull
  · have h5 : i = 5 := (Option.some.inj hc).symm
    have h6 : (6 : Int) = i + (0 : Nat) := Value.int.inj hi
    omega

end NodeManager
end EvmClient
