import EvmClient.Proofs.Node.Numbering
import EvmClient.Proofs.Passive

/-!
# Turns of a manager that counts nonces

A send takes a turn: it has a nonce given out and used, or fails to read the count, or stops before
it needs a nonce. The turn is decided by what is known of the next nonce, and what it leaves known
is what its events tell. Passive work takes no turn.
-/

set_option autoImplicit false

namespace EvmClient

/-- A nonce that is given out goes to the signer, and what is signed is handed in. -/
inductive NonceUse (i : Int) : List NonceEvent → Option Int → Prop where
  | unsigned : NonceUse i [.used (some i)] (some (i + 1))
  | submitted (refused : Bool) :
      NonceUse i [.used (some i), .submitted refused] (if refused then none else some (i + 1))

/-- The nonce events of one turn, by what is known of the next nonce before it and after it. -/
inductive Turn : Option Int → List NonceEvent → Option Int → Prop where
  | idle (next : Option Int) : Turn next [] next
  | unanswered : Turn none [.read none] none
  | read {i : Int} {events : List NonceEvent} {next : Option Int} (h : NonceUse i events next) :
      Turn none (.read (some i) :: events) next
  | known {i : Int} {events : List NonceEvent} {next : Option Int} (h : NonceUse i events next) :
      Turn (some i) events next

section

variable {i : Int} {next next' : Option Int} {events : List NonceEvent}

theorem NonceUse.followsCount (h : NonceUse i events next) :
    FollowsCount (some i) events ∧ nextAfter (some i) events = next := by
  cases h with
  | unsigned => exact ⟨⟨⟨rfl, rfl⟩, trivial⟩, rfl⟩
  | submitted refused => exact ⟨⟨⟨rfl, rfl⟩, rfl, trivial⟩, rfl⟩

theorem NonceUse.not_read (h : NonceUse i events next) (count : Option Int) :
    .read count ∉ events := by
  cases h <;> simp

theorem Turn.followsCount (h : Turn next events next') :
    FollowsCount next events ∧ nextAfter next events = next' := by
  cases h with
  | idle => exact ⟨trivial, rfl⟩
  | unanswered => exact ⟨⟨rfl, trivial⟩, rfl⟩
  | read hu => exact ⟨⟨rfl, hu.followsCount.1⟩, hu.followsCount.2⟩
  | known hu => exact hu.followsCount

def NeedsNonce (events : List NonceEvent) : Prop :=
  (∃ count, .read count ∈ events) ∨ ∃ nonce, .used nonce ∈ events

theorem Turn.reads_iff (h : Turn next events next') (hn : NeedsNonce events) :
    (∃ count, .read count ∈ events) ↔ next = none := by
  cases h with
  | idle => simp [NeedsNonce] at hn
  | unanswered => exact iff_of_true ⟨none, List.mem_cons_self⟩ rfl
  | read _ => exact iff_of_true ⟨_, List.mem_cons_self⟩ rfl
  | known hu =>
    refine iff_of_false ?_ (Option.some_ne_none _)
    intro hx
    obtain ⟨count, hm⟩ := hx
    exact hu.not_read count hm

theorem Turn.known_of_taken (h : Turn next events next') (ht : .submitted false ∈ events) :
    next' ≠ none := by
  have huse : ∀ {i events next}, NonceUse i events next → .submitted false ∈ events →
      next ≠ none := by
    intro i events next hu hm
    cases hu with
    | unsigned => simp at hm
    | submitted refused =>
      obtain rfl : refused = false := by simpa using hm
      exact Option.some_ne_none _
  cases h with
  | idle => cases ht
  | unanswered => simp at ht
  | read hu => exact huse hu (by simpa using ht)
  | known hu => exact huse hu ht

end

namespace NodeManager

variable {α β : Type} {n : NodeManager} {m m' : Memory} {es es' : List Exchange}

def countIn (n : NodeManager) (reply : Except Failure Value) : Option Int :=
  match n.replyNonce reply with
  | .ok nonce => nonce.integer?
  | .error _ => none

def nonceEvent? (n : NodeManager) : Exchange → Option NonceEvent
  | .asked (.rpc method _) reply =>
    if method = "eth_getTransactionCount" then some (.read (n.countIn reply))
    else if method = "eth_sendRawTransaction" then some (.submitted (n.isRefused reply))
    else none
  | .asked (.sign transaction) _ => some (.used (Fields.get transaction "nonce").integer?)
  | _ => none

def nonceEvents (n : NodeManager) (es : List Exchange) : List NonceEvent :=
  es.filterMap n.nonceEvent?

theorem nonceEvents_append :
    n.nonceEvents (es ++ es') = n.nonceEvents es ++ n.nonceEvents es' := List.filterMap_append

theorem nonceEvents_told (notice : Notice) :
    n.nonceEvents (.told notice :: es) = n.nonceEvents es := rfl

theorem nonceEvent?_eq_none {q : Question} (h : q.IsPassive) (reply : Except Failure q.Answer) :
    n.nonceEvent? (.asked q reply) = none := by
  cases q with
  | rpc method params =>
    have hcount : method ≠ "eth_getTransactionCount" := fun heq => h (by simp [heq])
    have hraw : method ≠ "eth_sendRawTransaction" := fun heq => h (by simp [heq])
    simp only [nonceEvent?, if_neg hcount, if_neg hraw]
  | legacy | feeMarket | sign => cases h
  | _ => rfl

theorem nonceEvents_passive {x : Action α} {r : Except Failure α} (hx : x.IsPassive)
    (h : x.Path m es r m') : n.nonceEvents es = [] := by
  refine List.filterMap_eq_nil_iff.mpr ?_
  intro e he
  cases e with
  | asked q reply => exact nonceEvent?_eq_none (hx.asks.path h q reply he) reply
  | told notice => rfl

end NodeManager

def Memory.Knows (m : Memory) (next : Option Int) : Prop := m.nextNonce = next.elim .null .int

/-- The action takes one turn at most, and remembers what comes next after it. -/
structure Action.TakesTurn {α : Type} (n : NodeManager) (x : Action α) : Prop where
  turn : ∀ {m es r m' next}, m.Knows next → x.Path m es r m' →
    ∃ next', Turn next (n.nonceEvents es) next' ∧ m'.Knows next'

namespace Action

variable {α β : Type} {n : NodeManager}

theorem IsPassive.takesTurn {x : Action α} (hx : x.IsPassive) : x.TakesTurn n := by
  constructor
  intro m es r m' next hk h
  rw [NodeManager.nonceEvents_passive hx h]
  exact ⟨next, .idle next, (hx.keeps h).trans hk⟩

theorem IsPassive.bind_turn {x : Action α} {f : α → Action β} (hx : x.IsPassive)
    (hf : ∀ a, (f a).TakesTurn n) : (x >>= f).TakesTurn n := by
  constructor
  intro m es r m' next hk h
  obtain ⟨failure, h, _⟩ | ⟨a, m₁, es₁, es₂, rfl, h, h'⟩ := path_bind.mp h
  · exact hx.takesTurn.turn hk h
  · rw [NodeManager.nonceEvents_append, NodeManager.nonceEvents_passive hx h, List.nil_append]
    exact (hf a).turn ((hx.keeps h).trans hk) h'

namespace TakesTurn

theorem bind_passive {x : Action α} {f : α → Action β} (hx : x.TakesTurn n)
    (hf : ∀ a, (f a).IsPassive) : (x >>= f).TakesTurn n := by
  constructor
  intro m es r m' next hk h
  obtain ⟨failure, h, _⟩ | ⟨a, m₁, es₁, es₂, rfl, h, h'⟩ := path_bind.mp h
  · exact hx.turn hk h
  · obtain ⟨next', ht, hk'⟩ := hx.turn hk h
    rw [NodeManager.nonceEvents_append, NodeManager.nonceEvents_passive (hf a) h',
      List.append_nil]
    exact ⟨next', ht, ((hf a).keeps h').trans hk'⟩

theorem map {x : Action α} {f : α → β} (hx : x.TakesTurn n) :
    (x >>= fun a => Pure.pure (f a)).TakesTurn n := hx.bind_passive fun _ => .pure

theorem attempt {x : Action α} (hx : x.TakesTurn n) : (Action.attempt x).TakesTurn n := by
  constructor
  intro m es r m' next hk h
  obtain ⟨r₁, _, h⟩ := path_attempt.mp h
  exact hx.turn hk h

theorem ite {c : Prop} [Decidable c] {x y : Action α} (hx : c → x.TakesTurn n)
    (hy : ¬c → y.TakesTurn n) : (if c then x else y).TakesTurn n := by
  by_cases h : c
  · rw [if_pos h]
    exact hx h
  · rw [if_neg h]
    exact hy h

end TakesTurn
end Action

/-! ## Sends -/

namespace NodeManager

variable {n : NodeManager} {m m' : Memory} {es : List Exchange} {next : Option Int}

theorem countIn_of_error {reply : Except Failure Value} {failure : Failure}
    (h : n.replyNonce reply = .error failure) : n.countIn reply = none := by
  rw [countIn, h]

theorem countIn_of_ok {reply : Except Failure Value} {nonce : Value}
    (h : n.replyNonce reply = .ok nonce) : n.countIn reply = nonce.integer? := by
  rw [countIn, h]

theorem nonceEvents_read (reply : Except Failure Value) :
    n.nonceEvents [.asked n.nonceQuestion reply] = [.read (n.countIn reply)] := rfl

/-- How a nonce comes to be given out, by the count that is read or the nonce that is known. -/
inductive GivesOut (n : NodeManager) (next : Option Int) (es : List Exchange) (m' : Memory) :
    Except Failure Value → Prop where
  | unanswered {failure : Failure} (unknown : next = none)
      (events : n.nonceEvents es = [.read none]) (knows : m'.Knows none) :
      GivesOut n next es m' (.error failure)
  | read {nonce : Value} {i : Int} (unknown : next = none)
      (events : n.nonceEvents es = [.read (some i)]) (nonce_eq : nonce.integer? = some i)
      (knows : m'.Knows (some (i + 1))) : GivesOut n next es m' (.ok nonce)
  | known {nonce : Value} {i : Int} (known : next = some i) (events : n.nonceEvents es = [])
      (nonce_eq : nonce.integer? = some i) (knows : m'.Knows (some (i + 1))) :
      GivesOut n next es m' (.ok nonce)

theorem nonce_givesOut {r : Except Failure Value} (hn : n.settings.manualNonce = true)
    (hk : m.Knows next) (h : n.nonce.Path m es r m') : GivesOut n next es m' r := by
  have hnext : m.nextNonce.isNull = true → next = none := by
    intro hnull
    cases next with
    | none => rfl
    | some i =>
      rw [hk] at hnull
      cases hnull
  obtain ⟨failure, hc, rfl⟩ | ⟨nonce, m₁, hc, hs⟩ := (nonce_path hn).mp h
  · obtain ⟨hnull, reply, rfl, hr⟩ | ⟨_, _, heq, _⟩ := countedNonce_path.mp hc
    · obtain ⟨_, hf, _, rfl⟩ | ⟨_, _, heq, _⟩ := hr
      · obtain rfl := hnext hnull
        refine .unanswered rfl ?_ hk
        rw [nonceEvents_read, countIn_of_error hf]
      · cases heq
    · cases heq
  obtain ⟨hnull, reply, rfl, hr⟩ | ⟨hnull, rfl, heq, rfl⟩ := countedNonce_path.mp hc
  · obtain ⟨_, _, heq, _⟩ | ⟨_, hg, heq, rfl⟩ := hr
    · cases heq
    cases heq
    have hevents := nonceEvents_read (n := n) reply
    rw [countIn_of_ok hg] at hevents
    obtain rfl | ⟨i, hi⟩ := replyNonce_integer hg
    · obtain ⟨d, _, rfl, rfl⟩ | ⟨_, hsucc, _⟩ := hs
      · exact .unanswered (hnext hnull) hevents rfl
      · cases hsucc
    · rw [hi] at hevents
      obtain ⟨rfl, rfl⟩ := remembered_of_integer hi hs
      exact .read (hnext hnull) hevents hi rfl
  · cases heq
    cases next with
    | none =>
      rw [hk] at hnull
      cases hnull
    | some i =>
      have hi : m₁.nextNonce.integer? = some i := by
        rw [hk]
        rfl
      obtain ⟨rfl, rfl⟩ := remembered_of_integer hi hs
      exact .known rfl rfl hi rfl

theorem GivesOut.turn {nonce : Value} (h : GivesOut n next es m' (.ok nonce)) :
    ∃ i, nonce.integer? = some i ∧ m'.Knows (some (i + 1)) ∧
      ∀ {uses next'}, NonceUse i uses next' → Turn next (n.nonceEvents es ++ uses) next' := by
  cases h with
  | @read _ i unknown events hi knows =>
    refine ⟨i, hi, knows, ?_⟩
    intro uses next' hu
    rw [unknown, events]
    exact .read hu
  | @known _ i known events hi knows =>
    refine ⟨i, hi, knows, ?_⟩
    intro uses next' hu
    rw [known, events]
    exact .known hu

theorem submitSigned_turn {transaction : Fields} (hn : n.settings.manualNonce = true)
    (ht : transaction.lookup "nonce" = none) : (n.submitSigned transaction).TakesTurn n := by
  constructor
  intro m es r m' next hk h
  have hused : ∀ {nonce : Value} {i : Int} (reply : Except Failure (List UInt8)),
      nonce.integer? = some i →
      n.nonceEvent? (.asked (.sign (transaction ++ [("nonce", nonce)])) reply) =
        some (.used (some i)) := by
    intro nonce i reply hi
    rw [nonceEvent?, Fields.get, List.lookup_append, ht, ← hi]
    rfl
  obtain ⟨failure, hf, rfl⟩ | ⟨nonce, m₁, es₁, hnonce, hs⟩ := submitSigned_path.mp h
  · cases nonce_givesOut hn hk hf with
    | unanswered unknown events knows =>
      rw [unknown, events]
      exact ⟨none, .unanswered, knows⟩
  obtain ⟨i, hi, hknows, hturn⟩ := (nonce_givesOut hn hk hnonce).turn
  obtain ⟨failure, _, rfl, rfl⟩ | ⟨raw, reply, _, rfl, rfl⟩ := hs
  · have hevents : n.nonceEvents [.asked (.sign (transaction ++ [("nonce", nonce)]))
        (.error failure)] = [.used (some i)] :=
      List.filterMap_cons_some (hused _ hi)
    rw [nonceEvents_append, hevents]
    exact ⟨some (i + 1), hturn .unsigned, hknows⟩
  · have hevents : n.nonceEvents [.asked (.sign (transaction ++ [("nonce", nonce)])) (.ok raw),
        .asked (.rpc "eth_sendRawTransaction" [.text (Hex.markedText raw)]) reply] =
          [.used (some i), .submitted (n.isRefused reply)] :=
      List.filterMap_cons_some (hused _ hi)
    rw [nonceEvents_append, hevents]
    refine ⟨_, hturn (.submitted (n.isRefused reply)), ?_⟩
    cases n.isRefused reply with
    | true => rfl
    | false => exact hknows

theorem sendFeeMarket_none {o : FeeMarketOrder} (h : (n.sendFeeMarket o).Path m es (.ok none) m') :
    n.nonceEvents es = [] ∧ m'.nextNonce = m.nextNonce := by
  obtain ⟨reply, rest, rfl, ⟨_, _, _, hr, _⟩ | ⟨fee, _, hfee⟩⟩ := sendFeeMarket_path.mp h
  · cases hr
  obtain ⟨_, _, rfl, rfl⟩ | ⟨_, sent, _, hsent⟩ := hfee
  · exact ⟨rfl, rfl⟩
  · obtain ⟨_, _, hreceipt⟩ := bind_eq_ok.mp hsent.symm
    cases hreceipt

variable (ha : n.hasAccount = true) (hn : n.settings.manualNonce = true)
include ha hn

theorem send_turn {transaction : Fields} {recipient : Value}
    (ht : transaction.lookup "nonce" = none) : (n.send transaction recipient).TakesTurn n := by
  rw [send_eq]
  constructor
  intro m es r m' next hk h
  obtain ⟨d, hd, rfl, rfl, rfl⟩ | ⟨whole, hw, h⟩ := Action.path_ofDefect_bind.mp h
  · exact ⟨next, .idle next, hk⟩
  have hwhole : whole.lookup "nonce" = none := by
    unfold addressed at hw
    by_cases hr : recipient.isNull = true
    · rw [if_pos hr] at hw
      cases hw
      exact ht
    · rw [if_neg hr] at hw
      obtain ⟨address, _, rfl⟩ := map_eq_ok.mp hw
      rw [List.lookup_append, ht]
      rfl
  have hsubmit : (n.submit whole).TakesTurn n := by
    unfold submit
    rw [if_pos ha]
    exact submitSigned_turn hn hwhole
  exact (hsubmit.bind_passive fun hash => .bind .log fun _ => n.receipt_passive hash).turn hk h

theorem sendLegacy_turn (o : LegacyOrder) : (n.sendLegacy o).TakesTurn n := by
  rw [sendLegacy_eq, if_pos ha]
  exact n.chainId_passive.bind_turn fun chain => send_turn ha hn rfl

theorem sendFeeMarket_turn (o : FeeMarketOrder) : (n.sendFeeMarket o).TakesTurn n := by
  refine (n.result_passive _ (by simp [Question.IsPassive])).bind_turn fun block => ?_
  refine Action.IsPassive.bind_turn .ofDefect fun members => .ite ?_ ?_
  · intro _
    exact Action.IsPassive.takesTurn (.bind .log fun _ => .pure)
  · intro _
    exact .map (send_turn ha hn rfl)

end NodeManager
end EvmClient
