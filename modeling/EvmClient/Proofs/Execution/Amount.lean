import EvmClient.Proofs.Gas
import EvmClient.Proofs.Input.Amount
import EvmClient.Proofs.Target

/-!
# The amount of an execution

An execution checks its amount before anything else. A value that is refused is asked about nowhere.
A value that passes is the same whole number in all that is asked: in orders and in fields to be
signed as a number, in requests to a node in hexadecimal form. A computed gas limit sees no other
requests than those for an amount.
-/

set_option autoImplicit false

namespace EvmClient

/-- Where the question names an amount, it is this one. -/
def Question.Pays (amount : Int) : Question → Prop
  | call request _ => request.value = .int amount
  | legacy order => order.value = .int amount
  | feeMarket order => order.value = .int amount
  | estimate parameters => parameters.lookup "value" = some (.int amount)
  | sign transaction => transaction.lookup "value" = some (.int amount)
  | rpc method params => ∀ fields, nodeFields? method params = some fields →
      fields.lookup "value" = some (.text (Hex.quantity amount))
  | _ => True

variable {amount : Int}

theorem Question.pays_rpc {method : String} {params : List Value} (h : method ≠ "eth_call")
    (h' : method ≠ "eth_sendTransaction") : (rpc method params).Pays amount := by
  intro fields hfields
  rw [nodeFields?_eq_none h h'] at hfields
  cases hfields

namespace NodeManager

variable {n : NodeManager} {recipient : Value} {base whole : Fields} {q : Question}

theorem Sends.pays (hv : whole.lookup "value" = some (.int amount)) (hq : n.Sends whole q) :
    q.Pays amount := by
  cases hq with
  | count | raw _ _ => exact Question.pays_rpc (by decide) (by decide)
  | wait hash => trivial
  | sign nonce =>
    change (whole ++ [("nonce", nonce)]).lookup "value" = _
    rw [List.lookup_append, hv]
    rfl
  | unsigned =>
    intro fields hfields
    cases hfields
    rw [List.lookup_cons, lookup_nodeForm, hv]
    rfl

theorem lookup_addressed {name : String} {v : Value} (h : addressed base recipient = .ok whole)
    (hv : base.lookup name = some v) : whole.lookup name = some v := by
  unfold addressed at h
  by_cases hnull : recipient.isNull = true
  · rw [if_pos hnull] at h
    cases h
    exact hv
  · rw [if_neg hnull] at h
    obtain ⟨address, _, rfl⟩ := map_eq_ok.mp h
    rw [List.lookup_append, hv]
    rfl

theorem send_pays (hv : base.lookup "value" = some (.int amount)) :
    (n.send base recipient).Asks (Question.Pays amount) :=
  n.send_asks_of fun _ _ hw hq => hq.pays (lookup_addressed hw hv)

theorem sendLegacy_pays {o : LegacyOrder} (hv : o.value = .int amount) :
    (n.sendLegacy o).Asks (Question.Pays amount) := by
  rw [sendLegacy_eq]
  have hfields : (legacyFields o).lookup "value" = some (.int amount) := by
    rw [← hv]
    rfl
  refine .ite (fun _ => ?_) fun _ => send_pays hfields
  refine .bind (n.chainId_asks.mono fun _ hq => hq ▸ Question.pays_rpc (by decide) (by decide))
    fun chain => send_pays ?_
  rw [List.lookup_append, hfields]
  rfl

theorem sendFeeMarket_pays {o : FeeMarketOrder} (hv : o.value = .int amount) :
    (n.sendFeeMarket o).Asks (Question.Pays amount) := by
  have hfields : (feeMarketFields o).lookup "value" = some (.int amount) := by
    rw [← hv]
    rfl
  refine .bind ((n.result_asks _ _).mono fun _ hq => hq ▸ Question.pays_rpc (by decide) (by decide))
    fun block => .bind .ofDefect fun members => ?_
  exact .ite (fun _ => .bind .log fun _ => .pure) fun _ => .map (send_pays hfields)

end NodeManager

theorem Calls.pays {request : TransactionRequest} {q : Question} (hv : request.value = .int amount)
    (h : Calls request q) : q.Pays amount := by
  cases h with
  | inMemory block => exact hv
  | node h block =>
    intro fields hfields
    cases hfields
    obtain ⟨value, hvalue, heq⟩ := bind_eq_ok.mp h
    cases heq
    rw [hv] at hvalue
    cases hvalue
    rfl

namespace Execution

variable {manager : Manager} {request : TransactionRequest}

theorem sendLegacy_pays {o : LegacyOrder} (hv : o.value = .int amount) :
    (manager.sendLegacy o).Asks (Question.Pays amount) := by
  cases manager with
  | inMemory sender => exact .ask hv
  | node n => exact .map (NodeManager.sendLegacy_pays hv)

theorem sendFeeMarket_pays {o : FeeMarketOrder} (hv : o.value = .int amount) :
    (manager.sendFeeMarket o).Asks (Question.Pays amount) := by
  cases manager with
  | inMemory sender => exact .ask hv
  | node n => exact NodeManager.sendFeeMarket_pays hv

theorem submit_pays (hv : request.value = .int amount) (s : GasStrategy) (limit : Int)
    (function : String) (isCreation : Bool) :
    (submit manager s request limit function isCreation).Asks (Question.Pays amount) := by
  have hlegacy : (manager.sendLegacy (legacyOrder s request limit isCreation)).Asks
      (Question.Pays amount) := sendLegacy_pays hv
  cases s with
  | legacy s => exact .bind .log fun _ => hlegacy
  | feeMarket s =>
    refine .bind .log fun _ => .bind (sendFeeMarket_pays hv) fun receipt => ?_
    cases receipt with
    | none => exact .bind .log fun _ => hlegacy
    | some receipt => exact .pure

theorem gasLimit_pays (hv : request.value = .int amount) (strategy : Option GasStrategy)
    (function : String) : (gasLimit strategy request function).Asks (Question.Pays amount) := by
  refine (gasLimit_asks strategy request function).mono ?_
  rintro _ rfl
  change some request.value = _
  rw [hv]

theorem run_pays (x : Execution) (data : Value) {value : Value} (function : String)
    (isCreation : Bool) (ha : Input.amount value "value" = .ok amount) :
    (x.run data value function isCreation).Asks (Question.Pays amount) := by
  refine .ofOutcome_bind fun checked hchecked => ?_
  cases ha.symm.trans hchecked
  refine .bind (gasLimit_pays rfl _ _) fun known => ?_
  refine .bind (.attempt (submit_pays rfl _ _ _ _)) fun reply => ?_
  rcases reply with failure | _ | receipt
  · exact .pass
  · exact .ofDefect
  · exact (settle_asks _ _ _ _).mono fun _ hq => hq.pays rfl

/-! ## Computed limits -/

def withLimit (limit : GasLimit) : GasStrategy → GasStrategy
  | .legacy s => .legacy { s with limit := limit }
  | .feeMarket s => .feeMarket { s with limit := limit }

theorem gasLimit_computed (f : TransactionRequest → Outcome Value) (s : GasStrategy)
    (function : String) :
    gasLimit (some (withLimit (.computed f) s)) request function =
      Action.ofOutcome (limitResult (withLimit (.computed f) s) function
        (f request >>= fun given => Outcome.ofDefect given.wholeNumber)) := by
  have hresolve : (withLimit (.computed f) s).gasLimit (some request) =
      Action.ofOutcome (f request >>= fun given => Outcome.ofDefect given.wholeNumber) := by
    cases s <;> exact GasLimit.resolve_computed
  unfold gasLimit
  simp only [hresolve]
  rcases f request >>= fun given => Outcome.ofDefect given.wholeNumber with (_ | _ | _) | _ <;> rfl

theorem submit_withLimit (manager : Manager) (limit limit' : GasLimit) (s : GasStrategy)
    (request : TransactionRequest) (gas : Int) (function : String) (isCreation : Bool) :
    submit manager (withLimit limit s) request gas function isCreation =
      submit manager (withLimit limit' s) request gas function isCreation := by
  cases s <;> rfl

theorem run_withLimit_congr {f g : TransactionRequest → Outcome Value}
    (hfg : ∀ request n, request.value = .int n → 0 ≤ n → n ≤ Input.maxAmount →
      f request = g request)
    (manager : Manager) (address : Value) (s : GasStrategy) (data value : Value)
    (function : String) (isCreation : Bool) :
    run ⟨manager, address, some (withLimit (.computed f) s)⟩ data value function isCreation =
      run ⟨manager, address, some (withLimit (.computed g) s)⟩ data value function isCreation := by
  cases ha : Input.amount value "value" with
  | error failure =>
    unfold run
    rw [ha]
    rfl
  | ok n =>
    have hn := Input.isAmount_of_amount ha
    let r := request ⟨manager, address, some s⟩ data (.int n) isCreation
    have hr : f r = g r := hfg r n rfl hn.nonneg hn.le
    unfold run
    rw [ha]
    change gasLimit (some (withLimit (.computed f) s)) r function >>= _ =
      gasLimit (some (withLimit (.computed g) s)) r function >>= _
    rw [gasLimit_computed, gasLimit_computed, hr]
    cases g r >>= fun given => Outcome.ofDefect given.wholeNumber with
    | error failure => rfl
    | ok limit =>
      -- What follows the submission is the same for both limits.
      change (submit manager _ r limit function isCreation).attempt >>= _ =
        (submit manager _ r limit function isCreation).attempt >>= _
      rw [submit_withLimit manager (.computed f) (.computed g)]
      rfl

/-! ## From the check to the last question -/

/-- A value is accepted exactly if it stands for a whole number up to the maximum, and refused with
an error about the field exactly if that error can be written. In an execution the accepted number
is the amount of all that is asked and of all that a computed limit sees, and a refused value is
asked about nowhere. -/
theorem amount_checked_throughout (v : Value) :
    (∀ field maximum,
      (∀ n, Input.amount v field (.int maximum) = .ok n ↔ Input.IsAmount maximum v n) ∧
      (Input.RefusesAmount field (Input.amount v field (.int maximum)) ↔
        (¬∃ n, Input.IsAmount maximum v n) ∧ Input.CanRefuse maximum v) ∧
      (Input.amount v field (.int maximum) = .error (Failure.ofDefect .malformedValue) ↔
        (¬∃ n, Input.IsAmount maximum v n) ∧ ¬Input.CanRefuse maximum v)) ∧
    (∀ (x : Execution) data function isCreation m es r m',
      (x.run data v function isCreation).Path m es r m' →
      (∃ n, Input.IsAmount Input.maxAmount v n ∧ ∀ q reply, .asked q reply ∈ es → q.Pays n) ∨
      (¬∃ n, Input.IsAmount Input.maxAmount v n) ∧ es = [] ∧
        ((v.IsDecoded ∧ Input.RefusesAmount "value" r) ∨
          (¬v.IsDecoded ∧ r = .error (Failure.ofDefect .malformedValue)))) ∧
    ∀ f g : TransactionRequest → Outcome Value,
      (∀ request n, request.value = .int n → 0 ≤ n → n ≤ Input.maxAmount →
        f request = g request) →
      ∀ manager address s data function isCreation,
        run ⟨manager, address, some (withLimit (.computed f) s)⟩ data v function isCreation =
          run ⟨manager, address, some (withLimit (.computed g) s)⟩ data v function isCreation := by
  refine ⟨fun field maximum => ?_, ?_, ?_⟩
  · exact ⟨fun n => Input.amount_eq_ok, Input.refusesAmount_iff, Input.amount_escapes_iff⟩
  · intro x data function isCreation m es r m' h
    obtain ⟨n, hn, ha⟩ | ⟨hnone, hrefused⟩ := Input.amount_cases v "value" Input.maxAmount
    · exact .inl ⟨n, hn, (run_pays x data function isCreation ha).path h⟩
    · rw [Input.canRefuse_maxAmount] at hrefused
      obtain ⟨hv, shown, reason, ha⟩ | ⟨hv, ha⟩ := hrefused
      · obtain ⟨rfl, rfl⟩ := run_of_refused ha h
        exact .inr ⟨hnone, rfl, .inl ⟨hv, shown, reason, rfl⟩⟩
      · obtain ⟨rfl, rfl⟩ := run_of_refused ha h
        exact .inr ⟨hnone, rfl, .inr ⟨hv, rfl⟩⟩
  · intro f g hfg manager address s data function isCreation
    exact run_withLimit_congr hfg manager address s data v function isCreation

/-- The least number that is too long to be shown is refused without an error about it. -/
theorem countless_amount_escapes :
    Input.amount (.int (Nat.pow 10 Number.digitLimit)) =
        .error (Failure.ofDefect .malformedValue) ∧
      ¬Input.RefusesAmount "value" (Input.amount (.int (Nat.pow 10 Number.digitLimit))) ∧
      (run ⟨.inMemory .null, .null, none⟩ (.text "0x") (.int (Nat.pow 10 Number.digitLimit)) "pay"
        false).Path {} [] (.error (Failure.ofDefect .malformedValue)) {} := by
  have hlarge : Input.maxAmount < (Nat.pow 10 Number.digitLimit : Int) := by decide +kernel
  have hlong : ¬(Value.int (Nat.pow 10 Number.digitLimit)).IsDecoded := Value.not_isDecoded_limit
  have ha : Input.amount (.int (Nat.pow 10 Number.digitLimit)) =
      .error (Failure.ofDefect .malformedValue) := by
    obtain ⟨n, hn, _⟩ | ⟨_, ⟨hcan, _⟩ | ⟨_, ha⟩⟩ :=
      Input.amount_cases (.int (Nat.pow 10 Number.digitLimit)) "value" Input.maxAmount
    · obtain rfl := hn.denotes.unique (.number _)
      exact absurd hlarge (Int.not_lt.mpr hn.le)
    · exact absurd hcan.1 hlong
    · exact ha
  refine ⟨ha, ?_, ?_⟩
  · rw [ha]
    rintro ⟨_, _, heq⟩
    cases heq
  · unfold run
    rw [ha]
    exact Action.path_ofOutcome_bind.mpr (.inl ⟨_, rfl, rfl, rfl, rfl⟩)

end Execution
end EvmClient
