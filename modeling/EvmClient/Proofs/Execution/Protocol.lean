import EvmClient.Proofs.Execution.Phases
import EvmClient.Script

/-!
# What an execution asks of a manager

A manager in memory stands for any manager there can be. The calls that one execution makes to it
follow a small grammar, whatever it replies: one submission, a second one at a fixed price only if
the first, on the fee market, gave no receipt, and one read call only if the transaction was
included and failed. All of them are about the one request that the execution built.
-/

set_option autoImplicit false

namespace EvmClient

def Exchange.isManagerCall : Exchange → Bool
  | .asked (.call ..) _ | .asked (.code ..) _ => true
  | .asked (.legacy _) _ | .asked (.feeMarket _) _ => true
  | _ => false

def Exchange.isEstimate : Exchange → Bool
  | .asked (.estimate _) _ => true
  | _ => false

def managerCalls (es : List Exchange) : List Exchange := es.filter Exchange.isManagerCall

def estimates (es : List Exchange) : List Exchange := es.filter Exchange.isEstimate

theorem managerCalls_append (es es' : List Exchange) :
    managerCalls (es ++ es') = managerCalls es ++ managerCalls es' := List.filter_append es es'

theorem estimates_append (es es' : List Exchange) :
    estimates (es ++ es') = estimates es ++ estimates es' := List.filter_append es es'

theorem managerCalls_of_told {es : List Exchange} (h : ∀ e ∈ es, ∃ n, e = .told n) :
    managerCalls es = [] := by
  refine List.filter_eq_nil_iff.mpr fun e he => ?_
  obtain ⟨n, rfl⟩ := h e he
  exact Bool.false_ne_true

namespace Execution

/-- What is called after a submission: the request is made again, as a read call at the block of the
receipt, exactly if the receipt tells of a failure. -/
inductive Settles (request : TransactionRequest) :
    Except Failure (Option Receipt) → List Exchange → Prop where
  | over {reply : Except Failure (Option Receipt)}
      (h : ∀ receipt, reply = .ok (some receipt) → ¬IsMinedFailure receipt) :
      Settles request reply []
  | replayed {receipt : Receipt} {answer : Except Failure CallResponse}
      (h : IsMinedFailure receipt) :
      Settles request (.ok (some receipt))
        [.asked (.call request (replayBlock receipt)) answer]

/-- What is called once the gas limit is known. Both submissions carry the fields of the request,
and the one at a fixed price is at the price of the strategy. -/
inductive Converses (request : TransactionRequest) (limit : Int) (isCreation : Bool) :
    GasStrategy → List Exchange → Prop where
  | legacy {s : LegacyStrategy} {reply : Except Failure (Option Receipt)} {rest : List Exchange}
      (h : Settles request reply rest) :
      Converses request limit isCreation (.legacy s)
        (.asked (.legacy {
            recipient := request.recipient, data := request.data, value := request.value
            gasPrice := s.price, gasLimit := .int limit, isCreation := isCreation }) reply ::
          rest)
  | feeMarket {s : FeeMarketStrategy} {reply : Except Failure (Option Receipt)}
      {rest : List Exchange} (applies : reply ≠ .ok none) (h : Settles request reply rest) :
      Converses request limit isCreation (.feeMarket s)
        (.asked (.feeMarket {
            chainId := s.chainId, recipient := request.recipient, data := request.data
            value := request.value, gasLimit := .int limit, maxPriorityFee := s.maxPriorityFee
            maxFee := s.maxFee, isCreation := isCreation }) reply ::
          rest)
  | fallback {s : FeeMarketStrategy} {reply : Except Failure (Option Receipt)}
      {rest : List Exchange} (h : Settles request reply rest) :
      Converses request limit isCreation (.feeMarket s)
        (.asked (.feeMarket {
            chainId := s.chainId, recipient := request.recipient, data := request.data
            value := request.value, gasLimit := .int limit, maxPriorityFee := s.maxPriorityFee
            maxFee := s.maxFee, isCreation := isCreation }) (.ok none) ::
          .asked (.legacy {
            recipient := request.recipient, data := request.data, value := request.value
            gasPrice := (GasStrategy.feeMarket s).gasPrice, gasLimit := .int limit
            isCreation := isCreation }) reply ::
          rest)

variable {sender : Value} {m m' : Memory} {es : List Exchange}

theorem gasLimit_calls_nothing {strategy : Option GasStrategy} {request : TransactionRequest}
    {function : String} {r : Except Failure (GasStrategy × Int)}
    (h : (gasLimit strategy request function).Path m es r m') :
    managerCalls es = [] ∧ (estimates es).length ≤ 1 := by
  obtain rfl | ⟨reply, rfl⟩ := gasLimit_asked h
  · exact ⟨rfl, Nat.zero_le 1⟩
  · exact ⟨rfl, Nat.le_refl 1⟩

theorem submit_converses {s : GasStrategy} {request : TransactionRequest} {limit : Int}
    {function : String} {isCreation : Bool} {reply : Except Failure (Option Receipt)}
    (h : (submit (.inMemory sender) s request limit function isCreation).Path m es reply m') :
    estimates es = [] ∧ ∀ rest, Settles request reply rest →
      Converses request limit isCreation s (managerCalls es ++ rest) := by
  cases s with
  | legacy s =>
    obtain ⟨_, rfl, hs⟩ := submit_legacy_path.mp h
    obtain ⟨rfl, _⟩ := Action.path_ask.mp hs
    refine ⟨rfl, ?_⟩
    intro rest hrest
    exact .legacy hrest
  | feeMarket s =>
    obtain ⟨_, rfl, ⟨hne, hs⟩ | ⟨m₁, es₁, es₂, rfl, hs, hl⟩⟩ := submit_feeMarket_path.mp h
    · obtain ⟨rfl, _⟩ := Action.path_ask.mp hs
      refine ⟨rfl, ?_⟩
      intro rest hrest
      exact .feeMarket hne hrest
    · obtain ⟨rfl, _⟩ := Action.path_ask.mp hs
      obtain ⟨rfl, _⟩ := Action.path_ask.mp hl
      refine ⟨rfl, ?_⟩
      intro rest hrest
      exact .fallback hrest

theorem settle_settles {request : TransactionRequest} {receipt : Receipt} {function : String}
    {r : Except Failure Receipt}
    (h : (settle (.inMemory sender) request receipt function).Path m es r m') :
    estimates es = [] ∧ Settles request (.ok (some receipt)) (managerCalls es) := by
  by_cases hf : receipt.isFailed = true
  · have hreplay : ∀ {es r}, (replay (.inMemory sender) request receipt).Path m es r m' →
        estimates es = [] ∧ Settles request (.ok (some receipt)) (managerCalls es) := by
      intro es r hr
      obtain ⟨rest, reply, rfl, hc, _⟩ := replay_path.mp hr
      obtain ⟨rfl, _⟩ := Action.path_ask.mp hc
      exact ⟨rfl, .replayed (isFailed_iff.mp hf)⟩
    obtain ⟨failure, hr, _⟩ | ⟨outcome, rest, hr, rfl, _⟩ := (settle_path_of_failed hf).mp h
    · exact hreplay hr
    · rw [estimates_append, managerCalls_append]
      obtain ⟨he, hs⟩ := hreplay hr
      rw [he]
      exact ⟨rfl, (List.append_nil (managerCalls rest)).symm ▸ hs⟩
  · obtain ⟨rfl, _⟩ := (settle_path_of_not_failed (Bool.not_eq_true _ ▸ hf)).mp h
    refine ⟨rfl, .over ?_⟩
    intro given hg hfail
    cases hg
    exact hf (isFailed_iff.mpr hfail)

/-- The limit of the request is had on the steps before, and nothing is called on these. On the steps
after it, nothing is estimated. -/
structure TakesLimit (request : TransactionRequest) (limit : GasLimit) (given : Int)
    (before after : List Exchange) : Prop where
  evaluates : GasLimit.Evaluates request limit before (.ok given)
  calls : managerCalls before = []
  once : (estimates before).length ≤ 1
  later : estimates after = []

section

variable {x : Execution} {data value : Value} {function : String} {isCreation : Bool}
variable {amount : Int} (hx : x.manager = .inMemory sender)
variable (ha : Input.amount value "value" = .ok amount)
include hx ha

theorem submission_converses {r : Except Failure (TransactionRequest × Receipt)}
    (h : (x.submission data value function isCreation).Path m es r m') :
    (∃ failure, r = .error failure ∧
      (gasLimit x.strategy (x.request data (.int amount) isCreation) function).Path
        m es (.error failure) m') ∨
    ∃ s limit before after reply, x.strategy = some s ∧ es = before ++ after ∧
      TakesLimit (x.request data (.int amount) isCreation) s.limit limit before after ∧
      r = submissionResult (x.request data (.int amount) isCreation) reply ∧
      ∀ rest, Settles (x.request data (.int amount) isCreation) reply rest →
        Converses (x.request data (.int amount) isCreation) limit isCreation s
          (managerCalls after ++ rest) := by
  obtain ⟨failure, herr, _⟩ | ⟨amount', ha', hl⟩ := submission_path.mp h
  · rw [ha] at herr
    cases herr
  obtain rfl : amount = amount' := Except.ok.inj (ha.symm.trans ha')
  obtain ⟨failure, hg, rfl⟩ | ⟨s, limit, m₁, es₁, es₂, reply, rfl, hg, hs, rfl⟩ := hl
  · exact .inl ⟨failure, rfl, hg⟩
  · obtain ⟨hstrategy, hlimit, _⟩ := gasLimit_ok hg
    obtain ⟨hcalls, hestimates⟩ := gasLimit_calls_nothing hg
    rw [hx] at hs
    obtain ⟨hlater, hconv⟩ := submit_converses hs
    exact .inr ⟨s, limit, es₁, es₂, reply, hstrategy, rfl, ⟨hlimit, hcalls, hestimates, hlater⟩,
      rfl, hconv⟩

theorem run_follows {r : Except Failure Receipt}
    (h : (x.run data value function isCreation).Path m es r m') :
    (∃ failure, r = .error failure ∧
      (gasLimit x.strategy (x.request data (.int amount) isCreation) function).Path
        m es (.error failure) m') ∨
    ∃ s limit before after, x.strategy = some s ∧ es = before ++ after ∧
      TakesLimit (x.request data (.int amount) isCreation) s.limit limit before after ∧
      Converses (x.request data (.int amount) isCreation) limit isCreation s
        (managerCalls after) := by
  obtain ⟨failure, hs, rfl⟩ | ⟨request, receipt, m₁, es₁, es₂, rfl, hs, hsettle⟩ := run_path.mp h
  · obtain ⟨_, heq, hg⟩ | ⟨s, limit, before, after, reply, hstrategy, rfl, hl, hr, hconv⟩ :=
      submission_converses hx ha hs
    · cases heq
      exact .inl ⟨failure, rfl, hg⟩
    · -- a submission that fails leaves no receipt to settle
      have hover : Settles (x.request data (.int amount) isCreation) reply [] := by
        refine .over ?_
        intro receipt hreply
        rw [hreply] at hr
        cases hr
      have hcalls := hconv [] hover
      rw [List.append_nil] at hcalls
      exact .inr ⟨s, limit, before, after, hstrategy, rfl, hl, hcalls⟩
  · obtain ⟨_, heq, _⟩ | ⟨s, limit, before, after, reply, hstrategy, rfl, hl, hr, hconv⟩ :=
      submission_converses hx ha hs
    · cases heq
    obtain ⟨rfl, rfl⟩ := submissionResult_eq_ok hr.symm
    rw [hx] at hsettle
    obtain ⟨hestimates, hset⟩ := settle_settles hsettle
    have hlater : estimates (after ++ es₂) = [] := by
      rw [estimates_append, hl.later, hestimates]
      rfl
    have hcalls := hconv _ hset
    rw [← managerCalls_append] at hcalls
    exact .inr ⟨s, limit, before, after ++ es₂, hstrategy, List.append_assoc _ _ _,
      { hl with later := hlater }, hcalls⟩

theorem run_of_constant {s : GasStrategy} {v : Value} {limit : Int} {r : Except Failure Receipt}
    (hs : x.strategy = some s) (hl : s.limit = .constant v) (hv : v.wholeNumber = .ok limit)
    (h : (x.run data value function isCreation).Path m es r m') :
    Converses (x.request data (.int amount) isCreation) limit isCreation s (managerCalls es) := by
  obtain ⟨failure, _, hg⟩ | ⟨s', limit', before, after, heq, rfl, hlimit, hconv⟩ :=
    run_follows hx ha h
  · rw [hs] at hg
    obtain ⟨cause, hlimit, _, heq⟩ := gasLimit_path.mp hg
    rw [hl] at hlimit
    cases hlimit
    rw [hv] at heq
    cases heq
  · obtain rfl := Option.some.inj (hs.symm.trans heq)
    obtain ⟨rfl, rfl⟩ := hlimit.evaluates.of_constant hl hv
    exact hconv

end

/-- One execution over any manager calls nothing, if there is no amount or no gas limit, or it
follows the grammar after it has taken the gas limit once: a constant, the function of the request,
or what an estimate for the request comes to. -/
theorem run_converses (sender address data value : Value) (strategy : Option GasStrategy)
    (function : String) (isCreation : Bool) (m m' : Memory) (es : List Exchange)
    (r : Except Failure Receipt)
    (h : (run ⟨.inMemory sender, address, strategy⟩ data value function isCreation).Path
      m es r m') :
    (∃ failure, Input.amount value "value" = .error failure ∧ es = [] ∧ r = .error failure) ∨
    ∃ amount request, Input.amount value "value" = .ok amount ∧
      request = ({
        sender := sender, recipient := if isCreation then .null else address.orElse .null
        data := data, value := .int amount } : TransactionRequest) ∧
      (estimates es).length ≤ 1 ∧
      ((managerCalls es = [] ∧ ∃ failure, r = .error failure ∧
          (gasLimit strategy request function).Path m es (.error failure) m') ∨
        ∃ s limit before after, strategy = some s ∧ es = before ++ after ∧
          GasLimit.Evaluates request s.limit before (.ok limit) ∧
          managerCalls before = [] ∧ estimates after = [] ∧
          Converses request limit isCreation s (managerCalls after)) := by
  cases ha : Input.amount value "value" with
  | error failure => exact .inl ⟨failure, rfl, run_of_refused ha h⟩
  | ok amount =>
    refine .inr ⟨amount, _, rfl, rfl, ?_⟩
    obtain ⟨failure, hr, hg⟩ | ⟨s, limit, before, after, hs, rfl, hl, hconv⟩ :=
      run_follows rfl ha h
    · obtain ⟨hcalls, hone⟩ := gasLimit_calls_nothing hg
      exact ⟨hone, .inl ⟨hcalls, failure, hr, hg⟩⟩
    · refine ⟨?_, .inr ⟨s, limit, before, after, hs, rfl, hl.evaluates, hl.calls, hl.later,
        hconv⟩⟩
      rw [estimates_append, hl.later, List.append_nil]
      exact hl.once

def pricedStrategy : GasStrategy :=
  .feeMarket ⟨.int 1, .int 2, .int 30, .constant (.int 21000), .int 7⟩

def failingManager : Script where
  feeMarket := [.ok none]
  legacy := [.ok (some { status := .int 0, blockNumber := .int 12 })]

def fallbackRequest : TransactionRequest where
  sender := .text "0x01"
  recipient := .text "0x02"
  data := .text "0x"
  value := .int 0

theorem fallback_converses :
    ∃ es r m', (run ⟨.inMemory (.text "0x01"), .text "0x02", pricedStrategy⟩ (.text "0x") (.int 0)
        "f" false).Path {} es r m' ∧
      (managerCalls es).length = 3 ∧
      Converses fallbackRequest 21000 false pricedStrategy (managerCalls es) := by
  have h := Program.path_history Script.answer
    (run ⟨.inMemory (.text "0x01"), .text "0x02", pricedStrategy⟩ (.text "0x") (.int 0) "f"
      false {}) failingManager
  have hlength : (managerCalls (Program.history Script.answer
    (run ⟨.inMemory (.text "0x01"), .text "0x02", pricedStrategy⟩ (.text "0x") (.int 0) "f"
      false {}) failingManager)).length = 3 := rfl
  refine ⟨_, _, _, h, hlength, ?_⟩
  obtain ⟨failure, ha, _⟩ | ⟨amount, request, ha, rfl, _, ⟨hnone, _⟩ |
      ⟨s, limit, before, after, hs, hes, hlimit, hbefore, _, hc⟩⟩ :=
    run_converses _ _ _ _ _ _ _ _ _ _ _ h
  · cases ha
  · rw [hnone] at hlength
    cases hlength
  · cases ha
    cases hs
    obtain ⟨_, rfl⟩ := hlimit.of_constant rfl rfl
    rw [hes, managerCalls_append, hbefore]
    exact hc

end Execution
end EvmClient
