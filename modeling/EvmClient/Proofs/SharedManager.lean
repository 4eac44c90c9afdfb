import EvmClient.Proofs.Deployment
import EvmClient.Proofs.Node.Turn

/-!
# One manager, many handles

Handles, deployments and executions may share a manager, which counts nonces for all of them. Each
thing that is done with it takes one turn at most. So in whatever order they come and whatever
fails, signed transactions have nonces in a row, and the count is read again only after a refusal.
-/

set_option autoImplicit false

namespace EvmClient

variable {n : NodeManager}

/-! ## What takes a turn -/

section

variable (ha : n.hasAccount = true) (hn : n.settings.manualNonce = true)
include ha hn

namespace Execution

theorem submit_turn (s : GasStrategy) (r : TransactionRequest) (limit : Int) (function : String)
    (isCreation : Bool) : (submit (.node n) s r limit function isCreation).TakesTurn n := by
  have hlegacy : ((Manager.node n).sendLegacy (legacyOrder s r limit isCreation)).TakesTurn n :=
    .map (NodeManager.sendLegacy_turn ha hn _)
  cases s with
  | legacy s => exact Action.IsPassive.log.bind_turn fun _ => hlegacy
  | feeMarket s =>
    constructor
    intro m es result m' next hk h
    obtain ⟨rest, rfl, ⟨_, hs⟩ | ⟨m₁, es₁, es₂, rfl, hs, hl⟩⟩ := submit_feeMarket_path.mp h
    · rw [NodeManager.nonceEvents_told]
      exact (NodeManager.sendFeeMarket_turn ha hn _).turn hk hs
    · obtain ⟨hevents, hmemory⟩ := NodeManager.sendFeeMarket_none hs
      rw [NodeManager.nonceEvents_told, NodeManager.nonceEvents_append, hevents, List.nil_append,
        NodeManager.nonceEvents_told]
      exact hlegacy.turn (hmemory.trans hk) hl

theorem run_turn {x : Execution} (hx : x.manager = .node n) (data value : Value)
    (function : String) (isCreation : Bool) :
    (x.run data value function isCreation).TakesTurn n := by
  refine Action.IsPassive.ofOutcome.bind_turn fun amount => ?_
  refine (gasLimit_passive _ _ _).bind_turn fun known => ?_
  rw [hx]
  refine (submit_turn ha hn _ _ _ _ _).attempt.bind_passive fun reply => ?_
  rcases reply with failure | _ | receipt
  · exact .pass
  · exact .ofDefect
  · exact settle_passive _ _ _ _

end Execution

theorem Contract.perform_turn {c : Contract} (hc : c.manager = .node n) (op : Operation) :
    (c.perform op).TakesTurn n := by
  cases h : op.isTransaction with
  | false => exact (c.perform_passive h).takesTurn
  | true =>
    rcases op with ⟨f, _ | _ | _ | _ | value⟩ | _ <;> cases h
    have htransact : (c.transact f value).TakesTurn n :=
      Action.IsPassive.ofOutcome.bind_turn fun data =>
        Execution.run_turn ha hn (x := c.execution) hc (.text data) value f.name false
    exact htransact.map.map

theorem Deployment.run_turn {d : Deployment} (hd : d.manager = .node n) : d.run.TakesTurn n := by
  constructor
  intro m es r m' next hk h
  obtain ⟨_, hh, _⟩ | ⟨c, m₁, es₁, es₂, rfl, hh, h⟩ := Action.path_bind.mp h
  · exact d.handle_passive.takesTurn.turn hk hh
  rw [NodeManager.nonceEvents_append, NodeManager.nonceEvents_passive d.handle_passive hh,
    List.nil_append]
  obtain ⟨_, heq, rfl⟩ := Deployment.handle_path.mp hh
  cases heq
  have hrest : ∀ data, (d.fresh.execution.run data d.value functionName true).TakesTurn n :=
    fun data => Execution.run_turn ha hn (x := d.fresh.execution) hd data d.value functionName true
  refine (Action.IsPassive.ofOutcome.bind_turn fun data => (hrest data).bind_passive
    fun receipt => ?_).turn hk h
  exact .bind .ofOutcome fun _ => .bind .log fun _ => .pure

end

/-! ## Histories -/

namespace NodeManager

variable {α : Type} {es es' : List Exchange} {m m' : Memory}

/-- What can be done with a manager: its own sends and reads, and all work of the handles,
deployments and executions that share it. -/
inductive Uses (n : NodeManager) : {α : Type} → Action α → Prop where
  | legacy (o : LegacyOrder) : Uses n (n.sendLegacy o)
  | feeMarket (o : FeeMarketOrder) : Uses n (n.sendFeeMarket o)
  | call (request : TransactionRequest) (block : Value) : Uses n (n.call request block)
  | code (address block : Value) : Uses n (n.code address block)
  | execution {x : Execution} (shared : x.manager = .node n) (data value : Value)
      (function : String) (isCreation : Bool) : Uses n (x.run data value function isCreation)
  | handle {c : Contract} (shared : c.manager = .node n) (op : Operation) : Uses n (c.perform op)
  | deployment {d : Deployment} (shared : d.manager = .node n) : Uses n d.run

/-- One use after another, from a fresh memory: the history and the memory left. -/
inductive History (n : NodeManager) : List Exchange → Memory → Prop where
  | fresh : History n [] {}
  | use {α : Type} {x : Action α} {es es' : List Exchange} {m m' : Memory}
      {r : Except Failure α} (before : History n es m) (hx : n.Uses x)
      (h : x.Path m es' r m') : History n (es ++ es') m'

variable (ha : n.hasAccount = true) (hn : n.settings.manualNonce = true)
include ha hn

theorem Uses.takesTurn {x : Action α} (hx : n.Uses x) : x.TakesTurn n := by
  cases hx with
  | legacy o => exact sendLegacy_turn ha hn o
  | feeMarket o => exact sendFeeMarket_turn ha hn o
  | call request block => exact (n.call_passive request block).takesTurn
  | code address block => exact (n.code_passive address block).takesTurn
  | execution shared data value function isCreation =>
    exact Execution.run_turn ha hn shared data value function isCreation
  | handle shared op => exact Contract.perform_turn ha hn shared op
  | deployment shared => exact Deployment.run_turn ha hn shared

theorem History.followsCount (h : n.History es m) :
    FollowsCount none (n.nonceEvents es) ∧ m.Knows (nextAfter none (n.nonceEvents es)) := by
  induction h with
  | fresh => exact ⟨trivial, rfl⟩
  | use before hx h ih =>
    obtain ⟨hfollows, hknows⟩ := ih
    obtain ⟨next', ht, hknows'⟩ := (hx.takesTurn ha hn).turn hknows h
    obtain ⟨hmore, hnext⟩ := ht.followsCount
    rw [nonceEvents_append, nextAfter_append, hnext]
    exact ⟨followsCount_append.mpr ⟨hfollows, hmore⟩, hknows'⟩

omit ha hn

/-- A use that needs a nonce reads the count exactly if a read is due. From a count that was read to
the next one, the nonces of what is signed go up by one; nothing is signed while a read is due. A
use whose transaction was not refused leaves no read due, whatever it ends with. -/
theorem nonces_in_a_row {x : Action α} {r : Except Failure α} (ha : n.hasAccount = true)
    (hn : n.settings.manualNonce = true) (before : n.History es m) (hx : n.Uses x)
    (h : x.Path m es' r m') :
    (NeedsNonce (n.nonceEvents es') →
      ((∃ count, .read count ∈ n.nonceEvents es') ↔ IsReadDue (n.nonceEvents es))) ∧
    (∀ earlier (i : Int) later,
      n.nonceEvents (es ++ es') = earlier ++ .read (some i) :: later →
      (∀ j, .read (some j) ∉ later) →
      usedNonces later =
        (List.range (usedNonces later).length).map fun (k : Nat) => some (i + k)) ∧
    (∀ earlier nonce later, n.nonceEvents (es ++ es') = earlier ++ .used nonce :: later →
      ¬IsReadDue earlier) ∧
    (.submitted false ∈ n.nonceEvents es' → ¬IsReadDue (n.nonceEvents (es ++ es'))) := by
  obtain ⟨hfollows, hknows⟩ := before.followsCount ha hn
  obtain ⟨next', ht, _⟩ := (hx.takesTurn ha hn).turn hknows h
  obtain ⟨hmore, hnext⟩ := ht.followsCount
  have hall : FollowsCount none (n.nonceEvents (es ++ es')) := by
    rw [nonceEvents_append]
    exact followsCount_append.mpr ⟨hfollows, hmore⟩
  refine ⟨?_, ?_, ?_, ?_⟩
  · intro hneeds
    rw [ht.reads_iff hneeds, isReadDue_iff hfollows]
  · intro earlier i later heq hread
    rw [heq] at hall
    obtain ⟨_, _, hlater⟩ := followsCount_append.mp hall
    exact usedNonces_eq hlater hread
  · intro earlier nonce later heq hdue
    rw [heq] at hall
    obtain ⟨hearlier, ⟨hknown, _⟩, _⟩ := followsCount_append.mp hall
    rw [(isReadDue_iff hearlier).mp hdue] at hknown
    cases hknown
  · intro htaken hdue
    rw [isReadDue_iff hall, nonceEvents_append, nextAfter_append, hnext] at hdue
    exact ht.known_of_taken htaken hdue

def silentWait : Script := { fifthNonceNode with receipts := [.ok none] }

def countedCreation : Execution := ⟨.node countingManager, .null, some .default⟩

def sixthNext : Memory := { nextNonce := .int 6, chainId := .int 1 }

theorem nonce_follows_timeout :
    ∃ es m es' r m', countingManager.History es m ∧
      (countedCreation.run (.text "0x") (.int 0) "create" true).Path m es' r m' ∧
      usedNonces (countingManager.nonceEvents (es ++ es')) = [some 5, some 6] ∧
      ¬∃ count, .read count ∈ countingManager.nonceEvents es' := by
  have h := Program.path_history Script.answer (countingManager.sendLegacy emptyCreation {})
    silentWait
  have before : countingManager.History _ sixthNext := .use .fresh (.legacy emptyCreation) h
  have h' := Program.path_history Script.answer
    (countedCreation.run (.text "0x") (.int 0) "create" true sixthNext) silentWait
  have hlast := (nonces_in_a_row rfl rfl .fresh (.legacy emptyCreation) h).2.2.2
    (.tail _ (.tail _ (.head _)))
  have hreads := (nonces_in_a_row rfl rfl before
    (.execution rfl (.text "0x") (.int 0) "create" true) h').1 (.inr ⟨some 6, .head _⟩)
  refine ⟨_, _, _, _, _, before, h', rfl, ?_⟩
  rw [hreads]
  exact hlast

end NodeManager
end EvmClient
