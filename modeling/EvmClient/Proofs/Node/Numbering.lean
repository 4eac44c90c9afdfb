import EvmClient.Proofs.Node.NonceLedger
import Mathlib.Data.List.Induction

/-!
# Nonces in a row

A manager that counts nonces reads the count of the node, gives the number to the signer and hands
in what is signed. These are the nonce events of a history; all other steps have nothing to do with
nonces. The events decide which nonce comes next. A history follows the count if each signed
transaction has the nonce that comes next, and the count is read only where none is known.
-/

set_option autoImplicit false

namespace EvmClient

inductive NonceEvent where
  /-- the count is asked for, and a number is answered or not -/
  | read (count : Option Int)
  /-- a transaction is given to the signer -/
  | used (nonce : Option Int)
  /-- a signed transaction is handed in -/
  | submitted (refused : Bool)

namespace NonceEvent

def advance (next : Option Int) : NonceEvent → Option Int
  | read (some i) => some i
  | read none => next
  | used _ => next.map (· + 1)
  | submitted refused => if refused then none else next

/-- The event fits what is known: a count is read only if nothing is, and the nonce that is used is
the one that comes next. -/
def Fits (next : Option Int) : NonceEvent → Prop
  | read _ => next = none
  | used nonce => next.isSome = true ∧ nonce = next
  | submitted _ => next.isSome = true

end NonceEvent

def FollowsCount : Option Int → List NonceEvent → Prop
  | _, [] => True
  | next, e :: events => e.Fits next ∧ FollowsCount (e.advance next) events

def nextAfter (next : Option Int) (events : List NonceEvent) : Option Int :=
  events.foldl NonceEvent.advance next

def usedNonces (events : List NonceEvent) : List (Option Int) :=
  events.filterMap fun
    | .used nonce => some nonce
    | _ => none

/-- No count has been read yet, or the last transaction that was handed in was refused and no count
has been read since. -/
def IsReadDue (events : List NonceEvent) : Prop :=
  (∀ i, .read (some i) ∉ events) ∨
    ∃ before after, events = before ++ .submitted true :: after ∧
      (∀ refused, .submitted refused ∉ after) ∧ ∀ i, .read (some i) ∉ after

section

variable {next : Option Int} {events more : List NonceEvent}

theorem nextAfter_append :
    nextAfter next (events ++ more) = nextAfter (nextAfter next events) more := List.foldl_append

theorem followsCount_append :
    FollowsCount next (events ++ more) ↔
      FollowsCount next events ∧ FollowsCount (nextAfter next events) more := by
  induction events generalizing next with
  | nil => exact (iff_of_eq (true_and _)).symm
  | cons e events ih =>
    rw [List.cons_append, FollowsCount, ih, FollowsCount, and_assoc]
    rfl

/-! ## When a read is due -/

theorem concat_eq_append_cons {e e' : NonceEvent} {before after : List NonceEvent}
    (h : events ++ [e] = before ++ e' :: after) :
    (after = [] ∧ e = e') ∨ ∃ rest, after = rest ++ [e] ∧ events = before ++ e' :: rest := by
  obtain rfl | ⟨rest, last, hlast⟩ := after.eq_nil_or_concat
  · obtain ⟨_, heq⟩ := List.append_inj' h rfl
    exact .inl ⟨rfl, List.singleton_inj.mp heq⟩
  · rw [List.concat_eq_append] at hlast
    rw [hlast, ← List.cons_append, ← List.append_assoc] at h
    obtain ⟨hevents, heq⟩ := List.append_inj' h rfl
    rw [List.singleton_inj.mp heq]
    exact .inr ⟨rest, hlast, hevents⟩

theorem isReadDue_of_refused : IsReadDue (events ++ [.submitted true]) :=
  .inr ⟨events, [], rfl, by simp, by simp⟩

theorem isReadDue_concat {e : NonceEvent} (hr : ∀ i, e ≠ .read (some i))
    (hs : ∀ refused, e ≠ .submitted refused) :
    IsReadDue (events ++ [e]) ↔ IsReadDue events := by
  have hmem (l : List NonceEvent) :
      (∀ i, .read (some i) ∉ l ++ [e]) ↔ ∀ i, .read (some i) ∉ l := by
    refine forall_congr' fun i => not_congr ?_
    rw [List.mem_append, List.mem_singleton]
    exact or_iff_left fun heq => hr i heq.symm
  refine or_congr (hmem events) ?_
  constructor
  · intro hx
    obtain ⟨before, after, heq, hsub, hread⟩ := hx
    obtain ⟨_, hlast⟩ | ⟨rest, rfl, rfl⟩ := concat_eq_append_cons heq
    · exact absurd hlast (hs true)
    · exact ⟨before, rest, rfl,
        fun refused hmem => hsub refused (List.mem_append_left _ hmem),
        fun i hmem => hread i (List.mem_append_left _ hmem)⟩
  · intro hx
    obtain ⟨before, after, rfl, hsub, hread⟩ := hx
    refine ⟨before, after ++ [e], by simp, ?_, (hmem after).mpr hread⟩
    intro refused hm
    obtain hm | hm := List.mem_append.mp hm
    · exact hsub refused hm
    · exact hs refused (List.mem_singleton.mp hm).symm

theorem not_isReadDue_concat_read {i : Int} : ¬IsReadDue (events ++ [.read (some i)]) := by
  intro hx
  obtain hnone | ⟨before, after, heq, _, hread⟩ := hx
  · exact hnone i (by simp)
  · obtain ⟨_, hlast⟩ | ⟨rest, rfl, _⟩ := concat_eq_append_cons heq
    · cases hlast
    · exact hread i (by simp)

theorem isReadDue_of_concat_taken (h : IsReadDue (events ++ [.submitted false])) :
    IsReadDue events := by
  obtain hnone | ⟨before, after, heq, hsub, _⟩ := h
  · exact .inl fun i hm => hnone i (List.mem_append_left _ hm)
  · obtain ⟨_, hlast⟩ | ⟨rest, rfl, _⟩ := concat_eq_append_cons heq
    · cases hlast
    · exact absurd (List.mem_append_right _ (List.mem_singleton_self _)) (hsub false)

theorem isReadDue_iff (h : FollowsCount none events) :
    IsReadDue events ↔ nextAfter none events = none := by
  induction events using List.reverseRecOn with
  | nil => exact iff_of_true (.inl (by simp)) rfl
  | append_singleton events e ih =>
    obtain ⟨hevents, hfits, _⟩ := followsCount_append.mp h
    have hdue := ih hevents
    rw [nextAfter_append]
    cases e with
    | read count =>
      cases count with
      | none => exact (isReadDue_concat (by simp) (by simp)).trans hdue
      | some i => exact iff_of_false not_isReadDue_concat_read (Option.some_ne_none i)
    | used nonce =>
      rw [isReadDue_concat (by simp) (by simp), hdue]
      exact Option.map_eq_none_iff.symm
    | submitted refused =>
      cases refused with
      | true => exact iff_of_true isReadDue_of_refused rfl
      | false =>
        have hknown : nextAfter none events ≠ none := Option.isSome_iff_ne_none.mp hfits
        exact iff_of_false (fun hx => hknown (hdue.mp (isReadDue_of_concat_taken hx))) hknown

/-! ## Which nonces are used -/

theorem usedNonces_eq_nil (h : FollowsCount none events) (hr : ∀ i, .read (some i) ∉ events) :
    usedNonces events = [] := by
  induction events with
  | nil => rfl
  | cons e events ih =>
    obtain ⟨hfits, hrest⟩ := h
    have hr' : ∀ i, .read (some i) ∉ events := fun i hm => hr i (List.mem_cons_of_mem _ hm)
    cases e with
    | read count =>
      cases count with
      | none => exact ih hrest hr'
      | some i => exact absurd List.mem_cons_self (hr i)
    | used nonce => cases hfits.1
    | submitted refused => cases hfits

/-- From a count that was read on, the nonces go up by one until the next count. -/
theorem usedNonces_eq {i : Int} (h : FollowsCount (some i) events)
    (hr : ∀ j, .read (some j) ∉ events) :
    usedNonces events =
      (List.range (usedNonces events).length).map fun (k : Nat) => some (i + k) := by
  induction events generalizing i with
  | nil => rfl
  | cons e events ih =>
    obtain ⟨hfits, hrest⟩ := h
    have hr' : ∀ j, .read (some j) ∉ events := fun j hm => hr j (List.mem_cons_of_mem _ hm)
    cases e with
    | read count => cases hfits
    | used nonce =>
      obtain ⟨_, rfl⟩ := hfits
      have hcons : usedNonces (.used (some i) :: events) = some i :: usedNonces events := rfl
      have hshift : ∀ k : Nat, some (i + 1 + k) = some (i + (k + 1 : Nat)) := by
        intro k
        congr 1
        omega
      rw [hcons, List.length_cons, List.range_succ_eq_map, List.map_cons, List.map_map]
      refine congr (congrArg _ (by simp)) ((ih hrest hr').trans ?_)
      exact List.map_congr_left fun k _ => hshift k
    | submitted refused =>
      cases refused with
      | true =>
        have hnone : usedNonces events = [] := usedNonces_eq_nil hrest hr'
        change usedNonces events = List.map _ (List.range (usedNonces events).length)
        rw [hnone]
        rfl
      | false => exact ih hrest hr'

end
end EvmClient
