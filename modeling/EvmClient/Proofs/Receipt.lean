import Mathlib.Data.List.Forall2
import EvmClient.Proofs.Quantity
import EvmClient.Receipt

/-!
# Receipts in two forms

A client of a node gives a receipt with bytes and numbers in it; the node itself gives hexadecimal
text. Both are read as the same receipt, however long the data and however large the numbers are.
Addresses are texts in both forms. A dictionary may leave out what there is none of or put null for
it, and may have other entries, in any order.
-/

set_option autoImplicit false

namespace EvmClient

structure Emission where
  address : Option String := none
  topics : List (List UInt8) := []
  data : List UInt8 := []
  blockNumber : Option Nat := none
  transactionHash : Option (List UInt8) := none
  logIndex : Option Nat := none

/-- How a transaction was included in the chain. -/
structure Inclusion where
  transactionHash : List UInt8
  status : Option Nat := none
  contractAddress : Option String := none
  gasUsed : Option Nat := none
  blockNumber : Option Nat := none
  sender : Option String := none
  recipient : Option String := none
  logs : List Emission := []

inductive WireForm where
  /-- bytes and numbers -/
  | client
  /-- hexadecimal text -/
  | node

namespace WireForm

def ofBytes : WireForm → List UInt8 → Value
  | client, bs => .bytes bs
  | node, bs => .text (Hex.markedText bs)

def ofNat : WireForm → Nat → Value
  | client, n => .int n
  | node, n => .text (Hex.quantity n)

end WireForm

/-! ## What the receipt says -/

def Value.ofOption (v : Option Value) : Value := v.getD .null

def Value.ofText? (s : Option String) : Value := ofOption (s.map text)

def Value.ofHash? (bs : Option (List UInt8)) : Value :=
  ofOption (bs.map fun bs => text (Hex.markedText bs))

def Value.ofNat? (n : Option Nat) : Value := ofOption (n.map fun n => int n)

def Emission.log (e : Emission) : Log where
  address := .ofText? e.address
  topics := some (e.topics.map fun bs => .text (Hex.markedText bs))
  data := .text (Hex.markedText e.data)
  blockNumber := .ofNat? e.blockNumber
  transactionHash := .ofHash? e.transactionHash
  logIndex := .ofNat? e.logIndex

def Inclusion.receipt (x : Inclusion) : Receipt where
  transactionHash := .text (Hex.markedText x.transactionHash)
  status := .ofNat? x.status
  contractAddress := .ofText? x.contractAddress
  gasUsed := .ofNat? x.gasUsed
  blockNumber := .ofNat? x.blockNumber
  sender := .ofText? x.sender
  recipient := .ofText? x.recipient
  logs := x.logs.map Emission.log

/-! ## What is given -/

namespace Fields

variable {α β : Type} {members : Fields} {name : String}

/-- The member is the value, and is absent or null if there is none. -/
def Shows (members : Fields) (name : String) (v : Option Value) : Prop :=
  members.get name = .ofOption v

inductive Lists (IsItem : α → Value → Prop) (members : Fields) (name : String) : List α → Prop where
  | list {items : List α} {vs : List Value} (h : List.Forall₂ IsItem items vs)
      (shown : members.get name = .list vs) : Lists IsItem members name items
  | tuple {items : List α} {vs : List Value} (h : List.Forall₂ IsItem items vs)
      (shown : members.get name = .tuple vs) : Lists IsItem members name items
  | missing (shown : members.get name = .null) : Lists IsItem members name []

/-- The member is the data; it may be absent, null or an empty text if there is none. -/
inductive ShowsData (form : WireForm) (members : Fields) (name : String) : List UInt8 → Prop where
  | data {bs : List UInt8} (shown : members.get name = form.ofBytes bs) :
      ShowsData form members name bs
  | missing (shown : members.get name = .null) : ShowsData form members name []
  | empty (shown : members.get name = .text "") : ShowsData form members name []

end Fields

structure Emission.IsGiven (form : WireForm) (e : Emission) (members : Fields) : Prop where
  address : members.Shows "address" (e.address.map .text)
  topics : members.Lists (fun bs v => v = form.ofBytes bs) "topics" e.topics
  data : members.ShowsData form "data" e.data
  blockNumber : members.Shows "blockNumber" (e.blockNumber.map form.ofNat)
  transactionHash : members.Shows "transactionHash" (e.transactionHash.map form.ofBytes)
  logIndex : members.Shows "logIndex" (e.logIndex.map form.ofNat)

structure Inclusion.IsGiven (form : WireForm) (x : Inclusion) (members : Fields) : Prop where
  transactionHash : members.Shows "transactionHash" (some (form.ofBytes x.transactionHash))
  status : members.Shows "status" (x.status.map form.ofNat)
  contractAddress : members.Shows "contractAddress" (x.contractAddress.map .text)
  gasUsed : members.Shows "gasUsed" (x.gasUsed.map form.ofNat)
  blockNumber : members.Shows "blockNumber" (x.blockNumber.map form.ofNat)
  sender : members.Shows "from" (x.sender.map .text)
  recipient : members.Shows "to" (x.recipient.map .text)
  logs : members.Lists (fun e v => ∃ entries, v = .dict entries ∧ e.IsGiven form entries)
    "logs" x.logs

/-! ## Writing

Every receipt can be given in either form. -/

def Emission.entries (form : WireForm) (e : Emission) : Fields :=
  [("address", .ofOption (e.address.map .text)),
    ("topics", .list (e.topics.map form.ofBytes)),
    ("data", form.ofBytes e.data),
    ("blockNumber", .ofOption (e.blockNumber.map form.ofNat)),
    ("transactionHash", .ofOption (e.transactionHash.map form.ofBytes)),
    ("logIndex", .ofOption (e.logIndex.map form.ofNat))]

def Inclusion.entries (form : WireForm) (x : Inclusion) : Fields :=
  [("transactionHash", form.ofBytes x.transactionHash),
    ("status", .ofOption (x.status.map form.ofNat)),
    ("contractAddress", .ofOption (x.contractAddress.map .text)),
    ("gasUsed", .ofOption (x.gasUsed.map form.ofNat)),
    ("blockNumber", .ofOption (x.blockNumber.map form.ofNat)),
    ("from", .ofOption (x.sender.map .text)),
    ("to", .ofOption (x.recipient.map .text)),
    ("logs", .list (x.logs.map fun e => .dict (e.entries form)))]

theorem Emission.isGiven_entries (form : WireForm) (e : Emission) :
    e.IsGiven form (e.entries form) where
  address := rfl
  topics := .list (List.forall₂_map_right_iff.mpr (List.forall₂_same.mpr fun _ _ => rfl)) rfl
  data := .data rfl
  blockNumber := rfl
  transactionHash := rfl
  logIndex := rfl

theorem Inclusion.isGiven_entries (form : WireForm) (x : Inclusion) :
    x.IsGiven form (x.entries form) where
  transactionHash := rfl
  status := rfl
  contractAddress := rfl
  gasUsed := rfl
  blockNumber := rfl
  sender := rfl
  recipient := rfl
  logs := .list (List.forall₂_map_right_iff.mpr (List.forall₂_same.mpr fun e _ =>
    ⟨_, rfl, e.isGiven_entries form⟩)) rfl

/-! ## Reading -/

namespace WireForm

variable (form : WireForm)

theorem hexText_ofBytes (bs : List UInt8) :
    (form.ofBytes bs).hexText = .ok (.text (Hex.markedText bs)) := by
  cases form <;> rfl

theorem quantity_ofNat (n : Nat) : (form.ofNat n).quantity = .ok (.int n) := by
  cases form with
  | client => rfl
  | node => exact Value.quantity_text n

end WireForm

namespace Fields

variable {α β : Type} {form : WireForm} {members : Fields} {name : String}

theorem Shows.text {s : Option String} (h : members.Shows name (s.map .text)) :
    members.get name = .ofText? s := h

theorem Shows.hexText {bs : Option (List UInt8)} (h : members.Shows name (bs.map form.ofBytes)) :
    (members.get name).hexText = .ok (.ofHash? bs) := by
  rw [h]
  cases bs with
  | none => rfl
  | some bs => exact form.hexText_ofBytes bs

theorem Shows.quantity {n : Option Nat} (h : members.Shows name (n.map form.ofNat)) :
    (members.get name).quantity = .ok (.ofNat? n) := by
  rw [h]
  cases n with
  | none => rfl
  | some n => exact form.quantity_ofNat n

theorem Lists.elements {IsItem : α → Value → Prop} {items : List α}
    (h : members.Lists IsItem name items) :
    ∃ vs, (members.get name).optionalElements = .ok vs ∧ List.Forall₂ IsItem items vs := by
  cases h with
  | list h shown =>
    refine ⟨_, ?_, h⟩
    rw [shown, Value.optionalElements]
    cases h <;> rfl
  | tuple h shown =>
    refine ⟨_, ?_, h⟩
    rw [shown, Value.optionalElements]
    cases h <;> rfl
  | missing shown =>
    refine ⟨[], ?_, .nil⟩
    rw [shown]
    rfl

theorem ShowsData.text {bs : List UInt8} (h : members.ShowsData form name bs) :
    ∃ v, (members.get name).hexText = .ok v ∧
      v.orElse (.text "0x") = .text (Hex.markedText bs) := by
  cases h with
  | data shown =>
    refine ⟨_, by rw [shown, form.hexText_ofBytes], ?_⟩
    have hne : (Hex.markedText bs).isEmpty = false := by
      rw [← Bool.not_eq_true, String.isEmpty_iff]
      intro h
      have hchars := congrArg String.toList h
      rw [Hex.markedText, String.toList_ofList] at hchars
      cases hchars
    rw [Value.orElse, Value.isTruthy, hne]
    rfl
  | missing shown => exact ⟨.null, by rw [shown]; rfl, rfl⟩
  | empty shown => exact ⟨.text "", by rw [shown]; rfl, rfl⟩

theorem mapM_of_forall₂ {ε : Type} {f : β → Except ε α} {γ : Type} {g : γ → α} {items : List γ}
    {vs : List β} (h : List.Forall₂ (fun item v => f v = .ok (g item)) items vs) :
    vs.mapM f = .ok (items.map g) := by
  induction h with
  | nil => rfl
  | cons hhead _ ih =>
    rw [List.mapM_cons, hhead, ih]
    rfl

end Fields

theorem Emission.ofNode_of_isGiven {form : WireForm} {e : Emission} {members : Fields}
    (h : e.IsGiven form members) : Log.ofNode (.dict members) = .ok e.log := by
  obtain ⟨topics, htopics, hitems⟩ := h.topics.elements
  have hread : topics.mapM Value.hexText =
      .ok (e.topics.map fun bs => .text (Hex.markedText bs)) := by
    refine Fields.mapM_of_forall₂ (hitems.imp ?_)
    rintro bs _ rfl
    exact form.hexText_ofBytes bs
  obtain ⟨data, hdata, hmark⟩ := h.data.text
  simp only [Log.ofNode, Value.members, bind, Except.bind, pure, Except.pure, htopics, hread, hdata,
    h.blockNumber.quantity, h.transactionHash.hexText, h.logIndex.quantity, h.address.text, hmark]
  rfl

theorem Inclusion.ofNode_of_isGiven {form : WireForm} {x : Inclusion} {members : Fields}
    (h : x.IsGiven form members) : Receipt.ofNode (.dict members) = .ok x.receipt := by
  have hhash : members.Shows "transactionHash" ((some x.transactionHash).map form.ofBytes) :=
    h.transactionHash
  obtain ⟨logs, hlogs, hitems⟩ := h.logs.elements
  have hread : logs.mapM Log.ofNode = .ok (x.logs.map Emission.log) := by
    refine Fields.mapM_of_forall₂ (hitems.imp ?_)
    rintro e _ ⟨entries, rfl, he⟩
    exact Emission.ofNode_of_isGiven he
  simp only [Receipt.ofNode, Value.members, bind, Except.bind, pure, Except.pure, hhash.hexText,
    h.status.quantity, h.gasUsed.quantity, h.blockNumber.quantity, hlogs, hread,
    h.contractAddress.text, h.sender.text, h.recipient.text]
  rfl

/-- A receipt is read the same in both forms. -/
theorem Inclusion.forms_read_alike (x : Inclusion) {given answered : Fields}
    (hgiven : x.IsGiven .client given) (hanswered : x.IsGiven .node answered) :
    Receipt.ofNode (.dict given) = .ok x.receipt ∧
      Receipt.ofNode (.dict answered) = .ok x.receipt :=
  ⟨x.ofNode_of_isGiven hgiven, x.ofNode_of_isGiven hanswered⟩

def Inclusion.failedTransfer : Inclusion where
  transactionHash := [0xAB, 0x01]
  status := some 0
  gasUsed := some 30000
  recipient := some "0x00000000000000000000000000000000000000bB"
  logs := [{ topics := [[0xDD, 0xF2], [0x00]], logIndex := some 3 }]

theorem Inclusion.failedTransfer_read_alike :
    ∃ given answered : Fields,
      failedTransfer.IsGiven .client given ∧ failedTransfer.IsGiven .node answered ∧
      Receipt.ofNode (.dict given) = .ok failedTransfer.receipt ∧
      Receipt.ofNode (.dict answered) = .ok failedTransfer.receipt := by
  have hgiven : failedTransfer.IsGiven .client
      [("transactionHash", .bytes [0xAB, 0x01]), ("status", .int 0), ("gasUsed", .int 30000),
        ("to", .text "0x00000000000000000000000000000000000000bB"),
        ("logs", .tuple [.dict [("topics", .list [.bytes [0xDD, 0xF2], .bytes [0x00]]),
          ("data", .bytes []), ("logIndex", .int 3)]])] := by
    refine ⟨rfl, rfl, rfl, rfl, rfl, rfl, rfl, .tuple (.cons ⟨_, rfl, ?_⟩ .nil) rfl⟩
    exact ⟨rfl, .list (.cons rfl (.cons rfl .nil)) rfl, .data rfl, rfl, rfl, rfl⟩
  have hanswered : failedTransfer.IsGiven .node
      [("status", .text "0x0"), ("gasUsed", .text "0x7530"), ("transactionHash", .text "0xab01"),
        ("type", .text "0x2"), ("blockNumber", .null), ("contractAddress", .null), ("from", .null),
        ("to", .text "0x00000000000000000000000000000000000000bB"),
        ("logs", .list [.dict [("address", .null), ("data", .text ""), ("logIndex", .text "0x3"),
          ("topics", .list [.text "0xddf2", .text "0x00"])]])] := by
    refine ⟨rfl, rfl, rfl, rfl, rfl, rfl, rfl, .list (.cons ⟨_, rfl, ?_⟩ .nil) rfl⟩
    exact ⟨rfl, .list (.cons rfl (.cons rfl .nil)) rfl, .empty rfl, rfl, rfl, rfl⟩
  exact ⟨_, _, hgiven, hanswered, failedTransfer.forms_read_alike hgiven hanswered⟩

end EvmClient
