import EvmClient.Abi.Encode

/-!
# Decoding contract data

Decoding is strict: padding must be what the encoder writes, and every offset must point behind the
heads and into the data. Bytes after the last tail do not count. A dynamic value is read from the
position that its offset names, counted from the first head of the sequence it belongs to; the data
from there to the end is called a frame. A sequence of given types is gone through twice, first to
check its heads and then to read its members.
-/

set_option autoImplicit false

namespace EvmClient

inductive DecodeFailure where
  /-- the bytes are not an encoding of the type -/
  | mismatch
  /-- a length of which the words cannot be counted -/
  | lengthTooLarge
  /-- the bytes of a text are not UTF-8 -/
  | invalidText
  deriving DecidableEq, Repr

namespace DecodeFailure

def defect? : DecodeFailure → Option Defect
  | mismatch => none
  | lengthTooLarge => some .tooLarge
  | invalidText => some .invalidText

end DecodeFailure

namespace Abi

abbrev Decoded := Except DecodeFailure

def takeWord (bs : List UInt8) : Decoded (List UInt8 × List UInt8) :=
  if (bs.take wordLength).length = wordLength then .ok (bs.take wordLength, bs.drop wordLength)
  else .error .mismatch

def takeNat (bs : List UInt8) : Decoded (Nat × List UInt8) :=
  (takeWord bs).map fun (w, rest) => (Hex.toNat w, rest)

/-- There are no more bytes than this in one piece, and lengths from here on cannot be read. -/
def lengthBound : Nat := Nat.pow 2 63

def takeBytes (bs : List UInt8) : Decoded (List UInt8) := do
  let (n, rest) ← takeNat bs
  let padded := roundedUp n
  if lengthBound ≤ padded then .error .lengthTooLarge
  else
    let block := rest.take padded
    if block.length = padded ∧ (block.drop n).all (· == 0) then .ok (block.take n)
    else .error .mismatch

def textOfBytes? (bs : List UInt8) : Option String := String.fromUTF8? ⟨bs.toArray⟩

/-- An offset that points behind `members` heads and into the frame. -/
def isInside (members offset : Nat) (frame : List UInt8) : Bool :=
  wordLength * members ≤ offset && offset < frame.length

def checkOffsets (members : Nat) (frame : List UInt8) : Nat → List UInt8 → Decoded Unit
  | 0, _ => .ok ()
  | n + 1, bs => do
    let (offset, rest) ← takeNat bs
    if isInside members offset frame then checkOffsets members frame n rest else .error .mismatch

def readMany {α : Type} (read : List UInt8 → Decoded (α × List UInt8)) :
    Nat → List UInt8 → Decoded (List α × List UInt8)
  | 0, bs => .ok ([], bs)
  | n + 1, bs => do
    let (v, bs) ← read bs
    let (vs, bs) ← readMany read n bs
    return (v :: vs, bs)

end Abi

namespace AbiType
open Abi

def decodeWord (t : AbiType) (w : List UInt8) : Decoded Value :=
  match t with
  | uint bits =>
    if (w.take (wordLength - bits / 8)).all (· == 0) then
      .ok (.int (Hex.toNat (w.drop (wordLength - bits / 8))))
    else .error .mismatch
  | int bits =>
    let n := Hex.toNat (w.drop (wordLength - bits / 8))
    let negative := decide (Nat.pow 2 (bits - 1) ≤ n)
    let filler : UInt8 := if negative then 255 else 0
    if (w.take (wordLength - bits / 8)).all (· == filler) then
      .ok (.int (if negative then (n : Int) - Nat.pow 2 bits else n))
    else .error .mismatch
  | bool =>
    match Hex.toNat w with
    | 0 => .ok (.bool false)
    | 1 => .ok (.bool true)
    | _ => .error .mismatch
  | address =>
    if (w.take 12).all (· == 0) then .ok (.text (Address.lowerText (w.drop 12)))
    else .error .mismatch
  | fixedBytes n =>
    if (w.drop n).all (· == 0) then .ok (.bytes (w.take n)) else .error .mismatch
  | _ => .error .mismatch

/-- The number of heads that a member counts for where offsets are checked: a static array of fixed
length counts for its items, everything else for one. -/
def headCount (t : AbiType) : Nat :=
  match t with
  | array item (some n) => if isDynamic item then 1 else n
  | _ => 1

def headCounts : List AbiType → Nat
  | [] => 0
  | t :: ts => headCount t + headCounts ts

mutual

/-- Reads a value whose encoding starts the data; the bytes after it are given back for a static
type. -/
def read : AbiType → List UInt8 → Decoded (Value × List UInt8)
  | bytes, bs => do
    let content ← takeBytes bs
    return (.bytes content, [])
  | string, bs => do
    let content ← takeBytes bs
    match textOfBytes? content with
    | some s => return (.text s, [])
    | none => .error .invalidText
  | array item length, bs => do
    let (n, frame) ← match length with
      | some n => pure (n, bs)
      | none => takeNat bs
    if isDynamic item then
      checkOffsets n frame n frame
      let (vs, rest) ← readMany (fun cursor => do
        let (offset, rest) ← takeNat cursor
        let (v, _) ← read item (frame.drop offset)
        return (v, rest)) n frame
      return (.tuple vs, rest)
    else
      let (vs, rest) ← readMany (read item) n frame
      return (.tuple vs, rest)
  | tuple members, bs => do
    checkHeads members (headCounts members) bs bs
    let (vs, rest) ← readEach members bs bs
    return (.tuple vs, rest)
  | t, bs => do
    let (w, rest) ← takeWord bs
    let v ← decodeWord t w
    return (v, rest)

def checkHeads : List AbiType → Nat → List UInt8 → List UInt8 → Decoded Unit
  | [], _, _, _ => .ok ()
  | t :: ts, members, frame, cursor => do
    if isDynamic t then
      let (offset, rest) ← takeNat cursor
      if isInside members offset frame then checkHeads ts members frame rest
      else .error .mismatch
    else
      let (_, rest) ← read t cursor
      checkHeads ts members frame rest

def readEach : List AbiType → List UInt8 → List UInt8 → Decoded (List Value × List UInt8)
  | [], _, cursor => .ok ([], cursor)
  | t :: ts, frame, cursor => do
    let (v, rest) ←
      if isDynamic t then do
        let (offset, rest) ← takeNat cursor
        let (v, _) ← read t (frame.drop offset)
        pure (v, rest)
      else read t cursor
    let (vs, rest) ← readEach ts frame rest
    return (v :: vs, rest)

end

def decodeAll (types : List AbiType) (bs : List UInt8) : Decoded (List Value) := do
  checkHeads types (headCounts types) bs bs
  let (vs, _) ← readEach types bs bs
  return vs

end AbiType
end EvmClient
