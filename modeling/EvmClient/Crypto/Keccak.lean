/-!
# Keccak-256

The sponge with a rate of 136 bytes over 25 lanes of 64 bits, lane `x + 5 * y` in column `x` and row
`y`, with the padding that starts with the byte one and ends with the top bit of the block.
-/

set_option autoImplicit false

namespace EvmClient.Keccak

abbrev State := Array UInt64

def lane (s : State) (i : Nat) : UInt64 := s.getD i 0

def rotate (w : UInt64) (k : Nat) : UInt64 :=
  (w <<< UInt64.ofNat k) ||| (w >>> UInt64.ofNat ((64 - k) % 64))

def rotations : Array Nat :=
  #[0, 1, 62, 28, 27, 36, 44, 6, 55, 20, 3, 10, 43, 25, 39, 41, 45, 15, 21, 8, 18, 2, 61, 56, 14]

def roundConstants : List UInt64 := [
  0x0000000000000001, 0x0000000000008082, 0x800000000000808a, 0x8000000080008000,
  0x000000000000808b, 0x0000000080000001, 0x8000000080008081, 0x8000000000008009,
  0x000000000000008a, 0x0000000000000088, 0x0000000080008009, 0x000000008000000a,
  0x000000008000808b, 0x800000000000008b, 0x8000000000008089, 0x8000000000008003,
  0x8000000000008002, 0x8000000000000080, 0x000000000000800a, 0x800000008000000a,
  0x8000000080008081, 0x8000000000008080, 0x0000000080000001, 0x8000000080008008]

def lanes (f : Nat → UInt64) : State := (Array.range 25).map f

def mixColumns (s : State) : State :=
  let parity := (Array.range 5).map fun x =>
    lane s x ^^^ lane s (x + 5) ^^^ lane s (x + 10) ^^^ lane s (x + 15) ^^^ lane s (x + 20)
  let change := (Array.range 5).map fun x =>
    parity.getD ((x + 4) % 5) 0 ^^^ rotate (parity.getD ((x + 1) % 5) 0) 1
  lanes fun i => lane s i ^^^ change.getD (i % 5) 0

def scatter (s : State) : State :=
  lanes fun i =>
    let x := i % 5
    let y := i / 5
    let source := (x + 3 * y) % 5 + 5 * x
    rotate (lane s source) (rotations.getD source 0)

def mixRows (s : State) : State :=
  lanes fun i =>
    let x := i % 5
    let row := 5 * (i / 5)
    lane s i ^^^ (~~~(lane s (row + (x + 1) % 5)) &&& lane s (row + (x + 2) % 5))

def round (s : State) (constant : UInt64) : State :=
  let t := mixRows (scatter (mixColumns s))
  t.setIfInBounds 0 (lane t 0 ^^^ constant)

def permute (s : State) : State := roundConstants.foldl round s

def rate : Nat := 136

/-- A lane from eight bytes, the first one lowest. -/
def laneOfBytes (bs : List UInt8) : UInt64 :=
  bs.foldr (fun b acc => (acc <<< 8) ||| b.toUInt64) 0

def bytesOfLane (w : UInt64) : List UInt8 :=
  (List.range 8).map fun k => (w >>> UInt64.ofNat (8 * k)).toUInt8

def addBlock (s : State) (block : List UInt8) : State :=
  lanes fun i => if i < 17 then lane s i ^^^ laneOfBytes ((block.drop (8 * i)).take 8) else lane s i

/-- Fills the message up to a whole number of blocks; at least one byte is added. -/
def padded (message : List UInt8) : List UInt8 :=
  let gap := rate - message.length % rate
  if gap = 1 then message ++ [0x81]
  else message ++ 0x01 :: (List.replicate (gap - 2) 0 ++ [0x80])

def absorb : Nat → List UInt8 → State → State
  | 0, _, s => s
  | blocks + 1, bs, s => absorb blocks (bs.drop rate) (permute (addBlock s (bs.take rate)))

def hash (message : List UInt8) : List UInt8 :=
  let s := absorb (message.length / rate + 1) (padded message) (lanes fun _ => 0)
  [0, 1, 2, 3].flatMap fun i => bytesOfLane (lane s i)

theorem length_hash (message : List UInt8) : (hash message).length = 32 := by
  simp [hash, bytesOfLane]

def utf8 (s : String) : List UInt8 := s.toUTF8.data.toList

def hashText (s : String) : List UInt8 := hash (utf8 s)

end EvmClient.Keccak
