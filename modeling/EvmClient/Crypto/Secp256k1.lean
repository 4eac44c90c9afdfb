/-!
# Public keys on secp256k1

The curve `y ^ 2 = x ^ 3 + 7` over the field of `p` elements, in affine coordinates. A private key
is a number between one and the order of the group, and its public key that multiple of the base
point.
-/

set_option autoImplicit false

namespace EvmClient.Secp256k1

def fieldSize : Nat := 0xfffffffffffffffffffffffffffffffffffffffffffffffffffffffefffffc2f

def groupOrder : Nat := 0xfffffffffffffffffffffffffffffffebaaedce6af48a03bbfd25e8cd0364141

def mul (a b : Nat) : Nat := a * b % fieldSize

def sub (a b : Nat) : Nat := (a + (fieldSize - b % fieldSize)) % fieldSize

def bits (n : Nat) : List Bool := (List.range 256).reverse.map fun i => n.testBit i

def power (b e : Nat) : Nat :=
  (bits e).foldl (fun acc bit => if bit then mul (mul acc acc) b else mul acc acc) 1

def inverse (a : Nat) : Nat := power a (fieldSize - 2)

/-- A point of the group; `none` is the neutral element. -/
abbrev Point := Option (Nat × Nat)

def base : Point :=
  some (0x79be667ef9dcbbac55a06295ce870b07029bfcdb2dce28d959f2815b16f81798,
    0x483ada7726a3c4655da4fbfc0e1108a8fd17b448a68554199c47d08ffb10d4b8)

/-- The third point on the line of slope `m` through two points, mirrored. -/
def chord (m x1 y1 x2 : Nat) : Point :=
  let x3 := sub (sub (mul m m) x1) x2
  some (x3, sub (mul m (sub x1 x3)) y1)

def double : Point → Point
  | none => none
  | some (x, y) =>
    if y = 0 then none
    else chord (mul (mul 3 (mul x x)) (inverse (mul 2 y))) x y x

def plus : Point → Point → Point
  | none, q => q
  | p, none => p
  | some (x1, y1), some (x2, y2) =>
    if x1 = x2 then
      if y1 = y2 then double (some (x1, y1)) else none
    else chord (mul (sub y2 y1) (inverse (sub x2 x1))) x1 y1 x2

def multiple (k : Nat) (p : Point) : Point :=
  (bits k).foldl (fun acc bit => if bit then plus (double acc) p else double acc) none

def isPrivateKey (k : Nat) : Bool := 0 < k && k < groupOrder

def publicKey (k : Nat) : Nat × Nat := (multiple k base).getD (0, 0)

end EvmClient.Secp256k1
