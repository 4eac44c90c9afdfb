import EvmClient.Text.Digits

/-!
# Whole numbers as text

Reading takes one sign, digits of any script and single underscores between digits; blanks around
the number do not count. A decimal text, read or written, has at most 4300 digits.
-/

set_option autoImplicit false

namespace EvmClient.Number

def digitLimit : Nat := 4300

def isReadable (n : Nat) : Bool := n < Nat.pow 10 digitLimit

/-- The digits of a run in which a single underscore may stand before each digit. -/
def digitRun? (digit? : Char → Option Nat) : List Char → Option (List Nat)
  | [] => some []
  | '_' :: c :: rest => do
    let d ← digit? c
    let ds ← digitRun? digit? rest
    return d :: ds
  | c :: rest => do
    let d ← digit? c
    let ds ← digitRun? digit? rest
    return d :: ds

def digits? (digit? : Char → Option Nat) : List Char → Option (List Nat)
  | [] => none
  | '_' :: _ => none
  | cs => digitRun? digit? cs

def ofDigits (base : Nat) (ds : List Nat) : Nat :=
  ds.foldl (fun acc d => base * acc + d) 0

theorem ofDigits_append_singleton (base : Nat) (ds : List Nat) (d : Nat) :
    ofDigits base (ds ++ [d]) = base * ofDigits base ds + d := by
  simp [ofDigits]

def natural? (cs : List Char) : Option Nat := do
  let ds ← digits? Text.decimalDigit? cs
  if ds.length ≤ digitLimit then some (ofDigits 10 ds) else none

def integer? (s : String) : Option Int :=
  match Text.trimBlanks s.toList with
  | '-' :: cs => (natural? cs).map fun n => -(n : Int)
  | '+' :: cs => (natural? cs).map Int.ofNat
  | cs => (natural? cs).map Int.ofNat

def hexDigit? (c : Char) : Option Nat :=
  if 'a' ≤ c && c ≤ 'f' then some (c.toNat - 'a'.toNat + 10)
  else if 'A' ≤ c && c ≤ 'F' then some (c.toNat - 'A'.toNat + 10)
  else Text.decimalDigit? c

/-- The number that a text denotes whose digits follow `0x`, at once or after an underscore. -/
def hexInteger? (s : String) : Option Nat :=
  match Text.trimBlanks s.toList with
  | '0' :: 'x' :: c :: cs => (digitRun? hexDigit? (c :: cs)).map (ofDigits 16)
  | _ => none

def decimal? (i : Int) : Option String :=
  if i.natAbs < Nat.pow 10 digitLimit then some (toString i) else none

theorem decimal?_eq_none_iff (i : Int) :
    decimal? i = none ↔ Nat.pow 10 digitLimit ≤ i.natAbs := by
  unfold decimal?
  split
  · next h => exact ⟨nofun, fun g => absurd h (Nat.not_lt.mpr g)⟩
  · next h => exact ⟨fun _ => Nat.not_lt.mp h, fun _ => rfl⟩

end EvmClient.Number
