/-!
# Dynamic values

What a node answers and what a caller passes in has a kind that is only known when the program
runs. `Value` is that kind of data; a dictionary keeps its entries in the order they were put in.
-/

set_option autoImplicit false

namespace EvmClient

inductive Value where
  | null
  | bool (b : Bool)
  | int (i : Int)
  | float (x : Float)
  | text (s : String)
  | bytes (bs : List UInt8)
  | list (items : List Value)
  | tuple (items : List Value)
  | dict (entries : List (String × Value))
  deriving Inhabited

abbrev Fields := List (String × Value)

namespace Fields

def get (fields : Fields) (name : String) : Value :=
  (fields.lookup name).getD .null

def has (fields : Fields) (name : String) : Bool :=
  (fields.lookup name).isSome

def insert : Fields → String → Value → Fields
  | [], name, value => [(name, value)]
  | (n, v) :: rest, name, value =>
    if n = name then (n, value) :: rest else (n, v) :: insert rest name value

def update (fields more : Fields) : Fields :=
  more.foldl (fun acc entry => acc.insert entry.1 entry.2) fields

end Fields

namespace Value

/-- Null, false, zero and everything empty count as nothing. -/
def isTruthy : Value → Bool
  | null => false
  | bool b => b
  | int i => i != 0
  | float x => x != 0.0
  | text s => !s.isEmpty
  | bytes bs => !bs.isEmpty
  | list items => !items.isEmpty
  | tuple items => !items.isEmpty
  | dict entries => !entries.isEmpty

def isNull : Value → Bool
  | null => true
  | _ => false

def isText : Value → Bool
  | text _ => true
  | _ => false

/-- The first value, or the second where the first counts as nothing. -/
def orElse (v w : Value) : Value :=
  if v.isTruthy then v else w

/-- The whole number that a value is; the two truth values are one and zero. -/
def integer? : Value → Option Int
  | int i => some i
  | bool b => some (if b then 1 else 0)
  | _ => Option.none

def sequence? : Value → Option (List Value)
  | list items => some items
  | tuple items => some items
  | _ => Option.none

/-- What going through a value item by item gives: characters of a text, numbers of a byte string,
names of a dictionary. -/
def elements? : Value → Option (List Value)
  | list items => some items
  | tuple items => some items
  | text s => some (s.toList.map fun c => text (String.ofList [c]))
  | bytes bs => some (bs.map fun b => int b.toNat)
  | dict entries => some (entries.map fun entry => text entry.1)
  | _ => Option.none

end Value
end EvmClient
