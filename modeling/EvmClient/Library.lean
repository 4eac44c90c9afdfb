import EvmClient.Crypto.Keccak
import EvmClient.Input

/-!
# Libraries in the code of a contract

Code that calls libraries is compiled with placeholders where their addresses go. A library has
three placeholders, one for each convention in use: two dollar signs around the start of a hash, and
the qualified or the bare name padded with underscores. `link` replaces them, reference by
reference.
-/

set_option autoImplicit false

namespace EvmClient

structure TextHash where
  hash : String → List UInt8
  length_hash : ∀ s, (hash s).length = 32

def TextHash.keccak : TextHash := ⟨Keccak.hashText, fun _ => Keccak.length_hash _⟩

structure Library where
  source : String
  name : String
  deriving DecidableEq, Repr

namespace Library

def qualifiedName (l : Library) : String := l.source ++ ":" ++ l.name

def placeholderLength : Nat := 40

def hashDigits : Nat := 34

/-- A name behind two underscores, filled up with underscores. -/
def padded (name : List Char) : List Char :=
  '_' :: '_' :: name ++ List.replicate (placeholderLength - name.length - 2) '_'

def hashed (hash : List UInt8) : List Char :=
  "__$".toList ++ (Hex.chars hash).take hashDigits ++ "$__".toList

/-- The placeholders of a library: by hash, by qualified name, by bare name. -/
def placeholders (l : Library) (k : TextHash := .keccak) : List (List Char) :=
  [hashed (k.hash l.qualifiedName), padded l.qualifiedName.toList, padded l.name.toList]

end Library

structure LinkReference where
  library : Library
  address : String
  deriving DecidableEq, Repr

namespace LinkReference

def check (library : Library) (address : Value) : Outcome LinkReference := do
  let _ ← Input.address address
  match address with
  | .text s => return ⟨library, s⟩
  | _ => .error (Failure.ofDefect .wrongKind)

def replacement (r : LinkReference) : List Char :=
  (Hex.unmarkChars r.address.toList).map Char.toLower

def apply (r : LinkReference) (code : List Char) (k : TextHash := .keccak) : List Char :=
  (r.library.placeholders k).foldl (fun cs p => Text.replaceAll p r.replacement cs) code

/-- Replaces the placeholders of all libraries, in the order of the references. -/
def link (references : List LinkReference) (code : String) (k : TextHash := .keccak) : String :=
  String.ofList (references.foldl (fun cs r => r.apply cs k) code.toList)

end LinkReference
end EvmClient
