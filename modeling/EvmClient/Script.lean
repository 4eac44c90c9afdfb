import EvmClient.Program

/-!
# Scripted collaborators

A script holds the answers that collaborators are going to give, in a queue for each kind of
question. The last answer of a queue stays and is given again and again; an empty queue gives a
default.
-/

set_option autoImplicit false

namespace EvmClient

abbrev Queue (α : Type) := List (Except Failure α)

namespace Queue

def next {α : Type} (fallback : Except Failure α) : Queue α → Except Failure α × Queue α
  | [] => (fallback, [])
  | [a] => (a, [a])
  | a :: rest => (a, rest)

end Queue

structure Script where
  calls : Queue CallResponse := []
  codes : Queue CodeResponse := []
  legacy : Queue (Option Receipt) := []
  feeMarket : Queue (Option Receipt) := []
  /-- answers of the node by method -/
  methods : List (String × Queue Value) := []
  signatures : Queue (List UInt8) := []
  receipts : Queue (Option Value) := []
  blocks : Queue Value := []
  estimates : Queue Value := []
  /-- the names that the name service knows -/
  names : List (String × Except Failure Value) := []

namespace Script

def method (s : Script) (name : String) : Queue Value := (s.methods.lookup name).getD []

def setMethod (s : Script) (name : String) (q : Queue Value) : Script :=
  { s with methods := (name, q) :: s.methods.filter fun entry => entry.1 != name }

def plainReceipt (hash : Value) : Value := .dict [("transactionHash", hash), ("status", .int 1)]

def answer (q : Question) (s : Script) : Except Failure q.Answer × Script :=
  match q with
  | .call .. =>
    let (a, rest) := Queue.next (.ok { result := .text "0x" }) s.calls
    (a, { s with calls := rest })
  | .code .. =>
    let (a, rest) := Queue.next (.ok { code := .text "0x" }) s.codes
    (a, { s with codes := rest })
  | .legacy _ =>
    let (a, rest) := Queue.next (.ok none) s.legacy
    (a, { s with legacy := rest })
  | .feeMarket _ =>
    let (a, rest) := Queue.next (.ok none) s.feeMarket
    (a, { s with feeMarket := rest })
  | .rpc name _ =>
    let missing : Failure := .fault (.raised ("no reply for " ++ name))
    let (a, rest) := Queue.next (.error missing) (s.method name)
    (a, s.setMethod name rest)
  | .sign _ =>
    let (a, rest) := Queue.next (.ok [0x02, 0xf8, 0x01]) s.signatures
    (a, { s with signatures := rest })
  | .wait hash _ _ =>
    let (a, rest) := Queue.next (.ok (some (plainReceipt hash))) s.receipts
    (a, { s with receipts := rest })
  | .latestBlock =>
    let (a, rest) := Queue.next (.ok (.dict [])) s.blocks
    (a, { s with blocks := rest })
  | .estimate _ =>
    let (a, rest) := Queue.next (.ok (.int 21000)) s.estimates
    (a, { s with estimates := rest })
  | .lookup (.text name) => ((s.names.lookup name).getD (.ok .null), s)
  | .lookup _ => (.ok .null, s)

def run {α : Type} (p : Program α) (s : Script) : α × Script × List Program.TraceEntry :=
  p.run answer s

end Script
end EvmClient
