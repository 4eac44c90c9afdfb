import EvmClient.Defect
import EvmClient.Value

/-!
# Names of loggers

Points divide the name of a logger. A logger hands its records to the logger whose name is left when
its own name is cut at a point, and so on; the search for that logger goes from right to left. A cut
that meets no logger takes the character before it along, so that a point beside another may be
passed over, and then the root is not found.
-/

set_option autoImplicit false

namespace EvmClient.LoggerName

def root : String := "ethwrap"

/-- The full name of a logger. A name outside the root is put below it. -/
def ofValue (name : Value) : Except Defect String :=
  if !name.isTruthy then .ok root
  else
    match name with
    | .text s =>
      .ok (if s == root || (root ++ ".").isPrefixOf s then s else root ++ "." ++ s)
    | .bytes _ => .error .wrongKind
    | _ => .error .missingPart

def leadsToRoot (loggers : List String) : List Char → Bool
  | [] => false
  | '.' :: rest =>
    let parent := String.ofList rest.reverse
    if parent == root then true
    else if loggers.contains parent then leadsToRoot loggers rest
    else
      match rest with
      | [] => false
      | _ :: rest => leadsToRoot loggers rest
  | _ :: rest => leadsToRoot loggers rest

/-- Whether the records of a logger come to the root, the loggers that there are being known. -/
def isUnderRoot (loggers : List String) (name : String) : Bool :=
  name == root || leadsToRoot loggers name.toList.reverse

end EvmClient.LoggerName
