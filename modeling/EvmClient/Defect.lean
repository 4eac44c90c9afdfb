/-!
# Defects

What can be wrong with the data that an operation was given, where the operation makes no error of
its own out of it.
-/

set_option autoImplicit false

namespace EvmClient

inductive Defect where
  /-- the right kind of value, but not a form that can be read -/
  | malformedValue
  /-- a value of a kind that the operation does not take -/
  | wrongKind
  /-- a value without the part that is asked of it -/
  | missingPart
  /-- a number outside what can be represented -/
  | tooLarge
  /-- bytes that are no text -/
  | invalidText
  /-- a name that is taken -/
  | reservedName
  /-- a place outside a sequence -/
  | outOfRange
  /-- a type text outside the grammar -/
  | unreadableType
  /-- a type whose size does not exist -/
  | badTypeSize
  /-- a type of an unknown family -/
  | unknownType
  /-- a type with a number of too many digits -/
  | oversizedNumber
  deriving DecidableEq, Repr

namespace Defect

def describe : Defect → String
  | malformedValue => "the value cannot be read"
  | wrongKind => "the value is of the wrong kind"
  | missingPart => "the value lacks a part"
  | tooLarge => "the number is too large"
  | invalidText => "the bytes are no text"
  | reservedName => "the name is reserved"
  | outOfRange => "the place is outside the sequence"
  | unreadableType => "the type cannot be read"
  | badTypeSize => "the type has a size that does not exist"
  | unknownType => "the type is unknown"
  | oversizedNumber => "a number in the type has too many digits"

end Defect
end EvmClient
