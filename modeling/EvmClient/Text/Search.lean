/-!
# Searching a text

Texts are searched as lists of characters. `replaceAll` goes through a text once from the left: what
has been put in is not searched again, and occurrences that overlap an earlier one do not count.
-/

set_option autoImplicit false

namespace EvmClient.Text

def occursIn {α : Type} [DecidableEq α] (pattern : List α) : List α → Bool
  | [] => pattern.isEmpty
  | c :: cs => pattern.isPrefixOf (c :: cs) || occursIn pattern cs

theorem occursIn_iff {α : Type} [DecidableEq α] {pattern cs : List α} :
    occursIn pattern cs = true ↔ pattern <:+: cs := by
  induction cs with
  | nil => simp [occursIn]
  | cons c cs ih => simp [occursIn, ih, List.infix_cons_iff]

/-- The text up to the first place where one of the markers starts. -/
def beforeMarker (markers : List (List Char)) : List Char → List Char
  | [] => []
  | c :: cs =>
    if markers.any (·.isPrefixOf (c :: cs)) then [] else c :: beforeMarker markers cs

def replaceFrom (pattern replacement : List Char) : Nat → List Char → List Char
  | _, [] => []
  | skip + 1, _ :: cs => replaceFrom pattern replacement skip cs
  | 0, c :: cs =>
    if pattern.isPrefixOf (c :: cs) then
      replacement ++ replaceFrom pattern replacement (pattern.length - 1) cs
    else c :: replaceFrom pattern replacement 0 cs

def replaceAll (pattern replacement cs : List Char) : List Char :=
  if pattern.isEmpty then cs else replaceFrom pattern replacement 0 cs

/-- A text in lower case as far as its letters are ASCII. -/
def lowered (s : String) : String := String.ofList (s.toList.map Char.toLower)

end EvmClient.Text
