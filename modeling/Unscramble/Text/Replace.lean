/-!
# Replacing text

Occurrences of one text inside another are found from left to right and do not
overlap.
-/

namespace Unscramble.Text

/-- `s` without `pattern` at its start, if it starts with it. -/
def dropPrefix? : List Char → List Char → Option (List Char)
  | [], s => some s
  | _ :: _, [] => none
  | p :: pattern, c :: s => if p = c then dropPrefix? pattern s else none

/-- Replace each occurrence of a text that is not empty; `skip` characters belong
to the occurrence found last. -/
def replaceFrom (pattern replacement : List Char) : (skip : Nat) → List Char → List Char
  | _, [] => []
  | skip + 1, _ :: rest => replaceFrom pattern replacement skip rest
  | 0, c :: rest =>
    match dropPrefix? pattern (c :: rest) with
    | some _ => replacement ++ replaceFrom pattern replacement (pattern.length - 1) rest
    | none => c :: replaceFrom pattern replacement 0 rest

def replace (pattern replacement s : String) : String :=
  if pattern = "" then s
  else String.ofList (replaceFrom pattern.toList replacement.toList 0 s.toList)

/-- `part` occurs in `s`. -/
def contains (part s : List Char) : Bool :=
  match s with
  | [] => part = []
  | c :: rest => (dropPrefix? part (c :: rest)).isSome || contains part rest

end Unscramble.Text
