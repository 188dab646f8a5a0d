/-!
# Lexical paths

A path is read once, from text, into where it starts and the names it passes
through.  Empty names and single dots carry no information and are dropped;
`..` is kept, because only the disk knows where it leads.  Every rule about
names of artifacts and suffixes of scripts is a rule on this type.
-/

namespace Unscramble

/-- What a path is relative to.  Exactly two leading slashes are a start of
their own. -/
inductive Anchor
  | here
  | root
  | doubleRoot
deriving DecidableEq, Repr

structure Path where
  anchor : Anchor
  parts : List String
deriving DecidableEq, Repr

namespace Path

/-- The text that stands before the first name. -/
def Anchor.text : Anchor → String
  | .here => ""
  | .root => "/"
  | .doubleRoot => "//"

/-- A name that a path keeps. -/
def Significant (name : String) : Prop := name ≠ "" ∧ name ≠ "."

instance (name : String) : Decidable (Significant name) :=
  inferInstanceAs (Decidable (_ ∧ _))

/-- The names between slashes, the meaningless ones included. -/
def components (text : String) : List String :=
  (text.toList.splitOn '/').map String.ofList

def anchorOf : List Char → Anchor
  | '/' :: '/' :: '/' :: _ => .root
  | '/' :: '/' :: _ => .doubleRoot
  | '/' :: _ => .root
  | _ => .here

def ofString (text : String) : Path :=
  ⟨anchorOf text.toList, (components text).filter (fun name => decide (Significant name))⟩

protected def toString : Path → String
  | ⟨.here, []⟩ => "."
  | ⟨anchor, parts⟩ => Anchor.text anchor ++ "/".intercalate parts

instance : ToString Path := ⟨Path.toString⟩

def byteLength (path : Path) : Nat := path.toString.utf8ByteSize

def isAbsolute (path : Path) : Bool := path.anchor != .here

def hasNul (path : Path) : Bool := path.parts.any (·.toList.contains '\x00')

/-- The path of the entry called `name` in the directory `path`. -/
def child (path : Path) (name : String) : Path :=
  ⟨path.anchor, path.parts ++ [name]⟩

/-- An anchored second path stands alone. -/
def join (base : Path) (other : Path) : Path :=
  match other.anchor with
  | .here => ⟨base.anchor, base.parts ++ other.parts⟩
  | _ => other

/-- The last name, empty when the path has none. -/
def name (path : Path) : String := path.parts.getLast?.getD ""

/-- A path without names is its own parent. -/
def parent (path : Path) : Path := ⟨path.anchor, path.parts.dropLast⟩

/-- The same place under another last name; a path without names has none. -/
def withName? (path : Path) (newName : String) : Option Path :=
  if path.name = "" then none else some (path.parent.child newName)

/-- The part of a name from its last dot on.  A dot that starts or ends the
name starts no suffix. -/
def suffixOf (name : List Char) : List Char :=
  let tail := (name.reverse.takeWhile (· != '.')).reverse
  let stem := name.length - tail.length
  if tail = [] ∨ stem ≤ 1 then [] else '.' :: tail

def suffix (path : Path) : String := String.ofList (suffixOf path.name.toList)

@[simp]
theorem parent_child (path : Path) (name : String) : (path.child name).parent = path := by
  simp [parent, child]

@[simp]
theorem name_child (path : Path) (name : String) : (path.child name).name = name := by
  simp [Path.name, child]

end Path

end Unscramble
