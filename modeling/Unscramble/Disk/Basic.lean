import Unscramble.Path
import Unscramble.Tree

/-!
# The disk and where a path leads on it

A disk is a tree together with the two places that stay bound to an entry
rather than to a name: the working directory and the file of the open log.  A
working directory that has been removed stays one: it is empty, nothing can be
made in it, and `..` still leads out of it.
Following a path goes name by name; a link is replaced by its target, `..`
leads to the directory above the one reached, and only a directory can be
passed through.
-/

namespace Unscramble

/-- Why the system refuses an operation on a path. -/
inductive Refusal
  | notFound
  | notDirectory
  | isDirectory
  | occupied
  | loop
  | nameTooLong
  | notEmpty
  | invalid
  | busy
  | denied
  | badFormat
  | nul
deriving DecidableEq, Repr

namespace Refusal

/-- The system's number for a refusal; a path with a NUL never reaches it. -/
def number : Refusal → Nat
  | notFound => 2
  | badFormat => 8
  | denied => 13
  | busy => 16
  | occupied => 17
  | notDirectory => 20
  | isDirectory => 21
  | invalid => 22
  | nameTooLong => 36
  | notEmpty => 39
  | loop => 40
  | nul => 0

def text : Refusal → String
  | notFound => "No such file or directory"
  | badFormat => "Exec format error"
  | denied => "Permission denied"
  | busy => "Device or resource busy"
  | occupied => "File exists"
  | notDirectory => "Not a directory"
  | isDirectory => "Is a directory"
  | invalid => "Invalid argument"
  | nameTooLong => "File name too long"
  | notEmpty => "Directory not empty"
  | loop => "Too many levels of symbolic links"
  | nul => "embedded null byte"

/-- The refusals that a question about a path takes for "no". -/
def isAbsence : Refusal → Bool
  | notFound | notDirectory | loop | nul => true
  | _ => false

end Refusal

/-- A place that is so many removed directories below a directory of the tree. -/
structure Standpoint where
  above : Loc
  lost : Nat := 0
deriving DecidableEq, Repr

structure Disk where
  tree : Tree
  cwd : Standpoint
  /-- The working directories of those who wait for another to end, the last one first. -/
  waiting : List Standpoint
  /-- The file that an open log is written to, absent once it has been removed. -/
  log : Option Loc

/-- What a path leads to: an entry, a free name in a directory, or a directory that
has been removed. -/
inductive Found
  | present (loc : Loc) (entry : Entry)
  | vacant (loc : Loc)
  | removed
deriving DecidableEq, Repr

namespace Disk

/-- Bytes of the longest name. -/
def nameMax : Nat := 255

/-- Bytes of a path, its end mark included, that the system still takes. -/
def pathMax : Nat := 4096

/-- Links followed on the way before the system takes them for a loop. -/
def linkMax : Nat := 40

/-- Where the target of a link in the directory `dir` starts. -/
def linkStart (dir : Loc) (target : String) : Loc :=
  if (Path.ofString target).isAbsolute then [] else dir

/-- How the last name of a path is taken: a link as itself, or followed; and where a
file is to be made, a slash after the name is a fault. -/
inductive Manner
  | itself
  | followed
  | making
deriving DecidableEq, Repr

/-- Follow `names` from `here`.  A link met on the way is handed to `jump` with
the directory that holds it and the names still to come. -/
def walk (jump : Loc → String → List String → Except Refusal Found) (tree : Tree)
    (manner : Manner) (here : Loc) : List String → Except Refusal Found
  | [] =>
    match tree.get? here with
    | some entry => .ok (.present here entry)
    | none => .error .notFound
  | name :: rest =>
    match tree.get? here with
    | some .directory =>
      if name = "" ∨ name = "." then walk jump tree manner here rest
      else if name = ".." then walk jump tree manner here.dropLast rest
      else if nameMax < name.utf8ByteSize then .error .nameTooLong
      else if manner = .making ∧ rest ≠ [] ∧ rest.all (· = "") then .error .isDirectory
      else
        match tree.get? (here ++ [name]) with
        | none => if rest = [] then .ok (.vacant (here ++ [name])) else .error .notFound
        | some (.link target) =>
          if rest = [] ∧ manner = .itself then .ok (.present (here ++ [name]) (.link target))
          else jump here target rest
        | some _ => walk jump tree manner (here ++ [name]) rest
    | some _ => .error .notDirectory
    | none => .error .notFound

/-- Follow `names` from `here` with at most `links` links on the way. -/
def route (tree : Tree) (manner : Manner) : (links : Nat) → Loc → List String → Except Refusal Found
  | 0 => walk (fun _ _ _ => .error .loop) tree manner
  | links + 1 =>
    walk (fun dir target rest =>
      route tree manner links (linkStart dir target) (Path.components target ++ rest)) tree manner

/-- How many removed directories are left after `names` has been followed from one,
and the names that lead on from a directory of the tree.  Only `..` leads out of a
removed directory. -/
def climb : (lost : Nat) → (names : List String) → Except Refusal (Nat × List String)
  | 0, names => .ok (0, names)
  | lost + 1, [] => .ok (lost + 1, [])
  | lost + 1, name :: rest =>
    if name = "" ∨ name = "." then climb (lost + 1) rest
    else if name = ".." then climb lost rest
    else .error .notFound

/-- What `path` leads to. -/
def find (disk : Disk) (manner : Manner) (path : Path) : Except Refusal Found :=
  if path.hasNul then .error .nul
  else if pathMax ≤ path.byteLength then .error .nameTooLong
  else
    match path.anchor with
    | .here =>
      match climb disk.cwd.lost path.parts with
      | .ok (0, names) => route disk.tree manner linkMax disk.cwd.above names
      | .ok _ => .ok .removed
      | .error why => .error why
    | _ => route disk.tree manner linkMax [] path.parts

/-- Where the working directory lies, if it is in the tree. -/
def workingLoc? (disk : Disk) : Option Loc :=
  if disk.cwd.lost = 0 then some disk.cwd.above else none

/-- The directory that `path` leads to, as a place to work in. -/
def directory (disk : Disk) (path : Path) : Except Refusal Standpoint := do
  match ← disk.find .followed path with
  | .present loc .directory => .ok ⟨loc, 0⟩
  | .present _ _ => .error .notDirectory
  | .vacant _ => .error .notFound
  | .removed => .ok ⟨disk.cwd.above, (← climb disk.cwd.lost path.parts).1⟩

/-- The entry that `path` leads to. -/
def stat (disk : Disk) (manner : Manner) (path : Path) : Except Refusal Entry := do
  match ← disk.find manner path with
  | .present _ entry => .ok entry
  | .vacant _ => .error .notFound
  | .removed => .ok .directory

/-- The answer to a yes-or-no question about the entry at `path`: "no" when
there is none. -/
def ask (disk : Disk) (manner : Manner) (path : Path) (question : Entry → Bool) :
    Except Refusal Bool :=
  match disk.stat manner path with
  | .ok entry => .ok (question entry)
  | .error why => if why.isAbsence then .ok false else .error why

def isDirectory (disk : Disk) (path : Path) : Except Refusal Bool :=
  disk.ask .followed path (·.kind = .directory)

def isFile (disk : Disk) (path : Path) : Except Refusal Bool :=
  disk.ask .followed path (·.kind = .file)

def present (disk : Disk) (path : Path) : Except Refusal Bool :=
  disk.ask .followed path fun _ => true

def isLink (disk : Disk) (path : Path) : Except Refusal Bool :=
  disk.ask .itself path (·.kind = .link)

/-- The entries of a directory, by name. -/
def list (disk : Disk) (path : Path) : Except Refusal (List (String × Kind)) := do
  match ← disk.find .followed path with
  | .present loc .directory => .ok (disk.tree.listing loc)
  | .present _ _ => .error .notDirectory
  | .vacant _ => .error .notFound
  | .removed => .ok []

/-- The entry that `path` leads to is a file without bytes; its mode does not matter. -/
def isEmptyFile (disk : Disk) (path : Path) : Except Refusal Bool := do
  match ← disk.stat .followed path with
  | .file bytes _ => return bytes = []
  | _ => return false

/-- The bytes of the file that `path` leads to. -/
def readBytes (disk : Disk) (path : Path) : Except Refusal Bytes := do
  match ← disk.stat .followed path with
  | .file bytes access => if access.read then .ok bytes else .error .denied
  | _ => .error .isDirectory

end Disk

end Unscramble
