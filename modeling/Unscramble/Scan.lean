import Unscramble.Settings.Basic
import Unscramble.Text.Casing

/-!
# Scanning for scripts

A scan goes through a directory in the order of names and into every real
directory that is not to be skipped.  It is lazy: a directory is listed when it
is reached, and what is done with one script may change what is found later.
The kind of an entry is the one seen at the listing.
-/

namespace Unscramble.Scan

/-- What counts as a script and where none is looked for. -/
structure Rules where
  extensions : List String
  skipped : List String
  /-- Canonical paths of the program's own scripts, which are left alone. -/
  own : List Path
deriving DecidableEq, Repr

def Rules.ofSettings (settings : Settings) (own : List Path) : Rules where
  extensions := settings.scriptExtensions
  skipped := settings.skippedDirNames
  own := own

/-- A regular file with the suffix of a script that is not one of our own. -/
def isScript (rules : Rules) (path : Path) (disk : Disk) : Except Fault Bool := do
  if Text.lowerString path.suffix ∉ rules.extensions then return false
  if ← disk.query Disk.isFile path then
    return !decide ((← disk.canonicalPath path) ∈ rules.own)
  return false

/-- Visit the scripts below a directory.  `look` gives the answers about the disk
at the moment they are asked for; `depth` bounds how far down a path can still be
named. -/
def foldM {m : Type → Type} [Monad m] {β : Type}
    (look : {α : Type} → (Disk → Except Fault α) → m α) (rules : Rules)
    (visit : β → Path → m β) : (depth : Nat) → Path → β → m β
  | 0, dir, _ => look fun _ => .error (.refused .nameTooLong (some dir.toString) none)
  | depth + 1, dir, acc => do
    let entries ← look (·.query Disk.list dir)
    entries.foldlM (fun acc entry => do
        let path := dir.child entry.1
        if entry.2 = .directory then
          if entry.1 ∈ rules.skipped then pure acc
          else foldM look rules visit depth path acc
        else if ← look (isScript rules path) then visit acc path
        else pure acc)
      acc

/-- All scripts below `root` as the disk stands. -/
def scripts (rules : Rules) (disk : Disk) (root : Path) : Except Fault (List Path) :=
  foldM (fun question => question disk) rules (fun found path => .ok (found ++ [path]))
    Disk.pathMax root []

/-- The scripts of a scan at the start of a walk. -/
def count (rules : Rules) (disk : Disk) (root : Path) : Except Fault Nat :=
  (scripts rules disk root).map List.length

/-- The text of an entry's path, a single dot before it not left out. -/
def entryText (dir : Path) (name : String) : String :=
  let text := dir.toString
  if text.toList.getLast? = some '/' then text ++ name else text ++ "/" ++ name

/-- An entry is a directory or a link that leads to one. -/
def leadsToDirectory (dir : Path) (entry : String × Kind) (disk : Disk) : Except Fault Bool :=
  match entry.2 with
  | .directory => .ok true
  | .file => .ok false
  | .link =>
    match disk.stat .followed (dir.child entry.1) with
    | .ok target => .ok (target.kind = .directory)
    | .error .notFound => .ok false
    | .error why => .error (.refused why (some (entryText dir entry.1)) none)

/-- The first entries are asked first, and no more than needed. -/
def anyM (test : String × Kind → Except Fault Bool) :
    List (String × Kind) → Except Fault Bool
  | [] => .ok false
  | entry :: rest => do if ← test entry then return true else anyM test rest

/-- A script lies in the directory itself. -/
def hasScript (rules : Rules) (disk : Disk) (dir : Path) : Except Fault Bool := do
  anyM (fun entry => do
      if ← leadsToDirectory dir entry disk then return false
      else isScript rules (dir.child entry.1) disk)
    (← disk.query Disk.list dir)

/-- The directories inside `base` that hold a script directly, or `base` itself if
there are none. -/
def discover (rules : Rules) (disk : Disk) (base : Path) : Except Fault (List Path) := do
  let entries ← disk.query Disk.list base
  let targets ← entries.filterMapM fun entry => do
    if !(← leadsToDirectory base entry disk) then return none
    if entry.1 ∈ rules.skipped then return none
    if ← hasScript rules disk (base.child entry.1) then return some (base.child entry.1)
    return none
  return if targets = [] then [base] else targets

end Unscramble.Scan
