import Unscramble.Disk.Basic

/-!
# Canonical paths

A canonical path is absolute and passes through no link.  It is found by
replacing links from left to right as long as they can be read; from the first
missing name on the rest is taken as it is written.  A link that leads back to
itself ends the search where it was met.
-/

namespace Unscramble.Disk

def locPath (loc : Loc) : Path := ⟨.root, loc⟩

/-- One step up without looking at the disk; above a relative start only `..`
itself can be written. -/
def lexicalParent (path : Path) : Path :=
  match path.anchor, path.parts.getLast? with
  | .here, none => ⟨.here, [".."]⟩
  | .here, some ".." => ⟨.here, path.parts ++ [".."]⟩
  | _, _ => path.parent

/-- Links already met, with what they stand for once that is known. -/
abbrev Met := List (Path × Option Path)

/-- A search either reaches the end of the names, or is cut short by a loop. -/
structure Unlinked where
  path : Path
  complete : Bool
  met : Met

/-- Replace the links in `names`, starting at `base`.  The target of a link is
handed to `enter`. -/
def unlinkNames (enter : Path → String → Met → Unlinked) (disk : Disk) (met : Met)
    (base : Path) : List String → Unlinked
  | [] => ⟨base, true, met⟩
  | name :: rest =>
    if name = "" ∨ name = "." then unlinkNames enter disk met base rest
    else if name = ".." then unlinkNames enter disk met (lexicalParent base) rest
    else
      let here := base.child name
      match disk.stat .itself here with
      | .ok (.link target) =>
        match met.lookup here with
        | some (some known) => unlinkNames enter disk met known rest
        | some none => ⟨here.join ⟨.here, rest⟩, false, met⟩
        | none =>
          let inner := enter base target ((here, none) :: met)
          if inner.complete then
            unlinkNames enter disk ((here, some inner.path) :: inner.met) inner.path rest
          else ⟨inner.path.join ⟨.here, rest⟩, false, inner.met⟩
      | _ => unlinkNames enter disk met here rest

/-- `depth` bounds how many links may be open at once. -/
def unlinkFrom (disk : Disk) : (depth : Nat) → Path → String → Met → Unlinked
  | 0, base, target, met => ⟨base.join (.ofString target), false, met⟩
  | depth + 1, base, target, met =>
    let start : Path := if (Path.ofString target).isAbsolute then ⟨.root, []⟩ else base
    unlinkNames (unlinkFrom disk depth) disk met start (Path.components target)

/-- Drop the names without meaning, and each `..` together with the name before it. -/
def collapse (parts : List String) : List String :=
  parts.foldl
    (fun kept name =>
      if name = ".." then kept.dropLast
      else if Path.Significant name then kept ++ [name]
      else kept)
    []

/-- Why a path has no canonical form. -/
inductive Uncanonical
  | refused (why : Refusal)
  | loop (path : Path)
deriving DecidableEq, Repr

/-- The canonical form of `path`. -/
def canonical (disk : Disk) (path : Path) : Except Uncanonical Path := do
  if path.hasNul then throw (.refused .nul)
  let found := (unlinkFrom disk (2 * disk.tree.links + 1) ⟨.here, []⟩ path.toString []).path
  let result ← match found.anchor with
    | .here => match disk.workingLoc? with
      | some cwd => pure (locPath (collapse (cwd ++ found.parts)))
      | none => throw (.refused .notFound)
    | _ => pure (locPath (collapse found.parts))
  match disk.stat .followed result with
  | .error .loop => throw (.loop result)
  | _ => return result

end Unscramble.Disk
