import Unscramble.Json.Reader
import Unscramble.Rehearsal

/-!
# Manifests

A manifest describes the disk that a run starts on, as a list of directories,
files and links.  They are made in order, each with the directories above it; an
item that cannot be made is left out.
-/

namespace Unscramble

/-- One entry of the disk and where it lies. -/
inductive Planted
  | directory (path : Path)
  | file (path : Path) (bytes : Bytes) (access : Access)
  | link (path : Path) (target : String)
deriving DecidableEq, Repr

structure Manifest where
  items : List Planted
  cwd : Path
  environment : List (String × String)
  searchPath : String

namespace Planted

/-- Let the owner of a file do so much with it. -/
def allow (disk : Disk) (path : Path) (access : Access) : Disk :=
  match disk.find .followed path with
  | .ok (.present loc (.file bytes _)) => disk.insert loc (.file bytes access)
  | _ => disk

def plant : Planted → Act Unit Unit
  | directory path => Act.makeDirectories path.parts.length path
  | file path bytes access => do
    Deed.makeParents path
    Act.change (fun disk p => disk.write p bytes) path
    modify fun w => { w with disk := allow w.disk path access }
  | link path target => do
    Deed.makeParents path
    Act.change (fun disk p => disk.makeLink p target) path

/-- A disk with these entries on it. -/
def disk (items : List Planted) (cwd : Path) : Disk :=
  let world : World Unit :=
    { disk := ⟨∅, ⟨[], 0⟩, [], none⟩, tools := (), now := ⟨0, 0, 0, 0, 0, 0⟩ }
  let all : Act Unit Unit := items.forM fun item => discard (Act.attempt item.plant)
  let planted := match all world with
    | .ok _ w | .error _ w => w.disk
  match planted.find .followed cwd with
  | .ok (.present loc .directory) => { planted with cwd := ⟨loc, 0⟩ }
  | _ => planted

end Planted

namespace Manifest

def textOf (v : Json) : String :=
  match v with
  | .string s => s.toString?.getD ""
  | _ => ""

def textAt (v : Json) (key : String) : String := ((v.member? key).map textOf).getD ""

/-- An item is a link if it has a target, a file if it has a text, and else a
directory. -/
def itemOf (v : Json) : Planted :=
  let path := Path.ofString (textAt v "path")
  match v.member? "target", v.member? "text" with
  | some target, _ => .link path (textOf target)
  | none, some text =>
    let executable := match v.member? "executable" with
      | some (.bool b) => b
      | _ => false
    .file path (Text.encode (textOf text)) { execute := executable }
  | none, none => .directory path

def pairOf (member : CodePoints × Json) : Option (String × String) :=
  member.1.toString?.map fun key => (key, textOf member.2)

/-- The manifest that a JSON value describes. -/
def ofJson (v : Json) : Manifest where
  items := match v.member? "items" with
    | some (.array items) => items.map itemOf
    | _ => []
  cwd := .ofString (textAt v "cwd")
  environment := match v.member? "environment" with
    | some (.object members) => members.filterMap pairOf
    | _ => []
  searchPath := textAt v "path"

/-- The disk that a manifest describes. -/
def disk (manifest : Manifest) : Disk := Planted.disk manifest.items manifest.cwd

end Manifest

end Unscramble
