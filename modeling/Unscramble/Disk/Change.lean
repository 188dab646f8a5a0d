import Unscramble.Disk.Basic

/-!
# Changing the disk

Each change resolves its path first and then inserts or erases at one location.
What was bound to an erased entry is lost with it.  A refused change leaves the
disk as it was.
-/

namespace Unscramble

/-- A place after what lies at or below `loc` has been removed. -/
def Standpoint.within (place : Standpoint) (loc : Loc) : Standpoint :=
  if loc <+: place.above then
    ⟨loc.dropLast, place.lost + (place.above.length + 1 - loc.length)⟩
  else place

/-- A place after what lies below `loc` has been removed. -/
def Standpoint.below (place : Standpoint) (loc : Loc) : Standpoint :=
  if loc <+: place.above then ⟨loc, place.lost + (place.above.length - loc.length)⟩ else place

namespace Disk

/-- The disk without what lies at or below `loc`. -/
def eraseWithin (disk : Disk) (loc : Loc) : Disk where
  tree := disk.tree.eraseWithin loc
  cwd := disk.cwd.within loc
  waiting := disk.waiting.map (·.within loc)
  log := disk.log.filter fun p => !decide (loc <+: p)

/-- The disk without what lies below `loc`, which itself stays. -/
def eraseBelow (disk : Disk) (loc : Loc) : Disk where
  tree := disk.tree.eraseBelow loc
  cwd := disk.cwd.below loc
  waiting := disk.waiting.map (·.below loc)
  log := disk.log.filter fun p => !decide (loc <+: p ∧ loc ≠ p)

/-- The disk for one who starts to work in a place while the others wait. -/
def enter (disk : Disk) (place : Standpoint) : Disk :=
  { disk with cwd := place, waiting := disk.cwd :: disk.waiting }

/-- The disk for the one who has waited. -/
def leave (disk : Disk) : Disk :=
  match disk.waiting with
  | cwd :: waiting => { disk with cwd, waiting }
  | [] => disk

def insert (disk : Disk) (loc : Loc) (entry : Entry) : Disk :=
  { disk with tree := disk.tree.insert loc entry }

/-- A new directory under a free name. -/
def makeDirectory (disk : Disk) (path : Path) : Except Refusal Disk := do
  match ← disk.find .itself path with
  | .vacant loc => .ok (disk.insert loc .directory)
  | .present _ _ | .removed => .error .occupied

/-- Remove a file or a link. -/
def unlink (disk : Disk) (path : Path) : Except Refusal Disk := do
  match ← disk.find .itself path with
  | .present _ .directory | .removed => .error .isDirectory
  | .present loc _ => .ok (disk.eraseWithin loc)
  | .vacant _ => .error .notFound

/-- Remove an empty directory, called by its own name. -/
def removeDirectory (disk : Disk) (path : Path) : Except Refusal Disk := do
  match path.parts.getLast? with
  | none => .error (if path.anchor = .here then .invalid else .busy)
  | some name =>
    match ← disk.find .itself path with
    | .present loc .directory =>
      if name = ".." ∨ disk.tree.listing loc ≠ [] then .error .notEmpty
      else .ok (disk.eraseWithin loc)
    | .present _ _ => .error .notDirectory
    | .vacant _ => .error .notFound
    | .removed => .error .notEmpty

/-- Remove everything inside the directory that `path` leads to. -/
def clear (disk : Disk) (path : Path) : Except Refusal Disk := do
  match ← disk.find .itself path with
  | .present loc .directory => .ok (disk.eraseBelow loc)
  | .present _ _ => .error .notDirectory
  | .vacant _ => .error .notFound
  | .removed => .ok disk

/-- The path does not end in a name of its own. -/
def endsUnnamed (path : Path) : Bool := path.parts.getLast?.all (· = "..")

/-- Give an entry of the tree another place, with all that lies below it. -/
def move (disk : Disk) (a b : Loc) (entry : Entry) : Disk :=
  let freed := disk.eraseWithin b
  let moved := (freed.tree.below a).foldl (fun tree item => tree.insert (b ++ item.1) item.2)
    ((freed.tree.eraseWithin a).insert b entry)
  let follow (p : Loc) : Loc := if a <+: p then b ++ p.drop a.length else p
  { tree := moved
    cwd := { freed.cwd with above := follow freed.cwd.above }
    waiting := freed.waiting.map fun place => { place with above := follow place.above }
    log := freed.log.map follow }

/-- Give an entry another name; what had that name is replaced.  A directory
replaces an empty directory only. -/
def rename (disk : Disk) (source target : Path) : Except Refusal Disk := do
  let found ← disk.find .itself source
  let goal ← disk.find .itself target
  if endsUnnamed source ∨ endsUnnamed target then throw .busy
  match found, goal with
  | .removed, _ | _, .removed => .error .busy
  | .vacant _, _ => .error .notFound
  | .present a .directory, .vacant b =>
    if a <+: b then .error .invalid else .ok (disk.move a b .directory)
  | .present a .directory, .present b .directory =>
    if a = b then .ok disk
    else if a <+: b then .error .invalid
    else if disk.tree.listing b ≠ [] then .error .notEmpty
    else .ok (disk.move a b .directory)
  | .present _ .directory, .present _ _ => .error .notDirectory
  | .present a _, .present b .directory => .error (if b <+: a then .notEmpty else .isDirectory)
  | .present a entry, .present b _ | .present a entry, .vacant b =>
    if a = b then .ok disk else .ok (disk.move a b entry)

/-- Where a file opened for writing at `path` lies; it is made if the name is
free. -/
def create (disk : Disk) (path : Path) : Except Refusal (Loc × Disk) := do
  match ← disk.find .making path with
  | .present loc (.file _ access) => if access.write then .ok (loc, disk) else .error .denied
  | .present _ _ | .removed => .error .isDirectory
  | .vacant loc => .ok (loc, disk.insert loc (.file [] {}))

/-- Replace the bytes of the file at `loc` and keep its mode. -/
def alter (disk : Disk) (loc : Loc) (change : Bytes → Bytes) : Disk :=
  match disk.tree.get? loc with
  | some (.file bytes access) => disk.insert loc (.file (change bytes) access)
  | _ => disk

def write (disk : Disk) (path : Path) (bytes : Bytes) : Except Refusal Disk := do
  let (loc, disk) ← disk.create path
  .ok (disk.alter loc fun _ => bytes)

def append (disk : Disk) (path : Path) (bytes : Bytes) : Except Refusal Disk := do
  let (loc, disk) ← disk.create path
  .ok (disk.alter loc (· ++ bytes))

/-- A link under a free name. -/
def makeLink (disk : Disk) (path : Path) (target : String) : Except Refusal Disk := do
  if target = "" then .error .notFound
  else if target.toList.contains '\x00' then .error .nul
  else if pathMax ≤ target.utf8ByteSize then .error .nameTooLong
  else
    match ← disk.find .itself path with
    | .vacant loc => .ok (disk.insert loc (.link target))
    | .present _ _ | .removed => .error .occupied

end Disk

end Unscramble
