import Unscramble.Script.Tool.Text

/-!
# Tools for files

Tools that copy, move, make and remove files and directories.  Each operand is dealt
with by itself: a refusal is a complaint, and the tool goes on with the next one.
-/

namespace Unscramble.Script

/-- The entry that an operand names. -/
def entryOf (manner : Disk.Manner) (operand : Octets) : Run (Except Refusal Entry) :=
  ask (fun disk path => disk.stat manner path) operand

def isDirectoryNamed (operand : Octets) : Run Bool := do
  match ← entryOf .followed operand with
  | .ok entry => return entry.kind = .directory
  | .error _ => return false

/-- Where an operand leads, if there is something. -/
def placeOf? (manner : Disk.Manner) (operand : Octets) : Run (Option Loc) := do
  match ← ask (fun disk path => disk.find manner path) operand with
  | .ok (.present loc _) => return some loc
  | _ => return none

/-- Change the disk at a path; a slash at the end of the name of a directory says
nothing new. -/
def changeAt (change : Disk → Path → Except Refusal Disk) (operand : Octets) :
    Run (Except Refusal Unit) := do
  match ← ask change operand with
  | .ok disk =>
    modify fun shell => { shell with disk }
    return .ok ()
  | .error why => return .error why

/-- The name of something in a directory. -/
def inside (directory name : Octets) : Octets :=
  if directory.getLast? = some '/' then directory ++ name else directory ++ '/' :: name

def refuse (tool text : Octets) (why : Refusal) : Run Bool := do
  complain tool (text ++ ": ".toList ++ why.text.toList)
  return false

def endsInSlash (s : Octets) : Bool := s.getLast? = some '/'

/-- What a name with a slash at its end is refused for where no directory is. -/
def creationRefusal (target : Octets) (why : Refusal) : Refusal :=
  if endsInSlash target ∧ (why = .isDirectory ∨ why = .notFound) then .notDirectory else why

/-! ## Several sources and one target -/

/-- Deal with each source and the target, or the name of the source in it. -/
def towards (tool : Octets) (asFile : Bool) (operands : List Octets)
    (act : Octets → Octets → Run Bool) : Run Nat := do
  match operands.reverse with
  | [] => misuse tool "missing file operand".toList
  | [only] => misuse tool ("missing destination file operand after ".toList ++ quotedName only)
  | target :: sources =>
    let into := !asFile && (← isDirectoryNamed target)
    let sources := sources.reverse
    match sources, into with
    | [source], false => return if ← act source target then 0 else 1
    | sources, true =>
      forOperands sources fun source => act source (inside target (lastName source))
    | _, false =>
      let why := match ← entryOf .followed target with
        | .ok _ => Refusal.notDirectory
        | .error why => why
      complain tool ("target ".toList ++ quotedName target ++ ": ".toList ++ why.text.toList)
      return 1

/-! ## Copying -/

/-- Copy a file, a link or an empty directory. -/
def copyEntry (tool : Octets) (given : Given) (source target : Octets) (entry : Entry) :
    Run Bool := do
  let old ← entryOf .itself target
  let creation (what : String) (why : Refusal) : Run Bool :=
    refuse tool (("cannot create " ++ what ++ " ").toList ++ quotedName target) why
  let report : Run Bool := do
    if given.has 'v' then
      discard <| write 1 (quotedName source ++ " -> ".toList ++ quotedName target ++ ['\n'])
    return true
  match entry, old with
  | .directory, .ok found =>
    match found, ← isDirectoryNamed target with
    | _, true => return true
    | _, false =>
      complain tool ("cannot overwrite non-directory ".toList ++ quotedName target
        ++ " with directory ".toList ++ quotedName source)
      return false
  | .directory, .error _ =>
    match ← changeAt Disk.makeDirectory (dropSlashes target) with
    | .ok _ => report
    | .error why => creation "directory" why
  | _, .ok .directory =>
    complain tool
      ("cannot overwrite directory ".toList ++ quotedName target ++ " with non-directory".toList)
    return false
  | .link destination, old =>
    if old.isOk then discard <| changeAt Disk.unlink target
    match ← changeAt (fun disk path => disk.makeLink path destination) target with
    | .ok _ => report
    | .error why => creation "symbolic link" why
  | .file bytes access, old =>
    if given.has 'n' ∧ old.isOk then return true
    if ¬ access.read then
      return ← refuse tool ("cannot open ".toList ++ quotedName source ++ " for reading".toList)
        .denied
    let reached ← entryOf .followed target
    match old, reached with
    | .ok (.link _), .error _ =>
      complain tool ("not writing through dangling symlink ".toList ++ quotedName target)
      return false
    | _, _ =>
      let store (disk : Disk) (path : Path) : Except Refusal Disk := do
        let (loc, disk) ← disk.create path
        match old with
        | .ok _ => return disk.alter loc fun _ => bytes
        | .error _ => return disk.insert loc (.file bytes access)
      match ← changeAt store target with
      | .ok _ => report
      | .error why =>
        if given.has 'f' ∧ why = .denied then
          discard <| changeAt Disk.unlink target
          match ← changeAt (fun disk path => do
              let (loc, disk) ← disk.create path
              return disk.insert loc (.file bytes access)) target with
          | .ok _ => report
          | .error why => creation "regular file" why
        else creation "regular file" (creationRefusal target why)

/-- Copy one source, with what lies in it. -/
def copyOne (tool : Octets) (given : Given) (source target : Octets) : Run Bool := do
  let recursive := given.has 'r'
  let manner := if recursive ∨ given.has 'P' then Disk.Manner.itself else .followed
  match ← entryOf manner source with
  | .error why => refuse tool ("cannot stat ".toList ++ quotedName source) why
  | .ok entry =>
    match ← entryOf .followed target with
    | .error .notDirectory =>
      if endsInSlash target ∧ entry.kind = .directory then pure ()
      else return ← refuse tool ("cannot stat ".toList ++ quotedName target) .notDirectory
    | _ => pure ()
    if entry.kind = .directory ∧ ¬ recursive then
      complain tool ("-r not specified; omitting directory ".toList ++ quotedName source)
      return false
    let from? ← placeOf? manner source
    let to? ← placeOf? .followed target
    if from?.isSome ∧ from? = to? ∧ entry.kind ≠ .directory then
      complain tool (quotedName source ++ " and ".toList ++ quotedName target
        ++ " are the same file".toList)
      return false
    let tree := (← get).disk.tree
    let below := match from? with
      | some loc => if entry.kind = Kind.directory then tree.below loc else []
      | none => []
    let made ← copyEntry tool given source target entry
    if ¬ made then return false
    let goal? ← placeOf? .followed target
    let ok ← below.foldlM (fun ok (names, entry) => do
        let name := Octets.ofString ("/".intercalate names)
        let copied ← copyEntry tool given (inside source name) (inside target name) entry
        return ok && copied)
      true
    match from?, goal? with
    | some loc, some goal =>
      if entry.kind = .directory ∧ loc <+: goal then
        complain tool ("cannot copy a directory, ".toList ++ quotedName source
          ++ ", into itself, ".toList ++ quotedName target)
        return false
    | _, _ => pure ()
    return ok

def copyTable : OptionTable :=
  { plain := "rRapfvnidPTu".toList
    long := [("recursive", 'r'), ("force", 'f'), ("archive", 'a'), ("verbose", 'v'),
      ("no-clobber", 'n')] }

def copy (tool : Octets) (args : List Octets) : Run Nat :=
  withOptions copyTable tool args fun given => do
    let deep := given.has 'r' || given.has 'R' || given.has 'a'
    let given := if deep then { given with options := ('r', []) :: given.options } else given
    let given := if given.has 'd' then { given with options := ('P', []) :: given.options } else given
    towards tool (given.has 'T') given.operands (copyOne tool given)

/-! ## Moving -/

def moveOne (tool : Octets) (given : Given) (source target : Octets) : Run Bool := do
  let old ← entryOf .itself target
  match ← entryOf .itself source, old with
  | .error why, _ => refuse tool ("cannot stat ".toList ++ quotedName source) why
  | .ok _, .error .notDirectory =>
    refuse tool ("cannot stat ".toList ++ quotedName target) .notDirectory
  | .ok entry, old =>
    let here ← placeOf? .itself source
    let there ← placeOf? .itself target
    let reached ← placeOf? .followed source
    let same := there.isSome && (here = there || (entry.kind = .link && reached = there))
    if same then
      complain tool (quotedName source ++ " and ".toList ++ quotedName target
        ++ " are the same file".toList)
      return false
    if given.has 'n' ∧ old.isOk then return true
    let isDirectory := entry.kind = .directory
    match old with
    | .ok found =>
      if found.kind = .directory ∧ ¬ isDirectory then
        complain tool ("cannot overwrite directory ".toList ++ quotedName target
          ++ " with non-directory".toList)
        return false
      if found.kind ≠ .directory ∧ isDirectory then
        complain tool ("cannot overwrite non-directory ".toList ++ quotedName target
          ++ " with directory ".toList ++ quotedName source)
        return false
    | .error _ => pure ()
    let bare (s : Octets) : Octets := if isDirectory then dropSlashes s else s
    let disk := (← get).disk
    let renamed : Except Refusal Disk := do
      let source ← pathOf (bare source)
      let target ← pathOf (bare target)
      disk.rename source target
    match renamed with
    | .ok disk =>
      modify fun shell => { shell with disk }
      if given.has 'v' then
        discard <| write 1
          ("renamed ".toList ++ quotedName source ++ " -> ".toList ++ quotedName target ++ ['\n'])
      return true
    | .error .invalid =>
      complain tool ("cannot move ".toList ++ quotedName source
        ++ " to a subdirectory of itself, ".toList ++ quotedName target)
      return false
    | .error .notEmpty => refuse tool ("cannot overwrite ".toList ++ quotedName target) .notEmpty
    | .error why =>
      refuse tool
        ("cannot move ".toList ++ quotedName source ++ " to ".toList ++ quotedName target)
        (creationRefusal target why)

def moveTable : OptionTable :=
  { plain := "fnviTu".toList
    long := [("force", 'f'), ("no-clobber", 'n'), ("verbose", 'v')] }

def move (tool : Octets) (args : List Octets) : Run Nat :=
  withOptions moveTable tool args fun given =>
    towards tool (given.has 'T') given.operands (moveOne tool given)

/-! ## Removing -/

/-- Remove a directory with all that lies in it. -/
def removeAll (disk : Disk) (path : Path) : Except Refusal Disk := do
  (← disk.clear path).removeDirectory path

def removeOne (tool : Octets) (given : Given) (operand : Octets) : Run Bool := do
  let deep := given.has 'r' || given.has 'R'
  let name := lastName operand
  let cannot (why : Refusal) : Run Bool := refuse tool ("cannot remove ".toList ++ quotedName operand) why
  let report (what : String) : Run Bool := do
    if given.has 'v' then discard <| write 1 (("removed " ++ what).toList ++ quotedName operand ++ ['\n'])
    return true
  match ← entryOf .itself operand with
  | .error why =>
    if given.has 'f' ∧ (why = .notFound ∨ why = .notDirectory) then return true else cannot why
  | .ok .directory =>
    if deep ∧ (name = ['.'] ∨ name = ['.', '.']) then
      complain tool ("refusing to remove '.' or '..' directory: skipping ".toList
        ++ quotedName operand)
      return false
    else if deep then
      let tree := (← get).disk.tree
      let below := (← placeOf? .itself (dropSlashes operand)).elim [] tree.below
      if given.has 'v' then
        below.reverse.forM fun (names, entry) => do
          let whole := inside operand (Octets.ofString ("/".intercalate names))
          let what := if entry.kind = .directory then "removed directory " else "removed "
          discard <| write 1 (what.toList ++ quotedName whole ++ ['\n'])
      match ← changeAt removeAll (dropSlashes operand) with
      | .ok _ => report "directory "
      | .error why => cannot why
    else if given.has 'd' then
      match ← changeAt Disk.removeDirectory (dropSlashes operand) with
      | .ok _ => report "directory "
      | .error why => cannot why
    else cannot .isDirectory
  | .ok _ =>
    match ← changeAt Disk.unlink operand with
    | .ok _ => report ""
    | .error why => cannot why

def removeTable : OptionTable :=
  { plain := "frRdvi".toList
    long := [("force", 'f'), ("recursive", 'r'), ("dir", 'd'), ("verbose", 'v')] }

def remove (tool : Octets) (args : List Octets) : Run Nat :=
  withOptions removeTable tool args fun given => do
    if given.operands = [] ∧ ¬ given.has 'f' then misuse tool "missing operand".toList
    else forOperands given.operands (removeOne tool given)

/-- A path and those above it, as long as they have a name. -/
def withParents : (fuel : Nat) → Octets → List Octets
  | 0, _ => []
  | fuel + 1, operand =>
    let parent := directoryName operand
    if parent = ['.'] ∨ parent = ['/'] then [operand] else operand :: withParents fuel parent

def removeDirectories (tool : Octets) (args : List Octets) : Run Nat :=
  withOptions { plain := "pv".toList, long := [("parents", 'p')] } tool args fun given => do
    if given.operands = [] then misuse tool "missing operand".toList
    else
      forOperands given.operands fun operand => do
        let all := if given.has 'p' then withParents operand.length operand else [operand]
        let (ok, _) ← all.foldlM (fun ((ok, first) : Bool × Bool) place => do
            if ¬ ok then return (false, false)
            match ← changeAt Disk.removeDirectory (dropSlashes place) with
            | .ok _ => return (true, false)
            | .error why =>
              let what := if first then "" else "directory "
              let gone ← refuse tool
                (("failed to remove " ++ what).toList ++ quotedName place) why
              return (gone, false))
          (true, true)
        return ok

/-! ## Making -/

/-- Make a directory and those above it that are missing. -/
def makePath (tool : Octets) (given : Given) (operand : Octets) : Run Bool := do
  let names := (dropSlashes operand).splitOn '/'
  let places := (List.range names.length).map fun n => ['/'].intercalate (names.take (n + 1))
  let places := places.filter fun place => place ≠ [] && endsInSlash place = false
  let places := if places = [] then [operand] else places
  let (ok, _) ← places.foldlM (fun ((ok, left) : Bool × Nat) place => do
      if ¬ ok then return (false, 0)
      match ← entryOf .followed place with
      | .ok .directory => return (true, left - 1)
      | .ok _ =>
        let why := if left ≤ 1 then Refusal.occupied else .notDirectory
        let made ← refuse tool ("cannot create directory ".toList ++ quotedName place) why
        return (made, 0)
      | .error _ =>
        match ← changeAt Disk.makeDirectory place with
        | .ok _ =>
          if given.has 'v' then
            discard <| write 1
              (tool ++ ": created directory ".toList ++ quotedName place ++ ['\n'])
          return (true, left - 1)
        | .error why =>
          let made ← refuse tool ("cannot create directory ".toList ++ quotedName place) why
          return (made, 0))
    (true, places.length)
  return ok

def makeOne (tool : Octets) (given : Given) (operand : Octets) : Run Bool := do
  let bare := dropSlashes operand
  match ← changeAt Disk.makeDirectory (if bare = [] then operand else bare) with
  | .ok _ =>
    if given.has 'v' then
      discard <| write 1 (tool ++ ": created directory ".toList ++ quotedName operand ++ ['\n'])
    return true
  | .error why => refuse tool ("cannot create directory ".toList ++ quotedName operand) why

def makeTable : OptionTable :=
  { plain := "pv".toList
    valued := "m".toList
    long := [("parents", 'p'), ("verbose", 'v')] }

def makeDirectories (tool : Octets) (args : List Octets) : Run Nat :=
  withOptions makeTable tool args fun given => do
    if given.operands = [] then misuse tool "missing operand".toList
    else
      forOperands given.operands
        (if given.has 'p' then makePath tool given else makeOne tool given)

/-- Make files that are missing. -/
def touch (tool : Octets) (args : List Octets) : Run Nat :=
  withOptions { plain := "camf".toList, valued := "dtr".toList } tool args fun given => do
    if given.operands = [] then misuse tool "missing file operand".toList
    else
      forOperands given.operands fun operand => do
        match ← entryOf .followed operand with
        | .ok _ => return true
        | .error why =>
          if given.has 'c' then return true
          else if endsInSlash operand then
            refuse tool ("setting times of ".toList ++ quotedName operand) why
          else
            match ← changeAt (fun disk path => disk.append path []) operand with
            | .ok _ => return true
            | .error why => refuse tool ("cannot touch ".toList ++ quotedName operand) why

/-- Make one link; a link that is not symbolic is a file of its own here. -/
def linkOne (tool : Octets) (given : Given) (source target : Octets) : Run Bool := do
  let symbolic := given.has 's'
  let entry ← entryOf .followed source
  match symbolic, entry with
  | false, .error why => refuse tool ("failed to access ".toList ++ quotedName source) why
  | false, .ok .directory =>
    complain tool (shownName source ++ ": hard link not allowed for directory".toList)
    return false
  | _, _ =>
    if given.has 'f' then discard <| changeAt Disk.unlink target
    let change (disk : Disk) (path : Path) : Except Refusal Disk :=
      match symbolic, entry with
      | false, .ok found => do
        match ← disk.find .itself path with
        | .vacant loc => return disk.insert loc found
        | _ => .error .occupied
      | _, _ => disk.makeLink path ((Octets.toString? source).getD "")
    match ← changeAt change target with
    | .ok _ => return true
    | .error why =>
      let what := if symbolic then "symbolic" else "hard"
      let arrow := if symbolic then " -> " else " => "
      let whole := if why = .occupied ∨ (symbolic ∧ source ≠ []) then []
        else arrow.toList ++ quotedName source
      refuse tool
        (("failed to create " ++ what ++ " link ").toList ++ quotedName target ++ whole) why

def makeLinks (tool : Octets) (args : List Octets) : Run Nat :=
  withOptions { plain := "sfnvT".toList, long := [("symbolic", 's'), ("force", 'f')] } tool args
    fun given => do
      match given.operands with
      | [] => misuse tool "missing file operand".toList
      | [only] =>
        return if ← linkOne tool given only (inside ['.'] (lastName only)) then 0 else 1
      | operands =>
        let isLink := match ← entryOf .itself (operands.getLastD []) with
          | .ok (.link _) => true
          | _ => false
        towards tool (given.has 'T' || (given.has 'n' && isLink)) operands (linkOne tool given)

/-! ## Listing -/

/-- The names in a directory that are shown. -/
def shownNames (given : Given) (directory : Octets) : Run (List Octets) := do
  match ← ask Disk.list directory with
  | .error _ => return []
  | .ok entries =>
    let names := entries.map fun entry => Octets.ofString entry.1
    if given.has 'a' then return ['.'] :: ['.', '.'] :: names
    else if given.has 'A' then return names
    else return names.filter (·.head? ≠ some '.')

/-- List the operands that are no directories, then the names in each that is one. -/
def listNames (tool : Octets) (args : List Octets) : Run Nat :=
  withOptions { plain := "1aAd".toList, misuseStatus := 2 } tool args fun given => do
    let operands := if given.operands = [] then [['.']] else given.operands
    let (status, found) ← operands.foldlM
      (fun ((status, found) : Nat × List (Octets × Bool)) operand => do
        match ← entryOf .followed operand, ← entryOf .itself operand with
        | .ok entry, _ | _, .ok entry =>
          return (status, found ++ [(operand, !given.has 'd' && entry.kind = .directory)])
        | .error why, _ =>
          discard <| refuse tool ("cannot access ".toList ++ quotedName operand) why
          return (2, found))
      (0, [])
    let sorted := (found.mergeSort fun a b => !decide (b.1 < a.1))
    let (directories, files) := sorted.partition (·.2)
    files.forM fun (name, _) => discard <| write 1 (name ++ ['\n'])
    directories.zipIdx.forM fun ((name, _), i) => do
      let head := (if i = 0 ∧ files = [] then [] else ['\n'])
        ++ (if operands.length = 1 then [] else name ++ ":\n".toList)
      let names ← shownNames given name
      discard <| write 1 (head ++ names.flatMap (· ++ ['\n']))
    return status

/-! ## Rights -/

/-- The rights that letters name. -/
def rightsOf (letters : Octets) : Access :=
  ⟨letters.contains 'r', letters.contains 'w', letters.contains 'x' || letters.contains 'X'⟩

/-- What one part of a mode makes of the rights of the owner. -/
def changeRights? (clause : Octets) : Option (Access → Access) :=
  let who := clause.takeWhile ("ugoa".toList.contains ·)
  let rest := clause.drop who.length
  match rest with
  | sign :: letters =>
    if ¬ letters.all ("rwxXst".toList.contains ·) then none
    else
      let named := rightsOf letters
      let concerns := who = [] || who.contains 'u' || who.contains 'a'
      let change? : Option (Access → Access) := match sign with
        | '+' => some fun a => ⟨a.read || named.read, a.write || named.write, a.execute || named.execute⟩
        | '-' => some fun a =>
          ⟨a.read && !named.read, a.write && !named.write, a.execute && !named.execute⟩
        | '=' => some fun _ => named
        | _ => none
      change?.map fun change => if concerns then change else id
  | [] => none

/-- What a mode makes of the rights of the owner: octal digits set them. -/
def mode? (s : Octets) : Option (Access → Access) :=
  if s ≠ [] ∧ s.all isOctal then
    let digit := Arithmetic.valueOf 8 s / 64 % 8
    some fun _ => ⟨digit / 4 % 2 = 1, digit / 2 % 2 = 1, digit % 2 = 1⟩
  else
    (s.splitOn ',').foldl (fun change? clause => do
        let change ← change?
        let next ← changeRights? clause
        return next ∘ change)
      (some id)

def changeModes (tool : Octets) (args : List Octets) : Run Nat := do
  let args := args.filter (· ≠ "-R".toList)
  match args with
  | [] => misuse tool "missing operand".toList
  | [only] => misuse tool ("missing operand after ".toList ++ quotedName only)
  | mode :: operands =>
    match mode? mode with
    | none => misuse tool ("invalid mode: ".toList ++ quotedName mode)
    | some change =>
      forOperands operands fun operand => do
        match ← ask (fun disk path => disk.find .followed path) operand with
        | .ok (.present loc (.file bytes access)) =>
          modify fun shell =>
            { shell with disk := shell.disk.insert loc (.file bytes (change access)) }
          return true
        | .ok _ => return true
        | .error why => refuse tool ("cannot access ".toList ++ quotedName operand) why

end Unscramble.Script
