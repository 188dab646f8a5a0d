import Unscramble.World
import Unscramble.Disk.Change

/-!
# Workspaces

While a file is processed its tools write to three places besides the file: a
staging directory next to it and two siblings named after it.  These artifacts
belong to the run.  They are removed before it starts, so that leftovers cannot
pass for fresh output, and again when it ends, however it ends.
-/

namespace Unscramble

structure Workspace where
  file : Path
  outputDir : Path
deriving DecidableEq, Repr

namespace Workspace

def ofFile (file : Path) (outputName : String) : Workspace :=
  ⟨file, file.parent.join (.ofString outputName)⟩

/-- The path next to the file whose name has `ending` added. -/
def sibling (ws : Workspace) (ending : String) : Except Fault Path :=
  match ws.file.withName? (ws.file.name ++ ending) with
  | some path => .ok path
  | none => .error (.noName ws.file)

def temp (ws : Workspace) : Except Fault Path := ws.sibling ".temp"

def deobfuscated (ws : Workspace) : Except Fault Path := ws.sibling ".deobfuscated.js"

def artifacts (ws : Workspace) : Except Fault (List Path) := do
  return [ws.outputDir, ← ws.temp, ← ws.deobfuscated]

end Workspace

variable {σ α : Type}

namespace Act

/-- Take a value or stop with its fault. -/
def lift (value : Except Fault α) : Act σ α :=
  match value with
  | .ok value => pure value
  | .error fault => throw fault

/-- Remove a file, a link or a directory with all it holds; `false` if nothing
was there. -/
def remove (path : Path) : Act σ Bool := do
  if (← ask Disk.isDirectory path) && !(← ask Disk.isLink path) then
    change Disk.clear path
    change Disk.removeDirectory path
    return true
  if (← ask Disk.present path) || (← ask Disk.isLink path) then
    change Disk.unlink path
    return true
  return false

/-- A directory that may be there already. -/
def ensureDirectory (path : Path) (onMissing : Act σ Unit) : Act σ Unit := do
  match (← get).disk.makeDirectory path with
  | .ok disk => modify fun w => { w with disk }
  | .error .notFound => onMissing
  | .error why =>
    if why = .nul ∨ (← ask Disk.isDirectory path) = false then
      throw (.refused why (some path.toString) none)

/-- A directory, with the directories above it where they are missing; `levels`
bounds how many of those may be. -/
def makeDirectories : (levels : Nat) → Path → Act σ Unit
  | 0, path => ensureDirectory path (throw (.refused .notFound (some path.toString) none))
  | levels + 1, path => ensureDirectory path do
    if path.parent = path then throw (.refused .notFound (some path.toString) none)
    makeDirectories levels path.parent
    ensureDirectory path (throw (.refused .notFound (some path.toString) none))

end Act

namespace Workspace

/-- Remove whatever lies at the artifacts. -/
def release (ws : Workspace) : Act σ Unit := do
  (← Act.lift ws.artifacts).forM fun artifact => discard (Act.remove artifact)

/-- Run `body` in the workspace of a file. -/
def use (file : Path) (outputName : String) (body : Workspace → Act σ α) : Act σ α := do
  let ws := ofFile file outputName
  ws.release
  Act.makeDirectories ws.outputDir.parts.length ws.outputDir
  Act.always (body ws) ws.release

end Workspace

end Unscramble
