import Unscramble.Status
import Unscramble.Workspace

/-!
# Sweeping staging directories

A sweep removes every directory of one name below a root, and nothing else.
Links to directories are removed by that name too, but never entered.
-/

namespace Unscramble.Sweep

variable {σ : Type}

/-- The names in a directory that lead to directories. -/
def directoryNames (disk : Disk) (dir : Path) (entries : List (String × Kind)) : List String :=
  entries.filterMap fun (name, kind) =>
    let leads : Bool := match kind with
      | .directory => true
      | .file => false
      | .link => match disk.stat .followed (dir.child name) with
        | .ok entry => entry.kind = .directory
        | .error _ => false
    if leads then some name else none

/-- Remove `target` and report it. -/
def removeOne (reporter : Reporter) (target : Path) : Act σ (List Path) := do
  match ← Act.attempt (Act.remove target) with
  | .ok _ =>
    reporter.debug ("Cleaned up output directory: " ++ target.toString)
    return [target]
  | .error fault =>
    if fault.isRefusal then
      reporter.error
        ("Error cleaning up output directory: " ++ target.toString ++ " (" ++ fault.message ++ ")")
      return []
    else throw fault

/-- Sweep a directory and the real directories below it.  A directory that cannot
be listed is passed over; `depth` bounds how far down a path can still be named. -/
def sweepBelow (reporter : Reporter) (name : String) : (depth : Nat) → Path → Act σ (List Path)
  | 0, _ => return []
  | depth + 1, dir => do
    let disk := (← get).disk
    match disk.list dir with
    | .error _ => return []
    | .ok entries =>
      let names := directoryNames disk dir entries
      let here ← if name ∈ names then removeOne reporter (dir.child name) else pure []
      (names.filter (· ≠ name)).foldlM (fun removed next => do
          match (← get).disk.stat .itself (dir.child next) with
          | .ok (.link _) => return removed
          | _ => return removed ++ (← sweepBelow reporter name depth (dir.child next)))
        here

/-- Remove every directory called `name` below `root`; the paths removed. -/
def sweep (reporter : Reporter) (name : String) (root : Path) : Act σ (List Path) := do
  if ← Act.ask Disk.isDirectory root then
    sweepBelow reporter name Disk.pathMax root
  else return []

end Unscramble.Sweep
