import Unscramble.Scan
import Unscramble.Status

/-!
# Targets

Which directories a run walks: a directory that was asked for, the directory of a
file that was asked for, or what is found next to each other below the base
directory.
-/

namespace Unscramble

variable {σ : Type}

/-- The directories to walk.  A directory that is asked for wins over a file. -/
def selectTargets (reporter : Reporter) (settings : Settings) (rules : Scan.Rules)
    (file directory : Option Path) : Act σ (List Path) := do
  match directory, file with
  | some directory, _ =>
    unless ← Act.ask Disk.isDirectory directory do throw (.target .notDirectory)
    return [← Act.canonical directory]
  | none, some file =>
    unless ← Act.ask Disk.isFile file do throw (.target .notFile)
    return [(← Act.canonical file).parent]
  | none, none =>
    reporter.info "Scanning sibling directories..."
    let base ← settings.resolvedBaseDir
    let targets ← Act.look (Scan.discover rules · base)
    reporter.info "Scanning completed."
    if targets = [base] then
      if (← Act.look (Scan.count rules · base)) = 0 then throw (.target .nothing)
    return targets

end Unscramble
