import Unscramble.Engine
import Unscramble.Sweep

/-!
# The pipeline

A file goes through the steps one after the other.  A step that fails is noted
and the next one is tried; whatever a step has left is brought back all the same.
Nothing is rolled back.  The workspace is released when the run ends, however it
ends, and a run that comes to its end sweeps what is left.
-/

namespace Unscramble

structure StepResult where
  index : Nat
  name : String
  ok : Bool
  promoted : Option Path := none
  error : Option String := none
deriving DecidableEq, Repr

/-- The results of a file's steps, in order. -/
structure Report where
  file : Path
  results : List StepResult
deriving DecidableEq, Repr

namespace Report

def succeeded (report : Report) : Nat := (report.results.filter (·.ok)).length

def failed (report : Report) : Nat := report.results.length - report.succeeded

end Report

namespace Engine

variable {σ : Type}

/-- One step: its command, and then its output brought back. -/
def runStep (engine : Engine σ) (ws : Workspace) (index total : Nat) (step : Step) :
    Act σ StepResult := do
  let label := "Step " ++ toString index ++ "/" ++ toString total ++ ":"
  engine.reporter.info (label ++ " deobfuscate using " ++ step.name ++ " started.")
  let argv ← Act.lift (step.command ws)
  engine.reporter.debug (" ".intercalate argv)
  let ran ← engine.tryRun { argv, cwd := ws.file.parent }
  let error ← match ran with
    | .ok _ =>
      engine.reporter.info (label ++ " deobfuscate using " ++ step.name ++ " completed.")
      pure none
    | .error fault =>
      engine.reporter.error (label ++ " Error during deobfuscate using " ++ step.name ++ "!")
      engine.reporter.debug fault.message
      pure (some fault.message)
  match ← Act.attempt (step.convention.reconcile ws) with
  | .ok promoted => return { index, name := step.name, ok := error.isNone, promoted, error }
  | .error fault =>
    if fault.isRefusal then
      engine.reporter.error
        (label ++ " Could not reconcile output of " ++ step.name ++ ": " ++ fault.message)
      return { index, name := step.name, ok := false, error := some fault.message }
    else throw fault

/-- The steps from the given one on. -/
def runSteps (engine : Engine σ) (ws : Workspace) (total : Nat) :
    (index : Nat) → List Step → Act σ (List StepResult)
  | _, [] => return []
  | index, step :: rest => do
    let result ← engine.runStep ws index total step
    return result :: (← engine.runSteps ws total (index + 1) rest)

/-- Remove staging directories that were left over when a file is done. -/
def sweepAfter (engine : Engine σ) (file : Path) : Act σ (List Path) := do
  let root ← match engine.settings.cleanupScope with
    | .workingDirectory => Act.workingDirectory
    | .file => pure file.parent
  engine.reporter.debug "Cleaning up temporary data..."
  Sweep.sweep engine.reporter engine.settings.outputDirName root

/-- Send one file through the steps. -/
def deobfuscate (engine : Engine σ) (file : Path) : Act σ Report := do
  engine.reporter.info ("Deobfuscating file: " ++ file.toString)
  let results ← Workspace.use file engine.settings.outputDirName fun ws =>
    engine.runSteps ws engine.steps.length 1 engine.steps
  discard (engine.sweepAfter file)
  engine.reporter.success "Deobfuscation and cleanup completed successfully."
  return ⟨file, results⟩

end Engine

end Unscramble
