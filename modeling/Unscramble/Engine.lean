import Unscramble.Scan
import Unscramble.Status
import Unscramble.Step

/-!
# Engines

An engine is what a run is made of: the tools, the reporter, the settings, the
steps, the project that receives packages, and the script that asks the detector.
-/

namespace Unscramble

structure Engine (σ : Type) where
  runner : Runner σ
  reporter : Reporter
  settings : Settings
  projectDir : Path
  /-- The script that runs inside the project and asks the detector package. -/
  detectorScript : Path
  steps : List Step := Step.standard

namespace Engine

variable {σ : Type}

def rules (engine : Engine σ) : Scan.Rules :=
  .ofSettings engine.settings [engine.detectorScript]

def run (engine : Engine σ) (command : Command) : Act σ Completed :=
  Act.run engine.runner command

/-- Run a command and keep its failure as a value; any other fault goes through. -/
def tryRun (engine : Engine σ) (command : Command) : Act σ (Except Fault Completed) := do
  match ← Act.attempt (engine.run command) with
  | .ok completed => return .ok completed
  | .error (.command argv detail status) => return .error (.command argv detail status)
  | .error fault => throw fault

end Engine

end Unscramble
