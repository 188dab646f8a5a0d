import Unscramble.Json.Reader
import Unscramble.Packages

/-!
# The detector

A file goes through the steps only if the detector names a kind of obfuscation
in it.  The detector reads the text from its input and answers with a JSON object
whose member `type` is the verdict; no verdict, or null, means clean.
-/

namespace Unscramble

/-- The verdict in a detector's output. -/
def verdict (output : String) : Except Fault Json :=
  match Json.read output with
  | .error .malformed => .error (.detection (.unexpected output))
  | .error (.deepNesting container) => .error (.deepNesting container)
  | .error (.longInteger digits) => .error (.longInteger digits)
  | .ok (.object members) => .ok (((Json.object members).member? "type").getD .null)
  | .ok _ => .error (.detection (.unexpected output))

namespace Engine

variable {σ : Type}

def detectCommand (engine : Engine σ) (content : String) : Command where
  argv := ["node", engine.detectorScript.toString, engine.settings.detectorPackage]
  cwd := engine.projectDir
  capture := true
  input := content

/-- The detector's verdict on a text. -/
def classify (engine : Engine σ) (content : String) : Act σ Json := do
  discard (engine.ensure .project engine.settings.detectorPackage)
  match ← engine.tryRun (engine.detectCommand content) with
  | .error fault => throw (.detection (.failed fault.message))
  | .ok completed => Act.lift (verdict (completed.stdout.getD ""))

def isObfuscated (engine : Engine σ) (content : String) : Act σ Bool := do
  match ← engine.classify content with
  | .null => return false
  | _ => return true

end Engine

end Unscramble
