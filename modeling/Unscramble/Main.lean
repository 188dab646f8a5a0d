import Unscramble.Manifest
import Unscramble.Program

/-!
# The command

Reads a manifest from the standard input and runs the program on it: its words are
those of the command line, and its tools are the scripts that the manifest holds.
-/

namespace Unscramble

/-- Run the program on the disk of a manifest. -/
def runManifest (words : List String) (manifest : Manifest) (now : Moment) :
    Finish × World Unit :=
  let around : Surroundings :=
    { environment := manifest.environment
      console := ⟨80, false⟩
      detectorScript := .ofString "/opt/decryptex/detector.cjs" }
  runProgram words around
    (fun job => return (Launcher.ofSettings manifest.searchPath job.settings).runner)
    { disk := manifest.disk, tools := (), now }

end Unscramble

open Unscramble in
def main (words : List String) : IO UInt32 := do
  let text ← (← IO.getStdin).readToEnd
  match Json.read text with
  | .error _ =>
    IO.eprintln "The manifest is not valid JSON."
    return 2
  | .ok value =>
    let (finish, world) := runManifest words (.ofJson value) ⟨1970, 1, 1, 0, 0, 0⟩
    IO.print (String.join world.screen)
    for line in finish.errors do IO.eprintln line
    match finish.escaped with
    | some fault => IO.eprintln fault.message
    | none => pure ()
    return UInt32.ofNat (finish.status % 256).toNat
