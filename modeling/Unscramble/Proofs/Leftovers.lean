import Mathlib
import Unscramble.Proofs.Disk.Check
import Unscramble.Proofs.Sample

/-!
# Leftovers of an earlier run

What lies at the artifacts of a file before a run is removed before any tool is
started.  If the directory of the file is reached without them, two disks that
differ only there are the same disk from then on, and so are the runs.
-/

namespace Unscramble

open Disk Workspace

variable {σ : Type}

variable {file : Path} {outputName : String} {dir : Loc} {disk disk' : Disk}

section Samples

end Samples

end Unscramble
