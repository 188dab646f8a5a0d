import Unscramble.Proofs.Faults
import Unscramble.Proofs.Result
import Unscramble.Proofs.Sample

/-!
# What ends a walk

Whatever goes wrong with a file is noted in its outcome.  What ends the walk is a package
that cannot be installed, or a question that the walk itself asks about the disk on its
way from file to file and that is refused.
-/

namespace Unscramble

variable {σ : Type}

/-- The fault of a question that is asked on the way from file to file. -/
inductive Scan.Asked (rules : Rules) : Fault → Prop
  | listing {disk : Disk} {dir : Path} {fault : Fault}
      (hlist : disk.query Disk.list dir = .error fault) : Asked rules fault
  | kind {disk : Disk} {path : Path} {fault : Fault}
      (hscript : isScript rules path disk = .error fault) : Asked rules fault
  | presence {disk : Disk} {path : Path} {fault : Fault}
      (hpresent : disk.query Disk.present path = .error fault) : Asked rules fault
  | depth (dir : Path) : Asked rules (.refused .nameTooLong (some dir.toString) none)

namespace Engine

variable {engine : Engine σ}

end Engine

section Samples

end Samples

end Unscramble
