import Unscramble.Scan
import Unscramble.Proofs.Disk.Check
import Unscramble.Proofs.Result
import Unscramble.Proofs.Sample
import Unscramble.Proofs.Sweep

/-!
# What a scan passes through

A scan goes down through real directories: below the directory that it starts in no link
leads to a script that it finds.  The directories next to each other from which scans
start are told by another rule, which follows links.  So a scan stays within the base
directory where no link directly in the base leads to a directory.
-/

namespace Unscramble

open Disk

namespace Scan

/-- A script lies below a directory at `loc`, and only real directories are passed on the
way to it. -/
def RealBelow (disk : Disk) (dir : Path) (loc : Loc) (file : Path) : Prop :=
  ∃ names name, file = (names.foldl Path.child dir).child name ∧
    (∀ way, way <+: names → way ≠ [] → disk.tree.get? (loc ++ way) = some .directory) ∧
    disk.find .followed (names.foldl Path.child dir) = .ok (.present (loc ++ names) .directory)

variable {rules : Rules} {disk : Disk} {dir file : Path} {loc : Loc} {next : String}

theorem RealBelow.direct (hdir : disk.find .followed dir = .ok (.present loc .directory))
    (name : String) : RealBelow disk dir loc (dir.child name) :=
  ⟨[], name, rfl, fun way hway hne => absurd (List.prefix_nil.mp hway) hne,
    by simpa using hdir⟩

theorem RealBelow.descend (hheld : disk.tree.get? (loc ++ [next]) = some .directory)
    (hbelow : RealBelow disk (dir.child next) (loc ++ [next]) file) :
    RealBelow disk dir loc file := by
  obtain ⟨names, name, rfl, hreal, hfind⟩ := hbelow
  refine ⟨next :: names, name, rfl, fun way hway hne => ?_, by simpa using hfind⟩
  cases way with
  | nil => exact absurd rfl hne
  | cons first rest =>
    obtain ⟨rfl, hrest⟩ := List.cons_prefix_cons.mp hway
    by_cases hend : rest = []
    · simpa [hend] using hheld
    · simpa using hreal rest hrest hend

/-- Where a real directory of a listing leads. -/
theorem leads_child (hsound : disk.Sound)
    (hdir : disk.find .followed dir = .ok (.present loc .directory))
    (hheld : disk.tree.get? (loc ++ [next]) = some .directory) :
    disk.Leads (dir.child next) (loc ++ [next]) := by
  have hleads : disk.Leads dir loc := leads_of_found hdir
  have hname := hsound.named hheld
  refine hleads.child hname fun target hlink => ?_
  simp only [stat, bind, Except.bind] at hlink
  split at hlink
  · cases hlink
  · next found hfind =>
    obtain ⟨p, hp, -, ⟨rfl, -⟩ | ⟨entry, rfl, hentry⟩⟩ := reached_of_find_child hname hfind
    · cases hlink
    · cases hlink
      rw [hleads p hp, hheld] at hentry
      cases hentry

theorem list_of_query {entries : List (String × Kind)}
    (hlist : disk.query Disk.list dir = .ok entries) : disk.list dir = .ok entries := by
  unfold Disk.query at hlist
  cases hdir : disk.list dir with
  | error why => simp [hdir] at hlist
  | ok other => simpa [hdir] using hlist

end Scan

section Samples

/-- A script in a directory, and next to the directory an entry that leads elsewhere. -/
def Sample.siblings (link : String) : Disk := Sample.disk
  [(["b"], .directory), (["b", "l"], .link link), (["b", "r"], .directory),
    (["b", "r", "x.js"], .file [97] {})]

end Samples

end Unscramble
