import Unscramble.Walk
import Unscramble.Proofs.Disk.Alike
import Unscramble.Proofs.Run

/-!
# Engines and disks to run

The theory is about every engine, every runner and every disk.  That its
assumptions can be met, and what happens where one of them is dropped, is shown on
small disks with an engine whose commands all behave alike.
-/

namespace Unscramble.Sample

/-- A disk with these entries, a directory before what it holds, seen from `cwd`. -/
def disk (entries : List (Loc × Entry)) (cwd : Loc := []) : Disk where
  tree := entries.foldl (fun tree x => tree.insert x.1 x.2) ∅
  cwd := ⟨cwd, 0⟩
  waiting := []
  log := none

def world (disk : Disk) : World Unit where
  disk := disk
  tools := ()
  now := ⟨2024, 1, 2, 3, 4, 5⟩

/-- The output of a detector that calls everything obfuscated. -/
def verdict : String := "\x7b\"type\": \"array_function\"\x7d"

/-- Every command succeeds and changes the disk in the same way. -/
def runner (change : Disk → Disk) : Runner Unit := fun command disk tools =>
  (.ok { args := command.argv, stdout := some verdict }, change disk, tools)

/-- Every command changes the disk and is interrupted. -/
def interrupted (change : Disk → Disk) : Runner Unit := fun _ disk tools =>
  (.error (.interrupt ""), change disk, tools)

def engine (runner : Runner Unit) (steps : List Step) (settings : Settings := {}) :
    Engine Unit where
  runner := runner
  reporter := { verbose := false, console := { width := 80, coloured := false } }
  settings := settings
  projectDir := ⟨.root, []⟩
  detectorScript := ⟨.root, ["detector.cjs"]⟩
  steps := steps

/-- An engine whose only step changes nothing. -/
def tidying : Engine Unit := engine (runner id) [Step.custom ["tidy"]]

theorem runner_failsAsCommand (change : Disk → Disk) : (runner change).FailsAsCommand := by
  intro command disk tools fault hfault
  cases hfault

theorem runner_keepsSound {change : Disk → Disk} (hchange : ∀ disk, disk.Sound → (change disk).Sound) :
    (runner change).KeepsSound := by
  intro command disk tools hsound
  exact hchange disk hsound

theorem interrupted_keepsSound {change : Disk → Disk}
    (hchange : ∀ disk, disk.Sound → (change disk).Sound) : (interrupted change).KeepsSound := by
  intro command disk tools hsound
  exact hchange disk hsound

/-- Every command writes its program's name to the path that is its last argument, and
fails where it cannot. -/
def writing : Runner Unit := fun command disk tools =>
  match disk.write (.ofString (command.argv.getLast?.getD ""))
      (Text.encode (command.argv.head?.getD "")) with
  | .ok disk' => (.ok { args := command.argv, stdout := some verdict }, disk', tools)
  | .error why => (.error (.command command.argv why.text (some 1)), disk, tools)

theorem writing_failsAsCommand : writing.FailsAsCommand := by
  intro command disk tools fault hfault
  unfold writing at hfault
  split at hfault
  · cases hfault
  · cases hfault
    exact ⟨_, _, _, rfl⟩

theorem writing_changes (command : Command) {disk : Disk} (tools : Unit) (hsound : disk.Sound) :
    (writing command disk tools).2.1.Sound ∧
      disk.tree.Alike (writing command disk tools).2.1.tree ∧
      (writing command disk tools).2.1.cwd = disk.cwd ∧
      (writing command disk tools).2.1.log = disk.log := by
  unfold writing
  split
  · next hwrite => exact hsound.write hwrite
  · exact ⟨hsound, fun _ => .inl rfl, rfl, rfl⟩

/-- Make a directory if that can be done. -/
def making (path : Path) (disk : Disk) : Disk :=
  match disk.makeDirectory path with
  | .ok disk' => disk'
  | .error _ => disk

theorem making_sound (path : Path) (disk : Disk) (hsound : disk.Sound) :
    (making path disk).Sound := by
  unfold making
  split
  · next hmake => exact hsound.makeDirectory hmake
  · exact hsound

/-- A file with leftovers of every kind at its artifacts. -/
def littered : Disk := disk
  [(["d"], .directory), (["d", "a.js"], .file [97] {}),
    (["d", "a.js.deobfuscated.js"], .link "nowhere"), (["d", "a.js.temp"], .link "../e"),
    (["d", "output_dir"], .directory), (["d", "output_dir", "entry.js"], .file [98] {}),
    (["e"], .directory)]

end Unscramble.Sample
