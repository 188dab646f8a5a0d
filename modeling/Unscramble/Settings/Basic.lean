import Unscramble.World

/-!
# Settings

The settings of a run.  Defaults are those of a run without any configuration.
-/

namespace Unscramble

/-- Where staging directories are swept after each file. -/
inductive CleanupScope
  | file
  | workingDirectory
deriving DecidableEq, Repr

def CleanupScope.text : CleanupScope → String
  | file => "file"
  | workingDirectory => "cwd"

structure Settings where
  verbose : Bool := false
  baseDir : Option Path := none
  scriptExtensions : List String := [".js", ".cjs", ".mjs"]
  ignoredDirNames : List String := ["node_modules"]
  outputDirName : String := "output_dir"
  /-- Seconds; `none` means without limit. -/
  stepTimeout : Option Int := some 600
  cleanupScope : CleanupScope := .file
  autoInstall : Bool := true
  nodeProjectDir : Option Path := none
  detectorPackage : String := "obfuscation-detector"
  globalTools : List String :=
    ["@wakaru/cli", "js-deobfuscator", "js-beautify", "restringer", "webcrack", "deobfuscator"]
deriving DecidableEq, Repr

namespace Settings

/-- Directories that a scan never enters, the staging directory included. -/
def skippedDirNames (settings : Settings) : List String :=
  settings.ignoredDirNames ++ [settings.outputDirName]

/-- The directory whose subdirectories are offered as targets. -/
def resolvedBaseDir {σ : Type} (settings : Settings) : Act σ Path := do
  match settings.baseDir with
  | some path => Act.canonical path
  | none => Act.canonical (← Act.workingDirectory)

/-- The project that receives local packages. -/
def resolvedProjectDir {σ : Type} (settings : Settings) : Act σ Path := do
  match settings.nodeProjectDir with
  | some path => Act.canonical path
  | none => Act.canonical (← Act.workingDirectory)

end Settings

end Unscramble
