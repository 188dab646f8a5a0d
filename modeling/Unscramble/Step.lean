import Unscramble.Workspace

/-!
# Steps

A step runs one tool on a file.  Tools differ in where they leave their output,
and each place has its rule for bringing the output back over the file.
-/

namespace Unscramble

variable {σ : Type}

/-- Move `artifact` over `target`.  An empty artifact is thrown away instead, so a
tool that failed after making its output file cannot blank the source. -/
def promote (artifact target : Path) : Act σ Bool := do
  unless ← Act.ask Disk.isFile artifact do return false
  if ← Act.ask Disk.isEmptyFile artifact then
    Act.change Disk.unlink artifact
    return false
  if ← Act.ask Disk.present target then
    Act.change Disk.unlink target
  match (← get).disk.rename artifact target with
  | .ok disk => modify fun w => { w with disk }
  | .error why =>
    throw (.refused why (some artifact.toString) (some target.toString))
  return true

/-- Where a tool leaves its output. -/
inductive Convention
  /-- In the file itself. -/
  | inPlace
  /-- In the staging directory, which is kept for the next tool. -/
  | outputDir
  /-- In the `.temp` sibling, a file or a directory. -/
  | tempSibling
  /-- In the `.deobfuscated.js` sibling. -/
  | siblingFile
deriving DecidableEq, Repr

structure Step where
  name : String
  description : String
  convention : Convention
  command : Workspace → Except Fault (List String)

namespace Convention

def promoteFrom (produced file : Path) : Act σ (Option Path) := do
  return if ← promote produced file then some produced else none

/-- Bring a tool's output back to the file; the artifact that was promoted. -/
def reconcile (ws : Workspace) : Convention → Act σ (Option Path)
  | inPlace => return none
  | outputDir => promoteFrom (ws.outputDir.child "entry.js") ws.file
  | tempSibling => do
    let temp ← Act.lift ws.temp
    if ← Act.ask Disk.isDirectory temp then
      let promoted ← promoteFrom (temp.child "deobfuscated.js") ws.file
      discard (Act.remove temp)
      return promoted
    else promoteFrom temp ws.file
  | siblingFile => do promoteFrom (← Act.lift ws.deobfuscated) ws.file

end Convention

namespace Step

def beautify : Step where
  name := "js-beautify"
  description := "Reformat the file in place with js-beautify"
  convention := .inPlace
  command ws :=
    .ok ["js-beautify", "-f", ws.file.toString, "-j", "-x", "--good-stuff", "-a", "-r"]

/-- A subcommand that writes into the staging directory. -/
def wakaru (subcommand : String) : Step where
  name := "@wakaru/cli " ++ subcommand
  description := "Run wakaru " ++ subcommand ++ " into the output directory"
  convention := .outputDir
  command ws :=
    .ok ["npx", "@wakaru/cli", subcommand, ws.file.toString, "--output", ws.outputDir.toString,
      "--force"]

def jsDeobfuscator : Step where
  name := "js-deobfuscator"
  description := "Rewrite the file with js-deobfuscator"
  convention := .inPlace
  command ws := .ok ["js-deobfuscator", "-i", ws.file.toString, "-o", ws.file.toString]

def restringer : Step where
  name := "restringer"
  description := "Rewrite the file with restringer"
  convention := .inPlace
  command ws := .ok ["restringer", ws.file.toString, "-o", ws.file.toString]

def webcrack : Step where
  name := "webcrack"
  description := "Run webcrack into the .temp sibling"
  convention := .tempSibling
  command ws := do
    return ["npx", "webcrack", ws.file.toString, "-o", (← ws.temp).toString, "-f"]

def synchrony : Step where
  name := "synchrony deobfuscate"
  description := "Run synchrony into the .deobfuscated.js sibling"
  convention := .siblingFile
  command ws := do
    return ["synchrony", "deobfuscate", ws.file.toString, "-o", (← ws.deobfuscated).toString]

/-- A command of one's own that changes the file in place, which is its last argument. -/
def custom (argv : List String) : Step where
  name := "base_step"
  description := "Base step class"
  convention := .inPlace
  command ws := .ok (argv ++ [ws.file.toString])

/-- The steps of a run, in order. -/
def standard : List Step :=
  [beautify, wakaru "unpacker", wakaru "unminify", jsDeobfuscator, restringer, webcrack, synchrony,
    beautify]

/-- The step that a name stands for. -/
def named? (name : String) : Option Step :=
  match name with
  | "js-beautify" => some beautify
  | "unpacker" => some (wakaru "unpacker")
  | "unminify" => some (wakaru "unminify")
  | "js-deobfuscator" => some jsDeobfuscator
  | "restringer" => some restringer
  | "webcrack" => some webcrack
  | "synchrony" => some synchrony
  | _ => none

end Step

end Unscramble
