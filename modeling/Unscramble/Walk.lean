import Unscramble.Detector
import Unscramble.Pipeline

/-!
# Walks

A walk takes every script of a directory in turn: it asks the detector and, if
the script is obfuscated, runs the pipeline.  What goes wrong with one file is
noted in its outcome and does not keep the others from being processed; a package
that cannot be installed and an interrupt end the walk.
-/

namespace Unscramble

/-- How a file has fared. -/
inductive FileStatus
  | deobfuscated
  | clean
  | failed
deriving DecidableEq, Repr

def FileStatus.text : FileStatus → String
  | deobfuscated => "deobfuscated"
  | clean => "clean"
  | failed => "failed"

structure Outcome where
  file : Path
  status : FileStatus
  report : Option Report := none
  error : Option String := none
deriving DecidableEq, Repr

/-- How directories are gone through: where lines are reported, what counts as a script and
what is done with each script. -/
structure Tour (σ : Type) where
  reporter : Reporter
  rules : Scan.Rules
  visit : List Outcome → Path → Act σ (List Outcome)

namespace Tour

variable {σ : Type}

/-- Visit every script below a directory. -/
def directory (tour : Tour σ) (directory : Path) : Act σ (List Outcome) := do
  let total ← Act.look (Scan.count tour.rules · directory)
  tour.reporter.info
    ("Processing directory: " ++ directory.toString ++ " (" ++ toString total ++ " files)")
  let outcomes ← Scan.foldM Act.look tour.rules tour.visit Disk.pathMax directory []
  tour.reporter.success ("All files processed in " ++ directory.toString ++ ".")
  return outcomes

/-- Go through one target; a script stands for the directory that holds it. -/
def target (tour : Tour σ) (target : Path) : Act σ (List Outcome) := do
  unless ← Act.ask Disk.present target do
    tour.reporter.warning ("Directory " ++ target.toString ++ " does not exist.")
    return []
  if ← Act.ask Disk.isDirectory target then tour.directory target
  else if ← Act.look (Scan.isScript tour.rules target) then
    tour.reporter.info ("Processing file: " ++ target.toString)
    tour.directory target.parent
  else
    tour.reporter.warning "The path provided is not a directory or a supported file type."
    return []

def targets (tour : Tour σ) (targets : List Path) : Act σ (List Outcome) :=
  targets.foldlM (fun outcomes target => do
      return outcomes ++ (← tour.target target))
    []

end Tour

/-- The text of a file, in strict UTF-8. -/
def readFile {σ : Type} (path : Path) : Act σ String := do
  match Text.read (← Act.ask Disk.readBytes path) with
  | .ok text => return text
  | .error what => throw (.malformed what)

namespace Engine

variable {σ : Type}

/-- Ask the detector about one file and, if it is obfuscated, run the steps. -/
def processFile (engine : Engine σ) (file : Path) : Act σ Outcome := do
  let content ← readFile file
  engine.reporter.info ("Processing " ++ file.toString ++ "...")
  unless ← engine.isObfuscated content do
    engine.reporter.info (file.toString ++ " is not obfuscated. Skipping...")
    return { file, status := .clean }
  engine.reporter.info ("Deobfuscating " ++ file.name ++ "...")
  let report ← engine.deobfuscate file
  engine.reporter.success (file.name ++ " has been deobfuscated and beautified.")
  return { file, status := .deobfuscated, report }

/-- Process one file of a walk.  A file that an earlier one's cleanup has removed
is passed over. -/
def visit (engine : Engine σ) (outcomes : List Outcome) (file : Path) :
    Act σ (List Outcome) := do
  unless ← Act.ask Disk.present file do
    engine.reporter.debug (file.toString ++ " no longer exists. Skipping...")
    return outcomes
  match ← Act.attempt (engine.processFile file) with
  | .ok outcome => return outcomes ++ [outcome]
  | .error (.install why) => throw (.install why)
  | .error fault =>
    if fault.endsRun then throw fault
    engine.reporter.error ("Failed to deobfuscate " ++ file.name ++ ": " ++ fault.message)
    return outcomes ++ [{ file, status := .failed, error := fault.message }]

/-- The tour that processes every script. -/
def tour (engine : Engine σ) : Tour σ := ⟨engine.reporter, engine.rules, engine.visit⟩

def processDirectory (engine : Engine σ) : Path → Act σ (List Outcome) := engine.tour.directory

def processTarget (engine : Engine σ) : Path → Act σ (List Outcome) := engine.tour.target

def processTargets (engine : Engine σ) : List Path → Act σ (List Outcome) := engine.tour.targets

end Engine

end Unscramble
