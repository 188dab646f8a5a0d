import Unscramble.CommandLine.Help
import Unscramble.CommandLine.Reader
import Unscramble.Process
import Unscramble.Settings.Load
import Unscramble.Summary
import Unscramble.Targets

/-!
# The program

A run reads its command line and its settings, chooses what to walk, makes sure
the packages are there, walks, cleans up, and shows a summary.  The cleanup comes
whatever happens to the walk.
-/

namespace Unscramble

variable {σ : Type}

def bannerLines : List String :=
  ["",
   "    ██████╗ ██████╗  ██████╗██████╗ ██╗   ██╗██████╗ ████████╗██████╗ ██╗  ██╗",
   "    ██╔══██╗╚════██╗██╔════╝██╔══██╗╚██╗ ██╔╝██╔══██╗╚══██╔══╝╚════██╗╚██╗██╔╝",
   "    ██║  ██║ █████╔╝██║     ██████╔╝ ╚████╔╝ ██████╔╝   ██║    █████╔╝ ╚███╔╝",
   "    ██║  ██║ ╚═══██╗██║     ██╔══██╗  ╚██╔╝  ██╔═══╝    ██║    ╚═══██╗ ██╔██╗",
   "    ██████╔╝██████╔╝╚██████╗██║  ██║   ██║   ██║        ██║   ██████╔╝██╔╝ ██╗",
   "    ╚═════╝ ╚═════╝  ╚═════╝╚═╝  ╚═╝   ╚═╝   ╚═╝        ╚═╝   ╚═════╝ ╚═╝  ╚═╝",
   ""]

def banner : String := "\n".intercalate bannerLines

/-- Runs processes with the time that the settings give to each step. -/
def Launcher.ofSettings (searchPath : String) (settings : Settings) : Launcher :=
  { searchPath, limit := settings.stepTimeout.map .whole }

/-- What the banner shows on a console. -/
def Console.bannerText (console : Console) : String :=
  console.layOut (some "1;36") banner.toList

/-- Show text that is not markup. -/
def Act.display (text : String) : Act σ Unit :=
  modify fun w => { w with screen := w.screen ++ [text] }

/-- The end that a termination signal brings about, so that cleanup still runs. -/
def terminated (signal : Int) : Fault := .exit (.number (128 + signal))

/-- Sweep all roots of a run. -/
def Engine.finalCleanup (engine : Engine σ) (roots : List Path) : Act σ Unit := do
  engine.reporter.info "Cleaning up temporary data..."
  roots.forM fun root =>
    discard (Sweep.sweep engine.reporter engine.settings.outputDirName root)
  engine.reporter.info "Temporary data cleaned up successfully."

/-- The settings that options stand for; other settings come from elsewhere. -/
def Options.keywords (options : Options) : List (String × Json) :=
  (if options.verbose then [("verbose", .bool true)] else [])
    ++ (if options.noInstall then [("auto_install", .bool false)] else [])
    ++ (if options.cleanupHere then
        [("cleanup_scope", Json.ofString CleanupScope.workingDirectory.text)]
      else [])
    ++ (options.timeout.map fun n => ("step_timeout_seconds", Json.int n)).toList

/-- What a run needs besides its options. -/
structure Surroundings where
  environment : List (String × String)
  console : Console
  detectorScript : Path

/-- A run that knows what it has to walk. -/
structure Job where
  settings : Settings
  reporter : Reporter
  targets : List Path

/-- Report a fault that the user can mend, and end the run. -/
def Reporter.giveUp {α : Type} (reporter : Reporter) (fault : Fault) : Act σ α := do
  reporter.error fault.message
  throw (.exit (.number 1))

/-- Read the settings, open the log and choose what to walk. -/
def Options.prepare (options : Options) (around : Surroundings) : Act σ Job := do
  let settings ← Act.look (Settings.load options.keywords around.environment)
  let reporter : Reporter := ⟨settings.verbose, around.console⟩
  if options.debug then
    let path ← openLog options.debugFile
    around.console.put none
      ("[yellow]Debug logging enabled: " ++ path.toString ++ "[/yellow]").toList
  if settings.verbose then around.console.put none "Verbose mode enabled".toList
  Act.display around.console.bannerText
  let rules := Scan.Rules.ofSettings settings [around.detectorScript]
  match ← Act.attempt
      (selectTargets reporter settings rules options.file options.directory) with
  | .ok targets => return { settings, reporter, targets }
  | .error (.target why) => reporter.giveUp (.target why)
  | .error fault => throw fault

/-- Make sure the packages are there, and walk. -/
def Engine.walk (engine : Engine σ) (targets : List Path) : Act σ (List Outcome) := do
  engine.reporter.info "Checking dependencies..."
  let found ← engine.provision [engine.settings.detectorPackage] engine.settings.globalTools
  engine.reporter.info
    ("Dependencies ready (" ++ toString found.present.length ++ " present, "
      ++ toString found.installed.length ++ " installed).")
  engine.processTargets targets

/-- Do the work of a job. -/
def Job.perform (job : Job) (around : Surroundings) (runner : Runner σ) : Act σ Unit := do
  let engine : Engine σ := {
    runner
    reporter := job.reporter
    settings := job.settings
    projectDir := ← job.settings.resolvedProjectDir
    detectorScript := around.detectorScript }
  let roots ← match job.settings.cleanupScope with
    | .workingDirectory => pure [← Act.workingDirectory]
    | .file => pure job.targets
  let walked : Act σ (List Outcome) := do
    match ← Act.attempt (engine.walk job.targets) with
    | .ok outcomes => return outcomes
    | .error (.install why) => job.reporter.giveUp (.install why)
    | .error fault => throw fault
  let outcomes ← Act.always walked (engine.finalCleanup roots)
  showSummary around.console outcomes

/-- Serve a request.  The runner is made for the job. -/
def Request.serve (request : Request) (around : Surroundings)
    (makeRunner : Job → Act σ (Runner σ)) : Act σ Unit := do
  match request with
  | .help => Act.display (String.join (CommandLine.helpLines.map (· ++ "\n")))
  | .version => Act.display (CommandLine.versionText ++ "\n")
  | .run options =>
    let job ← options.prepare around
    job.perform around (← makeRunner job)

/-- How a run ends: the status it leaves, what it writes to the error stream, and a
fault that it was not prepared for. -/
structure Finish where
  status : Int
  errors : List String := []
  escaped : Option Fault := none
deriving DecidableEq, Repr

namespace Finish

def ofFault : Fault → Finish
  | .exit .nothing => { status := 0 }
  | .exit (.number code) => { status := code }
  | .exit (.text _) => { status := 1 }
  | .interrupt _ => { status := 1, errors := ["Aborted!"] }
  | fault => { status := 1, escaped := some fault }

def ofRejection : CommandLine.Rejection → Finish
  | .usage fault => { status := 2, errors := CommandLine.refusalLines fault }
  | .fault fault => .ofFault fault

/-- What a fault that ends a run still shows. -/
def lastWords : Fault → List String
  | .exit (.text note) => [note ++ "\n"]
  | _ => []

end Finish

/-- Run the program on the words of a command line. -/
def runProgram (words : List String) (around : Surroundings)
    (makeRunner : Job → Act σ (Runner σ)) (world : World σ) : Finish × World σ :=
  match CommandLine.read words with
  | .error rejection => (.ofRejection rejection, world)
  | .ok request =>
    match request.serve around makeRunner world with
    | .ok _ world => ({ status := 0 }, world)
    | .error fault world =>
      (.ofFault fault, { world with screen := world.screen ++ Finish.lastWords fault })

end Unscramble
