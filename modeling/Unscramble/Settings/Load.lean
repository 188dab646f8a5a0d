import Unscramble.Settings.EnvFile
import Unscramble.Settings.Reading

/-!
# Loading settings

Settings come from keywords, from the environment, from an environment file and
from the defaults; the first source that names a field decides about it.  Values
of list fields are decoded while a source is read, all others afterwards.
-/

namespace Unscramble.Settings

open Text

/-- The fields in the order in which they are reported. -/
inductive Field
  | verbose
  | baseDir
  | scriptExtensions
  | ignoredDirNames
  | outputDirName
  | stepTimeout
  | cleanupScope
  | autoInstall
  | nodeProjectDir
  | detectorPackage
  | globalTools
deriving DecidableEq, Repr

namespace Field

def all : List Field :=
  [verbose, baseDir, scriptExtensions, ignoredDirNames, outputDirName, stepTimeout, cleanupScope,
    autoInstall, nodeProjectDir, detectorPackage, globalTools]

def name : Field → String
  | verbose => "verbose"
  | baseDir => "base_dir"
  | scriptExtensions => "script_extensions"
  | ignoredDirNames => "ignored_dir_names"
  | outputDirName => "output_dir_name"
  | stepTimeout => "step_timeout_seconds"
  | cleanupScope => "cleanup_scope"
  | autoInstall => "auto_install"
  | nodeProjectDir => "node_project_dir"
  | detectorPackage => "detector_package"
  | globalTools => "global_tools"

/-- Fields whose variables hold JSON. -/
def isList : Field → Bool
  | scriptExtensions | ignoredDirNames | globalTools => true
  | _ => false

/-- The variable of a field, in lower case. -/
def variableName (field : Field) : String := "decryptex_" ++ field.name

end Field

/-- Values given for fields. -/
abbrev Given := List (Field × Json)

/-- The values that a list of variables gives; names are compared in any case and
the last variable of a name counts. -/
def fromVariables (source : Source) (defined : List (String × Option String)) :
    List Field → Except Fault Given
  | [] => .ok []
  | field :: rest =>
    match defined.reverse.find? fun v => lowerString v.1 = field.variableName with
    | some (_, some text) =>
      if field.isList then
        match Json.read text with
        | .error (.deepNesting container) => .error (.deepNesting container)
        | .error _ => .error (.unreadableSetting field.name source)
        | .ok .null => fromVariables source defined rest
        | .ok value => (fromVariables source defined rest).map ((field, value) :: ·)
      else (fromVariables source defined rest).map ((field, .ofString text) :: ·)
    | _ => fromVariables source defined rest

/-- Keywords that name no field are passed over. -/
def fromKeywords (keywords : List (String × Json)) : Given :=
  Field.all.filterMap fun field =>
    (keywords.reverse.lookup field.name).map fun value => (field, value)

/-- The text of the environment file in the working directory; empty without one. -/
def envFileText (disk : Disk) : Except Fault String := do
  let path := Path.ofString ".env"
  match disk.isFile path with
  | .error why => throw (.refused why (some path.toString) none)
  | .ok false => return ""
  | .ok true =>
    match disk.readBytes path with
    | .error why => throw (.refused why (some path.toString) none)
    | .ok bytes =>
      match Text.read bytes with
      | .error what => throw (.malformed what)
      | .ok text => return text

/-- A field that is given is read, the others keep their default; issues are
collected. -/
def take {α : Type} (given : Given) (field : Field) (fallback : α)
    (readValue : Json → Except (List Issue) α) : α × List Issue :=
  match given.lookup field with
  | none => (fallback, [])
  | some value =>
    match readValue value with
    | .ok result => (result, [])
    | .error issues => (fallback, issues)

/-- A reader of single values, as a reader for a field. -/
def single {α : Type} (field : Field) (readValue : Json → Except Complaint α)
    (value : Json) : Except (List Issue) α :=
  match readValue value with
  | .ok result => .ok result
  | .error complaint => .error [⟨field.name, none, complaint⟩]

def simple {α : Type} (given : Given) (field : Field) (fallback : α)
    (readValue : Json → Except Complaint α) : α × List Issue :=
  take given field fallback (single field readValue)

def texts (given : Given) (field : Field) (fallback : List String) : List String × List Issue :=
  take given field fallback (readTexts field.name)

/-- Settings from the values that were given. -/
def ofGiven (given : Given) : Except Fault Settings :=
  let base : Settings := {}
  let (verbose, e₁) := simple given .verbose base.verbose readBool
  let (baseDir, e₂) := simple given .baseDir base.baseDir readPath
  let (scriptExtensions, e₃) := texts given .scriptExtensions base.scriptExtensions
  let (ignoredDirNames, e₄) := texts given .ignoredDirNames base.ignoredDirNames
  let (outputDirName, e₅) := simple given .outputDirName base.outputDirName readText
  let (stepTimeout, e₆) := simple given .stepTimeout base.stepTimeout readTimeout
  let (cleanupScope, e₇) := simple given .cleanupScope base.cleanupScope readScope
  let (autoInstall, e₈) := simple given .autoInstall base.autoInstall readBool
  let (nodeProjectDir, e₉) := simple given .nodeProjectDir base.nodeProjectDir readPath
  let (detectorPackage, e₁₀) := simple given .detectorPackage base.detectorPackage readText
  let (globalTools, e₁₁) := texts given .globalTools base.globalTools
  match e₁ ++ e₂ ++ e₃ ++ e₄ ++ e₅ ++ e₆ ++ e₇ ++ e₈ ++ e₉ ++ e₁₀ ++ e₁₁ with
  | [] => .ok {
      verbose, baseDir, ignoredDirNames, outputDirName, stepTimeout, cleanupScope, autoInstall,
      nodeProjectDir, detectorPackage, globalTools
      scriptExtensions := scriptExtensions.map normalExtension }
  | issues => .error (.invalidSettings issues)

/-- The settings of a run on `disk`. -/
def load (keywords : List (String × Json)) (environment : List (String × String))
    (disk : Disk) : Except Fault Settings := do
  let fileText ← envFileText disk
  let defined := environment.map fun v => (v.1, some v.2)
  let fromEnvironment ← fromVariables .environment defined Field.all
  let fromFile ← fromVariables .envFile (EnvFile.definitions environment fileText) Field.all
  ofGiven (fromKeywords keywords ++ fromEnvironment ++ fromFile)

end Unscramble.Settings
