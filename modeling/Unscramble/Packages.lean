import Unscramble.Engine

/-!
# Packages

The detector and the tools come in packages.  A package is looked for before it
is used, installed if it is missing and that is allowed, and not looked for again
once it is known to be there.
-/

namespace Unscramble

/-- What a preflight has found. -/
structure Provision where
  present : List String := []
  installed : List String := []
deriving DecidableEq, Repr

namespace Engine

variable {σ : Type}

/-- Resolves the package named by the first argument from the working directory. -/
def resolveSnippet : String := "require.resolve(process.argv[1], \x7b paths: [process.cwd()] \x7d)"

/-- The command that succeeds if a package is there. -/
def checkCommand (engine : Engine σ) (scope : Scope) (package : String) : Command :=
  match scope with
  | .project =>
    { argv := ["node", "-e", resolveSnippet, package], cwd := engine.projectDir, capture := true }
  | .everywhere => { argv := ["npm", "list", "-g", package], capture := true }

def installCommand (engine : Engine σ) (scope : Scope) (package : String) : Command :=
  match scope with
  | .project =>
    { argv := ["npm", "install", package], cwd := engine.projectDir, echo := true }
  | .everywhere => { argv := ["npm", "install", "-g", package], echo := true }

def presentText : Scope → String
  | .project => " is already installed."
  | .everywhere => " is already installed globally."

def isInstalled (engine : Engine σ) (scope : Scope) (package : String) : Act σ Bool := do
  return (← engine.tryRun (engine.checkCommand scope package)).isOk

def install (engine : Engine σ) (scope : Scope) (package : String) : Act σ Unit := do
  unless engine.settings.autoInstall do throw (.install (.disabled package))
  engine.reporter.info (package ++ " is not installed. Installing...")
  match ← engine.tryRun (engine.installCommand scope package) with
  | .ok _ => engine.reporter.success (package ++ " installed successfully.")
  | .error fault => throw (.install (.failed package fault.message))

def remember (scope : Scope) (package : String) : Act σ Unit :=
  modify fun w => { w with ensured := (scope, package) :: w.ensured }

/-- Make sure a package is there; `true` if it had to be installed. -/
def ensure (engine : Engine σ) (scope : Scope) (package : String) : Act σ Bool := do
  if (scope, package) ∈ (← get).ensured then return false
  if ← engine.isInstalled scope package then
    engine.reporter.debug (package ++ presentText scope)
    remember scope package
    return false
  engine.install scope package
  remember scope package
  return true

/-- Make sure packages are there, and note which had to be installed. -/
def ensureAll (engine : Engine σ) (scope : Scope) (packages : List String)
    (provision : Provision) : Act σ Provision :=
  packages.foldlM (fun provision package => do
      return if ← engine.ensure scope package then
        { provision with installed := provision.installed ++ [package] }
      else { provision with present := provision.present ++ [package] })
    provision

/-- Make sure every package is there before any file is touched. -/
def provision (engine : Engine σ) (project everywhere : List String) : Act σ Provision := do
  engine.ensureAll .everywhere everywhere (← engine.ensureAll .project project {})

end Engine

end Unscramble
