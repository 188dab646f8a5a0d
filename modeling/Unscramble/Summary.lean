import Unscramble.Table
import Unscramble.Walk

/-!
# The summary of a run

A run ends with a table of the files it has met, how each has fared, and how
many of its steps have succeeded.  The names of files are shown as markup.
-/

namespace Unscramble

/-- How a status is shown in the table. -/
def FileStatus.mark : FileStatus → String
  | deobfuscated => "✓"
  | clean => "clean"
  | failed => "✗"

/-- The status that a word stands for. -/
def FileStatus.ofText (text : String) : Except Fault FileStatus :=
  match [FileStatus.deobfuscated, .clean, .failed].find? (·.text = text) with
  | some status => .ok status
  | none => .error (.noStatus text)

/-- How many of the steps have succeeded, if there were any to take. -/
def Outcome.stepCount (outcome : Outcome) : String :=
  match outcome.report with
  | some report => toString report.succeeded ++ "/" ++ toString report.results.length
  | none => "-"

/-- What a table shows of an outcome. -/
def Outcome.row (outcome : Outcome) : Except Fault (List (List Char)) :=
  match Console.render outcome.file.toString.toList with
  | .ok name =>
    .ok [name.filter (!Console.isDropped ·), outcome.status.mark.toList,
      outcome.stepCount.toList]
  | .error why => .error (.markup why)

def summaryTable (outcomes : List Outcome) : Except Fault Table := do
  return {
    title := "Processing Summary".toList
    headers := ["File".toList, "Status".toList, "Steps OK".toList]
    rows := ← outcomes.mapM Outcome.row }

/-- Show the summary on a console. -/
def showSummary {σ : Type} (console : Console) (outcomes : List Outcome) : Act σ Unit := do
  let table ← Act.lift (summaryTable outcomes)
  let text := String.ofList ((table.lines console.columns).flatMap (· ++ ['\n']))
  modify fun w => { w with screen := w.screen ++ [text] }

end Unscramble
