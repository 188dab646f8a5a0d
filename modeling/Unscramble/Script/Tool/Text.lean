import Unscramble.Script.Format
import Unscramble.Script.Tool.Basic

/-!
# Tools for text

Tools that print the contents of files, parts of them, or parts of names.
-/

namespace Unscramble.Script

/-- The contents of a file that an operand names; a dash names the input. -/
def contents (operand : Octets) : Run (Except String Octets) := do
  if operand = ['-'] ∨ operand = "/dev/stdin".toList then
    match ← readAll 0, ← streamOf? 0 with
    | none, _ => return .error "Bad file descriptor"
    | some text, some (_, .file loc _ _) =>
      let entry? := (← get).disk.tree.get? loc
      if entry?.any (·.kind = .directory) then return .error Refusal.isDirectory.text
      else return .ok text
    | some text, _ => return .ok text
  else if operand = "/dev/null".toList then return .ok []
  else
    match ← ask Disk.readBytes operand with
    | .ok bytes => return .ok (Octets.ofBytes bytes)
    | .error why => return .error why.text

/-- The output goes to the end of the file that an operand names. -/
def isOwnOutput (operand : Octets) : Run Bool := do
  match ← streamOf? 1, ← ask (fun disk path => disk.find .followed path) operand with
  | some (_, .file loc offset mode), .ok (.present found (.file bytes _)) =>
    let position := if mode = .append then 0 else offset
    return loc = found && position < bytes.length
  | _, _ => return false

/-- Lines with their newlines. -/
def linesOf (s : Octets) : List Octets :=
  let parts := s.splitOn '\n'
  let last := parts.getLastD []
  parts.dropLast.map (· ++ ['\n']) ++ (if last = [] then [] else [last])

/-- Text with its lines numbered from a number on. -/
def numbered (first : Nat) (lines : List Octets) : Octets :=
  (lines.zipIdx first).flatMap fun (line, n) =>
    let digits := Octets.decimal n
    List.replicate (6 - digits.length) ' ' ++ digits ++ '\t' :: line

/-- Print files one after another. -/
def concatenate (tool : Octets) (args : List Octets) : Run Nat :=
  withOptions { plain := "nu".toList } tool args fun given => do
    let operands := if given.operands = [] then [['-']] else given.operands
    let (status, _) ← operands.foldlM (fun ((status, line) : Nat × Nat) operand => do
        match ← contents operand with
        | .error why =>
          complain tool (shownName operand ++ ": ".toList ++ why.toList)
          return (1, line)
        | .ok text =>
          if ← isOwnOutput operand then
            complain tool (shownName operand ++ ": input file is output file".toList)
            return (1, line)
          let lines := linesOf text
          let shown := if given.has 'n' then numbered line lines else text
          if ← write 1 shown then return (status, line + lines.length)
          complain tool "standard output: Bad file descriptor".toList
          return (1, line))
      (0, 1)
    return status

/-- A dash with a number is the option for so many lines. -/
def countAsOption : List Octets → List Octets
  | ('-' :: c :: rest) :: args =>
    if c.isDigit ∧ rest.all Char.isDigit then ['-', 'n'] :: (c :: rest) :: args
    else ('-' :: c :: rest) :: args
  | args => args

/-- The part of a text that a tool shows: its start or its end, by lines or bytes. -/
structure Portion where
  fromEnd : Bool
  byBytes : Bool
  /-- All but so many at the other end, or from so many on. -/
  except : Bool
  count : Nat

/-- Bytes that are read from a pipe at a time. -/
def blockSize : Nat := 8192

def Portion.cut (portion : Portion) (text : Octets) : Octets :=
  let take (units : List Octets) : List Octets :=
    match portion.fromEnd, portion.except with
    | false, false => units.take portion.count
    | false, true => units.take (units.length - portion.count)
    | true, false => units.drop (units.length - portion.count)
    | true, true => units.drop (portion.count - 1)
  (take (if portion.byBytes then text.map ([·]) else linesOf text)).flatten

/-- The text of an operand that a portion is cut from.  Of the input no more is read than
the portion needs: blocks of a pipe, or just the portion of a file. -/
def Portion.source (portion : Portion) (operand : Octets) : Run (Except String Octets) := do
  if operand ≠ ['-'] ∨ portion.fromEnd ∨ portion.except then contents operand
  else
    match ← readable 0 with
    | none => contents operand
    | some text =>
      let needed := (portion.cut text).length
      let blocks := (needed + blockSize - 1) / blockSize * blockSize
      match ← streamOf? 0 with
      | some (_, .file ..) => advance 0 needed
      | _ => if text.length ≤ blocks then discard <| readAll 0 else advance 0 blocks
      return .ok text

/-- Show the start or the end of files. -/
def showPart (fromEnd : Bool) (tool : Octets) (args : List Octets) : Run Nat :=
  withOptions { plain := "qv".toList, valued := "nc".toList } tool (countAsOption args) fun given => do
    let byBytes := (given.options.filter fun o => o.1 = 'n' || o.1 = 'c').getLast?.any (·.1 = 'c')
    let text := (given.value? (if byBytes then 'c' else 'n')).getD "10".toList
    let (except, digits) := match text with
      | '-' :: digits => (!fromEnd, digits)
      | '+' :: digits => (fromEnd, digits)
      | digits => (false, digits)
    match Octets.natural? digits with
    | none =>
      let what := if byBytes then "bytes" else "lines"
      complain tool (("invalid number of " ++ what ++ ": ").toList ++ quotedName text)
      return 1
    | some count =>
      let operands := if given.operands = [] then [['-']] else given.operands
      let heads := (decide (1 < operands.length) && !given.has 'q') || given.has 'v'
      let portion : Portion := ⟨fromEnd, byBytes, except, count⟩
      let (status, _) ← operands.foldlM (fun ((status, first) : Nat × Bool) operand => do
          match ← portion.source operand with
          | .error why =>
            let text := if why = Refusal.isDirectory.text then
                "error reading ".toList ++ quotedName operand ++ ": ".toList
              else "cannot open ".toList ++ quotedName operand ++ " for reading: ".toList
            complain tool (text ++ why.toList)
            return (1, first)
          | .ok text =>
            let name := if operand = ['-'] then "standard input".toList else operand
            let head := if heads then
                (if first then [] else ['\n']) ++ "==> ".toList ++ name ++ " <==\n".toList
              else []
            discard <| write 1 (head ++ portion.cut text)
            return (status, false))
        (0, true)
      return status

/-- Copy the input to files and to the output. -/
def spreadInput (tool : Octets) (args : List Octets) : Run Nat :=
  withOptions { plain := "ai".toList } tool args fun given => do
    let text := (← readAll 0).getD []
    discard <| write 1 text
    forOperands given.operands fun operand => do
      if operand = "/dev/null".toList then return true
      let change := if given.has 'a' then Disk.append else Disk.write
      match ← ask (fun disk path => change disk path (Octets.toBytes text)) operand with
      | .ok disk =>
        modify fun shell => { shell with disk }
        return true
      | .error why =>
        complain tool (shownName operand ++ ": ".toList ++ why.text.toList)
        return false

/-- Words of a text. -/
def wordCount (s : Octets) : Nat := ((s.splitOnP Octets.isSpace).filter (· ≠ [])).length

/-- Count lines, words and bytes. -/
def countText (tool : Octets) (args : List Octets) : Run Nat :=
  withOptions { plain := "lwc".toList } tool args fun given => do
    let all := given.options = []
    let operands := if given.operands = [] then [['-']] else given.operands
    let (status, counts) ← operands.foldlM
      (fun ((status, counts) : Nat × List (List Nat × Octets)) operand => do
        match ← contents operand with
        | .error why =>
          complain tool (shownName operand ++ ": ".toList ++ why.toList)
          return (1, counts)
        | .ok text =>
          let count := [('l', text.count '\n'), ('w', wordCount text), ('c', text.length)]
          let count := (count.filter fun c => all || given.has c.1).map (·.2)
          return (status, counts ++ [(count, operand)]))
      (0, [])
    let kinds := if all then 3 else (("lwc".toList.filter given.has).length)
    let totals := (List.range kinds).map fun i =>
      (counts.map fun c => c.1.getD i 0).foldl (· + ·) 0
    let counts := if operands.length ≤ 1 then counts else counts ++ [(totals, "total".toList)]
    let largest : Nat := (counts.flatMap (·.1)).foldl max 0
    let width :=
      if given.operands = [] then (if kinds = 1 then 1 else 7)
      else if kinds = 1 ∧ operands.length = 1 then 1
      else (Octets.decimal largest).length
    counts.forM fun (count, operand) => do
      let cells := count.map fun (n : Nat) =>
        let digits := Octets.decimal n
        List.replicate (width - digits.length) ' ' ++ digits
      let name := if given.operands = [] then [] else ' ' :: operand
      discard <| write 1 ([' '].intercalate cells ++ name ++ ['\n'])
    return status

/-! ## Names -/

def dropSlashes (s : Octets) : Octets := (s.reverse.dropWhile (· = '/')).reverse

/-- The last name of a path. -/
def lastName (s : Octets) : Octets :=
  let bare := dropSlashes s
  if bare = [] then (if s = [] then [] else ['/'])
  else (bare.reverse.takeWhile (· ≠ '/')).reverse

/-- What stands before the last name of a path. -/
def directoryName (s : Octets) : Octets :=
  let bare := dropSlashes s
  let before := (bare.reverse.dropWhile (· ≠ '/')).reverse
  if before = [] then (if bare = [] ∧ s ≠ [] then ['/'] else ['.'])
  else if dropSlashes before = [] then ['/'] else dropSlashes before

/-- Print the last name of a path, without an ending. -/
def showLastName (tool : Octets) (args : List Octets) : Run Nat :=
  withOptions { plain := "a".toList, valued := "s".toList } tool args fun given => do
    let print (name ending : Octets) : Run Unit := do
      let last := lastName name
      let cut := ending ≠ [] && last ≠ ending && ending.isSuffixOf last
      discard <| write 1 ((if cut then last.take (last.length - ending.length) else last) ++ ['\n'])
    match given.operands with
    | [] => misuse tool "missing operand".toList
    | names =>
      if given.has 'a' ∨ given.has 's' then
        names.forM fun name => print name ((given.value? 's').getD [])
        return 0
      else
        match names with
        | _ :: _ :: extra :: _ => misuse tool ("extra operand ".toList ++ quotedName extra)
        | [name, ending] =>
          print name ending
          return 0
        | names =>
          names.forM fun name => print name []
          return 0

/-- Print what stands before the last names of paths. -/
def showDirectories (tool : Octets) (args : List Octets) : Run Nat :=
  withOptions { plain := [] } tool args fun given => do
    if given.operands = [] then misuse tool "missing operand".toList
    else
      given.operands.forM fun name => discard <| write 1 (directoryName name ++ ['\n'])
      return 0

/-! ## Time and place -/

/-- The ticks that a text asks to wait for. -/
def interval? (s : Octets) : Option Nat :=
  match Printing.readFraction s with
  | some (false, x, unit) =>
    let seconds? := match unit with
      | [] | ['s'] => some 1
      | ['m'] => some 60
      | ['h'] => some 3600
      | ['d'] => some 86400
      | _ => none
    seconds?.map fun seconds =>
      (x.num * seconds * TimeLimit.ticks + x.den - 1) / x.den
  | _ => none

/-- Wait for the sum of some intervals. -/
def sleep (tool : Octets) (args : List Octets) : Run Nat :=
  withOptions { plain := [] } tool args fun given => do
    if given.operands = [] then misuse tool "missing operand".toList
    else
      let bad := given.operands.filter fun operand => (interval? operand).isNone
      match bad.reverse with
      | last :: others =>
        others.reverse.forM fun operand =>
          complain tool ("invalid time interval ".toList ++ quotedName operand)
        misuse tool ("invalid time interval ".toList ++ quotedName last)
      | [] =>
        spend ((given.operands.filterMap interval?).foldl (· + ·) 0)
        return 0

/-- Print the working directory. -/
def showWorkingDirectory (tool : Octets) (args : List Octets) : Run Nat :=
  withOptions { plain := "LP".toList } tool args fun given => do
    if given.operands ≠ [] then complain tool "ignoring non-option arguments".toList
    match (← get).disk.workingLoc? with
    | some loc =>
      discard <| write 1 (Octets.ofString ("/" ++ "/".intercalate loc) ++ ['\n'])
      return 0
    | none =>
      complain tool "couldn't find directory entry in '..' with matching i-node".toList
      return 1

end Unscramble.Script
