import Unscramble.Proofs.Inventory

/-!
# What a walk visits, and in which order

Between two visits a walk goes on with listings that it has made at different times, whatever
has happened to the disk since.  Still every file is a script when its visit begins, and the
files are visited in strict order: a listing is in the order of names, and what lies below one
entry comes before what lies below the next.
-/

namespace Unscramble

open Disk

variable {σ : Type}

theorem Act.ok_of_look {α : Type} {question : Disk → Except Fault α} {w w' : World σ} {answer : α}
    (hrun : (look question : Act σ α) w = .ok answer w') :
    question w.disk = .ok answer ∧ w' = w := by
  cases hanswer : question w.disk with
  | error fault =>
    rw [look_of_error hanswer] at hrun
    cases hrun
  | ok told =>
    rw [look_of_ok hanswer] at hrun
    cases hrun
    exact ⟨rfl, rfl⟩

theorem Disk.list_pairwise {disk : Disk} {dir : Path} {entries : List (String × Kind)}
    (hlist : disk.list dir = .ok entries) :
    entries.Pairwise fun left right => left.1 < right.1 := by
  obtain ⟨found, -, hentries⟩ := Except.ok_of_bind hlist
  split at hentries <;> cases hentries
  · exact disk.tree.listing_pairwise _
  · exact .nil

namespace Scan

/-! ## Paths in order -/

/-- Paths that lie below a directory, by first names of one kind, in strict order. -/
structure Ordered (dir : Path) (first : String → Prop) (files : List Path) : Prop where
  below : ∀ file ∈ files, ∃ name rest, first name ∧ file = dir.below (name :: rest)
  sorted : files.Pairwise fun left right => left.parts < right.parts

namespace Ordered

variable {dir : Path} {first second : String → Prop} {files others : List Path} {name : String}

theorem nil : Ordered dir first [] where
  below _ hfile := by cases hfile
  sorted := .nil

theorem single (hname : first name) : Ordered dir first [dir.child name] where
  below file hfile := ⟨name, [], hname, by rw [Path.below_cons, Path.below_nil]; simpa using hfile⟩
  sorted := List.pairwise_singleton _ _

theorem mono (hordered : Ordered dir first files) (hfirst : ∀ name, first name → second name) :
    Ordered dir second files where
  below file hfile := by
    obtain ⟨name, rest, hname, hpath⟩ := hordered.below file hfile
    exact ⟨name, rest, hfirst name hname, hpath⟩
  sorted := hordered.sorted

/-- What lies below an entry lies below its directory, by the name of the entry. -/
theorem child (hordered : Ordered (dir.child name) first files) (hname : second name) :
    Ordered dir second files where
  below file hfile := by
    obtain ⟨next, rest, -, hpath⟩ := hordered.below file hfile
    exact ⟨name, next :: rest, hname, by rw [hpath, ← Path.below_cons]⟩
  sorted := hordered.sorted

theorem append (hfiles : Ordered dir first files) (hothers : Ordered dir second others)
    (hlt : ∀ left right, first left → second right → left < right) :
    Ordered dir (fun name => first name ∨ second name) (files ++ others) where
  below file hfile := by
    rcases List.mem_append.mp hfile with hfile | hfile
    · exact (hfiles.mono fun _ => .inl).below file hfile
    · exact (hothers.mono fun _ => .inr).below file hfile
  sorted := by
    refine List.pairwise_append.mpr ⟨hfiles.sorted, hothers.sorted, fun left hleft right hright => ?_⟩
    obtain ⟨name, rest, hname, rfl⟩ := hfiles.below left hleft
    obtain ⟨name', rest', hname', rfl⟩ := hothers.below right hright
    exact List.append_left_lt (.rel (hlt name name' hname hname'))

end Ordered

/-! ## From visit to visit -/

section Goes

variable {β : Type} {rules : Rules} {visit : β → Path → Act σ β} {depth : Nat} {dir : Path}
  {acc mid acc' : β} {w w₁ w' : World σ} {files others : List Path}

/-- These files are visited one after the other, with nothing in between, and each is a script
when its visit begins. -/
inductive Goes (rules : Rules) (visit : β → Path → Act σ β) :
    β → World σ → List Path → β → World σ → Prop
  | done (acc : β) (w : World σ) : Goes rules visit acc w [] acc w
  | visit {acc mid acc' : β} {w w₁ w' : World σ} {file : Path} {files : List Path}
      (hscript : isScript rules file w.disk = .ok true) (hvisit : visit acc file w = .ok mid w₁)
      (hrest : Goes rules visit mid w₁ files acc' w') : Goes rules visit acc w (file :: files) acc' w'

theorem Goes.append (hfirst : Goes rules visit acc w files mid w₁)
    (hsecond : Goes rules visit mid w₁ others acc' w') :
    Goes rules visit acc w (files ++ others) acc' w' := by
  induction hfirst with
  | done => exact hsecond
  | visit hscript hvisit _ ih => exact .visit hscript hvisit (ih hsecond)

/-- A scan that comes to its end has gone from visit to visit, in the order of the paths. -/
def GoesInOrder (rules : Rules) (visit : β → Path → Act σ β) (depth : Nat) : Prop :=
  ∀ dir acc acc' w w', foldM Act.look rules visit depth dir acc w = .ok acc' w' →
    ∃ files, Goes rules visit acc w files acc' w' ∧ Ordered dir (fun _ => True) files

variable {entry : String × Kind} {entries : List (String × Kind)}

theorem goes_of_entry (hdeeper : GoesInOrder rules visit depth)
    (hrun : entryM Act.look rules visit depth dir acc entry w = .ok acc' w') :
    ∃ files, Goes rules visit acc w files acc' w' ∧ Ordered dir (· = entry.1) files := by
  rw [entryM] at hrun
  split at hrun
  · split at hrun
    · cases hrun
      exact ⟨[], .done _ _, .nil⟩
    · obtain ⟨files, hgoes, hordered⟩ := hdeeper _ acc acc' w w' hrun
      exact ⟨files, hgoes, hordered.child rfl⟩
  · obtain ⟨script, w₁, hlook, hnext⟩ := Act.ok_of_bind hrun
    obtain ⟨hscript, rfl⟩ := Act.ok_of_look hlook
    cases script with
    | false =>
      cases hnext
      exact ⟨[], .done _ _, .nil⟩
    | true => exact ⟨[dir.child entry.1], .visit hscript hnext (.done acc' w'), .single rfl⟩

theorem goes_of_entries (hdeeper : GoesInOrder rules visit depth)
    (hlisted : entries.Pairwise fun left right => left.1 < right.1)
    (hrun : entries.foldlM (entryM Act.look rules visit depth dir) acc w = .ok acc' w') :
    ∃ files, Goes rules visit acc w files acc' w' ∧
      Ordered dir (fun name => ∃ entry ∈ entries, entry.1 = name) files := by
  induction entries generalizing acc w with
  | nil =>
    cases hrun
    exact ⟨[], .done _ _, .nil⟩
  | cons entry rest ih =>
    obtain ⟨hlt, hrest⟩ := List.pairwise_cons.mp hlisted
    rw [List.foldlM_cons] at hrun
    obtain ⟨mid, w₁, hentry, hfold⟩ := Act.ok_of_bind hrun
    obtain ⟨files, hfirst, hhere⟩ := goes_of_entry hdeeper hentry
    obtain ⟨others, hsecond, hlater⟩ := ih hrest hfold
    refine ⟨files ++ others, hfirst.append hsecond, (hhere.append hlater ?_).mono ?_⟩
    · rintro _ _ rfl ⟨other, hother, rfl⟩
      exact hlt other hother
    · rintro name (rfl | ⟨other, hother, rfl⟩)
      · exact ⟨entry, List.mem_cons_self, rfl⟩
      · exact ⟨other, List.mem_cons_of_mem _ hother, rfl⟩

/-- The listing of a directory is in the order of names, whenever it is made.  The induction is on
how far down a path can still be named; below it goes the one over the entries of a listing. -/
theorem goesInOrder (rules : Rules) (visit : β → Path → Act σ β) (depth : Nat) :
    GoesInOrder rules visit depth := by
  induction depth with
  | zero =>
    intro dir acc acc' w w' hrun
    rw [foldM] at hrun
    cases (Act.ok_of_look hrun).1
  | succ depth ih =>
    intro dir acc acc' w w' hrun
    rw [foldM_succ] at hrun
    obtain ⟨entries, w₁, hlook, hfold⟩ := Act.ok_of_bind hrun
    obtain ⟨hlist, rfl⟩ := Act.ok_of_look hlook
    obtain ⟨files, hgoes, hordered⟩ :=
      goes_of_entries ih (list_pairwise (list_of_query hlist)) hfold
    exact ⟨files, hgoes, hordered.mono fun _ _ => trivial⟩

end Goes

end Scan

/-! ## The visits of a walk -/

namespace Engine

variable {engine : Engine σ} {file : Path} {files : List Path} {outcomes outcomes' : List Outcome}
  {w w' : World σ}

theorem file_of_processFile {outcome : Outcome}
    (hrun : engine.processFile file w = .ok outcome w') : outcome.file = file := by
  obtain ⟨text, w₁, -, hrest⟩ := Act.ok_of_bind hrun
  obtain ⟨_, w₂, -, hrest⟩ := Act.ok_of_bind hrest
  obtain ⟨accused, w₃, -, hrest⟩ := Act.ok_of_bind hrest
  cases accused with
  | false =>
    obtain ⟨_, w₄, -, hend⟩ := Act.ok_of_bind hrest
    cases hend
    rfl
  | true =>
    obtain ⟨_, w₄, -, hrest⟩ := Act.ok_of_bind hrest
    obtain ⟨report, w₅, -, hrest⟩ := Act.ok_of_bind hrest
    obtain ⟨_, w₆, -, hend⟩ := Act.ok_of_bind hrest
    cases hend
    rfl

/-- A visit to a script that comes to its end notes one outcome, which is that of the script: a
script is there, so that it is not passed over. -/
theorem outcome_of_visit (hscript : Scan.isScript engine.rules file w.disk = .ok true)
    (hvisit : engine.visit outcomes file w = .ok outcomes' w') :
    ∃ outcome, outcome.file = file ∧ outcomes' = outcomes ++ [outcome] := by
  have hpresent := present_of_isFile (Scan.isFile_of_isScript hscript)
  rw [visit, Act.bind_of_ok (Act.ask_of_ok hpresent)] at hvisit
  obtain ⟨result, w₁, hattempt, hnote⟩ := Act.ok_of_bind hvisit
  cases hrun : engine.processFile file w with
  | ok outcome w₂ =>
    rw [Act.attempt_of_ok hrun] at hattempt
    cases hattempt
    cases hnote
    exact ⟨outcome, file_of_processFile hrun, rfl⟩
  | error fault w₂ =>
    rw [Act.attempt_of_error hrun] at hattempt
    cases hattempt
    have hnoted (hnote : (if fault.endsRun then throw fault else
        engine.reporter.error ("Failed to deobfuscate " ++ file.name ++ ": " ++ fault.message) >>=
          fun _ => pure (outcomes ++ [{ file, status := .failed, error := fault.message }]) :
            Act σ (List Outcome)) w₁ = .ok outcomes' w') :
        ∃ outcome : Outcome, outcome.file = file ∧ outcomes' = outcomes ++ [outcome] := by
      split at hnote
      · cases hnote
      · obtain ⟨_, w₃, -, hend⟩ := Act.ok_of_bind hnote
        cases hend
        exact ⟨_, rfl, rfl⟩
    cases fault <;> first
      | exact hnoted hnote
      | cases hnote

/-- The visits of a walk and its outcomes are the same in number and in order. -/
theorem outcomes_of_goes
    (hgoes : Scan.Goes engine.rules engine.visit outcomes w files outcomes' w') :
    ∃ more, outcomes' = outcomes ++ more ∧ more.map Outcome.file = files := by
  induction hgoes with
  | done acc w => exact ⟨[], (List.append_nil _).symm, rfl⟩
  | visit hscript hmade _ ih =>
    obtain ⟨outcome, rfl, rfl⟩ := outcome_of_visit hscript hmade
    obtain ⟨more, rfl, hfiles⟩ := ih
    exact ⟨outcome :: more, by simp, by rw [List.map_cons, hfiles]⟩

/-- A walk that comes to its end announces how many files a scan finds at the start, and then goes
through the directory once more. -/
theorem walk_of_processDirectory {dir : Path}
    (hrun : engine.processDirectory dir w = .ok outcomes w') :
    ∃ counted w₁, Scan.scripts engine.rules w.disk dir = .ok counted ∧
      Scan.foldM Act.look engine.rules engine.visit pathMax dir []
        (w.said engine.reporter .info
          ("Processing directory: " ++ dir.toString ++ " (" ++ toString counted.length ++ " files)")) =
          .ok outcomes w₁ ∧
      w' = w₁.said engine.reporter .success ("All files processed in " ++ dir.toString ++ ".") := by
  obtain ⟨total, w₂, hlook, hrest⟩ := Act.ok_of_bind hrun
  obtain ⟨hcount, rfl⟩ := Act.ok_of_look hlook
  change (Scan.scripts engine.rules w₂.disk dir).map List.length = .ok total at hcount
  obtain ⟨_, w₃, hsay, hrest⟩ := Act.ok_of_bind hrest
  obtain ⟨outcomes', w₁, hwalk, hrest⟩ := Act.ok_of_bind hrest
  obtain ⟨_, w₄, hend, hpure⟩ := Act.ok_of_bind hrest
  cases hpure
  cases (Reporter.info_eq _ _ _).symm.trans hsay
  cases (Reporter.success_eq _ _ _).symm.trans hend
  cases hscripts : Scan.scripts engine.rules w₂.disk dir with
  | error fault =>
    rw [hscripts] at hcount
    cases hcount
  | ok counted =>
    rw [hscripts] at hcount
    cases hcount
    exact ⟨counted, w₁, rfl, hwalk, rfl⟩

/-- From visit to visit a walk goes in the order of the paths, with an outcome for each. -/
theorem outcomes_of_walk {depth : Nat} {dir : Path}
    (hwalk : Scan.foldM Act.look engine.rules engine.visit depth dir outcomes w = .ok outcomes' w') :
    ∃ more, outcomes' = outcomes ++ more ∧
      Scan.Goes engine.rules engine.visit outcomes w (more.map Outcome.file) outcomes' w' ∧
      Scan.Ordered dir (fun _ => True) (more.map Outcome.file) := by
  obtain ⟨files, hgoes, hordered⟩ := Scan.goesInOrder _ _ _ _ _ _ _ _ hwalk
  obtain ⟨more, hmore, rfl⟩ := outcomes_of_goes hgoes
  exact ⟨more, hmore, hgoes, hordered⟩

/-- Whatever commands do to the tree while a walk goes on, the paths of its outcomes lie below the
directory and are in strict order, so that no file is processed twice. -/
theorem processDirectory_ordered (engine : Engine σ) {dir : Path}
    (hrun : engine.processDirectory dir w = .ok outcomes w') :
    ((outcomes.map Outcome.file).Pairwise fun left right => left.parts < right.parts) ∧
      (outcomes.map Outcome.file).Nodup ∧
      ∀ outcome ∈ outcomes, ∃ names, names ≠ [] ∧ outcome.file = dir.below names := by
  obtain ⟨counted, w₁, -, hwalk, -⟩ := walk_of_processDirectory hrun
  obtain ⟨more, rfl, -, hordered⟩ := outcomes_of_walk hwalk
  refine ⟨hordered.sorted, hordered.sorted.imp ?_, fun outcome houtcome => ?_⟩
  · rintro left _ hlt rfl
    exact lt_irrefl _ hlt
  · obtain ⟨name, rest, -, hpath⟩ := hordered.below _ (List.mem_map_of_mem houtcome)
    exact ⟨name :: rest, by simp, hpath⟩

end Engine

section Samples

/-- Scripts in a directory and in one below it. -/
def Sample.before : Disk := Sample.disk
  [(["d"], .directory), (["d", "a.js"], .file [97] {}), (["d", "b.js"], .file [98] {}),
    (["d", "x"], .directory), (["d", "x", "c.js"], .file [99] {})]

/-- The same directory, where one script has become a directory, others have been added and one
has gone. -/
def Sample.after : Disk := Sample.disk
  [(["d"], .directory), (["d", "a.js"], .file [97] {}), (["d", "aa.js"], .file [97] {}),
    (["d", "b.js"], .directory), (["d", "b.js", "e.js"], .file [98] {}), (["d", "x"], .directory),
    (["d", "x", "b.js"], .file [98] {})]

/-- Every command exchanges the tree, and no file is found to be obfuscated. -/
def Sample.restless : Engine Unit :=
  engine (fun command _ tools => (.ok { args := command.argv, stdout := some "null" }, after, tools))
    [Step.custom ["tidy"]]

/-- What has been added to a directory that is listed later is processed in its order; what has
been added to one that is listed already is not. -/
theorem restless_walk_ordered :
    ∃ outcomes w', Sample.restless.processDirectory ⟨.here, ["d"]⟩ (Sample.provided Sample.before) =
        .ok outcomes w' ∧
      outcomes.map Outcome.file = [⟨.here, ["d", "a.js"]⟩, ⟨.here, ["d", "x", "b.js"]⟩] ∧
      ((outcomes.map Outcome.file).Pairwise fun left right => left.parts < right.parts) ∧
      (outcomes.map Outcome.file).Nodup ∧
      ∀ outcome ∈ outcomes, ∃ names, names ≠ [] ∧
        outcome.file = (⟨.here, ["d"]⟩ : Path).below names := by
  have hfiles : ((Sample.restless.processDirectory ⟨.here, ["d"]⟩).result
      (Sample.provided Sample.before)).toOption.map (·.map Outcome.file) =
        some [⟨.here, ["d", "a.js"]⟩, ⟨.here, ["d", "x", "b.js"]⟩] := by
    decide +kernel
  obtain ⟨outcomes, hsome, hfiles⟩ := Option.map_eq_some_iff.mp hfiles
  have hrun := Act.eq_of_result_ok (Except.eq_ok_of_toOption hsome)
  exact ⟨outcomes, _, hrun, hfiles, Sample.restless.processDirectory_ordered hrun⟩

end Samples

end Unscramble
