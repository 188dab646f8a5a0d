import Unscramble.Proofs.Exchange
import Unscramble.Proofs.Twins

/-!
# Actions that agree

From two related worlds an action may end with the same value or the same fault, in worlds
that are related again.  Where the disks are alike at a file, the steps of a run over it do:
what they ask, remove and bring back lies there, and their commands look nowhere else.
-/

namespace Unscramble

open Disk Workspace

variable {σ α β : Type}

namespace Act

variable {R : World σ → World σ → Prop} {act act' : Act σ α} {w v w' v' : World σ}

/-- From two worlds an action ends alike, in worlds that are related. -/
def AgreesAt (R : World σ → World σ → Prop) (act : Act σ α) (w v : World σ) : Prop :=
  act.result w = act.result v ∧ R (act.final w) (act.final v)

/-- From related worlds an action ends alike, and they stay related. -/
def Agrees (R : World σ → World σ → Prop) (act : Act σ α) : Prop :=
  ∀ w v, R w v → act.AgreesAt R w v

theorem agreesAt_of_ok {value : α} (hw : act w = .ok value w') (hv : act v = .ok value v')
    (hrelated : R w' v') : act.AgreesAt R w v := by
  rw [AgreesAt, result_of_ok hw, result_of_ok hv, final_of_ok hw, final_of_ok hv]
  exact ⟨rfl, hrelated⟩

theorem agreesAt_of_error {fault : Fault} (hw : act w = .error fault w')
    (hv : act v = .error fault v') (hrelated : R w' v') : act.AgreesAt R w v := by
  rw [AgreesAt, result_of_error hw, result_of_error hv, final_of_error hw, final_of_error hv]
  exact ⟨rfl, hrelated⟩

theorem AgreesAt.cases (hact : act.AgreesAt R w v) :
    (∃ value w' v', act w = .ok value w' ∧ act v = .ok value v' ∧ R w' v') ∨
      ∃ fault w' v', act w = .error fault w' ∧ act v = .error fault v' ∧ R w' v' := by
  obtain ⟨hresult, hrelated⟩ := hact
  cases hw : act w with
  | ok value w' =>
    cases hv : act v with
    | ok value' v' =>
      rw [result_of_ok hw, result_of_ok hv] at hresult
      rw [final_of_ok hw, final_of_ok hv] at hrelated
      cases hresult
      exact .inl ⟨value, w', v', rfl, rfl, hrelated⟩
    | error fault v' =>
      rw [result_of_ok hw, result_of_error hv] at hresult
      cases hresult
  | error fault w' =>
    cases hv : act v with
    | ok value v' =>
      rw [result_of_error hw, result_of_ok hv] at hresult
      cases hresult
    | error fault' v' =>
      rw [result_of_error hw, result_of_error hv] at hresult
      rw [final_of_error hw, final_of_error hv] at hrelated
      cases hresult
      exact .inr ⟨fault, w', v', rfl, rfl, hrelated⟩

/-- An action that runs like another one from two worlds. -/
theorem AgreesAt.congr {w₁ v₁ : World σ} (hw : act w = act' w₁) (hv : act v = act' v₁)
    (hact : act'.AgreesAt R w₁ v₁) : act.AgreesAt R w v := by
  rcases hact.cases with ⟨value, w', v', hw', hv', hrelated⟩ | ⟨fault, w', v', hw', hv', hrelated⟩
  · exact agreesAt_of_ok (hw.trans hw') (hv.trans hv') hrelated
  · exact agreesAt_of_error (hw.trans hw') (hv.trans hv') hrelated

theorem AgreesAt.bind {R' : World σ → World σ → Prop} {next : α → Act σ β}
    (hact : act.AgreesAt R w v) (hfails : ∀ w' v', R w' v' → R' w' v')
    (hnext : ∀ value w' v', act w = .ok value w' → act v = .ok value v' → R w' v' →
      (next value).AgreesAt R' w' v') : (act >>= next).AgreesAt R' w v := by
  rcases hact.cases with ⟨value, w', v', hw, hv, hrelated⟩ | ⟨fault, w', v', hw, hv, hrelated⟩
  · exact .congr (bind_of_ok hw) (bind_of_ok hv) (hnext value w' v' hw hv hrelated)
  · exact agreesAt_of_error (bind_of_error hw) (bind_of_error hv) (hfails w' v' hrelated)

theorem AgreesAt.always {R' : World σ → World σ → Prop} {cleanUp : Act σ Unit}
    (hact : act.AgreesAt R w v) (hclean : ∀ w' v', R w' v' → cleanUp.AgreesAt R' w' v') :
    (always act cleanUp).AgreesAt R' w v := by
  constructor
  · rcases hact.cases with ⟨_, w', v', hw, hv, h⟩ | ⟨_, w', v', hw, hv, h⟩ <;>
      rcases (hclean w' v' h).cases with ⟨_, _, _, hw', hv', -⟩ | ⟨_, _, _, hw', hv', -⟩ <;>
        simp only [result, Act.always, hw, hv, hw', hv']
  · rw [final_always, final_always]
    exact (hclean _ _ hact.2).2

theorem composes_agrees (R : World σ → World σ → Prop) :
    Act.Composes fun {α} (act : Act σ α) => act.Agrees R where
  pure _ _ _ hrelated := ⟨rfl, hrelated⟩
  throw _ _ _ hrelated := ⟨rfl, hrelated⟩
  bind hact hnext w v hrelated :=
    (hact w v hrelated).bind (fun _ _ h => h) fun value w' v' _ _ h => hnext value w' v' h
  attempt hact w v hrelated := by
    rcases (hact w v hrelated).cases with ⟨_, _, _, hw, hv, h⟩ | ⟨_, _, _, hw, hv, h⟩
    · exact agreesAt_of_ok (attempt_of_ok hw) (attempt_of_ok hv) h
    · exact agreesAt_of_ok (attempt_of_error hw) (attempt_of_error hv) h

theorem agreesAt_ask {question : Disk → Path → Except Refusal α} {path : Path}
    (hsame : question w.disk path = question v.disk path) (hrelated : R w v) :
    (ask question path : Act σ α).AgreesAt R w v := by
  cases hanswer : question v.disk path with
  | ok answer => exact agreesAt_of_ok (ask_of_ok (hsame.trans hanswer)) (ask_of_ok hanswer) hrelated
  | error why =>
    exact agreesAt_of_error (ask_of_error (hsame.trans hanswer)) (ask_of_error hanswer) hrelated

theorem agreesAt_change {S : Disk → Disk → Prop} {operation : Disk → Path → Except Refusal Disk}
    {path : Path} (hrefused : R w v)
    (hdone : ∀ disk disk', S disk disk' → R { w with disk } { v with disk := disk' })
    (hmatches : Matches S (operation w.disk path) (operation v.disk path)) :
    (change operation path).AgreesAt R w v := by
  cases hw : operation w.disk path <;> cases hv : operation v.disk path <;>
    rw [hw, hv] at hmatches
  · cases hmatches
    exact agreesAt_of_error (change_of_error hw) (change_of_error hv) hrefused
  · cases hmatches
  · cases hmatches
  · exact agreesAt_of_ok (change_of_ok hw) (change_of_ok hv) (hdone _ _ hmatches)

/-- What a change has done. -/
theorem disk_of_change {operation : Disk → Path → Except Refusal Disk} {path : Path}
    (hchange : change operation path w = .ok () w') :
    ∃ disk, operation w.disk path = .ok disk ∧ w' = { w with disk } := by
  cases hdisk : operation w.disk path with
  | ok disk =>
    rw [change_of_ok hdisk] at hchange
    cases hchange
    exact ⟨disk, rfl, rfl⟩
  | error why =>
    rw [change_of_error hdisk] at hchange
    cases hchange

end Act

/-! ## The parts of a run -/

variable {file artifact : Path} {outputName name : String} {dir : Loc} {locs : List Loc}
  {base base' : Disk} {w v : World σ}

/-- The disks of two worlds are alike at a file. -/
def World.Twins (file : Path) (outputName : String) (dir : Loc) (locs : List Loc)
    (base base' : Disk) (w v : World σ) : Prop :=
  Disk.Twins file outputName dir locs base base' w.disk v.disk

theorem say_agrees (reporter : Reporter) (level : Level) (message : String) :
    (reporter.say level message : Act σ Unit).Agrees
      (World.Twins file outputName dir locs base base') := fun w v htwins =>
  Act.agreesAt_of_ok (reporter.say_eq level message w) (reporter.say_eq level message v)
    (Disk.Twins.logged htwins _ _)

section

variable (htwins : w.Twins file outputName dir locs base base' v)

include htwins

theorem unlink_agreesAt {path : Path} (hpath : SameAt locs w.disk v.disk path) :
    (Act.change Disk.unlink path : Act σ Unit).AgreesAt
      (World.Twins file outputName dir locs base base') w v :=
  Act.agreesAt_change htwins (fun _ _ h => h) (Disk.Twins.unlink htwins hpath)

variable (hname : Path.Ordinary file.name) (hfile : Inside locs (dir ++ [file.name]))

include hname hfile

theorem moveOver_agreesAt (hartifact : SameAt locs w.disk v.disk artifact)
    (hsource : ∀ loc, w.disk.find .itself artifact ≠ .ok (.present loc .directory)) :
    (moveOver artifact file : Act σ Bool).AgreesAt
      (World.Twins file outputName dir locs base base') w v := by
  have hmatches := Disk.Twins.rename htwins hname hfile hartifact hsource
  have hw := moveOver_run artifact file w
  have hv := moveOver_run artifact file v
  cases hrename : w.disk.rename artifact file <;> cases hrename' : v.disk.rename artifact file <;>
    rw [hrename, hrename'] at hmatches <;> rw [hrename] at hw <;> rw [hrename'] at hv
  · cases hmatches
    exact Act.agreesAt_of_error hw hv htwins
  · cases hmatches
  · cases hmatches
  · exact Act.agreesAt_of_ok hw hv hmatches

end

section

variable (hout : Path.Component outputName)

include hout

theorem promote_agrees (hname : Path.Ordinary file.name)
    (hartifact : artifact ∈ outputPlaces file outputName) :
    (promote artifact file : Act σ Bool).Agrees
      (World.Twins file outputName dir (fileLocs file outputName dir) base base') := by
  intro w v htwins
  have hsame (w v : World σ)
      (htwins : w.Twins file outputName dir (fileLocs file outputName dir) base base' v) :=
    Disk.FullTwins.sameAt_place htwins hout hartifact
  have hfound := hsame w v htwins
  have htarget := Disk.Twins.sameAt_file htwins hname inside_file
  rcases hfile : w.disk.isFile artifact with why | isFile
  · exact Act.agreesAt_of_error (promote_of_refused hfile)
      (promote_of_refused (hfound.isFile ▸ hfile)) htwins
  cases isFile with
  | false =>
    exact Act.agreesAt_of_ok (promote_of_no_file hfile)
      (promote_of_no_file (hfound.isFile ▸ hfile)) htwins
  | true =>
    have hleaf := ne_directory_of_isFile hfile
    obtain ⟨loc, bytes, access, hfind⟩ := isFile_eq_true_iff.mp hfile
    have hempty := isEmptyFile_of_find hfind
    have hfile' := hfound.isFile ▸ hfile
    have hempty' := hfound.isEmptyFile ▸ hempty
    by_cases hbytes : bytes = []
    · rw [decide_eq_true hbytes] at hempty hempty'
      refine .congr (promote_of_empty file hfile hempty) (promote_of_empty file hfile' hempty') ?_
      exact (unlink_agreesAt htwins hfound).bind (fun _ _ h => h) fun _ _ _ _ _ hafter =>
        (Act.composes_agrees _).pure false _ _ hafter
    rw [decide_eq_false hbytes] at hempty hempty'
    rcases hpresent : w.disk.present file with why | present
    · exact Act.agreesAt_of_error (promote_of_unanswered hfile hempty hpresent)
        (promote_of_unanswered hfile' hempty' (htarget.present ▸ hpresent)) htwins
    cases present with
    | false =>
      exact .congr (promote_of_absent hfile hempty hpresent)
        (promote_of_absent hfile' hempty' (htarget.present ▸ hpresent))
        (moveOver_agreesAt htwins hname inside_file hfound hleaf)
    | true =>
      refine .congr (promote_of_present hfile hempty hpresent)
        (promote_of_present hfile' hempty' (htarget.present ▸ hpresent)) ?_
      refine (unlink_agreesAt htwins htarget).bind (fun _ _ h => h) fun _ w' v' hw _ hafter => ?_
      refine moveOver_agreesAt hafter hname inside_file (hsame w' v' hafter) fun q hq => ?_
      obtain ⟨disk, hunlink, rfl⟩ := Act.disk_of_change hw
      obtain ⟨t, held, ht, hheld, rfl⟩ := unlink_cases hunlink
      have hthin := w.disk.thinner_eraseWithin (Tree.ne_nil_of_get? (find_fits ht) hheld)
      exact hleaf q (hthin.directory htwins.left.sound hq)

end

/-! ### Removing artifacts -/

/-- The system takes the path of a name in a directory, and the name. -/
def Path.Takes (path : Path) (name : String) : Prop :=
  (path.child name).Nameable ∧ name.utf8ByteSize ≤ nameMax

instance (path : Path) (name : String) : Decidable (path.Takes name) :=
  inferInstanceAs (Decidable (_ ∧ _))

/-- A name that is not taken is looked up in vain in a directory that is reached. -/
theorem Disk.find_child_of_not_takes {path : Path} {name : String} {loc : Loc} {disk : Disk}
    (hdir : disk.find .followed path = .ok (.present loc .directory)) (hname : Path.Ordinary name)
    (htakes : ¬path.Takes name) :
    disk.find .followed (path.child name) =
      .error (if (path.child name).hasNul then .nul else .nameTooLong) := by
  refine find_followed_of_ne_link ?_ nofun
  by_cases hpath : (path.child name).Nameable
  · have hlong : nameMax < name.utf8ByteSize := Nat.not_le.mp fun hshort => htakes ⟨hpath, hshort⟩
    rw [find_child hname hpath, hdir, hpath.1]
    simp only [lookUp, if_pos hlong]
    rfl
  · exact find_of_not_nameable hpath _

section

variable (hname : name ∈ artifactNames file outputName) (hout : Path.Component outputName)
  (hsealed : Sealed file outputName dir base w.disk)

include hname hout hsealed

/-- An artifact that can be named is erased, if it is there. -/
theorem remove_of_takes (htakes : file.parent.Takes name) :
    (Act.remove (file.parent.child name) : Act σ Bool) w =
      .ok (w.disk.tree.get? (dir ++ [name])).isSome
        { w with disk := w.disk.eraseWithin (dir ++ [name]) } := by
  have hordinary := ordinary_of_mem_artifactNames hout hname
  have hinside : Inside (fileLocs file outputName dir) (dir ++ [name]) :=
    inside_fileLocs (inside_artifact hname [])
  have hfind := find_child_of_reached hordinary htakes.2 htakes.1 hsealed.reached_whole
  have hfollowed : w.disk.find .followed (file.parent.child name) =
      w.disk.find .itself (file.parent.child name) := by
    refine find_followed_of_ne_link rfl fun loc target hlink => ?_
    rcases hsealed.loc_of_child hordinary hlink with h | ⟨_, h⟩ <;> cases h
    exact hsealed.plain _ target hinside (find_fits hlink)
  rcases Act.remove_child_cases file.parent hsealed.sound hordinary with
    ⟨hmissing, hremove⟩ | ⟨hpath, -⟩ | ⟨loc, entry, hpresent, hremove⟩ | ⟨loc, hpresent, hcut, -⟩
  · have hnone : w.disk.tree.get? (dir ++ [name]) = none := by
      cases hentry : w.disk.tree.get? (dir ++ [name]) with
      | none => rfl
      | some entry =>
        rw [hfind, hentry] at hmissing
        exact absurd hmissing not_missing_present
    rw [hremove, hnone, hsealed.sound.eraseWithin_of_missing hnone]
    rfl
  · refine absurd (fun why hwhy => ?_) hpath
    rw [hfollowed, hfind] at hwhy
    split at hwhy <;> cases hwhy
  · rcases hsealed.loc_of_child hordinary hpresent with h | ⟨_, h⟩ <;> cases h
    rw [hremove, show w.disk.tree.get? _ = _ from find_fits hpresent]
    rfl
  · rcases hsealed.loc_of_child hordinary hpresent with h | ⟨_, h⟩ <;> cases h
    exact absurd (hsealed.toAround.eraseBelow hinside (find_fits hpresent)).reached_whole (hcut dir)

/-- An artifact that cannot be named is not removed. -/
theorem remove_of_not_takes (hnul : (file.parent.child name).hasNul = false)
    (htakes : ¬file.parent.Takes name) :
    (Act.remove (file.parent.child name) : Act σ Bool) w =
      .error (.refused .nameTooLong (some (file.parent.child name).toString) none) w := by
  have hfind := find_child_of_not_takes hsealed.reached_whole
    (ordinary_of_mem_artifactNames hout hname) htakes
  rw [hnul] at hfind
  exact Act.remove_of_refused hfind rfl

end

theorem remove_agrees (hname : name ∈ artifactNames file outputName)
    (hout : Path.Component outputName) (hnul : (file.parent.child name).hasNul = false) :
    (Act.remove (file.parent.child name) : Act σ Bool).Agrees
      (World.Twins file outputName dir (fileLocs file outputName dir) base base') := by
  intro w v htwins
  have hinside : Inside (fileLocs file outputName dir) (dir ++ [name]) :=
    inside_fileLocs (inside_artifact hname [])
  by_cases htakes : file.parent.Takes name
  · have hremove := remove_of_takes hname hout htwins.right htakes
    rw [← htwins.same _ hinside] at hremove
    exact Act.agreesAt_of_ok (remove_of_takes hname hout htwins.left htakes) hremove
      (Disk.Twins.eraseWithin htwins hinside (by simp))
  · exact Act.agreesAt_of_error (remove_of_not_takes hname hout htwins.left hnul htakes)
      (remove_of_not_takes hname hout htwins.right hnul htakes) htwins

theorem reconcile_agrees (hout : Path.Component outputName) (hname : Path.Ordinary file.name)
    (hnul : file.hasNul = false) (convention : Convention) :
    (convention.reconcile (ofFile file outputName) : Act σ (Option Path)).Agrees
      (World.Twins file outputName dir (fileLocs file outputName dir) base base') := by
  have hfile := Path.ordinary_ne_empty hname
  have htemp : file.name ++ ".temp" ∈ artifactNames file outputName := by simp [artifactNames]
  refine reconcile_ofFile (Act.composes_agrees _) hfile hout (fun _ => promote_agrees hout hname)
    (fun w v htwins => ?_) (remove_agrees htemp hout (hasNul_artifact hfile hout hnul htemp))
    convention
  exact Act.agreesAt_ask (Disk.FullTwins.sameAt_artifact htwins hout htemp).isDirectory htwins

/-! ### Commands -/

/-- The directory of a file is reached, and neither the file nor an artifact holds a link. -/
structure Disk.Plain (file : Path) (outputName : String) (dir : Loc) (disk : Disk) : Prop where
  sound : disk.Sound
  reached : disk.find .followed file.parent = .ok (.present dir .directory)
  linkless : ∀ loc target, Inside (fileLocs file outputName dir) loc →
    disk.tree.get? loc ≠ some (.link target)

theorem Disk.Sealed.toPlain {disk : Disk} (hsealed : Sealed file outputName dir base disk) :
    Plain file outputName dir disk :=
  ⟨hsealed.sound, hsealed.reached_whole, hsealed.plain⟩

/-- A command reads and writes only what lies at a file and its artifacts.  It makes no links
there, opens no log, and does not fail in a way that ends a walk. -/
structure Runner.Local (runner : Runner σ) (file : Path) (outputName : String)
    (command : Command) : Prop where
  changes : ∀ disk tools dir, Plain file outputName dir disk →
    ChangedAt file outputName dir disk (runner command disk tools).2.1
  log : ∀ disk tools dir, Plain file outputName dir disk →
    ∀ loc, (runner command disk tools).2.1.log = some loc → disk.log = some loc
  alike : ∀ disk disk' tools tools' dir, Plain file outputName dir disk →
    Plain file outputName dir disk' →
    (∀ loc, Inside (fileLocs file outputName dir) loc →
      disk.tree.get? loc = disk'.tree.get? loc) →
    (runner command disk tools).1 = (runner command disk' tools').1 ∧
      ∀ loc, Inside (fileLocs file outputName dir) loc →
        (runner command disk tools).2.1.tree.get? loc =
          (runner command disk' tools').2.1.tree.get? loc
  minor : ∀ disk tools fault, (runner command disk tools).1 = .error fault → fault.isMinor = true

theorem Disk.Sealed.ran {runner : Runner σ} {command : Command} {disk : Disk}
    (hlocal : runner.Local file outputName command)
    (hsealed : Sealed file outputName dir base disk) (tools : σ) :
    Sealed file outputName dir base (runner command disk tools).2.1 := by
  have hchange := hlocal.changes disk tools dir hsealed.toPlain
  refine hsealed.of_around ⟨?_, hsealed.reached⟩ (fun loc target hloc hlink => ?_)
    (hlocal.log disk tools dir hsealed.toPlain)
  · exact hsealed.toSurrounds.of_without_eq (fun loc => ne_nil_of_mem_fileLocs)
      (fun loc hloc => ⟨loc, hloc, List.prefix_rfl⟩) hchange.sound hchange.same
  · exact hsealed.plain loc target hloc (hchange.links loc target hlink)

namespace Engine

variable {engine : Engine σ}

/-- The steps keep to a file: their commands for it do, and a step that has no command for it
does not fail in a way that ends a walk. -/
structure KeepsTo (engine : Engine σ) (file : Path) : Prop where
  tools : ∀ command, engine.IsFor file command →
    engine.runner.Local file engine.settings.outputDirName command
  commands : ∀ step ∈ engine.steps, ∀ fault,
    step.command (.ofFile file engine.settings.outputDirName) = .error fault → fault.isMinor = true

theorem run_agrees {command : Command} (hlocal : engine.runner.Local file outputName command) :
    (engine.run command).Agrees
      (World.Twins file outputName dir (fileLocs file outputName dir) base base') := by
  intro w v htwins
  have halike := hlocal.alike w.disk v.disk w.tools v.tools dir htwins.left.toPlain
    htwins.right.toPlain htwins.same
  refine ⟨by rw [result_run, result_run, halike.1], ?_⟩
  rw [final_run, final_run]
  exact ⟨htwins.left.ran hlocal w.tools, htwins.right.ran hlocal v.tools, htwins.part, halike.2⟩

theorem runSteps_agrees (hkeeps : engine.KeepsTo file)
    (hout : Path.Component engine.settings.outputDirName) (hname : Path.Ordinary file.name)
    (hnul : file.hasNul = false) (total index : Nat) :
    (engine.runSteps (.ofFile file engine.settings.outputDirName) total index
      engine.steps).Agrees (World.Twins file engine.settings.outputDirName dir
        (fileLocs file engine.settings.outputDirName dir) base base') :=
  (Act.composes_agrees _).runSteps (fun level message => say_agrees engine.reporter level message)
    (fun step hstep argv hargv => run_agrees (hkeeps.tools _ ⟨step, hstep, argv, hargv, rfl⟩))
    fun convention => reconcile_agrees hout hname hnul convention

end Engine

end Unscramble
