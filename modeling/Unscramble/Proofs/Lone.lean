import Unscramble.Proofs.Agreement
import Unscramble.Proofs.Attempt
import Unscramble.Proofs.Course
import Unscramble.Proofs.Fold
import Unscramble.Proofs.Gate

/-!
# A file by itself

How a file fares, and what is left at it, is decided by what lay at the file: where two
disks are alike there, processing it ends alike.  Apart from that it only takes staging
directories away and adds lines to the log.
-/

namespace Unscramble

open Disk Workspace

variable {σ α : Type} {file : Path} {outputName : String} {dir : Loc} {locs locs' : List Loc}
  {base base' disk disk' : Disk}

/-! ## The workspace -/

/-- Inside some locations nothing is new. -/
def Disk.NothingNew (locs : List Loc) (disk disk' : Disk) : Prop :=
  ∀ loc, Inside locs loc → disk'.tree.get? loc = none ∨ disk'.tree.get? loc = disk.tree.get? loc

theorem Disk.Sealed.without (hsealed : Sealed file outputName dir base disk)
    (hlocs : ∀ loc ∈ locs, loc ∈ artifactLocs file outputName dir) :
    Sealed file outputName dir base (disk.without locs) := by
  induction locs generalizing disk with
  | nil => exact hsealed
  | cons loc rest ih =>
    obtain ⟨hloc, hrest⟩ := List.forall_mem_cons.mp hlocs
    exact ih (hsealed.eraseWithin (inside_fileLocs ⟨loc, hloc, List.prefix_rfl⟩)
      (ne_nil_of_mem_artifactLocs hloc)) hrest

namespace Disk.Twins

variable (htwins : Twins file outputName dir locs base base' disk disk')

include htwins

theorem narrow (hlocs : ∀ loc, Inside locs' loc → Inside locs loc) :
    Twins file outputName dir locs' base base' disk disk' where
  left := htwins.left
  right := htwins.right
  part loc hloc := htwins.part loc (hlocs loc hloc)
  same loc hloc := htwins.same loc (hlocs loc hloc)

theorem without {gone : List Loc} (hgone : ∀ loc ∈ gone, loc ∈ artifactLocs file outputName dir) :
    Twins file outputName dir locs base base' (disk.without gone) (disk'.without gone) where
  left := htwins.left.without hgone
  right := htwins.right.without hgone
  part := htwins.part
  same loc hloc := by
    have hne (loc : Loc) (hloc : loc ∈ gone) := ne_nil_of_mem_artifactLocs (hgone loc hloc)
    rw [get?_without_zone hne, get?_without_zone hne, htwins.same loc hloc]

/-- Once the artifacts are gone, disks that are alike at the file are alike at these too. -/
theorem cleared (hfile : Inside locs (dir ++ [file.name])) :
    FullTwins file outputName dir base base' (disk.without (artifactLocs file outputName dir))
      (disk'.without (artifactLocs file outputName dir)) where
  left := htwins.left.without fun _ hloc => hloc
  right := htwins.right.without fun _ hloc => hloc
  part _ hloc := hloc
  same loc hloc := by
    have hne (loc : Loc) (hloc : loc ∈ artifactLocs file outputName dir) :=
      ne_nil_of_mem_artifactLocs hloc
    rw [get?_without_zone hne, get?_without_zone hne]
    split
    · rfl
    · next hoff =>
      obtain ⟨z, hz, hpre⟩ := hloc
      rcases List.mem_cons.mp hz with rfl | hartifact
      · exact htwins.same loc (hfile.trans hpre)
      · exact absurd ⟨z, hartifact, hpre⟩ hoff

end Disk.Twins

/-- Two runs over a file that were begun in two worlds have come to worlds that are alike at
the file, and neither has left anything new at the artifacts. -/
structure World.Abreast (file : Path) (outputName : String) (dir : Loc) (base base' : Disk)
    (w v w' v' : World σ) : Prop where
  twins : w'.Twins file outputName dir [dir ++ [file.name]] base base' v'
  left : NothingNew (artifactLocs file outputName dir) w.disk w'.disk
  right : NothingNew (artifactLocs file outputName dir) v.disk v'.disk

theorem Disk.Sealed.nothingNew_logged (hsealed : Sealed file outputName dir base disk)
    (line : String) :
    NothingNew (artifactLocs file outputName dir) disk (disk.logged line) := fun loc hloc =>
  .inr (get?_logged line (hsealed.unlogged loc (inside_fileLocs hloc)))

theorem Disk.NothingNew.trans {disk'' : Disk} (hfirst : NothingNew locs disk disk')
    (hsecond : NothingNew locs disk' disk'') : NothingNew locs disk disk'' := fun loc hloc =>
  (hsecond loc hloc).elim .inl fun hsame => hsame ▸ hfirst loc hloc

theorem Disk.nothingNew_without (hlocs : ∀ loc ∈ locs', loc ≠ []) (disk : Disk) :
    NothingNew locs disk (disk.without locs') := by
  intro loc _
  rw [get?_without_zone hlocs]
  split
  · exact .inl rfl
  · exact .inr rfl

section Release

variable {w : World σ} {names : List String}

theorem forM_remove_of_takes (hout : Path.Component outputName)
    (hnames : ∀ name ∈ names, name ∈ artifactNames file outputName)
    (htakes : ∀ name ∈ names, file.parent.Takes name)
    (hsealed : Sealed file outputName dir base w.disk) :
    (((names.map file.parent.child).forM fun path => discard (Act.remove path)) : Act σ Unit) w =
      .ok () { w with disk := w.disk.without (names.map (dir ++ [·])) } := by
  induction names generalizing w with
  | nil => rfl
  | cons name rest ih =>
    obtain ⟨hname, hrest⟩ := List.forall_mem_cons.mp hnames
    obtain ⟨hfits, hothers⟩ := List.forall_mem_cons.mp htakes
    have hremove := Act.discard_of_ok (remove_of_takes hname hout hsealed hfits)
    refine (Act.bind_of_ok hremove).trans (ih hrest hothers ?_)
    exact hsealed.eraseWithin (inside_fileLocs (inside_artifact hname [])) (by simp)

/-- The first artifact that cannot be named ends the removal, wherever it is done. -/
theorem forM_remove_of_not_takes (dir : Loc) (hout : Path.Component outputName)
    (hnul : ∀ name ∈ names, (file.parent.child name).hasNul = false)
    (hnames : ∀ name ∈ names, name ∈ artifactNames file outputName)
    (htakes : ¬∀ name ∈ names, file.parent.Takes name) :
    ∃ fault gone, (∀ loc ∈ gone, loc ∈ artifactLocs file outputName dir) ∧
      ∀ base (w : World σ), Sealed file outputName dir base w.disk →
        (((names.map file.parent.child).forM fun path => discard (Act.remove path)) : Act σ Unit) w =
          .error fault { w with disk := w.disk.without gone } := by
  induction names with
  | nil => exact absurd (by simp) htakes
  | cons name rest ih =>
    obtain ⟨hname, hrest⟩ := List.forall_mem_cons.mp hnames
    obtain ⟨hnul, hnulrest⟩ := List.forall_mem_cons.mp hnul
    by_cases hfits : file.parent.Takes name
    · obtain ⟨fault, gone, hgone, hrun⟩ := ih hnulrest hrest fun hothers =>
        htakes (List.forall_mem_cons.mpr ⟨hfits, hothers⟩)
      refine ⟨fault, (dir ++ [name]) :: gone,
        List.forall_mem_cons.mpr ⟨List.mem_map_of_mem hname, hgone⟩, fun base w hsealed => ?_⟩
      have hremove := Act.discard_of_ok (remove_of_takes hname hout hsealed hfits)
      refine (Act.bind_of_ok hremove).trans (hrun base _ ?_)
      exact hsealed.eraseWithin (inside_fileLocs (inside_artifact hname [])) (by simp)
    · exact ⟨_, [], by simp, fun base w hsealed =>
        Act.bind_of_error (Act.discard_of_error
          (remove_of_not_takes hname hout hsealed hnul hfits))⟩

/-- Where the artifacts can be named, they are removed and a staging directory is made. -/
theorem use_of_takes (hname : Path.Ordinary file.name) (hout : Path.Component outputName)
    (htakes : ∀ name ∈ artifactNames file outputName, file.parent.Takes name)
    (hsealed : Sealed file outputName dir base w.disk) (body : Workspace → Act σ α) :
    use file outputName body w =
      Act.always (body (ofFile file outputName)) (ofFile file outputName).release
        { w with disk := staged w.disk file outputName dir } := by
  have hrelease : ((ofFile file outputName).release : Act σ Unit) w =
      .ok () { w with disk := w.disk.without (artifactLocs file outputName dir) } := by
    rw [release_ofFile (Path.ordinary_ne_empty hname) hout]
    exact forM_remove_of_takes hout (fun _ h => h) htakes hsealed
  have hmem : outputName ∈ artifactNames file outputName := by simp [artifactNames]
  have hcleared := hsealed.without fun _ hloc => hloc
  have hmake : (w.disk.without (artifactLocs file outputName dir)).makeDirectory
      (ofFile file outputName).outputDir = .ok (staged w.disk file outputName dir) := by
    have hfree : (w.disk.without (artifactLocs file outputName dir)).tree.get?
        (dir ++ [outputName]) = none := by
      rw [get?_without_zone fun loc => ne_nil_of_mem_artifactLocs,
        if_pos (inside_artifact hmem [])]
    rw [outputDir_ofFile hout, makeDirectory,
      find_child_of_reached hout.1 (htakes _ hmem).2 (htakes _ hmem).1 hcleared.reached_whole, hfree]
    rfl
  exact (Act.bind_of_ok hrelease).trans (Act.bind_of_ok (Act.makeDirectories_of_ok hmake _))

/-- In a workspace an action ends alike if it does so where the artifacts are alike, too; nothing
new is left at the artifacts. -/
theorem use_agreesAt {v : World σ} (hname : Path.Ordinary file.name)
    (hout : Path.Component outputName) (hnul : file.hasNul = false) {body : Workspace → Act σ α}
    (hbody : (body (ofFile file outputName)).Agrees
      (World.Twins file outputName dir (fileLocs file outputName dir) base base'))
    (htwins : w.Twins file outputName dir [dir ++ [file.name]] base base' v) :
    (use file outputName body).AgreesAt (World.Abreast file outputName dir base base' w v) w v := by
  have hfile := Path.ordinary_ne_empty hname
  have hself : Inside [dir ++ [file.name]] (dir ++ [file.name]) := ⟨_, by simp, List.prefix_rfl⟩
  by_cases htakes : ∀ name ∈ artifactNames file outputName, file.parent.Takes name
  · have hmem : outputName ∈ artifactNames file outputName := by simp [artifactNames]
    have hgone (disk : Disk) (loc : Loc) (hloc : Inside (artifactLocs file outputName dir) loc) :
        (disk.without (artifactLocs file outputName dir)).tree.get? loc = none := by
      rw [get?_without_zone fun loc => ne_nil_of_mem_artifactLocs, if_pos hloc]
    have hstaged : FullTwins file outputName dir base base' (staged w.disk file outputName dir)
        (staged v.disk file outputName dir) :=
      (Twins.cleared htwins hself).insert (inside_fileLocs (inside_artifact hmem [])) hout.1
        (hgone _ _ (inside_artifact hmem [])) (hgone _ _ (inside_artifact hmem []))
    refine .congr (use_of_takes hname hout htakes htwins.left body)
      (use_of_takes hname hout htakes htwins.right body) ?_
    refine (hbody { w with disk := staged w.disk file outputName dir }
      { v with disk := staged v.disk file outputName dir } hstaged).always fun w' v' hafter => ?_
    have hrelease {base : Disk} {w : World σ} (hsealed : Sealed file outputName dir base w.disk) :
        ((ofFile file outputName).release : Act σ Unit) w =
          .ok () { w with disk := w.disk.without (artifactLocs file outputName dir) } := by
      rw [release_ofFile hfile hout]
      exact forM_remove_of_takes hout (fun _ h => h) htakes hsealed
    refine Act.agreesAt_of_ok (hrelease hafter.left) (hrelease hafter.right)
      ⟨?_, fun loc hloc => .inl (hgone _ loc hloc), fun loc hloc => .inl (hgone _ loc hloc)⟩
    refine (Twins.without hafter fun _ hloc => hloc).narrow fun loc hloc => ?_
    obtain ⟨z, hz, hpre⟩ := hloc
    exact ⟨z, by simp_all [fileLocs], hpre⟩
  · obtain ⟨fault, gone, hgone, hrun⟩ := forM_remove_of_not_takes (σ := σ) dir hout
      (fun name hname => hasNul_artifact hfile hout hnul hname) (fun _ h => h) htakes
    rw [← release_ofFile hfile hout] at hrun
    have hne (loc : Loc) (hloc : loc ∈ gone) := ne_nil_of_mem_artifactLocs (hgone loc hloc)
    exact Act.agreesAt_of_error (Act.bind_of_error (hrun base w htwins.left))
      (Act.bind_of_error (hrun base' v htwins.right))
      ⟨Twins.without htwins hgone, nothingNew_without hne _, nothingNew_without hne _⟩

end Release

/-! ## The steps -/

namespace Engine

variable {engine : Engine σ} {w v : World σ}

/-- How the steps of a run end is decided by what lies at the file; nothing new is left at the
artifacts. -/
theorem work_agreesAt (hkeeps : engine.KeepsTo file)
    (hout : Path.Component engine.settings.outputDirName) (hname : Path.Ordinary file.name)
    (hnul : file.hasNul = false)
    (htwins : w.Twins file engine.settings.outputDirName dir [dir ++ [file.name]] base base' v) :
    (engine.work file).AgreesAt
      (World.Abreast file engine.settings.outputDirName dir base base' w v) w v := by
  let line := "Deobfuscating file: " ++ file.toString
  have hsaid : (w.said engine.reporter .info line).Twins file engine.settings.outputDirName dir
      [dir ++ [file.name]] base base' (v.said engine.reporter .info line) :=
    Twins.logged htwins _ _
  have huse : (use file engine.settings.outputDirName fun ws =>
      engine.runSteps ws engine.steps.length 1 engine.steps).AgreesAt _ _ _ :=
    use_agreesAt hname hout hnul (runSteps_agrees hkeeps hout hname hnul _ 1) hsaid
  refine .congr (Act.bind_of_ok (engine.reporter.info_eq line w))
    (Act.bind_of_ok (engine.reporter.info_eq line v)) ?_
  exact ⟨huse.1, huse.2.twins, (htwins.left.nothingNew_logged _).trans huse.2.left,
    (htwins.right.nothingNew_logged _).trans huse.2.right⟩

end Engine

/-! ## The verdict -/

namespace Engine

variable {engine : Engine σ} {reply : String → Except Fault Completed} {w v : World σ}

/-- What the detector replies depends on the text alone.  It changes nothing, and does not fail
in a way that ends a walk. -/
structure Replies (engine : Engine σ) (reply : String → Except Fault Completed) : Prop where
  answer : ∀ text disk tools, (engine.runner (engine.detectCommand text) disk tools).1 = reply text
  unchanged : ∀ text disk tools, (engine.runner (engine.detectCommand text) disk tools).2.1 = disk
  minor : ∀ text fault, reply text = .error fault → fault.isMinor = true

/-- The detector is known to be at hand. -/
def Provided (engine : Engine σ) (w : World σ) : Prop :=
  (.project, engine.settings.detectorPackage) ∈ w.ensured

theorem isMinor_accusation {ran : Except Fault Completed} {fault : Fault}
    (hfault : accusation ran = .error fault) : fault.isMinor = true := by
  cases ran with
  | error why =>
    cases hfault
    rfl
  | ok completed =>
    cases hverdict : verdict (completed.stdout.getD "") with
    | ok kind =>
      rw [accusation, hverdict] at hfault
      cases hfault
    | error why =>
      rw [accusation, hverdict] at hfault
      cases hfault
      unfold verdict at hverdict
      split at hverdict <;> cases hverdict <;> rfl

/-- Where the detector is at hand, what is found of a text depends on the text alone. -/
theorem isObfuscated_agreesAt (hreplies : engine.Replies reply) (text : String)
    (hknown : engine.Provided w) (hknown' : engine.Provided v) :
    (engine.isObfuscated text).AgreesAt (fun w' v' => w'.disk = w.disk ∧ v'.disk = v.disk) w v := by
  let R (w' v' : World σ) : Prop := w'.disk = w.disk ∧ v'.disk = v.disk
  have hrun : (engine.run (engine.detectCommand text)).Agrees R := by
    intro w' v' hsame
    refine ⟨by rw [result_run, result_run, hreplies.answer, hreplies.answer], ?_⟩
    rw [final_run, final_run]
    exact ⟨(hreplies.unchanged text _ _).trans hsame.1, (hreplies.unchanged text _ _).trans hsame.2⟩
  have hasked : (engine.tryRun (engine.detectCommand text) >>= fun ran =>
      Act.lift (accusation ran)).Agrees R :=
    (Act.composes_agrees R).bind ((Act.composes_agrees R).tryRun hrun) fun ran w' v' hsame => by
      rw [Act.AgreesAt, Act.result_lift, Act.result_lift, Act.final_lift, Act.final_lift]
      exact ⟨rfl, hsame⟩
  rw [isObfuscated_eq]
  exact .congr (Act.bind_of_ok (Act.discard_of_ok (engine.ensure_of_known hknown)))
    (Act.bind_of_ok (Act.discard_of_ok (engine.ensure_of_known hknown'))) (hasked w v ⟨rfl, rfl⟩)

theorem isObfuscated_minor (hreplies : engine.Replies reply) {text : String} {w' : World σ}
    {fault : Fault} (hrun : engine.isObfuscated text w = .error fault w')
    (hknown : engine.Provided w) : fault.isMinor = true := by
  rw [isObfuscated_eq,
    Act.bind_of_ok (Act.discard_of_ok (engine.ensure_of_known hknown))] at hrun
  have hlift (ran : Except Fault Completed) (w₁ : World σ)
      (hlift : (Act.lift (accusation ran) : Act σ Bool) w₁ = .error fault w') :
      fault.isMinor = true :=
    isMinor_accusation ((Act.result_lift _ w₁).symm.trans (Act.result_of_error hlift))
  rcases engine.tryRun_cases (engine.detectCommand text) w with
    ⟨completed, -, htry⟩ | ⟨why, -, -, htry⟩ | ⟨why, -, hreply, htry⟩
  · rw [Act.bind_of_ok htry] at hrun
    exact hlift _ _ hrun
  · rw [Act.bind_of_ok htry] at hrun
    exact hlift _ _ hrun
  · rw [Act.bind_of_error htry] at hrun
    cases hrun
    rw [hreplies.answer] at hreply
    exact hreplies.minor text _ hreply

theorem readFile_agreesAt {R : World σ → World σ → Prop} (hrelated : R w v)
    (hread : w.disk.readBytes file = v.disk.readBytes file) :
    (readFile file : Act σ String).AgreesAt R w v := by
  refine (Act.agreesAt_ask hread hrelated).bind (fun _ _ h => h) fun bytes w' v' _ _ h => ?_
  cases Text.read bytes with
  | ok text => exact (Act.composes_agrees R).pure text w' v' h
  | error what => exact (Act.composes_agrees R).throw (.malformed what) w' v' h

/-- How a file is judged depends on the bytes it holds. -/
theorem judge_agreesAt (hreplies : engine.Replies reply) (hknown : engine.Provided w)
    (hknown' : engine.Provided v) (hread : w.disk.readBytes file = v.disk.readBytes file) :
    (engine.judge file).AgreesAt
      (fun w' v' => w.disk.OnlyLogs w'.disk ∧ v.disk.OnlyLogs v'.disk) w v := by
  have hstart : (readFile file : Act σ String).AgreesAt (fun w' v' => w' = w ∧ v' = v) w v :=
    readFile_agreesAt ⟨rfl, rfl⟩ hread
  refine hstart.bind ?_ fun text w' v' _ _ h => ?_
  · rintro _ _ ⟨rfl, rfl⟩
    exact ⟨refl _, refl _⟩
  obtain ⟨rfl, rfl⟩ := h
  let line := "Processing " ++ file.toString ++ "..."
  have hasked : (engine.isObfuscated text).AgreesAt _ (w'.said engine.reporter .info line)
      (v'.said engine.reporter .info line) := isObfuscated_agreesAt hreplies text hknown hknown'
  refine .congr (Act.bind_of_ok (engine.reporter.info_eq line w'))
    (Act.bind_of_ok (engine.reporter.info_eq line v')) (hasked.bind ?_ ?_)
  · rintro w₁ v₁ ⟨hw, hv⟩
    rw [hw, hv]
    exact ⟨⟨[_], rfl⟩, ⟨[_], rfl⟩⟩
  · rintro obfuscated w₁ v₁ - - ⟨hw, hv⟩
    refine Act.agreesAt_of_ok (Act.bind_of_ok (engine.reporter.info_eq _ w₁))
      (Act.bind_of_ok (engine.reporter.info_eq _ v₁)) ⟨?_, ?_⟩
    · rw [show (w₁.said _ _ _).disk = w₁.disk.logged _ from rfl, hw]
      exact ⟨[_, _], rfl⟩
    · rw [show (v₁.said _ _ _).disk = v₁.disk.logged _ from rfl, hv]
      exact ⟨[_, _], rfl⟩

theorem judge_minor (hreplies : engine.Replies reply) (hknown : engine.Provided w) {w' : World σ}
    {fault : Fault} (hrun : engine.judge file w = .error fault w') : fault.isMinor = true := by
  rcases readFile_cases file w with ⟨text, -, hread⟩ | ⟨why, hread, -⟩
  · have hstart := engine.reporter.info_eq ("Processing " ++ file.toString ++ "...") w
    cases hasked : engine.isObfuscated text
        (w.said engine.reporter .info ("Processing " ++ file.toString ++ "...")) with
    | error why w₁ =>
      have hjudge : engine.judge file w = .error why w₁ :=
        (Act.bind_of_ok hread).trans ((Act.bind_of_ok hstart).trans (Act.bind_of_error hasked))
      rw [hjudge] at hrun
      cases hrun
      exact isObfuscated_minor hreplies hasked hknown
    | ok obfuscated w₁ =>
      have hjudge : engine.judge file w = .ok obfuscated _ :=
        (Act.bind_of_ok hread).trans ((Act.bind_of_ok hstart).trans ((Act.bind_of_ok hasked).trans
          (Act.bind_of_ok (engine.reporter.info_eq _ w₁))))
      rw [hjudge] at hrun
      cases hrun
  · have hjudge : engine.judge file w = .error why w := Act.bind_of_error hread
    rw [hjudge] at hrun
    cases hrun
    exact readFile_minor file w fault _ hread

end Engine

/-! ## A file that is ready -/

/-- A file can be processed by itself: its directory does not lie behind it or an artifact,
no link and no log lies there, it is no directory, and of its artifacts only the staging
directory may be there already. -/
structure Disk.Ready (file : Path) (outputName : String) (dir : Loc) (disk : Disk) : Prop where
  sound : disk.Sound
  reached : (disk.without (fileLocs file outputName dir)).find .followed file.parent =
    .ok (.present dir .directory)
  linkless : ∀ loc target, Inside (fileLocs file outputName dir) loc →
    disk.tree.get? loc ≠ some (.link target)
  unlogged : ∀ loc, Inside (fileLocs file outputName dir) loc → disk.log ≠ some loc
  leaf : disk.tree.get? (dir ++ [file.name]) ≠ some .directory
  fresh : ∀ name ∈ artifactNames file outputName,
    name = outputName ∨ disk.tree.get? (dir ++ [name]) = none

theorem inside_fileLocs_iff {loc : Loc} : Inside (fileLocs file outputName dir) loc ↔
    dir ++ [file.name] <+: loc ∨ Inside (artifactLocs file outputName dir) loc := by
  simp [Inside, fileLocs]

/-- What is a directory outside the staging directories lies neither at a leaf nor at one of
its artifacts, if these are not there yet. -/
theorem Disk.Sound.outside_of_directory {root loc : Loc} (hsound : disk.Sound) (hroot : root <+: dir)
    (hleaf : disk.tree.get? (dir ++ [file.name]) ≠ some .directory)
    (hfresh : ∀ name ∈ artifactNames file outputName,
      name = outputName ∨ disk.tree.get? (dir ++ [name]) = none)
    (hloc : disk.tree.get? loc = some .directory) (huncovered : ¬Covered root outputName loc) :
    ¬Inside (fileLocs file outputName dir) loc := by
  have hheld {z : Loc} (hz : disk.tree.get? z ≠ some .directory) : ¬z <+: loc := by
    intro hpre
    by_cases heq : z = loc
    · exact hz (heq ▸ hloc)
    · exact hz (hsound.directory_of_prefix hpre heq hloc)
  rw [inside_fileLocs_iff, not_or]
  refine ⟨hheld hleaf, ?_⟩
  rintro ⟨artifact, hartifact, hpre⟩
  obtain ⟨name, hname, rfl⟩ := List.mem_map.mp hartifact
  rcases hfresh name hname with rfl | hnone
  · exact huncovered (covered_of_below hroot hpre)
  · exact hheld (by simp [hnone]) hpre

/-- A file is ready if its directory is reached without the staging directories, too. -/
theorem Disk.Sound.ready {root : Loc} (hsound : disk.Sound) (hbase : base.Sound)
    (hretains : (base.unstaged root outputName).Retains disk)
    (hopens : (base.unstaged root outputName).Opens file.parent dir) (hroot : root <+: dir)
    (hlinkless : ∀ loc target, Inside (fileLocs file outputName dir) loc →
      disk.tree.get? loc ≠ some (.link target))
    (hunlogged : ∀ loc, Inside (fileLocs file outputName dir) loc → disk.log ≠ some loc)
    (hleaf : disk.tree.get? (dir ++ [file.name]) ≠ some .directory)
    (hfresh : ∀ name ∈ artifactNames file outputName,
      name = outputName ∨ disk.tree.get? (dir ++ [name]) = none) :
    Ready file outputName dir disk where
  sound := hsound
  reached := by
    have hne (z : Loc) (hz : z ∈ fileLocs file outputName dir) := ne_nil_of_mem_fileLocs hz
    have houtside {loc : Loc} (hloc : disk.tree.get? loc = some .directory) :=
      hsound.outside_of_directory hroot hleaf hfresh hloc
    have hrest : (base.unstaged root outputName).Retains
        (disk.without (fileLocs file outputName dir)) := by
      refine ⟨fun loc hloc => ?_, fun loc target => ?_, fun start hstart => ?_⟩
      · have hthere := hretains.directory loc hloc
        rw [get?_without_zone hne, if_neg (houtside hthere (hbase.of_unstaged hloc).2), hthere]
      · rw [get?_without_zone hne, ← hretains.link]
        split
        · next hinside => simpa using hlinkless loc target hinside
        · rfl
      · obtain ⟨-, huncovered⟩ := hbase.workingLoc?_unstaged hstart
        have hworking := hretains.working start hstart
        exact workingLoc?_without hworking
          (houtside (hsound.directory_of_workingLoc? hworking) huncovered)
    obtain ⟨start, hstart⟩ := Option.isSome_iff_exists.mp hopens.starts
    exact hrest.found hstart hopens.found
  linkless := hlinkless
  unlogged := hunlogged
  leaf := hleaf
  fresh := hfresh

namespace Disk.Ready

variable {root : Loc} (hready : Ready file outputName dir disk)

include hready

theorem toSealed :
    Sealed file outputName dir (disk.without (fileLocs file outputName dir)) disk where
  toSurrounds := surrounds_without hready.sound fun _ => ne_nil_of_mem_fileLocs
  reached := hready.reached
  plain := hready.linkless
  unlogged := hready.unlogged

/-- What becomes of a disk if nothing changes but the file and its artifacts, and nothing new
is left at these. -/
theorem course (hroot : root <+: dir)
    (hsealed : Sealed file outputName dir (disk.without (fileLocs file outputName dir)) disk')
    (hnew : NothingNew (artifactLocs file outputName dir) disk disk') :
    Course root outputName [dir ++ [file.name]] disk disk' := by
  have hne (z : Loc) (hz : z ∈ fileLocs file outputName dir) := ne_nil_of_mem_fileLocs hz
  have hlogs {loc : Loc} (hopen : (disk.without (fileLocs file outputName dir)).log = some loc) :
      disk.log = some loc := by
    rw [log_without] at hopen
    exact Surrounds.log_of_filter hopen
  have hartifacts (loc : Loc) (hloc : Inside (artifactLocs file outputName dir) loc) :
      disk'.tree.get? loc = disk.tree.get? loc ∨
        Covered root outputName loc ∧ disk'.tree.get? loc = none := by
    rcases hnew loc hloc with hnone | hsame
    · obtain ⟨artifact, hartifact, hpre⟩ := hloc
      obtain ⟨name, hname, rfl⟩ := List.mem_map.mp hartifact
      rcases hready.fresh name hname with rfl | hfree
      · exact .inr ⟨covered_of_below hroot hpre, hnone⟩
      · left
        by_cases heq : dir ++ [name] = loc
        · rw [hnone, ← heq, hfree]
        · rw [hnone, hready.sound.missing_below (by simp [hfree]) hpre heq]
    · exact .inl hsame
  have hoff {loc : Loc} (hloc : ¬Inside [dir ++ [file.name]] loc)
      (hartifact : ¬Inside (artifactLocs file outputName dir) loc) :
      ¬Inside (fileLocs file outputName dir) loc := by
    rw [inside_fileLocs_iff, not_or]
    exact ⟨by simpa [Inside] using hloc, hartifact⟩
  constructor
  case sound => exact hsealed.sound
  case working =>
    intro start hstart huncovered
    exact hsealed.thinner.workingLoc? (workingLoc?_without hstart
      (hready.sound.outside_of_directory hroot hready.leaf hready.fresh
        (hready.sound.directory_of_workingLoc? hstart) huncovered))
  case log =>
    cases hopen : disk'.log with
    | none => exact .inr rfl
    | some loc =>
      rcases hsealed.log loc hopen with hinside | hbase
      · exact absurd hopen (hsealed.unlogged loc hinside)
      · exact .inl (hlogs hbase).symm
  case shape =>
    intro loc hloc
    by_cases hartifact : Inside (artifactLocs file outputName dir) loc
    · exact (hartifacts loc hartifact).imp_left fun hsame => by rw [Tree.shape, hsame, Tree.shape]
    · left
      rw [hsealed.shape loc (hoff hloc hartifact), Tree.shape, get?_without_zone hne,
        if_neg (hoff hloc hartifact), Tree.shape]
  case kept =>
    intro loc hloc hlog
    by_cases hartifact : Inside (artifactLocs file outputName dir) loc
    · exact hartifacts loc hartifact
    · left
      rw [hsealed.kept loc (hoff hloc hartifact) fun hopen => hlog (hlogs hopen),
        get?_without_zone hne, if_neg (hoff hloc hartifact)]
  case plain =>
    rintro loc target ⟨z, hz, hpre⟩
    exact hsealed.plain loc target ⟨z, by simp_all [fileLocs], hpre⟩

end Disk.Ready

/-! ## Processing a file -/

theorem Disk.Sealed.noted (hsealed : Sealed file outputName dir base disk) (lines : List String) :
    Sealed file outputName dir base (disk.noted lines) := by
  induction lines generalizing disk with
  | nil => exact hsealed
  | cons line rest ih => exact ih (hsealed.logged line)

theorem Disk.Sealed.get?_noted (hsealed : Sealed file outputName dir base disk)
    (lines : List String) {loc : Loc} (hloc : Inside (fileLocs file outputName dir) loc) :
    (disk.noted lines).tree.get? loc = disk.tree.get? loc :=
  Disk.get?_noted lines (hsealed.unlogged loc hloc)

theorem Disk.Twins.noted (htwins : Twins file outputName dir locs base base' disk disk')
    (lines lines' : List String) :
    Twins file outputName dir locs base base' (disk.noted lines) (disk'.noted lines') where
  left := htwins.left.noted lines
  right := htwins.right.noted lines'
  part := htwins.part
  same loc hloc := by
    have hinside := htwins.part loc hloc
    rw [htwins.left.get?_noted lines hinside, htwins.right.get?_noted lines' hinside,
      htwins.same loc hloc]

/-- From two worlds in which files are ready that are alike, the same has become of the files,
and apart from them staging directories have gone and lines have been logged. -/
structure World.Handled (root : Loc) (file : Path) (outputName : String) (dir : Loc)
    (w v w' v' : World σ) : Prop where
  left : Course root outputName [dir ++ [file.name]] w.disk w'.disk
  right : Course root outputName [dir ++ [file.name]] v.disk v'.disk
  same : w'.disk.tree.get? (dir ++ [file.name]) = v'.disk.tree.get? (dir ++ [file.name])

namespace Engine

variable {engine : Engine σ} {reply : String → Except Fault Completed} {root : Loc}
  {w v : World σ}

/-- With its steps done, a run sweeps below the directory of its file and comes to its end. -/
theorem conclude_of_sealed (hout : Path.Component engine.settings.outputDirName)
    (hscope : engine.settings.cleanupScope = .file)
    (hsealed : Sealed file engine.settings.outputDirName dir base w.disk)
    (results : List StepResult) :
    ∃ w', engine.conclude file results w = .ok ⟨file, results⟩ w' ∧
      Swept dir engine.settings.outputDirName w.disk w'.disk := by
  have hcwd {P : Prop} (hworking : engine.settings.cleanupScope = .workingDirectory) : P := by
    rw [hscope] at hworking
    cases hworking
  have hparent : w.disk.Resolvable file.parent := fun why hwhy => by
    rw [hsealed.reached_whole] at hwhy
    cases hwhy
  have hleads : w.disk.Leads file.parent dir := fun p hp => by
    rw [hsealed.reached_whole] at hp
    cases hp
    rfl
  obtain ⟨report, w', hrun⟩ := conclude_succeeds hout hsealed.sound hparent results fun h => hcwd h
  have hswept := conclude_swept hsealed.sound (fun _ => hleads) (fun h => hcwd h) results
  rw [Act.final_of_ok hrun] at hswept
  rw [report_of_conclude hrun] at hrun
  exact ⟨w', hrun, hswept⟩

end Engine

section

variable {root : Loc} {w v w' v' w'' v'' : World σ}
  (hready : Ready file outputName dir w.disk) (hready' : Ready file outputName dir v.disk)

include hready hready'

theorem World.Abreast.handled (hroot : root <+: dir)
    (habreast : World.Abreast file outputName dir (w.disk.without (fileLocs file outputName dir))
      (v.disk.without (fileLocs file outputName dir)) w v w' v') :
    World.Handled root file outputName dir w v w' v' where
  left := hready.course hroot habreast.twins.left habreast.left
  right := hready'.course hroot habreast.twins.right habreast.right
  same := habreast.twins.same _ ⟨_, List.mem_cons_self, List.prefix_rfl⟩

/-- What has been handled stays so while staging directories next to it are swept. -/
theorem World.Handled.swept (hhandled : World.Handled root file outputName dir w v w' v')
    (hroot : root <+: dir) (hother : outputName ≠ file.name)
    (hswept : Swept dir outputName w'.disk w''.disk)
    (hswept' : Swept dir outputName v'.disk v''.disk) :
    World.Handled root file outputName dir w v w'' v'' where
  left := hhandled.left.trans (.swept hroot hswept)
  right := hhandled.right.trans (.swept hroot hswept')
  same := by
    have huncovered : ¬Covered dir outputName (dir ++ [file.name]) := by simp [Covered, hother]
    rw [hswept.kept _ huncovered (hhandled.left.unlogged (hready.unlogged _ inside_file)),
      hswept'.kept _ huncovered (hhandled.right.unlogged (hready'.unlogged _ inside_file)),
      hhandled.same]

end

namespace Engine

variable {engine : Engine σ} {reply : String → Except Fault Completed} {root : Loc}
  {w v : World σ}

/-- Processing a file ends as what lies at the file decides, and so does what it leaves there. -/
theorem processFile_agreesAt (hkeeps : engine.KeepsTo file) (hreplies : engine.Replies reply)
    (hout : Path.Component engine.settings.outputDirName)
    (hother : engine.settings.outputDirName ≠ file.name)
    (hscope : engine.settings.cleanupScope = .file) (hname : Path.Ordinary file.name)
    (hnul : file.hasNul = false) (hroot : root <+: dir)
    (hready : Ready file engine.settings.outputDirName dir w.disk)
    (hready' : Ready file engine.settings.outputDirName dir v.disk)
    (hsame : ∀ loc, Inside [dir ++ [file.name]] loc →
      w.disk.tree.get? loc = v.disk.tree.get? loc)
    (hknown : engine.Provided w) (hknown' : engine.Provided v) :
    (engine.processFile file).AgreesAt
      (World.Handled root file engine.settings.outputDirName dir w v) w v := by
  let out := engine.settings.outputDirName
  let zone := fileLocs file out dir
  have htwins : Twins file out dir [dir ++ [file.name]] (w.disk.without zone)
      (v.disk.without zone) w.disk v.disk := by
    refine ⟨hready.toSealed, hready'.toSealed, ?_, hsame⟩
    rintro loc ⟨z, hz, hpre⟩
    exact ⟨z, by simp_all [fileLocs], hpre⟩
  have hread := (htwins.sameAt_file hname ⟨_, List.mem_cons_self, List.prefix_rfl⟩).readBytes
  have hjudged {w' v' : World σ}
      (hlogs : w.disk.OnlyLogs w'.disk ∧ v.disk.OnlyLogs v'.disk) :
      World.Abreast file out dir (w.disk.without zone) (v.disk.without zone) w v w' v' := by
    obtain ⟨⟨lines, hlines⟩, ⟨lines', hlines'⟩⟩ := hlogs
    refine ⟨?_, fun loc hloc => .inr ?_, fun loc hloc => .inr ?_⟩
    · rw [World.Twins, hlines, hlines']
      exact htwins.noted lines lines'
    · rw [hlines, htwins.left.get?_noted lines (inside_fileLocs hloc)]
    · rw [hlines', htwins.right.get?_noted lines' (inside_fileLocs hloc)]
  rw [processFile_eq]
  refine (judge_agreesAt hreplies hknown hknown' hread).bind
    (fun w' v' hlogs => (hjudged hlogs).handled hready hready' hroot)
    fun obfuscated w' v' _ _ hlogs => ?_
  have habreast := hjudged hlogs
  cases obfuscated with
  | false =>
    exact Act.agreesAt_of_ok rfl rfl (habreast.handled hready hready' hroot)
  | true =>
    have hworked {w₁ v₁ : World σ}
        (hafter : World.Abreast file out dir (w.disk.without zone) (v.disk.without zone)
          w' v' w₁ v₁) :
        World.Abreast file out dir (w.disk.without zone) (v.disk.without zone) w v w₁ v₁ :=
      ⟨hafter.twins, habreast.left.trans hafter.left, habreast.right.trans hafter.right⟩
    have hrun : (engine.deobfuscate file).AgreesAt (World.Handled root file out dir w v) w' v' := by
      rw [deobfuscate_eq]
      refine (work_agreesAt hkeeps hout hname hnul habreast.twins).bind
        (fun w₁ v₁ hafter => (hworked hafter).handled hready hready' hroot)
        fun results w₁ v₁ _ _ hafter => ?_
      obtain ⟨w₂, hw, hswept⟩ := conclude_of_sealed hout hscope hafter.twins.left results
      obtain ⟨v₂, hv, hswept'⟩ := conclude_of_sealed hout hscope hafter.twins.right results
      exact Act.agreesAt_of_ok hw hv (((hworked hafter).handled hready hready' hroot).swept
        hready hready' hroot hother hswept hswept')
    refine hrun.bind (fun _ _ h => h) fun report w₁ v₁ _ _ hhandled => ?_
    refine Act.agreesAt_of_ok (Act.bind_of_ok (engine.reporter.success_eq _ w₁))
      (Act.bind_of_ok (engine.reporter.success_eq _ v₁)) ?_
    exact hhandled.swept hready hready' hroot hother (swept_logged hhandled.left.sound _)
      (swept_logged hhandled.right.sound _)

/-- What goes wrong with a file does not end a walk. -/
theorem processFile_minor (hkeeps : engine.KeepsTo file) (hreplies : engine.Replies reply)
    (hknown : engine.Provided w) {fault : Fault}
    (hfault : (engine.processFile file).result w = .error fault) : fault.isMinor = true := by
  have htried (command : Command) (hcommand : engine.IsFor file command) :
      (engine.tryRun command).Minor := by
    intro w fault w' hrun
    rcases engine.tryRun_cases command w with ⟨_, -, htry⟩ | ⟨_, -, -, htry⟩ | ⟨why, -, hreply, htry⟩ <;>
      rw [htry] at hrun <;> cases hrun
    exact (hkeeps.tools command hcommand).minor w.disk w.tools fault hreply
  have hrun : (engine.deobfuscate file).Minor :=
    deobfuscate_fails (fun _ hminor => hminor) fun step hstep =>
      ⟨hkeeps.commands step hstep, fun argv hargv => htried _ ⟨step, hstep, argv, hargv, rfl⟩⟩
  have hhandle (obfuscated : Bool) : (engine.handle file obfuscated).Minor := by
    cases obfuscated with
    | false => exact Act.fails_pure _
    | true =>
      exact Act.fails_bind hrun fun _ => Act.fails_bind (say_fails _ _ _) fun _ => Act.fails_pure _
  rw [processFile_eq] at hfault
  cases hjudge : engine.judge file w with
  | error why w' =>
    rw [Act.result_of_error (Act.bind_of_error hjudge)] at hfault
    cases hfault
    exact judge_minor hreplies hknown hjudge
  | ok obfuscated w' =>
    rw [Act.result_bind_of_ok hjudge] at hfault
    cases hend : engine.handle file obfuscated w' with
    | ok outcome w'' =>
      rw [Act.result_of_ok hend] at hfault
      cases hfault
    | error why w'' =>
      rw [Act.result_of_error hend] at hfault
      cases hfault
      exact hhandle obfuscated w' fault w'' hend

end Engine

end Unscramble
