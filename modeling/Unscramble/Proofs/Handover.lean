import Mathlib
import Unscramble.Proofs.Run
import Unscramble.Proofs.Tame

/-!
# Output comes back to the file

On a tame disk a promotion does what it is meant to do: if there is output at the
artifact, the file holds it afterwards, and otherwise the file keeps its bytes.
So does bringing output back by each of the conventions.
-/

namespace Unscramble

open Disk Workspace

variable {σ : Type} {settings : Settings} {file artifact : Path} {outputs : List Path}
  {w : World σ}

/-! ## Where output lies -/

/-- What lies at an output place lies at or below an artifact in the directory of the file,
unless an artifact is a link. -/
theorem place_of_found_itself {disk : Disk} {outputName : String}
    (hout : Path.Component outputName)
    (hlinks : ∀ name ∈ artifactNames file outputName, ∀ loc target,
      disk.find .itself (file.parent.child name) ≠ .ok (.present loc (.link target)))
    (hartifact : artifact ∈ outputPlaces file outputName) {loc : Loc} {entry : Entry}
    (hfind : disk.find .itself artifact = .ok (.present loc entry)) :
    ∃ dir next below, disk.find .followed file.parent = .ok (.present dir .directory) ∧
      loc = dir ++ next :: below ∧ next ∈ artifactNames file outputName := by
  have hchild {name : String} {p : Loc} {held : Entry}
      (hname : name ∈ artifactNames file outputName)
      (hheld : disk.find .itself (file.parent.child name) = .ok (.present p held)) :
      ∃ dir, disk.find .followed file.parent = .ok (.present dir .directory) ∧ p = dir ++ [name] := by
    obtain ⟨dir, hdir, -, ⟨h, -⟩ | ⟨_, h, -⟩⟩ :=
      reached_of_find_child (ordinary_of_mem_artifactNames hout hname) hheld <;> cases h
    exact ⟨dir, hdir, rfl⟩
  have hgrandchild {name last : String} {p : Loc} {held : Entry}
      (hname : name ∈ artifactNames file outputName) (hlast : Path.Ordinary last)
      (hheld : disk.find .itself ((file.parent.child name).child last) =
        .ok (.present p held)) :
      ∃ dir, disk.find .followed file.parent = .ok (.present dir .directory) ∧
        p = dir ++ [name, last] := by
    obtain ⟨inner, hinner, -, ⟨h, -⟩ | ⟨_, h, -⟩⟩ := reached_of_find_child hlast hheld <;> cases h
    rcases disk.find_followed (file.parent.child name) with ⟨q, text, hlink⟩ | hsame
    · exact absurd hlink (hlinks name hname q text)
    · obtain ⟨dir, hdir, rfl⟩ := hchild hname (hsame ▸ hinner)
      exact ⟨dir, hdir, by simp⟩
  simp only [outputPlaces, List.mem_cons, List.not_mem_nil, or_false] at hartifact
  rcases hartifact with rfl | rfl | rfl | rfl
  · obtain ⟨dir, hdir, hloc⟩ := hgrandchild (by simp [artifactNames]) (by decide) hfind
    exact ⟨dir, _, _, hdir, hloc, by simp [artifactNames]⟩
  · obtain ⟨dir, hdir, hloc⟩ := hgrandchild (by simp [artifactNames]) (by decide) hfind
    exact ⟨dir, _, _, hdir, hloc, by simp [artifactNames]⟩
  · obtain ⟨dir, hdir, hloc⟩ := hchild (by simp [artifactNames]) hfind
    exact ⟨dir, _, _, hdir, hloc, by simp [artifactNames]⟩
  · obtain ⟨dir, hdir, hloc⟩ := hchild (by simp [artifactNames]) hfind
    exact ⟨dir, _, _, hdir, hloc, by simp [artifactNames]⟩

/-- Output lies at or below an artifact in the directory of the file. -/
theorem place_of_found {disk : Disk} {outputName : String} (hlinkless : disk.tree.Linkless)
    (hsite : Site file outputName) (hartifact : artifact ∈ outputPlaces file outputName)
    {loc : Loc} {entry : Entry} (hfind : disk.find .followed artifact = .ok (.present loc entry)) :
    ∃ dir next below, disk.find .followed file.parent = .ok (.present dir .directory) ∧
      loc = dir ++ next :: below ∧ next ∈ artifactNames file outputName := by
  rw [find_followed_of_linkless hlinkless] at hfind
  refine place_of_found_itself hsite.component (fun name _ p target hlink => ?_) hartifact hfind
  exact hlinkless p target (find_fits hlink)

/-! ## Moving output over the file -/

namespace Disk

variable {disk : Disk} {a b : Loc} {bytes : Bytes} {access : Access}

theorem Sound.alike_eraseWithin (hsound : disk.Sound)
    (ha : disk.tree.get? a = some (.file bytes access)) :
    disk.tree.Alike (disk.eraseWithin a).tree := by
  intro q
  simp only [Disk.eraseWithin]
  rw [hsound.get?_eraseWithin (by simp [ha])]
  split
  · next heq =>
      subst heq
      exact .inr ⟨by rw [ha]; trivial, trivial⟩
  · exact .inl rfl

theorem Sound.alike_move (hsound : disk.Sound)
    (ha : disk.tree.get? a = some (.file bytes access)) (hb : Entry.Ends (disk.tree.get? b)) :
    disk.tree.Alike (disk.move a b (.file bytes access)).tree := by
  have hleaf : disk.tree.get? b ≠ some .directory := by
    intro hdirectory
    rw [hdirectory] at hb
    exact hb
  intro q
  rw [hsound.get?_move ha nofun hleaf]
  split
  · next heq =>
      subst heq
      exact .inr ⟨hb, trivial⟩
  · split
    · next heq =>
        subst heq
        exact .inr ⟨by rw [ha]; trivial, trivial⟩
    · exact .inl rfl

/-- Renaming a file to a name that is free. -/
theorem rename_of_vacant {source target : Path} (hsource : endsUnnamed source = false)
    (htarget : endsUnnamed target = false)
    (hfind : disk.find .itself source = .ok (.present a (.file bytes access)))
    (hfree : disk.find .itself target = .ok (.vacant b)) (hab : a ≠ b) :
    disk.rename source target = .ok (disk.move a b (.file bytes access)) := by
  simp [rename, hfind, hfree, hsource, htarget, hab, bind, Except.bind]

theorem endsUnnamed_child (dir : Path) {name : String} (hname : Path.Ordinary name) :
    endsUnnamed (dir.child name) = false := by
  simp [endsUnnamed, Path.child, hname.2]

end Disk

theorem endsUnnamed_place {outputName : String}
    (hartifact : artifact ∈ outputPlaces file outputName) : endsUnnamed artifact = false := by
  simp only [outputPlaces, List.mem_cons, List.not_mem_nil, or_false] at hartifact
  rcases hartifact with rfl | rfl | rfl | rfl
  · exact endsUnnamed_child _ (by decide)
  · exact endsUnnamed_child _ (by decide)
  · exact endsUnnamed_child _ (Path.ordinary_append (by decide))
  · exact endsUnnamed_child _ (Path.ordinary_append (by decide))

/-- A file that is not empty is moved over what the target leads to, if that is a file
or nothing. -/
theorem promote_of_full {target : Path} {a b : Loc} {bytes : Bytes} {access : Access}
    (hsound : w.disk.Sound) (hartifact : endsUnnamed artifact = false)
    (htarget : endsUnnamed target = false)
    (hfind : w.disk.find .itself artifact = .ok (.present a (.file bytes access)))
    (hbytes : bytes ≠ [])
    (hgoal : w.disk.find .itself target = .ok (Found.on w.disk.tree (.vacant b)))
    (hends : Entry.Ends (w.disk.tree.get? b)) (hab : a ≠ b) :
    (promote artifact target : Act σ Bool) w =
      .ok true { w with disk := w.disk.move a b (.file bytes access) } := by
  have hfollowed := find_followed_of_ne_link hfind (by simp)
  have hfile : w.disk.isFile artifact = .ok true :=
    isFile_eq_true_iff.mpr ⟨a, bytes, access, hfollowed⟩
  have hfull : w.disk.isEmptyFile artifact = .ok false := by
    rw [isEmptyFile_of_find hfollowed, decide_eq_false hbytes]
  cases hheld : w.disk.tree.get? b with
  | none =>
      simp only [Found.on, hheld] at hgoal
      have hpresent : w.disk.present target = .ok false :=
        ask_of_missing (find_followed_of_ne_link hgoal (by simp) ▸ missing_vacant b) _
      rw [promote_of_absent hfile hfull hpresent, moveOver_run,
        rename_of_vacant hartifact htarget hfind hgoal hab]
  | some held =>
  cases held with
  | directory => rw [hheld] at hends; exact hends.elim
  | link text => rw [hheld] at hends; exact hends.elim
  | file old mode =>
      simp only [Found.on, hheld] at hgoal
      have hpresent : w.disk.present target = .ok true :=
        ask_of_present (find_followed_of_ne_link hgoal (by simp)) _
      have hunlink : w.disk.unlink target = .ok (w.disk.eraseWithin b) := by
        simp [unlink, hgoal, bind, Except.bind]
      have hleaf : w.disk.tree.get? b ≠ some .directory := by simp [hheld]
      have halike := hsound.alike_eraseWithin hheld
      have hcwd : (w.disk.eraseWithin b).cwd = w.disk.cwd := hsound.cwd_within hleaf
      have hget (q : Loc) : (w.disk.eraseWithin b).tree.get? q =
          if q = b then none else w.disk.tree.get? q := hsound.get?_eraseWithin hleaf q
      have hsource := hsound.find_alike halike hcwd hfind
      have hfree := hsound.find_alike halike hcwd hgoal
      have ha : w.disk.tree.get? a = some (.file bytes access) := find_fits hfind
      simp only [Found.on, hget, if_neg hab, ha] at hsource
      simp only [Found.on, hget, if_true] at hfree
      rw [promote_of_present hfile hfull hpresent, Act.bind_of_ok (Act.change_of_ok hunlink),
        moveOver_run, rename_of_vacant hartifact htarget hsource hfree hab,
        hsound.move_eraseWithin hleaf]

namespace Tame

variable {disk : Disk} {dir a : Loc} {bytes : Bytes} {access : Access}

/-- At the location of the file lies a file or nothing. -/
theorem ends_file (htame : Tame settings file outputs disk) (hsite : Site file settings.outputDirName)
    (hdir : disk.find .followed file.parent = .ok (.present dir .directory)) :
    Entry.Ends (disk.tree.get? (dir ++ [file.name])) := by
  have hfind := find_followed_child htame.linkless hsite.named hsite.fits_file hdir
  rw [hsite.child_parent] at hfind
  cases hheld : disk.tree.get? (dir ++ [file.name]) with
  | none => trivial
  | some held =>
  cases held with
  | directory =>
      simp only [Found.on, hheld] at hfind
      exact htame.plain _ hfind
  | file old mode => trivial
  | link target => exact htame.linkless _ _ hheld

/-- A disk on which output has been moved over the file is tame, and the file holds it. -/
theorem move (htame : Tame settings file outputs disk) (hsite : Site file settings.outputDirName)
    (hdir : disk.find .followed file.parent = .ok (.present dir .directory))
    (ha : disk.tree.get? a = some (.file bytes access)) (hlog : disk.log ≠ some a) :
    Tame settings file outputs (disk.move a (dir ++ [file.name]) (.file bytes access)) ∧
      (disk.move a (dir ++ [file.name]) (.file bytes access)).content? file = some bytes := by
  have hends := htame.ends_file hsite hdir
  have hleaf : disk.tree.get? (dir ++ [file.name]) ≠ some .directory := by
    intro hdirectory
    rw [hdirectory] at hends
    exact hends
  have hmove := htame.sound.move_eq ha nofun hleaf
  have halike := htame.sound.alike_move ha hends
  have hcwd : (disk.move a (dir ++ [file.name]) (.file bytes access)).cwd = disk.cwd := by
    rw [hmove]
  have htame' : Tame settings file outputs (disk.move a (dir ++ [file.name]) (.file bytes access)) := by
    refine htame.alike (htame.sound.move ha nofun (find_fits hdir) hsite.named hleaf) halike hcwd ?_
    rw [hmove]
    cases hopened : disk.log with
    | none => exact .inl rfl
    | some p =>
        have hp : a ≠ p := fun heq => hlog (heq ▸ hopened)
        by_cases hpre : dir ++ [file.name] <+: p <;> simp [hpre, hp]
  refine ⟨htame', ?_⟩
  rw [htame'.content?_file hsite (htame.sound.directory_alike halike hcwd hdir), Tree.bytes?,
    htame.sound.get?_move ha nofun hleaf, if_pos rfl]

end Tame

/-- A promotion on a tame disk brings output back if there is any. -/
theorem promote_tame (hsite : Site file settings.outputDirName)
    (htame : Tame settings file outputs w.disk)
    (hartifact : artifact ∈ outputPlaces file settings.outputDirName)
    (hunlogged : w.disk.Unlogged artifact) :
    ∃ disk', (promote artifact file : Act σ Bool) w =
        .ok (w.disk.output? artifact).isSome { w with disk := disk' } ∧
      Tame settings file outputs disk' ∧
      disk'.content? file = (w.disk.output? artifact).or (w.disk.content? file) := by
  have hfits := hsite.fits _ (List.mem_cons_of_mem _ hartifact)
  cases hcontent : w.disk.content? artifact with
  | none =>
      have hno : w.disk.isFile artifact = .ok false := by
        obtain ⟨answer, hanswer⟩ :=
          (resolvable_of_linkless htame.linkless hfits).ask (·.kind = .file)
        cases answer with
        | false => exact hanswer
        | true =>
            obtain ⟨loc, bytes, access, hfind⟩ := isFile_eq_true_iff.mp hanswer
            rw [content?_eq_some_iff.mpr ⟨loc, access, hfind⟩] at hcontent
            cases hcontent
      have houtput : w.disk.output? artifact = none := by rw [output?, hcontent]; rfl
      rw [houtput]
      exact ⟨w.disk, promote_of_no_file hno, htame, rfl⟩
  | some bytes =>
      obtain ⟨a, access, hfind⟩ := content?_eq_some_iff.mp hcontent
      obtain ⟨dir, next, below, hdir, rfl, hmem⟩ :=
        place_of_found htame.linkless hsite hartifact hfind
      have hnext := hsite.ne_of_mem_artifactNames hmem
      have hitself := (find_followed_of_linkless htame.linkless artifact).symm.trans hfind
      by_cases hbytes : bytes = []
      · have houtput : w.disk.output? artifact = none := by
          rw [output?, hcontent, hbytes]
          rfl
        have hfile : w.disk.isFile artifact = .ok true :=
          isFile_eq_true_iff.mpr ⟨_, bytes, access, hfind⟩
        have hempty : w.disk.isEmptyFile artifact = .ok true := by
          rw [isEmptyFile_of_find hfind, decide_eq_true hbytes]
        have hunlink : w.disk.unlink artifact =
            .ok (w.disk.eraseWithin (dir ++ next :: below)) := by
          simp [unlink, hitself, bind, Except.bind]
        rw [houtput]
        refine ⟨_, ?_, htame.eraseWithin (by simp : dir ++ next :: below ≠ []),
          htame.content?_eraseWithin hsite hdir hnext below⟩
        rw [promote_of_empty _ hfile hempty, Act.bind_of_ok (Act.change_of_ok hunlink)]
        rfl
      · have houtput : w.disk.output? artifact = some bytes := by
          rw [output?, hcontent, Option.filter_some, decide_eq_true hbytes]
          rfl
        have hgoal := find_itself_child hsite.named hsite.fits_file hdir
        have hunnamed := endsUnnamed_child file.parent hsite.named
        rw [hsite.child_parent] at hgoal hunnamed
        have hrun := promote_of_full htame.sound (endsUnnamed_place hartifact) hunnamed hitself hbytes hgoal
          (htame.ends_file hsite hdir) (by simp [hnext])
        rw [houtput]
        exact ⟨_, hrun, htame.move hsite hdir (find_fits hfind) (hunlogged _ _ hfind)⟩

/-! ## Conventions -/

namespace Convention

/-- The output that a step has left where its convention looks for it. -/
def offer? (ws : Workspace) (disk : Disk) : Convention → Option Bytes
  | inPlace => none
  | outputDir => disk.output? (ws.outputDir.child "entry.js")
  | tempSibling =>
    match ws.temp with
    | .ok temp =>
      if disk.isDirectory temp = .ok true then disk.output? (temp.child "deobfuscated.js")
      else disk.output? temp
    | .error _ => none
  | siblingFile =>
    match ws.deobfuscated with
    | .ok produced => disk.output? produced
    | .error _ => none

/-- Output is brought back from the place where it is offered. -/
theorem promoteFrom_tame (hsite : Site file settings.outputDirName)
    (htame : Tame settings file outputs w.disk)
    (hartifact : artifact ∈ outputPlaces file settings.outputDirName)
    (hunlogged : w.disk.Unlogged artifact) :
    ∃ promoted disk', (promoteFrom artifact file : Act σ (Option Path)) w =
        .ok promoted { w with disk := disk' } ∧
      promoted.isSome = (w.disk.output? artifact).isSome ∧ Tame settings file outputs disk' ∧
      disk'.content? file = (w.disk.output? artifact).or (w.disk.content? file) := by
  obtain ⟨disk', hrun, htame', hcontent⟩ := promote_tame hsite htame hartifact hunlogged
  refine ⟨if (w.disk.output? artifact).isSome then some artifact else none, disk', ?_, ?_, htame',
    hcontent⟩
  · rw [promoteFrom, Act.bind_of_ok hrun]
    cases (w.disk.output? artifact).isSome <;> rfl
  · cases (w.disk.output? artifact).isSome <;> rfl

/-- Each convention brings back the output that is offered and keeps the bytes of the
file if there is none. -/
theorem reconcile_tame (hsite : Site file settings.outputDirName)
    (htame : Tame settings file outputs w.disk)
    (hunlogged : ∀ artifact ∈ outputPlaces file settings.outputDirName, w.disk.Unlogged artifact)
    (convention : Convention) :
    ∃ promoted disk',
      (convention.reconcile (.ofFile file settings.outputDirName) : Act σ (Option Path)) w =
        .ok promoted { w with disk := disk' } ∧
      promoted.isSome = (convention.offer? (.ofFile file settings.outputDirName) w.disk).isSome ∧
      Tame settings file outputs disk' ∧
      disk'.content? file =
        (convention.offer? (.ofFile file settings.outputDirName) w.disk).or
          (w.disk.content? file) := by
  have htemp : (ofFile file settings.outputDirName).temp =
      .ok (file.parent.child (file.name ++ ".temp")) := sibling_ofFile hsite.name_ne_empty _
  have hbring (artifact : Path)
      (hartifact : artifact ∈ outputPlaces file settings.outputDirName) :=
    promoteFrom_tame hsite htame hartifact (hunlogged artifact hartifact)
  cases convention with
  | inPlace => exact ⟨none, w.disk, rfl, rfl, htame, rfl⟩
  | outputDir =>
      simp only [reconcile, offer?, outputDir_ofFile hsite.component]
      exact hbring _ (by simp [outputPlaces])
  | siblingFile =>
      have hdeobfuscated : (ofFile file settings.outputDirName).deobfuscated =
          .ok (file.parent.child (file.name ++ ".deobfuscated.js")) :=
        sibling_ofFile hsite.name_ne_empty _
      simp only [reconcile, offer?, hdeobfuscated]
      exact hbring _ (by simp [outputPlaces])
  | tempSibling =>
      have hmem : file.name ++ ".temp" ∈ artifactNames file settings.outputDirName := by
        simp [artifactNames]
      obtain ⟨answer, hanswer⟩ :=
        (resolvable_of_linkless htame.linkless (hsite.fits_artifact hmem)).ask (·.kind = .directory)
      have hask : (Act.ask Disk.isDirectory (file.parent.child (file.name ++ ".temp")) :
          Act σ Bool) w = .ok answer w := Act.ask_of_ok hanswer
      simp only [reconcile, offer?, htemp]
      cases answer with
      | false =>
          obtain ⟨promoted, disk', hrun, hsome, htame', hcontent⟩ :=
            hbring (file.parent.child (file.name ++ ".temp")) (by simp [outputPlaces])
          rw [if_neg (by rw [isDirectory, hanswer]; simp)]
          refine ⟨promoted, disk', ?_, hsome, htame', hcontent⟩
          exact (Act.bind_of_ok hask).trans hrun
      | true =>
          obtain ⟨promoted, disk', hrun, hsome, htame', hcontent⟩ :=
            hbring ((file.parent.child (file.name ++ ".temp")).child "deobfuscated.js")
              (by simp [outputPlaces])
          obtain ⟨removed, disk'', hremove, htame'', hkept⟩ :=
            remove_artifact (w := { w with disk := disk' }) hsite htame' hmem
          rw [if_pos (show w.disk.isDirectory _ = .ok true from hanswer)]
          refine ⟨promoted, disk'', ?_, hsome, htame'', hkept.trans hcontent⟩
          refine (Act.bind_of_ok hask).trans ((Act.bind_of_ok hrun).trans ?_)
          rw [Act.bind_of_ok (Act.discard_of_ok hremove)]
          rfl

end Convention

end Unscramble
