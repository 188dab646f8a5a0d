import Mathlib
import Unscramble.Proofs.Disk.Without
import Unscramble.Proofs.Removal

/-!
# Releasing a workspace

A file with a name has three artifacts next to it.  Releasing the workspace
removes them one after the other; whatever lay there, nothing is left, and if the
directory of the file is still reached without them, they are all that is gone.
-/

namespace Unscramble

variable {σ : Type}

/-! ## The artifacts of a file -/

/-- The names next to a file that belong to a run. -/
def artifactNames (file : Path) (outputName : String) : List String :=
  [outputName, file.name ++ ".temp", file.name ++ ".deobfuscated.js"]

namespace Workspace

variable {file : Path} {outputName : String}

theorem outputDir_ofFile (hout : Path.Component outputName) :
    (ofFile file outputName).outputDir = file.parent.child outputName := by
  simp [ofFile, Path.ofString_component hout, Path.join, Path.child]

theorem sibling_ofFile (hfile : file.name ≠ "") (ending : String) :
    (ofFile file outputName).sibling ending = .ok (file.parent.child (file.name ++ ending)) := by
  simp [sibling, ofFile, Path.withName?_eq hfile]

theorem artifacts_ofFile (hfile : file.name ≠ "") (hout : Path.Component outputName) :
    (ofFile file outputName).artifacts =
      .ok ((artifactNames file outputName).map file.parent.child) := by
  simp [artifacts, temp, deobfuscated, sibling_ofFile hfile, outputDir_ofFile hout,
    artifactNames, bind, Except.bind, pure, Except.pure]

theorem release_ofFile (hfile : file.name ≠ "") (hout : Path.Component outputName) :
    ((ofFile file outputName).release : Act σ Unit) =
      ((artifactNames file outputName).map file.parent.child).forM fun artifact =>
        discard (Act.remove artifact) := by
  simp only [release, artifacts_ofFile hfile hout]
  rfl

end Workspace

/-- A name with more added to it that holds no dots alone. -/
theorem Path.ordinary_append {name ending : String} (hending : 2 < ending.length) :
    Path.Ordinary (name ++ ending) := by
  have hlength : 2 < (name ++ ending).length := by
    rw [String.length_append]
    omega
  refine ⟨⟨?_, ?_⟩, ?_⟩ <;> intro heq <;> rw [heq] at hlength <;> exact absurd hlength (by decide)

theorem ordinary_of_mem_artifactNames {file : Path} {outputName name : String}
    (hout : Path.Component outputName) (hname : name ∈ artifactNames file outputName) :
    Path.Ordinary name := by
  simp only [artifactNames, List.mem_cons, List.not_mem_nil, or_false] at hname
  rcases hname with rfl | rfl | rfl
  · exact hout.1
  · exact Path.ordinary_append (by decide)
  · exact Path.ordinary_append (by decide)

/-- The file is none of its artifacts. -/
theorem ne_of_mem_artifactNames {file : Path} {outputName name : String}
    (hother : outputName ≠ file.name) (hname : name ∈ artifactNames file outputName) :
    name ≠ file.name := by
  have hlonger (ending : String) (hending : 0 < ending.length) :
      file.name ++ ending ≠ file.name := by
    intro heq
    have := congrArg String.length heq
    rw [String.length_append] at this
    omega
  simp only [artifactNames, List.mem_cons, List.not_mem_nil, or_false] at hname
  rcases hname with rfl | rfl | rfl
  · exact hother
  · exact hlonger _ (by decide)
  · exact hlonger _ (by decide)

/-! ## Releasing -/

namespace Act

open Disk

theorem discard_of_ok {α : Type} {act : Act σ α} {w w' : World σ} {value : α}
    (hact : act w = .ok value w') : (discard act : Act σ Unit) w = .ok () w' := by
  change EStateM.map _ act w = .ok () w'
  rw [EStateM.map, hact]

theorem discard_of_error {α : Type} {act : Act σ α} {w w' : World σ} {fault : Fault}
    (hact : act w = .error fault w') : (discard act : Act σ Unit) w = .error fault w' := by
  change EStateM.map _ act w = .error fault w'
  rw [EStateM.map, hact]

variable {dir : Path}

/-- Removing names from a directory only takes entries away.  Nothing is left at them
if the removal has succeeded or if they can be resolved in the end. -/
theorem forM_remove_final {names : List String} {w : World σ} (hsound : w.disk.Sound)
    (hnames : ∀ name ∈ names, Path.Ordinary name) :
    ∃ disk', (((names.map dir.child).forM fun path => discard (remove path)) : Act σ Unit).final w =
        { w with disk := disk' } ∧
      disk'.Sound ∧ disk'.Thinner w.disk ∧
      ((((names.map dir.child).forM fun path => discard (remove path)) : Act σ Unit) w =
          .ok () { w with disk := disk' } ∨
        (∀ name ∈ names, disk'.Resolvable (dir.child name)) →
        ∀ name ∈ names, Missing (disk'.find .itself (dir.child name))) := by
  induction names generalizing w with
  | nil => exact ⟨w.disk, rfl, hsound, .refl _, fun _ name hname => absurd hname (by simp)⟩
  | cons name rest ih =>
      have hname := hnames name List.mem_cons_self
      have hrest : ∀ other ∈ rest, Path.Ordinary other := fun other hother =>
        hnames other (List.mem_cons_of_mem _ hother)
      rcases remove_child_cases dir hsound hname with
        ⟨hmissing, hremove⟩ | ⟨hpath, fault, hremove⟩ | ⟨loc, entry, hfind, hremove⟩ |
          ⟨loc, hfind, hcut, fault, hremove⟩
      · obtain ⟨disk', hfinal, hsound', hthin, hclear⟩ := ih hsound hrest
        refine ⟨disk', (final_bind_of_ok (discard_of_ok hremove)).trans hfinal, hsound', hthin,
          fun hend => ?_⟩
        rintro other (_ | ⟨_, hother⟩)
        · exact hthin.missing hsound hmissing
        · refine hclear (hend.imp (fun hok => ?_) fun hall n hn => ?_) other hother
          · exact (bind_of_ok (discard_of_ok hremove)).symm.trans hok
          · exact hall n (List.mem_cons_of_mem _ hn)
      · have hfault := discard_of_error hremove
        refine ⟨w.disk, final_bind_of_error hfault, hsound, .refl _, fun hend => ?_⟩
        rcases hend with hok | hall
        · cases (bind_of_error hfault).symm.trans hok
        · exact absurd (hall name List.mem_cons_self) hpath
      · obtain ⟨p, -, -, ⟨h, -⟩ | ⟨_, h, -⟩⟩ := reached_of_find_child hname hfind
        · cases h
        cases h
        have hloc : p ++ [name] ≠ [] := by simp
        have hsound₁ := hsound.eraseWithin hloc
        obtain ⟨disk', hfinal, hsound', hthin, hclear⟩ :=
          ih (w := { w with disk := w.disk.eraseWithin (p ++ [name]) }) hsound₁ hrest
        refine ⟨disk', (final_bind_of_ok (discard_of_ok hremove)).trans hfinal, hsound',
          hthin.trans (w.disk.thinner_eraseWithin hloc), fun hend => ?_⟩
        rintro other (_ | ⟨_, hother⟩)
        · exact hthin.missing hsound₁ (hsound.missing_eraseWithin hname hfind)
        · refine hclear (hend.imp (fun hok => ?_) fun hall n hn => ?_) other hother
          · exact (bind_of_ok (discard_of_ok hremove)).symm.trans hok
          · exact hall n (List.mem_cons_of_mem _ hn)
      · have hfault := discard_of_error hremove
        refine ⟨w.disk.eraseBelow loc, final_bind_of_error hfault,
          hsound.eraseBelow (find_fits hfind), w.disk.thinner_eraseBelow loc, fun hend => ?_⟩
        rcases hend with hok | hall
        · cases (bind_of_error hfault).symm.trans hok
        · intro other hother
          obtain ⟨why, hwhy⟩ := find_child_of_not_reached (hnames other hother) hcut
          exact missing_of_find_error (hall other hother) hwhy

/-- Where the directory is still reached without the names, removing them erases
their locations and nothing else happens. -/
theorem forM_remove_of_reached {names : List String} {w : World σ} {loc : Loc}
    (hsound : w.disk.Sound) (hnames : ∀ name ∈ names, Path.Ordinary name)
    (hnul : ∀ name ∈ names, (dir.child name).hasNul = false)
    (hpath : ∀ name ∈ names, w.disk.Resolvable (dir.child name))
    (hdir : (w.disk.without (names.map (loc ++ [·]))).find .followed dir =
      .ok (.present loc .directory)) :
    (((names.map dir.child).forM fun path => discard (remove path)) : Act σ Unit) w =
      .ok () { w with disk := w.disk.without (names.map (loc ++ [·])) } := by
  induction names generalizing w with
  | nil => rfl
  | cons name rest ih =>
      have hname := hnames name List.mem_cons_self
      have hloc : loc ++ [name] ≠ [] := by simp
      have hlocs : ∀ other ∈ rest.map (loc ++ [·]), other ≠ [] := by simp
      have hthin := (w.disk.eraseWithin (loc ++ [name])).thinner_without hlocs
      have hthin₁ := w.disk.thinner_eraseWithin hloc
      rw [List.map_cons, without_cons] at hdir
      have hreach := (hthin.trans hthin₁).directory hsound hdir
      have hnext := ih (w := { w with disk := w.disk.eraseWithin (loc ++ [name]) })
        (hsound.eraseWithin hloc) (fun n hn => hnames n (List.mem_cons_of_mem _ hn))
        (fun n hn => hnul n (List.mem_cons_of_mem _ hn))
        (fun n hn => hthin₁.resolvable hsound (hpath n (List.mem_cons_of_mem _ hn))) hdir
      obtain ⟨hnameable, hshort⟩ := (hpath name List.mem_cons_self).child_fits hname
        (hnul name List.mem_cons_self) hreach
      have hlook := find_child_of_reached hname hshort hnameable hreach
      have herase : (((name :: rest).map dir.child).forM
            (fun path => discard (remove path)) : Act σ Unit) w =
          ((rest.map dir.child).forM (fun path => discard (remove path)) : Act σ Unit)
            { w with disk := w.disk.eraseWithin (loc ++ [name]) } := by
        rcases remove_child_cases dir hsound hname with
          ⟨hmissing, hremove⟩ | ⟨hunresolved, -⟩ | ⟨p, entry, hfind, hremove⟩ |
            ⟨p, hfind, hcut, -⟩
        · cases hentry : w.disk.tree.get? (loc ++ [name]) with
          | none =>
              rw [hsound.eraseWithin_of_missing hentry]
              exact bind_of_ok (discard_of_ok hremove)
          | some entry =>
              rw [hlook, hentry] at hmissing
              exact absurd hmissing not_missing_present
        · exact absurd (hpath name List.mem_cons_self) hunresolved
        · rw [hlook] at hfind
          split at hfind <;> cases hfind
          exact bind_of_ok (discard_of_ok hremove)
        · have hp : p = loc ++ [name] := by
            rw [hlook] at hfind
            split at hfind <;> cases hfind
            rfl
          subst hp
          have hthin₂ := (w.disk.eraseBelow (loc ++ [name])).thinner_eraseWithin hloc
          rw [eraseWithin_eraseBelow] at hthin₂
          exact absurd ((hthin.trans hthin₂).directory (hsound.eraseBelow (find_fits hfind)) hdir)
            (hcut loc)
      rw [herase, hnext]
      rfl

theorem ensureDirectory_of_ok {path : Path} {w : World σ} {disk : Disk}
    (hmake : w.disk.makeDirectory path = .ok disk) (onMissing : Act σ Unit) :
    ensureDirectory path onMissing w = .ok () { w with disk } := by
  unfold ensureDirectory
  rw [bind_of_ok (rfl : (get : Act σ (World σ)) w = .ok w w), hmake]
  rfl

theorem makeDirectories_of_ok {path : Path} {w : World σ} {disk : Disk}
    (hmake : w.disk.makeDirectory path = .ok disk) (levels : Nat) :
    makeDirectories levels path w = .ok () { w with disk } := by
  cases levels with
  | zero => exact ensureDirectory_of_ok hmake _
  | succ levels => exact ensureDirectory_of_ok hmake _

end Act

namespace Workspace

open Disk

variable {file : Path} {outputName : String} {w : World σ}

theorem hasNul_sibling (hfile : file.name ≠ "") (hnul : file.hasNul = false) {ending : String}
    (hending : '\x00' ∉ ending.toList) :
    (file.parent.child (file.name ++ ending)).hasNul = false := by
  rw [← Path.child_parent hfile, Path.hasNul_child, Bool.or_eq_false_iff] at hnul
  have hchar : '\x00' ∉ file.name.toList := by simpa using hnul.2
  rw [Path.hasNul_child, hnul.1, Bool.false_or]
  simp [hchar, hending]

theorem hasNul_artifact (hfile : file.name ≠ "") (hout : Path.Component outputName)
    (hnul : file.hasNul = false) {name : String} (hname : name ∈ artifactNames file outputName) :
    (file.parent.child name).hasNul = false := by
  simp only [artifactNames, List.mem_cons, List.not_mem_nil, or_false] at hname
  rcases hname with rfl | rfl | rfl
  · rw [← Path.child_parent hfile, Path.hasNul_child, Bool.or_eq_false_iff] at hnul
    rw [Path.hasNul_child, hnul.1, Bool.false_or]
    simpa using hout.2.2
  · exact hasNul_sibling hfile hnul (by decide)
  · exact hasNul_sibling hfile hnul (by decide)

/-- Releasing a workspace only takes entries away.  Nothing is left at the artifacts
if the release has succeeded or if they can be resolved in the end. -/
theorem release_final (hsound : w.disk.Sound) (hfile : file.name ≠ "")
    (hout : Path.Component outputName) :
    ∃ disk', ((ofFile file outputName).release : Act σ Unit).final w = { w with disk := disk' } ∧
      disk'.Sound ∧ disk'.Thinner w.disk ∧
      (((ofFile file outputName).release : Act σ Unit) w = .ok () { w with disk := disk' } ∨
        (∀ name ∈ artifactNames file outputName, disk'.Resolvable (file.parent.child name)) →
        ∀ name ∈ artifactNames file outputName,
          Missing (disk'.find .itself (file.parent.child name))) := by
  rw [release_ofFile hfile hout]
  exact Act.forM_remove_final hsound fun name => ordinary_of_mem_artifactNames hout

/-- Once the artifacts are gone, the staging directory can be made. -/
def Stageable (ws : Workspace) (w : World σ) : Prop :=
  ∀ w', ws.release w = .ok () w' →
    ∃ w'', Act.makeDirectories ws.outputDir.parts.length ws.outputDir w' = .ok () w''

/-- The locations of a file's artifacts. -/
def artifactLocs (file : Path) (outputName : String) (dir : Loc) : List Loc :=
  (artifactNames file outputName).map (dir ++ [·])

theorem ne_nil_of_mem_artifactLocs {dir loc : Loc}
    (hloc : loc ∈ artifactLocs file outputName dir) : loc ≠ [] := by
  obtain ⟨name, -, rfl⟩ := List.mem_map.mp hloc
  simp

section Reached

variable {dir : Loc}

theorem release_of_reached (hsound : w.disk.Sound) (hfile : file.name ≠ "")
    (hout : Path.Component outputName) (hnul : file.hasNul = false)
    (hpath : ∀ name ∈ artifactNames file outputName,
      w.disk.Resolvable (file.parent.child name))
    (hdir : (w.disk.without (artifactLocs file outputName dir)).find .followed file.parent =
      .ok (.present dir .directory)) :
    ((ofFile file outputName).release : Act σ Unit) w =
      .ok () { w with disk := w.disk.without (artifactLocs file outputName dir) } := by
  rw [release_ofFile hfile hout]
  exact Act.forM_remove_of_reached hsound (fun name => ordinary_of_mem_artifactNames hout)
    (fun name => hasNul_artifact hfile hout hnul) hpath hdir

/-- The disk on which the body of a workspace starts. -/
def staged (disk : Disk) (file : Path) (outputName : String) (dir : Loc) : Disk :=
  (disk.without (artifactLocs file outputName dir)).insert (dir ++ [outputName]) .directory

theorem staged_sound {disk : Disk} (hsound : disk.Sound) (hout : Path.Component outputName)
    (hdir : (disk.without (artifactLocs file outputName dir)).find .followed file.parent =
      .ok (.present dir .directory)) : (staged disk file outputName dir).Sound := by
  have hlocs : ∀ loc ∈ artifactLocs file outputName dir, loc ≠ [] :=
    fun loc => ne_nil_of_mem_artifactLocs
  have hcleared := hsound.without hlocs
  have hfree : (disk.without (artifactLocs file outputName dir)).tree.get?
      (dir ++ [outputName]) = none := by
    rw [get?_without _ hlocs, if_pos]
    exact ⟨_, List.mem_map_of_mem List.mem_cons_self, List.prefix_rfl⟩
  refine hcleared.insert (find_fits hdir) hout.1 (by simp [hfree]) fun hlog => ?_
  obtain ⟨bytes, access, hfile⟩ := hcleared.logging hlog
  rw [hfree] at hfile
  cases hfile

/-- The staging directory is made in the directory that is reached without the artifacts. -/
theorem makeDirectory_of_reached {disk : Disk} (hsound : disk.Sound) (hfile : file.name ≠ "")
    (hout : Path.Component outputName) (hnul : file.hasNul = false)
    (hpath : disk.Resolvable (file.parent.child outputName))
    (hdir : (disk.without (artifactLocs file outputName dir)).find .followed file.parent =
      .ok (.present dir .directory)) :
    (disk.without (artifactLocs file outputName dir)).makeDirectory
      (ofFile file outputName).outputDir = .ok (staged disk file outputName dir) := by
  have hmem : outputName ∈ artifactNames file outputName := List.mem_cons_self
  have hthin : (disk.without (artifactLocs file outputName dir)).Thinner disk :=
    disk.thinner_without fun loc => ne_nil_of_mem_artifactLocs
  obtain ⟨hnameable, hshort⟩ := hpath.child_fits hout.1
    (hasNul_artifact hfile hout hnul hmem) (hthin.directory hsound hdir)
  have hfree : (disk.without (artifactLocs file outputName dir)).tree.get?
      (dir ++ [outputName]) = none := by
    rw [get?_without _ fun loc => ne_nil_of_mem_artifactLocs, if_pos]
    exact ⟨_, List.mem_map_of_mem hmem, List.prefix_rfl⟩
  rw [outputDir_ofFile hout, makeDirectory, find_child_of_reached hout.1 hshort hnameable hdir,
    hfree]
  rfl

/-- A workspace whose directory is reached without its artifacts starts empty. -/
theorem use_of_reached {α : Type} (hsound : w.disk.Sound) (hfile : file.name ≠ "")
    (hout : Path.Component outputName) (hnul : file.hasNul = false)
    (hpath : ∀ name ∈ artifactNames file outputName,
      w.disk.Resolvable (file.parent.child name))
    (hdir : (w.disk.without (artifactLocs file outputName dir)).find .followed file.parent =
      .ok (.present dir .directory)) (body : Workspace → Act σ α) :
    use file outputName body w =
      Act.always (body (ofFile file outputName)) (ofFile file outputName).release
        { w with disk := staged w.disk file outputName dir } := by
  have hmake := makeDirectory_of_reached hsound hfile hout hnul (hpath _ List.mem_cons_self) hdir
  unfold use
  rw [Act.bind_of_ok (release_of_reached hsound hfile hout hnul hpath hdir),
    Act.bind_of_ok (Act.makeDirectories_of_ok hmake _)]

/-- A workspace whose directory is reached without its artifacts can be staged. -/
theorem stageable_of_reached (hsound : w.disk.Sound) (hfile : file.name ≠ "")
    (hout : Path.Component outputName) (hnul : file.hasNul = false)
    (hpath : ∀ name ∈ artifactNames file outputName,
      w.disk.Resolvable (file.parent.child name))
    (hdir : (w.disk.without (artifactLocs file outputName dir)).find .followed file.parent =
      .ok (.present dir .directory)) : (ofFile file outputName).Stageable w := by
  intro w' hrelease
  have hmake := makeDirectory_of_reached hsound hfile hout hnul (hpath _ List.mem_cons_self) hdir
  rw [release_of_reached hsound hfile hout hnul hpath hdir] at hrelease
  cases hrelease
  exact ⟨{ w with disk := staged w.disk file outputName dir },
    Act.makeDirectories_of_ok
      (w := { w with disk := w.disk.without (artifactLocs file outputName dir) }) hmake _⟩

end Reached

end Workspace

end Unscramble
