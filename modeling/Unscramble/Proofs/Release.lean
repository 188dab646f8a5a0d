import Mathlib
import Unscramble.Proofs.Disk.Check
import Unscramble.Proofs.Sample

/-!
# Artifacts do not outlive a run

However a run over a file ends, by a report, by a refusal in the middle of a step
or by an interrupt, the workspace has been released by then and nothing is left at
the artifacts.
-/

namespace Unscramble

open Disk Workspace

variable {σ : Type}

namespace Act

variable {α : Type} {body : Act σ α} {cleanUp : Act σ Unit} {w : World σ}

/-- A body that is cleaned up after succeeds only if the cleaning does. -/
theorem cleanUp_of_always {w' : World σ} {value : α} (hrun : always body cleanUp w = .ok value w') :
    cleanUp (body.final w) = .ok () w' := by
  simp only [always] at hrun
  simp only [final]
  cases hbody : body w with
  | ok value₁ w₁ =>
      rw [hbody] at hrun
      cases hclean : cleanUp w₁ <;> simp only [hclean] at hrun <;> cases hrun
      rfl
  | error fault w₁ =>
      rw [hbody] at hrun
      cases hclean : cleanUp w₁ <;> simp only [hclean] at hrun <;> cases hrun

end Act

namespace Workspace

variable {file : Path} {outputName : String} {w : World σ}

/-- A workspace that has been used is released, unless it could not be staged: nothing
is left at the artifacts if the use has succeeded or if they can be resolved in the end. -/
theorem use_releases {α : Type} (body : Workspace → Act σ α) (hsound : w.disk.Sound)
    (hname : file.name ≠ "") (hout : Path.Component outputName)
    (hstage : (ofFile file outputName).Stageable w)
    (hbody : (body (ofFile file outputName)).Within World.StaysSound) :
    ((use file outputName body).final w).disk.Sound ∧
      ((∃ value w', use file outputName body w = .ok value w') ∨
        (∀ name ∈ artifactNames file outputName,
          ((use file outputName body).final w).disk.Resolvable (file.parent.child name)) →
        ∀ name ∈ artifactNames file outputName,
          Missing (((use file outputName body).final w).disk.find .itself
            (file.parent.child name))) := by
  obtain ⟨disk₁, hfinal₁, hsound₁, -, hmissing₁⟩ := release_final hsound hname hout
  cases hrelease : ((ofFile file outputName).release : Act σ Unit) w with
  | error fault w₁ =>
      have huse : use file outputName body w = .error fault w₁ := Act.bind_of_error hrelease
      rw [Act.final_of_error hrelease] at hfinal₁
      rw [Act.final_of_error huse, hfinal₁]
      refine ⟨hsound₁, fun hend => hmissing₁ (.inr (hend.resolve_left ?_))⟩
      rintro ⟨value, w', hok⟩
      rw [huse] at hok
      cases hok
  | ok _ w₁ =>
      obtain ⟨w₂, hmake⟩ := hstage w₁ hrelease
      have huse : use file outputName body w =
          Act.always (body (ofFile file outputName)) (ofFile file outputName).release w₂ :=
        (Act.bind_of_ok hrelease).trans (Act.bind_of_ok hmake)
      rw [Act.final_of_ok hrelease] at hfinal₁
      have hsound₂ : w₂.disk.Sound := by
        have hstays := makeDirectories_staysSound
          (ofFile file outputName).outputDir.parts.length (ofFile file outputName).outputDir w₁
        rw [Act.final_of_ok hmake] at hstays
        exact hstays (hfinal₁ ▸ hsound₁)
      obtain ⟨disk₃, hfinal₃, hsound₃, -, hmissing₃⟩ :=
        release_final (hbody w₂ hsound₂) hname hout
      have hlast : (use file outputName body).final w =
          { (body (ofFile file outputName)).final w₂ with disk := disk₃ } := by
        rw [Act.final, huse]
        exact Act.final_always.trans hfinal₃
      rw [hlast]
      refine ⟨hsound₃, fun hend => hmissing₃ (hend.imp_left ?_)⟩
      rintro ⟨value, w', hok⟩
      rw [huse] at hok
      rw [Act.cleanUp_of_always hok]
      rw [Act.final_of_ok (Act.cleanUp_of_always hok)] at hfinal₃
      rw [hfinal₃]

end Workspace

/-- Nothing is left at the artifacts of a file when its run ends, however it ends,
unless the staging directory could not be made. -/
theorem artifacts_missing_after_deobfuscate (engine : Engine σ) {file : Path} {w : World σ}
    (hrunner : engine.runner.KeepsSound) (hout : Path.Component engine.settings.outputDirName)
    (hsound : w.disk.Sound) (hfile : w.disk.isFile file = .ok true)
    (hstage : (ofFile file engine.settings.outputDirName).Stageable
      (w.said engine.reporter .info ("Deobfuscating file: " ++ file.toString)))
    (hend : ∀ name ∈ artifactNames file engine.settings.outputDirName,
      ((engine.deobfuscate file).final w).disk.Resolvable (file.parent.child name)) :
    ∀ name ∈ artifactNames file engine.settings.outputDirName,
      Missing (((engine.deobfuscate file).final w).disk.find .itself (file.parent.child name)) := by
  have hordinary := hsound.ordinary_name hfile
  have hname := Path.ordinary_ne_empty hordinary
  have hsound₁ : (w.said engine.reporter .info
      ("Deobfuscating file: " ++ file.toString)).disk.Sound := hsound.logged _
  let steps (ws : Workspace) := engine.runSteps ws engine.steps.length 1 engine.steps
  obtain ⟨hsound₂, hreleased⟩ :=
    use_releases steps hsound₁ hname hout hstage (Engine.runSteps_staysSound hrunner hordinary)
  have hwork : (engine.work file).final w =
      (use file engine.settings.outputDirName steps).final (w.said engine.reporter .info
        ("Deobfuscating file: " ++ file.toString)) :=
    Act.final_bind_of_ok (Reporter.info_eq _ _ _)
  rw [Engine.deobfuscate_eq] at hend ⊢
  cases hrun : engine.work file w with
  | error fault w₁ =>
      rw [← hwork, Act.final_of_error hrun] at hreleased
      rw [Act.final_bind_of_error hrun] at hend ⊢
      exact hreleased (.inr hend)
  | ok results w₁ =>
      have huse := (Act.bind_of_ok (Reporter.info_eq _ _ _)).symm.trans hrun
      rw [← hwork, Act.final_of_ok hrun] at hsound₂ hreleased
      rw [Act.final_bind_of_ok hrun]
      intro name hmem
      exact (engine.conclude_fades file results w₁ hsound₂).2.missing hsound₂
        (hreleased (.inl ⟨results, w₁, huse⟩) name hmem)

section Samples

/-- An engine that is interrupted in its first step, in which its tool has made
directories of its own. -/
def Sample.interrupting : Engine Unit :=
  Sample.engine (Sample.interrupted
    (Sample.making ⟨.here, ["d", "a.js.temp"]⟩ ∘ Sample.making ⟨.here, ["d", "output_dir", "x"]⟩))
    [Step.webcrack, Step.synchrony]

theorem artifacts_missing_after_interrupt :
    Sample.littered.isFile ⟨.here, ["d", "a.js"]⟩ = .ok true ∧
      ∀ name ∈ artifactNames ⟨.here, ["d", "a.js"]⟩ "output_dir",
        Missing (((Sample.interrupting.deobfuscate ⟨.here, ["d", "a.js"]⟩).final
          (Sample.world Sample.littered)).disk.find .itself ((⟨.here, ["d"]⟩ : Path).child name)) := by
  have hsound : Sample.littered.Sound := by decide
  have hchange (disk : Disk) (h : disk.Sound) := Sample.making_sound ⟨.here, ["d", "a.js.temp"]⟩ _
    (Sample.making_sound ⟨.here, ["d", "output_dir", "x"]⟩ disk h)
  refine ⟨by decide, artifacts_missing_after_deobfuscate Sample.interrupting
    (Sample.interrupted_keepsSound hchange) (by decide) hsound (by decide) ?_
    (by decide +kernel)⟩
  have hdir : (Sample.littered.without (artifactLocs ⟨.here, ["d", "a.js"]⟩ "output_dir" ["d"])).find
      .followed ⟨.here, ["d"]⟩ = .ok (.present ["d"] .directory) := by decide
  exact stageable_of_reached hsound (by decide) (by decide) (by decide) (by decide) hdir

/-- Where a link at an artifact is on the way to the file, the staging directory can end
up in another place.  If a file is in the way there, it stays. -/
theorem output_remains_unstaged :
    let disk := Sample.disk
      [(["output_dir"], .file [98] {}), (["w"], .directory), (["w", "a.js"], .file [97] {}),
        (["w", "a.js.temp"], .link "p/q"), (["w", "p"], .directory), (["w", "p", "q"], .directory)]
      ["w"]
    let file : Path := ⟨.here, ["a.js.temp", "..", "..", "a.js"]⟩
    let engine := Sample.engine (Sample.runner id) [Step.beautify]
    let after := ((engine.deobfuscate file).final (Sample.world disk)).disk
    disk.Sound ∧ engine.runner.KeepsSound ∧ disk.isFile file = .ok true ∧
      Path.Component engine.settings.outputDirName ∧ engine.settings.outputDirName ≠ file.name ∧
      (∀ name ∈ artifactNames file engine.settings.outputDirName,
        disk.Resolvable (file.parent.child name) ∧ after.Resolvable (file.parent.child name)) ∧
      ¬Missing (after.find .itself (file.parent.child engine.settings.outputDirName)) :=
  ⟨by decide, Sample.runner_keepsSound fun _ hsound => hsound, by decide, by decide, by decide,
    by decide +kernel, by decide +kernel⟩

end Samples

end Unscramble
