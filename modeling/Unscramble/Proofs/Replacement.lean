import Mathlib
import Unscramble.Proofs.Disk.Check
import Unscramble.Proofs.Disk.DeadEnd
import Unscramble.Proofs.Promotion
import Unscramble.Proofs.Sample

/-!
# Promotion loses no bytes

A promotion unlinks the target before it renames the artifact.  Where the two paths
name different entries the artifact can always be moved once the target is gone, so the
target reads what the artifact read, or what it read before.  A link is moved as it is:
it may then stand for something else, so only an artifact that is a file itself is known
to bring its bytes along.
-/

namespace Unscramble

variable {σ : Type}

namespace Disk

/-- The two paths do not name one and the same entry. -/
def Distinct (disk : Disk) (path other : Path) : Prop :=
  ∀ loc entry, disk.find .itself path = .ok (.present loc entry) →
    disk.find .itself other ≠ .ok (.present loc entry)

/-- A link that the path names is not met on the way to it. -/
def Detached (disk : Disk) (path : Path) : Prop :=
  ∀ loc text, disk.find .itself path = .ok (.present loc (.link text)) →
    ∃ dir, (disk.eraseWithin loc).find .followed path.parent = .ok (.present dir .directory)

/-- The entry at `a` has left the path `artifact` and taken the place `b` of the path `target`. -/
structure Replaced (artifact target : Path) (a b : Loc) (entry : Entry) (disk disk' : Disk) :
    Prop where
  found : disk.find .itself artifact = .ok (.present a entry)
  free : disk.Free target b
  gone : disk'.tree.get? a = none
  arrived : disk'.tree.get? b = some entry
  kept : ∀ loc, loc ≠ a → loc ≠ b → disk'.tree.get? loc = disk.tree.get? loc
  places : disk'.cwd = disk.cwd ∧ disk'.waiting = disk.waiting
  /-- An open log stays bound to the artifact, and to nothing once its file is replaced. -/
  log : disk'.log = (disk.log.filter (· ≠ b)).map fun loc => if a = loc then b else loc
  /-- An artifact that is not empty, and a file itself, is now read at the target only. -/
  reads : ∃ bytes ≠ [], disk.content? artifact = some bytes ∧
    ((∀ text, entry ≠ .link text) → disk.Detached target → disk'.content? target = some bytes ∧
      ∀ loc held, disk'.find .itself artifact ≠ .ok (.present loc held))

variable {disk : Disk} {artifact target : Path} {a b : Loc} {entry : Entry}

/-- The log is a file, so it lies below nothing but directories. -/
theorem Sound.log_without (hsound : disk.Sound) (hleaf : disk.tree.get? b ≠ some .directory) :
    (disk.log.filter fun loc => !decide (b <+: loc)) = disk.log.filter (· ≠ b) := by
  cases hlog : disk.log with
  | none => rfl
  | some loc =>
      obtain ⟨bytes, access, hfile⟩ := hsound.logging hlog
      have hbelow : b <+: loc ↔ loc = b := by
        refine ⟨fun hpre => ?_, fun heq => heq ▸ List.prefix_rfl⟩
        by_contra hne
        simp [hsound.missing_below hleaf hpre (Ne.symm hne)] at hfile
      simp [Option.filter, hbelow]

/-- With the link at the target out of the way, the target is a free name. -/
theorem Detached.vacant (hdetached : disk.Detached target) (hsound : disk.Sound)
    (hfree : disk.Free target b)
    (hlink : ∀ held, disk.find .itself target = .ok (.present b held) → ∃ text, held = .link text) :
    (disk.eraseWithin b).find .itself target = .ok (.vacant b) := by
  rcases hfree with hvacant | ⟨held, hheld, -⟩
  · rwa [hsound.eraseWithin_of_missing (find_fits hvacant).1]
  · obtain ⟨text, rfl⟩ := hlink held hheld
    have hname := hsound.ordinary_of_find hheld (by simp) (by simp)
    have hchild := Path.child_parent (Path.ordinary_ne_empty hname)
    obtain ⟨dir, hdir⟩ := hdetached b text hheld
    have hbnil : b ≠ [] := Tree.ne_nil_of_get? (find_fits hheld) (by simp)
    have hback := (disk.thinner_eraseWithin hbnil).directory hsound hdir
    rw [← hchild] at hheld ⊢
    have hnameable := nameable_of_find hheld
    obtain ⟨p, hp, hshort, ⟨h, -⟩ | ⟨_, h, -⟩⟩ := reached_of_find_child hname hheld <;> cases h
    cases hp.symm.trans hback
    rw [find_child_of_reached hname hshort hnameable hdir, get?_within _ hbnil,
      if_pos List.prefix_rfl]

section Moved

variable {bytes : Bytes} {access : Access} (hsound : disk.Sound)
  (hfind : disk.find .itself artifact = .ok (.present a (.file bytes access)))
  (hfree : disk.Free target b) (hab : a ≠ b)
  (hvacant : (disk.eraseWithin b).find .itself target = .ok (.vacant b))

include hsound hfind hfree hab

/-- Moving a file changes where files are, once its new place is free. -/
theorem Sound.alike_erased_move :
    (disk.eraseWithin b).tree.Alike (disk.move a b (.file bytes access)).tree := by
  obtain ⟨-, -, -, -, -, hleaf⟩ := hfree.place hsound
  have ha := find_fits hfind
  intro q
  rw [hsound.get?_move ha (by simp) hleaf, Disk.eraseWithin, hsound.get?_eraseWithin hleaf]
  by_cases hqb : q = b
  · simp [hqb, Entry.Ends]
  · by_cases hqa : q = a
    · rw [Fits] at ha
      simp [hqa, hab, ha, Entry.Ends]
    · simp [hqb, hqa]

omit hab in
theorem Sound.cwd_move : (disk.move a b (.file bytes access)).cwd = (disk.eraseWithin b).cwd := by
  obtain ⟨-, -, -, -, -, hleaf⟩ := hfree.place hsound
  rw [hsound.move_eq (find_fits hfind) (by simp) hleaf]
  exact (hsound.cwd_within hleaf).symm

include hvacant

/-- A file that is moved is read at its new place. -/
theorem Sound.content?_move :
    (disk.move a b (.file bytes access)).content? target = some bytes := by
  obtain ⟨-, -, -, -, -, hleaf⟩ := hfree.place hsound
  have hbnil : b ≠ [] := by
    rintro rfl
    exact hleaf disk.tree.get?_nil
  have hfound := (hsound.eraseWithin hbnil).find_alike (hsound.alike_erased_move hfind hfree hab)
    (hsound.cwd_move hfind hfree) hvacant
  rw [Found.on, hsound.get?_move (find_fits hfind) (by simp) hleaf, if_pos rfl] at hfound
  exact content?_eq_some_iff.mpr ⟨b, access, find_followed_of_ne_link hfound (by simp)⟩

omit hvacant in
/-- A file that is moved is not at its old place any more. -/
theorem Sound.not_found_move (loc : Loc) (held : Entry) :
    (disk.move a b (.file bytes access)).find .itself artifact ≠ .ok (.present loc held) := by
  obtain ⟨dir, name, rfl, hname, hdir, hleaf⟩ := hfree.place hsound
  intro hafter
  have hgone : loc ≠ a := by
    rintro rfl
    have hheld := find_fits hafter
    rw [Fits, hsound.get?_move (find_fits hfind) (by simp) hleaf, if_neg hab, if_pos rfl] at hheld
    cases hheld
  have hthin := disk.thinner_eraseWithin (by simp : dir ++ [name] ≠ [])
  have hback := (hsound.move (find_fits hfind) (by simp) hdir hname hleaf).find_alike
    (hsound.alike_erased_move hfind hfree hab).symm (hsound.cwd_move hfind hfree).symm hafter
  rw [Found.on] at hback
  split at hback
  · obtain ⟨old, hold, -⟩ := hthin.present hsound hback
    rw [hfind] at hold
    cases hold
    exact hgone rfl
  · -- its name is looked up in the same directory as before
    have hordinary := hsound.ordinary_of_find hfind (by simp) (by simp)
    rw [← Path.child_parent (Path.ordinary_ne_empty hordinary)] at hback hfind
    obtain ⟨p, hp, -, ⟨h, -⟩ | ⟨_, h, -⟩⟩ := reached_of_find_child hordinary hback <;> cases h
    obtain ⟨q, hq, -, ⟨h, -⟩ | ⟨_, h, -⟩⟩ := reached_of_find_child hordinary hfind <;> cases h
    cases hq.symm.trans (hthin.directory hsound hp)
    exact hgone rfl

end Moved

/-- What a move over a free place does. -/
theorem Sound.replaced (hsound : disk.Sound) {loc : Loc} {bytes : Bytes} {access : Access}
    (hfile : disk.find .followed artifact = .ok (.present loc (.file bytes access)))
    (hbytes : bytes ≠ []) (hfind : disk.find .itself artifact = .ok (.present a entry))
    (hentry : entry ≠ .directory) (hfree : disk.Free target b) (hab : a ≠ b)
    (hvacant : disk.Detached target → (disk.eraseWithin b).find .itself target = .ok (.vacant b)) :
    Replaced artifact target a b entry disk (disk.move a b entry) := by
  obtain ⟨-, -, -, -, -, hleaf⟩ := hfree.place hsound
  have ha : disk.tree.get? a = some entry := find_fits hfind
  have hget := hsound.get?_move ha hentry hleaf
  refine ⟨hfind, hfree, ?gone, ?arrived, ?kept, ?places, ?log, bytes, hbytes,
    content?_eq_some_iff.mpr ⟨loc, access, hfile⟩, fun hplain hdetached => ?reads⟩
  case gone => rw [hget, if_neg hab, if_pos rfl]
  case arrived => rw [hget, if_pos rfl]
  case kept => exact fun q hqa hqb => by rw [hget, if_neg hqb, if_neg hqa]
  case places =>
    rw [hsound.move_eq ha hentry hleaf]
    exact ⟨rfl, rfl⟩
  case log =>
    rw [hsound.move_eq ha hentry hleaf, ← hsound.log_without hleaf]
  case reads =>
    rw [find_followed_of_ne_link hfind (by simp [hplain])] at hfile
    cases hfile
    exact ⟨hsound.content?_move hfind hfree hab (hvacant hdetached),
      hsound.not_found_move hfind hfree hab⟩

/-- The empty entry at `a` has been taken away from the path `artifact`. -/
structure Discarded (artifact target : Path) (a : Loc) (disk disk' : Disk) : Prop where
  found : ∃ entry, disk.find .itself artifact = .ok (.present a entry)
  empty : disk.content? artifact = some []
  gone : disk'.tree.get? a = none
  kept : ∀ loc, loc ≠ a → disk'.tree.get? loc = disk.tree.get? loc
  places : disk'.cwd = disk.cwd ∧ disk'.waiting = disk.waiting
  log : disk'.log = disk.log.filter (· ≠ a)
  /-- What the target names is where it was. -/
  target : ∀ loc held, disk.find .itself target = .ok (.present loc held) →
    disk'.find .itself target = .ok (.present loc held)

theorem Sound.discarded (hsound : disk.Sound) (hdistinct : disk.Distinct artifact target)
    (hempty : disk.content? artifact = some [])
    (hfind : disk.find .itself artifact = .ok (.present a entry)) :
    Discarded artifact target a disk (disk.eraseWithin a) := by
  have hdead := hsound.deadEnd hfind hempty
  have hget := hsound.get?_eraseWithin hdead.leaf
  refine ⟨⟨entry, hfind⟩, hempty, ?gone, ?kept, ?places, ?log, fun loc held htarget => ?target⟩
  case gone => rw [Disk.eraseWithin, hget, if_pos rfl]
  case kept => exact fun q hq => by rw [Disk.eraseWithin, hget, if_neg hq]
  case places => exact ⟨hsound.cwd_within hdead.leaf, hsound.waiting_within hdead.leaf⟩
  case log => exact hsound.log_without hdead.leaf
  case target =>
    have ha : disk.tree.get? a = some entry := find_fits hfind
    refine hdead.find_itself hsound htarget (by simp) (fun other heq => ?_) (by simp [ha])
    cases heq
    obtain rfl : held = entry := Option.some.inj ((find_fits htarget).symm.trans ha)
    exact hdistinct a held hfind htarget

theorem endsUnnamed_of_ordinary {path : Path} (hname : Path.Ordinary path.name) :
    endsUnnamed path = false := by
  unfold endsUnnamed
  rw [Path.name] at hname
  cases hlast : path.parts.getLast? with
  | none => rw [hlast] at hname; exact absurd rfl hname.1.1
  | some last => rw [hlast] at hname; simpa using hname.2

/-- Once a file has been taken away from the target, any other entry can be moved there. -/
theorem Sound.rename_after_unlink (hsound : disk.Sound) {t loc : Loc} {held : Entry}
    {bytes bytes' : Bytes} {access : Access}
    (hfile : disk.find .followed artifact = .ok (.present loc (.file bytes access)))
    (hdistinct : disk.Distinct artifact target)
    (htarget : disk.find .itself target = .ok (.present t held))
    (hcontent : disk.content? target = some bytes') :
    ∃ disk', (disk.eraseWithin t).rename artifact target = .ok disk' := by
  have hdead := hsound.deadEnd htarget hcontent
  obtain ⟨_, _, htargetfile⟩ := content?_eq_some_iff.mp hcontent
  have hname := hsound.ordinary_of_find hfile (by simp) (by simp)
  have htargetname := hsound.ordinary_of_find htargetfile (by simp) (by simp)
  have htheld : disk.tree.get? t = some held := find_fits htarget
  have hfound : ∃ a entry, disk.find .itself artifact = .ok (.present a entry) ∧
      entry ≠ .directory := by
    rcases disk.find_followed artifact with ⟨a, text, hlink⟩ | heq
    · exact ⟨a, .link text, hlink, by simp⟩
    · exact ⟨loc, .file bytes access, heq.symm.trans hfile, by simp⟩
  obtain ⟨a, entry, hfind, hentry⟩ := hfound
  have hat : a ≠ t := by
    rintro rfl
    obtain rfl : entry = held := Option.some.inj ((find_fits hfind).symm.trans htheld)
    exact hdistinct a entry hfind htarget
  have hstill : (disk.eraseWithin t).find .itself artifact = .ok (.present a entry) := by
    refine hdead.find_itself hsound hfind (by simp) (fun other heq => ?_) (by simp [htheld])
    cases heq
    exact hat rfl
  have hvacant : (disk.eraseWithin t).find .itself target = .ok (.vacant t) := by
    rw [← Path.child_parent (Path.ordinary_ne_empty htargetname)] at htarget ⊢
    obtain ⟨p, hp, hshort, ⟨h, -⟩ | ⟨_, h, -⟩⟩ := reached_of_find_child htargetname htarget <;>
      cases h
    rw [find_child_of_reached htargetname hshort (nameable_of_find htarget)
      (hdead.reached hsound hp), get?_within _ (by simp), if_pos List.prefix_rfl]
  simp only [rename, bind, Except.bind, hstill, hvacant, endsUnnamed_of_ordinary hname,
    endsUnnamed_of_ordinary htargetname]
  cases entry with
  | directory => exact absurd rfl hentry
  | file bytes access => simp [hat]
  | link text => simp [hat]

end Disk

open Disk

/-- A promotion brings the bytes of its artifact to the target, or keeps those of the target. -/
theorem promote_preserves_bytes (artifact target : Path) {w : World σ} (hsound : w.disk.Sound)
    (hdistinct : w.disk.Distinct artifact target) :
    match (promote artifact target : Act σ Bool) w with
    | .ok true w' => ∃ disk' a b entry, w' = { w with disk := disk' } ∧
        Replaced artifact target a b entry w.disk disk'
    | .ok false w' => w' = w ∨ ∃ disk' a, w' = { w with disk := disk' } ∧
        Discarded artifact target a w.disk disk'
    | .error _ w' => ∀ bytes, w.disk.content? target = some bytes → w' = w := by
  rcases promote_cases artifact target w with (hrun | ⟨fault, hrun⟩) |
    ⟨loc, access, disk', hfile, hunlink, hrun⟩ |
      ⟨loc, bytes, access, disk', hfile, hbytes, hfirst, hmove⟩
  · rw [hrun]
    exact .inl rfl
  · rw [hrun]
    exact fun _ _ => rfl
  · obtain ⟨a, entry, hfind, -, rfl⟩ := unlink_cases hunlink
    rw [hrun]
    exact .inr ⟨_, a, rfl, hsound.discarded hdistinct
      (content?_eq_some_iff.mpr ⟨loc, access, hfile⟩) hfind⟩
  have hsource := find_itself_ne_directory hfile
  rcases hfirst with ⟨habsent, rfl⟩ | ⟨-, hunlink⟩
  · rcases hmove with ⟨disk'', hrename, hrun⟩ | ⟨why, fault, hrename, hrun⟩ <;> rw [hrun]
    · obtain ⟨a, b, entry, hfind, hentry, hfree, rfl⟩ := rename_eq hsource hrename
      have hab : a ≠ b := by
        rintro rfl
        have ha : w.disk.tree.get? a = some entry := find_fits hfind
        rcases hfree with hvacant | ⟨held, hheld, -⟩
        · rw [(find_fits hvacant).1] at ha
          cases ha
        · obtain rfl : held = entry := Option.some.inj ((find_fits hheld).symm.trans ha)
          exact hdistinct a held hfind hheld
      rw [if_neg hab]
      refine ⟨_, a, b, entry, rfl, hsound.replaced hfile hbytes hfind hentry hfree hab
        fun hdetached => hdetached.vacant hsound hfree fun held hheld => ?_⟩
      -- what is there and does not count as present is a link
      by_contra hlink
      have hpresent := ask_of_present (find_followed_of_ne_link hheld (by
        rintro loc text heq
        cases heq
        exact hlink ⟨text, rfl⟩)) fun _ => true
      rw [present, hpresent] at habsent
      cases habsent
    · exact fun _ _ => rfl
  · obtain ⟨t, held, htarget, hheld, rfl⟩ := unlink_cases hunlink
    have htnil : t ≠ [] := Tree.ne_nil_of_get? (find_fits htarget) hheld
    have hthin := w.disk.thinner_eraseWithin htnil
    rcases hmove with ⟨disk'', hrename, hrun⟩ | ⟨why, fault, hrename, hrun⟩ <;> rw [hrun]
    · obtain ⟨a, b, entry, hfind, hentry, hfree, rfl⟩ :=
        rename_eq (fun p h => hsource p (hthin.directory hsound h)) hrename
      have hname := hsound.ordinary_of_find htarget (fun loc heq => by cases heq; exact hheld rfl)
        (by simp)
      have hchild := Path.child_parent (Path.ordinary_ne_empty hname)
      have hplace : b = t := by
        rw [← hchild] at htarget hfree
        exact hsound.free_after_unlink hname htarget hheld hfree
      subst hplace
      have hgone : (w.disk.eraseWithin b).tree.get? b = none := by
        rw [get?_within _ htnil, if_pos List.prefix_rfl]
      have hafter : (w.disk.eraseWithin b).tree.get? a = some entry := find_fits hfind
      have hab : a ≠ b := by
        rintro rfl
        rw [hgone] at hafter
        cases hafter
      have hleaf : w.disk.tree.get? b ≠ some .directory := fun h =>
        hheld (Option.some.inj ((find_fits htarget).symm.trans h))
      have hback := hthin.same hsound hfind (by
        rw [Disk.eraseWithin, hsound.get?_eraseWithin hleaf, if_neg hab])
      rw [if_neg hab, hsound.move_eraseWithin hleaf]
      refine ⟨_, a, b, entry, rfl, hsound.replaced hfile hbytes hback hentry
        (.inr ⟨held, htarget, hheld⟩) hab fun _ => ?_⟩
      rcases hfree with hvacant | ⟨other, hother, -⟩
      · exact hvacant
      · have hthere := find_fits hother
        rw [Fits, hgone] at hthere
        cases hthere
    · intro bytes' hcontent
      obtain ⟨disk'', hdone⟩ := hsound.rename_after_unlink hfile hdistinct htarget hcontent
      rw [hdone] at hrename
      cases hrename

/-- What a tool has left in the staging directory is read at the file afterwards. -/
theorem staged_output_read_at_file :
    let artifact : Path := ⟨.here, ["d", "output_dir", "entry.js"]⟩
    let target : Path := ⟨.here, ["d", "a.js"]⟩
    Sample.littered.Sound ∧ Sample.littered.Distinct artifact target ∧
      ∃ disk' a b entry, promote artifact target (Sample.world Sample.littered) =
          .ok true { Sample.world Sample.littered with disk := disk' } ∧
        Replaced artifact target a b entry Sample.littered disk' ∧
        disk'.content? target = some [98] := by
  intro artifact target
  have hsound : Sample.littered.Sound := by decide
  have hartifact : Sample.littered.find .itself artifact =
      .ok (.present ["d", "output_dir", "entry.js"] (.file [98] {})) := by decide
  have htarget : Sample.littered.find .itself target =
      .ok (.present ["d", "a.js"] (.file [97] {})) := by decide
  have hdistinct : Sample.littered.Distinct artifact target := by
    intro loc entry hfind hother
    cases hartifact.symm.trans hfind
    exact absurd (htarget.symm.trans hother) (by decide)
  have hdetached : Sample.littered.Detached target := by
    intro loc text hlink
    cases htarget.symm.trans hlink
  have hresult := promote_preserves_bytes artifact target (w := Sample.world Sample.littered)
    hsound hdistinct
  obtain ⟨w', hrun⟩ :
    ∃ w', promote artifact target (Sample.world Sample.littered) = .ok true w' := ⟨_, rfl⟩
  rw [hrun] at hresult
  obtain ⟨disk', a, b, entry, rfl, hreplaced⟩ := hresult
  refine ⟨hsound, hdistinct, disk', a, b, entry, hrun, hreplaced, ?_⟩
  obtain ⟨bytes, -, hbytes, hreads⟩ := hreplaced.reads
  cases hartifact.symm.trans hreplaced.found
  cases (show Sample.littered.content? artifact = some [98] by decide).symm.trans hbytes
  exact (hreads (fun _ => by simp) hdetached).1

/-- A link to the file itself is moved over the file and leads nowhere then: the promotion
succeeds, and the bytes are gone. -/
theorem promoted_link_loses_file :
    let disk := Sample.disk [(["a.js"], .file [120] {}),
      (["a.js.deobfuscated.js"], .link "a.js")]
    let artifact : Path := ⟨.here, ["a.js.deobfuscated.js"]⟩
    let target : Path := ⟨.here, ["a.js"]⟩
    disk.Sound ∧ disk.content? artifact = some [120] ∧ disk.content? target = some [120] ∧
      ∃ w', promote artifact target (Sample.world disk) = .ok true w' ∧
        w'.disk.tree.entries = [(["a.js"], .link "a.js")] ∧ w'.disk.content? target = none := by
  refine ⟨by decide, by decide, by decide, _, rfl, by decide, by decide⟩

end Unscramble
