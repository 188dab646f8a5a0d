import Unscramble.Proofs.Action
import Unscramble.Proofs.Console.Restored
import Unscramble.Proofs.Sample
import Unscramble.Proofs.Text.Wrap

/-!
# Status lines on a console

A status line is escaped, read as markup and laid out.  One that fits is printed as it is written,
unless its message loses a backslash before a bracket or gains one at its end.
-/

namespace Unscramble

open Console Text

variable {σ : Type} {s lead line : List Char} {console : Console} {level : Level} {message : String}

/-! ## The time before a message -/

namespace Moment

/-- A character that is printed, and no backslash. -/
def IsPlainChar (c : Char) : Prop := 0x1F < c.toNat ∧ c ≠ '\\'

instance (c : Char) : Decidable (IsPlainChar c) := inferInstanceAs (Decidable (_ ∧ _))

/-- Text of such characters. -/
def IsPlainText (text : String) : Prop := ∀ c ∈ text.toList, IsPlainChar c

instance (text : String) : Decidable (IsPlainText text) :=
  decidable_of_iff (text.toList.all (decide <| IsPlainChar ·) = true) (by simp [IsPlainText])

theorem IsPlainText.append {text other : String} (htext : IsPlainText text)
    (hother : IsPlainText other) : IsPlainText (text ++ other) := by
  intro c hc
  rw [String.toList_append] at hc
  exact (List.mem_append.mp hc).elim (htext c) (hother c)

theorem isPlainText_padded (width n : Nat) : IsPlainText (padded width n) := by
  refine IsPlainText.append (fun c hc => ?_) fun c hc => ?_
  · rw [String.toList_ofList] at hc
    rw [List.eq_of_mem_replicate hc]
    decide
  · have hdigit : c.isDigit = true :=
      Nat.isDigit_of_mem_toDigits (by decide) (by decide) (Nat.toList_repr ▸ hc)
    have hcode : 48 ≤ c.toNat ∧ c.toNat ≤ 57 := by
      simpa [Char.isDigit, UInt32.le_iff_toNat_le] using hdigit
    refine ⟨by omega, ?_⟩
    rintro rfl
    exact absurd hcode.2 (by decide)

theorem isPlainText_stamp (now : Moment) : IsPlainText now.stamp := by
  have hdash : IsPlainText "-" := by decide
  have hcolon : IsPlainText ":" := by decide
  have hblank : IsPlainText " " := by decide
  have hday := (((isPlainText_padded 4 now.year).append hdash).append
    (isPlainText_padded 2 now.month)).append hdash |>.append (isPlainText_padded 2 now.day)
  exact (((((hday.append hblank).append (isPlainText_padded 2 now.hour)).append hcolon).append
    (isPlainText_padded 2 now.minute)).append hcolon).append (isPlainText_padded 2 now.second)

end Moment

/-- What stands before the message of a status line. -/
def statusLead (now : Moment) : List Char := '[' :: now.stamp.toList ++ [']', ' ']

theorem toList_statusText (now : Moment) (message : String) :
    (statusText now message).toList = statusLead now ++ message.toList := by
  simp [statusText, statusLead]

theorem isPlainChar_of_mem_statusLead {now : Moment} {c : Char} (hc : c ∈ statusLead now) :
    Moment.IsPlainChar c := by
  rcases List.mem_append.mp hc with hc | hc
  · rcases List.mem_cons.mp hc with rfl | hc
    · decide
    · exact now.isPlainText_stamp c hc
  · fin_cases hc <;> decide

/-- Text without backslashes before a text does not touch how it is restored. -/
theorem Console.restored_append_iff (hlead : '\\' ∉ lead) (s : List Char) :
    Restored (lead ++ s) ↔ Restored s := by
  have hsuffix {rest : List Char} :
      '\\' :: '[' :: rest <:+ lead ++ s ↔ '\\' :: '[' :: rest <:+ s := by
    induction lead with
    | nil => rfl
    | cons c lead ih =>
      obtain ⟨hc, hmore⟩ := not_or.mp (mt List.mem_cons.mpr hlead)
      rw [List.cons_append, List.suffix_cons_iff, ih hmore, or_iff_right]
      intro heq
      exact hc (List.cons.inj heq).1
  have hlone : LoneSlash (lead ++ s) ↔ LoneSlash s := by
    have hhead : lead.reverse.head? ≠ some '\\' := fun hhead =>
      hlead (List.mem_reverse.mp (List.mem_of_head? hhead))
    rw [LoneSlash, LoneSlash, List.reverse_append]
    rcases s.reverse with _ | ⟨c, _ | ⟨d, rest⟩⟩
    · exact iff_of_false (fun hlone => hhead hlone.1) fun hlone => by cases hlone.1
    · rw [List.head?_eq_getElem?] at hhead
      simpa using fun _ => hhead
    · rfl
  constructor
  · rintro ⟨hopening, hclosed⟩
    exact ⟨fun rest hrest => hopening rest (hsuffix.mpr hrest), mt hlone.mpr hclosed⟩
  · rintro ⟨hopening, hclosed⟩
    exact ⟨fun rest hrest => hopening rest (hsuffix.mp hrest), mt hlone.mp hclosed⟩

/-! ## Lines that fit -/

/-- A line is no wider than the console, and does not end in blanks if it has more characters than
the console has columns. -/
structure Console.Fits (console : Console) (line : List Char) : Prop where
  width : cells line ≤ console.columns
  length : line.length ≤ console.columns ∨ trimRight line = line

theorem Text.trimToRoom_of_fits {room : Nat}
    (hlength : line.length ≤ room ∨ trimRight line = line) : trimToRoom room line = line := by
  have hkept : line.length - min (line.reverse.takeWhile isBlank).length (line.length - room) =
      line.length := by
    rcases hlength with hshort | htrimmed
    · rw [Nat.sub_eq_zero_of_le hshort, Nat.min_zero, Nat.sub_zero]
    · obtain ⟨blanks, hline, hblanks, -⟩ := trimRight_append line
      rw [htrimmed] at hline
      rw [← hblanks, List.self_eq_append_right.mp hline]
      simp
  rw [trimToRoom, hkept, List.take_length]

theorem Console.layOut_of_fits (huncoloured : console.coloured = false)
    (hprinted : ∀ c ∈ line, 0x1F < c.toNat) (hfits : console.Fits line) (style : Option String) :
    console.layOut style line = String.ofList (line ++ ['\n']) := by
  have hkept : line.filter (!isDropped ·) = line := by
    refine List.filter_eq_self.mpr fun c hc => ?_
    have hcode := hprinted c hc
    simp only [isDropped, Bool.not_eq_true', Bool.or_eq_false_iff, decide_eq_false_iff_not]
    omega
  have hnot {c : Char} (hcode : c.toNat ≤ 0x1F) : c ∉ line := fun hc => by
    have := hprinted c hc
    omega
  have hpaint : console.paint style line = line := by
    unfold paint
    split
    · simp [huncoloured]
    · rfl
  rw [layOut, hkept, wrap_of_fits (hnot (by decide)) (hnot (by decide)) hfits.width,
    trimToRoom_of_fits hfits.length]
  simp [hpaint]

/-- A status line that fits on a console without colour is printed as it is written just where its
message is restored from being escaped, and its message is logged in any case. -/
theorem Reporter.say_restored (reporter : Reporter) (w : World σ)
    (hlevel : level ≠ .debug ∨ reporter.verbose = true)
    (huncoloured : reporter.console.coloured = false)
    (hprinted : ∀ c ∈ message.toList, 0x1F < c.toNat)
    (hfits : reporter.console.Fits (statusText w.now message).toList) :
    ∃ shown w', reporter.say level message w = .ok () w' ∧
      w'.lines = w.lines ++ [(level, message)] ∧
      render (escape (statusText w.now message).toList) = .ok shown ∧
      w'.screen = w.screen ++ [reporter.console.layOut level.style shown] ∧
      (shown = (statusText w.now message).toList ↔ Restored message.toList) ∧
      (Restored message.toList → w'.screen = w.screen ++ [statusText w.now message ++ "\n"]) := by
  obtain ⟨shown, hshown⟩ := render_escape (statusText w.now message).toList
  have hprint : reporter.console.print level.style
      (escape (statusText w.now message).toList) = .ok (reporter.console.layOut level.style shown) := by
    rw [print, hshown]
    rfl
  have hscreen : (w.said reporter level message).screen =
      w.screen ++ [reporter.console.layOut level.style shown] := by
    simp only [World.said, Reporter.shown, if_pos hlevel, hprint]
  have hsame : shown = (statusText w.now message).toList ↔ Restored message.toList := by
    rw [← restored_append_iff (fun hc => (isPlainChar_of_mem_statusLead hc).2 rfl), ← toList_statusText,
      ← render_escape_eq_self_iff, hshown, Except.ok.injEq]
  refine ⟨shown, _, reporter.say_eq level message w, rfl, hshown, hscreen, hsame, fun hrestored => ?_⟩
  rw [hscreen, hsame.mpr hrestored, layOut_of_fits huncoloured ?_ hfits]
  · simp
  · rw [toList_statusText]
    intro c hc
    rcases List.mem_append.mp hc with hc | hc
    · exact (isPlainChar_of_mem_statusLead hc).1
    · exact hprinted c hc

section Samples

theorem escaped_tag_printed :
    let message := "\\[id].js is not [1]"
    let w := Sample.world (Sample.disk [])
    Restored message.toList ∧ ∃ w', Sample.tidying.reporter.say .warning message w = .ok () w' ∧
      w'.lines = [(.warning, message)] ∧
      w'.screen = ["[2024-01-02 03:04:05] \\[id].js is not [1]\n"] := by
  intro message w
  have hrestored : Restored message.toList := render_escape_eq_self_iff.mp (by decide +kernel)
  have hfits : Sample.tidying.reporter.console.Fits (statusText w.now message).toList :=
    ⟨by decide +kernel, .inl (by decide)⟩
  have hlevel : Level.warning ≠ .debug ∨ Sample.tidying.reporter.verbose = true := .inl (by decide)
  have hprinted : ∀ c ∈ message.toList, 0x1F < c.toNat := by
    simpa using (by decide : (message.toList.all fun c => 0x1F < c.toNat) = true)
  obtain ⟨shown, w', hsay, hlines, -, -, -, hscreen⟩ :=
    Sample.tidying.reporter.say_restored w hlevel rfl hprinted hfits
  exact ⟨hrestored, w', hsay, hlines, (hscreen hrestored).trans (by decide +kernel)⟩

/-- A backslash before a bracket that opens no tag is not printed, and a single one at the end is
printed twice. -/
theorem backslashes_not_kept :
    let w := Sample.world (Sample.disk [])
    ((Sample.tidying.reporter.info "\\[1]").final w).screen =
        ["[2024-01-02 03:04:05] [1]\n"] ∧
      ((Sample.tidying.reporter.info "\\[1]").final w).lines = [(.info, "\\[1]")] ∧
      ((Sample.tidying.reporter.info "d\\").final w).screen =
        ["[2024-01-02 03:04:05] d\\\\\n"] := by
  decide +kernel

end Samples

end Unscramble
