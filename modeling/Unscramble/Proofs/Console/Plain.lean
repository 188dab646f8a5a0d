import Unscramble.Proofs.Console.Escape
import Unscramble.Proofs.Result

/-!
# Text without markup

What is shown of a text is made of its characters, in their order, and fewer of them wherever it
holds markup.  So a text is shown as it is written just where no part of it is markup.
-/

namespace Unscramble.Console

variable {s text : List Char} {ts : List Token} {stack : OpenTags} {position : Nat}

/-- A text that is shown as it is written: it holds no tag, and no backslash directly before a
bracket. -/
structure Plain (s : List Char) : Prop where
  tagless : ∀ body after, '[' :: (body ++ ']' :: after) <:+ s → ¬IsBody body
  bare : ¬['\\', '['] <:+: s

/-! ## Tokens -/

theorem source_tokens (s : List Char) : (tokens s).flatMap Token.source = s := by
  induction s using tokens.induct with
  | case1 => simp [tokens_nil]
  | case2 c rest slashes body after htag hlt ih =>
    obtain ⟨htext, -⟩ := tag?_eq_some_iff.mp htag
    rw [tokens_of_tag htag, List.flatMap_cons, ih, htext]
    simp [Token.source]
  | case3 c rest htag ih =>
    rw [tokens_of_plain htag, List.flatMap_cons, ih]
    rfl

/-- Every character by itself, where no tag starts. -/
theorem tokens_eq_map_plain_iff : tokens s = s.map .plain ↔
    ∀ body after, '[' :: (body ++ ']' :: after) <:+ s → ¬IsBody body := by
  induction s using tokens.induct with
  | case1 => simp [tokens_nil]
  | case2 c rest slashes body after htag hlt ih =>
    obtain ⟨htext, hbody⟩ := tag?_eq_some_iff.mp htag
    rw [tokens_of_tag htag, List.map_cons]
    refine iff_of_false (by simp) fun htagless => htagless body after ?_ hbody
    rw [htext]
    exact List.suffix_append _ _
  | case3 c rest htag ih =>
    rw [tokens_of_plain htag, List.map_cons, List.cons.injEq, ih]
    constructor
    · rintro ⟨-, hrest⟩ body after hsuffix hbody
      rcases List.suffix_cons_iff.mp hsuffix with heq | hsuffix
      · have hstarts : tag? (c :: rest) = some (0, body, after) :=
          tag?_eq_some_iff.mpr ⟨heq.symm, hbody⟩
        rw [htag] at hstarts
        cases hstarts
      · exact hrest body after hsuffix hbody
    · exact fun htagless => ⟨rfl, fun body after hsuffix =>
        htagless body after (hsuffix.trans (List.suffix_cons c rest))⟩

/-! ## What is shown -/

/-- A token that is shown as it is written. -/
def Token.Literal : Token → List Token → Prop
  | .plain c, rest => ¬(c = '\\' ∧ rest.head? = some (.plain '['))
  | .tag _ _, _ => False

/-- What is shown of a token stands in it in this order, and is less than it unless the token is
literal. -/
theorem strip_cons {t : Token} {rest : List Token}
    (hstrip : strip stack position (t :: rest) = .ok text) :
    ∃ kept shown stack' position', strip stack' position' rest = .ok shown ∧
      text = kept ++ shown ∧ kept.Sublist t.source ∧ (kept = t.source → t.Literal rest) := by
  cases t with
  | plain c =>
    obtain ⟨shown, hshown, hend⟩ := Except.ok_of_bind hstrip
    split at hend <;> cases hend
    · exact ⟨[], _, _, _, hshown, rfl, List.nil_sublist _, nofun⟩
    · next hliteral => exact ⟨[c], _, _, _, hshown, rfl, .refl _, fun _ => hliteral⟩
  | tag slashes body =>
    have hslashes : (List.replicate (slashes / 2) '\\').Sublist (List.replicate slashes '\\') :=
      List.replicate_sublist_replicate _ |>.mpr (Nat.div_le_self slashes 2)
    simp only [strip] at hstrip
    split at hstrip
    · next hodd =>
      obtain ⟨shown, hshown, hend⟩ := Except.ok_of_bind hstrip
      cases hend
      refine ⟨List.replicate (slashes / 2) '\\' ++ '[' :: body ++ [']'], shown, _, _, hshown,
        by simp, (hslashes.append_right _).append_right _, fun heq => ?_⟩
      have hlength := congrArg List.length heq
      simp only [Token.source, List.length_append, List.length_cons, List.length_replicate]
        at hlength
      omega
    · obtain ⟨stack', -, hnext⟩ := Except.ok_of_bind hstrip
      obtain ⟨shown, hshown, hend⟩ := Except.ok_of_bind hnext
      cases hend
      refine ⟨List.replicate (slashes / 2) '\\', shown, _, _, hshown, rfl, ?_, fun heq => ?_⟩
      · exact hslashes.trans ((List.sublist_append_left _ _).trans (List.sublist_append_left _ _))
      have hlength := congrArg List.length heq
      simp only [Token.source, List.length_append, List.length_cons, List.length_replicate]
        at hlength
      omega

theorem strip_sublist (hstrip : strip stack position ts = .ok text) :
    text.Sublist (ts.flatMap Token.source) := by
  induction ts generalizing stack position text with
  | nil =>
    cases hstrip
    exact .slnil
  | cons t rest ih =>
    obtain ⟨kept, shown, _, _, hshown, rfl, hkept, -⟩ := strip_cons hstrip
    exact hkept.append (ih hshown)

/-- What is shown whole is literal throughout. -/
theorem plain_of_strip (hstrip : strip stack position ts = .ok (ts.flatMap Token.source)) :
    ts = (ts.flatMap Token.source).map .plain ∧ ¬['\\', '['] <:+: ts.flatMap Token.source := by
  induction ts generalizing stack position with
  | nil => simp
  | cons t rest ih =>
    obtain ⟨kept, shown, _, _, hshown, htext, hkept, hliteral⟩ := strip_cons hstrip
    rw [List.flatMap_cons] at htext
    have hrest := strip_sublist hshown
    have hlength := congrArg List.length htext
    rw [List.length_append, List.length_append] at hlength
    have hkeptLength := hkept.length_le
    have hrestLength := hrest.length_le
    cases hrest.eq_of_length (by omega)
    obtain ⟨heq, hbare⟩ := ih hshown
    have ht := hliteral (hkept.eq_of_length (by omega))
    cases t with
    | tag slashes body => exact ht.elim
    | plain c =>
      refine ⟨congrArg (Token.plain c :: ·) heq, fun hinfix => ?_⟩
      rcases List.infix_cons_iff.mp hinfix with hstart | hinfix
      · obtain ⟨rfl, after, hafter⟩ := List.cons_prefix_cons.mp hstart
        have hrest : rest.flatMap Token.source = '[' :: after := hafter.symm
        rw [hrest] at heq
        exact ht ⟨rfl, heq ▸ rfl⟩
      · exact hbare hinfix

theorem strip_plain (hbare : ¬['\\', '['] <:+: s) :
    strip stack position (s.map .plain) = .ok s := by
  induction s generalizing position with
  | nil => rfl
  | cons c rest ih =>
    have hnot : ¬(c = '\\' ∧ (rest.map Token.plain).head? = some (.plain '[')) := by
      rintro ⟨rfl, hhead⟩
      cases rest with
      | nil => cases hhead
      | cons d rest =>
        cases hhead
        exact hbare (List.IsPrefix.isInfix ⟨rest, rfl⟩)
    have hrest : strip stack (position + 1) (rest.map .plain) = .ok rest :=
      ih fun hinfix => hbare (List.infix_cons hinfix)
    simp only [List.map_cons, strip, hrest, hnot, if_false, bind, Except.bind]

/-! ## Text that is shown as it is written -/

/-- What is shown of a text stands in it in this order. -/
theorem render_sublist (hrender : render s = .ok text) : text.Sublist s := by
  obtain ⟨shown, hshown, hend⟩ := Except.ok_of_bind hrender
  obtain ⟨-, -, hend⟩ := Except.ok_of_bind hend
  cases hend
  exact source_tokens s ▸ strip_sublist hshown

/-- A text is shown as it is written just where it holds no markup. -/
theorem render_eq_self_iff : render s = .ok s ↔ Plain s := by
  constructor
  · intro hrender
    obtain ⟨shown, hshown, hend⟩ := Except.ok_of_bind hrender
    obtain ⟨-, -, hend⟩ := Except.ok_of_bind hend
    cases hend
    obtain ⟨heq, hbare⟩ := plain_of_strip (hshown.trans (congrArg _ (source_tokens s).symm))
    rw [source_tokens] at heq hbare
    exact ⟨tokens_eq_map_plain_iff.mp heq, hbare⟩
  · intro hplain
    have hinert : ∀ t ∈ s.map Token.plain, t.Inert := by
      simp [Token.Inert]
    rw [render, tokens_eq_map_plain_iff.mpr hplain.tagless, strip_plain hplain.bare,
      forM_styled_of_inert hinert]
    rfl

end Unscramble.Console
