import Unscramble.Proofs.Console.Plain

/-!
# Escaped text that is shown as it was

What is shown of an escaped text is the text itself, tags and all, in all but two cases.  A
backslash directly before a bracket that opens no tag is lost, as the bracket needs no escape; and
a single backslash at the end is doubled, as nothing halves it again.
-/

namespace Unscramble.Console

variable {s body after : List Char} {c : Char} {slashes : Nat} {ts : List Token}

/-- A tag starts with the text, without backslashes before it. -/
def StartsTag (s : List Char) : Prop :=
  ∃ body after, s = '[' :: (body ++ ']' :: after) ∧ IsBody body

/-- The text ends in a backslash that no other comes before. -/
def LoneSlash (s : List Char) : Prop :=
  s.reverse.head? = some '\\' ∧ s.reverse[1]? ≠ some '\\'

instance (s : List Char) : Decidable (LoneSlash s) := inferInstanceAs (Decidable (_ ∧ _))

/-- A text that is shown as it was once it is escaped. -/
structure Restored (s : List Char) : Prop where
  opening : ∀ rest, '\\' :: '[' :: rest <:+ s → StartsTag ('[' :: rest)
  closed : ¬LoneSlash s

/-! ## Backslashes before brackets -/

theorem tag?_bracket_eq_none_iff {rest : List Char} :
    tag? ('[' :: rest) = none ↔ ¬StartsTag ('[' :: rest) := by
  constructor
  · rintro hnone ⟨body, after, htext, hbody⟩
    have hstarts : tag? ('[' :: rest) = some (0, body, after) :=
      tag?_eq_some_iff.mpr ⟨htext, hbody⟩
    cases hnone.symm.trans hstarts
  · rw [Option.eq_none_iff_forall_not_mem]
    rintro hopens ⟨slashes, body, after⟩ hfound
    obtain ⟨htext, hbody⟩ := tag?_eq_some_iff.mp hfound
    cases slashes with
    | zero => exact hopens ⟨body, after, htext, hbody⟩
    | succ slashes => cases htext

/-- A backslash before a bracket that belongs to a tag is one of the tag's own. -/
theorem suffix_of_tag {rest : List Char} (hbody : IsBody body)
    (hsuffix : '\\' :: '[' :: rest <:+ List.replicate slashes '\\' ++ '[' :: (body ++ ']' :: after)) :
    StartsTag ('[' :: rest) ∨ '\\' :: '[' :: rest <:+ after := by
  have hinside {part : List Char} (hpart : ∀ c ∈ part, c ≠ ']' ∧ c ≠ '[')
      (hsuffix : '\\' :: '[' :: rest <:+ part ++ ']' :: after) :
      '\\' :: '[' :: rest <:+ after := by
    induction part with
    | nil =>
      rcases List.suffix_cons_iff.mp hsuffix with heq | hsuffix
      · cases heq
      · exact hsuffix
    | cons c part ih =>
      obtain ⟨-, hrest⟩ := List.forall_mem_cons.mp hpart
      rcases List.suffix_cons_iff.mp hsuffix with heq | hsuffix
      · have htail : '[' :: rest = part ++ ']' :: after := (List.cons.inj heq).2
        cases part with
        | nil => cases htail
        | cons d part =>
          cases htail
          exact absurd rfl (hrest '[' List.mem_cons_self).2
      · exact ih hrest hsuffix
  induction slashes with
  | zero =>
    rcases List.suffix_cons_iff.mp hsuffix with heq | hsuffix
    · cases heq
    · exact .inr (hinside hbody.noBracket hsuffix)
  | succ slashes ih =>
    rw [List.replicate_succ, List.cons_append] at hsuffix
    rcases List.suffix_cons_iff.mp hsuffix with heq | hsuffix
    · cases slashes with
      | zero => exact .inl ⟨body, after, (List.cons.inj heq).2, hbody⟩
      | succ slashes => cases (List.cons.inj heq).2
    · exact ih hsuffix

/-- Plain backslashes before plain brackets are those before brackets that open no tag. -/
theorem slash_infix_tokens_iff : [.plain '\\', .plain '['] <:+: tokens s ↔
    ∃ rest, '\\' :: '[' :: rest <:+ s ∧ ¬StartsTag ('[' :: rest) := by
  induction s using tokens.induct with
  | case1 => simp [tokens_nil]
  | case2 c rest slashes body after htag hlt ih =>
    obtain ⟨htext, hbody⟩ := tag?_eq_some_iff.mp htag
    rw [tokens_of_tag htag, List.infix_cons_iff, ih, htext]
    constructor
    · rintro (hstart | ⟨rest, hsuffix, hopens⟩)
      · cases (List.cons_prefix_cons.mp hstart).1
      · exact ⟨rest, hsuffix.trans ⟨List.replicate slashes '\\' ++ '[' :: (body ++ [']']), by simp⟩,
          hopens⟩
    · rintro ⟨rest, hsuffix, hopens⟩
      exact .inr ⟨rest, (suffix_of_tag hbody hsuffix).resolve_left hopens, hopens⟩
  | case3 c rest htag ih =>
    rw [tokens_of_plain htag, List.infix_cons_iff, ih]
    constructor
    · rintro (hstart | ⟨more, hsuffix, hopens⟩)
      · obtain ⟨hc, hhead⟩ := List.cons_prefix_cons.mp hstart
        cases hc
        cases rest with
        | nil =>
          rw [tokens_nil] at hhead
          cases List.prefix_nil.mp hhead
        | cons d more =>
          cases htag' : tag? (d :: more) with
          | some found =>
            rw [tokens_of_tag htag'] at hhead
            cases (List.cons_prefix_cons.mp hhead).1
          | none =>
            rw [tokens_of_plain htag'] at hhead
            cases (List.cons_prefix_cons.mp hhead).1
            exact ⟨more, List.suffix_rfl, tag?_bracket_eq_none_iff.mp htag'⟩
      · exact ⟨more, hsuffix.trans (List.suffix_cons c rest), hopens⟩
    · rintro ⟨more, hsuffix, hopens⟩
      rcases List.suffix_cons_iff.mp hsuffix with heq | hsuffix
      · cases heq
        refine .inl (List.cons_prefix_cons.mpr ⟨rfl, ?_⟩)
        rw [tokens_of_plain (tag?_bracket_eq_none_iff.mpr hopens)]
        exact List.cons_prefix_cons.mpr ⟨rfl, List.nil_prefix⟩
      · exact .inr ⟨more, hsuffix, hopens⟩

/-! ## What is shown of an escaped text -/

/-- What is shown of tokens that have been escaped: each as it was, but for backslashes before
brackets. -/
def shownOf : List Token → List Char
  | [] => []
  | .plain c :: rest =>
    if c = '\\' ∧ rest.head? = some (.plain '[') then shownOf rest else c :: shownOf rest
  | .tag slashes body :: rest => (Token.tag slashes body).source ++ shownOf rest

theorem head?_map_doubled (ts : List Token) (c : Char) :
    (ts.map Token.doubled).head? = some (.plain c) ↔ ts.head? = some (.plain c) := by
  cases ts with
  | nil => rfl
  | cons t rest => cases t <;> simp [Token.doubled]

theorem strip_map_doubled (stack : OpenTags) (position : Nat) (ts : List Token) :
    strip stack position (ts.map Token.doubled) = .ok (shownOf ts) := by
  induction ts generalizing position with
  | nil => rfl
  | cons t rest ih =>
    cases t with
    | plain c =>
      simp only [List.map_cons, Token.doubled, strip, ih, head?_map_doubled, shownOf, bind,
        Except.bind]
      split <;> rfl
    | tag slashes body =>
      have hodd : (2 * slashes + 1) % 2 = 1 := by omega
      have hhalf : (2 * slashes + 1) / 2 = slashes := by omega
      simp [Token.doubled, strip, ih, hodd, hhalf, shownOf, Token.source, bind, Except.bind]

/-- The first backslash that is lost leaves its bracket in its place. -/
theorem shownOf_cases (ts : List Token) :
    shownOf ts = ts.flatMap Token.source ∧ ¬[.plain '\\', .plain '['] <:+: ts ∨
      [.plain '\\', .plain '['] <:+: ts ∧ ∃ before rest shown,
        ts.flatMap Token.source = before ++ '\\' :: rest ∧ shownOf ts = before ++ '[' :: shown := by
  induction ts with
  | nil => exact .inl ⟨rfl, by simp⟩
  | cons t others ih =>
    have hmore {part : List Char} (hshown : shownOf (t :: others) = part ++ shownOf others)
        (hsource : t.source = part) (hkept : ¬[.plain '\\', .plain '['] <+: t :: others) :
        shownOf (t :: others) = (t :: others).flatMap Token.source ∧
            ¬[.plain '\\', .plain '['] <:+: t :: others ∨
          [.plain '\\', .plain '['] <:+: t :: others ∧ ∃ before rest shown,
            (t :: others).flatMap Token.source = before ++ '\\' :: rest ∧
              shownOf (t :: others) = before ++ '[' :: shown := by
      rw [hshown, List.flatMap_cons, hsource, List.infix_cons_iff]
      rcases ih with ⟨hsame, hnone⟩ | ⟨hlost, before, rest, shown, hsource', hshown'⟩
      · exact .inl ⟨by rw [hsame], not_or.mpr ⟨hkept, hnone⟩⟩
      · exact .inr ⟨.inr hlost, part ++ before, rest, shown, by rw [hsource', List.append_assoc],
          by rw [hshown', List.append_assoc]⟩
    cases t with
    | tag slashes body =>
      refine hmore rfl rfl fun hstart => ?_
      cases (List.cons_prefix_cons.mp hstart).1
    | plain c =>
      by_cases hlost : c = '\\' ∧ others.head? = some (.plain '[')
      · obtain ⟨rfl, hhead⟩ := hlost
        obtain ⟨others, rfl⟩ := List.head?_eq_some_iff.mp hhead
        refine .inr ⟨List.IsPrefix.isInfix ⟨others, rfl⟩, [], _, shownOf others, rfl, ?_⟩
        rw [shownOf, if_pos ⟨rfl, rfl⟩, shownOf, if_neg (by simp)]
        rfl
      · refine hmore (by rw [shownOf, if_neg hlost]; rfl) rfl fun hstart => ?_
        obtain ⟨hc, hhead⟩ := List.cons_prefix_cons.mp hstart
        cases hc
        exact hlost ⟨rfl, by obtain ⟨others, rfl⟩ := hhead; rfl⟩

/-! ## A backslash at the end -/

theorem closeSlashes_eq (s : List Char) :
    closeSlashes s = if LoneSlash s then s ++ ['\\'] else s := by
  unfold closeSlashes LoneSlash
  split
  · next heq => simp [heq]
  · next c rest heq => by_cases hc : c = '\\' <;> simp [heq, hc]
  · next hsingle hmore =>
    refine (if_neg ?_).symm
    rintro ⟨hhead, -⟩
    obtain ⟨rest, hrest⟩ := List.head?_eq_some_iff.mp hhead
    cases rest with
    | nil => exact hsingle hrest
    | cons c rest => exact hmore c rest hrest

theorem take_reverse_append (s t : List Char) :
    (s ++ t).reverse.take 2 = (t.reverse.take 2 ++ s.reverse.take 2).take 2 := by
  have hroom : 2 - t.reverse.length = min (2 - (t.reverse.take 2).length) 2 := by
    rw [List.length_take]
    omega
  rw [List.reverse_append, List.take_append, List.take_append, List.take_take, List.take_take,
    Nat.min_self, hroom]

/-- Escaping leaves the last two characters as they are. -/
theorem take_reverse_unclosed (s : List Char) :
    (unclosed s).reverse.take 2 = s.reverse.take 2 := by
  induction s using tokens.induct with
  | case1 => rw [unclosed, tokens_nil]; rfl
  | case2 c rest slashes body after htag hlt ih =>
    obtain ⟨htext, hbody⟩ := tag?_eq_some_iff.mp htag
    obtain ⟨init, last, rfl⟩ : ∃ init last, body = init ++ [last] := by
      obtain ⟨first, rest, rfl, -⟩ := hbody
      exact ⟨_, _, (List.dropLast_append_getLast (List.cons_ne_nil first rest)).symm⟩
    have hsplit (n : Nat) (tail : List Char) :
        List.replicate n '\\' ++ '[' :: (init ++ [last] ++ ']' :: tail) =
          (List.replicate n '\\' ++ '[' :: init ++ [last, ']']) ++ tail := by simp
    have hends (n : Nat) :
        (List.replicate n '\\' ++ '[' :: init ++ [last, ']']).reverse.take 2 = [']', last] := by
      simp
    rw [unclosed_of_tag htag, htext, hsplit, hsplit, take_reverse_append, take_reverse_append _ after,
      ih, hends, hends]
  | case3 c rest htag ih =>
    rw [unclosed_of_plain htag, ← List.singleton_append, ← List.singleton_append (l := rest),
      take_reverse_append, take_reverse_append [c] rest, ih]

theorem loneSlash_congr {t : List Char} (hends : t.reverse.take 2 = s.reverse.take 2) :
    LoneSlash t ↔ LoneSlash s := by
  have hfirst (x : List Char) : x.head? = (x.take 2).head? := by
    cases x <;> rfl
  have hsecond (x : List Char) : x[1]? = (x.take 2)[1]? := by
    simp
  rw [LoneSlash, LoneSlash, hfirst, hsecond, hends, ← hfirst, ← hsecond]

theorem tokens_append_slash (s : List Char) : tokens (s ++ ['\\']) = tokens s ++ [.plain '\\'] := by
  induction s using tokens.induct with
  | case1 =>
    rw [List.nil_append, tokens_of_plain (by decide), tokens_nil]
    rfl
  | case2 c rest slashes body after htag hlt ih =>
    obtain ⟨htext, hbody⟩ := tag?_eq_some_iff.mp htag
    have htag' : tag? (c :: rest ++ ['\\']) = some (slashes, body, after ++ ['\\']) :=
      tag?_eq_some_iff.mpr ⟨by rw [htext]; simp, hbody⟩
    rw [tokens_of_tag htag, tokens_of_tag htag', ih, List.cons_append]
  | case3 c rest htag ih =>
    have htag' : tag? (c :: (rest ++ ['\\'])) = none := tag?_append_slash htag
    rw [tokens_of_plain htag, List.cons_append, tokens_of_plain htag', ih, List.cons_append]

theorem shownOf_append_slash (ts : List Token) :
    shownOf (ts ++ [.plain '\\']) = shownOf ts ++ ['\\'] := by
  induction ts with
  | nil => rfl
  | cons t rest ih =>
    cases t with
    | tag slashes body => simp [shownOf, ih]
    | plain c =>
      have hhead : (rest ++ [Token.plain '\\']).head? = some (.plain '[') ↔
          rest.head? = some (.plain '[') := by
        cases rest <;> simp
      simp only [List.cons_append, shownOf, hhead, ih]
      split <;> rfl

/-! ## Escaped text -/

theorem render_escape_eq (s : List Char) : render (escape s) =
    .ok (shownOf (tokens s) ++ if LoneSlash s then ['\\'] else []) := by
  have htokens : tokens (escape s) =
      (tokens s ++ if LoneSlash s then [Token.plain '\\'] else []).map Token.doubled := by
    change tokens (closeSlashes (unclosed s)) = _
    rw [closeSlashes_eq, List.map_append, ← tokens_unclosed]
    simp only [loneSlash_congr (take_reverse_unclosed s)]
    split
    · exact tokens_append_slash _
    · exact (List.append_nil _).symm
  have hstrip := strip_map_doubled [] 0 (tokens s ++ if LoneSlash s then [Token.plain '\\'] else [])
  rw [← htokens] at hstrip
  rw [render, hstrip, forM_styled_of_inert (inert_tokens_escape s)]
  split
  · exact congrArg Except.ok (shownOf_append_slash _)
  · simp
    rfl

/-- An escaped text is shown as it was just where each bracket after a backslash starts a tag, and
no single backslash is at the end. -/
theorem render_escape_eq_self_iff : render (escape s) = .ok s ↔ Restored s := by
  rw [render_escape_eq, Except.ok.injEq]
  rcases shownOf_cases (tokens s) with ⟨hshown, hkept⟩ | ⟨hlost, before, rest, shown, hsource, hshown⟩
  · rw [hshown, source_tokens]
    rw [slash_infix_tokens_iff] at hkept
    push Not at hkept
    constructor
    · intro hsame
      refine ⟨hkept, fun hlone => ?_⟩
      rw [if_pos hlone] at hsame
      simp at hsame
    · intro hrestored
      rw [if_neg hrestored.closed, List.append_nil]
  · rw [source_tokens] at hsource
    refine iff_of_false (fun hsame => ?_) fun hrestored => ?_
    · rw [hshown, hsource, List.append_assoc] at hsame
      cases List.append_cancel_left hsame
    · obtain ⟨rest, hsuffix, hopens⟩ := slash_infix_tokens_iff.mp hlost
      exact hopens (hrestored.opening rest hsuffix)

end Unscramble.Console
