import Mathlib
import Unscramble.Console.Basic

/-!
# Escaped text opens no tag

Status lines carry arbitrary paths and tool errors, so they are escaped before
they are printed.  The tokens of an escaped text are those of the text itself
with every tag turned into plain text; nothing is opened or closed while it is
shown, and printing it cannot fail.
-/

namespace Unscramble.Console

/-- What can stand in the brackets of a tag. -/
def IsBody (body : List Char) : Prop :=
  ∃ first rest, body = first :: rest ∧ opensTag first = true ∧ ∀ c ∈ rest, c ≠ ']' ∧ c ≠ '['

theorem IsBody.noBracket {body : List Char} (hbody : IsBody body) :
    ∀ c ∈ body, c ≠ ']' ∧ c ≠ '[' := by
  obtain ⟨first, rest, rfl, hfirst, hrest⟩ := hbody
  intro c hc
  rcases List.mem_cons.mp hc with rfl | hc
  · constructor <;> rintro rfl <;> exact absurd hfirst (by decide)
  · exact hrest c hc

theorem takeWhile_slashes (n : Nat) (s : List Char) :
    (List.replicate n '\\' ++ '[' :: s).takeWhile (· = '\\') = List.replicate n '\\' := by
  rw [List.takeWhile_append_of_pos (by simp), List.takeWhile_cons_of_neg (by decide),
    List.append_nil]

/-- A tag is a run of backslashes before a body in brackets. -/
theorem tag?_eq_some_iff {s : List Char} {slashes : Nat} {body after : List Char} :
    tag? s = some (slashes, body, after) ↔
      s = List.replicate slashes '\\' ++ '[' :: (body ++ ']' :: after) ∧ IsBody body := by
  constructor
  · intro h
    unfold tag? at h
    dsimp only at h
    split at h
    · next first rest heq =>
      split at h
      · next hopens =>
        split at h
        · next after' heq' =>
          simp only [Option.some.injEq, Prod.mk.injEq] at h
          obtain ⟨rfl, rfl, rfl⟩ := h
          have hslashes := List.prefix_iff_eq_append.mp (List.takeWhile_prefix (· = '\\') (l := s))
          have hrest := List.prefix_iff_eq_append.mp
            (List.takeWhile_prefix (fun c => c ≠ ']' ∧ c ≠ '[') (l := rest))
          rw [heq] at hslashes
          rw [heq'] at hrest
          have hrun : s.takeWhile (· = '\\')
              = List.replicate (s.takeWhile (· = '\\')).length '\\' :=
            List.eq_replicate_of_mem fun c hc => by simpa using List.mem_takeWhile_imp hc
          refine ⟨?_, first, _, rfl, hopens, fun c hc => by simpa using List.mem_takeWhile_imp hc⟩
          rw [← hrun, List.cons_append, hrest, hslashes]
        · simp at h
      · simp at h
    · simp at h
  · rintro ⟨rfl, first, rest, rfl, hopens, hrest⟩
    have hbody : (rest ++ ']' :: after).takeWhile (fun c => c ≠ ']' ∧ c ≠ '[') = rest := by
      rw [List.takeWhile_append_of_pos (by simpa using hrest),
        List.takeWhile_cons_of_neg (by decide), List.append_nil]
    unfold tag?
    rw [takeWhile_slashes]
    simp only [List.length_replicate, List.drop_left', List.cons_append, if_pos hopens, hbody]

namespace Token

/-- The token that is read from an escaped one. -/
def doubled : Token → Token
  | plain c => plain c
  | tag slashes body => tag (2 * slashes + 1) body

/-- A token that is shown as it stands. -/
def Inert : Token → Prop
  | plain _ => True
  | tag slashes _ => slashes % 2 = 1

theorem inert_doubled (t : Token) : t.doubled.Inert := by
  cases t with
  | plain c => trivial
  | tag slashes body =>
      simp only [doubled, Inert]
      omega

end Token

/-- The tokens of a text, each written so that it is read as text. -/
def unclosed (s : List Char) : List Char := (tokens s).flatMap Token.escaped

theorem tokens_nil : tokens [] = [] := by
  rw [tokens]

theorem tokens_of_tag {s body after : List Char} {slashes : Nat}
    (htag : tag? s = some (slashes, body, after)) :
    tokens s = .tag slashes body :: tokens after := by
  cases s with
  | nil => simp [tag?] at htag
  | cons c rest =>
      rw [tokens]
      split
      · next heq =>
        rw [htag] at heq
        simp only [Option.some.injEq, Prod.mk.injEq] at heq
        obtain ⟨rfl, rfl, rfl⟩ := heq
        rfl
      · next heq => simp [htag] at heq

theorem tokens_of_plain {c : Char} {rest : List Char} (htag : tag? (c :: rest) = none) :
    tokens (c :: rest) = .plain c :: tokens rest := by
  rw [tokens]
  split
  · next heq => simp [htag] at heq
  · rfl

theorem unclosed_of_tag {s body after : List Char} {slashes : Nat}
    (htag : tag? s = some (slashes, body, after)) :
    unclosed s =
      List.replicate (2 * slashes + 1) '\\' ++ '[' :: (body ++ ']' :: unclosed after) := by
  simp [unclosed, tokens_of_tag htag, Token.escaped]

theorem unclosed_of_plain {c : Char} {rest : List Char} (htag : tag? (c :: rest) = none) :
    unclosed (c :: rest) = c :: unclosed rest := by
  simp [unclosed, tokens_of_plain htag, Token.escaped]

/-- Escaping moves no bracket, so the first one stays the first one. -/
theorem closed_of_unclosed {p s after : List Char} (hp : ∀ c ∈ p, c ≠ ']' ∧ c ≠ '[')
    (hs : unclosed s = p ++ ']' :: after) : ∃ after', s = p ++ ']' :: after' := by
  induction p generalizing s with
  | nil =>
      cases s with
      | nil => simp [unclosed, tokens_nil] at hs
      | cons c rest =>
          cases htag : tag? (c :: rest) with
          | none =>
              rw [unclosed_of_plain htag, List.nil_append, List.cons.injEq] at hs
              exact ⟨rest, by rw [hs.1, List.nil_append]⟩
          | some found =>
              rw [unclosed_of_tag htag, List.replicate_succ] at hs
              simp at hs
  | cons d p ih =>
      cases s with
      | nil => simp [unclosed, tokens_nil] at hs
      | cons c rest =>
          cases htag : tag? (c :: rest) with
          | none =>
              rw [unclosed_of_plain htag, List.cons_append, List.cons.injEq] at hs
              obtain ⟨after', rfl⟩ := ih (fun c hc => hp c (List.mem_cons_of_mem _ hc)) hs.2
              exact ⟨after', by rw [hs.1, List.cons_append]⟩
          | some found =>
              -- the first bracket of an escaped tag opens, that of the other side closes
              have hfirst := congrArg (List.dropWhile fun c => c ≠ ']' ∧ c ≠ '[') hs
              rw [unclosed_of_tag htag, List.dropWhile_append_of_pos (by simp),
                List.dropWhile_cons_of_neg (by decide),
                List.dropWhile_append_of_pos (by simpa using hp),
                List.dropWhile_cons_of_neg (by decide)] at hfirst
              simp at hfirst

/-- Escaping makes no tag: where one starts, one started before. -/
theorem startsTag_of_unclosed {n : Nat} {s body after : List Char} (hbody : IsBody body)
    (hs : unclosed s = List.replicate n '\\' ++ '[' :: (body ++ ']' :: after)) :
    ∃ m body' after', IsBody body' ∧
      s = List.replicate m '\\' ++ '[' :: (body' ++ ']' :: after') := by
  induction n generalizing s with
  | zero =>
      cases s with
      | nil => simp [unclosed, tokens_nil] at hs
      | cons c rest =>
          cases htag : tag? (c :: rest) with
          | none =>
              rw [unclosed_of_plain htag, List.replicate_zero, List.nil_append,
                List.cons.injEq] at hs
              obtain ⟨after', rfl⟩ := closed_of_unclosed hbody.noBracket hs.2
              exact ⟨0, body, after', hbody, by rw [hs.1]; rfl⟩
          | some found =>
              have htext := tag?_eq_some_iff.mp htag
              exact ⟨_, _, _, htext.2, htext.1⟩
  | succ n ih =>
      cases s with
      | nil => simp [unclosed, tokens_nil] at hs
      | cons c rest =>
          cases htag : tag? (c :: rest) with
          | none =>
              rw [unclosed_of_plain htag, List.replicate_succ, List.cons_append,
                List.cons.injEq] at hs
              obtain ⟨m, body', after', hbody', rfl⟩ := ih hs.2
              exact ⟨m + 1, body', after', hbody', by
                rw [hs.1, List.replicate_succ, List.cons_append]⟩
          | some found =>
              have htext := tag?_eq_some_iff.mp htag
              exact ⟨_, _, _, htext.2, htext.1⟩

theorem tag?_unclosed_of_plain {c : Char} {rest : List Char} (htag : tag? (c :: rest) = none) :
    tag? (c :: unclosed rest) = none := by
  rw [← unclosed_of_plain htag, Option.eq_none_iff_forall_not_mem]
  rintro ⟨slashes, body, after⟩ hfound
  obtain ⟨htext, hbody⟩ := tag?_eq_some_iff.mp hfound
  obtain ⟨m, body', after', hbody', hs⟩ := startsTag_of_unclosed hbody htext
  rw [tag?_eq_some_iff.mpr ⟨hs, hbody'⟩] at htag
  simp at htag

/-- Escaped text has the tokens of the text itself, its tags read as text. -/
theorem tokens_unclosed (s : List Char) : tokens (unclosed s) = (tokens s).map Token.doubled := by
  induction s using tokens.induct with
  | case1 => simp [unclosed, tokens_nil]
  | case2 c rest slashes body after htag hlt ih =>
      obtain ⟨-, hbody⟩ := tag?_eq_some_iff.mp htag
      rw [tokens_of_tag (tag?_eq_some_iff.mpr ⟨unclosed_of_tag htag, hbody⟩), tokens_of_tag htag,
        List.map_cons, ih]
      rfl
  | case3 c rest htag ih =>
      rw [unclosed_of_plain htag, tokens_of_plain (tag?_unclosed_of_plain htag),
        tokens_of_plain htag, List.map_cons, ih]
      rfl

theorem tag?_append_slash {s : List Char} (htag : tag? s = none) :
    tag? (s ++ ['\\']) = none := by
  rw [Option.eq_none_iff_forall_not_mem]
  rintro ⟨slashes, body, after⟩ hfound
  obtain ⟨htext, hbody⟩ := tag?_eq_some_iff.mp hfound
  rcases List.eq_nil_or_concat after with rfl | ⟨after', last, rfl⟩
  · have hlast := congrArg List.getLast? htext
    simp only [← List.cons_append, ← List.append_assoc, List.getLast?_concat] at hlast
    exact absurd hlast (by decide)
  · have hs : s = List.replicate slashes '\\' ++ '[' :: (body ++ ']' :: after') := by
      have happend : s ++ ['\\'] =
          (List.replicate slashes '\\' ++ '[' :: (body ++ ']' :: after')) ++ [last] := by
        rw [htext]
        simp
      exact List.append_inj_left' happend rfl
    rw [tag?_eq_some_iff.mpr ⟨hs, hbody⟩] at htag
    simp at htag

/-- A backslash at the end touches no tag. -/
theorem inert_append_slash {s : List Char} (hs : ∀ t ∈ tokens s, t.Inert) :
    ∀ t ∈ tokens (s ++ ['\\']), t.Inert := by
  induction s using tokens.induct with
  | case1 =>
      rw [List.nil_append, tokens_of_plain (by decide), tokens_nil]
      simp [Token.Inert]
  | case2 c rest slashes body after htag hlt ih =>
      obtain ⟨htext, hbody⟩ := tag?_eq_some_iff.mp htag
      have htag' : tag? (c :: rest ++ ['\\']) = some (slashes, body, after ++ ['\\']) :=
        tag?_eq_some_iff.mpr ⟨by rw [htext]; simp, hbody⟩
      rw [tokens_of_tag htag, List.forall_mem_cons] at hs
      rw [tokens_of_tag htag', List.forall_mem_cons]
      exact ⟨hs.1, ih hs.2⟩
  | case3 c rest htag ih =>
      have htag' : tag? (c :: (rest ++ ['\\'])) = none := tag?_append_slash htag
      rw [tokens_of_plain htag, List.forall_mem_cons] at hs
      rw [List.cons_append, tokens_of_plain htag', List.forall_mem_cons]
      exact ⟨trivial, ih hs.2⟩

theorem inert_tokens_escape (s : List Char) : ∀ t ∈ tokens (escape s), t.Inert := by
  have hunclosed : ∀ t ∈ tokens (unclosed s), t.Inert := by
    rw [tokens_unclosed]
    simp [Token.inert_doubled]
  change ∀ t ∈ tokens (closeSlashes (unclosed s)), t.Inert
  unfold closeSlashes
  split
  · exact inert_append_slash hunclosed
  · split
    · exact hunclosed
    · exact inert_append_slash hunclosed
  · exact hunclosed

theorem strip_of_inert (stack : OpenTags) (position : Nat) {ts : List Token}
    (hts : ∀ t ∈ ts, t.Inert) : ∃ text, strip stack position ts = .ok text := by
  induction ts generalizing position with
  | nil => exact ⟨[], rfl⟩
  | cons t rest ih =>
      rw [List.forall_mem_cons] at hts
      cases t with
      | plain c =>
          obtain ⟨text, htext⟩ := ih (position + 1) hts.2
          by_cases hdropped : c = '\\' ∧ rest.head? = some (.plain '[')
          · exact ⟨text, by simp [strip, htext, hdropped]; rfl⟩
          · exact ⟨c :: text, by simp [strip, htext, hdropped]; rfl⟩
      | tag slashes body =>
          obtain ⟨text, htext⟩ := ih (position + slashes + body.length + 2) hts.2
          have hodd : slashes % 2 = 1 := hts.1
          exact ⟨_, by simp [strip, htext, hodd]; rfl⟩

theorem styled_of_inert {t : Token} (ht : t.Inert) : t.styled = .ok () := by
  cases t with
  | plain c => rfl
  | tag slashes body =>
      have hodd : slashes % 2 = 1 := ht
      simp only [Token.styled, hodd, true_or, if_true]
      split <;> rfl

theorem forM_styled_of_inert {ts : List Token} (hts : ∀ t ∈ ts, t.Inert) :
    ts.forM Token.styled = .ok () := by
  induction ts with
  | nil => rfl
  | cons t rest ih =>
      rw [List.forall_mem_cons] at hts
      unfold List.forM
      rw [styled_of_inert hts.1]
      exact ih hts.2

/-- Escaped text can always be shown. -/
theorem render_escape (s : List Char) : ∃ text, render (escape s) = .ok text := by
  have hinert := inert_tokens_escape s
  obtain ⟨text, htext⟩ := strip_of_inert [] 0 hinert
  refine ⟨text, ?_⟩
  unfold render
  rw [htext, forM_styled_of_inert hinert]
  rfl

theorem print_escape (console : Console) (style : Option String) (s : List Char) :
    ∃ text, console.print style (escape s) = .ok text := by
  obtain ⟨plain, hplain⟩ := render_escape s
  refine ⟨console.layOut style plain, ?_⟩
  unfold print
  rw [hplain]
  rfl

end Unscramble.Console
