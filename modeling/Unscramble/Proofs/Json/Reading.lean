import Mathlib
import Unscramble.Json.Reader

/-!
# What the reader of JSON gives

The reader goes forward in the text, so it runs into the limit of nesting only in a text that
is longer than the limit, and into the limit of an integer only at an integer that is longer.
Each step takes a character, so the length of the text is fuel enough.  The members of an object
are those that stand in the text, one after the other, and the last one of a name counts.
-/

namespace Unscramble.Json

/-! ## Limits -/

/-- What may come of reading a text: a value and at most as much text, or a fault; a limit is
run into only if the text exceeds it. -/
def Within (depth : Nat) (s : List Char) : Except JsonFault (Json × List Char) → Prop
  | .ok (_, rest) => rest.length ≤ s.length
  | .error .malformed => True
  | .error (.deepNesting _) => depth < s.length
  | .error (.longInteger digits) => digitMax < digits ∧ digits ≤ s.length

variable {s s' rest : List Char} {depth fuel : Nat} {acc : List Json}
  {result : Except JsonFault (Json × List Char)}

theorem Within.longer (hwithin : Within depth s result) (hlength : s.length ≤ s'.length) :
    Within depth s' result := by
  match result, hwithin with
  | .ok (_, rest), hrest => exact hrest.trans hlength
  | .error .malformed, _ => trivial
  | .error (.deepNesting _), hdepth => exact hdepth.trans_le hlength
  | .error (.longInteger digits), ⟨hdigits, hshort⟩ => exact ⟨hdigits, hshort.trans hlength⟩

/-- Inside a container there is room for one container less, but the text is shorter. -/
theorem Within.enclosed (hwithin : Within depth s result) (hlength : s.length < s'.length) :
    Within (depth + 1) s' result := by
  match result, hwithin with
  | .ok (_, rest), hrest => exact hrest.trans hlength.le
  | .error .malformed, _ => trivial
  | .error (.deepNesting _), hdepth => exact Nat.lt_of_le_of_lt (Nat.succ_le_of_lt hdepth) hlength
  | .error (.longInteger digits), ⟨hdigits, hshort⟩ => exact ⟨hdigits, hshort.trans hlength.le⟩

theorem length_skipSpace_le (s : List Char) : (skipSpace s).length ≤ s.length :=
  (List.dropWhile_sublist _).length_le

theorem length_lt_of_skipSpace {first : Char} (hspace : skipSpace s = first :: rest) :
    rest.length < s.length := by
  have hlength := length_skipSpace_le s
  rwa [hspace, List.length_cons] at hlength

theorem length_stringBody_le {found text : CodePoints}
    (hstring : stringBody found s = some (text, rest)) : rest.length ≤ s.length := by
  fun_induction stringBody found s <;> simp_all <;> omega

/-- What follows the colon of a member is shorter than its name and what stands after it. -/
theorem length_lt_of_colon {name : CodePoints} {body colon tail : List Char}
    (hstring : stringBody [] body = some (name, colon)) (hcolon : skipSpace colon = ':' :: tail) :
    (skipSpace tail).length < body.length :=
  calc (skipSpace tail).length ≤ tail.length := length_skipSpace_le tail
    _ < colon.length := length_lt_of_skipSpace hcolon
    _ ≤ body.length := length_stringBody_le hstring

theorem length_spanDigits (s : List Char) :
    (spanDigits s).1.length + (spanDigits s).2.length = s.length := by
  rw [spanDigits, ← List.length_append, List.takeWhile_append_dropWhile]

theorem length_fraction_le (s : List Char) : (fraction s).2.length ≤ s.length := by
  unfold fraction
  split
  · next rest =>
    have hrest := length_spanDigits rest
    split
    · rfl
    · next digits tail _ hspan =>
      rw [hspan] at hrest
      rw [List.length_cons]
      dsimp only at hrest ⊢
      omega
  · rfl

theorem length_power_le (s : List Char) : (power s).2.length ≤ s.length := by
  unfold power
  split
  · next e rest =>
    split
    · split
      next negative tail hsign =>
      have htail : tail.length ≤ rest.length := by
        split at hsign <;> cases hsign <;> simp
      have hdigits := length_spanDigits tail
      split
      · rfl
      · next digits after _ hspan =>
        rw [hspan] at hdigits
        change after.length ≤ rest.length + 1
        dsimp only at hdigits
        omega
    · rfl
  · rfl

theorem magnitude_within (negative : Bool) (s : List Char) :
    Within depth s (magnitude negative s) := by
  unfold magnitude
  split
  next whole rest hfirst =>
  have hboth : whole.length + rest.length = s.length := by
    split at hfirst
    · cases hfirst
      simp [Nat.add_comm]
    · rw [← length_spanDigits s, hfirst]
  split
  · trivial
  split
  next places rest₁ hplaces =>
  have hfraction := length_fraction_le rest
  rw [hplaces] at hfraction
  split
  · next rest₂ hpower =>
    have hrest := length_power_le rest₁
    rw [hpower] at hrest
    split
    · split
      · next hlong => exact ⟨hlong, by omega⟩
      · exact (hrest.trans hfraction).trans (by omega)
    · exact (hrest.trans hfraction).trans (by omega)
  · next e rest₂ hpower =>
    have hrest := length_power_le rest₁
    rw [hpower] at hrest
    exact (hrest.trans hfraction).trans (by omega)

theorem scalar_within (s : List Char) : Within depth s (scalar s) := by
  have hword {value : Json} {rest : List Char} (hrest : rest.length ≤ s.length) :
      Within depth s (.ok (value, rest)) := hrest
  unfold scalar
  split
  case h_7 rest _ => exact (magnitude_within true rest).longer (Nat.le_succ _)
  case h_8 => exact magnitude_within false s
  all_goals exact hword (by simp only [List.length_cons]; omega)

/-- What holds of each reader with that much fuel. -/
structure Bounded (fuel : Nat) : Prop where
  value : ∀ depth s, Within depth s (value fuel depth s)
  items : ∀ depth acc s, Within depth s (items fuel depth acc s)
  members : ∀ depth acc s, Within depth s (members fuel depth acc s)

/-- A container is read after its first character, with room for one container less. -/
theorem within_container {first : Char} {container : String}
    {inside : Nat → Except JsonFault (Json × List Char)}
    (hinside : ∀ depth, Within depth rest (inside depth)) :
    Within depth (first :: rest) (match depth with
      | 0 => .error (.deepNesting container)
      | depth + 1 => inside depth) := by
  cases depth with
  | zero => exact Nat.succ_pos _
  | succ depth => exact (hinside depth).enclosed (Nat.lt_succ_self _)

namespace Bounded

variable (hfuel : Bounded fuel)

include hfuel

theorem value_succ (depth : Nat) (s : List Char) :
    Within depth s (Json.value (fuel + 1) depth s) := by
  unfold Json.value
  split
  · next rest =>
    split
    · next text tail hstring => exact (length_stringBody_le hstring).trans (Nat.le_succ _)
    · trivial
  · next rest =>
    refine within_container fun depth => ?_
    split
    · next tail hclose => exact (length_lt_of_skipSpace hclose).le
    · exact (hfuel.items depth [] _).longer (length_skipSpace_le rest)
  · next rest =>
    refine within_container fun depth => ?_
    split
    · next tail hclose => exact (length_lt_of_skipSpace hclose).le
    · exact (hfuel.members depth [] _).longer (length_skipSpace_le rest)
  · exact scalar_within s

theorem items_succ (depth : Nat) (acc : List Json) (s : List Char) :
    Within depth s (Json.items (fuel + 1) depth acc s) := by
  have hvalue := hfuel.value depth s
  unfold Json.items
  split
  · next fault hread => rwa [hread] at hvalue
  · next item rest hread =>
    rw [hread] at hvalue
    have hrest : rest.length ≤ s.length := hvalue
    split
    · next tail hcomma =>
      apply (hfuel.items depth (item :: acc) _).longer
      calc (skipSpace tail).length ≤ tail.length := length_skipSpace_le tail
        _ ≤ rest.length := (length_lt_of_skipSpace hcomma).le
        _ ≤ s.length := hrest
    · next tail hclose => exact (length_lt_of_skipSpace hclose).le.trans hrest
    · trivial

theorem members_succ (depth : Nat) (acc : List (CodePoints × Json)) (s : List Char) :
    Within depth s (Json.members (fuel + 1) depth acc s) := by
  unfold Json.members
  split
  · next body =>
    split
    · trivial
    · next key rest hstring =>
      split
      · next tail hcolon =>
        have hlater : (skipSpace tail).length ≤ ('"' :: body).length :=
          (length_lt_of_colon hstring hcolon).le.trans (Nat.le_succ _)
        have hvalue := (hfuel.value depth (skipSpace tail)).longer hlater
        split
        · next fault hread => rwa [hread] at hvalue
        · next item after hread =>
          rw [hread] at hvalue
          have hafter : after.length ≤ ('"' :: body).length := hvalue
          split
          · next more hcomma =>
            apply (hfuel.members depth _ _).longer
            calc (skipSpace more).length ≤ more.length := length_skipSpace_le more
              _ ≤ after.length := (length_lt_of_skipSpace hcomma).le
              _ ≤ ('"' :: body).length := hafter
          · next more hclose => exact (length_lt_of_skipSpace hclose).le.trans hafter
          · trivial
      · trivial
  · trivial

end Bounded

theorem bounded (fuel : Nat) : Bounded fuel := by
  induction fuel with
  | zero => exact ⟨fun _ _ => trivial, fun _ _ _ => trivial, fun _ _ _ => trivial⟩
  | succ fuel ih => exact ⟨ih.value_succ, ih.items_succ, ih.members_succ⟩

/-- A limit is run into only where the text exceeds it. -/
theorem exceeds_of_read {text : String} {fault : JsonFault} (hread : read text = .error fault)
    (hfault : fault ≠ .malformed) :
    (∃ container, fault = .deepNesting container) ∧ nestingMax < text.length ∨
      ∃ digits, fault = .longInteger digits ∧ digitMax < digits ∧ digits ≤ text.length := by
  have hwithin := (bounded (2 * (skipSpace text.toList).length + 2)).value nestingMax
    (skipSpace text.toList)
  replace hwithin := hwithin.longer (length_skipSpace_le text.toList)
  unfold read at hread
  dsimp only at hread
  split at hread
  · next fault' hvalue =>
    cases hread
    rw [hvalue] at hwithin
    cases fault with
    | malformed => exact absurd rfl hfault
    | deepNesting container => exact .inl ⟨⟨container, rfl⟩, hwithin⟩
    | longInteger digits => exact .inr ⟨digits, rfl, hwithin⟩
  · split at hread <;> cases hread
    exact absurd rfl hfault

/-- An integer with too many digits runs into the limit. -/
theorem read_ones {n : Nat} (hlong : digitMax < n) :
    read (String.ofList (List.replicate n '1')) = .error (.longInteger n) := by
  obtain ⟨m, rfl⟩ : ∃ m, n = m + 1 := ⟨n - 1, by omega⟩
  have hones : ∀ c ∈ List.replicate (m + 1) '1', c.isDigit = true := by
    intro c hc
    rw [List.eq_of_mem_replicate hc]
    rfl
  have hspan : spanDigits (List.replicate (m + 1) '1') = (List.replicate (m + 1) '1', []) := by
    rw [spanDigits, List.takeWhile_eq_self_iff.mpr hones, List.dropWhile_eq_nil_iff.mpr hones]
  have hmagnitude : magnitude false (List.replicate (m + 1) '1') =
      .error (.longInteger (m + 1)) := by
    unfold magnitude
    split
    next whole rest hfirst =>
    split at hfirst
    · next heq => cases heq
    rw [hspan] at hfirst
    cases hfirst
    simp [fraction, power, hlong]
  have hspace : skipSpace (List.replicate (m + 1) '1') = List.replicate (m + 1) '1' := rfl
  have hvalue (fuel depth : Nat) : value (fuel + 1) depth (List.replicate (m + 1) '1') =
      .error (.longInteger (m + 1)) := hmagnitude
  rw [read, String.toList_ofList, hspace]
  simp only [hvalue]

/-! ## Fuel -/

theorem length_le_of_value {item : Json} (hvalue : value fuel depth s = .ok (item, rest)) :
    rest.length ≤ s.length := by
  have hwithin := (bounded fuel).value depth s
  rwa [hvalue] at hwithin

/-- To a text that is not too long one more unit of fuel makes no difference. -/
structure Ample (fuel : Nat) : Prop where
  value : ∀ depth s, 2 * s.length + 1 ≤ fuel →
    Json.value (fuel + 1) depth s = Json.value fuel depth s
  items : ∀ depth acc s, 2 * s.length + 2 ≤ fuel →
    Json.items (fuel + 1) depth acc s = Json.items fuel depth acc s
  members : ∀ depth acc s, 2 * s.length + 2 ≤ fuel →
    Json.members (fuel + 1) depth acc s = Json.members fuel depth acc s

namespace Ample

variable (hfuel : Ample fuel)

include hfuel

theorem value_succ (depth : Nat) (s : List Char) (hs : 2 * s.length + 1 ≤ fuel + 1) :
    Json.value (fuel + 1 + 1) depth s = Json.value (fuel + 1) depth s := by
  have hinside {first : Char} {rest : List Char} (hfirst : s = first :: rest) :
      2 * (skipSpace rest).length + 2 ≤ fuel := by
    have hrest := length_skipSpace_le rest
    rw [hfirst, List.length_cons] at hs
    omega
  unfold Json.value
  split
  · rfl
  · split
    · rfl
    · split
      · rfl
      · exact hfuel.items _ _ _ (hinside rfl)
  · split
    · rfl
    · split
      · rfl
      · exact hfuel.members _ _ _ (hinside rfl)
  · rfl

theorem items_succ (depth : Nat) (acc : List Json) (s : List Char)
    (hs : 2 * s.length + 2 ≤ fuel + 1) :
    Json.items (fuel + 1 + 1) depth acc s = Json.items (fuel + 1) depth acc s := by
  unfold Json.items
  rw [hfuel.value depth s (by omega)]
  split
  · rfl
  · next item rest hvalue =>
    have hrest := length_le_of_value hvalue
    split
    · next tail hcomma =>
      have htail := length_lt_of_skipSpace hcomma
      have hspace := length_skipSpace_le tail
      exact hfuel.items _ _ _ (by omega)
    · rfl
    · rfl

theorem members_succ (depth : Nat) (acc : List (CodePoints × Json)) (s : List Char)
    (hs : 2 * s.length + 2 ≤ fuel + 1) :
    Json.members (fuel + 1 + 1) depth acc s = Json.members (fuel + 1) depth acc s := by
  unfold Json.members
  split
  · next body =>
    split
    · rfl
    · next key rest hstring =>
      split
      · next tail hcolon =>
        have hlater := length_lt_of_colon hstring hcolon
        rw [List.length_cons] at hs
        rw [hfuel.value depth _ (by omega)]
        split
        · rfl
        · next item after hvalue =>
          have hafter := length_le_of_value hvalue
          split
          · next more hcomma =>
            have hmore := length_lt_of_skipSpace hcomma
            have hspace := length_skipSpace_le more
            exact hfuel.members _ _ _ (by omega)
          · rfl
          · rfl
      · rfl
  · rfl

end Ample

theorem ample (fuel : Nat) : Ample fuel := by
  induction fuel with
  | zero =>
    exact ⟨fun _ _ => nofun, fun _ _ _ => nofun, fun _ _ _ => nofun⟩
  | succ fuel ih => exact ⟨ih.value_succ, ih.items_succ, ih.members_succ⟩

/-- The length of a text is fuel enough for its value. -/
theorem value_eq_of_le (depth : Nat) (hfuel : 2 * s.length + 1 ≤ fuel) :
    value fuel depth s = value (2 * s.length + 1) depth s := by
  induction hfuel with
  | refl => rfl
  | step hle ih => exact ((ample _).value depth s hle).trans ih

/-! ## Members -/

/-- The text starts with this value, with room for so many containers one inside the other. -/
def Holds (depth : Nat) (s : List Char) (item : Json) (rest : List Char) : Prop :=
  value (2 * s.length + 1) depth s = .ok (item, rest)

/-- The text starts with a member: a name, a colon and a value. -/
def Begins (depth : Nat) (s : List Char) (member : CodePoints × Json) (rest : List Char) : Prop :=
  ∃ body colon tail, s = '"' :: body ∧ stringBody [] body = some (member.1, colon) ∧
    skipSpace colon = ':' :: tail ∧ Holds depth (skipSpace tail) member.2 rest

/-- The text goes on with members, with commas between them, up to the brace that closes an
object. -/
inductive Lists (depth : Nat) : List Char → List (CodePoints × Json) → List Char → Prop
  | last {s after rest : List Char} {member : CodePoints × Json}
      (hmember : Begins depth s member after) (hclose : skipSpace after = '}' :: rest) :
      Lists depth s [member] rest
  | more {s after tail rest : List Char} {member : CodePoints × Json}
      {members : List (CodePoints × Json)} (hmember : Begins depth s member after)
      (hcomma : skipSpace after = ',' :: tail) (hrest : Lists depth (skipSpace tail) members rest) :
      Lists depth s (member :: members) rest

/-- The text is that of an object with these members, in their order and with all those that
have the same name. -/
def Denotes (text : String) (members : List (CodePoints × Json)) : Prop :=
  ∃ body rest, skipSpace text.toList = '{' :: body ∧ skipSpace rest = [] ∧
    (members = [] ∧ skipSpace body = '}' :: rest ∨
      Lists (nestingMax - 1) (skipSpace body) members rest)

/-- Members taken up one after the other, each in the place of an earlier one of its name. -/
def collect (found members : List (CodePoints × Json)) : List (CodePoints × Json) :=
  members.foldl (fun found member => setMember member.1 member.2 found) found

theorem lookup_member (key name : CodePoints) (item : Json) (rest : List (CodePoints × Json)) :
    ((name, item) :: rest).lookup key = if key = name then some item else rest.lookup key := by
  by_cases hkey : key = name
  · rw [hkey, List.lookup_cons_self, if_pos rfl]
  · rw [List.lookup_cons, beq_eq_false_iff_ne.mpr hkey, if_neg hkey]

theorem lookup_setMember (key name : CodePoints) (item : Json) (found : List (CodePoints × Json)) :
    (setMember name item found).lookup key =
      if key = name then some item else found.lookup key := by
  induction found with
  | nil => rw [setMember, lookup_member]
  | cons first rest ih =>
    obtain ⟨other, old⟩ := first
    by_cases hsame : other = name
    · rw [setMember, if_pos hsame, lookup_member, lookup_member, hsame]
      split <;> rfl
    · rw [setMember, if_neg hsame, lookup_member, lookup_member, ih]
      by_cases hkey : key = name
      · rw [if_pos hkey, if_pos hkey, if_neg (hkey ▸ Ne.symm hsame)]
      · rw [if_neg hkey, if_neg hkey]

theorem lookup_collect (key : CodePoints) (found members : List (CodePoints × Json)) :
    (collect found members).lookup key = (members.reverse.lookup key).or (found.lookup key) := by
  induction members generalizing found with
  | nil => rfl
  | cons member rest ih =>
    obtain ⟨name, item⟩ := member
    rw [collect, List.foldl_cons, ← collect, ih, lookup_setMember, List.reverse_cons,
      List.lookup_append, Option.or_assoc, lookup_member]
    split <;> rfl

theorem Begins.shorter {member : CodePoints × Json} (hmember : Begins depth s member rest) :
    rest.length < s.length := by
  obtain ⟨body, colon, tail, rfl, hstring, hcolon, hvalue⟩ := hmember
  calc rest.length ≤ (skipSpace tail).length := length_le_of_value hvalue
    _ < body.length := length_lt_of_colon hstring hcolon
    _ < ('"' :: body).length := Nat.lt_succ_self _

/-- Members start with the name of the first one. -/
theorem Lists.quoted {listed : List (CodePoints × Json)} (hlisted : Lists depth s listed rest) :
    ∃ body, s = '"' :: body := by
  cases hlisted with
  | last hmember _ | more hmember _ _ =>
    obtain ⟨body, colon, tail, heq, -⟩ := hmember
    exact ⟨body, heq⟩

theorem lists_of_members {found : List (CodePoints × Json)} {object : Json}
    (hfuel : 2 * s.length + 2 ≤ fuel) (hread : members fuel depth found s = .ok (object, rest)) :
    ∃ listed, Lists depth s listed rest ∧ object = .object (collect found listed) := by
  induction fuel generalizing found s with
  | zero => cases hfuel
  | succ fuel ih =>
    unfold members at hread
    split at hread
    case h_2 => cases hread
    next body =>
    split at hread
    · cases hread
    next key colon hstring =>
    split at hread
    case h_2 => cases hread
    next tail hcolon =>
    split at hread
    · cases hread
    next item after hvalue =>
    have hlater := length_lt_of_colon hstring hcolon
    rw [List.length_cons] at hfuel
    rw [value_eq_of_le depth (by omega)] at hvalue
    have hmember : Begins depth ('"' :: body) (key, item) after :=
      ⟨body, colon, tail, rfl, hstring, hcolon, hvalue⟩
    split at hread
    · next more hcomma =>
      have hafter := length_le_of_value hvalue
      have hmore := length_lt_of_skipSpace hcomma
      have hspace := length_skipSpace_le more
      obtain ⟨listed, hlisted, rfl⟩ := ih (by omega) hread
      exact ⟨(key, item) :: listed, .more hmember hcomma hlisted, rfl⟩
    · next more hclose =>
      cases hread
      exact ⟨[(key, item)], .last hmember hclose, rfl⟩
    · cases hread

/-- With fuel enough the value of a member is read as it stands there. -/
theorem Begins.reads {member : CodePoints × Json} (hmember : Begins depth s member rest)
    (hfuel : 2 * s.length ≤ fuel) :
    ∃ body colon tail, s = '"' :: body ∧ stringBody [] body = some (member.1, colon) ∧
      skipSpace colon = ':' :: tail ∧ value fuel depth (skipSpace tail) = .ok (member.2, rest) := by
  obtain ⟨body, colon, tail, rfl, hstring, hcolon, hholds⟩ := hmember
  have hlater := length_lt_of_colon hstring hcolon
  rw [List.length_cons] at hfuel
  exact ⟨body, colon, tail, rfl, hstring, hcolon, (value_eq_of_le depth (by omega)).trans hholds⟩

theorem members_of_lists {found listed : List (CodePoints × Json)}
    (hlisted : Lists depth s listed rest) (hfuel : 2 * s.length + 1 ≤ fuel) :
    members fuel depth found s = .ok (.object (collect found listed), rest) := by
  induction hlisted generalizing found fuel with
  | last hmember hclose =>
    cases fuel with
    | zero => cases hfuel
    | succ fuel =>
      obtain ⟨body, colon, tail, rfl, hstring, hcolon, hvalue⟩ :=
        hmember.reads (Nat.le_of_succ_le_succ hfuel)
      simp only [members, hstring, hcolon, hvalue, hclose, collect, List.foldl_cons, List.foldl_nil]
  | more hmember hcomma hrest ih =>
    cases fuel with
    | zero => cases hfuel
    | succ fuel =>
      have hafter := hmember.shorter
      have htail := (length_skipSpace_le _).trans_lt (length_lt_of_skipSpace hcomma)
      obtain ⟨body, colon, tail, rfl, hstring, hcolon, hvalue⟩ :=
        hmember.reads (Nat.le_of_succ_le_succ hfuel)
      simp only [members, hstring, hcolon, hvalue, hcomma]
      exact ih (by omega)

theorem scalar_ne_object {listed : List (CodePoints × Json)} :
    scalar s ≠ .ok (.object listed, rest) := by
  have hmagnitude (negative : Bool) (s : List Char) :
      magnitude negative s ≠ .ok (.object listed, rest) := by
    unfold magnitude
    dsimp only
    repeat' split
    all_goals simp
  unfold scalar
  split <;> simp [hmagnitude]

theorem items_ne_object {listed : List (CodePoints × Json)} :
    items fuel depth acc s ≠ .ok (.object listed, rest) := by
  induction fuel generalizing acc s with
  | zero => simp [items]
  | succ fuel ih =>
    unfold items
    split
    · simp
    · split <;> simp [ih]

theorem brace_of_value {found : List (CodePoints × Json)}
    (hvalue : value (fuel + 1) depth s = .ok (.object found, rest)) : ∃ body, s = '{' :: body := by
  unfold value at hvalue
  split at hvalue
  · split at hvalue <;> cases hvalue
  · split at hvalue
    · cases hvalue
    · split at hvalue
      · cases hvalue
      · exact absurd hvalue items_ne_object
  · next body => exact ⟨body, rfl⟩
  · exact absurd hvalue scalar_ne_object

/-- An object has the members that stand in its text, the last one of each name. -/
theorem holds_object_iff {found : List (CodePoints × Json)} :
    Holds (depth + 1) s (.object found) rest ↔ ∃ body members, s = '{' :: body ∧
      found = collect [] members ∧ (members = [] ∧ skipSpace body = '}' :: rest ∨
        Lists depth (skipSpace body) members rest) := by
  have hfuel (body : List Char) :
      2 * (skipSpace body).length + 2 ≤ 2 * ('{' :: body).length :=
    Nat.mul_le_mul_left 2 (Nat.succ_le_succ (length_skipSpace_le body))
  constructor
  · intro hvalue
    obtain ⟨body, rfl⟩ := brace_of_value hvalue
    rw [Holds, value] at hvalue
    split at hvalue
    · next hclose =>
      cases hvalue
      exact ⟨body, [], rfl, rfl, .inl ⟨rfl, hclose⟩⟩
    · obtain ⟨members, hlisted, hobject⟩ := lists_of_members (hfuel body) hvalue
      cases hobject
      exact ⟨body, members, rfl, rfl, .inr hlisted⟩
  · rintro ⟨body, members, rfl, rfl, ⟨rfl, hclose⟩ | hlisted⟩
    · simp only [Holds, value, hclose, collect, List.foldl_nil]
    · rw [Holds, value]
      split
      · next hclose =>
        obtain ⟨name, hname⟩ := hlisted.quoted
        cases hclose.symm.trans hname
      · exact members_of_lists hlisted (Nat.le_of_succ_le (hfuel body))

theorem read_eq_ok_iff {text : String} {result : Json} : read text = .ok result ↔
    ∃ rest, Holds nestingMax (skipSpace text.toList) result rest ∧ skipSpace rest = [] := by
  unfold read Holds
  dsimp only
  rw [value_eq_of_le nestingMax (Nat.le_succ _)]
  split
  · next fault hvalue =>
    rw [hvalue]
    exact iff_of_false nofun nofun
  · next found rest hvalue =>
    rw [hvalue]
    constructor
    · intro hread
      split at hread <;> cases hread
      next hspace => exact ⟨rest, rfl, hspace⟩
    · rintro ⟨_, hsame, hspace⟩
      cases hsame
      exact if_pos hspace

/-- A text is read as an object if, and only if, it is that of one. -/
theorem read_eq_object_iff {text : String} {found : List (CodePoints × Json)} :
    read text = .ok (.object found) ↔
      ∃ members, Denotes text members ∧ found = collect [] members := by
  rw [read_eq_ok_iff]
  constructor
  · rintro ⟨rest, hholds, hspace⟩
    obtain ⟨body, members, heq, hfound, hmembers⟩ := holds_object_iff.mp hholds
    exact ⟨members, ⟨body, rest, heq, hspace, hmembers⟩, hfound⟩
  · rintro ⟨members, ⟨body, rest, heq, hspace, hmembers⟩, hfound⟩
    exact ⟨rest, holds_object_iff.mpr ⟨body, members, heq, hfound, hmembers⟩, hspace⟩

end Unscramble.Json
