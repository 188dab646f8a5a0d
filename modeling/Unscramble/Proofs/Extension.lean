import Unscramble.Proofs.Inventory
import Unscramble.Proofs.Precedence
import Unscramble.Proofs.Text.Casing

/-!
# Extensions of scripts

An extension is kept in lower case with a dot before it, and a file is compared by what follows
the last dot of its name.  So an extension with no dot inside it is met in any letter case, and one
with a dot inside it never.
-/

namespace Unscramble

open Text

/-! ## Suffixes -/

/-- The suffix is what follows the last dot of a name, which neither begins nor ends the name. -/
theorem Path.suffixOf_eq_cons_iff {name body : List Char} : suffixOf name = '.' :: body ↔
    body ≠ [] ∧ '.' ∉ body ∧ ∃ stem, stem ≠ [] ∧ name = stem ++ '.' :: body := by
  constructor
  · intro hsuffix
    unfold suffixOf at hsuffix
    dsimp only at hsuffix
    split at hsuffix
    · cases hsuffix
    next hlong =>
    obtain ⟨hbody, hstem⟩ := not_or.mp hlong
    have htail := List.tail_eq_of_cons_eq hsuffix
    rw [htail] at hbody hstem
    have hsplit : name.reverse = body.reverse ++ name.reverse.dropWhile (· != '.') := by
      rw [← htail, List.reverse_reverse, List.takeWhile_append_dropWhile]
    cases hrest : name.reverse.dropWhile (· != '.') with
    | nil =>
      rw [hrest, List.append_nil, List.reverse_inj] at hsplit
      rw [hsplit] at hstem
      omega
    | cons c more =>
      have hc : c = '.' := by
        have hhead := List.head?_dropWhile_not (· != '.') name.reverse
        rw [hrest] at hhead
        simpa using hhead
      subst hc
      have hname : name = more.reverse ++ '.' :: body := by
        rw [← List.reverse_inj, hsplit, hrest]
        simp
      refine ⟨hbody, fun hmem => ?_, more.reverse, fun hnil => ?_, hname⟩
      · rw [← htail, List.mem_reverse] at hmem
        simpa using List.mem_takeWhile_imp hmem
      · rw [hname, hnil] at hstem
        simp at hstem
  · rintro ⟨hbody, hdot, stem, hstem, rfl⟩
    have htail : ((stem ++ '.' :: body).reverse.takeWhile (· != '.')).reverse = body := by
      rw [List.reverse_append, List.reverse_cons, List.append_assoc, List.takeWhile_append_of_pos]
      · simp
      · intro c hc
        rw [List.mem_reverse] at hc
        simpa using fun heq : c = '.' => hdot (heq ▸ hc)
    have hlength : 0 < stem.length := List.length_pos_iff.mpr hstem
    unfold suffixOf
    rw [htail]
    refine if_neg ?_
    rintro (hempty | hshort)
    · exact hbody hempty
    · simp only [List.length_append, List.length_cons] at hshort
      omega

theorem Path.suffixOf_cases (name : List Char) :
    suffixOf name = [] ∨ ∃ body, suffixOf name = '.' :: body := by
  unfold suffixOf
  dsimp only
  split
  · exact .inl rfl
  · exact .inr ⟨_, rfl⟩

namespace CodePoints

theorem isSurrogate_eq_true_iff {n : Nat} : isSurrogate n = true ↔ 0xD800 ≤ n ∧ n ≤ 0xDFFF := by
  simp [isSurrogate]

theorem toChar_ofChar (c : Char) : toChar (ofChar c) = c := by
  have hvalid : c.toNat < 0xD800 ∨ 0xDFFF < c.toNat ∧ c.toNat < 0x110000 := c.valid
  suffices hcode : (if isSurrogate (ofChar c) then ofChar c + standInOffset else ofChar c) =
      c.toNat by rw [toChar, hcode, Char.ofNat_toNat]
  unfold ofChar
  by_cases hlone : isSurrogate (c.toNat - standInOffset) = true
  · rw [if_pos hlone, if_pos hlone]
    rw [isSurrogate_eq_true_iff] at hlone
    omega
  · have hown : ¬isSurrogate c.toNat = true := by
      rw [isSurrogate_eq_true_iff]
      omega
    rw [if_neg hlone, if_neg hown]

theorem toString_ofString (s : String) : (ofString s).toString = s := by
  simp [toString, ofString, Function.comp_def, toChar_ofChar]

end CodePoints

namespace Settings

/-! ## Normal extensions -/

/-- An extension without the dot before it. -/
def extensionBody (ext : String) : List Char :=
  match ext.toList with
  | '.' :: body => body
  | body => body

theorem normalExtension_eq (ext : String) :
    normalExtension ext = String.ofList ('.' :: lower (extensionBody ext)) := by
  unfold normalExtension extensionBody
  split
  · next hdot =>
    obtain ⟨body, hbody⟩ := List.head?_eq_some_iff.mp hdot
    rw [lowerString, hbody, lower_cons_dot]
    rfl
  · next hdot =>
    have hbody : (match ext.toList with
        | '.' :: body => body
        | body => body) = ext.toList := by
      split
      · next body hcons => simp [hcons] at hdot
      · rfl
    rw [hbody, lowerString, ← String.toList_inj]
    simp

theorem normalExtension_normalExtension (ext : String) :
    normalExtension (normalExtension ext) = normalExtension ext := by
  rw [normalExtension_eq ext, normalExtension_eq, extensionBody, String.toList_ofList]
  exact congrArg (fun body => String.ofList ('.' :: body)) (lower_lower _)

/-- Which names an extension is met by: there is no dot inside it, and it comes in any letter case
after a stem and a dot. -/
theorem lowerString_suffix_eq_iff {path : Path} {ext : String} :
    lowerString path.suffix = normalExtension ext ↔
      extensionBody ext ≠ [] ∧ '.' ∉ extensionBody ext ∧ ∃ stem variant, stem ≠ [] ∧
        path.name.toList = stem ++ '.' :: variant ∧ lower variant = lower (extensionBody ext) := by
  rw [normalExtension_eq, lowerString, Path.suffix, String.toList_ofList, String.ofList_inj]
  constructor
  · intro hsame
    rcases Path.suffixOf_cases path.name.toList with hnone | ⟨variant, hsuffix⟩
    · rw [hnone] at hsame
      cases hsame
    · rw [hsuffix, lower_cons_dot, List.cons.injEq] at hsame
      obtain ⟨hvariant, hdot, stem, hstem, hname⟩ := Path.suffixOf_eq_cons_iff.mp hsuffix
      refine ⟨fun hempty => ?_, fun hmem => ?_, stem, variant, hstem, hname, hsame.2⟩
      · rw [hempty] at hsame
        exact hvariant (lowerFrom_eq_nil_iff.mp hsame.2)
      · have hlower : '.' ∈ lower (extensionBody ext) := dot_mem_lowerFrom_iff.mpr hmem
        rw [← hsame.2] at hlower
        exact hdot (dot_mem_lowerFrom_iff.mp hlower)
  · rintro ⟨hbody, hdot, stem, variant, hstem, hname, hlower⟩
    have hvariant : variant ≠ [] := by
      rintro rfl
      exact hbody (lowerFrom_eq_nil_iff.mp hlower.symm)
    have hdot' : '.' ∉ variant := by
      intro hmem
      have hmem' : '.' ∈ lower variant := dot_mem_lowerFrom_iff.mpr hmem
      rw [hlower] at hmem'
      exact hdot (dot_mem_lowerFrom_iff.mp hmem')
    rw [Path.suffixOf_eq_cons_iff.mpr ⟨hvariant, hdot', stem, hstem, hname⟩, lower_cons_dot, hlower]

/-! ## Configured extensions -/

theorem readText_ofString (text : String) : readText (.ofString text) = .ok text :=
  congrArg Except.ok (CodePoints.toString_ofString text)

theorem readTexts_ofString (field : String) (texts : List String) :
    readTexts field (.array (texts.map .ofString)) = .ok texts := by
  have hissues (index : Nat) (texts : List String) :
      itemIssues field index (texts.map .ofString) = [] := by
    induction texts generalizing index with
    | nil => rfl
    | cons text rest ih => rw [List.map_cons, itemIssues, readText_ofString, ih]
  have hread : texts.filterMap (fun text => (readText (.ofString text)).toOption) = texts := by
    simp [readText_ofString, Except.toOption]
  rw [readTexts, hissues]
  dsimp only
  rw [List.filterMap_map]
  exact congrArg Except.ok hread

/-- The extensions as they are configured, before they are put in their normal form. -/
def configuredExtensions (given : Given) : List String :=
  (texts given .scriptExtensions ({} : Settings).scriptExtensions).1

variable {keywords : List (String × Json)} {environment : List (String × String)} {start : Disk}
  {given : Given} {settings : Settings}

theorem scriptExtensions_of_ofGiven (hmade : ofGiven given = .ok settings) :
    settings.scriptExtensions = (configuredExtensions given).map normalExtension :=
  (congrArg Prod.fst (ofGiven_eq_ok_iff.mp hmade .scriptExtensions)).symm.trans
    (congrArg Prod.fst (take_scriptExtensions given))

/-- Loading again with the extensions that were loaded gives the same settings. -/
theorem load_scriptExtensions (hload : load keywords environment start = .ok settings) :
    load (keywords ++ [(Field.scriptExtensions.name,
      .array (settings.scriptExtensions.map .ofString))]) environment start = .ok settings := by
  refine load_append hload ?_
  obtain ⟨given, -, hmade⟩ := Except.ok_of_bind ((load_eq ..).symm.trans hload)
  have hnormal : settings.scriptExtensions.map normalExtension = settings.scriptExtensions := by
    rw [scriptExtensions_of_ofGiven hmade, List.map_map]
    exact List.map_congr_left fun ext _ => normalExtension_normalExtension ext
  have hread : (readTexts Field.scriptExtensions.name
      (.array (settings.scriptExtensions.map .ofString))).map (·.map normalExtension) =
        .ok settings.scriptExtensions := by
    rw [readTexts_ofString]
    exact congrArg Except.ok hnormal
  exact hread

/-- Every extension that is configured and has no dot inside it makes scripts of the files whose
names end in it in any letter case, and the extensions that are kept can be given again. -/
theorem isScript_of_configured {path place : Path} {own : List Path} {disk : Disk} {ext : String}
    {stem variant : List Char} (hgiven : gathered keywords environment start = .ok given)
    (hload : load keywords environment start = .ok settings)
    (hext : ext ∈ configuredExtensions given) (hbody : extensionBody ext ≠ [])
    (hdot : '.' ∉ extensionBody ext) (hstem : stem ≠ [])
    (hvariant : lower variant = lower (extensionBody ext))
    (hname : path.name.toList = stem ++ '.' :: variant) (hfile : disk.isFile path = .ok true)
    (hplace : disk.canonicalPath path = .ok place) (hown : place ∉ own) :
    Scan.isScript (.ofSettings settings own) path disk = .ok true ∧
      load (keywords ++ [(Field.scriptExtensions.name,
        .array (settings.scriptExtensions.map .ofString))]) environment start = .ok settings := by
  refine ⟨Scan.isScript_eq_true_iff.mpr ⟨?_, hfile, place, hplace, hown⟩,
    load_scriptExtensions hload⟩
  rw [load_of_gathered hgiven] at hload
  have hsuffix : lowerString path.suffix = normalExtension ext :=
    lowerString_suffix_eq_iff.mpr ⟨hbody, hdot, stem, variant, hstem, hname, hvariant⟩
  rw [hsuffix]
  change normalExtension ext ∈ settings.scriptExtensions
  rw [scriptExtensions_of_ofGiven hload]
  exact List.mem_map_of_mem hext

section Samples

theorem mixed_case_met :
    let keywords := [("script_extensions", .array [.ofString "ΟΔΟΣ"])]
    let disk := Sample.disk [(["a.οΔΟς"], .file [97] {})]
    let settings : Settings := { scriptExtensions := [".οδος"] }
    load keywords [] disk = .ok settings ∧
      Scan.isScript (.ofSettings settings []) ⟨.here, ["a.οΔΟς"]⟩ disk = .ok true ∧
      load (keywords ++ [("script_extensions", .array [.ofString ".οδος"])]) [] disk =
        .ok settings := by
  intro keywords disk settings
  have hload : load keywords [] disk = .ok settings := by decide +kernel
  have hgiven : gathered keywords [] disk =
      .ok [(.scriptExtensions, .array [.ofString "ΟΔΟΣ"])] := rfl
  have hext : "ΟΔΟΣ" ∈ configuredExtensions [(.scriptExtensions, .array [.ofString "ΟΔΟΣ"])] := by
    decide +kernel
  have hstem : ['a'] ≠ [] := by decide
  have hvariant : lower "οΔΟς".toList = lower (extensionBody "ΟΔΟΣ") := by decide +kernel
  have hplace : disk.canonicalPath ⟨.here, ["a.οΔΟς"]⟩ = .ok ⟨.root, ["a.οΔΟς"]⟩ := by
    decide +kernel
  exact ⟨hload, isScript_of_configured hgiven hload hext (by decide) (by decide) hstem hvariant
    (by decide) (by decide) hplace List.not_mem_nil⟩

/-- A file is not met by an extension that it ends in, as only what follows the last dot counts. -/
theorem inner_dot_not_met :
    let keywords := [("script_extensions", .array [.ofString ".tar.gz"])]
    let disk := Sample.disk [(["a.tar.gz"], .file [97] {})]
    let path : Path := ⟨.here, ["a.tar.gz"]⟩
    let settings : Settings := { scriptExtensions := [".tar.gz"] }
    load keywords [] disk = .ok settings ∧ disk.isFile path = .ok true ∧
      path.name = "a" ++ ".tar.gz" ∧ Scan.isScript (.ofSettings settings []) path disk = .ok false := by
  decide +kernel

end Samples

end Settings

end Unscramble
