import Mathlib
import Unscramble.Proofs.Result
import Unscramble.Proofs.Sample
import Unscramble.Settings.Load

/-!
# Which source decides about a field

Keywords come before the environment, and the environment before the environment file.  All
sources are read, and the values of list fields are decoded, before the first one that gives a
field decides about it.  So what the others hold for the field matters in two ways only: a list
that cannot be decoded ends the loading, and another line of the file may refer to it.
-/

namespace Unscramble

namespace EnvFile

/-! ## Entries of a file -/

/-- The entries of an environment file in their order, as they are written. -/
def entries (text : String) : List (String × Option (List Char)) :=
  let text := match text.toList with
    | c :: rest => if c = encodingMark then rest else c :: rest
    | [] => []
  (bindings text.length text).map fun (name, content) => (String.ofList name, content)

/-- The names that a value refers to. -/
def references : (fuel : Nat) → List Char → List (List Char)
  | 0, _ => []
  | _, [] => []
  | fuel + 1, c :: rest =>
    match reference? (c :: rest) with
    | some (name, _, after) => name :: references fuel after
    | none => references fuel rest

/-- An entry refers to variables of these names only. -/
def RefersWithin (P : String → Prop) (entry : String × Option (List Char)) : Prop :=
  ∀ content ∈ entry.2, ∀ name ∈ references (content.length + 1) content, P (String.ofList name)

variable {known known' : List Char → Option (List Char)} {fuel : Nat} {content : List Char}

theorem resolve_congr (hknown : ∀ name ∈ references fuel content, known name = known' name) :
    resolve known fuel content = resolve known' fuel content := by
  fun_induction references fuel content with
  | case1 content => rfl
  | case2 fuel hfuel => cases fuel <;> rfl
  | case3 c rest fuel name fallback after hreference ih =>
    obtain ⟨hname, hothers⟩ := List.forall_mem_cons.mp hknown
    simp only [resolve, hreference, hname, ih hothers]
  | case4 c rest fuel hreference ih => simp only [resolve, hreference, ih hknown]

/-- What a name stands for in a file after these definitions. -/
def meaning (environment : List (String × String)) (defined : List (String × Option String))
    (wanted : List Char) : Option (List Char) :=
  match defined.lookup (String.ofList wanted) with
  | some found => some ((found.map String.toList).getD [])
  | none => (environment.lookup (String.ofList wanted)).map String.toList

/-- The definitions after one more entry. -/
def defineEntry (environment : List (String × String)) (defined : List (String × Option String))
    (entry : String × Option (List Char)) : List (String × Option String) :=
  define entry.1
    (entry.2.map fun content =>
      String.ofList (resolve (meaning environment defined) (content.length + 1) content))
    defined

theorem definitions_eq (environment : List (String × String)) (text : String) :
    definitions environment text = (entries text).foldl (defineEntry environment) [] := by
  rw [entries, List.foldl_map]
  rfl

/-! ## Variables of some names only -/

variable {keep : String → Bool} {α : Type}

/-- The variables of some names. -/
def narrowed (keep : String → Bool) (given : List (String × α)) : List (String × α) :=
  given.filter fun v => keep v.1

@[simp]
theorem narrowed_cons_of_kept {v : String × α} (hv : keep v.1 = true) (given : List (String × α)) :
    narrowed keep (v :: given) = v :: narrowed keep given := List.filter_cons_of_pos hv

@[simp]
theorem narrowed_cons_of_left {v : String × α} (hv : keep v.1 = false)
    (given : List (String × α)) : narrowed keep (v :: given) = narrowed keep given :=
  List.filter_cons_of_neg (by simp [hv])

theorem lookup_narrowed {name : String} (hname : keep name = true) (given : List (String × α)) :
    (narrowed keep given).lookup name = given.lookup name := by
  induction given with
  | nil => rfl
  | cons v rest ih =>
    by_cases hother : name = v.1
    · subst hother
      rw [narrowed_cons_of_kept hname, List.lookup_cons, List.lookup_cons, beq_self_eq_true]
    · have hskip (more : List (String × α)) : (v :: more).lookup name = more.lookup name := by
        rw [List.lookup_cons, beq_false_of_ne hother]
      rw [hskip rest, ← ih]
      cases hkept : keep v.1 with
      | true => rw [narrowed_cons_of_kept hkept, hskip]
      | false => rw [narrowed_cons_of_left hkept]

theorem narrowed_define (name : String) (content : Option String)
    (defined : List (String × Option String)) : narrowed keep (define name content defined) =
      if keep name then define name content (narrowed keep defined) else narrowed keep defined := by
  induction defined with
  | nil => cases hname : keep name <;> simp [define, narrowed, hname]
  | cons v rest ih =>
    by_cases hother : v.1 = name
    · subst hother
      cases hname : keep v.1 <;> simp [define, hname]
    · have hstep (more : List (String × Option String)) :
          define name content (v :: more) = v :: define name content more := by
        rw [define, if_neg hother]
      rw [hstep]
      cases hkept : keep v.1 with
      | true =>
        rw [narrowed_cons_of_kept hkept, narrowed_cons_of_kept hkept, ih]
        split
        · rw [hstep]
        · rfl
      | false => rw [narrowed_cons_of_left hkept, narrowed_cons_of_left hkept, ih]

/-- Where the entries of some names refer to variables of such names only, what they define does
not depend on the other entries, nor on the other variables. -/
theorem narrowed_definitions {environment : List (String × String)} {text : String}
    (hrefers : ∀ entry ∈ narrowed keep (entries text), RefersWithin (keep · = true) entry) :
    narrowed keep (definitions environment text) =
      (narrowed keep (entries text)).foldl (defineEntry (narrowed keep environment)) [] := by
  rw [definitions_eq]
  suffices ∀ (items : List (String × Option (List Char))) (defined : List (String × Option String)),
      (∀ entry ∈ narrowed keep items, RefersWithin (keep · = true) entry) →
      narrowed keep (items.foldl (defineEntry environment) defined) =
        (narrowed keep items).foldl (defineEntry (narrowed keep environment))
          (narrowed keep defined) from this _ [] hrefers
  intro items
  induction items with
  | nil => exact fun _ _ => rfl
  | cons entry rest ih =>
    intro defined hitems
    rw [List.foldl_cons]
    cases hkept : keep entry.1 with
    | false =>
      rw [narrowed_cons_of_left hkept] at hitems ⊢
      rw [ih _ hitems, defineEntry, narrowed_define, if_neg (by simp [hkept])]
    | true =>
      rw [narrowed_cons_of_kept hkept] at hitems ⊢
      obtain ⟨hentry, hrest⟩ := List.forall_mem_cons.mp hitems
      have hmeaning (wanted : List Char) (hwanted : keep (String.ofList wanted) = true) :
          meaning environment defined wanted =
            meaning (narrowed keep environment) (narrowed keep defined) wanted := by
        rw [meaning, meaning, lookup_narrowed hwanted, lookup_narrowed hwanted]
      rw [ih _ hrest, List.foldl_cons, defineEntry, defineEntry, narrowed_define, if_pos hkept]
      congr 2
      cases hcontent : entry.2 with
      | none => rfl
      | some content =>
        rw [Option.map_some, Option.map_some, resolve_congr fun name hname =>
          hmeaning name (hentry content hcontent name hname)]

end EnvFile

namespace Settings

open Text EnvFile

/-! ## The value of a field -/

namespace Field

/-- What the settings hold for a field. -/
def Value : Field → Type
  | verbose | autoInstall => Bool
  | baseDir | nodeProjectDir => Option Path
  | scriptExtensions | ignoredDirNames | globalTools => List String
  | outputDirName | detectorPackage => String
  | stepTimeout => Option Int
  | cleanupScope => CleanupScope

/-- The value of a field in the settings. -/
def get (settings : Settings) : (field : Field) → field.Value
  | verbose => settings.verbose
  | baseDir => settings.baseDir
  | scriptExtensions => settings.scriptExtensions
  | ignoredDirNames => settings.ignoredDirNames
  | outputDirName => settings.outputDirName
  | stepTimeout => settings.stepTimeout
  | cleanupScope => settings.cleanupScope
  | autoInstall => settings.autoInstall
  | nodeProjectDir => settings.nodeProjectDir
  | detectorPackage => settings.detectorPackage
  | globalTools => settings.globalTools

/-- What a given value stands for in a field, or what is wrong with it. -/
def read : (field : Field) → Json → Except (List Issue) field.Value
  | verbose => single verbose readBool
  | baseDir => single baseDir readPath
  | scriptExtensions => fun value =>
    (readTexts scriptExtensions.name value).map (·.map normalExtension)
  | ignoredDirNames => readTexts ignoredDirNames.name
  | outputDirName => single outputDirName readText
  | stepTimeout => single stepTimeout readTimeout
  | cleanupScope => single cleanupScope readScope
  | autoInstall => single autoInstall readBool
  | nodeProjectDir => single nodeProjectDir readPath
  | detectorPackage => single detectorPackage readText
  | globalTools => readTexts globalTools.name

theorem mem_all (field : Field) : field ∈ all := by cases field <;> decide

theorem name_injective {field other : Field} (hname : field.name = other.name) :
    field = other := by
  have hall : ∀ field ∈ all, ∀ other ∈ all, field.name = other.name → field = other := by decide
  exact hall field field.mem_all other other.mem_all hname

theorem variableName_injective {field other : Field}
    (hname : field.variableName = other.variableName) : field = other := by
  have hall : ∀ field ∈ all, ∀ other ∈ all,
      field.variableName = other.variableName → field = other := by decide
  exact hall field field.mem_all other other.mem_all hname

end Field

variable {given given' : Given} {field other : Field} {value : Json} {settings : Settings}

theorem ofGiven_congr (hlookup : ∀ field, given.lookup field = given'.lookup field) :
    ofGiven given = ofGiven given' := by
  have htake {α : Type} (field : Field) (fallback : α) (readValue : Json → Except (List Issue) α) :
      take given field fallback readValue = take given' field fallback readValue := by
    rw [take, take, hlookup]
  simp only [ofGiven, simple, texts, htake]

/-- What is taken for a field, with what is wrong about it. -/
def Field.take (given : Given) (field : Field) : field.Value × List Issue :=
  Settings.take given field (field.get {}) field.read

theorem Field.take_of_read {chosen : field.Value} (hfield : given.lookup field = some value)
    (hread : field.read value = .ok chosen) : field.take given = (chosen, []) := by
  simp only [Field.take, Settings.take, hfield, hread]

/-- Extensions are put in their normal form after they have been taken. -/
theorem take_scriptExtensions (given : Given) : Field.take given .scriptExtensions =
    ((texts given .scriptExtensions [".js", ".cjs", ".mjs"]).1.map normalExtension,
      (texts given .scriptExtensions [".js", ".cjs", ".mjs"]).2) := by
  have hdefault : [".js", ".cjs", ".mjs"].map normalExtension = [".js", ".cjs", ".mjs"] := by
    decide +kernel
  unfold Field.take texts Settings.take
  cases given.lookup Field.scriptExtensions with
  | none => exact Prod.ext hdefault.symm rfl
  | some value =>
    dsimp only [Field.read]
    cases readTexts Field.scriptExtensions.name value with
    | ok found => rfl
    | error issues => exact Prod.ext hdefault.symm rfl

/-- Settings are made where nothing is wrong with any field, and have what is taken for each. -/
theorem ofGiven_eq_ok_iff :
    ofGiven given = .ok settings ↔ ∀ field : Field, field.take given = (field.get settings, []) := by
  constructor
  · intro hmade field
    unfold ofGiven at hmade
    dsimp only at hmade
    split at hmade
    · next hissues =>
      simp only [List.append_eq_nil_iff] at hissues
      obtain ⟨⟨⟨⟨⟨⟨⟨⟨⟨⟨h₁, h₂⟩, h₃⟩, h₄⟩, h₅⟩, h₆⟩, h₇⟩, h₈⟩, h₉⟩, h₁₀⟩, h₁₁⟩ := hissues
      cases hmade
      cases field with
      | verbose => exact Prod.ext rfl h₁
      | baseDir => exact Prod.ext rfl h₂
      | scriptExtensions => exact (take_scriptExtensions given).trans (Prod.ext rfl h₃)
      | ignoredDirNames => exact Prod.ext rfl h₄
      | outputDirName => exact Prod.ext rfl h₅
      | stepTimeout => exact Prod.ext rfl h₆
      | cleanupScope => exact Prod.ext rfl h₇
      | autoInstall => exact Prod.ext rfl h₈
      | nodeProjectDir => exact Prod.ext rfl h₉
      | detectorPackage => exact Prod.ext rfl h₁₀
      | globalTools => exact Prod.ext rfl h₁₁
    · cases hmade
  · intro htaken
    have h₁ : simple given .verbose false readBool = (settings.verbose, []) := htaken .verbose
    have h₂ : simple given .baseDir none readPath = (settings.baseDir, []) := htaken .baseDir
    obtain ⟨h₃, h₃'⟩ := Prod.mk.inj ((take_scriptExtensions given).symm.trans
      (htaken .scriptExtensions))
    have h₄ : texts given .ignoredDirNames ["node_modules"] = (settings.ignoredDirNames, []) :=
      htaken .ignoredDirNames
    have h₅ : simple given .outputDirName "output_dir" readText = (settings.outputDirName, []) :=
      htaken .outputDirName
    have h₆ : simple given .stepTimeout (some 600) readTimeout = (settings.stepTimeout, []) :=
      htaken .stepTimeout
    have h₇ : simple given .cleanupScope .file readScope = (settings.cleanupScope, []) :=
      htaken .cleanupScope
    have h₈ : simple given .autoInstall true readBool = (settings.autoInstall, []) :=
      htaken .autoInstall
    have h₉ : simple given .nodeProjectDir none readPath = (settings.nodeProjectDir, []) :=
      htaken .nodeProjectDir
    have h₁₀ : simple given .detectorPackage "obfuscation-detector" readText =
        (settings.detectorPackage, []) := htaken .detectorPackage
    have h₁₁ : texts given .globalTools ["@wakaru/cli", "js-deobfuscator", "js-beautify",
        "restringer", "webcrack", "deobfuscator"] = (settings.globalTools, []) :=
      htaken .globalTools
    simp only [ofGiven, h₁, h₂, h₃', h₄, h₅, h₆, h₇, h₈, h₉, h₁₀, h₁₁, List.append_nil]
    rw [h₃]
    rfl

/-- Settings that are made have the value that was given for a field. -/
theorem get_of_ofGiven {chosen : field.Value} (hmade : ofGiven given = .ok settings)
    (hfield : given.lookup field = some value) (hread : field.read value = .ok chosen) :
    field.get settings = chosen := by
  have htaken := ofGiven_eq_ok_iff.mp hmade field
  rw [Field.take_of_read hfield hread] at htaken
  exact (congrArg Prod.fst htaken).symm

/-- To give the value that a field has already makes no difference. -/
theorem ofGiven_of_given (hmade : ofGiven given = .ok settings)
    (hothers : ∀ other, other ≠ field → given'.lookup other = given.lookup other)
    (hfield : given'.lookup field = some value) (hread : field.read value = .ok (field.get settings)) :
    ofGiven given' = .ok settings := by
  refine ofGiven_eq_ok_iff.mpr fun other => ?_
  by_cases hother : other = field
  · subst hother
    exact Field.take_of_read hfield hread
  · rw [← ofGiven_eq_ok_iff.mp hmade other, Field.take, Field.take, Settings.take, Settings.take,
      hothers other hother]

/-! ## What a source holds -/

/-- What a source holds for a field: the last of its variables, decoded if the field is a list. -/
def held (source : Source) (defined : List (String × Option String)) (field : Field) :
    Except Fault (Option Json) :=
  match defined.reverse.find? fun v => lowerString v.1 = field.variableName with
  | some (_, some text) =>
    if field.isList then
      match Json.read text with
      | .error (.deepNesting container) => .error (.deepNesting container)
      | .error _ => .error (.unreadableSetting field.name source)
      | .ok .null => .ok none
      | .ok value => .ok (some value)
    else .ok (some (.ofString text))
  | _ => .ok none

variable {source : Source} {defined defined' : List (String × Option String)} {fields : List Field}
  {environment environment' : List (String × String)} {keywords : List (String × Json)}
  {disk disk' : Disk}

theorem fromVariables_eq (source : Source) (defined : List (String × Option String))
    (fields : List Field) : fromVariables source defined fields =
      fields.filterMapM fun field => (held source defined field).map (·.map (field, ·)) := by
  induction fields with
  | nil => rfl
  | cons field rest ih =>
    rw [List.filterMapM_cons, ← ih, fromVariables, held]
    cases hfind : defined.reverse.find? fun v => lowerString v.1 = field.variableName with
    | none => rfl
    | some v =>
      obtain ⟨name, _ | text⟩ := v
      · rfl
      dsimp only
      cases hlist : field.isList with
      | false => rfl
      | true =>
        cases hread : Json.read text with
        | error why => cases why <;> rfl
        | ok value => cases value <;> rfl

theorem lookup_filterMap_eq (give : Field → Option Json) (fields : List Field) (field : Field) :
    (fields.filterMap fun other => (give other).map (other, ·)).lookup field =
      if field ∈ fields then give field else none := by
  induction fields with
  | nil => rfl
  | cons first rest ih =>
    rw [List.filterMap_cons]
    cases hgive : give first with
    | none =>
      rw [Option.map_none, ih]
      by_cases hfield : field = first
      · subst hfield
        simp [hgive]
      · simp [hfield]
    | some value =>
      rw [Option.map_some, List.lookup_cons, ih]
      by_cases hfield : field = first
      · subst hfield
        simp [hgive]
      · simp [hfield, beq_false_of_ne hfield]

theorem lookup_fromKeywords (keywords : List (String × Json)) (field : Field) :
    (fromKeywords keywords).lookup field = keywords.reverse.lookup field.name :=
  (lookup_filterMap_eq _ _ _).trans (if_pos field.mem_all)

/-- What variables give for a field is what they hold for it. -/
theorem held_of_fromVariables (hgiven : fromVariables source defined Field.all = .ok given)
    (field : Field) : held source defined field = .ok (given.lookup field) := by
  rw [fromVariables_eq] at hgiven
  obtain ⟨found, hfound⟩ : ∃ found, held source defined field = .ok found := by
    obtain ⟨answer, hanswer⟩ := forall_ok_of_filterMapM hgiven field field.mem_all
    cases hheld : held source defined field with
    | error why =>
      rw [hheld] at hanswer
      cases hanswer
    | ok found => exact ⟨found, rfl⟩
  have hjoin (other : Field) :
      ((held source defined other).map (·.map (other, ·))).toOption.join =
        (held source defined other).toOption.join.map (other, ·) := by
    rcases held source defined other with why | _ | found <;> rfl
  rw [eq_filterMap_of_filterMapM hgiven, funext hjoin, lookup_filterMap_eq, if_pos field.mem_all,
    hfound]
  rfl

/-- Variables that hold the same for all fields but one, and can be decoded for that one, are either
both refused for the same reason or both read. -/
theorem fromVariables_alike {found found' : Option Json}
    (hothers : ∀ other, other ≠ field → held source defined other = held source defined' other)
    (hfound : held source defined field = .ok found)
    (hfound' : held source defined' field = .ok found') :
    (∃ why, fromVariables source defined Field.all = .error why ∧
        fromVariables source defined' Field.all = .error why) ∨
      ∃ given given', fromVariables source defined Field.all = .ok given ∧
        fromVariables source defined' Field.all = .ok given' := by
  rw [fromVariables_eq, fromVariables_eq]
  refine filterMapM_alike fun other _ => ?_
  by_cases hother : other = field
  · subst hother
    exact .inr ⟨_, _, by rw [hfound]; rfl, by rw [hfound']; rfl⟩
  · exact .inl (by rw [hothers other hother])

/-! ## All sources together -/

/-- The variables of an environment, as variables that may have no value. -/
def shown (environment : List (String × String)) : List (String × Option String) :=
  environment.map fun v => (v.1, some v.2)

/-- What the sources give, those that come first before the others. -/
def gathered (keywords : List (String × Json)) (environment : List (String × String))
    (disk : Disk) : Except Fault Given := do
  let text ← envFileText disk
  let fromEnvironment ← fromVariables .environment (shown environment) Field.all
  let fromFile ← fromVariables .envFile (definitions environment text) Field.all
  return fromKeywords keywords ++ fromEnvironment ++ fromFile

theorem load_eq (keywords : List (String × Json)) (environment : List (String × String))
    (disk : Disk) :
    load keywords environment disk = gathered keywords environment disk >>= ofGiven := by
  rw [load, gathered, ← shown]
  cases envFileText disk with
  | error fault => rfl
  | ok text =>
    dsimp only [bind, Except.bind]
    cases fromVariables .environment (shown environment) Field.all with
    | error fault => rfl
    | ok given =>
      dsimp only
      cases fromVariables .envFile (definitions environment text) Field.all <;> rfl

theorem load_of_gathered (hgathered : gathered keywords environment disk = .ok given) :
    load keywords environment disk = ofGiven given := by
  rw [load_eq, hgathered]
  rfl

theorem load_of_refused {fault : Fault}
    (hfault : gathered keywords environment disk = .error fault) :
    load keywords environment disk = .error fault := by
  rw [load_eq, hfault]
  rfl

section Phases

variable {text : String} {given₁ given₂ : Given} {fault : Fault}

theorem gathered_of_unread (hfault : envFileText disk = .error fault) :
    gathered keywords environment disk = .error fault := by
  rw [gathered, hfault]
  rfl

variable (hread : envFileText disk = .ok text)

include hread

theorem gathered_of_environment_error
    (hfault : fromVariables .environment (shown environment) Field.all = .error fault) :
    gathered keywords environment disk = .error fault := by
  rw [gathered, hread]
  simp only [bind, Except.bind, hfault]

variable (hgiven₁ : fromVariables .environment (shown environment) Field.all = .ok given₁)

include hgiven₁

theorem gathered_of_file_error
    (hfault : fromVariables .envFile (definitions environment text) Field.all = .error fault) :
    gathered keywords environment disk = .error fault := by
  rw [gathered, hread]
  simp only [bind, Except.bind, hgiven₁, hfault]

theorem gathered_of_given
    (hgiven₂ : fromVariables .envFile (definitions environment text) Field.all = .ok given₂) :
    gathered keywords environment disk = .ok (fromKeywords keywords ++ given₁ ++ given₂) := by
  rw [gathered, hread]
  simp only [bind, Except.bind, hgiven₁, hgiven₂]
  rfl

end Phases

/-- One more keyword comes before all other sources of its field, and leaves the other fields as
they are. -/
theorem gathered_append (hgathered : gathered keywords environment disk = .ok given)
    (field : Field) (value : Json) :
    ∃ given', gathered (keywords ++ [(field.name, value)]) environment disk = .ok given' ∧
      given'.lookup field = some value ∧
      ∀ other, other ≠ field → given'.lookup other = given.lookup other := by
  obtain ⟨text, hread, hrest⟩ := Except.ok_of_bind hgathered
  obtain ⟨given₁, hgiven₁, hrest⟩ := Except.ok_of_bind hrest
  obtain ⟨given₂, hgiven₂, hend⟩ := Except.ok_of_bind hrest
  cases hend
  refine ⟨_, gathered_of_given hread hgiven₁ hgiven₂, ?_, fun other hother => ?_⟩
  · rw [List.lookup_append, List.lookup_append, lookup_fromKeywords, List.reverse_append]
    simp
  · have hname : other.name ≠ field.name := fun hsame => hother (Field.name_injective hsame)
    simp only [List.lookup_append, lookup_fromKeywords, List.reverse_append, List.reverse_singleton,
      List.singleton_append, List.lookup_cons, beq_false_of_ne hname]

/-- A keyword for the value that a field has already makes no difference. -/
theorem load_append (hload : load keywords environment disk = .ok settings)
    (hread : field.read value = .ok (field.get settings)) :
    load (keywords ++ [(field.name, value)]) environment disk = .ok settings := by
  rw [load_eq] at hload
  obtain ⟨given, hgathered, hmade⟩ := Except.ok_of_bind hload
  obtain ⟨given', hgathered', hfield, hothers⟩ := gathered_append hgathered field value
  rw [load_of_gathered hgathered']
  exact ofGiven_of_given hmade hothers hfield hread

/-! ## Sources that are masked -/

/-- The name is none of the names of the field's variable. -/
def Field.differs (field : Field) (name : String) : Bool := lowerString name ≠ field.variableName

theorem narrowed_shown (keep : String → Bool) (environment : List (String × String)) :
    narrowed keep (shown environment) = shown (narrowed keep environment) := List.filter_map ..

theorem held_narrowed (hother : other ≠ field) :
    held source (narrowed field.differs defined) other = held source defined other := by
  have hfind : ((narrowed field.differs defined).reverse.find? fun v =>
      lowerString v.1 = other.variableName) =
        defined.reverse.find? fun v => lowerString v.1 = other.variableName := by
    rw [narrowed, ← List.filter_reverse, List.find?_filter]
    congr 1
    funext v
    by_cases hname : lowerString v.1 = other.variableName
    · have hdiffers : other.variableName ≠ field.variableName :=
        fun hsame => hother (Field.variableName_injective hsame)
      simp [hname, Field.differs, hdiffers]
    · simp [hname]
  rw [held, hfind]
  rfl

theorem held_congr (hother : other ≠ field)
    (halike : narrowed field.differs defined = narrowed field.differs defined') :
    held source defined other = held source defined' other := by
  rw [← held_narrowed hother, halike, held_narrowed hother]

/-- A source before the environment file gives a value for the field: a keyword, whatever the
environments hold for the field, or the environment, where no keyword does. -/
inductive Masks (field : Field) (value : Json) (keywords : List (String × Json)) :
    (environment environment' : List (String × String)) → Prop
  | keyword {environment environment' : List (String × String)}
      (hgiven : keywords.reverse.lookup field.name = some value)
      (halike : narrowed field.differs environment = narrowed field.differs environment') :
      Masks field value keywords environment environment'
  | environment {environment : List (String × String)}
      (hnone : keywords.reverse.lookup field.name = none)
      (hheld : held .environment (shown environment) field = .ok (some value)) :
      Masks field value keywords environment environment

/-- Environment files that differ in the variables of one field at most, and whose other entries
refer to none of these. -/
inductive FilesAlike (field : Field) (disk disk' : Disk) : Prop
  | unread {fault : Fault} (hfault : envFileText disk = .error fault)
      (hfault' : envFileText disk' = .error fault)
  | read {text text' : String} (hread : envFileText disk = .ok text)
      (hread' : envFileText disk' = .ok text')
      (halike : narrowed field.differs (entries text) = narrowed field.differs (entries text'))
      (hrefers : ∀ entry ∈ narrowed field.differs (entries text),
        RefersWithin (field.differs · = true) entry)

/-- What the environment and the environment file hold for the field can be decoded. -/
def Decodes (field : Field) (environment : List (String × String)) (disk : Disk) : Prop :=
  (held .environment (shown environment) field).isOk = true ∧
    ∀ text, envFileText disk = .ok text →
      (held .envFile (definitions environment text) field).isOk = true

/-- What is no list need not be decoded. -/
theorem decodes_of_single (hfield : field.isList = false) (environment : List (String × String))
    (disk : Disk) : Decodes field environment disk := by
  have hheld (source : Source) (defined : List (String × Option String)) :
      (held source defined field).isOk = true := by
    rw [held]
    split
    · rw [hfield]
      rfl
    · rfl
  exact ⟨hheld _ _, fun text _ => hheld _ _⟩

namespace Masks

variable (hmasks : Masks field value keywords environment environment')

include hmasks

theorem narrowed_eq :
    narrowed field.differs environment = narrowed field.differs environment' := by
  cases hmasks with
  | keyword _ halike => exact halike
  | environment => rfl

theorem symm : Masks field value keywords environment' environment := by
  cases hmasks with
  | keyword hgiven halike => exact .keyword hgiven halike.symm
  | environment hnone hheld => exact .environment hnone hheld

/-- The masking source decides, whatever comes after it. -/
theorem lookup_eq (hgiven : fromVariables .environment (shown environment) Field.all = .ok given)
    (others : Given) : (fromKeywords keywords ++ given ++ others).lookup field = some value := by
  rw [List.lookup_append, List.lookup_append, lookup_fromKeywords]
  cases hmasks with
  | keyword hkeyword _ => rw [hkeyword]; rfl
  | environment hnone hheld =>
    rw [held_of_fromVariables hgiven] at hheld
    rw [hnone, Except.ok.inj hheld]
    rfl

end Masks

/-- Where a keyword or the environment gives a valid value for a field, what later sources hold for
the field makes no difference, as long as it can be decoded, if it is a list, and no other entry of
the environment file refers to it; and settings that are loaded have the value. -/
theorem load_of_masked {chosen : field.Value} (hvalid : field.read value = .ok chosen)
    (hmasks : Masks field value keywords environment environment')
    (hfiles : FilesAlike field disk disk')
    (hdecodes : field.isList = true →
      Decodes field environment disk ∧ Decodes field environment' disk') :
    load keywords environment disk = load keywords environment' disk' ∧
      ∀ settings, load keywords environment disk = .ok settings → field.get settings = chosen := by
  obtain ⟨hdecoded, hdecoded'⟩ :
      Decodes field environment disk ∧ Decodes field environment' disk' := by
    cases hlist : field.isList with
    | true => exact hdecodes hlist
    | false => exact ⟨decodes_of_single hlist _ _, decodes_of_single hlist _ _⟩
  have hnone {fault : Fault} (hfault : gathered keywords environment disk = .error fault)
      (hfault' : gathered keywords environment' disk' = .error fault) :
      load keywords environment disk = load keywords environment' disk' ∧
        ∀ settings, load keywords environment disk = .ok settings →
          field.get settings = chosen := by
    rw [load_of_refused hfault, load_of_refused hfault']
    exact ⟨rfl, fun settings hload => by cases hload⟩
  cases hfiles with
  | unread hfault hfault' => exact hnone (gathered_of_unread hfault) (gathered_of_unread hfault')
  | @read text text' hread hread' halike hrefers =>
    obtain ⟨held₁, hheld₁⟩ := Except.exists_ok_of_isOk hdecoded.1
    obtain ⟨held₁', hheld₁'⟩ := Except.exists_ok_of_isOk hdecoded'.1
    obtain ⟨held₂, hheld₂⟩ := Except.exists_ok_of_isOk (hdecoded.2 text hread)
    obtain ⟨held₂', hheld₂'⟩ := Except.exists_ok_of_isOk (hdecoded'.2 text' hread')
    have hshown : narrowed field.differs (shown environment) =
        narrowed field.differs (shown environment') := by
      rw [narrowed_shown, narrowed_shown, hmasks.narrowed_eq]
    have hdefined : narrowed field.differs (definitions environment text) =
        narrowed field.differs (definitions environment' text') := by
      rw [narrowed_definitions hrefers, narrowed_definitions (halike ▸ hrefers), halike,
        hmasks.narrowed_eq]
    rcases fromVariables_alike (fun other hother => held_congr hother hshown) hheld₁ hheld₁' with
      ⟨why, hfault, hfault'⟩ | ⟨given₁, given₁', hgiven₁, hgiven₁'⟩
    · exact hnone (gathered_of_environment_error hread hfault)
        (gathered_of_environment_error hread' hfault')
    rcases fromVariables_alike (fun other hother => held_congr hother hdefined) hheld₂ hheld₂' with
      ⟨why, hfault, hfault'⟩ | ⟨given₂, given₂', hgiven₂, hgiven₂'⟩
    · exact hnone (gathered_of_file_error hread hgiven₁ hfault)
        (gathered_of_file_error hread' hgiven₁' hfault')
    rw [load_of_gathered (gathered_of_given hread hgiven₁ hgiven₂),
      load_of_gathered (gathered_of_given hread' hgiven₁' hgiven₂')]
    refine ⟨ofGiven_congr fun other => ?_, fun settings hload =>
      get_of_ofGiven hload (hmasks.lookup_eq hgiven₁ given₂) hvalid⟩
    by_cases hother : other = field
    · subst hother
      rw [hmasks.lookup_eq hgiven₁, hmasks.symm.lookup_eq hgiven₁']
    · have hfirst : given₁.lookup other = given₁'.lookup other := by
        have hheld : held .environment (shown environment) other =
            held .environment (shown environment') other := held_congr hother hshown
        rw [held_of_fromVariables hgiven₁, held_of_fromVariables hgiven₁'] at hheld
        exact Except.ok.inj hheld
      have hsecond : given₂.lookup other = given₂'.lookup other := by
        have hheld : held .envFile (definitions environment text) other =
            held .envFile (definitions environment' text') other := held_congr hother hdefined
        rw [held_of_fromVariables hgiven₂, held_of_fromVariables hgiven₂'] at hheld
        exact Except.ok.inj hheld
      simp only [List.lookup_append, hfirst, hsecond]

section Samples

/-- A disk with this environment file. -/
def Sample.configured (text : String) : Disk :=
  Sample.disk [([".env"], .file (Text.encode text) {})]

/-- A keyword gives the list, so it does not matter that the environment holds a list of a number
for it, and the environment file no list at all. -/
theorem masked_lists_ignored :
    let keywords := [("script_extensions", .array [.ofString "TS"])]
    let disk := Sample.configured "DECRYPTEX_SCRIPT_EXTENSIONS=1\nDECRYPTEX_VERBOSE=on\n"
    let disk' := Sample.configured "DECRYPTEX_VERBOSE=on\n"
    load keywords [("DECRYPTEX_SCRIPT_EXTENSIONS", "[1]")] disk = load keywords [] disk' ∧
      load keywords [] disk' = .ok { verbose := true, scriptExtensions := [".ts"] } := by
  intro keywords disk disk'
  have hread : envFileText disk =
      .ok "DECRYPTEX_SCRIPT_EXTENSIONS=1\nDECRYPTEX_VERBOSE=on\n" := by decide +kernel
  have hread' : envFileText disk' = .ok "DECRYPTEX_VERBOSE=on\n" := by decide +kernel
  have hdecodes : Decodes .scriptExtensions [("DECRYPTEX_SCRIPT_EXTENSIONS", "[1]")] disk := by
    refine ⟨by decide +kernel, fun text htext => ?_⟩
    cases hread.symm.trans htext
    decide +kernel
  have hdecodes' : Decodes .scriptExtensions [] disk' := by
    refine ⟨by decide +kernel, fun text htext => ?_⟩
    cases hread'.symm.trans htext
    decide +kernel
  have hrefers : ∀ entry ∈ narrowed (Field.differs .scriptExtensions)
      (entries "DECRYPTEX_SCRIPT_EXTENSIONS=1\nDECRYPTEX_VERBOSE=on\n"),
      RefersWithin (Field.differs .scriptExtensions · = true) entry := by
    unfold RefersWithin
    decide +kernel
  have hvalid : Field.scriptExtensions.read (.array [.ofString "TS"]) = .ok [".ts"] := rfl
  have hmasks : Masks .scriptExtensions (.array [.ofString "TS"]) keywords
      [("DECRYPTEX_SCRIPT_EXTENSIONS", "[1]")] [] := .keyword rfl (by decide +kernel)
  obtain ⟨hsame, -⟩ := load_of_masked hvalid hmasks
    (.read hread hread' (by decide +kernel) hrefers) fun _ => ⟨hdecodes, hdecodes'⟩
  exact ⟨hsame, by decide +kernel⟩

/-- A keyword gives the list, but what the environment holds for it is decoded all the same. -/
theorem masked_list_undecoded :
    let keywords := [("script_extensions", .array [.ofString ".js"])]
    load keywords [("DECRYPTEX_SCRIPT_EXTENSIONS", "x")] (Sample.disk []) =
        .error (.unreadableSetting "script_extensions" .environment) ∧
      load keywords [] (Sample.disk []) = .ok { scriptExtensions := [".js"] } := by
  decide +kernel

/-- A keyword gives the value, but another entry of the environment file refers to the one that is
masked. -/
theorem masked_variable_referred_to :
    let keywords := [("output_dir_name", .ofString "staging")]
    let disk := Sample.configured "DECRYPTEX_VERBOSE=$\x7bDECRYPTEX_OUTPUT_DIR_NAME:-on\x7d\n"
    load keywords [("DECRYPTEX_OUTPUT_DIR_NAME", "perhaps")] disk =
        .error (.invalidSettings [⟨"verbose", none, .boolText⟩]) ∧
      load keywords [] disk = .ok { verbose := true, outputDirName := "staging" } := by
  decide +kernel

end Samples

end Settings

end Unscramble
