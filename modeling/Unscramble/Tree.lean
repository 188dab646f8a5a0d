/-!
# Trees of entries

What lies on a disk is a finite map from absolute locations to entries.  The
locations are kept in strictly increasing order, so two trees that hold the
same entries are the same tree, and a directory lists its entries by name.
-/

namespace Unscramble

/-- The names from the root of the disk down to an entry. -/
abbrev Loc := List String

abbrev Bytes := List UInt8

/-- What the owner of a file may do with it. -/
structure Access where
  read : Bool := true
  write : Bool := true
  execute : Bool := false
deriving DecidableEq, Repr

inductive Entry
  | directory
  | file (bytes : Bytes) (access : Access)
  | link (target : String)
deriving DecidableEq, Repr

/-- What a directory listing tells of an entry. -/
inductive Kind
  | directory
  | file
  | link
deriving DecidableEq, Repr

def Entry.kind : Entry → Kind
  | .directory => .directory
  | .file .. => .file
  | .link _ => .link

namespace Loc

/-- The name of `q` inside the directory `p`, when `q` is directly inside it. -/
def nameIn? (p q : Loc) : Option String :=
  if p <+: q then
    match q.drop p.length with
    | [name] => some name
    | _ => none
  else none

end Loc

/-- Strictly ordered, therefore distinct, locations. -/
structure Tree where
  entries : List (Loc × Entry)
  sorted : entries.Pairwise (fun left right => left.1 < right.1)

namespace Tree

def find (p : Loc) : List (Loc × Entry) → Option Entry
  | [] => none
  | (q, e) :: rest => if q = p then some e else find p rest

/-- Ordered insertion; an entry at the same location is replaced. -/
def place (p : Loc) (e : Entry) : List (Loc × Entry) → List (Loc × Entry)
  | [] => [(p, e)]
  | (q, old) :: rest =>
    if p = q then (p, e) :: rest
    else if p < q then (p, e) :: (q, old) :: rest
    else (q, old) :: place p e rest

theorem mem_place {p : Loc} {e : Entry} {x : Loc × Entry} {es : List (Loc × Entry)}
    (h : x ∈ place p e es) : x = (p, e) ∨ x ∈ es := by
  induction es with
  | nil => simpa [place] using h
  | cons head rest ih =>
    obtain ⟨q, old⟩ := head
    unfold place at h
    split at h
    · rcases List.mem_cons.1 h with h | h
      · exact .inl h
      · exact .inr (List.mem_cons_of_mem _ h)
    · split at h
      · exact List.mem_cons.1 h
      · rcases List.mem_cons.1 h with h | h
        · exact .inr (h ▸ List.mem_cons_self)
        · exact (ih h).imp id (List.mem_cons_of_mem _)

theorem lt_of_ne_of_not_lt {p q : Loc} (hne : p ≠ q) (hlt : ¬ p < q) : q < p := by
  by_cases hqp : q < p
  · exact hqp
  · exact absurd (List.le_antisymm (List.not_lt.1 hqp) (List.not_lt.1 hlt)) hne

theorem sorted_place (p : Loc) (e : Entry) {es : List (Loc × Entry)}
    (hsorted : es.Pairwise (fun left right => left.1 < right.1)) :
    (place p e es).Pairwise (fun left right => left.1 < right.1) := by
  induction es with
  | nil => simp [place]
  | cons head rest ih =>
    obtain ⟨q, old⟩ := head
    obtain ⟨hhead, hrest⟩ := List.pairwise_cons.1 hsorted
    unfold place
    split
    · next heq => exact List.pairwise_cons.2 ⟨fun x hx => heq ▸ hhead x hx, hrest⟩
    · next hne =>
      split
      · next hlt =>
        refine List.pairwise_cons.2 ⟨fun x hx => ?_, hsorted⟩
        rcases List.mem_cons.1 hx with rfl | hx
        · exact hlt
        · exact List.lt_trans hlt (hhead x hx)
      · next hlt =>
        refine List.pairwise_cons.2 ⟨fun x hx => ?_, ih hrest⟩
        rcases mem_place hx with rfl | hx
        · exact lt_of_ne_of_not_lt hne hlt
        · exact hhead x hx

/-- The disk's root is a directory that is always there. -/
def get? (t : Tree) (p : Loc) : Option Entry :=
  if p = [] then some .directory else find p t.entries

def empty : Tree := ⟨[], .nil⟩

instance : EmptyCollection Tree := ⟨empty⟩

def insert (t : Tree) (p : Loc) (e : Entry) : Tree :=
  ⟨place p e t.entries, sorted_place p e t.sorted⟩

/-- The tree without what lies at or below `p`. -/
def eraseWithin (t : Tree) (p : Loc) : Tree :=
  ⟨t.entries.filter (fun x => !decide (p <+: x.1)), t.sorted.filter _⟩

/-- The tree without what lies below `p`, which itself stays. -/
def eraseBelow (t : Tree) (p : Loc) : Tree :=
  ⟨t.entries.filter (fun x => !decide (p <+: x.1 ∧ p ≠ x.1)), t.sorted.filter _⟩

/-- The entries directly inside `p`, in the order of their names. -/
def listing (t : Tree) (p : Loc) : List (String × Kind) :=
  t.entries.filterMap fun x => (Loc.nameIn? p x.1).map (·, x.2.kind)

/-- Everything below `p`, a directory before what it holds. -/
def below (t : Tree) (p : Loc) : List (Loc × Entry) :=
  t.entries.filterMap fun x =>
    if p <+: x.1 ∧ p ≠ x.1 then some (x.1.drop p.length, x.2) else none

def links (t : Tree) : Nat := (t.entries.filter fun x => x.2.kind = .link).length

theorem find_place (p q : Loc) (e : Entry) (es : List (Loc × Entry)) :
    find q (place p e es) = if q = p then some e else find q es := by
  induction es with
  | nil => simp [place, find, eq_comm]
  | cons head rest ih =>
    obtain ⟨r, old⟩ := head
    by_cases hpr : p = r
    · subst hpr
      by_cases hq : q = p
      · simp [place, find, hq]
      · simp [place, find, hq, Ne.symm hq]
    · by_cases hlt : p < r
      · by_cases hq : q = p
        · simp [place, find, hpr, hlt, hq]
        · simp [place, find, hpr, hlt, hq, Ne.symm hq]
      · by_cases hr : r = q
        · subst hr
          simp [place, find, hpr, hlt, Ne.symm hpr]
        · simp [place, find, hpr, hlt, hr, ih]

theorem get?_insert (t : Tree) {p : Loc} (q : Loc) (e : Entry) (hp : p ≠ []) :
    (t.insert p e).get? q = if q = p then some e else t.get? q := by
  by_cases hq : q = []
  · subst hq
    simp [get?, Ne.symm hp]
  · simp [get?, insert, hq, find_place]

theorem find_filter (keep : Loc → Bool) (q : Loc) (es : List (Loc × Entry)) :
    find q (es.filter fun x => keep x.1) = if keep q then find q es else none := by
  induction es with
  | nil => simp [find]
  | cons head rest ih =>
    obtain ⟨r, e⟩ := head
    by_cases hq : r = q
    · subst hq
      cases hr : keep r <;> simp [hr, ih, find]
    · cases hr : keep r <;> simp [hr, ih, find, hq]

/-- Erasing takes away exactly what lies at or below a location. -/
theorem get?_eraseWithin (t : Tree) {p : Loc} (q : Loc) (hp : p ≠ []) :
    (t.eraseWithin p).get? q = if p <+: q then none else t.get? q := by
  by_cases hq : q = []
  · subst hq
    simp [get?, hp]
  · simp only [get?, eraseWithin, hq, if_false, find_filter (fun x => !decide (p <+: x))]
    by_cases hpq : p <+: q <;> simp [hpq]

theorem get?_eraseBelow (t : Tree) (p q : Loc) :
    (t.eraseBelow p).get? q = if p <+: q ∧ p ≠ q then none else t.get? q := by
  by_cases hq : q = []
  · subst hq
    by_cases hp : p = [] <;> simp [get?, hp]
  · simp only [get?, eraseBelow, hq, if_false,
      find_filter (fun x => !decide (p <+: x ∧ p ≠ x))]
    by_cases hpq : p <+: q ∧ p ≠ q <;> simp [hpq]

end Tree

end Unscramble
