import SchemaHeaders.FileTree
import Mathlib.Data.List.Nodup
import Mathlib.Data.List.Infix

/-!
# Well-formed file trees

A file tree keeps its entries in a list. `FileTree.WellFormed` is what makes such a list a
tree : no location twice, every name one that a directory can hold, every entry in a
directory, and the current directory among the directories. `item?_set` and `item?_erase`
say what the two changes of the list do to the item at each location, and
`WellFormed.set` and `WellFormed.erase` when they keep the tree well formed.

`FileTree.LinkFree` : no item is a link.
-/

namespace SchemaHeaders

namespace FileTree

variable {tree : FileTree}

/-! ## Items and entries -/

@[simp] theorem item?_nil (tree : FileTree) : tree.item? [] = some .directory :=
  rfl

theorem item?_cons (tree : FileTree) (name : String) (parent : Location) :
    tree.item? (name :: parent) = tree.entries.lookup (name :: parent) :=
  rfl

theorem lookup_filter_ne (entries : List (Location × Item)) (removed location : Location) :
    (entries.filter (·.1 ≠ removed)).lookup location =
      if location = removed then none else entries.lookup location := by
  induction entries with
  | nil => simp
  | cons e entries ih =>
    by_cases he : e.1 = removed
    · rw [List.filter_cons_of_neg (by simpa using he), ih, List.lookup_cons, he]
      by_cases hl : location = removed
      · rw [if_pos hl, if_pos hl]
      · rw [if_neg hl, if_neg hl, beq_eq_false_iff_ne.mpr hl]
    · rw [List.filter_cons_of_pos (by simpa using he), List.lookup_cons, List.lookup_cons, ih]
      by_cases hl : location = e.1
      · simp [hl, he]
      · simp [beq_eq_false_iff_ne.mpr hl]

/-- Removing what is at a location leaves the other locations as they are. -/
theorem item?_erase (tree : FileTree) (removed : Location) (name : String) (parent : Location) :
    (tree.erase removed).item? (name :: parent) =
      if name :: parent = removed then none else tree.item? (name :: parent) :=
  lookup_filter_ne tree.entries removed (name :: parent)

/-- Putting an item at a location leaves the other locations as they are. -/
theorem item?_set (tree : FileTree) (location : Location) (item : Item) (name : String)
    (parent : Location) :
    (tree.set location item).item? (name :: parent) =
      if name :: parent = location then some item else tree.item? (name :: parent) := by
  rw [set, item?_cons, List.lookup_cons]
  by_cases h : name :: parent = location
  · rw [if_pos h, beq_iff_eq.mpr h]
  · rw [if_neg h, beq_eq_false_iff_ne.mpr h]
    exact (item?_erase tree location name parent).trans (if_neg h)

theorem item?_set_self (tree : FileTree) (name : String) (parent : Location) (item : Item) :
    (tree.set (name :: parent) item).item? (name :: parent) = some item := by
  rw [item?_set, if_pos rfl]

theorem item?_set_of_ne {location l : Location} (h : l ≠ location) (item : Item) :
    (tree.set location item).item? l = tree.item? l := by
  cases l with
  | nil => rfl
  | cons name parent => rw [item?_set, if_neg h]

theorem item?_erase_self (tree : FileTree) (name : String) (parent : Location) :
    (tree.erase (name :: parent)).item? (name :: parent) = none := by
  rw [item?_erase, if_pos rfl]

theorem item?_erase_of_ne {location l : Location} (h : l ≠ location) :
    (tree.erase location).item? l = tree.item? l := by
  cases l with
  | nil => rfl
  | cons name parent => rw [item?_erase, if_neg h]

@[simp] theorem current_set (tree : FileTree) (location : Location) (item : Item) :
    (tree.set location item).current = tree.current :=
  rfl

@[simp] theorem current_erase (tree : FileTree) (location : Location) :
    (tree.erase location).current = tree.current :=
  rfl

/-! ## Well-formed trees -/

/-- A name that a directory can hold. -/
structure IsEntryName (name : String) : Prop where
  ne_empty : name ≠ ""
  ne_here : name ≠ "."
  ne_up : name ≠ ".."
  no_slash : '/' ∉ name.toList

instance (name : String) : Decidable (IsEntryName name) :=
  decidable_of_iff (name ≠ "" ∧ name ≠ "." ∧ name ≠ ".." ∧ '/' ∉ name.toList)
    ⟨fun ⟨h₁, h₂, h₃, h₄⟩ => ⟨h₁, h₂, h₃, h₄⟩, fun h => ⟨h.ne_empty, h.ne_here, h.ne_up, h.no_slash⟩⟩

/-- What makes a list of entries a tree. -/
structure WellFormed (tree : FileTree) : Prop where
  distinct : (tree.entries.map Prod.fst).Nodup
  named : ∀ {name parent item}, tree.item? (name :: parent) = some item → IsEntryName name
  parented : ∀ {name parent item}, tree.item? (name :: parent) = some item →
    tree.item? parent = some .directory
  seated : tree.item? tree.current = some .directory

/-- A tree in which nothing is a link. -/
def LinkFree (tree : FileTree) : Prop := ∀ location target, tree.item? location ≠ some (.link target)

/-- A well-formed tree without links. -/
structure Simple (tree : FileTree) : Prop where
  wellFormed : tree.WellFormed
  linkFree : tree.LinkFree

/-- The tree that has only its root. -/
theorem simple_root : Simple {} where
  wellFormed :=
    { distinct := List.nodup_nil
      named := fun h => by cases h
      parented := fun h => by cases h
      seated := rfl }
  linkFree location target h := by cases location <;> cases h

/-- What is above a directory are directories. -/
theorem WellFormed.directory_of_suffix (hwf : tree.WellFormed) {above location : Location}
    (h : above <:+ location) (hdir : tree.item? location = some .directory) :
    tree.item? above = some .directory := by
  induction location with
  | nil =>
    obtain rfl := List.suffix_nil.mp h
    exact hdir
  | cons name parent ih =>
    rcases List.suffix_cons_iff.mp h with rfl | h
    · exact hdir
    · exact ih h (hwf.parented hdir)

/-- Nothing is in what is no directory. -/
theorem WellFormed.item?_cons_eq_none (hwf : tree.WellFormed) {parent : Location}
    (h : tree.item? parent ≠ some .directory) (name : String) :
    tree.item? (name :: parent) = none := by
  cases hitem : tree.item? (name :: parent) with
  | none => rfl
  | some item => exact absurd (hwf.parented hitem) h

/-- Nothing is below where nothing is. -/
theorem WellFormed.item?_eq_none_of_suffix (hwf : tree.WellFormed) {above location : Location}
    (h : above <:+ location) (hnone : tree.item? above = none) : tree.item? location = none := by
  induction location with
  | nil => rwa [List.suffix_nil.mp h] at hnone
  | cons name parent ih =>
    rcases List.suffix_cons_iff.mp h with rfl | h
    · exact hnone
    · exact hwf.item?_cons_eq_none (by simp [ih h]) name

/-- The entry for an item. -/
theorem mem_entries_of_item? {name : String} {parent : Location} {item : Item}
    (h : tree.item? (name :: parent) = some item) :
    (name :: parent, item) ∈ tree.entries := by
  rw [item?_cons, List.lookup_eq_some_iff] at h
  obtain ⟨l₁, l₂, hentries, -⟩ := h
  rw [hentries]
  simp

theorem lookup_of_mem {entries : List (Location × Item)} (hdistinct : (entries.map Prod.fst).Nodup)
    {location : Location} {item : Item} (h : (location, item) ∈ entries) :
    entries.lookup location = some item := by
  induction entries with
  | nil => simp at h
  | cons e entries ih =>
    obtain ⟨hfirst, hrest⟩ := List.nodup_cons.mp hdistinct
    rw [List.lookup_cons]
    rcases List.mem_cons.mp h with rfl | h
    · rw [beq_self_eq_true]
    · have hne : location ≠ e.1 := by
        rintro rfl
        exact hfirst (List.mem_map.mpr ⟨_, h, rfl⟩)
      rw [beq_eq_false_iff_ne.mpr hne]
      exact ih hrest h

/-- What a directory lists are the items in it. -/
theorem WellFormed.mem_children_iff (hwf : tree.WellFormed) {name : String} {parent : Location}
    {item : Item} :
    (name, item) ∈ tree.children parent ↔ tree.item? (name :: parent) = some item := by
  constructor
  · intro h
    obtain ⟨⟨location, i⟩, hentry, hname⟩ := List.mem_filterMap.mp h
    cases location with
    | nil => simp [nameIn?] at hname
    | cons n p =>
      obtain ⟨rfl, rfl, rfl⟩ : p = parent ∧ n = name ∧ i = item := by simpa [nameIn?] using hname
      exact lookup_of_mem hwf.distinct hentry
  · intro h
    refine List.mem_filterMap.mpr ⟨_, mem_entries_of_item? h, ?_⟩
    simp [nameIn?]

/-- A directory is not where something else is. -/
theorem ne_of_directory {l location : Location} (hdir : tree.item? l = some .directory)
    (h : tree.item? location ≠ some .directory) : l ≠ location := by
  rintro rfl
  exact h hdir

/-- A directory of a tree can be given an entry, which replaces one that is no directory. -/
theorem WellFormed.set (hwf : tree.WellFormed) {name : String} {parent : Location} {item : Item}
    (hname : IsEntryName name) (hparent : tree.item? parent = some .directory)
    (hold : tree.item? (name :: parent) ≠ some .directory) :
    (tree.set (name :: parent) item).WellFormed where
  distinct := by
    simp only [FileTree.set, erase, List.map_cons, List.nodup_cons]
    refine ⟨?_, hwf.distinct.sublist (List.filter_sublist.map _)⟩
    simp
  named {n p i} h := by
    rw [item?_set] at h
    split_ifs at h with heq
    · cases heq
      exact hname
    · exact hwf.named h
  parented {n p i} h := by
    rw [item?_set] at h
    split_ifs at h with heq
    · cases heq
      rwa [item?_set_of_ne (List.cons_ne_self _ _).symm]
    · have hp : tree.item? p = some .directory := hwf.parented h
      rwa [item?_set_of_ne (ne_of_directory hp hold)]
  seated := by
    rw [current_set, item?_set_of_ne (ne_of_directory hwf.seated hold)]
    exact hwf.seated

/-- An entry that is no directory can be removed. -/
theorem WellFormed.erase (hwf : tree.WellFormed) {location : Location}
    (hold : tree.item? location ≠ some .directory) : (tree.erase location).WellFormed where
  distinct := hwf.distinct.sublist (List.filter_sublist.map _)
  named {n p i} h := by
    rw [item?_erase] at h
    split_ifs at h
    exact hwf.named h
  parented {n p i} h := by
    rw [item?_erase] at h
    split_ifs at h
    have hp : tree.item? p = some .directory := hwf.parented h
    rwa [item?_erase_of_ne (ne_of_directory hp hold)]
  seated := by
    rw [current_erase, item?_erase_of_ne (ne_of_directory hwf.seated hold)]
    exact hwf.seated

theorem LinkFree.set (h : tree.LinkFree) (name : String) (parent : Location) {item : Item}
    (hitem : ∀ target, item ≠ .link target) : (tree.set (name :: parent) item).LinkFree := by
  intro l target hl
  by_cases heq : l = name :: parent
  · rw [heq, item?_set_self] at hl
    exact hitem target (Option.some.inj hl)
  · rw [item?_set_of_ne heq] at hl
    exact h l target hl

theorem LinkFree.erase (h : tree.LinkFree) (location : Location) :
    (tree.erase location).LinkFree := by
  intro l target hl
  cases l with
  | nil => cases hl
  | cons name parent =>
    rw [item?_erase] at hl
    split_ifs at hl
    exact h _ target hl

theorem Simple.set (h : tree.Simple) {name : String} {parent : Location} {item : Item}
    (hname : IsEntryName name) (hparent : tree.item? parent = some .directory)
    (hold : tree.item? (name :: parent) ≠ some .directory) (hitem : ∀ target, item ≠ .link target) :
    (tree.set (name :: parent) item).Simple :=
  ⟨h.wellFormed.set hname hparent hold, h.linkFree.set name parent hitem⟩

end FileTree

end SchemaHeaders
