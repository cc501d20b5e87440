import SchemaHeaders.Proofs.FreshDirectory

/-!
# Preparing a directory

`FileTree.Within` bounds what may become of a tree on the ways of a base : its directories and
links are in the base, so that paths lead to the same directories in both, if anywhere. Clearing
respects such a bound although it removes links, and the path of the directory may lead through one
of these : whatever is removed is an entry of the one directory that the path leads to in
the base (`clear_within`).

Preparing a directory clears it if it is there, and else makes it with those above it.
Once this has succeeded only directories are in the directory that the path leads to
(`prepareDir_clean`). Only the path of a directory that has to be made must not lead up for this :
what is above may have to be made too, and then the path can lead to a directory that was there.
-/

namespace SchemaHeaders

open FileTree

/-! ## Changes on the ways of a base -/

namespace FileTree

variable {base tree tree' tree'' : FileTree} {touched : Location → Option Item → Prop}

/-- A tree whose directories and links are in a base. -/
structure On (base tree : FileTree) : Prop where
  wellFormed : tree.WellFormed
  ways : WaysKept tree base

theorem On.refl (hwf : tree.WellFormed) : On tree tree := ⟨hwf, .refl tree⟩

/-- What may become of a tree on a base : it stays on it, and only what is touched changes. -/
structure Within (base : FileTree) (touched : Location → Option Item → Prop)
    (tree tree' : FileTree) : Prop where
  on : On base tree → On base tree'
  changed : On base tree → ∀ location,
    tree'.item? location = tree.item? location ∨ touched location (tree'.item? location)

namespace Within

theorem refl (tree : FileTree) : Within base touched tree tree :=
  ⟨fun h => h, fun _ _ => Or.inl rfl⟩

theorem trans (h : Within base touched tree tree') (h' : Within base touched tree' tree'') :
    Within base touched tree tree'' where
  on hon := h'.on (h.on hon)
  changed hon location := by
    rcases h'.changed (h.on hon) location with hsame | htouched
    · rw [hsame]
      exact h.changed hon location
    · exact Or.inr htouched

instance : IsPreorder FileTree (Within base touched) where
  refl := refl
  trans _ _ _ := trans

end Within

/-! ## Entries that are removed -/

variable {dir : PathName} {name : String}

theorem remove_within (hname : IsEntryName name) (h : tree.remove (dir.join ⟨name⟩) = .ok tree') :
    Within base (fun location item => EntryOf base dir location ∧ item = none) tree tree' where
  on hon := by
    obtain ⟨directory, -, -, rfl⟩ := remove_join hon.wellFormed hname h
    exact ⟨(remove_evolves h).wellFormed hon.wellFormed, (waysKept_erase tree _).trans hon.ways⟩
  changed hon location := by
    obtain ⟨directory, hdir, -, rfl⟩ := remove_join hon.wellFormed hname h
    by_cases heq : location = name :: directory
    · refine Or.inr ⟨⟨directory, name, hon.ways.directoryOf? hdir, heq⟩, ?_⟩
      rw [heq, item?_erase_self]
    · exact Or.inl (item?_erase_of_ne heq)

/-! ## Directories that come -/

/-- What may become of a tree to which only directories come. -/
structure Grows (tree tree' : FileTree) : Prop extends Evolves tree tree' where
  grown : tree.WellFormed → ∀ location, tree'.item? location = tree.item? location ∨
    tree.item? location = none ∧ tree'.item? location = some .directory

namespace Grows

theorem refl (tree : FileTree) : Grows tree tree := ⟨.refl tree, fun _ _ => Or.inl rfl⟩

theorem trans (h : Grows tree tree') (h' : Grows tree' tree'') : Grows tree tree'' where
  toEvolves := h.toEvolves.trans h'.toEvolves
  grown hwf location := by
    rcases h'.grown (h.wellFormed hwf) location with hsame | ⟨hnone, hdir⟩
    · rw [hsame]
      exact h.grown hwf location
    · rcases h.grown hwf location with hsame | ⟨-, hthere⟩
      · exact Or.inr ⟨hsame.symm.trans hnone, hdir⟩
      · rw [hthere] at hnone
        cases hnone

instance : IsPreorder FileTree Grows where
  refl := refl
  trans _ _ _ := trans

variable {location : Location}

/-- What was there stays. -/
theorem item?_of_some (h : Grows tree tree') (hwf : tree.WellFormed) {item : Item}
    (hitem : tree.item? location = some item) : tree'.item? location = some item := by
  rcases h.grown hwf location with hsame | ⟨hnone, -⟩
  · exact hsame.trans hitem
  · cases hnone.symm.trans hitem

/-- No file comes or goes. -/
theorem file_iff (h : Grows tree tree') (hwf : tree.WellFormed) {content : Content} :
    tree'.item? location = some (.file content) ↔ tree.item? location = some (.file content) := by
  refine ⟨fun hfile => ?_, h.item?_of_some hwf⟩
  rcases h.grown hwf location with hsame | ⟨-, hdir⟩
  · exact hsame.symm.trans hfile
  · cases hdir.symm.trans hfile

end Grows

theorem makeDirectory_grows {path : PathName} (h : tree.makeDirectory path = .ok tree') :
    Grows tree tree' where
  toEvolves := makeDirectory_evolves h
  grown hwf location := by
    obtain ⟨name, parent, hspot, rfl⟩ := makeDirectory_spot h
    by_cases heq : location = name :: parent
    · refine Or.inr ⟨heq ▸ (locateEntry_fits hwf hspot).item?_eq, ?_⟩
      rw [heq, item?_set_self]
    · exact Or.inl (item?_set_of_ne heq _)

end FileTree

/-! ## Clearing -/

variable {dir : PathName} {world world' : World}

theorem clear_within (base : FileTree) {entries : List (String × Bool)}
    (hnames : ∀ entry ∈ entries, IsEntryName entry.1) :
    Moves (Within base fun location item => EntryOf base dir location ∧ item = none)
      (clear dir entries : Step (StateM World) Nat).run :=
  clear_moves dir entries fun _ hname _ _ => remove_within (hnames _ hname)

/-- Once a directory is cleared, what is listed as no directory is gone from it. -/
theorem clear_gone {base : FileTree} {directory : Location}
    (hdir : base.directoryOf? dir = some directory) :
    ∀ (entries : List (String × Bool)) (world : World) {world' : World} {removed : Nat},
      On base world.tree → (∀ entry ∈ entries, IsEntryName entry.1) →
      (clear dir entries).outcome world = (.ok removed, world') →
      ∀ name, (name, false) ∈ entries → world'.tree.item? (name :: directory) = none
  | [], _, _, _, _, _, _, _, hname => by simp at hname
  | (listed, true) :: entries, world, world', removed, hon, hnames, h, name, hname => by
    have hrest := (Step.outcome_note_bind world (.leavingSubdirectory (dir.join ⟨listed⟩))
      fun _ => clear dir entries).symm.trans h
    exact clear_gone hdir entries (world.withEvent _) hon
      (fun entry he => hnames entry (List.mem_cons_of_mem _ he)) hrest name (by simpa using hname)
  | (listed, false) :: entries, world, world', removed, hon, hnames, h, name, hname => by
    have hlisted := hnames _ (List.mem_cons_self ..)
    have hrestnames : ∀ entry ∈ entries, IsEntryName entry.1 := fun entry he =>
      hnames entry (List.mem_cons_of_mem _ he)
    obtain ⟨_, between, hremove, hafter⟩ := Step.outcome_bind_eq_ok_iff.mp h
    obtain ⟨tree, hremoved, rfl⟩ := Step.outcome_remove_eq_ok_iff.mp hremove
    obtain ⟨removed', after, hrest, hpure⟩ := Step.outcome_bind_eq_ok_iff.mp hafter
    cases hpure
    have htree : On base tree := (remove_within hlisted hremoved).on hon
    rcases List.mem_cons.mp hname with heq | hmem
    · -- What is gone stays so, since the rest only removes.
      cases heq
      obtain ⟨found, hfound, -, rfl⟩ := remove_join hon.wellFormed hlisted hremoved
      obtain rfl : found = directory :=
        Option.some.inj ((hon.ways.directoryOf? hfound).symm.trans hdir)
      rcases ((clear_within base hrestnames).of_outcome hrest).changed htree (listed :: found) with
        hsame | ⟨-, hgone⟩
      · rw [hsame]
        exact item?_erase_self ..
      · exact hgone
    · exact clear_gone hdir entries (world.withTree tree) htree hrestnames hrest name hmem

/-! ## Preparing a directory -/

theorem makeDirectories_grows (dir : PathName) :
    Moves Grows (makeDirectories dir : StateM World (Except IoCause Unit)) :=
  makeFrom_moves _ _ makeDirectory_grows fun _ _ _ => makeDirectory_grows

theorem outcome_isPresent {present : Bool} (h : world.tree.isPresent dir = present) :
    (Step.of (FileStore.isPresent dir) : Step (StateM World) Bool).outcome world =
      (.ok present, world) := by
  rw [Step.outcome_of, World.run_isPresent, h]

/-- A directory that is there is cleared. -/
theorem prepareDir_of_present {entries : List (String × Bool)}
    (hpresent : world.tree.isPresent dir = true) (hlist : world.tree.list dir = .ok entries) :
    (prepareDir dir).outcome world = (do
      let removed ← clear dir entries
      if removed ≠ 0 then Step.of (FileStore.note (.outputCleared dir removed))).outcome world := by
  have hentries : (Step.on dir (FileStore.list dir) : Step (StateM World) _).outcome world =
      (.ok entries, world) := by
    rw [Step.outcome_on, World.run_list, hlist]
    rfl
  rw [prepareDir, Step.outcome_bind_of_ok (outcome_isPresent hpresent), if_pos rfl,
    Step.outcome_bind_of_ok hentries]
  rfl

theorem prepareDir_of_list_error {cause : IoCause} (hpresent : world.tree.isPresent dir = true)
    (hlist : world.tree.list dir = .error cause) :
    (prepareDir dir).outcome world = (.error (.io dir cause), world) := by
  have hentries : (Step.on dir (FileStore.list dir) : Step (StateM World) _).outcome world =
      (.error (.io dir cause), world) := by
    rw [Step.outcome_on, World.run_list, hlist]
    rfl
  rw [prepareDir, Step.outcome_bind_of_ok (outcome_isPresent hpresent), if_pos rfl,
    Step.outcome_bind_of_error hentries]

/-- A directory that is not there is made. -/
theorem prepareDir_of_absent (h : world.tree.isPresent dir = false) :
    (prepareDir dir).outcome world =
      (Step.on dir (makeDirectories dir)).outcome (world.withEvent (.creatingDirectory dir)) := by
  rw [prepareDir, Step.outcome_bind_of_ok (outcome_isPresent h), if_neg (by simp),
    Step.outcome_note_bind]

/-- However the preparation of a directory that is not there ends, only directories have come. -/
theorem prepareDir_grows_of_absent (habsent : world.tree.isPresent dir = false)
    {result : Except Failure Unit} (h : (prepareDir dir).outcome world = (result, world')) :
    Grows world.tree world'.tree := by
  rw [prepareDir_of_absent habsent] at h
  change Grows (world.withEvent (.creatingDirectory dir)).tree world'.tree
  exact ((makeDirectories_grows dir).on dir).of_outcome h

/-- A directory that is there has been listed and cleared once it is prepared. -/
theorem prepareDir_ok_of_present (hpresent : world.tree.isPresent dir = true)
    (h : (prepareDir dir).outcome world = (.ok (), world')) :
    ∃ entries removed between, world.tree.list dir = .ok entries ∧
      (clear dir entries).outcome world = (.ok removed, between) ∧ world'.tree = between.tree := by
  cases hlist : world.tree.list dir with
  | error cause =>
    rw [prepareDir_of_list_error hpresent hlist] at h
    cases (Prod.mk.inj h).1
  | ok entries =>
    rw [prepareDir_of_present hpresent hlist] at h
    obtain ⟨removed, between, hclear, hnote⟩ := Step.outcome_bind_eq_ok_iff.mp h
    refine ⟨entries, removed, between, rfl, hclear, ?_⟩
    split at hnote <;> cases hnote <;> rfl

/-- The entries of a directory that is listed have names and are told apart. -/
theorem FileTree.list_directoryOf {tree : FileTree} {entries : List (String × Bool)}
    (hwf : tree.WellFormed) (h : tree.list dir = .ok entries) :
    ∃ directory, tree.directoryOf? dir = some directory ∧
      (∀ entry ∈ entries, IsEntryName entry.1) ∧
      ∀ {name item}, item ≠ .directory → tree.item? (name :: directory) = some item →
        (name, false) ∈ entries := by
  unfold list at h
  split at h
  · cases h
  · rename_i directory hspot
    cases h
    have hdir := text_ne_empty_of_locate hspot
    refine ⟨directory, (directoryOf?_eq_some_iff hdir).mpr hspot, fun entry hentry => ?_,
      fun {name item} hne hitem => ?_⟩
    · obtain ⟨⟨name, item⟩, hchild, rfl⟩ := List.mem_map.mp hentry
      exact hwf.named (hwf.mem_children_iff.mp hchild)
    · exact List.mem_map.mpr ⟨(name, item), hwf.mem_children_iff.mpr hitem, by simp [hne]⟩
  · cases h
  · cases h

/-- However the preparation of a directory ends, entries of it may be gone and directories may
have come. -/
theorem prepareDir_changed (hwf : world.tree.WellFormed) {result : Except Failure Unit}
    (h : (prepareDir dir).outcome world = (result, world')) (location : Location) :
    world'.tree.item? location = world.tree.item? location ∨
      world.tree.item? location = none ∧ world'.tree.item? location = some .directory ∨
      EntryOf world.tree dir location ∧ world'.tree.item? location = none := by
  cases hpresent : world.tree.isPresent dir with
  | false =>
    exact ((prepareDir_grows_of_absent hpresent h).grown hwf location).imp_right Or.inl
  | true =>
    cases hlist : world.tree.list dir with
    | error cause =>
      rw [prepareDir_of_list_error hpresent hlist] at h
      cases h
      exact Or.inl rfl
    | ok entries =>
      obtain ⟨directory, -, hnames, -⟩ := list_directoryOf hwf hlist
      rw [prepareDir_of_present hpresent hlist] at h
      have hclear := @clear_within dir world.tree _ hnames
      have hwithin : Within world.tree _ world.tree world'.tree :=
        (hclear.step_bind fun removed => ?_).of_outcome h
      · exact (hwithin.changed (.refl hwf) location).imp_right Or.inr
      · split
        · exact fun world => .refl world.tree
        · exact .pure _

/-- Where a directory is there and can be prepared, its path leads to it. -/
theorem directoryOf?_of_present (hwf : world.tree.WellFormed)
    (hpresent : world.tree.isPresent dir = true)
    (h : (prepareDir dir).outcome world = (.ok (), world')) :
    ∃ directory, world.tree.directoryOf? dir = some directory := by
  obtain ⟨entries, removed, between, hlist, -⟩ := prepareDir_ok_of_present hpresent h
  obtain ⟨directory, hdir, -⟩ := list_directoryOf hwf hlist
  exact ⟨directory, hdir⟩

/-- A directory that is there has only directories in it once it is prepared. -/
theorem prepareDir_clean_of_present (hwf : world.tree.WellFormed)
    (hpresent : world.tree.isPresent dir = true)
    (h : (prepareDir dir).outcome world = (.ok (), world')) {directory : Location}
    (hdirectory : world'.tree.directoryOf? dir = some directory) {name : String} {item : Item}
    (hitem : world'.tree.item? (name :: directory) = some item) : item = .directory := by
  obtain ⟨entries, removed, between, hlist, hclear, htree⟩ := prepareDir_ok_of_present hpresent h
  obtain ⟨listed, hlisted, hnames, hentries⟩ := list_directoryOf hwf hlist
  rw [htree] at hdirectory hitem
  have hwithin := (clear_within world.tree hnames).of_outcome hclear
  obtain rfl : directory = listed := Option.some.inj
    (((hwithin.on (.refl hwf)).ways.directoryOf? hdirectory).symm.trans hlisted)
  -- Whatever else is left was there before, so it is listed and gone.
  by_contra hne
  have hbefore : world.tree.item? (name :: directory) = some item := by
    rcases hwithin.changed (.refl hwf) (name :: directory) with hsame | ⟨-, hgone⟩
    · exact hsame.symm.trans hitem
    · exact absurd (hgone.symm.trans hitem) (by simp)
  rw [clear_gone hlisted entries world (.refl hwf) hnames hclear name (hentries hne hbefore)]
    at hitem
  cases hitem

/-- A directory that is not there is fresh once it is prepared. -/
theorem leadsFresh_of_absent (hwf : world.tree.WellFormed) (hdir : dir.text ≠ "")
    (hup : PathName.Component.up ∉ dir.components) (habsent : world.tree.isPresent dir = false)
    (h : (prepareDir dir).outcome world = (.ok (), world')) : world'.tree.LeadsFresh dir := by
  have hnodirectory : world.tree.isDirectory dir = false := by
    have hnone : world.tree.itemAt? dir = none := by simpa [isPresent] using habsent
    rw [isDirectory, hnone]
    rfl
  rw [prepareDir_of_absent habsent, Step.outcome_on_eq_ok_iff] at h
  exact makeDirectories_fresh (world.withEvent _) hwf ⟨hdir, hup⟩ hnodirectory h

/-- If the preparation of a directory succeeds and its path, which does not lead up, leads to a
directory then, only directories are in this. -/
theorem prepareDir_clean (hwf : world.tree.WellFormed) (hdir : dir.text ≠ "")
    (hup : PathName.Component.up ∉ dir.components)
    (h : (prepareDir dir).outcome world = (.ok (), world')) {directory : Location}
    (hdirectory : world'.tree.directoryOf? dir = some directory) {name : String} {item : Item}
    (hitem : world'.tree.item? (name :: directory) = some item) : item = .directory := by
  cases hpresent : world.tree.isPresent dir with
  | true => exact prepareDir_clean_of_present hwf hpresent h hdirectory hitem
  | false =>
    obtain ⟨fresh, hlocate, hnone⟩ := leadsFresh_of_absent hwf hdir hup hpresent h
    rw [directoryOf?_eq_some_iff hdir, hlocate] at hdirectory
    cases hdirectory
    rw [hnone] at hitem
    cases hitem

/-- Without links, a path that does not lead up leads to a directory once this has been prepared. -/
theorem directoryOf?_of_prepareDir_ok (hsimple : world.tree.Simple) (hdir : dir.text ≠ "")
    (hup : PathName.Component.up ∉ dir.components)
    (h : (prepareDir dir).outcome world = (.ok (), world')) :
    ∃ directory, world'.tree.directoryOf? dir = some directory := by
  cases hpresent : world.tree.isPresent dir with
  | true =>
    obtain ⟨directory, hdirectory⟩ := directoryOf?_of_present hsimple.wellFormed hpresent h
    have hways := ((prepareDir_evolves dir).of_outcome h).waysKept hsimple
    exact ⟨directory, hways.directoryOf? hdirectory⟩
  | false =>
    obtain ⟨fresh, hlocate, -⟩ := leadsFresh_of_absent hsimple.wellFormed hdir hup hpresent h
    exact ⟨fresh, (directoryOf?_eq_some_iff hdir).mpr hlocate⟩

end SchemaHeaders
