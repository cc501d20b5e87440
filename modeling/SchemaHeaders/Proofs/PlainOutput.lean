import SchemaHeaders.Proofs.Headers
import SchemaHeaders.Proofs.PlainDirectory

/-!
# Writing units at plain paths

In a tree without links it is known beforehand whether units can be written to a plain path
(`writeUnits_ok_iff`) : its directory is there or can be made, every file directly in it can be
removed by the path of its name, and every header can be written there, over no directory.
What the tree is then like, `FileTree.Filled` says for every location : the directories on the
way are there, the directory holds the headers and the directories that it held, and all else is as
before.

However the writing ends, it disturbs the tree only on the way to the directory and directly in it
(`writeUnits_disturbs`).
-/

namespace SchemaHeaders

open FileTree PathName

variable {dir p : PathName} {world world' : World} {extension : String} {units : List HeaderUnit}

/-! ## Clearing -/

/-- Whatever is lost when a directory is cleared is an entry of it, of a name that the path can have
after it. -/
theorem clear_follows (base : FileTree) {entries : List (String × Bool)}
    (hnames : ∀ entry ∈ entries, IsEntryName entry.1) :
    Moves (Within base fun location item => (∃ directory name,
        base.directoryOf? dir = some directory ∧ location = name :: directory ∧ Follows dir name) ∧
          item = none)
      (clear dir entries : Step (StateM World) Nat).run := by
  refine clear_moves dir entries fun name hname tree tree' h => ?_
  have hentry := hnames _ hname
  refine ⟨(remove_within hentry h).on, fun hon location => ?_⟩
  obtain ⟨directory, hdir, -, rfl⟩ := remove_join hon.wellFormed hentry h
  by_cases heq : location = name :: directory
  · have hfollows := follows_of_remove hentry h
    refine Or.inr ⟨⟨directory, name, hon.ways.directoryOf? hdir, heq, hfollows⟩, ?_⟩
    rw [heq, item?_erase_self]
  · exact Or.inl (item?_erase_of_ne heq)

/-- A directory can be cleared if every file to be removed is there and its name can follow the
path. -/
theorem clear_ok {directory : Location} (entries : List (String × Bool))
    (hsimple : world.tree.Simple) (hdir : world.tree.directoryOf? dir = some directory)
    (hnodup : (entries.map Prod.fst).Nodup)
    (hfiles : ∀ name, (name, false) ∈ entries → Follows dir name ∧
      ∃ content, world.tree.item? (name :: directory) = some (.file content)) :
    ∃ removed world', (clear dir entries).outcome world = (.ok removed, world') := by
  induction entries generalizing world with
  | nil => exact ⟨0, world, rfl⟩
  | cons entry entries ih =>
    obtain ⟨listed, isDirectory⟩ := entry
    obtain ⟨hfresh, hrest⟩ := List.nodup_cons.mp hnodup
    cases isDirectory with
    | true =>
      obtain ⟨removed, world', h⟩ := @ih (world.withEvent (.leavingSubdirectory (dir.join ⟨listed⟩)))
        hsimple hdir hrest fun name hname => hfiles name (List.mem_cons_of_mem _ hname)
      exact ⟨removed, world', h⟩
    | false =>
      obtain ⟨hfollows, content, hitem⟩ := hfiles listed (List.mem_cons_self ..)
      have hremove := remove_of_follows hsimple.linkFree hdir hfollows hitem
      have hevolves := remove_evolves hremove
      obtain ⟨removed, world', h⟩ := @ih (world.withTree (world.tree.erase (listed :: directory)))
        (hevolves.simple hsimple) ((hevolves.waysKept hsimple).directoryOf? hdir) hrest
        fun name hname => by
          obtain ⟨hfollows, content, hitem⟩ := hfiles name (List.mem_cons_of_mem _ hname)
          refine ⟨hfollows, content, (item?_erase_of_ne ?_).trans hitem⟩
          rintro heq
          obtain rfl : name = listed := (List.cons.inj heq).1
          exact hfresh (List.mem_map.mpr ⟨_, hname, rfl⟩)
      refine ⟨removed + 1, world', ?_⟩
      rw [clear]
      exact Step.outcome_bind_eq_ok_iff.mpr ⟨(), _,
        Step.outcome_remove_eq_ok_iff.mpr ⟨_, hremove, rfl⟩,
        Step.outcome_bind_eq_ok_iff.mpr ⟨removed, world', h, rfl⟩⟩

/-- The names in a directory that is listed are told apart, and those of no directories are of
files if there are no links. -/
theorem FileTree.list_names {tree : FileTree} (hsimple : tree.Simple) {directory : Location}
    (hdir : tree.locate dir = .ok (.found directory .directory)) :
    ∃ entries, tree.list dir = .ok entries ∧ (entries.map Prod.fst).Nodup ∧
      ∀ name, (name, false) ∈ entries →
        ∃ content, tree.item? (name :: directory) = some (.file content) := by
  refine ⟨_, by rw [list, hdir], ?_, fun name hname => ?_⟩
  · have hnames : (tree.children directory).map Prod.fst =
        (tree.entries.map Prod.fst).filterMap (nameIn? directory) := by
      rw [children, List.map_filterMap, List.filterMap_map]
      refine List.filterMap_congr fun entry _ => ?_
      cases h : nameIn? directory entry.1 <;> simp [h]
    rw [List.map_map]
    change ((tree.children directory).map Prod.fst).Nodup
    rw [hnames]
    refine hsimple.wellFormed.distinct.filterMap fun l l' name hl hl' => ?_
    have hlocation : ∀ {l : Location}, nameIn? directory l = some name → l = name :: directory := by
      intro l hl
      cases l with
      | nil => cases hl
      | cons n parent =>
        simp only [nameIn?] at hl
        split_ifs at hl with hparent
        rw [hparent, Option.some.inj hl]
    rw [hlocation hl, hlocation hl']
  · obtain ⟨⟨n, item⟩, hchild, heq⟩ := List.mem_map.mp hname
    obtain ⟨rfl, hfile⟩ := Prod.mk.inj heq
    have hitem := hsimple.wellFormed.mem_children_iff.mp hchild
    cases item with
    | directory => cases hfile
    | file content => exact ⟨content, hitem⟩
    | link target => exact absurd hitem (hsimple.linkFree _ _)

/-! ## Preparing -/

/-- A directory is there or can be made, and the files directly in it can be removed. -/
structure FileTree.Preparable (tree : FileTree) (p : PathName) : Prop where
  makeable : tree.Makeable p
  removable : ∀ name content, tree.item? (name :: tree.addressOf p) = some (.file content) →
    Follows p name

/-- What is above a directory, and itself, are directories, in it are only the directories that were
in it, and all else is as before. -/
structure FileTree.Prepared (directory : Location) (tree tree' : FileTree) : Prop where
  onWay : ∀ location, location <:+ directory → tree'.item? location = some .directory
  inside : ∀ name item, tree'.item? (name :: directory) = some item ↔
    tree.item? (name :: directory) = some item ∧ item = .directory
  elsewhere : ∀ location, ¬location <:+ directory → (∀ name, location ≠ name :: directory) →
    tree'.item? location = tree.item? location

/-- If a plain path leads to anything, it leads to what is at its address. -/
theorem item?_of_isPresent {tree : FileTree} (hsimple : tree.Simple)
    (h : tree.isPresent p = true) :
    ∃ item, tree.locate p = .ok (.found (tree.addressOf p) item) ∧
      tree.item? (tree.addressOf p) = some item := by
  unfold isPresent itemAt? at h
  split at h
  · rename_i location item hspot
    have hlocation := location_of_walkPieces hsimple.linkFree _ _ (reach_eq_ok_iff.mp hspot).2
    obtain rfl : location = tree.addressOf p := hlocation
    exact ⟨item, hspot, locate_fits hsimple.wellFormed hspot⟩
  · cases h

/-- What may happen at a location when units are written to a path : a directory comes on the way,
or there is another file, or none, directly in the directory of the path. -/
inductive FileTree.Disturbed (p : PathName) (tree tree' : FileTree) (location : Location) : Prop
  | same : tree'.item? location = tree.item? location → Disturbed p tree tree' location
  | made : tree.item? location = none → tree'.item? location = some .directory →
      tree.OnWay p location → Disturbed p tree tree' location
  | entry (name : String) : location = name :: tree.addressOf p →
      (tree.item? location ≠ none → Follows p name) → tree.item? location ≠ some .directory →
      tree'.item? location ≠ some .directory → Disturbed p tree tree' location

/-- However the preparation of a path that does not lead up ends, directories may have come on the
way to it, and files may have gone from its directory. -/
theorem prepareDir_disturbs (hsimple : world.tree.Simple) (hp : p.Downward)
    {result : Except Failure Unit} (h : (prepareDir p).outcome world = (result, world'))
    (location : Location) : Disturbed p world.tree world'.tree location := by
  cases hpresent : world.tree.isPresent p with
  | false =>
    rw [prepareDir_of_absent hpresent] at h
    have hgrows : GrowsTo p (world.withEvent (.creatingDirectory p)).tree world'.tree :=
      ((makeDirectories_growsTo hp).on p).of_outcome h
    rcases hgrows.grown hsimple.wellFormed location with hsame | ⟨hnone, hdir⟩
    · exact .same hsame
    · refine .made hnone hdir ((hgrows.onWay hsimple location).resolve_left fun hsame => ?_)
      rw [hnone, hdir] at hsame
      cases hsame
  | true =>
    cases hlist : world.tree.list p with
    | error cause =>
      rw [prepareDir_of_list_error hpresent hlist] at h
      cases h
      exact .same rfl
    | ok entries =>
      have hevolves := (prepareDir_evolves p).of_outcome h
      obtain ⟨directory, hdirectory, hnames, -⟩ := list_directoryOf hsimple.wellFormed hlist
      obtain rfl := address_of_directoryOf? hsimple.linkFree hdirectory
      rw [prepareDir_of_present hpresent hlist] at h
      have hclear := @clear_follows p world.tree _ hnames
      have hwithin : Within world.tree _ world.tree world'.tree :=
        (hclear.step_bind fun removed => ?_).of_outcome h
      · rcases hwithin.changed (.refl hsimple.wellFormed) location with
          hsame | ⟨⟨found, name, hfound, rfl, hfollows⟩, hgone⟩
        · exact .same hsame
        · obtain rfl := Option.some.inj (hfound.symm.trans hdirectory)
          refine .entry name rfl (fun _ => hfollows) (fun hdir => ?_) (by simp [hgone])
          have hkept := hevolves.directories hsimple.wellFormed hdir
          rw [hgone] at hkept
          cases hkept
      · split
        · exact fun world => .refl world.tree
        · exact .pure _

/-- Once a path that does not lead up has been prepared, its directory is. -/
theorem prepared_of_prepareDir (hsimple : world.tree.Simple) (hp : p.Downward)
    (h : (prepareDir p).outcome world = (.ok (), world')) :
    Prepared (world.tree.addressOf p) world.tree world'.tree := by
  have hevolves := (prepareDir_evolves p).of_outcome h
  have hsimple' := hevolves.simple hsimple
  have hdisturbs := prepareDir_disturbs hsimple hp h
  obtain ⟨directory, hdirectory⟩ := directoryOf?_of_prepareDir_ok hsimple hp.ne_empty hp.no_up h
  have hclean : ∀ {name item}, world'.tree.item? (name :: directory) = some item →
      item = .directory :=
    prepareDir_clean hsimple.wellFormed hp.ne_empty hp.no_up h hdirectory
  obtain rfl : directory = world.tree.addressOf p := by
    rw [address_of_directoryOf? hsimple'.linkFree hdirectory, hevolves.addressOf]
  have hthere := locate_fits hsimple'.wellFormed ((directoryOf?_eq_some_iff hp.ne_empty).mp hdirectory)
  refine ⟨fun location hlocation => hsimple'.wellFormed.directory_of_suffix hlocation hthere,
    fun name item => ⟨fun hitem => ?_, ?_⟩, fun location hway hin => ?_⟩
  · have hdir := hclean hitem
    rcases hdisturbs (name :: world.tree.addressOf p) with hsame | ⟨-, -, hway⟩ | ⟨_, -, -, -, hnot⟩
    · exact ⟨hsame.symm.trans hitem, hdir⟩
    · exact absurd hway.suffix.length_le (by simp)
    · exact absurd (hdir ▸ hitem) hnot
  · rintro ⟨hitem, rfl⟩
    exact hevolves.directories hsimple.wellFormed hitem
  · rcases hdisturbs location with hsame | ⟨-, -, hmade⟩ | ⟨name, hlocation, -⟩
    · exact hsame
    · exact absurd hmade.suffix hway
    · exact absurd hlocation (hin name)

/-- A directory that is there can be prepared if the names of the files directly in it can follow
the path. -/
theorem prepareDir_ok_of_follows (hsimple : world.tree.Simple) {directory : Location}
    (hpresent : world.tree.isPresent dir = true)
    (hdirectory : world.tree.directoryOf? dir = some directory)
    (hfollows : ∀ name content, world.tree.item? (name :: directory) = some (.file content) →
      Follows dir name) :
    ∃ world', (prepareDir dir).outcome world = (.ok (), world') := by
  obtain ⟨_, hpath, -⟩ := item?_of_isPresent hsimple hpresent
  obtain ⟨entries, hlist, hnodup, hfiles⟩ := list_names hsimple
    ((directoryOf?_eq_some_iff (text_ne_empty_of_locate hpath)).mp hdirectory)
  obtain ⟨removed, cleared, hclear⟩ := clear_ok entries hsimple hdirectory hnodup
    fun name hname => by
      obtain ⟨content, hcontent⟩ := hfiles name hname
      exact ⟨hfollows name content hcontent, content, hcontent⟩
  rw [prepareDir_of_present hpresent hlist, Step.outcome_bind_of_ok hclear]
  split <;> exact ⟨_, rfl⟩

/-- Where a plain path has been prepared, its directory was there or could be made. -/
theorem makeable_of_prepareDir (hsimple : world.tree.Simple) (hp : p.Plain)
    (h : (prepareDir p).outcome world = (.ok (), world')) : world.tree.Makeable p := by
  cases hpresent : world.tree.isPresent p with
  | false =>
    rw [prepareDir_of_absent hpresent, Step.outcome_on_eq_ok_iff] at h
    exact (@makeDirectories_ok_iff p (world.withEvent _) hsimple hp).mp ⟨_, h⟩
  | true =>
    obtain ⟨directory, hdirectory⟩ := directoryOf?_of_present hsimple.wellFormed hpresent h
    obtain rfl := address_of_directoryOf? hsimple.linkFree hdirectory
    obtain ⟨hshort, hdir⟩ := (directoryOf?_plain_iff hsimple hp).mp hdirectory
    exact ⟨hshort, .of_directory hsimple.wellFormed hdir, Or.inl hdir⟩

/-- Where a path has been prepared, the names of the files that were directly in its directory can
follow it. -/
theorem follows_of_prepareDir (hsimple : world.tree.Simple) (hp : p.Downward)
    (h : (prepareDir p).outcome world = (.ok (), world')) {name : String} {content : Content}
    (hfile : world.tree.item? (name :: world.tree.addressOf p) = some (.file content)) :
    Follows p name := by
  have hinside := (prepared_of_prepareDir hsimple hp h).inside name
  rcases prepareDir_disturbs hsimple hp h (name :: world.tree.addressOf p) with
    hsame | ⟨hnone, -⟩ | ⟨other, heq, hfollows⟩
  · cases ((hinside _).mp (hsame.trans hfile)).2
  · rw [hnone] at hfile
    cases hfile
  · rw [(List.cons.inj heq).1]
    exact hfollows (by simp [hfile])

/-- A plain path can be prepared exactly if its directory is there or can be made, and the names
of the files directly in it can follow the path. -/
theorem prepareDir_ok_iff (hsimple : world.tree.Simple) (hp : p.Plain) :
    (∃ world', (prepareDir p).outcome world = (.ok (), world')) ↔ world.tree.Preparable p := by
  constructor
  · rintro ⟨world', h⟩
    exact ⟨makeable_of_prepareDir hsimple hp h, fun name content =>
      follows_of_prepareDir hsimple hp.downward h⟩
  · intro h
    obtain ⟨hshort, hfile, hend⟩ := h.makeable
    cases hpresent : world.tree.isPresent p with
    | false =>
      rw [prepareDir_of_absent hpresent]
      simp only [Step.outcome_on_eq_ok_iff]
      exact (@makeDirectories_ok_iff p (world.withEvent _) hsimple hp).mpr h.makeable
    | true =>
      obtain ⟨item, hlocate, hitem⟩ := item?_of_isPresent hsimple hpresent
      obtain rfl : item = .directory := by
        cases item with
        | directory => rfl
        | file content => exact absurd hitem (hfile _ (List.suffix_refl _) content)
        | link target => exact absurd hitem (hsimple.linkFree _ _)
      exact prepareDir_ok_of_follows hsimple hpresent
        ((directoryOf?_plain_iff hsimple hp).mpr ⟨hshort, hitem⟩) h.removable

/-! ## Writing -/

/-- Headers are written if the path leads to a directory, their names can follow it, and no
directory has one of them. -/
theorem writeEach_ok {directory : Location} (units : List HeaderUnit) (hsimple : world.tree.Simple)
    (hdir : world.tree.directoryOf? p = some directory)
    (hunits : ∀ unit ∈ units, Follows p (unit.typeName ++ extension) ∧
      world.tree.item? ((unit.typeName ++ extension) :: directory) ≠ some .directory) :
    ∃ paths world', (writeEach p extension units).outcome world = (.ok paths, world') := by
  induction units generalizing world with
  | nil => exact ⟨[], world, rfl⟩
  | cons unit units ih =>
    obtain ⟨hfollows, hitem⟩ := hunits unit (List.mem_cons_self ..)
    have hwrite := write_of_follows hsimple.linkFree hdir hfollows hitem (.text unit.code)
    have hevolves := write_evolves hwrite
    obtain ⟨paths, world', h⟩ := @ih
      ((world.withTree _).withEvent (.headerWritten (unit.path p extension)))
      (hevolves.simple hsimple) ((hevolves.waysKept hsimple).directoryOf? hdir) fun other hother => by
        obtain ⟨hfollows, hitem⟩ := hunits other (List.mem_cons_of_mem _ hother)
        refine ⟨hfollows, fun hdirectory => ?_⟩
        by_cases heq : (other.typeName ++ extension) :: directory =
            (unit.typeName ++ extension) :: directory
        · rw [heq] at hdirectory
          exact absurd ((item?_set_self ..).symm.trans hdirectory) (by simp)
        · exact hitem ((item?_set_of_ne heq _).symm.trans hdirectory)
    refine ⟨unit.path p extension :: paths, world', ?_⟩
    rw [writeEach]
    refine Step.outcome_bind_eq_ok_iff.mpr
      ⟨(), _, Step.outcome_write_eq_ok_iff.mpr ⟨_, hwrite, rfl⟩, ?_⟩
    rw [Step.outcome_note_bind]
    exact Step.outcome_bind_eq_ok_iff.mpr ⟨paths, world', h, rfl⟩

/-- A directory can be prepared and units written into it. -/
structure FileTree.Writable (p : PathName) (extension : String) (units : List HeaderUnit)
    (tree : FileTree) : Prop extends Preparable tree p where
  names : ∀ unit ∈ units, Follows p (unit.typeName ++ extension)
  notOver : ∀ unit ∈ units,
    tree.item? ((unit.typeName ++ extension) :: tree.addressOf p) ≠ some .directory

/-- What is above a directory, and itself, are directories, in it are the directories that were in
it and the headers of units, and all else is as before. -/
structure FileTree.Filled (directory : Location) (extension : String) (units : List HeaderUnit)
    (tree tree' : FileTree) : Prop where
  onWay : ∀ location, location <:+ directory → tree'.item? location = some .directory
  inside : ∀ name item, tree'.item? (name :: directory) = some item ↔
    tree.item? (name :: directory) = some item ∧ item = .directory ∨
      ∃ unit : HeaderUnit, unit.LastIn units ∧ name = unit.typeName ++ extension ∧
        item = .file (.text unit.code)
  elsewhere : ∀ location, ¬location <:+ directory → (∀ name, location ≠ name :: directory) →
    tree'.item? location = tree.item? location

/-- Units can be written to a plain path exactly if its directory can be prepared, their names can
follow the path, and no directory has one of them. -/
theorem writeUnits_ok_iff (hsimple : world.tree.Simple) (hp : p.Plain)
    (hnames : ∀ unit ∈ units, IsEntryName (unit.typeName ++ extension)) :
    (∃ paths world', (writeUnits p units extension).outcome world = (.ok paths, world')) ↔
      world.tree.Writable p extension units := by
  constructor
  · rintro ⟨paths, world', h⟩
    have hevolves := (writeUnits_evolves _ _ _).of_outcome h
    obtain ⟨_, prepared, hprepare, hwrite⟩ := Step.outcome_bind_eq_ok_iff.mp h
    have hprepared := (prepareDir_evolves p).of_outcome hprepare
    obtain ⟨-, hfollows, hlast⟩ :=
      writeEach_headers units prepared (hprepared.simple hsimple) hnames hwrite
    refine ⟨(prepareDir_ok_iff hsimple hp).mp ⟨_, hprepare⟩, fun unit hunit =>
      (hfollows unit hunit).1, fun unit hunit hdir => ?_⟩
    obtain ⟨last, hlastIn, hname⟩ := HeaderUnit.exists_lastIn ⟨unit, hunit, rfl⟩
    have hheader := hlast last hlastIn
    rw [hname, hprepared.addressOf, hevolves.directories hsimple.wellFormed hdir] at hheader
    cases hheader
  · rintro ⟨hpreparable, hfollows, hnotOver⟩
    obtain ⟨prepared, hprepare⟩ := (prepareDir_ok_iff hsimple hp).mpr hpreparable
    have hevolves := (prepareDir_evolves p).of_outcome hprepare
    obtain ⟨hway, hinside, -⟩ := prepared_of_prepareDir hsimple hp.downward hprepare
    have hdir := (directoryOf?_plain_iff (hevolves.simple hsimple) hp).mpr
      ⟨hpreparable.makeable.1, by rw [hevolves.addressOf]; exact hway _ (List.suffix_refl _)⟩
    rw [hevolves.addressOf] at hdir
    obtain ⟨paths, world', hwrite⟩ := writeEach_ok units (hevolves.simple hsimple) hdir
      fun unit hunit => ⟨hfollows unit hunit, fun hitem =>
        hnotOver unit hunit ((hinside _ _).mp hitem).1⟩
    exact ⟨paths, world', Step.outcome_bind_eq_ok_iff.mpr ⟨(), prepared, hprepare, hwrite⟩⟩

/-- What the tree is like after units have been written to a path that does not lead up. -/
theorem filled_of_writeUnits {paths : List PathName} (hsimple : world.tree.Simple)
    (hp : p.Downward)
    (hnames : ∀ unit ∈ units, IsEntryName (unit.typeName ++ extension))
    (h : (writeUnits p units extension).outcome world = (.ok paths, world')) :
    paths = units.map (·.path p extension) ∧
      Filled (world.tree.addressOf p) extension units world.tree world'.tree := by
  have hall := (writeUnits_evolves _ _ _).of_outcome h
  obtain ⟨hpaths, location, hlocate, hholds⟩ := writeUnits_ok hsimple hp.ne_empty hp.no_up hnames h
  obtain ⟨_, prepared, hprepare, hwrite⟩ := Step.outcome_bind_eq_ok_iff.mp h
  have hevolves := (prepareDir_evolves p).of_outcome hprepare
  have hsimple' := hevolves.simple hsimple
  obtain ⟨hway, hinside, helsewhere⟩ := prepared_of_prepareDir hsimple hp hprepare
  have hlater := (writeEach_moves p extension units fun _ _ _ _ => write_evolves).of_outcome hwrite
  have hchanged := ((writeEach_within (hsimple'.linkFree.noLinksIn p) hnames).of_outcome
    hwrite).changed (.refl hsimple'.wellFormed)
  obtain rfl : location = world.tree.addressOf p := by
    rw [← hall.addressOf]
    exact address_of_directoryOf? (hall.simple hsimple).linkFree
      ((directoryOf?_eq_some_iff hp.ne_empty).mpr hlocate)
  refine ⟨hpaths, fun l hl => hlater.directories hsimple'.wellFormed (hway l hl),
    fun name item => ?_, fun l hl hin => ?_⟩
  · by_cases hitem : item = .directory
    · subst hitem
      constructor
      · intro hdir
        rcases hchanged (name :: world.tree.addressOf p) with hsame | ⟨_, hfile, -⟩
        · exact Or.inl ((hinside _ _).mp (hsame.symm.trans hdir))
        · rw [hfile] at hdir
          cases hdir
      · rintro (⟨hdir, -⟩ | ⟨_, -, -, hfile⟩)
        · exact hall.directories hsimple.wellFormed hdir
        · cases hfile
    · rw [← hholds name item]
      simp [hitem]
  · rcases hchanged l with hsame | ⟨_, -, hheader⟩
    · rw [hsame]
      exact helsewhere l hl hin
    · obtain ⟨name, hlocation⟩ := hheader.entryOf.address hsimple'.linkFree
      rw [hevolves.addressOf] at hlocation
      exact absurd hlocation (hin name)

/-- What is the case once units have been written to a plain path. -/
structure WrittenTo (p : PathName) (extension : String) (units : List HeaderUnit)
    (world world' : World) (paths : List PathName) : Prop where
  listed : paths = units.map (·.path p extension)
  evolves : Evolves world.tree world'.tree
  simple : world'.tree.Simple
  writable : Writable p extension units world.tree
  filled : Filled (world.tree.addressOf p) extension units world.tree world'.tree
  holds : Holds p extension units world'.tree

theorem writtenTo_of_writeUnits {paths : List PathName} (hsimple : world.tree.Simple)
    (hp : p.Plain) (hnames : ∀ unit ∈ units, IsEntryName (unit.typeName ++ extension))
    (h : (writeUnits p units extension).outcome world = (.ok paths, world')) :
    WrittenTo p extension units world world' paths := by
  have hevolves := (writeUnits_evolves _ _ _).of_outcome h
  obtain ⟨hlisted, hholds⟩ := writeUnits_ok hsimple hp.ne_empty hp.no_up hnames h
  exact ⟨hlisted, hevolves, hevolves.simple hsimple,
    (writeUnits_ok_iff hsimple hp hnames).mp ⟨paths, world', h⟩,
    (filled_of_writeUnits hsimple hp.downward hnames h).2, hholds⟩

/-- However writing units to a path that does not lead up ends, the tree is disturbed only on the
way to the path and directly in its directory. -/
theorem writeUnits_disturbs (hsimple : world.tree.Simple) (hp : p.Downward)
    (hnames : ∀ unit ∈ units, IsEntryName (unit.typeName ++ extension))
    {result : Except Failure (List PathName)}
    (h : (writeUnits p units extension).outcome world = (result, world')) (location : Location) :
    Disturbed p world.tree world'.tree location := by
  rcases Step.outcome_bind_cases h with ⟨failure, hprepare, -⟩ | ⟨_, prepared, hprepare, hwrite⟩
  · exact prepareDir_disturbs hsimple hp hprepare location
  · have hevolves := (prepareDir_evolves p).of_outcome hprepare
    have hsimple' := hevolves.simple hsimple
    have hdisturbs := prepareDir_disturbs hsimple hp hprepare location
    have hwithin := (writeEach_within (hsimple'.linkFree.noLinksIn p) hnames).of_outcome hwrite
    rcases hwithin.changed (.refl hsimple'.wellFormed) location with hsame | ⟨_, hfile, hheader⟩
    · cases hdisturbs with
      | same hbefore => exact .same (hsame.trans hbefore)
      | made hnone hdir hway => exact .made hnone (hsame.trans hdir) hway
      | entry name hlocation hfollows hbefore hafter =>
        exact .entry name hlocation hfollows hbefore (hsame ▸ hafter)
    · obtain ⟨name, rfl⟩ := hheader.entryOf.address hsimple'.linkFree
      rw [hevolves.addressOf] at hfile hdisturbs ⊢
      have hnotOver : world.tree.item? (name :: world.tree.addressOf p) ≠ some .directory := by
        intro hdir
        have hkept := (writeUnits_evolves _ _ _).of_outcome h
        rw [hkept.directories hsimple.wellFormed hdir] at hfile
        cases hfile
      refine .entry name rfl (fun hthere => ?_) hnotOver (by simp [hfile])
      -- What was there is no directory, so it was removed to prepare the path.
      cases hdisturbs with
      | same hbefore =>
        obtain ⟨item, hitem⟩ := Option.ne_none_iff_exists'.mp hthere
        have hinside := (prepared_of_prepareDir hsimple hp hprepare).inside name item
        obtain ⟨-, rfl⟩ := hinside.mp (hbefore.trans hitem)
        exact absurd hitem hnotOver
      | made hnone _ _ => exact absurd hnone hthere
      | entry other heq hfollows _ _ =>
        obtain rfl := (List.cons.inj heq).1
        exact hfollows hthere

end SchemaHeaders
