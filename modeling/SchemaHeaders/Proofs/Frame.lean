import SchemaHeaders.Proofs.Headers

/-!
# What a run leaves alone

`run_bounded` : in a tree with any directories and links, whatever a run ends with, every directory
stays, what else was there is only removed or overwritten if it is an entry of the very directory
that one of the two paths leads to when the preparation of this directory begins, and every file
that is new is a header in the directory that its path leads to when the preparation ends.

Clearing removes links, and the path of the directory may lead through one of these. It then leads
nowhere, but never to another directory (`FileTree.WaysKept.directoryOf?`), so whatever is
removed is an entry of one directory (`clear_within`). What has been prepared has only
directories in it (`prepareDir_clean`), so that no header is written through a link
(`writeEach_within`).
-/

namespace SchemaHeaders

open FileTree

/-! ## Bounds -/

variable {dir : PathName} {world world' : World} {extension : String} {units : List HeaderUnit}

/-- Whatever is lost from a tree, other than directories, is removable, and the files that are new
in it have been made. -/
structure FileTree.Bounded (removable : Location → Item → Prop) (made : Location → Content → Prop)
    (tree tree' : FileTree) : Prop where
  kept : ∀ {location item}, item ≠ .directory → tree.item? location = some item →
    tree'.item? location = some item ∨ removable location item
  new : ∀ {location content}, tree'.item? location = some (.file content) →
    tree.item? location = some (.file content) ∨ made location content

namespace FileTree.Bounded

variable {removable removable' : Location → Item → Prop} {made made' : Location → Content → Prop}
  {tree tree' tree'' : FileTree}

theorem refl (tree : FileTree) : Bounded removable made tree tree :=
  ⟨fun _ h => Or.inl h, Or.inl⟩

theorem trans (h : Bounded removable made tree tree') (h' : Bounded removable made tree' tree'') :
    Bounded removable made tree tree'' where
  kept hne hitem := (h.kept hne hitem).elim (h'.kept hne) Or.inr
  new hfile := (h'.new hfile).elim h.new Or.inr

theorem mono (h : Bounded removable made tree tree')
    (hremovable : ∀ location item, tree.item? location = some item → removable location item →
      removable' location item)
    (hmade : ∀ location content, made location content → made' location content) :
    Bounded removable' made' tree tree' where
  kept hne hitem := (h.kept hne hitem).imp_right (hremovable _ _ hitem)
  new hfile := (h.new hfile).imp_right (hmade _ _)

end FileTree.Bounded

/-- However the preparation of a directory ends, only entries of the directory are removed, and
no file is new. -/
theorem prepareDir_bounded (hwf : world.tree.WellFormed) {result : Except Failure Unit}
    (h : (prepareDir dir).outcome world = (result, world')) :
    Bounded (fun location _ => EntryOf world.tree dir location) (fun _ _ => False) world.tree
      world'.tree where
  kept {location item} hne hitem := by
    rcases prepareDir_changed hwf h location with hsame | ⟨hnone, -⟩ | ⟨hentry, -⟩
    · exact Or.inl (hsame.trans hitem)
    · exact absurd (hnone.symm.trans hitem) (by simp)
    · exact Or.inr hentry
  new {location content} hfile := by
    rcases prepareDir_changed hwf h location with hsame | ⟨-, hthere⟩ | ⟨-, hgone⟩
    · exact Or.inl (hsame.symm.trans hfile)
    · exact absurd (hthere.symm.trans hfile) (by simp)
    · exact absurd (hgone.symm.trans hfile) (by simp)

/-! ## Writing units -/

/-- A location and a content are those of a header, where the path leads when the directory has
been prepared. -/
def Written (dir : PathName) (extension : String) (units : List HeaderUnit) (begins : World)
    (location : Location) (content : Content) : Prop :=
  ∃ prepared, (prepareDir dir).outcome begins = (.ok (), prepared) ∧
    HeaderIn prepared.tree dir extension units location content

/-- However writing units ends, only entries of the directory are removed, and the files that are
new are headers in it. -/
theorem writeUnits_bounded (hwf : world.tree.WellFormed) (hdir : dir.text ≠ "")
    (hup : PathName.Component.up ∉ dir.components)
    (hnames : ∀ unit ∈ units, IsEntryName (unit.typeName ++ extension))
    {result : Except Failure (List PathName)}
    (h : (writeUnits dir units extension).outcome world = (result, world')) :
    Bounded (fun location _ => EntryOf world.tree dir location)
      (Written dir extension units world) world.tree world'.tree := by
  rcases Step.outcome_bind_cases h with ⟨failure, h, -⟩ | ⟨_, prepared, hprepared, h⟩
  · exact (prepareDir_bounded hwf h).mono (fun _ _ _ h => h) fun _ _ => False.elim
  have hprepare := prepareDir_bounded hwf hprepared
  have hclean : ∀ directory, prepared.tree.directoryOf? dir = some directory → ∀ {name item},
      prepared.tree.item? (name :: directory) = some item → item = .directory :=
    fun _ hdirectory _ _ => prepareDir_clean hwf hdir hup hprepared hdirectory
  have hlinks : NoLinksIn prepared.tree dir := fun directory hdirectory name target hitem => by
    cases hclean directory hdirectory hitem
  have hpreparedwf := ((prepareDir_evolves dir).of_outcome hprepared).wellFormed hwf
  have hchanged := ((writeEach_within hlinks hnames).of_outcome h).changed (.refl hpreparedwf)
  refine ⟨fun {location item} hne hitem => ?_, fun {location content} hfile => ?_⟩
  · refine (hprepare.kept hne hitem).imp_left fun hkept => ?_
    rcases hchanged location with hsame | ⟨content, -, hheader⟩
    · exact hsame.trans hkept
    · obtain ⟨directory, name, hdirectory, rfl⟩ := hheader.entryOf
      exact absurd (hclean directory hdirectory hkept) hne
  · rcases hchanged location with hsame | ⟨content', hfile', hheader⟩
    · exact (hprepare.new (hsame.symm.trans hfile)).imp_right False.elim
    · cases hfile'.symm.trans hfile
      exact Or.inr ⟨prepared, hprepared, hheader⟩

/-! ## Runs -/

/-- The preparations that a run comes to : of which directory, for which units, and in which
world they begin. -/
inductive Preparation (config : Config) (world : World) :
    PathName → List HeaderUnit → World → Prop
  | enums {generated : Generated} {begins : World} :
      (check config).outcome world = (.ok generated, begins) →
      Preparation config world config.enumOutputDir generated.enums begins
  | structs {generated : Generated} {checked begins : World} {enumFiles : List PathName} :
      (check config).outcome world = (.ok generated, checked) →
      (writeUnits config.enumOutputDir generated.enums generated.extension).outcome checked =
        (.ok enumFiles, begins) →
      Preparation config world config.structOutputDir generated.structs begins

variable {config : Config}

/-- An item is an entry of the directory that a path leads to when its preparation begins. -/
def Removable (config : Config) (world : World) (location : Location) (item : Item) : Prop :=
  ∃ dir units begins, Preparation config world dir units begins ∧
    begins.tree.item? location = some item ∧ EntryOf begins.tree dir location

/-- A file is a header in the directory that a path leads to when its preparation ends. -/
def Made (config : Config) (world : World) (location : Location) (content : Content) : Prop :=
  ∃ dir units begins, Preparation config world dir units begins ∧
    Written dir ".h" units begins location content

theorem Preparation.bounded {begins : World} (h : Preparation config world dir units begins)
    (hwf : begins.tree.WellFormed) (hdir : dir.text ≠ "")
    (hup : PathName.Component.up ∉ dir.components)
    (hnames : ∀ unit ∈ units, IsEntryName (unit.typeName ++ ".h"))
    {result : Except Failure (List PathName)}
    (hwrite : (writeUnits dir units ".h").outcome begins = (result, world')) :
    Bounded (Removable config world) (Made config world) begins.tree world'.tree :=
  (writeUnits_bounded hwf hdir hup hnames hwrite).mono
    (fun _ _ hitem hentry => ⟨dir, units, begins, h, hitem, hentry⟩)
    fun _ _ hwritten => ⟨dir, units, begins, h, hwritten⟩

/-- However the writing of what has been checked ends, its two preparations bound it. -/
theorem writeGenerated_bounded {generated : Generated} {checked : World}
    (hcheck : (check config).outcome world = (.ok generated, checked))
    (hwf : checked.tree.WellFormed)
    (henum : config.enumOutputDir.text ≠ "")
    (henumUp : PathName.Component.up ∉ config.enumOutputDir.components)
    (hstruct : config.structOutputDir.text ≠ "")
    (hstructUp : PathName.Component.up ∉ config.structOutputDir.components)
    (hnames : ∀ unit ∈ generated.enums ++ generated.structs, IsEntryName (unit.typeName ++ ".h"))
    {result : Except Failure Summary}
    (h : (writeGenerated generated config.enumOutputDir config.structOutputDir).outcome checked =
      (result, world')) :
    Bounded (Removable config world) (Made config world) checked.tree world'.tree := by
  have hextension := check_extension hcheck
  have henums : ∀ {result : Except Failure (List PathName)} {between : World},
      (writeUnits config.enumOutputDir generated.enums ".h").outcome checked = (result, between) →
      Bounded (Removable config world) (Made config world) checked.tree between.tree :=
    (Preparation.enums hcheck).bounded hwf henum henumUp fun unit hunit =>
      hnames unit (List.mem_append_left _ hunit)
  rcases Step.outcome_bind_cases h with ⟨failure, h, -⟩ | ⟨enumFiles, between, hwrite, h⟩
  · rw [hextension] at h
    exact henums h
  have hbegin := Preparation.structs hcheck hwrite
  have hbetween := ((writeUnits_evolves _ _ _).of_outcome hwrite).wellFormed hwf
  have hstructs : ∀ {result : Except Failure (List PathName)} {last : World},
      (writeUnits config.structOutputDir generated.structs ".h").outcome between = (result, last) →
      Bounded (Removable config world) (Made config world) between.tree last.tree :=
    hbegin.bounded hbetween hstruct hstructUp fun unit hunit =>
      hnames unit (List.mem_append_right _ hunit)
  rw [hextension] at hwrite h
  rcases Step.outcome_bind_cases h with ⟨failure, h, -⟩ | ⟨structFiles, last, hlast, h⟩
  · exact (henums hwrite).trans (hstructs h)
  · cases h
    exact (henums hwrite).trans (hstructs hlast)

/-- Whatever a run ends with, if its two directories are not empty and do not lead up and no type
name has a slash, then every directory stays; every other item does unless it is an entry of
the directory that one of the paths leads to when its preparation begins; and every new file
is a header in the directory that its path leads to when the preparation ends. -/
theorem run_bounded (hwf : world.tree.WellFormed)
    (henum : config.enumOutputDir.text ≠ "")
    (henumUp : PathName.Component.up ∉ config.enumOutputDir.components)
    (hstruct : config.structOutputDir.text ≠ "")
    (hstructUp : PathName.Component.up ∉ config.structOutputDir.components)
    (hslash : ∀ generated, ((check config).outcome world).1 = .ok generated →
      ∀ unit ∈ generated.enums ++ generated.structs, '/' ∉ unit.typeName.toList)
    {result : Except Failure Summary} (h : (run config).outcome world = (result, world')) :
    (∀ location, world.tree.item? location = some .directory →
      world'.tree.item? location = some .directory) ∧
    Bounded (Removable config world) (Made config world) world.tree world'.tree := by
  refine ⟨fun _ => ((run_evolves config).of_outcome h).directories hwf, ?_⟩
  rcases Step.outcome_bind_cases h with ⟨failure, h, -⟩ | ⟨generated, checked, hcheck, h⟩
  · rw [(check_moves_eq config).of_outcome h]
    exact .refl world'.tree
  have htree := (check_moves_eq config).of_outcome hcheck
  have hnames : ∀ unit ∈ generated.enums ++ generated.structs,
      IsEntryName (unit.typeName ++ ".h") := fun unit hunit =>
    isEntryName_header (hslash generated (by rw [hcheck]) unit hunit)
  have hbounded : ∀ {result : Except Failure Summary} {written : World},
      (writeGenerated generated config.enumOutputDir config.structOutputDir).outcome checked =
        (result, written) →
      Bounded (Removable config world) (Made config world) world.tree written.tree := fun h =>
    htree ▸ writeGenerated_bounded hcheck (htree ▸ hwf) henum henumUp hstruct hstructUp hnames h
  rcases Step.outcome_bind_cases h with ⟨failure, h, -⟩ | ⟨summary, written, hwrite, h⟩
  · exact hbounded h
  · have hwritten := hbounded hwrite
    cases h
    exact hwritten

/-- A directory that is reached by a link, with a link in it on the way to the other directory : the
link goes, and what it led to stays. -/
theorem run_bounded_links :
    let schema := "\x7b\"enum\": [\x7b\"name\": \"a\"\x7d], \"struct\": [\x7b\"name\": \"b\"\x7d]\x7d"
    let tree := ((((((({} : FileTree).set ["types.json"] (.file (.text schema))).set
      ["real"] .directory).set ["other"] .directory).set ["out"] (.link ⟨"real"⟩)).set
      ["Old.h", "real"] (.file (.text "old"))).set ["away", "real"] (.link ⟨"../other"⟩)).set
      ["Kept.h", "other"] (.file (.text "kept"))
    let config : Config :=
      { schema := ⟨"types.json"⟩, outputRoot := ⟨"out"⟩, enumDir := ⟨"."⟩, structDir := ⟨"away"⟩ }
    let world : World := ⟨tree, []⟩
    let after := ((run config).outcome world).2.tree
    Removable config world ["Old.h", "real"] (.file (.text "old")) ∧
      Removable config world ["away", "real"] (.link ⟨"../other"⟩) ∧
      Made config world ["B.h", "away", "real"] (.text (emitStruct .cpp ⟨"b", []⟩).code) ∧
      after.item? ["other"] = some .directory ∧
      after.item? ["Kept.h", "other"] = some (.file (.text "kept")) := by
  intro schema tree config world after
  have hwf : tree.WellFormed := by
    refine (((((((simple_root.wellFormed.set ?_ rfl ?_).set ?_ rfl ?_).set ?_ rfl ?_).set
      ?_ rfl ?_).set ?_ rfl ?_).set ?_ rfl ?_).set ?_ rfl ?_)
    all_goals decide
  have hslash : (((check config).outcome world).1.toOption.all fun generated =>
      (generated.enums ++ generated.structs).all fun unit =>
        !unit.typeName.toList.contains '/') = true := by
    decide +kernel
  have hafter : after.item? ["Old.h", "real"] = none ∧
      after.item? ["away", "real"] = some .directory ∧
      after.item? ["B.h", "away", "real"] =
        some (.file (.text (emitStruct .cpp ⟨"b", []⟩).code)) ∧
      after.item? ["Kept.h", "other"] = some (.file (.text "kept")) := by
    decide +kernel
  have hbefore : tree.item? ["Old.h", "real"] = some (.file (.text "old")) ∧
      tree.item? ["away", "real"] = some (.link ⟨"../other"⟩) ∧
      tree.item? ["B.h", "away", "real"] = none ∧ tree.item? ["other"] = some .directory := by
    decide
  obtain ⟨hgone, haway, hheader, hkept⟩ := hafter
  obtain ⟨hold, hlink, hfree, hother⟩ := hbefore
  obtain ⟨hdirectories, hbounded⟩ := @run_bounded world _ config hwf (by decide) (by decide)
    (by decide) (by decide) (fun generated hcheck unit hunit => by
      rw [hcheck] at hslash
      simpa using List.all_eq_true.mp hslash unit hunit) _ (Step.outcome_eq_of_fst rfl)
  refine ⟨?_, ?_, ?_, hdirectories _ hother, hkept⟩
  · refine (hbounded.kept (by simp) hold).resolve_left fun h => ?_
    cases hgone.symm.trans h
  · refine (hbounded.kept (by simp) hlink).resolve_left fun h => ?_
    cases haway.symm.trans h
  · refine (hbounded.new hheader).resolve_left fun h => ?_
    cases hfree.symm.trans h

end SchemaHeaders
