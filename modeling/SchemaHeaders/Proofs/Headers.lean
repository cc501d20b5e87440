import SchemaHeaders.Proofs.Preparation
import SchemaHeaders.Proofs.Verdict

/-!
# Headers in their directories

A run that succeeds leaves in each of its two directories, beside directories, the headers of
its units and nothing else (`run_holds`). Where several units have one type name, the file
is that of the last.

`writeEach_headers` and `writeUnits_ok` say this of one list of units. The two lists do not get in
each other's way, also if one directory is in the other : each phase changes only the entries at the
address of its own directory (`writeUnits_changed`), apart from directories on the way. In a
directory without links, headers are written to entries of it (`writeEach_within`).
-/

namespace SchemaHeaders

open FileTree

/-! ## Units of one name -/

namespace HeaderUnit

/-- The last of some units to have its type name. -/
def LastIn (units : List HeaderUnit) (unit : HeaderUnit) : Prop :=
  ∃ before after, units = before ++ unit :: after ∧
    ∀ other ∈ after, other.typeName ≠ unit.typeName

theorem lastIn_cons_iff {first : HeaderUnit} {units : List HeaderUnit} {unit : HeaderUnit} :
    LastIn (first :: units) unit ↔
      LastIn units unit ∨ unit = first ∧ ∀ other ∈ units, other.typeName ≠ unit.typeName := by
  constructor
  · rintro ⟨before, after, hunits, hafter⟩
    cases before with
    | nil =>
      obtain ⟨rfl, rfl⟩ := List.cons.inj hunits
      exact Or.inr ⟨rfl, hafter⟩
    | cons b before => exact Or.inl ⟨before, after, (List.cons.inj hunits).2, hafter⟩
  · rintro (⟨before, after, rfl, hafter⟩ | ⟨rfl, hafter⟩)
    · exact ⟨first :: before, after, rfl, hafter⟩
    · exact ⟨[], units, rfl, hafter⟩

theorem LastIn.mem {units : List HeaderUnit} {unit : HeaderUnit} (h : LastIn units unit) :
    unit ∈ units := by
  obtain ⟨before, after, rfl, -⟩ := h
  simp

/-- Among the units of one type name there is a last. -/
theorem exists_lastIn {typeName : String} : ∀ {units : List HeaderUnit},
    (∃ unit ∈ units, unit.typeName = typeName) →
      ∃ last, LastIn units last ∧ last.typeName = typeName
  | [], h => by simp at h
  | first :: units, h => by
    by_cases hlater : ∃ unit ∈ units, unit.typeName = typeName
    · obtain ⟨last, hlast, hname⟩ := exists_lastIn hlater
      exact ⟨last, lastIn_cons_iff.mpr (Or.inl hlast), hname⟩
    · obtain ⟨unit, hunit, hname⟩ := h
      rcases List.mem_cons.mp hunit with rfl | hunit
      · refine ⟨unit, lastIn_cons_iff.mpr (Or.inr ⟨rfl, fun other hother heq => ?_⟩), hname⟩
        exact hlater ⟨other, hother, heq.trans hname⟩
      · exact absurd ⟨unit, hunit, hname⟩ hlater

end HeaderUnit

/-- A type name without slashes makes a name for a file. -/
theorem isEntryName_header {typeName : String} (h : '/' ∉ typeName.toList) :
    IsEntryName (typeName ++ ".h") := by
  have hlast : (typeName ++ ".h").toList.getLast? = some 'h' := by
    rw [String.toList_append]
    simp
  refine ⟨?_, ?_, ?_, by simpa using h⟩ <;> intro heq <;> rw [heq] at hlast <;> simp at hlast

/-! ## Writing units -/

variable {dir : PathName} {extension : String} {units : List HeaderUnit} {world world' : World}

namespace FileTree

variable {base tree tree' : FileTree} {location : Location}

/-- A location and a content are those of the header of one of some units, in the directory that a
path leads to. -/
def HeaderIn (tree : FileTree) (dir : PathName) (extension : String) (units : List HeaderUnit)
    (location : Location) (content : Content) : Prop :=
  ∃ unit ∈ units, ∃ directory, tree.directoryOf? dir = some directory ∧
    location = (unit.typeName ++ extension) :: directory ∧ content = .text unit.code

theorem HeaderIn.entryOf {content : Content}
    (h : HeaderIn tree dir extension units location content) : EntryOf tree dir location := by
  obtain ⟨unit, -, directory, hdir, hlocation, -⟩ := h
  exact ⟨directory, _, hdir, hlocation⟩

/-- A path leads to no directory in which there are links. -/
def NoLinksIn (tree : FileTree) (dir : PathName) : Prop :=
  ∀ directory, tree.directoryOf? dir = some directory →
    ∀ name target, tree.item? (name :: directory) ≠ some (.link target)

theorem LinkFree.noLinksIn (h : tree.LinkFree) (dir : PathName) : NoLinksIn tree dir :=
  fun _ _ _ _ => h _ _

/-- Where the directory has no links, a header is written to an entry of it. -/
theorem write_within (hlinks : NoLinksIn base dir) {unit : HeaderUnit} (hunit : unit ∈ units)
    (hname : IsEntryName (unit.typeName ++ extension))
    (h : tree.write (unit.path dir extension) (.text unit.code) = .ok tree') :
    Within base (fun location item => ∃ content, item = some (.file content) ∧
      HeaderIn base dir extension units location content) tree tree' := by
  have hwritten : On base tree → ∃ directory, base.directoryOf? dir = some directory ∧
      tree' = tree.set ((unit.typeName ++ extension) :: directory) (.file (.text unit.code)) := by
    intro hon
    have hnolink : ∀ directory, tree.directoryOf? dir = some directory →
        ∀ target, tree.item? ((unit.typeName ++ extension) :: directory) ≠ some (.link target) :=
      fun directory hdir target hitem => hlinks directory (hon.ways.directoryOf? hdir) _ target
        (hon.ways.item (by simp) hitem)
    obtain ⟨directory, hdir, -, htree⟩ := write_join hon.wellFormed hname hnolink h
    exact ⟨directory, hon.ways.directoryOf? hdir, htree⟩
  refine ⟨fun hon => ?_, fun hon location => ?_⟩
  · have hwf := (write_evolves h).wellFormed hon.wellFormed
    obtain ⟨directory, -, rfl⟩ := hwritten hon
    exact ⟨hwf, (waysKept_set_file tree _ _ _).trans hon.ways⟩
  · obtain ⟨directory, hdir, rfl⟩ := hwritten hon
    by_cases heq : location = (unit.typeName ++ extension) :: directory
    · refine Or.inr ⟨.text unit.code, ?_, unit, hunit, directory, hdir, heq, rfl⟩
      rw [heq, item?_set_self]
    · exact Or.inl (item?_set_of_ne heq _)

end FileTree

theorem writeEach_within {base : FileTree} (hlinks : NoLinksIn base dir)
    (hnames : ∀ unit ∈ units, IsEntryName (unit.typeName ++ extension)) :
    Moves (Within base fun location item => ∃ content, item = some (.file content) ∧
        HeaderIn base dir extension units location content)
      (writeEach dir extension units : Step (StateM World) (List PathName)).run :=
  writeEach_moves dir extension units fun unit hunit _ _ =>
    write_within hlinks hunit (hnames unit hunit)

/-- Headers are not written over an entry that none of them has the name of. -/
theorem writeEach_spares {paths : List PathName} (hsimple : world.tree.Simple)
    (hnames : ∀ unit ∈ units, IsEntryName (unit.typeName ++ extension))
    (h : (writeEach dir extension units).outcome world = (.ok paths, world')) {typeName : String}
    (hothers : ∀ other ∈ units, other.typeName ≠ typeName) (parent : Location) :
    world'.tree.item? ((typeName ++ extension) :: parent) =
      world.tree.item? ((typeName ++ extension) :: parent) := by
  have hwithin := (writeEach_within (hsimple.linkFree.noLinksIn dir) hnames).of_outcome h
  refine (hwithin.changed (.refl hsimple.wellFormed) _).resolve_right ?_
  rintro ⟨_, -, other, hother, _, -, hlocation, -⟩
  exact hothers other hother ((String.append_left_inj _).mp (List.cons.inj hlocation).1).symm

/-- Writing units one after the other in a tree without links leaves the last of each name at
the address of the directory. -/
theorem writeEach_headers : ∀ (units : List HeaderUnit) (world : World) {world' : World}
    {paths : List PathName}, world.tree.Simple →
    (∀ unit ∈ units, IsEntryName (unit.typeName ++ extension)) →
    (writeEach dir extension units).outcome world = (.ok paths, world') →
    paths = units.map (·.path dir extension) ∧
      (∀ unit ∈ units, Follows dir (unit.typeName ++ extension) ∧
        world.tree.directoryOf? dir = some (world.tree.addressOf dir)) ∧
      ∀ unit : HeaderUnit, unit.LastIn units →
        world'.tree.item? ((unit.typeName ++ extension) :: world.tree.addressOf dir) =
          some (.file (.text unit.code))
  | [], _, _, _, _, _, h => by
    cases h
    exact ⟨rfl, by simp, fun unit hunit => absurd hunit.mem (by simp)⟩
  | first :: units, world, world', paths, hsimple, hnames, h => by
    have hfirst := hnames first (by simp)
    have hrestnames : ∀ unit ∈ units, IsEntryName (unit.typeName ++ extension) := fun unit hu =>
      hnames unit (List.mem_cons_of_mem _ hu)
    obtain ⟨_, between, hwrite, hafter⟩ := Step.outcome_bind_eq_ok_iff.mp h
    obtain ⟨tree, hwritten, rfl⟩ := Step.outcome_write_eq_ok_iff.mp hwrite
    rw [Step.outcome_note_bind] at hafter
    obtain ⟨rest, after, hrest, hpure⟩ := Step.outcome_bind_eq_ok_iff.mp hafter
    cases hpure
    have hevolves := write_evolves hwritten
    have htree := hevolves.simple hsimple
    obtain ⟨rfl, hfollows, hlast⟩ := writeEach_headers units ((world.withTree tree).withEvent _)
      htree hrestnames hrest
    have haddress : tree.addressOf dir = world.tree.addressOf dir := hevolves.addressOf dir
    obtain ⟨spot, hspot, -, -⟩ := write_spot hwritten
    obtain ⟨directory, hdir, -, hset⟩ :=
      write_join hsimple.wellFormed hfirst (fun _ _ _ => hsimple.linkFree _ _) hwritten
    obtain rfl := address_of_directoryOf? hsimple.linkFree hdir
    refine ⟨rfl, fun unit hunit => ⟨?_, hdir⟩, fun unit hunit => ?_⟩
    · rcases List.mem_cons.mp hunit with rfl | hunit
      · exact follows_of_locate hfirst hspot
      · exact (hfollows unit hunit).1
    rcases HeaderUnit.lastIn_cons_iff.mp hunit with hunit | ⟨rfl, hothers⟩
    · rw [← haddress]
      exact hlast unit hunit
    · -- No later unit has this name, so what was written first is still there.
      rw [writeEach_spares htree hrestnames hrest hothers]
      change tree.item? _ = _
      rw [hset, item?_set_self]

/-- However writing units in a tree without links ends, beside entries at the address of their
directory only directories have come. -/
theorem writeUnits_changed (hsimple : world.tree.Simple)
    (hnames : ∀ unit ∈ units, IsEntryName (unit.typeName ++ extension))
    {result : Except Failure (List PathName)}
    (h : (writeUnits dir units extension).outcome world = (result, world')) (location : Location) :
    world'.tree.item? location = world.tree.item? location ∨
      world.tree.item? location = none ∧ world'.tree.item? location = some .directory ∨
      ∃ name, location = name :: world.tree.addressOf dir := by
  have hprepare : ∀ {result : Except Failure Unit} {prepared : World},
      (prepareDir dir).outcome world = (result, prepared) →
      prepared.tree.item? location = world.tree.item? location ∨
        world.tree.item? location = none ∧ prepared.tree.item? location = some .directory ∨
        ∃ name, location = name :: world.tree.addressOf dir := fun h =>
    (prepareDir_changed hsimple.wellFormed h location).imp_right
      (Or.imp_right fun ⟨hentry, _⟩ => hentry.address hsimple.linkFree)
  rcases Step.outcome_bind_cases h with ⟨failure, h, -⟩ | ⟨_, prepared, hprepared, h⟩
  · exact hprepare h
  · have hevolves := (prepareDir_evolves dir).of_outcome hprepared
    have hsimple' := hevolves.simple hsimple
    have hwithin := (writeEach_within (hsimple'.linkFree.noLinksIn dir) hnames).of_outcome h
    rcases hwithin.changed (.refl hsimple'.wellFormed) location with hsame | ⟨_, -, hheader⟩
    · rw [hsame]
      exact hprepare hprepared
    · obtain ⟨name, hlocation⟩ := hheader.entryOf.address hsimple'.linkFree
      rw [hevolves.addressOf] at hlocation
      exact Or.inr (Or.inr ⟨name, hlocation⟩)

/-- The headers of units in a directory, beside directories, are the last of each name. -/
def FileTree.Holds (dir : PathName) (extension : String) (units : List HeaderUnit)
    (tree : FileTree) : Prop :=
  ∃ location, tree.locate dir = .ok (.found location .directory) ∧ ∀ name item,
    tree.item? (name :: location) = some item ∧ item ≠ .directory ↔
      ∃ unit : HeaderUnit, unit.LastIn units ∧ name = unit.typeName ++ extension ∧
        item = .file (.text unit.code)

/-- If units can be written then their directory holds their headers. -/
theorem writeUnits_ok {paths : List PathName} (hsimple : world.tree.Simple) (hdir : dir.text ≠ "")
    (hup : PathName.Component.up ∉ dir.components)
    (hnames : ∀ unit ∈ units, IsEntryName (unit.typeName ++ extension))
    (h : (writeUnits dir units extension).outcome world = (.ok paths, world')) :
    paths = units.map (·.path dir extension) ∧ Holds dir extension units world'.tree := by
  obtain ⟨_, prepared, hprepare, hwrite⟩ := Step.outcome_bind_eq_ok_iff.mp h
  have hprepared := ((prepareDir_evolves dir).of_outcome hprepare).simple hsimple
  have hevolves := (writeEach_moves dir extension units
    fun _ _ _ _ => write_evolves).of_outcome hwrite
  have hchanged := ((writeEach_within (hprepared.linkFree.noLinksIn dir) hnames).of_outcome
    hwrite).changed (.refl hprepared.wellFormed)
  obtain ⟨hpaths, -, hlast⟩ := writeEach_headers units prepared hprepared hnames hwrite
  obtain ⟨directory, hdirectory⟩ := directoryOf?_of_prepareDir_ok hsimple hdir hup hprepare
  have hclean : ∀ {name item}, prepared.tree.item? (name :: directory) = some item →
      item = .directory :=
    prepareDir_clean hsimple.wellFormed hdir hup hprepare hdirectory
  have hlater := (hevolves.waysKept hprepared).directoryOf? hdirectory
  obtain rfl := address_of_directoryOf? hprepared.linkFree hdirectory
  refine ⟨hpaths, _, (directoryOf?_eq_some_iff hdir).mp hlater, fun name item => ⟨?_, ?_⟩⟩
  · rintro ⟨hitem, hne⟩
    rcases hchanged (name :: prepared.tree.addressOf dir) with
      hsame | ⟨_, -, unit, hunit, _, -, hlocation, -⟩
    · exact absurd (hclean (hsame.symm.trans hitem)) hne
    · obtain ⟨last, hlastIn, hname⟩ := HeaderUnit.exists_lastIn ⟨unit, hunit, rfl⟩
      obtain rfl : name = last.typeName ++ extension := hname ▸ (List.cons.inj hlocation).1
      exact ⟨last, hlastIn, rfl, Option.some.inj (hitem.symm.trans (hlast last hlastIn))⟩
  · rintro ⟨unit, hunit, rfl, rfl⟩
    exact ⟨hlast unit hunit, by simp⟩

/-! ## Two directories -/

/-- However writing units at another address ends, it leaves the headers in a directory. -/
theorem FileTree.Holds.of_writeUnits {other : PathName} {units' : List HeaderUnit}
    {result : Except Failure (List PathName)} (hholds : Holds dir extension units world.tree)
    (hsimple : world.tree.Simple)
    (hne : world.tree.addressOf dir ≠ world.tree.addressOf other)
    (hnames : ∀ unit ∈ units', IsEntryName (unit.typeName ++ extension))
    (h : (writeUnits other units' extension).outcome world = (result, world')) :
    Holds dir extension units world'.tree := by
  obtain ⟨location, hlocate, hitems⟩ := hholds
  have hdir := text_ne_empty_of_locate hlocate
  have hdirectory := (directoryOf?_eq_some_iff hdir).mpr hlocate
  have hevolves := (writeUnits_evolves _ _ _).of_outcome h
  have hlater := (hevolves.waysKept hsimple).directoryOf? hdirectory
  refine ⟨location, (directoryOf?_eq_some_iff hdir).mp hlater, fun name item => ?_⟩
  rw [← hitems name item]
  obtain rfl := address_of_directoryOf? hsimple.linkFree hdirectory
  rcases writeUnits_changed hsimple hnames h (name :: world.tree.addressOf dir) with
    hsame | ⟨hfree, hnew⟩ | ⟨other, hlocation⟩
  · rw [hsame]
  · rw [hfree, hnew]
    constructor
    · rintro ⟨hitem, hdiff⟩
      exact absurd (Option.some.inj hitem).symm hdiff
    · rintro ⟨hitem, -⟩
      cases hitem
  · exact absurd (List.cons.inj hlocation).2 hne

/-- If units can be written into two different directories then both hold their headers. -/
theorem writeGenerated_ok {generated : Generated} {enumDir structDir : PathName} {summary : Summary}
    (hsimple : world.tree.Simple) (henum : enumDir.Plain) (hstruct : structDir.Plain)
    (hne : enumDir.names ≠ structDir.names)
    (hnames : ∀ unit ∈ generated.enums ++ generated.structs,
      IsEntryName (unit.typeName ++ generated.extension))
    (h : (writeGenerated generated enumDir structDir).outcome world = (.ok summary, world')) :
    Holds enumDir generated.extension generated.enums world'.tree ∧
      Holds structDir generated.extension generated.structs world'.tree ∧
      summary.enumFiles = generated.enums.map (·.path enumDir generated.extension) ∧
      summary.structFiles = generated.structs.map (·.path structDir generated.extension) := by
  have henumNames := fun unit hunit => hnames unit (List.mem_append_left _ hunit)
  have hstructNames := fun unit hunit => hnames unit (List.mem_append_right _ hunit)
  obtain ⟨enumFiles, middle, henums, hrest⟩ := Step.outcome_bind_eq_ok_iff.mp h
  obtain ⟨structFiles, last, hstructs, hpure⟩ := Step.outcome_bind_eq_ok_iff.mp hrest
  cases hpure
  have hmiddle := ((writeUnits_evolves _ _ _).of_outcome henums).simple hsimple
  obtain ⟨rfl, henumHolds⟩ := writeUnits_ok hsimple henum.ne_empty henum.no_up henumNames henums
  obtain ⟨rfl, hstructHolds⟩ :=
    writeUnits_ok hmiddle hstruct.ne_empty hstruct.no_up hstructNames hstructs
  have haddress : middle.tree.addressOf enumDir ≠ middle.tree.addressOf structDir :=
    fun h => hne (names_eq_of_addressOf henum hstruct h)
  exact ⟨henumHolds.of_writeUnits hmiddle haddress hstructNames hstructs, hstructHolds, rfl, rfl⟩

/-! ## Runs -/

variable {config : Config}

theorem extension_of_generate {backend : Backend} {schema : Schema} {generated : Generated}
    (h : generate backend schema = .ok generated) : generated.extension = backend.extension := by
  have hverdict := verdict_generate backend schema
  rw [h] at hverdict
  cases hverdict
  rfl

/-- What checking yields are the headers of a schema in C++. -/
theorem generate_of_check {generated : Generated}
    (h : (check config).outcome world = (.ok generated, world')) :
    ∃ schema, generate .cpp schema = .ok generated := by
  obtain ⟨_, first, -, h⟩ := Step.outcome_bind_eq_ok_iff.mp h
  obtain ⟨backend, second, hbackend, h⟩ := Step.outcome_bind_eq_ok_iff.mp h
  obtain ⟨schema, third, -, h⟩ := Step.outcome_bind_eq_ok_iff.mp h
  obtain ⟨_, fourth, -, h⟩ := Step.outcome_bind_eq_ok_iff.mp h
  have hgenerate : generate backend schema = .ok generated := (Prod.mk.inj h).1
  have hfind : Backend.find config.backend = .ok backend := (Prod.mk.inj hbackend).1
  unfold Backend.find at hfind
  split at hfind
  · cases hfind
    exact ⟨schema, hgenerate⟩
  · cases hfind

theorem check_extension {generated : Generated}
    (h : (check config).outcome world = (.ok generated, world')) : generated.extension = ".h" := by
  obtain ⟨schema, hgenerate⟩ := generate_of_check h
  exact extension_of_generate hgenerate

/-- A run that succeeds has checked the configuration and then written its units. -/
theorem run_ok {summary : Summary} (h : (run config).outcome world = (.ok summary, world')) :
    ∃ generated checked begins written, (check config).outcome world = (.ok generated, checked) ∧
      checked.tree = world.tree ∧
      (writeUnits config.enumOutputDir generated.enums ".h").outcome checked =
        (.ok summary.enumFiles, begins) ∧
      (writeUnits config.structOutputDir generated.structs ".h").outcome begins =
        (.ok summary.structFiles, written) ∧ world'.tree = written.tree := by
  obtain ⟨generated, checked, hcheck, hafter⟩ := Step.outcome_bind_eq_ok_iff.mp h
  obtain ⟨summary', last, hwrite, hnote⟩ := Step.outcome_bind_eq_ok_iff.mp hafter
  rw [Step.outcome_note_bind] at hnote
  cases hnote
  obtain ⟨enumFiles, begins, henums, hrest⟩ := Step.outcome_bind_eq_ok_iff.mp hwrite
  obtain ⟨structFiles, written, hstructs, hpure⟩ := Step.outcome_bind_eq_ok_iff.mp hrest
  cases hpure
  rw [check_extension hcheck] at henums hstructs
  exact ⟨generated, checked, begins, last, hcheck,
    ((check_moves_eq config).of_outcome hcheck).symm, henums, hstructs, rfl⟩

/-- If a run succeeds, its two directories are plain and different and no type name has a
slash, then the directories hold the headers of the enums and of the structs that checking
yields, and the run lists them in order. -/
theorem run_holds {summary : Summary} (hsimple : world.tree.Simple)
    (henum : config.enumOutputDir.Plain) (hstruct : config.structOutputDir.Plain)
    (hne : config.enumOutputDir.names ≠ config.structOutputDir.names)
    (hslash : ∀ generated, ((check config).outcome world).1 = .ok generated →
      ∀ unit ∈ generated.enums ++ generated.structs, '/' ∉ unit.typeName.toList)
    (h : (run config).outcome world = (.ok summary, world')) :
    ∃ generated, ((check config).outcome world).1 = .ok generated ∧
      Holds config.enumOutputDir ".h" generated.enums world'.tree ∧
      Holds config.structOutputDir ".h" generated.structs world'.tree ∧
      summary.enumFiles = generated.enums.map (·.path config.enumOutputDir ".h") ∧
      summary.structFiles = generated.structs.map (·.path config.structOutputDir ".h") := by
  obtain ⟨generated, between, hcheck, hafter⟩ := Step.outcome_bind_eq_ok_iff.mp h
  obtain ⟨summary', last, hwrite, hnote⟩ := Step.outcome_bind_eq_ok_iff.mp hafter
  rw [Step.outcome_note_bind] at hnote
  cases hnote
  have hok : ((check config).outcome world).1 = .ok generated := by rw [hcheck]
  have hbetween : between.tree.Simple := by
    rw [← (check_moves_eq config).of_outcome hcheck]
    exact hsimple
  have hextension := check_extension hcheck
  have hnames : ∀ unit ∈ generated.enums ++ generated.structs,
      IsEntryName (unit.typeName ++ generated.extension) := fun unit hunit => by
    rw [hextension]
    exact isEntryName_header (hslash generated hok unit hunit)
  have hholds := writeGenerated_ok hbetween henum hstruct hne hnames hwrite
  rw [hextension] at hholds
  exact ⟨generated, hok, hholds⟩

/-- Writing structs into a directory in that of the enums, over an earlier header. -/
theorem run_holds_nested :
    let schema := "\x7b\"enum\": [\x7b\"name\": \"a\"\x7d], \"struct\": [\x7b\"name\": \"b\"\x7d]\x7d"
    let tree := ((({} : FileTree).set ["types.json"] (.file (.text schema))).set
      ["out"] .directory).set ["Old.h", "out"] (.file (.text "old"))
    let config : Config :=
      { schema := ⟨"types.json"⟩, outputRoot := ⟨"./out"⟩, enumDir := ⟨""⟩, structDir := ⟨"b"⟩ }
    let after := ((run config).outcome ⟨tree, []⟩).2.tree
    ∃ generated : Generated, Holds config.enumOutputDir ".h" generated.enums after ∧
      Holds config.structOutputDir ".h" generated.structs after := by
  intro schema tree config after
  have hsimple : tree.Simple := by
    refine ((simple_root.set ?_ rfl ?_ ?_).set ?_ rfl ?_ ?_).set ?_ rfl ?_ ?_
    all_goals first | decide | simp
  have hslash : (((check config).outcome ⟨tree, []⟩).1.toOption.all fun generated =>
      (generated.enums ++ generated.structs).all fun unit =>
        !unit.typeName.toList.contains '/') = true := by
    decide +kernel
  have hrun : ((run config).outcome ⟨tree, []⟩).1 =
      .ok ⟨[⟨"./out/A.h"⟩], [⟨"./out/b/B.h"⟩]⟩ := by
    decide +kernel
  obtain ⟨generated, -, henums, hstructs, -⟩ := @run_holds ⟨tree, []⟩ _ config _ hsimple
    ⟨by decide, by decide, by decide⟩ ⟨by decide, by decide, by decide⟩ (by decide)
    (fun generated hcheck unit hunit => by
      rw [hcheck] at hslash
      simpa using List.all_eq_true.mp hslash unit hunit) (Step.outcome_eq_of_fst hrun)
  exact ⟨generated, henums, hstructs⟩

end SchemaHeaders
