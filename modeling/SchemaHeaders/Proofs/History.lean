import SchemaHeaders.Proofs.PlainOutput
import SchemaHeaders.Proofs.SchemaFile

/-!
# Runs one after the other

What a run leaves does not depend on the runs before it (`rerun_history`). A history is a list of
schemas, each put in place of the one before and then run, whether or not the run succeeds.

`FileTree.AfterRuns` says how the tree after a history may differ from the tree before it : by
directories on the way to the two outputs, by files directly in them, and by the schema. Since
nothing is done for the structs before the directory of the enums is there, no difference that is
due to the structs is on the way to the enums. A run that succeeds on the later tree then succeeds
on the earlier one (`Matches.writable`), and wipes the differences out (`SameItems`). A run can be
repeated, and changes nothing then (`run_again`).
-/

namespace SchemaHeaders

open FileTree PathName

variable {m : Type → Type} [Monad m] [FileStore m]

/-! ## Histories -/

/-- Puts a text in place of the schema. -/
def replaceSchema (config : Config) (text : String) : Step m Unit :=
  Step.on config.schema (FileStore.write config.schema text)

/-- Puts a text in place of the schema, and runs. -/
def rerun (config : Config) (text : String) : Step m Summary := do
  replaceSchema config text
  run config

/-- The world after runs with each of some texts in place of the schema. -/
def history (config : Config) : List String → World → World
  | [], world => world
  | text :: texts, world => history config texts ((rerun config text).outcome world).2

variable {config : Config} {world world' : World} {text extension : String} {p : PathName}
  {units : List HeaderUnit} {location : Location} {tree : FileTree}

theorem rerun_of_write (h : world.tree.write config.schema (.text text) = .ok tree) :
    (rerun config text).outcome world = (run config).outcome (world.withTree tree) :=
  Step.outcome_bind_of_ok (Step.outcome_write_eq_ok_iff.mpr ⟨tree, h, rfl⟩)

/-- If the schema cannot be replaced, nothing is done. -/
theorem rerun_of_write_error {cause : IoCause}
    (h : world.tree.write config.schema (.text text) = .error cause) :
    (rerun config text).outcome world = (.error (.io config.schema cause), world) := by
  refine Step.outcome_bind_of_error ?_
  rw [replaceSchema, Step.outcome_on]
  have hrun : (FileStore.write config.schema text : StateM World _).run world =
      (.error cause, world) := World.run_commit_error h
  rw [hrun]
  rfl

/-- Two trees are seen from the same directory and have the same items. -/
structure FileTree.SameItems (tree tree' : FileTree) : Prop where
  current : tree'.current = tree.current
  item : ∀ location, tree'.item? location = tree.item? location

/-! ## Checking -/

/-- What checking yields depends on the text of the schema alone. -/
theorem check_congr (h : world'.tree.read config.schema = world.tree.read config.schema) :
    ((check config).outcome world').1 = ((check config).outcome world).1 := by
  simp only [check, loadSchema, Step.outcome_bind, Step.outcome_decided, Step.outcome_on,
    World.run_read]
  cases config.validate with
  | error => rfl
  | ok =>
    dsimp only
    cases Backend.find config.backend with
    | error => rfl
    | ok backend =>
      dsimp only
      cases Format.ofPath config.schema with
      | error => rfl
      | ok format =>
        dsimp only
        rw [h]
        cases world.tree.read config.schema with
        | error => rfl
        | ok text =>
          simp only [Except.mapError, Step.outcome_of]
          cases format.parse config.schema.text text <;> rfl

/-- Where the text of the schema is that of a tree that was checked, checking yields the same. -/
theorem check_ok_of_read {generated : Generated} {checked : World}
    (hcheck : (check config).outcome world = (.ok generated, checked))
    (h : world'.tree.read config.schema = checked.tree.read config.schema) :
    ∃ checked', (check config).outcome world' = (.ok generated, checked') ∧
      checked'.tree = world'.tree := by
  rw [← (check_moves_eq config).of_outcome hcheck] at h
  have hok : ((check config).outcome world').1 = .ok generated := by rw [check_congr h, hcheck]
  exact ⟨_, Step.outcome_eq_of_fst hok, check_tree config world'⟩

/-- The type names that checking a text yields have no slashes. -/
def NoSlashes (config : Config) (text : String) : Prop :=
  ∀ (world : World) (generated : Generated), world.tree.read config.schema = .ok text →
    ((check config).outcome world).1 = .ok generated →
    ∀ unit ∈ generated.enums ++ generated.structs, '/' ∉ unit.typeName.toList

/-- A run succeeds if checking does and both directories are written. -/
theorem run_of_writeUnits {generated : Generated} {checked begins written : World}
    {enumFiles structFiles : List PathName}
    (hcheck : (check config).outcome world = (.ok generated, checked))
    (henums : (writeUnits config.enumOutputDir generated.enums ".h").outcome checked =
      (.ok enumFiles, begins))
    (hstructs : (writeUnits config.structOutputDir generated.structs ".h").outcome begins =
      (.ok structFiles, written)) :
    ∃ after, (run config).outcome world = (.ok ⟨enumFiles, structFiles⟩, after) ∧
      after.tree = written.tree := by
  have hextension := check_extension hcheck
  refine ⟨written.withEvent (.generationComplete config.schema enumFiles.length structFiles.length),
    Step.outcome_bind_eq_ok_iff.mpr ⟨generated, checked, hcheck, ?_⟩, rfl⟩
  refine Step.outcome_bind_eq_ok_iff.mpr ⟨⟨enumFiles, structFiles⟩, written, ?_, rfl⟩
  rw [writeGenerated, hextension]
  exact Step.outcome_bind_eq_ok_iff.mpr ⟨enumFiles, begins, henums,
    Step.outcome_bind_eq_ok_iff.mpr ⟨structFiles, written, hstructs, rfl⟩⟩

/-! ## Once more -/

namespace FileTree

variable {tree tree' : FileTree}

/-- Units can be written where their headers are. -/
theorem writable_of_holds (hsimple : tree.Simple) (hp : p.Plain)
    (h : Holds p extension units tree)
    (hnames : ∀ unit ∈ units, Follows p (unit.typeName ++ extension)) :
    Writable p extension units tree := by
  obtain ⟨location, hlocate, hitems⟩ := h
  have hdirectory := (directoryOf?_eq_some_iff hp.ne_empty).mpr hlocate
  obtain rfl := address_of_directoryOf? hsimple.linkFree hdirectory
  obtain ⟨hshort, hdir⟩ := (directoryOf?_plain_iff hsimple hp).mp hdirectory
  refine ⟨⟨⟨hshort, .of_directory hsimple.wellFormed hdir, Or.inl hdir⟩, fun name content hfile => ?_⟩,
    hnames, fun unit hunit hover => ?_⟩
  · obtain ⟨unit, hunit, rfl, -⟩ := (hitems name (.file content)).mp ⟨hfile, by simp⟩
    exact hnames unit hunit.mem
  · obtain ⟨last, hlast, hname⟩ := HeaderUnit.exists_lastIn ⟨unit, hunit, rfl⟩
    obtain ⟨hfile, -⟩ := (hitems _ _).mpr ⟨last, hlast, rfl, rfl⟩
    rw [hname, hover] at hfile
    cases hfile

/-- To write units where their headers are leaves everything as it is. -/
theorem sameItems_of_filled (hsimple : tree.Simple) (hp : p.Plain)
    (h : Holds p extension units tree) (hevolves : Evolves tree tree')
    (hfilled : Filled (tree.addressOf p) extension units tree tree') : SameItems tree tree' := by
  obtain ⟨location, hlocate, hitems⟩ := h
  have hdirectory := (directoryOf?_eq_some_iff hp.ne_empty).mpr hlocate
  obtain rfl := address_of_directoryOf? hsimple.linkFree hdirectory
  obtain ⟨-, hdir⟩ := (directoryOf?_plain_iff hsimple hp).mp hdirectory
  refine ⟨hevolves.current, fun l => ?_⟩
  by_cases hway : l <:+ tree.addressOf p
  · rw [hfilled.onWay l hway, hsimple.wellFormed.directory_of_suffix hway hdir]
  by_cases hin : ∃ name, l = name :: tree.addressOf p
  · obtain ⟨name, rfl⟩ := hin
    refine Option.ext fun item => (hfilled.inside name item).trans ?_
    rw [← hitems name item, ← and_or_left, and_iff_left (em _)]
  · push Not at hin
    exact hfilled.elsewhere l hway hin

theorem SameItems.trans {tree'' : FileTree} (h : SameItems tree tree')
    (h' : SameItems tree' tree'') : SameItems tree tree'' :=
  ⟨h'.current.trans h.current, fun l => (h'.item l).trans (h.item l)⟩

end FileTree

/-- Units can be written again where their headers are, and nothing changes then. -/
theorem writeUnits_again (hsimple : world.tree.Simple) (hp : p.Plain)
    (h : Holds p extension units world.tree)
    (hnames : ∀ unit ∈ units, Follows p (unit.typeName ++ extension)) :
    ∃ world', (writeUnits p units extension).outcome world =
      (.ok (units.map (·.path p extension)), world') ∧ SameItems world.tree world'.tree := by
  have hentries : ∀ unit ∈ units, IsEntryName (unit.typeName ++ extension) := fun unit hunit =>
    (hnames unit hunit).isName
  obtain ⟨paths, world', hwrite⟩ :=
    (writeUnits_ok_iff hsimple hp hentries).mpr (writable_of_holds hsimple hp h hnames)
  have hwritten := writtenTo_of_writeUnits hsimple hp hentries hwrite
  rw [hwritten.listed] at hwrite
  exact ⟨world', hwrite, sameItems_of_filled hsimple hp h hwritten.evolves hwritten.filled⟩

/-- A file that is in no directory that units are written to stays. -/
theorem item?_of_filled {directory : Location} {tree tree' : FileTree} {content : Content}
    (hway : tree.NoFileAbove directory) (h : Filled directory extension units tree tree')
    (hfile : tree.item? location = some (.file content)) (hin : ∀ name, location ≠ name :: directory) :
    tree'.item? location = some (.file content) :=
  (h.elsewhere location (fun habove => hway location habove content hfile) hin).trans hfile

/-- What is directly in the directory of a plain path within the limits of paths is an entry of it. -/
theorem FileTree.ne_of_not_entryOf {tree : FileTree} {item : Item} (hsimple : tree.Simple)
    (hp : p.Plain) (hshort : p.Short) (hitem : tree.item? location = some item)
    (h : ¬EntryOf tree p location) (name : String) : location ≠ name :: tree.addressOf p := by
  rintro rfl
  have hdirectory := (directoryOf?_plain_iff hsimple hp).mpr
    ⟨hshort, hsimple.wellFormed.parented hitem⟩
  exact h ⟨_, name, hdirectory, rfl⟩

/-- The output directories are plain and different. -/
structure Config.PlainOutputs (config : Config) : Prop where
  enums : config.enumOutputDir.Plain
  structs : config.structOutputDir.Plain
  differ : config.enumOutputDir.names ≠ config.structOutputDir.names

theorem Config.PlainOutputs.addressOf_ne (h : config.PlainOutputs) (tree : FileTree) :
    tree.addressOf config.enumOutputDir ≠ tree.addressOf config.structOutputDir :=
  fun heq => h.differ (names_eq_of_addressOf h.enums h.structs heq)

/-- The file of the schema is directly in neither output directory. -/
def FileTree.SchemaApart (tree : FileTree) (config : Config) : Prop :=
  ∀ spot, tree.locate config.schema = .ok spot →
    ¬EntryOf tree config.enumOutputDir spot.location ∧
      ¬EntryOf tree config.structOutputDir spot.location

theorem NoSlashes.names {generated : Generated} (h : NoSlashes config text)
    (hread : world.tree.read config.schema = .ok text)
    (hcheck : ((check config).outcome world).1 = .ok generated) :
    (∀ unit ∈ generated.enums, IsEntryName (unit.typeName ++ ".h")) ∧
      ∀ unit ∈ generated.structs, IsEntryName (unit.typeName ++ ".h") := by
  have hslash := h world generated hread hcheck
  exact ⟨fun unit hunit => isEntryName_header (hslash unit (List.mem_append_left _ hunit)),
    fun unit hunit => isEntryName_header (hslash unit (List.mem_append_right _ hunit))⟩

/-- A schema that is apart from the outputs is still there once both have been written. -/
theorem read_schema_of_writtenTo {enums structs : List HeaderUnit}
    {enumFiles structFiles : List PathName} {begins written : World}
    (hsimple : world.tree.Simple) (hout : config.PlainOutputs)
    (hschema : world.tree.SchemaApart config) (hread : world.tree.read config.schema = .ok text)
    (henums : WrittenTo config.enumOutputDir ".h" enums world begins enumFiles)
    (hstructs : WrittenTo config.structOutputDir ".h" structs begins written structFiles) :
    written.tree.read config.schema = .ok text := by
  obtain ⟨location, hlocate⟩ := locate_of_read hread
  obtain ⟨houtside, houtside'⟩ := hschema _ hlocate
  have hfile : world.tree.item? location = some (.file (.text text)) :=
    locate_fits hsimple.wellFormed hlocate
  obtain ⟨hshort, hway, -⟩ := henums.writable.makeable
  obtain ⟨hshort', hway', -⟩ := hstructs.writable.makeable
  have hfilled' := hstructs.filled
  rw [henums.evolves.addressOf] at hway' hfilled'
  have hbetween := item?_of_filled hway henums.filled hfile
    (ne_of_not_entryOf hsimple hout.enums hshort hfile houtside)
  have hafter := item?_of_filled hway' hfilled' hbetween
    (ne_of_not_entryOf hsimple hout.structs hshort' hfile houtside')
  have hways := (henums.evolves.trans hstructs.evolves).waysKept hsimple
  exact (read_iff_of_locate hsimple.linkFree hstructs.simple.linkFree hways hlocate text).mpr hafter

/-- A run that succeeds can be repeated, and changes nothing then. -/
theorem run_again {summary : Summary} {after : World} (hsimple : world.tree.Simple)
    (hout : config.PlainOutputs) (hschema : world.tree.SchemaApart config)
    (hread : world.tree.read config.schema = .ok text) (hslash : NoSlashes config text)
    (h : (run config).outcome world = (.ok summary, after)) :
    ∃ again, (run config).outcome after = (.ok summary, again) ∧
      SameItems after.tree again.tree := by
  obtain ⟨generated, checked, begins, written, hcheck, hchecked, henums, hstructs, htree⟩ := run_ok h
  obtain ⟨henumNames, hstructNames⟩ := hslash.names hread (by rw [hcheck])
  rw [← hchecked] at hsimple hschema hread
  have hfirst := writtenTo_of_writeUnits hsimple hout.enums henumNames henums
  have hsecond := writtenTo_of_writeUnits hfirst.simple hout.structs hstructNames hstructs
  have henumHolds := hfirst.holds.of_writeUnits hfirst.simple (hout.addressOf_ne _) hstructNames
    hstructs
  -- The schema is still there, so checking yields the same headers.
  have hreadAfter := read_schema_of_writtenTo hsimple hout hschema hread hfirst hsecond
  rw [← htree] at hreadAfter
  obtain ⟨checked', hcheck', hchecked'⟩ := check_ok_of_read hcheck (hreadAfter.trans hread.symm)
  have hsame : checked'.tree = written.tree := hchecked'.trans htree
  obtain ⟨begins', henums', hkept⟩ := writeUnits_again (hsame ▸ hsecond.simple) hout.enums
    (hsame ▸ henumHolds) hfirst.writable.names
  have hsimple' := ((writeUnits_evolves _ _ _).of_outcome henums').simple (hsame ▸ hsecond.simple)
  have hstructHolds : Holds config.structOutputDir ".h" generated.structs begins'.tree :=
    Holds.of_writeUnits (hsame ▸ hsecond.holds) (hsame ▸ hsecond.simple)
      (hout.addressOf_ne _).symm henumNames henums'
  obtain ⟨written', hstructs', hkept'⟩ := writeUnits_again hsimple' hout.structs hstructHolds
    hsecond.writable.names
  obtain ⟨again, hrun, hagain⟩ := run_of_writeUnits hcheck' henums' hstructs'
  rw [← hfirst.listed, ← hsecond.listed] at hrun
  refine ⟨again, hrun, ?_⟩
  rw [hagain, ← hchecked']
  exact hkept.trans hkept'

/-! ## What runs leave -/

namespace FileTree

variable {base base' tree tree' tree'' : FileTree}

/-- A location directly in the directory of a path, of a name that the path can have after it. -/
def Removable (tree : FileTree) (p : PathName) (location : Location) : Prop :=
  ∃ name, location = name :: tree.addressOf p ∧ Follows p name

/-- How a tree may differ from an earlier one after runs of a configuration with its schema replaced :
directories may have come on the way to the outputs, and files may have come and gone directly in
them. Nothing that is due to the structs is on the way to the enums. -/
structure AfterRuns (config : Config) (base tree : FileTree) : Prop extends Evolves base tree where
  made : ∀ {location}, tree.item? location = some .directory →
    base.item? location = some .directory ∨ base.OnWay config.enumOutputDir location ∨
      base.OnWay config.structOutputDir location ∧ ¬location <:+ base.addressOf config.enumOutputDir
  gone : ∀ {location content}, base.item? location = some (.file content) →
    tree.item? location = some (.file content) ∨ location = base.addressOf config.schema ∨
      base.Removable config.enumOutputDir location ∨
      base.Removable config.structOutputDir location ∧
        ¬location <:+ base.addressOf config.enumOutputDir
  come : ∀ {location content}, tree.item? location = some (.file content) →
    base.item? location = some (.file content) ∨ location = base.addressOf config.schema ∨
      ∃ name, location = name :: base.addressOf config.enumOutputDir ∨
        location = name :: base.addressOf config.structOutputDir

theorem AfterRuns.replace (h : AfterRuns config base tree) (hsimple : base.Simple)
    {content : Content} (hwrite : tree.write config.schema content = .ok tree') :
    AfterRuns config base tree' := by
  have hevolves := h.toEvolves.trans (write_evolves hwrite)
  obtain ⟨htree, hlocate⟩ := locate_of_write (h.simple hsimple) hwrite
  have hwritten := locate_fits (hevolves.wellFormed hsimple.wellFormed) hlocate
  rw [h.addressOf] at htree hwritten
  have hsame : ∀ {l}, l ≠ base.addressOf config.schema → tree'.item? l = tree.item? l := fun hl => by
    rw [htree, item?_set_of_ne hl]
  refine ⟨hevolves, fun {l} hdir => ?_, fun {l c} hfile => ?_, fun {l c} hfile => ?_⟩
  · by_cases hl : l = base.addressOf config.schema
    · subst hl
      cases hwritten.symm.trans hdir
    · exact h.made ((hsame hl).symm.trans hdir)
  · by_cases hl : l = base.addressOf config.schema
    · exact Or.inr (Or.inl hl)
    · rw [hsame hl]
      exact h.gone hfile
  · by_cases hl : l = base.addressOf config.schema
    · exact Or.inr (Or.inl hl)
    · exact h.come ((hsame hl).symm.trans hfile)

/-- What is disturbed by writing to one of the outputs may be disturbed by runs. -/
theorem AfterRuns.disturbed (h : AfterRuns config base tree) (hevolves : Evolves tree tree')
    (hdisturbed : ∀ location, Disturbed p tree tree' location)
    (hmade : ∀ {location}, tree.item? location ≠ some .directory → base.OnWay p location →
      base.OnWay config.enumOutputDir location ∨ base.OnWay config.structOutputDir location ∧
        ¬location <:+ base.addressOf config.enumOutputDir)
    (hgone : ∀ {location}, tree.item? location ≠ some .directory → base.Removable p location →
      base.Removable config.enumOutputDir location ∨ base.Removable config.structOutputDir location ∧
        ¬location <:+ base.addressOf config.enumOutputDir)
    (hcome : base.addressOf p = base.addressOf config.enumOutputDir ∨
      base.addressOf p = base.addressOf config.structOutputDir) :
    AfterRuns config base tree' := by
  have haddress := h.addressOf p
  refine ⟨h.toEvolves.trans hevolves, fun {l} hdir => ?_, fun {l c} hfile => ?_, fun {l c} hfile => ?_⟩
  · cases hdisturbed l with
    | same hsame => exact h.made (hsame.symm.trans hdir)
    | made hnone _ hway => exact Or.inr (hmade (by simp [hnone]) (h.toEvolves.onWay hway))
    | entry name _ _ _ hnot => exact absurd hdir hnot
  · rcases h.gone hfile with hthere | hgone
    · cases hdisturbed l with
      | same hsame => exact Or.inl (hsame.trans hthere)
      | made hnone _ _ =>
        rw [hthere] at hnone
        cases hnone
      | entry name hlocation hfollows hnot _ =>
        exact Or.inr (Or.inr (hgone hnot ⟨name, haddress ▸ hlocation, hfollows (by simp [hthere])⟩))
    · exact Or.inr hgone
  · cases hdisturbed l with
    | same hsame => exact h.come (hsame.symm.trans hfile)
    | made _ hdir _ => cases hdir.symm.trans hfile
    | entry name hlocation _ _ _ =>
      rw [haddress] at hlocation
      refine Or.inr (Or.inr ⟨name, ?_⟩)
      rcases hcome with heq | heq <;> rw [← heq]
      · exact Or.inl hlocation
      · exact Or.inr hlocation

end FileTree

section Run

variable {base : FileTree} {result : Except Failure (List PathName)}

/-- However writing the enums ends, it leaves what runs may leave. -/
theorem afterRuns_writeEnums (hbase : base.Simple) (h : AfterRuns config base world.tree)
    (hout : config.PlainOutputs) (hnames : ∀ unit ∈ units, IsEntryName (unit.typeName ++ ".h"))
    (hwrite : (writeUnits config.enumOutputDir units ".h").outcome world = (result, world')) :
    AfterRuns config base world'.tree :=
  h.disturbed ((writeUnits_evolves _ _ _).of_outcome hwrite)
    (writeUnits_disturbs (h.simple hbase) hout.enums.downward hnames hwrite)
    (fun _ hway => Or.inl hway) (fun _ hremovable => Or.inl hremovable) (Or.inl rfl)

/-- However writing the structs ends, it leaves what runs may leave, if the directory of the enums
is there. -/
theorem afterRuns_writeStructs (hbase : base.Simple) (h : AfterRuns config base world.tree)
    (hout : config.PlainOutputs) (hnames : ∀ unit ∈ units, IsEntryName (unit.typeName ++ ".h"))
    (hthere : ∀ above, above <:+ world.tree.addressOf config.enumOutputDir →
      world.tree.item? above = some .directory)
    (hwrite : (writeUnits config.structOutputDir units ".h").outcome world = (result, world')) :
    AfterRuns config base world'.tree := by
  rw [h.addressOf] at hthere
  exact h.disturbed ((writeUnits_evolves _ _ _).of_outcome hwrite)
    (writeUnits_disturbs (h.simple hbase) hout.structs.downward hnames hwrite)
    (fun hnot hway => Or.inr ⟨hway, fun habove => hnot (hthere _ habove)⟩)
    (fun hnot hremovable => Or.inr ⟨hremovable, fun habove => hnot (hthere _ habove)⟩) (Or.inr rfl)

/-- However a run ends, it leaves what runs may leave. -/
theorem afterRuns_run {result : Except Failure Summary} (hbase : base.Simple)
    (h : AfterRuns config base world.tree) (hout : config.PlainOutputs)
    (hread : world.tree.read config.schema = .ok text) (hslash : NoSlashes config text)
    (hrun : (run config).outcome world = (result, world')) :
    AfterRuns config base world'.tree := by
  rcases Step.outcome_bind_cases hrun with ⟨_, hcheck, -⟩ | ⟨generated, checked, hcheck, hrun⟩
  · rwa [← (check_moves_eq config).of_outcome hcheck]
  obtain ⟨henumNames, hstructNames⟩ := hslash.names hread (by rw [hcheck])
  rw [(check_moves_eq config).of_outcome hcheck] at h
  rw [writeGenerated, check_extension hcheck, bind_assoc] at hrun
  rcases Step.outcome_bind_cases hrun with ⟨_, hfail, -⟩ | ⟨_, begins, henums, hrun⟩
  · exact afterRuns_writeEnums hbase h hout henumNames hfail
  have hbegins := afterRuns_writeEnums hbase h hout henumNames henums
  obtain ⟨-, hfilled⟩ := filled_of_writeUnits (h.simple hbase) hout.enums.downward henumNames henums
  rw [h.addressOf, ← hbegins.addressOf] at hfilled
  rw [bind_assoc] at hrun
  rcases Step.outcome_bind_cases hrun with ⟨_, hfail, -⟩ | ⟨_, written, hstructs, hnote⟩
  · exact afterRuns_writeStructs hbase hbegins hout hstructNames hfilled.onWay hfail
  · cases hnote
    have hwritten := afterRuns_writeStructs hbase hbegins hout hstructNames hfilled.onWay hstructs
    exact hwritten

/-- Runs one after the other leave what runs may leave. -/
theorem afterRuns_history (hbase : base.Simple) (hout : config.PlainOutputs) :
    ∀ (texts : List String) (world : World), AfterRuns config base world.tree →
      (∀ text ∈ texts, NoSlashes config text) →
      AfterRuns config base (history config texts world).tree
  | [], _, h, _ => h
  | text :: texts, world, h, hslash => by
    refine afterRuns_history hbase hout texts _ ?_ fun t ht => hslash t (List.mem_cons_of_mem _ ht)
    cases hwrite : world.tree.write config.schema (.text text) with
    | error cause => rwa [rerun_of_write_error hwrite]
    | ok tree =>
      rw [rerun_of_write hwrite]
      obtain ⟨-, hlocate⟩ := locate_of_write (h.simple hbase) hwrite
      have hread : tree.read config.schema = .ok text := by rw [FileTree.read, hlocate]
      exact @afterRuns_run _ (world.withTree tree) _ _ _ _ hbase (h.replace hbase hwrite) hout hread
        (hslash text (List.mem_cons_self ..)) rfl

end Run

/-! ## Runs on the earlier tree -/

namespace FileTree

variable {base base' tree' : FileTree} {enums structs : List HeaderUnit}

/-- On the way to a plain path and directly in its directory, a tree differs from an earlier one only
as writing to the path may have made it differ. -/
structure Matches (p : PathName) (base tree : FileTree) : Prop where
  address : tree.addressOf p = base.addressOf p
  kept : ∀ name, base.item? (name :: base.addressOf p) = some .directory →
    tree.item? (name :: base.addressOf p) = some .directory
  made : tree.item? (base.addressOf p) = some .directory →
    base.item? (base.addressOf p) = some .directory ∨ p.EndsInName
  onWay : ∀ above content, above <:+ base.addressOf p →
    base.item? above = some (.file content) → tree.item? above = some (.file content)
  inside : ∀ name content, base.item? (name :: base.addressOf p) = some (.file content) →
    tree.item? (name :: base.addressOf p) = some (.file content) ∨ Follows p name

/-- What can be written to a plain path in a tree can be written in the earlier one. -/
theorem Matches.writable (hmatches : Matches p base tree) (h : Writable p extension units tree) :
    Writable p extension units base := by
  obtain ⟨⟨⟨hshort, hway, hend⟩, hremovable⟩, hnames, hnotOver⟩ := h
  rw [hmatches.address] at hway hend hremovable hnotOver
  refine ⟨⟨⟨hshort, fun above habove content hfile => ?_, ?_⟩, fun name content hfile => ?_⟩, hnames,
    fun unit hunit hover => hnotOver unit hunit (hmatches.kept _ hover)⟩
  · exact hway above habove content (hmatches.onWay above content habove hfile)
  · exact hend.elim hmatches.made Or.inr
  · exact (hmatches.inside name content hfile).elim (hremovable name content) id

/-- What runs have left matches the earlier tree for the enums, if the schema is the same. -/
theorem AfterRuns.matches_enums (h : AfterRuns config base tree) (hbase : base.Simple)
    (hout : config.PlainOutputs)
    (hschema : tree.item? (base.addressOf config.schema) = base.item? (base.addressOf config.schema)) :
    Matches config.enumOutputDir base tree := by
  have hgone : ∀ location content, base.item? location = some (.file content) →
      tree.item? location = some (.file content) ∨ base.Removable config.enumOutputDir location ∨
        base.Removable config.structOutputDir location ∧
          ¬location <:+ base.addressOf config.enumOutputDir := by
    intro location content hfile
    rcases h.gone hfile with hthere | rfl | hremovable
    · exact Or.inl hthere
    · exact Or.inl (hschema.trans hfile)
    · exact Or.inr hremovable
  refine ⟨h.addressOf _, fun _ => h.directories hbase.wellFormed, fun hdir => ?_,
    fun above content habove hfile => ?_, fun name content hfile => ?_⟩
  · rcases h.made hdir with hthere | hway | ⟨-, hnot⟩
    · exact Or.inl hthere
    · exact Or.inr (hway.named rfl)
    · exact absurd (List.suffix_refl _) hnot
  · rcases hgone above content hfile with hthere | ⟨name, rfl, -⟩ | ⟨-, hnot⟩
    · exact hthere
    · exact absurd habove.length_le (by simp)
    · exact absurd habove hnot
  · rcases hgone _ content hfile with hthere | ⟨other, heq, hfollows⟩ | ⟨⟨other, heq, -⟩, -⟩
    · exact Or.inl hthere
    · obtain rfl := (List.cons.inj heq).1
      exact Or.inr hfollows
    · exact absurd (List.cons.inj heq).2 (hout.addressOf_ne base)

/-- Once the same units are written to two trees, a file of the one is in the other as well, or it was
there before and is not in the directory of the units. -/
theorem Filled.file_cases {directory : Location} {units : List HeaderUnit}
    {one one' other other' : FileTree} {content : Content}
    (hone : Filled directory extension units one one')
    (hother : Filled directory extension units other other')
    (hfile : one'.item? location = some (.file content)) :
    other'.item? location = some (.file content) ∨
      one.item? location = some (.file content) ∧ other'.item? location = other.item? location ∧
        ∀ name, location ≠ name :: directory := by
  by_cases hway : location <:+ directory
  · cases (hone.onWay _ hway).symm.trans hfile
  by_cases hin : ∃ name, location = name :: directory
  · obtain ⟨name, rfl⟩ := hin
    rcases (hone.inside _ _).mp hfile with ⟨-, hdir⟩ | hheader
    · cases hdir
    · exact Or.inl ((hother.inside _ _).mpr (Or.inr hheader))
  · push Not at hin
    rw [hone.elsewhere _ hway hin] at hfile
    exact Or.inr ⟨hfile, hother.elsewhere _ hway hin, hin⟩

section Filled

variable (h : AfterRuns config base tree)
  (hfilled : Filled (base.addressOf config.enumOutputDir) extension enums base base')
  (hfilled' : Filled (base.addressOf config.enumOutputDir) extension enums tree tree')
include h hfilled hfilled'

/-- Once the enums are written to both, what runs have left has the directories of the earlier
tree, and those on the way to the structs. -/
theorem AfterRuns.directory_of_filled (hdir : tree'.item? location = some .directory) :
    base'.item? location = some .directory ∨ base.OnWay config.structOutputDir location := by
  by_cases hway : location <:+ base.addressOf config.enumOutputDir
  · exact Or.inl (hfilled.onWay _ hway)
  have hmade : tree.item? location = some .directory →
      base.item? location = some .directory ∨ base.OnWay config.structOutputDir location := by
    intro hdir
    rcases h.made hdir with hthere | hon | ⟨hon, -⟩
    · exact Or.inl hthere
    · exact absurd hon.suffix hway
    · exact Or.inr hon
  by_cases hin : ∃ name, location = name :: base.addressOf config.enumOutputDir
  · obtain ⟨name, rfl⟩ := hin
    rcases (hfilled'.inside _ _).mp hdir with ⟨hthere, -⟩ | ⟨_, -, -, hfile⟩
    · exact (hmade hthere).imp_left fun hthere => (hfilled.inside _ _).mpr (Or.inl ⟨hthere, rfl⟩)
    · cases hfile
  · push Not at hin
    rw [hfilled'.elsewhere _ hway hin] at hdir
    rw [hfilled.elsewhere _ hway hin]
    exact hmade hdir

theorem AfterRuns.directory_of_filled_base (hbase : base.Simple)
    (hdir : base'.item? location = some .directory) : tree'.item? location = some .directory := by
  by_cases hway : location <:+ base.addressOf config.enumOutputDir
  · exact hfilled'.onWay _ hway
  by_cases hin : ∃ name, location = name :: base.addressOf config.enumOutputDir
  · obtain ⟨name, rfl⟩ := hin
    rcases (hfilled.inside _ _).mp hdir with ⟨hthere, -⟩ | ⟨_, -, -, hfile⟩
    · exact (hfilled'.inside _ _).mpr (Or.inl ⟨h.directories hbase.wellFormed hthere, rfl⟩)
    · cases hfile
  · push Not at hin
    rw [hfilled.elsewhere _ hway hin] at hdir
    rw [hfilled'.elsewhere _ hway hin]
    exact h.directories hbase.wellFormed hdir

/-- Once the enums are written to both, the files of the earlier tree are there, but for those
directly in the directory of the structs. -/
theorem AfterRuns.file_of_filled_base {content : Content}
    (hschema : tree.item? (base.addressOf config.schema) = base.item? (base.addressOf config.schema))
    (hfile : base'.item? location = some (.file content)) :
    tree'.item? location = some (.file content) ∨
      base.Removable config.structOutputDir location := by
  rcases hfilled.file_cases hfilled' hfile with hthere | ⟨hfile, hsame, hin⟩
  · exact Or.inl hthere
  · rw [hsame]
    rcases h.gone hfile with hthere | rfl | ⟨name, hlocation, -⟩ | ⟨hremovable, -⟩
    · exact Or.inl hthere
    · exact Or.inl (hschema.trans hfile)
    · exact absurd hlocation (hin name)
    · exact Or.inr hremovable

/-- Once the enums are written to both, what runs have left has the files of the earlier tree, and
those directly in the directory of the structs. -/
theorem AfterRuns.file_of_filled {content : Content}
    (hschema : tree.item? (base.addressOf config.schema) = base.item? (base.addressOf config.schema))
    (hfile : tree'.item? location = some (.file content)) :
    base'.item? location = some (.file content) ∨
      ∃ name, location = name :: base.addressOf config.structOutputDir := by
  rcases hfilled'.file_cases hfilled hfile with hthere | ⟨hfile, hsame, hin⟩
  · exact Or.inl hthere
  · rw [hsame]
    rcases h.come hfile with hthere | rfl | ⟨name, hlocation | hlocation⟩
    · exact Or.inl hthere
    · exact Or.inl (hschema.symm.trans hfile)
    · exact absurd hlocation (hin name)
    · exact Or.inr ⟨name, hlocation⟩

/-- What runs have left matches the earlier tree for the structs, once the enums are written to
both. -/
theorem AfterRuns.matches_structs (hbase : base.Simple)
    (hschema : tree.item? (base.addressOf config.schema) = base.item? (base.addressOf config.schema))
    (haddress : base'.addressOf config.structOutputDir = base.addressOf config.structOutputDir)
    (haddress' : tree'.addressOf config.structOutputDir = base.addressOf config.structOutputDir) :
    Matches config.structOutputDir base' tree' := by
  refine ⟨haddress'.trans haddress.symm, fun name => ?_, fun hdir => ?_,
    fun above content habove hfile => ?_, fun name content hfile => ?_⟩
  · exact h.directory_of_filled_base hfilled hfilled' hbase
  · rw [haddress] at hdir ⊢
    exact (h.directory_of_filled hfilled hfilled' hdir).imp_right fun hon => hon.named rfl
  · rcases h.file_of_filled_base hfilled hfilled' hschema hfile with hthere | ⟨name, rfl, -⟩
    · exact hthere
    · rw [haddress] at habove
      exact absurd habove.length_le (by simp)
  · rcases h.file_of_filled_base hfilled hfilled' hschema hfile with hthere | ⟨other, heq, hfollows⟩
    · exact Or.inl hthere
    · obtain rfl := (List.cons.inj heq).1
      exact Or.inr hfollows

/-- Once enums and structs are written to both, nothing that runs have left is different from the
earlier tree. -/
theorem AfterRuns.item?_of_filled {base'' tree'' : FileTree} (hbase : base.Simple)
    (hbase' : base'.LinkFree) (htree' : tree'.LinkFree)
    (hschema : tree.item? (base.addressOf config.schema) = base.item? (base.addressOf config.schema))
    (hstructs : Filled (base.addressOf config.structOutputDir) extension structs base' base'')
    (hstructs' : Filled (base.addressOf config.structOutputDir) extension structs tree' tree'')
    (location : Location) : tree''.item? location = base''.item? location := by
  by_cases hway : location <:+ base.addressOf config.structOutputDir
  · rw [hstructs.onWay _ hway, hstructs'.onWay _ hway]
  have hdir : tree'.item? location = some .directory ↔ base'.item? location = some .directory :=
    ⟨fun hdir => (h.directory_of_filled hfilled hfilled' hdir).resolve_right fun hon =>
      hway hon.suffix, h.directory_of_filled_base hfilled hfilled' hbase⟩
  by_cases hin : ∃ name, location = name :: base.addressOf config.structOutputDir
  · obtain ⟨name, rfl⟩ := hin
    refine Option.ext fun item => ?_
    rw [hstructs.inside, hstructs'.inside]
    refine or_congr_left (and_congr_left ?_)
    rintro rfl
    exact hdir
  · push Not at hin
    rw [hstructs.elsewhere _ hway hin, hstructs'.elsewhere _ hway hin]
    refine Option.ext fun item => ?_
    cases item with
    | directory => exact hdir
    | file content =>
      refine ⟨fun hfile => ?_, fun hfile => ?_⟩
      · exact (h.file_of_filled hfilled hfilled' hschema hfile).resolve_right fun ⟨name, hname⟩ =>
          hin name hname
      · exact (h.file_of_filled_base hfilled hfilled' hschema hfile).resolve_right
          fun ⟨name, hname, _⟩ => hin name hname
    | link target => exact iff_of_false (htree' _ _) (hbase' _ _)

end Filled

end FileTree

/-- A run that succeeds after others succeeds on the earlier tree, with the same headers, and leaves
the same items. -/
theorem run_of_afterRuns {base after : World} {summary : Summary} (hbase : base.tree.Simple)
    (h : AfterRuns config base.tree world.tree) (hout : config.PlainOutputs)
    (hschema : world.tree.item? (base.tree.addressOf config.schema) =
      base.tree.item? (base.tree.addressOf config.schema))
    (hread : world.tree.read config.schema = .ok text)
    (hread' : base.tree.read config.schema = .ok text) (hslash : NoSlashes config text)
    (hrun : (run config).outcome world = (.ok summary, after)) :
    ∃ once, (run config).outcome base = (.ok summary, once) ∧ SameItems once.tree after.tree := by
  obtain ⟨generated, checked, begins, written, hcheck, hchecked, henums, hstructs, htree⟩ :=
    run_ok hrun
  obtain ⟨henumNames, hstructNames⟩ := hslash.names hread (by rw [hcheck])
  rw [← hchecked] at h hschema hread
  have hfirst := writtenTo_of_writeUnits (h.simple hbase) hout.enums henumNames henums
  have hsecond := writtenTo_of_writeUnits hfirst.simple hout.structs hstructNames hstructs
  have hfilled := hfirst.filled
  have hfilled' := hsecond.filled
  rw [h.addressOf] at hfilled
  rw [hfirst.evolves.addressOf, h.addressOf] at hfilled'
  -- The earlier tree is checked, and the enums are written to it.
  obtain ⟨checked', hcheck', hchecked'⟩ := check_ok_of_read hcheck (hread'.trans hread.symm)
  rw [← hchecked'] at h hbase hschema hfilled hfilled'
  obtain ⟨enumFiles, begins', henums'⟩ := (writeUnits_ok_iff hbase hout.enums henumNames).mpr
    ((h.matches_enums hbase hout hschema).writable hfirst.writable)
  have hfirst' := writtenTo_of_writeUnits hbase hout.enums henumNames henums'
  -- Then the structs are.
  have hmatches := h.matches_structs hfirst'.filled hfilled hbase hschema
    (hfirst'.evolves.addressOf _) ((hfirst.evolves.addressOf _).trans (h.addressOf _))
  obtain ⟨structFiles, written', hstructs'⟩ :=
    (writeUnits_ok_iff hfirst'.simple hout.structs hstructNames).mpr
      (hmatches.writable hsecond.writable)
  have hsecond' := writtenTo_of_writeUnits hfirst'.simple hout.structs hstructNames hstructs'
  have hbase' := hsecond'.filled
  rw [hfirst'.evolves.addressOf] at hbase'
  obtain ⟨once, honce, hlast⟩ := run_of_writeUnits hcheck' henums' hstructs'
  rw [hfirst'.listed, hsecond'.listed, ← hfirst.listed, ← hsecond.listed] at honce
  refine ⟨once, honce, ?_⟩
  rw [hlast, htree]
  refine ⟨?_, h.item?_of_filled hfirst'.filled hfilled hbase hfirst'.simple.linkFree
    hfirst.simple.linkFree hschema hbase' hfilled'⟩
  rw [hsecond.evolves.current, hfirst.evolves.current, h.current, hsecond'.evolves.current,
    hfirst'.evolves.current]

/-! ## Histories do not matter -/

namespace FileTree

variable {tree' : FileTree} {content : Content}

/-- Whether a path can be written does not depend on the content. -/
theorem write_error {path : PathName} {cause : IoCause}
    (h : tree.write path content = .error cause) (content' : Content) :
    tree.write path content' = .error cause := by
  unfold write at h ⊢
  split
  · rwa [if_pos ‹_›] at h
  · rw [if_neg ‹_›] at h
    split at h <;> simp_all

/-- A tree is like what runs leave of the tree in which its schema is replaced. -/
theorem afterRuns_of_replaced (hsimple : tree.Simple)
    (h : tree.write config.schema content = .ok tree') : AfterRuns config tree' tree := by
  have hevolves := write_evolves h
  obtain ⟨htree, hlocate⟩ := locate_of_write hsimple h
  have hwritten := locate_fits (hevolves.wellFormed hsimple.wellFormed) hlocate
  have hsame : ∀ {l}, l ≠ tree.addressOf config.schema → tree'.item? l = tree.item? l := fun hl => by
    rw [htree, item?_set_of_ne hl]
  refine ⟨⟨hevolves.current.symm, fun _ => hsimple.wellFormed, fun _ _ => hsimple.linkFree,
    fun _ {l} hdir => ?_⟩, fun {l} hdir => Or.inl (hevolves.directories hsimple.wellFormed hdir),
    fun {l c} hfile => ?_, fun {l c} hfile => ?_⟩
  · by_cases hl : l = tree.addressOf config.schema
    · subst hl
      cases hwritten.symm.trans hdir
    · exact (hsame hl).symm.trans hdir
  all_goals
    rw [hevolves.addressOf]
    by_cases hl : l = tree.addressOf config.schema
    · exact Or.inr (Or.inl hl)
    · exact Or.inl (by rw [← hfile, hsame hl])

/-- A schema that is apart from the outputs is so after runs. -/
theorem SchemaApart.replaced {base : FileTree} {text : String} (h : base.SchemaApart config)
    (hout : config.PlainOutputs) (hsimple : base.Simple) (hevolves : Evolves base tree)
    (hbase : base.write config.schema (.text text) = .ok tree')
    (hlocate : tree.locate config.schema =
      .ok (.found (base.addressOf config.schema) (.file content))) :
    tree.SchemaApart config := by
  obtain ⟨spot, hspot, hitem, -⟩ := write_spot hbase
  have haddress : spot.location = base.addressOf config.schema :=
    location_of_walkPieces hsimple.linkFree _ _ (reach_eq_ok_iff.mp hspot).2
  obtain ⟨name, parent, hlocation, -, hparent⟩ :=
    (locate_fits hsimple.wellFormed hspot).exists_parent hsimple.wellFormed hitem
  have hnot := h spot hspot
  have hentry : ∀ {p : PathName}, p.Plain → ¬EntryOf base p spot.location →
      ¬EntryOf tree p spot.location := by
    rintro p hp hnot ⟨directory, name', hdirectory, heq⟩
    obtain rfl := address_of_directoryOf? (hevolves.simple hsimple).linkFree hdirectory
    obtain ⟨hshort, -⟩ := (directoryOf?_plain_iff (hevolves.simple hsimple) hp).mp hdirectory
    rw [hlocation, hevolves.addressOf] at heq
    refine hnot ⟨base.addressOf p, name, (directoryOf?_plain_iff hsimple hp).mpr ⟨hshort, ?_⟩, ?_⟩
    · rw [← (List.cons.inj heq).2]
      exact hparent
    · rw [hlocation, (List.cons.inj heq).2]
  intro other hother
  rw [hlocate] at hother
  cases hother
  rw [haddress] at hnot hentry
  exact ⟨hentry hout.enums hnot.1, hentry hout.structs hnot.2⟩

end FileTree

/-- If the schema cannot be replaced, a history changes nothing. -/
theorem history_of_write_error (h : ∀ text, ∃ cause,
    world.tree.write config.schema (.text text) = .error cause) :
    ∀ texts, history config texts world = world
  | [] => rfl
  | text :: texts => by
    obtain ⟨cause, hwrite⟩ := h text
    rw [history, rerun_of_write_error hwrite]
    exact history_of_write_error h texts

/-- What a run that succeeds leaves, and the headers that it lists, do not depend on the runs before
it : with the same schema it succeeds on the tree before all of them as well. A run that is repeated
changes nothing. -/
theorem rerun_history {texts : List String} {last : String} {summary : Summary} {after : World}
    (hsimple : world.tree.Simple) (hout : config.PlainOutputs)
    (hschema : world.tree.SchemaApart config)
    (hslash : ∀ text ∈ texts ++ [last], NoSlashes config text)
    (h : (rerun config last).outcome (history config texts world) = (.ok summary, after)) :
    ∃ once, (rerun config last).outcome world = (.ok summary, once) ∧
      SameItems once.tree after.tree ∧
      ∃ again, (run config).outcome after = (.ok summary, again) ∧
        SameItems after.tree again.tree := by
  have hlast := hslash last (by simp)
  cases hwrite : (history config texts world).tree.write config.schema (.text last) with
  | error cause =>
    rw [rerun_of_write_error hwrite] at h
    cases h
  | ok tree =>
  rw [rerun_of_write hwrite] at h
  cases hbase : world.tree.write config.schema (.text last) with
  | error cause =>
    rw [history_of_write_error fun text => ⟨cause, write_error hbase (.text text)⟩, hbase] at hwrite
    cases hwrite
  | ok base =>
  rw [rerun_of_write hbase]
  have hevolves := write_evolves hbase
  have hsimple' := hevolves.simple hsimple
  have hhistory := afterRuns_history hsimple' hout texts world (afterRuns_of_replaced hsimple hbase)
    fun text htext => hslash text (List.mem_append_left _ htext)
  have hreplaced := hhistory.replace hsimple' hwrite
  obtain ⟨-, hlocate⟩ := locate_of_write (hhistory.simple hsimple') hwrite
  obtain ⟨-, hlocate'⟩ := locate_of_write hsimple hbase
  rw [hhistory.addressOf, hevolves.addressOf] at hlocate
  have hread : tree.read config.schema = .ok last := by rw [FileTree.read, hlocate]
  have hread' : base.read config.schema = .ok last := by rw [FileTree.read, hlocate']
  have hsame : tree.item? (base.addressOf config.schema) =
      base.item? (base.addressOf config.schema) := by
    have hitem := locate_fits (hreplaced.wellFormed hsimple'.wellFormed) hlocate
    have hitem' := locate_fits hsimple'.wellFormed hlocate'
    rw [hevolves.addressOf]
    exact hitem.trans hitem'.symm
  obtain ⟨once, honce, hitems⟩ := @run_of_afterRuns _ ((history config texts world).withTree tree) _
    (world.withTree base) _ _ hsimple' hreplaced hout hsame hread hread' hlast h
  have hapart := hschema.replaced hout hsimple (hevolves.trans hreplaced.toEvolves) hbase hlocate
  exact ⟨once, honce, hitems, @run_again _ ((history config texts world).withTree tree) _ _ _
    (hreplaced.simple hsimple') hout hapart hread hlast h⟩

/-! ## A history with failures -/

/-- A tree with nothing but a schema in it. -/
def FileTree.lone (text : String) : FileTree :=
  ({} : FileTree).set ["types.json"] (.file (.text text))

/-- The structs go where the header of an enum could be. -/
def Config.nested : Config :=
  { schema := ⟨"types.json"⟩, outputRoot := ⟨"out"⟩, enumDir := ⟨"e"⟩, structDir := ⟨"e/A.h"⟩ }

/-- A schema with one enum. -/
def oneEnum (name : String) : String :=
  "\x7b\"enum\": [\x7b\"name\": \"" ++ name ++ "\"\x7d], \"struct\": []\x7d"

theorem simple_lone : (FileTree.lone "").Simple := by
  refine simple_root.set ?_ rfl ?_ ?_
  all_goals first | decide | simp

theorem noSlashes_of_check (hread : world.tree.read config.schema = .ok text)
    (h : (((check config).outcome world).1.toOption.all fun generated =>
      (generated.enums ++ generated.structs).all fun unit =>
        !unit.typeName.toList.contains '/') = true) : NoSlashes config text := by
  intro world' generated hread' hcheck unit hunit
  rw [check_congr (hread'.trans hread.symm)] at hcheck
  rw [hcheck] at h
  simpa using List.all_eq_true.mp h unit hunit

theorem schemaApart_lone : (FileTree.lone "").SchemaApart .nested := by
  have hnone : (FileTree.lone "").directoryOf? Config.nested.enumOutputDir = none ∧
      (FileTree.lone "").directoryOf? Config.nested.structOutputDir = none := by
    decide
  refine fun _ _ => ⟨?_, ?_⟩ <;> rintro ⟨directory, _, hdirectory, -⟩
  · cases hnone.1.symm.trans hdirectory
  · cases hnone.2.symm.trans hdirectory

/-- A text that is no schema, then a schema of which the header is in the way of the structs, so that
the run fails with the header written, then one of which it is not. -/
theorem rerun_history_nested :
    ((rerun .nested (oneEnum "a")).outcome ⟨.lone "", []⟩).1 =
        .error (.io ⟨"out/e/A.h"⟩ .notADirectory) ∧
      ∃ once, (rerun .nested (oneEnum "b")).outcome ⟨.lone "", []⟩ =
          (.ok ⟨[⟨"out/e/B.h"⟩], []⟩, once) ∧
        SameItems once.tree ((rerun .nested (oneEnum "b")).outcome
          (history .nested ["", oneEnum "a"] ⟨.lone "", []⟩)).2.tree := by
  have hslash : ∀ text ∈ ["", oneEnum "a"] ++ [oneEnum "b"], NoSlashes .nested text := by
    intro text htext
    simp only [List.cons_append, List.nil_append, List.mem_cons, List.not_mem_nil, or_false] at htext
    rcases htext with rfl | rfl | rfl
    · exact @noSlashes_of_check _ ⟨.lone "", []⟩ _ (by decide +kernel) (by decide +kernel)
    · exact @noSlashes_of_check _ ⟨.lone (oneEnum "a"), []⟩ _ (by decide +kernel) (by decide +kernel)
    · exact @noSlashes_of_check _ ⟨.lone (oneEnum "b"), []⟩ _ (by decide +kernel) (by decide +kernel)
  have hafter : ((rerun .nested (oneEnum "b")).outcome
      (history .nested ["", oneEnum "a"] ⟨.lone "", []⟩)).1 = .ok ⟨[⟨"out/e/B.h"⟩], []⟩ := by
    decide +kernel
  have hout : Config.nested.PlainOutputs :=
    ⟨⟨by decide, by decide, by decide⟩, ⟨by decide, by decide, by decide⟩, by decide⟩
  obtain ⟨once, honce, hsame, -⟩ :=
    @rerun_history .nested ⟨.lone "", []⟩ ["", oneEnum "a"] (oneEnum "b") ⟨[⟨"out/e/B.h"⟩], []⟩ _
      simple_lone hout schemaApart_lone hslash (Step.outcome_eq_of_fst hafter)
  exact ⟨by decide +kernel, once, honce, hsame⟩

end SchemaHeaders
