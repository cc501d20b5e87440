import SchemaHeaders.Proofs.Checking
import SchemaHeaders.Proofs.Settings
import SchemaHeaders.Proofs.Tree

/-!
# Layers of settings

The configuration of a run has three layers : the options, the settings of one file, and the
defaults. `Options.source?` is the file, and it is the only one that is read (`watched_resolve`). If
it cannot be read, or its text is `Config.Unusable`, then there is no configuration, whatever the
options are; else `Config.Sets` says what its text sets. `resolve_layers` puts the layers together
field by field, as `Layered` says.

If the options name the file, then no other one matters, the usual one among them : a file with
another content leads no path elsewhere (`FileTree.locate_set_file`).
-/

namespace SchemaHeaders

/-! ## The content of one file -/

namespace FileTree

variable {tree : FileTree} {location : Location} {old content : Content} {final : Bool}
  {path : PathName}

/-- An item, with another content if it is a file at the given location. -/
def itemWith (location : Location) (content : Content) (l : Location) : Item → Item
  | .file c => .file (if l = location then content else c)
  | item => item

/-- A spot, with another content if it is a file at the given location. -/
def spotWith (location : Location) (content : Content) : Spot → Spot
  | .found l item => .found l (itemWith location content l item)
  | spot => spot

theorem item?_set_file (h : tree.item? location = some (.file old)) (content : Content)
    (l : Location) :
    (tree.set location (.file content)).item? l =
      (tree.item? l).map (itemWith location content l) := by
  by_cases hl : l = location
  · subst hl
    cases l with
    | nil => cases h
    | cons name parent => simp [item?_set_self, h, itemWith]
  · rw [item?_set_of_ne hl]
    cases tree.item? l with
    | none => rfl
    | some item => cases item <;> simp [itemWith, hl]

/-- A walk goes the same way, since it ends at a file whatever that holds. -/
theorem walkPieces_set_file (h : tree.item? location = some (.file old))
    {follow follow' : Location → List (List Char) → Except IoCause Spot}
    (hfollow : ∀ directory pieces,
      follow' directory pieces = (follow directory pieces).map (spotWith location content)) :
    ∀ (directory : Location) (pieces : List (List Char)),
      (tree.set location (.file content)).walkPieces final follow' directory pieces =
        (tree.walkPieces final follow directory pieces).map (spotWith location content)
  | _, [] => rfl
  | directory, piece :: pieces => by
    have ih := fun next => walkPieces_set_file h hfollow next pieces
    rw [walkPieces, walkPieces]
    by_cases hhere : piece = [] ∨ piece = ['.']
    · rw [if_pos hhere, if_pos hhere]
      exact ih directory
    rw [if_neg hhere, if_neg hhere]
    by_cases hup : piece = ['.', '.']
    · rw [if_pos hup, if_pos hup]
      exact ih directory.tail
    rw [if_neg hup, if_neg hup]
    dsimp only
    by_cases hlong : nameLimit < (String.ofList piece).utf8ByteSize
    · rw [if_pos hlong, if_pos hlong]
      rfl
    -- what is left depends on the item of that name alone, and only a file can differ
    rw [if_neg hlong, if_neg hlong, item?_set_file h]
    cases tree.item? (String.ofList piece :: directory) with
    | none =>
      rw [Option.map_none]
      dsimp only
      split <;> rfl
    | some item =>
      rw [Option.map_some]
      cases item with
      | directory => exact ih _
      | file c =>
        dsimp only [itemWith]
        split <;> rfl
      | link target =>
        dsimp only [itemWith]
        split
        · rfl
        · exact hfollow _ _

theorem walk_set_file (h : tree.item? location = some (.file old)) (final : Bool) :
    ∀ (n : Nat) (directory : Location) (pieces : List (List Char)),
      (tree.set location (.file content)).walk final n directory pieces =
        (tree.walk final n directory pieces).map (spotWith location content)
  | 0, _, _ => rfl
  | n + 1, directory, pieces => walkPieces_set_file h (walk_set_file h final n) directory pieces

/-- With another content of a file, every path leads to where it led. -/
theorem locate_set_file (h : tree.item? location = some (.file old)) (content : Content)
    (path : PathName) :
    (tree.set location (.file content)).locate path =
      (tree.locate path).map (spotWith location content) := by
  rw [locate, locate, reach, reach, current_set]
  cases fault? path with
  | some cause => rfl
  | none => exact walk_set_file h true _ _ _

/-- What is read at a path does not depend on a file that it does not lead to. -/
theorem read_set_file (h : tree.item? location = some (.file old))
    (helsewhere : ∀ item, tree.locate path ≠ .ok (.found location item)) (content : Content) :
    (tree.set location (.file content)).read path = tree.read path := by
  have hlocate : (tree.set location (.file content)).locate path = tree.locate path := by
    rw [locate_set_file h]
    cases hpath : tree.locate path with
    | error cause => rfl
    | ok spot =>
      cases spot with
      | vacant parent name => rfl
      | found l item =>
        have hne : l ≠ location := by
          rintro rfl
          exact helsewhere item hpath
        cases item <;> simp [Except.map, spotWith, itemWith, hne]
  rw [read, read, hlocate]

end FileTree

/-! ## Files that are read -/

/-- A world, and the paths of which the text has been asked for. -/
structure Watched where
  world : World
  reads : List PathName := []

namespace Watched

/-- What is done in the world. -/
def lift {α : Type} (x : StateM World α) : StateM Watched α := do
  let watched ← get
  let (a, world) := x.run watched.world
  set { watched with world }
  return a

instance : FileStore (StateM Watched) where
  isPresent path := lift (FileStore.isPresent path)
  isDirectory path := lift (FileStore.isDirectory path)
  isFile path := lift (FileStore.isFile path)
  list path := lift (FileStore.list path)
  read path := do
    modify fun watched => { watched with reads := watched.reads ++ [path] }
    lift (FileStore.read path)
  makeDirectory path := lift (FileStore.makeDirectory path)
  remove path := lift (FileStore.remove path)
  write path text := lift (FileStore.write path text)
  note event := lift (FileStore.note event)

end Watched

/-! ## The source and the layers -/

namespace CommandLine

variable {options : Options} {world : World} {path : PathName} {text : String}
  {settings : List (String × String)}

/-- The file that settings are read from : the one that options name, or else the usual one if it is
there. -/
def Options.source? (options : Options) (tree : FileTree) : Option PathName :=
  match options.config with
  | some path => some path
  | none => if tree.isFile defaultConfigFile then some defaultConfigFile else none

/-- Options, then settings, then defaults. -/
def Options.layer (options : Options) (settings : List (String × String)) : Config :=
  let path (key : String) := (settings.lookup key).map PathName.mk
  let defaults : Config := {}
  { schema := (options.schema.or (path "schema")).getD defaults.schema
    outputRoot := (options.output.or (path "output_root")).getD defaults.outputRoot
    enumDir := (path "enum_dir").getD defaults.enumDir
    structDir := (path "struct_dir").getD defaults.structDir
    backend := (settings.lookup "backend").getD defaults.backend }

theorem Options.apply_ofSettings (options : Options) (settings : List (String × String)) :
    options.apply (Config.ofSettings settings) = options.layer settings := by
  unfold apply layer
  cases options.schema <;> cases options.output <;> rfl

/-- The configuration of a run, or what went wrong. -/
def settle (options : Options) (world : World) : Except Trouble Config :=
  ((resolve options : StateM World (Except Trouble Config)).run world).1

/-- What a file of settings is read as. -/
def readSettings (tree : FileTree) (path : PathName) : Except Failure Config :=
  match tree.read path with
  | .error cause => .error (.io path cause)
  | .ok text => Config.ofToml text

/-- The configuration before options are taken into account. -/
def baseOf (options : Options) (tree : FileTree) : Except Trouble Config :=
  match options.source? tree with
  | none => .ok {}
  | some path =>
    (readSettings tree path).mapError (Trouble.mk ("Failed to load config: " ++ path.text))

theorem run_configFrom (path : PathName) (world : World) :
    (configFrom path : StateM World (Except Trouble Config)).run world =
      ((readSettings world.tree path).mapError (Trouble.mk ("Failed to load config: " ++ path.text)),
        world) := by
  rw [configFrom, run_within, readSettings]
  cases hread : world.tree.read path with
  | error cause =>
    have hon : (Step.on path (FileStore.read path) : Step (StateM World) String).outcome world =
        (.error (.io path cause), world) :=
      Step.outcome_on_eq_error_iff.mpr ⟨cause, by rw [World.run_read, hread], rfl⟩
    rw [loadConfig, Step.outcome_bind_of_error hon]
  | ok text =>
    have hon : (Step.on path (FileStore.read path) : Step (StateM World) String).outcome world =
        (.ok text, world) :=
      Step.outcome_on_eq_ok_iff.mpr (by rw [World.run_read, hread])
    rw [loadConfig, Step.outcome_bind_of_ok hon, Step.outcome_decided]

theorem run_baseConfig (options : Options) (world : World) :
    (baseConfig options : StateM World (Except Trouble Config)).run world =
      (baseOf options world.tree, world) := by
  unfold baseConfig baseOf Options.source?
  cases options.config with
  | some path => exact run_configFrom path world
  | none =>
    rw [World.run_bind]
    change StateT.run (if world.tree.isFile defaultConfigFile then _ else _) world = _
    split
    · exact run_configFrom defaultConfigFile world
    · rfl

/-- Settling reads what there is before the options, and puts these above it. -/
theorem settle_eq (options : Options) (world : World) :
    settle options world = (baseOf options world.tree).map options.apply := by
  rw [settle, resolve, World.run_bind, run_baseConfig]
  cases baseOf options world.tree <;> rfl

theorem watched_configFrom (path : PathName) (world : World) (reads : List PathName) :
    (configFrom path : StateM Watched (Except Trouble Config)).run ⟨world, reads⟩ =
      ((readSettings world.tree path).mapError (Trouble.mk ("Failed to load config: " ++ path.text)),
        ⟨world, reads ++ [path]⟩) := by
  have hread : (FileStore.read path : StateM Watched (Except IoCause String)).run ⟨world, reads⟩ =
      (world.tree.read path, ⟨world, reads ++ [path]⟩) :=
    rfl
  rw [readSettings]
  simp only [configFrom, within, loadConfig, Step.on, Step.decided, ExceptT.run_bind, ExceptT.run_mk,
    StateT.run_map, StateT.run_bind, hread]
  cases world.tree.read path <;> rfl

theorem watched_baseConfig (options : Options) (world : World) (reads : List PathName) :
    (baseConfig options : StateM Watched (Except Trouble Config)).run ⟨world, reads⟩ =
      (baseOf options world.tree, ⟨world, reads ++ (options.source? world.tree).toList⟩) := by
  unfold baseConfig baseOf Options.source?
  cases options.config with
  | some path => exact watched_configFrom path world reads
  | none =>
    have hfile : (FileStore.isFile defaultConfigFile : StateM Watched Bool).run ⟨world, reads⟩ =
        (world.tree.isFile defaultConfigFile, ⟨world, reads⟩) :=
      rfl
    rw [StateT.run_bind, hfile]
    change StateT.run (if world.tree.isFile defaultConfigFile then _ else _) _ = _
    split
    · exact watched_configFrom defaultConfigFile world reads
    · rw [Option.toList_none, List.append_nil]
      rfl

/-- A run reads its source to settle the configuration, and no other file. -/
theorem watched_resolve (options : Options) (world : World) :
    (resolve options : StateM Watched (Except Trouble Config)).run { world } =
      (settle options world,
        { world := ((resolve options : StateM World (Except Trouble Config)).run world).2
          reads := (options.source? world.tree).toList }) := by
  rw [settle, resolve, resolve, World.run_bind, run_baseConfig, StateT.run_bind, watched_baseConfig]
  cases baseOf options world.tree <;> rfl

/-- Without a source there are only options and defaults. -/
theorem settle_of_no_source (h : options.source? world.tree = none) :
    settle options world = .ok (options.layer []) := by
  rw [settle_eq, baseOf, h, ← Options.apply_ofSettings]
  rfl

section Source

variable (h : options.source? world.tree = some path)

include h

theorem settle_of_source :
    settle options world =
      ((readSettings world.tree path).mapError
        (Trouble.mk ("Failed to load config: " ++ path.text))).map options.apply := by
  rw [settle_eq, baseOf, h]

theorem settle_of_read_error {cause : IoCause} (hread : world.tree.read path = .error cause) :
    settle options world =
      .error ⟨"Failed to load config: " ++ path.text, .io path cause⟩ := by
  rw [settle_of_source h, readSettings, hread]
  rfl

theorem settle_of_unusable (hread : world.tree.read path = .ok text)
    (hunusable : Config.Unusable text) :
    ∃ complaint, settle options world =
      .error ⟨"Failed to load config: " ++ path.text, .config (.document complaint)⟩ := by
  obtain ⟨complaint, herror⟩ := Config.ofToml_of_unusable hunusable
  refine ⟨complaint, ?_⟩
  rw [settle_of_source h, readSettings, hread]
  dsimp only
  rw [herror]
  rfl

theorem settle_of_sets (hread : world.tree.read path = .ok text)
    (hsets : Config.Sets text settings) :
    settle options world = .ok (options.layer settings) := by
  rw [settle_of_source h, readSettings, hread]
  dsimp only
  rw [Config.ofToml_of_sets hsets, ← Options.apply_ofSettings]
  rfl

end Source

/-- If options name the file, then all that matters is what is read from it. -/
theorem settle_congr {world' : World} (hpath : options.config = some path)
    (hread : world'.tree.read path = world.tree.read path) :
    settle options world' = settle options world := by
  have hsource : ∀ tree, options.source? tree = some path := fun tree => by
    rw [Options.source?, hpath]
  rw [settle_of_source (hsource _), settle_of_source (hsource _), readSettings, readSettings, hread]

/-- What the configuration of a run is settled by. -/
structure Layered (options : Options) (world : World) : Prop where
  /-- No file is read but the source. -/
  reads : (resolve options : StateM Watched (Except Trouble Config)).run { world } =
    (settle options world,
      { world := ((resolve options : StateM World (Except Trouble Config)).run world).2
        reads := (options.source? world.tree).toList })
  /-- Without a source, options stand above the defaults. -/
  absent : options.source? world.tree = none → settle options world = .ok (options.layer [])
  /-- A source that cannot be read leaves no configuration, whatever the options are. -/
  unreadable {path : PathName} {cause : IoCause} : options.source? world.tree = some path →
    world.tree.read path = .error cause →
    settle options world = .error ⟨"Failed to load config: " ++ path.text, .io path cause⟩
  /-- A source with an unusable text leaves none either. -/
  unusable {path : PathName} {text : String} : options.source? world.tree = some path →
    world.tree.read path = .ok text → Config.Unusable text →
    ∃ complaint, settle options world =
      .error ⟨"Failed to load config: " ++ path.text, .config (.document complaint)⟩
  /-- Every other text sets some of the keys. -/
  usable (text : String) : Config.Unusable text ∨ ∃ settings, Config.Sets text settings
  /-- What it sets stands between the options and the defaults. -/
  layers {path : PathName} {text : String} {settings : List (String × String)} :
    options.source? world.tree = some path → world.tree.read path = .ok text →
    Config.Sets text settings → settle options world = .ok (options.layer settings)
  /-- Any of the keys can be set, in any order and to any texts. -/
  settable {settings : List (String × String)} : (settings.map (·.1)).Nodup →
    (∀ s ∈ settings, s.1 ∈ Config.keys) → Config.Sets (Config.settingsText settings) settings
  /-- If options name the source, then all that matters is what is read from it. -/
  named {path : PathName} {world' : World} : options.config = some path →
    world'.tree.read path = world.tree.read path → settle options world' = settle options world
  /-- If options name the source, then a file that they do not name has no influence. -/
  unnamed {path : PathName} {old : Content} (location : Location) (content : Content) :
    options.config = some path → world.tree.item? location = some (.file old) →
    (∀ item, world.tree.locate path ≠ .ok (.found location item)) →
    settle options (world.withTree (world.tree.set location (.file content))) =
      settle options world

/-- The configuration of a run is layered field by field.

No file is read but the source that options and the file tree determine. If it cannot be read, or its
text is no configuration, then there is none, whatever the options are. A text that is one sets some
of the keys, and each field is that of the options, or else of the settings, or else the default; any
texts can be set, for any of the keys and in any order. If the options name the source, then a file
that they do not name has no influence. -/
theorem resolve_layers (options : Options) (world : World) : Layered options world where
  reads := watched_resolve options world
  absent := settle_of_no_source
  unreadable hsource hread := settle_of_read_error hsource hread
  unusable hsource hread := settle_of_unusable hsource hread
  usable := Config.unusable_or_sets
  layers hsource hread hsets := settle_of_sets hsource hread hsets
  settable := Config.sets_settingsText
  named := settle_congr
  unnamed _ content hpath hfile helsewhere :=
    settle_congr hpath (FileTree.read_set_file hfile helsewhere content)

/-! ## Two files of settings -/

/-- The usual file of settings, and one with a key that is none. -/
def twoFiles : World where
  tree := (({} : FileTree).set ["liquidgen.toml"]
    (.file (.text (Config.settingsText [("struct_dir", "Models"), ("schema", "can.yaml")])))).set
      ["fast.toml"] (.file (.text (Config.settingsText [("mode", "fast")])))

/-- The usual file has a layer between options and defaults. With a broken file named there is no
configuration, and a change of the usual one does not help. -/
theorem resolve_layers_twoFiles :
    settle { schema := some ⟨"other.yaml"⟩ } twoFiles =
        .ok { schema := ⟨"other.yaml"⟩, structDir := ⟨"Models"⟩ } ∧
      settle { output := some ⟨"gen"⟩ } twoFiles =
        .ok { schema := ⟨"can.yaml"⟩, outputRoot := ⟨"gen"⟩, structDir := ⟨"Models"⟩ } ∧
      settle { schema := some ⟨"other.yaml"⟩ } ⟨{}, []⟩ = .ok { schema := ⟨"other.yaml"⟩ } ∧
      settle { config := some ⟨"absent.toml"⟩ } twoFiles =
        .error ⟨"Failed to load config: absent.toml", .io ⟨"absent.toml"⟩ .notFound⟩ ∧
      ∀ content, ∃ complaint, settle { config := some ⟨"fast.toml"⟩, schema := some ⟨"other.yaml"⟩ }
          (twoFiles.withTree (twoFiles.tree.set ["liquidgen.toml"] (.file content))) =
        .error ⟨"Failed to load config: fast.toml", .config (.document complaint)⟩ := by
  have hsets : Config.Sets _ [("struct_dir", "Models"), ("schema", "can.yaml")] :=
    (resolve_layers {} twoFiles).settable (by decide) (by decide)
  have hunusable : Config.Unusable (Config.settingsText [("mode", "fast")]) :=
    .unknownKey (Config.entriesOf_settingsText (by decide) (by decide)) (List.mem_singleton.mpr rfl)
      (by decide)
  have hread : twoFiles.tree.read defaultConfigFile =
      .ok (Config.settingsText [("struct_dir", "Models"), ("schema", "can.yaml")]) :=
    rfl
  have hfast : twoFiles.tree.read ⟨"fast.toml"⟩ = .ok (Config.settingsText [("mode", "fast")]) := rfl
  have hfound : twoFiles.tree.locate ⟨"fast.toml"⟩ =
      .ok (.found ["fast.toml"] (.file (.text (Config.settingsText [("mode", "fast")])))) :=
    rfl
  refine ⟨?_, ?_, ?_, ?_, fun content => ?_⟩
  · exact (resolve_layers _ _).layers rfl hread hsets
  · exact (resolve_layers _ _).layers rfl hread hsets
  · exact (resolve_layers _ _).absent rfl
  · exact (resolve_layers { config := some ⟨"absent.toml"⟩ } twoFiles).unreadable rfl rfl
  · have hsame := (resolve_layers { config := some ⟨"fast.toml"⟩, schema := some ⟨"other.yaml"⟩ }
      twoFiles).unnamed ["liquidgen.toml"] content rfl rfl (by simp [hfound])
    rw [hsame]
    exact (resolve_layers _ _).unusable rfl hfast hunusable

end CommandLine

end SchemaHeaders
