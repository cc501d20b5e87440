import SchemaHeaders.Proofs.PlainOutput

/-!
# Where writing can be interrupted

Writing headers clears a directory and then writes file after file, first for the enums and then for
the structs, so that a failure leaves a run half done. `Interrupted` says at which of its phases
that was (`Phase`) and what the tree is then like (`UnitsFail`) : before the first header of a list
there are no new files, after it those of the units so far, and all else is as it was but for
directories that have come on the way to the directory of the phase (`FileTree.SameOutside`).

`writeGenerated_interrupted` : in a tree without links, with directories none of which is in the
other, writing that fails has been interrupted at exactly one phase. What is needed for it is
that a list of units is written as its parts one after the other (`writeEach_append_ok`,
`writeEach_error`).
-/

namespace SchemaHeaders

open FileTree

variable {dir : PathName} {extension : String} {units : List HeaderUnit} {world world' : World}
  {failure : Failure}

/-! ## Outside of a directory -/

namespace FileTree

variable {tree tree' : FileTree} {location : Location}

/-- Two trees are the same but for what is directly in a directory, and for directories that have
come above it or as this directory. -/
def SameOutside (directory : Location) (tree tree' : FileTree) : Prop :=
  ∀ location, (∀ name, location ≠ name :: directory) →
    tree'.item? location = tree.item? location ∨
      tree.item? location = none ∧ tree'.item? location = some .directory ∧ location <:+ directory

/-- What is disturbed is in the directory or on the way to it. -/
theorem sameOutside_of_disturbed (h : ∀ location, Disturbed dir tree tree' location) :
    SameOutside (tree.addressOf dir) tree tree' := by
  intro location hout
  cases h location with
  | same hsame => exact Or.inl hsame
  | made hnone hmade hway => exact Or.inr ⟨hnone, hmade, hway.suffix⟩
  | entry name hlocation => exact absurd hlocation (hout name)

/-- A directory that the other is not in, and that is not in it, is the same with all below it. -/
theorem SameOutside.below {directory other : Location} (h : SameOutside directory tree tree')
    (hin : ¬directory <:+ other) (hout : ¬other <:+ directory) (hlocation : other <:+ location) :
    tree'.item? location = tree.item? location := by
  refine (h location fun name heq => ?_).resolve_right fun hmade =>
    hout (hlocation.trans hmade.2.2)
  subst heq
  rcases List.suffix_cons_iff.mp hlocation with rfl | hlocation
  · exact hin (List.suffix_cons _ _)
  · exact hout hlocation

end FileTree

/-! ## Failures of one directory -/

/-- The preparation of a directory has failed : at its path or at that of a file in it, and no file
is new. -/
structure PreparationFails (dir : PathName) (world world' : World) (failure : Failure) : Prop where
  failed : (prepareDir dir).outcome world = (.error failure, world')
  path : ∃ path cause, failure = .io path cause ∧ (path = dir ∨ ∃ name content,
    path = dir.join ⟨name⟩ ∧
      world.tree.item? (name :: world.tree.addressOf dir) = some (.file content))
  files : ∀ location content, world'.tree.item? location = some (.file content) →
    world.tree.item? location = some (.file content)
  outside : SameOutside (world.tree.addressOf dir) world.tree world'.tree

/-- The unit at a position of some units cannot be written, once those before it have been. -/
structure WritingFails (dir : PathName) (extension : String) (units : List HeaderUnit) (k : Nat)
    (world world' : World) (failure : Failure) : Prop where
  before : ∃ paths, (writeUnits dir (units.take k) extension).outcome world = (.ok paths, world')
  failed : ∃ unit cause, units[k]? = some unit ∧
    world'.tree.write (unit.path dir extension) (.text unit.code) = .error cause ∧
    failure = .io (unit.path dir extension) cause
  holds : Holds dir extension (units.take k) world'.tree
  outside : SameOutside (world.tree.addressOf dir) world.tree world'.tree

/-- A stage of writing a list of units. -/
inductive Stage where
  | prepare
  | write (k : Nat)
  deriving DecidableEq

/-- Writing a list of units has failed at a stage. -/
def UnitsFail (dir : PathName) (extension : String) (units : List HeaderUnit)
    (world world' : World) (failure : Failure) : Stage → Prop
  | .prepare => PreparationFails dir world world' failure
  | .write k => WritingFails dir extension units k world world' failure

/-- A file that cannot be removed ends the clearing of a directory. -/
theorem clear_error : ∀ (entries : List (String × Bool)) (world : World) {world' : World},
    (clear dir entries).outcome world = (.error failure, world') →
    ∃ name cause, (name, false) ∈ entries ∧ failure = .io (dir.join ⟨name⟩) cause
  | [], _, _, h => by cases h
  | (listed, true) :: entries, world, _, h => by
    have hrest := (Step.outcome_note_bind world (.leavingSubdirectory (dir.join ⟨listed⟩))
      fun _ => clear dir entries).symm.trans h
    obtain ⟨name, cause, hname, hfailure⟩ := clear_error entries _ hrest
    exact ⟨name, cause, List.mem_cons_of_mem _ hname, hfailure⟩
  | (listed, false) :: entries, world, _, h => by
    rcases Step.outcome_bind_cases h with ⟨failure', hremove, hfailure⟩ | ⟨_, between, -, hafter⟩
    · obtain ⟨cause, -, hcause⟩ := Step.outcome_on_eq_error_iff.mp hremove
      cases hfailure
      exact ⟨listed, cause, List.mem_cons_self .., hcause⟩
    · rcases Step.outcome_bind_cases hafter with ⟨failure', hrest, hfailure⟩ | ⟨_, _, -, hpure⟩
      · cases hfailure
        obtain ⟨name, cause, hname, hfailure⟩ := clear_error entries _ hrest
        exact ⟨name, cause, List.mem_cons_of_mem _ hname, hfailure⟩
      · cases hpure

/-- A preparation that fails has failed as `PreparationFails` says. -/
theorem preparationFails_of_error (hsimple : world.tree.Simple) (hdir : dir.Downward)
    (h : (prepareDir dir).outcome world = (.error failure, world')) :
    PreparationFails dir world world' failure := by
  refine ⟨h, ?_, fun location content hfile => ?_,
    sameOutside_of_disturbed (prepareDir_disturbs hsimple hdir h)⟩
  · cases hpresent : world.tree.isPresent dir with
    | false =>
      rw [prepareDir_of_absent hpresent] at h
      obtain ⟨cause, -, rfl⟩ := Step.outcome_on_eq_error_iff.mp h
      exact ⟨dir, cause, rfl, Or.inl rfl⟩
    | true =>
      cases hlist : world.tree.list dir with
      | error cause =>
        rw [prepareDir_of_list_error hpresent hlist] at h
        cases h
        exact ⟨dir, cause, rfl, Or.inl rfl⟩
      | ok entries =>
        obtain ⟨directory, hdirectory, -⟩ := list_directoryOf hsimple.wellFormed hlist
        obtain ⟨entries', hlist', -, hfiles⟩ :=
          list_names hsimple ((directoryOf?_eq_some_iff hdir.ne_empty).mp hdirectory)
        obtain rfl : entries' = entries := Except.ok.inj (hlist'.symm.trans hlist)
        obtain rfl := address_of_directoryOf? hsimple.linkFree hdirectory
        rw [prepareDir_of_present hpresent hlist] at h
        rcases Step.outcome_bind_cases h with ⟨failure', hclear, hfailure⟩ | ⟨_, _, -, hnote⟩
        · cases hfailure
          obtain ⟨name, cause, hname, rfl⟩ := clear_error _ _ hclear
          obtain ⟨content, hcontent⟩ := hfiles name hname
          exact ⟨_, cause, rfl, Or.inr ⟨name, content, rfl, hcontent⟩⟩
        · split at hnote <;> cases hnote
  · rcases prepareDir_changed hsimple.wellFormed h location with hsame | ⟨-, hmade⟩ | ⟨-, hgone⟩
    · rwa [hsame] at hfile
    · rw [hmade] at hfile
      cases hfile
    · rw [hgone] at hfile
      cases hfile

/-! ## Lists of units in parts -/

/-- The writing of units that fails has failed at one of them, with those before it written. -/
theorem writeEach_error : ∀ (units : List HeaderUnit) (world : World) {world' : World},
    (writeEach dir extension units).outcome world = (.error failure, world') →
    ∃ k unit paths cause, units[k]? = some unit ∧
      (writeEach dir extension (units.take k)).outcome world = (.ok paths, world') ∧
      world'.tree.write (unit.path dir extension) (.text unit.code) = .error cause ∧
      failure = .io (unit.path dir extension) cause
  | [], _, _, h => by cases h
  | unit :: units, world, world', h => by
    rcases Step.outcome_bind_cases h with
      ⟨failure', hwrite, hfailure⟩ | ⟨_, between, hwrite, hafter⟩
    · cases hfailure
      obtain ⟨cause, hcause, rfl, rfl⟩ := Step.outcome_write_eq_error_iff.mp hwrite
      exact ⟨0, unit, [], cause, rfl, rfl, hcause, rfl⟩
    · rw [Step.outcome_note_bind] at hafter
      rcases Step.outcome_bind_cases hafter with ⟨failure', hrest, hfailure⟩ | ⟨_, _, -, hpure⟩
      · cases hfailure
        obtain ⟨k, other, paths, cause, hother, hpaths, hcause, hfailure⟩ :=
          writeEach_error units _ hrest
        refine ⟨k + 1, other, unit.path dir extension :: paths, cause, hother, ?_, hcause, hfailure⟩
        rw [List.take_succ_cons, writeEach, Step.outcome_bind_of_ok hwrite, Step.outcome_note_bind,
          Step.outcome_bind_of_ok hpaths]
        rfl
      · cases hpure

/-- Units are written as their parts are one after the other. -/
theorem writeEach_append_ok (after : List HeaderUnit) : ∀ (before : List HeaderUnit) (world : World)
    {world' : World} {paths : List PathName},
    (writeEach dir extension (before ++ after)).outcome world = (.ok paths, world') →
    ∃ paths₁ between paths₂, (writeEach dir extension before).outcome world = (.ok paths₁, between) ∧
      (writeEach dir extension after).outcome between = (.ok paths₂, world')
  | [], world, _, paths, h => ⟨[], world, paths, rfl, h⟩
  | unit :: before, world, world', paths, h => by
    obtain ⟨_, written, hwrite, hafter⟩ := Step.outcome_bind_eq_ok_iff.mp h
    rw [Step.outcome_note_bind] at hafter
    obtain ⟨rest, last, hrest, hpure⟩ := Step.outcome_bind_eq_ok_iff.mp hafter
    cases hpure
    obtain ⟨paths₁, between, paths₂, hbefore, hlater⟩ := writeEach_append_ok after before _ hrest
    refine ⟨unit.path dir extension :: paths₁, between, paths₂, ?_, hlater⟩
    rw [writeEach, Step.outcome_bind_of_ok hwrite, Step.outcome_note_bind,
      Step.outcome_bind_of_ok hbefore]
    rfl

/-- If units can be written, then each can once those before it have been. -/
theorem write_of_writeUnits_ok {k : Nat} {unit : HeaderUnit} {paths : List PathName}
    (hunit : units[k]? = some unit)
    (h : (writeUnits dir units extension).outcome world = (.ok paths, world')) :
    ∃ paths' between tree,
      (writeUnits dir (units.take k) extension).outcome world = (.ok paths', between) ∧
        between.tree.write (unit.path dir extension) (.text unit.code) = .ok tree := by
  obtain ⟨hk, rfl⟩ := List.getElem?_eq_some_iff.mp hunit
  obtain ⟨_, prepared, hprepare, hwrite⟩ := Step.outcome_bind_eq_ok_iff.mp h
  rw [← List.take_append_drop k units, List.drop_eq_getElem_cons hk] at hwrite
  obtain ⟨paths', between, _, hbefore, hafter⟩ := writeEach_append_ok _ _ _ hwrite
  obtain ⟨_, _, hunit, -⟩ := Step.outcome_bind_eq_ok_iff.mp hafter
  obtain ⟨tree, htree, -⟩ := Step.outcome_write_eq_ok_iff.mp hunit
  exact ⟨paths', between, tree, Step.outcome_bind_eq_ok_iff.mpr ⟨(), prepared, hprepare, hbefore⟩,
    htree⟩

/-! ## Failures of one list of units -/

/-- Writing units that fails has failed while the directory was prepared, or at one of the units. -/
theorem exists_unitsFail (hsimple : world.tree.Simple) (hdir : dir.Downward)
    (hnames : ∀ unit ∈ units, IsEntryName (unit.typeName ++ extension))
    (h : (writeUnits dir units extension).outcome world = (.error failure, world')) :
    ∃ stage, UnitsFail dir extension units world world' failure stage := by
  rcases Step.outcome_bind_cases h with
    ⟨failure', hprepare, hfailure⟩ | ⟨_, prepared, hprepare, hwrite⟩
  · cases hfailure
    exact ⟨.prepare, preparationFails_of_error hsimple hdir hprepare⟩
  · obtain ⟨k, unit, paths, cause, hunit, hbefore, hcause, hfailure⟩ := writeEach_error _ _ hwrite
    have hbefore' : (writeUnits dir (units.take k) extension).outcome world = (.ok paths, world') :=
      Step.outcome_bind_eq_ok_iff.mpr ⟨(), prepared, hprepare, hbefore⟩
    have hnames' : ∀ unit ∈ units.take k, IsEntryName (unit.typeName ++ extension) :=
      fun unit hunit => hnames unit (List.mem_of_mem_take hunit)
    exact ⟨.write k, ⟨paths, hbefore'⟩, ⟨unit, cause, hunit, hcause, hfailure⟩,
      (writeUnits_ok hsimple hdir.ne_empty hdir.no_up hnames' hbefore').2,
      sameOutside_of_disturbed (writeUnits_disturbs hsimple hdir hnames' hbefore')⟩

/-- Units are not written where the directory cannot be prepared. -/
theorem PreparationFails.not_ok (h : PreparationFails dir world world' failure)
    {paths : List PathName} {after : World} :
    (writeUnits dir units extension).outcome world ≠ (.ok paths, after) := by
  rw [writeUnits, Step.outcome_bind_of_error h.failed]
  exact fun heq => by cases (Prod.mk.inj heq).1

/-- Units are not written past one that cannot be. -/
theorem WritingFails.not_ok {k : Nat} (h : WritingFails dir extension units k world world' failure)
    {units' : List HeaderUnit} (htake : units'.take k = units.take k)
    (hunit : units'[k]? = units[k]?) {paths : List PathName} {after : World} :
    (writeUnits dir units' extension).outcome world ≠ (.ok paths, after) := by
  intro hok
  obtain ⟨paths, hbefore⟩ := h.before
  obtain ⟨unit, cause, hat, hcause, -⟩ := h.failed
  obtain ⟨paths', between, tree, hbefore', hwritten⟩ :=
    write_of_writeUnits_ok (hunit.trans hat) hok
  rw [htake, hbefore] at hbefore'
  cases hbefore'
  rw [hcause] at hwritten
  cases hwritten

/-- Writing fails at one unit alone. -/
theorem WritingFails.unique {k k' : Nat} {after : World} {failure' : Failure}
    (h : WritingFails dir extension units k world world' failure)
    (h' : WritingFails dir extension units k' world after failure') : k = k' := by
  have hle : ∀ {k k' : Nat} {world' after : World} {failure failure' : Failure},
      WritingFails dir extension units k world world' failure →
      WritingFails dir extension units k' world after failure' → k' ≤ k := by
    intro k k' world' after failure failure' h h'
    by_contra hlt
    obtain ⟨paths, hbefore⟩ := h'.before
    refine h.not_ok (List.take_take.trans ?_) ?_ hbefore
    · rw [Nat.min_eq_left (by omega)]
    · exact List.getElem?_take_of_lt (by omega)
  exact Nat.le_antisymm (hle h' h) (hle h h')

section Stages

variable {stage stage' : Stage}

theorem UnitsFail.outside (h : UnitsFail dir extension units world world' failure stage) :
    SameOutside (world.tree.addressOf dir) world.tree world'.tree := by
  cases stage with
  | prepare => exact PreparationFails.outside h
  | write k => exact WritingFails.outside h

/-- Units whose writing has failed are not all written. -/
theorem UnitsFail.not_ok (h : UnitsFail dir extension units world world' failure stage)
    {paths : List PathName} {after : World} :
    (writeUnits dir units extension).outcome world ≠ (.ok paths, after) := by
  cases stage with
  | prepare => exact PreparationFails.not_ok h
  | write k => exact WritingFails.not_ok h rfl rfl

/-- Writing a list of units fails at one stage alone. -/
theorem UnitsFail.unique (h : UnitsFail dir extension units world world' failure stage)
    (h' : UnitsFail dir extension units world world' failure stage') : stage = stage' := by
  cases stage with
  | prepare =>
    cases stage' with
    | prepare => rfl
    | write k =>
      obtain ⟨paths, hpaths⟩ := WritingFails.before h'
      exact absurd hpaths (PreparationFails.not_ok h)
  | write k =>
    cases stage' with
    | prepare =>
      obtain ⟨paths, hpaths⟩ := WritingFails.before h
      exact absurd hpaths (PreparationFails.not_ok h')
    | write k' => rw [WritingFails.unique h h']

end Stages

/-! ## Failures of a run -/

/-- A phase of writing the headers of enums and those of structs. -/
inductive Phase where
  | enums (stage : Stage)
  | structs (stage : Stage)
  deriving DecidableEq

/-- The headers of enums have been written, which `between` is the world after, and are there
still. -/
structure EnumsWritten (generated : Generated) (enumDir : PathName)
    (world between world' : World) : Prop where
  written : ∃ paths, (writeUnits enumDir generated.enums generated.extension).outcome world =
    (.ok paths, between)
  outside : SameOutside (world.tree.addressOf enumDir) world.tree between.tree
  holds : Holds enumDir generated.extension generated.enums world'.tree

/-- Nothing has changed from a directory on downwards. -/
def FileTree.SameFrom (directory : Location) (tree tree' : FileTree) : Prop :=
  ∀ location, directory <:+ location → tree'.item? location = tree.item? location

/-- The phase at which writing has been interrupted, with what is then the case. -/
def Interrupted (generated : Generated) (enumDir structDir : PathName) (world world' : World)
    (failure : Failure) : Phase → Prop
  | .enums stage =>
    UnitsFail enumDir generated.extension generated.enums world world' failure stage ∧
      SameFrom (world.tree.addressOf structDir) world.tree world'.tree
  | .structs stage => ∃ between, EnumsWritten generated enumDir world between world' ∧
      UnitsFail structDir generated.extension generated.structs between world' failure stage

section Run

variable {generated : Generated} {enumDir structDir : PathName} {phase phase' : Phase}

/-- Writing that fails has been interrupted at some phase. -/
theorem exists_interrupted (hsimple : world.tree.Simple) (henum : enumDir.Downward)
    (hstruct : structDir.Downward)
    (hout : ¬world.tree.addressOf enumDir <:+ world.tree.addressOf structDir)
    (hin : ¬world.tree.addressOf structDir <:+ world.tree.addressOf enumDir)
    (hnames : ∀ unit ∈ generated.enums ++ generated.structs,
      IsEntryName (unit.typeName ++ generated.extension))
    (h : (writeGenerated generated enumDir structDir).outcome world = (.error failure, world')) :
    ∃ phase, Interrupted generated enumDir structDir world world' failure phase := by
  have henumNames := fun unit hunit => hnames unit (List.mem_append_left _ hunit)
  have hstructNames := fun unit hunit => hnames unit (List.mem_append_right _ hunit)
  rcases Step.outcome_bind_cases h with
    ⟨failure', henums, hfailure⟩ | ⟨paths, between, henums, hrest⟩
  · cases hfailure
    obtain ⟨stage, hfails⟩ := exists_unitsFail hsimple henum henumNames henums
    exact ⟨.enums stage, hfails, fun _ hlocation => hfails.outside.below hout hin hlocation⟩
  · rcases Step.outcome_bind_cases hrest with ⟨failure', hstructs, hfailure⟩ | ⟨_, _, -, hpure⟩
    · cases hfailure
      have hevolves := (writeUnits_evolves _ _ _).of_outcome henums
      have hsimple' := hevolves.simple hsimple
      have hne : between.tree.addressOf enumDir ≠ between.tree.addressOf structDir := by
        rw [hevolves.addressOf, hevolves.addressOf]
        exact fun heq => hout (heq ▸ List.suffix_refl _)
      have hholds := (writeUnits_ok hsimple henum.ne_empty henum.no_up henumNames henums).2
      have hwritten : EnumsWritten generated enumDir world between world' :=
        ⟨⟨paths, henums⟩,
          sameOutside_of_disturbed (writeUnits_disturbs hsimple henum henumNames henums),
          hholds.of_writeUnits hsimple' hne hstructNames hstructs⟩
      obtain ⟨stage, hfails⟩ := exists_unitsFail hsimple' hstruct hstructNames hstructs
      exact ⟨.structs stage, between, hwritten, hfails⟩
    · cases hpure

/-- The headers of enums are written once, so the world after it is known. -/
theorem EnumsWritten.unique {between between' after : World}
    (h : EnumsWritten generated enumDir world between world')
    (h' : EnumsWritten generated enumDir world between' after) : between = between' := by
  obtain ⟨paths, hpaths⟩ := h.written
  obtain ⟨paths', hpaths'⟩ := h'.written
  exact (Prod.mk.inj (hpaths.symm.trans hpaths')).2

/-- Where the enums are interrupted, their headers are not written. -/
theorem EnumsWritten.not_unitsFail {between after after' : World} {failure' : Failure}
    {stage : Stage} (h : EnumsWritten generated enumDir world between after) :
    ¬UnitsFail enumDir generated.extension generated.enums world after' failure' stage := by
  obtain ⟨paths, hpaths⟩ := h.written
  exact fun hfails => hfails.not_ok hpaths

/-- Writing is interrupted at one phase alone. -/
theorem Interrupted.unique (h : Interrupted generated enumDir structDir world world' failure phase)
    (h' : Interrupted generated enumDir structDir world world' failure phase') :
    phase = phase' := by
  cases phase with
  | enums stage =>
    cases phase' with
    | enums stage' => rw [h.1.unique h'.1]
    | structs stage' =>
      obtain ⟨between, hwritten, -⟩ := h'
      exact absurd h.1 hwritten.not_unitsFail
  | structs stage =>
    obtain ⟨between, hwritten, hfails⟩ := h
    cases phase' with
    | enums stage' => exact absurd h'.1 hwritten.not_unitsFail
    | structs stage' =>
      obtain ⟨between', hwritten', hfails'⟩ := h'
      obtain rfl := hwritten.unique hwritten'
      rw [hfails.unique hfails']

/-- In a tree without links, writing headers into two directories none of which is in the other
fails at exactly one phase, with the tree as it is left by what was done before. -/
theorem writeGenerated_interrupted (hsimple : world.tree.Simple) (henum : enumDir.Downward)
    (hstruct : structDir.Downward)
    (hout : ¬world.tree.addressOf enumDir <:+ world.tree.addressOf structDir)
    (hin : ¬world.tree.addressOf structDir <:+ world.tree.addressOf enumDir)
    (hextension : generated.extension = ".h")
    (hslash : ∀ unit ∈ generated.enums ++ generated.structs, '/' ∉ unit.typeName.toList)
    (h : (writeGenerated generated enumDir structDir).outcome world = (.error failure, world')) :
    ∃! phase, Interrupted generated enumDir structDir world world' failure phase := by
  have hnames : ∀ unit ∈ generated.enums ++ generated.structs,
      IsEntryName (unit.typeName ++ generated.extension) := fun unit hunit => by
    rw [hextension]
    exact isEntryName_header (hslash unit hunit)
  obtain ⟨phase, hphase⟩ := exists_interrupted hsimple henum hstruct hout hin hnames h
  exact ⟨phase, hphase, fun phase' hphase' => hphase'.unique hphase⟩

end Run

/-! ## A directory in the place of a header -/

/-- A directory for the headers of enums, with an old header and a directory in it, and one for those
of structs. -/
def FileTree.blocked : FileTree :=
  ((((({} : FileTree).set ["enums"] .directory).set ["Old.h", "enums"] (.file (.text "old"))).set
    ["B.h", "enums"] .directory).set ["structs"] .directory).set ["S.h", "structs"]
      (.file (.text "struct"))

/-- Three enums, of which the second has the name of the directory. -/
def Generated.three : Generated where
  enums := [⟨"a", "A", "enum A", []⟩, ⟨"b", "B", "enum B", []⟩, ⟨"c", "C", "enum C", []⟩]
  structs := [⟨"s", "S", "struct S", []⟩]
  extension := ".h"

theorem simple_blocked : FileTree.blocked.Simple := by
  refine ((((simple_root.set ?_ rfl ?_ ?_).set ?_ rfl ?_ ?_).set ?_ rfl ?_ ?_).set ?_ rfl ?_ ?_).set
    ?_ rfl ?_ ?_
  all_goals first | decide | simp

theorem writeGenerated_interrupted_blocked :
    ((writeGenerated .three ⟨"/enums"⟩ ⟨"structs"⟩).outcome ⟨.blocked, []⟩).1 =
        .error (.io ⟨"/enums/B.h"⟩ .isADirectory) ∧
      ∃! phase, Interrupted .three ⟨"/enums"⟩ ⟨"structs"⟩ ⟨.blocked, []⟩
        ((writeGenerated .three ⟨"/enums"⟩ ⟨"structs"⟩).outcome ⟨.blocked, []⟩).2
        (.io ⟨"/enums/B.h"⟩ .isADirectory) phase := by
  have hfails : ((writeGenerated .three ⟨"/enums"⟩ ⟨"structs"⟩).outcome ⟨.blocked, []⟩).1 =
      .error (.io ⟨"/enums/B.h"⟩ .isADirectory) := by
    decide +kernel
  exact ⟨hfails, @writeGenerated_interrupted ⟨.blocked, []⟩ _ _ .three ⟨"/enums"⟩ ⟨"structs"⟩
    simple_blocked ⟨by decide, by decide⟩ ⟨by decide, by decide⟩ (by decide) (by decide) rfl
    (by decide) (Step.outcome_eq_of_fst hfails)⟩

end SchemaHeaders
