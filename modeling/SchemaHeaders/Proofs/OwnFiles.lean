import SchemaHeaders.Proofs.Headers
import Mathlib.Data.List.Perm.Subperm

/-!
# Files of their own

Declared names are told apart as they are spelled, but files are named by the names in Pascal
case, where underscores and the case of letters are lost. `ownFiles_iff_apart` : of the
schemas that are accepted, exactly those whose names stay apart in Pascal case get a file for
each declared type (`Schema.Apart`). The two enums of `Schema.doubled` share one.

`FileTree.Holds.ownFiles_iff` is the reason : in a directory that holds the headers of some
units, each unit has a file of its own only if no two have one type name.
-/

namespace SchemaHeaders

open FileTree

/-! ## Units and their files -/

/-- Some units have different files in a directory, one for each, with its code. -/
def FileTree.OwnFiles (dir : PathName) (units : List HeaderUnit) (tree : FileTree) : Prop :=
  ∃ location names, tree.locate dir = .ok (.found location .directory) ∧ names.Nodup ∧
    List.Forall₂ (fun name (unit : HeaderUnit) =>
      tree.item? (name :: location) = some (.file (.text unit.code))) names units

variable {dir : PathName} {extension : String} {units : List HeaderUnit} {tree : FileTree}

theorem HeaderUnit.lastIn_of_nodup (h : (units.map (·.typeName)).Nodup) {unit : HeaderUnit}
    (hunit : unit ∈ units) : unit.LastIn units := by
  obtain ⟨before, after, rfl⟩ := List.append_of_mem hunit
  refine ⟨before, after, rfl, fun other hother heq => ?_⟩
  rw [List.map_append, List.map_cons] at h
  have hnot := (List.nodup_cons.mp h.of_append_right).1
  exact hnot (List.mem_map.mpr ⟨other, hother, heq⟩)

/-- The names of the files of units repeat where their type names do. -/
theorem nodup_fileNames_iff (extension : String) (units : List HeaderUnit) :
    (units.map (·.typeName ++ extension)).Nodup ↔ (units.map (·.typeName)).Nodup := by
  have hmap : units.map (·.typeName ++ extension) =
      (units.map (·.typeName)).map (· ++ extension) := by
    rw [List.map_map]
    rfl
  rw [hmap]
  exact List.nodup_map_iff fun _ _ h => (String.append_left_inj extension).mp h

/-- Where the headers of units are, each has a file of its own if and only if no type name
repeats. -/
theorem FileTree.Holds.ownFiles_iff (h : Holds dir extension units tree) :
    OwnFiles dir units tree ↔ (units.map (·.typeName)).Nodup := by
  obtain ⟨location, hlocate, hitems⟩ := h
  constructor
  · rintro ⟨location', names, hlocate', hnames, hfiles⟩
    obtain rfl : location = location' := by
      rw [hlocate] at hlocate'
      cases hlocate'
      rfl
    have hsub : names ⊆ units.map (·.typeName ++ extension) := by
      have hmem := hfiles.imp (S := fun name unit => name ∈ units.map (·.typeName ++ extension) ∧
        tree.item? (name :: location) = some (.file (.text unit.code))) fun name unit hfile => by
          obtain ⟨owner, howner, rfl, -⟩ := (hitems name _).mp ⟨hfile, by simp⟩
          exact ⟨List.mem_map.mpr ⟨owner, howner.mem, rfl⟩, hfile⟩
      exact fun name hname => ((List.forall₂_and_left _ _).mp hmem).1 name hname
    -- As many different names as units, all from the units: none of those can repeat.
    have hlength : (units.map (·.typeName ++ extension)).length ≤ names.length := by
      rw [List.length_map, hfiles.length_eq]
    have hperm := (List.subperm_of_subset hnames hsub).perm_of_length_le hlength
    exact (nodup_fileNames_iff extension units).mp (hperm.nodup_iff.mp hnames)
  · intro hnodup
    refine ⟨location, units.map (·.typeName ++ extension), hlocate,
      (nodup_fileNames_iff extension units).mpr hnodup, ?_⟩
    rw [List.forall₂_map_left_iff, List.forall₂_same]
    intro unit hunit
    exact ((hitems _ _).mpr ⟨unit, HeaderUnit.lastIn_of_nodup hnodup hunit, rfl, rfl⟩).1

/-! ## Declared names -/

/-- No two enums and no two structs have names that are one in Pascal case. -/
structure Schema.Apart (schema : Schema) : Prop where
  enums : (schema.enums.map (pascalCase ·.name)).Nodup
  structs : (schema.structs.map (pascalCase ·.name)).Nodup

variable {backend : Backend} {schema : Schema} {generated : Generated}

/-- The type names of an accepted schema are its declared names in Pascal case. -/
theorem typeNames_of_generate (h : generate backend schema = .ok generated) :
    generated.enums.map (·.typeName) = schema.enums.map (pascalCase ·.name) ∧
      generated.structs.map (·.typeName) = schema.structs.map (pascalCase ·.name) := by
  have hverdict := verdict_generate backend schema
  rw [h] at hverdict
  cases hverdict with
  | accepted hunits =>
    refine ⟨map_of_emitted typeName_of_emitEnum hunits, ?_⟩
    rw [List.map_map]
    rfl

theorem declaredNames_nodup_of_generate (h : generate backend schema = .ok generated) :
    schema.declaredNames.Nodup := by
  have hverdict := verdict_generate backend schema
  rw [h] at hverdict
  cases hverdict with
  | accepted _ _ hdistinct => exact hdistinct

/-- The declared names of an accepted schema are different. Its type names are so exactly if
the names stay apart in Pascal case, and then only does each type have a file of its own when
its headers have been written. -/
theorem ownFiles_iff_apart (h : generate backend schema = .ok generated) :
    schema.declaredNames.Nodup ∧
      ((generated.enums.map (·.typeName)).Nodup ∧ (generated.structs.map (·.typeName)).Nodup ↔
        schema.Apart) ∧
      ∀ {enumDir structDir : PathName} {summary : Summary} {world world' : World},
        world.tree.Simple → enumDir.Plain → structDir.Plain → enumDir.names ≠ structDir.names →
        (∀ unit ∈ generated.enums ++ generated.structs,
          IsEntryName (unit.typeName ++ generated.extension)) →
        (writeGenerated generated enumDir structDir).outcome world = (.ok summary, world') →
        (OwnFiles enumDir generated.enums world'.tree ∧
            OwnFiles structDir generated.structs world'.tree ↔ schema.Apart) := by
  obtain ⟨henums, hstructs⟩ := typeNames_of_generate h
  have hapart : (generated.enums.map (·.typeName)).Nodup ∧
      (generated.structs.map (·.typeName)).Nodup ↔ schema.Apart := by
    rw [henums, hstructs]
    exact ⟨fun ⟨henum, hstruct⟩ => ⟨henum, hstruct⟩, fun hapart => ⟨hapart.enums, hapart.structs⟩⟩
  refine ⟨declaredNames_nodup_of_generate h, hapart, ?_⟩
  intro enumDir structDir summary world world' hsimple henum hstruct hne hnames hwrite
  obtain ⟨henumHolds, hstructHolds, -⟩ :=
    writeGenerated_ok hsimple henum hstruct hne hnames hwrite
  rw [henumHolds.ownFiles_iff, hstructHolds.ownFiles_iff, hapart]

/-! ## Names that do not stay apart -/

/-- Two different enums whose names are one in Pascal case. -/
def Schema.doubled : Schema :=
  ⟨[⟨"foo_bar", none, [⟨"a", none⟩]⟩, ⟨"foo__bar", none, [⟨"b", none⟩]⟩], []⟩

/-- The units of the two enums. -/
def Generated.doubled : Generated :=
  let code (member : String) :=
    Backend.cpp.frame "FooBar" (Backend.cpp.renderEnum ⟨"FooBar", none, [⟨member, none⟩]⟩)
  ⟨[⟨"foo_bar", "FooBar", code "A", []⟩, ⟨"foo__bar", "FooBar", code "B", []⟩], [], ".h"⟩

theorem generate_doubled : generate .cpp .doubled = .ok .doubled := by decide +kernel

theorem not_apart_doubled : ¬Schema.doubled.Apart := fun h => absurd h.enums (by decide)

/-- Both enums are written to one file, which the second overwrites. -/
theorem ownFiles_iff_apart_doubled :
    ((writeGenerated .doubled ⟨"enums"⟩ ⟨"structs"⟩).outcome ⟨{}, []⟩).1 =
        .ok ⟨[⟨"enums/FooBar.h"⟩, ⟨"enums/FooBar.h"⟩], []⟩ ∧
      ¬(OwnFiles ⟨"enums"⟩ Generated.doubled.enums
          ((writeGenerated .doubled ⟨"enums"⟩ ⟨"structs"⟩).outcome ⟨{}, []⟩).2.tree ∧
        OwnFiles ⟨"structs"⟩ Generated.doubled.structs
          ((writeGenerated .doubled ⟨"enums"⟩ ⟨"structs"⟩).outcome ⟨{}, []⟩).2.tree) := by
  have hwritten : ((writeGenerated .doubled ⟨"enums"⟩ ⟨"structs"⟩).outcome ⟨{}, []⟩).1 =
      .ok ⟨[⟨"enums/FooBar.h"⟩, ⟨"enums/FooBar.h"⟩], []⟩ := by
    decide +kernel
  obtain ⟨-, -, hfiles⟩ := ownFiles_iff_apart generate_doubled
  have hiff := hfiles simple_root ⟨by decide, by decide, by decide⟩
    ⟨by decide, by decide, by decide⟩ (by decide) (by decide) (Step.outcome_eq_of_fst hwritten)
  exact ⟨hwritten, fun hown => not_apart_doubled (hiff.mp hown)⟩

/-- That declared names differ is not enough : not all type names of accepted schemas differ. -/
theorem not_forall_typeNames_nodup :
    ¬∀ (schema : Schema) (generated : Generated), generate .cpp schema = .ok generated →
      (generated.enums.map (·.typeName)).Nodup ∧ (generated.structs.map (·.typeName)).Nodup := by
  intro h
  have hnodup := (h .doubled .doubled generate_doubled).1
  rw [(typeNames_of_generate generate_doubled).1] at hnodup
  exact not_apart_doubled ⟨hnodup, List.nodup_nil⟩

end SchemaHeaders
