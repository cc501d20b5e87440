import SchemaHeaders.Proofs.Headers
import SchemaHeaders.Proofs.Marks
import SchemaHeaders.Proofs.References

/-!
# Names of header files

Headers are named by the declared names in Pascal case, and nothing else is asked of these.
`unit_path_iff_no_slash` : a header of an accepted schema has a file name that a directory can
hold, so that it is written to an entry of the directory it is meant for, exactly if the
declared name has no slash. A schema can be accepted whose header is written elsewhere
(`Schema.climbing`).

The reason is that Pascal case neither makes a slash nor takes one away, as it does with no mark but
the underscore (`slash_mem_pascalCase_iff`).
-/

namespace SchemaHeaders

/-! ## Slashes in names -/

namespace Naming

open Text

theorem isMark_slash : IsMark '/' := ⟨by decide, by decide, by decide⟩

theorem slash_mem_pascalCase_iff (name : String) :
    '/' ∈ (pascalCase name).toList ↔ '/' ∈ name.toList := by
  rw [pascalCase, String.toList_ofList, mem_pascalChars_iff isMark_slash]
  exact and_iff_left (by decide)

end Naming

/-! ## Entries of a directory -/

namespace PathName

open FileTree

/-- The path of an entry is that of its directory with the name of the entry after it. -/
theorem components_join (dir : PathName) {name : String} (hname : IsEntryName name) :
    (dir.join ⟨name⟩).components = dir.components ++ [.name name] := by
  have hcomponent := component?_toList hname
  have hrelative := isAbsolute_of_isEntryName hname
  by_cases hempty : dir.text = ""
  · have hhere : name.toList ≠ ['.'] := fun h => by
      rw [h] at hcomponent
      cases hcomponent
    have hdir : dir.components = [] := by
      obtain ⟨text⟩ := dir
      cases hempty
      rfl
    rw [join, if_pos (Or.inr hempty), components_of_pieces (piecesOf_entryName hname), leading,
      if_neg (by simp [hrelative]), if_neg hhere, hcomponent, hdir]
    rfl
  · rw [components_join_relative hempty hrelative, piecesOf_entryName hname,
      List.filterMap_cons_some hcomponent]
    rfl

/-- What is joined to a directory is the path of one of its entries exactly if it is a name. -/
theorem components_join_iff (dir : PathName) (name : String) :
    (dir.join ⟨name⟩).components = dir.components ++ [.name name] ↔ IsEntryName name := by
  refine ⟨fun h => ?_, components_join dir⟩
  have hmem : Component.name name ∈ (dir.join ⟨name⟩).components := by simp [h]
  exact isEntryName_of_mem_names (List.mem_filterMap.mpr ⟨_, hmem, rfl⟩)

end PathName

/-! ## Files of units -/

open FileTree

variable {schema : Schema} {generated : Generated}

theorem isEntryName_header_iff (typeName : String) :
    IsEntryName (typeName ++ ".h") ↔ '/' ∉ typeName.toList :=
  ⟨fun h hslash => h.no_slash (by simp [hslash]), isEntryName_header⟩

/-- The file of a unit of an accepted schema is an entry of the directory that it is written to
exactly if the declared name has no slash. -/
theorem unit_path_iff_no_slash (h : generate .cpp schema = .ok generated) {unit : HeaderUnit}
    (hunit : unit ∈ generated.units) :
    unit.name ∈ schema.declaredNames ∧
      (IsEntryName (unit.typeName ++ generated.extension) ↔ '/' ∉ unit.name.toList) ∧
      ∀ dir : PathName, (unit.path dir generated.extension).components =
        dir.components ++ [.name (unit.typeName ++ generated.extension)] ↔
          '/' ∉ unit.name.toList := by
  have hname : IsEntryName (unit.typeName ++ generated.extension) ↔ '/' ∉ unit.name.toList := by
    rw [extension_of_generate h, typeName_of_mem_units h hunit]
    exact (isEntryName_header_iff _).trans (Naming.slash_mem_pascalCase_iff unit.name).not
  refine ⟨?_, hname, fun dir => (PathName.components_join_iff dir _).trans hname⟩
  rw [← names_of_generate h]
  exact List.mem_map.mpr ⟨unit, hunit, rfl⟩

/-! ## Names that lead elsewhere -/

/-- An enum whose name leads up, and one whose name does not. -/
def Schema.climbing : Schema := ⟨[⟨"../data_type", none, []⟩, ⟨"unit.kind", none, []⟩], []⟩

/-- The units of the two enums. -/
def Generated.climbing : Generated :=
  let code (typeName : String) :=
    Backend.cpp.frame typeName (Backend.cpp.renderEnum ⟨typeName, none, []⟩)
  ⟨[⟨"../data_type", "../DataType", code "../DataType", []⟩,
    ⟨"unit.kind", "Unit.Kind", code "Unit.Kind", []⟩], [], ".h"⟩

theorem generate_climbing : generate .cpp .climbing = .ok .climbing := by decide +kernel

/-- The header of the one enum is beside the directory, that of the other in it. -/
theorem unit_path_iff_no_slash_climbing :
    Generated.climbing.enums.map (·.path ⟨"out/enums"⟩ ".h") =
        [⟨"out/enums/../DataType.h"⟩, ⟨"out/enums/Unit.Kind.h"⟩] ∧
      ¬IsEntryName "../DataType.h" ∧ IsEntryName "Unit.Kind.h" := by
  obtain ⟨-, hup, -⟩ := unit_path_iff_no_slash generate_climbing (List.mem_cons_self ..)
  obtain ⟨-, hplain, -⟩ := unit_path_iff_no_slash generate_climbing
    (List.mem_cons_of_mem _ (List.mem_cons_self ..))
  exact ⟨by decide, fun h => hup.mp h (by decide), hplain.mpr (by decide)⟩

/-- Not every header of an accepted schema is written to an entry of its directory. -/
theorem not_forall_unit_path_entry :
    ¬∀ (schema : Schema) (generated : Generated), generate .cpp schema = .ok generated →
      ∀ unit ∈ generated.units, ∀ dir : PathName,
        (unit.path dir generated.extension).components =
          dir.components ++ [.name (unit.typeName ++ generated.extension)] := by
  intro h
  have hentry := h .climbing .climbing generate_climbing _ (List.mem_cons_self ..) ⟨"out/enums"⟩
  exact absurd hentry (by decide)

end SchemaHeaders
