import SchemaHeaders.Config
import SchemaHeaders.Proofs.PlainPath

/-!
# Validating a configuration

A configuration is refused if its two output directories have the same components. Below one root
that comes down to the two paths below it : each adds to the components of the root what its own
pieces say, and nothing else (`PathName.components_join_relative`). So the directories are taken for
one exactly if both paths say the same steps, where empty pieces and `.` are none and a step up is
one like any other (`PathName.steps`).

`validate_decides` : what validating comes to is read off the two paths and the backend. The root is
nowhere in it, and neither is which of the paths is which.
-/

namespace SchemaHeaders

open FileTree

namespace PathName

/-! ## Steps of a path -/

/-- The steps that a path says, in order. -/
def steps (p : PathName) : List String := ((piecesOf p).filter isSolid).map String.ofList

/-- The component of a step. -/
def componentOf (step : String) : Component := if step = ".." then .up else .name step

theorem componentOf_injective : Function.Injective componentOf := by
  intro s t h
  unfold componentOf at h
  split_ifs at h with hs ht ht
  · rw [hs, ht]
  · exact Component.name.inj h

theorem component?_eq (piece : List Char) :
    component? piece = if isSolid piece then some (componentOf (String.ofList piece)) else none := by
  have hup : piece = ['.', '.'] ↔ String.ofList piece = ".." :=
    String.ofList_inj.symm
  unfold component? componentOf
  by_cases hsolid : isSolid piece = true
  · rw [if_neg (isSolid_iff.mp hsolid), if_pos hsolid]
    simp only [hup, apply_ite some]
  · rw [if_pos (isSolid_eq_false_iff.mp (Bool.not_eq_true _ ▸ hsolid)), if_neg hsolid]

/-- What the pieces of a path say are the components of its steps. -/
theorem filterMap_component?_piecesOf (p : PathName) :
    (piecesOf p).filterMap component? = p.steps.map componentOf := by
  rw [steps, List.map_map]
  induction piecesOf p with
  | nil => rfl
  | cons piece pieces ih =>
    cases hsolid : isSolid piece with
    | false =>
      rw [List.filter_cons_of_neg (by simp [hsolid]), ← ih]
      exact List.filterMap_cons_none (by rw [component?_eq, if_neg (by simp [hsolid])])
    | true =>
      rw [List.filter_cons_of_pos hsolid, List.map_cons, ← ih]
      exact List.filterMap_cons_some (by rw [component?_eq, if_pos hsolid]; rfl)

/-- Relative paths seen from one directory are the same if and only if they say the same steps. -/
theorem sameAs_join_iff {root p q : PathName} (hroot : root.text ≠ "") (hp : p.isAbsolute = false)
    (hq : q.isAbsolute = false) : (root.join p).SameAs (root.join q) ↔ p.steps = q.steps := by
  rw [SameAs, components_join_relative hroot hp, components_join_relative hroot hq,
    List.append_cancel_left_eq, filterMap_component?_piecesOf, filterMap_component?_piecesOf]
  exact (List.map_injective_iff.mpr componentOf_injective).eq_iff

end PathName

namespace Config

/-! ## The verdict -/

/-- Two results of validating are alike, but for the directory that is shown. -/
def Alike : Except Failure Unit → Except Failure Unit → Prop
  | .error (.config (.sharedDirectory _)), .error (.config (.sharedDirectory _)) => True
  | result, result' => result = result'

/-- The configuration with its two directories exchanged. -/
def exchanged (config : Config) : Config :=
  { config with enumDir := config.structDir, structDir := config.enumDir }

/-- A configuration whose directories are both below a root. -/
structure Rooted (config : Config) : Prop where
  root : config.outputRoot.text ≠ ""
  enums : config.enumDir.isAbsolute = false
  structs : config.structDir.isAbsolute = false

variable {config : Config}

theorem Rooted.exchanged (h : config.Rooted) : config.exchanged.Rooted :=
  ⟨h.root, h.structs, h.enums⟩

theorem Rooted.validate_eq (h : config.Rooted) :
    config.validate =
      if config.enumDir.steps = config.structDir.steps then
        .error (.config (.sharedDirectory config.enumOutputDir))
      else if config.backend = "" then .error (.config .emptyBackend)
      else .ok () :=
  ite_congr (propext (PathName.sameAs_join_iff h.root h.enums h.structs)) (fun _ => rfl)
    fun _ => rfl

/-- Configurations below roots of their own are judged alike if they agree on the backend and on
whether their two directories say the same steps. -/
theorem Rooted.alike {config' : Config} (h : config.Rooted) (h' : config'.Rooted)
    (hsteps : config'.enumDir.steps = config'.structDir.steps ↔
      config.enumDir.steps = config.structDir.steps)
    (hbackend : config'.backend = config.backend) : Alike config'.validate config.validate := by
  rw [h.validate_eq, h'.validate_eq, hbackend]
  by_cases hshared : config.enumDir.steps = config.structDir.steps
  · rw [if_pos hshared, if_pos (hsteps.mpr hshared)]
    trivial
  · rw [if_neg hshared, if_neg (hsteps.not.mpr hshared)]
    split_ifs
    · rfl
    · rfl

/-- Below a root that is not empty two relative directories are refused as one if and only if they say
the same steps. Otherwise the configuration is refused if it names no backend, and accepted if it
does. Another root changes nothing about that, nor does it to exchange the directories. -/
theorem validate_decides (hroot : config.outputRoot.text ≠ "")
    (henums : config.enumDir.isAbsolute = false) (hstructs : config.structDir.isAbsolute = false) :
    (config.validate =
      if config.enumDir.steps = config.structDir.steps then
        .error (.config (.sharedDirectory config.enumOutputDir))
      else if config.backend = "" then .error (.config .emptyBackend)
      else .ok ()) ∧
    (∀ root : PathName, root.text ≠ "" →
      Alike { config with outputRoot := root }.validate config.validate) ∧
    Alike config.exchanged.validate config.validate := by
  have h : config.Rooted := ⟨hroot, henums, hstructs⟩
  refine ⟨h.validate_eq, fun root hother => ?_, ?_⟩
  · exact h.alike ⟨hother, henums, hstructs⟩ Iff.rfl rfl
  · exact h.alike h.exchanged eq_comm rfl

/-- The spellings `./gen//sub/.` and `gen/sub` are of one directory; but `gen/../gen` is not `gen`. -/
theorem validate_decides_spelled :
    let config : Config := { enumDir := ⟨"./gen//sub/."⟩, structDir := ⟨"gen/sub"⟩ }
    let config' : Config := { enumDir := ⟨"gen/../gen"⟩, structDir := ⟨"gen/"⟩, backend := "" }
    config.validate =
        .error (.config (.sharedDirectory ⟨"./Cpp-Implementation/./gen//sub/."⟩)) ∧
      Alike { config with outputRoot := ⟨"/"⟩ }.validate config.validate ∧
      config'.validate = .error (.config .emptyBackend) ∧
      Alike config'.exchanged.validate config'.validate := by
  intro config config'
  obtain ⟨hshared, hroot, -⟩ := @validate_decides config (by decide) (by decide) (by decide)
  obtain ⟨hbackend, -, hexchanged⟩ := @validate_decides config' (by decide) (by decide) (by decide)
  have hdir : config.enumOutputDir = ⟨"./Cpp-Implementation/./gen//sub/."⟩ := by decide
  rw [if_pos (by decide), hdir] at hshared
  rw [if_neg (by decide), if_pos rfl] at hbackend
  exact ⟨hshared, hroot ⟨"/"⟩ (by decide), hbackend, hexchanged⟩

end Config

end SchemaHeaders
