import SchemaHeaders.Proofs.Frame
import SchemaHeaders.Proofs.HeaderText
import SchemaHeaders.Proofs.OwnFiles
import SchemaHeaders.Proofs.References

/-!
# One directory under two spellings

A configuration is refused if its two directories have the same components, while directories are
made, cleared and written where the paths lead. Without links this is where the pieces of
a path lead step by step (`FileTree.addressOf`), and paths with different components, as `./gen`
and `gen`, can have one address.

`enumHeader_kept_iff` : after a run that succeeds the header of an enum is still there if and only
if the two addresses differ, or the other path led nowhere before its directory was prepared, so
that nothing was cleared, and no struct has the type name of the enum.
-/

namespace SchemaHeaders

open FileTree PathName

namespace FileTree

variable {tree tree' : FileTree} {final : Bool} {spot : Spot} {location directory : Location}
  {dir path : PathName} {name : String} {follow : Location → List (List Char) → Except IoCause Spot}

/-! ## Reading entries -/

/-- Reading a file in the directory of a path reads what is at its location. -/
theorem read_join_iff (hsimple : tree.Simple) (hdir : tree.directoryOf? dir = some directory)
    (hfollows : Follows dir name) (text : String) :
    tree.read (dir.join ⟨name⟩) = .ok text ↔
      tree.item? (name :: directory) = some (.file (.text text)) := by
  constructor
  · intro h
    unfold read at h
    split at h
    · cases h
    · rename_i location content hspot
      cases h
      have hitem : tree.item? location = some (.file (.text text)) :=
        locate_fits hsimple.wellFormed hspot
      obtain ⟨found, hfound, hlocation⟩ := locate_join hfollows.isName hspot
        fun _ _ _ => hsimple.linkFree _ _
      obtain rfl : location = name :: found := hlocation
      obtain rfl : found = directory := Option.some.inj (hfound.symm.trans hdir)
      exact hitem
    all_goals cases h
  · intro hitem
    rw [read, locate, reach_join_spotOf hsimple.linkFree hdir hfollows, spotOf, hitem]

end FileTree

/-! ## Writing units -/

variable {dir : PathName} {extension : String} {units : List HeaderUnit} {world world' : World}

/-- If units can be written in a tree without links, they are at the address of the directory. -/
theorem writeUnits_headers {paths : List PathName} (hsimple : world.tree.Simple)
    (hnames : ∀ unit ∈ units, IsEntryName (unit.typeName ++ extension))
    (h : (writeUnits dir units extension).outcome world = (.ok paths, world')) :
    paths = units.map (·.path dir extension) ∧
      (∀ unit ∈ units, Follows dir (unit.typeName ++ extension) ∧
        world'.tree.directoryOf? dir = some (world'.tree.addressOf dir)) ∧
      ∀ unit : HeaderUnit, unit.LastIn units →
        world'.tree.item? ((unit.typeName ++ extension) :: world'.tree.addressOf dir) =
          some (.file (.text unit.code)) := by
  obtain ⟨_, prepared, hprepare, hwrite⟩ := Step.outcome_bind_eq_ok_iff.mp h
  have hprepared := ((prepareDir_evolves dir).of_outcome hprepare).simple hsimple
  have hevolves := (writeEach_moves dir extension units
    fun _ _ _ _ => write_evolves).of_outcome hwrite
  obtain ⟨hpaths, hfollows, hlast⟩ := writeEach_headers units prepared hprepared hnames hwrite
  rw [hevolves.addressOf dir]
  exact ⟨hpaths, fun unit hunit => ⟨(hfollows unit hunit).1,
    (hevolves.waysKept hprepared).directoryOf? (hfollows unit hunit).2⟩, hlast⟩

/-- If an entry of a directory is still there once this is prepared, and is no directory, then the
path of the directory led nowhere before. -/
theorem absent_of_kept (hsimple : world.tree.Simple)
    (h : (prepareDir dir).outcome world = (.ok (), world')) {name : String} {item : Item}
    (hitem : world'.tree.item? (name :: world.tree.addressOf dir) = some item)
    (hne : item ≠ .directory) : world.tree.isPresent dir = false := by
  by_contra hpresent
  have hpresent : world.tree.isPresent dir = true := by simpa using hpresent
  obtain ⟨directory, hdir⟩ := directoryOf?_of_present hsimple.wellFormed hpresent h
  have hdirectory := (((prepareDir_evolves dir).of_outcome h).waysKept hsimple).directoryOf? hdir
  rw [address_of_directoryOf? hsimple.linkFree hdir] at hdirectory
  exact hne (prepareDir_clean_of_present hsimple.wellFormed hpresent h hdirectory hitem)

/-- A header at the address where units are written stays if and only if their path led nowhere
before and none of them has its type name. -/
theorem writeUnits_over_iff {paths : List PathName} (hsimple : world.tree.Simple)
    (hnames : ∀ unit ∈ units, IsEntryName (unit.typeName ++ extension))
    (h : (writeUnits dir units extension).outcome world = (.ok paths, world'))
    {unit : HeaderUnit} (hcode : ∀ other ∈ units, other.typeName = unit.typeName →
      other.code ≠ unit.code)
    (hitem : world.tree.item? ((unit.typeName ++ extension) :: world.tree.addressOf dir) =
      some (.file (.text unit.code))) :
    world'.tree.item? ((unit.typeName ++ extension) :: world.tree.addressOf dir) =
        some (.file (.text unit.code)) ↔
      world.tree.isPresent dir = false ∧ ∀ other ∈ units, other.typeName ≠ unit.typeName := by
  obtain ⟨_, prepared, hprepare, hwrite⟩ := Step.outcome_bind_eq_ok_iff.mp h
  have hevolves := (prepareDir_evolves dir).of_outcome hprepare
  have hprepared := hevolves.simple hsimple
  have hspares := @writeEach_spares _ _ _ _ _ _ hprepared hnames hwrite unit.typeName
  constructor
  · intro hkept
    have hothers : ∀ other ∈ units, other.typeName ≠ unit.typeName := by
      intro other hother hname
      obtain ⟨last, hlast, hlastName⟩ := HeaderUnit.exists_lastIn ⟨other, hother, hname⟩
      have hwritten := (writeEach_headers units prepared hprepared hnames hwrite).2.2 last hlast
      rw [hlastName, hevolves.addressOf dir, hkept] at hwritten
      have hcodes : unit.code = last.code := by simpa using hwritten
      exact hcode last hlast.mem hlastName hcodes.symm
    rw [hspares hothers] at hkept
    exact ⟨absent_of_kept hsimple hprepare hkept (by simp), hothers⟩
  · rintro ⟨habsent, hothers⟩
    rw [hspares hothers]
    exact (prepareDir_grows_of_absent habsent hprepare).item?_of_some hsimple.wellFormed hitem

/-- A header that can be read can still be read after units have been written, if and only if they
were written at another address, or their path led nowhere before and none of them has the
type name of the header. -/
theorem read_writeUnits_iff {second : PathName} {paths : List PathName}
    (hsimple : world.tree.Simple)
    (hnames : ∀ unit ∈ units, IsEntryName (unit.typeName ++ extension))
    (h : (writeUnits second units extension).outcome world = (.ok paths, world'))
    {unit : HeaderUnit} (hcode : ∀ other ∈ units, other.typeName = unit.typeName →
      other.code ≠ unit.code)
    (hfollows : Follows dir (unit.typeName ++ extension))
    (hdir : world.tree.directoryOf? dir = some (world.tree.addressOf dir))
    (hitem : world.tree.item? ((unit.typeName ++ extension) :: world.tree.addressOf dir) =
      some (.file (.text unit.code))) :
    world'.tree.read (unit.path dir extension) = .ok unit.code ↔
      world.tree.addressOf dir ≠ world.tree.addressOf second ∨
        world.tree.isPresent second = false ∧ ∀ other ∈ units, other.typeName ≠ unit.typeName := by
  have hevolves := (writeUnits_evolves _ _ _).of_outcome h
  have hlater := (hevolves.waysKept hsimple).directoryOf? hdir
  refine (read_join_iff (hevolves.simple hsimple) hlater hfollows unit.code).trans ?_
  by_cases haddress : world.tree.addressOf dir = world.tree.addressOf second
  · rw [haddress] at hitem ⊢
    rw [or_iff_right (fun hne => hne rfl)]
    exact writeUnits_over_iff hsimple hnames h hcode hitem
  · refine iff_of_true ?_ (Or.inl haddress)
    rcases writeUnits_changed hsimple hnames h
      ((unit.typeName ++ extension) :: world.tree.addressOf dir) with
      hsame | ⟨hnone, -⟩ | ⟨name, hlocation⟩
    · exact hsame.trans hitem
    · exact absurd (hnone.symm.trans hitem) (by simp)
    · exact absurd (List.cons.inj hlocation).2 haddress

/-! ## Codes of enums and structs -/

/-- The headers of an enum and of a struct are of different codes, also if their types have one
name. -/
theorem code_ne_of_generate {schema : Schema} {generated : Generated}
    (h : generate .cpp schema = .ok generated) {unit other : HeaderUnit}
    (hunit : unit ∈ generated.enums) (hother : other ∈ generated.structs)
    (hname : other.typeName = unit.typeName) : other.code ≠ unit.code := by
  have hverdict := verdict_generate .cpp schema
  rw [h] at hverdict
  cases hverdict with
  | accepted hunits =>
    obtain ⟨s, -, rfl⟩ := List.mem_map.mp hother
    obtain ⟨e, -, he⟩ := exists_of_mem_emitted hunits hunit
    obtain ⟨decl, rfl⟩ := emitEnum_ok he
    have htypeName : pascalCase s.name = pascalCase e.name := hname
    intro hcode
    change Cpp.frame (pascalCase s.name) _ = Cpp.frame (pascalCase e.name) _ at hcode
    rw [htypeName] at hcode
    exact Cpp.renderEnum_ne_renderStruct _ _ (Cpp.frame_injective hcode).symm

/-! ## Runs -/

variable {config : Config}

/-- If a run succeeds in a tree without links, no type name has a slash and those of the enums are
different, then the header of an enum is still there at the end if and only if the two
directories have different addresses, or the path of the other led nowhere when its preparation
began and no struct has the type name of the enum. -/
theorem enumHeader_kept_iff {summary : Summary} (hsimple : world.tree.Simple)
    (hslash : ∀ generated, ((check config).outcome world).1 = .ok generated →
      ∀ unit ∈ generated.enums ++ generated.structs, '/' ∉ unit.typeName.toList)
    (hdistinct : ∀ generated, ((check config).outcome world).1 = .ok generated →
      (generated.enums.map (·.typeName)).Nodup)
    (h : (run config).outcome world = (.ok summary, world')) :
    ∃ generated begins, ((check config).outcome world).1 = .ok generated ∧
      Preparation config world config.structOutputDir generated.structs begins ∧
      summary.enumFiles = generated.enums.map (·.path config.enumOutputDir ".h") ∧
      ∀ unit ∈ generated.enums,
        world'.tree.read (unit.path config.enumOutputDir ".h") = .ok unit.code ↔
          world.tree.addressOf config.enumOutputDir ≠
              world.tree.addressOf config.structOutputDir ∨
            begins.tree.isPresent config.structOutputDir = false ∧
              ∀ other ∈ generated.structs, other.typeName ≠ unit.typeName := by
  obtain ⟨generated, checked, begins, written, hcheck, hchecked, henums, hstructs, htree⟩ :=
    run_ok h
  have hok : ((check config).outcome world).1 = .ok generated := by rw [hcheck]
  have hbegin := Preparation.structs hcheck (check_extension hcheck ▸ henums)
  obtain ⟨schema, hgenerate⟩ := generate_of_check hcheck
  have hnames : ∀ unit ∈ generated.enums ++ generated.structs,
      IsEntryName (unit.typeName ++ ".h") := fun unit hunit =>
    isEntryName_header (hslash generated hok unit hunit)
  have henumNames := fun unit hunit => hnames unit (List.mem_append_left _ hunit)
  have hstructNames := fun unit hunit => hnames unit (List.mem_append_right _ hunit)
  have hevolves := (writeUnits_evolves _ _ _).of_outcome henums
  rw [hchecked] at hevolves
  obtain ⟨hpaths, hfollows, hlast⟩ := writeUnits_headers (hchecked ▸ hsimple) henumNames henums
  refine ⟨generated, begins, hok, hbegin, hpaths, fun unit hunit => ?_⟩
  obtain ⟨hfollows, hdir⟩ := hfollows unit hunit
  have hitem := hlast unit (HeaderUnit.lastIn_of_nodup (hdistinct generated hok) hunit)
  have hcode : ∀ other ∈ generated.structs, other.typeName = unit.typeName →
      other.code ≠ unit.code := fun other hother =>
    code_ne_of_generate hgenerate hunit hother
  rw [htree, ← hevolves.addressOf, ← hevolves.addressOf]
  exact read_writeUnits_iff (hevolves.simple hsimple) hstructNames hstructs hcode hfollows hdir hitem

/-- The enums go to the directory above that of the structs, on a path that leads up from it. -/
theorem enumHeader_kept_iff_above :
    let schema := "\x7b\"enum\": [\x7b\"name\": \"a\"\x7d], \"struct\": [\x7b\"name\": \"b\"\x7d]\x7d"
    let tree := (({} : FileTree).set ["types.json"] (.file (.text schema))).set ["out"] .directory
    let config : Config :=
      { schema := ⟨"types.json"⟩, outputRoot := ⟨"out"⟩, enumDir := ⟨".."⟩, structDir := ⟨"."⟩ }
    let after := ((run config).outcome ⟨tree, []⟩).2.tree
    ∃ generated : Generated, generated.enums.map (·.name) = ["a"] ∧
      ∀ unit ∈ generated.enums,
        after.read (unit.path config.enumOutputDir ".h") = .ok unit.code := by
  intro schema tree config after
  have hsimple : tree.Simple := by
    refine (simple_root.set ?_ rfl ?_ ?_).set ?_ rfl ?_ ?_
    all_goals first | decide | simp
  have hcheck : (((check config).outcome ⟨tree, []⟩).1.toOption.all fun generated =>
      decide (generated.enums.map (·.name) = ["a"] ∧ (generated.enums.map (·.typeName)).Nodup ∧
        ∀ unit ∈ generated.enums ++ generated.structs, '/' ∉ unit.typeName.toList)) = true := by
    decide +kernel
  have hall : ∀ generated, ((check config).outcome ⟨tree, []⟩).1 = .ok generated →
      generated.enums.map (·.name) = ["a"] ∧ (generated.enums.map (·.typeName)).Nodup ∧
        ∀ unit ∈ generated.enums ++ generated.structs, '/' ∉ unit.typeName.toList := by
    intro generated hok
    rw [hok] at hcheck
    exact of_decide_eq_true hcheck
  have hrun : ((run config).outcome ⟨tree, []⟩).1 =
      .ok ⟨[⟨"out/../A.h"⟩], [⟨"out/./B.h"⟩]⟩ := by
    decide +kernel
  obtain ⟨generated, begins, hok, -, -, hkept⟩ := @enumHeader_kept_iff ⟨tree, []⟩ _ config _ hsimple
    (fun generated hok => (hall generated hok).2.2) (fun generated hok => (hall generated hok).2.1)
    (Step.outcome_eq_of_fst hrun)
  exact ⟨generated, (hall generated hok).1, fun unit hunit =>
    (hkept unit hunit).mpr (Or.inl (by decide))⟩

/-- That the components of the two directories differ does not keep the headers of enums. -/
theorem not_forall_enumHeaders_kept :
    ¬∀ (config : Config) (world world' : World) (generated : Generated) (summary : Summary),
      world.tree.Simple → ((check config).outcome world).1 = .ok generated →
      (∀ unit ∈ generated.enums ++ generated.structs, '/' ∉ unit.typeName.toList) →
      (generated.enums.map (·.typeName)).Nodup → (generated.structs.map (·.typeName)).Nodup →
      (run config).outcome world = (.ok summary, world') →
      ∀ unit ∈ generated.enums,
        world'.tree.read (unit.path config.enumOutputDir ".h") = .ok unit.code := by
  intro h
  let schema := "\x7b\"enum\": [\x7b\"name\": \"a\"\x7d], \"struct\": []\x7d"
  let tree := ({} : FileTree).set ["types.json"] (.file (.text schema))
  let config : Config :=
    { schema := ⟨"types.json"⟩, outputRoot := ⟨""⟩, enumDir := ⟨"./gen"⟩, structDir := ⟨"gen"⟩ }
  let unit : HeaderUnit := ⟨"a", "A", Cpp.frame "A" (Cpp.renderEnum ⟨"A", none, []⟩), []⟩
  have hsimple : tree.Simple := by
    refine simple_root.set ?_ rfl ?_ ?_
    all_goals first | decide | simp
  have hcheck : ((check config).outcome ⟨tree, []⟩).1 = .ok ⟨[unit], [], ".h"⟩ := by
    decide +kernel
  have hrun : ((run config).outcome ⟨tree, []⟩).1 = .ok ⟨[⟨"./gen/A.h"⟩], []⟩ ∧
      ((run config).outcome ⟨tree, []⟩).2.tree.read (unit.path config.enumOutputDir ".h") =
        .error .notFound := by
    decide +kernel
  obtain ⟨hok, hgone⟩ := hrun
  have hkept := h config ⟨tree, []⟩ _ _ _ hsimple hcheck (by decide) (by decide) (by decide)
    (Step.outcome_eq_of_fst hok) unit (List.mem_singleton.mpr rfl)
  rw [hgone] at hkept
  cases hkept

end SchemaHeaders
