import SchemaHeaders.Proofs.CanonicalNames
import SchemaHeaders.Proofs.Items
import SchemaHeaders.Proofs.OwnFiles

/-!
# The order of declarations

The enums of a schema, and its structs, can be declared in any order (`Schema.Reordered`). Fields
may refer to types that are declared later, so a schema is accepted in each order or in none, and
the units of the accepted schemas differ by their order alone (`FollowOrder`). Where the type names
of the enums differ, and those of the structs, the files are written in each order or in none as
well, and the items of the trees are the same afterwards (`accepted_written_of_reordered`).

`writeEach_of_perm` is the reason for the latter : a header is written over none of the others, so
what is at its location does not depend on when it is written (`FileTree.Overlaid`). Which header
fails first does, and then so do the files that are left behind.
-/

namespace SchemaHeaders

open FileTree

/-! ## Accepted schemas -/

/-- A schema has the enums and the structs of another one, in orders of their own. -/
structure Schema.Reordered (schema schema' : Schema) : Prop where
  enums : schema'.enums.Perm schema.enums
  structs : schema'.structs.Perm schema.structs

namespace Schema.Reordered

variable {schema schema' : Schema} (h : schema.Reordered schema')

include h

theorem symm : schema'.Reordered schema := ⟨h.enums.symm, h.structs.symm⟩

theorem declaredNames : schema'.declaredNames.Perm schema.declaredNames :=
  (h.enums.map _).append (h.structs.map _)

theorem fields : schema'.fields.Perm schema.fields := h.structs.flatMap_right _

theorem undeclared_iff (type : String) : schema'.Undeclared type ↔ schema.Undeclared type := by
  rw [Undeclared, Undeclared, h.declaredNames.mem_iff]

/-- A schema that is accepted in one order is so in another : none of its faults is one of the
order. -/
theorem accepted {backend : Backend} {generated : Generated}
    (haccepted : generate backend schema = .ok generated) :
    ∃ generated', generate backend schema' = .ok generated' := by
  have hverdict := verdict_generate backend schema
  rw [haccepted] at hverdict
  cases hverdict with
  | accepted hunits hdeclared hdistinct hlengths =>
    have hkept := (emitEnums_ok_iff_not_refused backend schema.enums).mp
      ⟨_, (emitEnums_eq_ok_iff _ _ _).mpr hunits⟩
    obtain ⟨units', hunits'⟩ := (emitEnums_ok_iff_not_refused backend schema'.enums).mpr
      fun e he => hkept e (h.enums.mem_iff.mp he)
    refine ⟨_, Verdict.generate_eq (.accepted ((emitEnums_eq_ok_iff _ _ _).mp hunits')
      (fun field hfield => ?_) (h.declaredNames.nodup_iff.mpr hdistinct) fun field hfield => ?_)⟩
    · rw [h.undeclared_iff]
      exact hdeclared field (h.fields.mem_iff.mp hfield)
    · exact hlengths field (h.fields.mem_iff.mp hfield)

theorem accepted_iff (backend : Backend) :
    (∃ generated', generate backend schema' = .ok generated') ↔
      ∃ generated, generate backend schema = .ok generated :=
  ⟨fun ⟨_, haccepted⟩ => h.symm.accepted haccepted, fun ⟨_, haccepted⟩ => h.accepted haccepted⟩

end Schema.Reordered

/-! ## Units in their orders -/

/-- Units, one for each entry, are the same but for their order, which is that of the entries :
where the one list of entries has at some position what the other has at another, so have the
units. -/
structure FollowOrder {α : Type} (entries entries' : List α) (units units' : List HeaderUnit) :
    Prop where
  length : units.length = entries.length
  perm : units'.Perm units
  unit : ∀ i j : ℕ, entries'[i]? = entries[j]? → units'[i]? = units[j]?

/-- Units that are made one by one from their entries follow the order of these. -/
theorem followOrder_of_map {α : Type} {entries entries' : List α} {units units' : List HeaderUnit}
    {unit? : α → Option HeaderUnit} (hperm : entries'.Perm entries)
    (h : units.map some = entries.map unit?) (h' : units'.map some = entries'.map unit?) :
    FollowOrder entries entries' units units' where
  length := by simpa using congrArg List.length h
  perm := by
    rw [← List.map_perm_map_iff (Option.some_injective HeaderUnit), h, h']
    exact hperm.map unit?
  unit i j heq := by
    refine Option.map_injective (Option.some_injective HeaderUnit) ?_
    rw [← List.getElem?_map, ← List.getElem?_map, h, h', List.getElem?_map, List.getElem?_map, heq]

section Generate

variable {backend : Backend} {schema schema' : Schema} {generated generated' : Generated}

theorem enums_map_of_generate (h : generate backend schema = .ok generated) :
    generated.enums.map some = schema.enums.map fun e => (emitEnum backend e).toOption := by
  have hunits := enums_of_generate h
  rw [← List.forall₂_eq_eq_eq, List.forall₂_map_left_iff, List.forall₂_map_right_iff]
  refine hunits.flip.imp fun unit e he => ?_
  rw [he]
  rfl

theorem structs_map_of_generate (h : generate backend schema = .ok generated) :
    generated.structs.map some = schema.structs.map fun s => some (emitStruct backend s) := by
  rw [structs_of_generate h, List.map_map]
  rfl

/-- The units of an accepted schema follow the orders of its enums and structs. -/
theorem Schema.Reordered.followOrder (hreordered : schema.Reordered schema')
    (h : generate backend schema = .ok generated) (h' : generate backend schema' = .ok generated') :
    FollowOrder schema.enums schema'.enums generated.enums generated'.enums ∧
      FollowOrder schema.structs schema'.structs generated.structs generated'.structs :=
  ⟨followOrder_of_map hreordered.enums (enums_map_of_generate h) (enums_map_of_generate h'),
    followOrder_of_map hreordered.structs (structs_map_of_generate h) (structs_map_of_generate h')⟩

end Generate

/-! ## Writing -/

/-- The headers of some units are in a directory, and all else is as before. -/
structure FileTree.Overlaid (directory : Location) (extension : String) (units : List HeaderUnit)
    (tree tree' : FileTree) : Prop where
  header : ∀ unit ∈ units, tree'.item? ((unit.typeName ++ extension) :: directory) =
    some (.file (.text unit.code))
  elsewhere : ∀ location,
    (∀ unit ∈ units, location ≠ (unit.typeName ++ extension) :: directory) →
    tree'.item? location = tree.item? location

/-- What is overlaid with some units has the same items in whichever order these come. -/
theorem FileTree.Overlaid.sameItems {directory : Location} {extension : String}
    {units units' : List HeaderUnit} {tree tree' written written' : FileTree}
    (h : Overlaid directory extension units tree written)
    (h' : Overlaid directory extension units' tree' written') (hperm : units'.Perm units)
    (hsame : SameItems tree tree') (hcurrent : written'.current = written.current) :
    SameItems written written' := by
  refine ⟨hcurrent, fun location => ?_⟩
  by_cases hheader : ∃ unit ∈ units, location = (unit.typeName ++ extension) :: directory
  · obtain ⟨unit, hunit, rfl⟩ := hheader
    rw [h.header unit hunit, h'.header unit (hperm.mem_iff.mpr hunit)]
  · push Not at hheader
    have hheader' : ∀ unit ∈ units', location ≠ (unit.typeName ++ extension) :: directory :=
      fun unit hunit => hheader unit (hperm.mem_iff.mp hunit)
    rw [h.elsewhere location hheader, h'.elsewhere location hheader', hsame.item]

variable {dir : PathName} {extension : String} {units units' : List HeaderUnit}
  {world world' after : World} {paths : List PathName}

/-- Units of different type names are overlaid when they have been written. -/
theorem overlaid_of_writeEach (hsimple : world.tree.Simple)
    (hnodup : (units.map (·.typeName)).Nodup)
    (hnames : ∀ unit ∈ units, IsEntryName (unit.typeName ++ extension))
    (h : (writeEach dir extension units).outcome world = (.ok paths, after)) :
    Overlaid (world.tree.addressOf dir) extension units world.tree after.tree := by
  obtain ⟨-, -, hlast⟩ := writeEach_headers units world hsimple hnames h
  have hwithin := (writeEach_within (hsimple.linkFree.noLinksIn dir) hnames).of_outcome h
  refine ⟨fun unit hunit => hlast unit (HeaderUnit.lastIn_of_nodup hnodup hunit),
    fun location hother => (hwithin.changed (.refl hsimple.wellFormed) location).resolve_right ?_⟩
  rintro ⟨content, -, unit, hunit, directory, hdirectory, hlocation, -⟩
  obtain rfl := address_of_directoryOf? hsimple.linkFree hdirectory
  exact hother unit hunit hlocation

/-- Units of different type names that can be written in one order can be in another, with the same
items afterwards. -/
theorem writeEach_of_perm (hperm : units'.Perm units) (hnodup : (units.map (·.typeName)).Nodup)
    (hnames : ∀ unit ∈ units, IsEntryName (unit.typeName ++ extension))
    (hsimple : world.tree.Simple) (hsimple' : world'.tree.Simple)
    (hsame : SameItems world.tree world'.tree)
    (h : (writeEach dir extension units).outcome world = (.ok paths, after)) :
    ∃ paths' after', (writeEach dir extension units').outcome world' = (.ok paths', after') ∧
      SameItems after.tree after'.tree := by
  have hevolves := (writeEach_moves dir extension units fun _ _ _ _ => write_evolves).of_outcome h
  have hoverlaid := overlaid_of_writeEach hsimple hnodup hnames h
  obtain ⟨-, hfollows, -⟩ := writeEach_headers units world hsimple hnames h
  obtain ⟨paths', after', h'⟩ : ∃ paths' after',
      (writeEach dir extension units').outcome world' = (.ok paths', after') := by
    cases units' with
    | nil => exact ⟨[], world', rfl⟩
    | cons first others =>
      have hdirectory := (hfollows first (hperm.mem_iff.mp (List.mem_cons_self ..))).2
      rw [← hsame.directoryOf?_eq] at hdirectory
      refine writeEach_ok _ hsimple' hdirectory fun unit hunit => ?_
      have hunit := hperm.mem_iff.mp hunit
      refine ⟨(hfollows unit hunit).1, fun hdir => ?_⟩
      -- A directory would still be where the header was written.
      rw [hsame.item] at hdir
      have hkept := hevolves.directories hsimple.wellFormed hdir
      rw [hoverlaid.header unit hunit] at hkept
      cases hkept
  have hevolves' :=
    (writeEach_moves dir extension units' fun _ _ _ _ => write_evolves).of_outcome h'
  have hoverlaid' := overlaid_of_writeEach hsimple' ((hperm.map _).nodup_iff.mpr hnodup)
    (fun unit hunit => hnames unit (hperm.mem_iff.mp hunit)) h'
  rw [hsame.addressOf_eq] at hoverlaid'
  exact ⟨paths', after', h', hoverlaid.sameItems hoverlaid' hperm hsame
    (by rw [hevolves'.current, hevolves.current, hsame.current])⟩

/-- So it is with a directory that is prepared first. -/
theorem writeUnits_of_perm (hperm : units'.Perm units) (hnodup : (units.map (·.typeName)).Nodup)
    (hnames : ∀ unit ∈ units, IsEntryName (unit.typeName ++ extension))
    (hsimple : world.tree.Simple) (hsimple' : world'.tree.Simple)
    (hsame : SameItems world.tree world'.tree)
    (h : (writeUnits dir units extension).outcome world = (.ok paths, after)) :
    ∃ paths' after', (writeUnits dir units' extension).outcome world' = (.ok paths', after') ∧
      SameItems after.tree after'.tree := by
  obtain ⟨_, prepared, hprepare, hwrite⟩ := Step.outcome_bind_eq_ok_iff.mp h
  obtain ⟨prepared', hprepare', hprepared⟩ := prepareDir_sameItems hsimple hsimple' hsame hprepare
  obtain ⟨paths', after', hwrite', hafter⟩ := writeEach_of_perm hperm hnodup hnames
    (((prepareDir_evolves dir).of_outcome hprepare).simple hsimple)
    (((prepareDir_evolves dir).of_outcome hprepare').simple hsimple') hprepared hwrite
  exact ⟨paths', after',
    Step.outcome_bind_eq_ok_iff.mpr ⟨(), prepared', hprepare', hwrite'⟩, hafter⟩

/-- The type names of the enums differ, those of the structs do, and none has a slash. -/
structure Generated.Distinct (generated : Generated) : Prop where
  enums : (generated.enums.map (·.typeName)).Nodup
  structs : (generated.structs.map (·.typeName)).Nodup
  no_slash : ∀ unit ∈ generated.units, '/' ∉ unit.typeName.toList

section Generated

variable {generated generated' : Generated} {enumDir structDir : PathName} {summary : Summary}
  (henums : generated'.enums.Perm generated.enums)
  (hstructs : generated'.structs.Perm generated.structs)

include henums hstructs

theorem Generated.Distinct.of_perm (h : generated.Distinct) : generated'.Distinct where
  enums := (henums.map _).nodup_iff.mpr h.enums
  structs := (hstructs.map _).nodup_iff.mpr h.structs
  no_slash unit hunit := h.no_slash unit ((henums.append hstructs).mem_iff.mp hunit)

/-- Headers that can be written in one order can be in another, with the same items afterwards. -/
theorem writeGenerated_of_perm (hextension : generated.extension = ".h")
    (hextension' : generated'.extension = ".h") (hdistinct : generated.Distinct)
    (hsimple : world.tree.Simple)
    (h : (writeGenerated generated enumDir structDir).outcome world = (.ok summary, after)) :
    ∃ summary' after',
      (writeGenerated generated' enumDir structDir).outcome world = (.ok summary', after') ∧
        SameItems after.tree after'.tree := by
  have hnames : ∀ unit ∈ generated.units, IsEntryName (unit.typeName ++ ".h") :=
    fun unit hunit => isEntryName_header (hdistinct.no_slash unit hunit)
  rw [writeGenerated, hextension] at h
  obtain ⟨enumFiles, between, henum, hrest⟩ := Step.outcome_bind_eq_ok_iff.mp h
  obtain ⟨structFiles, last, hstruct, hpure⟩ := Step.outcome_bind_eq_ok_iff.mp hrest
  cases hpure
  obtain ⟨enumFiles', between', henum', hbetween⟩ := writeUnits_of_perm henums hdistinct.enums
    (fun unit hunit => hnames unit (List.mem_append_left _ hunit)) hsimple hsimple
    (.refl world.tree) henum
  obtain ⟨structFiles', last', hstruct', hlast⟩ := writeUnits_of_perm hstructs hdistinct.structs
    (fun unit hunit => hnames unit (List.mem_append_right _ hunit))
    (((writeUnits_evolves _ _ _).of_outcome henum).simple hsimple)
    (((writeUnits_evolves _ _ _).of_outcome henum').simple hsimple) hbetween hstruct
  refine ⟨⟨enumFiles', structFiles'⟩, last', ?_, hlast⟩
  rw [writeGenerated, hextension']
  exact Step.outcome_bind_eq_ok_iff.mpr ⟨_, _, henum',
    Step.outcome_bind_eq_ok_iff.mpr ⟨_, _, hstruct', rfl⟩⟩

end Generated

/-! ## Reordered schemas -/

/-- A schema is accepted in each order of its enums and of its structs or in none. The units of an
accepted schema follow these orders ; if their type names are told apart, then whatever the
directories, the headers can be written in both orders or in neither, and the items of the trees are
the same afterwards. -/
theorem accepted_written_of_reordered {backend : Backend} {schema schema' : Schema}
    (h : schema.Reordered schema') :
    ((∃ generated', generate backend schema' = .ok generated') ↔
        ∃ generated, generate backend schema = .ok generated) ∧
      ∀ {generated generated' : Generated}, generate backend schema = .ok generated →
        generate backend schema' = .ok generated' →
        FollowOrder schema.enums schema'.enums generated.enums generated'.enums ∧
        FollowOrder schema.structs schema'.structs generated.structs generated'.structs ∧
        (backend.extension = ".h" → generated.Distinct →
          ∀ (enumDir structDir : PathName) (world : World), world.tree.Simple →
          ((∃ summary' after', (writeGenerated generated' enumDir structDir).outcome world =
              (.ok summary', after')) ↔
            ∃ summary after, (writeGenerated generated enumDir structDir).outcome world =
              (.ok summary, after)) ∧
          ∀ {summary summary' : Summary} {after after' : World},
            (writeGenerated generated enumDir structDir).outcome world = (.ok summary, after) →
            (writeGenerated generated' enumDir structDir).outcome world = (.ok summary', after') →
            SameItems after.tree after'.tree) := by
  refine ⟨h.accepted_iff backend, fun {generated generated'} hgenerate hgenerate' => ?_⟩
  obtain ⟨henums, hstructs⟩ := h.followOrder hgenerate hgenerate'
  refine ⟨henums, hstructs, fun hheader hdistinct enumDir structDir world hsimple => ?_⟩
  have hdistinct' := hdistinct.of_perm henums.perm hstructs.perm
  have hextension := (extension_of_generate hgenerate).trans hheader
  have hextension' := (extension_of_generate hgenerate').trans hheader
  refine ⟨⟨?_, ?_⟩, fun {summary summary' after after'} hwrite hwrite' => ?_⟩
  · rintro ⟨_, _, hwrite'⟩
    obtain ⟨summary, after, hwrite, -⟩ := writeGenerated_of_perm henums.perm.symm
      hstructs.perm.symm hextension' hextension hdistinct' hsimple hwrite'
    exact ⟨summary, after, hwrite⟩
  · rintro ⟨_, _, hwrite⟩
    obtain ⟨summary', after', hwrite', -⟩ := writeGenerated_of_perm henums.perm hstructs.perm
      hextension hextension' hdistinct hsimple hwrite
    exact ⟨summary', after', hwrite'⟩
  · obtain ⟨_, _, hother, hsame⟩ := writeGenerated_of_perm henums.perm hstructs.perm
      hextension hextension' hdistinct hsimple hwrite
    rw [hwrite'] at hother
    cases hother
    exact hsame

/-- A struct that refers to one that is declared after it. -/
def Schema.forward : Schema where
  enums := [⟨"color", none, [⟨"red", none⟩]⟩, ⟨"width", none, []⟩]
  structs := [⟨"line", [⟨"from", "point", none⟩, ⟨"to", "point", none⟩, ⟨"color", "color", none⟩]⟩,
    ⟨"point", [⟨"x", "width", none⟩]⟩]

/-- The same declarations from the last to the first. -/
def Schema.backward : Schema := ⟨Schema.forward.enums.reverse, Schema.forward.structs.reverse⟩

theorem accepted_written_of_reordered_forward :
    ∃ generated generated', generate .cpp .forward = .ok generated ∧
      generate .cpp .backward = .ok generated' ∧
      generated'.structs[0]? = generated.structs[1]? ∧
      ∃ summary summary' after after',
        (writeGenerated generated ⟨"enums"⟩ ⟨"structs"⟩).outcome ⟨{}, []⟩ = (.ok summary, after) ∧
        (writeGenerated generated' ⟨"enums"⟩ ⟨"structs"⟩).outcome ⟨{}, []⟩ =
          (.ok summary', after') ∧
        summary.structFiles = [⟨"structs/Line.h"⟩, ⟨"structs/Point.h"⟩] ∧
        SameItems after.tree after'.tree := by
  have hforward : (generate .cpp .forward).toOption.any (fun generated =>
      decide ((generated.enums.map (·.typeName)).Nodup ∧
        (generated.structs.map (·.typeName)).Nodup ∧
        (∀ unit ∈ generated.units, '/' ∉ unit.typeName.toList) ∧
        ((writeGenerated generated ⟨"enums"⟩ ⟨"structs"⟩).outcome ⟨{}, []⟩).1 =
          .ok ⟨[⟨"enums/Color.h"⟩, ⟨"enums/Width.h"⟩],
            [⟨"structs/Line.h"⟩, ⟨"structs/Point.h"⟩]⟩)) = true := by
    decide +kernel
  cases hgenerate : generate .cpp .forward with
  | error failure =>
    rw [hgenerate] at hforward
    cases hforward
  | ok generated =>
    rw [hgenerate] at hforward
    obtain ⟨henums, hstructs, hslash, hwritten⟩ := of_decide_eq_true hforward
    obtain ⟨hiff, hall⟩ := @accepted_written_of_reordered .cpp .forward .backward
      ⟨List.reverse_perm _, List.reverse_perm _⟩
    obtain ⟨generated', hgenerate'⟩ := hiff.mpr ⟨generated, hgenerate⟩
    obtain ⟨-, hfollow, hwrites⟩ := hall hgenerate hgenerate'
    obtain ⟨hwrite, hsame⟩ :=
      hwrites rfl ⟨henums, hstructs, hslash⟩ ⟨"enums"⟩ ⟨"structs"⟩ ⟨{}, []⟩ simple_root
    have hok := Step.outcome_eq_of_fst hwritten
    obtain ⟨summary', after', hok'⟩ := hwrite.mpr ⟨_, _, hok⟩
    exact ⟨generated, generated', rfl, hgenerate', hfollow.unit 0 1 rfl, _, summary', _, after',
      hok, hok', rfl, hsame hok hok'⟩

end SchemaHeaders
