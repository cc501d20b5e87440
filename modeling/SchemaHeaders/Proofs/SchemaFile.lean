import SchemaHeaders.Proofs.Frame

/-!
# The file of the schema

A run reads its schema from a file, and clears and writes two directories. No header is written over
the file, since headers have another extension than schemas (`ofPath_of_fileName?_header`). But
whatever is directly inside a directory that is there goes when the directory is prepared
(`prepareDir_file_iff`), the schema among the rest. So after a run that succeeds the schema can
still be read if and only if it was in neither of the two directories when that was prepared
(`schemaFile_kept_iff`).
-/

namespace SchemaHeaders

open FileTree PathName

/-! ## File names -/

namespace Text

/-- What has no separator in it only makes the last piece longer. -/
theorem pieces_append_right {sep : Char} {b : List Char} (hb : sep ∉ b) :
    ∀ a : List Char, ∃ before last,
      (pieces sep (a ++ b)).1 :: (pieces sep (a ++ b)).2 = before ++ [last ++ b]
  | [] => ⟨[], [], by rw [List.nil_append, pieces_of_sep_not_mem hb]; rfl⟩
  | c :: a => by
    obtain ⟨before, last, h⟩ := pieces_append_right hb a
    rw [List.cons_append, pieces]
    by_cases hc : c = sep
    · exact ⟨[] :: before, last, by simp [hc, h]⟩
    · cases before with
      | nil =>
        obtain ⟨hfirst, hothers⟩ := List.cons.inj h
        exact ⟨[], c :: last, by simp [hc, hfirst, hothers]⟩
      | cons first before =>
        obtain ⟨hfirst, hothers⟩ := List.cons.inj h
        exact ⟨(c :: first) :: before, last, by simp [hc, hfirst, hothers]⟩

end Text

namespace PathName

/-- The last piece that says a name is the file name, if only empty pieces follow it. -/
theorem fileName?_of_pieces {p : PathName} {before empties : List (List Char)} {piece : List Char}
    {name : String} (hpieces : piecesOf p = before ++ piece :: empties)
    (hempties : ∀ e ∈ empties, e = []) (hname : pieceName? piece = some name) :
    p.fileName? = some name := by
  obtain ⟨hpiece, hskip, hup⟩ := piece_of_pieceName? hname
  have hcomponent : component? piece = some (.name name) := by
    rw [component?, if_neg hskip, if_neg hup, hpiece]
  have hnone : empties.filterMap component? = [] :=
    List.filterMap_eq_nil_iff.mpr fun e he => by rw [hempties e he]; rfl
  suffices hlast : ∃ above, p.components = above ++ [.name name] by
    obtain ⟨above, habove⟩ := hlast
    rw [fileName?, habove, List.getLast?_concat]
  cases before with
  | nil =>
    have hfirst : (Text.pieces '/' p.text.toList).1 = piece := (List.cons.inj hpieces).1
    have hrelative : ¬p.isAbsolute = true := fun habs =>
      hskip (Or.inl (hfirst.symm.trans (pieces_fst_of_isAbsolute habs)))
    refine ⟨[], ?_⟩
    rw [components_of_pieces hpieces, hnone, leading, if_neg hrelative,
      if_neg fun hhere => hskip (Or.inr hhere), hcomponent]
    rfl
  | cons first before =>
    refine ⟨p.leading first ++ before.filterMap component?, ?_⟩
    have hothers : piecesOf p = first :: (before ++ piece :: empties) := hpieces
    rw [components_of_pieces hothers, List.filterMap_append, List.filterMap_cons_some hcomponent,
      hnone, List.append_assoc]

end PathName

/-- A path that is spelled with `.h` at its end has a file name of which this is the end. -/
theorem fileName?_header {path : PathName} {before : String} (h : path.text = before ++ ".h") :
    ∃ stem : String, path.fileName? = some (stem ++ ".h") := by
  have hslash : '/' ∉ ".h".toList := by decide
  obtain ⟨above, last, hpieces⟩ := Text.pieces_append_right hslash before.toList
  rw [← String.toList_append, ← h] at hpieces
  have hname : pieceName? (last ++ ".h".toList) = some (String.ofList last ++ ".h") := by
    have hends : ∀ {cs : List Char}, last ++ ".h".toList = cs → cs.getLast? = some 'h' := by
      rintro _ rfl
      simp
    have htext : String.ofList (last ++ ".h".toList) = String.ofList last ++ ".h" := by
      rw [String.ofList_append, String.ofList_toList]
    rw [pieceName?_eq, if_neg, htext]
    rintro (heq | heq | heq) <;> simpa using hends heq
  exact ⟨_, @fileName?_of_pieces _ above [] _ _ hpieces (by simp) hname⟩

theorem text_unitPath (unit : HeaderUnit) (dir : PathName) :
    ∃ before, (unit.path dir ".h").text = before ++ ".h" := by
  unfold HeaderUnit.path join
  split_ifs
  · exact ⟨unit.typeName, rfl⟩
  · exact ⟨dir.text ++ unit.typeName, String.append_assoc.symm⟩
  · exact ⟨dir.text ++ "/" ++ unit.typeName, String.append_assoc.symm⟩

/-- What has the file name of a header is not taken for a schema. -/
theorem ofPath_of_fileName?_header {path : PathName} {stem : String}
    (h : path.fileName? = some (stem ++ ".h")) (format : Format) :
    Format.ofPath path ≠ .ok format := by
  have hlast : ∀ extension, extensionOf? (stem ++ ".h").toList = some extension →
      extension = ['h'] := by
    intro extension hextension
    have htext : (stem ++ ".h").toList = stem.toList ++ '.' :: ['h'] := by simp
    simp only [extensionOf?, htext, Text.pieces_append] at hextension
    simp [Text.pieces] at hextension
    exact hextension.2.symm
  have hnone : path.extension?.bind Format.ofExtension? = none := by
    rw [PathName.extension?, h]
    rw [Option.bind_some]
    cases hextension : extensionOf? (stem ++ ".h").toList with
    | none => rfl
    | some extension =>
      rw [hlast extension hextension]
      decide
  intro hok
  unfold Format.ofPath at hok
  rw [hnone] at hok
  cases hok

/-! ## Spots of files -/

namespace FileTree

variable {tree tree' : FileTree} {final : Bool} {spot : Spot} {location : Location}
  {follow follow' : Location → List (List Char) → Except IoCause Spot} {content : Content}

/-- A path that leads to anything but a directory has the name of that for its file name. -/
theorem fileName?_of_locate (hlinks : tree.LinkFree) {path : PathName}
    (h : tree.locate path = .ok spot) (hitem : spot.item? ≠ some .directory) :
    ∃ name parent, path.fileName? = some name ∧ spot.location = name :: parent := by
  obtain ⟨before, piece, empties, name, parent, hpieces, hempties, hname, hlocation⟩ :=
    name_of_walkPieces hlinks _ _ (reach_eq_ok_iff.mp h).2 hitem
  exact ⟨name, parent, fileName?_of_pieces hpieces hempties hname, hlocation⟩

/-- Without links, a walk by one name leads to whatever is there. -/
theorem walkPieces_name_spotOf (hlinks : tree.LinkFree) {piece : List Char} {name : String}
    (hname : pieceName? piece = some name) (hshort : name.utf8ByteSize ≤ nameLimit)
    (dir : Location) :
    tree.walkPieces final follow dir [piece] = .ok (tree.spotOf name dir) := by
  refine walkPieces_cons_eq_ok_iff.mpr ?_
  unfold spotOf
  cases hthere : tree.item? (name :: dir) with
  | none => exact .free hname hshort hthere (by simp) rfl
  | some item =>
    cases item with
    | directory => exact .enter hname hshort hthere rfl
    | file content => exact .file hname hshort hthere rfl rfl
    | link target => exact absurd hthere (hlinks _ _)

/-- A walk that leads to no directory leads to whatever is there instead, if the directories on the
way are kept. A free name has to be the last piece then. -/
theorem walkPieces_spotOf (hlinks : tree.LinkFree) (hlinks' : tree'.LinkFree)
    (hways : WaysKept tree tree') (hspot : spot.item? ≠ some .directory) :
    ∀ (dir : Location) (pieces : List (List Char)),
    (spot.item? = none → pieces.getLast? ≠ some []) →
    tree.walkPieces final follow dir pieces = .ok spot →
    ∃ name parent, spot.location = name :: parent ∧
      tree'.walkPieces final follow' dir pieces = .ok (tree'.spotOf name parent)
  | _, [], _, h => by
    cases h
    exact absurd rfl hspot
  | dir, piece :: pieces, hlast, h => by
    have hrest : spot.item? = none → pieces.getLast? ≠ some [] := fun hnone hempty =>
      hlast hnone (by rw [List.getLast?_cons, hempty]; rfl)
    have hon := fun d => walkPieces_spotOf hlinks hlinks' hways hspot d pieces hrest
    cases walkStep_of_ok h with
    | stay hskip h =>
      obtain ⟨name, parent, heq, hwalk⟩ := hon _ h
      exact ⟨name, parent, heq, walkPieces_cons_eq_ok_iff.mpr (.stay hskip hwalk)⟩
    | up hup h =>
      obtain ⟨name, parent, heq, hwalk⟩ := hon _ h
      exact ⟨name, parent, heq, walkPieces_cons_eq_ok_iff.mpr (.up hup hwalk)⟩
    | free hpiece hshort _ hempties hfree =>
      subst hfree
      obtain rfl : pieces = [] := by
        by_contra hne
        refine hrest rfl ?_
        rw [List.getLast?_eq_some_getLast hne, hempties _ (List.getLast_mem hne)]
      exact ⟨_, _, rfl, walkPieces_name_spotOf hlinks' hpiece hshort dir⟩
    | enter hpiece hshort hitem h =>
      obtain ⟨name, parent, heq, hwalk⟩ := hon _ h
      have hthere := hways.item (by simp) hitem
      exact ⟨name, parent, heq, walkPieces_cons_eq_ok_iff.mpr (.enter hpiece hshort hthere hwalk)⟩
    | file hpiece hshort _ hend hfile =>
      subst hfile hend
      exact ⟨_, _, rfl, walkPieces_name_spotOf hlinks' hpiece hshort dir⟩
    | link _ _ hitem => exact absurd hitem (hlinks _ _)
    | follow _ _ hitem => exact absurd hitem (hlinks _ _)

/-- A path that led to no directory leads to whatever is there instead, if the directories on the
way are kept. -/
theorem locate_spotOf (hlinks : tree.LinkFree) (hlinks' : tree'.LinkFree)
    (hways : WaysKept tree tree') {path : PathName} (h : tree.locate path = .ok spot)
    (hspot : spot.item? ≠ some .directory)
    (hlast : spot.item? = none → (piecesOf path).getLast? ≠ some []) :
    ∃ name parent, spot.location = name :: parent ∧
      tree'.locate path = .ok (tree'.spotOf name parent) := by
  obtain ⟨hfault, hwalk⟩ := reach_eq_ok_iff.mp h
  obtain ⟨name, parent, heq, hwalk'⟩ : ∃ name parent, spot.location = name :: parent ∧
      tree'.walk true (linkLimit + 1) (tree.start path) (piecesOf path) =
        .ok (tree'.spotOf name parent) :=
    walkPieces_spotOf hlinks hlinks' hways hspot _ _ hlast hwalk
  have hstart : tree'.start path = tree.start path := by rw [start, start, hways.current]
  exact ⟨name, parent, heq, reach_eq_ok_iff.mpr ⟨hfault, hstart ▸ hwalk'⟩⟩

/-- Where a path led to a file, it can still be read exactly if there is a file. -/
theorem read_iff_of_locate (hlinks : tree.LinkFree) (hlinks' : tree'.LinkFree)
    (hways : WaysKept tree tree') {path : PathName}
    (h : tree.locate path = .ok (.found location (.file content))) (text : String) :
    tree'.read path = .ok text ↔ tree'.item? location = some (.file (.text text)) := by
  obtain ⟨name, parent, heq, hlocate⟩ :=
    locate_spotOf hlinks hlinks' hways h (by simp [Spot.item?]) (by simp [Spot.item?])
  obtain rfl : location = name :: parent := heq
  rw [read, hlocate]
  unfold spotOf
  cases tree'.item? (name :: parent) with
  | none => simp
  | some item =>
    cases item with
    | directory => simp
    | file content => cases content <;> simp
    | link target => simp

/-- What has been written by a path is where the path leads. -/
theorem locate_of_write (hsimple : tree.Simple) {path : PathName}
    (h : tree.write path content = .ok tree') :
    tree' = tree.set (tree.addressOf path) (.file content) ∧
      tree'.locate path = .ok (.found (tree.addressOf path) (.file content)) := by
  obtain ⟨spot, hspot, hitem, rfl⟩ := write_spot h
  have haddress : spot.location = tree.addressOf path :=
    location_of_walkPieces hsimple.linkFree _ _ (reach_eq_ok_iff.mp hspot).2
  have hevolves := write_evolves h
  have hlast : (piecesOf path).getLast? ≠ some [] := by
    have hslash : path.endsInSlash = false := by
      by_contra hslash
      rw [write, if_pos (by simpa using hslash)] at h
      split at h <;> cases h
    obtain ⟨chars, c, htext⟩ := List.eq_nil_or_concat path.text.toList |>.resolve_left
      fun hnil => text_ne_empty_of_locate hspot (String.toList_eq_nil_iff.mp hnil)
    rw [endsInSlash, htext, List.concat_eq_append, List.getLast?_concat] at hslash
    have hc : '/' ∉ [c] := fun hmem => by simp [← List.mem_singleton.mp hmem] at hslash
    obtain ⟨before, last, hpieces⟩ := Text.pieces_append_right hc chars
    rw [← List.concat_eq_append, ← htext] at hpieces
    change piecesOf path = _ at hpieces
    rw [hpieces, List.getLast?_concat]
    simp
  obtain ⟨name, parent, heq, hlocate⟩ := locate_spotOf hsimple.linkFree
    (hevolves.simple hsimple).linkFree (hevolves.waysKept hsimple) hspot hitem fun _ => hlast
  refine ⟨by rw [haddress], ?_⟩
  rw [hlocate, spotOf, ← haddress, heq, item?_set_self]

end FileTree

/-! ## What a run does to a file -/

variable {dir : PathName} {world world' : World} {location : Location} {content : Content}

/-- A directory is there, and a location is that of an entry of it. -/
def FileTree.InPresent (tree : FileTree) (dir : PathName) (location : Location) : Prop :=
  tree.isPresent dir = true ∧ EntryOf tree dir location

/-- Once a directory is prepared, there are those files that were not in it. -/
theorem prepareDir_file_iff (hwf : world.tree.WellFormed)
    (h : (prepareDir dir).outcome world = (.ok (), world')) :
    world'.tree.item? location = some (.file content) ↔
      world.tree.item? location = some (.file content) ∧ ¬world.tree.InPresent dir location := by
  cases hpresent : world.tree.isPresent dir with
  | false =>
    rw [(prepareDir_grows_of_absent hpresent h).file_iff hwf]
    simp [InPresent, hpresent]
  | true =>
    obtain ⟨entries, removed, between, hlist, hclear, htree⟩ := prepareDir_ok_of_present hpresent h
    obtain ⟨directory, hdirectory, hnames, hentries⟩ := list_directoryOf hwf hlist
    have hchanged := ((clear_within world.tree hnames).of_outcome hclear).changed (.refl hwf) location
    rw [htree]
    constructor
    · intro hfile
      have hbefore : world.tree.item? location = some (.file content) := by
        rcases hchanged with hsame | ⟨-, hgone⟩
        · exact hsame.symm.trans hfile
        · exact absurd (hgone.symm.trans hfile) (by simp)
      refine ⟨hbefore, ?_⟩
      rintro ⟨-, found, name, hfound, rfl⟩
      obtain rfl : found = directory := Option.some.inj (hfound.symm.trans hdirectory)
      have hlisted := hentries (by simp) hbefore
      rw [clear_gone hdirectory entries world (.refl hwf) hnames hclear name hlisted] at hfile
      cases hfile
    · rintro ⟨hbefore, hout⟩
      rcases hchanged with hsame | ⟨hentry, -⟩
      · exact hsame.trans hbefore
      · exact absurd ⟨hpresent, hentry⟩ hout

/-- What may become of a tree while the item at one location stays as it is. -/
structure FileTree.Keeps (location : Location) (tree tree' : FileTree) : Prop
    extends Evolves tree tree' where
  same : tree.Simple → tree'.item? location = tree.item? location

instance : IsPreorder FileTree (Keeps location) where
  refl tree := ⟨.refl tree, fun _ => rfl⟩
  trans _ _ _ h h' :=
    ⟨h.toEvolves.trans h'.toEvolves, fun hsimple =>
      (h'.same (h.toEvolves.simple hsimple)).trans (h.same hsimple)⟩

/-- Headers are not written over a file that has not the name of one. -/
theorem writeEach_keeps {units : List HeaderUnit} {name : String} {parent : Location}
    (hname : ∀ stem : String, name ≠ stem ++ ".h") :
    Moves (Keeps (name :: parent))
      (writeEach dir ".h" units : Step (StateM World) (List PathName)).run := by
  refine writeEach_moves dir ".h" units fun unit _ _ _ h => ⟨write_evolves h, fun hsimple => ?_⟩
  obtain ⟨spot, hspot, hitem, rfl⟩ := write_spot h
  obtain ⟨other, above, hother, hlocation⟩ := fileName?_of_locate hsimple.linkFree hspot hitem
  obtain ⟨before, htext⟩ := text_unitPath unit dir
  obtain ⟨stem, hstem⟩ := fileName?_header htext
  rw [hlocation]
  refine item?_set_of_ne (fun heq => hname stem ?_) _
  rw [(List.cons.inj heq).1]
  exact Option.some.inj (hother.symm.trans hstem)

/-- Once units are written, there are those files that were not in their directory, as far as they
have not the names of headers. -/
theorem writeUnits_file_iff {units : List HeaderUnit} {paths : List PathName} {name : String}
    {parent : Location} (hsimple : world.tree.Simple)
    (hname : ∀ stem : String, name ≠ stem ++ ".h")
    (h : (writeUnits dir units ".h").outcome world = (.ok paths, world')) :
    world'.tree.item? (name :: parent) = some (.file content) ↔
      world.tree.item? (name :: parent) = some (.file content) ∧
        ¬world.tree.InPresent dir (name :: parent) := by
  obtain ⟨_, prepared, hprepare, hwrite⟩ := Step.outcome_bind_eq_ok_iff.mp h
  have hprepared := ((prepareDir_evolves dir).of_outcome hprepare).simple hsimple
  rw [((writeEach_keeps hname).of_outcome hwrite).same hprepared]
  exact prepareDir_file_iff hsimple.wellFormed hprepare

/-! ## Runs -/

variable {config : Config}

/-- What is read as a text is in a file. -/
theorem FileTree.locate_of_read {tree : FileTree} {path : PathName} {text : String}
    (h : tree.read path = .ok text) :
    ∃ location, tree.locate path = .ok (.found location (.file (.text text))) := by
  unfold read at h
  split at h
  · cases h
  · rename_i location content hspot
    cases h
    exact ⟨location, hspot⟩
  all_goals cases h

/-- What has been checked is in a file that is taken for a schema. -/
theorem locate_of_check {generated : Generated}
    (h : (check config).outcome world = (.ok generated, world')) :
    (∃ format, Format.ofPath config.schema = .ok format) ∧
      ∃ location text, world.tree.locate config.schema =
        .ok (.found location (.file (.text text))) := by
  obtain ⟨_, first, hvalid, h⟩ := Step.outcome_bind_eq_ok_iff.mp h
  cases (Prod.mk.inj hvalid).2
  obtain ⟨backend, second, hbackend, h⟩ := Step.outcome_bind_eq_ok_iff.mp h
  cases (Prod.mk.inj hbackend).2
  obtain ⟨schema, third, hload, -⟩ := Step.outcome_bind_eq_ok_iff.mp h
  obtain ⟨format, fourth, hformat, hload⟩ := Step.outcome_bind_eq_ok_iff.mp hload
  obtain ⟨hok, rfl⟩ := Prod.mk.inj hformat
  obtain ⟨text, fifth, hread, -⟩ := Step.outcome_bind_eq_ok_iff.mp hload
  rw [Step.outcome_on_eq_ok_iff, World.run_read] at hread
  obtain ⟨location, hlocate⟩ := locate_of_read (Prod.mk.inj hread).1
  exact ⟨⟨format, hok⟩, location, text, hlocate⟩

/-- If a run succeeds in a tree without links then the file of the schema can still be read after
it, with the text that it had, exactly if it was in neither output directory when the
preparation of that began; else no text can be read there. -/
theorem schemaFile_kept_iff {summary : Summary} (hsimple : world.tree.Simple)
    (h : (run config).outcome world = (.ok summary, world')) :
    ∃ location text, world.tree.locate config.schema = .ok (.found location (.file (.text text))) ∧
      ∀ text', world'.tree.read config.schema = .ok text' ↔ text' = text ∧
        ∀ dir units begins, Preparation config world dir units begins →
          ¬begins.tree.InPresent dir location := by
  obtain ⟨generated, checked, begins, written, hcheck, hchecked, henums, hstructs, htree⟩ :=
    run_ok h
  have henumsBegin := Preparation.enums hcheck
  have hstructsBegin := Preparation.structs hcheck (check_extension hcheck ▸ henums)
  obtain ⟨⟨format, hformat⟩, location, text, hlocate⟩ := locate_of_check hcheck
  have hevolves := (run_evolves config).of_outcome h
  have hfits : world.tree.item? location = some (.file (.text text)) :=
    locate_fits hsimple.wellFormed hlocate
  obtain ⟨name, parent, hfileName, hlocation⟩ :=
    fileName?_of_locate hsimple.linkFree hlocate (by simp [Spot.item?])
  obtain rfl : location = name :: parent := hlocation
  have hname : ∀ stem : String, name ≠ stem ++ ".h" := by
    rintro stem rfl
    exact ofPath_of_fileName?_header hfileName format hformat
  refine ⟨_, text, hlocate, fun text' => ?_⟩
  have hbetween := ((writeUnits_evolves _ _ _).of_outcome henums).simple (hchecked ▸ hsimple)
  have hkept : written.tree.item? (name :: parent) = some (.file (.text text')) ↔ _ :=
    (writeUnits_file_iff hbetween hname hstructs).trans
      (and_congr_left' (writeUnits_file_iff (hchecked ▸ hsimple) hname henums))
  rw [hchecked, hfits, ← htree] at hkept
  refine (read_iff_of_locate hsimple.linkFree (hevolves.simple hsimple).linkFree
    (hevolves.waysKept hsimple) hlocate text').trans (hkept.trans ?_)
  constructor
  · rintro ⟨⟨htext, hout⟩, hout'⟩
    refine ⟨by simpa using htext.symm, ?_⟩
    rintro dir units _ (hcheck' | ⟨hcheck', henums'⟩) <;> rw [hcheck] at hcheck' <;> cases hcheck'
    · rwa [hchecked]
    · rw [check_extension hcheck, henums] at henums'
      cases henums'
      exact hout'
  · rintro ⟨rfl, hout⟩
    exact ⟨⟨rfl, hchecked ▸ hout _ _ _ henumsBegin⟩, hout _ _ _ hstructsBegin⟩

/-! ## A schema beside the headers -/

/-- A schema in a directory. -/
def FileTree.proto : FileTree :=
  (({} : FileTree).set ["proto"] .directory).set ["types.json", "proto"]
    (.file (.text "\x7b\"enum\": [\x7b\"name\": \"a\"\x7d], \"struct\": []\x7d"))

/-- The headers of enums go into the directory of the schema. -/
def Config.proto : Config :=
  { schema := ⟨"proto/types.json"⟩, outputRoot := ⟨"proto"⟩, enumDir := ⟨"."⟩,
    structDir := ⟨"structs"⟩ }

theorem simple_proto : FileTree.proto.Simple := by
  refine (simple_root.set ?_ rfl ?_ ?_).set ?_ rfl ?_ ?_
  all_goals first | decide | simp

theorem run_proto : ((run .proto).outcome ⟨.proto, []⟩).1 =
      .ok ⟨[⟨"proto/./A.h"⟩], []⟩ ∧
    ((run .proto).outcome ⟨.proto, []⟩).2.tree.read Config.proto.schema = .error .notFound := by
  decide +kernel

/-- The run succeeds, and the schema is in a directory that was there and had to be prepared. -/
theorem schemaFile_kept_iff_proto :
    ((run .proto).outcome ⟨.proto, []⟩).1 = .ok ⟨[⟨"proto/./A.h"⟩], []⟩ ∧
      ∃ dir units begins, Preparation .proto ⟨.proto, []⟩ dir units begins ∧
        begins.tree.InPresent dir ["types.json", "proto"] := by
  obtain ⟨hok, hgone⟩ := run_proto
  obtain ⟨location, text, hfound, hkept⟩ :=
    schemaFile_kept_iff simple_proto (Step.outcome_eq_of_fst hok)
  have hlocation : (FileTree.proto.locate Config.proto.schema).toOption.map Spot.location =
      some ["types.json", "proto"] := by
    decide
  rw [hfound] at hlocation
  obtain rfl : location = ["types.json", "proto"] := Option.some.inj hlocation
  refine ⟨hok, ?_⟩
  by_contra hnone
  have hread := (hkept text).mpr ⟨rfl, fun dir units begins hbegins hin =>
    hnone ⟨dir, units, begins, hbegins, hin⟩⟩
  rw [hgone] at hread
  cases hread

/-- A run can succeed and lose the file of its schema. -/
theorem not_forall_schemaFile_kept :
    ¬∀ (config : Config) (world world' : World) (summary : Summary) (text : String),
      world.tree.Simple → (run config).outcome world = (.ok summary, world') →
      world.tree.read config.schema = .ok text → world'.tree.read config.schema = .ok text := by
  intro h
  obtain ⟨hok, hgone⟩ := run_proto
  have hread := h .proto ⟨.proto, []⟩ _ _ _ simple_proto (Step.outcome_eq_of_fst hok) rfl
  rw [hgone] at hread
  cases hread

end SchemaHeaders
