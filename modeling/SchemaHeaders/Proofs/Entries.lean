import SchemaHeaders.Proofs.Evolution

/-!
# Entries of the directory that a path leads to

`FileTree.directoryOf?` is the directory that a path leads to, whatever links are on the way.
A path with one name after it leads to the entry of that name in this directory
(`locateEntry_join`), or to where that entry leads if it is a link that is followed
(`locate_join`). So `remove_join` and `write_join` say which entry is removed and which is
written.

`FileTree.WaysKept` : the directories and links of a tree are in another tree as well. Then paths
that lead to directories in the one lead to the same in the other
(`WaysKept.directoryOf?`).

In a tree without links the directory is known from the path alone: its pieces taken step by step
give the only location that the path can lead to (`addressOf`, `address_of_directoryOf?`).
-/

namespace SchemaHeaders

namespace FileTree

open PathName

variable {tree tree' : FileTree} {final : Bool} {spot : Spot} {location : Location} {n : Nat}

/-! ## Walks in two parts -/

/-- What leads through pieces and more pieces after them leads through the former to a directory,
and from there through the latter with the links that are left. -/
theorem walk_append_ok {after : List (List Char)} (hafter : ∃ piece ∈ after, piece ≠ []) :
    ∀ (n : Nat) (dir : Location) (before : List (List Char)),
      tree.walk final n dir (before ++ after) = .ok spot → ∃ middle m,
        tree.walk true n dir before = .ok (.found middle .directory) ∧
          tree.walk final m middle after = .ok spot
  | 0, _, _, h => by cases h
  | n + 1, dir, [], h => ⟨dir, n + 1, rfl, h⟩
  | n + 1, dir, piece :: before, h => by
    rw [List.cons_append] at h
    have hmore : ¬∀ p ∈ before ++ after, p = [] := by
      obtain ⟨p, hp, hne⟩ := hafter
      exact fun hall => hne (hall p (List.mem_append_right _ hp))
    have hne : before ++ after ≠ [] := fun hnil => hmore (by simp [hnil])
    cases walkStep_of_ok h with
    | stay hskip h =>
      obtain ⟨middle, m, hbefore, hrest⟩ := walk_append_ok hafter (n + 1) dir before h
      exact ⟨middle, m, walkPieces_cons_eq_ok_iff.mpr (.stay hskip hbefore), hrest⟩
    | up hup h =>
      obtain ⟨middle, m, hbefore, hrest⟩ := walk_append_ok hafter (n + 1) dir.tail before h
      exact ⟨middle, m, walkPieces_cons_eq_ok_iff.mpr (.up hup hbefore), hrest⟩
    | free _ _ _ hempty => exact absurd hempty hmore
    | enter hname hshort hitem h =>
      obtain ⟨middle, m, hbefore, hrest⟩ := walk_append_ok hafter (n + 1) _ before h
      exact ⟨middle, m, walkPieces_cons_eq_ok_iff.mpr (.enter hname hshort hitem hbefore), hrest⟩
    | file _ _ _ hlast => exact absurd hlast hne
    | link _ _ _ hlast => exact absurd hlast hne
    | follow hname hshort hitem _ h =>
      rw [← List.append_assoc] at h
      obtain ⟨middle, m, hbefore, hrest⟩ := walk_append_ok hafter n _ _ h
      exact ⟨middle, m,
        walkPieces_cons_eq_ok_iff.mpr (.follow hname hshort hitem (fun _ => rfl) hbefore), hrest⟩

/-- Through one name, which is not too long, a walk leads to the entry of that name, unless this is
a link to follow. -/
theorem walk_name_ok {name : String} (hname : IsEntryName name)
    (h : tree.walk final n location [name.toList] = .ok spot) :
    name.utf8ByteSize ≤ nameLimit ∧
      ((final = true → ∀ target, tree.item? (name :: location) ≠ some (.link target)) →
        spot.location = name :: location) := by
  cases n with
  | zero => cases h
  | succ n =>
    have hpiece := pieceName?_toList hname
    have hsame : ∀ {other : String}, pieceName? name.toList = some other → name = other :=
      fun hother => Option.some.inj (hpiece.symm.trans hother)
    obtain ⟨-, hskip, hup⟩ := piece_of_pieceName? hpiece
    cases walkStep_of_ok h with
    | stay hnone => exact absurd hnone hskip
    | up hnone => exact absurd hnone hup
    | free hother hshort _ _ hspot =>
      obtain rfl := hsame hother
      exact ⟨hshort, fun _ => by rw [hspot]; rfl⟩
    | enter hother hshort _ h =>
      obtain rfl := hsame hother
      cases h
      exact ⟨hshort, fun _ => rfl⟩
    | file hother hshort _ _ hspot =>
      obtain rfl := hsame hother
      exact ⟨hshort, fun _ => by rw [hspot]; rfl⟩
    | link hother hshort _ _ _ hspot =>
      obtain rfl := hsame hother
      exact ⟨hshort, fun _ => by rw [hspot]; rfl⟩
    | follow hother hshort hitem hfinal =>
      obtain rfl := hsame hother
      exact ⟨hshort, fun hlink => absurd hitem (hlink (hfinal rfl) _)⟩

/-! ## Trees that keep the ways of others -/

/-- Every directory and every link of a tree is in another tree. -/
structure WaysKept (tree tree' : FileTree) : Prop where
  current : tree'.current = tree.current
  item : ∀ {location item}, (∀ content, item ≠ .file content) →
    tree.item? location = some item → tree'.item? location = some item

theorem WaysKept.refl (tree : FileTree) : WaysKept tree tree := ⟨rfl, fun _ h => h⟩

theorem WaysKept.trans {tree'' : FileTree} (h : WaysKept tree tree') (h' : WaysKept tree' tree'') :
    WaysKept tree tree'' :=
  ⟨h'.current.trans h.current, fun hitem hl => h'.item hitem (h.item hitem hl)⟩

theorem waysKept_erase (tree : FileTree) (location : Location) :
    WaysKept (tree.erase location) tree where
  current := rfl
  item {l item} _ h := by
    cases l with
    | nil => exact h
    | cons name parent =>
      rw [item?_erase] at h
      split_ifs at h
      exact h

theorem waysKept_set_file (tree : FileTree) (name : String) (parent : Location)
    (content : Content) : WaysKept (tree.set (name :: parent) (.file content)) tree where
  current := rfl
  item {l item} hitem h := by
    by_cases hl : l = name :: parent
    · rw [hl, item?_set_self] at h
      exact absurd (Option.some.inj h).symm (hitem content)
    · rwa [item?_set_of_ne hl] at h

/-- A step on the way to a directory can be taken where the ways are kept. -/
theorem WaysKept.walk_cons (hways : WaysKept tree tree') {pieces pieces' : List (List Char)}
    (hrest : ∀ dir, tree.walk true (n + 1) dir pieces = .ok (.found location .directory) →
      tree'.walk true (n + 1) dir pieces' = .ok (.found location .directory))
    (hfollow : ∀ dir target,
      tree.walk true n dir (piecesOf target ++ pieces) = .ok (.found location .directory) →
      tree'.walk true n dir (piecesOf target ++ pieces') = .ok (.found location .directory))
    {dir : Location} {piece : List Char}
    (h : tree.walk true (n + 1) dir (piece :: pieces) = .ok (.found location .directory)) :
    tree'.walk true (n + 1) dir (piece :: pieces') = .ok (.found location .directory) := by
  refine walkPieces_cons_eq_ok_iff.mpr ?_
  cases walkStep_of_ok h with
  | stay hskip h => exact .stay hskip (hrest _ h)
  | up hup h => exact .up hup (hrest _ h)
  | free _ _ _ _ hspot => cases hspot
  | enter hname hshort hitem h =>
    exact .enter hname hshort (hways.item (by simp) hitem) (hrest _ h)
  | file _ _ _ _ hspot => cases hspot
  | link _ _ _ _ hfinal => cases hfinal
  | follow hname hshort hitem _ h =>
    exact .follow hname hshort (hways.item (by simp) hitem) (fun _ => rfl) (hfollow _ _ h)

theorem WaysKept.walk (hways : WaysKept tree tree') : ∀ (n : Nat) (dir : Location)
    (pieces : List (List Char)),
    tree.walk true n dir pieces = .ok (.found location .directory) →
      tree'.walk true n dir pieces = .ok (.found location .directory)
  | 0, _, _, h => by cases h
  | _ + 1, _, [], h => h
  | n + 1, _, _ :: pieces, h =>
    hways.walk_cons (fun dir => hways.walk (n + 1) dir pieces) (fun _ _ => hways.walk n _ _) h

theorem walk_cons_of_not_isSolid {piece : List Char} (h : isSolid piece = false) (dir : Location)
    (pieces : List (List Char)) :
    tree.walk final (n + 1) dir (piece :: pieces) = tree.walk final (n + 1) dir pieces :=
  if_pos (isSolid_eq_false_iff.mp h)

/-- Pieces that say nothing do not matter on the way to a directory. -/
theorem walk_filter_isSolid_iff : ∀ (n : Nat) (dir : Location) (pieces : List (List Char)),
    tree.walk true n dir (pieces.filter isSolid) = .ok (.found location .directory) ↔
      tree.walk true n dir pieces = .ok (.found location .directory)
  | 0, _, _ => Iff.rfl
  | _ + 1, _, [] => Iff.rfl
  | n + 1, dir, piece :: pieces => by
    have hrest := fun d => walk_filter_isSolid_iff (n + 1) d pieces
    cases hsolid : isSolid piece with
    | false =>
      rw [List.filter_cons_of_neg (by simp [hsolid]), walk_cons_of_not_isSolid hsolid]
      exact hrest dir
    | true =>
      rw [List.filter_cons_of_pos hsolid]
      have hfollow : ∀ d target,
          tree.walk true n d (piecesOf target ++ pieces.filter isSolid) =
              .ok (.found location .directory) ↔
            tree.walk true n d (piecesOf target ++ pieces) = .ok (.found location .directory) := by
        intro d target
        rw [← walk_filter_isSolid_iff n d (piecesOf target ++ pieces),
          ← walk_filter_isSolid_iff n d (piecesOf target ++ pieces.filter isSolid)]
        simp only [List.filter_append, List.filter_filter, Bool.and_self]
      exact ⟨(WaysKept.refl tree).walk_cons (fun d => (hrest d).mp) fun d t => (hfollow d t).mp,
        (WaysKept.refl tree).walk_cons (fun d => (hrest d).mpr) fun d t => (hfollow d t).mpr⟩

/-! ## Directories of paths -/

/-- Where the walk of a path begins. -/
def start (tree : FileTree) (path : PathName) : Location :=
  if path.isAbsolute then [] else tree.current

/-- The directory that a path leads to. The empty path stands for the current directory. -/
def directoryOf? (tree : FileTree) (path : PathName) : Option Location :=
  if path.text = "" then some tree.current
  else
    match tree.locate path with
    | .ok (.found location .directory) => some location
    | _ => none

theorem directoryOf?_eq_some_iff {path : PathName} (hpath : path.text ≠ "") :
    tree.directoryOf? path = some location ↔
      tree.locate path = .ok (.found location .directory) := by
  rw [directoryOf?, if_neg hpath]
  split
  · rename_i l hspot
    rw [hspot]
    simp
  · rename_i hother
    simp only [reduceCtorEq, false_iff]
    exact hother location

theorem isDirectory_iff {path : PathName} :
    tree.isDirectory path = true ↔
      ∃ location, tree.locate path = .ok (.found location .directory) := by
  unfold isDirectory itemAt?
  split
  · rename_i location item hspot
    rw [hspot]
    simp
  · rename_i hother
    constructor
    · rintro ⟨⟩
    · rintro ⟨location, hspot⟩
      exact absurd hspot (hother location _)

theorem reach_eq_ok_iff {path : PathName} {pieces : List (List Char)} :
    tree.reach final path pieces = .ok spot ↔
      fault? path = none ∧ tree.walk final (linkLimit + 1) (tree.start path) pieces = .ok spot := by
  unfold reach start
  cases fault? path with
  | none => simp
  | some cause => simp

/-- A path that leads anywhere is not empty. -/
theorem text_ne_empty_of_locate {path : PathName} (h : tree.locate path = .ok spot) :
    path.text ≠ "" := by
  intro hempty
  obtain ⟨hfault, -⟩ := reach_eq_ok_iff.mp h
  obtain ⟨text⟩ := path
  cases hempty
  cases hfault

/-- Paths that lead to directories go on doing so where the ways are kept. -/
theorem WaysKept.directoryOf? (hways : WaysKept tree tree') {path : PathName}
    (h : tree.directoryOf? path = some location) : tree'.directoryOf? path = some location := by
  by_cases hpath : path.text = ""
  · rw [FileTree.directoryOf?, if_pos hpath] at h ⊢
    rw [hways.current, h]
  · rw [directoryOf?_eq_some_iff hpath, locate, reach_eq_ok_iff] at h ⊢
    obtain ⟨hfault, hwalk⟩ := h
    have hstart : tree'.start path = tree.start path := by rw [start, start, hways.current]
    rw [hstart]
    exact ⟨hfault, hways.walk _ _ _ hwalk⟩

/-- A location is that of an entry of the directory that a path leads to. -/
def EntryOf (tree : FileTree) (dir : PathName) (location : Location) : Prop :=
  ∃ directory name, tree.directoryOf? dir = some directory ∧ location = name :: directory

/-! ## Addresses in trees without links -/

/-- Where a piece of a path leads from a location. -/
def stepFrom (location : Location) (piece : List Char) : Location :=
  if piece = ['.', '.'] then location.tail else (pieceName? piece).toList ++ location

/-- Where the pieces of a path lead step by step. -/
def addressOf (tree : FileTree) (path : PathName) : Location :=
  (piecesOf path).foldl stepFrom (tree.start path)

theorem stepFrom_name {piece : List Char} {name : String} (h : pieceName? piece = some name)
    (dir : Location) : stepFrom dir piece = name :: dir := by
  rw [stepFrom, if_neg (piece_of_pieceName? h).2.2, h]
  rfl

theorem foldl_stepFrom_empties {pieces : List (List Char)} (h : ∀ piece ∈ pieces, piece = [])
    (dir : Location) : pieces.foldl stepFrom dir = dir := by
  induction pieces with
  | nil => rfl
  | cons piece pieces ih =>
    rw [List.foldl_cons, h piece (List.mem_cons_self ..)]
    exact ih fun p hp => h p (List.mem_cons_of_mem _ hp)

/-- Without links a walk leads to where its pieces lead step by step, if anywhere. -/
theorem location_of_walkPieces (hlinks : tree.LinkFree) :
    ∀ (dir : Location) (pieces : List (List Char)),
      tree.walkPieces final follow dir pieces = .ok spot →
      spot.location = pieces.foldl stepFrom dir
  | _, [], h => by
    cases h
    rfl
  | dir, piece :: pieces, h => by
    rw [List.foldl_cons]
    cases walkStep_of_ok h with
    | stay hskip h =>
      have hup : piece ≠ ['.', '.'] := by rcases hskip with rfl | rfl <;> decide
      have hnone : pieceName? piece = none := by rw [pieceName?_eq, if_pos (by tauto)]
      rw [stepFrom, if_neg hup, hnone]
      exact location_of_walkPieces hlinks _ pieces h
    | up hup h =>
      rw [stepFrom, if_pos hup]
      exact location_of_walkPieces hlinks _ pieces h
    | free hname _ _ hempty hspot =>
      rw [stepFrom_name hname, foldl_stepFrom_empties hempty, hspot]
      rfl
    | enter hname _ _ h =>
      rw [stepFrom_name hname]
      exact location_of_walkPieces hlinks _ pieces h
    | file hname _ _ hlast hspot =>
      rw [stepFrom_name hname, hlast, hspot]
      rfl
    | link _ _ hitem => exact absurd hitem (hlinks _ _)
    | follow _ _ hitem => exact absurd hitem (hlinks _ _)

/-- What a walk without links leads to, if it is no directory, has the last piece that says
anything for its name. -/
theorem name_of_walkPieces (hlinks : tree.LinkFree) : ∀ (dir : Location)
    (pieces : List (List Char)), tree.walkPieces final follow dir pieces = .ok spot →
    spot.item? ≠ some .directory → ∃ before piece empties name parent,
      pieces = before ++ piece :: empties ∧ (∀ e ∈ empties, e = []) ∧
        pieceName? piece = some name ∧ spot.location = name :: parent
  | _, [], h, hitem => by
    cases h
    exact absurd rfl hitem
  | dir, piece :: pieces, h, hitem => by
    have hrest : ∀ {d}, tree.walkPieces final follow d pieces = .ok spot →
        ∃ before last empties name parent, piece :: pieces = before ++ last :: empties ∧
          (∀ e ∈ empties, e = []) ∧ pieceName? last = some name ∧
            spot.location = name :: parent := by
      intro d h
      obtain ⟨before, last, empties, name, parent, rfl, hlast⟩ :=
        name_of_walkPieces hlinks d pieces h hitem
      exact ⟨piece :: before, last, empties, name, parent, rfl, hlast⟩
    cases walkStep_of_ok h with
    | stay _ h => exact hrest h
    | up _ h => exact hrest h
    | free hname _ _ hempty hspot =>
      subst hspot
      exact ⟨[], piece, pieces, _, dir, rfl, hempty, hname, rfl⟩
    | enter _ _ _ h => exact hrest h
    | file hname _ _ hlast hspot =>
      subst hlast hspot
      exact ⟨[], piece, [], _, dir, rfl, by simp, hname, rfl⟩
    | link _ _ hitem => exact absurd hitem (hlinks _ _)
    | follow _ _ hitem => exact absurd hitem (hlinks _ _)

/-- Without links, pieces that lead to a directory can be walked before others. -/
theorem walkPieces_append (hlinks : tree.LinkFree) (after : List (List Char)) :
    ∀ (dir : Location) (before : List (List Char)),
      tree.walkPieces true follow dir before = .ok (.found directory .directory) →
      tree.walkPieces final follow' dir (before ++ after) =
        tree.walkPieces final follow' directory after
  | _, [], h => by
    cases h
    rfl
  | dir, piece :: before, h => by
    rw [List.cons_append, walkPieces]
    cases walkStep_of_ok h with
    | stay hskip h =>
      rw [if_pos hskip]
      exact walkPieces_append hlinks after _ before h
    | up hup h =>
      rw [if_neg (by simp [hup]), if_pos hup]
      exact walkPieces_append hlinks after _ before h
    | free _ _ _ _ hspot => cases hspot
    | enter hname hshort hitem h =>
      obtain ⟨rfl, hskip, hup⟩ := piece_of_pieceName? hname
      rw [if_neg hskip, if_neg hup, if_neg (not_lt.mpr hshort), hitem]
      exact walkPieces_append hlinks after _ before h
    | file _ _ _ _ hspot => cases hspot
    | link _ _ hitem => exact absurd hitem (hlinks _ _)
    | follow _ _ hitem => exact absurd hitem (hlinks _ _)

/-- Without links a path leads to the directory at its address, if to any. -/
theorem address_of_directoryOf? (hlinks : tree.LinkFree)
    (h : tree.directoryOf? dir = some directory) : directory = tree.addressOf dir := by
  by_cases hdir : dir.text = ""
  · obtain ⟨text⟩ := dir
    cases hdir
    exact (Option.some.inj h).symm
  · rw [directoryOf?_eq_some_iff hdir] at h
    exact location_of_walkPieces hlinks _ _ (reach_eq_ok_iff.mp h).2

theorem EntryOf.address (h : EntryOf tree dir location) (hlinks : tree.LinkFree) :
    ∃ name, location = name :: tree.addressOf dir := by
  obtain ⟨directory, name, hdir, rfl⟩ := h
  exact ⟨name, by rw [address_of_directoryOf? hlinks hdir]⟩

/-- Pieces that do not lead up add the names that they say. -/
theorem foldl_stepFrom {pieces : List (List Char)} (hup : ['.', '.'] ∉ pieces)
    (location : Location) :
    pieces.foldl stepFrom location = (pieces.filterMap pieceName?).reverse ++ location := by
  induction pieces generalizing location with
  | nil => simp
  | cons piece pieces ih =>
    simp only [List.mem_cons, not_or] at hup
    rw [List.foldl_cons, ih hup.2, stepFrom, if_neg (Ne.symm hup.1), List.filterMap_cons]
    cases pieceName? piece <;> simp

/-- The address of a path that does not lead up is known from its names and where it begins. -/
theorem addressOf_downward {p : PathName} (hp : p.Downward) :
    tree.addressOf p = p.names.reverse ++ tree.start p := by
  have hup := hp.no_up
  rw [up_mem_components_iff] at hup
  rw [FileTree.addressOf, foldl_stepFrom hup, names_eq_pieces]

theorem addressOf_plain {p : PathName} (hplain : p.Plain) :
    tree.addressOf p = p.names.reverse ++ tree.current := by
  rw [addressOf_downward hplain.downward, start, hplain.relative]
  rfl

/-- Plain paths of one address have the same names. -/
theorem names_eq_of_addressOf (hdir : dir.Plain) (hpath : path.Plain)
    (h : tree.addressOf dir = tree.addressOf path) : dir.names = path.names := by
  rw [addressOf_plain hdir, addressOf_plain hpath] at h
  exact List.reverse_injective (List.append_cancel_right h)

theorem Evolves.addressOf (h : Evolves tree tree') (path : PathName) :
    tree'.addressOf path = tree.addressOf path := by
  rw [FileTree.addressOf, FileTree.addressOf, start, start, h.current]

/-- Without links, whatever becomes of a tree keeps the ways of the tree. -/
theorem Evolves.waysKept (h : Evolves tree tree') (hsimple : tree.Simple) :
    WaysKept tree tree' where
  current := h.current
  item {location item} hitem hthere := by
    cases item with
    | directory => exact h.directories hsimple.wellFormed hthere
    | file content => exact absurd rfl (hitem content)
    | link target => exact absurd hthere (hsimple.linkFree location target)

/-! ## Entries -/

/-- The spot of a name in a directory. -/
def spotOf (tree : FileTree) (name : String) (parent : Location) : Spot :=
  match tree.item? (name :: parent) with
  | some item => .found (name :: parent) item
  | none => .vacant parent name

/-- A path that begins a path without faults has none. -/
theorem fault?_of_append {p q : PathName} (hp : p.text ≠ "") {rest : String}
    (htext : q.text = p.text ++ rest) (h : fault? q = none) : fault? p = none := by
  unfold fault? at h ⊢
  rw [htext] at h
  split_ifs at h with hnul hempty hlong
  rw [if_neg, if_neg hp, if_neg]
  · rw [String.utf8ByteSize_append] at hlong
    omega
  · simp only [String.toList_append, List.contains_append, Bool.or_eq_true, not_or] at hnul
    exact hnul.1

/-- The pieces of a path followed by a name end in that name. -/
theorem piecesOf_join_suffix (dir : PathName) {name : String} (hname : IsEntryName name) :
    ∃ pieces, piecesOf (dir.join ⟨name⟩) = pieces ++ [name.toList] := by
  by_cases hdir : dir.text = ""
  · rw [join, if_pos (Or.inr hdir)]
    exact ⟨[], piecesOf_entryName hname⟩
  · obtain ⟨pieces, -, -, hjoin⟩ := piecesOf_join hdir (isAbsolute_of_isEntryName hname)
    rw [piecesOf_entryName hname] at hjoin
    exact ⟨pieces, hjoin⟩

theorem toList_ne_nil {name : String} (hname : IsEntryName name) : name.toList ≠ [] :=
  fun hnil => hname.ne_empty (String.toList_eq_nil_iff.mp hnil)

/-- A path followed by a name leads on from the directory of the path. -/
theorem reach_join {dir : PathName} {name : String} (hname : IsEntryName name)
    (h : tree.reach final (dir.join ⟨name⟩) (piecesOf (dir.join ⟨name⟩)) = .ok spot) :
    ∃ location m, tree.directoryOf? dir = some location ∧
      tree.walk final m location [name.toList] = .ok spot := by
  obtain ⟨hfault, hwalk⟩ := reach_eq_ok_iff.mp h
  have hrelative := isAbsolute_of_isEntryName hname
  by_cases hdir : dir.text = ""
  · have hjoin : dir.join ⟨name⟩ = ⟨name⟩ := if_pos (Or.inr hdir)
    rw [hjoin, piecesOf_entryName hname, start, if_neg (by simp [hrelative])] at hwalk
    exact ⟨tree.current, _, if_pos hdir, hwalk⟩
  · obtain ⟨pieces, -, hpieces, hjoin⟩ := piecesOf_join hdir hrelative
    rw [hjoin, piecesOf_entryName hname, start, isAbsolute_join hdir hrelative] at hwalk
    obtain ⟨location, m, hbefore, hlast⟩ :=
      walk_append_ok ⟨_, List.mem_singleton.mpr rfl, toList_ne_nil hname⟩ _ _ _ hwalk
    refine ⟨location, m, (directoryOf?_eq_some_iff hdir).mpr (reach_eq_ok_iff.mpr ⟨?_, ?_⟩), hlast⟩
    · obtain ⟨rest, htext⟩ := text_join hdir hrelative
      exact fault?_of_append hdir htext hfault
    · -- A slash at the end of the directory adds a piece that says nothing.
      rw [← walk_filter_isSolid_iff] at hbefore ⊢
      have hsame : (piecesOf dir).filter isSolid = pieces.filter isSolid := by
        rcases hpieces with h | h <;> simp [h, isSolid]
      rw [hsame]
      exact hbefore

variable {dir : PathName} {name : String}

/-- A path followed by a name has no slash at its end. -/
theorem locateEntry_join_eq (hname : IsEntryName name) :
    tree.locateEntry (dir.join ⟨name⟩) =
      tree.reach false (dir.join ⟨name⟩) (piecesOf (dir.join ⟨name⟩)) := by
  obtain ⟨pieces, hpieces⟩ := piecesOf_join_suffix dir hname
  have htrimmed : trimmedPieces (dir.join ⟨name⟩) = piecesOf (dir.join ⟨name⟩) := by
    rw [trimmedPieces, hpieces, List.reverse_append, List.reverse_singleton, List.singleton_append,
      List.dropWhile_cons_of_neg (by simp [toList_ne_nil hname])]
    simp
  rw [← htrimmed]
  rfl

/-- A path followed by a name names an entry of the directory of the path. -/
theorem locateEntry_join (hname : IsEntryName name)
    (h : tree.locateEntry (dir.join ⟨name⟩) = .ok spot) :
    ∃ location, tree.directoryOf? dir = some location ∧ spot.location = name :: location := by
  rw [locateEntry_join_eq hname] at h
  obtain ⟨location, m, hdir, hlast⟩ := reach_join hname h
  exact ⟨location, hdir, (walk_name_ok hname hlast).2 (by simp)⟩

/-- A path followed by a name leads to an entry of the directory of the path, unless that is a
link. -/
theorem locate_join (hname : IsEntryName name) (h : tree.locate (dir.join ⟨name⟩) = .ok spot)
    (hlink : ∀ location, tree.directoryOf? dir = some location →
      ∀ target, tree.item? (name :: location) ≠ some (.link target)) :
    ∃ location, tree.directoryOf? dir = some location ∧ spot.location = name :: location := by
  obtain ⟨location, m, hdir, hlast⟩ := reach_join hname h
  exact ⟨location, hdir, (walk_name_ok hname hlast).2 fun _ => hlink location hdir⟩

/-- A name that a path can have after it. -/
structure Follows (dir : PathName) (name : String) : Prop where
  isName : IsEntryName name
  no_fault : fault? (dir.join ⟨name⟩) = none
  short : name.utf8ByteSize ≤ nameLimit

theorem follows_of_reach (hname : IsEntryName name)
    (h : tree.reach final (dir.join ⟨name⟩) (piecesOf (dir.join ⟨name⟩)) = .ok spot) :
    Follows dir name := by
  obtain ⟨_, _, -, hlast⟩ := reach_join hname h
  exact ⟨hname, (reach_eq_ok_iff.mp h).1, (walk_name_ok hname hlast).1⟩

theorem follows_of_locate (hname : IsEntryName name)
    (h : tree.locate (dir.join ⟨name⟩) = .ok spot) : Follows dir name :=
  follows_of_reach hname h

/-- Without links, one name leads to whatever has it in a directory. -/
theorem walkPieces_name (hlinks : tree.LinkFree) (hname : IsEntryName name)
    (hshort : name.utf8ByteSize ≤ nameLimit) (directory : Location) :
    tree.walkPieces final follow directory [name.toList] = .ok (tree.spotOf name directory) := by
  refine walkPieces_cons_eq_ok_iff.mpr ?_
  have hpiece := pieceName?_toList hname
  unfold spotOf
  cases hitem : tree.item? (name :: directory) with
  | none => exact .free hpiece hshort hitem (by simp) rfl
  | some item =>
    cases item with
    | directory => exact .enter hpiece hshort hitem rfl
    | file content => exact .file hpiece hshort hitem rfl rfl
    | link target => exact absurd hitem (hlinks _ _)

/-- Without links, a path followed by a name leads to whatever has that name in the directory of the
path. -/
theorem reach_join_spotOf (hlinks : tree.LinkFree) {directory : Location}
    (hdir : tree.directoryOf? dir = some directory) (hfollows : Follows dir name) :
    tree.reach final (dir.join ⟨name⟩) (piecesOf (dir.join ⟨name⟩)) =
      .ok (tree.spotOf name directory) := by
  have hname := hfollows.isName
  have hrelative := isAbsolute_of_isEntryName hname
  refine reach_eq_ok_iff.mpr ⟨hfollows.no_fault, ?_⟩
  by_cases hempty : dir.text = ""
  · have hjoin : dir.join ⟨name⟩ = ⟨name⟩ := if_pos (Or.inr hempty)
    rw [directoryOf?, if_pos hempty] at hdir
    rw [hjoin, piecesOf_entryName hname, start, if_neg (by simp [hrelative]), Option.some.inj hdir]
    exact walkPieces_name hlinks hname hfollows.short directory
  · obtain ⟨pieces, -, hpieces, hjoin⟩ := piecesOf_join hempty hrelative
    rw [hjoin, piecesOf_entryName hname, start, isAbsolute_join hempty hrelative]
    have hwalk := (reach_eq_ok_iff.mp ((directoryOf?_eq_some_iff hempty).mp hdir)).2
    have hsame : (piecesOf dir).filter isSolid = pieces.filter isSolid := by
      rcases hpieces with h | h <;> simp [h, isSolid]
    rw [← walk_filter_isSolid_iff, hsame, walk_filter_isSolid_iff] at hwalk
    exact (walkPieces_append hlinks _ _ _ hwalk).trans
      (walkPieces_name hlinks hname hfollows.short directory)

/-- What is removed by a path and a name is an entry of the directory of the path. -/
theorem remove_join (hwf : tree.WellFormed) (hname : IsEntryName name)
    (h : tree.remove (dir.join ⟨name⟩) = .ok tree') :
    ∃ location, tree.directoryOf? dir = some location ∧
      tree.item? (name :: location) ≠ some .directory ∧
      tree' = tree.erase (name :: location) := by
  obtain ⟨found, item, hspot, hitem, rfl⟩ := remove_spot h
  have hfound : tree.item? found = some item := locateEntry_fits hwf hspot
  obtain ⟨location, hdir, hlocation⟩ := locateEntry_join hname hspot
  obtain rfl : found = name :: location := hlocation
  exact ⟨location, hdir, fun heq => hitem (Option.some.inj (hfound.symm.trans heq)), rfl⟩

/-- What is written by a path and a name is an entry of the directory of the path, unless that is
a link. -/
theorem write_join (hwf : tree.WellFormed) (hname : IsEntryName name) {content : Content}
    (hlink : ∀ location, tree.directoryOf? dir = some location →
      ∀ target, tree.item? (name :: location) ≠ some (.link target))
    (h : tree.write (dir.join ⟨name⟩) content = .ok tree') :
    ∃ location, tree.directoryOf? dir = some location ∧
      tree.item? (name :: location) ≠ some .directory ∧
      tree' = tree.set (name :: location) (.file content) := by
  obtain ⟨spot, hspot, hitem, rfl⟩ := write_spot h
  obtain ⟨location, hdir, hlocation⟩ := locate_join hname hspot hlink
  refine ⟨location, hdir, ?_, by rw [hlocation]⟩
  rw [← hlocation, (locate_fits hwf hspot).item?_eq]
  exact hitem

theorem follows_of_remove (hname : IsEntryName name)
    (h : tree.remove (dir.join ⟨name⟩) = .ok tree') : Follows dir name := by
  obtain ⟨_, _, hspot, -⟩ := remove_spot h
  rw [locateEntry_join_eq hname] at hspot
  exact follows_of_reach hname hspot

/-- A file in the directory of a path is removed. -/
theorem remove_of_follows (hlinks : tree.LinkFree) {directory : Location}
    (hdir : tree.directoryOf? dir = some directory) (hfollows : Follows dir name)
    {content : Content} (hitem : tree.item? (name :: directory) = some (.file content)) :
    tree.remove (dir.join ⟨name⟩) = .ok (tree.erase (name :: directory)) := by
  rw [remove, locateEntry_join_eq hfollows.isName, reach_join_spotOf hlinks hdir hfollows, spotOf,
    hitem]

theorem endsInSlash_join (hname : IsEntryName name) : (dir.join ⟨name⟩).endsInSlash = false := by
  have hlast : ∀ before : List Char, (before ++ name.toList).getLast? ≠ some '/' := by
    intro before h
    rw [List.getLast?_append_of_ne_nil before (toList_ne_nil hname)] at h
    exact hname.no_slash (List.mem_of_getLast? h)
  have htext : ∃ before, (dir.join ⟨name⟩).text.toList = before ++ name.toList := by
    unfold join
    split_ifs
    · exact ⟨[], rfl⟩
    · exact ⟨_, String.toList_append⟩
    · exact ⟨_, String.toList_append⟩
  obtain ⟨before, hbefore⟩ := htext
  rw [endsInSlash, hbefore]
  simpa using hlast before

/-- A name in the directory of a path is written, unless a directory has it. -/
theorem write_of_follows (hlinks : tree.LinkFree) {directory : Location}
    (hdir : tree.directoryOf? dir = some directory) (hfollows : Follows dir name)
    (hitem : tree.item? (name :: directory) ≠ some .directory) (content : Content) :
    tree.write (dir.join ⟨name⟩) content = .ok (tree.set (name :: directory) (.file content)) := by
  rw [write, endsInSlash_join hfollows.isName, if_neg (by simp), locate,
    reach_join_spotOf hlinks hdir hfollows, spotOf]
  cases hthere : tree.item? (name :: directory) with
  | none => rfl
  | some item =>
    cases item with
    | directory => exact absurd hthere hitem
    | file _ => rfl
    | link target => rfl

end FileTree

end SchemaHeaders
