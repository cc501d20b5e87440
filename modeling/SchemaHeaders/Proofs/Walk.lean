import SchemaHeaders.Proofs.PlainPath

/-!
# Where paths lead

`FileTree.WalkStep` lists the ways in which a walk that leads to a spot can go on at a piece of a
path, and these are all there are (`walkPieces_cons_eq_ok_iff`). In a well-formed tree a path
leads to a spot that fits the tree (`locate_fits`, `locateEntry_fits`) : to an item that is there,
or to a free name in a directory.

`makeDirectory_spot`, `remove_spot` and `write_spot` say what the operations on a tree do at
the spot that their path leads to.
-/

namespace SchemaHeaders

/-! ## Spots -/

namespace Spot

/-- The location that a spot is at. -/
def location : Spot → Location
  | found location _ => location
  | vacant parent name => name :: parent

/-- The item that is found. -/
def item? : Spot → Option Item
  | found _ item => some item
  | vacant _ _ => none

/-- A spot is as the tree has it, and if it is vacant then in a directory. -/
def Fits (tree : FileTree) : Spot → Prop
  | found location item => tree.item? location = some item
  | vacant parent name => tree.item? parent = some .directory ∧ FileTree.IsEntryName name ∧
      tree.item? (name :: parent) = none

variable {tree : FileTree} {spot : Spot}

theorem Fits.item?_eq (h : spot.Fits tree) : tree.item? spot.location = spot.item? := by
  cases spot with
  | found location item => exact h
  | vacant parent name => exact h.2.2

/-- A spot that is no directory is a name in one. -/
theorem Fits.exists_parent (h : spot.Fits tree) (hwf : tree.WellFormed)
    (hitem : spot.item? ≠ some .directory) :
    ∃ name parent, spot.location = name :: parent ∧ FileTree.IsEntryName name ∧
      tree.item? parent = some .directory := by
  cases spot with
  | vacant parent name => exact ⟨name, parent, rfl, h.2.1, h.1⟩
  | found location item =>
    cases location with
    | nil =>
      have hroot : some Item.directory = some item := h
      exact absurd hroot.symm hitem
    | cons name parent => exact ⟨name, parent, rfl, hwf.named h, hwf.parented h⟩

end Spot

namespace FileTree

open PathName

variable {tree : FileTree} {final : Bool} {spot : Spot}
  {follow : Location → List (List Char) → Except IoCause Spot}

/-! ## One piece of a walk -/

/-- How a walk that leads to a spot goes on from a directory at a piece. -/
inductive WalkStep (tree : FileTree) (final : Bool)
    (follow : Location → List (List Char) → Except IoCause Spot) (dir : Location)
    (piece : List Char) (pieces : List (List Char)) (spot : Spot) : Prop
  | stay : piece = [] ∨ piece = ['.'] → tree.walkPieces final follow dir pieces = .ok spot →
      WalkStep tree final follow dir piece pieces spot
  | up : piece = ['.', '.'] → tree.walkPieces final follow dir.tail pieces = .ok spot →
      WalkStep tree final follow dir piece pieces spot
  | free {name : String} : pieceName? piece = some name → name.utf8ByteSize ≤ nameLimit →
      tree.item? (name :: dir) = none → (∀ p ∈ pieces, p = []) → spot = .vacant dir name →
      WalkStep tree final follow dir piece pieces spot
  | enter {name : String} : pieceName? piece = some name → name.utf8ByteSize ≤ nameLimit →
      tree.item? (name :: dir) = some .directory →
      tree.walkPieces final follow (name :: dir) pieces = .ok spot →
      WalkStep tree final follow dir piece pieces spot
  | file {name : String} {content : Content} : pieceName? piece = some name →
      name.utf8ByteSize ≤ nameLimit → tree.item? (name :: dir) = some (.file content) →
      pieces = [] → spot = .found (name :: dir) (.file content) →
      WalkStep tree final follow dir piece pieces spot
  | link {name : String} {target : PathName} : pieceName? piece = some name →
      name.utf8ByteSize ≤ nameLimit → tree.item? (name :: dir) = some (.link target) →
      pieces = [] → final = false → spot = .found (name :: dir) (.link target) →
      WalkStep tree final follow dir piece pieces spot
  | follow {name : String} {target : PathName} : pieceName? piece = some name →
      name.utf8ByteSize ≤ nameLimit → tree.item? (name :: dir) = some (.link target) →
      (pieces = [] → final = true) →
      follow (if target.isAbsolute then [] else dir) (piecesOf target ++ pieces) = .ok spot →
      WalkStep tree final follow dir piece pieces spot

theorem walkStep_of_ok {dir : Location} {piece : List Char} {pieces : List (List Char)}
    (h : tree.walkPieces final follow dir (piece :: pieces) = .ok spot) :
    WalkStep tree final follow dir piece pieces spot := by
  rw [walkPieces] at h
  by_cases hskip : piece = [] ∨ piece = ['.']
  · rw [if_pos hskip] at h
    exact .stay hskip h
  by_cases hup : piece = ['.', '.']
  · rw [if_neg hskip, if_pos hup] at h
    exact .up hup h
  have hname : pieceName? piece = some (String.ofList piece) := by
    rw [pieceName?_eq, if_neg (by tauto)]
  rw [if_neg hskip, if_neg hup] at h
  dsimp only at h
  by_cases hlong : nameLimit < (String.ofList piece).utf8ByteSize
  · rw [if_pos hlong] at h
    cases h
  rw [if_neg hlong] at h
  have hshort := not_lt.mp hlong
  cases hitem : tree.item? (String.ofList piece :: dir) with
  | none =>
    simp only [hitem] at h
    split_ifs at h with hall
    cases h
    exact .free hname hshort hitem (by simpa using hall) rfl
  | some item =>
    cases item with
    | directory =>
      simp only [hitem] at h
      exact .enter hname hshort hitem h
    | file content =>
      simp only [hitem] at h
      split_ifs at h with hlast
      cases h
      exact .file hname hshort hitem hlast rfl
    | link target =>
      simp only [hitem] at h
      by_cases hlast : pieces = [] ∧ (!final) = true
      · rw [if_pos hlast] at h
        cases h
        exact .link hname hshort hitem hlast.1 (by simpa using hlast.2) rfl
      · rw [if_neg hlast] at h
        exact .follow hname hshort hitem (fun hnil => by simpa [hnil] using hlast) h

/-- A piece that says a name is that name. -/
theorem piece_of_pieceName? {piece : List Char} {name : String} (h : pieceName? piece = some name) :
    String.ofList piece = name ∧ ¬(piece = [] ∨ piece = ['.']) ∧ piece ≠ ['.', '.'] := by
  rw [pieceName?_eq] at h
  split_ifs at h with hpiece
  simp only [not_or] at hpiece
  exact ⟨Option.some.inj h, not_or.mpr ⟨hpiece.1, hpiece.2.1⟩, hpiece.2.2⟩

/-- The ways in which a walk can go on are all there are. -/
theorem walkPieces_cons_eq_ok_iff {dir : Location} {piece : List Char}
    {pieces : List (List Char)} :
    tree.walkPieces final follow dir (piece :: pieces) = .ok spot ↔
      WalkStep tree final follow dir piece pieces spot := by
  refine ⟨walkStep_of_ok, fun hstep => ?_⟩
  rw [walkPieces]
  cases hstep with
  | stay hskip h => rwa [if_pos hskip]
  | up hup h =>
    subst hup
    rwa [if_neg (by simp), if_pos rfl]
  | free hname hshort hitem hempty hspot =>
    obtain ⟨rfl, hskip, hup⟩ := piece_of_pieceName? hname
    rw [if_neg hskip, if_neg hup, if_neg (not_lt.mpr hshort), hitem, hspot]
    exact if_pos (by simpa using hempty)
  | enter hname hshort hitem h =>
    obtain ⟨rfl, hskip, hup⟩ := piece_of_pieceName? hname
    rwa [if_neg hskip, if_neg hup, if_neg (not_lt.mpr hshort), hitem]
  | file hname hshort hitem hlast hspot =>
    obtain ⟨rfl, hskip, hup⟩ := piece_of_pieceName? hname
    rw [if_neg hskip, if_neg hup, if_neg (not_lt.mpr hshort), hitem, hspot]
    exact if_pos hlast
  | link hname hshort hitem hlast hfinal hspot =>
    obtain ⟨rfl, hskip, hup⟩ := piece_of_pieceName? hname
    rw [if_neg hskip, if_neg hup, if_neg (not_lt.mpr hshort), hitem, hspot]
    exact if_pos ⟨hlast, by simp [hfinal]⟩
  | follow hname hshort hitem hfinal h =>
    obtain ⟨rfl, hskip, hup⟩ := piece_of_pieceName? hname
    rw [if_neg hskip, if_neg hup, if_neg (not_lt.mpr hshort), hitem]
    refine (if_neg ?_).trans h
    rintro ⟨hnil, hnot⟩
    simp [hfinal hnil] at hnot

/-! ## Spots that fit -/

theorem walkPieces_fits (hwf : tree.WellFormed)
    (hfollow : ∀ dir pieces spot, tree.item? dir = some .directory →
      (∀ piece ∈ pieces, '/' ∉ piece) → follow dir pieces = .ok spot → spot.Fits tree) :
    ∀ (dir : Location) (pieces : List (List Char)), tree.item? dir = some .directory →
      (∀ piece ∈ pieces, '/' ∉ piece) → tree.walkPieces final follow dir pieces = .ok spot →
      spot.Fits tree
  | dir, [], hdir, _, h => by
    cases h
    exact hdir
  | dir, piece :: pieces, hdir, hslash, h => by
    have hrest : ∀ p ∈ pieces, '/' ∉ p := fun p hp => hslash p (List.mem_cons_of_mem _ hp)
    cases walkStep_of_ok h with
    | stay _ h => exact walkPieces_fits hwf hfollow dir pieces hdir hrest h
    | up _ h =>
      have htail := hwf.directory_of_suffix (List.tail_suffix dir) hdir
      exact walkPieces_fits hwf hfollow dir.tail pieces htail hrest h
    | free hname _ hitem _ hspot =>
      subst hspot
      exact ⟨hdir, isEntryName_of_pieceName? (hslash piece (by simp)) hname, hitem⟩
    | enter _ _ hitem h => exact walkPieces_fits hwf hfollow _ pieces hitem hrest h
    | file _ _ hitem _ hspot =>
      subst hspot
      exact hitem
    | link _ _ hitem _ _ hspot =>
      subst hspot
      exact hitem
    | @follow _ target _ _ _ _ h =>
      refine hfollow _ _ _ ?_ ?_ h
      · split_ifs
        · exact item?_nil tree
        · exact hdir
      · intro p hp
        rcases List.mem_append.mp hp with hp | hp
        · exact slash_not_mem_piecesOf target p hp
        · exact hrest p hp

theorem walk_fits (hwf : tree.WellFormed) : ∀ (n : Nat) (dir : Location)
    (pieces : List (List Char)) (spot : Spot), tree.item? dir = some .directory →
    (∀ piece ∈ pieces, '/' ∉ piece) → tree.walk final n dir pieces = .ok spot → spot.Fits tree
  | 0, _, _, _, _, _, h => by cases h
  | n + 1, dir, pieces, _, hdir, hslash, h =>
    walkPieces_fits hwf (walk_fits hwf n) dir pieces hdir hslash h

theorem reach_fits (hwf : tree.WellFormed) {path : PathName} {pieces : List (List Char)}
    (hslash : ∀ piece ∈ pieces, '/' ∉ piece) (h : tree.reach final path pieces = .ok spot) :
    spot.Fits tree := by
  unfold reach at h
  split at h
  · cases h
  · refine walk_fits hwf _ _ pieces spot ?_ hslash h
    split_ifs
    · exact item?_nil tree
    · exact hwf.seated

/-- A path leads to a spot that fits the tree. -/
theorem locate_fits (hwf : tree.WellFormed) {path : PathName}
    (h : tree.locate path = .ok spot) : spot.Fits tree :=
  reach_fits hwf (slash_not_mem_piecesOf path) h

/-- The pieces of a path without the empty ones after slashes at the end. -/
def trimmedPieces (path : PathName) : List (List Char) :=
  ((piecesOf path).reverse.dropWhile (· == [])).reverse

theorem mem_piecesOf_of_mem_trimmed {path : PathName} {piece : List Char}
    (h : piece ∈ trimmedPieces path) : piece ∈ piecesOf path := by
  rw [trimmedPieces, List.mem_reverse] at h
  exact List.mem_reverse.mp ((List.dropWhile_suffix _).subset h)

/-- A path names a spot that fits the tree. -/
theorem locateEntry_fits (hwf : tree.WellFormed) {path : PathName}
    (h : tree.locateEntry path = .ok spot) : spot.Fits tree :=
  reach_fits hwf (fun piece hp => slash_not_mem_piecesOf path piece (mem_piecesOf_of_mem_trimmed hp))
    h

/-- A path has only empty pieces after those that do not come from slashes at the end. -/
theorem piecesOf_eq_trimmed (path : PathName) :
    ∃ empties, (∀ piece ∈ empties, piece = []) ∧ piecesOf path = trimmedPieces path ++ empties := by
  refine ⟨((piecesOf path).reverse.takeWhile (· == [])).reverse, fun piece hpiece => ?_, ?_⟩
  · have hall := List.all_takeWhile (l := (piecesOf path).reverse) (p := (· == []))
    exact beq_iff_eq.mp (List.all_eq_true.mp hall piece (List.mem_reverse.mp hpiece))
  · rw [trimmedPieces, ← List.reverse_append, List.takeWhile_append_dropWhile,
      List.reverse_reverse]

/-! ## Operations -/

variable {tree' : FileTree} {path : PathName} {content : Content}

/-- A directory is made at a free name. -/
theorem makeDirectory_spot (h : tree.makeDirectory path = .ok tree') :
    ∃ name parent, tree.locateEntry path = .ok (.vacant parent name) ∧
      tree' = tree.set (name :: parent) .directory := by
  unfold makeDirectory make at h
  split at h
  · cases h
  · cases h
  · rename_i parent name hspot
    cases h
    exact ⟨name, parent, hspot, rfl⟩

/-- What is removed is an item other than a directory. -/
theorem remove_spot (h : tree.remove path = .ok tree') :
    ∃ location item, tree.locateEntry path = .ok (.found location item) ∧ item ≠ .directory ∧
      tree' = tree.erase location := by
  unfold remove at h
  split at h
  · cases h
  · cases h
  · rename_i location item hdir hspot
    cases h
    exact ⟨location, item, hspot, hdir, rfl⟩
  · cases h

/-- What is written is no directory. -/
theorem write_spot (h : tree.write path content = .ok tree') :
    ∃ spot, tree.locate path = .ok spot ∧ spot.item? ≠ some .directory ∧
      tree' = tree.set spot.location (.file content) := by
  unfold write at h
  split at h
  · split at h <;> cases h
  split at h
  · cases h
  · cases h
  · rename_i location item hdir hspot
    cases h
    exact ⟨_, hspot, fun heq => hdir (Option.some.inj heq), rfl⟩
  · rename_i parent name hspot
    cases h
    exact ⟨_, hspot, by simp [Spot.item?], rfl⟩

end FileTree

end SchemaHeaders
