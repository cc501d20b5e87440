import SchemaHeaders.Proofs.Preparation
import Mathlib.Algebra.Order.BigOperators.Group.List
import Mathlib.Algebra.Order.Ring.Nat
import Mathlib.Data.List.TakeWhile

/-!
# Making directories at plain paths

In a tree without links, where a plain path leads is known from its names, and what becomes of the
tree when its directory is made can be said in full.

`walkPieces_plain` : if no file is on the way, a walk leads to the directory at its end, or to a
free name, or nowhere. So a directory can be made with those above it exactly if the path
is within the limits of paths (`PathName.Short`), no file is on the way, and the directory is there
already or the path ends in its name (`makeDirectories_ok_iff`) : below `a/.` nothing can be made
as long as there is no `a`. Only directories on the way are made (`makeDirectories_growsTo`).
-/

namespace SchemaHeaders

open FileTree PathName

/-! ## Limits of paths -/

namespace PathName

/-- A path that is neither too long itself nor has a name that is. -/
structure Short (p : PathName) : Prop where
  no_fault : fault? p = none
  names : ∀ name ∈ p.names, name.utf8ByteSize ≤ nameLimit

/-- Slashes apart, a path has a name at its end. -/
def EndsInName (p : PathName) : Prop :=
  ∃ before piece name, trimmedPieces p = before ++ [piece] ∧ pieceName? piece = some name

theorem names_eq_trimmed (p : PathName) : p.names = (trimmedPieces p).filterMap pieceName? := by
  obtain ⟨empties, hempties, hpieces⟩ := piecesOf_eq_trimmed p
  have hnone : empties.filterMap pieceName? = [] :=
    List.filterMap_eq_nil_iff.mpr fun piece hpiece => by rw [hempties piece hpiece]; rfl
  rw [names_eq_pieces, hpieces, List.filterMap_append, hnone, List.append_nil]

/-- The last of the pieces that do not come from slashes at the end is not empty. -/
theorem ne_nil_of_trimmedPieces {p : PathName} {before : List (List Char)} {piece : List Char}
    (h : trimmedPieces p = before ++ [piece]) : piece ≠ [] := by
  rw [trimmedPieces, List.reverse_eq_iff, List.reverse_concat] at h
  have hnot := List.dropWhile_get_zero_not (· == []) (piecesOf p).reverse (by rw [h]; simp)
  rw [List.get_eq_getElem, getElem_congr_coll h] at hnot
  simpa using hnot

end PathName

namespace FileTree

variable {tree tree' : FileTree} {final : Bool} {spot : Spot} {location dir : Location}
  {follow : Location → List (List Char) → Except IoCause Spot} {pieces : List (List Char)}

/-! ## Ways without files -/

/-- No file is at a location or above it. -/
def NoFileAbove (tree : FileTree) (location : Location) : Prop :=
  ∀ above, above <:+ location → ∀ content, tree.item? above ≠ some (.file content)

theorem NoFileAbove.mono {above : Location} (h : tree.NoFileAbove location)
    (habove : above <:+ location) : tree.NoFileAbove above :=
  fun higher hhigher => h higher (hhigher.trans habove)

theorem suffix_foldl_stepFrom (hup : ['.', '.'] ∉ pieces) (dir : Location) :
    dir <:+ pieces.foldl stepFrom dir := by
  rw [foldl_stepFrom hup]
  exact List.suffix_append _ _

/-- What a walk to a directory ends with, if no file is on the way. -/
inductive PlainEnd (tree : FileTree) (dir : Location) (pieces : List (List Char)) :
    Except IoCause Spot → Prop
  | there : tree.item? (pieces.foldl stepFrom dir) = some .directory →
      PlainEnd tree dir pieces (.ok (.found (pieces.foldl stepFrom dir) .directory))
  | free {before empties : List (List Char)} {piece : List Char} {name : String} :
      pieces = before ++ piece :: empties → (∀ e ∈ empties, e = []) →
      pieceName? piece = some name → tree.item? (before.foldl stepFrom dir) = some .directory →
      tree.item? (name :: before.foldl stepFrom dir) = none →
      PlainEnd tree dir pieces (.ok (.vacant (before.foldl stepFrom dir) name))
  | missing : tree.item? (pieces.foldl stepFrom dir) = none →
      PlainEnd tree dir pieces (.error .notFound)

theorem PlainEnd.cons {d : Location} {piece : List Char} {result : Except IoCause Spot}
    (h : PlainEnd tree d pieces result) (hstep : stepFrom dir piece = d) :
    PlainEnd tree dir (piece :: pieces) result := by
  subst hstep
  cases h with
  | there hitem => exact @PlainEnd.there tree dir (piece :: pieces) hitem
  | @free before empties last name hpieces hempties hname hparent hfree =>
    exact @PlainEnd.free tree dir (piece :: pieces) (piece :: before) empties last name
      (by rw [hpieces]; rfl) hempties hname hparent hfree
  | missing hitem => exact .missing hitem

/-- Without links, a walk of pieces that do not lead up and whose names are not too long ends in one
of three ways if no file is on the way. -/
theorem walkPieces_plain (hsimple : tree.Simple) : ∀ (dir : Location) (pieces : List (List Char)),
    tree.item? dir = some .directory → ['.', '.'] ∉ pieces →
    (∀ name ∈ pieces.filterMap pieceName?, name.utf8ByteSize ≤ nameLimit) →
    tree.NoFileAbove (pieces.foldl stepFrom dir) →
    PlainEnd tree dir pieces (tree.walkPieces final follow dir pieces)
  | dir, [], hdir, _, _, _ => .there hdir
  | dir, piece :: pieces, hdir, hup, hshort, hfile => by
    simp only [List.mem_cons, not_or] at hup
    rw [List.foldl_cons] at hfile
    have hrest := fun d => walkPieces_plain hsimple d pieces
    rw [walkPieces]
    by_cases hskip : piece = [] ∨ piece = ['.']
    · have hnone : pieceName? piece = none := by rw [pieceName?_eq, if_pos (by tauto)]
      have hstep : stepFrom dir piece = dir := by
        rw [stepFrom, if_neg (Ne.symm hup.1), hnone]
        rfl
      rw [hstep] at hfile
      rw [List.filterMap_cons_none hnone] at hshort
      rw [if_pos hskip]
      exact (hrest dir hdir hup.2 hshort hfile).cons hstep
    · have hname : pieceName? piece = some (String.ofList piece) := by
        rw [pieceName?_eq, if_neg (by tauto)]
      have hstep := stepFrom_name hname dir
      rw [hstep] at hfile
      rw [List.filterMap_cons_some hname] at hshort
      have hlength : (String.ofList piece).utf8ByteSize ≤ nameLimit := hshort _ (by simp)
      have hon := suffix_foldl_stepFrom hup.2 (String.ofList piece :: dir)
      rw [if_neg hskip, if_neg (Ne.symm hup.1), if_neg (not_lt.mpr hlength)]
      cases hitem : tree.item? (String.ofList piece :: dir) with
      | none =>
        dsimp only
        split_ifs with hempty
        · exact @PlainEnd.free tree dir (piece :: pieces) [] pieces piece _ rfl
            (by simpa using hempty) hname hdir hitem
        · refine .missing ?_
          rw [List.foldl_cons, hstep]
          exact hsimple.wellFormed.item?_eq_none_of_suffix hon hitem
      | some item =>
        cases item with
        | directory =>
          exact (hrest _ hitem hup.2 (fun n hn => hshort n (List.mem_cons_of_mem _ hn))
            hfile).cons hstep
        | file content => exact absurd hitem (hfile _ hon content)
        | link target => exact absurd hitem (hsimple.linkFree _ _)

theorem NoFileAbove.of_directory (hwf : tree.WellFormed)
    (h : tree.item? location = some .directory) : tree.NoFileAbove location := by
  intro above habove content hfile
  have hdir := hwf.directory_of_suffix habove h
  rw [hfile] at hdir
  cases hdir

/-- Without links, a walk of pieces that do not lead up and whose names are not too long leads to the
directory at its end if there is one. -/
theorem walkPieces_of_directory (hsimple : tree.Simple)
    (hdir : tree.item? dir = some .directory) (hup : ['.', '.'] ∉ pieces)
    (hshort : ∀ name ∈ pieces.filterMap pieceName?, name.utf8ByteSize ≤ nameLimit)
    (h : tree.item? (pieces.foldl stepFrom dir) = some .directory) :
    tree.walkPieces final follow dir pieces =
      .ok (.found (pieces.foldl stepFrom dir) .directory) := by
  have hend : PlainEnd tree dir pieces (tree.walkPieces final follow dir pieces) :=
    walkPieces_plain hsimple dir pieces hdir hup hshort (.of_directory hsimple.wellFormed h)
  generalize tree.walkPieces final follow dir pieces = result at hend
  cases hend with
  | there => rfl
  | free hpieces hempties hname _ hfree =>
    rw [hpieces, List.foldl_append, List.foldl_cons, stepFrom_name hname,
      foldl_stepFrom_empties hempties, hfree] at h
    cases h
  | missing hnone =>
    rw [hnone] at h
    cases h

/-! ## Plain paths -/

variable {p : PathName}

theorem up_not_mem_piecesOf (hp : p.Plain) : ['.', '.'] ∉ piecesOf p :=
  fun hup => hp.no_up ((up_mem_components_iff p).mpr hup)

theorem up_not_mem_trimmedPieces (hp : p.Plain) : ['.', '.'] ∉ trimmedPieces p :=
  fun hup => up_not_mem_piecesOf hp (mem_piecesOf_of_mem_trimmed hup)

theorem start_plain (tree : FileTree) (hp : p.Plain) : tree.start p = tree.current :=
  if_neg (by simp [hp.relative])

theorem foldl_piecesOf (tree : FileTree) (hp : p.Plain) :
    (piecesOf p).foldl stepFrom tree.current = tree.addressOf p := by
  rw [addressOf, start_plain tree hp]

/-- Slashes at the end of a path do not change its address. -/
theorem foldl_trimmedPieces_start (tree : FileTree) (p : PathName) :
    (trimmedPieces p).foldl stepFrom (tree.start p) = tree.addressOf p := by
  obtain ⟨empties, hempties, hpieces⟩ := piecesOf_eq_trimmed p
  rw [addressOf, hpieces, List.foldl_append, foldl_stepFrom_empties hempties]

theorem foldl_trimmedPieces (tree : FileTree) (hp : p.Plain) :
    (trimmedPieces p).foldl stepFrom tree.current = tree.addressOf p := by
  rw [← start_plain tree hp, foldl_trimmedPieces_start]

theorem short_of_walkPieces (hlinks : tree.LinkFree) : ∀ (dir : Location)
    (pieces : List (List Char)),
    tree.walkPieces final follow dir pieces = .ok (.found location .directory) →
    ∀ name ∈ pieces.filterMap pieceName?, name.utf8ByteSize ≤ nameLimit
  | _, [], _ => by simp
  | dir, piece :: pieces, h => by
    cases walkStep_of_ok h with
    | stay hskip h =>
      have hnone : pieceName? piece = none := by rw [pieceName?_eq, if_pos (by tauto)]
      rw [List.filterMap_cons_none hnone]
      exact short_of_walkPieces hlinks _ pieces h
    | up hup h =>
      have hnone : pieceName? piece = none := by rw [pieceName?_eq, if_pos (by tauto)]
      rw [List.filterMap_cons_none hnone]
      exact short_of_walkPieces hlinks _ pieces h
    | free _ _ _ _ hspot => cases hspot
    | enter hname hshort _ h =>
      rw [List.filterMap_cons_some hname]
      rintro name (_ | ⟨_, hmem⟩)
      · exact hshort
      · exact short_of_walkPieces hlinks _ pieces h name hmem
    | file _ _ _ _ hspot => cases hspot
    | link _ _ hitem => exact absurd hitem (hlinks _ _)
    | follow _ _ hitem => exact absurd hitem (hlinks _ _)

/-- A plain path leads to the directory at its address if there is one and the path is within the
limits of paths. -/
theorem directoryOf?_plain_iff (hsimple : tree.Simple) (hp : p.Plain) :
    tree.directoryOf? p = some (tree.addressOf p) ↔
      p.Short ∧ tree.item? (tree.addressOf p) = some .directory := by
  rw [directoryOf?_eq_some_iff hp.ne_empty]
  constructor
  · intro h
    obtain ⟨hfault, hwalk⟩ := reach_eq_ok_iff.mp h
    refine ⟨⟨hfault, ?_⟩, locate_fits hsimple.wellFormed h⟩
    rw [names_eq_pieces]
    exact short_of_walkPieces hsimple.linkFree _ _ hwalk
  · rintro ⟨hshort, hdir⟩
    refine reach_eq_ok_iff.mpr ⟨hshort.no_fault, ?_⟩
    have hnames := hshort.names
    rw [names_eq_pieces] at hnames
    rw [← foldl_piecesOf tree hp] at hdir ⊢
    rw [start_plain tree hp]
    exact walkPieces_of_directory hsimple hsimple.wellFormed.seated (up_not_mem_piecesOf hp) hnames
      hdir

theorem locateEntry_eq_walk (tree : FileTree) (hp : p.Plain) (hshort : p.Short) :
    tree.locateEntry p = tree.walk false (linkLimit + 1) tree.current (trimmedPieces p) := by
  rw [locateEntry, reach, hshort.no_fault, hp.relative]
  rfl

theorem Short.names_trimmed (hshort : p.Short) :
    ∀ name ∈ (trimmedPieces p).filterMap pieceName?, name.utf8ByteSize ≤ nameLimit :=
  names_eq_trimmed p ▸ hshort.names

/-! ## Making one directory -/

theorem makeDirectory_of_there (hsimple : tree.Simple) (hp : p.Plain) (hshort : p.Short)
    (h : tree.item? (tree.addressOf p) = some .directory) :
    tree.makeDirectory p = .error .alreadyExists := by
  rw [← foldl_trimmedPieces tree hp] at h
  have hwalk : tree.walk false (linkLimit + 1) tree.current (trimmedPieces p) = _ :=
    walkPieces_of_directory hsimple hsimple.wellFormed.seated (up_not_mem_trimmedPieces hp)
      (Short.names_trimmed hshort) h
  rw [makeDirectory, make, locateEntry_eq_walk tree hp hshort, hwalk]

variable {name : String} {parent : Location}

/-- A directory cannot be made where the one above it is missing. -/
theorem makeDirectory_of_missing (hsimple : tree.Simple) (hp : p.Plain) (hshort : p.Short)
    (hfile : tree.NoFileAbove (tree.addressOf p)) (haddress : tree.addressOf p = name :: parent)
    (h : tree.item? parent ≠ some .directory) : tree.makeDirectory p = .error .notFound := by
  have hnone := hsimple.wellFormed.item?_cons_eq_none h name
  rw [← foldl_trimmedPieces tree hp] at haddress hfile
  have hend : PlainEnd tree tree.current (trimmedPieces p)
      (tree.walk false (linkLimit + 1) tree.current (trimmedPieces p)) :=
    walkPieces_plain hsimple _ _ hsimple.wellFormed.seated (up_not_mem_trimmedPieces hp)
      (Short.names_trimmed hshort) hfile
  rw [makeDirectory, make, locateEntry_eq_walk tree hp hshort]
  generalize tree.walk false (linkLimit + 1) tree.current (trimmedPieces p) = result at hend
  cases hend with
  | there hdir =>
    rw [haddress, hnone] at hdir
    cases hdir
  | free hpieces hempties hname hdir _ =>
    rw [hpieces, List.foldl_append, List.foldl_cons, stepFrom_name hname,
      foldl_stepFrom_empties hempties] at haddress
    rw [(List.cons.inj haddress).2] at hdir
    exact absurd hdir h
  | missing => rfl

/-- A directory is made in one that is there, if the path ends in its name. -/
theorem makeDirectory_of_free (hsimple : tree.Simple) (hp : p.Plain) (hshort : p.Short)
    (hend : p.EndsInName) (haddress : tree.addressOf p = name :: parent)
    (hparent : tree.item? parent = some .directory) (hfree : tree.item? (name :: parent) = none) :
    tree.makeDirectory p = .ok (tree.set (tree.addressOf p) .directory) := by
  obtain ⟨before, piece, last, htrimmed, hlast⟩ := hend
  have hfold : last :: before.foldl stepFrom tree.current = name :: parent := by
    rw [← haddress, ← foldl_trimmedPieces tree hp, htrimmed, List.foldl_append, List.foldl_cons,
      stepFrom_name hlast, List.foldl_nil]
  obtain ⟨rfl, rfl⟩ := List.cons.inj hfold
  have hup := up_not_mem_trimmedPieces hp
  have hnames := Short.names_trimmed hshort
  rw [htrimmed, List.filterMap_append] at hnames
  rw [htrimmed, List.mem_append, not_or] at hup
  have hlastShort : last.utf8ByteSize ≤ nameLimit := hnames last (by simp [hlast])
  have hbefore : tree.walkPieces true (tree.walk false linkLimit) tree.current before = _ :=
    walkPieces_of_directory hsimple hsimple.wellFormed.seated hup.1
      (fun n hn => hnames n (List.mem_append_left _ hn)) hparent
  have hwalk : tree.walk false (linkLimit + 1) tree.current (trimmedPieces p) =
      .ok (.vacant (before.foldl stepFrom tree.current) last) := by
    rw [htrimmed, walk, walkPieces_append hsimple.linkFree _ _ _ hbefore]
    exact walkPieces_cons_eq_ok_iff.mpr (.free hlast hlastShort hfree (by simp) rfl)
  rw [makeDirectory, make, locateEntry_eq_walk tree hp hshort, hwalk, haddress]

/-- What is made by a path is a directory at its address. -/
theorem makeDirectory_address (hsimple : tree.Simple) (h : tree.makeDirectory p = .ok tree') :
    p.EndsInName ∧ tree.item? (tree.addressOf p) = none ∧
      tree' = tree.set (tree.addressOf p) .directory := by
  obtain ⟨name, parent, hspot, rfl⟩ := makeDirectory_spot h
  have hwalk := (reach_eq_ok_iff.mp hspot).2
  change tree.walk false _ _ (trimmedPieces p) = _ at hwalk
  have haddress : name :: parent = tree.addressOf p := by
    rw [← foldl_trimmedPieces_start tree p]
    exact location_of_walkPieces hsimple.linkFree _ _ hwalk
  obtain ⟨before, piece, empties, last, _, htrimmed, hempties, hlast, -⟩ :=
    name_of_walkPieces hsimple.linkFree _ _ hwalk (by simp [Spot.item?])
  obtain ⟨-, -, hfree⟩ : Spot.Fits tree (.vacant parent name) :=
    locateEntry_fits hsimple.wellFormed hspot
  refine ⟨?_, haddress ▸ hfree, by rw [haddress]⟩
  -- No piece is left after the name, since the last of the pieces is not empty.
  obtain rfl : empties = [] := by
    by_contra hne
    obtain ⟨front, e, rfl⟩ := List.eq_nil_or_concat empties |>.resolve_left hne
    rw [List.concat_eq_append, ← List.cons_append, ← List.append_assoc] at htrimmed
    exact ne_nil_of_trimmedPieces htrimmed (hempties e (by simp))
  exact ⟨before, piece, last, htrimmed, hlast⟩

end FileTree

/-! ## Limits of the path above -/

namespace PathName

/-- The number of octets of a text is that of its pieces, with one for each separator. -/
theorem utf8ByteSize_pieces : ∀ cs : List Char, (String.ofList cs).utf8ByteSize + 1 =
    (((Text.pieces '/' cs).1 :: (Text.pieces '/' cs).2).map
      fun piece => (String.ofList piece).utf8ByteSize + 1).sum
  | [] => by simp [Text.pieces]
  | c :: cs => by
    have hrest := utf8ByteSize_pieces cs
    have hcons : ∀ cs, (String.ofList (c :: cs)).utf8ByteSize =
        (String.ofList [c]).utf8ByteSize + (String.ofList cs).utf8ByteSize := by
      intro cs
      rw [← String.utf8ByteSize_append, ← String.ofList_append]
      rfl
    by_cases hc : c = '/'
    · have hslash : (String.ofList ['/']).utf8ByteSize = 1 := by decide
      have hempty : (String.ofList []).utf8ByteSize = 0 := by decide
      simp only [Text.pieces, if_pos hc, List.map_cons, List.sum_cons] at hrest ⊢
      rw [hcons, hc, hslash, hempty]
      omega
    · simp only [Text.pieces, if_neg hc, List.map_cons, List.sum_cons] at hrest ⊢
      rw [hcons cs, hcons (Text.pieces '/' cs).1]
      omega

/-- A path whose pieces are among those of a path without faults has none. -/
theorem fault?_of_sublist {p q : PathName} (hq : q.text ≠ "") (h : (piecesOf q).Sublist (piecesOf p))
    (hp : fault? p = none) : fault? q = none := by
  have hsize : q.text.utf8ByteSize ≤ p.text.utf8ByteSize := by
    have hsizes := (h.map fun piece => (String.ofList piece).utf8ByteSize + 1).sum_le_sum
      fun _ _ => Nat.zero_le _
    have hp := utf8ByteSize_pieces p.text.toList
    have hq := utf8ByteSize_pieces q.text.toList
    rw [String.ofList_toList] at hp hq
    change _ = ((piecesOf p).map _).sum at hp
    change _ = ((piecesOf q).map _).sum at hq
    omega
  unfold fault? at hp ⊢
  split_ifs at hp with hnul hempty hlong
  rw [if_neg, if_neg hq, if_neg (by omega)]
  have hne : '\x00' ≠ '/' := by decide
  rw [List.contains_iff_mem, ← mem_pieces_iff hne] at hnul ⊢
  intro hmem
  refine hnul ?_
  have hpiece : ∃ piece ∈ piecesOf p, '\x00' ∈ piece := by
    rcases hmem with hmem | ⟨piece, hpiece, hmem⟩
    · exact ⟨_, h.subset (List.mem_cons_self ..), hmem⟩
    · exact ⟨piece, h.subset (List.mem_cons_of_mem _ hpiece), hmem⟩
  obtain ⟨piece, hpiece, hmem⟩ := hpiece
  rcases List.mem_cons.mp hpiece with rfl | hpiece
  · exact Or.inl hmem
  · exact Or.inr ⟨piece, hpiece, hmem⟩

/-- The components of a relative path are among its pieces. -/
theorem components_sublist_piecesOf {p : PathName} (hp : p.isAbsolute = false) :
    (p.components.map (·.text.toList)).Sublist (piecesOf p) := by
  have hpiece : ∀ piece c, component? piece = some c → c.text.toList = piece := by
    intro piece c hc
    unfold component? at hc
    split_ifs at hc with hskip hup
    · cases hc
      exact hup.symm
    · cases hc
      exact String.toList_ofList
  have hrest : ∀ pieces : List (List Char),
      ((pieces.filterMap component?).map (·.text.toList)).Sublist pieces := by
    intro pieces
    induction pieces with
    | nil => simp
    | cons piece pieces ih =>
      cases hc : component? piece with
      | none =>
        rw [List.filterMap_cons_none hc]
        exact ih.cons piece
      | some c =>
        rw [List.filterMap_cons_some hc, List.map_cons, hpiece piece c hc]
        exact ih.cons_cons piece
  have hleading : ∀ first, ((p.leading first).map (·.text.toList)).Sublist [first] := by
    intro first
    unfold leading
    split_ifs with habs hhere
    · rw [hp] at habs
      cases habs
    · rw [hhere]
      decide
    · cases hc : component? first with
      | none => simp
      | some c => simp [hpiece first c hc]
  rw [components_of_pieces (p := p) rfl, List.map_append]
  exact (hleading _).append (hrest _)

section Above

variable {p : PathName} {component : Component} {above : List Component}

theorem piecesOf_above (hp : p.Plain) (h : p.components = (component :: above).reverse)
    (hne : above ≠ []) :
    piecesOf (ofComponents above.reverse) = above.reverse.map (·.text.toList) := by
  obtain ⟨first, others, hfirst⟩ : ∃ first others, above.reverse = first :: others :=
    List.exists_cons_of_ne_nil (by simpa using hne)
  rw [List.reverse_cons, hfirst] at h
  obtain ⟨hleading, hinner⟩ := inner_of_components h
  have hothers : ∀ c ∈ others, c.Inner := fun c hc => hinner c (List.mem_append_left _ hc)
  have hroot : first ≠ .root := by
    rintro rfl
    have habs := (root_mem_components_iff p).mp (by simp [h])
    rw [hp.relative] at habs
    cases habs
  have hslash : ∀ c ∈ first :: others, '/' ∉ c.text.toList := by
    intro c hc
    rcases List.mem_cons.mp hc with rfl | hc
    · rcases hleading with rfl | rfl | hc
      · exact absurd rfl hroot
      · decide
      · exact hc.slash_not_mem
    · exact (hothers c hc).slash_not_mem
  rw [hfirst]
  exact piecesOf_ofComponents (List.cons_ne_nil _ _) (by simp [hroot]) hslash

theorem short_above (hshort : p.Short) (hp : p.Plain)
    (h : p.components = (component :: above).reverse) (hne : above ≠ []) :
    (ofComponents above.reverse).Short := by
  obtain ⟨last, hnames⟩ := names_above hp.downward h hne
  refine ⟨fault?_of_sublist (plain_above hp h hne).ne_empty ?_ hshort.no_fault, fun name hname =>
    hshort.names name (by rw [hnames]; exact List.mem_append_left _ hname)⟩
  rw [piecesOf_above hp h hne]
  refine List.Sublist.trans ?_ (components_sublist_piecesOf hp.relative)
  rw [h, List.reverse_cons, List.map_append]
  exact List.sublist_append_left _ _

/-- The path above has a name at its end, or says no name. -/
theorem endsInName_above (hp : p.Plain) (h : p.components = (component :: above).reverse)
    (hne : above ≠ []) :
    (ofComponents above.reverse).names = [] ∨ (ofComponents above.reverse).EndsInName := by
  obtain ⟨hcomponents, -⟩ := components_above hp.downward h hne
  have hpieces := piecesOf_above hp h hne
  obtain ⟨last, higher, rfl⟩ := List.exists_cons_of_ne_nil hne
  cases last with
  | name text =>
    have hname : IsEntryName text := by
      refine isEntryName_of_mem_names (p := p) (List.mem_filterMap.mpr ⟨.name text, ?_, rfl⟩)
      simp [h]
    refine Or.inr ⟨higher.reverse.map (·.text.toList), text.toList, text, ?_,
      pieceName?_toList hname⟩
    rw [trimmedPieces, hpieces, List.reverse_cons, List.map_append, List.reverse_append,
      List.map_singleton, List.reverse_singleton, List.singleton_append,
      List.dropWhile_cons_of_neg (by simpa [Component.text] using hname.ne_empty)]
    simp [Component.text]
  | up => exact absurd (by simp [h]) hp.no_up
  | root =>
    have habs := (root_mem_components_iff p).mp (by simp [h])
    rw [hp.relative] at habs
    cases habs
  | here =>
    -- Only the first component of a path is a dot.
    have hnil : higher = [] := by
      by_contra hhigher
      obtain ⟨name, hname⟩ :=
        (components_above (plain_above hp h hne).downward (hcomponents.trans rfl) hhigher).2
      cases hname
    subst hnil
    refine Or.inl ?_
    rw [names, hcomponents]
    rfl

end Above

end PathName

/-! ## Making a directory and those above it -/

variable {p : PathName} {world world' : World}

/-- Where a plain path leads to a directory, this is one that is there or can be made. -/
def FileTree.Makeable (tree : FileTree) (p : PathName) : Prop :=
  p.Short ∧ tree.NoFileAbove (tree.addressOf p) ∧
    (tree.item? (tree.addressOf p) = some .directory ∨ p.EndsInName)

theorem acceptDirectory_of_there (hsimple : world.tree.Simple) (hp : p.Plain) (hshort : p.Short)
    (h : world.tree.item? (world.tree.addressOf p) = some .directory) (cause : IoCause) :
    (acceptDirectory p cause : StateM World _).run world = (.ok (), world) := by
  have hdir := (directoryOf?_plain_iff hsimple hp).mpr ⟨hshort, h⟩
  have hthere : world.tree.isDirectory p = true :=
    isDirectory_iff.mpr ⟨_, (directoryOf?_eq_some_iff hp.ne_empty).mp hdir⟩
  rw [acceptDirectory, World.run_bind, World.run_isDirectory, if_pos hthere]
  rfl

/-- A directory is made, or there, if the one above it is there. -/
theorem FileTree.Makeable.makeDirectory {tree : FileTree} (hsimple : tree.Simple) (hp : p.Plain)
    (h : tree.Makeable p)
    (hparent : ∀ name parent, tree.addressOf p = name :: parent →
      tree.item? parent = some .directory) :
    (∃ tree', tree.makeDirectory p = .ok tree') ∨
      tree.makeDirectory p = .error .alreadyExists ∧
        tree.item? (tree.addressOf p) = some .directory := by
  obtain ⟨hshort, hfile, hend⟩ := h
  cases hitem : tree.item? (tree.addressOf p) with
  | some item =>
    cases item with
    | directory => exact Or.inr ⟨makeDirectory_of_there hsimple hp hshort hitem, rfl⟩
    | file content => exact absurd hitem (hfile _ (List.suffix_refl _) content)
    | link target => exact absurd hitem (hsimple.linkFree _ _)
  | none =>
    have hends : p.EndsInName := hend.resolve_left (by simp [hitem])
    cases haddress : tree.addressOf p with
    | nil =>
      rw [haddress, item?_nil] at hitem
      cases hitem
    | cons name parent =>
      rw [haddress] at hitem
      exact Or.inl ⟨_, makeDirectory_of_free hsimple hp hshort hends haddress
        (hparent name parent haddress) hitem⟩

/-- A plain path leads to a directory once it has been made with those above it. -/
theorem makeFrom_there {component : Component} {above : List Component}
    (hsimple : world.tree.Simple) (hp : p.Plain)
    (h : (makeFrom (component :: above) p : StateM World _).run world = (.ok (), world')) :
    p.Short ∧ world'.tree.item? (world'.tree.addressOf p) = some .directory := by
  have hmoves := makeFrom_evolves (component :: above) p world
  rw [h] at hmoves
  have hsimple' := hmoves.simple hsimple
  refine (directoryOf?_plain_iff hsimple' hp).mp ?_
  obtain ⟨location, hlocate⟩ := isDirectory_iff.mp (isDirectory_of_makeFrom hsimple.wellFormed h)
  have hdirectory := (directoryOf?_eq_some_iff hp.ne_empty).mpr hlocate
  rw [hdirectory, address_of_directoryOf? hsimple'.linkFree hdirectory]

theorem addressOf_above (tree : FileTree) {component : Component} {above : List Component}
    (hp : p.Downward) (h : p.components = (component :: above).reverse) (hne : above ≠ []) :
    ∃ name, tree.addressOf p = name :: tree.addressOf (ofComponents above.reverse) := by
  obtain ⟨name, hnames⟩ := names_above hp h hne
  obtain ⟨habove, hroot⟩ := downward_above hp h hne
  refine ⟨name, ?_⟩
  rw [addressOf_downward hp, addressOf_downward habove, hnames, start, start, hroot]
  simp

namespace FileTree

variable {tree tree' tree'' : FileTree} {location : Location}

/-- A location where a directory may be made for a path : it is on the way to the path, and at its
end only if the path ends in a name. -/
structure OnWay (tree : FileTree) (p : PathName) (location : Location) : Prop where
  suffix : location <:+ tree.addressOf p
  named : location = tree.addressOf p → p.EndsInName

theorem Evolves.onWay (h : Evolves tree tree') (hway : OnWay tree' p location) :
    OnWay tree p location := by
  obtain ⟨hsuffix, hnamed⟩ := hway
  rw [h.addressOf] at hsuffix hnamed
  exact ⟨hsuffix, hnamed⟩

/-- What may become of a tree in which directories come only on the way to a path. -/
structure GrowsTo (p : PathName) (tree tree' : FileTree) : Prop extends Grows tree tree' where
  onWay : tree.Simple → ∀ location, tree'.item? location = tree.item? location ∨
    OnWay tree p location

instance : IsPreorder FileTree (GrowsTo p) where
  refl tree := ⟨.refl tree, fun _ _ => Or.inl rfl⟩
  trans _ _ _ h h' := by
    refine ⟨h.toGrows.trans h'.toGrows, fun hsimple location => ?_⟩
    rcases h'.onWay (h.simple hsimple) location with hsame | hmade
    · rw [hsame]
      exact h.onWay hsimple location
    · exact Or.inr (h.toEvolves.onWay hmade)

theorem makeDirectory_growsTo (h : tree.makeDirectory p = .ok tree') : GrowsTo p tree tree' := by
  refine ⟨makeDirectory_grows h, fun hsimple location => ?_⟩
  obtain ⟨hend, -, rfl⟩ := makeDirectory_address hsimple h
  by_cases heq : location = tree.addressOf p
  · exact Or.inr ⟨heq ▸ List.suffix_refl _, fun _ => hend⟩
  · exact Or.inl (item?_set_of_ne heq _)

/-- What grows to the path above grows to the path. -/
theorem GrowsTo.of_above {component : Component} {above : List Component} (hp : p.Downward)
    (h : p.components = (component :: above).reverse) (hne : above ≠ [])
    (hgrows : GrowsTo (ofComponents above.reverse) tree tree') : GrowsTo p tree tree' := by
  refine ⟨hgrows.toGrows, fun hsimple location => ?_⟩
  obtain ⟨name, haddress⟩ := addressOf_above tree hp h hne
  refine (hgrows.onWay hsimple location).imp_right fun ⟨hmade, _⟩ => ?_
  refine ⟨haddress ▸ hmade.trans (List.suffix_cons _ _), ?_⟩
  rintro rfl
  rw [haddress] at hmade
  exact absurd hmade.length_le (by simp)

end FileTree

theorem makeDirectory_above_growsTo : ∀ (component : Component) (above : List Component)
    (p : PathName), p.Downward → p.components = (component :: above).reverse →
    ∀ higher, higher ≠ [] → higher <:+ above → ∀ {tree tree' : FileTree},
      tree.makeDirectory (ofComponents higher.reverse) = .ok tree' → GrowsTo p tree tree'
  | _, [], _, _, _, higher, hne, hsuffix, _, _, _ => absurd (List.suffix_nil.mp hsuffix) hne
  | _, next :: above, p, hp, h, higher, hne, hsuffix, tree, tree', hmade => by
    have hnext : next :: above ≠ [] := List.cons_ne_nil _ _
    have hp' := (downward_above hp h hnext).1
    refine .of_above hp h hnext ?_
    rcases List.suffix_cons_iff.mp hsuffix with rfl | hsuffix
    · exact makeDirectory_growsTo hmade
    · exact makeDirectory_above_growsTo next above _ hp' (components_above hp h hnext).1 higher hne
        hsuffix hmade

/-- Only directories on the way to a path that does not lead up are made with it. -/
theorem makeFrom_growsTo (component : Component) (above : List Component) (hp : p.Downward)
    (h : p.components = (component :: above).reverse) :
    Moves (GrowsTo p) (makeFrom (component :: above) p : StateM World (Except IoCause Unit)) :=
  makeFrom_moves _ _ makeDirectory_growsTo fun higher hne hsuffix _ _ =>
    makeDirectory_above_growsTo component above p hp h higher hne hsuffix

namespace FileTree

variable {tree tree' : FileTree} {component : Component} {above : List Component}

/-- What can be made can still be made after directories have come. -/
theorem Makeable.of_grows (h : tree.Makeable p) (hsimple : tree.Simple) (hgrows : Grows tree tree') :
    tree'.Makeable p := by
  obtain ⟨hshort, hfile, hend⟩ := h
  rw [Makeable, hgrows.addressOf]
  exact ⟨hshort, fun location hlocation content hitem =>
    hfile location hlocation content ((hgrows.file_iff hsimple.wellFormed).mp hitem),
    hend.imp_left (hgrows.directories hsimple.wellFormed)⟩

/-- If a path can be made then so can the path above it. -/
theorem makeable_above (h : tree.Makeable p) (hsimple : tree.Simple) (hp : p.Plain)
    (hcomponents : p.components = (component :: above).reverse) (hne : above ≠ []) :
    tree.Makeable (ofComponents above.reverse) := by
  obtain ⟨hshort, hfile, -⟩ := h
  obtain ⟨name, haddress⟩ := addressOf_above tree hp.downward hcomponents hne
  refine ⟨short_above hshort hp hcomponents hne, hfile.mono (haddress ▸ List.suffix_cons _ _), ?_⟩
  refine (endsInName_above hp hcomponents hne).imp_left fun hnone => ?_
  rw [addressOf_plain (plain_above hp hcomponents hne), hnone]
  exact hsimple.wellFormed.seated

/-- A path whose address is in a directory that is missing has components above its last. -/
theorem above_ne_nil_of_missing (hwf : tree.WellFormed) (hp : p.Plain)
    (hcomponents : p.components = (component :: above).reverse) {last : String} {parent : Location}
    (haddress : tree.addressOf p = last :: parent) (hmissing : tree.item? parent ≠ some .directory) :
    above ≠ [] := by
  rintro rfl
  refine hmissing ?_
  rw [addressOf_plain hp, names, hcomponents] at haddress
  cases hname : component.name? with
  | none =>
    simp only [List.reverse_singleton, List.filterMap_cons_none hname] at haddress
    have hcurrent : tree.current = last :: parent := haddress
    exact hwf.parented (hcurrent ▸ hwf.seated)
  | some name =>
    simp only [List.reverse_singleton, List.filterMap_cons_some hname] at haddress
    rw [← (List.cons.inj haddress).2]
    exact hwf.seated

end FileTree

/-- What can be made is made, with those above it. -/
theorem makeFrom_of_makeable : ∀ (component : Component) (above : List Component) (p : PathName)
    (world : World), world.tree.Simple → p.Plain → p.components = (component :: above).reverse →
    world.tree.Makeable p →
    ∃ world', (makeFrom (component :: above) p : StateM World _).run world = (.ok (), world')
  | component, above, p, world, hsimple, hp, hcomponents, hmakeable => by
    rw [makeFrom]
    simp only [World.run_bind, World.run_makeDirectory]
    by_cases hparent : ∀ name parent, world.tree.addressOf p = name :: parent →
        world.tree.item? parent = some .directory
    · rcases hmakeable.makeDirectory hsimple hp hparent with ⟨tree, hmade⟩ | ⟨hmade, hthere⟩
      · rw [World.run_commit_ok hmade]
        exact ⟨_, rfl⟩
      · rw [World.run_commit_error hmade]
        exact ⟨_, acceptDirectory_of_there hsimple hp hmakeable.1 hthere _⟩
    · push Not at hparent
      obtain ⟨last, parent, haddress, hmissing⟩ := hparent
      rw [World.run_commit_error
        (makeDirectory_of_missing hsimple hp hmakeable.1 hmakeable.2.1 haddress hmissing)]
      have hne := above_ne_nil_of_missing hsimple.wellFormed hp hcomponents haddress hmissing
      obtain ⟨next, higher, rfl⟩ := List.exists_cons_of_ne_nil hne
      have hp' := plain_above hp hcomponents hne
      have hcomponents' := (components_above hp.downward hcomponents hne).1
      obtain ⟨between, hbetween⟩ := makeFrom_of_makeable next higher _ world hsimple hp'
        hcomponents' (makeable_above hmakeable hsimple hp hcomponents hne)
      -- Now that the directory above is there, the last one can be made in it.
      have hgrows := makeFrom_growsTo next higher hp'.downward hcomponents' world
      obtain ⟨-, hthere⟩ := makeFrom_there hsimple hp' hbetween
      rw [hbetween] at hgrows
      have hsimple' := hgrows.simple hsimple
      have hsecond := (hmakeable.of_grows hsimple hgrows.toGrows).makeDirectory hsimple' hp
        fun n l hl => by
          obtain ⟨name, habove⟩ := addressOf_above between.tree hp.downward hcomponents hne
          rw [habove] at hl
          rw [← (List.cons.inj hl).2]
          exact hthere
      simp only [hbetween, World.run_bind, World.run_makeDirectory]
      rcases hsecond with ⟨tree, hmade⟩ | ⟨hmade, hthere⟩
      · rw [World.run_commit_ok hmade]
        exact ⟨_, rfl⟩
      · rw [World.run_commit_error hmade]
        exact ⟨_, acceptDirectory_of_there hsimple' hp hmakeable.1 hthere _⟩

theorem makeDirectories_growsTo (hp : p.Downward) :
    Moves (GrowsTo p) (makeDirectories p : StateM World (Except IoCause Unit)) := by
  obtain ⟨component, above, hreverse, h⟩ := exists_components hp.ne_empty
  rw [makeDirectories, hreverse]
  exact makeFrom_growsTo component above hp h

/-- The directory of a plain path can be made with those above it exactly if the path is within the
limits of paths, no file is on the way, and the directory is there or the path ends in its name. -/
theorem makeDirectories_ok_iff (hsimple : world.tree.Simple) (hp : p.Plain) :
    (∃ world', (makeDirectories p : StateM World _).run world = (.ok (), world')) ↔
      world.tree.Makeable p := by
  obtain ⟨component, above, hreverse, hcomponents⟩ := exists_components hp.ne_empty
  constructor
  · rintro ⟨world', h⟩
    have hgrows := makeDirectories_growsTo hp.downward world
    rw [h] at hgrows
    rw [makeDirectories, hreverse] at h
    obtain ⟨hshort, hthere⟩ := makeFrom_there hsimple hp h
    rw [hgrows.addressOf] at hthere
    refine ⟨hshort, fun location hlocation content hfile => ?_, ?_⟩
    · have hdir := (hgrows.wellFormed hsimple.wellFormed).directory_of_suffix hlocation hthere
      rw [hgrows.item?_of_some hsimple.wellFormed hfile] at hdir
      cases hdir
    · rcases hgrows.onWay hsimple (world.tree.addressOf p) with hsame | ⟨-, hend⟩
      · exact Or.inl (hsame.symm.trans hthere)
      · exact Or.inr (hend rfl)
  · intro h
    rw [makeDirectories, hreverse]
    exact makeFrom_of_makeable component above p world hsimple hp hcomponents h

end SchemaHeaders
