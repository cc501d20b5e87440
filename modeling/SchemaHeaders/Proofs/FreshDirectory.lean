import SchemaHeaders.Proofs.Entries

/-!
# Directories that have just been made

`FileTree.LeadsFresh` : a path leads to a directory in which there is nothing. A directory is
made at a free name, so it is fresh (`makeDirectory_fresh`). If a path never leads up then it can
only come to lead to a directory, when those above it are made, by being made itself : there is
nothing to be found below a directory that is fresh (`LeadsFresh.not_isDirectory_below`). So making
a path and those above it succeeds only if the path led to a directory before or leads to a
fresh one after (`makeFrom_fresh`).
-/

namespace SchemaHeaders

open FileTree

/-! ## Fresh directories -/

namespace FileTree

open PathName

variable {tree tree' : FileTree} {path : PathName}

/-- The pieces of a path that does not lead up are its names, but for those that say nothing. -/
theorem filter_isSolid_piecesOf {p : PathName} (hup : Component.up ∉ p.components) :
    (piecesOf p).filter isSolid = p.names.map String.toList := by
  rw [up_mem_components_iff] at hup
  rw [names_eq_pieces]
  generalize piecesOf p = pieces at hup
  induction pieces with
  | nil => rfl
  | cons piece pieces ih =>
    simp only [List.mem_cons, not_or] at hup
    have hrest := ih hup.2
    cases hsolid : isSolid piece with
    | false =>
      have hskip := isSolid_eq_false_iff.mp hsolid
      have hnone : pieceName? piece = none := by rw [pieceName?_eq, if_pos (by tauto)]
      rw [List.filter_cons_of_neg (by simp [hsolid]), List.filterMap_cons_none hnone, hrest]
    | true =>
      have hskip := isSolid_iff.mp hsolid
      have hname : pieceName? piece = some (String.ofList piece) := by
        rw [pieceName?_eq, if_neg (by tauto)]
      rw [List.filter_cons_of_pos hsolid, List.filterMap_cons_some hname, hrest, List.map_cons,
        String.toList_ofList]

/-- A path leads to a directory in which there is nothing. -/
def LeadsFresh (tree : FileTree) (path : PathName) : Prop :=
  ∃ location, tree.locate path = .ok (.found location .directory) ∧
    ∀ name, tree.item? (name :: location) = none

theorem walk_empty {pieces : List (List Char)} (h : ∀ piece ∈ pieces, piece = []) (n : Nat)
    (dir : Location) : tree.walk true (n + 1) dir pieces = .ok (.found dir .directory) := by
  have hnone : pieces.filter isSolid = [] := by
    rw [List.filter_eq_nil_iff]
    intro piece hpiece
    simp [h piece hpiece, isSolid]
  rw [← walk_filter_isSolid_iff, hnone]
  rfl

/-- Where a walk ends at a free name, it leads on once there is a directory of that name. -/
theorem walk_set_directory {parent : Location} {name : String}
    (hfree : tree.item? (name :: parent) = none) {empties : List (List Char)}
    (hempties : ∀ piece ∈ empties, piece = []) : ∀ (n : Nat) (dir : Location)
    (pieces : List (List Char)), tree.walk false n dir pieces = .ok (.vacant parent name) →
      (tree.set (name :: parent) .directory).walk true n dir (pieces ++ empties) =
        .ok (.found (name :: parent) .directory)
  | 0, _, _, h => by cases h
  | _ + 1, _, [], h => by cases h
  | n + 1, dir, piece :: pieces, h => by
    have hkept : ∀ {l item}, tree.item? l = some item →
        (tree.set (name :: parent) .directory).item? l = some item := by
      intro l item hitem
      rwa [item?_set_of_ne]
      rintro rfl
      rw [hfree] at hitem
      cases hitem
    have hrest := fun d => walk_set_directory hfree hempties (n + 1) d pieces
    rw [List.cons_append]
    refine walkPieces_cons_eq_ok_iff.mpr ?_
    cases walkStep_of_ok h with
    | stay hskip h => exact .stay hskip (hrest _ h)
    | up hup h => exact .up hup (hrest _ h)
    | free hname hshort _ hempty hspot =>
      cases hspot
      refine .enter hname hshort (item?_set_self tree name parent _) (walk_empty ?_ n _)
      intro piece hpiece
      rcases List.mem_append.mp hpiece with hpiece | hpiece
      · exact hempty piece hpiece
      · exact hempties piece hpiece
    | enter hname hshort hitem h => exact .enter hname hshort (hkept hitem) (hrest _ h)
    | file _ _ _ _ hspot => cases hspot
    | link _ _ _ _ _ hspot => cases hspot
    | follow hname hshort hitem _ h =>
      refine .follow hname hshort (hkept hitem) (fun _ => rfl) ?_
      have hfollow := walk_set_directory hfree hempties n _ _ h
      rwa [List.append_assoc] at hfollow

/-- A directory that is made is fresh. -/
theorem makeDirectory_fresh (hwf : tree.WellFormed) (h : tree.makeDirectory path = .ok tree') :
    tree'.LeadsFresh path := by
  obtain ⟨name, parent, hspot, rfl⟩ := makeDirectory_spot h
  obtain ⟨-, -, hfree⟩ : Spot.Fits tree (.vacant parent name) := locateEntry_fits hwf hspot
  obtain ⟨hfault, hwalk⟩ := reach_eq_ok_iff.mp hspot
  obtain ⟨empties, hempties, hpieces⟩ := piecesOf_eq_trimmed path
  refine ⟨name :: parent, ?_, fun below => ?_⟩
  · rw [locate, reach_eq_ok_iff, hpieces]
    exact ⟨hfault, walk_set_directory hfree hempties _ _ _ hwalk⟩
  · rw [item?_set_of_ne (List.cons_ne_self _ _)]
    exact hwf.item?_cons_eq_none (by simp [hfree]) below

theorem LeadsFresh.isDirectory (h : tree.LeadsFresh path) : tree.isDirectory path = true := by
  obtain ⟨location, hlocate, -⟩ := h
  exact isDirectory_iff.mpr ⟨location, hlocate⟩

/-- Below a fresh directory a path that does not lead up leads to none. -/
theorem LeadsFresh.not_isDirectory_below (hwf : tree.WellFormed) {component : Component}
    {above : List Component} (h : tree.LeadsFresh (.ofComponents above.reverse))
    (hp : path.Downward) (hpath : path.components = (component :: above).reverse)
    (hne : above ≠ []) : tree.isDirectory path = false := by
  obtain ⟨fresh, hlocateAbove, hfree⟩ := h
  by_contra hdir
  obtain ⟨location, hlocate⟩ := isDirectory_iff.mp (Bool.not_eq_false _ ▸ hdir)
  obtain ⟨name, hnames⟩ := names_above hp hpath hne
  obtain ⟨habove, hroot⟩ := downward_above hp hpath hne
  have hname : IsEntryName name := isEntryName_of_mem_names (p := path) (by simp [hnames])
  have hstart : tree.start path = tree.start (.ofComponents above.reverse) := by
    rw [start, start, hroot]
  -- Without what says nothing, the pieces of the path are those of the one above it and the name.
  have hsolid : (piecesOf path).filter isSolid =
      (piecesOf (ofComponents above.reverse)).filter isSolid ++ [name.toList] := by
    rw [filter_isSolid_piecesOf hp.no_up, filter_isSolid_piecesOf habove.no_up, hnames,
      List.map_append, List.map_singleton]
  obtain ⟨-, hwalk⟩ := reach_eq_ok_iff.mp hlocate
  rw [← walk_filter_isSolid_iff, hsolid, hstart] at hwalk
  obtain ⟨middle, m, hmiddle, hlast⟩ :=
    walk_append_ok ⟨_, List.mem_singleton.mpr rfl, toList_ne_nil hname⟩ _ _ _ hwalk
  obtain ⟨-, hfresh⟩ := reach_eq_ok_iff.mp hlocateAbove
  rw [walk_filter_isSolid_iff, hfresh] at hmiddle
  cases hmiddle
  obtain rfl : location = name :: fresh := (walk_name_ok hname hlast).2 (by simp [hfree])
  have hitem : tree.item? (name :: fresh) = some .directory := locate_fits hwf hlocate
  rw [hfree] at hitem
  cases hitem

end FileTree

/-! ## Making directories -/

open PathName

variable {world world' : World}

/-- A directory that cannot be made has to be there. -/
theorem acceptDirectory_ok {path : PathName} {cause : IoCause}
    (h : (acceptDirectory path cause : StateM World _).run world = (.ok (), world')) :
    world' = world ∧ world.tree.isDirectory path = true := by
  rw [acceptDirectory, World.run_bind, World.run_isDirectory] at h
  by_cases hdir : world.tree.isDirectory path = true
  · rw [if_pos hdir] at h
    exact ⟨(Prod.mk.inj h).2.symm, hdir⟩
  · rw [if_neg hdir] at h
    cases (Prod.mk.inj h).1

/-- Making a directory and those above it ends with a directory that is made, or there, once those
above it have been made if need be. -/
theorem makeFrom_ok {component : Component} {above : List Component}
    {path : PathName}
    (h : (makeFrom (component :: above) path : StateM World _).run world = (.ok (), world')) :
    ∃ between : World, (between = world ∨
        (makeFrom above (.ofComponents above.reverse) : StateM World _).run world =
          (.ok (), between)) ∧
      ((∃ tree, between.tree.makeDirectory path = .ok tree ∧ world' = between.withTree tree) ∨
        world' = between ∧ between.tree.isDirectory path = true) := by
  rw [makeFrom, World.run_bind] at h
  cases hfirst : world.tree.makeDirectory path with
  | ok tree =>
    rw [World.run_makeDirectory, World.run_commit_ok hfirst] at h
    exact ⟨world, Or.inl rfl, Or.inl ⟨tree, hfirst, (Prod.mk.inj h).2.symm⟩⟩
  | error cause =>
    rw [World.run_makeDirectory, World.run_commit_error hfirst] at h
    dsimp only at h
    split at h
    · rename_i heq
      cases heq
    · rw [World.run_bind] at h
      rcases hrest : (makeFrom above (.ofComponents above.reverse) : StateM World _).run world
        with ⟨cause | _, between⟩
      · rw [hrest] at h
        cases (Prod.mk.inj h).1
      · rw [hrest] at h
        dsimp only at h
        rw [World.run_bind] at h
        refine ⟨between, Or.inr rfl, ?_⟩
        cases hsecond : between.tree.makeDirectory path with
        | ok tree =>
          rw [World.run_makeDirectory, World.run_commit_ok hsecond] at h
          exact Or.inl ⟨tree, rfl, (Prod.mk.inj h).2.symm⟩
        | error cause =>
          rw [World.run_makeDirectory, World.run_commit_error hsecond] at h
          exact Or.inr (acceptDirectory_ok h)
    · rename_i heq
      cases heq
      exact ⟨world, Or.inl rfl, Or.inr (acceptDirectory_ok h)⟩

/-- Once those above a directory have been made if need be, the tree has only evolved. -/
theorem evolves_of_madeAbove {between : World} {above : List Component} {path : PathName}
    (h : between = world ∨
      (makeFrom above path : StateM World _).run world = (.ok (), between)) :
    Evolves world.tree between.tree := by
  rcases h with rfl | habove
  · exact .refl _
  · have hmoves := makeFrom_evolves above path world
    rwa [habove] at hmoves

/-- A path that has been made, with those above it, leads to a directory. -/
theorem isDirectory_of_makeFrom {component : Component} {above : List Component}
    {path : PathName} (hwf : world.tree.WellFormed)
    (h : (makeFrom (component :: above) path : StateM World _).run world = (.ok (), world')) :
    world'.tree.isDirectory path = true := by
  obtain ⟨between, hbetween, ⟨tree, hmade, rfl⟩ | ⟨rfl, hthere⟩⟩ := makeFrom_ok h
  · exact (makeDirectory_fresh ((evolves_of_madeAbove hbetween).wellFormed hwf) hmade).isDirectory
  · exact hthere

/-- Making a directory and those above it ends with a directory that was there all along, or
with a fresh one. -/
theorem makeFrom_fresh : ∀ (component : Component) (above : List Component) (path : PathName)
    {world world' : World}, world.tree.WellFormed → path.Downward →
    path.components = (component :: above).reverse →
    (makeFrom (component :: above) path : StateM World _).run world = (.ok (), world') →
    world' = world ∧ world.tree.isDirectory path = true ∨ world'.tree.LeadsFresh path
  | component, above, path, world, world', hwf, hp, hpath, h => by
    obtain ⟨between, hbetween, hend⟩ := makeFrom_ok h
    have hbetweenwf := (evolves_of_madeAbove hbetween).wellFormed hwf
    rcases hend with ⟨tree, hmade, rfl⟩ | ⟨rfl, hthere⟩
    · exact Or.inr (makeDirectory_fresh hbetweenwf hmade)
    rcases hbetween with rfl | habove
    · exact Or.inl ⟨rfl, hthere⟩
    cases above with
    | nil =>
      obtain rfl : world = world' := (Prod.mk.inj habove).2
      exact Or.inl ⟨rfl, hthere⟩
    | cons next above =>
      have hne : next :: above ≠ [] := List.cons_ne_nil _ _
      rcases makeFrom_fresh next above _ hwf (downward_above hp hpath hne).1
        (components_above hp hpath hne).1 habove with ⟨rfl, -⟩ | hfresh
      · exact Or.inl ⟨rfl, hthere⟩
      · rw [hfresh.not_isDirectory_below hbetweenwf hp hpath hne] at hthere
        cases hthere

/-- A path that does not lead up and led to no directory leads to a fresh one once it has been made
with those above it. -/
theorem makeDirectories_fresh {dir : PathName} (world : World) {world' : World}
    (hwf : world.tree.WellFormed) (hp : dir.Downward)
    (habsent : world.tree.isDirectory dir = false)
    (h : (makeDirectories dir : StateM World _).run world = (.ok (), world')) :
    world'.tree.LeadsFresh dir := by
  obtain ⟨component, above, hreverse, hcomponents⟩ := exists_components hp.ne_empty
  rw [makeDirectories, hreverse] at h
  rcases makeFrom_fresh component above dir hwf hp hcomponents h with ⟨-, hthere⟩ | hfresh
  · rw [habsent] at hthere
    cases hthere
  · exact hfresh

end SchemaHeaders
