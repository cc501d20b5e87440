import SchemaHeaders.Proofs.Checking
import SchemaHeaders.Proofs.Walk

/-!
# How a run changes a tree

`makeFrom_moves`, `clear_moves` and `writeEach_moves` : what respects a reflexive and
transitive relation of trees if the operations on files do, for whichever paths.

`FileTree.Evolves` is the relation that every run respects, whatever its paths and its end
(`run_evolves`) : a well-formed tree stays one, no link comes in, and every directory that was
there still is.
-/

namespace SchemaHeaders

open FileTree

/-! ## Relations that runs respect -/

section Moves

variable {R : FileTree → FileTree → Prop} [IsPreorder FileTree R]

theorem acceptDirectory_moves (path : PathName) (cause : IoCause) :
    Moves R (acceptDirectory path cause : StateM World (Except IoCause Unit)) := by
  refine .bind (fun world => refl_of R world.tree) fun there => ?_
  split <;> exact .pure _

theorem makeFrom_moves : ∀ (components : List PathName.Component) (path : PathName),
    (∀ {tree tree'}, tree.makeDirectory path = .ok tree' → R tree tree') →
    (∀ above, above ≠ [] → above <:+ components.tail → ∀ {tree tree'},
      tree.makeDirectory (.ofComponents above.reverse) = .ok tree' → R tree tree') →
    Moves R (makeFrom components path : StateM World (Except IoCause Unit))
  | [], _, _, _ => .pure _
  | _ :: above, path, hpath, habove => by
    have hmake : Moves R (FileStore.makeDirectory path : StateM World _) :=
      .commit fun _ _ => hpath
    have hrest : Moves R (makeFrom above (.ofComponents above.reverse) : StateM World _) := by
      by_cases hnil : above = []
      · rw [hnil]
        exact .pure _
      · refine makeFrom_moves above _ (habove above hnil (List.suffix_refl _)) ?_
        exact fun higher hne hsuffix => habove higher hne (hsuffix.trans (List.tail_suffix _))
    unfold makeFrom
    refine .bind hmake fun first => ?_
    split
    · exact .pure _
    · refine .bind hrest fun result => ?_
      split
      · refine .bind hmake fun second => ?_
        split
        · exact .pure _
        · exact acceptDirectory_moves path _
      · exact .pure _
    · exact acceptDirectory_moves path _

theorem clear_moves (dir : PathName) : ∀ entries : List (String × Bool),
    (∀ name, (name, false) ∈ entries → ∀ {tree tree'},
      tree.remove (dir.join ⟨name⟩) = .ok tree' → R tree tree') →
    Moves R (clear dir entries : Step (StateM World) Nat).run
  | [], _ => .pure _
  | (name, isDirectory) :: entries, h => by
    have hrest := clear_moves dir entries fun name hname => h name (List.mem_cons_of_mem _ hname)
    cases isDirectory with
    | true => exact .step_bind (fun world => refl_of R world.tree) fun _ => hrest
    | false =>
      refine .step_bind (.on _ (.commit fun _ _ => h name (by simp))) fun _ => ?_
      exact .step_bind hrest fun _ => .pure _

theorem writeEach_moves (dir : PathName) (extension : String) : ∀ units : List HeaderUnit,
    (∀ unit ∈ units, ∀ {tree tree'},
      tree.write (unit.path dir extension) (.text unit.code) = .ok tree' → R tree tree') →
    Moves R (writeEach dir extension units : Step (StateM World) (List PathName)).run
  | [], _ => .pure _
  | unit :: units, h => by
    refine .step_bind (.on _ (.commit fun _ _ => h unit (by simp))) fun _ => ?_
    refine .step_bind (fun world => refl_of R world.tree) fun _ => ?_
    refine .step_bind (writeEach_moves dir extension units fun u hu => ?_) fun _ => .pure _
    exact h u (List.mem_cons_of_mem _ hu)

end Moves

/-! ## Evolution -/

/-- What may become of a tree : well-formed it stays so, without links it gets none, and no
directory goes. -/
structure FileTree.Evolves (tree tree' : FileTree) : Prop where
  current : tree'.current = tree.current
  wellFormed : tree.WellFormed → tree'.WellFormed
  linkFree : tree.WellFormed → tree.LinkFree → tree'.LinkFree
  directories : tree.WellFormed → ∀ {location}, tree.item? location = some .directory →
    tree'.item? location = some .directory

namespace FileTree

variable {tree tree' tree'' : FileTree}

namespace Evolves

theorem refl (tree : FileTree) : Evolves tree tree :=
  ⟨rfl, fun h => h, fun _ h => h, fun _ _ h => h⟩

theorem trans (h : Evolves tree tree') (h' : Evolves tree' tree'') : Evolves tree tree'' where
  current := h'.current.trans h.current
  wellFormed hwf := h'.wellFormed (h.wellFormed hwf)
  linkFree hwf hlinks := h'.linkFree (h.wellFormed hwf) (h.linkFree hwf hlinks)
  directories hwf _ hdir := h'.directories (h.wellFormed hwf) (h.directories hwf hdir)

instance : IsPreorder FileTree Evolves where
  refl := refl
  trans _ _ _ := trans

theorem simple (h : Evolves tree tree') (hsimple : tree.Simple) : tree'.Simple :=
  ⟨h.wellFormed hsimple.wellFormed, h.linkFree hsimple.wellFormed hsimple.linkFree⟩

/-- An item other than a link may come into a directory, where no directory is. -/
theorem of_set {location : Location} {item : Item} (hitem : ∀ target, item ≠ .link target)
    (hold : tree.WellFormed → tree.item? location ≠ some .directory)
    (hparent : tree.WellFormed → ∃ name parent, location = name :: parent ∧ IsEntryName name ∧
      tree.item? parent = some .directory) : Evolves tree (tree.set location item) where
  current := rfl
  wellFormed hwf := by
    have hnone := hold hwf
    obtain ⟨name, parent, rfl, hname, hdir⟩ := hparent hwf
    exact hwf.set hname hdir hnone
  linkFree hwf hlinks := by
    obtain ⟨name, parent, rfl, -⟩ := hparent hwf
    exact hlinks.set name parent hitem
  directories hwf l hdir := by rwa [item?_set_of_ne (ne_of_directory hdir (hold hwf))]

/-- What is no directory may go. -/
theorem of_erase {location : Location}
    (h : tree.WellFormed → tree.item? location ≠ some .directory) :
    Evolves tree (tree.erase location) where
  current := rfl
  wellFormed hwf := hwf.erase (h hwf)
  linkFree _ hlinks := hlinks.erase location
  directories hwf l hdir := by rwa [item?_erase_of_ne (ne_of_directory hdir (h hwf))]

end Evolves

theorem makeDirectory_evolves {path : PathName} (h : tree.makeDirectory path = .ok tree') :
    Evolves tree tree' := by
  obtain ⟨name, parent, hspot, rfl⟩ := makeDirectory_spot h
  refine .of_set (by simp) (fun hwf => ?_) fun hwf => ?_
  · rw [(locateEntry_fits hwf hspot).2.2]
    simp
  · obtain ⟨hparent, hname, -⟩ := locateEntry_fits hwf hspot
    exact ⟨name, parent, rfl, hname, hparent⟩

theorem remove_evolves {path : PathName} (h : tree.remove path = .ok tree') :
    Evolves tree tree' := by
  obtain ⟨location, item, hspot, hitem, rfl⟩ := remove_spot h
  refine .of_erase fun hwf => ?_
  have hfound : tree.item? location = some item := locateEntry_fits hwf hspot
  rw [hfound]
  exact fun heq => hitem (Option.some.inj heq)

theorem write_evolves {path : PathName} {content : Content}
    (h : tree.write path content = .ok tree') : Evolves tree tree' := by
  obtain ⟨spot, hspot, hitem, rfl⟩ := write_spot h
  refine .of_set (by simp) (fun hwf => ?_) fun hwf =>
    (locate_fits hwf hspot).exists_parent hwf hitem
  rw [(locate_fits hwf hspot).item?_eq]
  exact hitem

end FileTree

/-! ## Runs -/

theorem makeFrom_evolves (components : List PathName.Component) (path : PathName) :
    Moves Evolves (makeFrom components path : StateM World (Except IoCause Unit)) :=
  makeFrom_moves components path makeDirectory_evolves fun _ _ _ => makeDirectory_evolves

theorem prepareDir_evolves (dir : PathName) :
    Moves Evolves (prepareDir dir : Step (StateM World) Unit).run := by
  refine .step_bind (fun world => .refl world.tree) fun present => ?_
  split
  · refine .step_bind (fun world => .refl world.tree) fun entries => ?_
    refine .step_bind (clear_moves dir entries fun _ _ _ _ => remove_evolves) fun removed => ?_
    split
    · exact fun world => .refl world.tree
    · exact .pure _
  · exact .step_bind (fun world => .refl world.tree) fun _ =>
      .on _ (makeFrom_evolves _ _)

theorem writeUnits_evolves (dir : PathName) (units : List HeaderUnit) (extension : String) :
    Moves Evolves (writeUnits dir units extension : Step (StateM World) (List PathName)).run :=
  .step_bind (prepareDir_evolves dir) fun _ =>
    writeEach_moves dir extension units fun _ _ _ _ => write_evolves

/-- However a run ends, the tree has evolved. -/
theorem run_evolves (config : Config) :
    Moves Evolves (run config : Step (StateM World) Summary).run := by
  refine .step_bind (fun world => ?_) fun generated => ?_
  · rw [← check_moves_eq config world]
    exact .refl world.tree
  · refine .step_bind ?_ fun summary => .step_bind (fun world => .refl world.tree) fun _ => .pure _
    exact .step_bind (writeUnits_evolves _ _ _) fun _ =>
      .step_bind (writeUnits_evolves _ _ _) fun _ => .pure _

end SchemaHeaders
