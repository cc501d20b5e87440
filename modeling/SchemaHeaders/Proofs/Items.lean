import SchemaHeaders.Proofs.History

/-!
# Trees of the same items

A file tree keeps its entries in a list, of which the order shows only where a directory is listed.
Two trees with the same items (`FileTree.SameItems`) lead every path to the same spot, and every
change of the one is one of the other that leaves them so. `Stable` says this of steps :
`makeFrom_stable`. Clearing takes the entries in the order of the list, so that it can fail at one
entry or at another. Where it succeeds, what is left is known from the items alone
(`FileTree.Prepared`), and it succeeds for every order if it does for one (`prepareDir_sameItems`).
-/

namespace SchemaHeaders

open FileTree

namespace FileTree

variable {tree tree' : FileTree}

namespace SameItems

theorem refl (tree : FileTree) : SameItems tree tree := ⟨rfl, fun _ => rfl⟩

/-! ## Paths -/

section Paths

variable (h : SameItems tree tree') (final : Bool) (path : PathName)

include h

theorem walkPieces_eq {follow : Location → List (List Char) → Except IoCause Spot} :
    ∀ (directory : Location) (pieces : List (List Char)),
      tree'.walkPieces final follow directory pieces = tree.walkPieces final follow directory pieces
  | _, [] => rfl
  | directory, piece :: pieces => by
    simp only [walkPieces, h.item, walkPieces_eq]

theorem walk_eq : ∀ n, tree'.walk final n = tree.walk final n
  | 0 => rfl
  | n + 1 => by
    funext directory pieces
    rw [walk, walk, walk_eq n, h.walkPieces_eq]

theorem reach_eq (pieces : List (List Char)) :
    tree'.reach final path pieces = tree.reach final path pieces := by
  rw [reach, reach, h.walk_eq, h.current]

theorem locate_eq : tree'.locate path = tree.locate path := h.reach_eq true path _

theorem locateEntry_eq : tree'.locateEntry path = tree.locateEntry path := h.reach_eq false path _

theorem isPresent_eq : tree'.isPresent path = tree.isPresent path := by
  rw [isPresent, isPresent, itemAt?, itemAt?, h.locate_eq]

theorem isDirectory_eq : tree'.isDirectory path = tree.isDirectory path := by
  rw [isDirectory, isDirectory, itemAt?, itemAt?, h.locate_eq]

theorem directoryOf?_eq : tree'.directoryOf? path = tree.directoryOf? path := by
  rw [directoryOf?, directoryOf?, h.locate_eq, h.current]

theorem addressOf_eq : tree'.addressOf path = tree.addressOf path := by
  rw [addressOf, addressOf, start, start, h.current]

end Paths

/-! ## Changes -/

theorem set (h : SameItems tree tree') (location : Location) (item : Item) :
    SameItems (tree.set location item) (tree'.set location item) where
  current := h.current
  item l := by
    cases l with
    | nil => rfl
    | cons name parent => rw [item?_set, item?_set, h.item]

/-- A directory can be made in neither tree, for one cause, or in both. -/
theorem makeDirectory (h : SameItems tree tree') (path : PathName) :
    (∃ cause, tree.makeDirectory path = .error cause ∧ tree'.makeDirectory path = .error cause) ∨
      ∃ made made', tree.makeDirectory path = .ok made ∧ tree'.makeDirectory path = .ok made' ∧
        SameItems made made' := by
  unfold FileTree.makeDirectory make
  rw [h.locateEntry_eq]
  cases tree.locateEntry path with
  | error cause => exact Or.inl ⟨cause, rfl, rfl⟩
  | ok spot =>
    cases spot with
    | found location item => exact Or.inl ⟨_, rfl, rfl⟩
    | vacant parent name => exact Or.inr ⟨_, _, rfl, rfl, h.set (name :: parent) .directory⟩

end SameItems

end FileTree

/-! ## Steps -/

/-- What a run ends with depends on the items of the tree alone, and so do the items after it. -/
def Stable {α : Type} (x : StateM World α) : Prop :=
  ∀ world world' : World, SameItems world.tree world'.tree →
    (x.run world').1 = (x.run world).1 ∧ SameItems (x.run world).2.tree (x.run world').2.tree

namespace Stable

variable {α β : Type}

theorem pure (a : α) : Stable (Pure.pure a : StateM World α) := fun _ _ h => ⟨rfl, h⟩

theorem bind {x : StateM World α} {f : α → StateM World β} (hx : Stable x)
    (hf : ∀ a, Stable (f a)) : Stable (x >>= f) := by
  intro world world' h
  obtain ⟨hresult, hafter⟩ := hx _ _ h
  rw [World.run_bind, World.run_bind, hresult]
  exact hf _ _ _ hafter

theorem isDirectory (path : PathName) :
    Stable (FileStore.isDirectory path : StateM World Bool) :=
  fun _ _ h => ⟨h.isDirectory_eq path, h⟩

theorem makeDirectory (path : PathName) :
    Stable (FileStore.makeDirectory path : StateM World (Except IoCause Unit)) := by
  intro world world' h
  rw [World.run_makeDirectory, World.run_makeDirectory]
  rcases h.makeDirectory path with ⟨cause, herror, herror'⟩ | ⟨made, made', hmade, hmade', hsame⟩
  · rw [World.run_commit_error herror', World.run_commit_error herror]
    exact ⟨rfl, h⟩
  · rw [World.run_commit_ok hmade', World.run_commit_ok hmade]
    exact ⟨rfl, hsame⟩

end Stable

theorem acceptDirectory_stable (path : PathName) (cause : IoCause) :
    Stable (acceptDirectory path cause : StateM World (Except IoCause Unit)) := by
  refine .bind (.isDirectory path) fun there => ?_
  split <;> exact .pure _

theorem makeFrom_stable : ∀ (components : List PathName.Component) (path : PathName),
    Stable (makeFrom components path : StateM World (Except IoCause Unit))
  | [], _ => .pure _
  | _ :: above, path => by
    unfold makeFrom
    refine .bind (.makeDirectory path) fun first => ?_
    split
    · exact .pure _
    · refine .bind (makeFrom_stable above _) fun result => ?_
      split
      · refine .bind (.makeDirectory path) fun second => ?_
        split
        · exact .pure _
        · exact acceptDirectory_stable path _
      · exact .pure _
    · exact acceptDirectory_stable path _

/-! ## Preparing a directory -/

variable {dir : PathName} {world world' after : World}

/-- A directory that is there is prepared by removing what is directly in it, other than
directories, and the names of all that can follow the path. -/
theorem prepared_of_present (hsimple : world.tree.Simple)
    (hpresent : world.tree.isPresent dir = true)
    (h : (prepareDir dir).outcome world = (.ok (), after)) :
    ∃ directory, world.tree.directoryOf? dir = some directory ∧
      Prepared directory world.tree after.tree ∧
      ∀ name content, world.tree.item? (name :: directory) = some (.file content) →
        Follows dir name := by
  have hwf := hsimple.wellFormed
  have hevolves := (prepareDir_evolves dir).of_outcome h
  obtain ⟨entries, removed, between, hlist, hclear, htree⟩ := prepareDir_ok_of_present hpresent h
  obtain ⟨directory, hdirectory, hnames, hentries⟩ := list_directoryOf hwf hlist
  have hchanged := ((clear_follows world.tree hnames).of_outcome hclear).changed (.refl hwf)
  rw [← htree] at hchanged
  obtain ⟨_, hpath, -⟩ := item?_of_isPresent hsimple hpresent
  have hlocate := (directoryOf?_eq_some_iff (text_ne_empty_of_locate hpath)).mp hdirectory
  have hthere : world.tree.item? directory = some .directory := locate_fits hwf hlocate
  have hlater := (hevolves.waysKept hsimple).directoryOf? hdirectory
  refine ⟨directory, hdirectory, ⟨fun location hway => ?_, fun name item => ⟨fun hitem => ?_, ?_⟩,
    fun location _ hin => ?_⟩, fun name content hfile => ?_⟩
  · exact hevolves.directories hwf (hwf.directory_of_suffix hway hthere)
  · have hdir := prepareDir_clean_of_present hwf hpresent h hlater hitem
    rcases hchanged (name :: directory) with hsame | ⟨-, hgone⟩
    · exact ⟨hsame.symm.trans hitem, hdir⟩
    · cases hgone.symm.trans hitem
  · rintro ⟨hitem, rfl⟩
    exact hevolves.directories hwf hitem
  · refine (hchanged location).resolve_right ?_
    rintro ⟨⟨found, name, hfound, hlocation, -⟩, -⟩
    obtain rfl := Option.some.inj (hfound.symm.trans hdirectory)
    exact hin name hlocation
  · have hgone := clear_gone hdirectory entries world (.refl hwf) hnames hclear name
      (hentries (by simp) hfile)
    rcases hchanged (name :: directory) with hsame | ⟨⟨found, other, -, heq, hfollows⟩, -⟩
    · rw [htree, hgone, hfile] at hsame
      cases hsame
    · rwa [(List.cons.inj heq).1]

/-- What is prepared is known, up to the order of the entries, from the items before. -/
theorem FileTree.Prepared.sameItems {directory : Location} {tree tree' made made' : FileTree}
    (h : Prepared directory tree made) (h' : Prepared directory tree' made')
    (hsame : SameItems tree tree') (hcurrent : made'.current = made.current) :
    SameItems made made' := by
  refine ⟨hcurrent, fun location => ?_⟩
  by_cases hway : location <:+ directory
  · rw [h.onWay location hway, h'.onWay location hway]
  by_cases hin : ∃ name, location = name :: directory
  · obtain ⟨name, rfl⟩ := hin
    refine Option.ext fun item => ?_
    rw [h.inside, h'.inside, hsame.item]
  · push Not at hin
    rw [h.elsewhere location hway hin, h'.elsewhere location hway hin, hsame.item]

/-- A directory that can be prepared in one of two trees of the same items can be in the other, and
the items are the same afterwards. -/
theorem prepareDir_sameItems (hsimple : world.tree.Simple) (hsimple' : world'.tree.Simple)
    (hsame : SameItems world.tree world'.tree)
    (h : (prepareDir dir).outcome world = (.ok (), after)) :
    ∃ after', (prepareDir dir).outcome world' = (.ok (), after') ∧
      SameItems after.tree after'.tree := by
  cases hpresent : world.tree.isPresent dir with
  | true =>
    have hpresent' : world'.tree.isPresent dir = true := by rw [hsame.isPresent_eq, hpresent]
    obtain ⟨directory, hdirectory, hprepared, hfollows⟩ := prepared_of_present hsimple hpresent h
    have hdirectory' : world'.tree.directoryOf? dir = some directory := by
      rw [hsame.directoryOf?_eq, hdirectory]
    obtain ⟨after', h'⟩ := prepareDir_ok_of_follows hsimple' hpresent' hdirectory'
      fun name content hfile => hfollows name content (by rw [← hsame.item, hfile])
    obtain ⟨found, hfound, hprepared', -⟩ := prepared_of_present hsimple' hpresent' h'
    obtain rfl : found = directory := Option.some.inj (hfound.symm.trans hdirectory')
    have hcurrent := ((prepareDir_evolves dir).of_outcome h).current
    have hcurrent' := ((prepareDir_evolves dir).of_outcome h').current
    exact ⟨after', h', hprepared.sameItems hprepared' hsame
      (by rw [hcurrent', hcurrent, hsame.current])⟩
  | false =>
    have hpresent' : world'.tree.isPresent dir = false := by rw [hsame.isPresent_eq, hpresent]
    rw [prepareDir_of_absent hpresent, Step.outcome_on_eq_ok_iff] at h
    obtain ⟨hresult, hafter⟩ := makeFrom_stable dir.components.reverse dir
      (world.withEvent (.creatingDirectory dir)) (world'.withEvent (.creatingDirectory dir)) hsame
    rw [makeDirectories] at h
    rw [h] at hresult hafter
    refine ⟨_, ?_, hafter⟩
    rw [prepareDir_of_absent hpresent', Step.outcome_on_eq_ok_iff]
    exact Prod.ext hresult rfl

end SchemaHeaders
