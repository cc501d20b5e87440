import SchemaHeaders.Proofs.Preparation

/-!
# Directories that are ready for headers

A directory is ready (`FileTree.Ready`) if its path leads to it and nothing but directories is in
it, so that whatever is written next stands alone. That the preparation of a directory succeeds does
not make it ready : `prepareDir_ready_iff` says when it does. A path that led to a directory still
has to lead there once the links in that directory are gone, which it does if it can do without each
of them alone (`walk_of_erased`). A path that led nowhere is made, with those above it, and nothing
is cleared; if it leads up then it can come to lead to a directory that was there all along, and
this must have held only directories.

`not_forall_prepareDir_ready` : in a tree with a file in `b` and without `a`, preparing `a/../b`
makes `a` and leaves the file.
-/

namespace SchemaHeaders

namespace FileTree

open PathName

variable {tree tree' : FileTree} {location dir : Location} {n : Nat} {piece : List Char}
  {name : String}

/-- A path leads to a directory that has only directories in it. -/
def Ready (tree : FileTree) (path : PathName) : Prop :=
  ∃ directory, tree.directoryOf? path = some directory ∧
    ∀ name item, tree.item? (name :: directory) = some item → item = .directory

/-! ## Paths without some links -/

theorem walk_cons_enter (hname : pieceName? piece = some name)
    (hshort : name.utf8ByteSize ≤ nameLimit) (hitem : tree.item? (name :: dir) = some .directory)
    (pieces : List (List Char)) :
    tree.walk true (n + 1) dir (piece :: pieces) = tree.walk true (n + 1) (name :: dir) pieces := by
  obtain ⟨rfl, hskip, hup⟩ := piece_of_pieceName? hname
  rw [walk, walkPieces, if_neg hskip, if_neg hup, if_neg (not_lt.mpr hshort), hitem, walk]

theorem walk_cons_follow {target : PathName} (hname : pieceName? piece = some name)
    (hshort : name.utf8ByteSize ≤ nameLimit)
    (hitem : tree.item? (name :: dir) = some (.link target)) (pieces : List (List Char)) :
    tree.walk true (n + 1) dir (piece :: pieces) =
      tree.walk true n (if target.isAbsolute then [] else dir) (piecesOf target ++ pieces) := by
  obtain ⟨rfl, hskip, hup⟩ := piece_of_pieceName? hname
  rw [walk, walkPieces, if_neg hskip, if_neg hup, if_neg (not_lt.mpr hshort), hitem]
  exact if_neg (by simp)

/-- No walk to a directory goes by a name that is not there. -/
theorem walk_cons_ne_of_none (hname : pieceName? piece = some name)
    (hitem : tree.item? (name :: dir) = none) (pieces : List (List Char)) :
    tree.walk true n dir (piece :: pieces) ≠ .ok (.found location .directory) := by
  obtain ⟨rfl, hskip, hup⟩ := piece_of_pieceName? hname
  intro h
  cases n with
  | zero => cases h
  | succ n =>
    rw [walk, walkPieces, if_neg hskip, if_neg hup] at h
    dsimp only at h
    rw [hitem] at h
    split_ifs at h <;> cases h

/-- A walk to a directory that can do without each link of some can do without all of them. -/
theorem walk_of_erased (gone : Location → Prop)
    (hgone : ∀ l, gone l → ∃ target, tree.item? l = some (.link target))
    (hkept : ∀ {l item}, (∀ content, item ≠ .file content) → ¬gone l →
      tree.item? l = some item → tree'.item? l = some item) :
    ∀ (n : Nat) (dir : Location) (pieces : List (List Char)),
      tree.walk true n dir pieces = .ok (.found location .directory) →
      (∀ l, gone l → (tree.erase l).walk true n dir pieces = .ok (.found location .directory)) →
      tree'.walk true n dir pieces = .ok (.found location .directory)
  | 0, _, _, h, _ => by cases h
  | _ + 1, _, [], h, _ => h
  | n + 1, dir, piece :: pieces, h, herased => by
    have hrest := fun d => walk_of_erased gone hgone hkept (n + 1) d pieces
    have hdirectory : ∀ {l}, tree.item? l = some .directory → ∀ l', gone l' → l ≠ l' := by
      rintro l hl _ hl' rfl
      obtain ⟨target, hlink⟩ := hgone l hl'
      rw [hl] at hlink
      cases hlink
    cases walkStep_of_ok h with
    | stay hskip h =>
      have hsolid := isSolid_eq_false_iff.mpr hskip
      rw [walk_cons_of_not_isSolid hsolid]
      refine hrest _ h fun l hl => ?_
      rw [← walk_cons_of_not_isSolid hsolid]
      exact herased l hl
    | up hup h =>
      subst hup
      exact hrest _ h herased
    | free _ _ _ _ hspot => cases hspot
    | enter hname hshort hitem h =>
      rw [walk_cons_enter hname hshort
        (hkept (by simp) (fun hl => hdirectory hitem _ hl rfl) hitem)]
      refine hrest _ h fun l hl => ?_
      rw [← walk_cons_enter hname hshort ((item?_erase_of_ne (hdirectory hitem l hl)).trans hitem)]
      exact herased l hl
    | file _ _ _ _ hspot => cases hspot
    | link _ _ _ _ hfinal => cases hfinal
    | @follow name target hname hshort hitem _ h =>
      -- the link is not one of those, since the walk has to do without these
      have hstays : ¬gone (name :: dir) := fun hl =>
        walk_cons_ne_of_none hname (item?_erase_self ..) pieces (herased _ hl)
      rw [walk_cons_follow hname hshort (hkept (by simp) hstays hitem)]
      refine walk_of_erased gone hgone hkept n _ _ h fun l hl => ?_
      have hne : name :: dir ≠ l := by
        rintro rfl
        exact hstays hl
      rw [← walk_cons_follow hname hshort ((item?_erase_of_ne hne).trans hitem)]
      exact herased l hl

/-- A path that can do without each link of some can do without all of them. -/
theorem directoryOf?_of_erased (gone : Location → Prop) {path : PathName}
    (hpath : path.text ≠ "") (hcurrent : tree'.current = tree.current)
    (hgone : ∀ l, gone l → ∃ target, tree.item? l = some (.link target))
    (hkept : ∀ {l item}, (∀ content, item ≠ .file content) → ¬gone l →
      tree.item? l = some item → tree'.item? l = some item)
    (h : tree.directoryOf? path = some location)
    (herased : ∀ l, gone l → (tree.erase l).directoryOf? path = some location) :
    tree'.directoryOf? path = some location := by
  simp only [directoryOf?_eq_some_iff hpath, locate, reach_eq_ok_iff] at h herased ⊢
  have hstart : tree'.start path = tree.start path := by rw [start, start, hcurrent]
  rw [hstart]
  exact ⟨h.1, walk_of_erased gone hgone hkept _ _ _ h.2 fun l hl => (herased l hl).2⟩

end FileTree

open FileTree

variable {dir : PathName} {world world' : World}

/-! ## Directories that were there -/

/-- What a directory that was there has kept once it is prepared : all of the tree but the items in
it that are no directories. -/
theorem prepareDir_kept_of_present (hwf : world.tree.WellFormed)
    (hpresent : world.tree.isPresent dir = true)
    (h : (prepareDir dir).outcome world = (.ok (), world')) {directory : Location}
    (hdir : world.tree.directoryOf? dir = some directory) (location : Location) :
    world'.tree.item? location = world.tree.item? location ∨
      world'.tree.item? location = none ∧ ∃ name item, location = name :: directory ∧
        item ≠ .directory ∧ world.tree.item? location = some item := by
  have hevolves := (prepareDir_evolves dir).of_outcome h
  obtain ⟨entries, removed, between, hlist, hclear, htree⟩ := prepareDir_ok_of_present hpresent h
  obtain ⟨listed, hlisted, hnames, -⟩ := list_directoryOf hwf hlist
  obtain rfl : listed = directory := Option.some.inj (hlisted.symm.trans hdir)
  have hwithin := (clear_within world.tree hnames).of_outcome hclear
  rw [← htree] at hwithin
  rcases hwithin.changed (.refl hwf) location with hsame | ⟨⟨entered, name, hentered, rfl⟩, hnone⟩
  · exact Or.inl hsame
  · obtain rfl : entered = listed := Option.some.inj (hentered.symm.trans hdir)
    cases hitem : world.tree.item? (name :: entered) with
    | none => exact Or.inl hnone
    | some item =>
      refine Or.inr ⟨hnone, name, item, rfl, ?_, rfl⟩
      rintro rfl
      rw [hevolves.directories hwf hitem] at hnone
      cases hnone

/-- What is left of the tree once a directory that was there is prepared was in it before. -/
theorem prepareDir_waysKept_of_present (hwf : world.tree.WellFormed)
    (hpresent : world.tree.isPresent dir = true)
    (h : (prepareDir dir).outcome world = (.ok (), world')) {directory : Location}
    (hdir : world.tree.directoryOf? dir = some directory) :
    WaysKept world'.tree world.tree := by
  refine ⟨((prepareDir_evolves dir).of_outcome h).current.symm, fun {l item} _ hl => ?_⟩
  rcases prepareDir_kept_of_present hwf hpresent h hdir l with hsame | ⟨hnone, -⟩
  · rwa [hsame] at hl
  · rw [hnone] at hl
    cases hl

/-- If a directory that was there is ready once it is prepared then its path led there without any
one link that was in it. -/
theorem directoryOf?_erase_of_ready (hwf : world.tree.WellFormed)
    (hpresent : world.tree.isPresent dir = true)
    (h : (prepareDir dir).outcome world = (.ok (), world')) {directory : Location}
    (hdir : world.tree.directoryOf? dir = some directory) (hready : world'.tree.Ready dir)
    {name : String} {target : PathName}
    (hlink : world.tree.item? (name :: directory) = some (.link target)) :
    (world.tree.erase (name :: directory)).directoryOf? dir = some directory := by
  have hways := prepareDir_waysKept_of_present hwf hpresent h hdir
  obtain ⟨ready, hleads, hclean⟩ := hready
  obtain rfl : ready = directory := Option.some.inj ((hways.directoryOf? hleads).symm.trans hdir)
  -- all that is left of the tree is there without the link
  have hwithout : WaysKept world'.tree (world.tree.erase (name :: ready)) := by
    refine ⟨hways.current, fun {l item} hitem hl => ?_⟩
    have hne : l ≠ name :: ready := by
      rintro rfl
      obtain rfl := hclean name item hl
      have hbefore := hways.item (by simp) hl
      rw [hlink] at hbefore
      cases hbefore
    rw [item?_erase_of_ne hne]
    exact hways.item hitem hl
  exact hwithout.directoryOf? hleads

/-- If the path of a directory that was there leads there without any one link that is in it then it
still does once the directory is prepared. -/
theorem directoryOf?_prepared_of_erased (hwf : world.tree.WellFormed) (hpath : dir.text ≠ "")
    (hpresent : world.tree.isPresent dir = true)
    (h : (prepareDir dir).outcome world = (.ok (), world')) {directory : Location}
    (hdir : world.tree.directoryOf? dir = some directory)
    (hlinks : ∀ name target, world.tree.item? (name :: directory) = some (.link target) →
      (world.tree.erase (name :: directory)).directoryOf? dir = some directory) :
    world'.tree.directoryOf? dir = some directory := by
  let gone : Location → Prop := fun l =>
    ∃ name target, l = name :: directory ∧ world.tree.item? l = some (.link target)
  refine directoryOf?_of_erased gone hpath ((prepareDir_evolves dir).of_outcome h).current ?_
    (fun {l item} hitem hstays hl => ?_) hdir ?_
  · rintro l ⟨name, target, rfl, hlink⟩
    exact ⟨target, hlink⟩
  · rcases prepareDir_kept_of_present hwf hpresent h hdir l with
      hsame | ⟨-, name, item', rfl, hne, hl'⟩
    · exact hsame.trans hl
    · obtain rfl : item = item' := Option.some.inj (hl.symm.trans hl')
      cases item with
      | directory => exact absurd rfl hne
      | file content => exact absurd rfl (hitem content)
      | link target => exact absurd ⟨name, target, rfl, hl⟩ hstays
  · rintro l ⟨name, target, rfl, hlink⟩
    exact hlinks name target hlink

/-- A directory that was there is ready once it is prepared exactly if its path leads there without
any one link that is in it. -/
theorem ready_iff_of_present (hwf : world.tree.WellFormed) (hpath : dir.text ≠ "")
    (hpresent : world.tree.isPresent dir = true)
    (h : (prepareDir dir).outcome world = (.ok (), world')) {directory : Location}
    (hdir : world.tree.directoryOf? dir = some directory) :
    world'.tree.Ready dir ↔ ∀ name target,
      world.tree.item? (name :: directory) = some (.link target) →
        (world.tree.erase (name :: directory)).directoryOf? dir = some directory := by
  refine ⟨fun hready _ _ => directoryOf?_erase_of_ready hwf hpresent h hdir hready,
    fun hlinks => ?_⟩
  have hleads := directoryOf?_prepared_of_erased hwf hpath hpresent h hdir hlinks
  exact ⟨directory, hleads, fun name item => prepareDir_clean_of_present hwf hpresent h hleads⟩

/-! ## Directories that are made -/

/-- A path that has been made, with those above it, leads to a directory. -/
theorem directoryOf?_of_makeDirectories_ok (world : World) {world' : World}
    (hwf : world.tree.WellFormed) (hpath : dir.text ≠ "")
    (h : (makeDirectories dir : StateM World _).run world = (.ok (), world')) :
    ∃ directory, world'.tree.directoryOf? dir = some directory := by
  obtain ⟨component, above, hreverse, -⟩ := PathName.exists_components hpath
  rw [makeDirectories, hreverse] at h
  simp only [directoryOf?_eq_some_iff hpath]
  exact isDirectory_iff.mp (isDirectory_of_makeFrom hwf h)

/-- A path that led nowhere is ready once it is prepared exactly if the directory that it leads to
then held only directories before. -/
theorem ready_iff_of_absent (hwf : world.tree.WellFormed) (hpath : dir.text ≠ "")
    (habsent : world.tree.isPresent dir = false)
    (h : (prepareDir dir).outcome world = (.ok (), world')) :
    world'.tree.Ready dir ↔ ∀ directory, world'.tree.directoryOf? dir = some directory →
      ∀ name item, world.tree.item? (name :: directory) = some item → item = .directory := by
  have hgrows := prepareDir_grows_of_absent habsent h
  rw [prepareDir_of_absent habsent, Step.outcome_on_eq_ok_iff] at h
  obtain ⟨directory, hdir⟩ := directoryOf?_of_makeDirectories_ok (world.withEvent _) hwf hpath h
  simp only [Ready, hdir, Option.some.injEq, exists_eq_left', forall_eq']
  refine forall_congr' fun name => ?_
  rcases hgrows.grown hwf (name :: directory) with hsame | ⟨hnone, hmade⟩
  · rw [hsame]
  · simp [hnone, hmade]

/-! ## When a directory is ready -/

/-- Once its preparation has succeeded, a directory is ready exactly if its path led to it and still
does without any one link that is in it, or led nowhere and leads to a directory now that held only
directories before. -/
theorem prepareDir_ready_iff (hwf : world.tree.WellFormed) (hpath : dir.text ≠ "")
    (h : (prepareDir dir).outcome world = (.ok (), world')) :
    world'.tree.Ready dir ↔
      (∃ directory, world.tree.directoryOf? dir = some directory ∧ ∀ name target,
        world.tree.item? (name :: directory) = some (.link target) →
          (world.tree.erase (name :: directory)).directoryOf? dir = some directory) ∨
      world.tree.isPresent dir = false ∧
        ∀ directory, world'.tree.directoryOf? dir = some directory →
          ∀ name item, world.tree.item? (name :: directory) = some item → item = .directory := by
  cases hpresent : world.tree.isPresent dir with
  | true =>
    obtain ⟨directory, hdir⟩ := directoryOf?_of_present hwf hpresent h
    rw [ready_iff_of_present hwf hpath hpresent h hdir, hdir]
    simp
  | false =>
    rw [ready_iff_of_absent hwf hpath hpresent h]
    have hnone : ∀ directory, world.tree.directoryOf? dir ≠ some directory := by
      intro directory hdir
      rw [directoryOf?_eq_some_iff hpath] at hdir
      simp [isPresent, itemAt?, hdir] at hpresent
    simp [hnone]

/-- A directory with a directory and a link to itself in it, and a link that leads to it from
outside. -/
def FileTree.looped : FileTree :=
  (((({} : FileTree).set ["out"] .directory).set ["old", "out"] .directory).set ["self", "out"]
    (.link ⟨"."⟩)).set ["to"] (.link ⟨"out"⟩)

theorem wellFormed_looped : FileTree.looped.WellFormed := by
  refine (((simple_root.wellFormed.set ?_ rfl ?_).set ?_ rfl ?_).set ?_ rfl ?_).set ?_ rfl ?_
  all_goals decide

/-- By the link from outside the directory is made ready; by the link in it the way is lost, since
that link goes. -/
theorem prepareDir_ready_iff_looped :
    ∃ outside inside : World,
      (prepareDir ⟨"to"⟩).outcome ⟨.looped, []⟩ = (.ok (), outside) ∧ outside.tree.Ready ⟨"to"⟩ ∧
        (prepareDir ⟨"out/self"⟩).outcome ⟨.looped, []⟩ = (.ok (), inside) ∧
          ¬inside.tree.Ready ⟨"out/self"⟩ := by
  have houtside : ((prepareDir ⟨"to"⟩).outcome ⟨.looped, []⟩).1 = .ok () := by decide +kernel
  have hinside : ((prepareDir ⟨"out/self"⟩).outcome ⟨.looped, []⟩).1 = .ok () := by decide +kernel
  have hout := Step.outcome_eq_of_fst houtside
  have hin := Step.outcome_eq_of_fst hinside
  refine ⟨_, _, hout, ?_, hin, ?_⟩
  · refine (prepareDir_ready_iff wellFormed_looped (by decide) hout).mpr
      (Or.inl ⟨["out"], by decide, fun name target hlink => ?_⟩)
    obtain ⟨rfl, -⟩ : name = "self" ∧ ⟨"."⟩ = target := by
      simpa [FileTree.looped, FileTree.set, erase, eq_comm] using mem_entries_of_item? hlink
    decide
  · rw [prepareDir_ready_iff wellFormed_looped (by decide) hin]
    have hleads : FileTree.looped.directoryOf? ⟨"out/self"⟩ = some ["out"] := by decide
    have hpresent : FileTree.looped.isPresent ⟨"out/self"⟩ = true := by decide
    have hlost : (FileTree.looped.erase ["self", "out"]).directoryOf? ⟨"out/self"⟩ = none := by
      decide
    rintro (⟨directory, hdir, hlinks⟩ | ⟨habsent, -⟩)
    · obtain rfl : directory = ["out"] := Option.some.inj (hdir.symm.trans hleads)
      have hkept := hlinks "self" ⟨"."⟩ rfl
      rw [hlost] at hkept
      cases hkept
    · rw [hpresent] at habsent
      cases habsent

/-- The preparation of a directory can succeed and leave a file in it. -/
theorem not_forall_prepareDir_ready :
    ¬∀ (dir : PathName) (world world' : World), world.tree.WellFormed → dir.text ≠ "" →
      (prepareDir dir).outcome world = (.ok (), world') → world'.tree.Ready dir := by
  intro h
  let tree := (({} : FileTree).set ["b"] .directory).set ["Old.h", "b"] (.file (.text "old"))
  have hwf : tree.WellFormed := by
    refine (simple_root.wellFormed.set ?_ rfl ?_).set ?_ rfl ?_
    all_goals decide
  have hrun : ((prepareDir ⟨"a/../b"⟩).outcome ⟨tree, []⟩).1 = .ok () ∧
      ((prepareDir ⟨"a/../b"⟩).outcome ⟨tree, []⟩).2.tree.directoryOf? ⟨"a/../b"⟩ = some ["b"] ∧
      ((prepareDir ⟨"a/../b"⟩).outcome ⟨tree, []⟩).2.tree.item? ["Old.h", "b"] =
        some (.file (.text "old")) := by
    decide +kernel
  obtain ⟨hok, hleads, hstale⟩ := hrun
  obtain ⟨directory, hdir, hclean⟩ :=
    h ⟨"a/../b"⟩ ⟨tree, []⟩ _ hwf (by decide) (Step.outcome_eq_of_fst hok)
  obtain rfl : directory = ["b"] := Option.some.inj (hdir.symm.trans hleads)
  cases hclean "Old.h" _ hstale

end SchemaHeaders
