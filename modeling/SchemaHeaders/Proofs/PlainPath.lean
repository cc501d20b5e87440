import SchemaHeaders.Proofs.Tree

/-!
# Names and components of paths

What a path says are its names (`PathName.names`), beside the steps up, the `.` left out, and
`names_eq_pieces` reads them off the pieces between slashes. A relative path seen from a directory
has the pieces of both (`piecesOf_join`), and what its own say is all that it adds to the components
of the directory (`components_join_relative`). A path is spelled from components by
`PathName.ofComponents`, and `components_ofComponents` says that it then has these.

A path leads downward if it is not empty and never leads up (`PathName.Downward`). A plain path
begins where it is seen from as well (`PathName.Plain`). The path above one that leads downward is
spelled from its components but for the last, which is a name (`components_above`, `names_above`).
-/

namespace SchemaHeaders

open FileTree

/-! ## Pieces between separators -/

theorem sep_not_mem_pieces (sep : Char) (cs : List Char) :
    sep ∉ (Text.pieces sep cs).1 ∧ ∀ p ∈ (Text.pieces sep cs).2, sep ∉ p := by
  induction cs with
  | nil => simp [Text.pieces]
  | cons c cs ih =>
    obtain ⟨hfirst, hothers⟩ := ih
    by_cases hc : c = sep
    · simp only [Text.pieces, if_pos hc, List.not_mem_nil, not_false_eq_true, true_and]
      intro p hp
      rcases List.mem_cons.mp hp with rfl | hp
      · exact hfirst
      · exact hothers p hp
    · simp only [Text.pieces, if_neg hc, List.mem_cons, not_or]
      exact ⟨⟨Ne.symm hc, hfirst⟩, hothers⟩

/-- What is not the separator is in a text exactly if it is in one of its pieces. -/
theorem mem_pieces_iff {sep x : Char} (hsep : x ≠ sep) (cs : List Char) :
    (x ∈ (Text.pieces sep cs).1 ∨ ∃ piece ∈ (Text.pieces sep cs).2, x ∈ piece) ↔ x ∈ cs := by
  induction cs with
  | nil => simp [Text.pieces]
  | cons c cs ih =>
    rw [List.mem_cons, ← ih, Text.pieces]
    by_cases hc : c = sep
    · simp [hc, hsep]
    · simp [hc, or_assoc]

/-- Whether a piece of a path says something. -/
def FileTree.isSolid (piece : List Char) : Bool := !(piece == [] || piece == ['.'])

theorem FileTree.isSolid_eq_false_iff {piece : List Char} :
    isSolid piece = false ↔ piece = [] ∨ piece = ['.'] := by
  rw [isSolid, Bool.not_eq_false', Bool.or_eq_true, beq_iff_eq, beq_iff_eq]

theorem FileTree.isSolid_iff {piece : List Char} :
    isSolid piece = true ↔ ¬(piece = [] ∨ piece = ['.']) := by
  rw [← isSolid_eq_false_iff, Bool.not_eq_false]

namespace PathName

/-- The name of a component that is one. -/
def Component.name? : Component → Option String
  | .name text => some text
  | _ => none

/-- The names of a path, in order. -/
def names (p : PathName) : List String := p.components.filterMap Component.name?

/-- A path that does not lead up. -/
structure Downward (p : PathName) : Prop where
  ne_empty : p.text ≠ ""
  no_up : Component.up ∉ p.components

/-- A relative path that does not lead up. -/
structure Plain (p : PathName) : Prop where
  ne_empty : p.text ≠ ""
  relative : p.isAbsolute = false
  no_up : Component.up ∉ p.components

theorem Plain.downward {p : PathName} (h : p.Plain) : p.Downward := ⟨h.ne_empty, h.no_up⟩

/-- The name that a piece of a path says, if it says one. -/
def pieceName? (piece : List Char) : Option String := (component? piece).bind Component.name?

theorem pieceName?_eq (piece : List Char) :
    pieceName? piece =
      if piece = [] ∨ piece = ['.'] ∨ piece = ['.', '.'] then none
      else some (String.ofList piece) := by
  unfold pieceName? component?
  by_cases h : piece = [] ∨ piece = ['.']
  · rw [if_pos h, if_pos (by tauto)]
    rfl
  · rw [if_neg h]
    by_cases hup : piece = ['.', '.']
    · rw [if_pos hup, if_pos (by tauto)]
      rfl
    · rw [if_neg hup, if_neg (by tauto)]
      rfl

/-- What a piece without slashes says is a name that a directory can hold. -/
theorem isEntryName_of_pieceName? {piece : List Char} {name : String} (hslash : '/' ∉ piece)
    (h : pieceName? piece = some name) : IsEntryName name := by
  rw [pieceName?_eq] at h
  split_ifs at h with hpiece
  cases h
  simp only [not_or] at hpiece
  obtain ⟨hempty, hhere, hup⟩ := hpiece
  have hne : ∀ {cs : List Char}, piece ≠ cs → String.ofList piece ≠ String.ofList cs :=
    fun h heq => h (String.ofList_inj.mp heq)
  exact ⟨hne hempty, hne hhere, hne hup, by simpa using hslash⟩

/-- A name that a directory can hold is the piece that says it. -/
theorem pieceName?_toList {name : String} (h : IsEntryName name) :
    pieceName? name.toList = some name := by
  have hne : ∀ {cs : List Char}, name ≠ String.ofList cs → name.toList ≠ cs := by
    rintro _ hne rfl
    exact hne String.ofList_toList.symm
  rw [pieceName?_eq, if_neg, String.ofList_toList]
  exact not_or.mpr ⟨hne h.ne_empty, not_or.mpr ⟨hne h.ne_here, hne h.ne_up⟩⟩

theorem component?_toList {name : String} (h : IsEntryName name) :
    component? name.toList = some (.name name) := by
  obtain ⟨c, hcomponent, hname⟩ := Option.bind_eq_some_iff.mp (pieceName?_toList h)
  cases c with
  | name text =>
    rw [hcomponent]
    exact congrArg (some ∘ Component.name) (Option.some.inj hname)
  | root => cases hname
  | here => cases hname
  | up => cases hname

theorem components_of_pieces {p : PathName} {first : List Char} {others : List (List Char)}
    (h : piecesOf p = first :: others) :
    p.components = p.leading first ++ others.filterMap component? := by
  obtain ⟨rfl, rfl⟩ := List.cons.inj h
  rfl

/-! ## Names and pieces -/

/-- The first piece of an absolute path is empty. -/
theorem pieces_fst_of_isAbsolute {p : PathName} (h : p.isAbsolute = true) :
    (Text.pieces '/' p.text.toList).1 = [] := by
  unfold isAbsolute at h
  cases hcs : p.text.toList with
  | nil => rfl
  | cons c cs =>
    obtain rfl : c = '/' := by simpa [hcs] using h
    exact congrArg Prod.fst (Text.pieces_append '/' [] cs)

theorem names_leading (p : PathName) :
    (p.leading (Text.pieces '/' p.text.toList).1).filterMap Component.name? =
      (pieceName? (Text.pieces '/' p.text.toList).1).toList := by
  unfold leading
  split_ifs with habs hhere
  · rw [pieces_fst_of_isAbsolute habs]
    rfl
  · rw [hhere]
    rfl
  · rw [pieceName?]
    cases component? (Text.pieces '/' p.text.toList).1 with
    | none => rfl
    | some c => cases c <;> rfl

/-- The names of a path are those that its pieces say. -/
theorem names_eq_pieces (p : PathName) : p.names = (piecesOf p).filterMap pieceName? := by
  have hfirst := names_leading p
  simp only [names, components, List.filterMap_append, hfirst, piecesOf, List.filterMap_filterMap]
  rw [List.filterMap_cons]
  cases pieceName? (Text.pieces '/' p.text.toList).1 <;> rfl

/-- A path leads up exactly if one of its pieces does. -/
theorem up_mem_components_iff (p : PathName) :
    Component.up ∈ p.components ↔ ['.', '.'] ∈ piecesOf p := by
  have hpiece : ∀ piece : List Char, component? piece = some .up ↔ piece = ['.', '.'] := by
    intro piece
    unfold component?
    split_ifs with hskip hup <;> simp_all
    rintro rfl
    simp at hskip
  have hfirst : Component.up ∈ p.leading (Text.pieces '/' p.text.toList).1 ↔
      (Text.pieces '/' p.text.toList).1 = ['.', '.'] := by
    unfold leading
    split_ifs with habs hhere
    · simp [pieces_fst_of_isAbsolute habs]
    · simp [hhere]
    · rw [Option.mem_toList, hpiece]
  simp only [components, piecesOf, List.mem_append, List.mem_filterMap, List.mem_cons, hfirst,
    hpiece]
  simp only [exists_eq_right, eq_comm]

theorem slash_not_mem_piecesOf (p : PathName) : ∀ piece ∈ piecesOf p, '/' ∉ piece := by
  obtain ⟨hfirst, hothers⟩ := sep_not_mem_pieces '/' p.text.toList
  intro piece hpiece
  rcases List.mem_cons.mp hpiece with rfl | hpiece
  · exact hfirst
  · exact hothers piece hpiece

/-- Every name of a path is one that a directory can hold. -/
theorem isEntryName_of_mem_names {p : PathName} {name : String} (h : name ∈ p.names) :
    IsEntryName name := by
  rw [names_eq_pieces, List.mem_filterMap] at h
  obtain ⟨piece, hpiece, hname⟩ := h
  exact isEntryName_of_pieceName? (slash_not_mem_piecesOf p piece hpiece) hname

/-! ## Entries of a directory -/

theorem isAbsolute_of_isEntryName {name : String} (h : IsEntryName name) :
    (⟨name⟩ : PathName).isAbsolute = false := by
  unfold isAbsolute
  cases hcs : name.toList with
  | nil => rfl
  | cons c cs =>
    have hc : c ≠ '/' := fun hc => h.no_slash (by simp [hcs, hc])
    simpa using hc

/-- A name is a path of one piece. -/
theorem piecesOf_entryName {name : String} (h : IsEntryName name) :
    piecesOf ⟨name⟩ = [name.toList] := by
  simp only [piecesOf, Text.pieces_of_sep_not_mem h.no_slash]

/-! ## Paths seen from a directory -/

section Join

variable {dir q : PathName} (hdir : dir.text ≠ "") (hq : q.isAbsolute = false)

include hdir hq

/-- A relative path seen from a directory begins with the path of the directory. -/
theorem text_join : ∃ rest, (dir.join q).text = dir.text ++ rest := by
  rw [join, if_neg (by simp [hq, hdir])]
  split_ifs with hslash
  · exact ⟨q.text, rfl⟩
  · exact ⟨"/" ++ q.text, String.append_assoc⟩

/-- A relative path seen from a directory begins at the root exactly if that of the directory
does. -/
theorem isAbsolute_join : (dir.join q).isAbsolute = dir.isAbsolute := by
  obtain ⟨rest, htext⟩ := text_join hdir hq
  unfold isAbsolute
  rw [htext, String.toList_append]
  cases hcs : dir.text.toList with
  | nil => exact absurd (String.toList_eq_nil_iff.mp hcs) hdir
  | cons c cs => rfl

/-- A relative path seen from a directory has the pieces of the directory, less the empty one after
a slash at the end, and then its own. -/
theorem piecesOf_join :
    ∃ pieces, pieces ≠ [] ∧ (piecesOf dir = pieces ∨ piecesOf dir = pieces ++ [[]]) ∧
      piecesOf (dir.join q) = pieces ++ piecesOf q := by
  rw [join, if_neg (by simp [hq, hdir])]
  split_ifs with hslash
  · obtain ⟨cs, hcs⟩ : ∃ cs, dir.text.toList = cs ++ ['/'] := by
      rw [endsInSlash, beq_iff_eq, List.getLast?_eq_some_iff] at hslash
      exact hslash
    refine ⟨(Text.pieces '/' cs).1 :: (Text.pieces '/' cs).2, List.cons_ne_nil _ _, Or.inr ?_, ?_⟩
    · rw [piecesOf, hcs, Text.pieces_append]
      rfl
    · simp only [piecesOf, String.toList_append, hcs, List.append_assoc, List.cons_append,
        List.nil_append, Text.pieces_append]
  · refine ⟨piecesOf dir, List.cons_ne_nil _ _, Or.inl rfl, ?_⟩
    have htext : (dir.text ++ "/" ++ q.text).toList = dir.text.toList ++ '/' :: q.text.toList := by
      simp
    simp only [piecesOf, htext, Text.pieces_append]
    rfl

/-- A relative path seen from a directory has the components of the directory, and then what its own
pieces say; a `.` that begins it says nothing there. -/
theorem components_join_relative :
    (dir.join q).components = dir.components ++ (piecesOf q).filterMap component? := by
  obtain ⟨pieces, hne, hpieces, hjoin⟩ := piecesOf_join hdir hq
  obtain ⟨first, others, rfl⟩ := List.exists_cons_of_ne_nil hne
  rw [List.cons_append] at hpieces hjoin
  have hcomponents : dir.components = dir.leading first ++ others.filterMap component? := by
    rcases hpieces with h | h
    · exact components_of_pieces h
    · rw [components_of_pieces h, List.filterMap_append]
      simp [component?]
  rw [components_of_pieces hjoin, hcomponents, List.filterMap_append, leading, leading,
    isAbsolute_join hdir hq, List.append_assoc]

end Join

/-! ## Spelled components -/

/-- A path that says anything has a component. -/
theorem components_ne_nil {p : PathName} (h : p.text ≠ "") : p.components ≠ [] := by
  have hleading : p.leading (Text.pieces '/' p.text.toList).1 ≠ [] := by
    unfold leading component?
    split_ifs with habs hhere hskip hup
    · simp
    · simp
    · -- The first piece of a relative path is empty only if the path is.
      unfold isAbsolute at habs
      cases hcs : p.text.toList with
      | nil => exact absurd (String.toList_eq_nil_iff.mp hcs) h
      | cons c cs =>
        have hc : c ≠ '/' := by simpa [hcs] using habs
        simp_all [Text.pieces]
    · simp
    · simp
  exact fun hnil => hleading (List.append_eq_nil_iff.mp hnil).1

/-- The pieces of a path spelled from components are their texts. -/
theorem pieces_intercalate : ∀ (c : Component) (cs : List Component),
    (∀ d ∈ c :: cs, '/' ∉ d.text.toList) →
    Text.pieces '/' (String.intercalate "/" ((c :: cs).map (·.text))).toList =
      (c.text.toList, cs.map (·.text.toList))
  | c, [], h => by
    simpa using Text.pieces_of_sep_not_mem (h c (by simp))
  | c, d :: ds, h => by
    have hc := Text.pieces_of_sep_not_mem (h c (by simp))
    have hds := pieces_intercalate d ds fun e he => h e (List.mem_cons_of_mem _ he)
    have htext : (String.intercalate "/" ((c :: d :: ds).map (·.text))).toList =
        c.text.toList ++ '/' :: (String.intercalate "/" ((d :: ds).map (·.text))).toList := by
      simp only [List.map_cons, String.intercalate_cons_cons, String.toList_append]
      simp
    rw [htext, Text.pieces_append, hc, hds]
    rfl

theorem piecesOf_ofComponents {cs : List Component} (hne : cs ≠ []) (hroot : cs ≠ [.root])
    (h : ∀ c ∈ cs, '/' ∉ c.text.toList) : piecesOf (ofComponents cs) = cs.map (·.text.toList) := by
  obtain ⟨c, cs, rfl⟩ := List.exists_cons_of_ne_nil hne
  simp only [piecesOf, ofComponents, if_neg hroot, pieces_intercalate c cs h]
  rfl

/-- A component that can stand anywhere in a path. -/
def Component.Inner : Component → Prop
  | .up => True
  | .name text => IsEntryName text
  | _ => False

theorem Component.Inner.component? {c : Component} (h : c.Inner) :
    component? c.text.toList = some c := by
  cases c with
  | up => rfl
  | name text => exact component?_toList h
  | root => exact absurd h id
  | here => exact absurd h id

theorem Component.Inner.slash_not_mem {c : Component} (h : c.Inner) : '/' ∉ c.text.toList := by
  cases c with
  | up => decide
  | name text => exact h.no_slash
  | root => exact absurd h id
  | here => exact absurd h id

theorem inner_of_component? {piece : List Char} {c : Component} (hslash : '/' ∉ piece)
    (h : component? piece = some c) : c.Inner := by
  cases c with
  | up => trivial
  | name text => exact isEntryName_of_pieceName? hslash (by rw [pieceName?, h]; rfl)
  | root =>
    unfold PathName.component? at h
    split_ifs at h <;> cases h
  | here =>
    unfold PathName.component? at h
    split_ifs at h <;> cases h

/-- All components of a path but the first can stand anywhere. -/
theorem inner_of_components {p : PathName} {first : Component} {others : List Component}
    (h : p.components = first :: others) :
    (first = .root ∨ first = .here ∨ first.Inner) ∧ ∀ c ∈ others, c.Inner := by
  have hslash := slash_not_mem_piecesOf p
  have hrest : ∀ c ∈ (Text.pieces '/' p.text.toList).2.filterMap component?, c.Inner := by
    intro c hc
    obtain ⟨piece, hpiece, hcomponent⟩ := List.mem_filterMap.mp hc
    exact inner_of_component? (hslash piece (List.mem_cons_of_mem _ hpiece)) hcomponent
  rw [components_of_pieces (p := p) rfl] at h
  unfold leading at h
  split_ifs at h with hroot hhere
  · obtain ⟨rfl, rfl⟩ := List.cons.inj h
    exact ⟨Or.inl rfl, hrest⟩
  · obtain ⟨rfl, rfl⟩ := List.cons.inj h
    exact ⟨Or.inr (Or.inl rfl), hrest⟩
  · cases hfirst : component? (Text.pieces '/' p.text.toList).1 with
    | some c =>
      rw [hfirst] at h
      obtain ⟨rfl, rfl⟩ := List.cons.inj h
      exact ⟨Or.inr (Or.inr (inner_of_component? (hslash _ (List.mem_cons_self ..)) hfirst)), hrest⟩
    | none =>
      rw [hfirst, Option.toList_none, List.nil_append] at h
      rw [h] at hrest
      exact ⟨Or.inr (Or.inr (hrest first (by simp))), fun c hc =>
        hrest c (List.mem_cons_of_mem _ hc)⟩

theorem isAbsolute_of_pieces {p : PathName} {others : List (List Char)} (hne : others ≠ [])
    (h : piecesOf p = [] :: others) : p.isAbsolute = true := by
  obtain ⟨hfirst, rfl⟩ := List.cons.inj h
  unfold isAbsolute
  cases hcs : p.text.toList with
  | nil => simp [hcs, Text.pieces] at hne
  | cons c cs =>
    by_cases hc : c = '/'
    · simp [hc]
    · simp [hcs, Text.pieces, hc] at hfirst

/-- A path spelled from components has them. -/
theorem components_ofComponents {first : Component} {others : List Component}
    (hfirst : first = .root ∨ first = .here ∨ first.Inner) (hothers : ∀ c ∈ others, c.Inner) :
    (ofComponents (first :: others)).components = first :: others := by
  by_cases hroot : first :: others = [.root]
  · rw [hroot]
    rfl
  have hslash : ∀ c ∈ first :: others, '/' ∉ c.text.toList := by
    intro c hc
    rcases List.mem_cons.mp hc with rfl | hc
    · rcases hfirst with rfl | rfl | hinner
      · decide
      · decide
      · exact hinner.slash_not_mem
    · exact (hothers c hc).slash_not_mem
  have hpieces := piecesOf_ofComponents (List.cons_ne_nil _ _) hroot hslash
  rw [List.map_cons] at hpieces
  have hrest : (others.map (·.text.toList)).filterMap component? = others := by
    rw [List.filterMap_map]
    exact (List.filterMap_congr fun c hc => (hothers c hc).component?).trans List.filterMap_some
  have hrelative : first.text.toList ≠ [] →
      (ofComponents (first :: others)).isAbsolute = false := by
    intro hne
    by_contra habs
    exact hne ((List.cons.inj hpieces).1.symm.trans
      (pieces_fst_of_isAbsolute (Bool.not_eq_false _ ▸ habs)))
  rw [components_of_pieces hpieces, hrest, leading]
  rcases hfirst with rfl | rfl | hinner
  · have hne : others ≠ [] := fun hnil => hroot (by rw [hnil])
    rw [if_pos (isAbsolute_of_pieces (by simpa using hne) hpieces)]
    rfl
  · have hhere : Component.here.text.toList = ['.'] := by decide
    rw [if_neg (by simp [hrelative (by decide)]), if_pos hhere]
    rfl
  · have hcomponent := hinner.component?
    have hne : first.text.toList ≠ [] := fun hnil => by
      rw [hnil] at hcomponent
      cases hcomponent
    have hhere : first.text.toList ≠ ['.'] := fun hhere => by
      rw [hhere] at hcomponent
      cases hcomponent
    rw [if_neg (by simp [hrelative hne]), if_neg hhere, hcomponent]
    rfl

/-- A path begins at the root exactly if that is one of its components. -/
theorem root_mem_components_iff (p : PathName) :
    Component.root ∈ p.components ↔ p.isAbsolute = true := by
  have hpiece : ∀ piece : List Char, component? piece ≠ some .root := by
    intro piece
    unfold component?
    split_ifs <;> simp
  have hrest : Component.root ∉ (Text.pieces '/' p.text.toList).2.filterMap component? := by
    simp [hpiece]
  rw [components_of_pieces (p := p) rfl, List.mem_append, or_iff_left hrest]
  unfold leading
  split_ifs with habs hhere
  · simp [habs]
  · simp [habs]
  · simp [habs, hpiece]

/-! ## The path above -/

section Above

variable {p : PathName} {component : Component} {above : List Component}

/-- A path that says anything has components, from the last to the first. -/
theorem exists_components (hp : p.text ≠ "") :
    ∃ component above, p.components.reverse = component :: above ∧
      p.components = (component :: above).reverse := by
  obtain ⟨component, above, h⟩ :=
    List.exists_cons_of_ne_nil (List.reverse_ne_nil_iff.mpr (components_ne_nil hp))
  exact ⟨component, above, h, by rw [← h, List.reverse_reverse]⟩

/-- The path above a path that does not lead up and has more than one component : it has the
components but for the last, which is a name. -/
theorem components_above (hp : p.Downward) (h : p.components = (component :: above).reverse)
    (hne : above ≠ []) :
    (ofComponents above.reverse).components = above.reverse ∧ ∃ name, component = .name name := by
  obtain ⟨first, others, hfirst⟩ : ∃ first others, above.reverse = first :: others :=
    List.exists_cons_of_ne_nil (by simpa using hne)
  rw [List.reverse_cons, hfirst] at h
  obtain ⟨hleading, hinner⟩ := inner_of_components h
  rw [hfirst]
  refine ⟨components_ofComponents hleading fun c hc => hinner c (List.mem_append_left _ hc), ?_⟩
  have hlast := hinner component (by simp)
  cases component with
  | name text => exact ⟨text, rfl⟩
  | up => exact absurd (by simp [h]) hp.no_up
  | root => exact absurd hlast id
  | here => exact absurd hlast id

theorem names_above (hp : p.Downward) (h : p.components = (component :: above).reverse)
    (hne : above ≠ []) :
    ∃ name, p.names = (ofComponents above.reverse).names ++ [name] := by
  obtain ⟨hcomponents, name, rfl⟩ := components_above hp h hne
  refine ⟨name, ?_⟩
  rw [names, names, hcomponents, h, List.reverse_cons, List.filterMap_append]
  rfl

/-- The path above begins where the path does, and does not lead up either. -/
theorem downward_above (hp : p.Downward) (h : p.components = (component :: above).reverse)
    (hne : above ≠ []) : (ofComponents above.reverse).Downward ∧
      (ofComponents above.reverse).isAbsolute = p.isAbsolute := by
  obtain ⟨hcomponents, name, rfl⟩ := components_above hp h hne
  have hmem : ∀ c, c ∈ p.components ↔ c ∈ above.reverse ∨ c = .name name := fun c => by
    rw [h, List.reverse_cons, List.mem_append, List.mem_singleton]
  refine ⟨⟨fun hempty => ?_, fun hup => hp.no_up ((hmem _).mpr (Or.inl (hcomponents ▸ hup)))⟩, ?_⟩
  · have hnil : (ofComponents above.reverse).components = [] := by
      rw [show ofComponents above.reverse = ⟨""⟩ from congrArg PathName.mk hempty]
      rfl
    rw [hcomponents, List.reverse_eq_nil_iff] at hnil
    exact hne hnil
  · rw [Bool.eq_iff_iff, ← root_mem_components_iff, ← root_mem_components_iff, hcomponents, hmem]
    simp

theorem plain_above (hp : p.Plain) (h : p.components = (component :: above).reverse)
    (hne : above ≠ []) : (ofComponents above.reverse).Plain := by
  obtain ⟨⟨hempty, hup⟩, hroot⟩ := downward_above hp.downward h hne
  exact ⟨hempty, hroot.trans hp.relative, hup⟩

end Above

end PathName

end SchemaHeaders
