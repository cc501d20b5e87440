import SchemaHeaders.Proofs.YamlTokens
import SchemaHeaders.Yaml.Document

/-!
# A line of JSON as a YAML document

The tokens of data stand where a node may : before the root, as an item of a list in brackets, or as
a value in braces (`Vacant`). A token there is taken for a node (`run_node`) and a sign elsewhere
leads on (`run_sign`), so that a reader takes the tokens for the node of the data (`runsOn`), and a
line of JSON is a document of YAML with the same root.

Only plain scalars stand for anything but a text, and on such a line they are integers.
-/

namespace SchemaHeaders.Yaml

open Document (Node)

/-! ## Scalars -/

theorem number?_digits (n : Nat) : number? (Text.digits n) = some n := by
  have hbased : basedNumber? (Text.digits n) = none := by
    have hzero : ∀ c cs, Text.digits n ≠ '0' :: c :: cs := fun c cs h => by
      have hdigits := @Text.digits_of_head? n (by rw [h]; rfl)
      rw [h] at hdigits
      exact absurd (List.cons.inj hdigits).2 (List.cons_ne_nil _ _)
    rw [basedNumber?.eq_def]
    split
    case h_4 => rfl
    all_goals
      next h => exact absurd h (hzero _ _)
  rw [number?, hbased]
  simp only [decimalNumber?]
  rw [if_neg, Text.value?_digits]
  intro h
  rw [Text.digits_of_head? h.1] at h
  exact absurd h.2 (by decide)

theorem natural?_digits (n : Nat) : natural? (Text.digits n) = some n := by
  rw [natural?, number?_digits]
  intro cs h
  exact absurd (Text.isDigit_of_mem_digits n '+' (h ▸ List.mem_cons_self ..)) (by decide)

theorem integer?_signed (z : Int) : integer? (Text.signed z) = some z := by
  rcases Text.signed_cases z with ⟨hz, h⟩ | ⟨hz, h⟩ <;> rw [h]
  · rw [integer?, natural?_digits]
    · exact congrArg some (Int.natAbs_of_nonneg hz)
    · intro cs h
      exact absurd (Text.isDigit_of_mem_digits _ '-' (h ▸ List.mem_cons_self ..)) (by decide)
  · rw [integer?, number?_digits]
    change some (-(z.natAbs : Int)) = some z
    rw [Int.ofNat_natAbs_of_nonpos (Int.le_of_lt hz), Int.neg_neg]

/-- Only an integer that is not negative is a number without a minus sign. -/
theorem natural?_signed (z : Int) :
    natural? (Text.signed z) = if 0 ≤ z then some z.toNat else none := by
  rcases Text.signed_cases z with ⟨hz, h⟩ | ⟨hz, h⟩ <;> rw [h]
  · rw [natural?_digits, if_pos hz]
    exact congrArg some (by omega)
  · rw [if_neg (by omega)]
    rfl

/-- The decimal text of an integer is no word for an absent value. -/
theorem isNullWord_signed (z : Int) : isNullWord (String.ofList (Text.signed z)) = false := by
  rw [isNullWord, List.contains_eq_any_beq, List.any_eq_false]
  intro word hword
  have hother : ∀ word ∈ ["~", "null", "Null", "NULL"],
      ∃ c ∈ word.toList, ¬ (c.isDigit = true ∨ c = '-') := by decide
  obtain ⟨c, hc, hother⟩ := hother word hword
  rw [beq_iff_eq]
  rintro rfl
  rw [String.toList_ofList] at hc
  exact hother (Text.isDigit_of_mem_signed hc)

/-- YAML takes quoted scalars for texts and plain ones for what they look like, and keeps the order
of keys. -/
def dialect : Dialect where
  text s := scalarOf .quoted none s
  integer z := scalarOf .plain none (String.ofList (Text.signed z))
  order entries := entries
  text_text _ := rfl
  text_present _ := ⟨rfl, rfl⟩
  integer_integer z := by simp [scalarOf, mayBeNumber, integer?_signed]
  integer_natural z := by simp [scalarOf, mayBeNumber, natural?_signed]
  integer_present z := by
    have hempty : (String.ofList (Text.signed z)).isEmpty = false := by
      rw [Bool.eq_false_iff, ne_eq, String.isEmpty_iff, ← String.toList_inj, String.toList_ofList]
      exact Text.signed_ne_nil z
    simp [scalarOf, isNullWord_signed, hempty]
  order_perm entries := .refl entries

/-! ## Reading -/

section Reading

variable {handles : List (String × String)} {s : State} {after : Slot} {stack : List Frame}
  {ts : List Token}

/-- The slot of a node in brackets, or of the root, and the slot after the node. -/
inductive NodeSlot : Slot → Slot → Prop
  | root : NodeSlot .root .done
  | item : NodeSlot .flowItem .flowItemEnd
  | key : NodeSlot .flowKeyNode .flowValue
  | value : NodeSlot .flowValueNode .flowKeyEnd

/-- Whether a node may come next, after which a slot follows. -/
structure Vacant (s : State) (after : Slot) : Prop where
  properties : s.properties = {}
  slot : NodeSlot s.slot after

/-- In a vacant slot nothing is left to be filled, and a token of a node is taken for one. -/
theorem run_node {s' : State} {t : Token} (h : Vacant s after)
    (htake : s.takeNode? handles ⟨after, false, false, []⟩ t = some s') :
    State.run handles s (t :: ts) = State.run handles s' ts := by
  obtain ⟨hsettle, hnext, hslot⟩ :
      s.settle t = s ∧ s.take? handles t = some s' ∧ s.slot ≠ .done := by
    obtain ⟨stack, slot, _, anchors, root⟩ := s
    obtain ⟨rfl, hslot⟩ := h
    -- tokens that nothing is taken for are no tokens of a node in brackets
    cases t <;> first
      | cases htake; done
      | cases hslot <;> exact ⟨rfl, htake, nofun⟩
  rw [State.run, hsettle, if_neg hslot, hnext]

theorem start_eq (h : s.properties = {}) : s.start = (s, none) := by
  obtain ⟨stack, slot, _, anchors, root⟩ := s
  subst h
  rfl

theorem run_scalar (h : Vacant s after) (style : Style) (text : String) :
    State.run handles s (.scalar style text :: ts) =
      State.run handles (s.supply after none (.scalar (scalarOf style none text))) ts := by
  refine run_node h ?_
  rw [State.takeNode?, State.supplyScalar, start_eq h.properties, h.properties]
  rfl

/-- A token of a node in brackets opens its collection. -/
theorem run_open {t : Token} {body : Body} {slot : Slot} (h : Vacant s after)
    (hopen : s.takeNode? handles ⟨after, false, false, []⟩ t = some (s.openFrame after body slot)) :
    State.run handles s (t :: ts) =
      State.run handles { s with stack := ⟨body, after, none⟩ :: s.stack, slot := slot } ts := by
  rw [run_node h hopen, State.openFrame, start_eq h.properties]

/-- A sign that is no part of a node leads to the next slot. -/
theorem run_sign {t : Token} {slot : Slot} (hproperties : s.properties = {})
    (hslot : State.nextSlot? s.slot t = some slot) :
    State.run handles s (t :: ts) = State.run handles { s with slot := slot } ts := by
  obtain ⟨stack, _, _, anchors, root⟩ := s
  subst hproperties
  dsimp only at hslot
  unfold State.nextSlot? at hslot
  split at hslot <;> cases hslot <;> rfl

/-- A collection ends, after a part or without any. -/
theorem run_end {t : Token} {body : Body} (hproperties : s.properties = {})
    (hend : State.isEnd s.slot t = true) (hstack : s.stack = ⟨body, after, none⟩ :: stack) :
    State.run handles s (t :: ts) =
      State.run handles (({ s with stack := stack } : State).supply after none body.node) ts := by
  obtain ⟨_, slot, _, anchors, root⟩ := s
  subst hproperties hstack
  dsimp only at hend
  unfold State.isEnd at hend
  split at hend <;> first
    | cases hend; done
    | rfl

/-- A key is read up to the place of its value. -/
theorem run_key {entries : List (Node × Node)} (hproperties : s.properties = {})
    (hslot : s.slot = .flowKey) (hstack : s.stack = ⟨.mapping entries none, after, none⟩ :: stack)
    (key : String) :
    State.run handles s (.key :: .scalar .quoted key :: .value :: ts) =
      State.run handles { s with
        stack := ⟨.mapping entries (some (.scalar (dialect.text key))), after, none⟩ :: stack
        slot := .flowValueNode } ts := by
  let next : State := { s with
    stack := ⟨.mapping entries (some (.scalar (dialect.text key))), after, none⟩ :: stack
    slot := .flowValue }
  have hsupply : ({ s with slot := .flowKeyNode } : State).supply .flowValue none
      (.scalar (dialect.text key)) = next := by
    simp only [State.supply, hstack]
    rfl
  have hscalar : ∀ ts, State.run handles { s with slot := .flowKeyNode } (.scalar .quoted key :: ts) =
      State.run handles next ts := fun ts =>
    hsupply ▸ @run_scalar handles { s with slot := .flowKeyNode } _ ts ⟨hproperties, .key⟩ .quoted key
  rw [run_sign hproperties (by rw [hslot]; rfl), hscalar,
    @run_sign handles next ts _ _ hproperties rfl]

/-- The tokens of a datum are taken for its node, wherever in brackets it stands. -/
def RunsOn (d : Datum) : Prop :=
  ∀ handles (s : State) after ts, Vacant s after → State.run handles s (tokensOf d ++ ts) =
    State.run handles (s.supply after none (d.node dialect)) ts

theorem run_items {items : List Datum} (hitems : ∀ d ∈ items, RunsOn d) (hne : items ≠ [])
    (hproperties : s.properties = {}) (hslot : s.slot = .flowItem) (acc : List Node)
    (hstack : s.stack = ⟨.sequence acc, after, none⟩ :: stack) :
    State.run handles s (commaTokens (items.map tokensOf) ++ .flowSequenceEnd :: ts) =
      State.run handles (({ s with stack := stack } : State).supply after none
        (.ofList (acc.reverse ++ items.map (Datum.node dialect)))) ts := by
  induction items generalizing s acc with
  | nil => exact absurd rfl hne
  | cons d ds ih =>
    obtain ⟨hd, hds⟩ := List.forall_mem_cons.mp hitems
    let next : State :=
      { s with stack := ⟨.sequence (d.node dialect :: acc), after, none⟩ :: stack, slot := .flowItemEnd }
    have hsupply : s.supply .flowItemEnd none (d.node dialect) = next := by
      simp only [State.supply, hstack]
      rfl
    have hfirst : ∀ ts, State.run handles s (tokensOf d ++ ts) = State.run handles next ts :=
      fun ts => hsupply ▸ hd handles s .flowItemEnd ts ⟨hproperties, hslot ▸ .item⟩
    cases ds with
    | nil =>
      have hend := @run_end handles next after stack ts .flowSequenceEnd _ hproperties rfl rfl
      rw [Body.node, List.reverse_cons] at hend
      exact (hfirst _).trans hend
    | cons e es =>
      have hrest := @ih { next with slot := .flowItem } hds (List.cons_ne_nil _ _) hproperties rfl _ rfl
      rw [List.reverse_cons, List.append_assoc] at hrest
      rw [List.map_cons, List.map_cons, commaTokens_cons, List.append_assoc, hfirst]
      exact (@run_sign handles next _ _ _ hproperties rfl).trans hrest

theorem run_entries {entries : List (String × Datum)} (hentries : ∀ entry ∈ entries, RunsOn entry.2)
    (hne : entries ≠ []) (hproperties : s.properties = {}) (hslot : s.slot = .flowKey)
    (acc : List (Node × Node)) (hstack : s.stack = ⟨.mapping acc none, after, none⟩ :: stack) :
    State.run handles s (commaTokens (entries.map fun entry => entryTokens (entry.1, tokensOf entry.2)) ++
        .flowMappingEnd :: ts) =
      State.run handles (({ s with stack := stack } : State).supply after none
        (.ofEntries (acc.reverse ++ entries.map fun entry =>
          (.scalar (dialect.text entry.1), entry.2.node dialect)))) ts := by
  induction entries generalizing s acc with
  | nil => exact absurd rfl hne
  | cons entry entries ih =>
    obtain ⟨hentry, hentries⟩ := List.forall_mem_cons.mp hentries
    let acc' := (.scalar (dialect.text entry.1), entry.2.node dialect) :: acc
    let keyed : State := { s with
      stack := ⟨.mapping acc (some (.scalar (dialect.text entry.1))), after, none⟩ :: stack
      slot := .flowValueNode }
    let next : State := { s with stack := ⟨.mapping acc' none, after, none⟩ :: stack, slot := .flowKeyEnd }
    have hfirst : ∀ ts, State.run handles s (entryTokens (entry.1, tokensOf entry.2) ++ ts) =
        State.run handles next ts := fun ts =>
      (run_key hproperties hslot hstack entry.1).trans
        (hentry handles keyed .flowKeyEnd ts ⟨hproperties, .value⟩)
    cases entries with
    | nil =>
      have hend := @run_end handles next after stack ts .flowMappingEnd _ hproperties rfl rfl
      rw [Body.node, List.reverse_cons] at hend
      exact (hfirst _).trans hend
    | cons other others =>
      have hrest := @ih { next with slot := .flowKey } hentries (List.cons_ne_nil _ _) hproperties rfl
        acc' rfl
      rw [List.reverse_cons, List.append_assoc] at hrest
      rw [List.map_cons, List.map_cons, commaTokens_cons, List.append_assoc, hfirst]
      exact (@run_sign handles next _ _ _ hproperties rfl).trans hrest

/-- Data are read as their nodes. -/
theorem runsOn {kind : Int → Prop} {n : Nat} {d : Datum} (h : d.Fits kind n) : RunsOn d := by
  induction h with
  | text => exact fun handles s after ts hs => run_scalar hs .quoted _
  | integer => exact fun handles s after ts hs => run_scalar hs .plain _
  | @list n items _ ih =>
    intro handles s after ts hs
    let opened : State := { s with stack := ⟨.sequence [], after, none⟩ :: s.stack, slot := .flowItem }
    rw [tokensOf_list, Datum.node_list, List.cons_append, List.append_assoc, run_open hs rfl]
    by_cases hne : items = []
    · subst hne
      exact run_end (s := opened) hs.properties rfl rfl
    · exact run_items (s := opened) ih hne hs.properties rfl [] rfl
  | @table n entries _ _ _ ih =>
    intro handles s after ts hs
    let opened : State := { s with stack := ⟨.mapping [] none, after, none⟩ :: s.stack, slot := .flowKey }
    have hentries : (dialect.order (entries.map fun entry => (entry.1, entry.2.node dialect))).map
        (fun entry => (Node.scalar (dialect.text entry.1), entry.2)) =
          entries.map fun entry => (.scalar (dialect.text entry.1), entry.2.node dialect) :=
      List.map_map
    rw [tokensOf_table, Datum.node_table, hentries, List.cons_append, List.append_assoc,
      run_open hs rfl]
    by_cases hne : entries = []
    · subst hne
      exact run_end (s := opened) hs.properties rfl rfl
    · exact run_entries (s := opened) ih hne hs.properties rfl [] rfl

end Reading

/-! ## Whole texts -/

theorem isPlain_commaList {texts : List (List Char)} (h : ∀ t ∈ texts, ∀ c ∈ t, IsPlain c) :
    ∀ c ∈ commaList texts, IsPlain c := by
  induction texts with
  | nil => exact nofun
  | cons t ts ih =>
    obtain ⟨ht, hts⟩ := List.forall_mem_cons.mp h
    cases ts with
    | nil => exact ht
    | cons u us =>
      rw [commaList_cons, List.forall_mem_append, List.forall_mem_cons, List.forall_mem_cons]
      exact ⟨ht, by simp [IsPlain], by simp [IsPlain], ih hts⟩

theorem isPlain_quote {text : String} (h : ∀ c ∈ text.toList, IsPlain c) :
    ∀ c ∈ quote text, IsPlain c := by
  rw [quote, List.forall_mem_cons, List.forall_mem_append]
  exact ⟨by simp [IsPlain], isPlain_escape h, by simp [IsPlain]⟩

/-- A line of JSON is plain. -/
theorem isPlain_json {kind : Int → Prop} {n : Nat} {d : Datum} (h : d.Fits kind n) :
    ∀ c ∈ d.json, IsPlain c := by
  induction h with
  | text htext => exact isPlain_quote htext
  | integer => exact fun c hc => isPlain_of_signed (Text.isDigit_of_mem_signed hc)
  | list _ ih =>
    rw [Datum.json_list, List.forall_mem_cons, List.forall_mem_append]
    refine ⟨by simp [IsPlain], isPlain_commaList ?_, by simp [IsPlain]⟩
    exact List.forall_mem_map.mpr ih
  | table hkeys _ _ ih =>
    rw [Datum.json_table, List.forall_mem_cons, List.forall_mem_append]
    refine ⟨by simp [IsPlain], isPlain_commaList ?_, by simp [IsPlain]⟩
    refine List.forall_mem_map.mpr fun entry hentry => ?_
    rw [List.forall_mem_append, List.forall_mem_cons, List.forall_mem_cons]
    exact ⟨isPlain_quote fun c hc => .of_isLower ((hkeys entry hentry).2.2 c hc), by simp [IsPlain],
      by simp [IsPlain], ih entry hentry⟩

theorem isAllowed_of_isPlain {c : Char} (h : IsPlain c) : isAllowed c = true := by
  simp [isAllowed, h.1, h.2]

/-- A line of JSON is a document of YAML that holds the node of the data. -/
theorem documentOf_json {kind : Int → Prop} {n : Nat} {entries : List (String × Datum)}
    (h : (Datum.table entries).Fits kind n) :
    documentOf (String.ofList (Datum.table entries).json) =
      { root := (Datum.table entries).node dialect } := by
  have hallowed : (Datum.table entries).json.all isAllowed = true :=
    List.all_eq_true.mpr fun c hc => isAllowed_of_isPlain (isPlain_json h c hc)
  have hrun := runsOn h coreHandles {} .done [.streamEnd] ⟨rfl, .root⟩
  simp only [documentOf, String.toList_ofList, if_pos hallowed, scan_json h]
  rw [tokensOf_table] at hrun ⊢
  exact hrun

/-- The line of JSON of a wide schema of plain texts is read as a schema, as YAML, exactly if that is
the one of its integers. -/
theorem schemaOf_eq_ok_iff {w : WideSchema} (h : ∀ s ∈ w.texts, ∀ c ∈ s.toList, IsPlain c)
    (schema : Schema) : schemaOf w.jsonText = .ok schema ↔ schema.wide = w := by
  have hblank : Text.isBlankText w.datum.json = false := by
    rw [WideSchema.datum, Datum.json_table, Text.isBlankText, List.all_cons]
    rfl
  have hfits := WideSchema.fits_datum (w.fits_lists_any h)
  rw [schemaOf, WideSchema.jsonText, String.toList_ofList, hblank, WideSchema.datum,
    documentOf_json hfits]
  exact readSchema_eq_ok_iff rfl rfl

end SchemaHeaders.Yaml
