import SchemaHeaders.Proofs.JsonGrammar
import SchemaHeaders.Proofs.WideSchema

/-!
# Data on one line of JSON

`Datum.json` writes data on one line, with a space after each comma and each colon. In strings only
quotes and backslashes are escaped, so the texts of the data must be plain.

The line spells the value of the data (`spells_json`), whose node is that of the data in a dialect
(`nodeOf_value`). So the line of a wide schema is read as a schema exactly if that is the one of its
integers (`Json.schemaOf_eq_ok_iff`).
-/

namespace SchemaHeaders

open Document (Node)

/-! ## Writing -/

/-- A text with its quotes and backslashes escaped. -/
def escape (text : List Char) : List Char :=
  text.flatMap fun c => if c = '"' ∨ c = '\\' then ['\\', c] else [c]

/-- A text between quotes. -/
def quote (text : String) : List Char := '"' :: (escape text.toList ++ ['"'])

/-- Texts with a comma and a space between them. -/
def commaList : List (List Char) → List Char
  | [] => []
  | [t] => t
  | t :: ts => t ++ ',' :: ' ' :: commaList ts

/-- JSON on one line. -/
def jsonShape : Shape (List Char) where
  text := quote
  integer := Text.signed
  list items := '[' :: (commaList items ++ [']'])
  table entries :=
    '{' :: (commaList (entries.map fun entry => quote entry.1 ++ ':' :: ' ' :: entry.2) ++ ['}'])

/-- A datum as a line of JSON. -/
def Datum.json (d : Datum) : List Char := d.fold jsonShape

/-- A schema as a line of JSON. -/
def Schema.jsonText (schema : Schema) : String := String.ofList schema.datum.json

/-- A wide schema as a line of JSON. -/
def WideSchema.jsonText (w : WideSchema) : String := String.ofList w.datum.json

theorem Schema.jsonText_wide (schema : Schema) : schema.wide.jsonText = schema.jsonText := by
  rw [WideSchema.jsonText, schema.datum_wide, jsonText]

theorem Datum.json_list (items : List Datum) :
    (list items).json = '[' :: (commaList (items.map json) ++ [']']) :=
  fold_list jsonShape items

theorem Datum.json_table (entries : List (String × Datum)) : (table entries).json =
    '{' :: (commaList (entries.map fun entry => quote entry.1 ++ ':' :: ' ' :: entry.2.json) ++
      ['}']) := by
  rw [json, fold_table]
  exact congrArg (fun texts => '{' :: (commaList texts ++ ['}'])) List.map_map

theorem escape_cons (c : Char) (cs : List Char) :
    escape (c :: cs) = (if c = '"' ∨ c = '\\' then ['\\', c] else [c]) ++ escape cs :=
  List.flatMap_cons

theorem commaList_cons (t u : List Char) (ts : List (List Char)) :
    commaList (t :: u :: ts) = t ++ ',' :: ' ' :: commaList (u :: ts) := rfl

/-- A word of letters needs no escapes. -/
theorem escape_key {cs : List Char} (h : ∀ c ∈ cs, c.isLower = true) : escape cs = cs := by
  induction cs with
  | nil => rfl
  | cons c cs ih =>
    have hc := h c (List.mem_cons_self ..)
    have hne : ¬ (c = '"' ∨ c = '\\') := by
      rintro (rfl | rfl) <;> exact absurd hc (by decide)
    rw [escape_cons, if_neg hne, ih fun c hc => h c (List.mem_cons_of_mem _ hc)]
    rfl

theorem IsPlain.of_isLower {c : Char} (h : c.isLower = true) : IsPlain c := by
  obtain ⟨hlow, hhigh⟩ := Text.toNat_of_isLower h
  exact ⟨by omega, by omega⟩

namespace Json

/-! ## The value -/

/-- The JSON value of data. -/
def valueShape : Shape Value where
  text s := .text (escape s.toList)
  integer z := .number (Text.signed z)
  list := .array
  table entries := .object (entries.map fun entry => (escape entry.1.toList, entry.2))

/-- What is escaped says the text. -/
theorem says_escape {cs : List Char} (h : ∀ c ∈ cs, IsPlain c) : Says cs (escape cs) := by
  induction cs with
  | nil => exact .nil
  | cons c cs ih =>
    have hrest := ih fun c hc => h c (List.mem_cons_of_mem _ hc)
    rw [escape_cons]
    split
    case isTrue hc =>
      have hescape : (c, c) ∈ shortEscapes := by
        rcases hc with rfl | rfl <;> decide
      exact .short hescape hrest
    case isFalse hc =>
      rw [not_or] at hc
      exact .raw ⟨hc.1, hc.2, (h c (List.mem_cons_self ..)).1⟩ hrest

/-- What spells each of some values spells them between commas. -/
theorem elements_commaList {values : List Value} {texts : List (List Char)}
    (h : List.Forall₂ Spells values texts) (hne : values ≠ []) {gap : List Char} (hgap : IsGap gap) :
    Elements values (gap ++ commaList texts) := by
  induction h generalizing gap with
  | nil => exact absurd rfl hne
  | cons hvalue hrest ih =>
    have helement := Element.mk hgap hvalue isGap_nil
    cases hrest with
    | nil =>
      rw [List.append_nil] at helement
      exact .one helement
    | cons hnext hrest =>
      have hmore := Elements.more helement (ih (List.cons_ne_nil _ _) isGap_space)
      simpa [commaList] using hmore

/-- What spells the value of each of some members spells them between commas. -/
theorem members_commaList {members : List (List Char × Value)} {texts : List (List Char)}
    (h : List.Forall₂ (fun member text => ∃ cs, IsText member.1 ∧ Spells member.2 cs ∧
      text = '"' :: (member.1 ++ ['"']) ++ ':' :: ' ' :: cs) members texts)
    (hne : members ≠ []) {gap : List Char} (hgap : IsGap gap) :
    Members members (gap ++ commaList texts) := by
  induction h generalizing gap with
  | nil => exact absurd rfl hne
  | @cons member text members texts hmember hrest ih =>
    obtain ⟨cs, hkey, hvalue, rfl⟩ := hmember
    have hmember : Member member _ := Member.mk hgap hkey isGap_nil hvalue.element_space
    cases hrest with
    | nil => simpa [commaList] using Members.one hmember
    | cons hnext hrest =>
      have hmore := Members.more hmember (ih (List.cons_ne_nil _ _) isGap_space)
      simpa [commaList] using hmore

/-- A line of JSON spells the value of the data. -/
theorem spells_json {kind : Int → Prop} {n : Nat} {d : Datum} (h : d.Fits kind n) :
    Spells (d.fold valueShape) d.json := by
  induction h with
  | text hs => exact .text (says_escape hs).isText
  | integer => exact .number (isNumber_signed _)
  | @list n items _ ih =>
    rw [Datum.json, Datum.fold_list, Datum.fold_list]
    by_cases hitems : items = []
    · subst hitems
      exact .noItems isGap_nil
    · refine .items (elements_commaList ?_ (by simpa using hitems) isGap_nil)
      rw [List.forall₂_map_left_iff, List.forall₂_map_right_iff]
      exact List.forall₂_same.mpr ih
  | @table n entries hkeys _ _ ih =>
    rw [Datum.json, Datum.fold_table, Datum.fold_table]
    by_cases hentries : entries = []
    · subst hentries
      exact .noMembers isGap_nil
    · refine .members (members_commaList ?_ (by simpa using hentries) isGap_nil)
      rw [List.map_map, List.forall₂_map_left_iff, List.map_map, List.forall₂_map_right_iff]
      refine List.forall₂_same.mpr fun entry hentry => ⟨_, ?_, ih entry hentry, rfl⟩
      exact (says_escape fun c hc => .of_isLower ((hkeys entry hentry).2.2 c hc)).isText

/-! ## The node -/

/-- JSON takes a text and an integer for nothing else, and keeps the order of keys. -/
def dialect : Dialect := .strict id fun entries => .refl (id entries)

/-- The value of data is read as their node. -/
theorem nodeOf_value {kind : Int → Prop} {n : Nat} {d : Datum} (h : d.Fits kind n) :
    nodeOf (d.fold valueShape) = d.node dialect := by
  have htext : ∀ s : String, (∀ c ∈ s.toList, IsPlain c) →
      contentOf (escape s.toList) = some s := fun s hs => by
    rw [contentOf_of_spelling (says_escape hs), String.ofList_toList]
  induction h with
  | @text _ s hs =>
    simp [Datum.node, Datum.fold, valueShape, nodeOf, htext s hs, Dialect.shape, dialect,
      Dialect.strict]
  | integer =>
    simp [Datum.node, Datum.fold, valueShape, nodeOf, integerOf_signed, Dialect.shape, dialect,
      Dialect.strict, Node.ofInt]
  | @list n items _ ih =>
    rw [Datum.node, Datum.fold_list, Datum.fold_list, valueShape, nodeOf, nodesOf_eq_map, List.map_map]
    exact congrArg (Node.list · true) (List.map_congr_left ih)
  | @table n entries hkeys _ _ ih =>
    rw [Datum.node, Datum.fold_table, Datum.fold_table, valueShape, nodeOf, entriesOf_eq_map,
      List.map_map, List.map_map]
    simp only [Dialect.shape, dialect, Dialect.strict, id, List.map_map]
    refine congrArg (Node.table · true) (List.map_congr_left fun entry hentry => ?_)
    have hkey := htext entry.1 fun c hc => .of_isLower ((hkeys entry hentry).2.2 c hc)
    exact Prod.ext (by simp [hkey]) (ih entry hentry)

/-- The line of JSON of a wide schema of plain texts is read as a schema exactly if that is the one of
its integers. -/
theorem schemaOf_eq_ok_iff {w : WideSchema} (h : ∀ s ∈ w.texts, ∀ c ∈ s.toList, IsPlain c)
    (schema : Schema) : schemaOf w.jsonText = .ok schema ↔ schema.wide = w := by
  have hfits := WideSchema.fits_datum (w.fits_lists_any h)
  rw [schemaOf, WideSchema.jsonText, String.toList_ofList,
    ofTokens_of_element (spells_json hfits).element]
  exact readSchema_eq_ok_iff (nodeOf_value hfits).symm rfl

end Json

end SchemaHeaders
