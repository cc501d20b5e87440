import SchemaHeaders.Proofs.Characters
import SchemaHeaders.Proofs.Records

/-!
# Schemas as plain data

A schema is written down in a document as a tree of texts, integers, lists and tables
(`Schema.datum`), and each format writes and reads such a tree in its own way, but always part by
part : what a format makes of a tree is a `fold`.

A `Dialect` is what a format takes texts and integers for, and in which order it keeps the keys of
a table. Whatever the dialect, a document that holds the tree of a schema is read as that schema
(`readSchema_of_datum`).
-/

namespace SchemaHeaders

open Document (Node Scalar valuesOf Gives Holds Named readText readOptional readList readValue
  readLength readMember readEnum readField readStruct readSchema ListForm)

/-! ## Data -/

/-- Plain data, with the keys of each table in order. -/
inductive Datum where
  | text (text : String)
  | integer (value : Int)
  | list (items : List Datum)
  | table (entries : List (String × Datum))

/-- What is made of data part by part. -/
structure Shape (β : Type) where
  text : String → β
  integer : Int → β
  list : List β → β
  table : List (String × β) → β

namespace Datum

variable {β : Type}

mutual

/-- What a shape makes of a datum. -/
def fold (shape : Shape β) : Datum → β
  | text s => shape.text s
  | integer z => shape.integer z
  | list items => shape.list (foldItems shape items)
  | table entries => shape.table (foldEntries shape entries)

/-- What a shape makes of the items of a list. -/
def foldItems (shape : Shape β) : List Datum → List β
  | [] => []
  | d :: ds => d.fold shape :: foldItems shape ds

/-- What a shape makes of the entries of a table. -/
def foldEntries (shape : Shape β) : List (String × Datum) → List (String × β)
  | [] => []
  | (key, d) :: entries => (key, d.fold shape) :: foldEntries shape entries

end

theorem foldItems_eq_map (shape : Shape β) (items : List Datum) :
    foldItems shape items = items.map (fold shape) := by
  induction items with
  | nil => rfl
  | cons d ds ih => rw [foldItems, ih]; rfl

theorem foldEntries_eq_map (shape : Shape β) (entries : List (String × Datum)) :
    foldEntries shape entries = entries.map fun entry => (entry.1, entry.2.fold shape) := by
  induction entries with
  | nil => rfl
  | cons entry entries ih => rw [foldEntries, ih]; rfl

theorem fold_list (shape : Shape β) (items : List Datum) :
    (list items).fold shape = shape.list (items.map (fold shape)) := by
  rw [fold, foldItems_eq_map]

theorem fold_table (shape : Shape β) (entries : List (String × Datum)) :
    (table entries).fold shape =
      shape.table (entries.map fun entry => (entry.1, entry.2.fold shape)) := by
  rw [fold, foldEntries_eq_map]

end Datum

/-! ## Schemas -/

/-- The entry of a key whose value may be absent. -/
def optionalEntry {α : Type} (key : String) (value : Option α) (datum : α → Datum) :
    List (String × Datum) :=
  (value.map fun x => (key, datum x)).toList

/-- A member of an enum as plain data. -/
def EnumMember.datum (m : EnumMember) : Datum :=
  .table (("name", .text m.name) :: optionalEntry "value" m.value fun z => .integer z.toInt)

/-- An enum as plain data. -/
def EnumEntry.datum (e : EnumEntry) : Datum :=
  .table (("name", .text e.name) :: (optionalEntry "type" e.underlying .text ++
    [("values", .list (e.members.map EnumMember.datum))]))

/-- A field of a struct as plain data. -/
def Field.datum (f : Field) : Datum :=
  .table (("name", .text f.name) :: ("type", .text f.typeName) ::
    optionalEntry "length" f.length fun n => .integer n.toNat)

/-- A struct as plain data. -/
def StructEntry.datum (s : StructEntry) : Datum :=
  .table [("name", .text s.name), ("fields", .list (s.fields.map Field.datum))]

/-- The entries of a schema as plain data. -/
def Schema.entries (schema : Schema) : List (String × Datum) :=
  [("enum", .list (schema.enums.map EnumEntry.datum)),
    ("struct", .list (schema.structs.map StructEntry.datum))]

/-- A schema as plain data. -/
def Schema.datum (schema : Schema) : Datum := .table schema.entries

/-! ## Data that can be written on one line -/

/-- A printable character of ASCII. -/
def IsPlain (c : Char) : Prop := 0x20 ≤ c.toNat ∧ c.toNat ≤ 0x7E

instance (c : Char) : Decidable (IsPlain c) := inferInstanceAs (Decidable (_ ∧ _))

/-- A short word of lower case letters. -/
def IsKey (key : String) : Prop :=
  key.toList ≠ [] ∧ key.toList.length ≤ 1000 ∧ ∀ c ∈ key.toList, c.isLower = true

instance (key : String) : Decidable (IsKey key) := inferInstanceAs (Decidable (_ ∧ _))

/-- Data of plain texts, of integers of some kind, and of lists and tables within one another up to a
depth, where the keys of a table are distinct. -/
inductive Datum.Fits (kind : Int → Prop) : Nat → Datum → Prop
  | text {n : Nat} {s : String} : (∀ c ∈ s.toList, IsPlain c) → Fits kind n (.text s)
  | integer {n : Nat} {z : Int} : kind z → Fits kind n (.integer z)
  | list {n : Nat} {items : List Datum} : (∀ d ∈ items, Fits kind n d) →
      Fits kind (n + 1) (.list items)
  | table {n : Nat} {entries : List (String × Datum)} : (∀ entry ∈ entries, IsKey entry.1) →
      (∀ entry ∈ entries, Fits kind n entry.2) → (entries.map (·.1)).Nodup →
      Fits kind (n + 1) (.table entries)

/-- The texts of a schema. -/
def Schema.texts (schema : Schema) : List String :=
  schema.enums.flatMap (fun e => e.name :: (e.underlying.toList ++ e.members.map (·.name))) ++
    schema.structs.flatMap fun s => s.name :: s.fields.flatMap fun f => [f.name, f.typeName]

theorem mem_optionalEntry {α : Type} {key : String} {value : Option α} {datum : α → Datum}
    {entry : String × Datum} :
    entry ∈ optionalEntry key value datum ↔ ∃ x, value = some x ∧ entry = (key, datum x) := by
  cases value <;> simp [optionalEntry]

/-! ## Reading -/

/-- What a format takes texts and integers for, and the order in which it keeps the entries of a
table. -/
structure Dialect where
  text : String → Scalar
  integer : Int → Scalar
  order : List (String × Node) → List (String × Node)
  text_text : ∀ s, (text s).text = some s
  text_present : ∀ s, (text s).absent = false ∧ (text s).optional = true
  integer_integer : ∀ z, (integer z).integer = some z
  integer_natural : ∀ z, (integer z).natural = if 0 ≤ z then some z.toNat else none
  integer_present : ∀ z, (integer z).absent = false ∧ (integer z).optional = true
  order_perm : ∀ entries, (order entries).Perm entries

/-- The dialect of a format that takes a text and an integer for nothing else. -/
def Dialect.strict (order : List (String × Node) → List (String × Node))
    (order_perm : ∀ entries, (order entries).Perm entries) : Dialect where
  text s := { text := some s }
  integer z := { integer := some z, natural := if 0 ≤ z then some z.toNat else none }
  order := order
  text_text _ := rfl
  text_present _ := ⟨rfl, rfl⟩
  integer_integer _ := rfl
  integer_natural _ := rfl
  integer_present _ := ⟨rfl, rfl⟩
  order_perm := order_perm

/-- The node that a dialect has for data. -/
def Dialect.shape (dialect : Dialect) : Shape Node where
  text s := .scalar (dialect.text s)
  integer z := .scalar (dialect.integer z)
  list items := .list items true
  table entries :=
    .table ((dialect.order entries).map fun entry => (.scalar (dialect.text entry.1), entry.2)) true

/-- The node of a datum in a dialect. -/
def Datum.node (dialect : Dialect) (d : Datum) : Node := d.fold dialect.shape

section Reading

variable {α : Type} {dialect : Dialect} {doc : Document} {form : ListForm}

theorem Datum.whole_node (d : Datum) : (d.node dialect).whole = true := by
  cases d <;> rfl

theorem Datum.node_list (items : List Datum) :
    (list items).node dialect = .ofList (items.map (Datum.node dialect)) := by
  rw [node, fold_list, Node.ofList]
  refine congrArg₂ Node.list rfl (List.all_eq_true.mpr fun node hnode => ?_).symm
  obtain ⟨d, -, rfl⟩ := List.mem_map.mp hnode
  exact d.whole_node

theorem Datum.node_table (entries : List (String × Datum)) :
    (table entries).node dialect =
      .ofEntries ((dialect.order (entries.map fun entry => (entry.1, entry.2.node dialect))).map
        fun entry => (.scalar (dialect.text entry.1), entry.2)) := by
  rw [node, fold_table, Node.ofEntries]
  refine congrArg₂ Node.table rfl (List.all_eq_true.mpr fun entry hentry => ?_).symm
  obtain ⟨entry, hmem, rfl⟩ := List.mem_map.mp hentry
  rw [(dialect.order_perm _).mem_iff] at hmem
  obtain ⟨entry, -, rfl⟩ := List.mem_map.mp hmem
  exact entry.2.whole_node

theorem readText_node (doc : Document) (s : String) :
    readText doc ((Datum.text s).node dialect) = .ok s := by
  simp [readText, Document.resolve, Datum.node, Datum.fold, Dialect.shape, dialect.text_text]

theorem readValue_node (doc : Document) (z : Int64) :
    readValue doc ((Datum.integer z.toInt).node dialect) = .ok z := by
  simp only [readValue, Document.readInteger, Document.resolve, Datum.node, Datum.fold, Dialect.shape,
    dialect.integer_integer]
  rw [if_pos ⟨z.minValue_le_toInt, z.toInt_le⟩]
  simp

theorem readLength_node (doc : Document) (n : UInt32) :
    readLength doc ((Datum.integer n.toNat).node dialect) = .ok n := by
  have hn := n.toNat_lt_size
  simp only [readLength, Document.readNatural, Document.resolve, Datum.node, Datum.fold,
    Dialect.shape, dialect.integer_natural, Int.natCast_nonneg, if_true, Int.toNat_natCast]
  rw [if_pos (by omega)]
  simp

/-- What is there is read where it might be absent. -/
theorem readOptional_node {read : Node → Except Complaint α} {d : Datum} {x : α}
    (hd : (∃ s, d = .text s) ∨ ∃ z, d = .integer z) (h : read (d.node dialect) = .ok x) :
    readOptional doc read (d.node dialect) = .ok (some x) := by
  rcases hd with ⟨s, rfl⟩ | ⟨z, rfl⟩
  · obtain ⟨habsent, hoptional⟩ := dialect.text_present s
    simp only [Datum.node, Datum.fold, Dialect.shape] at h
    simp [readOptional, Document.resolve, Datum.node, Datum.fold, Dialect.shape, habsent, hoptional, h]
  · obtain ⟨habsent, hoptional⟩ := dialect.integer_present z
    simp only [Datum.node, Datum.fold, Dialect.shape] at h
    simp [readOptional, Document.resolve, Datum.node, Datum.fold, Dialect.shape, habsent, hoptional, h]

theorem readList_node {read : Node → Except Complaint α} {datum : α → Datum} (xs : List α)
    (h : ∀ x, read ((datum x).node dialect) = .ok x) :
    readList doc read ((Datum.list (xs.map datum)).node dialect) = .ok xs := by
  rw [Datum.node, Datum.fold_list]
  refine Document.readList_ok rfl ?_
  rw [List.map_map, List.forall₂_map_left_iff]
  exact List.forall₂_same.mpr fun x _ => h x

/-- A table is read by its keys, whatever the order in which they are kept. -/
theorem holds_node (entries : List (String × Datum)) :
    ∃ named : List (String × Node), Holds doc ((Datum.table entries).node dialect) named ∧
      ∀ key, (valuesOf key named).Perm ((valuesOf key entries).map (Datum.node dialect)) := by
  refine ⟨dialect.order (entries.map fun entry => (entry.1, entry.2.node dialect)), ⟨?_, ?_⟩, ?_⟩
  · rw [Datum.node, Datum.fold_table]
    refine ⟨_, rfl, ?_⟩
    rw [Named, List.forall₂_map_left_iff]
    refine List.forall₂_same.mpr fun entry _ => ⟨?_, rfl⟩
    exact readText_node doc entry.1
  · intro entry hentry
    rw [(dialect.order_perm _).mem_iff] at hentry
    obtain ⟨entry, -, rfl⟩ := List.mem_map.mp hentry
    exact entry.2.whole_node
  · intro key
    have hperm := ((dialect.order_perm (entries.map fun entry =>
      (entry.1, entry.2.node dialect))).filter (·.1 = key)).map (·.2)
    simpa [valuesOf, List.filter_map, Function.comp_def] using hperm

theorem gives_one {read : Node → Except Complaint α} {nodes : List Node} {x : α} {d : Datum}
    (hnodes : nodes.Perm ([d].map (Datum.node dialect))) (h : read (d.node dialect) = .ok x) :
    Gives read nodes (some x) := by
  rw [List.perm_singleton.mp hnodes]
  exact .one h

/-- What an entry that may be absent gives. -/
theorem gives_optional {read : Node → Except Complaint α} {nodes : List Node} {value : Option α}
    {datum : α → Datum}
    (hnodes : nodes.Perm ((value.map datum).toList.map (Datum.node dialect)))
    (hdatum : ∀ x, (∃ s, datum x = .text s) ∨ ∃ z, datum x = .integer z)
    (h : ∀ x, read ((datum x).node dialect) = .ok x) :
    ∃ given, Gives (readOptional doc read) nodes given ∧ given.getD none = value := by
  cases value with
  | none =>
    rw [List.perm_nil.mp hnodes]
    exact ⟨none, .nothing, rfl⟩
  | some x => exact ⟨some (some x), gives_one hnodes (readOptional_node (hdatum x) (h x)), rfl⟩

theorem valuesOf_cons {β : Type} (key name : String) (value : β) (entries : List (String × β)) :
    valuesOf key ((name, value) :: entries) =
      if name = key then value :: valuesOf key entries else valuesOf key entries := by
  split
  case isTrue h => rw [h, Document.valuesOf_cons_self]
  case isFalse h => exact Document.valuesOf_cons_of_ne h value entries

theorem valuesOf_nil {β : Type} (key : String) : valuesOf key ([] : List (String × β)) = [] := rfl

theorem valuesOf_append {β : Type} (key : String) (entries entries' : List (String × β)) :
    valuesOf key (entries ++ entries') = valuesOf key entries ++ valuesOf key entries' := by
  simp [valuesOf]

theorem valuesOf_optionalEntry (key name : String) (value : Option α) (datum : α → Datum) :
    valuesOf key (optionalEntry name value datum) =
      if name = key then (value.map datum).toList else [] := by
  cases value with
  | none => simp [optionalEntry, valuesOf]
  | some x => exact valuesOf_cons key name (datum x) []

/-- A member of an enum is read from its node. -/
theorem readMember_node (m : EnumMember) : readMember doc form (m.datum.node dialect) = .ok m := by
  obtain ⟨named, hholds, hvalues⟩ := @holds_node dialect doc
    (("name", .text m.name) :: optionalEntry "value" m.value fun z => .integer z.toInt)
  have hname := hvalues "name"
  have hvalue := hvalues "value"
  simp only [valuesOf_cons, valuesOf_optionalEntry, String.reduceEq, if_true, if_false] at hname hvalue
  obtain ⟨given, hvalue, hgiven⟩ := gives_optional hvalue (fun _ => Or.inr ⟨_, rfl⟩)
    (readValue_node doc)
  rw [EnumMember.datum, Document.readMember_ok hholds (gives_one hname (readText_node doc _)) hvalue,
    hgiven]

/-- An enum is read from its node. -/
theorem readEnum_node (e : EnumEntry) : readEnum doc form (e.datum.node dialect) = .ok e := by
  obtain ⟨named, hholds, hvalues⟩ := @holds_node dialect doc
    (("name", .text e.name) :: (optionalEntry "type" e.underlying .text ++
      [("values", .list (e.members.map EnumMember.datum))]))
  have hname := hvalues "name"
  have hunderlying := hvalues "type"
  have hmembers := hvalues "values"
  simp only [valuesOf_cons, valuesOf_append, valuesOf_optionalEntry, valuesOf_nil, String.reduceEq,
    if_true, if_false, List.append_nil, List.nil_append] at hname hunderlying hmembers
  obtain ⟨given, hunderlying, hgiven⟩ := gives_optional hunderlying (fun _ => Or.inl ⟨_, rfl⟩)
    (readText_node doc)
  rw [EnumEntry.datum, Document.readEnum_ok hholds (gives_one hname (readText_node doc _)) hunderlying
    (gives_one hmembers (readList_node e.members readMember_node)), hgiven, Option.getD_some]

/-- A field of a struct is read from its node. -/
theorem readField_node (f : Field) : readField doc form (f.datum.node dialect) = .ok f := by
  obtain ⟨named, hholds, hvalues⟩ := @holds_node dialect doc
    (("name", .text f.name) :: ("type", .text f.typeName) ::
      optionalEntry "length" f.length fun n => .integer n.toNat)
  have hname := hvalues "name"
  have htypeName := hvalues "type"
  have hlength := hvalues "length"
  simp only [valuesOf_cons, valuesOf_optionalEntry, String.reduceEq, if_true, if_false]
    at hname htypeName hlength
  obtain ⟨given, hlength, hgiven⟩ := gives_optional hlength (fun _ => Or.inr ⟨_, rfl⟩)
    (readLength_node doc)
  rw [Field.datum, Document.readField_ok hholds (gives_one hname (readText_node doc _))
    (gives_one htypeName (readText_node doc _)) hlength, hgiven]

/-- A struct is read from its node. -/
theorem readStruct_node (s : StructEntry) : readStruct doc form (s.datum.node dialect) = .ok s := by
  obtain ⟨named, hholds, hvalues⟩ := @holds_node dialect doc
    [("name", .text s.name), ("fields", .list (s.fields.map Field.datum))]
  have hname := hvalues "name"
  have hfields := hvalues "fields"
  simp only [valuesOf_cons, valuesOf_nil, String.reduceEq, if_true, if_false] at hname hfields
  rw [StructEntry.datum, Document.readStruct_ok hholds (gives_one hname (readText_node doc _))
    (gives_one hfields (readList_node s.fields readField_node)), Option.getD_some]

/-- A document that holds the node of a schema is read as that schema. -/
theorem readSchema_of_datum (schema : Schema) (hroot : schema.datum.node dialect = doc.root)
    (hended : doc.ended = true) : readSchema doc form = .ok schema := by
  obtain ⟨named, hholds, hvalues⟩ := @holds_node dialect doc schema.entries
  have henums := hvalues "enum"
  have hstructs := hvalues "struct"
  simp only [Schema.entries, valuesOf_cons, valuesOf_nil, String.reduceEq, if_true, if_false]
    at henums hstructs
  rw [Document.readSchema_ok hholds hroot hended
    (gives_one henums (readList_node schema.enums readEnum_node))
    (gives_one hstructs (readList_node schema.structs readStruct_node)), Option.getD_some,
    Option.getD_some]

end Reading

end SchemaHeaders
