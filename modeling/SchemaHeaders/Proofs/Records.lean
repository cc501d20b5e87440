import SchemaHeaders.Document.Types
import Mathlib.Data.List.Forall2
import Mathlib.Data.List.Nodup

/-!
# Records in tables

A record is read from a table in whatever order its entries come, with other entries among
them. So it is said key by key what the table holds : `valuesOf key` are the values of a key, in
order, and `Gives` says what is read from them, if there is one or none.

`readEntries_ok` goes through the entries with what is pending for each column of the draft. With it
the records of a schema are read from the values of their keys (`readMember_ok`,
`readEnum_ok`, `readField_ok`, `readStruct_ok`, `readSchema_ok`). The other way round, a record that
is read has had each of its fields read (`put_of_readRecord`), and a list each of its items
(`exists_of_readList`).
-/

namespace SchemaHeaders.Document

variable {doc : Document} {α δ : Type} {form : ListForm}

/-! ## Values of keys -/

/-- The values of a key, in order. -/
def valuesOf {β : Type} (key : String) (entries : List (String × β)) : List β :=
  (entries.filter (·.1 = key)).map (·.2)

theorem valuesOf_cons_self {β : Type} (key : String) (value : β) (entries : List (String × β)) :
    valuesOf key ((key, value) :: entries) = value :: valuesOf key entries := by
  simp [valuesOf]

theorem valuesOf_cons_of_ne {β : Type} {key name : String} (h : name ≠ key) (value : β)
    (entries : List (String × β)) : valuesOf key ((name, value) :: entries) = valuesOf key entries := by
  simp [valuesOf, h]

theorem mem_valuesOf {β : Type} {key : String} {value : β} {entries : List (String × β)} :
    value ∈ valuesOf key entries ↔ (key, value) ∈ entries := by
  simp [valuesOf]

/-- What is read from the values of a key, if there is one or none. -/
inductive Gives (read : Node → Except Complaint α) : List Node → Option α → Prop
  | nothing : Gives read [] none
  | one {node : Node} {x : α} : read node = .ok x → Gives read [node] (some x)

/-- A place of a draft, which holds what was read, or what will be read from the values left. -/
def Pending (read : Node → Except Complaint α) (place : Option α) (left : List Node)
    (result : Option α) : Prop :=
  place = none ∧ Gives read left result ∨ left = [] ∧ place.isSome ∧ place = result

theorem Pending.done {read : Node → Except Complaint α} {place result : Option α}
    (h : Pending read place [] result) : place = result := by
  rcases h with ⟨rfl, h⟩ | ⟨-, -, h⟩
  · cases h
    rfl
  · exact h

/-- A place is filled with what is read from the next value of its key. -/
theorem Pending.fill {read : Node → Except Complaint α} {place result : Option α} {node : Node}
    {left : List Node} (h : Pending read place (node :: left) result) (key : String)
    (store : α → δ) :
    ∃ x, fill key place (read node) store = .ok (store x) ∧ Pending read (some x) left result := by
  rcases h with ⟨rfl, h⟩ | ⟨h, -⟩
  · cases h with
    | one hread => exact ⟨_, by rw [Document.fill, hread]; rfl, Or.inr ⟨rfl, rfl, rfl⟩⟩
  · cases h

/-! ## Entries -/

/-- Entries with the names that their keys are taken for. -/
def Named (doc : Document) : List (Node × Node) → List (String × Node) → Prop :=
  List.Forall₂ fun entry named => readText doc entry.1 = .ok named.1 ∧ entry.2 = named.2

/-- What a draft has of a key, as the values of that key come. -/
structure Column (δ : Type) where
  key : String
  /-- what is true of a draft and the values that are left -/
  pending : δ → List Node → Prop

/-- A value of a key goes into the column of this and leaves the others as they are, and entries with
other keys are passed over. -/
structure Fills (put : String → Node → δ → Option (Except Complaint δ)) (columns : List (Column δ)) :
    Prop where
  distinct : (columns.map Column.key).Nodup
  fill : ∀ column ∈ columns, ∀ draft value left, column.pending draft (value :: left) →
    ∃ next, put column.key value draft = some (.ok next) ∧ column.pending next left ∧
      ∀ other ∈ columns, other.key ≠ column.key → ∀ left,
        other.pending draft left → other.pending next left
  pass : ∀ key, (∀ column ∈ columns, column.key ≠ key) → ∀ value draft, put key value draft = none

/-- Entries are read into the columns of a draft, in whatever order they come. -/
theorem readEntries_ok {put : String → Node → δ → Option (Except Complaint δ)}
    {columns : List (Column δ)} (hfills : Fills put columns)
    {entries : List (Node × Node)} {named : List (String × Node)} (hnamed : Named doc entries named)
    (hwhole : ∀ entry ∈ named, entry.2.whole = true) (draft : δ)
    (h : ∀ column ∈ columns, column.pending draft (valuesOf column.key named)) :
    ∃ last, readEntries doc put entries draft = .ok last ∧
      ∀ column ∈ columns, column.pending last [] := by
  induction hnamed generalizing draft with
  | nil => exact ⟨draft, rfl, h⟩
  | @cons entry named entries left hentry hleft ih =>
    obtain ⟨key, value⟩ := entry
    obtain ⟨name, value'⟩ := named
    obtain ⟨hkey, rfl⟩ := hentry
    have hrest : ∀ entry ∈ left, entry.2.whole = true := fun entry he =>
      hwhole entry (List.mem_cons_of_mem _ he)
    by_cases hcolumn : ∃ column ∈ columns, column.key = name
    · obtain ⟨column, hmem, rfl⟩ := hcolumn
      have hpending := h column hmem
      rw [valuesOf_cons_self] at hpending
      obtain ⟨next, hput, hnext, hothers⟩ := hfills.fill column hmem draft value _ hpending
      obtain ⟨last, hread, hlast⟩ := ih hrest next fun other hother => by
        by_cases heq : other.key = column.key
        · rwa [List.inj_on_of_nodup_map hfills.distinct hother hmem heq]
        · have hpending := h other hother
          rw [valuesOf_cons_of_ne (Ne.symm heq)] at hpending
          exact hothers other hother heq _ hpending
      refine ⟨last, ?_, hlast⟩
      simp only [readEntries, hkey, hput, bind, Except.bind]
      exact hread
    · push Not at hcolumn
      obtain ⟨last, hread, hlast⟩ := ih hrest draft fun other hother => by
        have hpending := h other hother
        rwa [valuesOf_cons_of_ne (Ne.symm (hcolumn other hother))] at hpending
      have hvalue := hwhole _ (List.mem_cons_self ..)
      refine ⟨last, ?_, hlast⟩
      simp only [readEntries, hkey, hfills.pass name hcolumn value draft, hvalue, if_true, bind,
        Except.bind]
      exact hread

/-- The entries of a table, by the names of their keys; all of them make sense. -/
structure Holds (doc : Document) (node : Node) (named : List (String × Node)) : Prop where
  table : ∃ entries, doc.resolve node = .table entries true ∧ Named doc entries named
  whole : ∀ entry ∈ named, entry.2.whole = true

/-- A record is read from the entries of a table. -/
theorem readRecord_ok {layout : Layout δ α} {columns : List (Column δ)} {node : Node}
    {named : List (String × Node)} {record : α} (hfills : Fills layout.put columns)
    (h : Holds doc node named)
    (hstart : ∀ column ∈ columns, column.pending layout.start (valuesOf column.key named))
    (hfinish : ∀ draft, (∀ column ∈ columns, column.pending draft []) →
      layout.finish draft = .ok record) :
    readRecord doc form layout node = .ok record := by
  obtain ⟨entries, hnode, hnamed⟩ := h.table
  obtain ⟨last, hread, hlast⟩ := readEntries_ok hfills hnamed h.whole layout.start hstart
  rw [readRecord, hnode]
  simp only [readTable, bind, Except.bind]
  rw [hread]
  exact hfinish last hlast

/-- Where entries are read, each that is a field has been put into some draft. -/
theorem put_of_readEntries {put : String → Node → δ → Option (Except Complaint δ)}
    {entries : List (Node × Node)} {named : List (String × Node)} (hnamed : Named doc entries named)
    {draft last : δ} (h : readEntries doc put entries draft = .ok last) {key : String} {value : Node}
    (hmem : (key, value) ∈ named) :
    ∃ before, ∀ step, put key value before = some step → ∃ after, step = .ok after := by
  induction hnamed generalizing draft with
  | nil => exact absurd hmem List.not_mem_nil
  | @cons entry first entries named hentry _ ih =>
    obtain ⟨k, v⟩ := entry
    obtain ⟨name, v'⟩ := first
    obtain ⟨hkey, rfl⟩ := hentry
    simp only [readEntries, hkey, bind, Except.bind] at h
    cases hput : put name v draft with
    | none =>
      simp only [hput] at h
      rcases List.mem_cons.mp hmem with heq | hmem
      · cases heq
        exact ⟨draft, fun step hstep => by rw [hput] at hstep; cases hstep⟩
      · split at h
        case isTrue => exact ih h hmem
        case isFalse => cases h
    | some step =>
      simp only [hput] at h
      cases step with
      | error complaint => cases h
      | ok next =>
        rcases List.mem_cons.mp hmem with heq | hmem
        · cases heq
          exact ⟨draft, fun step hstep => ⟨next, Option.some.inj (hstep.symm.trans hput)⟩⟩
        · exact ih h hmem

/-- What fills a place has been read. -/
theorem exists_of_fill {name : String} {place : Option α} {value : Except Complaint α}
    {store : α → δ} {after : δ} (h : fill name place value store = .ok after) :
    ∃ x, value = .ok x := by
  cases place with
  | some _ => cases h
  | none =>
    cases value with
    | error complaint => cases h
    | ok x => exact ⟨x, rfl⟩

/-- Where a record is read from a table, so is each entry that is a field. -/
theorem put_of_readRecord {layout : Layout δ α} {node : Node} {named : List (String × Node)}
    {record : α} (h : Holds doc node named) (hread : readRecord doc form layout node = .ok record)
    {key : String} {value : Node} (hmem : (key, value) ∈ named) :
    ∃ before, ∀ step, layout.put key value before = some step → ∃ after, step = .ok after := by
  obtain ⟨entries, hnode, hnamed⟩ := h.table
  rw [readRecord, hnode] at hread
  simp only [readTable, bind, Except.bind] at hread
  cases hentries : readEntries doc layout.put entries layout.start with
  | error complaint =>
    rw [hentries] at hread
    cases hread
  | ok last => exact put_of_readEntries hnamed hentries hmem

/-- A record is read from a table only if that was read to its end. -/
theorem whole_of_readRecord {layout : Layout δ α} {node : Node} {entries : List (Node × Node)}
    {whole : Bool} {record : α} (hnode : doc.resolve node = .table entries whole)
    (h : readRecord doc form layout node = .ok record) : whole = true := by
  rw [readRecord, hnode] at h
  cases whole with
  | true => rfl
  | false =>
    simp only [readTable, bind, Except.bind] at h
    split at h <;> cases h

/-! ## Lists -/

theorem readEach_ok {read : Node → Except Complaint α} {items : List Node} {xs : List α}
    (h : List.Forall₂ (fun item x => read item = .ok x) items xs) :
    readEach read items = .ok xs := by
  induction h with
  | nil => rfl
  | cons hread _ ih =>
    rw [readEach, hread, ih]
    rfl

theorem readList_ok {read : Node → Except Complaint α} {node : Node} {items : List Node}
    {xs : List α} (hnode : doc.resolve node = .list items true)
    (h : List.Forall₂ (fun item x => read item = .ok x) items xs) :
    readList doc read node = .ok xs := by
  rw [readList, hnode]
  simp only [readEach_ok h]
  rfl

theorem exists_of_readEach {read : Node → Except Complaint α} {items : List Node} {xs : List α}
    (h : readEach read items = .ok xs) : ∀ item ∈ items, ∃ x, read item = .ok x := by
  induction items generalizing xs with
  | nil => exact fun _ hitem => absurd hitem List.not_mem_nil
  | cons item items ih =>
    simp only [readEach, bind, Except.bind] at h
    cases hitem : read item with
    | error complaint =>
      rw [hitem] at h
      cases h
    | ok x =>
      rw [hitem] at h
      cases hitems : readEach read items with
      | error complaint =>
        simp only [hitems] at h
        cases h
      | ok xs => exact List.forall_mem_cons.mpr ⟨⟨x, hitem⟩, ih hitems⟩

/-- Where a list is read, so is each of its items. -/
theorem exists_of_readList {read : Node → Except Complaint α} {node : Node} {items : List Node}
    {whole : Bool} {xs : List α} (hnode : doc.resolve node = .list items whole)
    (h : readList doc read node = .ok xs) : ∀ item ∈ items, ∃ x, read item = .ok x := by
  rw [readList, hnode] at h
  simp only [bind, Except.bind] at h
  cases hitems : readEach read items with
  | error complaint =>
    rw [hitems] at h
    cases h
  | ok xs => exact exists_of_readEach hitems

/-! ## Records of a schema -/

section Records

variable {node : Node} {named : List (String × Node)} {name : String} (h : Holds doc node named)
include h

/-- A member of an enum is read from the values of its keys. -/
theorem readMember_ok {value : Option (Option Int64)}
    (hname : Gives (readText doc) (valuesOf "name" named) (some name))
    (hvalue : Gives (readOptional doc (readValue doc)) (valuesOf "value" named) value) :
    readMember doc form node = .ok ⟨name, value.getD none⟩ := by
  let columns : List (Column MemberDraft) :=
    [⟨"name", fun d left => Pending (readText doc) d.name left (some name)⟩,
      ⟨"value", fun d left => Pending (readOptional doc (readValue doc)) d.value left value⟩]
  have hfills : Fills (memberLayout doc).put columns := by
    refine ⟨(by decide : ["name", "value"].Nodup), ?_, fun key hkey value d => ?_⟩
    · simp only [columns, List.forall_mem_cons]
      refine ⟨fun d node left hpending => ?_, fun d node left hpending => ?_, by simp⟩
      · obtain ⟨y, hfill, hnext⟩ := hpending.fill "name" fun y => { d with name := some y }
        exact ⟨_, congrArg some hfill, hnext, by simp⟩
      · obtain ⟨y, hfill, hnext⟩ := hpending.fill "value" fun y => { d with value := some y }
        exact ⟨_, congrArg some hfill, hnext, by simp⟩
    · simp only [columns, List.forall_mem_cons] at hkey
      simp only [memberLayout]
      split <;> simp_all
  refine readRecord_ok hfills h ?_ fun d hd => ?_
  · simp only [columns, List.forall_mem_cons]
    exact ⟨Or.inl ⟨rfl, hname⟩, Or.inl ⟨rfl, hvalue⟩, by simp⟩
  · simp only [columns, List.forall_mem_cons] at hd
    simp [memberLayout, hd.1.done, hd.2.1.done, required]

/-- An enum is read from the values of its keys. -/
theorem readEnum_ok {underlying : Option (Option String)} {members : Option (List EnumMember)}
    (hname : Gives (readText doc) (valuesOf "name" named) (some name))
    (hunderlying : Gives (readOptional doc (readText doc)) (valuesOf "type" named) underlying)
    (hmembers : Gives (readList doc (readMember doc form)) (valuesOf "values" named) members) :
    readEnum doc form node = .ok ⟨name, underlying.getD none, members.getD []⟩ := by
  let columns : List (Column EnumDraft) :=
    [⟨"name", fun d left => Pending (readText doc) d.name left (some name)⟩,
      ⟨"type", fun d left => Pending (readOptional doc (readText doc)) d.underlying left underlying⟩,
      ⟨"values", fun d left => Pending (readList doc (readMember doc form)) d.members left members⟩]
  have hfills : Fills (enumLayout doc form).put columns := by
    refine ⟨(by decide : ["name", "type", "values"].Nodup), ?_, fun key hkey value d => ?_⟩
    · simp only [columns, List.forall_mem_cons]
      refine ⟨fun d node left hpending => ?_, fun d node left hpending => ?_,
        fun d node left hpending => ?_, by simp⟩
      · obtain ⟨y, hfill, hnext⟩ := hpending.fill "name" fun y => { d with name := some y }
        exact ⟨_, congrArg some hfill, hnext, by simp⟩
      · obtain ⟨y, hfill, hnext⟩ := hpending.fill "type" fun y => { d with underlying := some y }
        exact ⟨_, congrArg some hfill, hnext, by simp⟩
      · obtain ⟨y, hfill, hnext⟩ := hpending.fill "values" fun y => { d with members := some y }
        exact ⟨_, congrArg some hfill, hnext, by simp⟩
    · simp only [columns, List.forall_mem_cons] at hkey
      simp only [enumLayout]
      split <;> simp_all
  refine readRecord_ok hfills h ?_ fun d hd => ?_
  · simp only [columns, List.forall_mem_cons]
    exact ⟨Or.inl ⟨rfl, hname⟩, Or.inl ⟨rfl, hunderlying⟩, Or.inl ⟨rfl, hmembers⟩, by simp⟩
  · simp only [columns, List.forall_mem_cons] at hd
    simp [enumLayout, hd.1.done, hd.2.1.done, hd.2.2.1.done, required]

/-- A field of a struct is read from the values of its keys. -/
theorem readField_ok {typeName : String} {length : Option (Option UInt32)}
    (hname : Gives (readText doc) (valuesOf "name" named) (some name))
    (htypeName : Gives (readText doc) (valuesOf "type" named) (some typeName))
    (hlength : Gives (readOptional doc (readLength doc)) (valuesOf "length" named) length) :
    readField doc form node = .ok ⟨name, typeName, length.getD none⟩ := by
  let columns : List (Column FieldDraft) :=
    [⟨"name", fun d left => Pending (readText doc) d.name left (some name)⟩,
      ⟨"type", fun d left => Pending (readText doc) d.typeName left (some typeName)⟩,
      ⟨"length", fun d left => Pending (readOptional doc (readLength doc)) d.length left length⟩]
  have hfills : Fills (fieldLayout doc).put columns := by
    refine ⟨(by decide : ["name", "type", "length"].Nodup), ?_, fun key hkey value d => ?_⟩
    · simp only [columns, List.forall_mem_cons]
      refine ⟨fun d node left hpending => ?_, fun d node left hpending => ?_,
        fun d node left hpending => ?_, by simp⟩
      · obtain ⟨y, hfill, hnext⟩ := hpending.fill "name" fun y => { d with name := some y }
        exact ⟨_, congrArg some hfill, hnext, by simp⟩
      · obtain ⟨y, hfill, hnext⟩ := hpending.fill "type" fun y => { d with typeName := some y }
        exact ⟨_, congrArg some hfill, hnext, by simp⟩
      · obtain ⟨y, hfill, hnext⟩ := hpending.fill "length" fun y => { d with length := some y }
        exact ⟨_, congrArg some hfill, hnext, by simp⟩
    · simp only [columns, List.forall_mem_cons] at hkey
      simp only [fieldLayout]
      split <;> simp_all
  refine readRecord_ok hfills h ?_ fun d hd => ?_
  · simp only [columns, List.forall_mem_cons]
    exact ⟨Or.inl ⟨rfl, hname⟩, Or.inl ⟨rfl, htypeName⟩, Or.inl ⟨rfl, hlength⟩, by simp⟩
  · simp only [columns, List.forall_mem_cons] at hd
    simp [fieldLayout, hd.1.done, hd.2.1.done, hd.2.2.1.done, required]
    rfl

/-- A struct is read from the values of its keys. -/
theorem readStruct_ok {fields : Option (List Field)}
    (hname : Gives (readText doc) (valuesOf "name" named) (some name))
    (hfields : Gives (readList doc (readField doc form)) (valuesOf "fields" named) fields) :
    readStruct doc form node = .ok ⟨name, fields.getD []⟩ := by
  let columns : List (Column StructDraft) :=
    [⟨"name", fun d left => Pending (readText doc) d.name left (some name)⟩,
      ⟨"fields", fun d left => Pending (readList doc (readField doc form)) d.fields left fields⟩]
  have hfills : Fills (structLayout doc form).put columns := by
    refine ⟨(by decide : ["name", "fields"].Nodup), ?_, fun key hkey value d => ?_⟩
    · simp only [columns, List.forall_mem_cons]
      refine ⟨fun d node left hpending => ?_, fun d node left hpending => ?_, by simp⟩
      · obtain ⟨y, hfill, hnext⟩ := hpending.fill "name" fun y => { d with name := some y }
        exact ⟨_, congrArg some hfill, hnext, by simp⟩
      · obtain ⟨y, hfill, hnext⟩ := hpending.fill "fields" fun y => { d with fields := some y }
        exact ⟨_, congrArg some hfill, hnext, by simp⟩
    · simp only [columns, List.forall_mem_cons] at hkey
      simp only [structLayout]
      split <;> simp_all
  refine readRecord_ok hfills h ?_ fun d hd => ?_
  · simp only [columns, List.forall_mem_cons]
    exact ⟨Or.inl ⟨rfl, hname⟩, Or.inl ⟨rfl, hfields⟩, by simp⟩
  · simp only [columns, List.forall_mem_cons] at hd
    simp [structLayout, hd.1.done, hd.2.1.done, required]

/-- The declarations of a schema are read from the values of its keys. -/
theorem readDeclarations_ok {enums : Option (List EnumEntry)} {structs : Option (List StructEntry)}
    (henums : Gives (readList doc (readEnum doc form)) (valuesOf "enum" named) enums)
    (hstructs : Gives (readList doc (readStruct doc form)) (valuesOf "struct" named) structs) :
    readRecord doc form (schemaLayout doc form) node = .ok ⟨enums.getD [], structs.getD []⟩ := by
  let columns : List (Column SchemaDraft) :=
    [⟨"enum", fun d left => Pending (readList doc (readEnum doc form)) d.enums left enums⟩,
      ⟨"struct", fun d left => Pending (readList doc (readStruct doc form)) d.structs left structs⟩]
  have hfills : Fills (schemaLayout doc form).put columns := by
    refine ⟨(by decide : ["enum", "struct"].Nodup), ?_, fun key hkey value d => ?_⟩
    · simp only [columns, List.forall_mem_cons]
      refine ⟨fun d node left hpending => ?_, fun d node left hpending => ?_, by simp⟩
      · obtain ⟨y, hfill, hnext⟩ := hpending.fill "enum" fun y => { d with enums := some y }
        exact ⟨_, congrArg some hfill, hnext, by simp⟩
      · obtain ⟨y, hfill, hnext⟩ := hpending.fill "struct" fun y => { d with structs := some y }
        exact ⟨_, congrArg some hfill, hnext, by simp⟩
    · simp only [columns, List.forall_mem_cons] at hkey
      simp only [schemaLayout]
      split <;> simp_all
  refine readRecord_ok hfills h ?_ fun d hd => ?_
  · simp only [columns, List.forall_mem_cons]
    exact ⟨Or.inl ⟨rfl, henums⟩, Or.inl ⟨rfl, hstructs⟩, by simp⟩
  · simp only [columns, List.forall_mem_cons] at hd
    simp [schemaLayout, hd.1.done, hd.2.1.done]
    rfl

/-- A schema is read from the values of the keys at the root of a document. -/
theorem readSchema_ok {enums : Option (List EnumEntry)} {structs : Option (List StructEntry)}
    (hroot : node = doc.root) (hended : doc.ended = true)
    (henums : Gives (readList doc (readEnum doc form)) (valuesOf "enum" named) enums)
    (hstructs : Gives (readList doc (readStruct doc form)) (valuesOf "struct" named) structs) :
    readSchema doc form = .ok ⟨enums.getD [], structs.getD []⟩ := by
  subst hroot
  rw [readSchema, readDeclarations_ok h henums hstructs]
  simp only [hended, bind, Except.bind]
  rfl

end Records

/-- A schema is read from a table at the root of a document only if that was read to its end. -/
theorem whole_of_readSchema {entries : List (Node × Node)} {whole : Bool} {schema : Schema}
    (hroot : doc.resolve doc.root = .table entries whole) (h : readSchema doc form = .ok schema) :
    whole = true := by
  rw [readSchema] at h
  cases hread : readRecord doc form (schemaLayout doc form) doc.root with
  | error complaint =>
    rw [hread] at h
    cases h
  | ok read => exact whole_of_readRecord hroot hread

end SchemaHeaders.Document
