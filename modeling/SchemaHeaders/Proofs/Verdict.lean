import SchemaHeaders.Generation
import Mathlib.Data.List.Nodup

/-!
# The verdict on a schema

A schema can have faults of several kinds at once, any number of each. `Verdict` says
without recursion which of them is reported : the first enum that cannot be emitted, then
the first field of an undeclared type, then the first position at which a declared name
repeats, then the first array of length zero, each in document order and each only if
there is no fault of the kinds before it. A schema without faults becomes the units of its
entries, in order.

`generate_eq_iff` : generating the headers of a schema ends with a result exactly if that
result is the verdict.
-/

namespace SchemaHeaders

/-! ## First entries -/

/-- `x` is the first entry of a list with a property. -/
def FirstWith {α : Type} (P : α → Prop) (xs : List α) (x : α) : Prop :=
  ∃ before after, xs = before ++ x :: after ∧ P x ∧ ∀ y ∈ before, ¬P y

theorem FirstWith.mem {α : Type} {P : α → Prop} {xs : List α} {x : α} (h : FirstWith P xs x) :
    x ∈ xs ∧ P x := by
  obtain ⟨before, after, rfl, hx, -⟩ := h
  exact ⟨by simp, hx⟩

theorem firstWith_cons_self {α : Type} {P : α → Prop} {x : α} (xs : List α) (h : P x) :
    FirstWith P (x :: xs) x :=
  ⟨[], xs, rfl, h, by simp⟩

theorem firstWith_cons_unique {α : Type} {P : α → Prop} {x y : α} {xs : List α} (h : P x)
    (hy : FirstWith P (x :: xs) y) : x = y := by
  obtain ⟨before, after, hxs, -, hbefore⟩ := hy
  cases before with
  | nil => exact (List.cons.inj hxs).1
  | cons b before =>
    obtain ⟨rfl, -⟩ := List.cons.inj hxs
    exact absurd h (hbefore x (by simp))

/-- What does not have the property can stand before the first entry that has it. -/
theorem firstWith_cons_iff {α : Type} {P : α → Prop} {x : α} {xs : List α} (h : ¬P x) (y : α) :
    FirstWith P (x :: xs) y ↔ FirstWith P xs y := by
  constructor
  · rintro ⟨before, after, hxs, hy, hbefore⟩
    cases before with
    | nil =>
      obtain ⟨rfl, -⟩ := List.cons.inj hxs
      exact absurd hy h
    | cons b before =>
      obtain ⟨rfl, rfl⟩ := List.cons.inj hxs
      exact ⟨before, after, rfl, hy, fun z hz => hbefore z (List.mem_cons_of_mem _ hz)⟩
  · rintro ⟨before, after, rfl, hy, hbefore⟩
    refine ⟨x :: before, after, rfl, hy, fun z hz => ?_⟩
    rcases List.mem_cons.mp hz with rfl | hz
    · exact h
    · exact hbefore z hz

/-- The first entry that passes a test is the one that a search finds. -/
theorem find?_eq_some_iff_firstWith {α : Type} (p : α → Bool) (xs : List α) (x : α) :
    xs.find? p = some x ↔ FirstWith (fun y => p y = true) xs x := by
  rw [List.find?_eq_some_iff_append]
  constructor
  · rintro ⟨hx, before, after, hxs, hbefore⟩
    exact ⟨before, after, hxs, hx, fun y hy => by simpa using hbefore y hy⟩
  · rintro ⟨before, after, hxs, hx, hbefore⟩
    exact ⟨hx, before, after, hxs, fun y hy => by simpa using hbefore y hy⟩

/-! ## Enums -/

/-- The header of an enum is framed around a declaration of its members. -/
theorem emitEnum_declares {backend : Backend} {e : EnumEntry} {unit : HeaderUnit}
    (h : emitEnum backend e = .ok unit) :
    ∃ underlying, e.underlyingType = .ok underlying ∧
      unit = ⟨e.name, pascalCase e.name, backend.frame (pascalCase e.name)
        (backend.renderEnum ⟨pascalCase e.name, underlying, e.members.map (·.declare)⟩), []⟩ := by
  unfold emitEnum at h
  cases hunderlying : e.underlyingType with
  | error failure =>
    rw [hunderlying] at h
    cases h
  | ok underlying =>
    rw [hunderlying] at h
    by_cases hgap : gapAfterValue e.members = true
    · simp only [hgap] at h
      cases h
    · simp only [hgap] at h
      cases h
      exact ⟨underlying, rfl, rfl⟩

theorem emitEnum_ok {backend : Backend} {e : EnumEntry} {unit : HeaderUnit}
    (h : emitEnum backend e = .ok unit) :
    ∃ decl : EnumDecl, unit = ⟨e.name, pascalCase e.name,
      backend.frame (pascalCase e.name) (backend.renderEnum decl), []⟩ := by
  obtain ⟨underlying, -, hunit⟩ := emitEnum_declares h
  exact ⟨_, hunit⟩

/-- An enum that has no header. -/
def Refused (backend : Backend) (e : EnumEntry) : Prop :=
  ∃ failure, emitEnum backend e = .error failure

theorem emitEnums_cons_of_error {backend : Backend} {e : EnumEntry} {failure : Failure}
    (h : emitEnum backend e = .error failure) (es : List EnumEntry) :
    emitEnums backend (e :: es) = .error failure := by
  rw [emitEnums, h]
  rfl

theorem emitEnums_cons_of_ok {backend : Backend} {e : EnumEntry} {unit : HeaderUnit}
    (h : emitEnum backend e = .ok unit) (es : List EnumEntry) :
    emitEnums backend (e :: es) = (emitEnums backend es).map (unit :: ·) := by
  rw [emitEnums, h]
  cases emitEnums backend es <;> rfl

/-- Each unit of some enums is that of one of them. -/
theorem exists_of_mem_emitted {backend : Backend} {es : List EnumEntry} {units : List HeaderUnit}
    (h : List.Forall₂ (fun e unit => emitEnum backend e = .ok unit) es units) {unit : HeaderUnit}
    (hunit : unit ∈ units) : ∃ e ∈ es, emitEnum backend e = .ok unit := by
  induction h with
  | nil => simp at hunit
  | @cons e _ _ _ he _ ih =>
    rcases List.mem_cons.mp hunit with rfl | hunit
    · exact ⟨e, by simp, he⟩
    · obtain ⟨e', hmem, he'⟩ := ih hunit
      exact ⟨e', List.mem_cons_of_mem _ hmem, he'⟩

/-- What a unit takes from its enum, the units of some enums take in order. -/
theorem map_of_emitted {backend : Backend} {β : Type} {f : HeaderUnit → β} {g : EnumEntry → β}
    (hunit : ∀ e unit, emitEnum backend e = .ok unit → f unit = g e) {es : List EnumEntry}
    {units : List HeaderUnit}
    (h : List.Forall₂ (fun e unit => emitEnum backend e = .ok unit) es units) :
    units.map f = es.map g := by
  induction h with
  | nil => rfl
  | cons he _ ih => rw [List.map_cons, List.map_cons, hunit _ _ he, ih]

theorem name_of_emitEnum {backend : Backend} (e : EnumEntry) (unit : HeaderUnit)
    (h : emitEnum backend e = .ok unit) : unit.name = e.name := by
  obtain ⟨decl, rfl⟩ := emitEnum_ok h
  rfl

theorem typeName_of_emitEnum {backend : Backend} (e : EnumEntry) (unit : HeaderUnit)
    (h : emitEnum backend e = .ok unit) : unit.typeName = pascalCase e.name := by
  obtain ⟨decl, rfl⟩ := emitEnum_ok h
  rfl

/-- All enums have headers exactly if each has one, and then theirs are in order. -/
theorem emitEnums_eq_ok_iff (backend : Backend) (es : List EnumEntry) (units : List HeaderUnit) :
    emitEnums backend es = .ok units ↔
      List.Forall₂ (fun e unit => emitEnum backend e = .ok unit) es units := by
  induction es generalizing units with
  | nil => simp [emitEnums, eq_comm]
  | cons e es ih =>
    cases he : emitEnum backend e with
    | error failure => simp [emitEnums_cons_of_error he, List.forall₂_cons_left_iff, he]
    | ok unit =>
      rw [emitEnums_cons_of_ok he, List.forall₂_cons_left_iff]
      constructor
      · intro h
        cases hes : emitEnums backend es with
        | error failure => simp [hes, Except.map] at h
        | ok rest =>
          rw [hes] at h
          cases h
          exact ⟨unit, rest, he, (ih rest).mp hes, rfl⟩
      · rintro ⟨unit', rest, hunit, hrest, rfl⟩
        rw [he] at hunit
        cases hunit
        rw [(ih rest).mpr hrest]
        rfl

/-- The failure of enums is that of the first enum without a header. -/
theorem emitEnums_eq_error_iff (backend : Backend) (es : List EnumEntry) (failure : Failure) :
    emitEnums backend es = .error failure ↔
      ∃ e, FirstWith (Refused backend) es e ∧ emitEnum backend e = .error failure := by
  induction es with
  | nil => simp [emitEnums, FirstWith]
  | cons e es ih =>
    cases he : emitEnum backend e with
    | error failure' =>
      have hrefused : Refused backend e := ⟨failure', he⟩
      rw [emitEnums_cons_of_error he]
      constructor
      · intro h
        cases h
        exact ⟨e, firstWith_cons_self es hrefused, he⟩
      · rintro ⟨e', hfirst, he'⟩
        obtain rfl := firstWith_cons_unique hrefused hfirst
        rw [he] at he'
        cases he'
        rfl
    | ok unit =>
      have hkept : ¬Refused backend e := by simp [Refused, he]
      rw [emitEnums_cons_of_ok he]
      simp only [firstWith_cons_iff hkept, ← ih]
      cases emitEnums backend es <;> simp [Except.map]

/-- Enums have headers as soon as none of them is refused. -/
theorem emitEnums_ok_iff_not_refused (backend : Backend) (es : List EnumEntry) :
    (∃ units, emitEnums backend es = .ok units) ↔ ∀ e ∈ es, ¬Refused backend e := by
  constructor
  · rintro ⟨units, h⟩ e he ⟨failure, hfailure⟩
    rw [emitEnums_eq_ok_iff] at h
    obtain ⟨i, hi, rfl⟩ := List.mem_iff_getElem.mp he
    have := h.get hi (h.length_eq ▸ hi)
    simp [hfailure] at this
  · intro h
    cases hes : emitEnums backend es with
    | ok units => exact ⟨units, rfl⟩
    | error failure =>
      obtain ⟨e, hfirst, -⟩ := (emitEnums_eq_error_iff backend es failure).mp hes
      exact absurd hfirst.mem.2 (h e hfirst.mem.1)

/-! ## Fields -/

/-- The fields of a schema with their structs, in order. -/
def Schema.fields (schema : Schema) : List (StructEntry × Field) :=
  schema.structs.flatMap fun s => s.fields.map fun f => (s, f)

/-- A type name that is neither that of a primitive type nor declared in the schema. -/
def Schema.Undeclared (schema : Schema) (type : String) : Prop :=
  (∀ p : Primitive, p.name ≠ type) ∧ type ∉ schema.declaredNames

theorem ofName?_eq_none_iff (type : String) :
    Primitive.ofName? type = none ↔ ∀ p : Primitive, p.name ≠ type := by
  rw [Primitive.ofName?, List.find?_eq_none]
  exact ⟨fun h p => by simpa using h p p.mem_all, fun h p _ => by simpa using h p⟩

/-- The test of a field for an undeclared type. -/
def Schema.isUndeclared (schema : Schema) (f : Field) : Bool :=
  (Primitive.ofName? f.typeName).isNone && !schema.declaredNames.contains f.typeName

theorem isUndeclared_iff (schema : Schema) (f : Field) :
    schema.isUndeclared f = true ↔ schema.Undeclared f.typeName := by
  simp [Schema.isUndeclared, Schema.Undeclared, ← ofName?_eq_none_iff]

/-- A search in each part of a list of lists is one through all of it. -/
theorem findSome?_find?_map {α β γ : Type} (f : α → List β) (p : β → Bool) (g : α → β → γ)
    (xs : List α) :
    (xs.findSome? fun x => ((f x).find? p).map (g x)) =
      ((xs.flatMap fun x => (f x).map fun y => (x, y)).find? fun z => p z.2).map
        fun z => g z.1 z.2 := by
  induction xs with
  | nil => rfl
  | cons x xs ih =>
    have hx : (((f x).map fun y => (x, y)).find? fun z => p z.2) =
        ((f x).find? p).map fun y => (x, y) := by
      rw [List.find?_map]
      rfl
    rw [List.findSome?_cons, ih, List.flatMap_cons, List.find?_append, hx]
    cases (f x).find? p <;> simp

/-- The first undefined type is that of the first field whose type is undeclared. -/
theorem firstUndefined?_eq (backend : Backend) (schema : Schema) :
    firstUndefined? schema.declaredNames (schema.structs.map (emitStruct backend)) =
      (schema.fields.find? fun p => schema.isUndeclared p.2).map
        fun p => (p.2.typeName, p.1.name) := by
  have h := findSome?_find?_map StructEntry.fields schema.isUndeclared
    (fun s f => (f.typeName, s.name)) schema.structs
  rw [Schema.fields, ← h, firstUndefined?, List.findSome?_map]
  congr 1
  funext s
  simp only [Function.comp_apply, emitStruct, requiredTypes, List.find?_filter, List.find?_map,
    Option.map_map, Function.comp_def, Bool.decide_and, Bool.decide_eq_true]
  rfl

theorem firstUndefined?_eq_some_iff (backend : Backend) (schema : Schema)
    (type requiredBy : String) :
    firstUndefined? schema.declaredNames (schema.structs.map (emitStruct backend)) =
        some (type, requiredBy) ↔
      ∃ s f, FirstWith (fun p => schema.Undeclared p.2.typeName) schema.fields (s, f) ∧
        f.typeName = type ∧ s.name = requiredBy := by
  rw [firstUndefined?_eq, Option.map_eq_some_iff]
  simp only [find?_eq_some_iff_firstWith, isUndeclared_iff, Prod.exists, Prod.mk.injEq]

theorem firstUndefined?_eq_none_iff (backend : Backend) (schema : Schema) :
    firstUndefined? schema.declaredNames (schema.structs.map (emitStruct backend)) = none ↔
      ∀ p ∈ schema.fields, ¬schema.Undeclared p.2.typeName := by
  rw [firstUndefined?_eq, Option.map_eq_none_iff, List.find?_eq_none]
  simp only [isUndeclared_iff]

theorem firstEmptyArray?_eq (schema : Schema) :
    firstEmptyArray? schema.structs =
      (schema.fields.find? fun p => p.2.length == some 0).map fun p => (p.1.name, p.2.name) :=
  findSome?_find?_map StructEntry.fields (·.length == some 0) (fun s f => (s.name, f.name))
    schema.structs

theorem firstEmptyArray?_eq_some_iff (schema : Schema) (structName field : String) :
    firstEmptyArray? schema.structs = some (structName, field) ↔
      ∃ s f, FirstWith (fun p => p.2.length = some 0) schema.fields (s, f) ∧
        s.name = structName ∧ f.name = field := by
  rw [firstEmptyArray?_eq, Option.map_eq_some_iff]
  simp only [find?_eq_some_iff_firstWith, beq_iff_eq, Prod.exists, Prod.mk.injEq]

theorem firstEmptyArray?_eq_none_iff (schema : Schema) :
    firstEmptyArray? schema.structs = none ↔ ∀ p ∈ schema.fields, p.2.length ≠ some 0 := by
  rw [firstEmptyArray?_eq, Option.map_eq_none_iff, List.find?_eq_none]
  simp only [beq_iff_eq, ne_eq]

/-! ## Declared names -/

/-- The name at a position of a list stands at an earlier position as well. -/
def RepeatsAt (names : List String) (i : Nat) : Prop :=
  i < names.length ∧ ∃ j < i, names[j]? = names[i]?

/-- Where a name follows others, it repeats exactly if it is one of them. -/
theorem repeatsAt_length_iff (before after : List String) (name : String) :
    RepeatsAt (before ++ name :: after) before.length ↔ name ∈ before := by
  have hname : (before ++ name :: after)[before.length]? = some name := by simp
  rw [RepeatsAt, hname, List.mem_iff_getElem?]
  constructor
  · rintro ⟨-, j, hj, hjname⟩
    exact ⟨j, by rwa [List.getElem?_append_left hj] at hjname⟩
  · rintro ⟨j, hjname⟩
    have hj : j < before.length := (List.getElem?_eq_some_iff.mp hjname).1
    exact ⟨by simp, j, hj, by rwa [List.getElem?_append_left hj]⟩

/-- A list repeats no name exactly if no position of it does. -/
theorem nodup_iff_not_repeatsAt (names : List String) :
    names.Nodup ↔ ∀ i, ¬RepeatsAt names i := by
  rw [List.nodup_iff_getElem?_ne_getElem?]
  constructor
  · rintro h i ⟨hi, j, hj, heq⟩
    exact h j i hj hi heq
  · intro h i j hij hj heq
    exact h j ⟨hj, i, hij, heq⟩

/-- What repeats in the first part of a list does so in the whole list. -/
theorem repeatsAt_append_iff {before : List String} {i : Nat} (hi : i < before.length)
    (after : List String) : RepeatsAt (before ++ after) i ↔ RepeatsAt before i := by
  have hlen : i < (before ++ after).length := by
    rw [List.length_append]
    omega
  rw [RepeatsAt, RepeatsAt, List.getElem?_append_left hi]
  constructor
  · rintro ⟨-, j, hj, heq⟩
    exact ⟨hi, j, hj, by rwa [List.getElem?_append_left (by omega)] at heq⟩
  · rintro ⟨-, j, hj, heq⟩
    exact ⟨hlen, j, hj, by rwa [List.getElem?_append_left (by omega)]⟩

/-- Names are new and distinct if the first is new and the others are new and distinct once it has
been seen. -/
theorem fresh_cons_iff {seen names : List String} {n : String} :
    ((n :: names).Nodup ∧ ∀ m ∈ n :: names, m ∉ seen) ↔
      n ∉ seen ∧ names.Nodup ∧ ∀ m ∈ names, m ∉ n :: seen := by
  rw [List.nodup_cons]
  constructor
  · rintro ⟨⟨hfresh, hdistinct⟩, hnew⟩
    refine ⟨hnew n (by simp), hdistinct, fun m hm hseen => ?_⟩
    rcases List.mem_cons.mp hseen with rfl | hseen
    · exact hfresh hm
    · exact hnew m (by simp [hm]) hseen
  · rintro ⟨hn, hdistinct, hnew⟩
    refine ⟨⟨fun h => hnew n h (by simp), hdistinct⟩, fun m hm => ?_⟩
    rcases List.mem_cons.mp hm with rfl | hm
    · exact hn
    · exact fun hseen => hnew m hm (by simp [hseen])

/-- The search finds a name that was seen, after names that are new and distinct. -/
theorem firstRepeated?_eq_some_iff (seen names : List String) (name : String) :
    firstRepeated? seen names = some name ↔
      ∃ before after, names = before ++ name :: after ∧ (name ∈ seen ∨ name ∈ before) ∧
        before.Nodup ∧ ∀ b ∈ before, b ∉ seen := by
  induction names generalizing seen with
  | nil => simp [firstRepeated?]
  | cons n names ih =>
    rw [firstRepeated?]
    by_cases hn : n ∈ seen
    · rw [if_pos (by simpa using hn)]
      constructor
      · intro h
        cases h
        exact ⟨[], names, rfl, Or.inl hn, List.nodup_nil, by simp⟩
      · rintro ⟨before, after, hnames, -, -, hnew⟩
        cases before with
        | nil => rw [(List.cons.inj hnames).1]
        | cons b before =>
          obtain ⟨rfl, -⟩ := List.cons.inj hnames
          exact absurd hn (hnew n (by simp))
    · have hseen : ∀ before, name ∈ n :: seen ∨ name ∈ before ↔ name ∈ seen ∨ name ∈ n :: before :=
        fun before => by simp only [List.mem_cons]; tauto
      rw [if_neg (by simpa using hn), ih]
      constructor
      · rintro ⟨before, after, rfl, hname, hfresh⟩
        exact ⟨n :: before, after, rfl, (hseen before).mp hname, fresh_cons_iff.mpr ⟨hn, hfresh⟩⟩
      · rintro ⟨before, after, hnames, hname, hfresh⟩
        cases before with
        | nil =>
          obtain ⟨rfl, -⟩ := List.cons.inj hnames
          simp [hn] at hname
        | cons b before =>
          obtain ⟨rfl, rfl⟩ := List.cons.inj hnames
          exact ⟨before, after, rfl, (hseen before).mpr hname, (fresh_cons_iff.mp hfresh).2⟩

/-- The search fails exactly on new and distinct names. -/
theorem firstRepeated?_eq_none_iff (seen names : List String) :
    firstRepeated? seen names = none ↔ names.Nodup ∧ ∀ n ∈ names, n ∉ seen := by
  induction names generalizing seen with
  | nil => simp [firstRepeated?]
  | cons n names ih =>
    rw [firstRepeated?, fresh_cons_iff]
    by_cases hn : n ∈ seen
    · simp [hn]
    · rw [if_neg (by simpa using hn), ih]
      exact (and_iff_right hn).symm

/-- What the search finds stands at the first position that repeats a name. -/
theorem firstRepeated?_nil_eq_some_iff (names : List String) (name : String) :
    firstRepeated? [] names = some name ↔
      ∃ i, names[i]? = some name ∧ RepeatsAt names i ∧ ∀ k < i, ¬RepeatsAt names k := by
  rw [firstRepeated?_eq_some_iff]
  constructor
  · rintro ⟨before, after, rfl, hname, hdistinct, -⟩
    refine ⟨before.length, by simp, ?_, fun k hk => ?_⟩
    · rw [repeatsAt_length_iff]
      simpa using hname
    · rw [repeatsAt_append_iff hk]
      exact (nodup_iff_not_repeatsAt before).mp hdistinct k
  · rintro ⟨i, hi, hrepeats, hfirst⟩
    obtain ⟨before, after, rfl, rfl⟩ : ∃ before after,
        names = before ++ name :: after ∧ before.length = i := by
      obtain ⟨hlt, heq⟩ := List.getElem?_eq_some_iff.mp hi
      refine ⟨names.take i, names.drop (i + 1), ?_, by rw [List.length_take]; omega⟩
      rw [← heq, ← List.drop_eq_getElem_cons hlt, List.take_append_drop]
    refine ⟨before, after, rfl, Or.inr ((repeatsAt_length_iff _ _ _).mp hrepeats), ?_, by simp⟩
    rw [nodup_iff_not_repeatsAt]
    intro k hk
    exact hfirst k hk.1 ((repeatsAt_append_iff hk.1 _).mpr hk)

/-! ## The verdict -/

/-- What generating the headers of a schema ends with. -/
inductive Verdict (backend : Backend) (schema : Schema) : Except Failure Generated → Prop
  /-- The first enum without a header, whatever else is wrong. -/
  | refusedEnum {e : EnumEntry} {failure : Failure} :
      FirstWith (Refused backend) schema.enums e → emitEnum backend e = .error failure →
      Verdict backend schema (.error failure)
  /-- The first field of a type that is neither primitive nor declared anywhere. -/
  | undefinedType {s : StructEntry} {f : Field} :
      (∀ e ∈ schema.enums, ¬Refused backend e) →
      FirstWith (fun p => schema.Undeclared p.2.typeName) schema.fields (s, f) →
      Verdict backend schema (.error (.undefinedType f.typeName s.name))
  /-- The name at the first position that repeats one. -/
  | duplicateType {i : Nat} {name : String} :
      (∀ e ∈ schema.enums, ¬Refused backend e) →
      (∀ p ∈ schema.fields, ¬schema.Undeclared p.2.typeName) →
      schema.declaredNames[i]? = some name → RepeatsAt schema.declaredNames i →
      (∀ k < i, ¬RepeatsAt schema.declaredNames k) →
      Verdict backend schema (.error (.duplicateType name))
  /-- The first array of length zero. -/
  | invalidLength {s : StructEntry} {f : Field} :
      (∀ e ∈ schema.enums, ¬Refused backend e) →
      (∀ p ∈ schema.fields, ¬schema.Undeclared p.2.typeName) → schema.declaredNames.Nodup →
      FirstWith (fun p => p.2.length = some 0) schema.fields (s, f) →
      Verdict backend schema (.error (.invalidLength s.name f.name))
  /-- The units of all entries, in order. -/
  | accepted {units : List HeaderUnit} :
      List.Forall₂ (fun e unit => emitEnum backend e = .ok unit) schema.enums units →
      (∀ p ∈ schema.fields, ¬schema.Undeclared p.2.typeName) → schema.declaredNames.Nodup →
      (∀ p ∈ schema.fields, p.2.length ≠ some 0) →
      Verdict backend schema
        (.ok ⟨units, schema.structs.map (emitStruct backend), backend.extension⟩)

variable {backend : Backend} {schema : Schema}

/-- Enums are emitted before anything else is looked at. -/
theorem generate_of_emitEnums_error {failure : Failure}
    (h : emitEnums backend schema.enums = .error failure) :
    generate backend schema = .error failure := by
  rw [generate, h]
  rfl

/-- A schema whose enums have headers is accepted or refused by its validation. -/
theorem generate_of_emitEnums_ok {units : List HeaderUnit}
    (h : emitEnums backend schema.enums = .ok units) :
    generate backend schema =
      (validate schema (schema.structs.map (emitStruct backend))).map
        fun _ => ⟨units, schema.structs.map (emitStruct backend), backend.extension⟩ := by
  rw [generate, h]
  simp only [bind, Except.bind]
  cases validate schema (schema.structs.map (emitStruct backend)) <;> rfl

/-- Generating headers ends as the verdict says. -/
theorem verdict_generate (backend : Backend) (schema : Schema) :
    Verdict backend schema (generate backend schema) := by
  cases hes : emitEnums backend schema.enums with
  | error failure =>
    obtain ⟨e, hfirst, he⟩ := (emitEnums_eq_error_iff _ _ _).mp hes
    rw [generate_of_emitEnums_error hes]
    exact .refusedEnum hfirst he
  | ok units =>
    have hkept := (emitEnums_ok_iff_not_refused _ _).mp ⟨units, hes⟩
    rw [generate_of_emitEnums_ok hes, validate]
    cases hundefined :
        firstUndefined? schema.declaredNames (schema.structs.map (emitStruct backend)) with
    | some found =>
      obtain ⟨type, requiredBy⟩ := found
      obtain ⟨s, f, hfirst, rfl, rfl⟩ := (firstUndefined?_eq_some_iff _ _ _ _).mp hundefined
      exact .undefinedType hkept hfirst
    | none =>
      have hdeclared := (firstUndefined?_eq_none_iff backend schema).mp hundefined
      cases hrepeated : firstRepeated? [] schema.declaredNames with
      | some name =>
        obtain ⟨i, hi, hat, hbefore⟩ := (firstRepeated?_nil_eq_some_iff _ _).mp hrepeated
        exact .duplicateType hkept hdeclared hi hat hbefore
      | none =>
        have hdistinct := ((firstRepeated?_eq_none_iff _ _).mp hrepeated).1
        cases harray : firstEmptyArray? schema.structs with
        | some found =>
          obtain ⟨structName, field⟩ := found
          obtain ⟨s, f, hfirst, rfl, rfl⟩ := (firstEmptyArray?_eq_some_iff _ _ _).mp harray
          exact .invalidLength hkept hdeclared hdistinct hfirst
        | none =>
          exact .accepted ((emitEnums_eq_ok_iff _ _ _).mp hes) hdeclared hdistinct
            ((firstEmptyArray?_eq_none_iff schema).mp harray)

/-- There is one verdict on a schema : that of generating its headers. -/
theorem Verdict.generate_eq {result : Except Failure Generated}
    (h : Verdict backend schema result) : generate backend schema = result := by
  cases h with
  | refusedEnum hfirst he =>
    exact generate_of_emitEnums_error ((emitEnums_eq_error_iff _ _ _).mpr ⟨_, hfirst, he⟩)
  | undefinedType hkept hfirst =>
    obtain ⟨units, hes⟩ := (emitEnums_ok_iff_not_refused _ _).mpr hkept
    have hundefined := (firstUndefined?_eq_some_iff backend schema _ _).mpr ⟨_, _, hfirst, rfl, rfl⟩
    rw [generate_of_emitEnums_ok hes, validate, hundefined]
    rfl
  | duplicateType hkept hdeclared hi hat hbefore =>
    obtain ⟨units, hes⟩ := (emitEnums_ok_iff_not_refused _ _).mpr hkept
    have hundefined := (firstUndefined?_eq_none_iff backend schema).mpr hdeclared
    have hrepeated := (firstRepeated?_nil_eq_some_iff _ _).mpr ⟨_, hi, hat, hbefore⟩
    rw [generate_of_emitEnums_ok hes, validate, hundefined, hrepeated]
    rfl
  | invalidLength hkept hdeclared hdistinct hfirst =>
    obtain ⟨units, hes⟩ := (emitEnums_ok_iff_not_refused _ _).mpr hkept
    have hundefined := (firstUndefined?_eq_none_iff backend schema).mpr hdeclared
    have hrepeated := (firstRepeated?_eq_none_iff [] _).mpr ⟨hdistinct, by simp⟩
    have harray := (firstEmptyArray?_eq_some_iff schema _ _).mpr ⟨_, _, hfirst, rfl, rfl⟩
    rw [generate_of_emitEnums_ok hes, validate, hundefined, hrepeated, harray]
    rfl
  | accepted hunits hdeclared hdistinct hlengths =>
    have hes := (emitEnums_eq_ok_iff _ _ _).mpr hunits
    have hundefined := (firstUndefined?_eq_none_iff backend schema).mpr hdeclared
    have hrepeated := (firstRepeated?_eq_none_iff [] _).mpr ⟨hdistinct, by simp⟩
    have harray := (firstEmptyArray?_eq_none_iff schema).mpr hlengths
    rw [generate_of_emitEnums_ok hes, validate, hundefined, hrepeated, harray]
    rfl

/-- Generating headers ends with a result exactly if that is the verdict. -/
theorem generate_eq_iff (backend : Backend) (schema : Schema)
    (result : Except Failure Generated) :
    generate backend schema = result ↔ Verdict backend schema result :=
  ⟨fun h => h ▸ verdict_generate backend schema, Verdict.generate_eq⟩

end SchemaHeaders
