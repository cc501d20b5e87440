import SchemaHeaders.Proofs.DecimalText
import SchemaHeaders.Proofs.Verdict

/-!
# Enum headers

What becomes of one enum is settled by two things, the name of its underlying type and the
positions of its members with values. `EnumVerdict` says it without recursion : an underlying type
that is not primitive is reported whatever the members are, then a member without a value that comes
somewhere after one with a value; and an enum without either fault, whose members are hence some
without values and then some with values, becomes a header with one line for each member, in order.

`emitEnum_eq_iff` : the header of an enum ends with a result exactly if that result is its verdict.
-/

namespace SchemaHeaders

/-! ## Where values stand -/

/-- A member without a value stands at a position after one with a value. -/
def ValueGap (members : List EnumMember) : Prop :=
  ∃ i j : Nat, i < j ∧ (∃ m : EnumMember, members[i]? = some m ∧ m.value ≠ none) ∧
    ∃ m : EnumMember, members[j]? = some m ∧ m.value = none

/-- Members are some without values, followed only by some with values. -/
def ValuesLast (members : List EnumMember) : Prop :=
  ∃ unvalued valued, members = unvalued ++ valued ∧ (∀ m ∈ unvalued, m.value = none) ∧
    ∀ m ∈ valued, m.value ≠ none

/-- A gap behind a first member is one that it begins, or one that does without it. -/
theorem valueGap_cons_iff (m : EnumMember) (ms : List EnumMember) :
    ValueGap (m :: ms) ↔ (m.value ≠ none ∧ ∃ m' ∈ ms, m'.value = none) ∨ ValueGap ms := by
  constructor
  · rintro ⟨i, j, hij, ⟨valued, hi, hvalued⟩, unvalued, hj, hunvalued⟩
    obtain ⟨j, rfl⟩ : ∃ k, j = k + 1 := ⟨j - 1, by omega⟩
    rw [List.getElem?_cons_succ] at hj
    cases i with
    | zero =>
      obtain rfl : m = valued := by simpa using hi
      exact Or.inl ⟨hvalued, unvalued, List.mem_of_getElem? hj, hunvalued⟩
    | succ i =>
      rw [List.getElem?_cons_succ] at hi
      exact Or.inr ⟨i, j, by omega, ⟨valued, hi, hvalued⟩, unvalued, hj, hunvalued⟩
  · rintro (⟨hvalued, m', hm', hunvalued⟩ | ⟨i, j, hij, ⟨valued, hi, hvalued⟩, m', hj, hunvalued⟩)
    · obtain ⟨j, hj⟩ := List.mem_iff_getElem?.mp hm'
      exact ⟨0, j + 1, by omega, ⟨m, rfl, hvalued⟩, m', by simpa using hj, hunvalued⟩
    · exact ⟨i + 1, j + 1, by omega, ⟨valued, by simpa using hi, hvalued⟩, m', by simpa using hj,
        hunvalued⟩

/-- Behind a first member with a value all others have values. -/
theorem valuesLast_cons_of_valued {m : EnumMember} (h : m.value ≠ none) (ms : List EnumMember) :
    ValuesLast (m :: ms) ↔ ∀ m' ∈ ms, m'.value ≠ none := by
  constructor
  · rintro ⟨unvalued, valued, hms, hunvalued, hvalued⟩
    cases unvalued with
    | nil =>
      obtain rfl : m :: ms = valued := hms
      exact fun m' hm' => hvalued m' (List.mem_cons_of_mem m hm')
    | cons m' unvalued =>
      obtain ⟨rfl, -⟩ := List.cons.inj hms
      exact absurd (hunvalued m (by simp)) h
  · intro hms
    refine ⟨[], m :: ms, rfl, by simp, fun m' hm' => ?_⟩
    rcases List.mem_cons.mp hm' with rfl | hm'
    · exact h
    · exact hms m' hm'

theorem valuesLast_cons_of_unvalued {m : EnumMember} (h : m.value = none) (ms : List EnumMember) :
    ValuesLast (m :: ms) ↔ ValuesLast ms := by
  constructor
  · rintro ⟨unvalued, valued, hms, hunvalued, hvalued⟩
    cases unvalued with
    | nil =>
      obtain rfl : m :: ms = valued := hms
      exact absurd h (hvalued m (List.mem_cons_self ..))
    | cons m' unvalued =>
      obtain ⟨rfl, rfl⟩ := List.cons.inj hms
      exact ⟨unvalued, valued, rfl, fun x hx => hunvalued x (List.mem_cons_of_mem _ hx), hvalued⟩
  · rintro ⟨unvalued, valued, rfl, hunvalued, hvalued⟩
    refine ⟨m :: unvalued, valued, rfl, fun x hx => ?_, hvalued⟩
    rcases List.mem_cons.mp hx with rfl | hx
    · exact h
    · exact hunvalued x hx

/-- The test for a gap finds the two positions of one. -/
theorem gapAfterValue_iff_valueGap (members : List EnumMember) :
    gapAfterValue members = true ↔ ValueGap members := by
  induction members with
  | nil => simp [gapAfterValue, ValueGap]
  | cons m ms ih =>
    rw [gapAfterValue, valueGap_cons_iff, ← ih]
    cases hvalue : m.value with
    | none => simp
    | some z =>
      -- a gap later on needs a member without a value as well
      have hlater : ValueGap ms → ∃ m' ∈ ms, m'.value = none :=
        fun ⟨_, _, _, _, m', hj, hunvalued⟩ => ⟨m', List.mem_of_getElem? hj, hunvalued⟩
      simpa [ih] using hlater

/-- Values stand last exactly if there is no gap. -/
theorem valuesLast_iff_not_valueGap (members : List EnumMember) :
    ValuesLast members ↔ ¬ValueGap members := by
  induction members with
  | nil => simp [ValuesLast, ValueGap]
  | cons m ms ih =>
    by_cases hvalue : m.value = none
    · rw [valuesLast_cons_of_unvalued hvalue, valueGap_cons_iff, ih]
      simp [hvalue]
    · rw [valuesLast_cons_of_valued hvalue, ← gapAfterValue_iff_valueGap, gapAfterValue]
      simp [Option.isSome_iff_ne_none, hvalue]

/-! ## Texts -/

/-- What follows the name of a member on its line : its value, if it has one. -/
def valueText : Option Int → String
  | some z => " = " ++ toString z
  | none => ""

/-- The line of a member in a header. -/
def EnumMember.text (m : EnumMember) : String :=
  "\t" ++ pascalCase m.name ++ valueText (m.value.map Int64.toInt) ++ ",\n"

/-- What follows the name of an enum for the name of its underlying type. -/
inductive UnderlyingText : Option String → String → Prop
  | absent : UnderlyingText none ""
  | primitive (p : Primitive) : UnderlyingText (some p.name) (" : " ++ Cpp.spelling p)

/-- The unit of an enum, given what follows the name of the enum. -/
def EnumEntry.unit (e : EnumEntry) (underlying : String) : HeaderUnit where
  name := e.name
  typeName := pascalCase e.name
  code := Cpp.frame (pascalCase e.name) ("enum " ++ pascalCase e.name ++ underlying ++
    "\n\x7b\n" ++ String.join (e.members.map EnumMember.text) ++ "\x7d;\n")
  requiredTypes := []

theorem memberLine_declare (m : EnumMember) : Cpp.memberLine m.declare = m.text := by
  cases hvalue : m.value with
  | none => simp [Cpp.memberLine, EnumMember.declare, EnumMember.text, NameRole.apply, valueText,
      hvalue]
  | some z => simp [Cpp.memberLine, EnumMember.declare, EnumMember.text, NameRole.apply, valueText,
      hvalue, Text.ofList_signed, String.append_assoc]

theorem renderEnum_declare (name : String) (underlying : Option Primitive)
    (members : List EnumMember) :
    Cpp.renderEnum ⟨name, underlying, members.map (·.declare)⟩ =
      "enum " ++ name ++ Cpp.underlyingSuffix underlying ++ "\n\x7b\n" ++
        String.join (members.map EnumMember.text) ++ "\x7d;\n" := by
  rw [Cpp.renderEnum, List.map_map]
  congr 4
  exact funext memberLine_declare

/-! ## The verdict -/

/-- How the header of an enum ends. -/
inductive EnumVerdict (e : EnumEntry) : Except Failure HeaderUnit → Prop
  | invalidType {type : String} : e.underlying = some type → (∀ p : Primitive, p.name ≠ type) →
      EnumVerdict e (.error (.invalidDataType (pascalCase e.name) type))
  | missingValue {underlying : String} : UnderlyingText e.underlying underlying →
      ValueGap e.members → EnumVerdict e (.error (.missingValue (pascalCase e.name)))
  | emitted {underlying : String} : UnderlyingText e.underlying underlying →
      ValuesLast e.members → EnumVerdict e (.ok (e.unit underlying))

/-- The underlying type of an enum is refused, or has a text in headers. -/
theorem underlyingType_cases (e : EnumEntry) :
    (∃ type, e.underlying = some type ∧ (∀ p : Primitive, p.name ≠ type) ∧
      e.underlyingType = .error (.invalidDataType (pascalCase e.name) type)) ∨
    ∃ underlying, e.underlyingType = .ok underlying ∧
      UnderlyingText e.underlying (Cpp.underlyingSuffix underlying) := by
  rw [EnumEntry.underlyingType]
  cases htype : e.underlying with
  | none => exact Or.inr ⟨none, rfl, .absent⟩
  | some type =>
    cases hprimitive : Primitive.ofName? type with
    | none =>
      refine Or.inl ⟨type, rfl, (ofName?_eq_none_iff type).mp hprimitive, ?_⟩
      simp only [hprimitive]
      rfl
    | some p =>
      obtain rfl := Primitive.name_of_ofName? hprimitive
      refine Or.inr ⟨some p, ?_, .primitive p⟩
      simp only [hprimitive]

theorem emitEnum_of_underlyingType_error {backend : Backend} {e : EnumEntry} {failure : Failure}
    (h : e.underlyingType = .error failure) : emitEnum backend e = .error failure := by
  rw [emitEnum, h]
  rfl

theorem emitEnum_of_gap {backend : Backend} {e : EnumEntry} {underlying : Option Primitive}
    (h : e.underlyingType = .ok underlying) (hgap : gapAfterValue e.members = true) :
    emitEnum backend e = .error (.missingValue (pascalCase e.name)) := by
  rw [emitEnum, h, hgap]
  rfl

theorem emitEnum_of_no_gap {e : EnumEntry} {underlying : Option Primitive}
    (h : e.underlyingType = .ok underlying) (hgap : gapAfterValue e.members = false) :
    emitEnum .cpp e = .ok (e.unit (Cpp.underlyingSuffix underlying)) := by
  have hcode := renderEnum_declare (pascalCase e.name) underlying e.members
  rw [emitEnum, h, hgap, EnumEntry.unit, ← hcode]
  rfl

/-- The header of an enum ends as its verdict says. -/
theorem verdict_emitEnum (e : EnumEntry) : EnumVerdict e (emitEnum .cpp e) := by
  rcases underlyingType_cases e with ⟨type, htype, hnone, hrefused⟩ | ⟨underlying, hok, htext⟩
  · rw [emitEnum_of_underlyingType_error hrefused]
    exact .invalidType htype hnone
  · cases hgap : gapAfterValue e.members with
    | true =>
      rw [emitEnum_of_gap hok hgap]
      exact .missingValue htext ((gapAfterValue_iff_valueGap _).mp hgap)
    | false =>
      rw [emitEnum_of_no_gap hok hgap]
      refine .emitted htext ((valuesLast_iff_not_valueGap _).mpr ?_)
      rw [← gapAfterValue_iff_valueGap, hgap]
      exact Bool.false_ne_true

/-- A name has one text at most as that of an underlying type. -/
theorem UnderlyingText.eq {type : Option String} {text text' : String}
    (h : UnderlyingText type text) (h' : UnderlyingText type text') : text = text' := by
  cases h with
  | absent =>
    cases h'
    rfl
  | primitive p =>
    generalize hname : some p.name = name at h'
    cases h' with
    | absent => cases hname
    | primitive q => rw [Primitive.name_injective (Option.some.inj hname)]

/-- A name that has a text is not refused. -/
theorem UnderlyingText.exists_primitive {name text : String} (h : UnderlyingText (some name) text) :
    ∃ p : Primitive, p.name = name := by
  cases h with
  | primitive p => exact ⟨p, rfl⟩

/-- There is one verdict on an enum. -/
theorem EnumVerdict.eq {e : EnumEntry} {result result' : Except Failure HeaderUnit}
    (h : EnumVerdict e result) (h' : EnumVerdict e result') : result = result' := by
  have hrefused : ∀ {type text}, e.underlying = some type → (∀ p : Primitive, p.name ≠ type) →
      ¬UnderlyingText e.underlying text := by
    intro type text htype hnone htext
    rw [htype] at htext
    obtain ⟨p, hp⟩ := htext.exists_primitive
    exact hnone p hp
  cases h with
  | invalidType htype hnone =>
    cases h' with
    | invalidType htype' _ => rw [Option.some.inj (htype.symm.trans htype')]
    | missingValue htext _ => exact absurd htext (hrefused htype hnone)
    | emitted htext _ => exact absurd htext (hrefused htype hnone)
  | missingValue htext hgap =>
    cases h' with
    | invalidType htype hnone => exact absurd htext (hrefused htype hnone)
    | missingValue => rfl
    | emitted _ hlast => exact absurd hgap ((valuesLast_iff_not_valueGap _).mp hlast)
  | emitted htext hlast =>
    cases h' with
    | invalidType htype hnone => exact absurd htext (hrefused htype hnone)
    | missingValue _ hgap => exact absurd hgap ((valuesLast_iff_not_valueGap _).mp hlast)
    | emitted htext' _ => rw [htext.eq htext']

/-- The header of an enum ends with a result exactly if that is its verdict : a type that is not
primitive comes first, then a gap between values, and what has neither becomes a header with a line
for each member. -/
theorem emitEnum_eq_iff (e : EnumEntry) (result : Except Failure HeaderUnit) :
    emitEnum .cpp e = result ↔ EnumVerdict e result :=
  ⟨fun h => h ▸ verdict_emitEnum e, fun h => (verdict_emitEnum e).eq h⟩

/-- A header as it is written. -/
example :
    emitEnum .cpp ⟨"node_kind", some "uint8", [⟨"leaf", none⟩, ⟨"inner_node", some (-4)⟩]⟩ =
      .ok ⟨"node_kind", "NodeKind",
        "// Auto-generated by liquidgen\n" ++
        "// DO NOT EDIT - regenerate with: liquidgen generate\n" ++
        "\n" ++
        "#ifndef NODEKIND_H\n" ++
        "#define NODEKIND_H\n" ++
        "\n" ++
        "#include <cstdint>\n" ++
        "\n" ++
        "enum NodeKind : uint8_t\n" ++
        "\x7b\n" ++
        "\tLeaf,\n" ++
        "\tInnerNode = -4,\n" ++
        "\x7d;\n" ++
        "\n" ++
        "#endif // NODEKIND_H\n", []⟩ := by
  decide +kernel

end SchemaHeaders
