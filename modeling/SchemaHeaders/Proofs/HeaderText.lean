import SchemaHeaders.Proofs.DecimalText
import SchemaHeaders.Proofs.Identifiers
import SchemaHeaders.Proofs.Verdict

/-!
# The text of a header determines its declaration

A header can be read back : `code_eq_iff` says that two entries whose names are identifiers have
headers of one text exactly if they are of one kind and agree in what headers say of a type
(`SchemaEntry.outline`), which is its name, the spelling of each type in it, the names of its
members or fields, and their values or lengths. How the names were spelled in the schema is lost,
and so is which of two primitive types of one spelling was meant.

The proof reads two equal texts in step. Each part of a text is followed by a character that cannot
belong to it, so that equal texts have equal parts there and go on with equal texts
(`Text.run_append_inj`); lines are told apart from what ends a declaration by the tab they begin
with (`Cpp.join_append_inj`).
-/

namespace SchemaHeaders

open Text Naming

/-! ## Runs of characters -/

namespace Text

/-- A text does not go on with a character of a class. -/
def Ends (p : Char → Bool) (rest : List Char) : Prop := ∀ c ∈ rest.head?, p c = false

theorem ends_cons {p : Char → Bool} {c : Char} (h : p c = false) (cs : List Char) :
    Ends p (c :: cs) := by
  rintro _ ⟨⟩
  exact h

/-- Of equal texts, those begin with one run of a class that begin with a run of it at all. -/
theorem run_append_inj {p : Char → Bool} : ∀ {a b rest rest' : List Char},
    (∀ c ∈ a, p c = true) → (∀ c ∈ b, p c = true) → Ends p rest → Ends p rest' →
    a ++ rest = b ++ rest' → a = b ∧ rest = rest'
  | [], [], _, _, _, _, _, _, h => ⟨rfl, h⟩
  | [], c :: b, rest, _, _, hb, hrest, _, h => by
    have hc := hrest c (by rw [show rest = c :: (b ++ _) from h]; rfl)
    rw [hb c (List.mem_cons_self ..)] at hc
    cases hc
  | c :: a, [], _, rest', ha, _, _, hrest', h => by
    have hc := hrest' c (by rw [← show c :: (a ++ _) = rest' from h]; rfl)
    rw [ha c (List.mem_cons_self ..)] at hc
    cases hc
  | c :: a, d :: b, _, _, ha, hb, hrest, hrest', h => by
    obtain ⟨rfl, htails⟩ := List.cons.inj h
    obtain ⟨rfl, hrests⟩ := run_append_inj (fun x hx => ha x (List.mem_cons_of_mem _ hx))
      (fun x hx => hb x (List.mem_cons_of_mem _ hx)) hrest hrest' htails
    exact ⟨rfl, hrests⟩

theorem digits_injective {n m : Nat} (h : digits n = digits m) : n = m := by
  have hvalue := congrArg (value? 10) h
  rw [value?_digits, value?_digits] at hvalue
  exact Option.some.inj hvalue

theorem minus_not_mem_digits (n : Nat) : '-' ∉ digits n := by
  intro h
  cases isDigit_of_mem_digits n _ h

/-- Decimal texts of different integers are different. -/
theorem signed_injective {z w : Int} (h : signed z = signed w) : z = w := by
  rcases signed_cases z with ⟨hz, hzt⟩ | ⟨hz, hzt⟩ <;>
    rcases signed_cases w with ⟨hw, hwt⟩ | ⟨hw, hwt⟩ <;> rw [hzt, hwt] at h
  · have := digits_injective h
    omega
  · exact absurd (h ▸ List.mem_cons_self ..) (minus_not_mem_digits z.natAbs)
  · exact absurd (h ▸ List.mem_cons_self ..) (minus_not_mem_digits w.natAbs)
  · have := digits_injective (List.cons.inj h).2
    omega

end Text

/-! ## What headers say -/

/-- What a header says of a field. -/
structure FieldOutline where
  /-- whether the type is primitive -/
  isPrimitive : Bool
  /-- the spelling of the type -/
  type : String
  name : String
  length : Option UInt32
  deriving DecidableEq

/-- What the header of a struct says of a field of it. -/
def Field.outline (f : Field) : FieldOutline where
  isPrimitive := (Primitive.ofName? f.typeName).isSome
  type := (Backend.cpp.spelling? f.typeName).getD (pascalCase f.typeName)
  name := camelCase f.name
  length := f.length

/-- What a header says of the type that it declares. -/
inductive Outline where
  | enum (typeName : String) (underlying : Option String) (members : List (String × Option Int64))
  | struct (typeName : String) (fields : List FieldOutline)
  deriving DecidableEq

/-- The name of the type. -/
def Outline.typeName : Outline → String
  | enum typeName _ _ => typeName
  | struct typeName _ => typeName

/-- An enum or a struct of a schema. -/
inductive SchemaEntry where
  | enum (e : EnumEntry)
  | struct (s : StructEntry)
  deriving DecidableEq

namespace SchemaEntry

/-- The header of an entry. -/
def emit (backend : Backend) : SchemaEntry → Except Failure HeaderUnit
  | enum e => emitEnum backend e
  | struct s => .ok (emitStruct backend s)

/-- What the header of an entry says. -/
def outline : SchemaEntry → Outline
  | enum e => .enum (pascalCase e.name) (e.underlying.bind Backend.cpp.spelling?)
      (e.members.map fun m => (pascalCase m.name, m.value))
  | struct s => .struct (pascalCase s.name) (s.fields.map (·.outline))

/-- The names of an entry are identifiers, those of types that are not primitive among them. -/
def Identified : SchemaEntry → Prop
  | enum e => IsIdentifier e.name ∧ ∀ m ∈ e.members, IsIdentifier m.name
  | struct s => IsIdentifier s.name ∧ ∀ f ∈ s.fields, IsIdentifier f.name ∧
      (Primitive.ofName? f.typeName = none → IsIdentifier f.typeName)

end SchemaEntry

/-- A name of letters and digits. -/
def Solid (name : String) : Prop := ∀ c ∈ name.toList, c.isAlphanum = true

/-- Whether the type of a field is primitive. -/
def FieldType.isPrimitive : FieldType → Bool
  | .primitive _ => true
  | .named _ => false

/-- What a header says of a declared field. -/
def FieldDecl.outline (f : FieldDecl) : FieldOutline :=
  ⟨f.type.isPrimitive, Cpp.typeSpelling f.type, f.name, f.length⟩

/-- A field whose name has letters and digits only, of a type with the name of one. -/
structure FieldDecl.Readable (f : FieldDecl) : Prop where
  name : Solid f.name
  type : ∀ typeName, f.type = .named typeName → IsTypeName typeName

namespace Cpp

/-! ## Lines -/

section Lines

variable {α β : Type} {line : α → String} {P : α → Prop}

/-- If every line begins with a tab and can be told from what follows it, then so can the lines of a
declaration. -/
theorem join_append_inj (view : α → β) (hindent : ∀ a, ∃ cs, (line a).toList = '\t' :: cs)
    (hline : ∀ {a b : α} {rest rest' : List Char}, P a → P b →
      (line a).toList ++ rest = (line b).toList ++ rest' → view a = view b ∧ rest = rest') :
    ∀ {as bs : List α} {rest rest' : List Char}, (∀ a ∈ as, P a) → (∀ b ∈ bs, P b) →
      Ends (· == '\t') rest → Ends (· == '\t') rest' →
      (String.join (as.map line)).toList ++ rest = (String.join (bs.map line)).toList ++ rest' →
      as.map view = bs.map view ∧ rest = rest'
  | [], [], _, _, _, _, _, _, h => ⟨rfl, h⟩
  | [], b :: bs, rest, rest', _, _, hrest, _, h => by
    obtain ⟨cs, hcs⟩ := hindent b
    simp only [List.map_cons, String.join_cons, String.toList_append, hcs] at h
    cases hrest '\t' (by rw [show rest = '\t' :: _ from h]; rfl)
  | a :: as, [], rest, rest', _, _, _, hrest', h => by
    obtain ⟨cs, hcs⟩ := hindent a
    simp only [List.map_cons, String.join_cons, String.toList_append, hcs] at h
    cases hrest' '\t' (by rw [← show '\t' :: _ = rest' from h]; rfl)
  | a :: as, b :: bs, _, _, has, hbs, hrest, hrest', h => by
    simp only [List.map_cons, String.join_cons, String.toList_append, List.append_assoc] at h
    obtain ⟨hview, h⟩ := hline (has a (List.mem_cons_self ..)) (hbs b (List.mem_cons_self ..)) h
    obtain ⟨hviews, hrests⟩ := join_append_inj view hindent hline
      (fun a ha => has a (List.mem_cons_of_mem _ ha))
      (fun b hb => hbs b (List.mem_cons_of_mem _ hb)) hrest hrest' h
    exact ⟨by rw [List.map_cons, List.map_cons, hview, hviews], hrests⟩

end Lines

/-! ## Enum declarations -/

/-- What follows the name of a member on its line. -/
def valueChars : Option Int64 → List Char
  | some v => ' ' :: '=' :: ' ' :: (signed v.toInt ++ [',', '\n'])
  | none => [',', '\n']

theorem toList_memberLine (m : MemberDecl) :
    (memberLine m).toList = '\t' :: (m.name.toList ++ valueChars m.value) := by
  unfold memberLine valueChars
  cases m.value <;> simp

theorem valueChars_append_inj {v w : Option Int64} {rest rest' : List Char}
    (h : valueChars v ++ rest = valueChars w ++ rest') : v = w ∧ rest = rest' := by
  cases v with
  | none =>
    cases w with
    | none => exact ⟨rfl, by simpa [valueChars] using h⟩
    | some w => exact absurd (List.cons.inj h).1 (by decide)
  | some v =>
    cases w with
    | none => exact absurd (List.cons.inj h).1 (by decide)
    | some w =>
      simp only [valueChars, List.cons_append, List.append_assoc, List.cons.injEq, true_and,
        List.nil_append] at h
      have hsigned : ∀ z, ∀ c ∈ signed z, (c.isDigit || c == '-') = true := fun z c hc => by
        simpa using isDigit_of_mem_signed hc
      obtain ⟨hvalue, h⟩ :=
        run_append_inj (hsigned _) (hsigned _) (ends_cons rfl _) (ends_cons rfl _) h
      obtain rfl := Int64.toInt_inj.mp (signed_injective hvalue)
      exact ⟨rfl, by simpa using h⟩

theorem ends_valueChars (v : Option Int64) (rest : List Char) :
    Ends Char.isAlphanum (valueChars v ++ rest) := by
  cases v <;> exact ends_cons rfl _

theorem memberLine_append_inj {m m' : MemberDecl} {rest rest' : List Char} (hm : Solid m.name)
    (hm' : Solid m'.name) (h : (memberLine m).toList ++ rest = (memberLine m').toList ++ rest') :
    m = m' ∧ rest = rest' := by
  rw [toList_memberLine, toList_memberLine, List.cons_append, List.cons_append, List.append_assoc,
    List.append_assoc] at h
  obtain ⟨hname, h⟩ := run_append_inj hm hm' (ends_valueChars _ _) (ends_valueChars _ _)
    (List.cons.inj h).2
  obtain ⟨hvalue, hrest⟩ := valueChars_append_inj h
  cases m
  cases m'
  exact ⟨by rw [MemberDecl.mk.injEq]; exact ⟨String.toList_inj.mp hname, hvalue⟩, hrest⟩

/-- A character of the spelling of a type. -/
def isTypeChar (c : Char) : Bool := c.isAlphanum || c == '_'

theorem isTypeChar_spelling (p : Primitive) : ∀ c ∈ (spelling p).toList, isTypeChar c = true := by
  cases p <;> decide

theorem underlyingSuffix_append_inj {u u' : Option Primitive} {rest rest' : List Char}
    (h : (underlyingSuffix u).toList ++ '\n' :: rest =
      (underlyingSuffix u').toList ++ '\n' :: rest') :
    u.map spelling = u'.map spelling ∧ rest = rest' := by
  have hsome : ∀ p, (underlyingSuffix (some p)).toList =
      ' ' :: ':' :: ' ' :: (spelling p).toList := fun p => by simp [underlyingSuffix]
  cases u with
  | none =>
    cases u' with
    | none => exact ⟨rfl, (List.cons.inj h).2⟩
    | some p =>
      rw [hsome] at h
      exact absurd (List.cons.inj h).1 (by decide)
  | some p =>
    cases u' with
    | none =>
      rw [hsome] at h
      exact absurd (List.cons.inj h).1 (by decide)
    | some q =>
      simp only [hsome, List.cons_append, List.cons.injEq, true_and] at h
      obtain ⟨hspelling, h⟩ := run_append_inj (isTypeChar_spelling p) (isTypeChar_spelling q)
        (ends_cons rfl _) (ends_cons rfl _) h
      exact ⟨congrArg some (String.toList_inj.mp hspelling), (List.cons.inj h).2⟩

theorem ends_underlyingSuffix (u : Option Primitive) (rest : List Char) :
    Ends Char.isAlphanum ((underlyingSuffix u).toList ++ '\n' :: rest) := by
  cases u with
  | none => exact ends_cons rfl _
  | some p =>
    rw [underlyingSuffix, String.toList_append]
    exact ends_cons rfl _

theorem underlyingSuffix_congr {u u' : Option Primitive} (h : u.map spelling = u'.map spelling) :
    underlyingSuffix u = underlyingSuffix u' := by
  cases u <;> cases u' <;> simp_all [underlyingSuffix]

/-- Enum declarations are of one text exactly if they differ at most in the choice between primitive
types of one spelling. -/
theorem renderEnum_eq_iff {name name' : String} (underlying underlying' : Option Primitive)
    {members members' : List MemberDecl} (hname : Solid name) (hname' : Solid name')
    (hmembers : ∀ m ∈ members, Solid m.name) (hmembers' : ∀ m ∈ members', Solid m.name) :
    renderEnum ⟨name, underlying, members⟩ = renderEnum ⟨name', underlying', members'⟩ ↔
      name = name' ∧ underlying.map spelling = underlying'.map spelling ∧ members = members' := by
  constructor
  · intro h
    have htext := congrArg String.toList h
    have hopen : "\n\x7b\n".toList = ['\n', '\x7b', '\n'] := by decide
    have hclose : "\x7d;\n".toList = ['\x7d', ';', '\n'] := by decide
    simp only [renderEnum, String.toList_append, List.append_assoc, hopen, hclose, List.cons_append,
      List.nil_append] at htext
    obtain ⟨hnames, htext⟩ := run_append_inj hname hname' (ends_underlyingSuffix _ _)
      (ends_underlyingSuffix _ _) (List.append_cancel_left htext)
    obtain ⟨hunderlying, htext⟩ := underlyingSuffix_append_inj htext
    have hlines := join_append_inj id (fun m => ⟨_, toList_memberLine m⟩)
      memberLine_append_inj hmembers hmembers' (ends_cons rfl _) (ends_cons rfl _)
      (List.cons.inj (List.cons.inj htext).2).2
    exact ⟨String.toList_inj.mp hnames, hunderlying, by simpa using hlines.1⟩
  · rintro ⟨rfl, hunderlying, rfl⟩
    simp only [renderEnum, underlyingSuffix_congr hunderlying]

/-! ## Struct declarations -/

theorem isTypeChar_typeSpelling {f : FieldDecl} (hf : f.Readable) :
    ∀ c ∈ (typeSpelling f.type).toList, isTypeChar c = true := by
  cases htype : f.type with
  | primitive p => exact isTypeChar_spelling p
  | named typeName =>
    intro c hc
    rw [isTypeChar, (hf.type _ htype).chars c hc, Bool.true_or]

theorem not_isTypeName_spelling (p : Primitive) : ¬IsTypeName (spelling p) := by
  cases p <;> decide

/-- A declared type is never spelled as a primitive type is. -/
theorem isPrimitive_eq {f f' : FieldDecl} (hf : f.Readable) (hf' : f'.Readable)
    (h : typeSpelling f.type = typeSpelling f'.type) :
    f.type.isPrimitive = f'.type.isPrimitive := by
  cases htype : f.type with
  | primitive p =>
    cases htype' : f'.type with
    | primitive q => rfl
    | named typeName =>
      rw [htype, htype'] at h
      exact absurd (hf'.type _ (htype'.trans (congrArg FieldType.named h.symm)))
        (not_isTypeName_spelling p)
  | named typeName =>
    cases htype' : f'.type with
    | primitive q =>
      rw [htype, htype'] at h
      exact absurd (hf.type _ (htype.trans (congrArg FieldType.named h)))
        (not_isTypeName_spelling q)
    | named typeName' => rfl

/-- What follows the name of a field on its line. -/
def lengthChars : Option UInt32 → List Char
  | some n => '[' :: (digits n.toNat ++ [']', ';', '\n'])
  | none => [';', '\n']

theorem toList_fieldLine (f : FieldDecl) :
    (fieldLine f).toList =
      '\t' :: ((typeSpelling f.type).toList ++ ' ' :: (f.name.toList ++ lengthChars f.length)) := by
  unfold fieldLine lengthChars lengthSuffix
  cases f.length <;> simp

theorem lengthChars_append_inj {n m : Option UInt32} {rest rest' : List Char}
    (h : lengthChars n ++ rest = lengthChars m ++ rest') : n = m ∧ rest = rest' := by
  cases n with
  | none =>
    cases m with
    | none => exact ⟨rfl, by simpa [lengthChars] using h⟩
    | some m => exact absurd (List.cons.inj h).1 (by decide)
  | some n =>
    cases m with
    | none => exact absurd (List.cons.inj h).1 (by decide)
    | some m =>
      simp only [lengthChars, List.cons_append, List.append_assoc, List.cons.injEq, true_and,
        List.nil_append] at h
      obtain ⟨hlength, h⟩ := run_append_inj (isDigit_of_mem_digits _) (isDigit_of_mem_digits _)
        (ends_cons rfl _) (ends_cons rfl _) h
      obtain rfl := UInt32.toNat_inj.mp (digits_injective hlength)
      exact ⟨rfl, by simpa using h⟩

theorem ends_lengthChars (n : Option UInt32) (rest : List Char) :
    Ends Char.isAlphanum (lengthChars n ++ rest) := by
  cases n <;> exact ends_cons rfl _

theorem fieldLine_append_inj {f f' : FieldDecl} {rest rest' : List Char} (hf : f.Readable)
    (hf' : f'.Readable) (h : (fieldLine f).toList ++ rest = (fieldLine f').toList ++ rest') :
    f.outline = f'.outline ∧ rest = rest' := by
  simp only [toList_fieldLine, List.cons_append, List.append_assoc, List.cons.injEq, true_and] at h
  obtain ⟨htype, h⟩ := run_append_inj (isTypeChar_typeSpelling hf) (isTypeChar_typeSpelling hf')
    (ends_cons rfl _) (ends_cons rfl _) h
  obtain ⟨hname, h⟩ := run_append_inj hf.name hf'.name (ends_lengthChars _ _) (ends_lengthChars _ _)
    (List.cons.inj h).2
  obtain ⟨hlength, hrest⟩ := lengthChars_append_inj h
  have htype := String.toList_inj.mp htype
  refine ⟨?_, hrest⟩
  rw [FieldDecl.outline, FieldDecl.outline, isPrimitive_eq hf hf' htype, htype,
    String.toList_inj.mp hname, hlength]

/-- The line of a field, by what it says. -/
def outlineLine (f : FieldOutline) : String :=
  "\t" ++ f.type ++ " " ++ f.name ++ lengthSuffix f.length ++ ";\n"

theorem map_fieldLine (fields : List FieldDecl) :
    fields.map fieldLine = (fields.map (·.outline)).map outlineLine := by
  rw [List.map_map]
  rfl

/-- Struct declarations are of one text exactly if they say one thing of the type. -/
theorem renderStruct_eq_iff {name name' : String} {fields fields' : List FieldDecl}
    (hname : Solid name) (hname' : Solid name') (hfields : ∀ f ∈ fields, f.Readable)
    (hfields' : ∀ f ∈ fields', f.Readable) :
    renderStruct ⟨name, fields⟩ = renderStruct ⟨name', fields'⟩ ↔
      name = name' ∧ fields.map (·.outline) = fields'.map (·.outline) := by
  constructor
  · intro h
    have htext := congrArg String.toList h
    have hopen : "\n\x7b\n".toList = ['\n', '\x7b', '\n'] := by decide
    have hclose : "\x7d;\n".toList = ['\x7d', ';', '\n'] := by decide
    simp only [renderStruct, String.toList_append, List.append_assoc, hopen, hclose,
      List.cons_append, List.nil_append] at htext
    obtain ⟨hnames, htext⟩ := run_append_inj hname hname' (ends_cons rfl _) (ends_cons rfl _)
      (List.append_cancel_left htext)
    simp only [List.cons.injEq, true_and] at htext
    have hlines := join_append_inj FieldDecl.outline (fun f => ⟨_, toList_fieldLine f⟩)
      fieldLine_append_inj hfields hfields' (ends_cons rfl _) (ends_cons rfl _) htext
    exact ⟨String.toList_inj.mp hnames, hlines.1⟩
  · rintro ⟨rfl, houtlines⟩
    simp only [renderStruct, map_fieldLine, houtlines]

/-- No enum is declared as a struct is. -/
theorem renderEnum_ne_renderStruct (d : EnumDecl) (d' : StructDecl) :
    renderEnum d ≠ renderStruct d' := by
  intro h
  have htext := congrArg String.toList h
  simp only [renderEnum, renderStruct, String.toList_append, List.append_assoc] at htext
  have henum : "enum ".toList = 'e' :: "num ".toList := by decide
  have hstruct : "struct ".toList = 's' :: "truct ".toList := by decide
  rw [henum, hstruct, List.cons_append, List.cons_append] at htext
  exact absurd (List.cons.inj htext).1 (by decide)

/-! ## Headers -/

theorem frame_injective {typeName body body' : String}
    (h : frame typeName body = frame typeName body') : body = body' := by
  unfold frame at h
  iterate 4 replace h := (String.append_left_inj _).mp h
  exact (String.append_right_inj _).mp h

theorem isTypeChar_guardName {typeName : String} (h : Solid typeName) :
    ∀ c ∈ (guardName typeName).toList, isTypeChar c = true := by
  intro c hc
  rw [guardName, upperCase, String.toList_append, String.toList_ofList,
    flatMap_upper_of_ascii fun c hc => ascii_of_isAlphanum (h c hc)] at hc
  rcases List.mem_append.mp hc with hc | hc
  · obtain ⟨d, hd, rfl⟩ := List.mem_map.mp hc
    rw [isTypeChar, isAlphanum_toUpper (h d hd), Bool.true_or]
  · have hsuffix : ∀ c ∈ "_H".toList, isTypeChar c = true := by decide
    exact hsuffix c hc

/-- A line of characters of a class is told apart from what follows it. -/
theorem eq_of_line_append {p : Char → Bool} (hbreak : p '\n' = false)
    {line line' rest rest' : String} (hline : ∀ c ∈ line.toList, p c = true)
    (hline' : ∀ c ∈ line'.toList, p c = true)
    (h : line ++ ("\n" ++ rest) = line' ++ ("\n" ++ rest')) : line = line' := by
  have htext := congrArg String.toList h
  simp only [String.toList_append] at htext
  exact String.toList_inj.mp
    (run_append_inj hline hline' (ends_cons hbreak _) (ends_cons hbreak _) htext).1

theorem guardName_eq_of_frame_eq {typeName typeName' body body' : String} (h : Solid typeName)
    (h' : Solid typeName') (hframe : frame typeName body = frame typeName' body') :
    guardName typeName = guardName typeName' := by
  unfold frame at hframe
  simp only [String.append_assoc] at hframe
  iterate 3 replace hframe := (String.append_right_inj _).mp hframe
  exact eq_of_line_append rfl (isTypeChar_guardName h) (isTypeChar_guardName h') hframe

/-- The text of a header determines the declaration that it frames. -/
theorem frame_inj {typeName typeName' body body' : String} (h : Solid typeName)
    (h' : Solid typeName') (hframe : frame typeName body = frame typeName' body') :
    body = body' := by
  have hguard := guardName_eq_of_frame_eq h h' hframe
  have hsame : frame typeName' body' = frame typeName body' := by
    unfold frame
    rw [hguard]
  exact frame_injective (hframe.trans hsame)

/-- Headers are of one text exactly if they frame one declaration, as it names its type. -/
theorem frame_eq_iff {typeName typeName' body body' : String} (h : Solid typeName)
    (h' : Solid typeName') (hnamed : body = body' → typeName = typeName') :
    frame typeName body = frame typeName' body' ↔ body = body' :=
  ⟨frame_inj h h', fun hbody => by rw [hnamed hbody, hbody]⟩

end Cpp

/-! ## Entries -/

theorem Solid.pascalCase {name : String} (h : IsIdentifier name) : Solid (pascalCase name) :=
  (isTypeName_pascalCase h).chars

theorem Field.readable_declare {f : Field} (hname : IsIdentifier f.name)
    (htype : Primitive.ofName? f.typeName = none → IsIdentifier f.typeName) :
    f.declare.Readable where
  name := isAlphanum_camelCase hname
  type := by
    intro typeName hnamed
    rw [Field.declare] at hnamed
    cases hprimitive : Primitive.ofName? f.typeName with
    | some p =>
      rw [hprimitive] at hnamed
      cases hnamed
    | none =>
      rw [hprimitive] at hnamed
      cases hnamed
      exact isTypeName_pascalCase (htype hprimitive)

/-- A declared field is spelled as its entry says. -/
theorem Field.outline_declare (f : Field) : f.declare.outline = f.outline := by
  rw [FieldDecl.outline, Field.declare, Field.outline, Backend.spelling?]
  cases Primitive.ofName? f.typeName <;> rfl

theorem Field.map_outline_declare (fields : List Field) :
    (fields.map (·.declare)).map (·.outline) = fields.map (·.outline) := by
  rw [List.map_map]
  exact List.map_congr_left fun f _ => f.outline_declare

theorem EnumEntry.spelling_underlyingType {e : EnumEntry} {underlying : Option Primitive}
    (h : e.underlyingType = .ok underlying) :
    underlying.map Cpp.spelling = e.underlying.bind Backend.cpp.spelling? := by
  unfold EnumEntry.underlyingType at h
  cases htype : e.underlying with
  | none =>
    rw [htype] at h
    cases h
    rfl
  | some type =>
    rw [Option.bind_some, Backend.spelling?]
    cases hprimitive : Primitive.ofName? type with
    | some p =>
      simp only [htype, hprimitive] at h
      cases h
      rfl
    | none =>
      simp only [htype, hprimitive] at h
      cases h

theorem EnumEntry.declare_members_inj {members members' : List EnumMember} :
    members.map (·.declare) = members'.map (·.declare) ↔
      members.map (fun m => (pascalCase m.name, m.value)) =
        members'.map fun m => (pascalCase m.name, m.value) := by
  have hview : ∀ members : List EnumMember, (members.map fun m => (pascalCase m.name, m.value)) =
      (members.map (·.declare)).map fun d => (d.name, d.value) := fun members => by
    rw [List.map_map]
    rfl
  rw [hview, hview]
  refine (List.map_injective_iff.mpr ?_).eq_iff.symm
  rintro ⟨name, value⟩ ⟨name', value'⟩ h
  obtain ⟨rfl, rfl⟩ := Prod.mk.inj h
  rfl

namespace SchemaEntry

variable {unit unit' : HeaderUnit}

theorem code_enum_eq_iff {e e' : EnumEntry} (h : emitEnum .cpp e = .ok unit)
    (h' : emitEnum .cpp e' = .ok unit') (hnames : (enum e).Identified)
    (hnames' : (enum e').Identified) :
    unit.code = unit'.code ↔ (enum e).outline = (enum e').outline := by
  obtain ⟨underlying, hunderlying, rfl⟩ := emitEnum_declares h
  obtain ⟨underlying', hunderlying', rfl⟩ := emitEnum_declares h'
  have hsolid : ∀ {e : EnumEntry}, (enum e).Identified →
      ∀ d ∈ e.members.map (·.declare), Solid d.name := by
    intro e hnames d hd
    obtain ⟨m, hm, rfl⟩ := List.mem_map.mp hd
    exact .pascalCase (hnames.2 m hm)
  have hrender := Cpp.renderEnum_eq_iff underlying underlying' (.pascalCase hnames.1)
    (.pascalCase hnames'.1) (hsolid hnames) (hsolid hnames')
  refine (Cpp.frame_eq_iff (.pascalCase hnames.1) (.pascalCase hnames'.1)
    fun hbody => (hrender.mp hbody).1).trans (hrender.trans ?_)
  rw [outline, outline, Outline.enum.injEq, EnumEntry.spelling_underlyingType hunderlying,
    EnumEntry.spelling_underlyingType hunderlying', EnumEntry.declare_members_inj]

theorem code_struct_eq_iff {s s' : StructEntry} (hnames : (struct s).Identified)
    (hnames' : (struct s').Identified) :
    (emitStruct .cpp s).code = (emitStruct .cpp s').code ↔
      (struct s).outline = (struct s').outline := by
  have hreadable : ∀ {s : StructEntry}, (struct s).Identified →
      ∀ d ∈ s.fields.map (·.declare), d.Readable := by
    intro s hnames d hd
    obtain ⟨f, hf, rfl⟩ := List.mem_map.mp hd
    exact f.readable_declare (hnames.2 f hf).1 (hnames.2 f hf).2
  have hrender := Cpp.renderStruct_eq_iff (.pascalCase hnames.1) (.pascalCase hnames'.1)
    (hreadable hnames) (hreadable hnames')
  refine (Cpp.frame_eq_iff (.pascalCase hnames.1) (.pascalCase hnames'.1)
    fun hbody => (hrender.mp hbody).1).trans (hrender.trans ?_)
  rw [outline, outline, Outline.struct.injEq, Field.map_outline_declare, Field.map_outline_declare]

theorem code_enum_ne_struct {e : EnumEntry} (h : emitEnum .cpp e = .ok unit) (s : StructEntry)
    (hnames : (enum e).Identified) (hnames' : (struct s).Identified) :
    unit.code ≠ (emitStruct .cpp s).code := by
  obtain ⟨underlying, -, rfl⟩ := emitEnum_declares h
  intro hcode
  change Cpp.frame (pascalCase e.name) _ = Cpp.frame (pascalCase s.name) _ at hcode
  exact Cpp.renderEnum_ne_renderStruct _ _
    (Cpp.frame_inj (.pascalCase hnames.1) (.pascalCase hnames'.1) hcode)

/-- The name of the type that a header declares. -/
theorem typeName_of_emit : ∀ {entry : SchemaEntry}, entry.emit .cpp = .ok unit →
    unit.typeName = entry.outline.typeName
  | enum _, h => by
    obtain ⟨_, -, rfl⟩ := emitEnum_declares h
    rfl
  | struct _, h => by
    cases h
    rfl

end SchemaEntry

/-- Two headers of identified entries have one text if and only if they say the same : both declare
enums or both structs, of one name, with one list of members or fields. -/
theorem code_eq_iff {entry entry' : SchemaEntry} {unit unit' : HeaderUnit}
    (h : entry.emit .cpp = .ok unit) (h' : entry'.emit .cpp = .ok unit')
    (hnames : entry.Identified) (hnames' : entry'.Identified) :
    (unit.code = unit'.code ↔ entry.outline = entry'.outline) ∧
      (unit.code = unit'.code → unit.typeName = unit'.typeName) := by
  have hcode : unit.code = unit'.code ↔ entry.outline = entry'.outline := by
    cases entry with
    | enum e =>
      cases entry' with
      | enum e' => exact SchemaEntry.code_enum_eq_iff h h' hnames hnames'
      | struct s' =>
        cases h'
        exact iff_of_false (SchemaEntry.code_enum_ne_struct h s' hnames hnames') nofun
    | struct s =>
      cases h
      cases entry' with
      | enum e' =>
        exact iff_of_false (SchemaEntry.code_enum_ne_struct h' s hnames' hnames).symm nofun
      | struct s' =>
        cases h'
        exact SchemaEntry.code_struct_eq_iff hnames hnames'
  refine ⟨hcode, fun heq => ?_⟩
  rw [SchemaEntry.typeName_of_emit h, SchemaEntry.typeName_of_emit h', hcode.mp heq]

/-- Two enums that are spelled differently in a schema and alike in headers. -/
theorem code_eq_iff_respelled :
    let e : EnumEntry := ⟨"wire_op", some "int8", [⟨"read_all", some (-1)⟩, ⟨"end", some 7⟩]⟩
    let e' : EnumEntry := ⟨"Wire__OP", some "char", [⟨"READ_ALL", some (-1)⟩, ⟨"End_", some 7⟩]⟩
    ∃ unit unit', emitEnum .cpp e = .ok unit ∧ emitEnum .cpp e' = .ok unit' ∧
      unit.code = unit'.code ∧ unit.typeName = unit'.typeName ∧
      (SchemaEntry.enum e).outline = (SchemaEntry.enum e').outline := by
  intro e e'
  have hemit : emitEnum .cpp e = .ok ⟨"wire_op", "WireOp", Cpp.frame "WireOp" (Cpp.renderEnum
      ⟨"WireOp", some .int8, [⟨"ReadAll", some (-1)⟩, ⟨"End", some 7⟩]⟩), []⟩ := by
    decide +kernel
  have hemit' : emitEnum .cpp e' = .ok ⟨"Wire__OP", "WireOp", Cpp.frame "WireOp" (Cpp.renderEnum
      ⟨"WireOp", some .char, [⟨"ReadAll", some (-1)⟩, ⟨"End", some 7⟩]⟩), []⟩ := by
    decide +kernel
  obtain ⟨hcode, htypeName⟩ := @code_eq_iff (.enum e) (.enum e') _ _ hemit hemit'
    ⟨by decide, by decide⟩ ⟨by decide, by decide⟩
  have hsame : Cpp.renderEnum ⟨"WireOp", some .int8, [⟨"ReadAll", some (-1)⟩, ⟨"End", some 7⟩]⟩ =
      Cpp.renderEnum ⟨"WireOp", some .char, [⟨"ReadAll", some (-1)⟩, ⟨"End", some 7⟩]⟩ := rfl
  have hsame := congrArg (Cpp.frame "WireOp") hsame
  exact ⟨_, _, hemit, hemit', hsame, htypeName hsame, hcode.mp hsame⟩

end SchemaHeaders
