import SchemaHeaders.Proofs.JsonText
import SchemaHeaders.Toml.Document

/-!
# Data in TOML

`Schema.tomlText` writes a schema in two lines, the value of each on the rest of its line : tables
are written in braces and texts as they are in JSON.

`Leads s text s' rest` says that a reader in state `s` gets from a text to what is left of it in
state `s'`. A datum leads to the state that its value supplies (`leadsOn`), whatever is open around
it, as long as that is not too deep. The lines of a wide schema are read as a schema exactly if that
is the one of its integers (`Toml.schemaOf_eq_ok_iff`); an integer too large for any meaning leaves
the document with a part that is not whole.
-/

namespace SchemaHeaders

open Document (Node)

/-! ## Writing -/

/-- A key with its value. -/
def tomlEntry (entry : String × List Char) : List Char :=
  entry.1.toList ++ ' ' :: '=' :: ' ' :: entry.2

/-- TOML on one line. -/
def tomlShape : Shape (List Char) where
  text := quote
  integer := Text.signed
  list items := '[' :: (commaList items ++ [']'])
  table entries := '{' :: ' ' :: (commaList (entries.map tomlEntry) ++ [' ', '}'])

/-- A character as it is written between quotes. -/
def Toml.spellChar (c : Char) : List Char :=
  if c = '"' ∨ c = '\\' then ['\\', c]
  else if isAllowed c then [c]
  else ['\\', 'u', '0', '0', Text.digitChar (c.toNat / 16), Text.digitChar (c.toNat % 16)]

/-- A text as it is written between quotes. Control characters are escaped by their codes. -/
def Toml.spell (text : List Char) : List Char := text.flatMap spellChar

/-- A datum as a value of TOML. -/
def Datum.toml (d : Datum) : List Char := d.fold tomlShape

/-- A schema as two lines of TOML. -/
def Schema.tomlText (schema : Schema) : String :=
  String.ofList (tomlEntry ("enum", (Datum.list (schema.enums.map EnumEntry.datum)).toml) ++ '\n' ::
    tomlEntry ("struct", (Datum.list (schema.structs.map StructEntry.datum)).toml))

/-- A wide schema as two lines of TOML. -/
def WideSchema.tomlText (w : WideSchema) : String :=
  String.ofList (tomlEntry ("enum", w.lists.1.toml) ++ '\n' :: tomlEntry ("struct", w.lists.2.toml))

theorem Schema.tomlText_wide (schema : Schema) : schema.wide.tomlText = schema.tomlText := by
  simp [WideSchema.tomlText, tomlText, WideSchema.lists, wide, Function.comp_def,
    EnumEntry.datum_wide, StructEntry.datum_wide]

namespace Toml

/-- One or more characters of a word without quotes. -/
def IsBareKey (key : String) : Prop :=
  key.toList ≠ [] ∧ ∀ c ∈ key.toList, KeyDraft.isWordChar c = true

instance (key : String) : Decidable (IsBareKey key) := inferInstanceAs (Decidable (_ ∧ _))

theorem isBareKey_of_isKey {key : String} (h : IsKey key) : IsBareKey key :=
  ⟨h.1, fun c hc => by simp [KeyDraft.isWordChar, Text.isAlphanum_of_isLower (h.2.2 c hc)]⟩

/-- The TOML value of data. -/
def valueShape : Shape Value where
  text := .text
  integer := .integer
  list items := .list items false
  table := .table .braced

/-! ## The node -/

theorem perm_insertSorted {α : Type} (entry : String × α) (entries : List (String × α)) :
    (Entries.insertSorted entry entries).Perm (entry :: entries) := by
  induction entries with
  | nil => exact .refl _
  | cons e es ih =>
    rw [Entries.insertSorted]
    split
    case isTrue => exact .refl _
    case isFalse => exact (ih.cons e).trans (.swap entry e es)

theorem perm_sorted {α : Type} (entries : List (String × α)) :
    (Entries.sorted entries).Perm entries := by
  induction entries with
  | nil => exact .refl _
  | cons e es ih => exact (perm_insertSorted e _).trans (ih.cons e)

/-- TOML takes a text and an integer for nothing else, and sorts keys. -/
def dialect : Dialect := .strict Entries.sorted perm_sorted

theorem nodesOf_eq_map (values : List Value) : nodesOf values = values.map Value.toNode := by
  induction values with
  | nil => rfl
  | cons value values ih => rw [nodesOf, ih]; rfl

theorem entryNodesOf_eq_map (entries : List (String × Value)) :
    entryNodesOf entries = entries.map fun entry => (entry.1, entry.2.toNode) := by
  induction entries with
  | nil => rfl
  | cons entry entries ih => rw [entryNodesOf, ih]; rfl

theorem toNode_table {kind : TableKind} {entries : List (String × Datum)}
    (h : ∀ entry ∈ entries, (entry.2.fold valueShape).toNode = entry.2.node dialect) :
    (Value.table kind (entries.map fun entry => (entry.1, entry.2.fold valueShape))).toNode =
      (Datum.table entries).node dialect := by
  have hnodes : (entries.map fun entry => (entry.1, (entry.2.fold valueShape).toNode)) =
      entries.map fun entry => (entry.1, entry.2.node dialect) :=
    List.map_congr_left fun entry hentry => by rw [h entry hentry]
  rw [Value.toNode, entryNodesOf_eq_map, List.map_map, Datum.node_table, ← hnodes]
  rfl

/-- An integer that has a meaning somewhere in a document. -/
def InIntegerRange (z : Int) : Prop := integerRange.1 ≤ z ∧ z ≤ integerRange.2

/-- The value of data has their node, if their integers have a meaning. -/
theorem toNode_value {n : Nat} {d : Datum} (h : d.Fits InIntegerRange n) :
    (d.fold valueShape).toNode = d.node dialect := by
  induction h with
  | text => rfl
  | integer hz =>
    rw [Datum.fold, valueShape, Value.toNode]
    exact if_pos hz
  | @list n items _ ih =>
    rw [Datum.node_list, Datum.fold_list, ← List.map_congr_left ih]
    exact congrArg Node.ofList ((nodesOf_eq_map _).trans List.map_map)
  | @table n entries _ _ _ ih =>
    rw [Datum.fold_table]
    exact toNode_table ih

theorem whole_toNode_table {kind : TableKind} {entries : Entries}
    (h : (Value.table kind entries).toNode.whole = true) :
    ∀ entry ∈ entries, entry.2.toNode.whole = true := by
  rw [Value.toNode, entryNodesOf_eq_map] at h
  have hall := List.all_eq_true.mp h
  intro entry hentry
  have hsorted : (entry.1, entry.2.toNode) ∈
      Entries.sorted (entries.map fun entry => (entry.1, entry.2.toNode)) :=
    (perm_sorted _).mem_iff.mpr (List.mem_map_of_mem hentry)
  exact (Bool.and_eq_true_iff.mp (hall _ (List.mem_map_of_mem hsorted))).2

/-- Where the node of data is whole, their integers have a meaning. -/
theorem fits_of_whole {kind : Int → Prop} {n : Nat} {d : Datum} (h : d.Fits kind n)
    (hwhole : (d.fold valueShape).toNode.whole = true) : d.Fits InIntegerRange n := by
  induction h with
  | text hs => exact .text hs
  | @integer _ z _ =>
    rw [Datum.fold, valueShape, Value.toNode] at hwhole
    split at hwhole
    case isTrue hz => exact .integer hz
    case isFalse => cases hwhole
  | @list n items _ ih =>
    rw [Datum.fold_list, valueShape, Value.toNode, nodesOf_eq_map] at hwhole
    have hall := List.all_eq_true.mp hwhole
    refine .list fun d hd => ih d hd (hall _ ?_)
    exact List.mem_map_of_mem (List.mem_map_of_mem hd)
  | @table n entries hkeys _ hdistinct ih =>
    rw [Datum.fold_table] at hwhole
    have hall := whole_toNode_table hwhole
    refine .table hkeys (fun entry hentry => ih entry hentry ?_) hdistinct
    exact hall _ (List.mem_map_of_mem hentry)

/-! ## Reading -/

/-- What a reader makes of a text after a character. -/
def readFrom (s : State) (before : Option Char) (text : List Char) : Option State :=
  (Token.scanFrom before 0 text).bind s.run

/-- A reader gets from a text to what is left of it in another state. -/
def Leads (s : State) (text : List Char) (s' : State) (rest : List Char) : Prop :=
  ∀ before, ∃ before', readFrom s before text = readFrom s' before' rest

theorem Leads.trans {s s' s'' : State} {text text' text'' : List Char} (h : Leads s text s' text')
    (h' : Leads s' text' s'' text'') : Leads s text s'' text'' := by
  intro before
  obtain ⟨before', hread⟩ := h before
  obtain ⟨before'', hread'⟩ := h' before'
  exact ⟨before'', hread.trans hread'⟩

theorem scanFrom_skip (before : Option Char) (cs rest : List Char) :
    ∃ before', Token.scanFrom before cs.length (cs ++ rest) = Token.scanFrom before' 0 rest := by
  induction cs generalizing before with
  | nil => exact ⟨before, rfl⟩
  | cons c cs ih =>
    obtain ⟨before', h⟩ := ih (some c)
    exact ⟨before', by rw [← h]; rfl⟩

/-- A token leads to the next state. -/
theorem leads_token {s s' : State} {c : Char} {cs rest : List Char}
    (h : ∀ before, ∃ t, tokenAt? before c (cs ++ rest) = some (some t, cs.length) ∧
      s.step t = some s') : Leads s (c :: (cs ++ rest)) s' rest := by
  intro before
  obtain ⟨t, htoken, hstep⟩ := h before
  obtain ⟨before', hskip⟩ := scanFrom_skip (some c) cs rest
  refine ⟨before', ?_⟩
  rw [readFrom, Token.scanFrom, htoken]
  simp only [hskip]
  cases hrest : Token.scanFrom before' 0 rest with
  | none => simp [readFrom, hrest]
  | some ts => simp [readFrom, hrest, State.run, hstep]

/-- A token of one character leads to the next state. -/
theorem leads_sign {s s' : State} {c : Char} {rest : List Char}
    (h : ∀ before, ∃ t, tokenAt? before c rest = some (some t, 0) ∧ s.step t = some s') :
    Leads s (c :: rest) s' rest :=
  @leads_token s s' c [] rest h

/-- Spaces are passed over. -/
theorem leads_space (s : State) (rest : List Char) : Leads s (' ' :: rest) s rest :=
  fun _ => ⟨some ' ', rfl⟩

/-! ## Tokens -/

/-- What ends a bare run and is neither a quote nor a space before a digit. -/
def Stops (rest : List Char) : Prop :=
  (∀ c, rest.head? = some c → endsRun c = true ∧ c ≠ '"') ∧
    ∀ c tail, rest = ' ' :: c :: tail → c.isDigit = false

theorem isAllowed_of_isPlain {c : Char} (h : IsPlain c) : isAllowed c = true := by
  have hne : c.toNat ≠ 0x7F := fun h' => by
    have := h.2
    omega
  simp [isAllowed, h.1, hne]

/-- A character that may not stand in a string is one of ASCII. -/
theorem ascii_of_not_isAllowed {c : Char} (h : isAllowed c = false) : c.toNat < 0x80 := by
  have h' : ¬(0x20 ≤ c.toNat ∧ c.toNat ≠ 0x7F) := by
    intro hc
    simp [isAllowed, hc] at h
  omega

theorem spell_cons (c : Char) (cs : List Char) : spell (c :: cs) = spellChar c ++ spell cs :=
  List.flatMap_cons

/-- Of plain characters only quotes and backslashes are escaped. -/
theorem spell_of_plain {cs : List Char} (h : ∀ c ∈ cs, IsPlain c) : spell cs = escape cs :=
  List.flatMap_congr fun c hc => by
    rw [spellChar, if_pos (isAllowed_of_isPlain (h c hc))]

/-- The digits of a code that two digits in base sixteen can write stand for its character. -/
theorem charOfHex?_code {c : Char} (hc : c.toNat < 0x80) :
    Text.charOfHex? ['0', '0', Text.digitChar (c.toNat / 16), Text.digitChar (c.toNat % 16)] =
      some c :=
  Text.of_ascii (P := fun c => Text.charOfHex?
    ['0', '0', Text.digitChar (c.toNat / 16), Text.digitChar (c.toNat % 16)] = some c) (by decide) hc

/-- Characters that have been dealt with are passed over. -/
theorem basicAt?_skip (skipped text : List Char) :
    basicAt? skipped.length (skipped ++ text) =
      (basicAt? 0 text).map fun (s, k) => (s, k + skipped.length) := by
  induction skipped with
  | nil => cases h : basicAt? 0 text <;> simp [h]
  | cons c cs ih =>
    rw [List.length_cons, List.cons_append, basicAt?, ih]
    cases basicAt? 0 text <;> rfl

/-- An escape is read as its character, and passed over. -/
theorem basicAt?_escaped {c : Char} {digits : List Char} (text : List Char)
    (h : escapeAt? (digits ++ text) = some (c, digits.length)) :
    basicAt? 0 ('\\' :: (digits ++ text)) =
      (basicAt? 0 text).map fun (s, k) => (c :: s, k + (digits.length + 1)) := by
  rw [basicAt?, h]
  dsimp only
  rw [basicAt?_skip]
  cases basicAt? 0 text <;> rfl

/-- A character is read as it is spelled, whatever follows. -/
theorem basicAt?_spellChar (c : Char) (text : List Char) :
    basicAt? 0 (spellChar c ++ text) =
      (basicAt? 0 text).map fun (s, k) => (c :: s, k + (spellChar c).length) := by
  unfold spellChar
  split_ifs with hescape hallowed
  · refine @basicAt?_escaped c [c] text ?_
    rcases hescape with rfl | rfl <;> rfl
  · rw [not_or] at hescape
    rw [List.singleton_append, basicAt?]
    · rw [if_pos hallowed]
      cases basicAt? 0 text <;> rfl
    · exact hescape.1
    · exact hescape.2
  · have hhex := charOfHex?_code (ascii_of_not_isAllowed (Bool.not_eq_true _ ▸ hallowed))
    refine @basicAt?_escaped c ['u', '0', '0', _, _] text ?_
    simp only [List.cons_append, List.nil_append, escapeAt?, hhex]
    rfl

/-- A text is read up to its closing quote. -/
theorem basicAt?_spell (cs rest : List Char) :
    basicAt? 0 (spell cs ++ '"' :: rest) = some (cs, (spell cs).length + 1) := by
  induction cs with
  | nil => rfl
  | cons c cs ih =>
    rw [spell_cons, List.append_assoc, basicAt?_spellChar, ih, List.length_append]
    simp only [Option.map_some, Option.some.injEq, Prod.mk.injEq, true_and]
    omega

theorem spellChar_head (c : Char) : ∃ d cs, spellChar c = d :: cs ∧ d ≠ '"' := by
  unfold spellChar
  split_ifs with hescape
  · exact ⟨_, _, rfl, by decide⟩
  · exact ⟨c, [], rfl, fun h => hescape (Or.inl h)⟩
  · exact ⟨_, _, rfl, by decide⟩

/-- A text is a token of its own. -/
theorem tokenAt?_spell (s : String) {rest : List Char} (hrest : Stops rest) (before : Option Char) :
    tokenAt? before '"' ((spell s.toList ++ ['"']) ++ rest) =
      some (some (.text s false), (spell s.toList ++ ['"']).length) := by
  have hread := basicAt?_spell s.toList rest
  have hlines : ∀ cs, spell s.toList ++ '"' :: rest ≠ '"' :: '"' :: cs := by
    intro cs heq
    cases hs : s.toList with
    | nil =>
      rw [hs] at heq
      obtain ⟨-, rfl⟩ := List.cons.inj heq
      exact (hrest.1 '"' rfl).2 rfl
    | cons c cs =>
      obtain ⟨d, ds, hspell, hd⟩ := spellChar_head c
      rw [hs, spell_cons, hspell] at heq
      exact hd (List.cons.inj heq).1
  rw [List.append_assoc, List.singleton_append, tokenAt?, hread, List.length_append]
  · simp [String.ofList_toList]
  · exact hlines

theorem takeWhile_run {run rest : List Char} (hrun : ∀ c ∈ run, endsRun c = false)
    (hrest : Stops rest) : (run ++ rest).takeWhile (!endsRun ·) = run := by
  rw [List.takeWhile_append_of_pos fun c hc => by simp [hrun c hc]]
  cases rest with
  | nil => simp
  | cons c rest => simp [(hrest.1 c rfl).1]

theorem runAt_append {run rest : List Char} (hrun : ∀ c ∈ run, endsRun c = false)
    (hrest : Stops rest) : runAt (run ++ rest) = run := by
  simp only [runAt, takeWhile_run hrun hrest, List.drop_left]
  split
  case h_1 c tail => simp [hrest.2 c tail rfl]
  case h_2 => rfl

/-- A character of a word ends no run. -/
theorem endsRun_eq_false {c : Char} (h : KeyDraft.isWordChar c = true) : endsRun c = false := by
  rw [endsRun, List.contains_eq_any_beq, List.any_eq_false]
  intro d hd hcd
  rw [beq_iff_eq] at hcd
  subst hcd
  have hmarks : ∀ d ∈ " \t\n\r#\"'=,[]\x7b\x7d".toList, ¬KeyDraft.isWordChar d = true := by decide
  exact hmarks c hd h

/-- A run of the characters of words is a token of its own. -/
theorem tokenAt?_bare {c : Char} {cs rest : List Char}
    (hcs : ∀ d ∈ c :: cs, KeyDraft.isWordChar d = true) (hrest : Stops rest)
    (before : Option Char) :
    tokenAt? before c (cs ++ rest) = some (some (.bare (c :: cs)), cs.length) := by
  have hc := hcs c (List.mem_cons_self ..)
  have hcs : ∀ d ∈ c :: cs, endsRun d = false := fun d hd => endsRun_eq_false (hcs d hd)
  have hspace : isSpace c = false := by
    simp only [isSpace, Bool.or_eq_false_iff, beq_eq_false_iff_ne]
    constructor <;> rintro rfl <;> exact absurd hc (by decide)
  unfold tokenAt?
  split
  case h_15 =>
    rw [if_neg (by simp [hspace]), ← List.cons_append, runAt_append hcs hrest]
    rfl
  all_goals exact absurd hc (by decide)

/-! ## Integers -/

theorem ungroup?_digits {cs : List Char} (hne : cs ≠ []) (h : ∀ c ∈ cs, c.isDigit = true) :
    ungroup? 10 cs = some cs := by
  induction cs with
  | nil => exact absurd rfl hne
  | cons c cs ih =>
    have hc := Text.isDigitOf_ten (h c (List.mem_cons_self ..))
    cases cs with
    | nil => rw [ungroup?, if_pos hc]
    | cons d cs =>
      have ih := ih (List.cons_ne_nil _ _) fun c hc => h c (List.mem_cons_of_mem _ hc)
      have hd : d ≠ '_' := by
        rintro rfl
        exact absurd (h '_' (by simp)) (by decide)
      rw [ungroup?, if_pos hc, ih]
      · rfl
      · exact List.cons_ne_nil d cs
      · exact fun _ heq => hd (List.cons.inj heq).1

theorem wholePart?_digits (n : Nat) : wholePart? (Text.digits n) = some (Text.digits n) := by
  rw [wholePart?, ungroup?_digits (Text.digits_ne_nil n) (Text.isDigit_of_mem_digits n)]
  refine if_neg fun h => ?_
  rw [Text.digits_of_head? h.1] at h
  exact absurd h.2 (by decide)

/-- What a run of digits holds. -/
theorem digits_head_ne {n : Nat} {c : Char} {cs : List Char} (h : Text.digits n = c :: cs) :
    c ≠ '+' ∧ c ≠ '-' := by
  have hc := Text.isDigit_of_mem_digits n c (h ▸ List.mem_cons_self ..)
  constructor <;> rintro rfl <;> exact absurd hc (by decide)

theorem unsigned_digits (n : Nat) : unsigned (Text.digits n) = (false, Text.digits n) := by
  rw [unsigned.eq_def]
  split
  case h_1 h => exact absurd rfl (digits_head_ne h).1
  case h_2 h => exact absurd rfl (digits_head_ne h).2
  case h_3 => rfl

theorem decimalInteger?_signed (z : Int) : decimalInteger? (Text.signed z) = some z := by
  rcases Text.signed_cases z with ⟨hz, h⟩ | ⟨hz, h⟩ <;> rw [h]
  · simp only [decimalInteger?, unsigned_digits, wholePart?_digits, Option.bind_some,
      Text.value?_digits]
    rw [if_neg Bool.false_ne_true, Int.natAbs_of_nonneg hz]
  · simp only [decimalInteger?, unsigned, wholePart?_digits, Option.bind_some, Text.value?_digits]
    rw [if_pos trivial, Int.ofNat_natAbs_of_nonpos (Int.le_of_lt hz), Int.neg_neg]

theorem basedInteger?_signed (z : Int) : basedInteger? (Text.signed z) = none := by
  have hdigits : ∀ n c cs, Text.digits n ≠ '0' :: c :: cs := fun n c cs h => by
    have hzero := Text.digits_of_head? (n := n) (by rw [h]; rfl)
    rw [h] at hzero
    exact absurd (List.cons.inj hzero).2 (List.cons_ne_nil _ _)
  rcases Text.signed_cases z with ⟨hz, h⟩ | ⟨hz, h⟩ <;> rw [h]
  · rw [basedInteger?.eq_def]
    split
    case h_4 => rfl
    all_goals
      next h => exact absurd h (hdigits _ _ _)
  · rfl

theorem isWord_signed (z : Int) : isWord (Text.signed z) = false := by
  rw [isWord, List.any_eq_false]
  intro word hword
  have hother : ∀ word ∈ ["true", "false", "inf", "+inf", "-inf", "nan", "+nan", "-nan"],
      ∃ c ∈ word.toList, ¬ (c.isDigit = true ∨ c = '-') := by decide
  obtain ⟨c, hc, hother⟩ := hother word hword
  rw [beq_iff_eq]
  intro heq
  exact hother (Text.isDigit_of_mem_signed (heq ▸ hc))

theorem isDateText_signed (z : Int) : isDateText (Text.signed z) = false := by
  have hminus : ∀ n, '-' ∉ Text.digits n := fun n h =>
    absurd (Text.isDigit_of_mem_digits n _ h) (by decide)
  rcases Text.signed_cases z with ⟨hz, h⟩ | ⟨hz, h⟩ <;> rw [h]
  · rw [isDateText, Text.pieces_of_sep_not_mem (hminus _)]
  · rw [isDateText, Text.pieces, Text.pieces_of_sep_not_mem (hminus _)]
    rfl

theorem isTimeText_signed (z : Int) : isTimeText (Text.signed z) = false := by
  have hcolon : ':' ∉ Text.signed z := fun h => absurd (Text.isDigit_of_mem_signed h) (by decide)
  rw [isTimeText, Text.pieces_of_sep_not_mem hcolon]

theorem isMoment_signed (z : Int) : isMoment (Text.signed z) = false := by
  rw [isMoment, isDateText_signed, isTimeText_signed]
  cases hdrop : (Text.signed z).drop 10 with
  | nil => rfl
  | cons t time =>
    have ht := Text.isDigit_of_mem_signed (List.mem_of_mem_drop (hdrop ▸ List.mem_cons_self ..))
    have hsep : (t == 'T' || t == 't' || t == ' ') = false := by
      simp only [Bool.or_eq_false_iff, beq_eq_false_iff_ne]
      refine ⟨⟨?_, ?_⟩, ?_⟩ <;> rintro rfl <;> exact absurd ht (by decide)
    simp [hsep]

/-- The decimal text of an integer is neither a word nor a moment. -/
theorem ofRun?_signed (z : Int) : Value.ofRun? (Text.signed z) = some (.integer z) := by
  rw [Value.ofRun?, isWord_signed, isMoment_signed, basedInteger?_signed, decimalInteger?_signed]
  rfl

/-! ## Steps -/

section Steps

variable {s s' : State} {path : List String} {stack : List Frame} {n : Nat} {rest : List Char}

theorem insert_single {kind : TableKind} {entries : Entries} {key : String} {value : Value}
    (hkind : kind ≠ .dotted) (hkey : ∀ entry ∈ entries, entry.1 ≠ key) :
    Entries.insert [key] value kind entries = some (entries ++ [(key, value)]) := by
  have hlookup : entries.lookup key = none := by
    rw [List.lookup_eq_none_iff]
    exact fun entry hentry => by simpa using Ne.symm (hkey entry hentry)
  simp [Entries.insert, Entries.atPath, Entries.add, hkind, hlookup]

/-- A value is supplied to what is open, not to a place. -/
theorem supply_place (s : State) (place : Place) (path : List String) (value : Value)
    (stack : List Frame) :
    ({ s with place := place } : State).supply path value stack = s.supply path value stack := by
  match stack with
  | [] => rfl
  | .list _ :: _ => rfl
  | .table _ _ :: _ => rfl

/-- Whether a value may come next. -/
def Awaits (s : State) (path : List String) (stack : List Frame) : Prop :=
  s.place = .value path stack ∨ s.place = .element path stack

/-- A token begins a value where one may come next. -/
theorem step_begin {t : Token} (h : Awaits s path stack)
    (hbegin : s.beginValue path stack t = some s') : s.step t = some s' := by
  rcases h with h | h <;> simp only [State.step, h]
  · exact hbegin
  · cases t with
    | newline => cases hbegin
    | closeBracket => cases hbegin
    | _ => exact hbegin

/-- A bracket or a brace opens what is not too deep. -/
theorem step_open {t : Token} {frame : Frame} {place : List Frame → Place}
    (h : Awaits s path stack) (hdepth : stack.length < maxDepth)
    (hopen : s.beginValue path stack t = s.openFrame frame stack place) :
    s.step t = some { s with place := place (frame :: stack) } :=
  step_begin h (hopen.trans (if_pos hdepth))

/-- A list ends. -/
theorem step_closeBracket {items : List Value}
    (h : s.place = .element path (.list items :: stack) ∨
      s.place = .elementEnd path (.list items :: stack)) (glued : Bool) :
    s.step (.closeBracket glued) = s.supply path (.list items.reverse false) stack := by
  rcases h with h | h <;> simp [State.step, h, State.close]

/-- A table in braces ends. -/
theorem step_closeBrace {entries : Entries} {key : List String}
    (h : s.place = .member path (.table entries key :: stack) ∨
      s.place = .memberEnd path (.table entries key :: stack)) :
    s.step .closeBrace = s.supply path (.table .braced entries) stack := by
  rcases h with h | h <;> simp [State.step, h, State.close]

/-- A word is a key. -/
theorem keyStep_word {key : String} (h : IsBareKey key) :
    KeyDraft.step {} (.bare key.toList) = some ⟨[key], false⟩ := by
  obtain ⟨hne, hchars⟩ := h
  have hdot : '.' ∉ key.toList := fun hmem => absurd (hchars _ hmem) (by decide)
  have hword : key.toList.all KeyDraft.isWordChar = true := List.all_eq_true.mpr hchars
  simp [KeyDraft.step, Text.pieces_of_sep_not_mem hdot, KeyDraft.bareWord, hne, hword, KeyDraft.word,
    KeyDraft.dottedWords, String.ofList_toList]

/-- A word begins the key of a line, or of an entry in braces. -/
theorem step_key {key : String} {place : KeyDraft → Place} (hkey : IsBareKey key)
    (h : s.place = .lineStart ∧ place = .key ∨
      s.place = .member path stack ∧ place = .memberKey path stack) :
    s.step (.bare key.toList) = some { s with place := place ⟨[key], false⟩ } := by
  rcases h with ⟨h, rfl⟩ | ⟨h, rfl⟩ <;> simp [State.step, h, State.stepKey, keyStep_word hkey]

/-! ## From a text to its value -/

/-- A key leads to what a state makes of it. -/
theorem leads_key {key : String} (hkey : IsBareKey key) (h : s.step (.bare key.toList) = some s')
    (rest : List Char) : Leads s (key.toList ++ ' ' :: '=' :: rest) s' (' ' :: '=' :: rest) := by
  obtain ⟨hne, hchars⟩ := hkey
  obtain ⟨c, cs, hcs⟩ := List.exists_cons_of_ne_nil hne
  rw [hcs] at h hchars ⊢
  have hstops : Stops (' ' :: '=' :: rest) := by
    refine ⟨?_, ?_⟩
    · rintro _ ⟨⟩
      decide
    · rintro _ _ ⟨⟩
      rfl
  exact leads_token fun before => ⟨_, tokenAt?_bare hchars hstops before, h⟩

/-- A key and the sign after it lead to the place of its value. -/
theorem leads_equals {s'' : State} {key : String} (hkey : IsBareKey key)
    (h : s.step (.bare key.toList) = some s') (h' : s'.step .equals = some s'') (rest : List Char) :
    Leads s (key.toList ++ ' ' :: '=' :: ' ' :: rest) s'' rest :=
  (leads_key hkey h _).trans ((leads_space s' _).trans
    ((leads_sign fun _ => ⟨.equals, rfl, h'⟩).trans (leads_space s'' rest)))

theorem stops_nil : Stops [] := ⟨by simp, by simp⟩

theorem stops_of_mark {c : Char} (hc : c ∈ [',', ']', '\n']) (rest : List Char) :
    Stops (c :: rest) := by
  refine ⟨?_, ?_⟩
  · rintro _ ⟨⟩
    revert c
    decide
  · rintro _ _ ⟨⟩
    exact absurd hc (by decide)

theorem stops_brace (rest : List Char) : Stops (' ' :: '}' :: rest) := by
  refine ⟨?_, ?_⟩
  · rintro _ ⟨⟩
    decide
  · rintro _ _ ⟨⟩
    rfl

/-- A text between quotes leads to the state that it supplies. -/
theorem leads_text {text : String} (s : State) (hplace : Awaits s path stack) (hrest : Stops rest)
    (hs' : s.supply path (.text text) stack = some s') :
    Leads s ('"' :: (spell text.toList ++ ['"']) ++ rest) s' rest := by
  exact leads_token fun before => ⟨_, tokenAt?_spell text hrest before, step_begin hplace hs'⟩

/-- A datum leads to the state that its value supplies, wherever a value may come next. -/
def LeadsOn (n : Nat) (d : Datum) : Prop :=
  ∀ (s : State) (path : List String) (stack : List Frame) (rest : List Char) (s' : State),
    Awaits s path stack → stack.length + n ≤ maxDepth → Stops rest →
    s.supply path (d.fold valueShape) stack = some s' → Leads s (d.toml ++ rest) s' rest

/-- The items of a list lead to its end, if each leads on. -/
theorem leads_items {items : List Datum} (hitems : ∀ d ∈ items, LeadsOn n d) (hne : items ≠ [])
    (acc : List Value) (s : State) (hplace : s.place = .element path (.list acc :: stack))
    (hdepth : stack.length + (n + 1) ≤ maxDepth)
    (hs' : s.supply path (.list (acc.reverse ++ items.map (Datum.fold valueShape)) false) stack =
      some s') :
    Leads s (commaList (items.map Datum.toml) ++ ']' :: rest) s' rest := by
  induction items generalizing acc s with
  | nil => exact absurd rfl hne
  | cons d ds ih =>
    obtain ⟨hd, hds⟩ := List.forall_mem_cons.mp hitems
    let next : State :=
      { s with place := .elementEnd path (.list (d.fold valueShape :: acc) :: stack) }
    have hnext : ∀ rest, Stops rest → Leads s (d.toml ++ rest) next rest := fun rest hrest =>
      hd s path (.list acc :: stack) rest next (Or.inr hplace) (by simp only [List.length_cons]; omega)
        hrest rfl
    cases ds with
    | nil =>
      refine (hnext _ (stops_of_mark (by decide) rest)).trans (leads_sign fun _ => ⟨_, rfl, ?_⟩)
      rw [step_closeBracket (Or.inr rfl), List.reverse_cons, supply_place]
      exact hs'
    | cons e es =>
      rw [List.map_cons, List.map_cons, commaList_cons, List.append_assoc]
      refine (hnext _ (stops_of_mark (by decide) _)).trans ?_
      refine (leads_sign fun _ => ⟨.comma, rfl, rfl⟩).trans ?_
      refine (leads_space _ _).trans (ih hds (List.cons_ne_nil _ _) _ _ rfl ?_)
      rw [supply_place, List.reverse_cons, List.append_assoc]
      exact hs'

/-- An entry of a table in braces leads to the state with it among the entries, if its value leads on
and its key is new. -/
theorem leads_entry {entry : String × Datum} {acc : Entries} {old : List String} {s : State}
    (hkey : IsKey entry.1) (hentry : LeadsOn n entry.2) (hfree : ∀ other ∈ acc, other.1 ≠ entry.1)
    (hplace : s.place = .member path (.table acc old :: stack))
    (hdepth : stack.length + (n + 1) ≤ maxDepth) (hrest : Stops rest) :
    Leads s (tomlEntry (entry.1, entry.2.toml) ++ rest)
      { s with place :=
        .memberEnd path (.table (acc ++ [(entry.1, entry.2.fold valueShape)]) [] :: stack) }
      rest := by
  have hinsert := @insert_single .braced acc entry.1 (entry.2.fold valueShape) nofun hfree
  have hbare := isBareKey_of_isKey hkey
  simp only [tomlEntry, List.append_assoc, List.cons_append]
  refine (leads_equals hbare (step_key hbare (Or.inr ⟨hplace, rfl⟩)) rfl _).trans ?_
  refine hentry _ path (.table acc [entry.1] :: stack) rest _ (Or.inl rfl)
    (by simp only [List.length_cons]; omega) hrest ?_
  rw [supply_place, State.supply, hinsert]
  rfl

/-- The entries of a table in braces lead to its end, if the value of each leads on. -/
theorem leads_entries {entries : List (String × Datum)} (hkeys : ∀ entry ∈ entries, IsKey entry.1)
    (hentries : ∀ entry ∈ entries, LeadsOn n entry.2) (hne : entries ≠ []) (acc : Entries)
    (hdistinct : (acc.map (·.1) ++ entries.map (·.1)).Nodup) (old : List String) (s : State)
    (hplace : s.place = .member path (.table acc old :: stack))
    (hdepth : stack.length + (n + 1) ≤ maxDepth)
    (hs' : s.supply path (.table .braced
      (acc ++ entries.map fun entry => (entry.1, entry.2.fold valueShape))) stack = some s') :
    Leads s (commaList (entries.map fun entry => tomlEntry (entry.1, entry.2.toml)) ++
      ' ' :: '}' :: rest) s' rest := by
  induction entries generalizing acc old s with
  | nil => exact absurd rfl hne
  | cons entry entries ih =>
    obtain ⟨hkey, hkeys⟩ := List.forall_mem_cons.mp hkeys
    obtain ⟨hentry, hentries⟩ := List.forall_mem_cons.mp hentries
    have hfree : ∀ other ∈ acc, other.1 ≠ entry.1 := by
      intro other hother heq
      have hdisjoint := List.disjoint_of_nodup_append hdistinct
      exact hdisjoint (List.mem_map_of_mem hother) (by simp [heq])
    cases entries with
    | nil =>
      refine (leads_entry hkey hentry hfree hplace hdepth (stops_brace rest)).trans ?_
      refine (leads_space _ _).trans (leads_sign fun _ => ⟨_, rfl, ?_⟩)
      rw [step_closeBrace (Or.inr rfl), supply_place]
      exact hs'
    | cons other others =>
      rw [List.map_cons, List.map_cons, commaList_cons, List.append_assoc]
      refine (leads_entry hkey hentry hfree hplace hdepth (stops_of_mark (by decide) _)).trans ?_
      refine (leads_sign fun _ => ⟨.comma, rfl, rfl⟩).trans ?_
      refine (leads_space _ _).trans (ih hkeys hentries (List.cons_ne_nil _ _) _ ?_ [] _ rfl ?_)
      · simpa using hdistinct
      · rw [supply_place]
        refine (supply_place s _ path _ stack).trans ?_
        simpa using hs'

/-- An integer leads to the state that it supplies. -/
theorem leadsOn_integer (n : Nat) (z : Int) : LeadsOn n (.integer z) := by
  intro s path stack rest s' hplace _ hrest hs'
  obtain ⟨c, cs, hcs⟩ := List.exists_cons_of_ne_nil (Text.signed_ne_nil z)
  have hmem : ∀ d ∈ c :: cs, KeyDraft.isWordChar d = true := by
    intro d hd
    rcases Text.isDigit_of_mem_signed (hcs ▸ hd) with hdigit | rfl
    · simp [KeyDraft.isWordChar, Text.isAlphanum_of_isDigit hdigit]
    · rfl
  have htoml : (Datum.integer z).toml = c :: cs := hcs
  rw [htoml]
  refine leads_token fun before => ⟨_, tokenAt?_bare hmem hrest before, step_begin hplace ?_⟩
  rw [← hcs, State.beginValue, ofRun?_signed]
  exact hs'

/-- A list leads on if its items do. -/
theorem leadsOn_list {items : List Datum} (h : ∀ d ∈ items, LeadsOn n d) :
    LeadsOn (n + 1) (.list items) := by
  intro s path stack rest s' hplace hdepth hrest hs'
  rw [Datum.fold_list] at hs'
  rw [Datum.toml, Datum.fold_list]
  simp only [tomlShape, List.cons_append, List.append_assoc, List.nil_append]
  refine (leads_sign fun _ => ⟨_, rfl, step_open hplace (by omega) rfl⟩).trans ?_
  by_cases hitems : items = []
  · subst hitems
    refine leads_sign fun _ => ⟨_, rfl, ?_⟩
    rw [step_closeBracket (Or.inl rfl), supply_place]
    exact hs'
  · refine leads_items h hitems [] _ rfl hdepth ?_
    rw [supply_place]
    exact hs'

/-- A table leads on if the values of its entries do. -/
theorem leadsOn_table {entries : List (String × Datum)} (hkeys : ∀ entry ∈ entries, IsKey entry.1)
    (h : ∀ entry ∈ entries, LeadsOn n entry.2) (hdistinct : (entries.map (·.1)).Nodup) :
    LeadsOn (n + 1) (.table entries) := by
  intro s path stack rest s' hplace hdepth hrest hs'
  rw [Datum.fold_table] at hs'
  rw [Datum.toml, Datum.fold_table]
  simp only [tomlShape, List.cons_append, List.append_assoc, List.nil_append, List.map_map]
  refine (leads_sign fun _ => ⟨_, rfl, step_open hplace (by omega) rfl⟩).trans ?_
  refine (leads_space _ _).trans ?_
  by_cases hentries : entries = []
  · subst hentries
    refine (leads_space _ _).trans (leads_sign fun _ => ⟨_, rfl, ?_⟩)
    rw [step_closeBrace (Or.inl rfl), supply_place]
    exact hs'
  · refine leads_entries hkeys h hentries [] (by simpa using hdistinct) [] _ rfl hdepth ?_
    rw [supply_place]
    exact hs'

/-- A datum that is not too deep leads on. -/
theorem leadsOn {kind : Int → Prop} {d : Datum} (h : d.Fits kind n) : LeadsOn n d := by
  induction h with
  | @text n s hs =>
    intro state path stack rest s' hplace _ hrest hs'
    have htoml : (Datum.text s).toml = '"' :: (spell s.toList ++ ['"']) := by
      rw [spell_of_plain hs]
      rfl
    rw [htoml]
    exact leads_text state hplace hrest hs'
  | @integer n z => exact leadsOn_integer n z
  | list _ ih => exact leadsOn_list ih
  | table hkeys _ hdistinct ih => exact leadsOn_table hkeys ih hdistinct

/-- A line enters a value into the table at the root, if its text leads to where the value is
supplied. -/
theorem leads_assignment {key : String} {text : List Char} {value : Value} (hkey : IsBareKey key)
    (hplace : s.place = .lineStart) (hheader : s.header = [])
    (hfree : ∀ entry ∈ s.root, entry.1 ≠ key)
    (hvalue : ∀ s' s'' : State, s'.place = .value [key] [] →
      s'.supply [key] value [] = some s'' → Leads s' (text ++ rest) s'' rest) :
    Leads s (tomlEntry (key, text) ++ rest)
      { s with root := s.root ++ [(key, value)], place := .lineEnd } rest := by
  simp only [tomlEntry, List.append_assoc, List.cons_append]
  refine (leads_equals hkey (@step_key s [] [] key _ hkey (Or.inl ⟨hplace, rfl⟩)) rfl _).trans ?_
  refine hvalue _ _ rfl ?_
  have hinsert := @insert_single .headed s.root key value nofun hfree
  simp [State.supply, State.enter, hheader, Entries.atPath, hinsert]

/-- A line enters its datum into the table at the root. -/
theorem leads_line {kind : Int → Prop} {key : String} {d : Datum} (hkey : IsKey key)
    (hd : d.Fits kind n) (hn : n ≤ maxDepth) (hrest : Stops rest) (hplace : s.place = .lineStart)
    (hheader : s.header = []) (hfree : ∀ entry ∈ s.root, entry.1 ≠ key) :
    Leads s (tomlEntry (key, d.toml) ++ rest)
      { s with root := s.root ++ [(key, d.fold valueShape)], place := .lineEnd } rest :=
  leads_assignment (isBareKey_of_isKey hkey) hplace hheader hfree fun _ _ hvalue hs' =>
    leadsOn hd _ _ _ _ _ (Or.inl hvalue) (by simpa using hn) hrest hs'

end Steps

/-- The table of a text is that of the state that it leads to. -/
theorem entriesOf_of_leads {text : List Char} {s : State} (hmark : text.head? ≠ some '\ufeff')
    (h : Leads {} text s []) : entriesOf (String.ofList text) = s.finish := by
  have hscan : Token.scan text = Token.scanFrom none 0 text := by
    unfold Token.scan
    split
    · exact absurd rfl hmark
    · rfl
  obtain ⟨before, hread⟩ := h none
  rw [readFrom, ← hscan] at hread
  simp only [entriesOf, String.toList_ofList, bind]
  rw [← Option.bind_assoc]
  exact congrArg (Option.bind · State.finish) hread

/-- No line begins with the mark of the byte order. -/
theorem head?_tomlEntry_ne {key : String} (hkey : IsBareKey key) (text rest : List Char) :
    (tomlEntry (key, text) ++ rest).head? ≠ some '\ufeff' := by
  obtain ⟨hne, hchars⟩ := hkey
  obtain ⟨c, cs, hcs⟩ := List.exists_cons_of_ne_nil hne
  have hword := hchars c (by simp [hcs])
  rw [tomlEntry, hcs]
  rintro ⟨⟩
  exact absurd hword (by decide)

/-- The table at the root that two lists are entered into. -/
def rootOf (lists : Datum × Datum) : Entries :=
  [("enum", lists.1.fold valueShape), ("struct", lists.2.fold valueShape)]

/-- A wide schema of plain texts is built by its two lines. -/
theorem entriesOf_tomlText {w : WideSchema} (h : ∀ s ∈ w.texts, ∀ c ∈ s.toList, IsPlain c) :
    entriesOf w.tomlText = some (rootOf w.lists) := by
  obtain ⟨henums, hstructs⟩ := w.fits_lists_any h
  let text := tomlEntry ("enum", w.lists.1.toml) ++ '\n' :: tomlEntry ("struct", w.lists.2.toml)
  let between : State := { root := [("enum", w.lists.1.fold valueShape)], place := .lineEnd }
  have hfirst : Leads {} text between ('\n' :: tomlEntry ("struct", w.lists.2.toml)) :=
    leads_line (by decide : IsKey "enum") henums (by decide) (stops_of_mark (by decide) _) rfl rfl
      (by simp)
  have hsecond := @leads_line { between with place := .lineStart } 4 [] _ "struct" w.lists.2
    (by decide) hstructs (by decide) stops_nil rfl rfl (by simp [between])
  rw [List.append_nil] at hsecond
  refine entriesOf_of_leads ?_
    (hfirst.trans ((leads_sign fun _ => ⟨.newline, rfl, rfl⟩).trans hsecond))
  exact head?_tomlEntry_ne (by decide) _ _

/-- The node at the root is that of a wide schema, if its integers have a meaning. -/
theorem toNode_rootOf {w : WideSchema} {n : Nat}
    (h : w.lists.1.Fits InIntegerRange n ∧ w.lists.2.Fits InIntegerRange n) :
    (Value.table .headed (rootOf w.lists)).toNode = w.datum.node dialect := by
  refine @toNode_table .headed [("enum", w.lists.1), ("struct", w.lists.2)] ?_
  simp only [List.forall_mem_cons]
  exact ⟨toNode_value h.1, toNode_value h.2, by simp⟩

/-- The integers of a schema have a meaning. -/
theorem inIntegerRange_of_wide (schema : Schema) : ∀ z ∈ schema.wide.integers, InIntegerRange z := by
  have hrange := schema.wide.exists_wide_iff.mp ⟨schema, rfl⟩
  intro z hz
  obtain ⟨hlow, hhigh⟩ := hrange.integers z hz
  have hbounds : integerRange.1 ≤ -2 ^ 63 ∧ 2 ^ 63 - 1 ≤ integerRange.2 := by decide
  exact ⟨Int.le_trans hbounds.1 hlow, Int.le_trans hhigh hbounds.2⟩

/-- The lines of TOML of a wide schema of plain texts are read as a schema exactly if that is the one
of its integers. -/
theorem schemaOf_eq_ok_iff {w : WideSchema} (h : ∀ s ∈ w.texts, ∀ c ∈ s.toList, IsPlain c)
    (schema : Schema) : schemaOf w.tomlText = .ok schema ↔ schema.wide = w := by
  rw [schemaOf, documentOf, entriesOf_tomlText h]
  by_cases hwhole : (Value.table .headed (rootOf w.lists)).toNode.whole = true
  · obtain ⟨henums, hstructs⟩ := w.fits_lists_any h
    have hlists := whole_toNode_table hwhole
    simp only [rootOf, List.forall_mem_cons] at hlists
    have hfits := And.intro (fits_of_whole henums hlists.1) (fits_of_whole hstructs hlists.2.1)
    exact readSchema_eq_ok_iff (toNode_rootOf hfits).symm rfl
  · -- neither is the root read, nor can its integers be those of a schema
    constructor
    · intro hread
      exact absurd (Document.whole_of_readSchema rfl hread) hwhole
    · rintro rfl
      have hfits := WideSchema.fits_lists h (inIntegerRange_of_wide schema)
      exact absurd (by rw [toNode_rootOf hfits, Datum.whole_node]) hwhole

end Toml

end SchemaHeaders
