import SchemaHeaders.Proofs.JsonText
import SchemaHeaders.Yaml.Token

/-!
# A line of JSON as YAML tokens

A line of JSON is YAML in brackets: no block is open on it, so that columns do not matter, and a
scalar or a bracket that might have been a key is none unless a colon follows. `Scanned` is what is
known of a scan of such a line. The only keys are the quoted words before a colon, which are short
enough to be pending still when the colon comes (`scanText_key`).

`scansOn` is the scan of a datum, and `scan_json` that of a whole line.
-/

namespace SchemaHeaders.Yaml

/-! ## Tokens -/

/-- Lists of tokens with a comma between them. -/
def commaTokens : List (List Token) → List Token
  | [] => []
  | [t] => t
  | t :: ts => t ++ .flowEntry :: commaTokens ts

theorem commaTokens_cons (t u : List Token) (ts : List (List Token)) :
    commaTokens (t :: u :: ts) = t ++ .flowEntry :: commaTokens (u :: ts) := rfl

/-- The tokens of an entry. -/
def entryTokens (entry : String × List Token) : List Token :=
  .key :: .scalar .quoted entry.1 :: .value :: entry.2

/-- The tokens of data. -/
def tokenShape : Shape (List Token) where
  text s := [.scalar .quoted s]
  integer z := [.scalar .plain (String.ofList (Text.signed z))]
  list items := .flowSequenceStart :: (commaTokens items ++ [.flowSequenceEnd])
  table entries := .flowMappingStart :: (commaTokens (entries.map entryTokens) ++ [.flowMappingEnd])

/-- The tokens of a datum. -/
def tokensOf (d : Datum) : List Token := d.fold tokenShape

theorem tokensOf_list (items : List Datum) : tokensOf (.list items) =
    .flowSequenceStart :: (commaTokens (items.map tokensOf) ++ [.flowSequenceEnd]) :=
  Datum.fold_list tokenShape items

theorem tokensOf_table (entries : List (String × Datum)) : tokensOf (.table entries) =
    .flowMappingStart :: (commaTokens (entries.map fun entry => entryTokens (entry.1, tokensOf entry.2)) ++
      [.flowMappingEnd]) := by
  rw [tokensOf, Datum.fold_table]
  exact congrArg (fun ts => .flowMappingStart :: (commaTokens ts ++ [.flowMappingEnd])) List.map_map

/-! ## Marks and cells -/

/-- The mark after so many characters of a line. -/
def Mark.after (m : Mark) (n : Nat) : Mark := ⟨m.line, m.column + n, m.index + n⟩

theorem Mark.after_nextColumn (m : Mark) (n : Nat) : m.nextColumn.after n = m.after (n + 1) := by
  simp only [Mark.after, Mark.nextColumn]
  congr 1 <;> omega

theorem Mark.after_after (m : Mark) (n k : Nat) : (m.after n).after k = m.after (n + k) := by
  simp only [Mark.after]
  congr 1 <;> omega

/-- What a plain character is not. -/
theorem not_break_of_isPlain {c : Char} (h : IsPlain c) :
    c ≠ '\r' ∧ c ≠ '\n' ∧ c ≠ '\x85' ∧ isBreak c = false ∧ c ≠ '\ufeff' ∧ c ≠ endChar ∧ c ≠ '\t' := by
  have hne : ∀ d : Char, ¬ IsPlain d → c ≠ d := fun d hd heq => hd (heq ▸ h)
  have hbreak : isBreak c = false := by
    simp only [isBreak, Bool.or_eq_false_iff, beq_eq_false_iff_ne]
    exact ⟨⟨hne _ (by simp [IsPlain]), hne _ (by simp [IsPlain])⟩, hne _ (by simp [IsPlain])⟩
  exact ⟨hne _ (by simp [IsPlain]), hne _ (by simp [IsPlain]), hne _ (by simp [IsPlain]), hbreak,
    hne _ (by simp [IsPlain]), hne _ (by simp [IsPlain, endChar]), hne _ (by simp [IsPlain])⟩

theorem scanFrom_plain {c : Char} (h : IsPlain c) (m : Mark) (cs : List Char) :
    Cell.scanFrom m (c :: cs) = ⟨c, m⟩ :: Cell.scanFrom m.nextColumn cs := by
  obtain ⟨hr, hn, hx, hbreak, -⟩ := not_break_of_isPlain h
  rw [Cell.scanFrom.eq_def]
  split
  case h_1 heq => cases heq
  case h_2 heq => exact absurd (List.cons.inj heq).1 hr
  case h_3 heq =>
    obtain ⟨rfl, rfl⟩ := List.cons.inj heq
    rw [if_neg (by simp [hr, hn, hx]), if_neg (by simp [hbreak])]

/-- The cells after those of plain characters. -/
theorem drop_scanFrom {cs : List Char} (h : ∀ c ∈ cs, IsPlain c) (m : Mark) (rest : List Char) :
    (Cell.scanFrom m (cs ++ rest)).drop cs.length = Cell.scanFrom (m.after cs.length) rest := by
  induction cs generalizing m with
  | nil => rfl
  | cons c cs ih =>
    rw [List.cons_append, scanFrom_plain (h c (List.mem_cons_self ..)), List.length_cons,
      List.drop_succ_cons, ih fun c hc => h c (List.mem_cons_of_mem _ hc), Mark.after_nextColumn]

/-- Something follows every character. -/
theorem exists_scanFrom (m : Mark) (cs : List Char) :
    ∃ c cells, Cell.scanFrom m cs = c :: cells ∧ c.mark = m := by
  rw [Cell.scanFrom.eq_def]
  split
  case h_1 => exact ⟨_, _, rfl, rfl⟩
  case h_2 => exact ⟨_, _, rfl, rfl⟩
  case h_3 =>
    split
    case isTrue => exact ⟨_, _, rfl, rfl⟩
    case isFalse =>
      split
      case isTrue => exact ⟨_, _, rfl, rfl⟩
      case isFalse => exact ⟨_, _, rfl, rfl⟩

theorem atMarker_eq_false {sign : Char} {c : Cell} (h : c.mark.column ≠ 0 ∨ c.char ≠ sign)
    (cells : List Cell) : Cell.atMarker sign (c :: cells) = false := by
  match cells with
  | [] => rfl
  | [_] => rfl
  | _ :: _ :: _ => rcases h with h | h <;> simp [Cell.atMarker, h]

/-! ## Pending keys -/

theorem retireKeys_eq (m : Mark) {keys : List (Option PendingKey)}
    (h : ∀ key ∈ keys, ∀ k, key = some k → k.required = false) :
    PendingKey.retire? m keys = some (keys.map (Option.filter fun k => !k.isStale m)) := by
  induction keys with
  | nil => rfl
  | cons key keys ih =>
    have ih := ih fun key hkey => h key (List.mem_cons_of_mem _ hkey)
    cases key with
    | none => rw [PendingKey.retire?, ih]; rfl
    | some k =>
      have hk := h _ (List.mem_cons_self ..) k rfl
      rw [PendingKey.retire?, ih, hk]
      cases hstale : k.isStale m <;> simp [hstale, Option.filter]

/-- What is known of a scan in brackets: its tokens, newest first, how many brackets are open,
whether a key may begin, and the pending key of the innermost bracket, if it matters. -/
structure Scanned (s : ScanState) (ts : List Token) (depth : Nat) (allowed : Bool)
    (pending : Option PendingKey) : Prop where
  tokens : s.tokens = ts
  count : s.count = ts.length
  columns : s.columns = []
  depth : s.outer.length = depth
  free : ∀ key ∈ s.key :: s.outer, ∀ k, key = some k → k.required = false
  allowed : s.keyAllowed = allowed
  pending : ∀ k, pending = some k → s.key = some k

namespace Scanned

variable {s : ScanState} {ts : List Token} {depth : Nat} {allowed : Bool}
  {pending : Option PendingKey}

theorem inFlow (h : Scanned s ts depth allowed pending) : s.inFlow = decide (depth ≠ 0) := by
  have hdepth := h.depth
  cases houter : s.outer with
  | nil => simp [ScanState.inFlow, houter, ← hdepth]
  | cons k ks => simp [ScanState.inFlow, houter, ← hdepth]

/-- No block ends, since none is open. -/
theorem endBlocks (h : Scanned s ts depth allowed pending) (least : Nat) :
    s.endBlocks least = s := by
  have hcolumns := h.columns
  rw [ScanState.endBlocks]
  split
  case isTrue => rfl
  case isFalse =>
    rw [hcolumns, ScanState.endBlocksFrom]
    cases s
    simp_all

/-- Keys that come too late are forgotten, but not one that matters and is not late. -/
theorem retire (h : Scanned s ts depth allowed pending) {m : Mark}
    (hpending : ∀ k, pending = some k → k.isStale m = false) :
    ∃ s', s.retire? m = some s' ∧ Scanned s' ts depth allowed pending := by
  refine ⟨_, by rw [ScanState.retire?, retireKeys_eq m h.free]; rfl, ?_⟩
  refine ⟨h.tokens, h.count, h.columns, by simpa using h.depth, ?_, h.allowed, fun k hk => ?_⟩
  · intro key' hmem k hk
    have hmem : key' ∈ (s.key :: s.outer).map (Option.filter fun k => !k.isStale m) := hmem
    obtain ⟨key, hkey, rfl⟩ := List.mem_map.mp hmem
    exact h.free key hkey k (Option.filter_eq_some_iff.mp hk).1
  · simp [h.pending k hk, hpending k hk]

/-- A key that does not matter may be forgotten. -/
theorem forget (h : Scanned s ts depth allowed pending) : Scanned s ts depth allowed none :=
  { h with pending := nofun }

/-- One more token. -/
theorem push (h : Scanned s ts depth allowed pending) (t : Token) (allowed' : Bool) :
    Scanned { s.push t with keyAllowed := allowed' } (t :: ts) depth allowed' pending where
  tokens := congrArg (t :: ·) h.tokens
  count := congrArg (· + 1) h.count
  columns := h.columns
  depth := h.depth
  free := h.free
  allowed := rfl
  pending := h.pending

theorem dropKey (h : Scanned s ts depth allowed pending) :
    ∃ s', s.dropKey? = some s' ∧ Scanned s' ts depth allowed none := by
  have hdrop : PendingKey.drop? s.key = some none := by
    cases hkey : s.key with
    | none => rfl
    | some k => simp [PendingKey.drop?, h.free _ (List.mem_cons_self ..) k hkey]
  refine ⟨{ s with key := none }, by rw [ScanState.dropKey?, hdrop]; rfl, h.tokens, h.count, h.columns,
    h.depth, ?_, h.allowed, nofun⟩
  intro key hkey k hk
  rcases List.mem_cons.mp hkey with rfl | hkey
  · cases hk
  · exact h.free key (List.mem_cons_of_mem _ hkey) k hk

/-- Where a key may begin one is pending, which is not required in brackets. -/
theorem saveKey (h : Scanned s ts depth true pending) (m : Mark) :
    ∃ s', s.saveKey? m = some s' ∧
      Scanned s' ts depth true (some ⟨ts.length, m, false⟩) := by
  obtain ⟨s₁, hdrop, hs₁⟩ := h.dropKey
  refine ⟨{ s₁ with key := some ⟨ts.length, m, false⟩ }, ?_, hs₁.tokens, hs₁.count, hs₁.columns,
    hs₁.depth, ?_, hs₁.allowed, fun k hk => hk⟩
  · have hlimit : (s₁.limit == m.column + 1) = false := by
      rw [ScanState.limit, hs₁.columns, beq_eq_false_iff_ne]
      exact (Nat.succ_ne_zero _).symm
    simp [ScanState.saveKey?, h.allowed, hdrop, hs₁.count, hlimit]
  · intro key hkey k hk
    rcases List.mem_cons.mp hkey with rfl | hkey
    · cases hk
      rfl
    · exact hs₁.free key (List.mem_cons_of_mem _ hkey) k hk

/-- Wherever a key may begin or not, a mark can be saved. -/
theorem saveKey_none (h : Scanned s ts depth allowed pending) (m : Mark) :
    ∃ s', s.saveKey? m = some s' ∧ Scanned s' ts depth allowed none := by
  cases allowed with
  | false => exact ⟨s, by simp [ScanState.saveKey?, h.allowed], h.forget⟩
  | true =>
    obtain ⟨s', hsave, hs'⟩ := h.saveKey m
    exact ⟨s', hsave, hs'.forget⟩

theorem openBracket (h : Scanned s ts depth allowed pending) (c : Cell) (t : Token) :
    ∃ s', s.openBracket? c t = some s' ∧ Scanned s' (t :: ts) (depth + 1) true none := by
  obtain ⟨s₁, hsave, hs₁⟩ := h.saveKey_none c.mark
  refine ⟨{ s₁.push t with key := none, outer := s₁.key :: s₁.outer, keyAllowed := true },
    by rw [ScanState.openBracket?, hsave]; rfl, congrArg (t :: ·) hs₁.tokens,
    congrArg (· + 1) hs₁.count, hs₁.columns, congrArg (· + 1) hs₁.depth, ?_, rfl, nofun⟩
  intro key hkey k hk
  rcases List.mem_cons.mp hkey with rfl | hkey
  · cases hk
  · exact hs₁.free key hkey k hk

theorem closeBracket (h : Scanned s ts (depth + 1) allowed pending) (t : Token) :
    ∃ s', s.closeBracket? t = some s' ∧ Scanned s' (t :: ts) depth false none := by
  obtain ⟨s₁, hdrop, hs₁⟩ := h.dropKey
  obtain ⟨key, outer, houter⟩ := List.exists_cons_of_length_eq_add_one hs₁.depth
  refine ⟨{ s₁.push t with key := key, outer := outer, keyAllowed := false }, ?_,
    congrArg (t :: ·) hs₁.tokens, congrArg (· + 1) hs₁.count, hs₁.columns, ?_, ?_, rfl, nofun⟩
  · rw [ScanState.closeBracket?, hdrop]
    simp only [Option.map_eq_map, Option.map_some, houter]
  · have hdepth := hs₁.depth
    rw [houter] at hdepth
    exact Nat.succ.inj hdepth
  · exact fun key hkey => hs₁.free key (List.mem_cons_of_mem _ (houter ▸ hkey))

theorem sign (h : Scanned s ts depth allowed pending) (t : Token) (allowed' : Bool) :
    ∃ s', s.sign? t allowed' = some s' ∧ Scanned s' (t :: ts) depth allowed' none := by
  obtain ⟨s₁, hdrop, hs₁⟩ := h.dropKey
  exact ⟨_, by rw [ScanState.sign?, hdrop]; rfl, hs₁.push t allowed'⟩

/-- A scalar that is no key. -/
theorem content (h : Scanned s ts depth allowed pending) (c : Cell) (t : Token) (allowed' : Bool) :
    ∃ s', s.content? c t allowed' = some s' ∧ Scanned s' (t :: ts) depth allowed' none := by
  obtain ⟨s₁, hsave, hs₁⟩ := h.saveKey_none c.mark
  exact ⟨_, by rw [ScanState.content?, hsave]; rfl, hs₁.push t allowed'⟩

/-- A scalar that is pending as a key. -/
theorem content_key (h : Scanned s ts depth true pending) (c : Cell) (t : Token) :
    ∃ s', s.content? c t false = some s' ∧
      Scanned s' (t :: ts) depth false (some ⟨ts.length, c.mark, false⟩) := by
  obtain ⟨s₁, hsave, hs₁⟩ := h.saveKey c.mark
  exact ⟨_, by rw [ScanState.content?, hsave]; rfl, hs₁.push t false⟩

/-- A colon makes a key of the scalar before it. -/
theorem value {t : Token} {k : PendingKey} (h : Scanned s (t :: ts) (depth + 1) allowed (some k))
    (hk : k.position = ts.length) (c : Cell) :
    ∃ s', s.value? c = some s' ∧
      Scanned s' (.value :: t :: .key :: ts) (depth + 1) false none := by
  have hkey := h.pending k rfl
  have hflow : (s.insert k.position .key).inFlow = true := h.inFlow.trans (by simp)
  have hinsert : (s.insert k.position .key).tokens = t :: .key :: ts := by
    simp [ScanState.insert, h.tokens, h.count, hk]
  refine ⟨_, by rw [ScanState.value?, hkey], ?_, ?_, ?_, ?_, ?_, rfl, nofun⟩
  all_goals simp only [ScanState.beginBlock, hflow, Bool.not_true, Bool.false_eq_true, false_and, if_false]
  · exact congrArg (.value :: ·) hinsert
  · simp [ScanState.push, ScanState.insert, h.count]
  · exact h.columns
  · exact h.depth
  · intro key hmem k' hk'
    rcases List.mem_cons.mp hmem with rfl | hmem
    · cases hk'
    · exact h.free key (List.mem_cons_of_mem _ hmem) k' hk'

end Scanned

/-! ## Steps of a scan -/

section Steps

variable {s : ScanState} {ts ts' : List Token} {depth depth' : Nat} {allowed allowed' : Bool}
  {pending pending' : Option PendingKey} {m : Mark} {c : Char} {cs rest : List Char}

/-- The tokens of a text that begins at a mark. -/
def scanText (s : ScanState) (m : Mark) (text : List Char) : List Token :=
  s.run 0 (Cell.scanFrom m text)

theorem run_drop (s : ScanState) (n : Nat) (cells : List Cell) :
    s.run n cells = s.run 0 (cells.drop n) := by
  induction n generalizing cells with
  | zero => rfl
  | succ n ih =>
    cases cells with
    | nil => rfl
    | cons c cells => exact ih cells

/-- A space leaves no token. -/
theorem scanText_space (s : ScanState) (m : Mark) (rest : List Char) :
    scanText s m (' ' :: rest) = scanText s m.nextColumn rest := by
  rw [scanText, scanFrom_plain (by simp [IsPlain]), ScanState.run]
  rfl

/-- A token takes what is known of a scan before it to what is known after it. -/
theorem scanText_token (hs : Scanned s ts depth allowed pending)
    (hpending : ∀ k, pending = some k → k.isStale m = false)
    (hc : IsPlain c) (hskip : c ≠ ' ' ∧ c ≠ '#') (hcs : ∀ d ∈ cs, IsPlain d)
    (htoken : ∀ s, Scanned s ts depth allowed pending → ∃ s',
      s.tokenAt? ⟨c, m⟩ (Cell.scanFrom m.nextColumn (cs ++ rest)) = some (s', cs.length) ∧
        Scanned s' ts' depth' allowed' pending')
    (hpending' : ∀ k, pending' = some k → k.isStale (m.after (cs.length + 1)) = false) :
    ∃ s', Scanned s' ts' depth' allowed' pending' ∧
      scanText s m (c :: (cs ++ rest)) = scanText s' (m.after (cs.length + 1)) rest := by
  obtain ⟨s₁, hretire, hs₁⟩ := hs.retire hpending
  obtain ⟨s₂, htoken, hs₂⟩ := htoken s₁ hs₁
  obtain ⟨s₃, hretire', hs₃⟩ := hs₂.retire hpending'
  refine ⟨s₃, hs₃, ?_⟩
  obtain ⟨-, -, -, hbreak, hbom, -, htab⟩ := not_break_of_isPlain hc
  have hskip : s.skip? ⟨c, m⟩ (Cell.scanFrom m.nextColumn (cs ++ rest)) = none := by
    simp [ScanState.skip?, hskip.1, hskip.2, hbreak, hbom, htab]
  have hdrop := drop_scanFrom hcs m.nextColumn rest
  rw [Mark.after_nextColumn] at hdrop
  obtain ⟨d, cells, hcells, hmark⟩ := exists_scanFrom (m.after (cs.length + 1)) rest
  have hstep : s.step? ⟨c, m⟩ (Cell.scanFrom m.nextColumn (cs ++ rest)) = some (s₃, cs.length) := by
    simp [ScanState.step?, hretire, hs₁.endBlocks, htoken, hdrop, hcells, hmark, hretire']
  rw [scanText, scanFrom_plain hc, ScanState.run, hskip]
  simp only [hstep]
  rw [run_drop, hdrop]
  rfl

/-! ## Quoted scalars -/

theorem text_blank {gap : Gap} (h : gap.isBroken = false) (c : Char) :
    (gap.blank c).text = gap.text ++ [c] ∧ (gap.blank c).isBroken = false := by
  cases gap with
  | none => exact ⟨rfl, rfl⟩
  | blanks text => exact ⟨List.reverse_cons, rfl⟩
  | breaks _ _ => cases h

/-- A quoted scalar on one line is read up to its closing quote, after blanks or not. -/
theorem quotedAt?_escape {gap : Gap} (hgap : gap.isBroken = false) (hcs : ∀ c ∈ cs, IsPlain c)
    (hm : m.column ≠ 0) :
    quotedAt? '"' 0 gap (Cell.scanFrom m (escape cs ++ '"' :: rest)) =
      some (gap.text ++ cs, (escape cs).length + 1) := by
  have hboundary : ∀ (c : Char) (m : Mark) cells, m.column ≠ 0 →
      Cell.atBoundary (⟨c, m⟩ :: cells) = false := fun c m cells hm => by
    simp [Cell.atBoundary, atMarker_eq_false (c := ⟨c, m⟩) (Or.inl hm)]
  have hnext : ∀ m : Mark, m.nextColumn.column ≠ 0 := fun _ => Nat.succ_ne_zero _
  have hquote : IsPlain '"' := by simp [IsPlain]
  have hslash : IsPlain '\\' := by simp [IsPlain]
  induction cs generalizing m gap with
  | nil =>
    rw [escape, List.flatMap_nil, List.nil_append, scanFrom_plain hquote, quotedAt?]
    simp [isBlank, isBreak, endChar, hboundary _ _ _ hm, quotedPartAt?]
  | cons c cs ih =>
    obtain ⟨hc, htail⟩ := List.forall_mem_cons.mp hcs
    obtain ⟨-, -, -, hbreak, -, hend, htab⟩ := not_break_of_isPlain hc
    rw [escape_cons]
    split
    case isTrue hmark =>
      have hblank : isBlank '\\' = false := rfl
      have hpart : quotedPartAt? '"' '\\' (⟨c, m.nextColumn⟩ ::
          Cell.scanFrom m.nextColumn.nextColumn (escape cs ++ '"' :: rest)) = some (.char c 1) := by
        rcases hmark with rfl | rfl <;> rfl
      have ih := @ih m.nextColumn.nextColumn .none rfl htail (hnext _)
      simp only [List.cons_append, List.nil_append]
      rw [scanFrom_plain hslash, scanFrom_plain hc, quotedAt?]
      simp [hblank, isBreak, endChar, hboundary _ _ _ hm, hpart, quotedAt?, ih, Gap.text]
    case isFalse hmark =>
      rw [not_or] at hmark
      simp only [List.cons_append, List.nil_append]
      rw [scanFrom_plain hc, quotedAt?]
      by_cases hspace : c = ' '
      · subst hspace
        obtain ⟨htext, hbroken⟩ := text_blank hgap ' '
        simp [isBlank, ih hbroken htail (hnext m), htext]
      · have hblank : isBlank c = false := by simp [isBlank, hspace, htab]
        have hpart : quotedPartAt? '"' c (Cell.scanFrom m.nextColumn (escape cs ++ '"' :: rest)) =
            some (.char c 0) := by
          simp [quotedPartAt?, hmark.1, hmark.2]
        have ih := @ih m.nextColumn .none rfl htail (hnext m)
        simp [hblank, hbreak, hend, hboundary _ _ _ hm, hpart, ih, Gap.text]

theorem isPlain_escape (h : ∀ c ∈ cs, IsPlain c) : ∀ c ∈ escape cs, IsPlain c := by
  intro c hc
  obtain ⟨d, hd, hc⟩ := List.mem_flatMap.mp hc
  split at hc
  case isTrue =>
    rcases List.mem_cons.mp hc with rfl | hc
    · simp [IsPlain]
    · exact List.mem_singleton.mp hc ▸ h d hd
  case isFalse => exact List.mem_singleton.mp hc ▸ h d hd

/-- The state after a quoted scalar. -/
theorem tokenAt?_quote {text : String} (htext : ∀ c ∈ text.toList, IsPlain c) (hm : m.column ≠ 0)
    {s' : ScanState}
    (hs' : s.content? ⟨'"', m⟩ (.scalar .quoted text) false = some s') :
    s.tokenAt? ⟨'"', m⟩ (Cell.scanFrom m.nextColumn ((escape text.toList ++ ['"']) ++ rest)) =
      some (s', (escape text.toList ++ ['"']).length) := by
  have hread := @quotedAt?_escape m.nextColumn text.toList rest .none rfl htext (Nat.succ_ne_zero _)
  rw [List.append_assoc, List.singleton_append, List.length_append]
  simp [ScanState.tokenAt?, ScanState.scalarAt?, endChar, isGap, isBlank, isBreak,
    atMarker_eq_false (c := ⟨'"', m⟩) (Or.inl hm), hread, hs', Gap.text, String.ofList_toList]

/-- A quoted scalar that is no key. -/
theorem scanText_quote (hs : Scanned s ts depth allowed none) {text : String}
    (htext : ∀ c ∈ text.toList, IsPlain c) (hm : m.column ≠ 0) :
    ∃ s', Scanned s' (.scalar .quoted text :: ts) depth false none ∧
      scanText s m (quote text ++ rest) = scanText s' (m.after (quote text).length) rest := by
  have hcs : ∀ c ∈ escape text.toList ++ ['"'], IsPlain c :=
    List.forall_mem_append.mpr ⟨isPlain_escape htext, by simp [IsPlain]⟩
  refine scanText_token hs nofun (by simp [IsPlain]) (by decide) hcs (fun s hs => ?_) nofun
  obtain ⟨s', hcontent, hs'⟩ := hs.content ⟨'"', m⟩ (.scalar .quoted text) false
  exact ⟨s', tokenAt?_quote htext hm hcontent, hs'⟩

/-- A short word between quotes is a key if a colon follows. -/
theorem scanText_key (hs : Scanned s ts (depth + 1) true none) {key : String} (hkey : IsKey key)
    (hm : m.column ≠ 0) :
    ∃ s', Scanned s' (.value :: .scalar .quoted key :: .key :: ts) (depth + 1) false none ∧
      scanText s m (quote key ++ ':' :: rest) =
        scanText s' (m.after ((quote key).length + 1)) rest := by
  obtain ⟨-, hlength, hlower⟩ := hkey
  have htext : ∀ c ∈ key.toList, IsPlain c := fun c hc => .of_isLower (hlower c hc)
  have hcs : ∀ c ∈ escape key.toList ++ ['"'], IsPlain c :=
    List.forall_mem_append.mpr ⟨isPlain_escape htext, by simp [IsPlain]⟩
  have hlength' : (quote key).length ≤ 1002 := by
    simp only [quote, escape_key hlower, List.length_cons, List.length_append, List.length_nil]
    omega
  have hfresh : ∀ n ≤ 1024, ∀ k, some (PendingKey.mk ts.length m false) = some k →
      k.isStale (m.after n) = false := by
    rintro n hn k ⟨⟩
    simp [PendingKey.isStale, Mark.after]
    omega
  obtain ⟨s₁, hs₁, hscan⟩ : ∃ s₁, Scanned s₁ (.scalar .quoted key :: ts) (depth + 1) false
      (some ⟨ts.length, m, false⟩) ∧ scanText s m (quote key ++ ':' :: rest) =
        scanText s₁ (m.after (quote key).length) (':' :: rest) := by
    refine scanText_token hs nofun (by simp [IsPlain]) (by decide) hcs (fun s hs => ?_)
      (hfresh (quote key).length (by omega))
    obtain ⟨s', hcontent, hs'⟩ := hs.content_key ⟨'"', m⟩ (.scalar .quoted key)
    exact ⟨s', tokenAt?_quote htext hm hcontent, hs'⟩
  obtain ⟨s₂, hs₂, hscan'⟩ := @scanText_token s₁ _ (.value :: .scalar .quoted key :: .key :: ts) _
    (depth + 1) _ false _ none (m.after (quote key).length) ':' [] rest hs₁
    (hfresh _ (by omega)) (by simp [IsPlain]) (by decide) nofun
    (fun s hs => by
      obtain ⟨s', hvalue, hs'⟩ := hs.value rfl ⟨':', m.after (quote key).length⟩
      refine ⟨s', ?_, hs'⟩
      simp [ScanState.tokenAt?, endChar, hs.inFlow, atMarker_eq_false, hvalue])
    nofun
  exact ⟨s₂, hs₂, by rw [hscan, ← Mark.after_after]; exact hscan'⟩

/-! ## Signs -/

/-- The signs of data : a character, its token, how many brackets are open before and after it, and
whether a key may begin then. -/
inductive Sign : Char → Token → Nat → Nat → Bool → Prop
  | openSequence {depth : Nat} : Sign '[' .flowSequenceStart depth (depth + 1) true
  | openMapping {depth : Nat} : Sign '{' .flowMappingStart depth (depth + 1) true
  | closeSequence {depth : Nat} : Sign ']' .flowSequenceEnd (depth + 1) depth false
  | closeMapping {depth : Nat} : Sign '}' .flowMappingEnd (depth + 1) depth false
  | comma {depth : Nat} : Sign ',' .flowEntry depth depth true

theorem tokenAt?_sign {t : Token} (h : Sign c t depth depth' allowed')
    (hs : Scanned s ts depth allowed none) (cells : List Cell) :
    ∃ s', s.tokenAt? ⟨c, m⟩ cells = some (s', 0) ∧ Scanned s' (t :: ts) depth' allowed' none := by
  cases h with
  | openSequence =>
    obtain ⟨s', hopen, hs'⟩ := hs.openBracket ⟨'[', m⟩ .flowSequenceStart
    exact ⟨s', by simp [ScanState.tokenAt?, endChar, atMarker_eq_false, hopen], hs'⟩
  | openMapping =>
    obtain ⟨s', hopen, hs'⟩ := hs.openBracket ⟨'{', m⟩ .flowMappingStart
    exact ⟨s', by simp [ScanState.tokenAt?, endChar, atMarker_eq_false, hopen], hs'⟩
  | closeSequence =>
    obtain ⟨s', hclose, hs'⟩ := hs.closeBracket .flowSequenceEnd
    exact ⟨s', by simp [ScanState.tokenAt?, endChar, atMarker_eq_false, hclose], hs'⟩
  | closeMapping =>
    obtain ⟨s', hclose, hs'⟩ := hs.closeBracket .flowMappingEnd
    exact ⟨s', by simp [ScanState.tokenAt?, endChar, atMarker_eq_false, hclose], hs'⟩
  | comma =>
    obtain ⟨s', hsign, hs'⟩ := hs.sign .flowEntry true
    exact ⟨s', by simp [ScanState.tokenAt?, endChar, atMarker_eq_false, hsign], hs'⟩

theorem scanText_sign {t : Token} (h : Sign c t depth depth' allowed')
    (hs : Scanned s ts depth allowed none) :
    ∃ s', Scanned s' (t :: ts) depth' allowed' none ∧
      scanText s m (c :: rest) = scanText s' (m.after 1) rest :=
  @scanText_token s ts _ depth depth' allowed allowed' none none m c [] rest hs nofun
    (by cases h <;> simp [IsPlain]) (by cases h <;> decide) nofun
    (fun _ hs => tokenAt?_sign h hs _) nofun

/-! ## Integers -/

/-- What ends a plain scalar in brackets. -/
def StopsPlain (rest : List Char) : Prop := ∃ c tail, rest = c :: tail ∧ c ∈ [',', ']', '}']

theorem isPlain_of_signed (hc : c.isDigit = true ∨ c = '-') : IsPlain c := by
  rcases hc with hc | rfl
  · rw [Char.isDigit, Bool.and_eq_true, decide_eq_true_eq, decide_eq_true_eq] at hc
    have hlow : 48 ≤ c.toNat := hc.1
    have hhigh : c.toNat ≤ 57 := hc.2
    exact ⟨by omega, by omega⟩
  · simp [IsPlain]

theorem ne_of_signed {d : Char} (hc : c.isDigit = true ∨ c = '-')
    (hd : d.isDigit = false ∧ d ≠ '-') : c ≠ d := by
  rintro rfl
  rcases hc with hc | rfl
  · exact absurd hc (by simp [hd.1])
  · exact hd.2 rfl

/-- A plain scalar of digits is read up to what ends it. -/
theorem plainAt?_signed (hcs : ∀ c ∈ cs, c.isDigit = true ∨ c = '-') (hrest : StopsPlain rest)
    (limit : Nat) :
    plainAt? limit true .none (Cell.scanFrom m (cs ++ rest)) = some (cs, cs.length, false) := by
  induction cs generalizing m with
  | nil =>
    obtain ⟨c, tail, rfl, hc⟩ := hrest
    have hstop : ∀ c ∈ [',', ']', '}'], isBlank c = false ∧ isBreak c = false ∧
        ",[]\x7b\x7d".toList.contains c = true := by decide
    have hplain : ∀ c ∈ [',', ']', '}'], 0x20 ≤ c.toNat ∧ c.toNat ≤ 0x7E := by decide
    obtain ⟨hblank, hbreak, hmark⟩ := hstop c hc
    rw [List.nil_append, scanFrom_plain (hplain c hc), plainAt?]
    simp only [hblank, hbreak, endsPlain, hmark, Bool.true_and, Bool.or_true, Bool.false_eq_true,
      if_false, if_true]
    rfl
  | cons c cs ih =>
    obtain ⟨hc, hcs⟩ := List.forall_mem_cons.mp hcs
    have hplain := isPlain_of_signed hc
    obtain ⟨-, -, -, hbreak, -, hend, htab⟩ := not_break_of_isPlain hplain
    have hblank : isBlank c = false := by
      simp [isBlank, htab, ne_of_signed (d := ' ') hc (by decide)]
    have hcolon : c ≠ ':' := ne_of_signed hc (by decide)
    rw [List.cons_append, scanFrom_plain hplain, plainAt?]
    simp [hblank, hbreak, endsPlain, hend, hcolon, ih hcs, Gap.text]
    refine ⟨?_, ?_, ?_, ?_, ?_⟩ <;> exact ne_of_signed hc (by decide)

theorem beginsPlain_of_signed (hc : c.isDigit = true ∨ c = '-') {next : Char}
    (hnext : c = '-' → isGap next = false) : beginsPlain true c next = true := by
  rcases hc with hc | rfl
  · have hne : ∀ d, d.isDigit = false ∧ d ≠ '-' → c ≠ d := fun d => ne_of_signed (Or.inl hc)
    have hminus : c ≠ '-' := by
      rintro rfl
      exact absurd hc (by decide)
    have hgap : isGap c = false := by
      simp only [isGap, isBlank, isBreak, Bool.or_eq_false_iff, beq_eq_false_iff_ne]
      refine ⟨⟨⟨?_, ?_⟩, ⟨?_, ?_⟩, ?_⟩, ?_⟩ <;> exact hne _ (by decide)
    have hmark : ",[]\x7b\x7d#&*!|>'\"%@\x60".toList.contains c = false := by
      rw [List.contains_eq_any_beq, List.any_eq_false]
      intro d hd
      have hmarks : ∀ d ∈ ",[]\x7b\x7d#&*!|>'\"%@\x60".toList,
          Char.isDigit d = false ∧ d ≠ '-' := by decide
      rw [beq_iff_eq]
      exact hne d (hmarks d hd)
    simp only [beginsPlain, beq_eq_false_iff_ne.mpr hminus, beq_eq_false_iff_ne.mpr (hne '?' (by decide)),
      beq_eq_false_iff_ne.mpr (hne ':' (by decide)), hgap, hmark]
    rfl
  · simp [beginsPlain, hnext rfl]

/-- A digit, or a minus sign before one, begins a plain scalar. -/
theorem tokenAt?_plain {cells : List Cell} {text : List Char} {n : Nat} {s' : ScanState}
    (hc : c.isDigit = true ∨ c = '-') (hnext : c = '-' → isGap (Cell.next cells) = false)
    (hm : m.column ≠ 0) (hflow : s.inFlow = true)
    (hread : plainAt? s.limit true .none (⟨c, m⟩ :: cells) = some (text, n, false))
    (hs' : s.content? ⟨c, m⟩ (.scalar .plain (String.ofList text)) false = some s') :
    s.tokenAt? ⟨c, m⟩ cells = some (s', n - 1) := by
  have hne : ∀ d, d.isDigit = false ∧ d ≠ '-' → c ≠ d := fun d => ne_of_signed hc
  have hscalar : s.scalarAt? ⟨c, m⟩ cells = some (s', n - 1) := by
    unfold ScanState.scalarAt?
    split
    case h_6 => simp [hflow, beginsPlain_of_signed hc hnext, hread, hs']
    all_goals
      next heq => exact absurd heq (hne _ (by decide))
  have hgap : ¬ (c = '-' ∧ isGap (Cell.next cells) = true) := fun h => by
    simp [hnext h.1] at h
  unfold ScanState.tokenAt?
  rw [if_neg (hne _ (by decide)), if_neg fun h => hne _ (by decide) h.1,
    atMarker_eq_false (c := ⟨c, m⟩) (Or.inl hm), atMarker_eq_false (c := ⟨c, m⟩) (Or.inl hm)]
  simp only [Bool.false_eq_true, if_false]
  split
  case h_6 =>
    rw [if_neg hgap, if_neg fun h => hne _ (by decide) h.1, if_neg fun h => hne _ (by decide) h.1]
    exact hscalar
  all_goals exact absurd hc (by decide)

/-- An integer is a plain scalar. -/
theorem scanText_integer (hs : Scanned s ts (depth + 1) allowed none) (z : Int) (hm : m.column ≠ 0)
    (hrest : StopsPlain rest) :
    ∃ s', Scanned s' (.scalar .plain (String.ofList (Text.signed z)) :: ts) (depth + 1) false none ∧
      scanText s m (Text.signed z ++ rest) = scanText s' (m.after (Text.signed z).length) rest := by
  obtain ⟨c, cs, hz⟩ := List.exists_cons_of_ne_nil (Text.signed_ne_nil z)
  have hmem : ∀ d ∈ c :: cs, d.isDigit = true ∨ d = '-' := fun d hd =>
    Text.isDigit_of_mem_signed (hz ▸ hd)
  obtain ⟨hc, hcs⟩ := List.forall_mem_cons.mp hmem
  have hnext : c = '-' → isGap (Cell.next (Cell.scanFrom m.nextColumn (cs ++ rest))) = false := by
    rintro rfl
    obtain ⟨d, ds, hds⟩ := List.exists_cons_of_ne_nil (Text.digits_ne_nil z.natAbs)
    have hd := Text.isDigit_of_mem_digits z.natAbs d (hds ▸ List.mem_cons_self ..)
    have htail : cs = d :: ds := by
      rcases Text.signed_cases z with ⟨-, h⟩ | ⟨-, h⟩ <;> rw [h, hds] at hz
      · rw [(List.cons.inj hz).1] at hd
        exact absurd hd (by decide)
      · exact (List.cons.inj hz).2.symm
    rw [htail, List.cons_append, scanFrom_plain (isPlain_of_signed (Or.inl hd))]
    simp only [Cell.next, isGap, isBlank, isBreak, Bool.or_eq_false_iff, beq_eq_false_iff_ne]
    refine ⟨⟨⟨?_, ?_⟩, ⟨?_, ?_⟩, ?_⟩, ?_⟩ <;> exact ne_of_signed (Or.inl hd) (by decide)
  rw [hz]
  refine scanText_token hs nofun (isPlain_of_signed hc)
    ⟨ne_of_signed hc (by decide), ne_of_signed hc (by decide)⟩
    (fun d hd => isPlain_of_signed (hcs d hd)) (fun s hs => ?_) nofun
  obtain ⟨s', hcontent, hs'⟩ := hs.content ⟨c, m⟩ (.scalar .plain (String.ofList (c :: cs))) false
  have hread := @plainAt?_signed m (c :: cs) rest hmem hrest s.limit
  rw [List.cons_append, scanFrom_plain (isPlain_of_signed hc)] at hread
  exact ⟨s', tokenAt?_plain hc hnext hm (hs.inFlow.trans (by simp)) hread hcontent, hs'⟩

end Steps

/-! ## Data -/

/-- The tokens of a scan, newest first, how many brackets are open, and whether a key may begin. -/
structure Stage where
  tokens : List Token
  depth : Nat
  allowed : Bool

/-- A scan gets from a text to what is left of it, at another stage, if it is not at the beginning of
the line. -/
def Scans (a : Stage) (text : List Char) (b : Stage) (rest : List Char) : Prop :=
  ∀ s m, m.column ≠ 0 → Scanned s a.tokens a.depth a.allowed none →
    ∃ s' m', m'.column ≠ 0 ∧ Scanned s' b.tokens b.depth b.allowed none ∧
      scanText s m text = scanText s' m' rest

theorem Scans.trans {a b c : Stage} {text text' text'' : List Char} (h : Scans a text b text')
    (h' : Scans b text' c text'') : Scans a text c text'' := by
  intro s m hm hs
  obtain ⟨s', m', hm', hs', hscan⟩ := h s m hm hs
  obtain ⟨s'', m'', hm'', hs'', hscan'⟩ := h' s' m' hm' hs'
  exact ⟨s'', m'', hm'', hs'', hscan.trans hscan'⟩

theorem Mark.after_ne_zero {m : Mark} (h : m.column ≠ 0) (n : Nat) : (m.after n).column ≠ 0 :=
  fun hzero => h (Nat.eq_zero_of_add_eq_zero_right hzero)

section Data

variable {ts : List Token} {depth : Nat} {allowed : Bool} {rest : List Char}

theorem scans_sign {depth' : Nat} {allowed' : Bool} {c : Char} {t : Token}
    (h : Sign c t depth depth' allowed') :
    Scans ⟨ts, depth, allowed⟩ (c :: rest) ⟨t :: ts, depth', allowed'⟩ rest := by
  intro s m hm hs
  obtain ⟨s', hs', hscan⟩ := scanText_sign h hs
  exact ⟨s', _, Mark.after_ne_zero hm 1, hs', hscan⟩

theorem scans_space {a : Stage} : Scans a (' ' :: rest) a rest :=
  fun s m _ hs => ⟨s, m.nextColumn, Nat.succ_ne_zero _, hs, scanText_space ..⟩

/-- After a comma and a space a key may begin. -/
theorem scans_comma : Scans ⟨ts, depth, allowed⟩ (',' :: ' ' :: rest)
    ⟨.flowEntry :: ts, depth, true⟩ rest :=
  (scans_sign .comma).trans scans_space

theorem scans_key {key : String} (hkey : IsKey key) :
    Scans ⟨ts, depth + 1, true⟩ (quote key ++ ':' :: ' ' :: rest)
      ⟨.value :: .scalar .quoted key :: .key :: ts, depth + 1, false⟩ rest := by
  intro s m hm hs
  obtain ⟨s', hs', hscan⟩ := @scanText_key _ _ _ _ (' ' :: rest) hs key hkey hm
  exact ⟨s', _, Nat.succ_ne_zero _, hs', hscan.trans (scanText_space ..)⟩

/-- A datum is scanned as its tokens, wherever in brackets it stands. -/
def ScansOn (d : Datum) : Prop :=
  ∀ ts depth allowed rest, StopsPlain rest → Scans ⟨ts, depth + 1, allowed⟩ (d.json ++ rest)
    ⟨(tokensOf d).reverse ++ ts, depth + 1, false⟩ rest

theorem scans_items {items : List Datum} (hitems : ∀ d ∈ items, ScansOn d) (hne : items ≠ [])
    (ts : List Token) (allowed : Bool) :
    Scans ⟨ts, depth + 1, allowed⟩ (commaList (items.map Datum.json) ++ ']' :: rest)
      ⟨(commaTokens (items.map tokensOf)).reverse ++ ts, depth + 1, false⟩
      (']' :: rest) := by
  induction items generalizing ts allowed with
  | nil => exact absurd rfl hne
  | cons d ds ih =>
    obtain ⟨hd, hds⟩ := List.forall_mem_cons.mp hitems
    cases ds with
    | nil => exact hd ts depth allowed _ ⟨']', rest, rfl, by decide⟩
    | cons e es =>
      have hrest := ih hds (List.cons_ne_nil _ _)
        (.flowEntry :: ((tokensOf d).reverse ++ ts)) true
      have hlist := (hd ts depth allowed _ ⟨',', _, rfl, by decide⟩).trans (scans_comma.trans hrest)
      simpa [commaList, commaTokens] using hlist

theorem scans_entries {entries : List (String × Datum)} (hkeys : ∀ entry ∈ entries, IsKey entry.1)
    (hentries : ∀ entry ∈ entries, ScansOn entry.2) (hne : entries ≠ []) (ts : List Token) :
    Scans ⟨ts, depth + 1, true⟩
      (commaList (entries.map fun entry => quote entry.1 ++ ':' :: ' ' :: entry.2.json) ++ '}' :: rest)
      ⟨(commaTokens (entries.map fun entry => entryTokens (entry.1, tokensOf entry.2))).reverse ++
        ts, depth + 1, false⟩ ('}' :: rest) := by
  induction entries generalizing ts with
  | nil => exact absurd rfl hne
  | cons entry entries ih =>
    obtain ⟨hkey, hkeys⟩ := List.forall_mem_cons.mp hkeys
    obtain ⟨hentry, hentries⟩ := List.forall_mem_cons.mp hentries
    have hfirst : ∀ rest, StopsPlain rest → Scans ⟨ts, depth + 1, true⟩
        (quote entry.1 ++ ':' :: ' ' :: (entry.2.json ++ rest))
        ⟨(entryTokens (entry.1, tokensOf entry.2)).reverse ++ ts, depth + 1, false⟩ rest := by
      intro rest hrest
      have hvalue := (scans_key hkey).trans (hentry (.value :: .scalar .quoted entry.1 :: .key :: ts)
        depth false rest hrest)
      simpa [entryTokens] using hvalue
    cases entries with
    | nil =>
      have hlast := hfirst ('}' :: rest) ⟨'}', rest, rfl, by decide⟩
      simpa [commaList, commaTokens] using hlast
    | cons other others =>
      have hrest := ih hkeys hentries (List.cons_ne_nil _ _) (.flowEntry ::
        ((entryTokens (entry.1, tokensOf entry.2)).reverse ++ ts))
      have hlist := (hfirst _ ⟨',', _, rfl, by decide⟩).trans (scans_comma.trans hrest)
      simpa [commaList, commaTokens] using hlist

/-- The entries of a table are scanned as its tokens. -/
theorem scans_table {entries : List (String × Datum)} (hkeys : ∀ entry ∈ entries, IsKey entry.1)
    (hentries : ∀ entry ∈ entries, ScansOn entry.2) (ts : List Token) :
    Scans ⟨.flowMappingStart :: ts, depth + 1, true⟩
      (commaList (entries.map fun entry => quote entry.1 ++ ':' :: ' ' :: entry.2.json) ++ '}' :: rest)
      ⟨(tokensOf (.table entries)).reverse ++ ts, depth, false⟩ rest := by
  rw [tokensOf_table]
  by_cases hne : entries = []
  · subst hne
    exact scans_sign .closeMapping
  · have htable := (scans_entries hkeys hentries hne (.flowMappingStart :: ts)).trans
      (@scans_sign _ (depth + 1) false rest depth _ _ _ .closeMapping)
    simpa using htable

/-- Data are scanned as their tokens. -/
theorem scansOn {kind : Int → Prop} {n : Nat} {d : Datum} (h : d.Fits kind n) : ScansOn d := by
  induction h with
  | @text _ text htext =>
    intro ts depth allowed rest _ s m hm hs
    obtain ⟨s', hs', hscan⟩ := scanText_quote hs htext hm
    exact ⟨s', _, Mark.after_ne_zero hm _, hs', hscan⟩
  | @integer _ z =>
    intro ts depth allowed rest hrest s m hm hs
    obtain ⟨s', hs', hscan⟩ := scanText_integer hs z hm hrest
    exact ⟨s', _, Mark.after_ne_zero hm _, hs', hscan⟩
  | @list n items _ ih =>
    intro ts depth allowed rest _
    rw [Datum.json_list, tokensOf_list]
    by_cases hne : items = []
    · subst hne
      exact (scans_sign .openSequence).trans (scans_sign .closeSequence)
    · have hlist := (@scans_sign ts (depth + 1) allowed _ _ _ _ _ .openSequence).trans
        ((scans_items ih hne (.flowSequenceStart :: ts) true).trans
          (@scans_sign _ (depth + 2) false rest _ _ _ _ .closeSequence))
      simpa using hlist
  | @table n entries hkeys _ _ ih =>
    intro ts depth allowed rest _
    have htable := (@scans_sign ts (depth + 1) allowed _ _ _ _ _ .openMapping).trans
      (@scans_table (depth + 1) rest entries hkeys ih ts)
    simpa [Datum.json_table] using htable

/-- Where no bracket is open and nothing is left, the text ends. -/
theorem scanText_end {s : ScanState} {m : Mark} (hs : Scanned s ts 0 allowed none) :
    scanText s m [] = ts.reverse ++ [.streamEnd] := by
  obtain ⟨s', hretire, hs'⟩ := hs.retire (m := m) nofun
  have hskip : s.skip? ⟨endChar, m⟩ [] = none := by simp [ScanState.skip?, endChar, isBreak]
  have hrequired : (s'.key :: s'.outer).any (fun k => k.any (·.required)) = false := by
    rw [List.any_eq_false]
    intro key hkey
    cases hk : key with
    | none => simp
    | some k => simp [hs'.free key hkey k hk]
  have hfinish : s'.finish? = some { s'.push .streamEnd with key := none, outer := [] } := by
    rw [ScanState.finish?, if_neg (by simp [hrequired]), hs'.endBlocks]
  have hstep : s.step? ⟨endChar, m⟩ [] =
      some ({ s'.push .streamEnd with key := none, outer := [] }, 0) := by
    simp [ScanState.step?, hretire, hs'.endBlocks, ScanState.tokenAt?, hfinish]
  rw [scanText, Cell.scanFrom, ScanState.run, hskip]
  simp [hstep, ScanState.run, ScanState.available, ScanState.push, hs'.tokens]

/-- Data are scanned on a line of their own. -/
theorem scan_json {kind : Int → Prop} {n : Nat} {entries : List (String × Datum)}
    (h : (Datum.table entries).Fits kind n) :
    Token.scan (Datum.table entries).json = tokensOf (.table entries) ++ [.streamEnd] := by
  cases h with
  | table hkeys hentries _ =>
    have hstart : Scanned {} [] 0 true none := ⟨rfl, rfl, rfl, rfl, by simp, rfl, nofun⟩
    have hscan : Token.scan (Datum.table entries).json =
        scanText {} ⟨0, 0, 0⟩ (Datum.table entries).json := by
      rw [Datum.json_table]
      rfl
    rw [hscan, Datum.json_table]
    obtain ⟨s, hs, hopen⟩ := @scanText_sign {} [] 0 _ true _ ⟨0, 0, 0⟩ '{' (commaList (entries.map
      fun entry => quote entry.1 ++ ':' :: ' ' :: entry.2.json) ++ ['}']) _ .openMapping hstart
    obtain ⟨s', m, hm, hs', htable⟩ := @scans_table 0 [] entries hkeys
      (fun entry hentry => scansOn (hentries entry hentry)) [] s (Mark.after ⟨0, 0, 0⟩ 1) nofun hs
    rw [hopen, htable, scanText_end hs', List.append_nil, List.reverse_reverse]

end Data

end SchemaHeaders.Yaml
