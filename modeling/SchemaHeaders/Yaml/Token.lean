import SchemaHeaders.Yaml.BlockText
import SchemaHeaders.Yaml.Folding
import SchemaHeaders.Yaml.Tag

/-!
# YAML tokens

`Token.scan` cuts a YAML text into tokens as far as it is made of them; the tokens of a whole
text end in `streamEnd`. The beginnings and the ends of blocks, which the text shows by its
columns, are tokens too. A scalar or a collection turns out to be a key by the colon after
it: until then its place among the tokens is that of a `PendingKey`, and with the colon the
token `key` is put there. Where a text makes no sense, the tokens from the first pending key
on are left out.
-/

namespace SchemaHeaders.Yaml

/-- The ways to write a scalar. -/
inductive Style where
  | plain
  | quoted
  | literal
  | folded
  deriving DecidableEq

/-- A token of a YAML text. -/
inductive Token where
  | directive (directive : Directive)
  | documentStart
  | documentEnd
  | streamEnd
  | blockSequenceStart
  | blockMappingStart
  | blockEnd
  | flowSequenceStart
  | flowSequenceEnd
  | flowMappingStart
  | flowMappingEnd
  | blockEntry
  | flowEntry
  | key
  | value
  | reference (name : String)
  | anchor (name : String)
  | tag (name : TagName)
  | scalar (style : Style) (text : String)
  deriving DecidableEq

/-! ## Pending keys -/

/-- A place among the tokens that is that of a key if a colon follows. -/
structure PendingKey where
  /-- the number of tokens before it -/
  position : Nat
  mark : Mark
  /-- whether nothing else may stand there -/
  required : Bool
  deriving DecidableEq

namespace PendingKey

/-- Whether a colon at a mark comes too late for a key: on another line, or too far off. -/
def isStale (k : PendingKey) (m : Mark) : Bool :=
  k.mark.line < m.line || k.mark.index + 1024 < m.index

/-- What is left of a key that did not become one, which fails if it had to. -/
def drop? : Option PendingKey → Option (Option PendingKey)
  | some k => if k.required then none else some none
  | none => some none

/-- What is left at a mark of keys, none of which may be stale if it is required. -/
def retire? (m : Mark) : List (Option PendingKey) → Option (List (Option PendingKey))
  | [] => some []
  | none :: ks => (none :: ·) <$> retire? m ks
  | some k :: ks =>
    if k.isStale m then if k.required then none else (none :: ·) <$> retire? m ks
    else (some k :: ·) <$> retire? m ks

end PendingKey

/-! ## The state of a scan -/

/-- A text that has been cut into tokens in part. -/
structure ScanState where
  /-- the tokens so far, newest first -/
  tokens : List Token := []
  /-- the number of the tokens -/
  count : Nat := 0
  /-- the columns of the open blocks, innermost first -/
  columns : List Nat := []
  /-- the pending key of the innermost bracket, or of the blocks outside all brackets -/
  key : Option PendingKey := none
  /-- the pending keys outside the brackets that are open, one for each -/
  outer : List (Option PendingKey) := []
  /-- whether a key may begin here -/
  keyAllowed : Bool := true

namespace ScanState

/-- Whether a bracket is open. -/
def inFlow (s : ScanState) : Bool := !s.outer.isEmpty

/-- The least column of what belongs to the innermost block. -/
def limit (s : ScanState) : Nat :=
  match s.columns with
  | [] => 0
  | k :: _ => k + 1

/-- One more token. -/
def push (s : ScanState) (t : Token) : ScanState :=
  { s with tokens := t :: s.tokens, count := s.count + 1 }

/-- One more token, at a position among those so far. -/
def insert (s : ScanState) (position : Nat) (t : Token) : ScanState :=
  let newer := s.count - position
  { s with tokens := s.tokens.take newer ++ t :: s.tokens.drop newer, count := s.count + 1 }

/-- The tokens so far, without those from the first pending key on. -/
def available (s : ScanState) : List Token :=
  match (s.key :: s.outer).reverse.findSome? id with
  | some k => (s.tokens.drop (s.count - k.position)).reverse
  | none => s.tokens.reverse

/-! ## Keys -/

/-- Keys that come too late at a mark are pending no more. -/
def retire? (s : ScanState) (m : Mark) : Option ScanState :=
  match PendingKey.retire? m (s.key :: s.outer) with
  | some (key :: outer) => some { s with key, outer }
  | _ => none

/-- The innermost key is pending no more. -/
def dropKey? (s : ScanState) : Option ScanState :=
  (fun key => { s with key }) <$> PendingKey.drop? s.key

/-- A key may begin at a mark. -/
def saveKey? (s : ScanState) (m : Mark) : Option ScanState :=
  if s.keyAllowed then
    (fun s => { s with key := some ⟨s.count, m, !s.inFlow && s.limit == m.column + 1⟩ }) <$>
      s.dropKey?
  else some s

/-! ## Blocks -/

/-- Ends blocks from the innermost out, as long as their columns are not less than `least`. -/
def endBlocksFrom (s : ScanState) (least : Nat) : List Nat → ScanState
  | [] => { s with columns := [] }
  | k :: ks => if least ≤ k then (s.push .blockEnd).endBlocksFrom least ks
    else { s with columns := k :: ks }

/-- Ends the blocks whose columns are not less than `least`, outside all brackets. -/
def endBlocks (s : ScanState) (least : Nat) : ScanState :=
  if s.inFlow then s else s.endBlocksFrom least s.columns

/-- A part of a block stands at a column, before which so many tokens stand: the block begins
there if it is deeper than those that are open. -/
def beginBlock (s : ScanState) (column position : Nat) (t : Token) : ScanState :=
  if !s.inFlow ∧ s.limit ≤ column then
    { s.insert position t with columns := column :: s.columns }
  else s

/-- The sign of a part of a block, which outside all brackets must stand where a key may. -/
def blockSign? (s : ScanState) (c : Cell) (block : Token) : Option ScanState :=
  if s.inFlow then some s
  else if s.keyAllowed then some (s.beginBlock c.mark.column s.count block)
  else none

/-! ## Tokens -/

/-- A mark between documents, or a directive. -/
def boundary? (s : ScanState) (t : Token) : Option ScanState :=
  (fun s => { s.push t with keyAllowed := false }) <$> (s.endBlocks 0).dropKey?

/-- A bracket that opens. -/
def openBracket? (s : ScanState) (c : Cell) (t : Token) : Option ScanState :=
  (fun s => { s.push t with key := none, outer := s.key :: s.outer, keyAllowed := true }) <$>
    s.saveKey? c.mark

/-- A bracket that closes. -/
def closeBracket? (s : ScanState) (t : Token) : Option ScanState :=
  (fun s =>
    match s.outer with
    | [] => { s.push t with keyAllowed := false }
    | key :: outer => { s.push t with key, outer, keyAllowed := false }) <$> s.dropKey?

/-- A token after which a key may stand or not, and before which no key ends. -/
def sign? (s : ScanState) (t : Token) (keyAllowed : Bool) : Option ScanState :=
  (fun s => { s.push t with keyAllowed }) <$> s.dropKey?

/-- A colon, which makes a key of what is pending. -/
def value? (s : ScanState) (c : Cell) : Option ScanState :=
  match s.key with
  | some k =>
    let s := (s.insert k.position .key).beginBlock k.mark.column k.position .blockMappingStart
    some { s.push .value with key := none, keyAllowed := false }
  | none =>
    (fun s => { s.push .value with keyAllowed := !s.inFlow }) <$> s.blockSign? c .blockMappingStart

/-- A token that may begin a key. -/
def content? (s : ScanState) (c : Cell) (t : Token) (keyAllowed : Bool) : Option ScanState :=
  (fun s => { s.push t with keyAllowed }) <$> s.saveKey? c.mark

/-- The end of the text, where no key is pending any more. -/
def finish? (s : ScanState) : Option ScanState :=
  if (s.key :: s.outer).any (fun k => k.any (·.required)) then none
  else some { (s.endBlocks 0).push .streamEnd with key := none, outer := [] }

end ScanState

/-! ## The scan -/

/-- Whether a plain scalar may begin with a character before another. -/
def beginsPlain (flow : Bool) (c next : Char) : Bool :=
  if c == '-' then !isGap next
  else if c == '?' || c == ':' then !flow && !isGap next
  else !isGap c && !",[]\x7b\x7d#&*!|>'\"%@\x60".toList.contains c

/-- The name of an anchor or an alias after its sign. -/
def anchorName? (cs : List Cell) : Option (List Char) :=
  let name := (cs.takeWhile (isNameChar ·.char)).map (·.char)
  let next := Cell.next (cs.drop name.length)
  if name ≠ [] ∧ (isGap next ∨ "?:,]\x7d%@\x60".toList.contains next) then some name else none

/-- The state after the scalar or the mark of one that begins with a cell before others, and
how many of those it takes. -/
def ScanState.scalarAt? (s : ScanState) (c : Cell) (cs : List Cell) :
    Option (ScanState × Nat) :=
  match c.char with
  | '*' => do
    let name ← anchorName? cs
    let s ← s.content? c (.reference (String.ofList name)) false
    return (s, name.length)
  | '&' => do
    let name ← anchorName? cs
    let s ← s.content? c (.anchor (String.ofList name)) false
    return (s, name.length)
  | '!' => do
    let (tag, n) ← tagAt? (cs.map (·.char))
    let next := Cell.next (cs.drop n)
    let s ← s.content? c (.tag tag) false
    if isGap next ∨ (s.inFlow ∧ next = ',') then return (s, n) else none
  | '\'' | '"' => do
    let (text, n) ← quotedAt? c.char 0 .none cs
    let s ← s.content? c (.scalar .quoted (String.ofList text)) false
    return (s, n)
  | _ =>
    if s.inFlow = false ∧ (c.char = '|' ∨ c.char = '>') then do
      let literal := c.char == '|'
      let (text, n) ← blockAt? literal s.limit cs
      let s ← s.sign? (.scalar (if literal then .literal else .folded) (String.ofList text)) true
      return (s, n)
    else if beginsPlain s.inFlow c.char (Cell.next cs) then do
      let (text, n, afterBreak) ← plainAt? s.limit s.inFlow .none (c :: cs)
      let s ← s.content? c (.scalar .plain (String.ofList text)) afterBreak
      return (s, n - 1)
    else none

/-- The state after the token that begins with a cell before others, and how many of those it
takes. -/
def ScanState.tokenAt? (s : ScanState) (c : Cell) (cs : List Cell) : Option (ScanState × Nat) :=
  let next := Cell.next cs
  if c.char = endChar then (·, 0) <$> s.finish?
  else if c.char = '%' ∧ c.mark.column = 0 then do
    let line := (cs.map (·.char)).takeWhile (!endsLine ·)
    let directive ← directiveOf? line
    let s ← s.boundary? (.directive directive)
    return (s, line.length + if isBreak (Cell.next (cs.drop line.length)) then 1 else 0)
  else if Cell.atMarker '-' (c :: cs) then (·, 2) <$> s.boundary? .documentStart
  else if Cell.atMarker '.' (c :: cs) then (·, 2) <$> s.boundary? .documentEnd
  else
    match c.char with
    | '[' => (·, 0) <$> s.openBracket? c .flowSequenceStart
    | '{' => (·, 0) <$> s.openBracket? c .flowMappingStart
    | ']' => (·, 0) <$> s.closeBracket? .flowSequenceEnd
    | '}' => (·, 0) <$> s.closeBracket? .flowMappingEnd
    | ',' => (·, 0) <$> s.sign? .flowEntry true
    | _ =>
      if c.char = '-' ∧ isGap next then
        (·, 0) <$> (s.blockSign? c .blockSequenceStart).bind (·.sign? .blockEntry true)
      else if c.char = '?' ∧ (s.inFlow ∨ isGap next) then
        (·, 0) <$> (s.blockSign? c .blockMappingStart).bind (·.sign? .key (!s.inFlow))
      else if c.char = ':' ∧ (s.inFlow ∨ isGap next) then (·, 0) <$> s.value? c
      else s.scalarAt? c cs

/-- The state after a token, before and after which keys may have come too late. -/
def ScanState.step? (s : ScanState) (c : Cell) (cs : List Cell) : Option (ScanState × Nat) := do
  let s ← s.retire? c.mark
  let (s, n) ← (s.endBlocks (c.mark.column + 1)).tokenAt? c cs
  match cs.drop n with
  | [] => return (s, n)
  | d :: _ => return (← s.retire? d.mark, n)

/-- The state after what leaves no token, if such begins with a cell before others, and how
many of those it takes: blanks, comments, line breaks, and marks of the byte order at the
beginning of a line. -/
def ScanState.skip? (s : ScanState) (c : Cell) (cs : List Cell) : Option (ScanState × Nat) :=
  if c.char = ' ' ∨ (c.char = '\t' ∧ (s.inFlow ∨ !s.keyAllowed)) then some (s, 0)
  else if isBreak c.char then some ({ s with keyAllowed := s.keyAllowed || !s.inFlow }, 0)
  else if c.char = '#' then some (s, (cs.takeWhile (!endsLine ·.char)).length)
  else if c.char = '\ufeff' ∧ c.mark.column = 0 then some (s, 0)
  else none

/-- The tokens of cells, of which so many belong to what has been read. -/
def ScanState.run (s : ScanState) : Nat → List Cell → List Token
  | _, [] => s.available
  | n + 1, _ :: cs => s.run n cs
  | 0, c :: cs =>
    match s.skip? c cs with
    | some (s, n) => s.run n cs
    | none =>
      match s.step? c cs with
      | some (s, n) => s.run n cs
      | none => s.available

/-- The tokens of a text. A mark of the byte order may begin it. -/
def Token.scan (text : List Char) : List Token :=
  match text with
  | '\ufeff' :: cs => ScanState.run {} 0 (Cell.scan cs)
  | cs => ScanState.run {} 0 (Cell.scan cs)

end SchemaHeaders.Yaml
