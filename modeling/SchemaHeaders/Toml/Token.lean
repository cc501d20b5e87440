import SchemaHeaders.Text.CodePoint

/-!
# TOML tokens

`Token.scan` cuts a TOML text into tokens, or fails if the text is not made of them. Blanks
and comments leave no token. What is neither a string nor a sign of its own is a `bare` run
of characters, which a key takes for words and dots and a value for a scalar; a date and the
time after one space are one run. A bracket knows whether it touches another of its kind,
as the brackets around the name of a list of tables must.
-/

namespace SchemaHeaders.Toml

/-- A token of a TOML text. -/
inductive Token where
  | bare (run : List Char)
  | text (content : String) (multiline : Bool)
  | equals
  | comma
  | openBracket (glued : Bool)
  | closeBracket (glued : Bool)
  | openBrace
  | closeBrace
  | newline
  deriving DecidableEq

/-! ## Characters -/

/-- Whether a character may stand in a comment or a string: no control but the tab. -/
def isAllowed (c : Char) : Bool := c == '\t' || (0x20 ≤ c.toNat && c.toNat ≠ 0x7F)

/-- Whether a character separates tokens on a line. -/
def isSpace (c : Char) : Bool := c == ' ' || c == '\t'

/-- Whether a character ends a bare run. -/
def endsRun (c : Char) : Bool := " \t\n\r#\"'=,[]\x7b\x7d".toList.contains c

/-- The character that a backslash and a letter stand for. -/
def shortEscape? : Char → Option Char
  | 'b' => some '\x08'
  | 't' => some '\t'
  | 'n' => some '\n'
  | 'f' => some '\x0c'
  | 'r' => some '\r'
  | 'e' => some '\x1b'
  | '"' => some '"'
  | '\\' => some '\\'
  | _ => none

/-- The character that an escape after a backslash stands for, and the number of characters
of the escape. -/
def escapeAt? : List Char → Option (Char × Nat)
  | 'x' :: a :: b :: _ => (·, 3) <$> Text.charOfHex? [a, b]
  | 'u' :: a :: b :: c :: d :: _ => (·, 5) <$> Text.charOfHex? [a, b, c, d]
  | 'U' :: a :: b :: c :: d :: e :: f :: g :: h :: _ =>
    (·, 9) <$> Text.charOfHex? [a, b, c, d, e, f, g, h]
  | e :: _ => (·, 1) <$> shortEscape? e
  | [] => none

/-! ## Strings on one line -/

/-- The content of a string whose opening quote has been read, of which so many characters
have been dealt with, and the number of characters up to its closing quote, which is
counted. -/
def basicAt? : Nat → List Char → Option (List Char × Nat)
  | _, [] => none
  | n + 1, _ :: cs => (fun (s, k) => (s, k + 1)) <$> basicAt? n cs
  | 0, '"' :: _ => some ([], 1)
  | 0, '\\' :: cs =>
    match escapeAt? cs with
    | some (c, n) => (fun (s, k) => (c :: s, k + 1)) <$> basicAt? n cs
    | none => none
  | 0, c :: cs =>
    if isAllowed c then (fun (s, k) => (c :: s, k + 1)) <$> basicAt? 0 cs else none

/-- The content of a literal string, and the number of characters up to its closing quote,
which is counted. -/
def literalAt? : List Char → Option (List Char × Nat)
  | [] => none
  | '\'' :: _ => some ([], 1)
  | c :: cs =>
    if isAllowed c then (fun (s, k) => (c :: s, k + 1)) <$> literalAt? cs else none

/-! ## Strings on several lines -/

/-- The number of characters of a line break, if one begins here. -/
def breakLength : List Char → Nat
  | '\n' :: _ => 1
  | '\r' :: '\n' :: _ => 2
  | _ => 0

/-- The number of characters that a backslash before a line break joins: blanks up to the
break, and all blanks and breaks after it. None if no break follows. -/
def joinLength? (cs : List Char) : Option Nat :=
  let blanks := (cs.takeWhile isSpace).length
  if breakLength (cs.drop blanks) = 0 then none
  else some (cs.takeWhile fun c => isSpace c || c == '\n' || c == '\r').length

/-- The quotes that belong to a string that ends in three quotes, of which three have been
read: up to two more. -/
def extraQuotes (quote : Char) : List Char → List Char
  | a :: b :: _ => if a = quote then if b = quote then [a, b] else [a] else []
  | [a] => if a = quote then [a] else []
  | [] => []

/-- Whether a character may stand in a string on several lines, before others. -/
def isAllowedInLines (c : Char) (cs : List Char) : Bool :=
  isAllowed c || c == '\n' || (c == '\r' && cs.head? == some '\n')

/-- Like `basicAt?`, for a string between three quotes. -/
def basicLinesAt? : Nat → List Char → Option (List Char × Nat)
  | _, [] => none
  | n + 1, _ :: cs => (fun (s, k) => (s, k + 1)) <$> basicLinesAt? n cs
  | 0, '"' :: '"' :: '"' :: cs =>
    let extra := extraQuotes '"' cs
    some (extra, 3 + extra.length)
  | 0, '\\' :: cs =>
    match joinLength? cs with
    | some n => (fun (s, k) => (s, k + 1)) <$> basicLinesAt? n cs
    | none =>
      match escapeAt? cs with
      | some (c, n) => (fun (s, k) => (c :: s, k + 1)) <$> basicLinesAt? n cs
      | none => none
  | 0, c :: cs =>
    if isAllowedInLines c cs then (fun (s, k) => (c :: s, k + 1)) <$> basicLinesAt? 0 cs
    else none

/-- Like `literalAt?`, for a string between three quotes. -/
def literalLinesAt? : List Char → Option (List Char × Nat)
  | [] => none
  | '\'' :: '\'' :: '\'' :: cs =>
    let extra := extraQuotes '\'' cs
    some (extra, 3 + extra.length)
  | c :: cs =>
    if isAllowedInLines c cs then (fun (s, k) => (c :: s, k + 1)) <$> literalLinesAt? cs
    else none

/-- The token of a string on several lines, by the reader of its content; a line break right
after the opening quotes, of which two are still to be read, is left out. -/
def linesToken? (read : List Char → Option (List Char × Nat)) (cs : List Char) :
    Option (Token × Nat) :=
  let n := 2 + breakLength (cs.drop 2)
  (fun (s, k) => (.text (String.ofList s) true, n + k)) <$> read (cs.drop n)

/-! ## Bare runs -/

/-- Whether a run is a date: four, two and two digits with hyphens between. -/
def isDate : List Char → Bool
  | [a, b, c, d, '-', e, f, '-', g, h] => [a, b, c, d, e, f, g, h].all Char.isDigit
  | _ => false

/-- A bare run: up to a character that ends it, and on over one space from a date to the
time that follows. -/
def runAt (cs : List Char) : List Char :=
  let run := cs.takeWhile (!endsRun ·)
  match cs.drop run.length with
  | ' ' :: c :: rest =>
    if isDate run && c.isDigit then run ++ ' ' :: (c :: rest).takeWhile (!endsRun ·) else run
  | _ => run

/-! ## The scan -/

/-- The token that begins with a character after another and before others, if it leaves
one, and how many of those it takes. -/
def tokenAt? (before : Option Char) (c : Char) (cs : List Char) : Option (Option Token × Nat) :=
  match c, cs with
  | '=', _ => some (some .equals, 0)
  | ',', _ => some (some .comma, 0)
  | '[', _ => some (some (.openBracket (before == some '[')), 0)
  | ']', _ => some (some (.closeBracket (before == some ']')), 0)
  | '{', _ => some (some .openBrace, 0)
  | '}', _ => some (some .closeBrace, 0)
  | '\n', _ => some (some .newline, 0)
  | '\r', '\n' :: _ => some (some .newline, 1)
  | '\r', _ => none
  | '#', cs =>
    let comment := cs.takeWhile fun c => c ≠ '\n' && c ≠ '\r'
    if comment.all isAllowed then some (none, comment.length) else none
  | '"', '"' :: '"' :: _ => (fun (t, n) => (some t, n)) <$> linesToken? (basicLinesAt? 0) cs
  | '"', _ => (fun (s, n) => (some (.text (String.ofList s) false), n)) <$> basicAt? 0 cs
  | '\'', '\'' :: '\'' :: _ => (fun (t, n) => (some t, n)) <$> linesToken? literalLinesAt? cs
  | '\'', _ => (fun (s, n) => (some (.text (String.ofList s) false), n)) <$> literalAt? cs
  | c, cs =>
    if isSpace c then some (none, 0)
    else
      let run := runAt (c :: cs)
      some (some (.bare run), run.length - 1)

/-- The tokens of a text after a character, of which so many characters belong to the token
before. -/
def Token.scanFrom : Option Char → Nat → List Char → Option (List Token)
  | _, _, [] => some []
  | _, n + 1, c :: cs => scanFrom (some c) n cs
  | before, 0, c :: cs =>
    match tokenAt? before c cs with
    | none => none
    | some (none, n) => scanFrom (some c) n cs
    | some (some t, n) => (t :: ·) <$> scanFrom (some c) n cs

/-- The tokens of a text. A mark of the byte order may begin it. -/
def Token.scan (text : List Char) : Option (List Token) :=
  match text with
  | '\ufeff' :: cs => scanFrom none 0 cs
  | cs => scanFrom none 0 cs

end SchemaHeaders.Toml
