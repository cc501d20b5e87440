import SchemaHeaders.PathName

/-!
# Arguments

`Request.ofArguments` reads the arguments of the command line. Options may stand before the
command and after it: each option at most once in each place, of which the later counts, and
`--verbose` not together with `--quiet` in one place. The version is shown as soon as it is
asked for, whatever follows.
-/

namespace SchemaHeaders.CommandLine

/-- What a run is to do. -/
inductive Command where
  | generate
  | check
  deriving DecidableEq

/-- The command of a name. -/
def Command.ofName? : String → Option Command
  | "generate" => some generate
  | "check" => some check
  | _ => none

/-- The options of a run. -/
structure Options where
  command : Command := .generate
  config : Option PathName := none
  schema : Option PathName := none
  output : Option PathName := none
  verbose : Bool := false
  quiet : Bool := false
  deriving DecidableEq

/-- What is asked for. -/
inductive Request where
  | run (options : Options)
  | version
  /-- nothing that makes sense -/
  | rejected
  deriving DecidableEq

/-! ## Options -/

/-- An option. -/
inductive Flag where
  | config
  | schema
  | output
  | verbose
  | quiet
  | version
  deriving DecidableEq

namespace Flag

/-- Whether a value belongs to an option. -/
def takesValue : Flag → Bool
  | config | schema | output => true
  | verbose | quiet | version => false

/-- The option of a letter. -/
def ofLetter? : Char → Option Flag
  | 'c' => some config
  | 's' => some schema
  | 'o' => some output
  | 'v' => some verbose
  | 'q' => some quiet
  | 'V' => some version
  | _ => none

/-- The option of a word. -/
def ofWord? : String → Option Flag
  | "config" => some config
  | "schema" => some schema
  | "output" => some output
  | "verbose" => some verbose
  | "quiet" => some quiet
  | "version" => some version
  | _ => none

end Flag

/-- The options in one place, before the command or after it. -/
structure Given where
  config : Option PathName := none
  schema : Option PathName := none
  output : Option PathName := none
  verbose : Bool := false
  quiet : Bool := false

namespace Given

/-- One more option with its value, which is not empty. -/
def addValue? (g : Given) (flag : Flag) (value : List Char) : Option Given :=
  let path : PathName := ⟨String.ofList value⟩
  if value = [] then none
  else
    match flag with
    | .config => if g.config.isSome then none else some { g with config := some path }
    | .schema => if g.schema.isSome then none else some { g with schema := some path }
    | .output => if g.output.isSome then none else some { g with output := some path }
    | _ => none

/-- One more option without a value. -/
def add? (g : Given) : Flag → Option Given
  | .verbose => if g.verbose then none else some { g with verbose := true }
  | .quiet => if g.quiet then none else some { g with quiet := true }
  | _ => none

/-- Whether options contradict each other. -/
def conflicts (g : Given) : Bool := g.verbose && g.quiet

/-- The options of a run with those before the command and those after it. -/
def options (before after : Given) (command : Command) : Options where
  command := command
  config := after.config <|> before.config
  schema := after.schema <|> before.schema
  output := after.output <|> before.output
  verbose := before.verbose || after.verbose
  quiet := before.quiet || after.quiet

end Given

/-! ## Arguments -/

/-- What an argument or a part of it leads to. -/
inductive Move where
  | on (given : Given)
  /-- the next argument is the value of an option -/
  | wants (given : Given) (flag : Flag)
  | version
  | rejected

/-- An option that has no value attached. The version is only known before the command. -/
def takeFlag (top : Bool) (g : Given) (flag : Flag) : Move :=
  if flag = .version then if top then .version else .rejected
  else if flag.takesValue then .wants g flag
  else
    match g.add? flag with
    | some g => .on g
    | none => .rejected

/-- An option with a value attached. -/
def takeValue (g : Given) (flag : Flag) (value : List Char) : Move :=
  match g.addValue? flag value with
  | some g => .on g
  | none => .rejected

/-- Letters after a hyphen, of which the first that takes a value has the rest for it. -/
def takeLetters (top : Bool) (g : Given) : List Char → Move
  | [] => .on g
  | c :: cs =>
    match Flag.ofLetter? c with
    | none => .rejected
    | some flag =>
      if flag.takesValue then
        match cs with
        | [] => .wants g flag
        | '=' :: value => takeValue g flag value
        | value => takeValue g flag value
      else
        match takeFlag top g flag with
        | .on g => takeLetters top g cs
        | move => move

/-- A word after two hyphens, with a value after an equals sign or none. -/
def takeWord (top : Bool) (g : Given) (cs : List Char) : Move :=
  let word := cs.takeWhile (· ≠ '=')
  match Flag.ofWord? (String.ofList word), cs.drop word.length with
  | none, _ => .rejected
  | some flag, [] => takeFlag top g flag
  | some flag, _ :: value => takeValue g flag value

/-- Whether an argument is taken for an option. -/
def isOption (cs : List Char) : Bool := cs.head? == some '-' && cs ≠ ['-']

/-- How the arguments in one place end. -/
inductive Ending where
  /-- with the last argument -/
  | finished (given : Given)
  /-- with an argument that is no option, before others -/
  | word (given : Given) (word : List Char) (others : List (List Char))
  | version
  | rejected

/-- Reads the options in one place, where the next argument is the value of `wanted`, if that
is given. -/
def takeOptions (top : Bool) : Option Flag → Given → List (List Char) → Ending
  | none, g, [] => .finished g
  | some _, _, [] => .rejected
  | some flag, g, a :: as =>
    if isOption a then .rejected
    else
      match g.addValue? flag a with
      | some g => takeOptions top none g as
      | none => .rejected
  | none, g, a :: as =>
    let move? : Option Move :=
      match a with
      | ['-', '-'] => none
      | '-' :: '-' :: word => some (takeWord top g word)
      | '-' :: c :: letters => some (takeLetters top g (c :: letters))
      | _ => none
    match move? with
    | some (.on g) => takeOptions top none g as
    | some (.wants g flag) => takeOptions top (some flag) g as
    | some .version => .version
    | some .rejected => .rejected
    | none =>
      if a = ['-', '-'] then if as = [] then .finished g else .rejected
      else .word g a as

/-- Reads the arguments after a command. -/
def takeAfter (before : Given) (command : Command) (as : List (List Char)) : Request :=
  match takeOptions false none {} as with
  | .finished after =>
    if before.conflicts || after.conflicts then .rejected
    else .run (before.options after command)
  | _ => .rejected

/-- What arguments ask for. -/
def Request.ofArguments (arguments : List String) : Request :=
  match takeOptions true none {} (arguments.map String.toList) with
  | .finished g => if g.conflicts then .rejected else .run (g.options {} .generate)
  | .word g word as =>
    match Command.ofName? (String.ofList word) with
    | some command => takeAfter g command as
    | none => .rejected
  | .version => .version
  | .rejected => .rejected

end SchemaHeaders.CommandLine
