import Lamplighter.Text.Digit

/-! The command line: two values, and flags before, between or after them.

A flag may be cut short as long as one spelling is left. A lone `--` ends the
flags; all that follows is a value. -/

namespace Lamplighter.Command

inductive Flag where
  | help
  | source
  | verbose
  | tracebackJson
  deriving Repr, DecidableEq

def spellings : List (String × Flag) :=
  [("-h", .help), ("--help", .help), ("-source", .source), ("--source", .source),
   ("-verbose", .verbose), ("--verbose", .verbose), ("--traceback-json", .tracebackJson)]

/-- What one argument before a lone `--` is taken for. A flag is `misused` when
something is attached that it has no use for. -/
inductive Word where
  | value (text : String)
  | flag (flag : Flag)
  | misused
  | unknown
  | ambiguous
  deriving Repr, DecidableEq

namespace Word

/-- Digits behind a minus sign, with or without a point before the last of them.
A line feed may close them. -/
def isNegativeNumber (cs : List Char) : Bool :=
  match cs with
  | '-' :: rest =>
    let body := if rest.getLast? = some '\n' then rest.dropLast else rest
    let (whole, fraction) := body.span Text.isDecimalDigit
    match fraction with
    | [] => !whole.isEmpty
    | '.' :: digits => !digits.isEmpty && digits.all Text.isDecimalDigit
    | _ => false
  | _ => false

/-- What is attached to a flag of one minus sign is read as more flags, of one
letter each. There is only one such letter. -/
def attached (letters : List Char) : Word :=
  if !letters.isEmpty && letters.all (· = 'h') then .flag .help else .misused

/-- The flags that a text cut short may stand for. -/
def completions (text : List Char) : List Flag :=
  (spellings.filter fun spelling => text.isPrefixOf spelling.1.toList).map Prod.snd

/-- A word that starts with a minus sign and is no full spelling. -/
def ofAbbreviation (text : String) : Word :=
  match text.toList with
  | '-' :: '-' :: rest =>
    let (name, tail) := rest.span (· ≠ '=')
    match completions ('-' :: '-' :: name) with
    | [] => plain text
    | [found] => if tail.isEmpty then .flag found else .misused
    | _ => .ambiguous
  | '-' :: 'h' :: letters => attached letters
  | cs =>
    match completions cs with
    | [] => plain text
    | [found] => .flag found
    | _ => .ambiguous
where
  /-- No flag at all: a value if it could not be meant as one. -/
  plain (text : String) : Word :=
    if isNegativeNumber text.toList || text.toList.contains ' ' then .value text else .unknown

/-- A text behind an equals sign is attached to the flag in front of it. -/
def ofText (text : String) : Word :=
  match text.toList with
  | '-' :: _ :: _ =>
    match spellings.lookup text with
    | some found => .flag found
    | none =>
      let (name, tail) := text.toList.span (· ≠ '=')
      if tail.isEmpty || (spellings.lookup (String.ofList name)).isNone then ofAbbreviation text
      else if ['-', '-'].isPrefixOf name then .misused
      else attached (tail.drop 1)
  | _ => .value text

def value? : Word → Option String
  | value text => some text
  | _ => none

end Word

/-- There is no program when a second lone `--` stands in its place. -/
structure Options where
  map : String
  program : Option String
  literal : Bool
  verbose : Bool
  tracebackJson : Bool
  deriving Repr, DecidableEq

/-- Why nothing is run. -/
inductive Usage where
  | help
  | invalid
  deriving Repr, DecidableEq

namespace Options

/-- The first word that ends the reading on the spot. -/
def halt? : List Word → Option Usage
  | [] => none
  | .flag .help :: _ => some .help
  | .misused :: _ => some .invalid
  | _ :: words => halt? words

/-- The values behind the last flag. -/
def lastStretch (words : List Word) : List String :=
  (words.reverse.map Word.value?).takeWhile Option.isSome |>.reverse.filterMap id

/-- Map and program from the values. The first lone `--` is left over when no value
of the last stretch stands next to it. A second one counts as a value, except for the
program when the map belongs to the last stretch too. -/
def ofValues (words : List Word) (back : List String) : Except Usage Options :=
  let values := words.filterMap Word.value?
  let stretch := lastStretch words
  if back.length = 1 && stretch.isEmpty then .error .invalid
  else
    match values ++ back.drop 1 with
    | [map, program] =>
      let missing := program = "--" && stretch.length = values.length
      .ok ⟨map, if missing then none else some program, words.contains (.flag .source),
        words.contains (.flag .verbose), words.contains (.flag .tracebackJson)⟩
    | _ => .error .invalid

/-- An unclear abbreviation is refused first. A word that ends the reading comes
before everything that only shows once all words are read. -/
def parse (arguments : List String) : Except Usage Options :=
  let (front, back) := arguments.span (· ≠ "--")
  let words := front.map Word.ofText
  if words.contains .ambiguous then .error .invalid
  else
    match halt? words with
    | some usage => .error usage
    | none => if words.contains .unknown then .error .invalid else ofValues words back

end Options
end Lamplighter.Command
