import SeriesQuery.Text.Basic

/-!
# The grammar of command lines

How the words of a command line are read. A word is an option, by its long name behind two hyphens
or its letter behind one, or a plain word; two hyphens alone make every word behind them plain. An
option takes a value: the rest of its word behind an equals sign or right behind its letter, else
the next word, which may not look like an option. Options that do not say otherwise can be given
once.

`readWords` reads the words of one command from left to right and ends at the first fault.
-/

namespace SeriesQuery.CommandLine

open Text

/-- An option of a command, with the name its value is kept under. -/
structure OptionRule (κ : Type) where
  key : κ
  long : Text
  short : Option Char := none
  /-- Whether the option can be given several times. -/
  repeatable : Bool := false
  /-- Whether the value names a file, which an empty text does not. -/
  isFile : Bool := false

/-- What one command takes. -/
structure CommandRule (κ : Type) where
  options : List (OptionRule κ)
  /-- Whether the command can be asked for its version. -/
  hasVersion : Bool := false
  /-- Whether the first plain word is a command of its own, with the words behind it. -/
  hasCommands : Bool := false
  /-- The number of plain words the command takes. -/
  plainWords : Nat := 0

/-- Why reading words ended early. -/
inductive Stop
  | version
  | usage
  deriving DecidableEq, Repr

/-- The options and plain words given to a command. -/
structure Given (κ : Type) where
  options : List (κ × Text) := []
  plain : List Text := []
  /-- The first plain word of a command that has commands, and the words behind it. -/
  command : Option (Text × List Text) := none

/-- A word as what it looks like. -/
inductive Word
  | endOfOptions
  | long (name : Text) (value : Option Text)
  | short (letter : Char) (rest : Text)
  | plain (s : Text)
  deriving DecidableEq, Repr

def Word.ofText (s : Text) : Word :=
  match s with
  | ['-', '-'] => .endOfOptions
  | '-' :: '-' :: name =>
    match splitOnce? ['='] name with
    | some (name, value) => .long name (some value)
    | none => .long name none
  | '-' :: letter :: rest => .short letter rest
  | s => .plain s

/-- Whether a word cannot be the value of the option before it. -/
def looksLikeOption : Text → Bool
  | '-' :: _ :: _ => true
  | _ => false

section

variable {κ : Type} [DecidableEq κ]

namespace Given

variable (given : Given κ)

/-- The value of an option, the first of several. -/
def value? (key : κ) : Option Text := given.options.lookup key

/-- All values of an option, in order. -/
def values (key : κ) : List Text := (given.options.filter (·.1 = key)).map Prod.snd

/-- One more option. -/
def addOption (rule : OptionRule κ) (value : Text) : Except Stop (Given κ) :=
  if (!rule.repeatable && (given.value? rule.key).isSome) || (rule.isFile && value = []) then
    .error .usage
  else .ok { given with options := given.options ++ [(rule.key, value)] }

/-- One more plain word. -/
def addPlain (command : CommandRule κ) (s : Text) : Except Stop (Given κ) :=
  if given.plain.length < command.plainWords then .ok { given with plain := given.plain ++ [s] }
  else .error .usage

end Given

/-- The options and plain words of a command behind those already given. -/
def readWords (command : CommandRule κ) : (given : Given κ) → List Text → Except Stop (Given κ)
  | given, [] => .ok given
  | given, s :: words =>
    match Word.ofText s with
    | .endOfOptions => words.foldlM (fun given s => given.addPlain command s) given
    | .plain s =>
      if command.hasCommands then .ok { given with command := some (s, words) }
      else do readWords command (← given.addPlain command s) words
    | .long name value =>
      if command.hasVersion && name = "version".toList then
        .error (if value = none then .version else .usage)
      else
        match command.options.find? (·.long = name), value, words with
        | none, _, _ => .error .usage
        | some rule, some value, words => do
          readWords command (← given.addOption rule value) words
        | some _, none, [] => .error .usage
        | some rule, none, value :: words =>
          if looksLikeOption value then .error .usage
          else do readWords command (← given.addOption rule value) words
    | .short letter rest =>
      if command.hasVersion && letter = 'V' then .error .version
      else
        match command.options.find? (·.short = some letter), rest, words with
        | none, _, _ => .error .usage
        | some rule, c :: rest, words => do
          readWords command (← given.addOption rule (if c = '=' then rest else c :: rest)) words
        | some _, [], [] => .error .usage
        | some rule, [], value :: words =>
          if looksLikeOption value then .error .usage
          else do readWords command (← given.addOption rule value) words

end

end SeriesQuery.CommandLine
