import SeriesQuery.CommandLine.Grammar
import SeriesQuery.Store
import SeriesQuery.Text.Blank
import SeriesQuery.Variable.Substitution

/-!
# Invocations

What a command line asks for. There are two commands: `compile` turns a query into SQL, `config`
writes the sample settings file. The settings file and the output format can be given before the
command and behind it; the latter counts.
-/

namespace SeriesQuery.CommandLine

open Text

/-- The options of all commands. -/
inductive OptionName
  | settingsFile
  | format
  | lower
  | upper
  | now
  | interval
  | variable
  | output
  deriving DecidableEq, Repr

/-- The options that every command takes. -/
def sharedOptions : List (OptionRule OptionName) :=
  [{ key := .settingsFile, long := "config".toList, short := some 'c', isFile := true },
    { key := .format, long := "format".toList, short := some 'f' }]

/-- What may stand before a command. -/
def programRule : CommandRule OptionName where
  options := sharedOptions
  hasVersion := true
  hasCommands := true

def compileRule : CommandRule OptionName where
  options := sharedOptions ++
    [{ key := .lower, long := "from".toList },
      { key := .upper, long := "to".toList },
      { key := .now, long := "now".toList },
      { key := .interval, long := "interval".toList, short := some 'i' },
      { key := .variable, long := "var".toList, short := some 'V', repeatable := true }]
  plainWords := 1

def sampleRule : CommandRule OptionName where
  options := sharedOptions ++
    [{ key := .output, long := "output".toList, short := some 'o', isFile := true }]

/-- What `compile` is given. -/
structure CompileOptions where
  /-- The query; a hyphen stands for the text of the standard input. -/
  query : Option Text
  lower : Text
  upper : Text
  /-- The present, as a timestamp. -/
  now : Option Text
  interval : Text
  /-- Values of variables, each behind its name and an equals sign. -/
  assignments : List Text
  deriving DecidableEq, Repr

inductive Command
  | compile (options : CompileOptions)
  | sample (output : Option Text)
  deriving DecidableEq, Repr

/-- How SQL is printed. -/
inductive Format
  | sql
  | json
  deriving DecidableEq, Repr

/-- What a command line asks for. -/
structure Invocation where
  settingsFile : Option Text
  format : Format
  command : Command
  deriving DecidableEq, Repr

namespace Invocation

/-- The invocation that a command line spells. -/
def read (words : List Text) : Except Stop Invocation := do
  let outer ← readWords programRule {} words
  match outer.command with
  | none => .error .usage
  | some (name, words) =>
    let shared (inner : Given OptionName) (key : OptionName) : Option Text :=
      (inner.value? key).or (outer.value? key)
    let invocation (inner : Given OptionName) (command : Command) : Invocation :=
      { settingsFile := shared inner .settingsFile
        format := if shared inner .format = some "json".toList then .json else .sql
        command }
    if name = "compile".toList then
      let inner ← readWords compileRule {} words
      return invocation inner <| .compile {
        query := inner.plain.head?
        lower := (inner.value? .lower).getD "now-6h".toList
        upper := (inner.value? .upper).getD "now".toList
        now := inner.value? .now
        interval := (inner.value? .interval).getD "30s".toList
        assignments := inner.values .variable }
    else if name = "config".toList then
      let inner ← readWords sampleRule {} words
      return invocation inner (.sample (inner.value? .output))
    else .error .usage

end Invocation

/-- A variable and its value: several texts if it has commas, which separate them. -/
def readVariable? (s : Text) : Option (Text × Value) :=
  (splitOnce? ['='] s).map fun (name, value) =>
    (trim name,
      if ',' ∈ value then .multi ((splitAtEach ',' value).map trim) else .single value)

/-- The values that variables are given, of which the later ones replace the earlier. -/
def readScope? (assignments : List Text) : Option Scope :=
  (assignments.mapM readVariable?).map Store.ofList

end SeriesQuery.CommandLine
