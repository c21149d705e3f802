import SeriesQuery.CommandLine.Invocation
import SeriesQuery.Compile
import SeriesQuery.Json
import SeriesQuery.Settings.File
import SeriesQuery.Settings.Sample

/-!
# Running a command

`run` answers a command line over any `System`, which is how it reaches files, the standard input
and the clock. A run ends with a code: 0, 1 for a failure, 2 for a command line that is none, and
101 when date arithmetic has no answer.
-/

namespace SeriesQuery.CommandLine

open Text

/-- What a run needs of its surroundings. -/
structure System (m : Type → Type) where
  /-- The text of a file, if it can be read. -/
  contentOf : Text → m (Option Text)
  /-- Writes a file and tells whether that went well. -/
  writeFile : (path content : Text) → m Bool
  /-- The text of the standard input, if it can be read. -/
  readInput : m (Option Text)
  /-- The present. -/
  now : m Instant
  /-- The variables of the environment. -/
  environment : List (Text × Text)
  /-- The folder in which programs keep their settings. -/
  settingsFolder : Option Text

/-- How a run ends. -/
structure Response where
  code : UInt8
  output : Text := []
  deriving DecidableEq, Repr

namespace Response

def failure : Response := { code := 1 }

def usage : Response := { code := 2 }

def abort : Response := { code := 101 }

end Response

/-- The report on a compiled query. -/
def report (c : Compiled) : Data :=
  .record <|
    [("sql".toList, .text c.sql),
      ("macro".toList, .text (c.kind.elim "none".toList Macro.Kind.tag))]
    ++ (c.fallback.map fun message => ("fallback".toList, Data.text message)).toList
    ++ [("time".toList, .record
      [("from".toList, .integer c.time.lower),
        ("to".toList, .integer c.time.upper),
        ("interval".toList, .integer c.time.interval),
        ("to_is_now".toList, .boolean c.time.upperIsNow)])]

/-- What is printed for a compiled query. -/
def Format.print (format : Format) (c : Compiled) : Text :=
  match format with
  | .sql => c.sql ++ ['\n']
  | .json => Json.indented (report c) ++ ['\n']

section

variable {m : Type → Type} [Monad m] (system : System m)

/-- The files that settings are looked for in when none is named. -/
def defaultFiles : List Text :=
  (system.settingsFolder.map (· ++ "/tsquery/config.toml".toList)).toList
    ++ ["/etc/tsquery/config.toml".toList, "./tsquery.toml".toList]

/-- The settings of the file that is named, or of the first default file that has some. -/
def readSettings (named : Option Text) : m (Option Settings) :=
  match named with
  | some path => do return (← system.contentOf path).bind Settings.read?
  | none => do
    let files ← (defaultFiles system).mapM system.contentOf
    return some (Settings.firstOf (files.filterMap id))

/-- The settings of a run: those of a file, overridden by the environment. -/
def loadSettings (named : Option Text) : m (Option Settings) := do
  return (← readSettings system named).map (Settings.overrideWith system.environment)

/-- The query that is asked for, else the one of the settings. -/
def chooseQuery (settings : Settings) (asked : Option Text) : m (Option Text) :=
  match asked with
  | none => return some settings.target.query
  | some query => if query = ['-'] then system.readInput else return some query

/-- The present that is given as a timestamp, else the one of the clock. -/
def chooseNow (given : Option Text) : m (Option Instant) :=
  match given with
  | some timestamp => return readTimestamp? timestamp
  | none => do return some (← system.now)

/-- The response to `compile`. -/
def runCompile (settings : Settings) (format : Format) (options : CompileOptions) : m Response := do
  let some now ← chooseNow system options.now | return .failure
  let some query ← chooseQuery system settings options.query | return .failure
  if trim query = [] then return .failure
  let some scope := readScope? options.assignments | return .failure
  let request : Request :=
    { now, range := .ofTexts options.lower options.upper, interval := options.interval, scope }
  match { settings.target with query }.compile settings.registry request with
  | .ok compiled => return { code := 0, output := format.print compiled }
  | .error (.error _) => return .failure
  | .error .abort => return .abort

/-- The response to `config`. -/
def runSample (output : Option Text) : m Response :=
  match output with
  | none => return { code := 0, output := sampleSettings }
  | some path => do
    if ← system.writeFile path sampleSettings then return { code := 0 } else return .failure

/-- What `--version` prints. -/
def versionLine : Text := "tsquery 0.1.0\n".toList

/-- The response to a command line. -/
def run (words : List Text) : m Response := do
  match Invocation.read words with
  | .error .version => return { code := 0, output := versionLine }
  | .error .usage => return .usage
  | .ok invocation =>
    let some settings ← loadSettings system invocation.settingsFile | return .failure
    match invocation.command with
    | .compile options => runCompile system settings invocation.format options
    | .sample output => runSample system output

end

end SeriesQuery.CommandLine
