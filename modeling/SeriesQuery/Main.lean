import SeriesQuery.CommandLine.Run
import Std.Time

/-!
# The program

The command line over the real system: files on disk, the standard streams, the clock of the
machine.
-/

namespace SeriesQuery.CommandLine

/-- The text of a file of bytes, if it is UTF-8. -/
def textOfBytes (bytes : ByteArray) : Option Text := (String.fromUTF8? bytes).map String.toList

def readDisk (path : Text) : IO (Option Text) := do
  try return textOfBytes (← IO.FS.readBinFile (String.ofList path))
  catch _ => return none

def writeDisk (path content : Text) : IO Bool := do
  try
    IO.FS.writeFile (String.ofList path) (String.ofList content)
    return true
  catch _ => return false

/-- The bytes that are left of a stream. -/
partial def readRest (stream : IO.FS.Stream) (bytes : ByteArray) : IO ByteArray := do
  let more ← stream.read 65536
  if more.isEmpty then return bytes else readRest stream (bytes ++ more)

/-- The instant that the clock of the machine shows. -/
def clock : IO Instant := do
  let nanos := (← Std.Time.Timestamp.now).toNanosecondsSinceUnixEpoch.val
  return (Instant.ofSeconds? (nanos / nanosPerSecond) (nanos % nanosPerSecond).toNat).getD
    .epoch

/-- The variables of the environment that settings are overridden with. -/
def settingVariables : List String :=
  ["TSQUERY_DATABASE", "TSQUERY_TABLE", "TSQUERY_DATE_COL", "TSQUERY_DATE_TIME_COL",
    "TSQUERY_INTERVAL", "TSQUERY_LOG_LEVEL", "TSQUERY_LOG_FORMAT"]

/-- The folder in which programs keep their settings. -/
def settingsFolder : IO (Option Text) := do
  match ← IO.getEnv "XDG_CONFIG_HOME", ← IO.getEnv "HOME" with
  | some folder, home =>
    if folder.startsWith "/" then return some folder.toList
    else return home.map fun home => home.toList ++ "/.config".toList
  | none, home => return home.map fun home => home.toList ++ "/.config".toList

/-- The system that the program runs on. -/
def machine : IO (System IO) := do
  let overrides ← settingVariables.filterMapM fun name => do
    return (← IO.getEnv name).map fun value => (name.toList, value.toList)
  let folder ← settingsFolder
  return {
    contentOf := readDisk
    writeFile := writeDisk
    readInput := do return textOfBytes (← readRest (← IO.getStdin) .empty)
    now := clock
    environment := overrides
    settingsFolder := folder }

end SeriesQuery.CommandLine

open SeriesQuery.CommandLine in
def main (words : List String) : IO UInt32 := do
  let response ← run (← machine) (words.map String.toList)
  IO.print (String.ofList response.output)
  return response.code.toUInt32
