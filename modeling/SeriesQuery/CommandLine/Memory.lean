import SeriesQuery.CommandLine.Path
import SeriesQuery.CommandLine.Run

/-!
# Runs in memory

A system without a disk: a tree of files, the standard input as a text, and a clock that stands
still. Folders are those that something lies in. The run starts in a folder of its own inside the
shared one; new files can be made in these and below them. Elsewhere there are only the null device
and the devices of the standard streams.
-/

namespace SeriesQuery.CommandLine

open Text

/-- What stands at a fixed place and is no file. -/
inductive Device
  | null
  | input
  | output
  | errors
  deriving DecidableEq, Repr

/-- What lies at a place. -/
inductive Node
  | folder
  | file (content : Text)
  | device (device : Device)
  deriving DecidableEq, Repr

/-- The devices and their places. Each stream has a name and, among the open files, a number. -/
def devices : List (Place × Device) :=
  [(["dev", "null"], .null),
    (["dev", "stdin"], .input), (["dev", "fd", "0"], .input),
    (["dev", "stdout"], .output), (["dev", "fd", "1"], .output),
    (["dev", "stderr"], .errors), (["dev", "fd", "2"], .errors)].map
  fun (names, device) => (names.map String.toList, device)

/-- The folder that all runs can write to. -/
def sharedFolder : Place := ["tmp".toList]

/-- The folder that a run starts in. -/
def workFolder : Place := sharedFolder ++ ["run".toList]

/-- The surroundings of a run in memory. -/
structure Memory where
  /-- The files at their places. -/
  files : List (Place × Text) := []
  /-- What is left of the standard input. -/
  input : Text := []
  /-- What was written to the device of the standard output. -/
  output : Text := []

namespace Memory

/-- The memory with a file at a place, where it replaces the one that was there. -/
def put (s : Memory) (place : Place) (content : Text) : Memory :=
  { s with files := (place, content) :: s.files.filter (·.1 ≠ place) }

/-- The memory with these files, under their paths from the folder that the run starts in. -/
def ofFiles (files : List (Text × Text)) (input : Text) : Memory :=
  files.foldl (fun s (path, content) =>
    s.put ((splitAtEach '/' path).foldl Place.step workFolder) content) { input }

/-- Whether a place is a folder: one that something lies in, at any depth, or that the run starts
in. -/
def isFolder (s : Memory) (place : Place) : Bool :=
  place.isPrefixOf workFolder
    || s.files.any (fun (other, _) => place.isPrefixOf other.dropLast)
    || devices.any (fun (other, _) => place.isPrefixOf other.dropLast)

/-- What lies at a place, if anything. -/
def node? (s : Memory) (place : Place) : Option Node :=
  match s.files.lookup place, devices.lookup place with
  | some content, _ => some (.file content)
  | none, some device => some (.device device)
  | none, none => if s.isFolder place then some .folder else none

/-- Where a path leads. -/
def follow? (s : Memory) (path : Text) : Option Place := Place.follow? s.isFolder workFolder path

/-- Whether a new file can be made at a place. -/
def isWritable (place : Place) : Bool :=
  sharedFolder.isPrefixOf place.dropLast
    && decide (byteCount (place.getLast?.getD []) ≤ maxNameBytes)

def contentOf (path : Text) : StateM Memory (Option Text) := do
  let s ← get
  match (s.follow? path).bind s.node? with
  | some (.file content) => return some content
  | some (.device .null) => return some []
  | some (.device .input) =>
    set { s with input := [] }
    return some s.input
  | _ => return none

def writeFile (path content : Text) : StateM Memory Bool := do
  let s ← get
  match s.follow? path with
  | none => return false
  | some place =>
    match s.node? place with
    | some .folder => return false
    | some (.device .output) =>
      set { s with output := s.output ++ content }
      return true
    | some (.device _) => return true
    | some (.file _) =>
      set (s.put place content)
      return true
    | none =>
      if isWritable place then
        set (s.put place content)
        return true
      else return false

def readInput : StateM Memory (Option Text) := do
  let s ← get
  set { s with input := [] }
  return some s.input

/-- The system that runs in memory. -/
def system (environment : List (Text × Text)) (settingsFolder : Text) (now : Instant) :
    System (StateM Memory) where
  contentOf := contentOf
  writeFile := writeFile
  readInput := readInput
  now := return now
  environment := environment
  settingsFolder := some settingsFolder

end Memory

end SeriesQuery.CommandLine
