import ConfigCompiler.Json.Document
import ConfigCompiler.Number.Word
import ConfigCompiler.Storage.Disk
import ConfigCompiler.Toml.Reader
import ConfigCompiler.Value.Overlay

/-!
# Settings

Settings are read from a file of the user and a file of the project, either of which
may be absent.  With both, the tables are merged, the project's counting, and the
result is decoded.

**Failures.**  A file that is there has to be readable text and well-formed.  A
single file that does not decode is called ill-formed too; two files that do not
decode once merged are reported together.

**One file or two.**  A single file is decoded as it stands: its integers may take 128
bits, and where an array stands for a record, items beyond the fields are not looked
at.  Tables that are merged have integers of 64 bits, no such items may be there, and a
table in them may stand for a date or time.
-/

namespace ConfigCompiler

/-- Settings of the compiler. -/
structure Settings where
  /-- Whether the compiled configuration is persisted. -/
  cacheEnabled : Bool := false
  /-- Where it is persisted; taken from the project directory. -/
  cachePath : String := ".resconf/compiled.json"
  /-- Whether all records are constructed at startup. -/
  warmUp : Bool := true
deriving DecidableEq

/-- Why settings cannot be loaded. -/
inductive SettingsFailure where
  | unreadable (path : String)
  | illFormed (path : String)
  | mergeIllFormed
deriving DecidableEq

/-- The words of a failure. -/
def SettingsFailure.message : SettingsFailure → String
  | unreadable path => "Failed to read settings: " ++ path
  | illFormed path => "Failed to parse settings: " ++ path
  | mergeIllFormed => "Failed to deserialize merged settings"

namespace Settings

/-- The settings without any file. -/
def initial : Settings := {}

/-- The directory of a project that settings and results stand in. -/
def projectDirectory : String := ".resconf"

/-- Where the settings of a project stand. -/
def projectPath (root : String) : String :=
  Path.join (Path.join root projectDirectory) "settings.toml"

/-- Where the compiled configuration of a project is persisted. -/
def cacheLocation (s : Settings) (root : String) : String := Path.join root s.cachePath

/-- A field, or what counts without it. -/
def fieldOr? {α : Type} (decode : Json.Document → Option α) (fallback : α) :
    Option Json.Document → Option α
  | none => some fallback
  | some d => decode d

/-- The settings of the cache: whether it is enabled, and its path. -/
def decodeCache? (d : Json.Document) : Option (Bool × String) := do
  match ← d.record? ["enabled", "path"] with
  | [enabled, path] =>
      return (← fieldOr? Json.Document.bool? initial.cacheEnabled enabled,
        ← fieldOr? Json.Document.text? initial.cachePath path)
  | _ => none

/-- The settings of the registries: whether they are warmed up. -/
def decodeRegistry? (d : Json.Document) : Option Bool := do
  match ← d.record? ["warm_up"] with
  | [warmUp] => fieldOr? Json.Document.bool? initial.warmUp warmUp
  | _ => none

/-- The settings that a value stands for. -/
def ofValue? (v : Value) : Option Settings := do
  match ← (Json.Document.ofValue v).record? ["cache", "registry"] with
  | [cache, registry] =>
      let (enabled, path) ←
        fieldOr? decodeCache? (initial.cacheEnabled, initial.cachePath) cache
      return ⟨enabled, path, ← fieldOr? decodeRegistry? initial.warmUp registry⟩
  | _ => none

/-- The settings as a value. -/
def toValue (s : Settings) : Value :=
  let cache := SortedMap.ofList [("enabled", .bool s.cacheEnabled), ("path", .string s.cachePath)]
  let registry := SortedMap.singleton "warm_up" (Value.bool s.warmUp)
  .object (SortedMap.ofList [("cache", .object cache), ("registry", .object registry)])

/-- How many fields the records in the settings have. -/
def recordSizes : List (String × Nat) := [("cache", 2), ("registry", 1)]

/-- A table without the items that no field of a record is there for. -/
def withinRecords (fields : Toml.Fields) : Toml.Fields :=
  fields.map (fun (name, item) =>
    (name, match recordSizes.lookup name with
      | some size => item.firstItems size
      | none => item))

/-- What a settings file is read as. -/
def readFile {α : Type} (disk : Disk) (path : String) (decode : Toml.Fields → Option α) :
    Except SettingsFailure α :=
  match disk.readText? path with
  | none => .error (.unreadable path)
  | some text =>
      match (Toml.read? text).bind decode with
      | none => .error (.illFormed path)
      | some a => .ok a

/-- How a single file is read. -/
def singleReading : Toml.Reading := ⟨Word.isWide, false⟩

/-- How files that are merged are read. -/
def mergedReading : Toml.Reading := ⟨Word.isSigned, true⟩

/-- The settings that the table of a single file stands for. -/
def ofFields? (fields : Toml.Fields) : Option Settings :=
  (Toml.fieldValues? singleReading (withinRecords fields)).bind (fun table =>
    ofValue? (.object table))

/-- The settings of one file. -/
def loadFile (disk : Disk) (path : String) : Except SettingsFailure Settings :=
  readFile disk path ofFields?

/-- The table of a file that is merged with another one. -/
def readTable (disk : Disk) (path : String) : Except SettingsFailure Options :=
  readFile disk path (Toml.fieldValues? mergedReading)

/-- The settings of two files, the second counting. -/
def loadMerged (disk : Disk) (user project : String) : Except SettingsFailure Settings := do
  let base ← readTable disk user
  let top ← readTable disk project
  match ofValue? (.object (Options.merge base top)) with
  | some s => .ok s
  | none => .error .mergeIllFormed

/-- The settings of the files that are there, or none if there is neither. -/
def load (disk : Disk) (user? : Option String) (project : String) :
    Except SettingsFailure (Option Settings) :=
  match user?.filter disk.pathExists, disk.pathExists project with
  | none, false => .ok none
  | some user, false => (loadFile disk user).map some
  | none, true => (loadFile disk project).map some
  | some user, true => (loadMerged disk user project).map some

end Settings

end ConfigCompiler
