import ConfigCompiler.Compile.Persisted
import ConfigCompiler.Lookup.Registries
import ConfigCompiler.Storage.Settings

/-!
# Startup

The way from raw entries to registries.  With the cache enabled, a persisted
configuration is taken if it is current for the inputs; otherwise the entries are
compiled and the result is persisted.  A result that cannot be persisted is used all
the same.
-/

namespace ConfigCompiler

namespace Startup

/-- What is reported on the way. -/
inductive Event where
  | nothingPersisted
  | reused
  | stale
  | unreadable
  | notPersisted
deriving DecidableEq

/-- The words of a report. -/
def Event.message : Event → String
  | nothingPersisted => "No persisted compiled configuration"
  | reused => "Reusing persisted compiled configuration"
  | stale => "Persisted compiled configuration is stale; recompiling"
  | unreadable => "Ignoring unreadable compiled configuration"
  | notPersisted => "Failed to persist compiled configuration"

/-- Why startup stops. -/
inductive StartFailure where
  | compilation (cause : Failure)
  | construction (cause : Failure)
deriving DecidableEq

namespace StartFailure

/-- The outermost words. -/
def message : StartFailure → String
  | compilation _ => "Failed to compile configuration"
  | construction _ => "Failed to construct configuration values"

/-- The cause. -/
def cause : StartFailure → Failure
  | compilation f => f
  | construction f => f

/-- The words of all causes, outermost first. -/
def chain (f : StartFailure) : List String :=
  f.message :: f.cause.message :: (f.cause.violation?.map Violation.message).toList

end StartFailure

/-- Why a persisted configuration does not load. -/
inductive LoadFailure where
  | unreadable (path : String)
  | illFormed (path : String)
deriving DecidableEq

/-- The words of a failure to load. -/
def LoadFailure.message : LoadFailure → String
  | unreadable path => "Failed to read compiled configuration: " ++ path
  | illFormed path => "Failed to parse compiled configuration: " ++ path

/-- Load a persisted configuration. -/
def load (disk : Disk) (path : String) : Except LoadFailure Compiled :=
  match disk.readText? path with
  | none => .error (.unreadable path)
  | some text =>
      match Compiled.ofPersisted? text with
      | none => .error (.illFormed path)
      | some c => .ok c

/-- Persist a configuration, making the directories it stands in.  The answer is the disk and
whether the configuration is on it. -/
def save (disk : Disk) (path : String) (c : Compiled) : Disk × Bool :=
  disk.saveFile path c.persisted.toUTF8.toList

/-- The state of a persisted configuration. -/
inductive PersistedState where
  | absent
  | unreadable
  | current (c : Compiled)
  | stale

/-- The name of a state. -/
def PersistedState.label : PersistedState → String
  | absent => "absent"
  | unreadable => "unreadable"
  | current _ => "current"
  | stale => "stale"

/-- The state of what is persisted at a path, for inputs with a fingerprint. -/
def persistedState (disk : Disk) (path fingerprint : String) : PersistedState :=
  if disk.pathExists path then
    match load disk path with
    | .ok c => if c.isCurrent fingerprint then .current c else .stale
    | .error _ => .unreadable
  else .absent

/-- The report on a state. -/
def PersistedState.event : PersistedState → Event
  | absent => .nothingPersisted
  | unreadable => .unreadable
  | current _ => .reused
  | stale => .stale

/-- How startup went. -/
structure Outcome where
  result : Except StartFailure Registries
  disk : Disk
  events : List Event

/-- Where a compiled configuration comes from, and what that did to the disk. -/
structure Obtained where
  result : Except Failure Compiled
  disk : Disk
  events : List Event

/-- Compile, and persist the result at a path. -/
def compileAndSave (r : Resolver) (tables : SchemaTables) (time : Timestamp) (store : EntryStore)
    (disk : Disk) (path : String) (events : List Event) : Obtained :=
  match ((compile r time store).ask tables).1 with
  | .error f => ⟨.error f, disk, events⟩
  | .ok (c, _) =>
      match save disk path c with
      | (disk, true) => ⟨.ok c, disk, events⟩
      | (disk, false) => ⟨.ok c, disk, events ++ [.notPersisted]⟩

/-- Take the configuration persisted at a path if it is current, or compile. -/
def obtainCached (r : Resolver) (tables : SchemaTables) (time : Timestamp) (store : EntryStore)
    (disk : Disk) (path : String) : Obtained :=
  let state := persistedState disk path (fingerprint store.entries r)
  match state with
  | .current c => ⟨.ok c, disk, [state.event]⟩
  | _ => compileAndSave r tables time store disk path [state.event]

/-- The compiled configuration that settings ask for. -/
def obtain (settings : Settings) (root : String) (r : Resolver) (tables : SchemaTables)
    (time : Timestamp) (store : EntryStore) (disk : Disk) : Obtained :=
  if settings.cacheEnabled then
    obtainCached r tables time store disk (settings.cacheLocation root)
  else ⟨((compile r time store).ask tables).1.map Prod.fst, disk, []⟩

/-- The registries of a compiled configuration, warmed up if settings say so. -/
def registriesOf (settings : Settings) (c : Compiled) : Except StartFailure Registries :=
  let registries := Registries.ofCompiled c
  if settings.warmUp then
    match Registries.warmUp.ask registries with
    | (.ok _, registries) => .ok registries
    | (.error f, _) => .error (.construction f)
  else .ok registries

/-- Start up with a resolver that has been used before, and whose tables are given. -/
def startWith (settings : Settings) (root : String) (r : Resolver) (tables : SchemaTables)
    (time : Timestamp) (store : EntryStore) (disk : Disk) : Outcome :=
  let obtained := obtain settings root r tables time store disk
  match obtained.result with
  | .error f => ⟨.error (.compilation f), obtained.disk, obtained.events⟩
  | .ok c => ⟨registriesOf settings c, obtained.disk, obtained.events⟩

/-- Start up with a resolver that has not been used. -/
def start (settings : Settings) (root : String) (r : Resolver) (time : Timestamp)
    (store : EntryStore) (disk : Disk) : Outcome :=
  startWith settings root r SchemaTables.empty time store disk

end Startup

end ConfigCompiler
