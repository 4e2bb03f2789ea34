import ConfigCompiler.Compile.Fingerprint
import ConfigCompiler.Entry.EntrySet

/-!
# Drafts

A `Draft` is a configuration whose entries are resolved kind by kind, before the
attachments of its resources are worked out.

**First phase.**  `Draft.build` resolves permissions, actions, behaviors,
namespaces and resources, each in the order of their keys.  An entry is stored under
its resolved name and claims aliases: its key, the class of an action or behavior,
the types that a resource names and the interfaces it declares.  At last the parents
of resources are replaced by stored names.
-/

namespace ConfigCompiler

/-- A configuration being compiled. -/
structure Draft where
  /-- The raw entries; discovered types are added to them. -/
  store : EntryStore
  /-- The fingerprint of the raw entries before anything was discovered. -/
  fingerprint : String
  sets : PerKind EntrySet
  /-- The interfaces that resources list themselves, by resource. -/
  declaredInterfaces : SortedMap (List String)
  /-- Claims on aliases that were ignored, in order. -/
  collisions : List AliasCollision

namespace Draft

/-- A draft in which nothing is resolved. -/
def start (store : EntryStore) (fingerprint : String) : Draft :=
  ⟨store, fingerprint, PerKind.ofFn (fun _ => EntrySet.empty), ∅, []⟩

/-- The interfaces that a resource lists itself. -/
def interfacesOf (d : Draft) (resource : String) : List String :=
  (d.declaredInterfaces.get? resource).getD []

/-- The options of a resource that are aliases of it. -/
def resourceAliasOptions : List String := ["entity", "interface", "translation"]

/-- The aliases that an entry claims. -/
def claims (kind : EntityKind) (key : String) (resolved : Options) (interfaces : List String) :
    List String :=
  key ::
    match kind with
    | .action => (resolved.str? "class").toList
    | .behavior => (resolved.str? "class").toList
    | .resource => resourceAliasOptions.filterMap resolved.str? ++ interfaces
    | _ => []

/-- Store a resolved entry under its name, with its aliases. -/
def register (d : Draft) (kind : EntityKind) (key : String) (resolved : Options)
    (interfaces : List String) : Except Failure (String × Draft) := do
  let name := Resolver.entryName resolved key
  let set ← (d.sets.get kind).insert kind name key resolved
  let (set, collisions) := set.addAliases kind name (claims kind key resolved interfaces)
  return (name, { d with
    sets := d.sets.set kind set
    collisions := d.collisions ++ collisions })

/-- The interfaces that a raw resource lists, and its other options. -/
def takeInterfaces (key : String) (raw : Options) : Except Failure (List String × Options) :=
  match raw.get? "interfaces" with
  | none => .ok ([], raw)
  | some v =>
      if ValueType.stringList.accepts v then
        .ok (raw.strings "interfaces", raw.erase "interfaces")
      else
        .error (.invalid .resource key
          (.invalidType "interfaces" [ValueType.stringList.name] (ValueType.ofValue v).name))

/-- Resolve and store a resource. -/
def resolveResource (r : Resolver) (d : Draft) (key : String) (raw : Options) :
    Resolution Draft := do
  let (interfaces, raw) ← takeInterfaces key raw
  let resolved ← r.resolveResource key raw d.sets.namespaces.configs d.sets.permissions.configs
  let (name, d) ← d.register .resource key resolved interfaces
  if interfaces.isEmpty then return d
  else return { d with declaredInterfaces := d.declaredInterfaces.insert name interfaces }

/-- Resolve and store an entry. -/
def resolveEntry (r : Resolver) (kind : EntityKind) (d : Draft) (key : String) (raw : Options) :
    Resolution Draft := do
  match kind with
  | .resource => resolveResource r d key raw
  | kind =>
      let resolved ← r.resolveEntry kind key raw
      let (_, d) ← d.register kind key resolved []
      return d

/-- Resolve and store all entries of a kind, in the order of their keys. -/
def resolveKind (r : Resolver) (d : Draft) (kind : EntityKind) : Resolution Draft :=
  (d.store.entries.get kind).entries.foldlM (fun d e => d.resolveEntry r kind e.1 e.2) d

/-- A resource with the stored name of its parent. -/
def linkParent (resources : EntrySet) (name : String) (config : Options) :
    Except Failure Options :=
  match config.str? "parent" with
  | none => .ok config
  | some parent =>
      match resources.canonical? parent with
      | none => .error (.unknownReference .resource name .resource parent)
      | some canonical =>
          if canonical = parent then .ok config
          else .ok (config.insert "parent" (.string canonical))

/-- Give all resources the stored names of their parents. -/
def linkParents (resources : EntrySet) : Except Failure EntrySet := do
  return { resources with configs := ← resources.configs.mapM (linkParent resources) }

/-- Resolve all entries of a store, kind by kind. -/
def build (r : Resolver) (store : EntryStore) : Resolution Draft := do
  let empty := start store (ConfigCompiler.fingerprint store.entries r)
  let d ← EntityKind.all.foldlM (resolveKind r) empty
  let resources ← linkParents d.sets.resources
  return { d with sets := d.sets.set .resource resources }

end Draft

end ConfigCompiler
